import Testkit.Handler.Build
import Testkit.Proofs.Sse.ReadBack
import Testkit.Proofs.Stream.Delivery
import Testkit.Sse.Endpoint

/-! What arrives at the other end of an event stream: the events that were due to the connection, each
once and in order. The steps of such an endpoint are those of an endpoint that is given the encoded
chunks. -/

namespace Testkit

namespace SseItem

theorem chunk_ne_nil (i : SseItem) : i.chunk ≠ [] := by
  intro h
  have htext : some i.text = some "" := by
    rw [← Bytes.text?_ofText, ← chunk, h]
    rfl
  cases i with
  | event e => simp [text, SseEvent.text, SseEvent.line] at htext
  | comment c => simp [text] at htext

/-- Whether no text of the item has a line end inside. -/
def OneLined : SseItem → Prop
  | .event e => e.OneLined
  | .comment c => OneLine c.toList

theorem OneLined.comment {i : SseItem} (h : i.OneLined) : i.CommentOneLine := by
  cases i with
  | event e => trivial
  | comment c => exact h

theorem OneLined.event {i : SseItem} (h : i.OneLined) {e : SseEvent} (he : i.event? = some e) :
    e.OneLined := by
  cases i with
  | event e' => exact Option.some.inj he ▸ h
  | comment c => simp [event?] at he

theorem events_flatMap_chunk {items : List SseItem} (h : ∀ i ∈ items, i.OneLined) :
    (Bytes.text? (items.flatMap chunk)).map SseReader.events = some (items.filterMap event?) := by
  have hevents : ∀ e ∈ items.filterMap event?, SseReader.events e.text = [e] := by
    intro e he
    obtain ⟨i, hi, hie⟩ := List.mem_filterMap.mp he
    exact ((h i hi).event hie).events_text
  rw [text?_flatMap_chunk, Option.map_some, events_join items fun i hi => (h i hi).comment,
    (flatMap_eq_self_iff SseEvent.events_text_ne_nil).mpr hevents]

end SseItem

namespace SseOp

def wire : SseOp → StreamOp
  | .enqueue i => .enqueue i.chunk
  | .send i => .send i.chunk
  | .endAll => .endAll
  | .beginClose => .beginClose
  | .request flush => .request flush
  | .poll id => .poll id
  | .drop id => .drop id

def item? : SseOp → Option SseItem
  | .enqueue i => some i
  | .send i => some i
  | _ => none

/-- What waits for a connection because of a step that follows `before`. -/
def leaves (before : List SseOp) : SseOp → List SseItem
  | .enqueue i =>
    if .beginClose ∈ before ∨ registeredAfter (before.map wire) ≠ [] then [] else [i]
  | _ => []

end SseOp

/-- The events and comments that wait because of the later steps and were not given to a connection
since. -/
def itemsWaitingFrom (before : List SseOp) : List SseOp → List SseItem
  | [] => []
  | op :: later =>
    (if .request true ∈ later then [] else op.leaves before) ++ itemsWaitingFrom (before ++ [op]) later

def itemsWaitingAfter (ops : List SseOp) : List SseItem := itemsWaitingFrom [] ops

/-- Those handed over until the connections are ended or the endpoint is closed. -/
def itemsHandedOver (ops : List SseOp) : List SseItem :=
  (ops.takeWhile fun op => op ≠ .endAll ∧ op ≠ .beginClose).filterMap SseOp.item?

theorem SseOp.chunk?_wire (op : SseOp) : op.wire.chunk? = op.item?.map SseItem.chunk := by
  cases op <;> simp [wire, StreamOp.chunk?, item?, SseItem.chunk_ne_nil]

theorem SseOp.mem_map_wire (op : SseOp) (h : op.item? = none) (ops : List SseOp) :
    op.wire ∈ ops.map wire ↔ op ∈ ops := by
  rw [List.mem_map]
  constructor
  · rintro ⟨x, hx, he⟩
    cases op <;> cases x <;> simp_all [wire, item?]
  · exact fun hm => ⟨op, hm, rfl⟩

theorem SseOp.leaves_wire (before : List SseOp) (op : SseOp) :
    op.wire.leaves (before.map wire) = (op.leaves before).map SseItem.chunk := by
  cases op with
  | enqueue i =>
    have hclose := mem_map_wire .beginClose rfl before
    simp only [wire] at hclose
    simp only [wire, leaves, StreamOp.leaves, List.isEmpty_iff, i.chunk_ne_nil, false_or, hclose]
    split <;> rfl
  | _ => rfl

theorem waitingFrom_map_wire (before ops : List SseOp) :
    waitingFrom (before.map SseOp.wire) (ops.map SseOp.wire) =
      (itemsWaitingFrom before ops).map SseItem.chunk := by
  induction ops generalizing before with
  | nil => rfl
  | cons op ops ih =>
    have hrequest := SseOp.mem_map_wire (.request true) rfl ops
    have hrest := ih (before ++ [op])
    rw [List.map_append, List.map_singleton] at hrest
    simp only [SseOp.wire] at hrequest
    simp only [List.map_cons, waitingFrom, itemsWaitingFrom, List.map_append, hrest, hrequest,
      SseOp.leaves_wire]
    split <;> rfl

theorem handedOver_map_wire (ops : List SseOp) :
    handedOver (ops.map SseOp.wire) = (itemsHandedOver ops).map SseItem.chunk := by
  have hgoes : (fun op : StreamOp => decide (op ≠ .endAll ∧ op ≠ .beginClose)) ∘ SseOp.wire =
      fun op : SseOp => decide (op ≠ .endAll ∧ op ≠ .beginClose) := by
    funext op
    cases op <;> simp [SseOp.wire]
  have hchunk : StreamOp.chunk? ∘ SseOp.wire = fun op => op.item?.map SseItem.chunk :=
    funext SseOp.chunk?_wire
  rw [handedOver, List.takeWhile_map, hgoes, List.filterMap_map, hchunk, itemsHandedOver,
    List.map_filterMap]

theorem itemsWaitingFrom_subset (before ops : List SseOp) :
    itemsWaitingFrom before ops ⊆ ops.filterMap SseOp.item? := by
  induction ops generalizing before with
  | nil => exact List.Subset.refl _
  | cons op ops ih =>
    have hop : op.leaves before ⊆ op.item?.toList := by
      cases op with
      | enqueue i =>
        rw [SseOp.leaves]
        split
        · exact List.nil_subset _
        · exact List.Subset.refl _
      | _ => exact List.nil_subset _
    have hsplit : (op :: ops).filterMap SseOp.item? = op.item?.toList ++ ops.filterMap SseOp.item? := by
      cases h : op.item? <;> simp [h]
    rw [itemsWaitingFrom, hsplit]
    refine List.append_subset.mpr ⟨?_, List.Subset.trans (ih _) (List.subset_append_right _ _)⟩
    split
    · exact List.nil_subset _
    · exact List.Subset.trans hop (List.subset_append_left _ _)

theorem itemsHandedOver_subset (ops : List SseOp) :
    itemsHandedOver ops ⊆ ops.filterMap SseOp.item? :=
  List.filterMap_subset _ (List.takeWhile_subset _)

namespace Endpoint

def afterItems (e : Endpoint) (ops : List SseOp) : Endpoint :=
  ops.foldl (fun e op => (e.stepItem op).2.1) e

/-- The chunks that the body of connection `id` yields during some steps. -/
def yieldedItems (id : Nat) (e : Endpoint) : List SseOp → List Bytes
  | [] => []
  | op :: ops => op.wire.yields id (e.stepItem op).1 ++ yieldedItems id (e.stepItem op).2.1 ops

theorem stepItem_eq (e : Endpoint) (op : SseOp) : e.stepItem op = e.step op.wire := by
  cases op <;> rfl

theorem afterItems_eq (e : Endpoint) (ops : List SseOp) :
    e.afterItems ops = e.after (ops.map SseOp.wire) := by
  simp only [afterItems, after, List.foldl_map, stepItem_eq]

theorem yieldedItems_eq (id : Nat) (e : Endpoint) (ops : List SseOp) :
    e.yieldedItems id ops = e.yielded id (ops.map SseOp.wire) := by
  induction ops generalizing e with
  | nil => rfl
  | cons op ops ih => simp only [yieldedItems, List.map_cons, yielded, stepItem_eq, ih]

theorem afterItems_append (e : Endpoint) (ops later : List SseOp) :
    e.afterItems (ops ++ later) = (e.afterItems ops).afterItems later := List.foldl_append

theorem isRegistered_of_item_endAll {initial : Option SseEvent} {before later : List SseOp}
    {flush : Bool} {id : Nat}
    (hadmitted : (((ofEvent initial).afterItems before).stepItem (.request flush)).1 = .admitted id)
    (hend : .endAll ∈ later) :
    ((ofEvent initial).afterItems (before ++ .request flush :: later)).isRegistered id = false := by
  rw [afterItems_eq, stepItem_eq] at hadmitted
  obtain ⟨rfl, -, -⟩ := request_admitted hadmitted
  rw [afterItems_eq, List.map_append, List.map_cons]
  exact isRegistered_of_endAll hadmitted ((SseOp.mem_map_wire .endAll rfl later).mpr hend)

/-- What an admitted connection, whose body is kept, has yielded and can still yield. -/
theorem body_of_item_admission {initial : Option SseEvent} {before later : List SseOp} {flush : Bool}
    {id : Nat}
    (hadmitted : (((ofEvent initial).afterItems before).stepItem (.request flush)).1 = .admitted id)
    (hkept : .drop id ∉ later) :
    let ops := before ++ .request flush :: later
    ∃ d, ((ofEvent initial).afterItems ops).body? id = some d ∧
      (ofEvent initial).yieldedItems id ops ++ d.rest =
        ((initial.map SseItem.event).toList ++ itemsWaitingAfter before ++
          itemsHandedOver later).map SseItem.chunk := by
  intro ops
  rw [afterItems_eq, stepItem_eq] at hadmitted
  obtain ⟨rfl, -, -⟩ := request_admitted hadmitted
  have hdrop : .drop id ∉ later.map SseOp.wire := mt (SseOp.mem_map_wire (.drop id) rfl _).mp hkept
  obtain ⟨d, hd, hy⟩ := body_of_admission hadmitted hdrop
  have hops : ops.map SseOp.wire = before.map SseOp.wire ++ .request true :: later.map SseOp.wire := by
    simp [ops, SseOp.wire]
  have hwaiting : waitingAfter (before.map SseOp.wire) =
      (itemsWaitingAfter before).map SseItem.chunk := waitingFrom_map_wire [] before
  refine ⟨d, by rw [afterItems_eq, hops]; exact hd, ?_⟩
  rw [yieldedItems_eq, hops]
  refine hy.trans ?_
  rw [hwaiting, handedOver_map_wire, List.map_append, List.map_append]
  cases initial <;> simp [SseItem.chunk_ne_nil]

/-- An endpoint of an event stream goes through its steps as one does that is given the encoded
chunks, of which none is empty. A connection whose body is kept and that is ended can be read to its
end. If it has been, and no text has a line end inside, then what a reader makes of its chunks is the
initial event, the events that waited when it was admitted, and those handed over until the
connections were ended or the endpoint closed. -/
theorem events_arrive (initial : Option SseEvent) (ops : List SseOp) :
    let start := ofEvent initial
    let stream : Endpoint := { initial := initial.map fun e => (SseItem.event e).chunk }
    (∀ environment handler, (StreamSettings.ofEvents initial environment).build = .ok handler →
      ∃ contentType environment, handler = .stream start contentType environment) ∧
    start.afterItems ops = stream.after (ops.map SseOp.wire) ∧
    (∀ op, (start.afterItems ops).stepItem op = (stream.after (ops.map SseOp.wire)).step op.wire) ∧
    (∀ i : SseItem, i.chunk ≠ []) ∧
    (∀ before flush later id, ops = before ++ .request flush :: later →
      ((start.afterItems before).stepItem (.request flush)).1 = .admitted id → .drop id ∉ later →
      (.endAll ∈ later → ∃ n,
        ((start.afterItems (ops ++ List.replicate n (.poll id))).stepItem (.poll id)).1 =
          .polled .ended) ∧
      (((start.afterItems ops).stepItem (.poll id)).1 = .polled .ended →
        (∀ e ∈ initial, e.OneLined) → (∀ i ∈ ops.filterMap SseOp.item?, i.OneLined) →
        (Bytes.text? (start.yieldedItems id ops).flatten).map SseReader.events =
          some (initial.toList ++ (itemsWaitingAfter before).filterMap SseItem.event? ++
            (itemsHandedOver later).filterMap SseItem.event?))) := by
  intro start stream
  refine ⟨?_, afterItems_eq start ops, ?_, SseItem.chunk_ne_nil, ?_⟩
  · intro environment handler h
    simp only [StreamSettings.build, StreamSettings.ofEvents, bind, Except.bind] at h
    split at h
    · simp at h
    · split at h
      · simp at h
      · rename_i contentType _ _ environment _
        exact ⟨contentType, environment, (Except.ok.inj h).symm⟩
  · intro op
    rw [stepItem_eq, afterItems_eq]
    rfl
  · rintro before flush later id rfl hadmitted hkept
    obtain ⟨d, hd, hy⟩ := body_of_item_admission hadmitted hkept
    refine ⟨fun hend => ⟨d.rest.length, ?_⟩, fun hended hinitial hops => ?_⟩
    · have hleft := isRegistered_of_item_endAll hadmitted hend
      have hpoll := poll_after_polls hd hleft
      rw [afterItems_append, afterItems_eq _ (List.replicate _ _), List.map_replicate]
      exact congrArg StreamReply.polled hpoll
    · have hrest : d.rest = [] := rest_eq_nil_of_ended hd (StreamReply.polled.inj hended)
      have hitems : ∀ i ∈ (initial.map SseItem.event).toList ++ itemsWaitingAfter before ++
          itemsHandedOver later, i.OneLined := by
        simp only [List.filterMap_append, List.filterMap_cons, SseOp.item?, List.forall_mem_append]
          at hops
        refine List.forall_mem_append.mpr ⟨List.forall_mem_append.mpr ⟨?_, ?_⟩, ?_⟩
        · cases initial with
          | none => simp
          | some e => simpa [SseItem.OneLined] using hinitial e rfl
        · exact fun i hi => hops.1 i (itemsWaitingFrom_subset [] before hi)
        · exact fun i hi => hops.2 i (itemsHandedOver_subset later hi)
      rw [hrest, List.append_nil] at hy
      rw [hy, ← List.flatMap_def, SseItem.events_flatMap_chunk hitems, List.filterMap_append,
        List.filterMap_append]
      cases initial <;> rfl

/-- An event that waits, comments that look like fields, and an event that comes too late. -/
theorem events_arrive_between_comments :
    let waiting : SseEvent := { event := "w", data := ": x" }
    let sent : SseEvent := { id := "7", data := " a: b", retryMillis := 10 }
    let before : List SseOp := [.send (.event {}), .enqueue (.event waiting)]
    let later : List SseOp :=
      [.send (.comment "data: x"), .enqueue (.event sent), .beginClose, .send (.event {}), .endAll]
    let ops := before ++ .request true :: later
    ∃ n, (Bytes.text? ((ofEvent (some {})).yieldedItems 0
      (ops ++ List.replicate n (.poll 0))).flatten).map SseReader.events = some [{}, waiting, sent] := by
  intro waiting sent before later ops
  have hadmitted : (((ofEvent (some {})).afterItems before).stepItem (.request true)).1 =
      .admitted 0 := by
    simp [before, afterItems, stepItem, enqueueItem, sendItem, enqueue, send, deliver, step, request,
      ofEvent, SseItem.chunk_ne_nil]
  have hread := fun n => (events_arrive (some {}) (ops ++ List.replicate n (.poll 0))).2.2.2.2
    before true (later ++ List.replicate n (.poll 0)) 0 (by simp [ops]) hadmitted
    (by simp [later, List.mem_replicate])
  obtain ⟨n, hn⟩ := ((events_arrive (some {}) ops).2.2.2.2 before true later 0 rfl hadmitted
    (by simp [later])).1 (by simp [later])
  have hempty : SseEvent.OneLined {} := ⟨by decide, by decide, by decide⟩
  have hone : ∀ i ∈ (ops ++ List.replicate n (SseOp.poll 0)).filterMap SseOp.item?, i.OneLined := by
    have hwaiting : waiting.OneLined := ⟨by decide, by decide, by decide⟩
    have hsent : sent.OneLined := ⟨by decide, by decide, by decide⟩
    have hcomment : OneLine "data: x".toList := by decide
    have hpolls : (List.replicate n (SseOp.poll 0)).filterMap SseOp.item? = [] :=
      List.filterMap_replicate_of_none rfl
    have hitems : ops.filterMap SseOp.item? = [.event {}, .event waiting, .comment "data: x",
      .event sent, .event {}] := rfl
    rw [List.filterMap_append, hpolls, List.append_nil, hitems]
    simp only [List.forall_mem_cons]
    exact ⟨hempty, hwaiting, hcomment, hsent, hempty, by simp⟩
  exact ⟨n, ((hread n).2 hn (by simpa using hempty) hone).trans rfl⟩

end Endpoint

end Testkit
