import Mathlib.Data.List.Induction
import Mathlib.Data.List.Nodup
import Testkit.Proofs.Stream.History

/-! What one step does to the registry and to each body, and that after any steps the registry is
what the steps say. -/

namespace Testkit

namespace StreamBody

def rest (b : StreamBody) : List Bytes := b.head ++ b.live

theorem next?_eq_none_iff (b : StreamBody) : b.next? = none ↔ b.rest = [] := by
  cases hh : b.head <;> cases hl : b.live <;> simp [next?, rest, hh, hl]

theorem next?_some {b d : StreamBody} {chunk : Bytes} (h : b.next? = some (chunk, d)) :
    d.id = b.id ∧ b.rest = chunk :: d.rest := by
  cases hh : b.head <;> cases hl : b.live <;> simp [next?, hh, hl] at h
  all_goals
    obtain ⟨rfl, rfl⟩ := h
    simp [rest, hh, hl]

end StreamBody

namespace Endpoint

theorem body?_id {e : Endpoint} {id : Nat} {b : StreamBody} (h : e.body? id = some b) :
    b.id = id := by
  simpa using List.find?_some h

theorem find?_map_of_id {f : StreamBody → StreamBody} (hf : ∀ b, (f b).id = b.id)
    (bodies : List StreamBody) (id : Nat) :
    (bodies.map f).find? (·.id = id) = (bodies.find? (·.id = id)).map f := by
  have hid : (fun b : StreamBody => decide (b.id = id)) ∘ f = fun b => decide (b.id = id) :=
    funext fun b => by simp only [Function.comp_apply, hf]
  rw [List.find?_map, hid]

theorem body?_broadcast (e : Endpoint) (chunk : Bytes) (id : Nat) :
    (e.broadcast chunk).body? id = (e.body? id).map fun b =>
      if e.isRegistered id then { b with live := b.live ++ [chunk] } else b := by
  have hh := find?_map_of_id (f := fun b =>
    if e.isRegistered b.id then { b with live := b.live ++ [chunk] } else b)
    (fun b => by split <;> rfl) e.bodies id
  refine hh.trans ?_
  apply Option.map_congr
  intro b hb
  simp only [body?_id hb]

theorem body?_deliver (e : Endpoint) (chunk : Bytes) (queue : Bool) (id : Nat) :
    (e.deliver chunk queue).body? id = (e.body? id).map fun b =>
      if !chunk.isEmpty && !e.registry.closed && e.isRegistered id then
        { b with live := b.live ++ [chunk] } else b := by
  by_cases hc : chunk.isEmpty || e.registry.closed
  · have hn : (!chunk.isEmpty && !e.registry.closed) = false := by
      rw [← Bool.not_or, hc, Bool.not_true]
    simp [deliver, hc, hn]
  · have hn : (!chunk.isEmpty && !e.registry.closed) = true := by simpa using hc
    by_cases hr : e.registry.registered.isEmpty
    · have hi : e.isRegistered id = false := by simp [isRegistered, List.isEmpty_iff.mp hr]
      cases queue <;> simp [deliver, hc, hr, hi, body?]
    · simp [deliver, hc, hr, hn, body?_broadcast]

theorem body?_setBody (e : Endpoint) (b : StreamBody) (id : Nat) :
    (e.setBody b).body? id = (e.body? id).map fun d => if d.id = b.id then b else d :=
  find?_map_of_id (fun d => by split <;> simp_all) e.bodies id

theorem poll_of_none {e : Endpoint} {id : Nat} (h : e.body? id = none) :
    e.poll id = (.gone, e) := by
  simp [poll, h]

theorem poll_of_nil {e : Endpoint} {id : Nat} {b : StreamBody} (h : e.body? id = some b)
    (hr : b.rest = []) : e.poll id = (if e.isRegistered id then .pending else .ended, e) := by
  simp [poll, h, b.next?_eq_none_iff.mpr hr]

theorem poll_of_cons {e : Endpoint} {id : Nat} {b : StreamBody} {chunk : Bytes}
    {later : List Bytes} (h : e.body? id = some b) (hr : b.rest = chunk :: later) :
    ∃ d, d.id = id ∧ d.rest = later ∧ e.poll id = (.chunk chunk, e.setBody d) := by
  cases hn : b.next? with
  | none => simp [b.next?_eq_none_iff.mp hn] at hr
  | some r =>
    obtain ⟨hid, hrest⟩ := StreamBody.next?_some hn
    rw [hr, List.cons.injEq] at hrest
    refine ⟨r.2, hid.trans (body?_id h), hrest.2.symm, ?_⟩
    simp [poll, h, hn, hrest.1]

theorem body?_poll_isSome (e : Endpoint) (id i : Nat) :
    ((e.poll i).2.body? id).isSome = (e.body? id).isSome := by
  cases hi : e.body? i with
  | none => rw [poll_of_none hi]
  | some b =>
    cases hr : b.rest with
    | nil => rw [poll_of_nil hi hr]
    | cons chunk later =>
      obtain ⟨d, _, _, hp⟩ := poll_of_cons hi hr
      rw [hp, body?_setBody, Option.isSome_map]

theorem body?_poll_of_ne (e : Endpoint) {id i : Nat} (h : i ≠ id) :
    (e.poll i).2.body? id = e.body? id := by
  cases hi : e.body? i with
  | none => rw [poll_of_none hi]
  | some b =>
    cases hr : b.rest with
    | nil => rw [poll_of_nil hi hr]
    | cons chunk later =>
      obtain ⟨d, hd, _, hp⟩ := poll_of_cons hi hr
      rw [hp, body?_setBody]
      cases he : e.body? id with
      | none => rfl
      | some c => simp [hd, body?_id he, h.symm]

theorem body?_drop_self (e : Endpoint) (id : Nat) : (e.drop id).1.body? id = none := by
  by_cases hb : (e.body? id).isSome
  · rw [drop, if_pos hb]
    simp [body?]
  · rw [drop, if_neg hb]
    exact Option.not_isSome_iff_eq_none.mp hb

theorem body?_drop_of_ne (e : Endpoint) {id i : Nat} (h : i ≠ id) :
    (e.drop i).1.body? id = e.body? id := by
  by_cases hi : (e.body? i).isSome
  · rw [drop, if_pos hi]
    simp only [body?, List.find?_filter]
    congr 1
    funext b
    by_cases hb : b.id = id
    · simp [hb, h.symm]
    · simp [hb]
  · rw [drop, if_neg hi]

theorem body?_request (e : Endpoint) {id : Nat} (h : id ≠ e.registry.nextId) (flush : Bool) :
    (e.request flush).2.1.body? id = e.body? id := by
  have hid : ([⟨e.registry.nextId, headOf e.initial e.registry.pending, []⟩] :
      List StreamBody).find? (·.id = id) = none := by simp [h.symm]
  unfold request
  split_ifs
  · rfl
  · rfl
  · simp only [body?, List.find?_append, hid, Option.or_none]

theorem request_of_refused {e : Endpoint} {flush : Bool}
    (h : ¬ (flush = true ∧ e.registry.closed = false)) :
    e.request flush = (none, e, [if flush then .afterClose else .noFlush]) := by
  cases flush <;> simp_all [request]

theorem deliver_registered (e : Endpoint) (chunk : Bytes) (queue : Bool) :
    (e.deliver chunk queue).registry.registered = e.registry.registered := by
  unfold deliver
  split_ifs <;> rfl

theorem deliver_nextId (e : Endpoint) (chunk : Bytes) (queue : Bool) :
    (e.deliver chunk queue).registry.nextId = e.registry.nextId := by
  unfold deliver
  split_ifs <;> rfl

theorem deliver_closed (e : Endpoint) (chunk : Bytes) (queue : Bool) :
    (e.deliver chunk queue).registry.closed = e.registry.closed := by
  unfold deliver
  split_ifs <;> rfl

theorem deliver_pending (e : Endpoint) (chunk : Bytes) (queue : Bool) :
    (e.deliver chunk queue).registry.pending = e.registry.pending ++
      if chunk.isEmpty ∨ e.registry.closed ∨ e.registry.registered ≠ [] ∨ !queue then []
      else [chunk] := by
  by_cases hc : chunk.isEmpty
  · simp [deliver, hc]
  · by_cases ho : e.registry.closed
    · simp [deliver, ho]
    · by_cases hr : e.registry.registered.isEmpty
      · cases queue <;> simp [deliver, hc, ho, List.isEmpty_iff.mp hr]
      · have hr' : e.registry.registered ≠ [] := mt List.isEmpty_iff.mpr hr
        simp [deliver, broadcast, hc, ho, hr, hr']

theorem poll_registry (e : Endpoint) (id : Nat) : (e.poll id).2.registry = e.registry := by
  cases hb : e.body? id with
  | none => rw [poll_of_none hb]
  | some b =>
    cases hr : b.rest with
    | nil => rw [poll_of_nil hb hr]
    | cons chunk later =>
      obtain ⟨d, _, _, hp⟩ := poll_of_cons hb hr
      rw [hp]
      rfl

theorem drop_registry (e : Endpoint) (id : Nat) :
    (e.drop id).1.registry.nextId = e.registry.nextId ∧
      (e.drop id).1.registry.closed = e.registry.closed ∧
      (e.drop id).1.registry.pending = e.registry.pending := by
  unfold drop
  split_ifs <;> simp

/-- A registered connection has a body, and a body has a number that was given out. -/
structure WellFormed (e : Endpoint) : Prop where
  nodup : e.registry.registered.Nodup
  body_of_registered : ∀ id ∈ e.registry.registered, (e.body? id).isSome
  body_lt : ∀ id, (e.body? id).isSome → id < e.registry.nextId

theorem WellFormed.body?_nextId {e : Endpoint} (h : e.WellFormed) :
    e.body? e.registry.nextId = none := by
  by_contra hb
  exact absurd (h.body_lt _ (Option.isSome_iff_ne_none.mpr hb)) (Nat.lt_irrefl _)

theorem WellFormed.nextId_notMem {e : Endpoint} (h : e.WellFormed) :
    e.registry.nextId ∉ e.registry.registered := by
  intro hm
  exact absurd (h.body_lt _ (h.body_of_registered _ hm)) (Nat.lt_irrefl _)

theorem WellFormed.drop_registered {e : Endpoint} (h : e.WellFormed) (id : Nat) :
    (e.drop id).1.registry.registered = e.registry.registered.filter (fun i => !decide (id = i)) := by
  by_cases hb : (e.body? id).isSome
  · simp only [drop, hb, if_true, h.nodup.erase_eq_filter]
    refine List.filter_congr fun i _ => ?_
    by_cases hi : i = id
    · simp [hi]
    · simp [hi, Ne.symm hi]
  · have hn : id ∉ e.registry.registered := fun hm => hb (h.body_of_registered id hm)
    simp only [drop, hb]
    refine (List.filter_eq_self.mpr fun i hi => ?_).symm
    have hne : id ≠ i := fun he => hn (he ▸ hi)
    simp [hne]

theorem step_request (e : Endpoint) (flush : Bool) : e.step (.request flush) =
    ((e.request flush).1.elim .refused .admitted, (e.request flush).2) := by
  simp only [step]
  split
  · rename_i h
    simp [h]
  · rename_i h
    simp [h]

theorem step_closed (e : Endpoint) (op : StreamOp) :
    (e.step op).2.1.registry.closed = (e.registry.closed || op = .beginClose) := by
  cases op with
  | enqueue chunk => simp [step, enqueue, deliver_closed]
  | send chunk => simp [step, send, deliver_closed]
  | endAll => simp [step, endAll]
  | beginClose => simp [step, beginClose]
  | request flush => cases flush <;> cases hc : e.registry.closed <;> simp [step, request, hc]
  | poll id => simp [step, poll_registry]
  | drop id => simp [step, drop_registry]

theorem step_nextId (e : Endpoint) (op : StreamOp) :
    (e.step op).2.1.registry.nextId =
      e.registry.nextId + if op = .request true ∧ e.registry.closed = false then 1 else 0 := by
  cases op with
  | enqueue chunk => simp [step, enqueue, deliver_nextId]
  | send chunk => simp [step, send, deliver_nextId]
  | endAll => simp [step, endAll]
  | beginClose => simp [step, beginClose]
  | request flush => cases flush <;> cases hc : e.registry.closed <;> simp [step, request, hc]
  | poll id => simp [step, poll_registry]
  | drop id => simp [step, drop_registry]

theorem step_registered {e : Endpoint} (h : e.WellFormed) (op : StreamOp) :
    (e.step op).2.1.registry.registered =
      e.registry.registered.filter (fun i => !op.ends i) ++
        if op = .request true ∧ e.registry.closed = false then [e.registry.nextId] else [] := by
  cases op with
  | enqueue chunk => simp [step, enqueue, deliver_registered, StreamOp.ends]
  | send chunk => simp [step, send, deliver_registered, StreamOp.ends]
  | endAll => simp [step, endAll, StreamOp.ends]
  | beginClose => simp [step, beginClose, StreamOp.ends]
  | request flush =>
    cases flush <;> cases hc : e.registry.closed <;> simp [step, request, hc, StreamOp.ends]
  | poll id => simp [step, poll_registry, StreamOp.ends]
  | drop id => simp [step, h.drop_registered, StreamOp.ends]

theorem step_pending (e : Endpoint) (op : StreamOp) :
    (e.step op).2.1.registry.pending =
      if (op = .request true ∧ e.registry.closed = false) ∨ op = .beginClose then []
      else e.registry.pending ++
        match op with
        | .enqueue chunk =>
          if chunk.isEmpty ∨ e.registry.closed ∨ e.registry.registered ≠ [] then [] else [chunk]
        | _ => [] := by
  cases op with
  | enqueue chunk => simp [step, enqueue, deliver_pending]
  | send chunk => simp [step, send, deliver_pending]
  | endAll => simp [step, endAll]
  | beginClose => simp [step, beginClose]
  | request flush => cases flush <;> cases hc : e.registry.closed <;> simp [step, request, hc]
  | poll id => simp [step, poll_registry]
  | drop id => simp [step, drop_registry]

theorem step_body?_isSome {e : Endpoint} (h : e.WellFormed) (op : StreamOp) (id : Nat) :
    ((e.step op).2.1.body? id).isSome ↔
      ((e.body? id).isSome ∧ op ≠ .drop id) ∨
        (op = .request true ∧ e.registry.closed = false ∧ id = e.registry.nextId) := by
  cases op with
  | enqueue chunk => simp [step, enqueue, body?_deliver]
  | send chunk => simp [step, send, body?_deliver]
  | endAll => simp [step, endAll, body?]
  | beginClose => simp [step, beginClose, body?]
  | poll i => simp [step, body?_poll_isSome]
  | drop i =>
    by_cases hi : i = id
    · simp [step, hi, body?_drop_self]
    · simp [step, hi, body?_drop_of_ne]
  | request flush =>
    rw [step_request]
    by_cases hid : id = e.registry.nextId
    · have hn := h.body?_nextId
      simp only [body?] at hn
      cases flush <;> cases hc : e.registry.closed <;>
        simp [request, hc, hid, body?, hn]
    · simp [body?_request e hid, hid]

theorem WellFormed.step {e : Endpoint} (h : e.WellFormed) (op : StreamOp) :
    (e.step op).2.1.WellFormed where
  nodup := by
    rw [step_registered h]
    refine List.Nodup.append (h.nodup.filter _) (by split <;> simp) ?_
    intro id hid hn
    split at hn
    · rw [List.mem_singleton.mp hn] at hid
      exact h.nextId_notMem (List.mem_of_mem_filter hid)
    · simp at hn
  body_of_registered := by
    intro id hid
    rw [step_registered h, List.mem_append, List.mem_filter] at hid
    rw [step_body?_isSome h]
    rcases hid with ⟨hid, he⟩ | hid
    · refine .inl ⟨h.body_of_registered id hid, ?_⟩
      rintro rfl
      simp [StreamOp.ends] at he
    · split at hid
      · rename_i ho
        exact .inr ⟨ho.1, ho.2, List.mem_singleton.mp hid⟩
      · simp at hid
  body_lt := by
    intro id hid
    rw [step_body?_isSome h] at hid
    rw [step_nextId]
    rcases hid with ⟨hid, _⟩ | ⟨hr, hc, rfl⟩
    · exact Nat.lt_add_right _ (h.body_lt id hid)
    · simp [hr, hc]

theorem WellFormed.after {e : Endpoint} (h : e.WellFormed) (ops : List StreamOp) :
    (e.after ops).WellFormed := by
  induction ops generalizing e with
  | nil => exact h
  | cons op ops ih => exact ih (h.step op)

theorem wellFormed_fresh (initial : Option Bytes) : WellFormed { initial } :=
  ⟨by simp, by simp, by simp [body?]⟩

theorem after_closed (e : Endpoint) (ops : List StreamOp) :
    (e.after ops).registry.closed = (e.registry.closed || decide (.beginClose ∈ ops)) := by
  induction ops using List.reverseRecOn with
  | nil => simp [after]
  | append_singleton ops op ih =>
    rw [after_append, after_singleton, step_closed, ih]
    simp [eq_comm, Bool.or_assoc]

theorem after_nextId (initial : Option Bytes) (ops : List StreamOp) :
    (after { initial } ops).registry.nextId = admissions ops := by
  induction ops using List.reverseRecOn with
  | nil => rfl
  | append_singleton ops op ih =>
    rw [after_append, after_singleton, step_nextId, after_closed, ih, admissions_append_singleton]
    simp

theorem after_registered (initial : Option Bytes) (ops : List StreamOp) :
    (after { initial } ops).registry.registered = registeredAfter ops := by
  induction ops using List.reverseRecOn with
  | nil => rfl
  | append_singleton ops op ih =>
    rw [after_append, after_singleton, step_registered ((wellFormed_fresh initial).after ops),
      after_closed, after_nextId, ih]
    simp [registeredAfter, registeredFrom_append_singleton]

theorem after_pending {ops : List StreamOp} (initial : Option Bytes) (h : .beginClose ∉ ops) :
    (after { initial } ops).registry.pending = waitingAfter ops := by
  induction ops using List.reverseRecOn with
  | nil => rfl
  | append_singleton ops op ih =>
    have ho : .beginClose ∉ ops := fun hm => h (List.mem_append_left _ hm)
    have hne : op ≠ .beginClose := fun he => h (by simp [he])
    rw [after_append, after_singleton, step_pending, after_closed, after_registered, ih ho]
    simp only [waitingAfter, waitingFrom_append_singleton, ho, hne, decide_false,
      Bool.or_self, and_true, or_false, List.nil_append]
    split
    · rfl
    · cases op <;> simp [StreamOp.leaves, ho]

end Endpoint

end Testkit
