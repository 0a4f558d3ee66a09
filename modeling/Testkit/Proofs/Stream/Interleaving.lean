import Testkit.Proofs.Stream.Registry

/-! The registry between any two critical sections. Dropping a body is not one of them: its connection
is deregistered first, and the chunks that are still in it are let go later, so that nothing is ever
sent to a body that is gone. -/

namespace Testkit

theorem StreamBody.subset_of_next? {b d : StreamBody} {chunk : Bytes}
    (h : b.next? = some (chunk, d)) : d.head ⊆ b.head ∧ d.live ⊆ b.live := by
  cases hh : b.head <;> cases hl : b.live <;> simp [next?, hh, hl] at h
  all_goals
    obtain ⟨rfl, rfl⟩ := h
    simp [*]

namespace Endpoint

def deregister (e : Endpoint) (id : Nat) : Endpoint :=
  { e with registry := { e.registry with registered := e.registry.registered.erase id } }

def discard (e : Endpoint) (id : Nat) : Endpoint := { e with bodies := e.bodies.filter (·.id ≠ id) }

theorem drop_eq_discard_deregister {e : Endpoint} {id : Nat} (h : (e.body? id).isSome) :
    (e.drop id).1 = (e.deregister id).discard id := by
  rw [drop, if_pos h]
  rfl

theorem body?_discard_of_ne (e : Endpoint) {id i : Nat} (h : i ≠ id) :
    (e.discard i).body? id = e.body? id := by
  by_cases hi : (e.body? i).isSome
  · rw [← body?_drop_of_ne e h, drop_eq_discard_deregister hi]
    rfl
  · have hall : ∀ b ∈ e.bodies, b.id ≠ i := by simpa [body?] using hi
    have hsame : e.bodies.filter (·.id ≠ i) = e.bodies :=
      List.filter_eq_self.mpr fun b hb => by simpa using hall b hb
    simp only [discard, hsame]

theorem WellFormed.deregister {e : Endpoint} (h : e.WellFormed) (id : Nat) :
    (e.deregister id).WellFormed where
  nodup := h.nodup.erase id
  body_of_registered i hi := h.body_of_registered i (List.mem_of_mem_erase hi)
  body_lt := h.body_lt

theorem WellFormed.discard {e : Endpoint} (h : e.WellFormed) {id : Nat}
    (hid : id ∉ e.registry.registered) : (e.discard id).WellFormed where
  nodup := h.nodup
  body_of_registered i hi := by
    have hne : id ≠ i := fun he => hid (he ▸ hi)
    rw [body?_discard_of_ne e hne]
    exact h.body_of_registered i hi
  body_lt i hi := by
    by_cases hne : id = i
    · simp [Endpoint.discard, body?, hne] at hi
    · rw [body?_discard_of_ne e hne] at hi
      exact h.body_lt i hi

/-- Chunks wait only for want of a connection, and not once the endpoint is closed. -/
def WaitsForAdmission (e : Endpoint) : Prop :=
  e.registry.pending ≠ [] → e.registry.registered = [] ∧ e.registry.closed = false

theorem WaitsForAdmission.step {e : Endpoint} (hw : e.WellFormed) (h : e.WaitsForAdmission)
    (op : StreamOp) : (e.step op).2.1.WaitsForAdmission := by
  intro hp
  rw [step_pending] at hp
  split at hp
  · simp at hp
  · rename_i hop
    obtain ⟨hrequest, hclose⟩ := not_or.mp hop
    have hidle : e.registry.registered = [] ∧ e.registry.closed = false := by
      by_cases hold : e.registry.pending = []
      · rw [hold, List.nil_append] at hp
        cases op with
        | enqueue chunk =>
          by_cases hr : e.registry.registered = [] <;> by_cases hc : e.registry.closed = true <;>
            simp_all
        | _ => simp at hp
      · exact h hold
    rw [step_registered hw, step_closed, if_neg hrequest, hidle.1, hidle.2]
    simp [hclose]

def NoEmptyChunk (e : Endpoint) : Prop :=
  [] ∉ e.registry.pending ∧ ∀ b ∈ e.bodies, [] ∉ b.head ∧ [] ∉ b.live

theorem deliver_cases (e : Endpoint) (chunk : Bytes) (queue : Bool) :
    e.deliver chunk queue = e ∨ chunk ≠ [] ∧
      (e.deliver chunk queue =
          { e with registry := { e.registry with pending := e.registry.pending ++ [chunk] } } ∨
        e.deliver chunk queue = e.broadcast chunk) := by
  by_cases hc : chunk.isEmpty || e.registry.closed
  · exact .inl (by simp [deliver, hc])
  · have hne : chunk ≠ [] := by
      rintro rfl
      simp at hc
    by_cases hr : e.registry.registered.isEmpty
    · cases queue with
      | false => exact .inl (by simp [deliver, hc, hr])
      | true => exact .inr ⟨hne, .inl (by simp [deliver, hc, hr])⟩
    · exact .inr ⟨hne, .inr (by simp [deliver, hc, hr])⟩

theorem NoEmptyChunk.deliver {e : Endpoint} (h : e.NoEmptyChunk) (chunk : Bytes) (queue : Bool) :
    (e.deliver chunk queue).NoEmptyChunk := by
  rcases deliver_cases e chunk queue with hd | ⟨hne, hd | hd⟩
  · rwa [hd]
  · rw [hd]
    exact ⟨by simp [h.1, hne.symm], h.2⟩
  · rw [hd]
    refine ⟨h.1, fun b hb => ?_⟩
    obtain ⟨d, hmem, rfl⟩ := List.mem_map.mp hb
    obtain ⟨hhead, hlive⟩ := h.2 d hmem
    by_cases hreg : e.isRegistered d.id = true <;> simp [hreg, hhead, hlive, hne.symm]

theorem NoEmptyChunk.request {e : Endpoint} (h : e.NoEmptyChunk) (flush : Bool) :
    (e.request flush).2.1.NoEmptyChunk := by
  by_cases hf : flush = true ∧ e.registry.closed = false
  · obtain ⟨rfl, hc⟩ := hf
    refine ⟨by simp [Endpoint.request, hc], fun b hb => ?_⟩
    simp only [Endpoint.request, hc, Bool.not_true, Bool.false_eq_true, if_false, List.mem_append,
      List.mem_singleton] at hb
    rcases hb with hb | rfl
    · exact h.2 b hb
    · simp [headOf]
  · rwa [request_of_refused hf]

theorem NoEmptyChunk.poll {e : Endpoint} (h : e.NoEmptyChunk) (id : Nat) :
    (e.poll id).2.NoEmptyChunk := by
  refine ⟨by simpa [poll_registry] using h.1, fun b hb => ?_⟩
  simp only [Endpoint.poll] at hb
  split at hb
  · exact h.2 b hb
  · rename_i c hc
    split at hb
    · rename_i chunk d hd
      have hmem : c ∈ e.bodies := List.mem_of_find?_eq_some hc
      obtain ⟨hhead, hlive⟩ := StreamBody.subset_of_next? hd
      obtain ⟨b', hb', rfl⟩ := List.mem_map.mp hb
      split
      · exact ⟨fun hm => (h.2 c hmem).1 (hhead hm), fun hm => (h.2 c hmem).2 (hlive hm)⟩
      · exact h.2 b' hb'
    · exact h.2 b hb

theorem NoEmptyChunk.discard {e : Endpoint} (h : e.NoEmptyChunk) (id : Nat) :
    (e.discard id).NoEmptyChunk :=
  ⟨h.1, fun b hb => h.2 b (List.mem_of_mem_filter hb)⟩

theorem NoEmptyChunk.step {e : Endpoint} (h : e.NoEmptyChunk) (op : StreamOp) :
    (e.step op).2.1.NoEmptyChunk := by
  cases op with
  | enqueue chunk => exact h.deliver chunk true
  | send chunk => exact h.deliver chunk false
  | endAll => exact h
  | beginClose => exact ⟨by simp [Endpoint.step, beginClose], h.2⟩
  | request flush =>
    rw [step_request]
    exact h.request flush
  | poll id => exact h.poll id
  | drop id =>
    by_cases hb : (e.body? id).isSome
    · simp only [Endpoint.step, drop_eq_discard_deregister hb]
      exact NoEmptyChunk.discard (e := e.deregister id) h id
    · simpa [Endpoint.step, drop, hb] using h

end Endpoint

/-- What is done to an endpoint at once, while other threads wait. -/
inductive StreamSection where
  | op (op : StreamOp)
  | deregister (id : Nat)
  | discard (id : Nat)
deriving DecidableEq, Repr

/-- An endpoint of which some bodies are being dropped: their connections have been deregistered. -/
structure Interleaved where
  endpoint : Endpoint
  leaving : List Nat := []

namespace Interleaved

/-- A body is discarded only once its connection has been deregistered. -/
def step (x : Interleaved) : StreamSection → Interleaved
  | .op op => { x with endpoint := (x.endpoint.step op).2.1 }
  | .deregister id =>
    if (x.endpoint.body? id).isSome then ⟨x.endpoint.deregister id, id :: x.leaving⟩ else x
  | .discard id => if id ∈ x.leaving then ⟨x.endpoint.discard id, x.leaving.erase id⟩ else x

def after (x : Interleaved) (sections : List StreamSection) : Interleaved :=
  sections.foldl step x

abbrev registry (x : Interleaved) : Registry := x.endpoint.registry

theorem after_append (x : Interleaved) (sections later : List StreamSection) :
    x.after (sections ++ later) = (x.after sections).after later := List.foldl_append

/-- Without anything in between, the two halves are the whole. -/
theorem after_drop {x : Interleaved} {id : Nat} (h : (x.endpoint.body? id).isSome) :
    x.after [.deregister id, .discard id] = x.after [.op (.drop id)] := by
  simp [after, step, h, Endpoint.step, Endpoint.drop_eq_discard_deregister h]

theorem nextId_le_step (x : Interleaved) (s : StreamSection) :
    x.registry.nextId ≤ (x.step s).registry.nextId := by
  cases s with
  | op op =>
    simp only [registry, step, Endpoint.step_nextId]
    exact Nat.le_add_right _ _
  | deregister id =>
    simp only [step]
    split <;> exact Nat.le_refl _
  | discard id =>
    simp only [step]
    split <;> exact Nat.le_refl _

theorem mem_registered_step {x : Interleaved} (h : x.endpoint.WellFormed) {s : StreamSection}
    {id : Nat} (hid : id ∈ (x.step s).registry.registered) :
    id ∈ x.registry.registered ∨ id = x.registry.nextId := by
  cases s with
  | op op =>
    simp only [registry, step, Endpoint.step_registered h, List.mem_append] at hid
    rcases hid with hid | hid
    · exact .inl (List.mem_of_mem_filter hid)
    · split at hid
      · exact .inr (List.mem_singleton.mp hid)
      · simp at hid
  | deregister i =>
    simp only [step] at hid
    split at hid
    · exact .inl (List.mem_of_mem_erase hid)
    · exact .inl hid
  | discard i =>
    simp only [step] at hid
    split at hid <;> exact .inl hid

structure Sound (x : Interleaved) : Prop where
  wellFormed : x.endpoint.WellFormed
  leaving : ∀ id ∈ x.leaving, id < x.registry.nextId ∧ id ∉ x.registry.registered
  waits : x.endpoint.WaitsForAdmission
  chunks : x.endpoint.NoEmptyChunk

theorem sound_fresh (initial : Option Bytes) : Sound { endpoint := { initial } } :=
  ⟨Endpoint.wellFormed_fresh initial, by simp, by simp [Endpoint.WaitsForAdmission],
    by simp [Endpoint.NoEmptyChunk]⟩

theorem Sound.lt_nextId {x : Interleaved} (h : x.Sound) {id : Nat}
    (hid : id ∈ x.registry.registered) : id < x.registry.nextId :=
  h.wellFormed.body_lt id (h.wellFormed.body_of_registered id hid)

theorem Sound.notMem_step {x : Interleaved} (h : x.Sound) {id : Nat}
    (hlt : id < x.registry.nextId) (hid : id ∉ x.registry.registered) (s : StreamSection) :
    id < (x.step s).registry.nextId ∧ id ∉ (x.step s).registry.registered := by
  refine ⟨Nat.lt_of_lt_of_le hlt (x.nextId_le_step s), fun hm => ?_⟩
  -- Only the next number is given out, and that is greater.
  rcases mem_registered_step h.wellFormed hm with hm | rfl
  · exact hid hm
  · exact Nat.lt_irrefl _ hlt

theorem Sound.step {x : Interleaved} (h : x.Sound) (s : StreamSection) : (x.step s).Sound := by
  have hleaving : ∀ id ∈ x.leaving,
      id < (x.step s).registry.nextId ∧ id ∉ (x.step s).registry.registered :=
    fun id hid => h.notMem_step (h.leaving id hid).1 (h.leaving id hid).2 s
  cases s with
  | op op =>
    exact ⟨h.wellFormed.step op, hleaving, h.waits.step h.wellFormed op, h.chunks.step op⟩
  | deregister id =>
    by_cases hb : (x.endpoint.body? id).isSome
    · simp only [Interleaved.step, hb, if_true] at hleaving ⊢
      refine ⟨h.wellFormed.deregister id, List.forall_mem_cons.mpr ⟨⟨?_, ?_⟩, hleaving⟩, ?_, h.chunks⟩
      · exact h.wellFormed.body_lt id hb
      -- A number that was registered twice would still be there.
      · exact h.wellFormed.nodup.not_mem_erase
      · intro hp
        obtain ⟨hr, hc⟩ := h.waits hp
        exact ⟨by simp [Endpoint.deregister, hr], hc⟩
    · simpa [Interleaved.step, hb] using h
  | discard id =>
    by_cases hl : id ∈ x.leaving
    · simp only [Interleaved.step, hl, if_true] at hleaving ⊢
      exact ⟨h.wellFormed.discard (h.leaving id hl).2,
        fun i hi => hleaving i (List.mem_of_mem_erase hi), h.waits, h.chunks.discard id⟩
    · simpa [Interleaved.step, hl] using h

theorem Sound.after {x : Interleaved} (h : x.Sound) (sections : List StreamSection) :
    (x.after sections).Sound := by
  induction sections generalizing x with
  | nil => exact h
  | cons s sections ih => exact ih (h.step s)

theorem Sound.notMem_after {x : Interleaved} (h : x.Sound) {id : Nat}
    (hlt : id < x.registry.nextId) (hid : id ∉ x.registry.registered)
    (sections : List StreamSection) : id ∉ (x.after sections).registry.registered := by
  induction sections generalizing x with
  | nil => exact hid
  | cons s sections ih =>
    obtain ⟨hlt', hid'⟩ := h.notMem_step hlt hid s
    exact ih (h.step s) hlt' hid'

theorem nextId_le_after (x : Interleaved) (sections : List StreamSection) :
    x.registry.nextId ≤ (x.after sections).registry.nextId := by
  induction sections generalizing x with
  | nil => exact Nat.le_refl _
  | cons s sections ih => exact Nat.le_trans (x.nextId_le_step s) (ih _)

/-- During the sections the connection was registered, and later it was not. -/
def HasLeft (start : Interleaved) (sections : List StreamSection) (id : Nat) : Prop :=
  ∃ earlier since later, sections = earlier ++ since ++ later ∧
    id ∈ (start.after earlier).registry.registered ∧
    id ∉ (start.after (earlier ++ since)).registry.registered

/-- After any critical sections: chunks wait only while nobody is connected and the endpoint is open;
the number of a registered connection is below the next one, and is not that of a connection that has
left; no chunk that waits or is in a body is empty; each registered connection has a body, which is
given what is broadcast; and nothing waits at a closed endpoint. -/
theorem registry_stays_sound (initial : Option Bytes) (sections : List StreamSection) :
    let start : Interleaved := { endpoint := { initial } }
    let x := start.after sections
    let r := x.registry
    (r.pending ≠ [] → r.registered = [] ∧ r.closed = false) ∧
    (∀ id ∈ r.registered, id < r.nextId ∧ ¬ start.HasLeft sections id) ∧
    ([] ∉ r.pending ∧ ∀ b ∈ x.endpoint.bodies, [] ∉ b.head ∧ [] ∉ b.live) ∧
    (∀ id ∈ r.registered, ∃ b, x.endpoint.body? id = some b ∧ ∀ chunk,
      (x.endpoint.broadcast chunk).body? id = some { b with live := b.live ++ [chunk] }) ∧
    (r.closed = true → r.pending = []) := by
  intro start x r
  have hsound : ∀ sections, (start.after sections).Sound := (sound_fresh initial).after
  have hx : x.Sound := hsound sections
  refine ⟨hx.waits, fun id hid => ⟨hx.lt_nextId hid, ?_⟩, hx.chunks, fun id hid => ?_, fun hc => ?_⟩
  · rintro ⟨earlier, since, later, rfl, hin, hout⟩
    have hlt : id < (start.after (earlier ++ since)).registry.nextId := by
      rw [after_append]
      exact Nat.lt_of_lt_of_le ((hsound earlier).lt_nextId hin) (nextId_le_after _ since)
    refine (hsound (earlier ++ since)).notMem_after hlt hout later ?_
    rw [← after_append]
    exact hid
  · obtain ⟨b, hb⟩ := Option.isSome_iff_exists.mp (hx.wellFormed.body_of_registered id hid)
    have hreg : x.endpoint.isRegistered id = true := List.contains_iff_mem.mpr hid
    exact ⟨b, hb, fun chunk => by rw [Endpoint.body?_broadcast, hb, Option.map_some, if_pos hreg]⟩
  · by_contra hp
    have hopen : r.closed = false := (hx.waits hp).2
    simp [hopen] at hc

/-- A connection that is deregistered while its body is still there, and what comes after that. -/
theorem registry_stays_sound_dropping :
    let start : Interleaved := { endpoint := { initial := some [0] } }
    let before : List StreamSection := [.op (.request true), .op (.send [1])]
    let sections := before ++ [.deregister 0, .op (.enqueue [2])]
    let closing := sections ++ [.op .beginClose]
    (0 ∈ (start.after before).registry.registered ∧
      ∃ b, (start.after before).endpoint.body? 0 = some b ∧ ∀ chunk,
        ((start.after before).endpoint.broadcast chunk).body? 0 =
          some { b with live := b.live ++ [chunk] }) ∧
    ((start.after sections).registry.pending = [[2]] ∧
      (start.after sections).registry.registered = [] ∧
      ((start.after sections).endpoint.body? 0).isSome) ∧
    (start.after closing).registry.closed = true ∧ (start.after closing).registry.pending = [] := by
  intro start before sections closing
  have hmem : 0 ∈ (start.after before).registry.registered := by decide
  have hpending : (start.after sections).registry.pending = [[2]] := by decide
  have hclosed : (start.after closing).registry.closed = true := by decide
  obtain ⟨-, -, -, hbody, -⟩ := registry_stays_sound (some [0]) before
  obtain ⟨hwaits, -, -, -, -⟩ := registry_stays_sound (some [0]) sections
  obtain ⟨-, -, -, -, hlost⟩ := registry_stays_sound (some [0]) closing
  exact ⟨⟨hmem, hbody 0 hmem⟩, ⟨hpending, (hwaits (hpending ▸ List.cons_ne_nil _ _)).1, by decide⟩,
    hclosed, hlost hclosed⟩

end Interleaved

end Testkit
