import Testkit.Proofs.Stream.Closing
import Testkit.Proofs.Stream.Departures
import Testkit.Proofs.Stream.Interleaving

/-! Steps that have nothing to do can be erased from a run, any number of them. Whether a step is one
depends on the state that the whole run takes it in. -/

namespace Testkit

/-- A step of a run, which is kept or erased. -/
structure MarkedOp where
  op : StreamOp
  kept : Bool
deriving DecidableEq, Repr

def allOps (steps : List MarkedOp) : List StreamOp := steps.map (·.op)

def keptOps (steps : List MarkedOp) : List StreamOp := (steps.filter (·.kept)).map (·.op)

namespace Endpoint

/-- Whether a step has nothing to do: its chunk is empty or has nobody to go to, its request is
refused, or what it ends, closes or drops is over already. -/
def Ineffective (e : Endpoint) : StreamOp → Prop
  | .enqueue chunk => chunk = [] ∨ e.registry.closed = true
  | .send chunk => chunk = [] ∨ e.registry.closed = true ∨ e.registry.registered = []
  | .endAll => e.registry.registered = []
  | .beginClose => e.registry.closed = true
  | .request flush => flush = false ∨ e.registry.closed = true
  | .poll _ => False
  | .drop id => e.isRegistered id = false

instance (e : Endpoint) (op : StreamOp) : Decidable (e.Ineffective op) :=
  match op with
  | .enqueue chunk => inferInstanceAs (Decidable (chunk = [] ∨ e.registry.closed = true))
  | .send chunk =>
    inferInstanceAs (Decidable (chunk = [] ∨ e.registry.closed = true ∨ e.registry.registered = []))
  | .endAll => inferInstanceAs (Decidable (e.registry.registered = []))
  | .beginClose => inferInstanceAs (Decidable (e.registry.closed = true))
  | .request flush => inferInstanceAs (Decidable (flush = false ∨ e.registry.closed = true))
  | .poll _ => inferInstanceAs (Decidable False)
  | .drop id => inferInstanceAs (Decidable (e.isRegistered id = false))

def ErasesIneffective (e : Endpoint) : List MarkedOp → Prop
  | [] => True
  | s :: steps =>
    (s.kept = false → e.Ineffective s.op) ∧ (e.step s.op).2.1.ErasesIneffective steps

instance decidableErasesIneffective (e : Endpoint) (steps : List MarkedOp) :
    Decidable (e.ErasesIneffective steps) :=
  match steps with
  | [] => inferInstanceAs (Decidable True)
  | s :: steps =>
    have := decidableErasesIneffective (e.step s.op).2.1 steps
    inferInstanceAs (Decidable ((s.kept = false → e.Ineffective s.op) ∧
      (e.step s.op).2.1.ErasesIneffective steps))

theorem ErasesIneffective.of_append {e : Endpoint} {before later : List MarkedOp}
    (h : e.ErasesIneffective (before ++ later)) : e.ErasesIneffective before := by
  induction before generalizing e with
  | nil => trivial
  | cons s before ih => exact ⟨h.1, ih h.2⟩

/-- An ineffective step changes nothing, unless it is the drop of a body that is still there. -/
theorem step_of_ineffective {e : Endpoint} (hp : e.WaitsForAdmission) {op : StreamOp}
    (h : e.Ineffective op) : (e.step op).2.1 = e ∨ ∃ id, op = .drop id ∧ (e.body? id).isSome := by
  cases op with
  | enqueue chunk =>
    rcases h with h | h <;> exact .inl (by simp [step, enqueue, deliver, h])
  | send chunk =>
    rcases h with h | h | h <;> exact .inl (by simp [step, send, deliver, h])
  | endAll =>
    have hr : e.registry.registered = [] := h
    exact .inl (by simp [step, endAll, ← hr])
  | beginClose =>
    have hc : e.registry.closed = true := h
    have hnone : e.registry.pending = [] := by
      by_contra hsome
      simp [(hp hsome).2] at hc
    exact .inl (by simp [step, beginClose, ← hc, ← hnone])
  | request flush =>
    have hr : ¬ (flush = true ∧ e.registry.closed = false) := by
      rcases h with h | h <;> simp [h]
    exact .inl (by rw [step_request, request_of_refused hr])
  | poll id => exact h.elim
  | drop id =>
    by_cases hb : (e.body? id).isSome
    · exact .inr ⟨id, rfl, hb⟩
    · exact .inl (by simp [step, drop, hb])

/-- To erase one ineffective step changes nothing later, but that a body may still be there. -/
theorem after_erase {e : Endpoint} (hw : e.WellFormed) (hp : e.WaitsForAdmission) {op : StreamOp}
    (h : e.Ineffective op) (later : List StreamOp) :
    (e.after later).registry = ((e.step op).2.1.after later).registry ∧
      (∀ id, op ≠ .drop id →
        (e.after later).body? id = ((e.step op).2.1.after later).body? id) ∧
      ∀ next, (∀ id, op = .drop id → next ≠ .poll id) →
        ((e.after later).step next).1 = (((e.step op).2.1.after later).step next).1 := by
  rcases step_of_ineffective hp h with hsame | ⟨id, rfl, hb⟩
  · rw [hsame]
    exact ⟨rfl, fun _ _ => rfl, fun _ _ => rfl⟩
  · have hid : e.isRegistered id = false := h
    have hlt : id < e.registry.nextId := hw.body_lt id hb
    have hafter := ((SameApartFrom.of_drop hid).1.after hw hlt hid later).1
    have hleft : (e.after later).isRegistered id = false := by
      rw [after_isRegistered hw hlt, hid, Bool.false_and]
    refine ⟨hafter.registry.symm, fun other ho => ?_, fun next hn => ?_⟩
    · exact (hafter.body other fun he => ho (he ▸ rfl)).symm
    · exact ((hafter.step hleft next).2.2 (hn id rfl)).symm

theorem after_keptOps {e : Endpoint} (hw : e.WellFormed) (hp : e.WaitsForAdmission)
    {steps : List MarkedOp} (h : e.ErasesIneffective steps) :
    (e.after (keptOps steps)).registry = (e.after (allOps steps)).registry ∧
      (∀ id, ⟨.drop id, false⟩ ∉ steps →
        (e.after (keptOps steps)).body? id = (e.after (allOps steps)).body? id) ∧
      ∀ next, (∀ id, ⟨.drop id, false⟩ ∈ steps → next ≠ .poll id) →
        ((e.after (keptOps steps)).step next).1 = ((e.after (allOps steps)).step next).1 := by
  -- The later steps are erased first: what is ineffective among them was said of the whole run.
  induction steps generalizing e with
  | nil => exact ⟨rfl, fun _ _ => rfl, fun _ _ => rfl⟩
  | cons s steps ih =>
    obtain ⟨hs, hrest⟩ := h
    obtain ⟨hregistry, hbody, hreply⟩ := ih (hw.step s.op) (hp.step hw s.op) hrest
    cases hk : s.kept with
    | true =>
      have hkept : keptOps (s :: steps) = s.op :: keptOps steps := by simp [keptOps, hk]
      rw [hkept]
      exact ⟨hregistry, fun id hid => hbody id fun hm => hid (List.mem_cons_of_mem _ hm),
        fun next hn => hreply next fun id hm => hn id (List.mem_cons_of_mem _ hm)⟩
    | false =>
      have hkept : keptOps (s :: steps) = keptOps steps := by simp [keptOps, hk]
      obtain ⟨hregistry', hbody', hreply'⟩ := after_erase hw hp (hs hk) (keptOps steps)
      have herased : ∀ id, s.op = .drop id → ⟨.drop id, false⟩ ∈ s :: steps := by
        intro id hop
        obtain ⟨op, kept⟩ := s
        obtain rfl : op = .drop id := hop
        obtain rfl : kept = false := hk
        exact List.mem_cons_self
      rw [hkept]
      refine ⟨hregistry'.trans hregistry, fun id hid => ?_, fun next hn => ?_⟩
      · exact (hbody' id fun hop => hid (herased id hop)).trans
          (hbody id fun hm => hid (List.mem_cons_of_mem _ hm))
      · exact (hreply' next fun id hop => hn id (herased id hop)).trans
          (hreply next fun id hm => hn id (List.mem_cons_of_mem _ hm))

/-- If only ineffective steps are erased from a run, the registry is the same in the end, as is each
body that no erased step drops, and each step that is kept is answered the same. Only a body whose
drop was erased can tell it when it is polled after all. An ineffective request is answered by an empty
500 and changes nothing, and after closing both halves of closing again are ineffective. -/
theorem ineffective_steps_erase (initial : Option Bytes) (steps : List MarkedOp)
    (h : ErasesIneffective { initial } steps) :
    let start : Endpoint := { initial }
    let e := start.after (allOps steps)
    (start.after (keptOps steps)).registry = e.registry ∧
    (∀ id, ⟨.drop id, false⟩ ∉ steps → (start.after (keptOps steps)).body? id = e.body? id) ∧
    (∀ before op later, steps = before ++ ⟨op, true⟩ :: later →
      (∀ id, op = .poll id → ⟨.drop id, false⟩ ∉ before) →
        ((start.after (keptOps before)).step op).1 = ((start.after (allOps before)).step op).1) ∧
    (∀ flush, e.Ineffective (.request flush) → (∃ notices, e.request flush = (none, e, notices)) ∧
      ∀ (s : Store) (i : HandlerId) contentType environment (request : Request),
        s.handlers[i]? = some (.stream e contentType environment) → request.flush = flush →
          (s.serve i request).1 = .response ⟨500, [], .chunks [] none⟩ ∧
          (s.serve i request).2.handlers = s.handlers) ∧
    (∀ before since, allOps steps = before ++ .beginClose :: since → .endAll ∈ since →
      e.Ineffective .beginClose ∧ e.Ineffective .endAll) := by
  intro start e
  have hw : start.WellFormed := wellFormed_fresh initial
  have hp : start.WaitsForAdmission := fun hn => absurd rfl hn
  obtain ⟨hregistry, hbody, -⟩ := after_keptOps hw hp h
  refine ⟨hregistry, hbody, ?_, ?_, ?_⟩
  · rintro before op later rfl hpoll
    obtain ⟨-, -, hreply⟩ := after_keptOps hw hp h.of_append
    exact hreply op fun id hm ho => hpoll id ho hm
  · intro flush hi
    have hr : ¬ (flush = true ∧ e.registry.closed = false) := by
      rcases hi with hi | hi <;> simp [hi]
    refine ⟨⟨_, request_of_refused hr⟩, ?_⟩
    rintro s i contentType environment request hs rfl
    exact Store.serve_of_refused hs hr
  · intro before since hops hend
    have hclosed : e.registry.closed = true := by
      simp only [e, hops]
      exact after_beginClose_closed start before since
    have hnone : e.registry.registered = [] := by
      simp only [e, hops]
      exact registered_of_closing hend
    exact ⟨hclosed, hnone⟩

/-- Every kind of ineffective step once, among steps that connect two clients one after the other. -/
theorem ineffective_steps_erase_each_kind :
    let start : Endpoint := { initial := some [0] }
    let steps : List MarkedOp :=
      [⟨.send [1], false⟩, ⟨.enqueue [2], true⟩, ⟨.endAll, false⟩, ⟨.request false, false⟩,
        ⟨.request true, true⟩, ⟨.enqueue [], false⟩, ⟨.send [3], true⟩, ⟨.endAll, true⟩,
        ⟨.drop 0, false⟩, ⟨.request true, true⟩, ⟨.poll 1, true⟩, ⟨.beginClose, true⟩,
        ⟨.endAll, true⟩, ⟨.beginClose, false⟩, ⟨.endAll, false⟩, ⟨.send [4], false⟩,
        ⟨.request true, false⟩]
    let whole := allOps steps
    start.ErasesIneffective steps ∧ whole.length = 17 ∧ (keptOps steps).length = 8 ∧
      (start.after (keptOps steps)).registry = (start.after whole).registry ∧
      (start.after (keptOps steps)).body? 1 = (start.after whole).body? 1 ∧
      ((start.after (keptOps (steps.take 10))).step (.poll 1)).1 = .polled (.chunk [0]) := by
  intro start steps whole
  have h : start.ErasesIneffective steps := by decide
  obtain ⟨hregistry, hbody, hreply, -, -⟩ := ineffective_steps_erase (some [0]) steps h
  refine ⟨h, rfl, rfl, hregistry, hbody 1 (by decide), ?_⟩
  have hsame := hreply (steps.take 10) (.poll 1) (steps.drop 11) rfl fun id hid => by
    obtain rfl := StreamOp.poll.inj hid
    decide
  exact hsame.trans (by decide)

end Endpoint

end Testkit
