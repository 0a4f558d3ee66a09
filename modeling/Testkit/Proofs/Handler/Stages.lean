import Mathlib.Data.List.ProdSigma
import Testkit.Proofs.Handler.Routes

/-! The stages of a request: the handlers that it comes to, one after the other, each with the store that
it finds. There are no more of them than handlers serve with, if the request is answered at all. -/

namespace Testkit

namespace Handler

/-- The handler without what it has recorded. -/
def unrecorded : Handler → Handler
  | .recording inner _ _ => .recording inner [] true
  | h => h

theorem passesTo?_unrecorded (h : Handler) : h.unrecorded.passesTo? = h.passesTo? := by
  cases h <;> rfl

theorem passesTo?_congr {h g : Handler} (hg : g.unrecorded = h.unrecorded) :
    g.passesTo? = h.passesTo? := by
  rw [← passesTo?_unrecorded g, hg, passesTo?_unrecorded]

theorem unrecorded_passed_congr {h g : Handler} (hg : g.unrecorded = h.unrecorded) (r : Request) :
    (g.passed r).unrecorded = (h.passed r).unrecorded := by
  have hpassed (f : Handler) : (f.passed r).unrecorded = (f.unrecorded.passed r).unrecorded := by
    cases f with
    | recording inner records heard => cases heard <;> rfl
    | _ => rfl
  rw [hpassed g, hg, ← hpassed h]

/-- A handler that has passed a request on has made a turn or is as it was, except for its records. -/
theorem passed_cases (h : Handler) (r : Request) :
    (h.passed r).turnsLeft < h.turnsLeft ∨
      (h.passed r).turnsLeft = h.turnsLeft ∧ (h.passed r).unrecorded = h.unrecorded := by
  cases h with
  | sequential first rest next =>
    by_cases hn : next.val < rest.length
    · left
      simp only [passed, turnsLeft, advance, dif_pos hn]
      omega
    · right
      simp only [passed, advance, dif_neg hn, and_self]
  | recording inner records heard => cases heard <;> exact .inr ⟨rfl, rfl⟩
  | _ => exact .inr ⟨rfl, rfl⟩

end Handler

namespace Store

/-- How many turns the handlers can still make. -/
def turnsLeft (s : Store) : Nat := s.handlers.foldr (fun h n => h.turnsLeft + n) 0

def unrecorded (s : Store) : List Handler := s.handlers.map Handler.unrecorded

theorem longestWay_eq (s : Store) : s.longestWay = s.handlers.length * (s.turnsLeft + 1) := by
  have hsum : ∀ (hs : List Handler) (n : Nat),
      hs.foldl (fun n h => n + h.turnsLeft) n = hs.foldr (fun h n => h.turnsLeft + n) 0 + n := by
    intro hs
    induction hs with
    | nil => simp
    | cons h hs ih =>
      intro n
      rw [List.foldl_cons, ih, List.foldr_cons]
      omega
  rw [longestWay, hsum, turnsLeft]

theorem turnsLeft_set {s : Store} {id : HandlerId} {h : Handler} (hs : s.handlers[id]? = some h)
    (g : Handler) : (s.set id g).turnsLeft + h.turnsLeft = s.turnsLeft + g.turnsLeft := by
  have hset : ∀ (hs : List Handler) (id : Nat), hs[id]? = some h →
      (hs.set id g).foldr (fun h n => h.turnsLeft + n) 0 + h.turnsLeft =
        hs.foldr (fun h n => h.turnsLeft + n) 0 + g.turnsLeft := by
    intro hs
    induction hs with
    | nil => simp
    | cons f hs ih =>
      intro id hget
      cases id with
      | zero =>
        obtain rfl : f = h := by simpa using hget
        simp only [List.set_cons_zero, List.foldr_cons]
        omega
      | succ id =>
        have hi := ih id (by simpa using hget)
        simp only [List.set_cons_succ, List.foldr_cons]
        omega
  exact hset s.handlers id hs

/-- Whether `t` is `s` once some requests were passed on: sequential handlers have made turns, or all is
as it was, except for what is recorded. -/
structure Later (s t : Store) : Prop where
  length : t.handlers.length = s.handlers.length
  turns : t.turnsLeft < s.turnsLeft ∨ t.turnsLeft = s.turnsLeft ∧ t.unrecorded = s.unrecorded

namespace Later

theorem refl (s : Store) : s.Later s := ⟨rfl, .inr ⟨rfl, rfl⟩⟩

theorem trans {s t u : Store} (h : s.Later t) (h' : t.Later u) : s.Later u := by
  refine ⟨h'.length.trans h.length, ?_⟩
  rcases h.turns with hlt | ⟨he, hu⟩ <;> rcases h'.turns with hlt' | ⟨he', hu'⟩
  · exact .inl (Nat.lt_trans hlt' hlt)
  · exact .inl (by omega)
  · exact .inl (by omega)
  · exact .inr ⟨he'.trans he, hu'.trans hu⟩

theorem turnsLeft_le {s t : Store} (h : s.Later t) : t.turnsLeft ≤ s.turnsLeft := by
  rcases h.turns with hlt | ⟨he, -⟩ <;> omega

end Later

variable {s t : Store} {id next : HandlerId} {h : Handler} {r : Request}

theorem unrecorded_visit (hs : s.handlers[id]? = some h) (hp : h.passesTo? = some next)
    (r : Request) : (s.visit id r).unrecorded = s.unrecorded.set id (h.passed r).unrecorded := by
  rw [unrecorded, handlers_visit_of_pass hs hp, List.map_set, unrecorded]

theorem later_visit (hs : s.handlers[id]? = some h) (hp : h.passesTo? = some next) (r : Request) :
    s.Later (s.visit id r) := by
  have hhandlers := handlers_visit_of_pass hs hp r
  refine ⟨by rw [hhandlers, List.length_set], ?_⟩
  have hsum : (s.visit id r).turnsLeft + h.turnsLeft = s.turnsLeft + (h.passed r).turnsLeft := by
    rw [turnsLeft, hhandlers]
    exact turnsLeft_set hs (h.passed r)
  rcases h.passed_cases r with hlt | ⟨he, hu⟩
  · exact .inl (by omega)
  · refine .inr ⟨by omega, ?_⟩
    rw [unrecorded_visit hs hp, hu, unrecorded, ← List.map_set, handlers_set_self hs]

/-- A request that comes to a handler goes through these stages, of which the last one answers it. -/
inductive Stages (r : Request) : Store → HandlerId → List (HandlerId × Store) → Prop
  | answer {s : Store} {id : HandlerId} {h : Handler} (hs : s.handlers[id]? = some h)
    (hp : h.passesTo? = none) : Stages r s id [(id, s)]
  | pass {s : Store} {id next : HandlerId} {h : Handler} {stages : List (HandlerId × Store)}
    (hs : s.handlers[id]? = some h) (hp : h.passesTo? = some next)
    (hr : Stages r (s.visit id r) next stages) : Stages r s id ((id, s) :: stages)

namespace Stages

variable {stages stages' : List (HandlerId × Store)}

theorem unique (h : Stages r s id stages) (h' : Stages r s id stages') : stages = stages' := by
  induction h generalizing stages' with
  | answer hs hp =>
    cases h' with
    | answer => rfl
    | pass hs' hp' =>
      obtain rfl := Option.some.inj (hs.symm.trans hs')
      simp [hp] at hp'
  | pass hs hp _ ih =>
    cases h' with
    | answer hs' hp' =>
      obtain rfl := Option.some.inj (hs.symm.trans hs')
      simp [hp] at hp'
    | pass hs' hp' hr' =>
      obtain rfl := Option.some.inj (hs.symm.trans hs')
      obtain rfl := Option.some.inj (hp.symm.trans hp')
      rw [ih hr']

/-- What is recorded does not change the way that a request takes. -/
theorem congr (h : Stages r s id stages) (ht : t.unrecorded = s.unrecorded) :
    ∃ stages', Stages r t id stages' ∧ stages'.length = stages.length := by
  have hget {s t : Store} {id : HandlerId} {g : Handler} (ht : t.unrecorded = s.unrecorded)
      (hs : s.handlers[id]? = some g) :
      ∃ g', t.handlers[id]? = some g' ∧ g'.unrecorded = g.unrecorded := by
    have hmap : (t.handlers[id]?).map Handler.unrecorded = some g.unrecorded := by
      rw [← List.getElem?_map, ← unrecorded, ht, unrecorded, List.getElem?_map, hs, Option.map_some]
    exact Option.map_eq_some_iff.mp hmap
  induction h generalizing t with
  | answer hs hp =>
    obtain ⟨g, hg, hu⟩ := hget ht hs
    exact ⟨_, .answer hg ((Handler.passesTo?_congr hu).trans hp), rfl⟩
  | @pass s id next h stages hs hp _ ih =>
    obtain ⟨g, hg, hu⟩ := hget ht hs
    have hpg := (Handler.passesTo?_congr hu).trans hp
    have hvisit : (t.visit id r).unrecorded = (s.visit id r).unrecorded := by
      rw [unrecorded_visit hg hpg, unrecorded_visit hs hp, ht, Handler.unrecorded_passed_congr hu]
    obtain ⟨stages', hr, hlength⟩ := ih hvisit
    exact ⟨_, .pass hg hpg hr, by rw [List.length_cons, List.length_cons, hlength]⟩

theorem from_mem (h : Stages r s id stages) {i : HandlerId} {m : Store} (hi : (i, m) ∈ stages) :
    s.Later m ∧ i < m.handlers.length ∧ ∃ later, Stages r m i later ∧ later <:+ stages := by
  induction h with
  | answer hs hp =>
    obtain ⟨rfl, rfl⟩ := Prod.mk.inj (List.mem_singleton.mp hi)
    exact ⟨.refl _, (List.getElem?_eq_some_iff.mp hs).1, _, .answer hs hp, List.suffix_refl _⟩
  | pass hs hp hr ih =>
    rcases List.mem_cons.mp hi with hi | hi
    · obtain ⟨rfl, rfl⟩ := Prod.mk.inj hi
      exact ⟨.refl _, (List.getElem?_eq_some_iff.mp hs).1, _, .pass hs hp hr, List.suffix_refl _⟩
    · obtain ⟨hlater, hlt, later, hl, hsuffix⟩ := ih hi
      exact ⟨(later_visit hs hp r).trans hlater, hlt, later, hl,
        hsuffix.trans (List.suffix_cons _ _)⟩

/-- No request comes to a handler twice without a turn in between. -/
theorem nodup (h : Stages r s id stages) :
    (stages.map fun x => (x.1, x.2.turnsLeft)).Nodup := by
  induction h with
  | answer _ _ => exact List.nodup_singleton _
  | @pass s id next h stages hs hp hr ih =>
    rw [List.map_cons]
    refine List.nodup_cons.mpr ⟨fun hmem => ?_, ih⟩
    obtain ⟨⟨i, m⟩, hm, he⟩ := List.mem_map.mp hmem
    obtain ⟨hi, hturns⟩ : i = id ∧ m.turnsLeft = s.turnsLeft := Prod.mk.inj he
    subst hi
    -- The store would be the same but for its records, and the way from there on as long as the whole.
    obtain ⟨hlater, -, later, hl, hsuffix⟩ := hr.from_mem hm
    have hsame : m.unrecorded = s.unrecorded := by
      rcases ((later_visit hs hp r).trans hlater).turns with hlt | ⟨-, hu⟩
      · omega
      · exact hu
    obtain ⟨again, hagain, hlength⟩ := (Stages.pass hs hp hr).congr hsame
    obtain rfl : later = again := hl.unique hagain
    have hle := hsuffix.length_le
    rw [hlength, List.length_cons] at hle
    omega

theorem length_le_longestWay (h : Stages r s id stages) : stages.length ≤ s.longestWay := by
  have hsub : stages.map (fun x => (x.1, x.2.turnsLeft)) ⊆
      List.range s.handlers.length ×ˢ List.range (s.turnsLeft + 1) := by
    intro p hp
    obtain ⟨⟨i, m⟩, hm, rfl⟩ := List.mem_map.mp hp
    obtain ⟨hlater, hlt, -⟩ := h.from_mem hm
    rw [hlater.length] at hlt
    have hturns := hlater.turnsLeft_le
    exact List.pair_mem_product.mpr
      ⟨List.mem_range.mpr hlt, List.mem_range.mpr (Nat.lt_succ_of_le hturns)⟩
  have hle := (List.subperm_of_subset h.nodup hsub).length_le
  rwa [List.length_map, List.length_product, List.length_range, List.length_range,
    ← longestWay_eq] at hle

end Stages

theorem serveFor_of_answer (hs : s.handlers[id]? = some h) (hp : h.passesTo? = none) (fuel : Nat)
    (r : Request) : serveFor (fuel + 1) id r s = serveFor 1 id r s := by
  cases h with
  | json value headers => cases value <;> simp only [serveFor, hs]
  | sequential _ _ _ | delegating _ | recording _ _ _ => simp [Handler.passesTo?] at hp
  | _ => simp only [serveFor, hs]

theorem answers_of_answer (hs : s.handlers[id]? = some h) (hp : h.passesTo? = none) (r : Request) :
    (serveFor 1 id r s).1 ≠ .unanswered := by
  cases h with
  | json value headers => cases value <;> simp [serveFor, hs]
  | sequential _ _ _ | delegating _ | recording _ _ _ => simp [Handler.passesTo?] at hp
  | stream e contentType environment =>
    simp only [serveFor, hs]
    split <;> simp
  | _ => simp [serveFor, hs]

theorem serveFor_of_stages {stages : List (HandlerId × Store)} (hr : Stages r s id stages)
    {fuel : Nat} (hfuel : stages.length ≤ fuel) :
    ∃ i m, stages.getLast? = some (i, m) ∧ serveFor fuel id r s = serveFor 1 i r m ∧
      (serveFor 1 i r m).1 ≠ .unanswered := by
  induction hr generalizing fuel with
  | @answer s id h hs hp =>
    cases fuel with
    | zero => simp at hfuel
    | succ fuel =>
      exact ⟨id, s, rfl, serveFor_of_answer hs hp fuel r, answers_of_answer hs hp r⟩
  | @pass s id next h stages hs hp hr ih =>
    cases fuel with
    | zero => simp at hfuel
    | succ fuel =>
      obtain ⟨i, m, hlast, hserve, hanswer⟩ := ih (Nat.le_of_succ_le_succ hfuel)
      refine ⟨i, m, ?_, (serveFor_pass hs hp fuel r).trans hserve, hanswer⟩
      rw [List.getLast?_cons, hlast, Option.getD_some]

theorem stages_of_serveFor {fuel : Nat} (hanswer : (serveFor fuel id r s).1 ≠ .unanswered) :
    ∃ stages, Stages r s id stages ∧ stages.length ≤ fuel := by
  induction fuel generalizing s id with
  | zero => exact absurd rfl hanswer
  | succ fuel ih =>
    cases hs : s.handlers[id]? with
    | none => simp [serveFor, hs] at hanswer
    | some h =>
      cases hp : h.passesTo? with
      | none => exact ⟨_, .answer hs hp, Nat.succ_le_succ (Nat.zero_le fuel)⟩
      | some next =>
        rw [serveFor_pass hs hp] at hanswer
        obtain ⟨stages, hr, hle⟩ := ih hanswer
        exact ⟨_, .pass hs hp hr, Nat.succ_le_succ hle⟩

/-- A request that is answered with any fuel is answered so. -/
theorem serve_eq_serveFor {fuel : Nat} (hanswer : (serveFor fuel id r s).1 ≠ .unanswered) :
    s.serve id r = serveFor fuel id r s := by
  obtain ⟨stages, hr, hle⟩ := stages_of_serveFor hanswer
  obtain ⟨i, m, hlast, hserve, -⟩ := serveFor_of_stages hr hle
  obtain ⟨i', m', hlast', hserve', -⟩ := serveFor_of_stages hr hr.length_le_longestWay
  obtain ⟨rfl, rfl⟩ := Prod.mk.inj (Option.some.inj (hlast.symm.trans hlast'))
  exact hserve'.trans hserve.symm

end Store

end Testkit
