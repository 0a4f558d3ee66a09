import Testkit.Proofs.Body.Accounts
import Testkit.Proofs.Body.Occurrences

/-! What a test is told that asks whether it failed: what itself has done until then decides, whatever
its subtests and sandboxes have done. -/

namespace Testkit

/-- Who asks was told the failures of the innermost live test until then, and nobody else's. -/
theorem Occurs.answer {history : List Deed} {live : List (List Deed)} {answer : Bool}
    (ho : Occurs history live (.asked answer)) {env : Env} {scope : Scope}
    (h : TruthfulAll env scope history) {around : List (List Deed)} {own : List Deed}
    (hl : live = around ++ [own]) :
    answer = (own.any Deed.fails || (around.isEmpty && scope.failedHere)) := by
  generalize ha : Act.asked answer = a at ho
  induction ho generalizing env scope around own with
  | here a after =>
    obtain ⟨rfl, rfl⟩ : around = [] ∧ own = [] := by simpa [List.singleton_eq_append_iff] using hl
    subst ha
    exact h.1
  | @later history before inner a d ho ih =>
    cases around with
    | nil =>
      obtain ⟨rfl, rfl⟩ := List.cons.inj hl
      have hbefore := ih h.2 (List.nil_append [before]).symm ha
      have hd : (scope.followedBy (.recorded env.path [d])).failedHere =
          (scope.failedHere || d.fails) := by
        simp [Scope.followedBy, Scope.recorded]
      rw [hd] at hbefore
      rw [hbefore, List.any_cons]
      cases scope.failedHere <;> cases d.fails <;> simp
    | cons first around =>
      obtain ⟨-, rfl⟩ := List.cons.inj hl
      exact ih h.2 (show before :: (around ++ [own]) = before :: around ++ [own] from rfl) ha
  | subtest name ending after ho ih =>
    cases around with
    | nil => exact absurd (List.cons.inj hl).2 ho.ne_nil
    | cons first around =>
      obtain ⟨-, rfl⟩ := List.cons.inj hl
      -- The scope inside is fresh, so that nothing from before the subtest counts in it.
      have hinside := ih h.1 rfl ha
      simpa using hinside
  | sandbox ending after ho ih =>
    cases around with
    | nil => exact absurd (List.cons.inj hl).2 ho.ne_nil
    | cons first around =>
      obtain ⟨-, rfl⟩ := List.cons.inj hl
      have hinside := ih h.1 rfl ha
      simpa using hinside

/-- Whether a test that has done this has failed itself. -/
def HasFailed (own : List Deed) : Prop :=
  (∃ message, .act (.failure message) ∈ own) ∨ .act .failNow ∈ own

theorem any_fails_iff (own : List Deed) : own.any Deed.fails = true ↔ HasFailed own := by
  rw [List.any_eq_true, HasFailed]
  constructor
  · rintro ⟨d, hd, hf⟩
    match d with
    | .act (.failure message) => exact .inl ⟨message, hd⟩
    | .act .failNow => exact .inr hd
    | .act (.skip _) | .act (.asked _) | .act (.looked _) | .act (.saw _) | .subtest .. | .sandbox .. =>
      exact absurd hf Bool.false_ne_true
  · rintro (⟨message, hd⟩ | hd)
    · exact ⟨_, hd, rfl⟩
    · exact ⟨_, hd, rfl⟩

theorem Scope.recorded_failed_iff (path : Path) (history : List Deed) :
    (recorded path history).failed = true ↔
      ∃ m ∈ momentsAll path history, m.fate = .kept ∧ m.fails = true := by
  simp [recorded]

/-- A failure of a test itself is kept by it, and by the test around it once it has returned. -/
theorem HasFailed.of_finished {inner history : List Deed} {name : String} {ending : Ending}
    (h : HasFailed inner) (hm : .subtest name inner ending ∈ history) (hr : ending.returns = true)
    (path : Path) : ∃ m ∈ momentsAll path history, m.fate = .kept ∧ m.fails = true := by
  have hkept (a : Act) (ha : .act a ∈ inner) :
      ⟨path.child name, .kept, .act a⟩ ∈ momentsAll path history := by
    have hinner : ⟨path.child name, .kept, .act a⟩ ∈ momentsAll (path.child name) inner := by
      rw [momentsAll_eq]
      exact List.mem_flatMap_of_mem ha (List.mem_singleton_self _)
    rw [momentsAll_eq]
    refine List.mem_flatMap_of_mem hm ?_
    rw [Deed.moments, if_pos hr]
    exact List.mem_cons_of_mem _ (List.mem_append_left _ hinner)
  obtain ⟨message, ha⟩ | ha := h
  · exact ⟨_, hkept _ ha, rfl, rfl⟩
  · exact ⟨_, hkept _ ha, rfl, rfl⟩

/-- Whether a test is told that it failed is decided by what itself has done until it asks: nothing
that its subtests, its sandboxes or the tests around it do counts. Every question is in the history,
below the tests that are around the place where it is asked, and the history is what can be seen of the
run. The outcome goes by the finished subtests as well. -/
theorem failed_is_local (body : List Action) (env : Env) (s : State) :
    let history := deedsAll body env s
    let t := (execAll body env s).2
    World.Tells env.reporter (momentsAll env.path history) s.world t.world ∧
    (∀ frames a rest env' s' act,
      Control.Reaches frames ⟨body, env, s⟩ ⟨a :: rest, env', s'⟩ → .act act ∈ a.deeds env' s' →
        ∃ live, live.length = frames.countP Frame.hasScope + 1 ∧ Occurs history live act) ∧
    (∀ frames rest env' s',
      Control.Reaches frames ⟨body, env, s⟩ ⟨.failed :: rest, env', s'⟩ →
        ∃ around own answer, around.length = frames.countP Frame.hasScope ∧
          Occurs history (around ++ [own]) (.asked answer) ∧
          (Exec.failed env' s').2.world = s'.world.observe (.failed answer)) ∧
    (∀ around own answer, Occurs history (around ++ [own]) (.asked answer) →
      (answer = true ↔ HasFailed own ∨ around = [] ∧ s.scope.failedHere = true)) ∧
    (t.scope.failedHere = true ↔ HasFailed history ∨ s.scope.failedHere = true) ∧
    (t.scope.outcome.failed = true ↔ s.scope.failed = true ∨
      ∃ m ∈ momentsAll env.path history, m.fate = .kept ∧ m.fails = true) ∧
    ∀ name inner ending, .subtest name inner ending ∈ history → ending.returns = true →
      HasFailed inner → t.scope.outcome.failed = true := by
  intro history t
  have haccount : Account history env s t := Deeds.Accounts.all body env s
  have hfailed : t.scope.outcome.failed = true ↔ s.scope.failed = true ∨
      ∃ m ∈ momentsAll env.path history, m.fate = .kept ∧ m.fails = true := by
    rw [haccount.scope, ← Scope.recorded_failed_iff]
    exact Bool.or_eq_true_iff
  refine ⟨haccount.world, fun _ _ _ _ _ _ h ha => h.occurs ha, ?_, ?_, ?_, hfailed, ?_⟩
  · intro frames rest env' s' hplace
    obtain ⟨live, hl, ho⟩ := hplace.occurs (List.mem_singleton_self _)
    obtain rfl | ⟨around, own, rfl⟩ := live.eq_nil_or_concat
    · exact absurd rfl ho.ne_nil
    · rw [List.concat_eq_append, List.length_append] at hl
      exact ⟨around, own, _, Nat.succ.inj hl, List.concat_eq_append ▸ ho, rfl⟩
  · intro around own answer ho
    rw [ho.answer haccount.truthful rfl, Bool.or_eq_true_iff, Bool.and_eq_true_iff, any_fails_iff,
      List.isEmpty_iff]
  · rw [haccount.scope, ← any_fails_iff, or_comm]
    exact Bool.or_eq_true_iff
  · intro name inner ending hm hr hinner
    exact hfailed.mpr (.inr (hinner.of_finished hm hr env.path))

/-- A test asks after a subtest of it has failed and returned, and again after it caught its own
exit. -/
theorem failed_is_local_around_subtest :
    let body : List Action := [.subtest "a" [.fail "x"], .failed, .catching [.failNow] false, .failed]
    let env : Env := .top .printing
    let s : State := ⟨{}, {}⟩
    let subtest : Deed := .subtest "a" [.act (.failure "x")] .completed
    let later : List Deed := [.act (.asked false), .act .failNow, .act (.saw (.caught .exited))]
    (Occurs (deedsAll body env s) [[subtest]] (.asked false) ∧ ¬ HasFailed [subtest]) ∧
    (Occurs (deedsAll body env s) [subtest :: later] (.asked true) ∧ HasFailed (subtest :: later)) ∧
    (∃ live, live.length = 1 ∧ Occurs (deedsAll body env s) live (.asked false)) ∧
    (∃ around own answer, around.length = 0 ∧
      Occurs (deedsAll body env s) (around ++ [own]) (.asked answer)) ∧
    (execAll body env s).2.scope.outcome.failed = true := by
  intro body env s subtest later
  obtain ⟨-, hreached, hasked, hanswer, -, -, hfinished⟩ := failed_is_local body env s
  have hplace : Control.Reaches [] ⟨body, env, s⟩
      ⟨body.tail, env, ((body.headD default).exec env s).2⟩ := .next rfl (.here _)
  have hfirst : Occurs (deedsAll body env s) [[subtest]] (.asked false) := .later _ (.here _ _)
  have hsecond : Occurs (deedsAll body env s) [subtest :: later] (.asked true) :=
    .later _ (.later _ (.later _ (.later _ (.here _ _))))
  have hlocal := (hanswer [] _ true hsecond).mp rfl
  obtain ⟨around, own, answer, hlength, ho, -⟩ := hasked [] _ _ _ hplace
  refine ⟨⟨hfirst, fun h => ?_⟩, ⟨hsecond, hlocal.resolve_right fun h => ?_⟩, ?_,
    ⟨around, own, answer, hlength, ho⟩, ?_⟩
  · exact absurd ((hanswer [] _ false hfirst).mpr (.inl h)) Bool.false_ne_true
  · exact absurd h.2 Bool.false_ne_true
  · exact hreached [] .failed _ _ _ _ hplace (List.mem_singleton_self _)
  · exact hfinished "a" [.act (.failure "x")] .completed (List.mem_cons_self ..) rfl
      (.inl ⟨"x", List.mem_singleton_self _⟩)

end Testkit
