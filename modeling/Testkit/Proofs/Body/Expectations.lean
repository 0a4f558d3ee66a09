import Testkit.Proofs.Body.Containment
import Testkit.Proofs.Body.Relocation
import Testkit.Proofs.Body.Unwinding

/-! What an expectation makes of a body. It goes by what the body does in a fresh sandbox, and all that
the test around it gets is a failure if the expectation is not met. -/

namespace Testkit

namespace Expectation

/-- Whether a body meets the expectation that failed in a sandbox, or did not, and came past its last
action, or did not. -/
def Met (e : Expectation) (failed : Bool) (past : Prop) : Prop :=
  match e with
  | .failure => failed = true ∧ past
  | .failureAndExit => failed = true ∧ ¬ past

/-- The failure of the test that has the expectation, if it is not met. -/
def reproach (e : Expectation) (failed : Bool) : String :=
  if failed then
    match e with
    | .failure => "test failed as expected, but it also terminated early and should not have"
    | .failureAndExit =>
      "test failed as expected, but it should have also terminated early and did not"
  else "expected test to fail, but it passed"

theorem complaint?_of_met {e : Expectation} {failed completed : Bool} {past : Prop}
    (hp : completed = true ↔ past) (h : e.Met failed past) : e.complaint? failed completed = none := by
  cases e with
  | failure =>
    obtain ⟨rfl, hpast⟩ := h
    obtain rfl := hp.mpr hpast
    rfl
  | failureAndExit =>
    obtain ⟨rfl, hpast⟩ := h
    obtain rfl : completed = false := by simpa [← hp] using hpast
    rfl

theorem complaint?_of_not_met {e : Expectation} {failed completed : Bool} {past : Prop}
    (hp : completed = true ↔ past) (h : ¬ e.Met failed past) :
    e.complaint? failed completed = some (e.reproach failed) := by
  cases failed with
  | false => rfl
  | true => cases e <;> cases completed <;> simp_all [Met, complaint?, reproach]

end Expectation

namespace Exec

theorem follow_expectation (e : Expectation) (failed completed : Bool) (env : Env) (s : State) :
    follow (e.verdict failed completed) env s =
      (.completed,
        match e.complaint? failed completed with
        | none => ⟨s.scope, s.world.observe (.held true)⟩
        | some message =>
          ⟨s.scope.recordFailure env.path message,
            (env.reporter.tellFailure env.path message s.world).observe (.held false)⟩) := by
  rw [Expectation.verdict]
  cases e.complaint? failed completed <;> rfl

end Exec

/-- Whether control comes past the last action of the body in a fresh sandbox. -/
def RunsPast (body : List Action) (w : World) : Prop :=
  ∃ t, (Control.sandboxed body w).Reaches [] ⟨[], (Control.sandboxed body w).env, t⟩

theorem runsPast_iff (body : List Action) (w : World) :
    RunsPast body w ↔ (execAll body ⟨.sandboxed, .root, [{}]⟩ ⟨{}, w⟩).1 = .completed :=
  (Control.run_completed_iff _).symm

/-- A body in a sandbox inside of a test does what it does in a fresh sandbox. -/
theorem sandboxed_congr (body : List Action) (enclosing : List Scope) (w : World) :
    let r := execAll body ⟨.sandboxed, .root, enclosing⟩ ⟨{}, w⟩
    let fresh := execAll body ⟨.sandboxed, .root, [{}]⟩ ⟨{}, w⟩
    r.1 = fresh.1 ∧ r.2.scope = fresh.2.scope ∧ r.2.world.unread = fresh.2.world.unread ∧
      r.2.world.printed = w.printed := by
  have hsame : State.LooksUnder World.unread .root ⟨{}, w⟩ ⟨{}, w⟩ := ⟨rfl, rfl⟩
  obtain ⟨he, hr⟩ := @Exec.relocates_unread body .root ⟨.sandboxed, .root, enclosing⟩
    ⟨.sandboxed, .root, [{}]⟩ _ _ rfl hsame
  have hprinted := Exec.onlySees body ⟨.sandboxed, .root, enclosing⟩ ⟨{}, w⟩ rfl
  exact ⟨he, hr.scope.trans (Scope.root_under _), hr.world, hprinted.printed⟩

/-- How a test goes on from `s` that had an expectation, where the body failed or not in the sandbox,
came past its last action or not, and left that world. -/
structure Expectation.Resolved (e : Expectation) (failed : Bool) (past : Prop) (left : World)
    (env : Env) (s : State) (answer : Bool) (r : Ending × State) : Prop where
  ending : r.1 = .completed
  answer_iff : answer = true ↔ e.Met failed past
  trace : r.2.world.trace.map Observation.unread =
    left.trace.map Observation.unread ++ [.held answer]
  acted : r.2.world.channels = left.channels ∧ r.2.world.now = left.now
  scope : r.2.scope =
    if answer then s.scope
    else { s.scope with
      failedHere := true
      failed := true
      failures := s.scope.failures ++ [⟨env.path, e.reproach failed⟩] }
  printed : r.2.world.printed =
    if answer then s.world.printed
    else (env.reporter.tellFailure env.path (e.reproach failed) s.world).printed

theorem Expectation.Resolved.getLast?_trace {e : Expectation} {failed : Bool} {past : Prop}
    {left : World} {env : Env} {s : State} {answer : Bool} {r : Ending × State}
    (h : e.Resolved failed past left env s answer r) :
    r.2.world.trace.getLast? = some (.held answer) := by
  have hlast := congrArg List.getLast? h.trace
  rw [List.getLast?_map, List.getLast?_append, List.getLast?_singleton] at hlast
  obtain ⟨o, ho, hread⟩ := Option.map_eq_some_iff.mp hlast
  cases o with
  | held b => rw [ho, ← hread]; rfl
  | _ => cases hread

theorem Reporter.printed_tellFailure (r : Reporter) (path : Path) (message : String) {w v : World}
    (h : w.printed = v.printed) :
    (r.tellFailure path message w).printed = (r.tellFailure path message v).printed := by
  cases r with
  | sandboxed => exact h
  | printing => exact congrArg (· ++ [Printed.failure path message]) h

theorem resolved_follow (e : Expectation) {failed completed : Bool} {past : Prop}
    (hp : completed = true ↔ past) {left : World} (env : Env) {s t : State}
    (hs : t.scope = s.scope) (hw : t.world.unread = left.unread)
    (hprinted : t.world.printed = s.world.printed) :
    ∃ answer, e.Resolved failed past left env s answer
      (Exec.follow (e.verdict failed completed) env t) := by
  have hseen {w : World} (h : w.unread = left.unread) (answer : Bool) :
      (w.observe (.held answer)).trace.map Observation.unread =
        left.trace.map Observation.unread ++ [.held answer] := by
    simp [World.observe, (World.agree_of_unread h).1, Observation.unread]
  by_cases hmet : e.Met failed past
  · refine ⟨true, ?_⟩
    rw [Exec.follow_expectation, Expectation.complaint?_of_met hp hmet]
    exact ⟨rfl, iff_of_true rfl hmet, hseen hw true, (World.agree_of_unread hw).2, hs, hprinted⟩
  · refine ⟨false, ?_⟩
    rw [Exec.follow_expectation, Expectation.complaint?_of_not_met hp hmet]
    have htold : (env.reporter.tellFailure env.path (e.reproach failed) t.world).unread =
        left.unread := (World.isView_unread.tellFailure _ _ _ _).trans hw
    have hscope : t.scope.recordFailure env.path (e.reproach failed) =
        s.scope.recordFailure env.path (e.reproach failed) := by rw [hs]
    exact ⟨rfl, iff_of_false Bool.false_ne_true hmet, hseen htold false,
      (World.agree_of_unread htold).2, hscope,
      env.reporter.printed_tellFailure env.path (e.reproach failed) hprinted⟩

theorem expect_eq (e : Expectation) (body : List Action) (env : Env) (s : State) :
    let sandbox := runSandboxed body s.world
    let completed : Bool := (execAll body ⟨.sandboxed, .root, [{}]⟩ ⟨{}, s.world⟩).1 = .completed
    ∃ w, w.unread = sandbox.2.unread ∧ w.printed = s.world.printed ∧
      (Action.expect e body).exec env s =
        match sandbox.1 with
        | .error p => (.panicked p, ⟨s.scope, w⟩)
        | .ok o => Exec.follow (e.verdict o.failed completed) env ⟨s.scope, w⟩ := by
  have hcongr := sandboxed_congr body (s.scope :: env.enclosing) s.world
  simp only [Action.exec, Exec.expect, Exec.sandboxed_eq, runSandboxed_eq]
  revert hcongr
  generalize execAll body ⟨.sandboxed, .root, s.scope :: env.enclosing⟩ _ = r
  generalize execAll body ⟨.sandboxed, .root, [{}]⟩ _ = fresh
  obtain ⟨ending, t⟩ := r
  obtain ⟨ending', t'⟩ := fresh
  rintro ⟨rfl, hscope, hw, hprinted⟩
  have hw' : (Reporter.sandboxed.tellExit .root ending t.world).unread =
      (Reporter.sandboxed.tellExit .root ending t'.world).unread := by
    rw [World.isView_unread.tellExit, World.isView_unread.tellExit, hw]
  have hfailed : t.scope.failed = t'.scope.failed := congrArg Scope.failed hscope
  have hsees := World.OnlySees.tellExit .root ending t.world
  refine ⟨_, hw', hsees.printed.trans hprinted, ?_⟩
  cases ending with
  | panicked p => rfl
  | completed | exited => simp only [hfailed, Ending.returns, if_true, Scope.outcome]

/-- An expectation goes by what the body does in a fresh sandbox. If it panics there, the expectation
panics alike and leaves the scope of the test as it was. Otherwise it completes and answers whether the
sandbox failed and the body came past its last action, or failed and did not, as expected. If that is
so, the scope stays as it was; if not, it has one more failure, at the path of the test itself, and
nothing of the body. So a body that fails meets exactly one of the two expectations, and one that does not
fail meets neither. -/
theorem expectations_go_by_sandbox (body : List Action) (env : Env) (s : State) :
    let sandbox := runSandboxed body s.world
    let past := RunsPast body s.world
    let test (e : Expectation) := (Action.expect e body).exec env s
    let accepts (e : Expectation) := (test e).2.world.trace.getLast? = some (.held true)
    match sandbox.1 with
    | .error p => ∀ e, (test e).1 = .panicked p ∧ (test e).2.scope = s.scope ∧
        (test e).2.world.printed = s.world.printed
    | .ok o =>
      (∀ e : Expectation, ∃ answer, e.Resolved o.failed past sandbox.2 env s answer (test e)) ∧
        if o.failed then accepts .failure ↔ ¬ accepts .failureAndExit
        else ¬ accepts .failure ∧ ¬ accepts .failureAndExit := by
  intro sandbox past test accepts
  have hpast := runsPast_iff body s.world
  cases hs : sandbox.1 with
  | error p =>
    intro e
    obtain ⟨w, -, hprinted, he⟩ := expect_eq e body env s
    rw [hs] at he
    rw [show test e = _ from he]
    exact ⟨rfl, rfl, hprinted⟩
  | ok o =>
    have hresolved (e : Expectation) :
        ∃ answer, e.Resolved o.failed past sandbox.2 env s answer (test e) := by
      obtain ⟨w, hw, hprinted, he⟩ := expect_eq e body env s
      rw [hs] at he
      rw [show test e = _ from he]
      exact resolved_follow e (decide_eq_true_iff.trans hpast.symm) env rfl hw hprinted
    have haccepts (e : Expectation) : accepts e ↔ e.Met o.failed past := by
      obtain ⟨answer, hr⟩ := hresolved e
      rw [← hr.answer_iff]
      simp only [accepts, hr.getLast?_trace, Option.some.injEq, Observation.held.injEq]
    refine ⟨hresolved, ?_⟩
    rw [haccepts, haccepts]
    cases ho : o.failed with
    | true => simp [Expectation.Met]
    | false => simp [Expectation.Met]

/-- A failure before a skip, and one that is caught before the end. -/
example :
    ((execAll [.expect .failureAndExit [.fail "a", .skip "b"],
      .expect .failure [.catching [.failNow] false, .subtest "c" [.skip "d"]]]
        (.top .printing) ⟨{}, {}⟩).2.world.trace.filter
          fun o => o matches .held _) = [.held true, .held true] := by
  decide

end Testkit
