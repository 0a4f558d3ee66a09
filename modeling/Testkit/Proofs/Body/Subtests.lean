import Testkit.Body.Run
import Testkit.Proofs.Body.Relocation

/-! A subtest is a run in a sandbox whose entries are taken in with the path of the subtest in front
of their own, or not at all. -/

namespace Testkit

/-- A scope with what is recorded in a sandbox, but below `path`. -/
def Scope.include (s : Scope) (path : Path) (o : Outcome) : Scope :=
  { s with
    failed := s.failed || o.failed
    failures := s.failures ++ o.failures.map (·.under path)
    skips := s.skips ++ o.skips.map (·.under path) }

theorem Scope.absorb_under (s child : Scope) (path : Path) :
    s.absorb (child.under path) = s.include path child.outcome := rfl

/-- A body that runs as a subtest and in a fresh sandbox ends alike and, as far as the view shows it,
sees and does the same. -/
theorem Exec.Relocates.subtest_sandbox {view : World → World} (hv : World.IsView view)
    {body : List Action} (h : ∀ base, Relocates view base (execAll body)) (name : String)
    (env : Env) (s : State) :
    let r := (Action.subtest name body).exec env s
    let sandbox := runSandboxed body s.world
    (match sandbox.1 with
      | .ok o => r.1 = .completed ∧ r.2.scope = s.scope.include (env.path.child name) o
      | .error p => r.1 = .panicked p ∧ r.2.scope = s.scope) ∧
    view r.2.world = view sandbox.2 := by
  let path := env.path.child name
  have hs : State.LooksUnder view path ⟨{}, env.reporter.tellStart path s.world⟩ ⟨{}, s.world⟩ :=
    ⟨rfl, hv.tellStart env.reporter path s.world⟩
  have hh := @h path ⟨env.reporter, path, s.scope :: env.enclosing⟩ ⟨.sandboxed, .root, [{}]⟩ _ _
    (Path.under_root path).symm hs
  simp only [Action.exec, subtest_eq, runSandboxed_eq]
  revert hh
  generalize execAll body ⟨env.reporter, _, _⟩ _ = r
  generalize execAll body ⟨.sandboxed, _, _⟩ _ = q
  obtain ⟨re, rs⟩ := r
  obtain ⟨qe, qs⟩ := q
  rintro ⟨rfl, hr⟩
  have hscope : s.scope.absorb rs.scope = s.scope.include path qs.scope.outcome := by
    rw [hr.scope, Scope.absorb_under]
  have hw : view (env.reporter.tellExit path re rs.world) =
      view (Reporter.sandboxed.tellExit .root re qs.world) := by
    rw [hv.tellExit, hv.tellExit, hr.world]
  cases re with
  | completed => exact ⟨⟨rfl, hscope⟩, (hv.tellSkipped _ _ _ _).trans hw⟩
  | exited => exact ⟨⟨rfl, hscope⟩, (hv.tellSkipped _ _ _ _).trans hw⟩
  | panicked p => exact ⟨⟨rfl, rfl⟩, hw⟩

/-- A body as a subtest, with any reporter, at any path and in any state, does what it does in a fresh
sandbox. If it ends there without a panic, the subtest completes, and all that changes in the scope is
that the entries are added with the path of the subtest in front of theirs and that it is failed if
the sandbox is. If it panics there, the subtest panics alike and leaves the scope as it was. What the
body sees is the same, except for what it may read of the outermost reporter. -/
theorem subtest_eq_sandbox_under (name : String) (body : List Action) (env : Env) (s : State) :
    let path := env.path.child name
    let r := (Action.subtest name body).exec env s
    let sandbox := runSandboxed body s.world
    (match sandbox.1 with
      | .ok o =>
        r.1 = .completed ∧
          r.2.scope = { s.scope with
            failed := s.scope.failed || o.failed
            failures := s.scope.failures ++ o.failures.map (·.under path)
            skips := s.scope.skips ++ o.skips.map (·.under path) }
      | .error p => r.1 = .panicked p ∧ r.2.scope = s.scope) ∧
    (r.2.world.trace.map Observation.unread = sandbox.2.trace.map Observation.unread ∧
      r.2.world.channels = sandbox.2.channels ∧ r.2.world.now = sandbox.2.now) ∧
    (anyReadsOutcome body = false → r.2.world.trace = sandbox.2.trace) := by
  intro path r sandbox
  obtain ⟨hends, hw⟩ :=
    Exec.Relocates.subtest_sandbox World.isView_unread (Exec.relocates_unread body) name env s
  refine ⟨hends, World.agree_of_unread hw, fun h => ?_⟩
  obtain ⟨-, hw⟩ :=
    Exec.Relocates.subtest_sandbox World.isView_silent (Exec.relocates h) name env s
  exact (World.agree_of_silent hw).1

end Testkit
