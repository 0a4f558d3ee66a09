import Testkit.Body.Run

/-! What the constructs make of a body, whichever way the body ends. -/

namespace Testkit

/-- Nothing of a subtest is at the path of the test around it, whatever its name. -/
theorem Path.ne_of_child_prefix {path p : Path} {name : String}
    (h : (path.child name).components <+: p.components) : p ≠ path := by
  rintro rfl
  have hle := h.length_le
  simp only [Path.child, List.length_append, List.length_singleton] at hle
  omega

def Ending.returns : Ending → Bool
  | .panicked _ => false
  | _ => true

namespace Exec

theorem andThen_eq (a b : Exec) (env : Env) (s : State) :
    a.andThen b env s = if (a env s).1 = .completed then b env (a env s).2 else a env s := by
  simp only [andThen]
  rcases a env s with ⟨ending, t⟩
  cases ending <;> simp

theorem subtest_eq (name : String) (a : Exec) (env : Env) (s : State) :
    subtest name a env s =
      let path := env.path.child name
      let r := a ⟨env.reporter, path, s.scope :: env.enclosing⟩
        ⟨{}, env.reporter.tellStart path s.world⟩
      let w := env.reporter.tellExit path r.1 r.2.world
      if r.1.returns then
        (.completed, ⟨s.scope.absorb r.2.scope, env.reporter.tellSkipped path r.2.scope.skipped w⟩)
      else (r.1, ⟨s.scope, w⟩) := by
  simp only [subtest, inScope]
  generalize a _ _ = r
  rcases r with ⟨ending, t⟩
  cases ending <;> rfl

theorem sandboxed_eq (a : Exec) (use : Ending → Scope → Exec) (env : Env) (s : State) :
    a.sandboxed use env s =
      let r := a ⟨.sandboxed, .root, s.scope :: env.enclosing⟩ ⟨{}, s.world⟩
      let w := Reporter.sandboxed.tellExit .root r.1 r.2.world
      if r.1.returns then use r.1 r.2.scope env ⟨s.scope, w⟩ else (r.1, ⟨s.scope, w⟩) := by
  simp only [sandboxed, inScope]
  generalize a _ _ = r
  rcases r with ⟨ending, t⟩
  cases ending <;> rfl

end Exec

theorem runSandboxed_eq (body : List Action) (w : World) :
    runSandboxed body w =
      let r := execAll body ⟨.sandboxed, .root, [{}]⟩ ⟨{}, w⟩
      (match r.1 with
        | .panicked p => .error p
        | _ => .ok r.2.scope.outcome,
      Reporter.sandboxed.tellExit .root r.1 r.2.world) := by
  simp only [runSandboxed, Exec.inScope, Env.top]
  generalize execAll body _ _ = r
  rcases r with ⟨ending, t⟩
  cases ending <;> rfl

theorem runPrinting_eq (name : String) (body : List Action) (w : World) :
    runPrinting name body w =
      let r := execAll body ⟨.printing, .root, []⟩ ⟨{}, w⟩
      match r.1 with
      | .panicked p => (.error p, r.2.world)
      | _ =>
        if r.2.scope.failed then
          (.error (.text (failureSummary name r.2.scope.failures)), r.2.world)
        else (.ok (), Reporter.printing.tellSkipped .root r.2.scope.skipped r.2.world) := by
  simp only [runPrinting, Env.top]
  generalize execAll body _ _ = r
  rcases r with ⟨ending, t⟩
  cases ending <;> rfl

end Testkit
