import Testkit.Body.Run
import Testkit.Proofs.Body.Passage
import Testkit.Proofs.Body.Relocation

/-! A test that prints and the same test in a sandbox agree: what the body sees is the same, and the
one fails when the other is failed. -/

namespace Testkit

/-- Whether more is printed in `v` than in `w`, but not that the top level was skipped. -/
def World.PrintsBelow (w v : World) : Prop :=
  ∃ more, v.printed = w.printed ++ more ∧ .skipped .root ∉ more

namespace World.PrintsBelow

theorem of_eq {w v : World} (h : v.printed = w.printed) : w.PrintsBelow v :=
  ⟨[], by rw [h, List.append_nil], by simp⟩

theorem of_print {w : World} {p : Printed} (h : p ≠ .skipped .root) : w.PrintsBelow (w.print p) :=
  ⟨[p], rfl, by simpa using h.symm⟩

theorem trans {w v u : World} (h : w.PrintsBelow v) (h' : v.PrintsBelow u) : w.PrintsBelow u := by
  obtain ⟨m, hm, hn⟩ := h
  obtain ⟨m', hm', hn'⟩ := h'
  exact ⟨m ++ m', by rw [hm', hm, List.append_assoc], by simp [hn, hn']⟩

theorem tellFailure (r : Reporter) (path : Path) (message : String) (w : World) :
    w.PrintsBelow (r.tellFailure path message w) := by
  cases r with
  | sandboxed => exact of_eq rfl
  | printing => exact of_print (by simp)

theorem tellSkip (r : Reporter) (path : Path) (message : String) (w : World) :
    w.PrintsBelow (r.tellSkip path message w) := by
  cases r with
  | sandboxed => exact of_eq rfl
  | printing =>
    simp only [Reporter.tellSkip]
    split
    · exact of_eq rfl
    · exact of_print (by simp)

theorem tellSkipped (r : Reporter) {path : Path} (hp : path ≠ .root) (skipped : Bool) (w : World) :
    w.PrintsBelow (r.tellSkipped path skipped w) := by
  cases r with
  | sandboxed => exact of_eq rfl
  | printing =>
    cases skipped with
    | false => exact of_eq rfl
    | true => exact of_print (by simpa using hp)

theorem tellStart (r : Reporter) (path : Path) (w : World) :
    w.PrintsBelow (r.tellStart path w) := by
  cases r <;> exact of_eq rfl

theorem tellExit (r : Reporter) (path : Path) (ending : Ending) (w : World) :
    w.PrintsBelow (r.tellExit path ending w) := by
  cases r <;> cases ending <;> exact of_eq rfl

theorem act (w : World) (name : String) (op : ChannelOp) : w.PrintsBelow (w.act name op).1 := by
  refine of_eq ?_
  simp only [World.act]
  split <;> rfl

end World.PrintsBelow

theorem printsBelow_kept : Passage.Kept fun _ w v => w.PrintsBelow v where
  refl _ _ := .of_eq rfl
  trans h h' := h.trans h'
  observe _ _ _ := .of_eq rfl
  tellFailure := World.PrintsBelow.tellFailure
  tellSkip := World.PrintsBelow.tellSkip
  tellStart := World.PrintsBelow.tellStart
  tellExit := World.PrintsBelow.tellExit
  tellSkipped r _ skipped w hp := .tellSkipped r hp skipped w
  sandbox h := h

namespace Exec

def PrintsBelow (a : Exec) : Prop := ∀ (env : Env) (s : State), s.world.PrintsBelow (a env s).2.world

theorem PrintsBelow.execAll (body : List Action) : PrintsBelow (execAll body) :=
  (Leads.closed printsBelow_kept fun _ => World.PrintsBelow.act).execAll body
    fun _ => .outcome printsBelow_kept

end Exec

theorem printing_over (name : String) {w : World} {s : State} {test : Except Payload Unit × World}
    (hp : w.PrintsBelow s.world)
    (ht : test = if s.scope.failed then
        (.error (.text (failureSummary name s.scope.failures)), s.world)
      else (.ok (), Reporter.printing.tellSkipped .root s.scope.skipped s.world)) :
    test.2.silent = s.world.silent ∧
      test.1 = (if s.scope.failed then .error (.text (failureSummary name s.scope.failures))
        else .ok ()) ∧
      ∃ v, w.PrintsBelow v ∧ test.2.printed = v.printed ++
        if s.scope.skipped && !s.scope.failed then [.skipped .root] else [] := by
  subst ht
  cases hf : s.scope.failed with
  | true => exact ⟨rfl, rfl, s.world, hp, by simp⟩
  | false =>
    refine ⟨by simp, rfl, s.world, hp, ?_⟩
    cases hk : s.scope.skipped with
    | true => rfl
    | false => exact (List.append_nil _).symm

/-- A printing test and a sandbox run a body that does not look at the outermost reporter with the same
trace and the same channels. A panic of the body leaves both of them. Without one, the printing test
panics if the outcome of the sandbox is failed, with the failures of the outcome in its text, and
otherwise passes; at the end it says that the test was skipped if the outcome is skipped and not
failed. -/
theorem runPrinting_agrees (name : String) (body : List Action) (w : World)
    (h : anyReadsOutcome body = false) :
    let sandbox := runSandboxed body w
    let test := runPrinting name body w
    let ending := (execAll body (.top .printing) ⟨{}, w⟩).1
    (test.2.trace = sandbox.2.trace ∧ test.2.channels = sandbox.2.channels ∧
      test.2.now = sandbox.2.now) ∧
    (∀ p, ending = .panicked p ↔ sandbox.1 = .error p) ∧
    (match sandbox.1 with
    | .error p => test.1 = .error p ∧ w.PrintsBelow test.2
    | .ok o =>
      test.1 = (if o.failed then
          .error (.text ("test `" ++ name ++ "` failed" ++
            String.join (o.failures.map fun e => "\n  " ++ e.text)))
        else .ok ()) ∧
      ∃ v, w.PrintsBelow v ∧ test.2.printed = v.printed ++
        if o.skipped && !o.failed then [.skipped .root] else []) ∧
    (Printed.skipped .root).lines name = "--- SKIP: " ++ name ++ "\n" := by
  have hs : State.IsUnder .root ⟨{}, w⟩ ⟨{}, w⟩ := ⟨rfl, rfl⟩
  have hh := @Exec.relocates body h .root ⟨.printing, .root, []⟩ ⟨.sandboxed, .root, [{}]⟩ _ _ rfl hs
  have hp := Exec.PrintsBelow.execAll body ⟨.printing, .root, []⟩ ⟨{}, w⟩
  simp only [runSandboxed_eq, runPrinting_eq, Env.top]
  revert hh hp
  generalize execAll body ⟨.printing, _, _⟩ _ = r
  generalize execAll body ⟨.sandboxed, _, _⟩ _ = q
  obtain ⟨re, rs⟩ := r
  obtain ⟨qe, qs⟩ := q
  rintro ⟨rfl, hr⟩ hp
  have hscope : rs.scope = qs.scope := hr.scope.trans (Scope.root_under _)
  have hout : rs.scope.outcome = qs.scope.outcome := by rw [hscope]
  have hw : rs.world.silent = qs.world.silent := hr.world
  refine ⟨?_, ?_, ?_, rfl⟩
  · cases re with
    | panicked p => exact World.agree_of_silent hw
    | completed => exact World.agree_of_silent ((printing_over name hp rfl).1.trans hw)
    | exited =>
      refine World.agree_of_silent ((printing_over name hp rfl).1.trans ?_)
      rw [Reporter.silent_tellExit, ← hw]
  · intro p
    cases re <;> simp
  · cases re with
    | panicked p => exact ⟨rfl, hp⟩
    | completed =>
      dsimp only
      rw [← hout]
      exact (printing_over name hp rfl).2
    | exited =>
      dsimp only
      rw [← hout]
      exact (printing_over name hp rfl).2

theorem runPrinting_agrees_nested :
    let body := [Action.subtest "part" [.fail "broken", .failNow], .skip "rest"]
    anyReadsOutcome body = false ∧
      (runSandboxed body {}).1 = .ok ⟨true, true, [⟨⟨["part"]⟩, "broken"⟩], [⟨.root, "rest"⟩]⟩ ∧
      (runPrinting "whole" body {}).1 = .error (.text "test `whole` failed\n  part: broken") := by
  intro body
  have h : anyReadsOutcome body = false := by decide
  have ho : (runSandboxed body {}).1 =
      .ok ⟨true, true, [⟨⟨["part"]⟩, "broken"⟩], [⟨.root, "rest"⟩]⟩ := rfl
  obtain ⟨-, -, hm, -⟩ := runPrinting_agrees "whole" body {} h
  rw [ho] at hm
  exact ⟨h, ho, hm.1.trans rfl⟩

end Testkit
