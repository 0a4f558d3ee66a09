import Testkit.Proofs.Body.Constructs
import Testkit.Proofs.Body.Induction

/-! Two runs side by side. What is true of the places and states of both at once stays so if each
construct keeps it, and then both end alike. -/

namespace Testkit

def Env.inSubtest (env : Env) (name : String) (scope : Scope) : Env :=
  ⟨env.reporter, env.path.child name, scope :: env.enclosing⟩

def Env.inSandbox (env : Env) (scope : Scope) : Env := ⟨.sandboxed, .root, scope :: env.enclosing⟩

/-- What may be true of two runs. It need not be the same in tests inside of tests, so that it has an
index. -/
abbrev Pairing (ι : Type) := ι → Env → Env → State → State → Prop

namespace Exec

def Paired {ι : Type} (R : Pairing ι) (i : ι) (a b : Exec) : Prop :=
  ∀ ⦃env env' s t⦄, R i env env' s t →
    (a env s).1 = (b env' t).1 ∧ R i env env' (a env s).2 (b env' t).2

end Exec

namespace Pairing

variable {ι : Type} {R : Pairing ι} {i : ι}

structure Kept (R : Pairing ι) : Prop where
  observe : ∀ {i env env' s t} o, R i env env' s t →
    R i env env' ⟨s.scope, s.world.observe o⟩ ⟨t.scope, t.world.observe o⟩
  record : ∀ i message, Exec.Paired R i (.record message) (.record message)
  skip : ∀ i message, Exec.Paired R i (.skip message) (.skip message)
  failNow : ∀ i, Exec.Paired R i .failNow .failNow
  failed : ∀ i, Exec.Paired R i .failed .failed
  subtest : ∀ {i env env' s t} name, R i env env' s t → ∃ j,
    R j (env.inSubtest name s.scope) (env'.inSubtest name t.scope)
      ⟨{}, env.reporter.tellStart (env.path.child name) s.world⟩
      ⟨{}, env'.reporter.tellStart (env'.path.child name) t.world⟩ ∧
    ∀ ending {u v}, R j (env.inSubtest name s.scope) (env'.inSubtest name t.scope) u v →
      let w := env.reporter.tellExit (env.path.child name) ending u.world
      let x := env'.reporter.tellExit (env'.path.child name) ending v.world
      R i env env' ⟨s.scope, w⟩ ⟨t.scope, x⟩ ∧
        R i env env'
          ⟨s.scope.absorb u.scope,
            env.reporter.tellSkipped (env.path.child name) u.scope.skipped w⟩
          ⟨t.scope.absorb v.scope,
            env'.reporter.tellSkipped (env'.path.child name) v.scope.skipped x⟩
  sandbox : ∀ {i env env' s t}, R i env env' s t → ∃ j,
    R j (env.inSandbox s.scope) (env'.inSandbox t.scope) ⟨{}, s.world⟩ ⟨{}, t.world⟩ ∧
    ∀ ending {u v}, R j (env.inSandbox s.scope) (env'.inSandbox t.scope) u v →
      u.scope = v.scope ∧
        R i env env' ⟨s.scope, Reporter.sandboxed.tellExit .root ending u.world⟩
          ⟨t.scope, Reporter.sandboxed.tellExit .root ending v.world⟩

structure KeptByChannels (R : Pairing ι) : Prop where
  act : ∀ {i env env' s t} name op, R i env env' s t →
    (s.world.act name op).2 = (t.world.act name op).2 ∧
      R i env env' ⟨s.scope, (s.world.act name op).1⟩ ⟨t.scope, (t.world.act name op).1⟩

end Pairing

namespace Exec.Paired

open Pairing

variable {ι : Type} {R : Pairing ι} {i : ι} {a b a' b' : Exec}

theorem leave (ending : Ending) : Paired R i (.leave ending) (.leave ending) :=
  fun _ _ _ _ h => ⟨rfl, h⟩

theorem observe (hR : Kept R) (o : Observation) : Paired R i (.observe o) (.observe o) :=
  fun _ _ _ _ h => ⟨rfl, hR.observe o h⟩

theorem andThen (ha : Paired R i a b) (ha' : Paired R i a' b') :
    Paired R i (a.andThen a') (b.andThen b') := by
  intro env env' s t h
  obtain ⟨he, hr⟩ := ha h
  simp only [andThen_eq, he]
  split
  · exact ha' hr
  · exact ⟨he, hr⟩

theorem times (ha : Paired R i a b) (n : Nat) : Paired R i (.times n a) (.times n b) := by
  induction n with
  | zero => exact leave .completed
  | succ n ih => exact ha.andThen ih

theorem thread (hR : Kept R) (ha : Paired R i a b) : Paired R i a.thread b.thread := by
  intro env env' s t h
  obtain ⟨he, hr⟩ := ha h
  refine ⟨rfl, ?_⟩
  simp only [Exec.thread, he]
  exact hR.observe _ hr

theorem catching (hR : Kept R) (ha : Paired R i a b) (rethrow : Bool) :
    Paired R i (a.catching rethrow) (b.catching rethrow) := by
  intro env env' s t h
  obtain ⟨he, hr⟩ := ha h
  refine ⟨by simp only [Exec.catching, he], ?_⟩
  simp only [Exec.catching, he]
  exact hR.observe _ hr

theorem subtest (hR : Kept R) (ha : ∀ j, Paired R j a b) (name : String) :
    Paired R i (.subtest name a) (.subtest name b) := by
  intro env env' s t h
  obtain ⟨j, hin, hout⟩ := hR.subtest name h
  have hh := ha j hin
  simp only [subtest_eq]
  revert hh
  simp only [Env.inSubtest]
  generalize a _ _ = r
  generalize b _ _ = q
  rintro ⟨he, hr⟩
  obtain ⟨hleft, htaken⟩ := hout r.1 hr
  rw [← he]
  cases r.1.returns with
  | true => exact ⟨rfl, htaken⟩
  | false => exact ⟨rfl, hleft⟩

theorem nest (hR : Kept R) (ha : ∀ j, Paired R j a b) (names : List String) (i : ι) :
    Paired R i (names.foldr .subtest a) (names.foldr .subtest b) := by
  induction names generalizing i with
  | nil => exact ha i
  | cons name names ih => exact subtest hR ih name

theorem sandboxed (hR : Kept R) (ha : ∀ j, Paired R j a b) {use : Ending → Scope → Exec}
    (hu : ∀ ending scope, Paired R i (use ending scope) (use ending scope)) :
    Paired R i (a.sandboxed use) (b.sandboxed use) := by
  intro env env' s t h
  obtain ⟨j, hin, hout⟩ := hR.sandbox h
  have hh := ha j hin
  simp only [sandboxed_eq]
  revert hh
  simp only [Env.inSandbox]
  generalize a _ _ = r
  generalize b _ _ = q
  rintro ⟨he, hr⟩
  obtain ⟨hscope, hover⟩ := hout r.1 hr
  rw [← he, ← hscope]
  cases r.1.returns with
  | true => exact hu r.1 r.2.scope hover
  | false => exact ⟨rfl, hover⟩

theorem closedButChannels (hR : Kept R) : ClosedButChannels fun a => ∀ i, Paired R i a a where
  done _ := leave .completed
  andThen ha hb i := (ha i).andThen (hb i)
  observe o _ := observe hR o
  record message i := hR.record i message
  skip message i := hR.skip i message
  failNow := hR.failNow
  failed := hR.failed
  panic payload _ := leave (.panicked payload)
  subtest name _ ha _ := subtest hR ha name
  thread ha i := (ha i).thread hR
  catching rethrow ha i := (ha i).catching hR rethrow
  sandboxed ha hu i := sandboxed hR ha fun ending scope => hu ending scope i

theorem follow (hR : Kept R) (v : Verdict) : Paired R i (.follow v) (.follow v) :=
  (closedButChannels hR).follow v i

theorem expect (hR : Kept R) (ha : ∀ j, Paired R j a b) (e : Expectation) :
    Paired R i (a.expect e) (b.expect e) :=
  sandboxed hR ha fun _ _ => follow hR _

theorem sandbox (hR : Kept R) (ha : ∀ j, Paired R j a b) : Paired R i a.sandbox b.sandbox :=
  sandboxed hR ha fun _ scope => observe hR (.outcome scope.outcome)

theorem channel (hR : Kept R) (hc : KeptByChannels R) (name : String) (op : ChannelOp) :
    Paired R i (.channel name op) (.channel name op) := by
  intro env env' s t h
  obtain ⟨hv, hw⟩ := hc.act name op h
  simp only [Exec.channel, hv]
  exact follow hR _ hw

theorem closed (hR : Kept R) (hc : KeptByChannels R) :
    Closed fun a => ∀ i, Paired R i a a where
  toClosedButChannels := closedButChannels hR
  channel name op _ _ := channel hR hc name op

end Exec.Paired

end Testkit
