import Testkit.Proofs.Body.Induction
import Testkit.Proofs.Body.Series
import Testkit.Proofs.Body.Unwinding

/-! What is true of the state of a test at any time: its flags say what its entries say, and its
entries are of the test itself or of subtests. -/

namespace Testkit

structure Scope.Sound (path : Path) (s : Scope) : Prop where
  failed_of_failedHere : s.failedHere = true → s.failed = true
  failed_of_failures : s.failures ≠ [] → s.failed = true
  failures_below : ∀ e ∈ s.failures, path.components <+: e.path.components
  skips_below : ∀ e ∈ s.skips, path.components <+: e.path.components
  failedHere_of_failure : ∀ e ∈ s.failures, e.path = path → s.failedHere = true
  skipped_iff : s.skipped = true ↔ ∃ e ∈ s.skips, e.path = path

namespace Scope

theorem sound_fresh (path : Path) : Sound path {} := by
  constructor <;> simp

namespace Sound

variable {path : Path} {s : Scope}

theorem markFailed (h : s.Sound path) : s.markFailed.Sound path where
  failed_of_failedHere _ := rfl
  failed_of_failures _ := rfl
  failures_below := h.failures_below
  skips_below := h.skips_below
  failedHere_of_failure _ _ _ := rfl
  skipped_iff := h.skipped_iff

theorem recordFailure (h : s.Sound path) (message : String) :
    (s.recordFailure path message).Sound path where
  failed_of_failedHere _ := rfl
  failed_of_failures _ := rfl
  failures_below e he := by
    rcases List.mem_append.mp he with he | he
    · exact h.failures_below e he
    · obtain rfl := List.mem_singleton.mp he
      exact List.prefix_refl _
  skips_below := h.skips_below
  failedHere_of_failure _ _ _ := rfl
  skipped_iff := h.skipped_iff

theorem recordSkip (h : s.Sound path) (message : String) :
    (s.recordSkip path message).Sound path where
  failed_of_failedHere := h.failed_of_failedHere
  failed_of_failures := h.failed_of_failures
  failures_below := h.failures_below
  skips_below e he := by
    rcases List.mem_append.mp he with he | he
    · exact h.skips_below e he
    · obtain rfl := List.mem_singleton.mp he
      exact List.prefix_refl _
  failedHere_of_failure := h.failedHere_of_failure
  skipped_iff := ⟨fun _ => ⟨⟨path, message⟩, by simp [Scope.recordSkip], rfl⟩, fun _ => rfl⟩

theorem absorb (h : s.Sound path) {child : Scope} {name : String}
    (hc : child.Sound (path.child name)) : (s.absorb child).Sound path where
  failed_of_failedHere hf := by simp [Scope.absorb, h.failed_of_failedHere hf]
  failed_of_failures hne := by
    by_cases hs : s.failures = []
    · have hne' : child.failures ≠ [] := by simpa [Scope.absorb, hs] using hne
      simp [Scope.absorb, hc.failed_of_failures hne']
    · simp [Scope.absorb, h.failed_of_failures hs]
  failures_below e he := by
    rcases List.mem_append.mp he with he | he
    · exact h.failures_below e he
    · exact (List.prefix_append _ _).trans (hc.failures_below e he)
  skips_below e he := by
    rcases List.mem_append.mp he with he | he
    · exact h.skips_below e he
    · exact (List.prefix_append _ _).trans (hc.skips_below e he)
  failedHere_of_failure e he hp := by
    rcases List.mem_append.mp he with he | he
    · exact h.failedHere_of_failure e he hp
    · exact absurd hp (Path.ne_of_child_prefix (hc.failures_below e he))
  skipped_iff := by
    -- What the child skipped is below it and so never at the path of the parent itself.
    have hchild : ∀ e ∈ child.skips, e.path ≠ path :=
      fun e he => Path.ne_of_child_prefix (hc.skips_below e he)
    have hown : (∃ e ∈ (s.absorb child).skips, e.path = path) ↔ ∃ e ∈ s.skips, e.path = path := by
      constructor
      · rintro ⟨e, he, hp⟩
        rcases List.mem_append.mp he with he | he
        · exact ⟨e, he, hp⟩
        · exact absurd hp (hchild e he)
      · rintro ⟨e, he, hp⟩
        exact ⟨e, List.mem_append_left _ he, hp⟩
    rw [hown]
    exact h.skipped_iff

end Sound

end Scope

namespace Exec

def KeepsSound (a : Exec) : Prop :=
  ∀ env s, s.scope.Sound env.path → (a env s).2.scope.Sound env.path

namespace KeepsSound

theorem andThen {a b : Exec} (ha : KeepsSound a) (hb : KeepsSound b) : KeepsSound (a.andThen b) := by
  intro env s h
  have hs := ha env s h
  rw [andThen_eq]
  split
  · exact hb env _ hs
  · exact hs

theorem subtest {a : Exec} (ha : KeepsSound a) (name : String) :
    KeepsSound (Exec.subtest name a) := by
  intro env s h
  have hs := ha ⟨env.reporter, env.path.child name, s.scope :: env.enclosing⟩
    ⟨{}, env.reporter.tellStart (env.path.child name) s.world⟩ (Scope.sound_fresh _)
  rw [subtest_eq]
  dsimp only
  split
  · exact h.absorb hs
  · exact h

theorem sandboxed {a : Exec} {use : Ending → Scope → Exec}
    (hu : ∀ ending scope, KeepsSound (use ending scope)) : KeepsSound (a.sandboxed use) := by
  intro env s h
  rw [sandboxed_eq]
  dsimp only
  split
  · exact hu _ _ env _ h
  · exact h

theorem closed : Closed KeepsSound where
  done _ _ h := h
  observe _ _ _ h := h
  record message _ _ h := h.recordFailure message
  skip message _ _ h := h.recordSkip message
  failNow _ _ h := h.markFailed
  failed _ _ h := h
  panic _ _ _ h := h
  andThen ha hb := ha.andThen hb
  subtest name _ ha := ha.subtest name
  thread ha env s h := ha env s h
  catching _ ha env s h := ha env s h
  sandboxed _ hu := .sandboxed hu
  channel _ _ hf env _ h := hf _ env _ h

theorem outcome : KeepsSound Exec.outcome := fun _ _ h => h

theorem exec (a : Action) : KeepsSound a.exec := closed.exec a fun _ => outcome

theorem execAll (body : List Action) : KeepsSound (execAll body) :=
  closed.execAll body fun _ => outcome

theorem recordAll (messages : List String) : KeepsSound (Exec.recordAll messages) :=
  closed.recordAll messages

theorem times (body : List Action) (n : Nat) : KeepsSound (Exec.times n (Testkit.execAll body)) :=
  closed.times (execAll body) n

end KeepsSound

end Exec

namespace Control

/-- The live scopes with their paths, innermost first, at some time while a body runs inside of the
given ones. The failures that one action records come one after the other. -/
inductive Shows : List (Path × Scope) → Control → List (Path × Scope) → Prop
  | before (around : List (Path × Scope)) (c : Control) :
    Shows around c ((c.env.path, c.state.scope) :: around)
  | recording {around : List (Path × Scope)} {a : Action} {rest : List Action} {env : Env}
    {s : State} {w : World} {v : Verdict} (h : a.exec env s = Exec.follow v env ⟨s.scope, w⟩)
    (n : Nat) :
    Shows around ⟨a :: rest, env, s⟩
      ((env.path, (Exec.recordAll (v.failures.take n) env ⟨s.scope, w⟩).2.scope) :: around)
  | after (around : List (Path × Scope)) (a : Action) (rest : List Action) (env : Env)
    (s : State) :
    Shows around ⟨a :: rest, env, s⟩ ((env.path, (a.exec env s).2.scope) :: around)
  | next {around live : List (Path × Scope)} {a : Action} {rest : List Action} {env : Env}
    {s t : State} (ha : a.exec env s = (.completed, t)) (h : Shows around ⟨rest, env, t⟩ live) :
    Shows around ⟨a :: rest, env, s⟩ live
  | inside {around live : List (Path × Scope)} {f : Frame} {a : Action} {rest : List Action}
    {env : Env} {s : State} {c : Control} (ho : Opens f a env s c)
    (h : Shows (if f.hasScope then (env.path, s.scope) :: around else around) c live) :
    Shows around ⟨a :: rest, env, s⟩ live

theorem Opens.sound {f : Frame} {a : Action} {env : Env} {s : State} {c : Control}
    (ho : Opens f a env s c) (h : s.scope.Sound env.path) : c.state.scope.Sound c.env.path := by
  cases ho with
  | subtest | nest | expect | sandbox => exact Scope.sound_fresh _
  | nested | thread | catching => exact h
  | @repeated n i body env s t hi ht =>
    have hs := Exec.KeepsSound.times body i env s h
    rw [ht] at hs
    exact hs

theorem Shows.sound {around live : List (Path × Scope)} {c : Control} (h : Shows around c live)
    (hc : c.state.scope.Sound c.env.path) (haround : ∀ x ∈ around, x.2.Sound x.1) :
    ∀ x ∈ live, x.2.Sound x.1 := by
  induction h with
  | before around c => exact List.forall_mem_cons.mpr ⟨hc, haround⟩
  | recording h n =>
    exact List.forall_mem_cons.mpr ⟨Exec.KeepsSound.recordAll _ _ _ hc, haround⟩
  | after around a rest env s =>
    exact List.forall_mem_cons.mpr ⟨Exec.KeepsSound.exec a env s hc, haround⟩
  | @next around live a rest env s t ha h ih =>
    have hs := Exec.KeepsSound.exec a env s hc
    rw [ha] at hs
    exact ih hs haround
  | @inside around live f a rest env s c ho h ih =>
    refine ih (ho.sound hc) ?_
    split
    · exact List.forall_mem_cons.mpr ⟨hc, haround⟩
    · exact haround

end Control

theorem sound_afterSeries {s : State} (h : s.scope.Sound .root) (bodies : List SeriesBody) :
    (afterSeries bodies s).scope.Sound .root := by
  induction bodies generalizing s with
  | nil => exact h
  | cons b bodies ih =>
    have hs := Exec.KeepsSound.execAll b.actions (.top .sandboxed) s.cleared h
    rw [← b.run_scope] at hs
    exact ih hs

/-- At any time of a run in a sandbox, of a test that prints, or of a body for a sandboxed reporter that
has run others, the state of each live test is sound at its path: it is failed if it failed itself or
has a failure, all its entries are its own or of tests below it, it failed itself if it has a failure
of its own, and it is skipped exactly if it has a skip of its own. -/
theorem scopes_stay_sound {c : Control} {body : List Action} {earlier : List SeriesBody} {w : World}
    (hc : c = .sandboxed body w ∨ c = .printing body w ∨
      c = .isolated body (afterSeries earlier ⟨{}, w⟩).cleared)
    {live : List (Path × Scope)} (h : c.Shows [] live) {path : Path} {scope : Scope}
    (hl : (path, scope) ∈ live) : scope.Sound path := by
  have hstart : c.state.scope.Sound c.env.path := by
    rcases hc with rfl | rfl | rfl
    · exact Scope.sound_fresh _
    · exact Scope.sound_fresh _
    · exact sound_afterSeries (s := ⟨{}, w⟩) (Scope.sound_fresh _) earlier
  exact h.sound hstart (by simp) (path, scope) hl

/-- In a subtest that has just failed, after a subtest without a name that was skipped. -/
theorem scopes_stay_sound_nameless :
    let inner : Scope := ⟨true, true, false, [⟨⟨["b"]⟩, "c"⟩], []⟩
    let outer : Scope := ⟨false, false, false, [], [⟨⟨[""]⟩, "a"⟩]⟩
    (Control.printing [.subtest "" [.skip "a"], .subtest "b" [.fail "c", .failNow]] {}).Shows []
        [(⟨["b"]⟩, inner), (.root, outer)] ∧
      inner.Sound ⟨["b"]⟩ ∧ outer.Sound .root := by
  intro inner outer
  have h : (Control.printing [.subtest "" [.skip "a"], .subtest "b" [.fail "c", .failNow]] {}).Shows
      [] [(⟨["b"]⟩, inner), (.root, outer)] :=
    .next rfl (.inside (.subtest "b" _ _ _) (.after _ (.fail "c") _ _ _))
  have hc := @scopes_stay_sound _ _ [] _ (.inr (.inl rfl)) _ h
  exact ⟨h, hc (by simp), hc (by simp)⟩

end Testkit
