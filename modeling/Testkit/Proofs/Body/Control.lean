import Testkit.Proofs.Body.Constructs

/-! The places that control comes to while a body runs: each is inside some constructs, which an
ending of what they run passes or does not. -/

namespace Testkit

/-- A construct that runs a body, seen from inside the body. -/
inductive Frame where
  | block
  | subtest
  | thread
  | catching (rethrow : Bool)
  | sandbox
deriving DecidableEq, Repr

namespace Frame

/-- Whether the construct ends as its body does, if that does not complete. -/
def passes (ending : Ending) : Frame → Bool
  | .block => true
  | .thread => false
  | .catching rethrow => rethrow
  | .subtest | .sandbox => !ending.returns

/-- Whether the body has a scope of its own. -/
def hasScope : Frame → Bool
  | .subtest | .sandbox => true
  | _ => false

theorem passes_of_hasScope (f : Frame) (ending : Ending) (h : f.hasScope = true) :
    f.passes ending = !ending.returns := by
  cases f <;> first | rfl | simp [hasScope] at h

/-- What is observed when the body is over. -/
def sees (ending : Ending) : Frame → List Observation
  | .thread => [.thread ending]
  | .catching _ => [.caught ending]
  | _ => []

end Frame

/-- A place that control can come to: what is still to be done there, and where. -/
structure Control where
  body : List Action
  env : Env
  state : State

namespace Control

def run (c : Control) : Ending × State := execAll c.body c.env c.state

def ofSubtest (name : String) (body : List Action) (env : Env) (s : State) : Control :=
  ⟨body, ⟨env.reporter, env.path.child name, s.scope :: env.enclosing⟩,
    ⟨{}, env.reporter.tellStart (env.path.child name) s.world⟩⟩

def ofSandbox (body : List Action) (env : Env) (s : State) : Control :=
  ⟨body, ⟨.sandboxed, .root, s.scope :: env.enclosing⟩, ⟨{}, s.world⟩⟩

/-- The construct at the first place comes to run its body from the second place on. -/
inductive Opens : Frame → Action → Env → State → Control → Prop
  | subtest (name : String) (body : List Action) (env : Env) (s : State) :
    Opens .subtest (.subtest name body) env s (ofSubtest name body env s)
  | nest (name : String) (names : List String) (body : List Action) (env : Env) (s : State) :
    Opens .subtest (.nest (name :: names) body) env s (ofSubtest name [.nest names body] env s)
  | nested (body : List Action) (env : Env) (s : State) :
    Opens .block (.nest [] body) env s ⟨body, env, s⟩
  | repeated {n i : Nat} {body : List Action} {env : Env} {s t : State} (hi : i < n)
    (ht : Exec.times i (execAll body) env s = (.completed, t)) :
    Opens .block (.repeated n body) env s ⟨body, env, t⟩
  | thread (body : List Action) (env : Env) (s : State) :
    Opens .thread (.thread body) env s ⟨body, env, s⟩
  | catching (body : List Action) (rethrow : Bool) (env : Env) (s : State) :
    Opens (.catching rethrow) (.catching body rethrow) env s ⟨body, env, s⟩
  | expect (e : Expectation) (body : List Action) (env : Env) (s : State) :
    Opens .sandbox (.expect e body) env s (ofSandbox body env s)
  | sandbox (body : List Action) (env : Env) (s : State) :
    Opens .sandbox (.sandbox body) env s (ofSandbox body env s)

/-- Control comes from one place to another, inside of frames that are given outermost first. -/
inductive Reaches : List Frame → Control → Control → Prop
  | here (c : Control) : Reaches [] c c
  | next {frames : List Frame} {a : Action} {rest : List Action} {env : Env} {s t : State}
    {c : Control} (ha : a.exec env s = (.completed, t)) (h : Reaches frames ⟨rest, env, t⟩ c) :
    Reaches frames ⟨a :: rest, env, s⟩ c
  | inside {frame : Frame} {frames : List Frame} {a : Action} {rest : List Action} {env : Env}
    {s : State} {c d : Control} (ho : Opens frame a env s c) (h : Reaches frames c d) :
    Reaches (frame :: frames) ⟨a :: rest, env, s⟩ d

end Control

def World.observeAll (w : World) (os : List Observation) : World := { w with trace := w.trace ++ os }

theorem Reporter.tellExit_panicked (r : Reporter) (path : Path) (p : Payload) (w : World) :
    r.tellExit path (.panicked p) w = w := by
  cases r <;> rfl

namespace Exec

theorem andThen_done (a : Exec) : a.andThen done = a := by
  funext env s
  rw [andThen_eq]
  split
  · rename_i h
    exact Prod.ext h.symm rfl
  · rfl

theorem andThen_assoc (a b c : Exec) : (a.andThen b).andThen c = a.andThen (b.andThen c) := by
  funext env s
  simp only [andThen_eq]
  by_cases h : (a env s).1 = .completed
  · simp only [h, if_true]
  · simp only [h, if_false]

theorem times_add (a : Exec) (n m : Nat) : times (n + m) a = (times n a).andThen (times m a) := by
  induction n with
  | zero =>
    rw [Nat.zero_add]
    rfl
  | succ n ih => rw [Nat.add_right_comm, times, ih, times, andThen_assoc]

theorem times_of_round {a : Exec} {n i : Nat} {env : Env} {s t : State} {r : Ending × State}
    (hi : i < n) (ht : times i a env s = (.completed, t)) (hr : a env t = r)
    (he : r.1 ≠ .completed) : times n a env s = r := by
  obtain ⟨m, rfl⟩ := Nat.exists_eq_add_of_lt hi
  rw [Nat.add_assoc, times_add, andThen_eq, ht, if_pos rfl, times, andThen_eq, hr, if_neg he]

theorem round_of_times {a : Exec} {n : Nat} {env : Env} {s : State}
    (h : (times n a env s).1 ≠ .completed) :
    ∃ i t, i < n ∧ times i a env s = (.completed, t) ∧ a env t = times n a env s := by
  induction n generalizing s with
  | zero => exact absurd rfl h
  | succ n ih =>
    by_cases ha : (a env s).1 = .completed
    · have hn : times (n + 1) a env s = times n a env (a env s).2 := by
        rw [times, andThen_eq, if_pos ha]
      obtain ⟨i, t, hi, ht, hr⟩ := ih (hn ▸ h)
      refine ⟨i + 1, t, Nat.succ_lt_succ hi, ?_, hr.trans hn.symm⟩
      rw [times, andThen_eq, if_pos ha, ht]
    · refine ⟨0, s, Nat.succ_pos n, rfl, ?_⟩
      rw [times, andThen_eq, if_neg ha]

theorem recordAll_completes (messages : List String) (env : Env) (s : State) :
    (recordAll messages env s).1 = .completed := by
  induction messages generalizing s with
  | nil => rfl
  | cons m ms ih => exact ih _

theorem follow_expectation_completes (e : Expectation) (failed completed : Bool) (env : Env)
    (s : State) : (follow (e.verdict failed completed) env s).1 = .completed := by
  rw [follow, andThen_eq, if_pos (recordAll_completes _ env s)]
  rfl

end Exec

namespace Control

theorem run_cons (a : Action) (rest : List Action) (env : Env) (s : State) :
    run ⟨a :: rest, env, s⟩ =
      if (a.exec env s).1 = .completed then run ⟨rest, env, (a.exec env s).2⟩ else a.exec env s :=
  Exec.andThen_eq a.exec (execAll rest) env s

theorem run_singleton (a : Action) (env : Env) (s : State) :
    run ⟨[a], env, s⟩ = a.exec env s := by
  simp only [run, execAll, Exec.andThen_done]

theorem exec_nest (name : String) (names : List String) (body : List Action) :
    (Action.nest (name :: names) body).exec = (Action.subtest name [.nest names body]).exec := by
  simp only [Action.exec, execAll, Exec.andThen_done, List.foldr_cons]

theorem exec_subtest (name : String) (body : List Action) (env : Env) (s : State) :
    (Action.subtest name body).exec env s =
      let r := (ofSubtest name body env s).run
      let path := env.path.child name
      let w := env.reporter.tellExit path r.1 r.2.world
      if r.1.returns then
        (.completed, ⟨s.scope.absorb r.2.scope, env.reporter.tellSkipped path r.2.scope.skipped w⟩)
      else (r.1, ⟨s.scope, w⟩) :=
  Exec.subtest_eq name (execAll body) env s

theorem exec_sandboxed (body : List Action) (use : Ending → Scope → Exec) (env : Env) (s : State) :
    Exec.sandboxed (execAll body) use env s =
      let r := (ofSandbox body env s).run
      let w := Reporter.sandboxed.tellExit .root r.1 r.2.world
      if r.1.returns then use r.1 r.2.scope env ⟨s.scope, w⟩ else (r.1, ⟨s.scope, w⟩) :=
  Exec.sandboxed_eq (execAll body) use env s

theorem exec_subtest_of_panic {name : String} {body : List Action} {env : Env} {s t : State}
    {p : Payload} (hr : (ofSubtest name body env s).run = (.panicked p, t)) :
    (Action.subtest name body).exec env s = (.panicked p, ⟨s.scope, t.world⟩) := by
  simp [exec_subtest, hr, Ending.returns, Reporter.tellExit_panicked]

theorem exec_sandboxed_of_panic {body : List Action} {use : Ending → Scope → Exec} {env : Env}
    {s t : State} {p : Payload} (hr : (ofSandbox body env s).run = (.panicked p, t)) :
    Exec.sandboxed (execAll body) use env s = (.panicked p, ⟨s.scope, t.world⟩) := by
  simp [exec_sandboxed, hr, Ending.returns, Reporter.tellExit_panicked]

theorem Opens.exec_of_passes {f : Frame} {a : Action} {env : Env} {s t : State} {c : Control}
    {e : Ending} (h : Opens f a env s c) (hr : c.run = (e, t)) (he : e ≠ .completed)
    (hp : f.passes e = true) :
    a.exec env s = (e, ⟨if f.hasScope then s.scope else t.scope, t.world.observeAll (f.sees e)⟩) := by
  have hpanic : e.returns = false → ∃ p, e = .panicked p := by
    cases e <;> simp [Ending.returns]
  have hsame : t.world.observeAll [] = t.world := by simp [World.observeAll]
  cases h with
  | subtest name body =>
    obtain ⟨p, rfl⟩ := hpanic (by simpa [Frame.passes] using hp)
    simp [exec_subtest_of_panic hr, Frame.hasScope, Frame.sees, hsame]
  | nest name names body =>
    obtain ⟨p, rfl⟩ := hpanic (by simpa [Frame.passes] using hp)
    simp [exec_nest, exec_subtest_of_panic hr, Frame.hasScope, Frame.sees, hsame]
  | nested body =>
    have hr' : (Action.nest [] body).exec env s = (e, t) := hr
    simp [hr', Frame.hasScope, Frame.sees, hsame]
  | repeated hi ht =>
    rename_i n i body u
    have hr' : (Action.repeated n body).exec env s = (e, t) := Exec.times_of_round hi ht hr he
    simp [hr', Frame.hasScope, Frame.sees, hsame]
  | thread body => simp [Frame.passes] at hp
  | catching body rethrow =>
    have hr' : execAll body env s = (e, t) := hr
    obtain rfl : rethrow = true := hp
    simp [Action.exec, Exec.catching, hr', Frame.hasScope, Frame.sees, World.observe,
      World.observeAll]
  | expect x body =>
    obtain ⟨p, rfl⟩ := hpanic (by simpa [Frame.passes] using hp)
    simp [Action.exec, Exec.expect, exec_sandboxed_of_panic hr, Frame.hasScope, Frame.sees, hsame]
  | sandbox body =>
    obtain ⟨p, rfl⟩ := hpanic (by simpa [Frame.passes] using hp)
    simp [Action.exec, Exec.sandbox, exec_sandboxed_of_panic hr, Frame.hasScope, Frame.sees, hsame]

theorem Opens.exec_of_stops {f : Frame} {a : Action} {env : Env} {s t : State} {c : Control}
    {p : Payload} (h : Opens f a env s c) (hr : c.run = (.panicked p, t))
    (hs : f.passes (.panicked p) = false) :
    a.exec env s = (.completed, ⟨t.scope, t.world.observeAll (f.sees (.panicked p))⟩) := by
  cases h with
  | thread body =>
    have hr' : execAll body env s = (.panicked p, t) := hr
    simp [Action.exec, Exec.thread, hr', Frame.sees, World.observe, World.observeAll]
  | catching body rethrow =>
    have hr' : execAll body env s = (.panicked p, t) := hr
    obtain rfl : rethrow = false := hs
    simp [Action.exec, Exec.catching, hr', Frame.sees, World.observe, World.observeAll]
  | _ => simp [Frame.passes, Ending.returns] at hs

theorem Opens.ending_of_scope {f : Frame} {a : Action} {env : Env} {s : State} {c : Control}
    (h : Opens f a env s c) (hf : f.hasScope = true) :
    (a.exec env s).1 = if c.run.1.returns then .completed else c.run.1 := by
  cases h with
  | subtest name body =>
    rw [exec_subtest]
    by_cases hr : (ofSubtest name body env s).run.1.returns = true <;> simp [hr]
  | nest name names body =>
    rw [exec_nest, exec_subtest]
    by_cases hr : (ofSubtest name [.nest names body] env s).run.1.returns = true <;> simp [hr]
  | expect e body =>
    rw [Action.exec, Exec.expect, exec_sandboxed]
    by_cases hr : (ofSandbox body env s).run.1.returns = true
    · simp [hr, Exec.follow_expectation_completes]
    · simp [hr]
  | sandbox body =>
    rw [Action.exec, Exec.sandbox, exec_sandboxed]
    by_cases hr : (ofSandbox body env s).run.1.returns = true <;> simp [hr, Exec.observe]
  | _ => simp [Frame.hasScope] at hf

theorem Opens.enclosing {f : Frame} {a : Action} {env : Env} {s : State} {c : Control}
    (h : Opens f a env s c) :
    c.env.enclosing = if f.hasScope then s.scope :: env.enclosing else env.enclosing := by
  cases h <;> rfl

theorem Reaches.enclosing {frames : List Frame} {c d : Control} (h : Reaches frames c d) :
    d.env.enclosing.drop (frames.countP Frame.hasScope) = c.env.enclosing := by
  induction h with
  | here c => rfl
  | next ha h ih => exact ih
  | @inside f frames a rest env s c d ho h ih =>
    rw [ho.enclosing] at ih
    by_cases hf : f.hasScope = true
    · rw [if_pos hf] at ih
      rw [List.countP_cons_of_pos hf, ← List.drop_drop, ih]
      rfl
    · rw [if_neg hf] at ih
      rw [List.countP_cons_of_neg hf, ih]

theorem Reaches.step {frames : List Frame} {c : Control} {a : Action} {rest : List Action}
    {env : Env} {s t : State} (h : Reaches frames c ⟨a :: rest, env, s⟩)
    (ha : a.exec env s = (.completed, t)) : Reaches frames c ⟨rest, env, t⟩ := by
  generalize hd : (⟨a :: rest, env, s⟩ : Control) = d at h
  induction h with
  | here c =>
    subst hd
    exact .next ha (.here _)
  | next hb h ih => exact .next hb (ih hd)
  | inside ho h ih => exact .inside ho (ih hd)

end Control

end Testkit
