import Testkit.Proofs.Body.Constructs
import Testkit.Proofs.Body.FlatLog
import Testkit.Proofs.Body.Silence

/-! A body that runs in nested scopes reports what it reports in one flat log. At any time the scope
of a test is the part of the log that was written since the test began. -/

namespace Testkit

def scopeOf (path : Path) (log : List Mark) : Scope :=
  ⟨log.any (Mark.failsAt path), log.any Mark.fails, log.any (Mark.skipsAt path),
    log.filterMap Mark.failure?, log.filterMap Mark.skip?⟩

theorem scopeOf_nil (path : Path) : scopeOf path [] = {} := rfl

theorem scopeOf_outcome (path : Path) (log : List Mark) :
    (scopeOf path log).outcome = outcomeOf path log := rfl

theorem scopeOf_failure (path : Path) (log : List Mark) (message : String) :
    scopeOf path (log ++ [.failure ⟨path, message⟩]) = (scopeOf path log).recordFailure path message := by
  simp [scopeOf, Scope.recordFailure, Scope.markFailed, Mark.failsAt, Mark.skipsAt, Mark.fails,
    Mark.failure?, Mark.skip?, Mark.path]

theorem scopeOf_skip (path : Path) (log : List Mark) (message : String) :
    scopeOf path (log ++ [.skip ⟨path, message⟩]) = (scopeOf path log).recordSkip path message := by
  simp [scopeOf, Scope.recordSkip, Mark.failsAt, Mark.skipsAt, Mark.fails, Mark.failure?,
    Mark.skip?, Mark.path]

theorem scopeOf_failed (path : Path) (log : List Mark) :
    scopeOf path (log ++ [.failed path]) = (scopeOf path log).markFailed := by
  simp [scopeOf, Scope.markFailed, Mark.failsAt, Mark.skipsAt, Mark.fails, Mark.failure?,
    Mark.skip?, Mark.path]

def Below (path : Path) (log : List Mark) : Prop := ∀ m ∈ log, path.components <+: m.path.components

theorem Below.nil (path : Path) : Below path [] := by simp [Below]

theorem Below.append {path : Path} {log more : List Mark} (h : Below path log)
    (h' : Below path more) : Below path (log ++ more) := by
  intro m hm
  rcases List.mem_append.mp hm with hm | hm
  · exact h m hm
  · exact h' m hm

theorem Below.parent {path : Path} {name : String} {log : List Mark}
    (h : Below (path.child name) log) : Below path log :=
  fun m hm => (List.prefix_append _ _).trans (h m hm)

theorem Below.path_ne {path : Path} {name : String} {log : List Mark}
    (h : Below (path.child name) log) {m : Mark} (hm : m ∈ log) : m.path ≠ path :=
  Path.ne_of_child_prefix (h m hm)

theorem scopeOf_absorb {path : Path} {name : String} {log more : List Mark}
    (h : Below (path.child name) more) :
    scopeOf path (log ++ more) =
      (scopeOf path log).absorb (scopeOf (path.child name) more) := by
  have hf : more.any (Mark.failsAt path) = false := by
    refine List.any_eq_false.mpr fun m hm => ?_
    simp [Mark.failsAt, h.path_ne hm]
  have hs : more.any (Mark.skipsAt path) = false := by
    refine List.any_eq_false.mpr fun m hm => ?_
    simp [Mark.skipsAt, h.path_ne hm]
  simp [scopeOf, Scope.absorb, hf, hs]

namespace Flat

theorem andThen_eq (a b : Flat) (env : FlatEnv) (s : FlatState) :
    a.andThen b env s = if (a env s).1 = .completed then b env (a env s).2 else a env s := by
  simp only [andThen]
  rcases a env s with ⟨ending, t⟩
  cases ending <;> simp

theorem subtest_eq (name : String) (a : Flat) (env : FlatEnv) (s : FlatState) :
    subtest name a env s =
      let r := a ⟨env.path.child name, s.log.length, some (env.outermost.getD s.log)⟩ s
      if r.1.returns then (.completed, r.2)
      else (r.1, ⟨r.2.log.take s.log.length, r.2.world⟩) := by
  simp only [subtest]
  generalize a _ _ = r
  rcases r with ⟨ending, t⟩
  cases ending <;> rfl

theorem sandboxed_eq (a : Flat) (use : Ending → Outcome → Flat) (env : FlatEnv) (s : FlatState) :
    a.sandboxed use env s =
      let r := a ⟨.root, 0, some (env.outermost.getD s.log)⟩ ⟨[], s.world⟩
      if r.1.returns then use r.1 (outcomeOf .root r.2.log) env ⟨s.log, r.2.world⟩
      else (r.1, ⟨s.log, r.2.world⟩) := by
  simp only [sandboxed]
  generalize a _ _ = r
  rcases r with ⟨ending, t⟩
  cases ending <;> rfl

end Flat

/-- Whether both runs are in the same test, and see the same of the outermost one. -/
structure Fits (env : Env) (fenv : FlatEnv) : Prop where
  path : fenv.path = env.path
  outermost :
    (env.enclosing = [] ∧ fenv.outermost = none ∧ fenv.start = 0 ∧ env.path = .root) ∨
      ∃ scope log, env.enclosing.getLast? = some scope ∧ fenv.outermost = some log ∧
        scope.outcome = outcomeOf .root log

structure Mirrors (env : Env) (fenv : FlatEnv) (s : State) (f : FlatState) : Prop where
  start_le : fenv.start ≤ f.log.length
  scope : s.scope = scopeOf env.path (f.log.drop fenv.start)
  world : s.world.silent = f.world.silent

/-- Whether both runs end alike, where the flat one has added to the log that there was. -/
structure Agrees (env : Env) (fenv : FlatEnv) (log : List Mark) (r : Ending × State)
    (q : Ending × FlatState) : Prop where
  ending : r.1 = q.1
  mirrors : Mirrors env fenv r.2 q.2
  grown : ∃ more, q.2.log = log ++ more ∧ Below env.path more

def Simulates (a : Flat) (b : Exec) : Prop :=
  ∀ ⦃env fenv s f⦄, Fits env fenv → Mirrors env fenv s f →
    Agrees env fenv f.log (b env s) (a fenv f)

theorem Fits.top {env : Env} {fenv : FlatEnv} {s : State} {f : FlatState} (h : Fits env fenv)
    (hm : Mirrors env fenv s f) :
    (env.enclosing.getLast?.getD s.scope).outcome =
      outcomeOf .root (fenv.outermost.getD f.log) := by
  rcases h.outermost with ⟨he, ho, hs, hp⟩ | ⟨scope, log, he, ho, hl⟩
  · rw [he, ho, List.getLast?_nil, Option.getD_none, Option.getD_none, hm.scope, hs, hp]
    exact scopeOf_outcome _ _
  · rw [he, ho, Option.getD_some, Option.getD_some, hl]

theorem Fits.inner {env : Env} {fenv : FlatEnv} {s : State} {f : FlatState} (h : Fits env fenv)
    (hm : Mirrors env fenv s f) (reporter : Reporter) (path : Path) (start : Nat) :
    Fits ⟨reporter, path, s.scope :: env.enclosing⟩
      ⟨path, start, some (fenv.outermost.getD f.log)⟩ := by
  refine ⟨rfl, .inr ⟨env.enclosing.getLast?.getD s.scope, _, ?_, rfl, h.top hm⟩⟩
  exact List.getLast?_cons

theorem Mirrors.unchanged {env : Env} {fenv : FlatEnv} {s : State} {f : FlatState} {w v : World}
    (h : Mirrors env fenv s f) (hw : w.silent = v.silent) (ending : Ending) :
    Agrees env fenv f.log (ending, ⟨s.scope, w⟩) (ending, ⟨f.log, v⟩) :=
  ⟨rfl, ⟨h.start_le, h.scope, hw⟩, [], (List.append_nil _).symm, .nil _⟩

theorem Mirrors.written {env : Env} {fenv : FlatEnv} {s : State} {f : FlatState} {w v : World}
    {scope : Scope} {m : Mark} (h : Mirrors env fenv s f) (hm : m.path = env.path)
    (hs : scopeOf env.path (f.log.drop fenv.start ++ [m]) = scope) (hw : w.silent = v.silent)
    (ending : Ending) :
    Agrees env fenv f.log (ending, ⟨scope, w⟩) (ending, ⟨f.log ++ [m], v⟩) where
  ending := rfl
  mirrors := by
    refine ⟨?_, ?_, hw⟩
    · exact Nat.le_trans h.start_le (by simp)
    · rw [List.drop_append_of_le_length h.start_le, hs]
  grown := by
    refine ⟨[m], rfl, fun n hn => ?_⟩
    obtain rfl := List.mem_singleton.mp hn
    exact hm ▸ List.prefix_refl _

theorem Agrees.trans {env : Env} {fenv : FlatEnv} {log log' : List Mark} {r : Ending × State}
    {q : Ending × FlatState} (h : Agrees env fenv log' r q)
    (hg : ∃ more, log' = log ++ more ∧ Below env.path more) : Agrees env fenv log r q := by
  obtain ⟨more, he, hb⟩ := hg
  obtain ⟨more', he', hb'⟩ := h.grown
  exact ⟨h.ending, h.mirrors, more ++ more', by rw [he', he, List.append_assoc], hb.append hb'⟩

namespace Simulates

theorem done : Simulates Flat.done Exec.done :=
  fun _ _ _ _ _ hm => hm.unchanged hm.world .completed

theorem leave (ending : Ending) : Simulates (Flat.leave ending) (Exec.leave ending) :=
  fun _ _ _ _ _ hm => hm.unchanged hm.world ending

theorem observe (o : Observation) : Simulates (Flat.observe o) (Exec.observe o) :=
  fun _ _ _ _ _ hm => hm.unchanged (by simp [hm.world]) .completed

theorem record (message : String) : Simulates (Flat.record message) (Exec.record message) := by
  intro env fenv s f hf hm
  simp only [Flat.record, Exec.record, hf.path]
  exact hm.written rfl (by rw [scopeOf_failure, hm.scope]) (by simp [hm.world]) .completed

theorem skip (message : String) : Simulates (Flat.skip message) (Exec.skip message) := by
  intro env fenv s f hf hm
  simp only [Flat.skip, Exec.skip, hf.path]
  exact hm.written rfl (by rw [scopeOf_skip, hm.scope]) (by simp [hm.world]) .exited

theorem failNow : Simulates Flat.failNow Exec.failNow := by
  intro env fenv s f hf hm
  simp only [Flat.failNow, Exec.failNow, hf.path]
  exact hm.written rfl (by rw [scopeOf_failed, hm.scope]) hm.world .exited

theorem failed : Simulates Flat.failed Exec.failed := by
  intro env fenv s f hf hm
  have hs : s.scope.failedHere = (f.log.drop fenv.start).any (Mark.failsAt env.path) := by
    rw [hm.scope]
    rfl
  simp only [Flat.failed, Exec.failed, hf.path, hs]
  exact hm.unchanged (by simp [hm.world]) .completed

theorem outcome : Simulates Flat.outcome Exec.outcome := by
  intro env fenv s f hf hm
  simp only [Flat.outcome, Exec.outcome, hf.top hm]
  exact hm.unchanged (by simp [hm.world]) .completed

theorem andThen {a b : Flat} {x y : Exec} (ha : Simulates a x) (hb : Simulates b y) :
    Simulates (a.andThen b) (x.andThen y) := by
  intro env fenv s f hf hm
  have hh := ha hf hm
  simp only [Flat.andThen_eq, Exec.andThen_eq, hh.ending]
  split
  · exact (hb hf hh.mirrors).trans hh.grown
  · exact hh

theorem recordAll (messages : List String) :
    Simulates (Flat.recordAll messages) (Exec.recordAll messages) := by
  induction messages with
  | nil => exact done
  | cons m ms ih => exact (record m).andThen ih

theorem react (r : Reaction) : Simulates (Flat.react r) (Exec.react r) := by
  cases r with
  | goOn => exact done
  | observe o => exact observe o
  | failNow => exact failNow
  | panic payload => exact leave (.panicked payload)

theorem follow (v : Verdict) : Simulates (Flat.follow v) (Exec.follow v) :=
  (recordAll v.failures).andThen (react v.reaction)

theorem times {a : Flat} {x : Exec} (h : Simulates a x) (n : Nat) :
    Simulates (Flat.times n a) (Exec.times n x) := by
  induction n with
  | zero => exact done
  | succ n ih => exact h.andThen ih

theorem thread {a : Flat} {x : Exec} (h : Simulates a x) : Simulates a.thread x.thread := by
  intro env fenv s f hf hm
  have hh := h hf hm
  simp only [Flat.thread, Exec.thread]
  exact ⟨rfl, ⟨hh.mirrors.start_le, hh.mirrors.scope, by simp [hh.mirrors.world, hh.ending]⟩,
    hh.grown⟩

theorem catching {a : Flat} {x : Exec} (h : Simulates a x) (rethrow : Bool) :
    Simulates (a.catching rethrow) (x.catching rethrow) := by
  intro env fenv s f hf hm
  have hh := h hf hm
  simp only [Flat.catching, Exec.catching]
  exact ⟨by simp only [hh.ending],
    ⟨hh.mirrors.start_le, hh.mirrors.scope, by simp [hh.mirrors.world, hh.ending]⟩, hh.grown⟩

theorem subtest {a : Flat} {x : Exec} (h : Simulates a x) (name : String) :
    Simulates (Flat.subtest name a) (Exec.subtest name x) := by
  intro env fenv s f hf hm
  let w := env.reporter.tellStart (env.path.child name) s.world
  have hstart : Mirrors ⟨env.reporter, env.path.child name, s.scope :: env.enclosing⟩
      ⟨env.path.child name, f.log.length, some (fenv.outermost.getD f.log)⟩ ⟨{}, w⟩ f :=
    ⟨Nat.le_refl _, by rw [List.drop_length, scopeOf_nil], by simp [w, hm.world]⟩
  have hh := h (hf.inner hm env.reporter (env.path.child name) f.log.length) hstart
  simp only [Flat.subtest_eq, Exec.subtest_eq, hf.path]
  revert hh
  generalize x _ _ = r
  generalize a _ _ = q
  intro hh
  obtain ⟨more, hg, hb⟩ := hh.grown
  have hscope := hh.mirrors.scope
  have hworld := hh.mirrors.world
  dsimp only at hscope
  rw [hg, List.drop_append_of_le_length (Nat.le_refl _), List.drop_length, List.nil_append] at hscope
  -- The subtest's own part of the log is what the parent takes in.
  have habsorb : s.scope.absorb r.2.scope = scopeOf env.path (q.2.log.drop fenv.start) := by
    rw [hg, List.drop_append_of_le_length hm.start_le, scopeOf_absorb hb, ← hm.scope, hscope]
  have hle : fenv.start ≤ q.2.log.length := by
    rw [hg, List.length_append]
    exact Nat.le_add_right_of_le hm.start_le
  rw [hh.ending]
  cases q.1.returns with
  | true => exact ⟨rfl, ⟨hle, habsorb, by simp [hworld]⟩, more, hg, hb.parent⟩
  | false =>
    have hcut : q.2.log.take f.log.length = f.log := by rw [hg, List.take_left]
    simp only [Bool.false_eq_true, if_false, hcut]
    exact hm.unchanged (by simp [hworld]) q.1

theorem sandboxed {a : Flat} {x : Exec} (h : Simulates a x) {use : Ending → Outcome → Flat}
    {use' : Ending → Scope → Exec}
    (hu : ∀ ending scope, Simulates (use ending scope.outcome) (use' ending scope)) :
    Simulates (a.sandboxed use) (x.sandboxed use') := by
  intro env fenv s f hf hm
  have hstart : Mirrors ⟨.sandboxed, .root, s.scope :: env.enclosing⟩
      ⟨.root, 0, some (fenv.outermost.getD f.log)⟩ ⟨{}, s.world⟩ ⟨[], f.world⟩ :=
    ⟨Nat.le_refl _, rfl, hm.world⟩
  have hh := h (hf.inner hm .sandboxed .root 0) hstart
  simp only [Flat.sandboxed_eq, Exec.sandboxed_eq]
  revert hh
  generalize x _ _ = r
  generalize a _ _ = q
  intro hh
  have hscope := hh.mirrors.scope
  have hworld := hh.mirrors.world
  dsimp only at hscope
  rw [List.drop_zero] at hscope
  have ho : outcomeOf .root q.2.log = r.2.scope.outcome := by rw [hscope, scopeOf_outcome]
  have hm' : Mirrors env fenv ⟨s.scope, Reporter.sandboxed.tellExit .root q.1 r.2.world⟩
      ⟨f.log, q.2.world⟩ :=
    ⟨hm.start_le, hm.scope, by simp [hworld]⟩
  rw [hh.ending, ho]
  cases q.1.returns with
  | true => exact hu q.1 r.2.scope hf hm'
  | false => exact hm'.unchanged hm'.world q.1

theorem sandbox {a : Flat} {x : Exec} (h : Simulates a x) : Simulates a.sandbox x.sandbox :=
  h.sandboxed fun _ scope => observe (.outcome scope.outcome)

theorem expect {a : Flat} {x : Exec} (h : Simulates a x) (e : Expectation) :
    Simulates (Flat.expect e a) (Exec.expect e x) :=
  h.sandboxed fun _ _ => follow _

theorem channel (name : String) (op : ChannelOp) :
    Simulates (Flat.channel name op) (Exec.channel name op) := by
  intro env fenv s f hf hm
  obtain ⟨hw, hv⟩ := World.act_congr hm.world name op
  simp only [Flat.channel, Exec.channel, hv]
  have hm' : Mirrors env fenv ⟨s.scope, (s.world.act name op).1⟩ ⟨f.log, (f.world.act name op).1⟩ :=
    ⟨hm.start_le, hm.scope, hw⟩
  exact follow _ hf hm'

end Simulates

mutual

theorem flat_simulates : (a : Action) → Simulates a.flat a.exec
  | .fail message => .record message
  | .check c => .follow c.verdict
  | .require c => .follow c.requirement
  | .skip message => .skip message
  | .failNow => .failNow
  | .failed => .failed
  | .mark label => .observe (.mark label)
  | .subtest name body => (flatAll_simulates body).subtest name
  | .nest names body => by
    have h := flatAll_simulates body
    simp only [Action.flat, Action.exec]
    induction names with
    | nil => exact h
    | cons name names ih => exact ih.subtest name
  | .repeated n body => (flatAll_simulates body).times n
  | .thread body => (flatAll_simulates body).thread
  | .catching body rethrow => (flatAll_simulates body).catching rethrow
  | .raise payload => .leave (.panicked payload)
  | .expect e body => (flatAll_simulates body).expect e
  | .sandbox body => (flatAll_simulates body).sandbox
  | .outcome => .outcome
  | .channel name op => .channel name op

theorem flatAll_simulates : (body : List Action) → Simulates (flatAll body) (execAll body)
  | [] => .done
  | a :: rest => (flat_simulates a).andThen (flatAll_simulates rest)

end

/-- A sandbox gives what a flat run gives. The log of the flat run is all that was reported, as it was
reported: its entries are those of the outcome in their order, the outcome is failed if there is a
failure or a mark of failing at once anywhere in it, and skipped if the outermost test itself
skipped. -/
theorem runSandboxed_eq_flat (body : List Action) (w : World) :
    (runSandboxed body w).1 =
        (match runFlat body w with
        | (.panicked p, _) => .error p
        | (_, f) => .ok (outcomeOf .root f.log)) ∧
      (runSandboxed body w).2.silent = (runFlat body w).2.world.silent := by
  have hf : Fits ⟨.sandboxed, .root, [{}]⟩ ⟨.root, 0, some []⟩ :=
    ⟨rfl, .inr ⟨{}, [], rfl, rfl, rfl⟩⟩
  have hm : Mirrors ⟨.sandboxed, .root, [{}]⟩ ⟨.root, 0, some []⟩ ⟨{}, w⟩ ⟨[], w⟩ :=
    ⟨Nat.le_refl _, rfl, rfl⟩
  have hh := flatAll_simulates body hf hm
  simp only [runSandboxed_eq, runFlat]
  revert hh
  generalize execAll body _ _ = r
  generalize flatAll body _ _ = q
  intro hh
  have hscope := hh.mirrors.scope
  have hworld := hh.mirrors.world
  dsimp only at hscope
  rw [List.drop_zero] at hscope
  refine ⟨?_, by simp [hworld]⟩
  rw [hscope, scopeOf_outcome, hh.ending]
  rcases q with ⟨ending, f⟩
  cases ending <;> rfl

example :
    (runFlat [.fail "a", .catching [.subtest "s" [.fail "b", .raise (.text "c")]] false,
      .subtest "t" [.fail "d", .failNow], .thread [.skip "e"]] {}).2.log =
      [.failure ⟨.root, "a"⟩, .failure ⟨⟨["t"]⟩, "d"⟩, .failed ⟨["t"]⟩, .skip ⟨.root, "e"⟩] := by
  decide

end Testkit
