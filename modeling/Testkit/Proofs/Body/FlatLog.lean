import Testkit.Body.Exec

/-! Test bodies run against one flat log, which a panic that leaves a subtest cuts off where the subtest
began. A sandbox has a log of its own. -/

namespace Testkit

inductive Mark where
  | failure (e : Entry)
  | skip (e : Entry)
  | failed (path : Path)
deriving DecidableEq, Repr

namespace Mark

def path : Mark → Path
  | .failure e => e.path
  | .skip e => e.path
  | .failed path => path

def failure? : Mark → Option Entry
  | .failure e => some e
  | _ => none

def skip? : Mark → Option Entry
  | .skip e => some e
  | _ => none

def fails : Mark → Bool
  | .skip _ => false
  | _ => true

def failsAt (path : Path) (m : Mark) : Bool := m.fails && m.path = path

def skipsAt (path : Path) (m : Mark) : Bool := !m.fails && m.path = path

end Mark

/-- What was reported below the test at `path`, where its skips count as its own. -/
def outcomeOf (path : Path) (log : List Mark) : Outcome :=
  ⟨log.any Mark.fails, log.any (Mark.skipsAt path), log.filterMap Mark.failure?,
    log.filterMap Mark.skip?⟩

structure FlatEnv where
  path : Path
  /-- How long the log was when the test began. -/
  start : Nat
  /-- What the outermost log was when a test inside began, if the present test is inside. -/
  outermost : Option (List Mark)

structure FlatState where
  log : List Mark
  world : World

abbrev Flat := FlatEnv → FlatState → Ending × FlatState

namespace Flat

def done : Flat := fun _ s => (.completed, s)

def andThen (a b : Flat) : Flat := fun env s =>
  match a env s with
  | (.completed, t) => b env t
  | (ending, t) => (ending, t)

def leave (ending : Ending) : Flat := fun _ s => (ending, s)

def observe (o : Observation) : Flat := fun _ s => (.completed, ⟨s.log, s.world.observe o⟩)

def record (message : String) : Flat := fun env s =>
  (.completed, ⟨s.log ++ [.failure ⟨env.path, message⟩], s.world⟩)

def recordAll : List String → Flat
  | [] => done
  | m :: ms => (record m).andThen (recordAll ms)

def skip (message : String) : Flat := fun env s =>
  (.exited, ⟨s.log ++ [.skip ⟨env.path, message⟩], s.world⟩)

def failNow : Flat := fun env s => (.exited, ⟨s.log ++ [.failed env.path], s.world⟩)

def failed : Flat := fun env s =>
  (.completed, ⟨s.log, s.world.observe
    (.failed ((s.log.drop env.start).any (Mark.failsAt env.path)))⟩)

def react : Reaction → Flat
  | .goOn => done
  | .observe o => observe o
  | .failNow => failNow
  | .panic payload => leave (.panicked payload)

def follow (v : Verdict) : Flat := (recordAll v.failures).andThen (react v.reaction)

def times : Nat → Flat → Flat
  | 0, _ => done
  | n + 1, body => body.andThen (times n body)

def subtest (name : String) (body : Flat) : Flat := fun env s =>
  match body ⟨env.path.child name, s.log.length, some (env.outermost.getD s.log)⟩ s with
  | (.panicked p, t) => (.panicked p, ⟨t.log.take s.log.length, t.world⟩)
  | (_, t) => (.completed, t)

def thread (body : Flat) : Flat := fun env s =>
  match body env s with
  | (ending, t) => (.completed, ⟨t.log, t.world.observe (.thread ending)⟩)

def catching (body : Flat) (rethrow : Bool) : Flat := fun env s =>
  match body env s with
  | (ending, t) =>
    (if rethrow then ending else .completed, ⟨t.log, t.world.observe (.caught ending)⟩)

def sandboxed (body : Flat) (use : Ending → Outcome → Flat) : Flat := fun env s =>
  match body ⟨.root, 0, some (env.outermost.getD s.log)⟩ ⟨[], s.world⟩ with
  | (.panicked p, t) => (.panicked p, ⟨s.log, t.world⟩)
  | (ending, t) => use ending (outcomeOf .root t.log) env ⟨s.log, t.world⟩

def sandbox (body : Flat) : Flat := sandboxed body fun _ o => observe (.outcome o)

def expect (e : Expectation) (body : Flat) : Flat :=
  sandboxed body fun ending o => follow (e.verdict o.failed (ending = .completed))

def outcome : Flat := fun env s =>
  (.completed,
    ⟨s.log, s.world.observe (.outcome (outcomeOf .root (env.outermost.getD s.log)))⟩)

def channel (name : String) (op : ChannelOp) : Flat := fun env s =>
  match s.world.act name op with
  | (w, v) => follow v env ⟨s.log, w⟩

end Flat

mutual

def Action.flat : Action → Flat
  | .fail message => Flat.record message
  | .check c => Flat.follow c.verdict
  | .require c => Flat.follow c.requirement
  | .skip message => Flat.skip message
  | .failNow => Flat.failNow
  | .failed => Flat.failed
  | .mark label => Flat.observe (.mark label)
  | .subtest name body => Flat.subtest name (flatAll body)
  | .nest names body => names.foldr Flat.subtest (flatAll body)
  | .repeated n body => Flat.times n (flatAll body)
  | .thread body => Flat.thread (flatAll body)
  | .catching body rethrow => Flat.catching (flatAll body) rethrow
  | .raise payload => Flat.leave (.panicked payload)
  | .expect e body => Flat.expect e (flatAll body)
  | .sandbox body => Flat.sandbox (flatAll body)
  | .outcome => Flat.outcome
  | .channel name op => Flat.channel name op

def flatAll : List Action → Flat
  | [] => Flat.done
  | a :: rest => a.flat.andThen (flatAll rest)

end

def runFlat (body : List Action) (w : World) : Ending × FlatState :=
  flatAll body ⟨.root, 0, some []⟩ ⟨[], w⟩

end Testkit
