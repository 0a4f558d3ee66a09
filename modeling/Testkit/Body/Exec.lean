import Testkit.Body.Verdict

/-! What a body does: it takes the state of its scope to another one and ends somehow. Subtests,
threads, catches and sandboxes are operations on bodies. -/

namespace Testkit

abbrev Exec := Env → State → Ending × State

namespace Exec

def done : Exec := fun _ s => (.completed, s)

/-- Goes on with `b` only if `a` completes. -/
def andThen (a b : Exec) : Exec := fun env s =>
  match a env s with
  | (.completed, t) => b env t
  | (.exited, t) => (.exited, t)
  | (.panicked p, t) => (.panicked p, t)

def leave (ending : Ending) : Exec := fun _ s => (ending, s)

def observe (o : Observation) : Exec := fun _ s => (.completed, ⟨s.scope, s.world.observe o⟩)

def record (message : String) : Exec := fun env s =>
  (.completed,
    ⟨s.scope.recordFailure env.path message, env.reporter.tellFailure env.path message s.world⟩)

def recordAll : List String → Exec
  | [] => done
  | m :: ms => (record m).andThen (recordAll ms)

def skip (message : String) : Exec := fun env s =>
  (.exited, ⟨s.scope.recordSkip env.path message, env.reporter.tellSkip env.path message s.world⟩)

def failNow : Exec := fun _ s => (.exited, ⟨s.scope.markFailed, s.world⟩)

def failed : Exec := fun _ s =>
  (.completed, ⟨s.scope, s.world.observe (.failed s.scope.failedHere)⟩)

def react : Reaction → Exec
  | .goOn => done
  | .observe o => observe o
  | .failNow => failNow
  | .panic payload => leave (.panicked payload)

def follow (v : Verdict) : Exec := (recordAll v.failures).andThen (react v.reaction)

def times : Nat → Exec → Exec
  | 0, _ => done
  | n + 1, body => body.andThen (times n body)

/-- Runs `body` in a fresh scope at `path`, inside the present one. -/
def inScope (reporter : Reporter) (path : Path) (body : Exec) : Exec := fun env s =>
  match body ⟨reporter, path, s.scope :: env.enclosing⟩ ⟨{}, s.world⟩ with
  | (ending, t) => (ending, ⟨t.scope, reporter.tellExit path ending t.world⟩)

/-- A subtest is taken in by its parent unless it panics, and then leaves no trace in it. -/
def subtest (name : String) (body : Exec) : Exec := fun env s =>
  let path := env.path.child name
  match inScope env.reporter path body env ⟨s.scope, env.reporter.tellStart path s.world⟩ with
  | (.panicked p, t) => (.panicked p, ⟨s.scope, t.world⟩)
  | (_, t) =>
    (.completed,
      ⟨s.scope.absorb t.scope, env.reporter.tellSkipped path t.scope.skipped t.world⟩)

/-- The same scope, but no way of ending gets out. -/
def thread (body : Exec) : Exec := fun env s =>
  match body env s with
  | (ending, t) => (.completed, ⟨t.scope, t.world.observe (.thread ending)⟩)

def catching (body : Exec) (rethrow : Bool) : Exec := fun env s =>
  match body env s with
  | (ending, t) =>
    (if rethrow then ending else .completed, ⟨t.scope, t.world.observe (.caught ending)⟩)

/-- A sandbox keeps what is recorded in it to itself. Once it is over, `use` says what is made of
it, unless the body panics. -/
def sandboxed (body : Exec) (use : Ending → Scope → Exec) : Exec := fun env s =>
  match inScope .sandboxed .root body env s with
  | (.panicked p, t) => (.panicked p, ⟨s.scope, t.world⟩)
  | (ending, t) => use ending t.scope env ⟨s.scope, t.world⟩

def sandbox (body : Exec) : Exec := sandboxed body fun _ scope => observe (.outcome scope.outcome)

def expect (e : Expectation) (body : Exec) : Exec :=
  sandboxed body fun ending scope => follow (e.verdict scope.failed (ending = .completed))

def outcome : Exec := fun env s =>
  let top := env.enclosing.getLast?.getD s.scope
  (.completed, ⟨s.scope, s.world.observe (.outcome top.outcome)⟩)

def channel (name : String) (op : ChannelOp) : Exec := fun env s =>
  match s.world.act name op with
  | (w, v) => follow v env ⟨s.scope, w⟩

end Exec

mutual

def Action.exec : Action → Exec
  | .fail message => Exec.record message
  | .check c => Exec.follow c.verdict
  | .require c => Exec.follow c.requirement
  | .skip message => Exec.skip message
  | .failNow => Exec.failNow
  | .failed => Exec.failed
  | .mark label => Exec.observe (.mark label)
  | .subtest name body => Exec.subtest name (execAll body)
  | .nest names body => names.foldr Exec.subtest (execAll body)
  | .repeated n body => Exec.times n (execAll body)
  | .thread body => Exec.thread (execAll body)
  | .catching body rethrow => Exec.catching (execAll body) rethrow
  | .raise payload => Exec.leave (.panicked payload)
  | .expect e body => Exec.expect e (execAll body)
  | .sandbox body => Exec.sandbox (execAll body)
  | .outcome => Exec.outcome
  | .channel name op => Exec.channel name op

/-- One action after the other, until one does not complete. -/
def execAll : List Action → Exec
  | [] => Exec.done
  | a :: rest => a.exec.andThen (execAll rest)

end

end Testkit
