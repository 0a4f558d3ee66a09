import Testkit.Body.World

/-! What a body makes of a check, of a nested run or of an operation on a channel: the failures that
it records, and what it does then. None of it depends on the reporter. -/

namespace Testkit

inductive Reaction where
  | goOn
  | observe (o : Observation)
  | failNow
  | panic (payload : Payload)
deriving DecidableEq, Repr, Inhabited

structure Verdict where
  failures : List String := []
  reaction : Reaction := .goOn
deriving DecidableEq, Repr, Inhabited

namespace Verdict

def observe (o : Observation) : Verdict := ⟨[], .observe o⟩

/-- All is well unless something has to be recorded. -/
def held (failures : List String) : Verdict := ⟨failures, .observe (.held failures.isEmpty)⟩

end Verdict

namespace Check

def failures (c : Check) : List String := if c.held then [] else [c.message]

def verdict (c : Check) : Verdict := .held c.failures

/-- The verdict on a check that ends the test if it does not hold. -/
def requirement (c : Check) : Verdict := ⟨c.failures, if c.held then .goOn else .failNow⟩

end Check

def Expectation.verdict (e : Expectation) (failed completed : Bool) : Verdict :=
  .held (e.complaint? failed completed).toList

def ChannelCheck.verdict (kind : ItemKind) (timeout : Duration) (context : Option String)
    (check : ChannelCheck) (received : Received) : Verdict :=
  let failures := check.failures kind timeout context received
  match check, received with
  | .value, .value v => .observe (.value v)
  | .value, _ => ⟨failures, .failNow⟩
  | _, _ => .held failures

namespace Channel

/-- A check that the channel stays open panics if the clock cannot show its deadline. Any other call that
receives then waits without end for something to come, and never returns if nothing does: `timedOut` at a
time that the clock cannot show stands for that, and what follows it does not happen. -/
def check (c : Channel) (now : Instant) (check : ChannelCheck) (timeout : Duration)
    (context : Option String) : Channel × Instant × Verdict :=
  match check, deadline? now timeout with
  | .notClosed, none => (c, now, ⟨[], .panic (.text deadlineOverflow)⟩)
  | .notClosed, some deadline =>
    let (r, c', now) := c.drain now deadline
    (c', now, ChannelCheck.verdict c.kind timeout context .notClosed r)
  | check, _ =>
    let (r, c', now) := c.receive now (now + timeout.nanos)
    (c', now, ChannelCheck.verdict c.kind timeout context check r)

def act (c : Channel) (now : Instant) : ChannelOp → Channel × Instant × Verdict
  | .send v => let (r, c) := c.send now v; (c, now, .observe (.sent r))
  | .sendLater v delay => (c.sendLater (now + delay.nanos) v, now, {})
  | .close => (c.close, now, {})
  | .buffered =>
    let c := c.settle now
    (c, now, .observe (.buffered c.buffer.length))
  | .tryReceive timeout =>
    let (r, c, now) := c.receive now (now + timeout.nanos)
    (c, now, .observe (.received r))
  | .check check timeout context => c.check now check timeout context

end Channel

def World.act (w : World) (name : String) (op : ChannelOp) : World × Verdict :=
  match w.channels.lookup name with
  | none => (w, {})
  | some c =>
    let (c, now, v) := c.act w.now op
    ({ w.setChannel name c with now }, v)

end Testkit
