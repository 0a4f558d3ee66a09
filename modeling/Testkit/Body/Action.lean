import Testkit.Channel.Check
import Testkit.Report.Check
import Testkit.Report.Ending
import Testkit.Report.Outcome

/-! Test bodies as data: what a test does with its reporter and its channels, and what it sees. -/

namespace Testkit

inductive ChannelOp where
  | send (v : Item)
  | sendLater (v : Item) (delay : Duration)
  | close
  | buffered
  | tryReceive (timeout : Duration)
  | check (check : ChannelCheck) (timeout : Duration) (context : Option String)
deriving Repr, Inhabited

inductive Action where
  | fail (message : String)
  | check (c : Check)
  /-- A check that ends the test if it does not hold. -/
  | require (c : Check)
  | skip (message : String)
  | failNow
  | failed
  | mark (label : Option String)
  | subtest (name : String) (body : List Action)
  /-- Subtests one inside the other, the body in the innermost. -/
  | nest (names : List String) (body : List Action)
  | repeated (n : Nat) (body : List Action)
  /-- On a thread of its own that is waited for. -/
  | thread (body : List Action)
  | catching (body : List Action) (rethrow : Bool)
  | raise (payload : Payload)
  | expect (e : Expectation) (body : List Action)
  | sandbox (body : List Action)
  /-- Looks at what the outermost reporter has recorded. -/
  | outcome
  | channel (name : String) (op : ChannelOp)
deriving Inhabited

inductive Observation where
  | held (held : Bool)
  | failed (failed : Bool)
  | mark (label : Option String)
  | thread (ending : Ending)
  | caught (ending : Ending)
  | outcome (o : Outcome)
  | sent (r : SendResult)
  | buffered (n : Nat)
  | received (r : Received)
  | value (v : Item)
deriving DecidableEq, Repr

end Testkit
