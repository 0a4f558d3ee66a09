import Testkit.Channel.Basic

/-! What tests expect of channels, and the failures they record when it is not so. -/

namespace Testkit

inductive ChannelCheck where
  | value
  | noMoreValues
  | closed
  | notClosed
deriving DecidableEq, Repr

namespace ChannelCheck

def unexpectedValue (kind : ItemKind) (v : Item) : String :=
  "expected no more " ++ kind.typeName ++ " values from channel but got one: " ++ v.describe

def unexpectedlyClosed : String := "channel was unexpectedly closed"

def failure? (kind : ItemKind) (timeout : Duration) : ChannelCheck → Received → Option String
  | .value, .value _ => none
  | .value, .closed =>
    some ("expected a " ++ kind.typeName ++ " value from channel but the channel was closed")
  | .value, .timedOut =>
    some ("expected a " ++ kind.typeName ++ " value from channel but did not receive one in " ++
      timeout.text)
  | .noMoreValues, .value v => some (unexpectedValue kind v)
  | .noMoreValues, .closed => some unexpectedlyClosed
  | .noMoreValues, .timedOut => none
  | .closed, .value v => some (unexpectedValue kind v)
  | .closed, .timedOut =>
    some ("expected channel to be closed within " ++ timeout.text ++ " but it was not")
  | .closed, .closed => none
  | .notClosed, .closed => some unexpectedlyClosed
  | .notClosed, _ => none

/-- The failures to record: the standard one and then the context, if there is one. -/
def failures (kind : ItemKind) (timeout : Duration) (context : Option String) (check : ChannelCheck)
    (received : Received) : List String :=
  match check.failure? kind timeout received with
  | none => []
  | some message => message :: context.toList

end ChannelCheck

end Testkit
