import Testkit.Report.Path

/-! What a run of a test has recorded. -/

namespace Testkit

/-- A failure or a skip: the test that it is of, and its message, which may be empty. -/
structure Entry where
  path : Path
  message : String
deriving DecidableEq, Repr, Inhabited

def Entry.text (e : Entry) : String :=
  if e.message = "" then e.path.text else e.path.text ++ ": " ++ e.message

def Entry.describe (e : Entry) : String :=
  "LogEntry \x7b path: " ++ e.path.describe ++ ", message: " ++ quote e.message ++ " \x7d"

structure Outcome where
  failed : Bool
  skipped : Bool
  failures : List Entry
  skips : List Entry
deriving DecidableEq, Repr, Inhabited

def Outcome.passed (o : Outcome) : Bool := !o.failed && !o.skipped

end Testkit
