/-! How a piece of a test ends. -/

namespace Testkit

inductive Payload where
  | text (message : String)
  /-- A value that is not a text; a number tells such values apart. -/
  | code (n : Int32)
deriving DecidableEq, Repr, Inhabited

inductive Ending where
  | completed
  /-- The test was left by a skip or by failing at once. -/
  | exited
  | panicked (payload : Payload)
deriving DecidableEq, Repr, Inhabited

end Testkit
