import Testkit.Text.Cut
import Testkit.Text.Numeral

/-! Why a value has no JSON text: a message, which may end by saying where in a text it belongs. -/

namespace Testkit

/-- Lines count from one. A message about no line in particular has the line zero. -/
structure EncodingError where
  message : String
  line : Nat := 0
  column : Nat := 0
deriving DecidableEq, Repr, Inhabited

namespace EncodingError

/-- A numeral whose value fits into 64 bits. -/
def word? (ds : List Char) : Option Nat :=
  (decimal? ds).filter (· < 0x10000000000000000)

/-- A line and a column, and nothing after them. -/
def place? (cs : List Char) : Option (Nat × Nat) := do
  let line ← word? (cs.takeWhile Char.isDigit)
  let rest ← after? " column ".toList (cs.dropWhile Char.isDigit)
  return (line, ← word? rest)

/-- A place at the end of the text is taken as one. Any other text is all message. -/
def ofText (s : String) : EncodingError :=
  match splitAtLast? " at line ".toList s.toList with
  | some (message, rest) =>
    match place? rest with
    | some (line, column) => ⟨String.ofList message, line, column⟩
    | none => ⟨s, 0, 0⟩
  | none => ⟨s, 0, 0⟩

def text (e : EncodingError) : String :=
  if e.line = 0 then e.message
  else e.message ++ " at line " ++ toString e.line ++ " column " ++ toString e.column

end EncodingError

end Testkit
