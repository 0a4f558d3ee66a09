import Testkit.Text.Glyph

/-! Quoted text: a string between double quotes, with everything escaped that could not be told from
its looks. -/

namespace Testkit

/-- Two characters for the usual controls, the quote and the backslash; the hexadecimal code point
in braces for anything else that does not stand alone. -/
def escapeChar (c : Char) : List Char :=
  if c = '\x00' then ['\\', '0']
  else if c = '\t' then ['\\', 't']
  else if c = '\r' then ['\\', 'r']
  else if c = '\n' then ['\\', 'n']
  else if c = '"' then ['\\', '"']
  else if c = '\\' then ['\\', '\\']
  else if standsAlone c then [c]
  else ['\\', 'u', '\x7b'] ++ Nat.toDigits 16 c.toNat ++ ['\x7d']

def quote (s : String) : String :=
  "\"" ++ String.ofList (s.toList.flatMap escapeChar) ++ "\""

end Testkit
