import Testkit.Json.Basic

/-! The compact text of a JSON value: no spaces, and only what must be escaped is. -/

namespace Testkit.Json

def hexByte (n : Nat) : List Char :=
  let ds := Nat.toDigits 16 n
  List.replicate (2 - ds.length) '0' ++ ds

def escapeInText (c : Char) : List Char :=
  if c = '"' then ['\\', '"']
  else if c = '\\' then ['\\', '\\']
  else if c = '\x08' then ['\\', 'b']
  else if c = '\x0c' then ['\\', 'f']
  else if c = '\n' then ['\\', 'n']
  else if c = '\r' then ['\\', 'r']
  else if c = '\t' then ['\\', 't']
  else if c.toNat < 0x20 then ['\\', 'u', '0', '0'] ++ hexByte c.toNat
  else [c]

def quoted (s : String) : String := "\"" ++ String.ofList (s.toList.flatMap escapeInText) ++ "\""

mutual

def compact : Json → String
  | .null => "null"
  | .bool b => toString b
  | .int n => toString n
  | .double x => x.text
  | .text s => quoted s
  | .list items => "[" ++ ",".intercalate (compactAll items) ++ "]"
  | .record fields => "\x7b" ++ ",".intercalate (compactFields fields) ++ "\x7d"

def compactAll : List Json → List String
  | [] => []
  | v :: vs => compact v :: compactAll vs

def compactFields : List (String × Json) → List String
  | [] => []
  | (n, v) :: rest => (quoted n ++ ":" ++ compact v) :: compactFields rest

end

end Testkit.Json
