import Testkit.Json.Basic
import Testkit.Text.Cut
import Testkit.Text.Numeral

/-! Reading JSON text. Every step returns what it read and the characters after it. -/

namespace Testkit.Json

abbrev Step (α : Type) := List Char → Option (α × List Char)

def isBlank (c : Char) : Bool := c = ' ' || c = '\t' || c = '\n' || c = '\r'

def skipBlanks (cs : List Char) : List Char := cs.dropWhile isBlank

def hexUnit : Step Nat
  | a :: b :: c :: d :: rest => (hexadecimal? [a, b, c, d]).map (·, rest)
  | _ => none

/-- The character after `\u`: one unit, or two that make a surrogate pair. -/
def escapedUnit : Step Char := fun cs => do
  let (u, rest) ← hexUnit cs
  if u < 0xd800 ∨ 0xe000 ≤ u then some (Char.ofNat u, rest)
  else
    match rest with
    | '\\' :: 'u' :: rest => do
      let (v, rest) ← hexUnit rest
      if u < 0xdc00 ∧ 0xdc00 ≤ v ∧ v < 0xe000 then
        some (Char.ofNat (0x10000 + (u - 0xd800) * 0x400 + (v - 0xdc00)), rest)
      else none
    | _ => none

def simpleEscape? (c : Char) : Option Char :=
  if c = '"' ∨ c = '\\' ∨ c = '/' then some c
  else if c = 'b' then some '\x08'
  else if c = 'f' then some '\x0c'
  else if c = 'n' then some '\n'
  else if c = 'r' then some '\r'
  else if c = 't' then some '\t'
  else none

/-- One character of a text, or its closing quote. -/
def textChar : Step (Option Char)
  | '"' :: rest => some (none, rest)
  | '\\' :: 'u' :: rest => (escapedUnit rest).map fun r => (some r.1, r.2)
  | '\\' :: c :: rest => (simpleEscape? c).map fun e => (some e, rest)
  | c :: rest => if c.toNat < 0x20 then none else some (some c, rest)
  | [] => none

def textFrom : Nat → List Char → Step String
  | 0, _, _ => none
  | fuel + 1, acc, cs =>
    match textChar cs with
    | none => none
    | some (none, rest) => some (String.ofList acc.reverse, rest)
    | some (some c, rest) => textFrom fuel (c :: acc) rest

def digitValue (c : Char) : Nat := c.toNat - '0'.toNat

/-- The largest significand that is kept: 64 bits. -/
def maxSignificand : Nat := 0xffffffffffffffff

def takeDigits (significand : Nat) : List Char → Nat × Nat
  | [] => (significand, 0)
  | c :: cs =>
    let next := significand * 10 + digitValue c
    if next ≤ maxSignificand then
      let (s, n) := takeDigits next cs
      (s, n + 1)
    else (significand, 0)

def digits1 : Step (List Char) := fun cs =>
  let ds := cs.takeWhile Char.isDigit
  if ds.isEmpty then none else some (ds, cs.dropWhile Char.isDigit)

def wholePart : Step (List Char) := fun cs => do
  let (ds, rest) ← digits1 cs
  if ds.head? = some '0' ∧ 1 < ds.length then none else some (ds, rest)

def fractionPart : Step (Option (List Char))
  | '.' :: rest => (digits1 rest).map fun r => (some r.1, r.2)
  | cs => some (none, cs)

def exponentDigits (negative : Bool) : Step (Option Int) := fun cs => do
  let (ds, rest) ← digits1 cs
  let n ← decimal? ds
  some (some (if negative then -n else n), rest)

def exponentPart : Step (Option Int)
  | c :: rest =>
    if c = 'e' ∨ c = 'E' then
      match rest with
      | '-' :: rest => exponentDigits true rest
      | '+' :: rest => exponentDigits false rest
      | rest => exponentDigits false rest
    else some (none, c :: rest)
  | [] => some (none, [])

/-- A whole number that fits 64 bits stays whole, but for a negative zero; any other number is a
double. -/
def numberOf? (negative : Bool) (whole : List Char) (fraction : Option (List Char))
    (exponent : Option Int) : Option Json :=
  let (s, taken) := takeDigits 0 whole
  let dropped := whole.length - taken
  match fraction, exponent with
  | none, none =>
    if dropped ≠ 0 then (Double.ofScaled? negative s dropped).map .double
    else if negative then
      if s = 0 ∨ 0x8000000000000000 < s then some (.double (.ofNat true s)) else some (.int (-s))
    else some (.int s)
  | _, _ =>
    let (s, places) := takeDigits s (fraction.getD [])
    (Double.ofScaled? negative s (dropped - places + exponent.getD 0)).map .double

def number : Step Json := fun cs => do
  let (negative, cs) := match cs with
    | '-' :: rest => (true, rest)
    | cs => (false, cs)
  let (whole, cs) ← wholePart cs
  let (fraction, cs) ← fractionPart cs
  let (exponent, cs) ← exponentPart cs
  let v ← numberOf? negative whole fraction exponent
  some (v, cs)

def keyword (word : List Char) (v : Json) : Step Json := fun cs =>
  (after? word cs).map (v, ·)

mutual

/-- Reads one value. The fuel bounds the characters and is not used up on a text of that length. -/
def value : Nat → Step Json
  | 0, _ => none
  | fuel + 1, cs =>
    match skipBlanks cs with
    | '"' :: rest => (textFrom fuel [] rest).map fun r => (.text r.1, r.2)
    | '[' :: rest =>
      match skipBlanks rest with
      | ']' :: rest => some (.list [], rest)
      | rest => (items fuel rest).map fun r => (.list r.1, r.2)
    | '\x7b' :: rest =>
      match skipBlanks rest with
      | '\x7d' :: rest => some (.record [], rest)
      | rest => (fields fuel rest).map fun r => (ofFields r.1, r.2)
    | 't' :: rest => keyword ['r', 'u', 'e'] (.bool true) rest
    | 'f' :: rest => keyword ['a', 'l', 's', 'e'] (.bool false) rest
    | 'n' :: rest => keyword ['u', 'l', 'l'] .null rest
    | cs => number cs

def items : Nat → Step (List Json)
  | 0, _ => none
  | fuel + 1, cs => do
    let (v, rest) ← value fuel cs
    match skipBlanks rest with
    | ',' :: rest => (items fuel rest).map fun r => (v :: r.1, r.2)
    | ']' :: rest => some ([v], rest)
    | _ => none

def fields : Nat → Step (List (String × Json))
  | 0, _ => none
  | fuel + 1, cs =>
    match skipBlanks cs with
    | '"' :: rest => do
      let (name, rest) ← textFrom fuel [] rest
      match skipBlanks rest with
      | ':' :: rest => do
        let (v, rest) ← value fuel rest
        match skipBlanks rest with
        | ',' :: rest => (fields fuel rest).map fun r => ((name, v) :: r.1, r.2)
        | '\x7d' :: rest => some ([(name, v)], rest)
        | _ => none
      | _ => none
    | _ => none

end

def parse? (s : String) : Option Json := do
  let cs := s.toList
  let (v, rest) ← value (2 * cs.length + 2) cs
  if (skipBlanks rest).isEmpty then some v else none

end Testkit.Json
