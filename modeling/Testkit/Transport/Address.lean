import Testkit.Text.Cut
import Testkit.Text.Numeral

/-! Where a server can listen: a numeric address, short or long, and a port. An address may be
written in many ways; it is shown in one. -/

namespace Testkit

structure Ipv4 where
  octets : Vector UInt8 4
deriving DecidableEq, Repr, Inhabited

structure Ipv6 where
  groups : Vector UInt16 8
deriving DecidableEq, Repr, Inhabited

def exactly? {α : Type} (n : Nat) (xs : List α) : Option (Vector α n) :=
  if h : xs.length = n then some ⟨xs.toArray, by simpa using h⟩ else none

namespace Ipv4

/-- Without zeros in front, so that nobody takes it for an octal numeral. -/
def octet? (ds : List Char) : Option UInt8 :=
  if ds.head? = some '0' ∧ ds ≠ ['0'] then none
  else ((decimal? ds).filter (· < 0x100)).map UInt8.ofNat

def ofText? (s : String) : Option Ipv4 := do
  let octets ← (s.splitOn ".").mapM fun part => octet? part.toList
  return ⟨← exactly? 4 octets⟩

def text (a : Ipv4) : String := ".".intercalate (a.octets.toList.map (toString ·.toNat))

def isUnspecified (a : Ipv4) : Bool := a.octets.all (· = 0)

def isLoopback (a : Ipv4) : Bool := a.octets[0] = 127

/-- The groups that the address takes up at the end of a long one. -/
def groups (a : Ipv4) : List UInt16 :=
  [.ofNat (a.octets[0].toNat * 0x100 + a.octets[1].toNat),
    .ofNat (a.octets[2].toNat * 0x100 + a.octets[3].toNat)]

end Ipv4

namespace Ipv6

def group? (s : String) : Option UInt16 :=
  if s.length ≤ 4 then (hexadecimal? s.toList).map UInt16.ofNat else none

/-- Groups of which the last two may be written as a short address. -/
def groups? : List String → Option (List UInt16)
  | [] => some []
  | [last] =>
    match Ipv4.ofText? last with
    | some a => some a.groups
    | none => (group? last).map ([·])
  | part :: rest => do return (← group? part) :: (← groups? rest)

def parts (s : String) : List String := if s = "" then [] else s.splitOn ":"

/-- Two colons side by side stand for at least one group of zero. -/
def ofText? (s : String) : Option Ipv6 :=
  match s.splitOn "::" with
  | [whole] => do return ⟨← exactly? 8 (← groups? (parts whole))⟩
  | [front, back] => do
    let front ← (parts front).mapM group?
    let back ← groups? (parts back)
    let zeros := 8 - (front.length + back.length)
    if zeros = 0 then none else return ⟨← exactly? 8 (front ++ List.replicate zeros 0 ++ back)⟩
  | _ => none

def longestZeros : List UInt16 → Nat × Nat
  | [] => (0, 0)
  | g :: gs =>
    let here := ((g :: gs).takeWhile (· = 0)).length
    let (start, length) := longestZeros gs
    if length ≤ here then (0, here) else (start + 1, length)

def mapped? (a : Ipv6) : Option Ipv4 :=
  match a.groups.toList with
  | [0, 0, 0, 0, 0, 0xffff, g, h] =>
    some ⟨#v[(g / 0x100).toUInt8, g.toUInt8, (h / 0x100).toUInt8, h.toUInt8]⟩
  | _ => none

def groupsText (gs : List UInt16) : String :=
  ":".intercalate (gs.map fun g => String.ofList (Nat.toDigits 16 g.toNat))

def text (a : Ipv6) : String :=
  match a.mapped? with
  | some short => "::ffff:" ++ short.text
  | none =>
    let gs := a.groups.toList
    let (start, length) := longestZeros gs
    if 1 < length then groupsText (gs.take start) ++ "::" ++ groupsText (gs.drop (start + length))
    else groupsText gs

def isUnspecified (a : Ipv6) : Bool := a.groups.all (· = 0)

def isLoopback (a : Ipv6) : Bool := a.groups = #v[0, 0, 0, 0, 0, 0, 0, 1]

end Ipv6

/-- A long address may have a scope, which is the number of a network interface. -/
inductive Host where
  | short (address : Ipv4)
  | long (address : Ipv6) (scope : UInt32)
deriving DecidableEq, Repr

namespace Host

/-- What stands between brackets. -/
def ofLongText? (s : String) : Option Host :=
  match s.splitOn "%" with
  | [address] => do return .long (← Ipv6.ofText? address) 0
  | [address, scope] => do
    let scope ← (decimal? scope.toList).filter (· < 0x100000000)
    return .long (← Ipv6.ofText? address) (UInt32.ofNat scope)
  | _ => none

def ofText? (s : String) : Option Host :=
  match after? ['['] s.toList with
  | none => (Ipv4.ofText? s).map .short
  | some inside => do
    let (inside, rest) ← splitAtLast? [']'] inside
    if rest = [] then ofLongText? (String.ofList inside) else none

def text : Host → String
  | .short a => a.text
  | .long a scope => "[" ++ a.text ++ (if scope = 0 then "" else "%" ++ toString scope.toNat) ++ "]"

def isLoopback : Host → Bool
  | .short a => a.isLoopback
  | .long a _ => a.isLoopback

def isUnspecified : Host → Bool
  | .short a => a.isUnspecified
  | .long a _ => a.isUnspecified || a.mapped?.any Ipv4.isUnspecified

/-- An interface need not be named once the address was found on it. -/
def unscoped : Host → Host
  | .short a => .short a
  | .long a _ => .long a 0

def short? : Host → Option Ipv4
  | .short a => some a
  | .long a _ => a.mapped?

/-- Whether a connection could be meant for either. -/
def overlaps (a b : Host) : Bool :=
  a.isUnspecified || b.isUnspecified ||
    match a.short?, b.short? with
    | some a, some b => a = b
    | none, none => a = b
    | _, _ => false

end Host

structure SocketAddress where
  host : Host
  port : UInt16
deriving DecidableEq, Repr

namespace SocketAddress

/-- The port comes after the last colon. -/
def ofText? (s : String) : Option SocketAddress := do
  let (host, port) ← splitAtLast? [':'] s.toList
  let port ← (decimal? port).filter (· < 0x10000)
  return ⟨← Host.ofText? (String.ofList host), UInt16.ofNat port⟩

def text (a : SocketAddress) : String := a.host.text ++ ":" ++ toString a.port.toNat

def default : SocketAddress := ⟨.short ⟨#v[127, 0, 0, 1]⟩, 0⟩

/-- Whether servers cannot listen at both at once. Port zero stands for any port that is free. -/
def clashes (a b : SocketAddress) : Bool :=
  a.port ≠ 0 && a.port = b.port && a.host.overlaps b.host

end SocketAddress

end Testkit
