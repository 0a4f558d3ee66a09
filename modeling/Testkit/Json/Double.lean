/-! Binary floating point numbers of 64 bits by exact arithmetic on whole numbers: rounding to the
nearest, and the fewest decimal digits that lead back to the same number. -/

namespace Testkit

/-- A sign and a magnitude. The magnitude's bits are the exponent above 52 bits of fraction. -/
structure Double where
  negative : Bool
  bits : Nat
deriving DecidableEq, Repr, Inhabited

structure Decimal where
  digits : Nat
  scale : Int
deriving DecidableEq, Repr, Inhabited

namespace Double

def hiddenBit : Nat := 0x10000000000000

/-- Infinity; the bits of every finite magnitude are below. -/
def overflowBits : Nat := 0x7ff * hiddenBit

def exponentField (bits : Nat) : Nat := bits / hiddenBit

/-- The magnitude is `mantissa bits * 2 ^ exponent bits`. -/
def mantissa (bits : Nat) : Nat :=
  if exponentField bits = 0 then bits else bits % hiddenBit + hiddenBit

def exponent (bits : Nat) : Int := (max 1 (exponentField bits) : Nat) - 1075

def shift (base num den : Nat) (e : Int) : Nat × Nat :=
  if e < 0 then (num, den * base.pow e.natAbs) else (num * base.pow e.natAbs, den)

/-- The exponent that leaves a quotient of 53 bits, or the least one there is. -/
def scaleOf (num den : Nat) : Int :=
  let e : Int := (Nat.log2 num : Int) - (Nat.log2 den : Int) - 52
  let (n, d) := shift 2 num den (-e)
  max (-1074) (if n < hiddenBit * d then e - 1 else e)

def round (num den : Nat) : Nat :=
  if num = 0 then 0
  else
    let e := scaleOf num den
    let (n, d) := shift 2 num den (-e)
    let q := n / d
    let r := n % d
    let up := d < 2 * r || (2 * r = d && q % 2 = 1)
    (e + 1074).toNat * hiddenBit + q + (if up then 1 else 0)

def ratio (bits : Nat) : Nat × Nat := shift 2 (mantissa bits) 1 (exponent bits)

def mul (a b : Nat) : Nat :=
  let (n, d) := ratio a
  let (n', d') := ratio b
  round (n * n') (d * d')

def div (a b : Nat) : Nat :=
  let (n, d) := ratio a
  let (n', d') := ratio b
  round (n * d') (d * n')

/-- The greatest power of ten that is a finite number. -/
def maxPower : Nat := 308

/-- Divides by powers of ten, as large as possible each time. Three steps reach zero from any
64-bit number. -/
def scaleDown : Nat → Nat → Nat → Nat
  | 0, _, _ => 0
  | steps + 1, bits, e =>
    if e ≤ maxPower then div bits (round (Nat.pow 10 e) 1)
    else scaleDown steps (div bits (round (Nat.pow 10 maxPower) 1)) (e - maxPower)

/-- The number `significand * 10 ^ e`, rounded once for the significand and once for each power of
ten, if that is finite. -/
def ofScaled? (negative : Bool) (significand : Nat) (e : Int) : Option Double :=
  let f := round significand 1
  if e < 0 then some ⟨negative, scaleDown 4 f e.natAbs⟩
  else if f = 0 then some ⟨negative, 0⟩
  else if e.natAbs ≤ maxPower then
    let g := mul f (round (Nat.pow 10 e.natAbs) 1)
    if g < overflowBits then some ⟨negative, g⟩ else none
  else none

def ofNat (negative : Bool) (n : Nat) : Double := ⟨negative, round n 1⟩

def leadingPlace (num den : Nat) : Int :=
  if den ≤ num then (Nat.toDigits 10 (num / den)).length - 1
  else -((Nat.toDigits 10 ((den + num - 1) / num - 1)).length : Int)

/-- Twice, so that the ends are whole, what rounds to `bits`: the low end, the number itself, the
high end, and the common divisor of all three. -/
def interval (bits : Nat) : Nat × Nat × Nat × Nat :=
  let m := mantissa bits
  let below := if m = hiddenBit ∧ 1 < exponentField bits then 1 else 2
  let e := exponent bits - 2
  let (lo, d) := shift 2 (4 * m - below) 1 e
  (lo, (shift 2 (4 * m) 1 e).1, (shift 2 (4 * m + 2) 1 e).1, d)

/-- The multiple of `10 ^ scale` that rounds to `bits` and is nearest to it, if one does. -/
def onGrid? (bits : Nat) (scale : Int) : Option Decimal :=
  let (lo, v, hi, d) := interval bits
  let even := mantissa bits % 2 = 0
  let (n, den) := shift 10 v d (-scale)
  let c := n / den
  let inside (k : Nat) : Bool :=
    let (x, y) := shift 10 k 1 scale
    if even then decide (lo * y ≤ x * d) && decide (x * d ≤ hi * y)
    else decide (lo * y < x * d) && decide (x * d < hi * y)
  let nearer := 2 * (n % den) < den || (2 * (n % den) = den && c % 2 = 0)
  match inside c, inside (c + 1) with
  | true, true => some ⟨if nearer then c else c + 1, scale⟩
  | true, false => some ⟨c, scale⟩
  | false, true => some ⟨c + 1, scale⟩
  | false, false => none

/-- The first grid that is fine enough, tried with ever more digits. -/
def search (bits : Nat) (place : Int) : Nat → Nat → Decimal
  | _, 0 => ⟨0, 0⟩
  | digits, tries + 1 =>
    match onGrid? bits (place - digits) with
    | some d => d
    | none => search bits place (digits + 1) tries

/-- The fewest digits that round to `bits`, and of those the nearest. Seventeen always suffice. -/
def shortest (bits : Nat) : Decimal :=
  let (n, d) := ratio bits
  search bits (leadingPlace n d) 0 17

end Double

/-- When a number is written with an exponent, and how. -/
structure DecimalLayout where
  firstPositional : Int
  lastPositional : Int

namespace DecimalLayout

/-- Up to five zeros stand before the first digit and sixteen digits before the point. -/
def plain : DecimalLayout := ⟨-5, 15⟩

def withPoint (whole fraction : List Char) : List Char :=
  whole ++ '.' :: (if fraction.isEmpty then ['0'] else fraction)

def signedExponent (e : Int) : List Char :=
  (if e < 0 then '-' else '+') :: Nat.toDigits 10 e.natAbs

def write (l : DecimalLayout) (d : Decimal) : List Char :=
  let ds := ((Nat.toDigits 10 d.digits).reverse.dropWhile (· = '0')).reverse
  let place : Int := (Nat.toDigits 10 d.digits).length - 1 + d.scale
  if place < l.firstPositional ∨ l.lastPositional < place then
    let tail := ds.drop 1
    ds.take 1 ++ (if tail.isEmpty then [] else '.' :: tail) ++ 'e' :: signedExponent place
  else if place < 0 then
    withPoint ['0'] (List.replicate (place.natAbs - 1) '0' ++ ds)
  else
    let n := place.toNat + 1
    withPoint (ds.take n ++ List.replicate (n - ds.length) '0') (ds.drop n)

end DecimalLayout

def Double.text (x : Double) : String :=
  let digits :=
    if x.bits = 0 then ['0', '.', '0'] else DecimalLayout.plain.write (Double.shortest x.bits)
  String.ofList (if x.negative then '-' :: digits else digits)

end Testkit
