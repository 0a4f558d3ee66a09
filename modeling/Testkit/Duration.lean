/-! Lengths of time in whole nanoseconds, and deadlines on a clock that can only count so far. -/

namespace Testkit

structure Duration where
  nanos : Nat
deriving DecidableEq, Repr, Inhabited

namespace Duration

def perSecond : Nat := 1000000000

def max : Duration := ⟨0x10000000000000000 * perSecond - 1⟩

/-- The sum of the parts, or the longest duration if that is less. -/
def ofParts (secs nanos millis : Nat) : Duration :=
  ⟨min (secs * perSecond + nanos + millis * 1000000) max.nanos⟩

/-- `digits` written with `places` digits, less the zeros at its end. -/
def fraction (digits places : Nat) : List Char :=
  let ds := Nat.toDigits 10 digits
  let padded := List.replicate (places - ds.length) '0' ++ ds
  (padded.reverse.dropWhile (· = '0')).reverse

/-- A count of `unit`s, where one unit is that many nanoseconds: a one and `places` zeros. -/
def inUnit (nanos places : Nat) (unit : String) : String :=
  let size := Nat.pow 10 places
  let rest := nanos % size
  let whole := toString (nanos / size)
  if rest = 0 then whole ++ unit
  else whole ++ "." ++ String.ofList (fraction rest places) ++ unit

/-- In the largest unit of which there is at least one, with as many decimals as it takes. -/
def text (d : Duration) : String :=
  if perSecond ≤ d.nanos then inUnit d.nanos 9 "s"
  else if 1000000 ≤ d.nanos then inUnit d.nanos 6 "ms"
  else if 1000 ≤ d.nanos then inUnit d.nanos 3 "µs"
  else inUnit d.nanos 0 "ns"

end Duration

abbrev Instant := Nat

/-- The first instant that the clock cannot show: its seconds have 63 bits. -/
def Instant.limit : Instant := 0x8000000000000000 * Duration.perSecond

/-- When the first body starts, the clock has been going for a day. -/
def Instant.start : Instant := 86400 * Duration.perSecond

/-- The instant at which `timeout` is over, if the clock can show it. -/
def deadline? (now : Instant) (timeout : Duration) : Option Instant :=
  if now + timeout.nanos < Instant.limit then some (now + timeout.nanos) else none

theorem deadline?_eq_some {now deadline : Instant} {timeout : Duration}
    (h : deadline? now timeout = some deadline) : deadline = now + timeout.nanos := by
  simp only [deadline?] at h
  split at h
  · exact (Option.some.inj h).symm
  · simp at h

def deadlineOverflow : String := "overflow when adding duration to instant"

end Testkit
