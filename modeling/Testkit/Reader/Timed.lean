import Testkit.Duration
import Testkit.Reader.Pump

/-! A reader with timeouts on top of a pump. It keeps what it got beyond what was asked for. -/

namespace Testkit

structure TimedReader where
  pump : Pump
  buffered : Bytes := []
  finished : Bool := false
deriving DecidableEq, Repr

/-- The reader looks at what was passed on: what the pump has done since the last look, and when it
is. -/
structure Look where
  moves : List Pump.Move
  time : Instant
deriving DecidableEq, Repr

/-- What the reader waited for: a chunk came, the input has ended, or the time was up. -/
inductive Awaited where
  | chunk
  | ended
  | timedOut
deriving DecidableEq, Repr

namespace TimedReader

def ofScript (script : Script) : TimedReader := ⟨{ script }, [], false⟩

/-- What is there for the reader: a chunk, which it takes, or the end of the input. -/
def found (r : TimedReader) : Option (Awaited × TimedReader) :=
  match r.pump.passed with
  | chunk :: rest =>
    some (.chunk,
      { r with pump := { r.pump with passed := rest }, buffered := r.buffered ++ chunk })
  | [] => if r.pump.state = .done then some (.ended, { r with finished := true }) else none

/-- Looks again and again until something is there or the time is up, be the deadline already over.
After the last look nothing happens any more. -/
def await (deadline : Instant) :
    Instant → List Look → TimedReader → Awaited × Instant × List Look × TimedReader
  | now, [], r =>
    match r.found with
    | some (awaited, r) => (awaited, now, [], r)
    | none => (.timedOut, max now deadline, [], r)
  | now, look :: looks, r =>
    let now := max now look.time
    let r := { r with pump := r.pump.moves look.moves }
    match r.found with
    | some (awaited, r) => (awaited, now, looks, r)
    | none => if deadline ≤ now then (.timedOut, now, looks, r) else await deadline now looks r

/-- Waits for a chunk unless the end of the input was seen already. -/
def fill (deadline now : Instant) (looks : List Look) (r : TimedReader) :
    Awaited × Instant × List Look × TimedReader :=
  if r.finished then (.ended, now, looks, r) else await deadline now looks r

def supply (r : TimedReader) : Nat := r.pump.passed.length + r.pump.script.size + 1

def fillWhile (more : Bytes → Bool) (deadline : Instant) :
    Nat → Instant → List Look → TimedReader → Instant × TimedReader
  | 0, now, _, r => (now, r)
  | n + 1, now, looks, r =>
    if more r.buffered then
      match r.fill deadline now looks with
      | (.chunk, now, looks, r) => fillWhile more deadline n now looks r
      | (_, now, _, r) => (now, r)
    else (now, r)

/-- Up to `n` bytes: fewer only at the end of the input or when the time is up. -/
def read (r : TimedReader) (n : Nat) (deadline now : Instant) (looks : List Look) :
    Bytes × Instant × TimedReader :=
  let (now, r) := r.fillWhile (fun b => b.length < n) deadline (r.supply + 1) now looks
  (r.buffered.take n, now, { r with buffered := r.buffered.drop n })

/-- All the rest, if the end of the input comes in time. -/
def readToEnd (r : TimedReader) (deadline now : Instant) (looks : List Look) :
    Option Bytes × Instant × TimedReader :=
  let (now, r) := r.fillWhile (fun _ => true) deadline (r.supply + 1) now looks
  if r.finished then (some r.buffered, now, { r with buffered := [] }) else (none, now, r)

def isExhausted (r : TimedReader) : Bool := r.finished && r.buffered.isEmpty

end TimedReader

inductive ReaderCall where
  | read (n : Nat) (timeout : Duration)
  | readToEnd (timeout : Duration)
  | exhausted
  | release
  | drop
deriving DecidableEq, Repr

inductive ReaderAnswer where
  | bytes (b : Bytes)
  | notEnded
  | exhausted (b : Bool)
  | nothing
  | overflow
deriving DecidableEq, Repr

namespace TimedReader

def callAt (now : Instant) (looks : List Look) (r : TimedReader) :
    ReaderCall → ReaderAnswer × Instant × TimedReader
  | .read n timeout =>
    match deadline? now timeout with
    | none => (.overflow, now, r)
    | some deadline => let (b, now, r) := r.read n deadline now looks; (.bytes b, now, r)
  | .readToEnd timeout =>
    match deadline? now timeout with
    | none => (.overflow, now, r)
    | some deadline =>
      match r.readToEnd deadline now looks with
      | (some b, now, r) => (.bytes b, now, r)
      | (none, now, r) => (.notEnded, now, r)
  | .exhausted => (.exhausted r.isExhausted, now, r)
  | .release => (.nothing, now, { r with pump := r.pump.release })
  | .drop => (.nothing, now, { r with pump := r.pump.abandon })

/-- A call when the pump is at rest, so that waiting does not bring anything more. -/
def call (r : TimedReader) (c : ReaderCall) : ReaderAnswer × TimedReader :=
  let (a, _, r) := r.callAt .start [] c
  (a, r)

def rest (r : TimedReader) : TimedReader := { r with pump := r.pump.run }

def runCalls : List ReaderCall → TimedReader → List ReaderAnswer × TimedReader
  | [], r => ([], r.rest)
  | c :: cs, r =>
    let (a, r) := r.rest.call c
    let (as, r) := runCalls cs r
    (a :: as, r)

end TimedReader

end Testkit
