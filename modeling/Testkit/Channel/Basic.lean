import Testkit.Channel.Item
import Testkit.Duration

/-! Channels with one sender in the test's hands, and further ones that each send a single value
later. Values leave in the order in which they came in. -/

namespace Testkit

/-- A sender that is not in the test's hands. At its time it sends its value, if it has one, and is
gone. -/
structure LateSender where
  due : Instant
  value : Option Item
deriving DecidableEq, Repr, Inhabited

structure Channel where
  kind : ItemKind
  /-- How many values wait at most; with none at all, a value passes only to a waiting receiver. -/
  capacity : Option Nat
  buffer : List Item := []
  senderOpen : Bool := true
  /-- The senders that are still to come, soonest first. One that finds the buffer full waits for
  room. -/
  late : List LateSender := []
deriving Repr, Inhabited

inductive SendResult where
  | sent | full | closed
deriving DecidableEq, Repr

inductive Received where
  | value (v : Item)
  | timedOut
  | closed
deriving DecidableEq, Repr

def Received.describe : Received → String
  | .value v => "Value(" ++ v.describe ++ ")"
  | .timedOut => "TimedOut"
  | .closed => "Closed"

namespace Channel

def hasRoom (c : Channel) : Bool :=
  match c.capacity with
  | none => true
  | some n => c.buffer.length < n

def settleFrom (now : Instant) (c : Channel) : List LateSender → Channel
  | [] => { c with late := [] }
  | ⟨due, none⟩ :: rest =>
    if due ≤ now then settleFrom now c rest else { c with late := ⟨due, none⟩ :: rest }
  | ⟨due, some v⟩ :: rest =>
    if due ≤ now ∧ c.hasRoom then settleFrom now { c with buffer := c.buffer ++ [v] } rest
    else { c with late := ⟨due, some v⟩ :: rest }

/-- Lets in what is due, as far as there is room. -/
def settle (c : Channel) (now : Instant) : Channel := settleFrom now c c.late

def send (c : Channel) (now : Instant) (v : Item) : SendResult × Channel :=
  let c := c.settle now
  if !c.senderOpen then (.closed, c)
  else if c.hasRoom then (.sent, { c with buffer := c.buffer ++ [v] })
  else (.full, c)

def insertLate (s : LateSender) : List LateSender → List LateSender
  | [] => [s]
  | t :: rest => if s.due < t.due then s :: t :: rest else t :: insertLate s rest

def sendLater (c : Channel) (due : Instant) (v : Item) : Channel :=
  if c.senderOpen then { c with late := insertLate ⟨due, some v⟩ c.late } else c

def close (c : Channel) : Channel := { c with senderOpen := false }

/-- The next value that is there at `now`, which may come straight from a sender that has no buffer
to put it in. -/
def take? (c : Channel) (now : Instant) : Option (Item × Channel) :=
  match c.buffer, c.late with
  | v :: rest, _ => some (v, { c with buffer := rest })
  | [], ⟨due, some v⟩ :: rest => if due ≤ now then some (v, { c with late := rest }) else none
  | [], _ => none

/-- Waits at an empty buffer for a value. Once the last sender has left, the channel is closed. -/
def await (c : Channel) (now deadline : Instant) : List LateSender → Received × Channel × Instant
  | [] =>
    if c.senderOpen then (.timedOut, { c with late := [] }, deadline)
    else (.closed, { c with late := [] }, now)
  | ⟨due, value⟩ :: rest =>
    if due ≤ deadline then
      match value with
      | some v => (.value v, { c with late := rest }.settle due, due)
      | none => await c due deadline rest
    else (.timedOut, { c with late := ⟨due, value⟩ :: rest }, deadline)

/-- What a receiver sees that looks at `now` and goes on waiting until `deadline`, and the time at
which it sees it. A value that comes in at the deadline is still seen. -/
def receive (c : Channel) (now deadline : Instant) : Received × Channel × Instant :=
  let c := c.settle now
  match c.take? now with
  | some (v, c) => (.value v, c.settle now, now)
  | none => c.await now deadline c.late

/-- A bound on the values that are there or on their way. -/
def load (c : Channel) : Nat := c.buffer.length + c.late.length

def drainUpTo (deadline : Instant) : Nat → Channel → Instant → Received × Channel × Instant
  | 0, c, now => c.receive now deadline
  | more + 1, c, now =>
    match c.receive now deadline with
    | (.value _, c, now) => drainUpTo deadline more c now
    | r => r

def drain (c : Channel) (now deadline : Instant) : Received × Channel × Instant :=
  drainUpTo deadline c.load c now

end Channel

end Testkit
