import Testkit.Bytes
import Testkit.Log.Record

/-! A streaming endpoint: the connections it has, the chunks that wait for one, and the body of each
connection, from which chunks are taken one at a time. -/

namespace Testkit

structure Registry where
  registered : List Nat := []
  nextId : Nat := 0
  /-- What the next connection gets first. -/
  pending : List Bytes := []
  closed : Bool := false
deriving DecidableEq, Repr, Inhabited

/-- What a connection still has to yield: what it was given on admission, and what came since. -/
structure StreamBody where
  id : Nat
  head : List Bytes
  live : List Bytes
deriving DecidableEq, Repr, Inhabited

def StreamBody.next? (b : StreamBody) : Option (Bytes × StreamBody) :=
  match b.head, b.live with
  | c :: head, _ => some (c, { b with head })
  | [], c :: live => some (c, { b with live })
  | [], [] => none

structure Endpoint where
  initial : Option Bytes := none
  registry : Registry := {}
  bodies : List StreamBody := []
deriving DecidableEq, Repr, Inhabited

inductive StreamNotice where
  | admitted (id pending : Nat)
  | removed (id : Nat)
  | ending (count : Nat)
  | closing
  | noFlush
  | afterClose
deriving DecidableEq, Repr

def StreamNotice.record (n : StreamNotice) : LogRecord :=
  let target := "httphelpers::streaming"
  match n with
  | .admitted id pending =>
    ⟨.debug, target, "stream connection admitted",
      [("id", toString id), ("pending", toString pending)]⟩
  | .removed id => ⟨.debug, target, "stream connection removed", [("id", toString id)]⟩
  | .ending count => ⟨.debug, target, "ending stream connections", [("count", toString count)]⟩
  | .closing => ⟨.debug, target, "closing stream", []⟩
  | .noFlush =>
    ⟨.warn, target, "stream handler used with a transport that can't flush incrementally", []⟩
  | .afterClose => ⟨.warn, target, "stream handler received a request after it was closed", []⟩

inductive Polled where
  | chunk (b : Bytes)
  | pending
  | ended
  | failed (message : String)
  | gone
deriving DecidableEq, Repr

namespace Endpoint

def isRegistered (e : Endpoint) (id : Nat) : Bool := e.registry.registered.contains id

def broadcast (e : Endpoint) (chunk : Bytes) : Endpoint :=
  { e with bodies := e.bodies.map fun b =>
      if e.isRegistered b.id then { b with live := b.live ++ [chunk] } else b }

/-- Gives a chunk to every connection. If there is none it waits for one, or is lost. An empty chunk
would end a response, so it is ignored. -/
def deliver (e : Endpoint) (chunk : Bytes) (queue : Bool) : Endpoint :=
  if chunk.isEmpty || e.registry.closed then e
  else if e.registry.registered.isEmpty then
    if queue then { e with registry.pending := e.registry.pending ++ [chunk] } else e
  else e.broadcast chunk

def enqueue (e : Endpoint) (chunk : Bytes) : Endpoint := e.deliver chunk true

def send (e : Endpoint) (chunk : Bytes) : Endpoint := e.deliver chunk false

/-- Ends all connections. What they have got they still yield. -/
def endAll (e : Endpoint) : Endpoint × List StreamNotice :=
  ({ e with registry := { e.registry with registered := [] } },
    if e.registry.registered.isEmpty then [] else [.ending e.registry.registered.length])

/-- The first half of closing: nothing is admitted or delivered any more. -/
def beginClose (e : Endpoint) : Endpoint :=
  { e with registry := { e.registry with closed := true, pending := [] } }

def close (e : Endpoint) : Endpoint × List StreamNotice :=
  let (e, notices) := e.beginClose.endAll
  (e, .closing :: notices)

def headOf (initial : Option Bytes) (pending : List Bytes) : List Bytes :=
  (initial.toList ++ pending).filter (!·.isEmpty)

/-- Admits a connection, unless it is too late or the transport would keep the chunks back. -/
def request (e : Endpoint) (flush : Bool) : Option Nat × Endpoint × List StreamNotice :=
  if !flush then (none, e, [.noFlush])
  else if e.registry.closed then (none, e, [.afterClose])
  else
    let r := e.registry
    (some r.nextId,
      { e with
        registry := { r with
          registered := r.registered ++ [r.nextId]
          nextId := r.nextId + 1
          pending := [] }
        bodies := e.bodies ++ [⟨r.nextId, headOf e.initial r.pending, []⟩] },
      [.admitted r.nextId r.pending.length])

def body? (e : Endpoint) (id : Nat) : Option StreamBody := e.bodies.find? (·.id = id)

def setBody (e : Endpoint) (body : StreamBody) : Endpoint :=
  { e with bodies := e.bodies.map fun b => if b.id = body.id then body else b }

/-- A body ends once its connection has ended and everything was taken. -/
def poll (e : Endpoint) (id : Nat) : Polled × Endpoint :=
  match e.body? id with
  | none => (.gone, e)
  | some b =>
    match b.next? with
    | some (c, b) => (.chunk c, e.setBody b)
    | none => (if e.isRegistered id then .pending else .ended, e)

def drop (e : Endpoint) (id : Nat) : Endpoint × List StreamNotice :=
  if (e.body? id).isSome then
    ({ e with
        registry := { e.registry with registered := e.registry.registered.erase id }
        bodies := e.bodies.filter (·.id ≠ id) },
      if e.isRegistered id then [.removed id] else [])
  else (e, [])

end Endpoint

/-- The steps that an endpoint is taken through. Each is done as a whole; closing takes two, the
second of which is ending all connections. -/
inductive StreamOp where
  | enqueue (chunk : Bytes)
  | send (chunk : Bytes)
  | endAll
  | beginClose
  | request (flush : Bool)
  | poll (id : Nat)
  | drop (id : Nat)
deriving DecidableEq, Repr

inductive StreamReply where
  | done
  | refused
  | admitted (id : Nat)
  | polled (p : Polled)
deriving DecidableEq, Repr

def Endpoint.step (e : Endpoint) : StreamOp → StreamReply × Endpoint × List StreamNotice
  | .enqueue chunk => (.done, e.enqueue chunk, [])
  | .send chunk => (.done, e.send chunk, [])
  | .endAll => (.done, e.endAll)
  | .beginClose => (.done, e.beginClose, [])
  | .request flush =>
    match e.request flush with
    | (none, r) => (.refused, r)
    | (some id, r) => (.admitted id, r)
  | .poll id => match e.poll id with
    | (p, e) => (.polled p, e, [])
  | .drop id => (.done, e.drop id)

end Testkit
