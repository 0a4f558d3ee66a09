import Testkit.Http.Message
import Testkit.Json.EncodingError
import Testkit.Json.Printer
import Testkit.Report.Ending
import Testkit.Stream.Endpoint

/-! Handlers, kept in a store so that they can be shared: each is known by its number, and what it
remembers is in its place. -/

namespace Testkit

abbrev HandlerId := Nat

inductive Handler where
  | fixed (response : Response)
  | json (value : Except EncodingError Json) (headers : Headers)
  /-- One handler for each request, and the last for all further ones. -/
  | sequential (first : HandlerId) (rest : List HandlerId) (next : Fin (rest.length + 1))
  | delegating (current : HandlerId)
  /-- Keeps the requests that were not yet asked for, while there is somebody to ask for them. -/
  | recording (inner : HandlerId) (records : List Request) (heard : Bool)
  | broken
  | panicking (payload : Payload)
  | echo
  /-- Answers whether the transport flushes each chunk. -/
  | flushProbe
  /-- Replaces the handler that the one called `target` delegates to. -/
  | swapping (target : String) (next : HandlerId) (status : Nat)
  | stream (endpoint : Endpoint) (contentType : Bytes) (environment : Option Bytes)
deriving Inhabited

inductive HandlerNotice where
  | dispatching (index : Nat)
  | breaking
  | notEncoded (e : EncodingError)
  | brokenForClient
  | stream (n : StreamNotice)
deriving DecidableEq, Repr

def HandlerNotice.record : HandlerNotice → LogRecord
  | .dispatching index =>
    ⟨.debug, "httphelpers::handler", "sequential handler dispatching request",
      [("index", toString index)]⟩
  | .breaking => ⟨.debug, "httphelpers::handler", "breaking connection", []⟩
  | .notEncoded e =>
    ⟨.warn, "httphelpers::handler", "error encoding JSON response", [("error", e.text)]⟩
  | .brokenForClient => ⟨.debug, "httphelpers::client", "handler broke the connection", []⟩
  | .stream n => n.record

structure Naming where
  name : String
  handler : HandlerId
  /-- The handler was built under this name: it is not just a further name of the handler. -/
  own : Bool
deriving DecidableEq, Repr

structure Store where
  handlers : List Handler := []
  /-- The names by which handlers can be asked for, the latest first. An earlier handler built under
  a name still answers to it for what those built under it later are not able to do. -/
  names : List Naming := []
  /-- The names under which streams are fed and records are asked for, the latest first. They
  outlive those above. -/
  controls : List Naming := []
  log : List HandlerNotice := []
deriving Inhabited

namespace Store

def add (s : Store) (h : Handler) : HandlerId × Store :=
  (s.handlers.length, { s with handlers := s.handlers ++ [h] })

def set (s : Store) (id : HandlerId) (h : Handler) : Store :=
  { s with handlers := s.handlers.set id h }

def notify (s : Store) (n : HandlerNotice) : Store := { s with log := s.log ++ [n] }

def notifyAll (s : Store) (ns : List StreamNotice) : Store :=
  { s with log := s.log ++ ns.map .stream }

def setName (s : Store) (n : Naming) : Store :=
  { s with names := n :: s.names, controls := n :: s.controls }

def delegateTo (s : Store) (id next : HandlerId) : Store :=
  match s.handlers[id]? with
  | some (.delegating _) => s.set id (.delegating next)
  | _ => s

def onEndpoint (s : Store) (id : HandlerId) (f : Endpoint → Endpoint × List StreamNotice) : Store :=
  match s.handlers[id]? with
  | some (.stream e contentType environment) =>
    let (e, ns) := f e
    (s.set id (.stream e contentType environment)).notifyAll ns
  | _ => s

end Store

namespace Handler

/-- The handlers that a handler may pass requests to. -/
def delegates : Handler → List HandlerId
  | .sequential first rest _ => first :: rest
  | .delegating current => [current]
  | .recording inner _ _ => [inner]
  | .swapping _ next _ => [next]
  | _ => []

/-- How often a handler can still come to pass requests to another one than before. -/
def turnsLeft : Handler → Nat
  | .sequential _ rest next => rest.length - next
  | _ => 0

def isDelegating : Handler → Bool
  | .delegating _ => true
  | _ => false

def isStream : Handler → Bool
  | .stream .. => true
  | _ => false

def isRecording : Handler → Bool
  | .recording .. => true
  | _ => false

def describe? : Handler → Option String
  | .sequential _ rest next =>
    some ("SequentialHandler \x7b handlers: " ++ toString (rest.length + 1) ++ ", next: " ++
      toString next.val ++ " \x7d")
  | .recording _ records _ =>
    some ("RecordingHandler \x7b recorded: " ++ toString records.length ++ ", .. \x7d")
  | .delegating _ => some "DelegatingHandler \x7b .. \x7d"
  | .echo => some "FnHandler \x7b .. \x7d"
  | _ => none

end Handler

namespace Store

def find? (s : Store) (names : List Naming) (kind : Handler → Bool) (name : String) :
    Option HandlerId :=
  (names.find? fun n => n.own && n.name = name && (s.handlers[n.handler]?).any kind).map (·.handler)

def named? (s : Store) (name : String) : Option HandlerId :=
  (s.names.find? (·.name = name)).map (·.handler)

/-- The handler of that name whose requests can be sent somewhere else. -/
def delegating? (s : Store) (name : String) : Option HandlerId :=
  s.find? s.names Handler.isDelegating name

def described? (s : Store) (name : String) : Option HandlerId :=
  s.find? s.names (·.describe?.isSome) name

/-- The latest handler of that name and kind, even if it cannot be asked for any more. -/
def control? (s : Store) (kind : Handler → Bool) (name : String) : Option HandlerId :=
  s.find? s.controls kind name

/-- The handlers that names stand for. -/
def holdings (s : Store) : List HandlerId :=
  s.names.flatMap fun n =>
    (s.named? n.name).toList ++ (s.delegating? n.name).toList ++ (s.described? n.name).toList

/-- Those of some handlers that are held, either from outside or by one of them. -/
def held (s : Store) (roots ids : List HandlerId) : List HandlerId :=
  ids.filter fun id =>
    roots.contains id ||
      ids.any fun i => ((s.handlers[i]?).elim [] Handler.delegates).contains id

def heldFor (s : Store) (roots : List HandlerId) : Nat → List HandlerId → List HandlerId
  | 0, ids => ids
  | n + 1, ids => s.heldFor roots n (s.held roots ids)

/-- The handlers that are in use while the roots are: all that is held by a root or by another that
is in use. Handlers that hold each other in a circle stay in use for good. -/
def inUse (s : Store) (roots : List HandlerId) : List HandlerId :=
  s.heldFor roots s.handlers.length (List.range s.handlers.length)

end Store

end Testkit
