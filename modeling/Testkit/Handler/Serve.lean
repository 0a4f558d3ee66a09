import Testkit.Handler.Store

/-! How handlers answer requests. -/

namespace Testkit

inductive Served where
  | response (r : Response)
  | panicked (payload : Payload)
  | broke
  /-- There is no such handler, or the request is passed round in a circle for ever. -/
  | unanswered
deriving DecidableEq, Repr

def environmentHeader : String := "x-ld-envid"

def streamHeaders (contentType : Bytes) (environment : Option Bytes) : Headers :=
  [("content-type", contentType),
    ("cache-control", Bytes.ofText "no-cache, no-store, must-revalidate")] ++
    environment.toList.map fun v => (environmentHeader, v)

/-- The headers given replace those of the same name. -/
def jsonResponse (text : String) (headers : Headers) : Response :=
  ⟨200, (Headers.insert [] "content-type" (Bytes.ofText "application/json")).extend headers,
    .ofBytes (Bytes.ofText text)⟩

def echoResponse (r : Request) : Response :=
  ⟨200, r.headers.filter (fun h => ['x', '-'].isPrefixOf h.1.toList),
    .ofBytes (Bytes.ofText (r.method ++ " " ++ r.uri.text ++ "\n") ++ r.body)⟩

def advance {n : Nat} (i : Fin (n + 1)) : Fin (n + 1) :=
  if h : i.val < n then ⟨i.val + 1, Nat.succ_lt_succ h⟩ else i

namespace Store

/-- Serves a request. The fuel bounds how many handlers it comes to, counted as often as it does. -/
def serveFor : Nat → HandlerId → Request → Store → Served × Store
  | 0, _, _, s => (.unanswered, s)
  | fuel + 1, id, request, s =>
    match s.handlers[id]? with
    | none => (.unanswered, s)
    | some (.fixed response) => (.response response, s)
    | some (.json (.ok value) headers) => (.response (jsonResponse value.compact headers), s)
    | some (.json (.error e) _) => (.response (.ofStatus 500), s.notify (.notEncoded e))
    | some (.sequential first rest next) =>
      serveFor fuel ((first :: rest).get next) request
        ((s.set id (.sequential first rest (advance next))).notify (.dispatching next))
    | some (.delegating current) => serveFor fuel current request s
    | some (.recording inner records heard) =>
      serveFor fuel inner request
        (if heard then s.set id (.recording inner (records ++ [request.recorded]) heard) else s)
    | some .broken => (.broke, s.notify .breaking)
    | some (.panicking payload) => (.panicked payload, s)
    | some .echo => (.response (echoResponse request), s)
    | some .flushProbe =>
      (.response ⟨200, [], .ofBytes (Bytes.ofText (toString request.flush))⟩, s)
    | some (.swapping target next status) =>
      (.response (.ofStatus status),
        match s.delegating? target with
        | some d => s.delegateTo d next
        | none => s)
    | some (.stream e contentType environment) =>
      match e.request request.flush with
      | (none, e, ns) =>
        (.response (.ofStatus 500), (s.set id (.stream e contentType environment)).notifyAll ns)
      | (some connection, e, ns) =>
        (.response ⟨200, streamHeaders contentType environment, .live id connection⟩,
          (s.set id (.stream e contentType environment)).notifyAll ns)

/-- How often a request can be passed on unless it goes round in a circle for ever: until a handler
takes its next turn, the request comes to each handler once at most. -/
def longestWay (s : Store) : Nat :=
  s.handlers.length * s.handlers.foldl (fun n h => n + h.turnsLeft) 1

def serve (s : Store) (id : HandlerId) (request : Request) : Served × Store :=
  serveFor s.longestWay id request s

def poll (s : Store) : ResponseBody → Polled × ResponseBody × Store
  | .chunks (c :: cs) failure => (.chunk c, .chunks cs failure, s)
  | .chunks [] (some message) => (.failed message, .chunks [] none, s)
  | .chunks [] none => (.ended, .chunks [] none, s)
  | .live id connection =>
    match s.handlers[id]? with
    | some (.stream e contentType environment) =>
      let (p, e) := e.poll connection
      (p, .live id connection, s.set id (.stream e contentType environment))
    | _ => (.gone, .live id connection, s)

/-- Drops a body. The connection of a stream is over with it. -/
def dropBody (s : Store) : ResponseBody → Store
  | .chunks _ _ => s
  | .live id connection => s.onEndpoint id (·.drop connection)

/-- How many chunks a body can still give without anything being sent. -/
def available (s : Store) : ResponseBody → Nat
  | .chunks cs _ => cs.length
  | .live id connection =>
    match s.handlers[id]? with
    | some (.stream e _ _) => (e.body? connection).elim 0 fun b => b.head.length + b.live.length
    | _ => 0

def drainFor : Nat → ResponseBody → Store → List Bytes × Polled × ResponseBody × Store
  | 0, body, s => ([], s.poll body)
  | n + 1, body, s =>
    match s.poll body with
    | (.chunk c, body, s) =>
      let (cs, r) := drainFor n body s
      (c :: cs, r)
    | r => ([], r)

def drain (s : Store) (body : ResponseBody) : List Bytes × Polled × ResponseBody × Store :=
  drainFor (s.available body) body s

end Store

end Testkit
