import Testkit.Bench.Basic

/-! What is done on a bench, step by step, and what comes of it. -/

namespace Testkit

inductive BenchStep where
  | send (r : RequestSpec)
  /-- A request straight to a handler, of which the body stays open. -/
  | openBody (handler : Option String) (flush : Bool) (r : RequestSpec)
  | poll (body : Nat)
  | drain (body : Nat)
  | collect (body : Nat)
  | dropBody (body : Nat)
  | enqueue (stream : String) (feed : Feed)
  | push (stream : String) (feed : Feed)
  | endAll (stream : String)
  | close (stream : String)
  | setDelegate (handler : String) (spec : HandlerSpec)
  | build (spec : HandlerSpec)
  | recorded (handler : String)
  | dropReceiver (handler : String)
  | dropHandlers
  | describe (handler : String)
  | describeClient
  | serve (address : SocketAddress)
  | stop
  | fetch
  | readSocket
  /-- Requests to a server that runs only for them, and possibly a panic after them. -/
  | withServer (requests : Nat) (panics : Bool)

inductive Missing where
  | handler | stream | recorder | body | server | socket
deriving DecidableEq, Repr

inductive StepResult where
  | nothing
  | answered (a : Answer)
  | clientError (e : ClientError)
  | opened (status : Nat) (headers : Headers) (body : Nat)
  | unwound (payload : Option Payload)
  | polled (p : Polled)
  | drained (chunks : List Bytes) (last : Polled)
  | collected (chunks : List Bytes) (failed : Bool)
  | dropped (wasThere : Bool)
  | recorded (requests : List Request) (closed : Bool)
  | receiverDropped
  | buildError (e : BuildError)
  | described (text : String)
  | listening (address : SocketAddress)
  | bindError (e : BindError)
  /-- Nobody answers at the server's address. -/
  | refused
  | aroundServer (requests : Nat) (panicked : Bool)
  | missing (what : Missing)

namespace Bench

def send (b : Bench) (r : RequestSpec) : StepResult × Bench :=
  match b.client with
  | none => (.missing .handler, b)
  | some id =>
    match r.make with
    | .error e => (.clientError (.invalidRequest e), b)
    | .ok request =>
      match b.store.send id request with
      | (.ok a, store) => (.answered a, { b with store })
      | (.error e, store) => (.clientError e, { b with store })

def openBody (b : Bench) (handler : Option String) (flush : Bool) (r : RequestSpec) :
    StepResult × Bench :=
  match handler.elim b.main (b.store.named? ·) with
  | none => (.missing .handler, b)
  | some id =>
    match r.make with
    | .error e => (.clientError (.invalidRequest e), b)
    | .ok request =>
      match b.store.serve id { request with flush } with
      | (.response r, store) =>
        (.opened r.status r.headers b.bodies.length,
          { b with store, bodies := b.bodies ++ [some r.body] })
      | (.panicked payload, store) => (.unwound (some payload), { b with store })
      | (.broke, store) => (.unwound none, { b with store })
      | (.unanswered, store) => (.clientError .unanswered, { b with store })

def onBody (b : Bench) (i : Nat) (gone : StepResult)
    (f : ResponseBody → StepResult × Option ResponseBody × Store) : StepResult × Bench :=
  match b.bodies[i]? with
  | none => (.missing .body, b)
  | some none => (gone, b)
  | some (some body) =>
    let (r, body, store) := f body
    (r, { b with store }.setBody i body)

def collect (s : Store) (body : ResponseBody) : StepResult × Store :=
  match s.drain body with
  | (cs, .failed _, body, s) => (.collected cs true, s.dropBody body)
  | (cs, _, body, s) => (.collected cs false, s.dropBody body)

def onStream (b : Bench) (name : String) (f : Endpoint → Endpoint × List StreamNotice) :
    StepResult × Bench :=
  match b.store.control? Handler.isStream name with
  | none => (.missing .stream, b)
  | some id => (.nothing, { b with store := b.store.onEndpoint id f })

def buildThen (b : Bench) (spec : HandlerSpec) (f : HandlerId → Store → StepResult × Store) :
    StepResult × Bench :=
  match spec.build b.store with
  | (.ok id, store) => let (r, store) := f id store; (r, { b with store })
  | (.error e, store) => (.buildError e, { b with store })

/-- The name is looked up once the new handler is built, which may have taken the name itself. -/
def setDelegate (b : Bench) (name : String) (spec : HandlerSpec) : StepResult × Bench :=
  b.buildThen spec fun id s =>
    match s.delegating? name with
    | none => (.missing .handler, s)
    | some d => (.nothing, s.delegateTo d id)

def onRecorder (b : Bench) (name : String)
    (f : HandlerId → List Request → Bool → StepResult × List Request × Bool) : StepResult × Bench :=
  match b.store.control? Handler.isRecording name with
  | none => (.missing .recorder, b)
  | some id =>
    match b.store.handlers[id]? with
    | some (.recording inner records heard) =>
      let (r, records, heard) := f id records heard
      (r, { b with store := b.store.set id (.recording inner records heard) })
    | _ => (.missing .recorder, b)

def describe (b : Bench) (name : String) : StepResult :=
  match ((b.store.described? name).bind (b.store.handlers[·]?)).bind Handler.describe? with
  | some text => .described text
  | none => .missing .handler

def describeClient (b : Bench) : String :=
  b.client.elim "None" fun _ => "Some(HandlerClient \x7b .. \x7d)"

def serve (b : Bench) (address : SocketAddress) : StepResult × Bench :=
  match b.main with
  | none => (.missing .handler, b)
  | some id =>
    match Server.start b.server address id with
    | .ok server =>
      (.listening server.address, { b with server := some server, address := some server.address })
    | .error e => (.bindError e, b)

def fetch (b : Bench) : StepResult := b.address.elim (.missing .server) fun _ => .refused

/-- A server just for some requests needs a handler as any other does. -/
def withServer (b : Bench) (requests : Nat) (panics : Bool) : StepResult :=
  b.main.elim (.missing .handler) fun _ => .aroundServer requests panics

def step (b : Bench) : BenchStep → StepResult × Bench
  | .send r => b.send r
  | .openBody handler flush r => b.openBody handler flush r
  | .poll i => b.onBody i (.polled .gone) fun body =>
    let (p, body, s) := b.store.poll body
    (.polled p, some body, s)
  | .drain i => b.onBody i (.drained [] .gone) fun body =>
    let (cs, p, body, s) := b.store.drain body
    (.drained cs p, some body, s)
  | .collect i => b.onBody i (.polled .gone) fun body =>
    let (r, s) := collect b.store body
    (r, none, s)
  | .dropBody i => b.onBody i (.dropped false) fun body =>
    (.dropped true, none, b.store.dropBody body)
  | .enqueue name feed => b.onStream name fun e => (feed.enqueue e, [])
  | .push name feed => b.onStream name fun e => (feed.send e, [])
  | .endAll name => b.onStream name (·.endAll)
  | .close name => b.onStream name (·.close)
  | .setDelegate name spec => b.setDelegate name spec
  | .build spec => b.buildThen spec fun _ s => (.nothing, s)
  | .recorded name => b.onRecorder name fun id records heard =>
    (.recorded records (!(b.store.inUse b.roots).contains id), [], heard)
  | .dropReceiver name => b.onRecorder name fun _ _ _ => (.receiverDropped, [], false)
  | .dropHandlers =>
    (.nothing, { b with main := none, client := none, store := { b.store with names := [] } })
  | .describe name => (b.describe name, b)
  | .describeClient => (.described b.describeClient, b)
  | .serve address => b.serve address
  | .stop => (.nothing, { b with server := none })
  | .fetch => (b.fetch, b)
  | .readSocket => (.missing .socket, b)
  | .withServer requests panics => (b.withServer requests panics, b)

/-- Takes all steps. Each result comes with what was logged during the step. -/
def run : List BenchStep → Bench → List (StepResult × List HandlerNotice)
  | [], _ => []
  | step :: rest, b =>
    let (r, b) := { b with store := { b.store with log := [] } }.step step
    (r, b.store.log) :: run rest b

end Bench

end Testkit
