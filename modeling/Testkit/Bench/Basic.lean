import Testkit.Handler.Build
import Testkit.Sse.Endpoint
import Testkit.Transport.Client
import Testkit.Transport.Server

/-! A bench for handlers: a main handler with a client, whatever else has been built, the bodies of
the responses that are still open, and a server that may be running. The bench has no network, so
that a server can listen but nobody reaches it. -/

namespace Testkit

structure RequestSpec where
  method : String := "GET"
  uri : String := "/"
  headers : Headers := []
  body : Bytes := []
deriving DecidableEq, Repr, Inhabited

def RequestSpec.make (r : RequestSpec) : Except RequestError Request :=
  Request.make r.method r.uri r.headers r.body

inductive Feed where
  | bytes (b : Bytes)
  | item (i : SseItem)
deriving Repr

namespace Feed

def enqueue : Feed → Endpoint → Endpoint
  | .bytes b, e => e.enqueue b
  | .item i, e => e.enqueueItem i

def send : Feed → Endpoint → Endpoint
  | .bytes b, e => e.send b
  | .item i, e => e.sendItem i

end Feed

structure Bench where
  store : Store
  main : Option HandlerId
  client : Option HandlerId
  /-- The bodies in the order they were opened; those that are gone have left their place empty. -/
  bodies : List (Option ResponseBody) := []
  server : Option Server := none
  /-- Where the latest server listens, or did before it was stopped. -/
  address : Option SocketAddress := none
deriving Inhabited

namespace Bench

def build (spec : HandlerSpec) : Except BuildError Bench :=
  match spec.build {} with
  | (.ok id, store) => .ok { store, main := some id, client := some id }
  | (.error e, _) => .error e

/-- The handlers that are held by the bench itself. -/
def roots (b : Bench) : List HandlerId :=
  b.main.toList ++ b.client.toList ++ b.store.holdings ++
    (b.server.map (·.handler)).toList

def body? (b : Bench) (i : Nat) : Option ResponseBody := b.bodies[i]?.join

def setBody (b : Bench) (i : Nat) (body : Option ResponseBody) : Bench :=
  { b with bodies := b.bodies.set i body }

end Bench

end Testkit
