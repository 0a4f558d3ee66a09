import Testkit.Sse.Event
import Testkit.Stream.Endpoint

/-! An endpoint that is fed with events and comments: each is one chunk. -/

namespace Testkit

namespace Endpoint

/-- Each connection starts with the event, if there is one. -/
def ofEvent (initial : Option SseEvent) : Endpoint :=
  { initial := initial.map fun e => (SseItem.event e).chunk }

def enqueueItem (e : Endpoint) (i : SseItem) : Endpoint := e.enqueue i.chunk

def sendItem (e : Endpoint) (i : SseItem) : Endpoint := e.send i.chunk

end Endpoint

/-- The steps that an endpoint of an event stream is taken through. -/
inductive SseOp where
  | enqueue (i : SseItem)
  | send (i : SseItem)
  | endAll
  | beginClose
  | request (flush : Bool)
  | poll (id : Nat)
  | drop (id : Nat)
deriving DecidableEq, Repr

def Endpoint.stepItem (e : Endpoint) : SseOp → StreamReply × Endpoint × List StreamNotice
  | .enqueue i => (.done, e.enqueueItem i, [])
  | .send i => (.done, e.sendItem i, [])
  | .endAll => e.step .endAll
  | .beginClose => e.step .beginClose
  | .request flush => e.step (.request flush)
  | .poll id => e.step (.poll id)
  | .drop id => e.step (.drop id)

end Testkit
