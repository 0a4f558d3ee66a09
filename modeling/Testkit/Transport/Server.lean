import Testkit.Handler.Serve
import Testkit.Transport.Address

/-! A server: where it listens, and how it answers a request that has reached it. -/

namespace Testkit

/-- A machine without a network can be listened at under any short address, but it has no long one
of its own. -/
def Host.isOpen (h : Host) : Bool := h.isUnspecified || h.short?.isSome

/-- The ports below 1024 are kept for the services of the system. -/
def SocketAddress.isOpen (a : SocketAddress) : Bool :=
  a.host.isOpen && (a.port = 0 || 1024 ≤ a.port)

structure BindError where
  address : SocketAddress
deriving DecidableEq, Repr

def BindError.message (e : BindError) : String :=
  "error binding test server to " ++ e.address.text

structure Server where
  address : SocketAddress
  handler : HandlerId
deriving DecidableEq, Repr

/-- A server that is already running keeps its address to itself. -/
def Server.start (running : Option Server) (address : SocketAddress) (handler : HandlerId) :
    Except BindError Server :=
  if address.isOpen && !running.any (·.address.clashes address) then
    .ok ⟨⟨address.host.unscoped, address.port⟩, handler⟩
  else .error ⟨address⟩

/-- Serves a request that came over a connection; without a response the connection is dropped. Each
chunk of the response is written out at once. -/
def Store.respond (s : Store) (id : HandlerId) (request : Request) : Option Response × Store :=
  match s.serve id { request with flush := true } with
  | (.response r, s) => (some r, s)
  | (_, s) => (none, s)

end Testkit
