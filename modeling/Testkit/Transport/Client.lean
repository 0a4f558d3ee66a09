import Testkit.Handler.Serve

/-! A client that hands requests straight to a handler and reads the whole response. It does not
flush chunks as they come. -/

namespace Testkit

inductive ClientError where
  | invalidRequest (e : RequestError)
  | handlerPanicked (payload : Payload)
  | connectionBroken
  | body (message : String)
  | unanswered
deriving DecidableEq, Repr

namespace ClientError

def payloadText : Payload → String
  | .text message => message
  | .code _ => "(non-string panic payload)"

def message : ClientError → String
  | .invalidRequest _ => "error building request"
  | .handlerPanicked payload => "handler panicked: " ++ payloadText payload
  | .connectionBroken => "connection was broken by the handler"
  | .body _ => "error reading response body"
  | .unanswered => "handlers delegate to each other in a circle"

/-- The error behind the error. -/
def source? : ClientError → Option String
  | .invalidRequest e => some e.message
  | .body message => some message
  | _ => none

end ClientError

structure Answer where
  status : Nat
  headers : Headers
  body : Bytes
deriving DecidableEq, Repr

namespace Store

def readBody (s : Store) (body : ResponseBody) : Except String Bytes × Store :=
  match s.drain body with
  | (_, .failed message, body, s) => (.error message, s.dropBody body)
  | (cs, _, body, s) => (.ok cs.flatten, s.dropBody body)

/-- Sends a request through the client. Whatever happens in the handler comes back as a value. -/
def send (s : Store) (id : HandlerId) (request : Request) : Except ClientError Answer × Store :=
  match s.serve id { request with flush := false } with
  | (.response r, s) =>
    match s.readBody r.body with
    | (.ok body, s) => (.ok ⟨r.status, r.headers, body⟩, s)
    | (.error message, s) => (.error (.body message), s)
  | (.panicked payload, s) => (.error (.handlerPanicked payload), s)
  | (.broke, s) => (.error .connectionBroken, s.notify .brokenForClient)
  | (.unanswered, s) => (.error .unanswered, s)

end Store

end Testkit
