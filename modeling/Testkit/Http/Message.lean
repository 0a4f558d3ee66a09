import Testkit.Http.Headers
import Testkit.Http.Uri

/-! Requests and responses as handlers see them. -/

namespace Testkit

inductive RequestError where
  | badMethod
  | badUri (e : UriError)
deriving DecidableEq, Repr

def RequestError.message : RequestError → String
  | .badMethod => "invalid HTTP method"
  | .badUri e => e.message

structure Request where
  method : String
  uri : Uri
  headers : Headers
  body : Bytes
  /-- Whether the transport writes out each chunk of the response at once. -/
  flush : Bool
deriving DecidableEq, Repr, Inhabited

def isMethodChar (c : Char) : Bool := c.isAlphanum || "!#$%&'*+-.^_`|~".toList.contains c

namespace Request

/-- What a recorder keeps of a request: not the transport that it came by. -/
def recorded (r : Request) : Request := { r with flush := false }

/-- The method is looked at before the target. -/
def make (method uri : String) (headers : Headers) (body : Bytes) : Except RequestError Request :=
  if method.toList = [] ∨ ¬ method.toList.all isMethodChar then .error .badMethod
  else
    match Uri.parse uri with
    | .error e => .error (.badUri e)
    | .ok uri => .ok ⟨method, uri, headers, body, false⟩

end Request

/-- The body of a response: chunks that are there and end in an error or not, or a connection of the
stream that the handler with the given number serves. -/
inductive ResponseBody where
  | chunks (cs : List Bytes) (failure : Option String)
  | live (handler : Nat) (connection : Nat)
deriving DecidableEq, Repr, Inhabited

/-- A body that is known in full has one chunk, or none if there is nothing in it. -/
def ResponseBody.ofBytes (b : Bytes) : ResponseBody := .chunks (if b.isEmpty then [] else [b]) none

structure Response where
  status : Nat
  headers : Headers
  body : ResponseBody
deriving DecidableEq, Repr, Inhabited

def Response.ofStatus (status : Nat) : Response := ⟨status, [], .chunks [] none⟩

end Testkit
