import Testkit.Handler.Serve
import Testkit.Sse.Event

/-! Descriptions of handlers, and how they are built: what a handler passes requests to is built
before it. -/

namespace Testkit

structure StreamSettings where
  contentType : String
  initial : Option Bytes := none
  environment : Option String := none
deriving DecidableEq, Repr, Inhabited

namespace StreamSettings

/-- An event stream that starts with an event or not. -/
def ofEvents (initial : Option SseEvent) (environment : Option String) : StreamSettings :=
  ⟨sseContentType, initial.map fun e => (SseItem.event e).chunk, environment⟩

def update (s : StreamSettings) (initial : Option Bytes) (environment : Option String) :
    StreamSettings :=
  ⟨s.contentType, initial.or s.initial, environment.or s.environment⟩

/-- The content type is looked at first. -/
def build (s : StreamSettings) : Except HeaderError Handler := do
  let contentType ← headerValue "content-type" s.contentType
  let environment ← s.environment.mapM (headerValue environmentHeader)
  return .stream { initial := s.initial } contentType environment

end StreamSettings

inductive HandlerSpec where
  | status (status : Nat)
  | response (status : Nat) (headers : Headers) (body : Bytes)
  /-- A value, or the message of why it has no JSON text. -/
  | json (value : Except String Json) (headers : Headers)
  | sequential (first : HandlerSpec) (rest : List HandlerSpec)
  | delegating (inner : HandlerSpec)
  | recording (inner : HandlerSpec)
  | broken
  | panicking (payload : Payload)
  | echo
  | flushProbe
  | chunks (cs : List Bytes) (failure : Option String)
  | swapping (target : String) (next : HandlerSpec) (status : Nat)
  | shared (name : String)
  /-- A handler in a box, which only passes requests on. -/
  | boxed (inner : HandlerSpec)
  | stream (settings : StreamSettings)
  /-- Another stream handler with the settings of the one called `name` and further ones. -/
  | again (name : String) (initial : Option Bytes) (environment : Option String)
  | named (name : String) (spec : HandlerSpec)
deriving Inhabited

inductive BuildError where
  | header (e : HeaderError)
  | unknownName (name : String)
deriving DecidableEq, Repr

def Handler.settings? : Handler → Option StreamSettings
  | .stream e contentType environment => do
    let contentType ← contentType.text?
    return ⟨contentType, e.initial, environment.bind (·.text?)⟩
  | _ => none

namespace HandlerSpec

abbrev Build (α : Type) := Store → Except BuildError α × Store

def place (h : Handler) : Build HandlerId := fun s =>
  let (id, s) := s.add h
  (.ok id, s)

def placeStream (settings : StreamSettings) : Build HandlerId := fun s =>
  match settings.build with
  | .ok h => place h s
  | .error e => (.error (.header e), s)

/-- Whether a name for it is the handler's own name. -/
def isOwn : HandlerSpec → Bool
  | .shared _ | .boxed _ | .named _ _ => false
  | _ => true

def after (first : Build α) (next : α → Build β) : Build β := fun s =>
  match first s with
  | (.ok a, s) => next a s
  | (.error e, s) => (.error e, s)

mutual

def build : HandlerSpec → Build HandlerId
  | .status code => place (.fixed (.ofStatus code))
  | .response code headers body => place (.fixed ⟨code, headers, .ofBytes body⟩)
  | .json value headers => place (.json (value.mapError .ofText) headers)
  | .sequential first rest =>
    after (build first) fun a =>
      after (buildAll rest) fun bs => place (.sequential a bs ⟨0, Nat.succ_pos _⟩)
  | .delegating inner => after (build inner) fun a => place (.delegating a)
  | .recording inner => after (build inner) fun a => place (.recording a [] true)
  | .broken => place .broken
  | .panicking payload => place (.panicking payload)
  | .echo => place .echo
  | .flushProbe => place .flushProbe
  | .chunks cs failure => place (.fixed ⟨200, [], ResponseBody.chunks cs failure⟩)
  | .swapping target next code => after (build next) fun a => place (.swapping target a code)
  | .boxed inner => build inner
  | .shared name => fun s =>
    match s.named? name with
    | some id => (.ok id, s)
    | none => (.error (.unknownName name), s)
  | .stream settings => placeStream settings
  | .again name initial environment => fun s =>
    match ((s.control? Handler.isStream name).bind (s.handlers[·]?)).bind Handler.settings? with
    | some settings => placeStream (settings.update initial environment) s
    | none => (.error (.unknownName name), s)
  | .named name spec => after (build spec) fun id s => (.ok id, s.setName ⟨name, id, spec.isOwn⟩)

def buildAll : List HandlerSpec → Build (List HandlerId)
  | [] => fun s => (.ok [], s)
  | spec :: rest =>
    after (build spec) fun id => after (buildAll rest) fun ids s => (.ok (id :: ids), s)

end

end HandlerSpec

end Testkit
