import Testkit.Bytes
import Testkit.Text.Quoted

/-! Events and comments of an event stream, and the text that carries them. -/

namespace Testkit

/-- A field that is empty, or zero, is not sent, except for the data. -/
structure SseEvent where
  id : String := ""
  event : String := ""
  data : String := ""
  retryMillis : Nat := 0
deriving DecidableEq, Repr, Inhabited

namespace SseEvent

def line (name value : String) : String := name ++ ": " ++ value ++ "\n"

def text (e : SseEvent) : String :=
  (if e.id = "" then "" else line "id" e.id) ++
  (if e.event = "" then "" else line "event" e.event) ++
  (if e.retryMillis = 0 then "" else line "retry" (toString e.retryMillis)) ++
  line "data" e.data ++ "\n"

def describe (e : SseEvent) : String :=
  "SseEvent \x7b id: " ++ quote e.id ++ ", event: " ++ quote e.event ++ ", data: " ++
    quote e.data ++ ", retry_millis: " ++ toString e.retryMillis ++ " \x7d"

end SseEvent

inductive SseItem where
  | event (e : SseEvent)
  | comment (c : String)
deriving DecidableEq, Repr

namespace SseItem

def text : SseItem → String
  | .event e => e.text
  | .comment c => ":" ++ c ++ "\n"

def chunk (i : SseItem) : Bytes := Bytes.ofText i.text

end SseItem

def sseContentType : String := "text/event-stream; charset=utf-8"

end Testkit
