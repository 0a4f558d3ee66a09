import Testkit.Sse.Event
import Testkit.Text.Numeral

/-! Reading an event stream: its lines, their fields, and the events that blank lines end. -/

namespace Testkit.SseReader

/-- The lines that are ended by a line feed, a carriage return or both. What follows the last line
end is not a line. -/
def linesFrom (line : List Char) : List Char → List (List Char)
  | [] => []
  | '\r' :: '\n' :: rest => line.reverse :: linesFrom [] rest
  | c :: rest =>
    if c = '\n' ∨ c = '\r' then line.reverse :: linesFrom [] rest else linesFrom (c :: line) rest

def lines (text : List Char) : List (List Char) := linesFrom [] text

/-- The name before the first colon, and the value after it less one space. -/
def field (line : List Char) : List Char × List Char :=
  let name := line.takeWhile (· ≠ ':')
  match line.dropWhile (· ≠ ':') with
  | ':' :: ' ' :: value => (name, value)
  | ':' :: value => (name, value)
  | value => (name, value)

/-- An event of which not all lines have been read. -/
structure Draft where
  id : List Char := []
  event : List Char := []
  data : Option (List Char) := none
  retryMillis : Nat := 0
deriving DecidableEq, Repr

namespace Draft

/-- Values of several data fields are joined by line feeds. -/
def addData (d : Draft) (value : List Char) : Draft :=
  { d with data := some (match d.data with
      | none => value
      | some before => before ++ '\n' :: value) }

def addField (d : Draft) (name value : List Char) : Draft :=
  if name = ['i', 'd'] then { d with id := value }
  else if name = ['e', 'v', 'e', 'n', 't'] then { d with event := value }
  else if name = ['d', 'a', 't', 'a'] then d.addData value
  else if name = ['r', 'e', 't', 'r', 'y'] then
    { d with retryMillis := (decimal? value).getD d.retryMillis }
  else d

def finish? (d : Draft) : Option SseEvent :=
  d.data.map fun data =>
    ⟨String.ofList d.id, String.ofList d.event, String.ofList data, d.retryMillis⟩

end Draft

def eventsFrom (d : Draft) : List (List Char) → List SseEvent
  | [] => []
  | [] :: rest => d.finish?.toList ++ eventsFrom {} rest
  | (':' :: _) :: rest => eventsFrom d rest
  | line :: rest => eventsFrom (d.addField (field line).1 (field line).2) rest

def events (text : String) : List SseEvent := eventsFrom {} (lines text.toList)

end Testkit.SseReader
