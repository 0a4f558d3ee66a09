import Testkit.Bytes
import Testkit.Text.Quoted

/-! Headers: names in small letters, each with one or more values in the order they were added. -/

namespace Testkit

abbrev Headers := List (String × Bytes)

/-- A name with its values, of which there is at least one. -/
structure HeaderField where
  name : String
  first : Bytes
  further : List Bytes := []
deriving DecidableEq, Repr

def HeaderField.values (f : HeaderField) : List Bytes := f.first :: f.further

namespace Headers

def values (h : Headers) (name : String) : List Bytes := (h.filter (·.1 = name)).map (·.2)

def append (h : Headers) (name : String) (value : Bytes) : Headers := h ++ [(name.toLower, value)]

/-- Puts a value in the place of all those of the name. -/
def insert (h : Headers) (name : String) (value : Bytes) : Headers :=
  h.filter (·.1 ≠ name) ++ [(name, value)]

/-- Adds a value to those of its name. -/
def gather : List HeaderField → String × Bytes → List HeaderField
  | [], (name, value) => [{ name, first := value }]
  | f :: fs, (name, value) =>
    if f.name = name then { f with further := f.further ++ [value] } :: fs
    else f :: gather fs (name, value)

/-- The headers name by name. -/
def fields (h : Headers) : List HeaderField := h.foldl gather []

/-- The first value takes the place of all that the name had, and the further ones come after it. -/
def takeIn (h : Headers) (f : HeaderField) : Headers :=
  h.insert f.name f.first ++ f.further.map fun value => (f.name, value)

/-- Takes in other headers, name by name. -/
def extend (h more : Headers) : Headers := more.fields.foldl takeIn h

/-- Sorted by name, the values of one name as they were. -/
def sorted (h : Headers) : Headers := h.mergeSort fun a b => a.1 ≤ b.1

end Headers

structure HeaderError where
  name : String
  value : String
deriving DecidableEq, Repr

namespace HeaderError

def message (e : HeaderError) : String :=
  "invalid value for header `" ++ e.name ++ "`: " ++ quote e.value

def cause (_ : HeaderError) : String := "failed to parse header value"

end HeaderError

/-- Tabs are the only controls in a header value. -/
def isHeaderByte (b : UInt8) : Bool := b = 9 || (32 ≤ b && b ≠ 127)

def headerValue (name value : String) : Except HeaderError Bytes :=
  let b := Bytes.ofText value
  if b.all isHeaderByte then .ok b else .error ⟨name, value⟩

end Testkit
