import Testkit.Json.Double
import Testkit.Text.Quoted

/-! Structured values: what checks compare, and what a JSON response carries. -/

namespace Testkit

inductive Json where
  | null
  | bool (b : Bool)
  | int (n : Int)
  | double (x : Double)
  | text (s : String)
  | list (items : List Json)
  | record (fields : List (String × Json))
deriving BEq, Inhabited

namespace Json

/-- Puts a field where its name belongs among sorted fields, in place of one of the same name. -/
def insertField (name : String) (value : Json) : List (String × Json) → List (String × Json)
  | [] => [(name, value)]
  | (n, v) :: rest =>
    if name = n then (name, value) :: rest
    else if name < n then (name, value) :: (n, v) :: rest
    else (n, v) :: insertField name value rest

/-- A record of the given fields, sorted by name. Of two fields with one name the later counts. -/
def ofFields (fields : List (String × Json)) : Json :=
  .record (fields.foldl (fun acc f => insertField f.1 f.2 acc) [])

def field? (name : String) : Json → Option Json
  | .record fields => fields.lookup name
  | _ => none

def commaSeparated (items : List String) : String := ", ".intercalate items

mutual

def describe : Json → String
  | .null => "None"
  | .bool b => toString b
  | .int n => toString n
  | .double x => x.text
  | .text s => quote s
  | .list items => "[" ++ commaSeparated (describeAll items) ++ "]"
  | .record fields => "\x7b" ++ commaSeparated (describeFields fields) ++ "\x7d"

def describeAll : List Json → List String
  | [] => []
  | v :: vs => describe v :: describeAll vs

def describeFields : List (String × Json) → List String
  | [] => []
  | (n, v) :: rest => (quote n ++ ": " ++ describe v) :: describeFields rest

end

end Json

end Testkit
