import Testkit.Bytes
import Testkit.Log.Record
import Testkit.Text.Numeral

/-! Log filters: a list of directives, each giving the level at which some targets are logged. -/

namespace Testkit

/-- A directive for the events whose target begins with `target`, or for all, and which have the
given fields. It lets through verbosities up to `limit`; at zero it lets nothing through. -/
structure Directive where
  target : Option String
  fields : List String
  limit : Nat
deriving DecidableEq, Repr

inductive DirectiveError where
  | manyEquals
  | manyFieldLists
  | unclosedFieldList
  | unknownLevel
deriving DecidableEq, Repr

def DirectiveError.message : DirectiveError → String
  | .manyEquals => "invalid filter directive: too many '=' in filter directive, expected 0 or 1"
  | .manyFieldLists =>
    "invalid filter directive: too many '[\x7b' in filter directive, expected 0 or 1"
  | .unclosedFieldList => "invalid filter directive: expected fields list to end with '\x7d]'"
  | .unknownLevel => "error parsing level filter: expected one of \"off\", \"error\", \"warn\", " ++
      "\"info\", \"debug\", \"trace\", or a number 0-5"

namespace Directive

/-- A number up to five, after a plus sign if there is one. -/
def levelNumber? (s : String) : Option Nat :=
  let ds := match s.toList with
    | '+' :: rest => rest
    | cs => cs
  (decimal? ds).filter (· ≤ 5)

/-- The limit that a level stands for, by number or by name in any case. Nothing means errors. -/
def limit? (s : String) : Option Nat :=
  match levelNumber? s with
  | some n => some n
  | none =>
    match s.toLower with
    | "" => some 1
    | "off" => some 0
    | "error" => some 1
    | "warn" => some 2
    | "info" => some 3
    | "debug" => some 4
    | "trace" => some 5
    | _ => none

def dropClosings : List Char → List Char
  | ']' :: '\x7d' :: rest => dropClosings rest
  | cs => cs

def fieldNames (s : String) : Except DirectiveError (List String) :=
  if s.endsWith "\x7d]" then
    let inside := String.ofList (dropClosings s.toList.reverse).reverse
    .ok ((inside.splitOn ",").filter (· ≠ ""))
  else .error .unclosedFieldList

def targetAndFields (s : String) : Except DirectiveError (String × List String) :=
  match s.splitOn "[\x7b" with
  | [target] => .ok (target, [])
  | [target, names] => do return (target, ← fieldNames names)
  | _ => .error .manyFieldLists

/-- Either `target=level`, or a level for everything, or a target that is logged in full. -/
def parse (s : String) : Except DirectiveError Directive :=
  match s.splitOn "=" with
  | [single] =>
    match limit? single with
    | some limit => .ok ⟨none, [], limit⟩
    | none => .ok ⟨some single, [], 5⟩
  | [target, level] => do
    let (target, fields) ← targetAndFields target
    match limit? level with
    | some limit => .ok ⟨some target, fields, limit⟩
    | none => .error .unknownLevel
  | _ => .error .manyEquals

def appliesTo (d : Directive) (target : String) (fields : List String) : Bool :=
  (match d.target with
    | none => true
    | some t => t.toList.isPrefixOf target.toList) &&
  d.fields.all fields.contains

/-- Which of two directives is about less: a longer target or more fields, and then the names
decide. -/
def specificity (a b : Directive) : Ordering :=
  let size (d : Directive) := d.target.elim 0 (·.utf8ByteSize + 1)
  (compare (size a) (size b)).then <|
    (compare a.fields.length b.fields.length).then <|
      (compare (a.target.getD "") (b.target.getD "")).then <|
        List.compareLex compare a.fields b.fields

end Directive

abbrev LogFilter := List Directive

namespace LogFilter

def parse (s : String) : Except DirectiveError LogFilter := (s.splitOn ",").mapM Directive.parse

def directiveFor? (f : LogFilter) (target : String) (fields : List String) : Option Directive :=
  (f.filter (·.appliesTo target fields)).foldl (fun best d =>
    match best with
    | none => some d
    | some b => if b.specificity d = .gt then some b else some d) none

def enabled (f : LogFilter) (level : Level) (target : String) (fields : List String) : Bool :=
  match f.directiveFor? target fields with
  | some d => level.verbosity ≤ d.limit
  | none => false

end LogFilter

inductive LogSetupError where
  | notText
  | badFilter (e : DirectiveError)
deriving DecidableEq, Repr

def logVariable : String := "TEST_HELPERS_LOG"

def LogSetupError.message : LogSetupError → String
  | .notText => logVariable ++ " is not UTF-8"
  | .badFilter e => "unable to parse " ++ logVariable ++ ": " ++ e.message

/-- The filter that a setting asks for. Without one, only warnings and errors are logged. -/
def LogFilter.ofSetting (setting : Option Bytes) : Except LogSetupError LogFilter :=
  match (setting.getD []).text? with
  | none => .error .notText
  | some "" => .ok [⟨none, [], Level.warn.verbosity⟩]
  | some s => (LogFilter.parse s).mapError .badFilter

/-- Which of some plain events are printed once logging is set up. If somebody has done so before,
their choice stays and nothing is printed here. -/
def printedEvents (setting : Option Bytes) (alreadySet : Bool) (events : List (Level × String)) :
    Except LogSetupError (List (Level × String)) := do
  let filter ← LogFilter.ofSetting setting
  return if alreadySet then [] else events.filter fun e => filter.enabled e.1 e.2 ["message"]

end Testkit
