import Testkit.Json.Basic

/-! The messages of checks that did not hold. -/

namespace Testkit

inductive Check where
  | condition (held : Bool) (message : Option String)
  | equal (left right : Json)
  | different (left right : Json)
deriving Inhabited

namespace Check

def held : Check → Bool
  | .condition held _ => held
  | .equal left right => left == right
  | .different left right => left != right

def comparison (sign : String) (left right : Json) : String :=
  "assertion `left " ++ sign ++ " right` failed\n  left: " ++ left.describe ++ "\n right: " ++
    right.describe

def message : Check → String
  | .condition _ message => message.getD "check failed: cond"
  | .equal left right => comparison "==" left right
  | .different left right => comparison "!=" left right

end Check

/-- Whether a test is expected to go on after it fails. -/
inductive Expectation where
  | failure
  | failureAndExit
deriving DecidableEq, Repr

/-- What is wrong with a run that failed or not and completed or not, if anything. -/
def Expectation.complaint? (e : Expectation) (failed completed : Bool) : Option String :=
  if !failed then some "expected test to fail, but it passed"
  else
    match e, completed with
    | .failure, false =>
      some "test failed as expected, but it also terminated early and should not have"
    | .failureAndExit, true =>
      some "test failed as expected, but it should have also terminated early and did not"
    | _, _ => none

end Testkit
