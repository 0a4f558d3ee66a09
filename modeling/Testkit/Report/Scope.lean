import Testkit.Report.Outcome

/-! The state of one test while it runs. A subtest has a scope of its own, which its parent takes in
once the subtest is over. -/

namespace Testkit

structure Scope where
  /-- This test failed, its subtests aside. -/
  failedHere : Bool := false
  /-- This test or one of its finished subtests failed. -/
  failed : Bool := false
  skipped : Bool := false
  failures : List Entry := []
  skips : List Entry := []
deriving DecidableEq, Repr, Inhabited

namespace Scope

def markFailed (s : Scope) : Scope := { s with failedHere := true, failed := true }

def recordFailure (s : Scope) (path : Path) (message : String) : Scope :=
  { s.markFailed with failures := s.failures ++ [⟨path, message⟩] }

def recordSkip (s : Scope) (path : Path) (message : String) : Scope :=
  { s with skipped := true, skips := s.skips ++ [⟨path, message⟩] }

/-- Takes in a finished subtest. Its skip is its own. -/
def absorb (s child : Scope) : Scope :=
  { s with
    failed := s.failed || child.failed
    failures := s.failures ++ child.failures
    skips := s.skips ++ child.skips }

def outcome (s : Scope) : Outcome := ⟨s.failed, s.skipped, s.failures, s.skips⟩

end Scope

end Testkit
