import Testkit.Log.Record
import Testkit.Report.Path

/-! What a reporter tells while a test runs: a sandboxed one logs, a printing one writes lines. -/

namespace Testkit

inductive Notice where
  | failure (path : Path) (message : String)
  | subtestStarted (path : Path)
  | exitedEarly (path : Path)
deriving DecidableEq, Repr

def Notice.record : Notice → LogRecord
  | .failure path message =>
    ⟨.debug, "testbox::mock", "sandboxed failure", [("path", path.text), ("message", message)]⟩
  | .subtestStarted path =>
    ⟨.debug, "testbox::mock", "running sandboxed subtest", [("path", path.text)]⟩
  | .exitedEarly path =>
    ⟨.debug, "testbox::mock", "test body exited early", [("path", path.text)]⟩

inductive Printed where
  | failure (path : Path) (message : String)
  | skipMessage (path : Path) (message : String)
  | skipped (path : Path)
deriving DecidableEq, Repr

def titleOf (name : String) (path : Path) : String :=
  if path.isRoot then name else name ++ "/" ++ path.text

theorem titleOf_of_ne_root {path : Path} (h : path ≠ .root) (name : String) :
    titleOf name path = name ++ "/" ++ path.text :=
  if_neg (mt Path.isRoot_iff.mp h)

def Printed.lines (name : String) : Printed → String
  | .failure path message => "--- FAIL: " ++ titleOf name path ++ "\n    " ++ message ++ "\n"
  | .skipMessage path message => "    " ++ titleOf name path ++ ": " ++ message ++ "\n"
  | .skipped path => "--- SKIP: " ++ titleOf name path ++ "\n"

end Testkit
