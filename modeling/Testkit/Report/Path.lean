import Testkit.Text.Quoted

/-! Where a test stands below the top level: the names of the subtests around it, outermost
first. -/

namespace Testkit

structure Path where
  components : List String
deriving DecidableEq, Repr, Inhabited

namespace Path

def root : Path := ⟨[]⟩

def isRoot (p : Path) : Bool := p.components.isEmpty

def child (p : Path) (name : String) : Path := ⟨p.components ++ [name]⟩

def text (p : Path) : String :=
  if p.isRoot then "(top level)" else "/".intercalate p.components

theorem isRoot_iff {p : Path} : p.isRoot = true ↔ p = root := by
  rw [isRoot, List.isEmpty_iff]
  exact ⟨congrArg Path.mk, congrArg Path.components⟩

theorem text_of_ne_root {p : Path} (hp : p ≠ root) : p.text = "/".intercalate p.components :=
  if_neg (mt isRoot_iff.mp hp)

/-- A path comes before those it leads to; otherwise the first different names decide, by their
characters. -/
def compare (p q : Path) : Ordering := List.compareLex Ord.compare p.components q.components

def describe (p : Path) : String :=
  "TestPath([" ++ ", ".intercalate (p.components.map quote) ++ "])"

end Path

end Testkit
