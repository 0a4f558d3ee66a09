/-! What stands before and after a mark in a text. -/

namespace Testkit

def after? (front cs : List Char) : Option (List Char) :=
  if front.isPrefixOf cs then some (cs.drop front.length) else none

theorem after?_eq_some_iff {front cs rest : List Char} :
    after? front cs = some rest ↔ front ++ rest = cs := by
  unfold after?
  split
  case isTrue h =>
    obtain ⟨t, rfl⟩ := List.isPrefixOf_iff_prefix.1 h
    simp [eq_comm]
  case isFalse h =>
    simp only [reduceCtorEq, false_iff]
    rintro rfl
    exact h (List.isPrefixOf_iff_prefix.2 (List.prefix_append _ _))

/-- What is before the last `mark`, and what is after it. -/
def splitAtLast? (mark : List Char) : List Char → Option (List Char × List Char)
  | [] => none
  | c :: cs =>
    match splitAtLast? mark cs with
    | some (before, rest) => some (c :: before, rest)
    | none => (after? mark (c :: cs)).map ([], ·)

theorem append_of_splitAtLast? {mark cs before rest : List Char}
    (h : splitAtLast? mark cs = some (before, rest)) : before ++ mark ++ rest = cs := by
  induction cs generalizing before with
  | nil => simp [splitAtLast?] at h
  | cons c cs ih =>
    cases hs : splitAtLast? mark cs with
    | some r =>
      simp only [splitAtLast?, hs, Option.some.injEq, Prod.mk.injEq] at h
      obtain ⟨rfl, rfl⟩ := h
      simpa using ih hs
    | none =>
      simp only [splitAtLast?, hs, Option.map_eq_some_iff, Prod.mk.injEq] at h
      obtain ⟨_, ha, rfl, rfl⟩ := h
      simpa using after?_eq_some_iff.1 ha

end Testkit
