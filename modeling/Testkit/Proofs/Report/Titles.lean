import Testkit.Report.Announcement

/-! What the text of a path tells. It is read back up to the slashes in names, so that without such
slashes a path is known by its text, but for the top level and a test right below it that is called as
the top level is shown. -/

namespace Testkit

namespace Path

variable {p q : Path}

/-- The names of a path, cut at the slashes in them. -/
def pieces (p : Path) : List (List Char) := p.components.flatMap (·.toList.splitOn '/')

theorem splitOn_intercalate {names : List String} (h : names ≠ []) :
    ("/".intercalate names).toList.splitOn '/' = names.flatMap (·.toList.splitOn '/') := by
  induction names with
  | nil => exact absurd rfl h
  | cons name rest ih =>
    cases rest with
    | nil => simp
    | cons next rest =>
      have htext : ("/".intercalate (name :: next :: rest)).toList =
          name.toList ++ '/' :: ("/".intercalate (next :: rest)).toList := by
        rw [String.intercalate_cons_cons, String.toList_append, String.toList_append,
          List.append_assoc]
        rfl
      rw [htext, List.splitOn_append_cons_self, ih (List.cons_ne_nil _ _)]
      rfl

theorem splitOn_text (hp : p ≠ root) : p.text.toList.splitOn '/' = p.pieces := by
  have hnames : p.components ≠ [] := fun h => hp (congrArg Path.mk h)
  rw [text_of_ne_root hp, splitOn_intercalate hnames, pieces]

/-- Below the top level, a text tells just as much as the pieces do. -/
theorem text_eq_iff_pieces (hp : p ≠ root) (hq : q ≠ root) :
    p.text = q.text ↔ p.pieces = q.pieces := by
  have hback : ∀ text : List Char, ['/'].intercalate (text.splitOn '/') = text :=
    fun _ => List.intercalate_splitOn '/'
  rw [← splitOn_text hp, ← splitOn_text hq]
  refine ⟨fun h => by rw [h], fun h => String.toList_inj.mp ?_⟩
  rw [← hback p.text.toList, h, hback]

example : (root.child "a/b").text = ((root.child "a").child "b").text := rfl

/-- Whether no name on the path has a slash. -/
def Unslashed (p : Path) : Prop := ∀ name ∈ p.components, '/' ∉ name.toList

instance (p : Path) : Decidable p.Unslashed :=
  inferInstanceAs (Decidable (∀ name ∈ p.components, '/' ∉ name.toList))

theorem pieces_of_unslashed (hp : p.Unslashed) : p.pieces = p.components.map String.toList := by
  have hcut : ∀ name ∈ p.components, name.toList.splitOn '/' = [name.toList] :=
    fun name hname => List.splitOn_eq_singleton (hp name hname)
  rw [pieces, List.flatMap_def, List.map_congr_left hcut, ← List.flatMap_def, List.map_eq_flatMap]

theorem pieces_inj (hp : p.Unslashed) (hq : q.Unslashed) : p.pieces = q.pieces ↔ p = q := by
  have hnames : ∀ s t : String, s.toList = t.toList → s = t := fun _ _ => String.toList_inj.mp
  rw [pieces_of_unslashed hp, pieces_of_unslashed hq, List.map_inj_right hnames]
  exact ⟨congrArg Path.mk, congrArg Path.components⟩

/-- The top level is shown as a single name, which a test right below it may have. -/
theorem text_root_eq_iff (hp : p.Unslashed) (hne : p ≠ root) :
    p.text = root.text ↔ p = root.child "(top level)" := by
  have hcalled : Unslashed (root.child "(top level)") := by decide
  have htext : root.text = (root.child "(top level)").text := rfl
  have hbelow : root.child "(top level)" ≠ root := by decide
  rw [htext, text_eq_iff_pieces hne hbelow, pieces_inj hp hcalled]

end Path

theorem titleOf_inj {p q : Path} (hp : p.Unslashed) (hq : q.Unslashed) (name : String) :
    titleOf name p = titleOf name q ↔ p = q := by
  -- Behind the name there is at least the slash, however the name ends.
  have hlonger : ∀ r : Path, r ≠ .root → titleOf name r ≠ titleOf name .root := by
    intro r hr h
    have hlen := congrArg String.length h
    rw [titleOf_of_ne_root hr, String.length_append, String.length_append] at hlen
    have hroot : titleOf name .root = name := rfl
    have hslash : "/".length = 1 := rfl
    rw [hroot] at hlen
    omega
  refine ⟨fun h => ?_, fun h => by rw [h]⟩
  by_cases hp' : p = .root
  · by_cases hq' : q = .root
    · rw [hp', hq']
    · exact absurd (hp' ▸ h.symm) (hlonger q hq')
  · by_cases hq' : q = .root
    · exact absurd (hq' ▸ h) (hlonger p hp')
    · rw [titleOf_of_ne_root hp', titleOf_of_ne_root hq', String.append_right_inj,
        Path.text_eq_iff_pieces hp' hq', Path.pieces_inj hp hq] at h
      exact h

/-- Paths without slashes are told apart by their texts, but for the top level and a test right below
it that is called as the top level is shown. With the name of the whole test in front, also those two
are told apart. -/
theorem Path.text_tells_path (p q : Path) (hp : p.Unslashed) (hq : q.Unslashed) :
    (p.text = q.text ↔ p = q ∨ p = root ∧ q = root.child "(top level)" ∨
      p = root.child "(top level)" ∧ q = root) ∧
    ∀ name, titleOf name p = titleOf name q ↔ p = q := by
  refine ⟨?_, titleOf_inj hp hq⟩
  -- The text of the top level is not made of names, so that it is looked at by itself.
  by_cases hp' : p = root
  · by_cases hq' : q = root
    · simp [hp', hq']
    · have hnone : root ≠ q := Ne.symm hq'
      rw [hp', eq_comm, text_root_eq_iff hq hq']
      simp [hnone, hq']
  · by_cases hq' : q = root
    · rw [hq', text_root_eq_iff hp hp']
      simp [hp']
    · rw [text_eq_iff_pieces hp' hq', pieces_inj hp hq]
      simp [hp', hq']

/-- A test without a name below another one, and the two paths with one text. -/
theorem Path.text_tells_path_nameless :
    let p := (root.child "").child "a: b"
    let q := root.child "(top level)"
    p.Unslashed ∧ (p.child "").Unslashed ∧ (p.child "").text ≠ p.text ∧
      q.Unslashed ∧ root.Unslashed ∧ q.text = root.text ∧ titleOf "t" q ≠ titleOf "t" root := by
  intro p q
  have hp : p.Unslashed := by decide
  have hchild : (p.child "").Unslashed := by decide
  have hq : q.Unslashed := by decide
  have hroot : root.Unslashed := by decide
  obtain ⟨htexts, -⟩ := text_tells_path (p.child "") p hchild hp
  obtain ⟨hshared, htitles⟩ := text_tells_path q root hq hroot
  refine ⟨hp, hchild, fun h => ?_, hq, hroot, hshared.mpr (.inr (.inr ⟨rfl, rfl⟩)), fun h => ?_⟩
  · have hnone : ¬ (p.child "" = p ∨ p.child "" = root ∧ p = root.child "(top level)" ∨
        p.child "" = root.child "(top level)" ∧ p = root) := by decide
    exact hnone (htexts.mp h)
  · exact absurd ((htitles "t").mp h) (by decide)

end Testkit
