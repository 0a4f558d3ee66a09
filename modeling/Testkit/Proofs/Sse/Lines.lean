import Testkit.Sse.Reader

/-! The lines of a text, and what the reader finds in each of them. -/

namespace Testkit

/-- Whether no line ends inside. -/
def OneLine (cs : List Char) : Prop := ∀ c ∈ cs, ¬ (c = '\n' ∨ c = '\r')

instance (cs : List Char) : Decidable (OneLine cs) :=
  List.decidableBAll (fun c => ¬ (c = '\n' ∨ c = '\r')) cs

theorem oneLine_nil : OneLine [] := by simp [OneLine]

namespace SseReader

theorem linesFrom_newline (line rest : List Char) :
    linesFrom line ('\n' :: rest) = line.reverse :: lines rest := by
  rw [linesFrom.eq_3 _ _ _ (by simp), if_pos (.inl rfl), lines]

theorem linesFrom_append {cs : List Char} (h : OneLine cs) (line rest : List Char) :
    linesFrom line (cs ++ rest) = linesFrom (cs.reverse ++ line) rest := by
  induction cs generalizing line with
  | nil => rfl
  | cons c cs ih =>
    obtain ⟨hc, hcs⟩ := List.forall_mem_cons.mp h
    rw [List.cons_append, linesFrom.eq_3 _ _ _ (fun _ hr _ => hc (.inr hr)), if_neg hc, ih hcs,
      List.reverse_cons, List.append_assoc]
    rfl

theorem lines_cons {cs : List Char} (h : OneLine cs) (rest : List Char) :
    lines (cs ++ '\n' :: rest) = cs :: lines rest := by
  rw [lines, linesFrom_append h, linesFrom_newline, List.append_nil, List.reverse_reverse]

/-- What follows a line feed is split on its own, whatever is before. -/
theorem linesFrom_append_newline (line cs rest : List Char) :
    linesFrom line (cs ++ '\n' :: rest) = linesFrom line (cs ++ ['\n']) ++ lines rest := by
  induction line, cs using linesFrom.induct with
  | case1 line => exact linesFrom_newline line rest
  | case2 line cs ih =>
    simp only [List.cons_append, linesFrom.eq_2, ih]
  | case3 line c cs h hc ih =>
    by_cases hcr : c = '\r' ∧ cs = []
    · obtain ⟨rfl, rfl⟩ := hcr
      exact linesFrom.eq_2 line rest
    · have hsplit : ∀ tail r, c = '\r' → cs ++ '\n' :: tail = '\n' :: r → False := by
        rintro tail r rfl hr
        cases cs with
        | nil => exact hcr ⟨rfl, rfl⟩
        | cons d cs => exact h cs rfl (by rw [List.cons_append, List.cons.injEq] at hr; rw [hr.1])
      rw [List.cons_append, linesFrom.eq_3 _ _ _ (hsplit rest), if_pos hc, ih, List.cons_append,
        linesFrom.eq_3 _ _ _ (hsplit []), if_pos hc, List.cons_append]
  | case4 line c cs h hc ih =>
    have hsplit : ∀ tail r, c = '\r' → cs ++ '\n' :: tail = '\n' :: r → False :=
      fun _ _ hr _ => hc (.inr hr)
    rw [List.cons_append, linesFrom.eq_3 _ _ _ (hsplit rest), if_neg hc, ih, List.cons_append,
      linesFrom.eq_3 _ _ _ (hsplit []), if_neg hc]

theorem lines_append_newline (cs rest : List Char) :
    lines (cs ++ '\n' :: rest) = lines (cs ++ ['\n']) ++ lines rest :=
  linesFrom_append_newline [] cs rest

theorem linesFrom_eq_cons (line cs : List Char) :
    ∃ l ls, linesFrom line (cs ++ ['\n']) = (line.reverse ++ l) :: ls := by
  induction cs generalizing line with
  | nil => exact ⟨[], [], by rw [List.nil_append, linesFrom_newline, List.append_nil]; rfl⟩
  | cons c cs ih =>
    by_cases hc : c = '\n' ∨ c = '\r'
    · refine ⟨[], ?_⟩
      rw [List.append_nil, List.cons_append, linesFrom.eq_def]
      split
      · rename_i h
        cases h
      · exact ⟨_, rfl⟩
      · rename_i h
        cases h
        rw [if_pos hc]
        exact ⟨_, rfl⟩
    · obtain ⟨l, ls, h⟩ := ih (c :: line)
      refine ⟨c :: l, ls, ?_⟩
      rw [List.cons_append, linesFrom.eq_3 _ _ _ (fun _ hr _ => hc (.inr hr)), if_neg hc, h,
        List.reverse_cons, List.append_assoc]
      rfl

theorem oneLine_of_mem_linesFrom {line cs : List Char} (hline : OneLine line) :
    ∀ l ∈ linesFrom line cs, OneLine l := by
  have hrev {line : List Char} (h : OneLine line) : OneLine line.reverse :=
    fun c hc => h c (List.mem_reverse.mp hc)
  induction line, cs using linesFrom.induct with
  | case1 line => simp [linesFrom]
  | case2 line cs ih =>
    rw [linesFrom.eq_2]
    exact List.forall_mem_cons.mpr ⟨hrev hline, ih oneLine_nil⟩
  | case3 line c cs h hc ih =>
    rw [linesFrom.eq_3 _ _ _ h, if_pos hc]
    exact List.forall_mem_cons.mpr ⟨hrev hline, ih oneLine_nil⟩
  | case4 line c cs h hc ih =>
    rw [linesFrom.eq_3 _ _ _ h, if_neg hc]
    exact ih (List.forall_mem_cons.mpr ⟨hc, hline⟩)

theorem length_linesFrom (line cs : List Char) :
    (linesFrom line cs).flatten.length + (linesFrom line cs).length ≤ line.length + cs.length := by
  induction line, cs using linesFrom.induct with
  | case1 line => simp [linesFrom]
  | case2 line cs ih =>
    rw [linesFrom.eq_2]
    simp only [List.flatten_cons, List.length_append, List.length_reverse, List.length_cons,
      List.length_nil] at ih ⊢
    omega
  | case3 line c cs h hc ih =>
    rw [linesFrom.eq_3 _ _ _ h, if_pos hc]
    simp only [List.flatten_cons, List.length_append, List.length_reverse, List.length_cons,
      List.length_nil] at ih ⊢
    omega
  | case4 line c cs h hc ih =>
    rw [linesFrom.eq_3 _ _ _ h, if_neg hc]
    simp only [List.length_cons] at ih ⊢
    omega

theorem field_of_name {name : List Char} (h : ':' ∉ name) (value : List Char) :
    field (name ++ ':' :: ' ' :: value) = (name, value) := by
  have hname : ∀ c ∈ name, decide (c ≠ ':') = true := by
    intro c hc
    exact decide_eq_true (fun hcolon => h (hcolon ▸ hc))
  have htake : (name ++ ':' :: ' ' :: value).takeWhile (· ≠ ':') = name := by
    rw [List.takeWhile_append_of_pos hname]
    simp
  have hdrop : (name ++ ':' :: ' ' :: value).dropWhile (· ≠ ':') = ':' :: ' ' :: value := by
    rw [List.dropWhile_append_of_pos hname]
    simp
  rw [field, htake, hdrop]
  rfl

/-- Name and value are all of a line but what is between them. -/
theorem field_append (line : List Char) :
    ∃ mark, (field line).1 ++ mark ++ (field line).2 = line := by
  have h := List.takeWhile_append_dropWhile (p := (· ≠ ':')) (l := line)
  rw [field]
  split
  · rename_i hd
    rw [hd] at h
    exact ⟨[':', ' '], (List.append_assoc _ _ _).trans h⟩
  · rename_i hd
    rw [hd] at h
    exact ⟨[':'], (List.append_assoc _ _ _).trans h⟩
  · exact ⟨[], by rwa [List.append_nil]⟩

end SseReader

end Testkit
