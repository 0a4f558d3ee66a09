import Testkit.Proofs.Sse.Lines

/-! What one line makes of a draft, and what is known of the events that come out of some lines. -/

namespace Testkit.SseReader

/-- The draft once the line has been read. -/
def Draft.after (d : Draft) : List Char → Draft
  | [] => {}
  | ':' :: _ => d
  | line => d.addField (field line).1 (field line).2

theorem eventsFrom_cons (d : Draft) {line : List Char} (h : line ≠ []) (rest : List (List Char)) :
    eventsFrom d (line :: rest) = eventsFrom (d.after line) rest := by
  rw [eventsFrom.eq_def, Draft.after.eq_def]
  cases line with
  | nil => exact absurd rfl h
  | cons c cs => split <;> simp_all

theorem Draft.after_field (d : Draft) {name : List Char} (hname : name ≠ []) (hcolon : ':' ∉ name)
    (value : List Char) : d.after (name ++ ':' :: ' ' :: value) = d.addField name value := by
  obtain ⟨c, cs, rfl⟩ := List.exists_cons_of_ne_nil hname
  have hc : c ≠ ':' := fun h => hcolon (h ▸ List.mem_cons_self)
  rw [List.cons_append, after.eq_3 d _ (by simp) (fun _ h => hc (List.cons.inj h).1),
    ← List.cons_append, field_of_name hcolon]

/-- Nothing of what comes before a blank line is left after it. -/
theorem eventsFrom_append_blank (d : Draft) (ls rest : List (List Char)) :
    eventsFrom d (ls ++ [] :: rest) = eventsFrom d (ls ++ [[]]) ++ eventsFrom {} rest := by
  induction ls generalizing d with
  | nil => simp only [List.nil_append, eventsFrom.eq_2, eventsFrom.eq_1, List.append_nil]
  | cons line ls ih =>
    by_cases h : line = []
    · subst h
      simp only [List.cons_append, eventsFrom.eq_2, ih, List.append_assoc]
    · simp only [List.cons_append, eventsFrom_cons _ h, ih]

namespace Draft

theorem mem_finish? {d : Draft} {e : SseEvent} : e ∈ d.finish?.toList ↔
    ∃ data, d.data = some data ∧
      ⟨String.ofList d.id, String.ofList d.event, String.ofList data, d.retryMillis⟩ = e := by
  simp only [finish?, Option.mem_toList, Option.map_eq_some_iff]

/-- All that a line can do to a draft, unless it is blank. -/
theorem after_cases (d : Draft) {line : List Char} (h : line ≠ []) :
    ∃ name mark value, name ++ mark ++ value = line ∧
      (d.after line = { d with id := value } ∨ d.after line = { d with event := value } ∨
        (name = ['d', 'a', 't', 'a'] ∧ d.after line = d.addData value) ∨
        ∃ n, d.after line = { d with retryMillis := n }) := by
  obtain ⟨mark, hmark⟩ := field_append line
  refine ⟨(field line).1, mark, (field line).2, hmark, ?_⟩
  rw [after.eq_def]
  split
  · exact absurd rfl h
  · exact .inr (.inr (.inr ⟨d.retryMillis, rfl⟩))
  · rw [addField]
    by_cases hid : (field line).1 = ['i', 'd']
    · exact .inl (if_pos hid)
    by_cases hevent : (field line).1 = ['e', 'v', 'e', 'n', 't']
    · exact .inr (.inl (by rw [if_neg hid, if_pos hevent]))
    by_cases hdata : (field line).1 = ['d', 'a', 't', 'a']
    · exact .inr (.inr (.inl ⟨hdata, by rw [if_neg hid, if_neg hevent, if_pos hdata]⟩))
    rw [if_neg hid, if_neg hevent, if_neg hdata]
    by_cases hretry : (field line).1 = ['r', 'e', 't', 'r', 'y']
    · exact .inr (.inr (.inr ⟨_, if_pos hretry⟩))
    · exact .inr (.inr (.inr ⟨d.retryMillis, if_neg hretry⟩))

theorem data_after {d : Draft} (hd : d.data ≠ none) {line : List Char} (h : line ≠ []) :
    (d.after line).data ≠ none := by
  obtain ⟨_, _, value, -, ha | ha | ⟨-, ha⟩ | ⟨n, ha⟩⟩ := d.after_cases h
  · rwa [ha]
  · rwa [ha]
  · rw [ha]
    exact Option.some_ne_none _
  · rwa [ha]

end Draft

theorem eventsFrom_ne_nil_of_data {d : Draft} (hd : d.data ≠ none) (ls : List (List Char)) :
    eventsFrom d (ls ++ [[]]) ≠ [] := by
  have hblank (d : Draft) (hd : d.data ≠ none) (rest : List (List Char)) :
      eventsFrom d ([] :: rest) ≠ [] := by
    obtain ⟨v, hv⟩ := Option.ne_none_iff_exists'.mp hd
    simp [eventsFrom.eq_2, Draft.finish?, hv]
  induction ls generalizing d with
  | nil => exact hblank d hd []
  | cons line ls ih =>
    by_cases hl : line = []
    · subst hl
      exact hblank d hd (ls ++ [[]])
    · rw [List.cons_append, eventsFrom_cons d hl]
      exact ih (d.data_after hd hl)

theorem eventsFrom_ne_nil {line : List Char} (h : line ≠ [])
    (hdata : ∀ d : Draft, (d.after line).data ≠ none) (d : Draft) (before rest : List (List Char)) :
    eventsFrom d (before ++ line :: rest ++ [[]]) ≠ [] := by
  induction before generalizing d with
  | nil =>
    rw [List.nil_append, List.cons_append, eventsFrom_cons d h]
    exact eventsFrom_ne_nil_of_data (hdata d) rest
  | cons first before ih =>
    by_cases hf : first = []
    · subst hf
      rw [List.cons_append, List.cons_append, eventsFrom.eq_2]
      exact List.append_ne_nil_of_right_ne_nil _ (ih {})
    · rw [List.cons_append, List.cons_append, eventsFrom_cons d hf]
      exact ih _

/-- Whether all that the draft holds can have come from single lines. -/
structure Draft.Legible (d : Draft) : Prop where
  id : OneLine d.id
  event : OneLine d.event
  data : ∀ v, d.data = some v → '\r' ∉ v

theorem Draft.legible_empty : Draft.Legible {} := ⟨oneLine_nil, oneLine_nil, by simp⟩

theorem Draft.Legible.after {d : Draft} (hd : d.Legible) {line : List Char} (hl : OneLine line) :
    (d.after line).Legible := by
  by_cases h : line = []
  · subst h
    exact legible_empty
  obtain ⟨name, mark, value, rfl, hcases⟩ := d.after_cases h
  have hvalue : OneLine value := fun c hc => hl c (List.mem_append_right _ hc)
  obtain ha | ha | ⟨-, ha⟩ | ⟨n, ha⟩ := hcases
  · rw [ha]
    exact ⟨hvalue, hd.event, hd.data⟩
  · rw [ha]
    exact ⟨hd.id, hvalue, hd.data⟩
  · rw [ha]
    refine ⟨hd.id, hd.event, ?_⟩
    have hcr : '\r' ∉ value := fun hc => hvalue _ hc (.inr rfl)
    cases hv : d.data with
    | none => simpa [addData, hv] using hcr
    | some before => simpa [addData, hv, hcr] using hd.data before hv
  · rw [ha]
    exact ⟨hd.id, hd.event, hd.data⟩

theorem legible_of_mem_eventsFrom {d : Draft} (hd : d.Legible) {ls : List (List Char)}
    (hls : ∀ l ∈ ls, OneLine l) :
    ∀ x ∈ eventsFrom d ls, OneLine x.id.toList ∧ OneLine x.event.toList ∧ '\r' ∉ x.data.toList := by
  induction ls generalizing d with
  | nil => simp [eventsFrom]
  | cons line ls ih =>
    have hline : OneLine line := hls line List.mem_cons_self
    have hrest : ∀ l ∈ ls, OneLine l := fun l hl => hls l (List.mem_cons_of_mem line hl)
    by_cases h : line = []
    · subst h
      rw [eventsFrom.eq_2]
      refine List.forall_mem_append.mpr ⟨fun x hx => ?_, ih (hd.after hline) hrest⟩
      obtain ⟨v, hv, rfl⟩ := Draft.mem_finish?.mp hx
      simpa using ⟨hd.id, hd.event, hd.data v hv⟩
    · rw [eventsFrom_cons d h]
      exact ih (hd.after hline) hrest

/-- What the data of the draft is long, a line feed at its end included. -/
def Draft.size (d : Draft) : Nat := d.data.elim 0 (·.length + 1)

theorem Draft.size_addData (d : Draft) (value : List Char) :
    (d.addData value).size = d.size + (value.length + 1) := by
  cases hd : d.data with
  | none => simp only [size, addData, hd, Option.elim_some, Option.elim_none, Nat.zero_add]
  | some before =>
    simp only [size, addData, hd, Option.elim_some, List.length_append, List.length_cons]
    omega

theorem Draft.size_after (d : Draft) (line : List Char) :
    (d.after line).size ≤ d.size + line.length := by
  by_cases h : line = []
  · subst h
    exact Nat.zero_le _
  obtain ⟨name, mark, value, rfl, ha | ha | ⟨rfl, ha⟩ | ⟨n, ha⟩⟩ := d.after_cases h
  · rw [ha]
    exact Nat.le_add_right _ _
  · rw [ha]
    exact Nat.le_add_right _ _
  · rw [ha, size_addData]
    simp only [List.length_append, List.length_cons, List.length_nil]
    omega
  · rw [ha]
    exact Nat.le_add_right _ _

theorem length_data_lt (d : Draft) (ls : List (List Char)) :
    ∀ x ∈ eventsFrom d ls, x.data.toList.length < d.size + ls.flatten.length := by
  induction ls generalizing d with
  | nil => simp [eventsFrom]
  | cons line ls ih =>
    by_cases h : line = []
    · subst h
      rw [eventsFrom.eq_2]
      refine List.forall_mem_append.mpr ⟨fun x hx => ?_, fun x hx => ?_⟩
      · obtain ⟨v, hv, rfl⟩ := Draft.mem_finish?.mp hx
        simp only [String.toList_ofList, Draft.size, hv, Option.elim_some]
        omega
      · exact Nat.lt_of_lt_of_le (ih {} x hx) (Nat.add_le_add_right (Nat.zero_le _) _)
    · rw [eventsFrom_cons d h]
      intro x hx
      have hlt := ih (d.after line) x hx
      have hle := d.size_after line
      rw [List.flatten_cons, List.length_append]
      omega

end Testkit.SseReader
