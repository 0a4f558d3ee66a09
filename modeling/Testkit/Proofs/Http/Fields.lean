import Mathlib.Data.List.Nodup
import Testkit.Http.Headers

/-! Headers as a map from names to lists of values. Taken apart name by name and taken in by other
headers, they replace what was there of their names, in full and in order, and nothing else. -/

namespace Testkit

namespace Headers

variable {fs : List HeaderField}

theorem values_cons (e : String × Bytes) (h : Headers) (name : String) :
    values (e :: h) name = (if e.1 = name then [e.2] else []) ++ values h name := by
  by_cases he : e.1 = name <;> simp [values, he]

theorem values_joined (h more : Headers) (name : String) :
    values (h ++ more) name = h.values name ++ more.values name := by
  simp [values]

theorem values_others (h : Headers) (name other : String) :
    values (h.filter (·.1 ≠ name)) other = if name = other then [] else h.values other := by
  rw [values, List.filter_filter]
  by_cases hn : name = other
  · simp [hn]
  · rw [if_neg hn, values]
    refine congrArg (List.map _) (List.filter_congr fun e _ => ?_)
    by_cases he : e.1 = other <;> simp [he, Ne.symm hn]

theorem values_same (name : String) (vs : List Bytes) (other : String) :
    values (vs.map fun value => (name, value)) other = if name = other then vs else [] := by
  induction vs with
  | nil => simp [values]
  | cons v vs ih =>
    rw [List.map_cons, values_cons, ih]
    by_cases hn : name = other <;> simp [hn]

theorem values_insert (h : Headers) (name : String) (value : Bytes) (other : String) :
    (h.insert name value).values other = if name = other then [value] else h.values other := by
  have hone : values [(name, value)] other = if name = other then [value] else [] :=
    values_same name [value] other
  rw [insert, values_joined, values_others, hone]
  by_cases hn : name = other <;> simp [hn]

theorem values_takeIn (h : Headers) (f : HeaderField) (name : String) :
    (h.takeIn f).values name = if f.name = name then f.values else h.values name := by
  rw [takeIn, values_joined, values_insert, values_same]
  by_cases hn : f.name = name <;> simp [HeaderField.values, hn]

/-- The values that the fields have for a name. -/
def valuesIn (fs : List HeaderField) (name : String) : List Bytes :=
  (fs.find? (·.name = name)).elim [] HeaderField.values

theorem valuesIn_cons (f : HeaderField) (fs : List HeaderField) (name : String) :
    valuesIn (f :: fs) name = if f.name = name then f.values else valuesIn fs name := by
  by_cases hn : f.name = name <;> simp [valuesIn, hn]

theorem valuesIn_of_notMem {name : String} (h : name ∉ fs.map (·.name)) : valuesIn fs name = [] := by
  have hnone : fs.find? (·.name = name) = none := by
    refine List.find?_eq_none.mpr fun f hf hn => h ?_
    exact List.mem_map.mpr ⟨f, hf, by simpa using hn⟩
  rw [valuesIn, hnone]
  rfl

theorem valuesIn_gather (fs : List HeaderField) (e : String × Bytes) (name : String) :
    valuesIn (gather fs e) name = valuesIn fs name ++ if e.1 = name then [e.2] else [] := by
  induction fs with
  | nil => by_cases he : e.1 = name <;> simp [gather, valuesIn, HeaderField.values, he]
  | cons f fs ih =>
    by_cases hf : f.name = e.1
    · by_cases he : e.1 = name <;> simp [gather, valuesIn_cons, HeaderField.values, hf, he]
    · rw [gather, if_neg hf, valuesIn_cons, valuesIn_cons, ih]
      by_cases hn : f.name = name
      · have he : e.1 ≠ name := fun he => hf (hn.trans he.symm)
        simp [hn, he]
      · simp [hn]

theorem names_gather (fs : List HeaderField) (e : String × Bytes) :
    (gather fs e).map (·.name) =
      if e.1 ∈ fs.map (·.name) then fs.map (·.name) else fs.map (·.name) ++ [e.1] := by
  induction fs with
  | nil => rfl
  | cons f fs ih =>
    by_cases hf : f.name = e.1
    · simp [gather, hf]
    · rw [gather, if_neg hf, List.map_cons, ih]
      by_cases hm : e.1 ∈ fs.map (·.name) <;> simp [hm, Ne.symm hf]

theorem nodup_gather (h : (fs.map (·.name)).Nodup) (e : String × Bytes) :
    ((gather fs e).map (·.name)).Nodup := by
  rw [names_gather]
  by_cases hm : e.1 ∈ fs.map (·.name)
  · rwa [if_pos hm]
  · rw [if_neg hm, ← List.concat_eq_append]
    exact h.concat hm

theorem valuesIn_fields (h : Headers) (name : String) : valuesIn h.fields name = h.values name := by
  -- Whatever is gathered already comes before what the rest of the headers adds to it.
  have hfold : ∀ fs, valuesIn (h.foldl gather fs) name = valuesIn fs name ++ h.values name := by
    induction h with
    | nil => simp [values]
    | cons e h ih =>
      intro fs
      rw [List.foldl_cons, ih, valuesIn_gather, values_cons, List.append_assoc]
  exact hfold []

theorem nodup_fields (h : Headers) : (h.fields.map (·.name)).Nodup := by
  have hfold : ∀ fs : List HeaderField, (fs.map (·.name)).Nodup →
      ((h.foldl gather fs).map (·.name)).Nodup := by
    induction h with
    | nil => exact fun fs hfs => hfs
    | cons e h ih => exact fun fs hfs => ih (gather fs e) (nodup_gather hfs e)
  exact hfold [] List.nodup_nil

theorem values_foldl_takeIn (hfs : (fs.map (·.name)).Nodup) (h : Headers) (name : String) :
    values (fs.foldl takeIn h) name =
      if valuesIn fs name = [] then h.values name else valuesIn fs name := by
  induction fs generalizing h with
  | nil => rfl
  | cons f fs ih =>
    obtain ⟨hf, hrest⟩ := List.nodup_cons.mp hfs
    rw [List.foldl_cons, ih hrest, values_takeIn, valuesIn_cons]
    by_cases hn : f.name = name
    · -- The name does not come again, so that these values stay.
      have hnone : valuesIn fs name = [] := valuesIn_of_notMem (hn ▸ hf)
      simp [hnone, hn, HeaderField.values]
    · simp [hn]

theorem values_extend (h more : Headers) (name : String) :
    (h.extend more).values name =
      if more.values name = [] then h.values name else more.values name := by
  rw [extend, values_foldl_takeIn more.nodup_fields, valuesIn_fields]

def ofList (added : List (String × Bytes)) : Headers := added.foldl (fun h e => h.append e.1 e.2) []

/-- The values that were added for a name, in whatever letters it was written. -/
def given (added : List (String × Bytes)) (name : String) : List Bytes :=
  (added.filter (·.1.toLower = name)).map (·.2)

theorem values_ofList (added : List (String × Bytes)) (name : String) :
    (ofList added).values name = given added name := by
  have hfold : ∀ h : Headers, values (added.foldl (fun h e => h.append e.1 e.2) h) name =
      h.values name ++ given added name := by
    induction added with
    | nil => simp [given]
    | cons e added ih =>
      intro h
      have hone : values [(e.1.toLower, e.2)] name = if e.1.toLower = name then [e.2] else [] :=
        values_same e.1.toLower [e.2] name
      rw [List.foldl_cons, ih, append, values_joined, hone, List.append_assoc]
      by_cases hn : e.1.toLower = name <;> simp [given, hn]
  exact hfold []

end Headers

end Testkit
