import Testkit.Proofs.Sse.Drafts

/-! What the reader makes of the texts of events and comments. -/

namespace Testkit

namespace SseReader

/-- Whether the lines of a text do not depend on what follows it. -/
def Ended (cs : List Char) : Prop := ∀ rest, lines (cs ++ rest) = lines cs ++ lines rest

theorem ended_nil : Ended [] := fun _ => rfl

theorem ended_append_newline (cs : List Char) : Ended (cs ++ ['\n']) := by
  intro rest
  rw [List.append_assoc]
  exact lines_append_newline cs rest

theorem Ended.append {cs ds : List Char} (hc : Ended cs) (hd : Ended ds) : Ended (cs ++ ds) := by
  intro rest
  rw [List.append_assoc, hc, hd, hc, List.append_assoc]

end SseReader

open SseReader

namespace SseEvent

theorem toList_line (name value : String) :
    (line name value).toList = name.toList ++ ':' :: ' ' :: value.toList ++ ['\n'] := by
  simp [line]

def head (e : SseEvent) : String :=
  (if e.id = "" then "" else line "id" e.id) ++
  (if e.event = "" then "" else line "event" e.event) ++
  (if e.retryMillis = 0 then "" else line "retry" (toString e.retryMillis))

theorem toList_text (e : SseEvent) :
    e.text.toList = e.head.toList ++ ((line "data" e.data).toList ++ ['\n']) := by
  simp [text, head]

theorem ended_line (name value : String) : Ended (line name value).toList := by
  rw [toList_line]
  exact ended_append_newline _

theorem ended_head (e : SseEvent) : Ended e.head.toList := by
  have hpart (c : Prop) [Decidable c] (name value : String) :
      Ended (if c then "" else line name value).toList := by
    by_cases hc : c
    · rw [if_pos hc]
      exact ended_nil
    · rw [if_neg hc]
      exact ended_line name value
  simp only [head, String.toList_append]
  exact ((hpart _ _ _).append (hpart _ _ _)).append (hpart _ _ _)

theorem lines_text (e : SseEvent) : lines e.text.toList =
    lines e.head.toList ++ lines (line "data" e.data).toList ++ [[]] := by
  rw [toList_text, ended_head, ended_line, List.append_assoc]
  rfl

theorem ended_text (e : SseEvent) : Ended e.text.toList := by
  rw [toList_text]
  exact e.ended_head.append (ended_append_newline _)

def IsName (name : String) : Prop :=
  name.toList ≠ [] ∧ ':' ∉ name.toList ∧ OneLine name.toList

instance (name : String) : Decidable (IsName name) := inferInstanceAs (Decidable (_ ∧ _ ∧ _))

theorem eventsFrom_line (d : Draft) {name value : String} (hname : IsName name)
    (hvalue : OneLine value.toList) (rest : List Char) :
    eventsFrom d (lines ((line name value).toList ++ rest)) =
      eventsFrom (d.addField name.toList value.toList) (lines rest) := by
  obtain ⟨hne, hcolon, hone⟩ := hname
  have hline : OneLine (name.toList ++ ':' :: ' ' :: value.toList) := by
    refine List.forall_mem_append.mpr ⟨hone, ?_⟩
    exact List.forall_mem_cons.mpr ⟨by decide, List.forall_mem_cons.mpr ⟨by decide, hvalue⟩⟩
  rw [toList_line, List.append_assoc, List.singleton_append, lines_cons hline,
    eventsFrom_cons d (by simp), Draft.after_field d hne hcolon]

theorem eventsFrom_part (d : Draft) (c : Prop) [Decidable c] {name value : String}
    (hname : IsName name) (hvalue : OneLine value.toList) (rest : List Char) :
    eventsFrom d (lines ((if c then "" else line name value).toList ++ rest)) =
      eventsFrom (if c then d else d.addField name.toList value.toList) (lines rest) := by
  by_cases hc : c
  · simp only [if_pos hc]
    rfl
  · simp only [if_neg hc]
    exact eventsFrom_line d hname hvalue rest

theorem toList_toString (n : Nat) : (toString n).toList = Nat.toDigits 10 n :=
  String.toList_ofList

theorem oneLine_toString (n : Nat) : OneLine (toString n).toList := by
  intro c hc hend
  rw [toList_toString] at hc
  have hdigit : c.isDigit = true := Nat.isDigit_of_mem_toDigits (by decide) (by decide) hc
  obtain rfl | rfl := hend <;> exact absurd hdigit (by decide)

def draft (e : SseEvent) : Draft := ⟨e.id.toList, e.event.toList, none, e.retryMillis⟩

theorem eventsFrom_head {e : SseEvent} (hid : OneLine e.id.toList) (hevent : OneLine e.event.toList)
    (rest : List Char) :
    eventsFrom {} (lines (e.head.toList ++ rest)) = eventsFrom e.draft (lines rest) := by
  have h₁ : (if e.id = "" then {} else Draft.addField {} "id".toList e.id.toList) =
      { id := e.id.toList } := by
    by_cases h : e.id = "" <;> simp [h, Draft.addField]
  have h₂ : (if e.event = "" then { id := e.id.toList } else
      Draft.addField { id := e.id.toList } "event".toList e.event.toList) =
      { id := e.id.toList, event := e.event.toList } := by
    by_cases h : e.event = "" <;> simp [h, Draft.addField]
  have h₃ : (if e.retryMillis = 0 then { id := e.id.toList, event := e.event.toList } else
      Draft.addField { id := e.id.toList, event := e.event.toList } "retry".toList
        (toString e.retryMillis).toList) = e.draft := by
    by_cases h : e.retryMillis = 0 <;> simp [h, draft, Draft.addField, decimal?_toDigits]
  simp only [head, String.toList_append, List.append_assoc]
  rw [eventsFrom_part _ _ (by decide) hid, h₁, eventsFrom_part _ _ (by decide) hevent, h₂,
    eventsFrom_part _ _ (by decide) (oneLine_toString _), h₃]

theorem eventsFrom_data (d : Draft) {value : String} (h : OneLine value.toList) (rest : List Char) :
    eventsFrom d (lines ((line "data" value).toList ++ rest)) =
      eventsFrom (d.addData value.toList) (lines rest) :=
  eventsFrom_line d (by decide) h rest

theorem events_text_ne_nil (e : SseEvent) : events e.text ≠ [] := by
  let front : List Char := ['d', 'a', 't', 'a', ':', ' ']
  have hfront : OneLine front := by decide
  obtain ⟨value, ls, h⟩ := linesFrom_eq_cons front.reverse e.data.toList
  have hlines : lines (line "data" e.data).toList =
      (['d', 'a', 't', 'a'] ++ ':' :: ' ' :: value) :: ls := by
    rw [toList_line, List.append_assoc]
    exact (linesFrom_append hfront [] (e.data.toList ++ ['\n'])).trans h
  rw [events, lines_text, hlines]
  refine eventsFrom_ne_nil (by simp) (fun d => ?_) {} _ ls
  rw [Draft.after_field d (by simp) (by simp)]
  exact Option.some_ne_none _

/-- Whether none of the texts of an event has a line end inside. -/
structure OneLined (e : SseEvent) : Prop where
  id : OneLine e.id.toList
  event : OneLine e.event.toList
  data : OneLine e.data.toList

theorem OneLined.events_text {e : SseEvent} (h : e.OneLined) : events e.text = [e] := by
  have hend : lines ['\n'] = [[]] := rfl
  rw [events, toList_text, eventsFrom_head h.id h.event, eventsFrom_data _ h.data, hend,
    eventsFrom.eq_2, eventsFrom.eq_1]
  simp only [draft, Draft.addData, Draft.finish?, Option.map_some, Option.toList_some,
    String.ofList_toList, List.append_nil]

theorem newline_notMem_data {e : SseEvent} (hid : OneLine e.id.toList)
    (hevent : OneLine e.event.toList) (hcr : '\r' ∉ e.data.toList) (h : e ∈ events e.text) :
    '\n' ∉ e.data.toList := by
  -- The first line of the data is read as it is. A further one counts only if it begins with the
  -- name of a field, and then for less than it is long, so that what is read is too short.
  intro hmem
  obtain ⟨first, rest, hsplit, hfirst⟩ := List.eq_append_cons_of_mem hmem
  have hone : OneLine (String.ofList first).toList := by
    rw [String.toList_ofList]
    rintro c hc (rfl | rfl)
    · exact hfirst hc
    · exact hcr (hsplit ▸ List.mem_append_left _ hc)
  have htext : (line "data" e.data).toList ++ ['\n'] =
      (line "data" (String.ofList first)).toList ++ (rest ++ '\n' :: ['\n']) := by
    simp [toList_line, hsplit]
  rw [events, toList_text, eventsFrom_head hid hevent, htext, eventsFrom_data _ hone] at h
  have hlt := length_data_lt _ _ e h
  have hlines := length_linesFrom [] (rest ++ '\n' :: ['\n'])
  have htwo : 2 ≤ (lines (rest ++ '\n' :: ['\n'])).length := by
    obtain ⟨l, ls, hl⟩ := linesFrom_eq_cons [] rest
    have hend : lines ['\n'] = [[]] := rfl
    rw [lines_append_newline, lines, hl, hend]
    simp
  rw [Draft.size_addData, hsplit, String.toList_ofList, lines] at hlt
  rw [lines] at htwo
  have hsize : e.draft.size = 0 := rfl
  simp only [List.length_append, List.length_cons, List.length_nil] at hlines hlt
  omega

theorem events_text_iff (e : SseEvent) : events e.text = [e] ↔ e.OneLined := by
  refine ⟨fun h => ?_, OneLined.events_text⟩
  have hmem : e ∈ events e.text := by simp [h]
  have hlines : ∀ l ∈ lines e.text.toList, OneLine l := oneLine_of_mem_linesFrom oneLine_nil
  obtain ⟨hid, hevent, hcr⟩ := legible_of_mem_eventsFrom Draft.legible_empty hlines e hmem
  have hlf := newline_notMem_data hid hevent hcr hmem
  refine ⟨hid, hevent, ?_⟩
  rintro c hc (rfl | rfl)
  · exact hlf hc
  · exact hcr hc

end SseEvent

namespace SseItem

def event? : SseItem → Option SseEvent
  | .event e => some e
  | .comment _ => none

/-- Whether the item, if it is a comment, is one line. -/
def CommentOneLine : SseItem → Prop
  | .event _ => True
  | .comment c => OneLine c.toList

theorem eventsFrom_text (i : SseItem) (h : i.CommentOneLine) (rest : List Char) :
    eventsFrom {} (lines (i.text.toList ++ rest)) =
      (i.event?.toList.flatMap fun e => events e.text) ++ eventsFrom {} (lines rest) := by
  cases i with
  | event e =>
    rw [text, e.ended_text, e.lines_text, List.append_assoc, List.singleton_append,
      eventsFrom_append_blank, ← e.lines_text]
    simp [event?, events]
  | comment c =>
    have htext : (text (.comment c)).toList ++ rest = (':' :: c.toList) ++ '\n' :: rest := by
      simp [text]
    have hline : OneLine (':' :: c.toList) := List.forall_mem_cons.mpr ⟨by decide, h⟩
    rw [htext, lines_cons hline, eventsFrom_cons {} (by simp)]
    rfl

theorem events_join (items : List SseItem) (h : ∀ i ∈ items, i.CommentOneLine) :
    events (String.join (items.map text)) =
      (items.filterMap event?).flatMap fun e => events e.text := by
  induction items with
  | nil => rfl
  | cons i items ih =>
    obtain ⟨hi, hitems⟩ := List.forall_mem_cons.mp h
    have ih := ih hitems
    rw [events] at ih ⊢
    rw [List.map_cons, String.join_cons, String.toList_append, eventsFrom_text i hi, ih]
    cases i <;> simp [List.filterMap_cons, event?]

theorem text?_flatMap_chunk (items : List SseItem) :
    Bytes.text? (items.flatMap chunk) = some (String.join (items.map text)) := by
  have h : items.flatMap chunk = Bytes.ofText (String.join (items.map text)) := by
    induction items with
    | nil => simp [Bytes.ofText_eq]
    | cons i items ih =>
      rw [List.flatMap_cons, ih, List.map_cons, String.join_cons, Bytes.ofText_append, chunk]
  rw [h, Bytes.text?_ofText]

end SseItem

theorem flatMap_eq_self_iff {α : Type} {f : α → List α} (h : ∀ a, f a ≠ []) {as : List α} :
    as.flatMap f = as ↔ ∀ a ∈ as, f a = [a] := by
  have hlength (as : List α) : as.length ≤ (as.flatMap f).length := by
    induction as with
    | nil => exact Nat.zero_le _
    | cons a as ih =>
      have ha := List.length_pos_iff.mpr (h a)
      rw [List.flatMap_cons, List.length_append, List.length_cons]
      omega
  induction as with
  | nil => simp
  | cons a as ih =>
    rw [List.flatMap_cons, List.forall_mem_cons]
    constructor
    · intro heq
      obtain ⟨b, bs, hb⟩ := List.exists_cons_of_ne_nil (h a)
      have hbs : bs.length = 0 := by
        have hsum := congrArg List.length heq
        have hle := hlength as
        rw [hb, List.length_append, List.length_cons, List.length_cons] at hsum
        omega
      rw [hb, List.length_eq_zero_iff.mp hbs] at heq ⊢
      obtain ⟨rfl, has⟩ := List.cons.inj heq
      exact ⟨rfl, ih.mp has⟩
    · rintro ⟨ha, has⟩
      rw [ha, ih.mpr has]
      rfl

/-- The wire text of events and one-line comments is unambiguous: it is read back as the events,
and as nothing else, exactly if no text of an event has a line end inside. -/
theorem events_read_back (items : List SseItem) (h : ∀ i ∈ items, i.CommentOneLine) :
    (Bytes.text? (items.flatMap SseItem.chunk)).map events = some (items.filterMap SseItem.event?) ↔
      ∀ e ∈ items.filterMap SseItem.event?, e.OneLined := by
  rw [SseItem.text?_flatMap_chunk, Option.map_some, Option.some_inj, SseItem.events_join items h,
    flatMap_eq_self_iff SseEvent.events_text_ne_nil]
  simp only [SseEvent.events_text_iff]

theorem events_read_back_comment :
    let kept : SseEvent := { id := ": x", data := " data: a" }
    let cut : SseEvent := { data := "a\ndata: b" }
    let chunks : List SseItem → Bytes := fun items => items.flatMap SseItem.chunk
    (Bytes.text? (chunks [.comment "data: x", .event kept])).map events = some [kept] ∧
      (Bytes.text? (chunks [.comment "data: x", .event cut])).map events ≠ some [cut] := by
  intro kept cut chunks
  have hone (e : SseEvent) : ∀ i ∈ [SseItem.comment "data: x", .event e], i.CommentOneLine := by
    have hcomment : OneLine "data: x".toList := by decide
    exact List.forall_mem_cons.mpr ⟨hcomment, List.forall_mem_singleton.mpr trivial⟩
  constructor
  · refine (events_read_back _ (hone kept)).mpr fun e he => ?_
    obtain rfl : kept = e := by simpa [SseItem.event?] using he
    exact ⟨by decide, by decide, by decide⟩
  · intro hread
    have hcut := (events_read_back _ (hone cut)).mp hread cut (by simp [SseItem.event?])
    exact absurd hcut.data (by decide)

end Testkit
