import Mathlib.Logic.Relation
import Testkit.Proofs.Reader.Work

/-! What can be seen of a source from outside: the bytes that come before it stalls, and those between
its stalls. How they were cut into items and what ended them is not seen. -/

namespace Testkit

/-- The bytes that come at once, and those that come after each stall. -/
structure Parts where
  first : Bytes
  later : List Bytes
deriving DecidableEq, Repr

namespace Parts

def none : Parts := ⟨[], []⟩

def prepend (b : Bytes) (p : Parts) : Parts := { p with first := b ++ p.first }

def afterStall (p : Parts) : Parts := ⟨[], p.first :: p.later⟩

def release (p : Parts) : Parts :=
  match p.later with
  | [] => p
  | b :: later => ⟨p.first ++ b, later⟩

@[simp]
theorem prepend_first (b : Bytes) (p : Parts) : (p.prepend b).first = b ++ p.first := rfl

@[simp]
theorem prepend_later (b : Bytes) (p : Parts) : (p.prepend b).later = p.later := rfl

@[simp]
theorem prepend_nil (p : Parts) : p.prepend [] = p := rfl

@[simp]
theorem prepend_prepend (b c : Bytes) (p : Parts) :
    (p.prepend c).prepend b = p.prepend (b ++ c) := by
  simp [prepend]

theorem release_prepend (b : Bytes) (p : Parts) : (p.prepend b).release = p.release.prepend b := by
  obtain ⟨first, later⟩ := p
  cases later with
  | nil => rfl
  | cons c later => simp [release, prepend]

end Parts

namespace Script

def parts : Script → Parts
  | [] => .none
  | .data [] :: _ => .none
  | .data (b :: bs) :: rest => (parts rest).prepend (b :: bs)
  | .interrupted :: rest => parts rest
  | .error _ :: _ => .none
  | .stall :: rest => (parts rest).afterStall

theorem parts_data {b : Bytes} (h : b ≠ []) (rest : Script) :
    parts (.data b :: rest) = rest.parts.prepend b := by
  cases b with
  | nil => exact absurd rfl h
  | cons x xs => rfl

theorem parts_cons {s t : Script} (h : s.parts = t.parts) (item : ScriptItem) :
    parts (item :: s) = parts (item :: t) := by
  cases item with
  | data b => cases b <;> simp [parts, h]
  | _ => simp [parts, h]

theorem parts_append {s t : Script} (h : s.parts = t.parts) (before : Script) :
    parts (before ++ s) = parts (before ++ t) := by
  induction before with
  | nil => exact h
  | cons item before ih => exact parts_cons ih item

inductive Edit : Script → Script → Prop
  | interrupt (before after : Script) : Edit (before ++ after) (before ++ .interrupted :: after)
  | split (before after : Script) {b c : Bytes} (hb : b ≠ []) (hc : c ≠ []) :
      Edit (before ++ .data (b ++ c) :: after) (before ++ .data b :: .data c :: after)
  /-- An item without data is an end, whatever comes after it. -/
  | stop (before after : Script) : Edit before (before ++ .data [] :: after)
  | fail (before after : Script) (message : String) : Edit before (before ++ .error message :: after)

/-- Whether one script can be made from the other by edits and their opposites. -/
def Alike : Script → Script → Prop := Relation.EqvGen Edit

theorem Edit.cons {s t : Script} (h : s.Edit t) (item : ScriptItem) :
    Edit (item :: s) (item :: t) := by
  cases h with
  | interrupt before after => exact .interrupt (item :: before) after
  | split before after hb hc => exact .split (item :: before) after hb hc
  | stop _ after => exact .stop (item :: s) after
  | fail _ after message => exact .fail (item :: s) after message

theorem Alike.cons {s t : Script} (h : s.Alike t) (item : ScriptItem) :
    Alike (item :: s) (item :: t) := by
  induction h with
  | rel _ _ he => exact .rel _ _ (he.cons item)
  | refl _ => exact .refl _
  | symm _ _ _ ih => exact .symm _ _ ih
  | trans _ _ _ _ _ ih ih' => exact .trans _ _ _ ih ih'

theorem Edit.parts_eq {s t : Script} (h : s.Edit t) : s.parts = t.parts := by
  cases h with
  | interrupt before after =>
    have hsame : parts after = parts (.interrupted :: after) := rfl
    exact parts_append hsame before
  | split before after hb hc =>
    refine parts_append ?_ before
    rw [parts_data hb, parts_data hc, parts_data (List.append_ne_nil_of_left_ne_nil hb _),
      Parts.prepend_prepend]
  | stop _ after =>
    have hnone : parts [] = parts (.data [] :: after) := rfl
    simpa using parts_append hnone s
  | fail _ after message =>
    have hnone : parts [] = parts (.error message :: after) := rfl
    simpa using parts_append hnone s

def ofBytes : Bytes → Script
  | [] => []
  | b :: bs => [.data (b :: bs)]

theorem ofBytes_of_ne_nil {b : Bytes} (h : b ≠ []) : ofBytes b = [.data b] := by
  cases b with
  | nil => exact absurd rfl h
  | cons x xs => rfl

def ofParts (p : Parts) : Script := ofBytes p.first ++ p.later.flatMap fun b => .stall :: ofBytes b

theorem alike_ofParts (s : Script) : s.Alike (ofParts s.parts) := by
  induction s with
  | nil => exact .refl _
  | cons item rest ih =>
    cases item with
    | interrupted => exact .trans _ _ _ (.symm _ _ (.rel _ _ (.interrupt [] rest))) ih
    | error message => exact .symm _ _ (.rel _ _ (.fail [] rest message))
    | stall => exact ih.cons .stall
    | data b =>
      by_cases hb : b = []
      · rw [hb]
        exact .symm _ _ (.rel _ _ (.stop [] rest))
      refine .trans _ _ _ (ih.cons (.data b)) ?_
      rw [parts_data hb]
      obtain ⟨first, later⟩ := parts rest
      -- The data is merged with the item of the first part, if there is one.
      by_cases hfirst : first = []
      · simp only [ofParts, Parts.prepend_first, Parts.prepend_later, hfirst, List.append_nil,
          ofBytes_of_ne_nil hb]
        exact .refl _
      · have hne : b ++ first ≠ [] := List.append_ne_nil_of_left_ne_nil hb _
        simp only [ofParts, Parts.prepend_first, Parts.prepend_later, ofBytes_of_ne_nil hfirst,
          ofBytes_of_ne_nil hne]
        exact .symm _ _ (.rel _ _ (.split [] _ hb hfirst))

/-- The edits are all that can be done without a change to the parts. -/
theorem alike_iff {s t : Script} : s.Alike t ↔ s.parts = t.parts := by
  refine ⟨fun h => ?_, fun h => ?_⟩
  · induction h with
    | rel _ _ he => exact he.parts_eq
    | refl _ => rfl
    | symm _ _ _ ih => exact ih.symm
    | trans _ _ _ _ _ ih ih' => exact ih.trans ih'
  · have ht := t.alike_ofParts
    rw [← h] at ht
    exact .trans _ _ _ s.alike_ofParts (.symm _ _ ht)

end Script

namespace Pump

/-- The parts that the pump has still to get, the first of them being what it does not have to be
released for. -/
def toRead (p : Pump) : Parts :=
  match p.state with
  | .stalled => p.script.parts.afterStall
  | .done => .none
  | _ => p.script.parts

def parts (p : Pump) : Parts := p.toRead.prepend (p.passed.flatten ++ p.inHand)

theorem parts_afterRead {p : Pump} (h : p.state = .reading) :
    (p.afterRead (p.script.read readLimit)).parts = p.parts := by
  rcases p.script.read_cases readLimit with
    ⟨hr, hs⟩ | ⟨message, rest, hs, hr⟩ | ⟨rest, hs, hr⟩ | ⟨rest, hs, hr⟩ | ⟨b, rest, hb, hs, hr⟩
  · have hnone : p.script.parts = .none := by
      rcases hs with hs | ⟨rest, hs⟩ <;> rw [hs] <;> rfl
    simp [hr, afterRead, parts, toRead, inHand, h, hnone]
  · have hnone : p.script.parts = .none := by rw [hs, Script.parts]
    simp [hr, afterRead, parts, toRead, inHand, h, hnone]
  · have hsame : p.script.parts = rest.parts := by rw [hs, Script.parts]
    simp [hr, afterRead, parts, toRead, inHand, h, hsame]
  · have hstall : p.script.parts = rest.parts.afterStall := by rw [hs, Script.parts]
    simp [hr, afterRead, parts, toRead, inHand, h, hstall]
  · have hrest : Script.parts (if (b.drop readLimit).isEmpty then rest
        else .data (b.drop readLimit) :: rest) = rest.parts.prepend (b.drop readLimit) := by
      split
      · next hnil => rw [List.isEmpty_iff.mp hnil, Parts.prepend_nil]
      · next hleft => exact Script.parts_data (by simpa using hleft) rest
    have hall : p.script.parts = rest.parts.prepend b := by rw [hs, Script.parts_data hb]
    simp only [hr, afterRead, parts, toRead, inHand, h, hrest, hall, Parts.prepend_prepend,
      List.append_assoc, List.nil_append, List.take_append_drop]

theorem parts_step {p : Pump} (h : p.wanted = true) : p.step.parts = p.parts := by
  cases hs : p.state with
  | reading =>
    simp only [step, hs]
    exact parts_afterRead hs
  | _ => simp [step, hs, h, parts, toRead, inHand]

theorem parts_runFor {p : Pump} (h : p.Sound) (n : Nat) : (p.runFor n).parts = p.parts := by
  induction n generalizing p with
  | zero => rfl
  | succ n ih =>
    simp only [runFor]
    split
    · rfl
    · rw [ih (follows_step h).sound, parts_step h.wanted]

theorem parts_release {p : Pump} (h : p.atRest = true) : p.release.parts = p.parts.release := by
  rcases p.atRest_iff.mp h with hs | hs
  · simp [release, hs, parts, toRead, inHand, Parts.release, Parts.afterStall, Parts.prepend]
  · simp [release, hs, parts, toRead, inHand, Parts.release, Parts.none]

/-- At rest, the first part is what was passed on, and there is a later one unless the pump is done. -/
theorem parts_of_atRest {p : Pump} (h : p.atRest = true) :
    p.parts.first = p.passed.flatten ∧ (p.parts.later = [] ↔ p.state = .done) := by
  rcases p.atRest_iff.mp h with hs | hs
  · simp [hs, parts, toRead, inHand, Parts.afterStall]
  · simp [hs, parts, toRead, inHand, Parts.none]

end Pump

end Testkit
