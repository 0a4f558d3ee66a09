import Testkit.Reader.Pump

/-! Where the bytes of a source are while the pump is at work, and how much work is left to it. -/

namespace Testkit

namespace ReadResult

def input : ReadResult → Bytes
  | .chunk b rest => b ++ rest.input
  | .ended => []
  | .interrupted rest => rest.input
  | .failed _ => []
  | .stalled rest => rest.input

def size : ReadResult → Nat
  | .chunk _ rest => rest.size + 1
  | .ended => 0
  | .interrupted rest => rest.size
  | .failed _ => 0
  | .stalled rest => rest.size

end ReadResult

namespace Script

theorem read_input (limit : Nat) (s : Script) : (s.read limit).input = s.input := by
  rcases s with - | ⟨item, rest⟩
  · rfl
  cases item with
  | data bytes =>
    rcases bytes with - | ⟨b, bs⟩
    · rfl
    have happ := List.take_append_drop limit (b :: bs)
    simp only [read, ReadResult.input, input]
    rcases hleft : (b :: bs).drop limit with - | ⟨c, cs⟩
    · rw [hleft, List.append_nil] at happ
      simp [happ]
    · rw [hleft] at happ
      simp only [List.isEmpty_cons, Bool.false_eq_true, if_false, input]
      rw [← List.append_assoc, happ]
  | interrupted => rfl
  | error message => rfl
  | stall => rfl

theorem read_size {limit : Nat} (h : 0 < limit) (s : Script) : (s.read limit).size ≤ s.size := by
  rcases s with - | ⟨item, rest⟩
  · exact Nat.le_refl _
  cases item with
  | data bytes =>
    rcases bytes with - | ⟨b, bs⟩
    · exact Nat.zero_le _
    have hlen : ((b :: bs).drop limit).length = (b :: bs).length - limit := List.length_drop
    simp only [read, ReadResult.size, size]
    split
    · simp only [List.length_cons]
      omega
    · simp only [size, List.length_cons] at *
      omega
  | interrupted => exact Nat.le_add_left _ _
  | error message => exact Nat.zero_le _
  | stall => exact Nat.le_add_left _ _

end Script

namespace Pump

def inHand (p : Pump) : Bytes :=
  match p.state with
  | .sending chunk => chunk
  | _ => []

def held (p : Pump) : Bytes := p.passed.flatten ++ p.inHand ++ p.script.input

/-- A bound on the chunks that are still to be taken. -/
def load (p : Pump) : Nat :=
  match p.state with
  | .sending _ => p.passed.length + p.script.size + 1
  | _ => p.passed.length + p.script.size

/-- Whether the pump has somebody to read for, and is done only at the end of the input. -/
structure Sound (p : Pump) : Prop where
  wanted : p.wanted = true
  done : p.state = .done → p.script.input = []

/-- Whether `q` can be what becomes of `p` while nobody takes a chunk. -/
structure Follows (p q : Pump) : Prop where
  sound : q.Sound
  held : q.held = p.held
  load : q.load ≤ p.load
  done : p.state = .done → q.state = .done ∧ q.passed = p.passed

theorem Follows.refl {p : Pump} (h : p.Sound) : p.Follows p :=
  ⟨h, rfl, Nat.le_refl _, fun hd => ⟨hd, rfl⟩⟩

theorem Follows.trans {p q t : Pump} (h : p.Follows q) (h' : q.Follows t) : p.Follows t := by
  refine ⟨h'.sound, h'.held.trans h.held, Nat.le_trans h'.load h.load, fun hd => ?_⟩
  obtain ⟨hq, hpassed⟩ := h.done hd
  obtain ⟨ht, hpassed'⟩ := h'.done hq
  exact ⟨ht, hpassed'.trans hpassed⟩

theorem follows_afterRead {p : Pump} (h : p.Sound) (hs : p.state = .reading) :
    p.Follows (p.afterRead (p.script.read readLimit)) := by
  have hinput := Script.read_input readLimit p.script
  have hsize := Script.read_size (show 0 < readLimit by decide) p.script
  obtain ⟨script, state, reads, passed, wanted, failure⟩ := p
  obtain rfl : state = .reading := hs
  have hw := h.wanted
  cases hr : script.read readLimit with
  | chunk b rest =>
    simp only [hr, ReadResult.input, ReadResult.size] at hinput hsize
    refine ⟨⟨hw, by simp [afterRead]⟩, ?_, ?_, by simp⟩
    · simp [held, inHand, afterRead, ← hinput]
    · simp only [load, afterRead]
      omega
  | ended =>
    simp only [hr, ReadResult.input] at hinput
    exact ⟨⟨hw, fun _ => hinput.symm⟩, rfl, Nat.le_refl _, by simp⟩
  | interrupted rest =>
    simp only [hr, ReadResult.input, ReadResult.size] at hinput hsize
    refine ⟨⟨hw, by simp [afterRead]⟩, ?_, ?_, by simp⟩
    · simp [held, inHand, afterRead, hinput]
    · simp only [load, afterRead]
      omega
  | failed message =>
    simp only [hr, ReadResult.input] at hinput
    exact ⟨⟨hw, fun _ => hinput.symm⟩, rfl, Nat.le_refl _, by simp⟩
  | stalled rest =>
    simp only [hr, ReadResult.input, ReadResult.size] at hinput hsize
    refine ⟨⟨hw, by simp [afterRead]⟩, ?_, ?_, by simp⟩
    · simp [held, inHand, afterRead, hinput]
    · simp only [load, afterRead]
      omega

theorem follows_step {p : Pump} (h : p.Sound) : p.Follows p.step := by
  cases hs : p.state with
  | reading =>
    simp only [step, hs]
    exact follows_afterRead h hs
  | idle =>
    simp only [step, hs]
    refine ⟨⟨h.wanted, by simp⟩, ?_, ?_, by simp [hs]⟩
    · simp [held, inHand, hs]
    · simp [load, hs]
  | stalled =>
    simp only [step, hs]
    exact .refl h
  | sending chunk =>
    simp only [step, hs, h.wanted, if_true]
    refine ⟨⟨rfl, by simp⟩, ?_, ?_, by simp [hs]⟩
    · simp [held, inHand, hs]
    · simp only [load, hs, List.length_append, List.length_singleton]
      omega
  | done =>
    simp only [step, hs]
    exact .refl h

theorem follows_release {p : Pump} (h : p.Sound) : p.Follows p.release := by
  simp only [release]
  split
  · next hs =>
    refine ⟨⟨h.wanted, by simp⟩, ?_, ?_, by simp [hs]⟩
    · simp [held, inHand, hs]
    · simp [load, hs]
  · exact .refl h

theorem follows_moves {p : Pump} (h : p.Sound) (ms : List Move) : p.Follows (p.moves ms) := by
  induction ms generalizing p with
  | nil => exact .refl h
  | cons m ms ih =>
    have hm : p.Follows (p.move m) := by
      cases m with
      | step => exact follows_step h
      | release => exact follows_release h
    exact hm.trans (ih hm.sound)

end Pump

end Testkit
