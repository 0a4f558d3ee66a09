import Testkit.Proofs.Reader.Pumping
import Testkit.Reader.Timed

/-! Where the bytes of a source are while it is pumped and read. None of them is lost, and none comes
twice or out of order. -/

namespace Testkit

namespace TimedReader

/-- The bytes that were not handed out yet, in their order. -/
def held (r : TimedReader) : Bytes := r.buffered ++ r.pump.held

structure Sound (r : TimedReader) : Prop where
  pump : r.pump.Sound
  finished : r.finished = true → r.pump.state = .done ∧ r.pump.passed = []

theorem sound_ofScript (script : Script) : (ofScript script).Sound :=
  ⟨⟨rfl, by simp [ofScript]⟩, by simp [ofScript]⟩

theorem held_ofScript (script : Script) : (ofScript script).held = script.input := rfl

theorem Sound.held_of_finished {r : TimedReader} (h : r.Sound) (hf : r.finished = true) :
    r.held = r.buffered := by
  obtain ⟨hdone, hpassed⟩ := h.finished hf
  simp [held, Pump.held, Pump.inHand, hdone, hpassed, h.pump.done hdone]

/-- Whether `s` can be what becomes of `r` while nothing is handed out. -/
structure Follows (r s : TimedReader) : Prop where
  sound : s.Sound
  held : s.held = r.held
  load : s.pump.load ≤ r.pump.load

theorem Follows.refl {r : TimedReader} (h : r.Sound) : r.Follows r := ⟨h, rfl, Nat.le_refl _⟩

theorem Follows.trans {r s t : TimedReader} (h : r.Follows s) (h' : s.Follows t) : r.Follows t :=
  ⟨h'.sound, h'.held.trans h.held, Nat.le_trans h'.load h.load⟩

theorem follows_moves {r : TimedReader} (h : r.Sound) (ms : List Pump.Move) :
    r.Follows { r with pump := r.pump.moves ms } := by
  have hp := Pump.follows_moves h.pump ms
  refine ⟨⟨hp.sound, fun hf => ?_⟩, congrArg (r.buffered ++ ·) hp.held, hp.load⟩
  obtain ⟨hdone, hpassed⟩ := h.finished hf
  obtain ⟨hdone', hpassed'⟩ := hp.done hdone
  exact ⟨hdone', hpassed'.trans hpassed⟩

structure CutShort (r : TimedReader) (deadline now : Instant) : Prop where
  late : deadline ≤ now
  empty : r.pump.passed = []
  running : r.pump.state ≠ .done

end TimedReader

/-- What is known after a wait that began with `r` and is over with `s` at the time `now`. -/
def Awaited.Holds (deadline now : Instant) (r s : TimedReader) : Awaited → Prop
  | .chunk => s.pump.load < r.pump.load
  | .ended => s.finished = true
  | .timedOut => s.CutShort deadline now

theorem Awaited.Holds.of_follows {deadline now : Instant} {r s t : TimedReader} {a : Awaited}
    (h : a.Holds deadline now s t) (hr : r.Follows s) : a.Holds deadline now r t := by
  cases a with
  | chunk => exact Nat.lt_of_lt_of_le h hr.load
  | ended => exact h
  | timedOut => exact h

namespace TimedReader

theorem found_eq_none {r : TimedReader} (h : r.found = none) :
    r.pump.passed = [] ∧ r.pump.state ≠ .done := by
  simp only [found] at h
  split at h
  · simp at h
  · next hpassed =>
    refine ⟨hpassed, fun hdone => ?_⟩
    simp [hdone] at h

theorem found_eq_some {r s : TimedReader} {a : Awaited} (h : r.Sound) (hs : r.found = some (a, s)) :
    r.Follows s ∧ ∀ deadline now, Awaited.Holds deadline now r s a := by
  simp only [found] at hs
  split at hs
  · next chunk rest hpassed =>
    obtain ⟨rfl, rfl⟩ := Prod.mk.inj (Option.some.inj hs)
    have hload : Pump.load { r.pump with passed := rest } < r.pump.load := by
      simp only [Pump.load, hpassed, List.length_cons]
      split <;> omega
    refine ⟨⟨⟨⟨h.pump.wanted, h.pump.done⟩, fun hf => ?_⟩, ?_, Nat.le_of_lt hload⟩, fun _ _ => hload⟩
    · have hnil := (h.finished hf).2
      rw [hpassed] at hnil
      simp at hnil
    · simp [held, Pump.held, Pump.inHand, hpassed]
  · next hpassed =>
    split at hs
    · next hdone =>
      obtain ⟨rfl, rfl⟩ := Prod.mk.inj (Option.some.inj hs)
      exact ⟨⟨⟨h.pump, fun _ => ⟨hdone, hpassed⟩⟩, rfl, Nat.le_refl _⟩, fun _ _ => rfl⟩
    · simp at hs

theorem follows_await {r : TimedReader} (h : r.Sound) (deadline now : Instant)
    (looks : List Look) :
    r.Follows (r.await deadline now looks).2.2.2 ∧
      (r.await deadline now looks).1.Holds deadline (r.await deadline now looks).2.1 r
        (r.await deadline now looks).2.2.2 := by
  induction looks generalizing now r with
  | nil =>
    simp only [await]
    cases hfound : r.found with
    | some found =>
      obtain ⟨hs, ha⟩ := found_eq_some h hfound
      exact ⟨hs, ha deadline now⟩
    | none =>
      obtain ⟨hempty, hrunning⟩ := found_eq_none hfound
      exact ⟨.refl h, Nat.le_max_right _ _, hempty, hrunning⟩
  | cons look looks ih =>
    have hr := follows_moves h look.moves
    simp only [await]
    cases hfound : TimedReader.found { r with pump := r.pump.moves look.moves } with
    | some found =>
      obtain ⟨hs, ha⟩ := found_eq_some hr.sound hfound
      exact ⟨hr.trans hs, (ha deadline _).of_follows hr⟩
    | none =>
      by_cases hlate : deadline ≤ max now look.time
      · simp only [hlate, if_true]
        obtain ⟨hempty, hrunning⟩ := found_eq_none hfound
        exact ⟨hr, hlate, hempty, hrunning⟩
      · simp only [hlate, if_false]
        obtain ⟨hs, ha⟩ := ih hr.sound (max now look.time)
        exact ⟨hr.trans hs, ha.of_follows hr⟩

theorem follows_fill {r : TimedReader} (h : r.Sound) (deadline now : Instant)
    (looks : List Look) :
    r.Follows (r.fill deadline now looks).2.2.2 ∧
      (r.fill deadline now looks).1.Holds deadline (r.fill deadline now looks).2.1 r
        (r.fill deadline now looks).2.2.2 := by
  simp only [fill]
  split
  · next hf => exact ⟨.refl h, hf⟩
  · exact follows_await h deadline now looks

theorem follows_fillWhile {r : TimedReader} (h : r.Sound) (more : Bytes → Bool)
    (deadline : Instant) (n : Nat) (now : Instant) (looks : List Look) :
    r.Follows (r.fillWhile more deadline n now looks).2 := by
  induction n generalizing now looks r with
  | zero => exact .refl h
  | succ n ih =>
    simp only [fillWhile]
    split
    · obtain ⟨hs, -⟩ := follows_fill h deadline now looks
      revert hs
      rcases r.fill deadline now looks with ⟨a, later, rest, s⟩
      intro hs
      cases a with
      | chunk => exact hs.trans (ih hs.sound later rest)
      | ended => exact hs
      | timedOut => exact hs
    · exact .refl h

theorem fillWhile_stops {r : TimedReader} (h : r.Sound) (more : Bytes → Bool)
    (deadline : Instant) {n : Nat} (hn : r.pump.load < n) (now : Instant) (looks : List Look) :
    let later := (r.fillWhile more deadline n now looks).1
    let s := (r.fillWhile more deadline n now looks).2
    more s.buffered = false ∨ s.finished = true ∨ s.CutShort deadline later := by
  -- Each chunk that comes takes one from the load, so that the loop ends before the count does.
  induction n generalizing now looks r with
  | zero => exact absurd hn (Nat.not_lt_zero _)
  | succ n ih =>
    simp only [fillWhile]
    by_cases hmore : more r.buffered = true
    · simp only [hmore, if_true]
      obtain ⟨hs, ha⟩ := follows_fill h deadline now looks
      revert hs ha
      rcases r.fill deadline now looks with ⟨a, later, rest, s⟩
      intro hs ha
      cases a with
      | chunk =>
        have hload : s.pump.load < r.pump.load := ha
        exact ih hs.sound (Nat.lt_of_lt_of_le hload (Nat.le_of_lt_succ hn)) later rest
      | ended => exact .inr (.inl ha)
      | timedOut => exact .inr (.inr ha)
    · simp only [hmore]
      exact .inl (by simpa using hmore)

theorem load_lt_supply (r : TimedReader) : r.pump.load < r.supply + 1 := by
  simp only [Pump.load, supply]
  split <;> omega

theorem held_drop {r : TimedReader} (b : Bytes) :
    held { r with buffered := b } = b ++ r.pump.held := rfl

theorem sound_buffered {r : TimedReader} (h : r.Sound) (b : Bytes) :
    Sound { r with buffered := b } :=
  ⟨h.pump, h.finished⟩

theorem read_spec {r : TimedReader} (h : r.Sound) (n : Nat) (deadline now : Instant)
    (looks : List Look) :
    let (b, later, s) := r.read n deadline now looks
    s.Sound ∧ b ++ s.held = r.held ∧ b.length ≤ n ∧
      (b.length = n ∨ s.buffered = [] ∧ (s.finished = true ∨ s.CutShort deadline later)) := by
  have hs := follows_fillWhile h (fun b => b.length < n) deadline (r.supply + 1) now looks
  have hstop := fillWhile_stops h (fun b => b.length < n) deadline r.load_lt_supply now looks
  simp only [read]
  revert hs hstop
  rcases r.fillWhile (fun b => b.length < n) deadline (r.supply + 1) now looks with ⟨later, s⟩
  intro hs hstop
  refine ⟨sound_buffered hs.sound _, ?_, List.length_take_le _ _, ?_⟩
  · rw [← hs.held, held_drop, ← List.append_assoc, List.take_append_drop]
    rfl
  · by_cases hlen : s.buffered.length < n
    · refine .inr ⟨List.drop_eq_nil_of_le (Nat.le_of_lt hlen), ?_⟩
      rcases hstop with hmore | hfinished | hcut
      · exact absurd hlen (by simpa using hmore)
      · exact .inl hfinished
      · exact .inr ⟨hcut.late, hcut.empty, hcut.running⟩
    · exact .inl (List.length_take_of_le (Nat.le_of_not_lt hlen))

theorem readToEnd_spec {r : TimedReader} (h : r.Sound) (deadline now : Instant)
    (looks : List Look) :
    let (b, _, s) := r.readToEnd deadline now looks
    s.Sound ∧ b.getD [] ++ s.held = r.held := by
  have hs := follows_fillWhile h (fun _ => true) deadline (r.supply + 1) now looks
  simp only [readToEnd]
  revert hs
  rcases r.fillWhile (fun _ => true) deadline (r.supply + 1) now looks with ⟨later, s⟩
  intro hs
  by_cases hf : s.finished = true
  · simp only [hf, if_true]
    exact ⟨⟨hs.sound.pump, fun _ => hs.sound.finished hf⟩, hs.held⟩
  · simp only [hf]
    exact ⟨hs.sound, hs.held⟩

end TimedReader

/-- What happens to a reader that is kept: its pump goes on by itself, or there is a call. -/
inductive ReaderStep where
  | pump (m : Pump.Move)
  | read (n : Nat) (timeout : Duration) (now : Instant) (looks : List Look)
  | readToEnd (timeout : Duration) (now : Instant) (looks : List Look)
  | exhausted

def ReaderAnswer.handedOut : ReaderAnswer → Bytes
  | .bytes b => b
  | _ => []

namespace TimedReader

def answer (x : ReaderAnswer × Instant × TimedReader) : Bytes × TimedReader :=
  (x.1.handedOut, x.2.2)

def take (r : TimedReader) : ReaderStep → Bytes × TimedReader
  | .pump m => ([], { r with pump := r.pump.move m })
  | .read n timeout now looks => answer (r.callAt now looks (.read n timeout))
  | .readToEnd timeout now looks => answer (r.callAt now looks (.readToEnd timeout))
  | .exhausted => answer (r.callAt .start [] .exhausted)

def session : List ReaderStep → TimedReader → Bytes × TimedReader
  | [], r => ([], r)
  | e :: es, r =>
    let (b, r) := r.take e
    let (bs, r) := session es r
    (b ++ bs, r)

theorem take_spec {r : TimedReader} (h : r.Sound) (e : ReaderStep) :
    (r.take e).2.Sound ∧ (r.take e).1 ++ (r.take e).2.held = r.held := by
  cases e with
  | pump m =>
    have hs := follows_moves h [m]
    exact ⟨hs.sound, hs.held⟩
  | read n timeout now looks =>
    simp only [take, answer, callAt]
    cases deadline? now timeout with
    | none => exact ⟨h, rfl⟩
    | some deadline =>
      obtain ⟨hs, hheld, -⟩ := read_spec h n deadline now looks
      exact ⟨hs, hheld⟩
  | readToEnd timeout now looks =>
    simp only [take, answer, callAt]
    cases deadline? now timeout with
    | none => exact ⟨h, rfl⟩
    | some deadline =>
      have hs := readToEnd_spec h deadline now looks
      revert hs
      dsimp only
      rcases r.readToEnd deadline now looks with ⟨- | b, later, s⟩
      · exact id
      · exact id
  | exhausted => exact ⟨h, rfl⟩

theorem session_spec {r : TimedReader} (h : r.Sound) (es : List ReaderStep) :
    (r.session es).2.Sound ∧ (r.session es).1 ++ (r.session es).2.held = r.held := by
  induction es generalizing r with
  | nil => exact ⟨h, rfl⟩
  | cons e es ih =>
    obtain ⟨hs, hheld⟩ := take_spec h e
    obtain ⟨hs', hheld'⟩ := ih hs
    refine ⟨hs', ?_⟩
    simp only [session, List.append_assoc]
    rw [hheld', hheld]

/-- After any steps, also in the middle of a further call, the bytes that were handed out are followed
by those that the reader has got, those in the channel, those in the hand of the pump and those that
were not read yet, and this is all of the input. A read gives no more than it was asked for. It gives
less only if it panics and changes nothing, if the input has ended and all of it was handed out, or if
the time is up and nothing more has come. -/
theorem session_conserves (script : Script) (es : List ReaderStep) :
    let out := ((ofScript script).session es).1
    let r := ((ofScript script).session es).2
    (∀ more deadline fills now looks ms,
      let s := (r.fillWhile more deadline fills now looks).2
      let p := s.pump.moves ms
      out ++ s.buffered ++ p.passed.flatten ++ p.inHand ++ p.script.input = script.input) ∧
    (∀ n timeout now looks,
      let answer := (r.callAt now looks (.read n timeout)).1
      let later := (r.callAt now looks (.read n timeout)).2.1
      let s := (r.callAt now looks (.read n timeout)).2.2
      answer.handedOut.length ≤ n ∧
        (answer.handedOut.length = n ∨
          answer = .overflow ∧ s = r ∨
          s.buffered = [] ∧ s.pump.state = .done ∧ out ++ answer.handedOut = script.input ∨
          s.buffered = [] ∧ s.pump.passed = [] ∧ s.pump.state ≠ .done ∧
            now + timeout.nanos ≤ later)) := by
  obtain ⟨hr, hheld⟩ := session_spec (sound_ofScript script) es
  rw [held_ofScript] at hheld
  revert hr hheld
  rcases (ofScript script).session es with ⟨out, r⟩
  intro hr hheld
  refine ⟨fun more deadline fills now looks ms => ?_, fun n timeout now looks => ?_⟩
  · have hfill := follows_fillWhile hr more deadline fills now looks
    have hs := (hfill.trans (follows_moves hfill.sound ms)).held
    rw [← hheld, ← hs]
    simp [held, Pump.held]
  · simp only [callAt]
    cases hd : deadline? now timeout with
    | none => exact ⟨Nat.zero_le _, .inr (.inl ⟨rfl, rfl⟩)⟩
    | some deadline =>
      have hspec := read_spec hr n deadline now looks
      revert hspec
      dsimp only
      rcases r.read n deadline now looks with ⟨b, later, s⟩
      rintro ⟨hs, hread, hle, hshort⟩
      refine ⟨hle, ?_⟩
      rcases hshort with hfull | ⟨hempty, hfinished | hcut⟩
      · exact .inl hfull
      · have hall := hs.held_of_finished hfinished
        rw [hempty] at hall
        rw [hall, List.append_nil] at hread
        have hinput : out ++ b = script.input := (congrArg (out ++ ·) hread).trans hheld
        exact .inr (.inr (.inl ⟨hempty, (hs.finished hfinished).1, hinput⟩))
      · have hlate := hcut.late
        rw [deadline?_eq_some hd] at hlate
        exact .inr (.inr (.inr ⟨hempty, hcut.empty, hcut.running, hlate⟩))

end TimedReader

end Testkit
