import Mathlib.Algebra.GroupWithZero.Nat
import Testkit.Proofs.Reader.Conservation

/-! The end of the input. A reader sees it only once it has got everything, be it while it reads or
while it waits for the end, and what it has seen it does not forget. -/

namespace Testkit

namespace Pump

/-- Whether the pumps differ at most in what they have passed on and what was taken of that. -/
def Like (p q : Pump) : Prop := q = { p with passed := q.passed }

theorem Like.state {p q : Pump} (h : p.Like q) : q.state = p.state := by
  rw [h]

theorem Like.move {p q : Pump} (h : p.Like q) (m : Move) : (p.move m).Like (q.move m) := by
  obtain ⟨script, state, reads, passed, wanted, failure⟩ := p
  rw [h]
  cases m with
  | release => cases state <;> rfl
  | step =>
    cases state with
    | reading =>
      simp only [Pump.move, step]
      cases script.read readLimit <;> rfl
    | sending chunk => cases wanted <;> rfl
    | _ => rfl

theorem Like.moves {p q : Pump} (h : p.Like q) (ms : List Move) :
    (p.moves ms).Like (q.moves ms) := by
  induction ms generalizing p q with
  | nil => exact h
  | cons m ms ih => exact ih (h.move m)

theorem moves_of_done {p : Pump} (h : p.state = .done) (ms : List Move) : p.moves ms = p := by
  induction ms with
  | nil => rfl
  | cons m ms ih =>
    have hm : p.move m = p := by cases m <;> simp [Pump.move, step, release, h]
    simpa only [moves, List.foldl_cons, hm] using ih

/-- Whether one of the looks shows that the pump is done, all looks before it being made before the
deadline. -/
def EndsInTime (deadline : Instant) : Instant → List Look → Pump → Prop
  | _, [], p => p.state = .done
  | now, look :: looks, p =>
    p.state = .done ∨ (p.moves look.moves).state = .done ∨
      max now look.time < deadline ∧
        EndsInTime deadline (max now look.time) looks (p.moves look.moves)

theorem EndsInTime.of_done {deadline now : Instant} {looks : List Look} {p : Pump}
    (h : p.state = .done) : p.EndsInTime deadline now looks := by
  cases looks with
  | nil => exact h
  | cons look looks => exact .inl h

theorem EndsInTime.like {deadline now : Instant} {looks : List Look} {p q : Pump}
    (h : p.EndsInTime deadline now looks) (hpq : p.Like q) : q.EndsInTime deadline now looks := by
  induction looks generalizing now p q with
  | nil => exact hpq.state.trans h
  | cons look looks ih =>
    rcases h with h | h | ⟨hin, h⟩
    · exact .inl (hpq.state.trans h)
    · exact .inr (.inl ((hpq.moves look.moves).state.trans h))
    · exact .inr (.inr ⟨hin, ih h (hpq.moves look.moves)⟩)

end Pump

namespace TimedReader

theorem found_keeps {r s : TimedReader} {a : Awaited} (h : r.found = some (a, s)) :
    r.buffered <+: s.buffered ∧ (a ≠ .ended → s.finished = r.finished) ∧
      (a = .ended → s.buffered = r.buffered) := by
  simp only [found] at h
  split at h
  · obtain ⟨rfl, rfl⟩ := Prod.mk.inj (Option.some.inj h)
    exact ⟨List.prefix_append _ _, fun _ => rfl, by simp⟩
  · split at h
    · obtain ⟨rfl, rfl⟩ := Prod.mk.inj (Option.some.inj h)
      exact ⟨List.prefix_refl _, by simp, fun _ => rfl⟩
    · simp at h

theorem found_like {r s : TimedReader} {a : Awaited} (h : r.found = some (a, s)) :
    a ≠ .timedOut ∧ r.pump.Like s.pump := by
  simp only [found] at h
  split at h
  · obtain ⟨rfl, rfl⟩ := Prod.mk.inj (Option.some.inj h)
    exact ⟨by simp, rfl⟩
  · split at h
    · obtain ⟨rfl, rfl⟩ := Prod.mk.inj (Option.some.inj h)
      exact ⟨by simp, rfl⟩
    · simp at h

theorem await_keeps (r : TimedReader) (deadline now : Instant) (looks : List Look) :
    let (a, _, _, s) := r.await deadline now looks
    r.buffered <+: s.buffered ∧ (a ≠ .ended → s.finished = r.finished) ∧
      (a = .ended → s.buffered = r.buffered) := by
  induction looks generalizing now r with
  | nil =>
    simp only [await]
    cases hfound : r.found with
    | some found => exact found_keeps hfound
    | none => exact ⟨List.prefix_refl _, fun _ => rfl, by simp⟩
  | cons look looks ih =>
    simp only [await]
    cases hfound : TimedReader.found { r with pump := r.pump.moves look.moves } with
    | some found =>
      have hkeeps := found_keeps hfound
      exact hkeeps
    | none =>
      by_cases hlate : deadline ≤ max now look.time
      · rw [if_pos hlate]
        exact ⟨List.prefix_refl _, fun _ => rfl, by simp⟩
      · rw [if_neg hlate]
        exact ih { r with pump := r.pump.moves look.moves } (max now look.time)

theorem await_in_time {r : TimedReader} {deadline now : Instant} {looks : List Look}
    (h : r.pump.EndsInTime deadline now looks) :
    let (a, later, rest, s) := r.await deadline now looks
    a ≠ .timedOut ∧ s.pump.EndsInTime deadline later rest := by
  induction looks generalizing now r with
  | nil =>
    simp only [await]
    cases hfound : r.found with
    | some found =>
      obtain ⟨ha, hlike⟩ := found_like hfound
      exact ⟨ha, h.like hlike⟩
    | none => exact absurd h (found_eq_none hfound).2
  | cons look looks ih =>
    have hmoved : (r.pump.moves look.moves).state = .done ∨ max now look.time < deadline ∧
        (r.pump.moves look.moves).EndsInTime deadline (max now look.time) looks := by
      rcases h with h | h
      · exact .inl (by rwa [Pump.moves_of_done h])
      · exact h
    simp only [await]
    cases hfound : TimedReader.found { r with pump := r.pump.moves look.moves } with
    | some found =>
      obtain ⟨ha, hlike⟩ := found_like hfound
      refine ⟨ha, Pump.EndsInTime.like ?_ hlike⟩
      rcases hmoved with hdone | ⟨-, hrest⟩
      · exact .of_done hdone
      · exact hrest
    | none =>
      rcases hmoved with hdone | ⟨hin, hrest⟩
      · exact absurd hdone (found_eq_none hfound).2
      · rw [if_neg (Nat.not_le_of_lt hin)]
        exact ih hrest

theorem fill_keeps (r : TimedReader) (deadline now : Instant) (looks : List Look) :
    let (a, _, _, s) := r.fill deadline now looks
    r.buffered <+: s.buffered ∧ (a ≠ .ended → s.finished = r.finished) ∧
      (a = .ended → s.buffered = r.buffered) := by
  simp only [fill]
  split
  · exact ⟨List.prefix_refl _, fun _ => rfl, fun _ => rfl⟩
  · exact await_keeps r deadline now looks

theorem fillWhile_keeps (r : TimedReader) (more : Bytes → Bool) (deadline : Instant) (n : Nat)
    (now : Instant) (looks : List Look) :
    let s := (r.fillWhile more deadline n now looks).2
    r.buffered <+: s.buffered ∧
      (s.finished = true → r.finished = true ∨ more s.buffered = true) := by
  induction n generalizing now looks r with
  | zero => exact ⟨List.prefix_refl _, .inl⟩
  | succ n ih =>
    simp only [fillWhile]
    by_cases hmore : more r.buffered = true
    · simp only [hmore, if_true]
      have hfill := fill_keeps r deadline now looks
      revert hfill
      rcases r.fill deadline now looks with ⟨a, later, rest, s⟩
      rintro ⟨hbuffered, hfinished, hended⟩
      cases a with
      | chunk =>
        obtain ⟨hbuffered', hseen⟩ := ih s later rest
        refine ⟨hbuffered.trans hbuffered', fun hs => ?_⟩
        rw [← hfinished (by simp)]
        exact hseen hs
      | ended => exact ⟨hbuffered, fun _ => .inr (by rw [hended rfl, hmore])⟩
      | timedOut => exact ⟨hbuffered, fun hs => .inl (hfinished (by simp) ▸ hs)⟩
    · simp only [hmore]
      exact ⟨List.prefix_refl _, .inl⟩

theorem fillWhile_of_finished {r : TimedReader} (h : r.finished = true) (more : Bytes → Bool)
    (deadline : Instant) (n : Nat) (now : Instant) (looks : List Look) :
    r.fillWhile more deadline n now looks = (now, r) := by
  cases n with
  | zero => rfl
  | succ n =>
    simp only [fillWhile, fill, h, if_true]
    split <;> rfl

theorem fillWhile_in_time {r : TimedReader} (h : r.Sound) {deadline now : Instant}
    {looks : List Look} (hin : r.pump.EndsInTime deadline now looks) {n : Nat}
    (hn : r.pump.load < n) :
    (r.fillWhile (fun _ => true) deadline n now looks).2.finished = true := by
  induction n generalizing now looks r with
  | zero => exact absurd hn (Nat.not_lt_zero _)
  | succ n ih =>
    simp only [fillWhile, if_true, fill]
    by_cases hf : r.finished = true
    · simp only [hf, if_true]
    · simp only [hf]
      obtain ⟨hs, ha⟩ := follows_await h deadline now looks
      have hawait := await_in_time hin
      revert hs ha hawait
      rcases r.await deadline now looks with ⟨a, later, rest, s⟩
      rintro hs ha ⟨htimed, hrest⟩
      cases a with
      | chunk =>
        have hload : s.pump.load < r.pump.load := ha
        exact ih hs.sound hrest (Nat.lt_of_lt_of_le hload (Nat.le_of_lt_succ hn))
      | ended => exact ha
      | timedOut => exact absurd rfl htimed

theorem isExhausted_iff (r : TimedReader) :
    r.isExhausted = true ↔ r.finished = true ∧ r.buffered = [] := by
  simp [isExhausted]

theorem callAt_read {now deadline : Instant} {timeout : Duration}
    (hd : deadline? now timeout = some deadline) (r : TimedReader) (looks : List Look) (n : Nat) :
    r.callAt now looks (.read n timeout) =
      (.bytes (r.read n deadline now looks).1, (r.read n deadline now looks).2) := by
  simp only [callAt, hd]

theorem callAt_readToEnd {now deadline : Instant} {timeout : Duration}
    (hd : deadline? now timeout = some deadline) (r : TimedReader) (looks : List Look) :
    r.callAt now looks (.readToEnd timeout) =
      ((r.readToEnd deadline now looks).1.elim .notEnded .bytes,
        (r.readToEnd deadline now looks).2) := by
  simp only [callAt, hd]
  split
  · next heq => simp [heq]
  · next heq => simp [heq]

theorem readToEnd_cases {r : TimedReader} (h : r.Sound) (deadline now : Instant)
    (looks : List Look) :
    let (b, later, s) := r.readToEnd deadline now looks
    (b = some r.held ∧ s.isExhausted = true) ∨
      (b = none ∧ r.finished = false ∧ s.finished = false ∧ s.CutShort deadline later) := by
  have hs := follows_fillWhile h (fun _ => true) deadline (r.supply + 1) now looks
  have hstop := fillWhile_stops h (fun _ => true) deadline r.load_lt_supply now looks
  have hold := fun hf => fillWhile_of_finished (r := r) hf (fun _ => true) deadline (r.supply + 1) now looks
  simp only [readToEnd]
  revert hs hstop hold
  rcases r.fillWhile (fun _ => true) deadline (r.supply + 1) now looks with ⟨later, s⟩
  intro hs hstop hold
  by_cases hf : s.finished = true
  · simp only [hf, if_true]
    refine .inl ⟨?_, by simp [isExhausted]⟩
    rw [← hs.held, hs.sound.held_of_finished hf]
  · rw [if_neg hf]
    refine .inr ⟨rfl, ?_, Bool.eq_false_iff.mpr hf, ?_⟩
    · refine Bool.eq_false_iff.mpr fun hr => hf ?_
      rw [(Prod.mk.inj (hold hr)).2]
      exact hr
    · rcases hstop with hmore | hfinished | hcut
      · simp at hmore
      · exact absurd hfinished hf
      · exact hcut

theorem readToEnd_in_time {r : TimedReader} (h : r.Sound) {deadline now : Instant}
    {looks : List Look} (hin : r.pump.EndsInTime deadline now looks) :
    (r.readToEnd deadline now looks).1 ≠ none := by
  have hf := fillWhile_in_time h hin r.load_lt_supply
  simp only [readToEnd]
  rw [if_pos hf]
  simp

theorem read_cases {r : TimedReader} (h : r.Sound) (n : Nat) (deadline now : Instant)
    (looks : List Look) :
    let (b, later, s) := r.read n deadline now looks
    (b.length < n → s.isExhausted = true ∨ s.CutShort deadline later) ∧
      (s.finished = true ↔ r.finished = true ∨ b.length < n ∧ ¬ s.CutShort deadline later) := by
  have hspec := read_spec h n deadline now looks
  have hkeeps := fillWhile_keeps r (fun b => b.length < n) deadline (r.supply + 1) now looks
  have hold := fun hf =>
    fillWhile_of_finished (r := r) hf (fun b => b.length < n) deadline (r.supply + 1) now looks
  revert hspec
  simp only [read]
  revert hkeeps hold
  rcases r.fillWhile (fun b => b.length < n) deadline (r.supply + 1) now looks with ⟨later, s⟩
  rintro ⟨-, hseen⟩ hold ⟨hsound, -, -, hfull⟩
  have hshort : (s.buffered.take n).length < n →
      s.buffered.drop n = [] ∧ (s.finished = true ∨
        CutShort { s with buffered := s.buffered.drop n } deadline later) :=
    fun hlt => hfull.resolve_left (Nat.ne_of_lt hlt)
  refine ⟨fun hlt => ?_, fun hf => ?_, fun hf => ?_⟩
  · obtain ⟨hnil, hfinished | hcut⟩ := hshort hlt
    · exact .inl (by simp [isExhausted, hfinished, hnil])
    · exact .inr hcut
  · rcases hseen hf with hr | hmore
    · exact .inl hr
    · have hlt : s.buffered.length < n := by simpa using hmore
      exact .inr ⟨Nat.lt_of_le_of_lt (List.length_take_le' _ _) hlt,
        fun hcut => hcut.running (hsound.finished hf).1⟩
  · rcases hf with hr | ⟨hlt, hcut⟩
    · rw [(Prod.mk.inj (hold hr)).2]
      exact hr
    · exact (hshort hlt).2.resolve_right hcut

/-- Whether a step shows the end: a wait for it is over in time, or a read gets less than it asked for
and was not cut short. -/
def SeesEnd (r : TimedReader) : ReaderStep → Prop
  | .read n timeout now looks =>
    let (answer, later, s) := r.callAt now looks (.read n timeout)
    ∃ b, answer = .bytes b ∧ b.length < n ∧ ¬ s.CutShort (now + timeout.nanos) later
  | .readToEnd timeout now looks => ∃ b, (r.callAt now looks (.readToEnd timeout)).1 = .bytes b
  | _ => False

def HasSeenEnd : TimedReader → List ReaderStep → Prop
  | _, [] => False
  | r, e :: es => r.SeesEnd e ∨ (r.take e).2.HasSeenEnd es

theorem take_finished {r : TimedReader} (h : r.Sound) (e : ReaderStep) :
    (r.take e).2.finished = true ↔ r.finished = true ∨ r.SeesEnd e := by
  cases e with
  | pump m => simp [take, SeesEnd]
  | exhausted => simp [take, answer, callAt, SeesEnd]
  | read n timeout now looks =>
    cases hd : deadline? now timeout with
    | none => simp [take, answer, callAt, SeesEnd, hd]
    | some deadline =>
      have hcases := read_cases h n deadline now looks
      simp only [take, answer, SeesEnd, callAt_read hd, ← deadline?_eq_some hd]
      revert hcases
      rcases r.read n deadline now looks with ⟨b, later, s⟩
      rintro ⟨-, hseen⟩
      simpa using hseen
  | readToEnd timeout now looks =>
    cases hd : deadline? now timeout with
    | none => simp [take, answer, callAt, SeesEnd, hd]
    | some deadline =>
      have hcases := readToEnd_cases h deadline now looks
      simp only [take, answer, SeesEnd, callAt_readToEnd hd]
      revert hcases
      rcases r.readToEnd deadline now looks with ⟨b, later, s⟩
      rintro (⟨rfl, hs⟩ | ⟨rfl, hr, hs, -⟩)
      · have hf : s.finished = true := (s.isExhausted_iff.mp hs).1
        simp [hf]
      · have hf : s.finished = false := hs
        simp [hr, hf]

theorem session_finished {r : TimedReader} (h : r.Sound) (es : List ReaderStep) :
    (r.session es).2.finished = true ↔ r.finished = true ∨ r.HasSeenEnd es := by
  induction es generalizing r with
  | nil => simp [session, HasSeenEnd]
  | cons e es ih =>
    simp only [session, HasSeenEnd]
    rw [ih (take_spec h e).1, take_finished h e, or_assoc]

theorem Sound.held_of_exhausted {r : TimedReader} (h : r.Sound) (he : r.isExhausted = true) :
    r.held = [] := by
  obtain ⟨hf, hb⟩ := r.isExhausted_iff.mp he
  rw [h.held_of_finished hf, hb]

theorem session_of_exhausted {r : TimedReader} (h : r.Sound) (he : r.isExhausted = true)
    (es : List ReaderStep) : (r.session es).2.isExhausted = true := by
  obtain ⟨hs, hheld⟩ := session_spec h es
  rw [h.held_of_exhausted he, List.append_eq_nil_iff] at hheld
  have hf : (r.session es).2.finished = true :=
    (session_finished h es).mpr (.inl (r.isExhausted_iff.mp he).1)
  have hnone : (r.session es).2.buffered = [] := by rw [← hs.held_of_finished hf, hheld.2]
  exact (isExhausted_iff _).mpr ⟨hf, hnone⟩

/-- There is nothing more, the reader says so without waiting, and all this stays so. -/
def OverForGood (r : TimedReader) : Prop :=
  ∀ es, let s := (r.session es).2
    s.isExhausted = true ∧ ∀ timeout now looks, (deadline? now timeout).isSome →
      (∀ n, s.callAt now looks (.read n timeout) = (.bytes [], now, s)) ∧
      s.callAt now looks (.readToEnd timeout) = (.bytes [], now, s)

theorem overForGood_of_exhausted {r : TimedReader} (h : r.Sound) (he : r.isExhausted = true) :
    r.OverForGood := by
  intro es s
  have hs : s.isExhausted = true := session_of_exhausted h he es
  obtain ⟨hf, hb⟩ := s.isExhausted_iff.mp hs
  have hsame : { s with buffered := [] } = s := by rw [← hb]
  refine ⟨hs, fun timeout now looks hd => ?_⟩
  obtain ⟨deadline, hd⟩ := Option.isSome_iff_exists.mp hd
  refine ⟨fun n => ?_, ?_⟩
  · simp only [callAt, hd, read, fillWhile_of_finished hf, hb, List.take_nil, List.drop_nil, hsame]
  · have hend : s.readToEnd deadline now looks = (some [], now, s) := by
      simp only [readToEnd, fillWhile_of_finished hf]
      rw [if_pos hf, hsame, hb]
    rw [callAt_readToEnd hd, hend]
    rfl

end TimedReader

/-- How many bytes a step asks for. A read that panics asks for none. -/
def ReaderStep.asked : ReaderStep → Nat
  | .read n timeout now _ => if (deadline? now timeout).isSome then n else 0
  | _ => 0

namespace TimedReader

theorem take_hands_out (r : TimedReader) (e : ReaderStep) :
    let (b, s) := r.take e
    min e.asked r.buffered.length ≤ b.length ∧ r.buffered.length ≤ b.length + s.buffered.length := by
  cases e with
  | pump m => simp [take, ReaderStep.asked]
  | exhausted => simp [take, answer, callAt, ReaderStep.asked, ReaderAnswer.handedOut]
  | read n timeout now looks =>
    simp only [take, answer, callAt, ReaderStep.asked]
    cases deadline? now timeout with
    | none => simp [ReaderAnswer.handedOut]
    | some deadline =>
      have hkeeps := fillWhile_keeps r (fun b => b.length < n) deadline (r.supply + 1) now looks
      have hle := hkeeps.1.length_le
      simp only [read, ReaderAnswer.handedOut, Option.isSome_some, if_true, List.length_take,
        List.length_drop]
      omega
  | readToEnd timeout now looks =>
    cases hd : deadline? now timeout with
    | none => simp [take, answer, callAt, ReaderStep.asked, hd]
    | some deadline =>
      have hkeeps := fillWhile_keeps r (fun _ => true) deadline (r.supply + 1) now looks
      have hle := hkeeps.1.length_le
      simp only [take, answer, callAt_readToEnd hd, ReaderStep.asked, readToEnd]
      split <;> simp [ReaderAnswer.handedOut, hle]

theorem session_hands_out (r : TimedReader) (es : List ReaderStep) :
    min (es.map ReaderStep.asked).sum r.buffered.length ≤ (r.session es).1.length := by
  induction es generalizing r with
  | nil => simp [session]
  | cons e es ih =>
    have htake := r.take_hands_out e
    have hrest := ih (r.take e).2
    simp only [session, List.map_cons, List.sum_cons, List.length_append] at htake hrest ⊢
    omega

/-- Of what a reader has received, later steps hand out as much as they ask for, in order. -/
theorem session_prefix {r : TimedReader} (h : r.Sound) (es : List ReaderStep) :
    r.buffered.take (es.map ReaderStep.asked).sum <+: (r.session es).1 := by
  have hout : (r.session es).1 <+: r.held := ⟨_, (session_spec h es).2⟩
  have hreceived : r.buffered.take (es.map ReaderStep.asked).sum <+: r.held :=
    (List.take_prefix _ _).trans (List.prefix_append _ _)
  refine List.prefix_of_prefix_length_le hreceived hout ?_
  rw [List.length_take]
  exact r.session_hands_out es

/-- After any steps, a wait for the end succeeds if the end was seen before or the pump is done at its
last look, which it is if the end comes in time. It gives all the rest. If it fails, the time is up
while the pump goes on, and what has been received is handed out later, as it is asked for. After a
wait that succeeds, and after a read that gets less than it asked for and was not cut short, there is
nothing more for good. A reader that is exhausted has handed out all of the input. -/
theorem end_is_seen_for_good (script : Script) (es : List ReaderStep) :
    let start := ofScript script
    let out := (start.session es).1
    let r := (start.session es).2
    (∀ timeout deadline now looks, deadline? now timeout = some deadline →
      let answer := (r.callAt now looks (.readToEnd timeout)).1
      let later := (r.callAt now looks (.readToEnd timeout)).2.1
      let s := (r.callAt now looks (.readToEnd timeout)).2.2
      ((∃ b, answer = .bytes b) ↔ start.HasSeenEnd es ∨ s.pump.state = .done) ∧
      (r.pump.EndsInTime deadline now looks → ∃ b, answer = .bytes b) ∧
      (∀ b, answer = .bytes b → out ++ b = script.input ∧ s.OverForGood) ∧
      ((¬ ∃ b, answer = .bytes b) → answer = .notEnded ∧ s.CutShort deadline later ∧
        ∀ es', s.buffered.take (es'.map ReaderStep.asked).sum <+: (s.session es').1)) ∧
    (∀ n timeout deadline now looks, deadline? now timeout = some deadline →
      let answer := (r.callAt now looks (.read n timeout)).1
      let later := (r.callAt now looks (.read n timeout)).2.1
      let s := (r.callAt now looks (.read n timeout)).2.2
      ∃ b, answer = .bytes b ∧ (b.length < n → ¬ s.CutShort deadline later → s.OverForGood)) ∧
    (r.isExhausted = true → out = script.input) := by
  intro start out r
  obtain ⟨hr, hheld⟩ : r.Sound ∧ out ++ r.held = script.input :=
    session_spec (sound_ofScript script) es
  have hseen : r.finished = true ↔ start.HasSeenEnd es :=
    (session_finished (sound_ofScript script) es).trans (or_iff_right Bool.false_ne_true)
  refine ⟨fun timeout deadline now looks hd => ?_, fun n timeout deadline now looks hd => ?_, ?_⟩
  · have hcases := readToEnd_cases hr deadline now looks
    have hspec := readToEnd_spec hr deadline now looks
    have hin : r.pump.EndsInTime deadline now looks → (r.readToEnd deadline now looks).1 ≠ none :=
      readToEnd_in_time hr
    simp only [callAt_readToEnd hd]
    revert hcases hspec hin
    rcases r.readToEnd deadline now looks with ⟨b, later, s⟩
    rintro (⟨rfl, hs⟩ | ⟨rfl, hrf, -, hcut⟩) ⟨hsound, -⟩ hin
    · have hdone := (hsound.finished (s.isExhausted_iff.mp hs).1).1
      refine ⟨⟨fun _ => .inr hdone, fun _ => ⟨_, rfl⟩⟩, fun _ => ⟨_, rfl⟩, ?_, fun hn => ?_⟩
      · rintro b hb
        obtain rfl := ReaderAnswer.bytes.inj hb
        exact ⟨hheld, overForGood_of_exhausted hsound hs⟩
      · exact absurd ⟨_, rfl⟩ hn
    · refine ⟨⟨by simp, ?_⟩, fun h => absurd rfl (hin h), by simp, fun _ => ⟨rfl, hcut, ?_⟩⟩
      · rintro (h | h)
        · rw [hseen.mpr h] at hrf
          simp at hrf
        · exact absurd h hcut.running
      · exact session_prefix hsound
  · have hcases := read_cases hr n deadline now looks
    have hspec := read_spec hr n deadline now looks
    simp only [callAt_read hd]
    revert hcases hspec
    rcases r.read n deadline now looks with ⟨b, later, s⟩
    rintro ⟨hshort, -⟩ ⟨hsound, -⟩
    exact ⟨b, rfl, fun hlt hcut => overForGood_of_exhausted hsound ((hshort hlt).resolve_right hcut)⟩
  · intro he
    have hnone := hr.held_of_exhausted he
    rw [hnone, List.append_nil] at hheld
    exact hheld

/-- A wait for the end that is cut short by a stall, and one during which the stall is released. -/
theorem end_is_seen_for_good_after_stall :
    let script : Script := [.data [1, 2], .stall, .data [3]]
    let start := ofScript script
    let es : List ReaderStep :=
      [.read 1 ⟨5⟩ 0 [⟨[.step, .step, .step, .step, .step], 1⟩], .readToEnd ⟨5⟩ 10 [⟨[.step], 20⟩]]
    let looks : List Look := [⟨[.release, .step, .step, .step], 31⟩, ⟨[.step], 32⟩]
    let r := (start.session es).2
    deadline? 30 ⟨5⟩ = some 35 ∧ (start.session es).1 = [1] ∧ r.finished = false ∧
      (∃ b, (r.callAt 30 looks (.readToEnd ⟨5⟩)).1 = .bytes b ∧ 1 :: b = [1, 2, 3]) ∧
      (r.callAt 30 looks (.readToEnd ⟨5⟩)).2.2.OverForGood := by
  intro script start es looks r
  have hd : deadline? 30 ⟨5⟩ = some 35 := by decide
  have hout : (start.session es).1 = [1] := by decide
  obtain ⟨hend, -, -⟩ := end_is_seen_for_good script es
  obtain ⟨hsome, -, hall, -⟩ := hend ⟨5⟩ 35 30 looks hd
  obtain ⟨b, hb⟩ := hsome.mpr (.inr (by decide +kernel))
  obtain ⟨hinput, hover⟩ := hall b hb
  rw [hout] at hinput
  refine ⟨hd, hout, by decide, ⟨b, hb, hinput⟩, ?_⟩
  with_reducible exact hover

end TimedReader

end Testkit
