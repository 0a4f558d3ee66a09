import Testkit.Proofs.Reader.Ending

/-! The work that is left to a pump. Each move that a pump heeds takes something from it, whatever is
read in between, so that a pump which is run and released again and again comes to its end. -/

namespace Testkit

namespace Script

/-- What one read does, by the first item. -/
theorem read_cases (limit : Nat) (s : Script) :
    (s.read limit = .ended ∧ (s = [] ∨ ∃ rest : Script, s = .data [] :: rest)) ∨
      (∃ (message : String) (rest : Script),
        s = .error message :: rest ∧ s.read limit = .failed message) ∨
      (∃ rest : Script, s = .interrupted :: rest ∧ s.read limit = .interrupted rest) ∨
      (∃ rest : Script, s = .stall :: rest ∧ s.read limit = .stalled rest) ∨
      ∃ (b : Bytes) (rest : Script), b ≠ [] ∧ s = .data b :: rest ∧ s.read limit =
        .chunk (b.take limit)
          (if (b.drop limit).isEmpty then rest else .data (b.drop limit) :: rest) := by
  rcases s with - | ⟨item, rest⟩
  · exact .inl ⟨rfl, .inl rfl⟩
  cases item with
  | data b =>
    cases b with
    | nil => exact .inl ⟨rfl, .inr ⟨rest, rfl⟩⟩
    | cons x xs => exact .inr (.inr (.inr (.inr ⟨x :: xs, rest, by simp, rfl, rfl⟩)))
  | interrupted => exact .inr (.inr (.inl ⟨rest, rfl, rfl⟩))
  | error message => exact .inr (.inl ⟨message, rest, rfl, rfl⟩)
  | stall => exact .inr (.inr (.inr (.inl ⟨rest, rfl, rfl⟩)))

end Script

namespace Pump

/-- Whether a move does anything to the pump. -/
def Heeds (p : Pump) : Move → Prop
  | .step => p.state ≠ .stalled ∧ p.state ≠ .done
  | .release => p.state = .stalled

/-- A bound on the moves that the pump still heeds. -/
def work (p : Pump) : Nat :=
  match p.state with
  | .idle => 3 * p.script.size + 2
  | .reading => 3 * p.script.size + 1
  | .sending _ => 3 * p.script.size + 3
  | .stalled => 3 * p.script.size + 2
  | .done => 0

theorem exists_heeds {p : Pump} (h : p.state ≠ .done) : ∃ m, p.Heeds m := by
  by_cases hs : p.state = .stalled
  · exact ⟨.release, hs⟩
  · exact ⟨.step, hs, h⟩

theorem move_of_not_heeds {p : Pump} {m : Move} (h : ¬ p.Heeds m) : p.move m = p := by
  cases m with
  | step =>
    cases hs : p.state with
    | stalled => simp [move, step, hs]
    | done => simp [move, step, hs]
    | _ => simp [Heeds, hs] at h
  | release =>
    have hs : p.state ≠ .stalled := h
    simp only [move, release]

theorem work_afterRead_lt {p : Pump} (h : p.state = .reading) :
    (p.afterRead (p.script.read readLimit)).work < p.work := by
  have hsize := Script.read_size (show 0 < readLimit by decide) p.script
  rcases p.script.read_cases readLimit with
    ⟨hr, -⟩ | ⟨message, rest, -, hr⟩ | ⟨rest, hs, hr⟩ | ⟨rest, hs, hr⟩ | ⟨b, rest, -, -, hr⟩
  · simp [hr, afterRead, work, h]
  · simp [hr, afterRead, work, h]
  · simp only [hr, afterRead, work, h]
    rw [hs, Script.size]
    · omega
    · simp
  · simp only [hr, afterRead, work, h]
    rw [hs, Script.size]
    · omega
    · simp
  · simp only [hr, ReadResult.size] at hsize
    simp only [hr, afterRead, work, h]
    omega

theorem work_move_lt {p : Pump} {m : Move} (h : p.Heeds m) : (p.move m).work < p.work := by
  cases m with
  | release =>
    have hs : p.state = .stalled := h
    simp [move, release, work, hs]
  | step =>
    obtain ⟨hstalled, hdone⟩ := h
    cases hs : p.state with
    | idle => simp [move, step, work, hs]
    | reading =>
      simp only [move, step, hs]
      exact work_afterRead_lt hs
    | sending chunk =>
      simp only [move, step, hs]
      split <;> simp [work, hs]
    | stalled => exact absurd hs hstalled
    | done => exact absurd hs hdone

/-- Whether a property of a pump outlasts its moves and the taking of what it has passed on. -/
structure Lasting (P : Pump → Prop) : Prop where
  move : ∀ p m, P p → P (p.move m)
  like : ∀ p q, p.Like q → P p → P q

theorem Lasting.moves {P : Pump → Prop} (hP : Lasting P) {p : Pump} (h : P p) (ms : List Move) :
    P (p.moves ms) := by
  induction ms generalizing p with
  | nil => exact h
  | cons m ms ih => exact ih (hP.move p m h)

theorem lasting_done : Lasting (·.state = .done) where
  move p m h := by
    rw [move_of_not_heeds]
    · exact h
    · cases m <;> simp [Heeds, h]
  like p q hpq h := hpq.state.trans h

theorem Like.work {p q : Pump} (h : p.Like q) : q.work = p.work := by
  rw [h]
  rfl

theorem Like.heeds {p q : Pump} (h : p.Like q) {m : Move} (hm : p.Heeds m) : q.Heeds m := by
  rw [h]
  exact hm

/-- A pump whose work is no more than this, and which still heeds the move if it is no less. -/
theorem lasting_heeds (m : Move) (w : Nat) :
    Lasting fun p => p.work < w ∨ p.work = w ∧ p.Heeds m where
  move p m' h := by
    by_cases hm : p.Heeds m'
    · have hlt := work_move_lt hm
      refine .inl ?_
      rcases h with h | ⟨h, -⟩ <;> omega
    · rwa [move_of_not_heeds hm]
  like p q hpq h := by
    rw [hpq.work]
    exact h.imp_right fun hh => ⟨hh.1, hpq.heeds hh.2⟩

/-- A pump that makes each move again and again is done in the end. -/
theorem eventually_done {q : Nat → Pump}
    (hlasts : ∀ {P : Pump → Prop}, Lasting P → ∀ i, P (q i) → P (q (i + 1)))
    (hagain : ∀ m i, ∃ j, i ≤ j ∧ q (j + 1) = (q j).move m) :
    ∃ n, ∀ i, n ≤ i → (q i).state = .done := by
  have hlater : ∀ {P : Pump → Prop}, Lasting P → ∀ {i j}, i ≤ j → P (q i) → P (q j) := by
    intro P hP i j hij h
    induction hij with
    | refl => exact h
    | step _ ih => exact hlasts hP _ ih
  have hsome : ∀ w i, (q i).work = w → ∃ n, (q n).state = .done := by
    intro w
    induction w using Nat.strongRecOn with
    | ind w ih =>
      intro i hi
      by_cases hd : (q i).state = .done
      · exact ⟨i, hd⟩
      · obtain ⟨m, hm⟩ := exists_heeds hd
        obtain ⟨j, hij, hj⟩ := hagain m i
        rcases hlater (lasting_heeds m w) hij (.inr ⟨hi, hm⟩) with hlt | ⟨heq, hheeds⟩
        · exact ih _ hlt j rfl
        · refine ih _ ?_ (j + 1) rfl
          rw [hj, ← heq]
          exact work_move_lt hheeds
  obtain ⟨n, hn⟩ := hsome _ 0 rfl
  exact ⟨n, fun i hi => hlater lasting_done hi hn⟩

theorem moves_append_singleton (p : Pump) (ms : List Move) (m : Move) :
    p.moves (ms ++ [m]) = (p.moves ms).move m := by
  simp [moves, List.foldl_append]

theorem moves_eventually_done (p : Pump) {next : Nat → Move}
    (h : ∀ m i, ∃ j, i ≤ j ∧ next j = m) :
    ∃ n, ∀ i, n ≤ i → (p.moves ((List.range i).map next)).state = .done := by
  have hsucc : ∀ i, p.moves ((List.range (i + 1)).map next) =
      (p.moves ((List.range i).map next)).move (next i) := by
    intro i
    rw [List.range_succ, List.map_append]
    exact moves_append_singleton _ _ _
  refine eventually_done (fun hP i hi => ?_) fun m i => ?_
  · rw [hsucc]
    exact hP.move _ (next i) hi
  · obtain ⟨j, hij, hj⟩ := h m i
    exact ⟨j, hij, by rw [hsucc, hj]⟩

theorem atRest_iff (p : Pump) : p.atRest = true ↔ p.state = .stalled ∨ p.state = .done := by
  simp [atRest]

theorem atRest_runFor {n : Nat} {p : Pump} (h : p.work ≤ n) : (p.runFor n).atRest = true := by
  induction n generalizing p with
  | zero =>
    have hd : p.state = .done := by
      cases hs : p.state with
      | done => rfl
      | _ => simp [work, hs] at h
    simp [runFor, atRest, hd]
  | succ n ih =>
    by_cases hr : p.atRest = true
    · simp only [runFor, hr, if_true]
    · simp only [runFor, hr]
      have hm : p.Heeds .step := by simpa [atRest_iff, Heeds] using hr
      have hlt := work_move_lt hm
      exact ih (Nat.le_of_lt_succ (Nat.lt_of_lt_of_le hlt h))

theorem atRest_run (p : Pump) : p.run.atRest = true := by
  refine atRest_runFor ?_
  cases hs : p.state <;> simp only [work, hs] <;> omega

theorem exists_runFor_eq_moves (n : Nat) (p : Pump) : ∃ ms, p.runFor n = p.moves ms := by
  induction n generalizing p with
  | zero => exact ⟨[], rfl⟩
  | succ n ih =>
    by_cases hr : p.atRest = true
    · exact ⟨[], by simp [runFor, hr, moves]⟩
    · obtain ⟨ms, hms⟩ := ih p.step
      refine ⟨.step :: ms, ?_⟩
      simp only [runFor, hr]
      exact hms

end Pump

namespace TimedReader

section Invariant

variable {I : List Look → TimedReader → Prop}
  (hmoves : ∀ {look looks r}, I (look :: looks) r → I looks { r with pump := r.pump.moves look.moves })
  (hfound : ∀ {looks r a s}, r.found = some (a, s) → I looks r → I looks s)

include hmoves hfound

theorem await_invariant {r : TimedReader} {looks : List Look} (h : I looks r)
    (deadline now : Instant) :
    let (_, _, rest, s) := r.await deadline now looks
    I rest s := by
  induction looks generalizing now r with
  | nil =>
    simp only [await]
    cases hf : r.found with
    | some found => exact hfound hf h
    | none => exact h
  | cons look looks ih =>
    have hmoved := hmoves h
    simp only [await]
    cases hf : TimedReader.found { r with pump := r.pump.moves look.moves } with
    | some found => exact hfound hf hmoved
    | none =>
      by_cases hlate : deadline ≤ max now look.time
      · rw [if_pos hlate]
        exact hmoved
      · rw [if_neg hlate]
        exact ih hmoved (max now look.time)

theorem fillWhile_invariant {r : TimedReader} {looks : List Look} (h : I looks r)
    (more : Bytes → Bool) (deadline : Instant) (n : Nat) (now : Instant) :
    ∃ rest, I rest (r.fillWhile more deadline n now looks).2 := by
  induction n generalizing now looks r with
  | zero => exact ⟨looks, h⟩
  | succ n ih =>
    simp only [fillWhile, fill]
    split
    · by_cases hf : r.finished = true
      · simp only [hf, if_true]
        exact ⟨looks, h⟩
      · simp only [hf]
        have hawait := await_invariant hmoves hfound h deadline now
        revert hawait
        rcases r.await deadline now looks with ⟨a, later, rest, s⟩
        intro hawait
        cases a with
        | chunk => exact ih hawait later
        | ended => exact ⟨rest, hawait⟩
        | timedOut => exact ⟨rest, hawait⟩
    · exact ⟨looks, h⟩

end Invariant

variable {P : Pump → Prop}

theorem lasts_fillWhile (hP : Pump.Lasting P) {r : TimedReader} (h : P r.pump)
    (more : Bytes → Bool) (deadline : Instant) (n : Nat) (now : Instant) (looks : List Look) :
    P (r.fillWhile more deadline n now looks).2.pump := by
  obtain ⟨-, hlasts⟩ := fillWhile_invariant (I := fun _ s => P s.pump)
    (fun hs => hP.moves hs _) (fun hf hs => hP.like _ _ (found_like hf).2 hs) h more deadline n now
  exact hlasts

theorem lasts_take (hP : Pump.Lasting P) {r : TimedReader} (h : P r.pump) (e : ReaderStep) :
    P (r.take e).2.pump := by
  cases e with
  | pump m => exact hP.move _ m h
  | exhausted => exact h
  | read n timeout now looks =>
    cases hd : deadline? now timeout with
    | none => simpa only [take, answer, callAt, hd] using h
    | some deadline =>
      simp only [take, answer, callAt_read hd, read]
      exact lasts_fillWhile hP h _ deadline _ now looks
  | readToEnd timeout now looks =>
    cases hd : deadline? now timeout with
    | none => simpa only [take, answer, callAt, hd] using h
    | some deadline =>
      have hfill := lasts_fillWhile hP h (fun _ => true) deadline (r.supply + 1) now looks
      simp only [take, answer, callAt_readToEnd hd, readToEnd]
      split <;> exact hfill

theorem lasts_session (hP : Pump.Lasting P) {r : TimedReader} (h : P r.pump)
    (es : List ReaderStep) : P (r.session es).2.pump := by
  induction es generalizing r with
  | nil => exact h
  | cons e es ih => exact ih (lasts_take hP h e)

end TimedReader

end Testkit
