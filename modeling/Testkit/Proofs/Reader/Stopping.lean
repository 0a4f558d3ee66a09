import Mathlib.Algebra.GroupWithZero.Nat
import Mathlib.Data.List.TakeWhile
import Testkit.Proofs.Reader.Work

/-! How many reads a pump makes until it stops: as many as the input takes if its chunks are wanted,
and otherwise until one gets something. -/

namespace Testkit

namespace ScriptItem

/-- Whether the pump reads on after the item. If its chunks are not wanted, it stops at any data. -/
def passes (wanted : Bool) : ScriptItem → Bool
  | .data b => wanted && !b.isEmpty
  | .error _ => false
  | _ => true

/-- The reads that it takes to get all the data of the item. -/
def pieces : ScriptItem → Nat
  | .data b => (b.length + Pump.readLimit - 1) / Pump.readLimit
  | _ => 0

end ScriptItem

namespace Script

def ahead (wanted : Bool) (s : Script) : Script := s.takeWhile (·.passes wanted)

/-- The reads that a pump makes until it stops: those that get the data or are interrupted before, and
the last one. -/
def calls (wanted : Bool) (s : Script) : Nat :=
  ((s.ahead wanted).map ScriptItem.pieces).sum + (s.ahead wanted).count .interrupted + 1

theorem calls_cons_of_passes {wanted : Bool} {item : ScriptItem} (h : item.passes wanted = true)
    (rest : Script) : calls wanted (item :: rest) =
      item.pieces + (if item = .interrupted then 1 else 0) + rest.calls wanted := by
  have hahead : ahead wanted (item :: rest) = item :: rest.ahead wanted := List.takeWhile_cons_of_pos h
  simp only [calls, hahead, List.map_cons, List.sum_cons, List.count_cons, beq_iff_eq]
  omega

theorem calls_cons_of_stops {wanted : Bool} {item : ScriptItem} (h : item.passes wanted = false)
    (rest : Script) : calls wanted (item :: rest) = 1 := by
  have hahead : ahead wanted (item :: rest) = [] :=
    List.takeWhile_cons_of_neg (by simp [h])
  simp [calls, hahead]

theorem calls_false (s : Script) : s.calls false = (s.ahead false).count .interrupted + 1 := by
  -- Only data takes more than the one read that stops, and none is passed here.
  have hnone : ∀ item ∈ s.ahead false, item.pieces = 0 := by
    intro item hm
    have hpasses : item.passes false = true := List.mem_takeWhile_imp hm
    cases item with
    | data b => simp [ScriptItem.passes] at hpasses
    | _ => rfl
  have hsum : ((s.ahead false).map ScriptItem.pieces).sum = 0 :=
    List.sum_eq_zero_iff_forall_eq_nat.mpr (List.forall_mem_map.mpr hnone)
  rw [calls, hsum, Nat.zero_add]

theorem calls_pos (wanted : Bool) (s : Script) : 0 < s.calls wanted := Nat.succ_pos _

theorem calls_data {b : Bytes} (hb : b ≠ []) (rest : Script) : calls true (.data b :: rest) =
    calls true (if (b.drop Pump.readLimit).isEmpty then rest
      else .data (b.drop Pump.readLimit) :: rest) + 1 := by
  have hpasses : ∀ {c : Bytes}, c ≠ [] → (ScriptItem.data c).passes true = true := by
    intro c hc
    simpa [ScriptItem.passes] using hc
  have hlen : 0 < b.length := List.length_pos_iff.mpr hb
  rw [calls_cons_of_passes (hpasses hb)]
  by_cases hleft : b.drop Pump.readLimit = []
  · have hle : b.length ≤ Pump.readLimit := List.drop_eq_nil_iff.mp hleft
    simp only [hleft, List.isEmpty_nil, if_true, ScriptItem.pieces, reduceCtorEq, if_false]
    simp only [Pump.readLimit] at hle ⊢
    omega
  · have hlt : Pump.readLimit < b.length := by
      rw [List.drop_eq_nil_iff] at hleft
      omega
    have hne : (b.drop Pump.readLimit).isEmpty = false := by simpa using hleft
    rw [hne, if_neg Bool.false_ne_true, calls_cons_of_passes (hpasses hleft)]
    simp only [ScriptItem.pieces, List.length_drop, reduceCtorEq, if_false]
    simp only [Pump.readLimit] at hlt ⊢
    omega

end Script

namespace Pump

/-- The reads that the pump has still to begin. -/
def toCome (p : Pump) : Nat :=
  match p.state with
  | .idle => p.script.calls p.wanted
  | .reading => p.script.calls p.wanted - 1
  | .stalled => p.script.calls p.wanted - 1
  | .sending _ => if p.wanted then p.script.calls true else 0
  | .done => 0

theorem reads_add_toCome_afterRead {p : Pump} (h : p.state = .reading) :
    (p.afterRead (p.script.read readLimit)).reads +
        (p.afterRead (p.script.read readLimit)).toCome = p.reads + p.toCome := by
  rcases p.script.read_cases readLimit with
    ⟨hr, hs⟩ | ⟨message, rest, hs, hr⟩ | ⟨rest, hs, hr⟩ | ⟨rest, hs, hr⟩ | ⟨b, rest, hb, hs, hr⟩
  · have hone : p.script.calls p.wanted = 1 := by
      rcases hs with hs | ⟨rest, hs⟩
      · rw [hs]
        rfl
      · rw [hs, Script.calls_cons_of_stops (by simp [ScriptItem.passes])]
    simp [hr, afterRead, toCome, h, hone]
  · have hone : p.script.calls p.wanted = 1 := by rw [hs, Script.calls_cons_of_stops rfl]
    simp [hr, afterRead, toCome, h, hone]
  · have hcalls : p.script.calls p.wanted = rest.calls p.wanted + 1 := by
      rw [hs, Script.calls_cons_of_passes rfl]
      simp [ScriptItem.pieces, Nat.add_comm]
    simp [hr, afterRead, toCome, h, hcalls]
  · have hcalls : p.script.calls p.wanted = rest.calls p.wanted := by
      rw [hs, Script.calls_cons_of_passes rfl]
      simp [ScriptItem.pieces]
    simp [hr, afterRead, toCome, h, hcalls]
  · cases hw : p.wanted with
    | true =>
      have hcalls := Script.calls_data hb rest
      rw [← hs] at hcalls
      simp [hr, afterRead, toCome, h, hw, hcalls]
    | false =>
      have hone : p.script.calls false = 1 := by rw [hs, Script.calls_cons_of_stops rfl]
      simp [hr, afterRead, toCome, h, hw, hone]

theorem reads_add_toCome_move (p : Pump) (m : Move) :
    (p.move m).reads + (p.move m).toCome = p.reads + p.toCome := by
  cases m with
  | release => cases hs : p.state <;> simp [move, release, toCome, hs]
  | step =>
    cases hs : p.state with
    | idle =>
      have hpos := p.script.calls_pos p.wanted
      simp only [move, step, toCome, hs]
      omega
    | reading =>
      simp only [move, step, hs]
      exact reads_add_toCome_afterRead hs
    | sending chunk => cases hw : p.wanted <;> simp [move, step, toCome, hs, hw]
    | stalled => simp [move, step, toCome, hs]
    | done => simp [move, step, toCome, hs]

theorem lasting_reads (total : Nat) : Lasting fun p => p.reads + p.toCome = total where
  move p m h := (reads_add_toCome_move p m).trans h
  like p q hpq h := by
    rw [hpq]
    exact h

/-- The chunk of a read that is completed by the move. -/
def got (p : Pump) : Move → List Bytes
  | .release => []
  | .step =>
    match p.state, p.script.read readLimit with
    | .reading, .chunk b _ => [b]
    | _, _ => []

def gets : Pump → List Move → List Bytes
  | _, [] => []
  | p, m :: ms => p.got m ++ (p.move m).gets ms

/-- Whether the pump has nobody to take its chunks, and has passed on none. -/
def Abandoned (p : Pump) : Prop := p.wanted = false ∧ p.passed = []

theorem Abandoned.move {p : Pump} (h : p.Abandoned) (m : Move) : (p.move m).Abandoned := by
  obtain ⟨hw, hp⟩ := h
  cases m with
  | release => cases hs : p.state <;> exact ⟨by simp [Pump.move, release, hs, hw],
      by simp [Pump.move, release, hs, hp]⟩
  | step =>
    cases hs : p.state with
    | reading =>
      simp only [Pump.move, step, hs]
      cases p.script.read readLimit <;> exact ⟨hw, hp⟩
    | _ => exact ⟨by simp [Pump.move, step, hs, hw], by simp [Pump.move, step, hs, hw, hp]⟩

theorem Abandoned.moves {p : Pump} (h : p.Abandoned) (ms : List Move) : (p.moves ms).Abandoned := by
  induction ms generalizing p with
  | nil => exact h
  | cons m ms ih => exact ih (h.move m)

/-- Whether the pump has completed a read that it is going to stop at, or has stopped. -/
def Stopping (p : Pump) : Prop := (∃ chunk, p.state = .sending chunk) ∨ p.state = .done

theorem Stopping.move {p : Pump} (h : p.Stopping) (hw : p.wanted = false) (m : Move) :
    (p.move m).Stopping ∧ p.got m = [] ∧ (p.move m).reads = p.reads := by
  rcases h with ⟨chunk, hs⟩ | hs <;> cases m <;>
    simp [Stopping, got, Pump.move, step, release, hs, hw]

/-- A move of a pump that is not stopping completes a read that gets something, completes one that
finds the end, or completes none. -/
theorem move_cases {p : Pump} (h : ¬ p.Stopping) (m : Move) :
    (∃ b, b ≠ [] ∧ b.length ≤ readLimit ∧ p.got m = [b] ∧ (p.move m).state = .sending b ∧
      p.script.input = b ++ (p.move m).script.input) ∨
    (p.got m = [] ∧ (p.move m).state = .done ∧ p.script.input = []) ∨
    (p.got m = [] ∧ ¬ (p.move m).Stopping ∧ (p.move m).script.input = p.script.input) := by
  have hinput := Script.read_input readLimit p.script
  cases m with
  | release =>
    refine .inr (.inr ?_)
    cases hs : p.state with
    | sending chunk => exact absurd (.inl ⟨chunk, hs⟩) h
    | done => exact absurd (.inr hs) h
    | _ => simp [got, Pump.move, release, hs, Stopping]
  | step =>
    cases hs : p.state with
    | sending chunk => exact absurd (.inl ⟨chunk, hs⟩) h
    | done => exact absurd (.inr hs) h
    | idle => exact .inr (.inr (by simp [got, Pump.move, step, hs, Stopping]))
    | stalled => exact .inr (.inr (by simp [got, Pump.move, step, hs, Stopping]))
    | reading =>
      simp only [Pump.move, step, got, hs]
      rcases p.script.read_cases readLimit with
        ⟨hr, -⟩ | ⟨message, rest, -, hr⟩ | ⟨rest, -, hr⟩ | ⟨rest, -, hr⟩ | ⟨b, rest, hb, -, hr⟩
      · simp only [hr, ReadResult.input] at hinput
        exact .inr (.inl ⟨by rw [hr], by rw [hr]; rfl, hinput.symm⟩)
      · simp only [hr, ReadResult.input] at hinput
        exact .inr (.inl ⟨by rw [hr], by rw [hr]; rfl, hinput.symm⟩)
      · simp only [hr, ReadResult.input] at hinput
        exact .inr (.inr ⟨by rw [hr], by rw [hr]; simp [afterRead, Stopping], by rw [hr]; exact hinput⟩)
      · simp only [hr, ReadResult.input] at hinput
        exact .inr (.inr ⟨by rw [hr], by rw [hr]; simp [afterRead, Stopping], by rw [hr]; exact hinput⟩)
      · rw [hr, ReadResult.input] at hinput
        refine .inl ⟨b.take readLimit, ?_, List.length_take_le _ _, by rw [hr], by rw [hr]; rfl, ?_⟩
        · cases b with
          | nil => exact absurd rfl hb
          | cons x xs => simp [readLimit]
        · rw [hr]
          exact hinput.symm

theorem Stopping.moves {p : Pump} (h : p.Stopping) (ha : p.Abandoned) (ms : List Move) :
    (p.moves ms).Stopping ∧ p.gets ms = [] ∧ (p.moves ms).reads = p.reads := by
  induction ms generalizing p with
  | nil => exact ⟨h, rfl, rfl⟩
  | cons m ms ih =>
    obtain ⟨hs, hgot, hreads⟩ := h.move ha.1 m
    obtain ⟨hs', hgets, hreads'⟩ := ih hs (ha.move m)
    have hcons : p.gets (m :: ms) = p.got m ++ (p.move m).gets ms := rfl
    exact ⟨hs', by rw [hcons, hgot, hgets]; rfl, hreads'.trans hreads⟩

/-- A pump that was abandoned while it was not stopping has not got anything yet or found the end, or
it got one chunk and is stopping. -/
theorem gets_of_abandoned {p : Pump} (ha : p.Abandoned) (hs : ¬ p.Stopping) (ms : List Move) :
    let q := p.moves ms
    (p.gets ms = [] ∧ (q.Stopping → p.script.input = [])) ∨
    (q.Stopping ∧ ∃ b, p.gets ms = [b] ∧ b ≠ [] ∧ b.length ≤ readLimit ∧ b <+: p.script.input) := by
  induction ms generalizing p with
  | nil => exact .inl ⟨rfl, fun hn => absurd hn hs⟩
  | cons m ms ih =>
    have hm := ha.move m
    have hcons : p.gets (m :: ms) = p.got m ++ (p.move m).gets ms := rfl
    rw [hcons]
    rcases move_cases hs m with ⟨b, hb, hle, hgot, hstate, hinput⟩ | ⟨hgot, hstate, hnone⟩ |
      ⟨hgot, hgoing, hinput⟩
    · obtain ⟨hq, hgets, -⟩ := Stopping.moves (.inl ⟨b, hstate⟩) hm ms
      exact .inr ⟨hq, b, by rw [hgot, hgets]; rfl, hb, hle, _, hinput.symm⟩
    · obtain ⟨-, hgets, -⟩ := Stopping.moves (.inr hstate) hm ms
      exact .inl ⟨by rw [hgot, hgets]; rfl, fun _ => hnone⟩
    · rw [hgot, ← hinput]
      exact ih hm hgoing

theorem Abandoned.stops {p : Pump} (ha : p.Abandoned) (hend : p.state = .done → p.script.input = [])
    (ms : List Move) :
    let interruptions := (p.script.ahead false).count .interrupted
    let q := p.moves ms
    q.passed = [] ∧
      (p.gets ms = [] ∨
        ∃ b, p.gets ms = [b] ∧ b ≠ [] ∧ b.length ≤ readLimit ∧ b <+: p.script.input) ∧
      ((∃ chunk, p.state = .sending chunk) ∨ p.gets ms ≠ [] →
        ∀ later, (q.moves later).reads = q.reads) ∧
      (q.state = .done →
        ((∃ chunk, p.state = .sending chunk) ∨ p.gets ms ≠ [] ∨ p.script.input = []) ∧
        q.reads = p.reads + match p.state with
          | .idle => interruptions + 1
          | .reading => interruptions
          | .stalled => interruptions
          | _ => 0) := by
  intro interruptions q
  have hcount : q.reads + q.toCome = p.reads + p.toCome :=
    (lasting_reads (p.reads + p.toCome)).moves rfl ms
  have hreads : q.state = .done → q.reads = p.reads + match p.state with
      | .idle => interruptions + 1
      | .reading => interruptions
      | .stalled => interruptions
      | _ => 0 := by
    intro hd
    have hq : q.toCome = 0 := by simp [toCome, hd]
    have hcalls : p.script.calls p.wanted = interruptions + 1 := by rw [ha.1, Script.calls_false]
    rw [hq, Nat.add_zero] at hcount
    rw [hcount, toCome, hcalls, ha.1]
    cases p.state <;> rfl
  refine ⟨(ha.moves ms).2, ?_⟩
  by_cases hs : p.Stopping
  · obtain ⟨hq, hgets, -⟩ := hs.moves ha ms
    refine ⟨.inl hgets, fun _ later => (hq.moves (ha.moves ms) later).2.2,
      fun hd => ⟨?_, hreads hd⟩⟩
    rcases hs with hs | hs
    · exact .inl hs
    · exact .inr (.inr (hend hs))
  · rcases gets_of_abandoned ha hs ms with ⟨hgets, hnone⟩ | ⟨hq, b, hgets, hb, hle, hinput⟩
    · refine ⟨.inl hgets, fun h => ?_, fun hd => ⟨.inr (.inr (hnone (.inr hd))), hreads hd⟩⟩
      exact (h.elim (fun hsending => hs (.inl hsending)) (fun hsome => hsome hgets)).elim
    · refine ⟨.inr ⟨b, hgets, hb, hle, hinput⟩,
        fun _ later => (hq.moves (ha.moves ms) later).2.2, fun hd => ⟨?_, hreads hd⟩⟩
      exact .inr (.inl (by simp [hgets]))

end Pump

namespace TimedReader

theorem session_append_singleton (r : TimedReader) (es : List ReaderStep) (e : ReaderStep) :
    (r.session (es ++ [e])).2 = ((r.session es).2.take e).2 := by
  induction es generalizing r with
  | nil => rfl
  | cons e' es ih => exact ih (r.take e').2

theorem reads_of_session (script : Script) (es : List ReaderStep) :
    let p := ((ofScript script).session es).2.pump
    p.reads + p.toCome = script.calls true := by
  have hstart : (ofScript script).pump.reads + (ofScript script).pump.toCome = script.calls true :=
    Nat.zero_add _
  exact lasts_session (Pump.lasting_reads _) hstart es

theorem session_eventually_done (r : TimedReader) {next : Nat → ReaderStep}
    (h : ∀ m i, ∃ j, i ≤ j ∧ next j = .pump m) :
    ∃ n, ∀ i, n ≤ i → (r.session ((List.range i).map next)).2.pump.state = .done := by
  have hsucc : ∀ i, (r.session ((List.range (i + 1)).map next)).2 =
      ((r.session ((List.range i).map next)).2.take (next i)).2 := by
    intro i
    rw [List.range_succ, List.map_append]
    exact session_append_singleton _ _ _
  refine Pump.eventually_done (fun hP i hi => ?_) fun m i => ?_
  · rw [hsucc]
    exact lasts_take hP hi (next i)
  · obtain ⟨j, hij, hj⟩ := h m i
    exact ⟨j, hij, by rw [hsucc, hj]; rfl⟩

/-- A pump whose reader is kept never makes more reads than the input takes, and has made as many when
it is done, which it is in the end if it goes on and is released again and again, whatever the reader
does. A pump whose reader is dropped passes on nothing more. It completes at most one more read that
gets something, begins no read after that or after one that it had completed before, and is done then
or when the input ends, having been interrupted as often as comes before that. -/
theorem pump_stops (script : Script) (es : List ReaderStep) :
    let r := ((ofScript script).session es).2
    let total :=
      ((script.ahead true).map ScriptItem.pieces).sum + (script.ahead true).count .interrupted + 1
    (r.pump.reads ≤ total ∧ (r.pump.state = .done → r.pump.reads = total)) ∧
    (∀ next : Nat → ReaderStep, (∀ m i, ∃ j, i ≤ j ∧ next j = .pump m) →
      ∃ n, ∀ i, n ≤ i → let p := (r.session ((List.range i).map next)).2.pump
        p.state = .done ∧ p.reads = total) ∧
    (∀ now looks, let p := (r.callAt now looks .drop).2.2.pump
      let interruptions := (p.script.ahead false).count .interrupted
      (∀ ms, let q := p.moves ms
        q.passed = [] ∧
        (p.gets ms = [] ∨
          ∃ b, p.gets ms = [b] ∧ b ≠ [] ∧ b.length ≤ Pump.readLimit ∧ b <+: p.script.input) ∧
        ((∃ chunk, p.state = .sending chunk) ∨ p.gets ms ≠ [] →
          ∀ later, (q.moves later).reads = q.reads) ∧
        (q.state = .done →
          ((∃ chunk, p.state = .sending chunk) ∨ p.gets ms ≠ [] ∨ p.script.input = []) ∧
          q.reads = p.reads + match p.state with
            | .idle => interruptions + 1
            | .reading => interruptions
            | .stalled => interruptions
            | _ => 0)) ∧
      ∀ next : Nat → Pump.Move, (∀ m i, ∃ j, i ≤ j ∧ next j = m) →
        ∃ n, ∀ i, n ≤ i → (p.moves ((List.range i).map next)).state = .done) := by
  intro r total
  have hsound : r.Sound := (session_spec (sound_ofScript script) es).1
  have hreads : r.pump.reads + r.pump.toCome = total := reads_of_session script es
  refine ⟨⟨by omega, fun hd => ?_⟩, fun next hnext => ?_, fun now looks => ⟨?_, ?_⟩⟩
  · have hnone : r.pump.toCome = 0 := by simp [Pump.toCome, hd]
    omega
  · obtain ⟨n, hn⟩ := r.session_eventually_done hnext
    refine ⟨n, fun i hi => ⟨hn i hi, ?_⟩⟩
    have hlater := lasts_session (Pump.lasting_reads total) hreads ((List.range i).map next)
    have hnone : (r.session ((List.range i).map next)).2.pump.toCome = 0 := by
      simp [Pump.toCome, hn i hi]
    omega
  · have ha : r.pump.abandon.Abandoned := ⟨rfl, rfl⟩
    exact fun ms => ha.stops hsound.pump.done ms
  · exact fun next hnext => Pump.moves_eventually_done _ hnext

/-- A reader that is kept or dropped after a first chunk, its pump going on and being released by
turns. -/
theorem pump_stops_by_turns :
    let script : Script := [.data [1, 2], .interrupted, .stall, .data [3]]
    let es : List ReaderStep :=
      [.pump .step, .read 1 ⟨5⟩ 0 [⟨[.step], 1⟩, ⟨[.step], 2⟩], .pump .release]
    let next : Nat → Pump.Move := fun i => if i % 2 = 0 then .step else .release
    let r := ((ofScript script).session es).2
    let p := r.pump.abandon
    (∀ m i, ∃ j, i ≤ j ∧ next j = m) ∧
      (∃ n, ∀ i, n ≤ i → (r.session ((List.range i).map (.pump ∘ next))).2.pump.reads = 4) ∧
      ∃ n, ∀ i, n ≤ i → (p.moves ((List.range i).map next)).state = .done ∧
        (p.moves ((List.range i).map next)).reads = 3 := by
  intro script es next r p
  have hnext : ∀ m i, ∃ j, i ≤ j ∧ next j = m := by
    intro m i
    cases m with
    | step =>
      refine ⟨2 * i, by omega, ?_⟩
      have heven : 2 * i % 2 = 0 := by omega
      simp only [next, heven, if_true]
    | release =>
      refine ⟨2 * i + 1, by omega, ?_⟩
      have hodd : (2 * i + 1) % 2 ≠ 0 := by omega
      simp only [next, hodd, if_false]
  obtain ⟨-, hkept, hdropped⟩ := pump_stops script es
  obtain ⟨hstops, hdone⟩ := hdropped .start []
  refine ⟨hnext, ?_, ?_⟩
  · obtain ⟨n, hn⟩ := hkept (.pump ∘ next) fun m i =>
      (hnext m i).imp fun j hj => ⟨hj.1, congrArg ReaderStep.pump hj.2⟩
    exact ⟨n, fun i hi => (hn i hi).2⟩
  · obtain ⟨n, hn⟩ := hdone next hnext
    exact ⟨n, fun i hi => ⟨hn i hi, ((hstops _).2.2.2 (hn i hi)).2⟩⟩

end TimedReader

end Testkit
