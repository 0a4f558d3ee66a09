import Testkit.Proofs.Reader.Parts

/-! Calls to a reader whose pump is stalled or done. What they give depends on the parts of the source
and on what the reader has seen, and on nothing else. -/

namespace Testkit

namespace Pump

/-- Whether the pump is stalled or done and stays so during the looks. -/
def RestsFor (p : Pump) (looks : List Look) : Prop :=
  p.state = .done ∨ p.state = .stalled ∧ ∀ look ∈ looks, .release ∉ look.moves

instance (p : Pump) (looks : List Look) : Decidable (p.RestsFor looks) :=
  inferInstanceAs (Decidable (_ ∨ _))

theorem RestsFor.atRest {p : Pump} {looks : List Look} (h : p.RestsFor looks) : p.atRest = true :=
  p.atRest_iff.mpr (h.symm.imp_left And.left)

theorem moves_of_stalled {p : Pump} (h : p.state = .stalled) {ms : List Move} (hms : .release ∉ ms) :
    p.moves ms = p := by
  induction ms with
  | nil => rfl
  | cons m ms ih =>
    obtain ⟨hm, hrest⟩ : Move.release ≠ m ∧ .release ∉ ms := by simpa using hms
    have hsame : p.move m = p := by
      cases m with
      | step => exact move_of_not_heeds fun hheeds => hheeds.1 h
      | release => exact absurd rfl hm
    have hcons : p.moves (m :: ms) = (p.move m).moves ms := rfl
    rw [hcons, hsame, ih hrest]

theorem RestsFor.tail {p : Pump} {look : Look} {looks : List Look}
    (h : p.RestsFor (look :: looks)) : p.moves look.moves = p ∧ p.RestsFor looks := by
  rcases h with hdone | ⟨hstalled, hquiet⟩
  · exact ⟨moves_of_done hdone _, .inl hdone⟩
  · have hnone := hquiet look List.mem_cons_self
    exact ⟨moves_of_stalled hstalled hnone,
      .inr ⟨hstalled, fun later hm => hquiet later (List.mem_cons_of_mem _ hm)⟩⟩

theorem Like.refl (p : Pump) : p.Like p := rfl

theorem Like.trans {p q t : Pump} (h : p.Like q) (h' : q.Like t) : p.Like t := by
  rw [Like, h', h]

theorem Like.atRest {p q : Pump} (h : p.Like q) (hp : p.atRest = true) : q.atRest = true := by
  rw [h]
  exact hp

theorem RestsFor.like {p q : Pump} {looks : List Look} (h : p.RestsFor looks) (hpq : p.Like q) :
    q.RestsFor looks := by
  rw [RestsFor, hpq.state]
  exact h

end Pump

namespace TimedReader

theorem fillWhile_at_rest {r : TimedReader} {looks : List Look} (h : r.pump.RestsFor looks)
    (more : Bytes → Bool) (deadline : Instant) (n : Nat) (now : Instant) :
    r.pump.Like (r.fillWhile more deadline n now looks).2.pump := by
  obtain ⟨-, hlike, -⟩ := fillWhile_invariant
    (I := fun looks s => r.pump.Like s.pump ∧ s.pump.RestsFor looks)
    (fun ⟨hlike, hrest⟩ => by
      obtain ⟨hmoves, htail⟩ := hrest.tail
      rw [hmoves]
      exact ⟨hlike, htail⟩)
    (fun hf ⟨hlike, hrest⟩ =>
      ⟨hlike.trans (found_like hf).2, hrest.like (found_like hf).2⟩)
    ⟨.refl _, h⟩ more deadline n now
  exact hlike

end TimedReader

structure Outlook where
  /-- The bytes that were not handed out yet. -/
  parts : Parts
  /-- Whether the end was seen. -/
  finished : Bool
deriving DecidableEq, Repr

namespace Outlook

/-- The answer to a call, whatever its timeout is, and what can be told after it. -/
def call (v : Outlook) : ReaderCall → ReaderAnswer × Outlook
  | .read n _ =>
    (.bytes (v.parts.first.take n),
      ⟨⟨v.parts.first.drop n, v.parts.later⟩,
        v.finished || v.parts.later.isEmpty && decide (v.parts.first.length < n)⟩)
  | .readToEnd _ =>
    if v.parts.later.isEmpty then (.bytes v.parts.first, ⟨.none, true⟩) else (.notEnded, v)
  | .exhausted => (.exhausted (v.finished && v.parts.first.isEmpty), v)
  | .release => (.nothing, { v with parts := v.parts.release })
  | .drop => (.nothing, v)

def calls : Outlook → List ReaderCall → List ReaderAnswer
  | _, [] => []
  | v, c :: cs =>
    let (a, v) := v.call c
    a :: v.calls cs

end Outlook

namespace TimedReader

def outlook (r : TimedReader) : Outlook := ⟨r.pump.parts.prepend r.buffered, r.finished⟩

theorem outlook_ofScript (script : Script) : (ofScript script).outlook = ⟨script.parts, false⟩ := rfl

theorem outlook_rest {r : TimedReader} (h : r.Sound) : r.rest.Sound ∧ r.rest.outlook = r.outlook := by
  obtain ⟨ms, hms⟩ := Pump.exists_runFor_eq_moves (3 * r.pump.script.size + 4) r.pump
  have hmoved : r.rest = { r with pump := r.pump.moves ms } := by rw [← hms]; rfl
  refine ⟨?_, ?_⟩
  · rw [hmoved]
    exact (follows_moves h ms).sound
  · exact congrArg (fun p => Outlook.mk (Parts.prepend r.buffered p) r.finished)
      (Pump.parts_runFor h.pump _)

theorem held_of_atRest {r : TimedReader} (h : r.pump.atRest = true) :
    r.held = r.outlook.parts.first ++ r.pump.script.input := by
  have hhand : r.pump.inHand = [] := by
    rcases r.pump.atRest_iff.mp h with hs | hs <;> simp [Pump.inHand, hs]
  simp [held, Pump.held, outlook, (Pump.parts_of_atRest h).1, hhand]

theorem outlook_of_held {r s : TimedReader} (h : r.pump.atRest = true) (hlike : r.pump.Like s.pump)
    {b : Bytes} (hheld : b ++ s.held = r.held) :
    b ++ s.outlook.parts.first = r.outlook.parts.first ∧
      s.outlook.parts.later = r.outlook.parts.later := by
  have hs : s.pump.atRest = true := hlike.atRest h
  have hscript : s.pump.script = r.pump.script := by rw [hlike]
  have hlater : s.pump.parts.later = r.pump.parts.later := by rw [hlike]; rfl
  refine ⟨?_, hlater⟩
  rw [held_of_atRest h, held_of_atRest hs, hscript, ← List.append_assoc] at hheld
  exact List.append_cancel_right hheld

theorem first_of_passed {r : TimedReader} (h : r.pump.atRest = true) (hnone : r.pump.passed = []) :
    r.outlook.parts.first = r.buffered := by
  simp [outlook, (Pump.parts_of_atRest h).1, hnone]

theorem later_of_atRest {r : TimedReader} (h : r.pump.atRest = true) :
    r.outlook.parts.later.isEmpty = true ↔ r.pump.state = .done :=
  List.isEmpty_iff.trans (Pump.parts_of_atRest h).2

theorem read_at_rest {r : TimedReader} (h : r.Sound) {looks : List Look}
    (hrest : r.pump.RestsFor looks) (n : Nat) (deadline now : Instant) (timeout : Duration) :
    let (b, _, s) := r.read n deadline now looks
    (.bytes b, s.outlook) = r.outlook.call (.read n timeout) := by
  have hr := hrest.atRest
  have hspec := read_spec h n deadline now looks
  have hcases := read_cases h n deadline now looks
  have hlike : r.pump.Like (r.read n deadline now looks).2.2.pump :=
    fillWhile_at_rest hrest (fun b => b.length < n) deadline (r.supply + 1) now
  revert hspec hcases hlike
  rcases r.read n deadline now looks with ⟨b, later, s⟩
  rintro ⟨hsound, hheld, hle, hfull⟩ ⟨-, hseen⟩ hlike
  obtain ⟨hfirst, hlater⟩ := outlook_of_held hr hlike hheld
  have hs : s.pump.atRest = true := hlike.atRest hr
  -- A read that falls short has waited for more in vain, so that nothing is left of the first part.
  have hshort : b.length < n → s.outlook.parts.first = [] ∧
      (s.finished = true ∨ s.CutShort deadline later) := by
    intro hlt
    obtain ⟨hbuffered, hend⟩ := hfull.resolve_left (Nat.ne_of_lt hlt)
    have hpassed : s.pump.passed = [] := by
      rcases hend with hf | hcut
      · exact (hsound.finished hf).2
      · exact hcut.empty
    exact ⟨by rw [first_of_passed hs hpassed, hbuffered], hend⟩
  have hcut : r.outlook.parts.first.take n = b ∧
      r.outlook.parts.first.drop n = s.outlook.parts.first := by
    rcases Nat.lt_or_eq_of_le hle with hlt | heq
    · rw [(hshort hlt).1, List.append_nil] at hfirst
      rw [(hshort hlt).1, ← hfirst]
      exact ⟨List.take_of_length_le hle, List.drop_eq_nil_of_le hle⟩
    · rw [← hfirst]
      exact ⟨List.take_left' heq, List.drop_left' heq⟩
  have hfinished : s.finished = true ↔ r.finished = true ∨
      r.outlook.parts.later.isEmpty = true ∧ r.outlook.parts.first.length < n := by
    rw [hseen, later_of_atRest hr]
    refine or_congr_right ⟨fun ⟨hlt, hnot⟩ => ?_, fun ⟨hdone, hlt⟩ => ⟨?_, fun hc => ?_⟩⟩
    · obtain ⟨hnone, hend⟩ := hshort hlt
      rw [hnone, List.append_nil] at hfirst
      have hdone := (hsound.finished (hend.resolve_right hnot)).1
      exact ⟨hlike.state.symm.trans hdone, hfirst ▸ hlt⟩
    · rw [← hfirst, List.length_append] at hlt
      omega
    · exact hc.running (hlike.state.trans hdone)
  have hout : s.outlook = ⟨⟨s.outlook.parts.first, s.outlook.parts.later⟩, s.finished⟩ := rfl
  have hflag : s.finished = (r.finished ||
      r.outlook.parts.later.isEmpty && decide (r.outlook.parts.first.length < n)) :=
    Bool.eq_iff_iff.mpr (by simpa using hfinished)
  dsimp only
  rw [hout, hlater, hflag, ← hcut.2, ← hcut.1]
  rfl

theorem readToEnd_at_rest {r : TimedReader} (h : r.Sound) {looks : List Look}
    (hrest : r.pump.RestsFor looks) (deadline now : Instant) (timeout : Duration) :
    let (b, _, s) := r.readToEnd deadline now looks
    (b.elim .notEnded .bytes, s.outlook) = r.outlook.call (.readToEnd timeout) := by
  have hr := hrest.atRest
  have hspec := readToEnd_spec h deadline now looks
  have hcases := readToEnd_cases h deadline now looks
  have hlike : r.pump.Like (r.readToEnd deadline now looks).2.2.pump := by
    have hfill := fillWhile_at_rest hrest (fun _ => true) deadline (r.supply + 1) now
    simp only [readToEnd]
    split <;> exact hfill
  revert hspec hcases hlike
  rcases r.readToEnd deadline now looks with ⟨b, later, s⟩
  rintro ⟨hsound, hheld⟩ hcases hlike
  have hs : s.pump.atRest = true := hlike.atRest hr
  have hout : s.outlook = ⟨⟨s.outlook.parts.first, s.outlook.parts.later⟩, s.finished⟩ := rfl
  obtain ⟨hfirst, hlater⟩ : b.getD [] ++ s.outlook.parts.first = r.outlook.parts.first ∧
    s.outlook.parts.later = r.outlook.parts.later := outlook_of_held hr hlike hheld
  dsimp only
  rcases hcases with ⟨rfl, hexhausted⟩ | ⟨rfl, hrf, hsf, hcut⟩
  · obtain ⟨hf, hbuffered⟩ := s.isExhausted_iff.mp hexhausted
    obtain ⟨hdone, hpassed⟩ := hsound.finished hf
    have hnone : s.outlook.parts.first = [] := by rw [first_of_passed hs hpassed, hbuffered]
    have hlast : s.outlook.parts.later = [] := List.isEmpty_iff.mp ((later_of_atRest hs).mpr hdone)
    have hall : r.held = r.outlook.parts.first := by
      rw [hnone, List.append_nil] at hfirst
      exact hfirst
    rw [hout, hnone, hlast, hf, hall, Outlook.call, ← hlater, hlast]
    rfl
  · have hmore : r.outlook.parts.later.isEmpty = false := by
      rw [← hlater]
      exact Bool.eq_false_iff.mpr fun hempty => hcut.running ((later_of_atRest hs).mp hempty)
    have hkept : s.outlook.parts.first = r.outlook.parts.first := hfirst
    have hsame : s.outlook = r.outlook := by
      rw [hout, hkept, hlater, hsf, ← hrf]
      rfl
    rw [hsame, Outlook.call, hmore]
    rfl

end TimedReader

def ReaderCall.InRange (now : Instant) : ReaderCall → Prop
  | .read _ timeout => (deadline? now timeout).isSome
  | .readToEnd timeout => (deadline? now timeout).isSome
  | _ => True

instance (now : Instant) : (c : ReaderCall) → Decidable (c.InRange now)
  | .read _ timeout => inferInstanceAs (Decidable ((deadline? now timeout).isSome = true))
  | .readToEnd timeout => inferInstanceAs (Decidable ((deadline? now timeout).isSome = true))
  | .exhausted => inferInstanceAs (Decidable True)
  | .release => inferInstanceAs (Decidable True)
  | .drop => inferInstanceAs (Decidable True)

namespace TimedReader

theorem isExhausted_at_rest {r : TimedReader} (h : r.Sound) (hrest : r.pump.atRest = true) :
    r.isExhausted = (r.outlook.finished && r.outlook.parts.first.isEmpty) := by
  have hflag : r.outlook.finished = r.finished := rfl
  rw [isExhausted, hflag]
  cases hf : r.finished with
  | false => rfl
  | true => rw [first_of_passed hrest (h.finished hf).2]

theorem callAt_at_rest {r : TimedReader} (h : r.Sound) {now : Instant} {looks : List Look}
    (hrest : r.pump.RestsFor looks) {c : ReaderCall} (hrange : c.InRange now) (hkept : c ≠ .drop) :
    let (a, _, s) := r.callAt now looks c
    s.Sound ∧ (a, s.outlook) = r.outlook.call c := by
  cases c with
  | read n timeout =>
    obtain ⟨deadline, hd⟩ := Option.isSome_iff_exists.mp hrange
    rw [callAt_read hd]
    exact ⟨(read_spec h n deadline now looks).1, read_at_rest h hrest n deadline now timeout⟩
  | readToEnd timeout =>
    obtain ⟨deadline, hd⟩ := Option.isSome_iff_exists.mp hrange
    rw [callAt_readToEnd hd]
    exact ⟨(readToEnd_spec h deadline now looks).1, readToEnd_at_rest h hrest deadline now timeout⟩
  | exhausted =>
    refine ⟨h, ?_⟩
    simp only [Outlook.call]
    rw [isExhausted_at_rest h hrest.atRest]
  | release =>
    refine ⟨(follows_moves h [.release]).sound, ?_⟩
    simp only [Outlook.call, outlook, Pump.parts_release hrest.atRest, Parts.release_prepend]
  | drop => exact absurd rfl hkept

end TimedReader

/-- A call that is made once the pump rests. -/
structure PausedCall where
  call : ReaderCall
  now : Instant
  looks : List Look
deriving DecidableEq, Repr

/-- Whether the reader is kept, the clock can show the deadline and nobody releases the pump meanwhile. -/
structure PausedCall.Fits (c : PausedCall) : Prop where
  kept : c.call ≠ .drop
  inRange : c.call.InRange c.now
  alone : ∀ look ∈ c.looks, .release ∉ look.moves

instance (c : PausedCall) : Decidable c.Fits :=
  decidable_of_iff (c.call ≠ .drop ∧ c.call.InRange c.now ∧ ∀ look ∈ c.looks, .release ∉ look.moves)
    ⟨fun ⟨hkept, hrange, halone⟩ => ⟨hkept, hrange, halone⟩,
      fun h => ⟨h.kept, h.inRange, h.alone⟩⟩

def ReaderCall.untimed : ReaderCall → ReaderCall
  | .read n _ => .read n ⟨0⟩
  | .readToEnd _ => .readToEnd ⟨0⟩
  | c => c

theorem Outlook.calls_untimed (v : Outlook) (cs : List ReaderCall) :
    v.calls (cs.map ReaderCall.untimed) = v.calls cs := by
  induction cs generalizing v with
  | nil => rfl
  | cons c cs ih =>
    have hc : v.call c.untimed = v.call c := by cases c <;> rfl
    simp only [List.map_cons, calls, hc, ih]

namespace TimedReader

def runPaused : List PausedCall → TimedReader → List ReaderAnswer
  | [], _ => []
  | c :: cs, r =>
    let (a, _, r) := r.rest.callAt c.now c.looks c.call
    a :: runPaused cs r

theorem runPaused_eq {r : TimedReader} (h : r.Sound) {cs : List PausedCall}
    (hfits : ∀ c ∈ cs, c.Fits) : r.runPaused cs = r.outlook.calls (cs.map (·.call)) := by
  induction cs generalizing r with
  | nil => rfl
  | cons c cs ih =>
    obtain ⟨hc, hcs⟩ := List.forall_mem_cons.mp hfits
    obtain ⟨hsound, hsame⟩ := outlook_rest h
    have hrests : r.rest.pump.RestsFor c.looks :=
      ((Pump.atRest_iff _).mp r.pump.atRest_run).symm.imp_right fun hs => ⟨hs, hc.alone⟩
    have hcall := callAt_at_rest hsound hrests hc.inRange hc.kept
    rw [hsame] at hcall
    revert hcall
    simp only [runPaused, List.map_cons, Outlook.calls]
    rcases r.rest.callAt c.now c.looks c.call with ⟨a, later, s⟩
    rintro ⟨hs, heq⟩
    rw [← heq, ih hs hcs]

theorem runCalls_eq_runPaused (r : TimedReader) (cs : List ReaderCall) :
    (r.runCalls cs).1 = r.runPaused (cs.map fun c => ⟨c, .start, []⟩) := by
  induction cs generalizing r with
  | nil => rfl
  | cons c cs ih => exact congrArg (_ :: ·) (ih (r.rest.call c).2)

theorem runPaused_of_alike {s t : Script} (h : s.Alike t) {cs ds : List PausedCall}
    (hcs : ∀ c ∈ cs, c.Fits) (hds : ∀ d ∈ ds, d.Fits)
    (hsame : cs.map (·.call.untimed) = ds.map (·.call.untimed)) :
    (ofScript s).runPaused cs = (ofScript t).runPaused ds := by
  have huntimed : ∀ es : List PausedCall,
      (es.map (·.call)).map ReaderCall.untimed = es.map (·.call.untimed) := by
    intro es
    rw [List.map_map]
    rfl
  rw [runPaused_eq (sound_ofScript s) hcs, runPaused_eq (sound_ofScript t) hds, outlook_ofScript,
    outlook_ofScript, Script.alike_iff.mp h, ← Outlook.calls_untimed, huntimed, hsame, ← huntimed,
    Outlook.calls_untimed]

/-- A read that is made while the pump is stalled or done gives the next bytes of those that were
produced before, as many as it asks for if there are as many. A wait for the end then gives all of
them if the pump is done, and fails otherwise. For scripts that are alike, the same calls, each made
once the pump rests, have the same answers, whatever their timeouts are. -/
theorem answers_at_rest (script : Script) :
    (∀ es looks,
      let out := ((ofScript script).session es).1
      let r := ((ofScript script).session es).2
      r.pump.RestsFor looks →
      ∃ produced, produced ++ r.pump.script.input = script.input ∧ out <+: produced ∧
        ∀ timeout now, (deadline? now timeout).isSome →
          let left := produced.drop out.length
          (∀ n, (r.callAt now looks (.read n timeout)).1 = .bytes (left.take n)) ∧
          (r.callAt now looks (.readToEnd timeout)).1 =
            if r.pump.state = .done then .bytes left else .notEnded) ∧
    ∀ script', script.Alike script' →
      (∀ cs ds : List PausedCall, (∀ c ∈ cs, c.Fits) → (∀ d ∈ ds, d.Fits) →
        cs.map (·.call.untimed) = ds.map (·.call.untimed) →
        (ofScript script).runPaused cs = (ofScript script').runPaused ds) ∧
      ∀ cs ds : List ReaderCall, (∀ c ∈ cs, c ≠ .drop ∧ c.InRange .start) →
        (∀ d ∈ ds, d ≠ .drop ∧ d.InRange .start) → cs.map (·.untimed) = ds.map (·.untimed) →
        ((ofScript script).runCalls cs).1 = ((ofScript script').runCalls ds).1 := by
  refine ⟨fun es looks => ?_, fun script' h => ⟨fun cs ds hcs hds hsame => ?_, ?_⟩⟩
  · intro out r hrest
    obtain ⟨hr, hheld⟩ : r.Sound ∧ out ++ r.held = script.input :=
      session_spec (sound_ofScript script) es
    have hr' := hrest.atRest
    rw [held_of_atRest hr', ← List.append_assoc] at hheld
    refine ⟨out ++ r.outlook.parts.first, hheld, List.prefix_append _ _, fun timeout now hd => ?_⟩
    dsimp only
    rw [List.drop_left]
    refine ⟨fun n => ?_, ?_⟩
    · have hcall := callAt_at_rest hr (c := .read n timeout) hrest hd (by simp)
      exact congrArg Prod.fst hcall.2
    · have hcall := callAt_at_rest hr (c := .readToEnd timeout) hrest hd (by simp)
      refine (congrArg Prod.fst hcall.2).trans ?_
      simp only [Outlook.call, later_of_atRest hr']
      split <;> rfl
  · exact runPaused_of_alike h hcs hds hsame
  · intro cs ds hcs hds hsame
    have hfits : ∀ es : List ReaderCall, (∀ c ∈ es, c ≠ .drop ∧ c.InRange .start) →
        ∀ c ∈ es.map fun c => PausedCall.mk c .start [], c.Fits := by
      intro es hes
      refine List.forall_mem_map.mpr fun c hc => ?_
      exact ⟨(hes c hc).1, (hes c hc).2, by simp⟩
    rw [runCalls_eq_runPaused, runCalls_eq_runPaused]
    refine runPaused_of_alike h (hfits cs hcs) (hfits ds hds) ?_
    rw [List.map_map, List.map_map]
    exact hsame

/-- Two scripts that were cut otherwise and end otherwise, read with other timeouts. -/
theorem answers_at_rest_of_two_cuts :
    let s : Script := [.data [1, 2, 3], .stall, .data [4], .error "reset"]
    let t : Script := [.data [1], .interrupted, .data [2, 3], .stall, .data [4], .data [], .data [5]]
    let cs : List PausedCall :=
      [⟨.read 2 ⟨5⟩, 0, []⟩, ⟨.readToEnd ⟨5⟩, 10, []⟩, ⟨.release, 20, []⟩, ⟨.readToEnd ⟨5⟩, 30, []⟩,
        ⟨.exhausted, 40, []⟩]
    let ds : List PausedCall :=
      [⟨.read 2 ⟨70⟩, 1, [⟨[.step], 2⟩]⟩, ⟨.readToEnd ⟨0⟩, 5, [⟨[.step], 9⟩]⟩, ⟨.release, 9, []⟩,
        ⟨.readToEnd ⟨1⟩, 9, []⟩, ⟨.exhausted, 12, []⟩]
    let es : List ReaderStep := List.replicate 5 (.pump .step)
    let r := ((ofScript s).session es).2
    s.Alike t ∧ (∀ c ∈ cs, c.Fits) ∧ (∀ d ∈ ds, d.Fits) ∧
      (ofScript s).runPaused cs = (ofScript t).runPaused ds ∧
      (ofScript t).runPaused ds =
        [.bytes [1, 2], .notEnded, .nothing, .bytes [3, 4], .exhausted true] ∧
      r.pump.RestsFor [⟨[.step], 7⟩] ∧ r.pump.script.input = [4] ∧
      ∃ produced, produced ++ [4] = s.input ∧ ∀ now, (deadline? now ⟨5⟩).isSome →
        (r.callAt now [⟨[.step], 7⟩] (.read 2 ⟨5⟩)).1 = .bytes (produced.take 2) := by
  intro s t cs ds es r
  have halike : s.Alike t := Script.alike_iff.mpr (by decide)
  have hcs : ∀ c ∈ cs, c.Fits := by decide
  have hds : ∀ d ∈ ds, d.Fits := by decide
  have hrest : r.pump.RestsFor [⟨[.step], 7⟩] := by decide +kernel
  obtain ⟨hcalls, hruns⟩ := answers_at_rest s
  obtain ⟨produced, hinput, -, hanswers⟩ := hcalls es _ hrest
  refine ⟨halike, hcs, hds, (hruns t halike).1 cs ds hcs hds rfl, by decide +kernel, hrest,
    by decide +kernel, produced, ?_, fun now hd => ?_⟩
  · exact hinput
  · exact (hanswers ⟨5⟩ now hd).1 2

end TimedReader

end Testkit
