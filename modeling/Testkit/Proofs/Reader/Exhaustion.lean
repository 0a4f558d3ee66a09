import Testkit.Proofs.Reader.Work

/-! When a reader is exhausted. It has to hand out all of the input and also to see the end of it, which
reads that ask for no more than the input never do. -/

namespace Testkit

namespace TimedReader

theorem Sound.isExhausted_iff_held {r : TimedReader} (h : r.Sound) :
    r.isExhausted = true ↔ r.held = [] ∧ r.finished = true := by
  refine ⟨fun he => ⟨h.held_of_exhausted he, (r.isExhausted_iff.mp he).1⟩, ?_⟩
  rintro ⟨hnone, hf⟩
  exact r.isExhausted_iff.mpr ⟨hf, (h.held_of_finished hf).symm.trans hnone⟩

theorem read_short {r : TimedReader} (h : r.Sound) (n : Nat) (deadline now : Instant)
    (looks : List Look) :
    let (b, later, s) := r.read n deadline now looks
    b.length < n → ¬ s.CutShort deadline later → b = r.held ∧ s.OverForGood := by
  have hspec := read_spec h n deadline now looks
  have hcases := read_cases h n deadline now looks
  revert hspec hcases
  rcases r.read n deadline now looks with ⟨b, later, s⟩
  rintro ⟨hs, hheld, -⟩ ⟨hshort, -⟩ hlt hcut
  have hexhausted : s.isExhausted = true := (hshort hlt).resolve_right hcut
  rw [hs.held_of_exhausted hexhausted, List.append_nil] at hheld
  exact ⟨hheld, overForGood_of_exhausted hs hexhausted⟩

theorem take_no_more {r : TimedReader} (h : r.Sound) {e : ReaderStep}
    (hwait : ∀ timeout now looks, e ≠ .readToEnd timeout now looks)
    (hasked : e.asked ≤ r.held.length) :
    (r.take e).1.length ≤ e.asked ∧ ¬ r.SeesEnd e := by
  cases e with
  | pump m => exact ⟨Nat.le_refl _, id⟩
  | exhausted => exact ⟨Nat.le_refl _, id⟩
  | readToEnd timeout now looks => exact absurd rfl (hwait timeout now looks)
  | read n timeout now looks =>
    cases hd : deadline? now timeout with
    | none => simp [take, answer, callAt, SeesEnd, ReaderStep.asked, ReaderAnswer.handedOut, hd]
    | some deadline =>
      have hspec := read_spec h n deadline now looks
      have hshort := read_short h n deadline now looks
      simp only [ReaderStep.asked, hd, Option.isSome_some, if_true] at hasked
      simp only [take, answer, SeesEnd, callAt_read hd, ← deadline?_eq_some hd, ReaderStep.asked, hd,
        Option.isSome_some, if_true]
      revert hspec hshort
      rcases r.read n deadline now looks with ⟨b, later, s⟩
      rintro ⟨-, -, hle, -⟩ hshort
      refine ⟨hle, ?_⟩
      rintro ⟨b', hb, hlt, hcut⟩
      obtain rfl : b = b' := ReaderAnswer.bytes.inj hb
      -- A read that sees the end gets all that was left, which is as much as it asked for.
      rw [(hshort hlt hcut).1] at hlt
      exact absurd hasked (Nat.not_le_of_lt hlt)

theorem not_hasSeenEnd_of_asked_le {r : TimedReader} (h : r.Sound) {es : List ReaderStep}
    (hwait : ∀ timeout now looks, .readToEnd timeout now looks ∉ es)
    (hasked : (es.map ReaderStep.asked).sum ≤ r.held.length) : ¬ r.HasSeenEnd es := by
  induction es generalizing r with
  | nil => exact id
  | cons e es ih =>
    rw [List.map_cons, List.sum_cons] at hasked
    obtain ⟨hle, hseen⟩ := take_no_more h (e := e)
      (fun timeout now looks he => hwait timeout now looks (he ▸ List.mem_cons_self))
      (Nat.le_trans (Nat.le_add_right _ _) hasked)
    obtain ⟨hs, hheld⟩ := take_spec h e
    have hlen := congrArg List.length hheld
    rw [List.length_append] at hlen
    rintro (he | hes)
    · exact hseen he
    · refine ih hs (fun timeout now looks hmem => ?_) (by omega) hes
      exact hwait timeout now looks (List.mem_cons_of_mem _ hmem)

/-- A wait for the end, or a read of more than is left, gives all that is left and shows the end. -/
theorem callAt_of_done {r : TimedReader} (h : r.Sound) (hdone : r.pump.state = .done)
    {now deadline : Instant} {timeout : Duration} (hd : deadline? now timeout = some deadline)
    (looks : List Look) {c : ReaderCall}
    (hc : c = .readToEnd timeout ∨ ∃ n, r.held.length < n ∧ c = .read n timeout) :
    let (answer, _, s) := r.callAt now looks c
    answer = .bytes r.held ∧ s.OverForGood := by
  rcases hc with rfl | ⟨n, hlt, rfl⟩
  · have hlasts := lasts_take Pump.lasting_done hdone (.readToEnd timeout now looks)
    simp only [take, answer, callAt_readToEnd hd] at hlasts ⊢
    have hspec := readToEnd_spec h deadline now looks
    have hcases := readToEnd_cases h deadline now looks
    revert hlasts hspec hcases
    rcases r.readToEnd deadline now looks with ⟨b, later, s⟩
    rintro hlasts ⟨hs, -⟩ (⟨rfl, hexhausted⟩ | ⟨-, -, -, hcut⟩)
    · exact ⟨rfl, overForGood_of_exhausted hs hexhausted⟩
    · exact absurd hlasts hcut.running
  · have hlasts := lasts_take Pump.lasting_done hdone (.read n timeout now looks)
    simp only [take, answer, callAt_read hd] at hlasts ⊢
    have hspec := read_spec h n deadline now looks
    have hshort := read_short h n deadline now looks
    revert hlasts hspec hshort
    rcases r.read n deadline now looks with ⟨b, later, s⟩
    rintro hlasts ⟨-, hheld, -⟩ hshort
    have hle : b.length ≤ r.held.length := by
      rw [← hheld, List.length_append]
      exact Nat.le_add_right _ _
    obtain ⟨rfl, hover⟩ := hshort (Nat.lt_of_le_of_lt hle hlt) fun hcut => hcut.running hlasts
    exact ⟨rfl, hover⟩

/-- After any steps, a reader is exhausted just if it has handed out all of the input and has seen the
end of it. It has not seen the end if it was only read, and for no more bytes in all than the input
has, even if the pump is done. Once the pump is done, a wait for the end or a read of more than is left
gives all that is left, and then the reader is exhausted for good. -/
theorem exhausted_iff_end_seen (script : Script) (es : List ReaderStep) :
    let start := ofScript script
    let out := (start.session es).1
    let r := (start.session es).2
    (r.isExhausted = true ↔ out = script.input ∧ start.HasSeenEnd es) ∧
    ((∀ timeout now looks, .readToEnd timeout now looks ∉ es) →
      (es.map ReaderStep.asked).sum ≤ script.input.length → r.isExhausted = false) ∧
    (r.pump.state = .done → ∀ timeout now looks, (deadline? now timeout).isSome →
      ∀ c, (c = .readToEnd timeout ∨
          ∃ n, script.input.length < out.length + n ∧ c = .read n timeout) →
        let answer := (r.callAt now looks c).1
        let s := (r.callAt now looks c).2.2
        (∃ b, answer = .bytes b ∧ out ++ b = script.input) ∧ s.OverForGood) := by
  intro start out r
  have hstart : start.Sound := sound_ofScript script
  obtain ⟨hr, hheld⟩ : r.Sound ∧ out ++ r.held = script.input := session_spec hstart es
  have hseen : r.finished = true ↔ start.HasSeenEnd es :=
    (session_finished hstart es).trans (or_iff_right Bool.false_ne_true)
  have hall : r.held = [] ↔ out = script.input := by
    rw [← hheld]
    exact List.self_eq_append_right.symm
  have hiff : r.isExhausted = true ↔ out = script.input ∧ start.HasSeenEnd es := by
    rw [hr.isExhausted_iff_held, hall, hseen]
  refine ⟨hiff, fun hwait hasked => ?_, fun hdone timeout now looks hd c hc => ?_⟩
  · exact Bool.eq_false_iff.mpr fun he => not_hasSeenEnd_of_asked_le hstart hwait hasked (hiff.mp he).2
  · obtain ⟨deadline, hd⟩ := Option.isSome_iff_exists.mp hd
    have hlen := congrArg List.length hheld
    rw [List.length_append] at hlen
    have hcall := callAt_of_done hr hdone hd looks
      (hc.imp_right fun ⟨n, hlt, heq⟩ => ⟨n, by omega, heq⟩)
    exact ⟨⟨r.held, hcall.1, hheld⟩, hcall.2⟩

/-- Two reads that ask for just the input after the pump is done, and then one for a byte more. -/
theorem exhausted_iff_end_seen_byte_for_byte :
    let script : Script := [.data [1, 2], .interrupted, .data [3]]
    let start := ofScript script
    let es : List ReaderStep :=
      List.replicate 10 (.pump .step) ++ [.read 2 ⟨5⟩ 0 [], .read 1 ⟨5⟩ 1 []]
    let r := (start.session es).2
    r.pump.state = .done ∧ (start.session es).1 = script.input ∧ r.isExhausted = false ∧
      (∃ b, (r.callAt 2 [] (.read 1 ⟨5⟩)).1 = .bytes b ∧ script.input ++ b = script.input) ∧
      (r.callAt 2 [] (.read 1 ⟨5⟩)).2.2.OverForGood := by
  intro script start es r
  have hdone : r.pump.state = .done := by decide +kernel
  have hout : (start.session es).1 = script.input := by decide +kernel
  obtain ⟨-, hexact, hfurther⟩ := exhausted_iff_end_seen script es
  have hmore : script.input.length < (start.session es).1.length + 1 := by
    rw [hout]
    exact Nat.lt_succ_self _
  -- The states are the same by name. Unfolding more would run the session to compare them.
  have hcall := hfurther (by with_reducible exact hdone) ⟨5⟩ 2 [] (by decide) (.read 1 ⟨5⟩)
    (.inr ⟨1, hmore, rfl⟩)
  refine ⟨hdone, hout, ?_, ?_⟩
  · exact hexact (by simp [es]) (by decide)
  · rw [hout] at hcall
    with_reducible exact hcall

/-- A reader can have handed out all of the input of a pump that is done, and not be exhausted. -/
theorem not_exhausted_after_exact_read :
    ¬ ∀ (script : Script) (es : List ReaderStep),
      let r := ((ofScript script).session es).2
      r.pump.state = .done → ((ofScript script).session es).1 = script.input →
        r.isExhausted = true := by
  intro h
  have hexhausted := h [.data [97, 98, 99]] (List.replicate 5 (.pump .step) ++ [.read 3 ⟨5⟩ 0 []])
    (by decide +kernel) (by decide +kernel)
  revert hexhausted
  decide +kernel

end TimedReader

end Testkit
