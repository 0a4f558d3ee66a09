import Testkit.Proofs.Body.Relocation
import Testkit.Proofs.Body.Series
import Testkit.Proofs.Body.Unwinding

/-! What a body records does not depend on what the reporter holds already: it comes after that. So a
reporter that several bodies run against holds what each of them records on a reporter of its own. -/

namespace Testkit

namespace Scope

/-- What is recorded in `s`, after what `base` holds. -/
def followedBy (base s : Scope) : Scope :=
  ⟨base.failedHere || s.failedHere, base.failed || s.failed, base.skipped || s.skipped,
    base.failures ++ s.failures, base.skips ++ s.skips⟩

theorem followedBy_fresh (base : Scope) : base.followedBy {} = base := by
  simp [followedBy]

theorem fresh_followedBy (s : Scope) : Scope.followedBy {} s = s := by
  simp [followedBy]

theorem followedBy_markFailed (base s : Scope) :
    base.followedBy s.markFailed = (base.followedBy s).markFailed := by
  simp [followedBy, markFailed]

theorem followedBy_recordFailure (base s : Scope) (path : Path) (message : String) :
    base.followedBy (s.recordFailure path message) =
      (base.followedBy s).recordFailure path message := by
  simp [followedBy, recordFailure, markFailed]

theorem followedBy_recordSkip (base s : Scope) (path : Path) (message : String) :
    base.followedBy (s.recordSkip path message) = (base.followedBy s).recordSkip path message := by
  simp [followedBy, recordSkip]

theorem followedBy_absorb (base s child : Scope) :
    base.followedBy (s.absorb child) = (base.followedBy s).absorb child := by
  simp [followedBy, absorb, Bool.or_assoc]

end Scope

namespace Exec

/-- Two runs in the same test, the one of them with a scope that has held `base` before. -/
def accumulation (view : World → World) : Pairing Scope :=
  fun base env env' s t =>
    env.path = env'.path ∧ s.scope = base.followedBy t.scope ∧ view s.world = view t.world

theorem accumulation_kept {view : World → World} (hv : World.IsViewButChannels view)
    (hblind : ∀ w o, view (w.observe o) = view w) : (accumulation view).Kept where
  observe o h := ⟨h.1, h.2.1, hv.observe o h.2.2⟩
  record base message := by
    rintro env env' s t ⟨hp, hs, hw⟩
    refine ⟨rfl, hp, ?_, ?_⟩
    · simp only [record, hp, hs, Scope.followedBy_recordFailure]
    · simp only [record, hv.tellFailure, hw]
  skip base message := by
    rintro env env' s t ⟨hp, hs, hw⟩
    refine ⟨rfl, hp, ?_, ?_⟩
    · simp only [skip, hp, hs, Scope.followedBy_recordSkip]
    · simp only [skip, hv.tellSkip, hw]
  failNow base := by
    rintro env env' s t ⟨hp, hs, hw⟩
    refine ⟨rfl, hp, ?_, hw⟩
    simp only [failNow, hs, Scope.followedBy_markFailed]
  failed base := by
    -- The answers may differ, but nothing is made of them.
    rintro env env' s t ⟨hp, hs, hw⟩
    exact ⟨rfl, hp, hs, by simp only [failed, hblind, hw]⟩
  subtest {base env env' s t} name := by
    rintro ⟨hp, hs, hw⟩
    have hstart : view (env.reporter.tellStart (env.path.child name) s.world) =
        view (env'.reporter.tellStart (env'.path.child name) t.world) := by
      simp only [hv.tellStart, hw]
    refine ⟨{}, ⟨congrArg (·.child name) hp, rfl, hstart⟩, ?_⟩
    rintro ending u v ⟨-, hr, hw'⟩
    have habsorb : s.scope.absorb u.scope = base.followedBy (t.scope.absorb v.scope) := by
      rw [Scope.followedBy_absorb, ← hs, hr, Scope.fresh_followedBy]
    exact ⟨⟨hp, hs, by simp only [hv.tellExit, hw']⟩,
      hp, habsorb, by simp only [hv.tellSkipped, hv.tellExit, hw']⟩
  sandbox {base env env' s t} := by
    rintro ⟨hp, hs, hw⟩
    refine ⟨{}, ⟨rfl, rfl, hw⟩, ?_⟩
    rintro ending u v ⟨-, hr, hw'⟩
    exact ⟨hr.trans (Scope.fresh_followedBy _), hp, hs, by simp only [hv.tellExit, hw']⟩

theorem accumulation_keptByChannels {view : World → World} (hv : World.IsView view) :
    (accumulation view).KeptByChannels where
  act name op h :=
    have hw := hv.act name op h.2.2
    ⟨hw.2, h.1, h.2.1, hw.1⟩

theorem paired_outcome {view : World → World} (hblind : ∀ w o, view (w.observe o) = view w)
    (base : Scope) : Paired (accumulation view) base outcome outcome := by
  rintro env env' s t ⟨hp, hs, hw⟩
  exact ⟨rfl, hp, hs, by simp only [outcome, hblind, hw]⟩

end Exec

theorem Exec.accumulates (body : List Action) (base : Scope) :
    Paired (accumulation World.unseen) base (execAll body) (execAll body) := by
  have hc := Paired.closed
    (accumulation_kept World.isView_unseen.toIsViewButChannels World.unseen_observe)
    (accumulation_keptByChannels World.isView_unseen)
  exact hc.execAll body (fun _ => paired_outcome World.unseen_observe) base

/-- The outcome of what `o` and then `p` come from. -/
def Outcome.extend (o p : Outcome) : Outcome :=
  ⟨o.failed || p.failed, o.skipped || p.skipped, o.failures ++ p.failures, o.skips ++ p.skips⟩

theorem Scope.outcome_followedBy (base s : Scope) :
    (base.followedBy s).outcome = base.outcome.extend s.outcome := rfl

namespace SeriesBody

theorem run_on_fresh (b : SeriesBody) (s : State) :
    (b.run s).1 = (b.run ⟨{}, s.world⟩).1 ∧
      (b.run s).2.scope = s.scope.followedBy (b.run ⟨{}, s.world⟩).2.scope := by
  have hs : Exec.accumulation World.unseen s.scope (.top .sandboxed) (.top .sandboxed) s
      ⟨{}, s.world⟩ :=
    ⟨rfl, (Scope.followedBy_fresh _).symm, rfl⟩
  obtain ⟨he, -, hr, -⟩ := Exec.accumulates b.actions s.scope hs
  rw [run_scope, run_scope]
  exact ⟨he, hr⟩

/-- One run of a body that is put together from two, against two runs. -/
theorem run_append (xs ys : List Action) (s : State) (one first second : Bool) :
    let whole := run ⟨one, xs ++ ys⟩ s
    let part := run ⟨first, xs⟩ s
    let both := if part.1 = .completed then run ⟨second, ys⟩ part.2 else part
    whole.1 = both.1 ∧ whole.2.scope = both.2.scope ∧ whole.2.world.silent = both.2.world.silent := by
  intro whole part both
  have hwhole : execAll (xs ++ ys) (.top .sandboxed) s =
      if part.1 = .completed then execAll ys (.top .sandboxed) (execAll xs (.top .sandboxed) s).2
      else execAll xs (.top .sandboxed) s := by
    rw [execAll_append, Exec.andThen_eq]
    rfl
  have hfst : whole.1 = (execAll (xs ++ ys) (.top .sandboxed) s).1 := run_fst _ _
  have hscope : whole.2.scope = (execAll (xs ++ ys) (.top .sandboxed) s).2.scope := run_scope _ _
  have hworld : whole.2.world.silent =
      (execAll (xs ++ ys) (.top .sandboxed) s).2.world.silent := run_silent _ _
  rw [hfst, hscope, hworld, hwhole]
  by_cases hc : part.1 = .completed
  · have hpart : part = execAll xs (.top .sandboxed) s := run_of_completed hc
    have hboth : both = run ⟨second, ys⟩ part.2 := if_pos hc
    rw [if_pos hc, hboth, ← hpart, run_fst, run_scope, run_silent]
    exact ⟨rfl, rfl, rfl⟩
  · have hboth : both = part := if_neg hc
    rw [if_neg hc, hboth]
    exact ⟨rfl, (run_scope ⟨first, xs⟩ s).symm, (run_silent ⟨first, xs⟩ s).symm⟩

end SeriesBody

/-- Bodies are run one after another against a sandboxed reporter, on threads of their own or directly,
and however they end. The outcome after each of them is the one before it, followed by what the body
records when it runs alike against a fresh reporter. A body that runs directly and on a thread leaves
the same state and the same trace: it completes in the one way if the other says that it ran to its
end, it exits if the other says that it did not, and it panics in both ways alike. A body that is put
together from two records what the first and then the second record, or the first alone if that does
not complete. -/
theorem reporter_accumulates :
    (∀ (earlier later : List SeriesBody) (b : SeriesBody) (w : World),
      let s := afterSeries earlier ⟨{}, w⟩
      let t := afterSeries (earlier ++ [b]) ⟨{}, w⟩
      let fresh := b.run (State.cleared ⟨{}, s.world⟩)
      t.scope.outcome = s.scope.outcome.extend fresh.2.scope.outcome ∧
        (runSeries (earlier ++ b :: later) ⟨{}, w⟩)[earlier.length]?.map
          (fun step => (step.ending, step.outcome)) = some (fresh.1, t.scope.outcome)) ∧
    (∀ (body : List Action) (s : State),
      let direct := SeriesBody.run ⟨true, body⟩ s
      let isolated := runIsolated body s
      (isolated.2.scope = direct.2.scope ∧ isolated.2.world.trace = direct.2.world.trace ∧
        isolated.2.world.channels = direct.2.world.channels ∧
        isolated.2.world.now = direct.2.world.now) ∧
      (direct.1 = .completed ↔ isolated.1 = .ok true) ∧
      (direct.1 = .exited ↔ isolated.1 = .ok false) ∧
      ∀ p, direct.1 = .panicked p ↔ isolated.1 = .error p) ∧
    ∀ (xs ys : List Action) (s : State) (one first second : Bool),
      let whole := SeriesBody.run ⟨one, xs ++ ys⟩ s
      let part := SeriesBody.run ⟨first, xs⟩ s
      let both := if part.1 = .completed then SeriesBody.run ⟨second, ys⟩ part.2 else part
      whole.1 = both.1 ∧ whole.2.scope = both.2.scope ∧
        whole.2.world.trace = both.2.world.trace ∧
        whole.2.world.channels = both.2.world.channels ∧ whole.2.world.now = both.2.world.now := by
  refine ⟨fun earlier later b w => ?_, fun body s => ?_, fun xs ys s one first second => ?_⟩
  · intro s t fresh
    obtain ⟨hending, hscope⟩ := b.run_on_fresh s.cleared
    have ht : t.scope = (b.run s.cleared).2.scope := by
      simp only [t, afterSeries, List.foldl_append, List.foldl_cons, List.foldl_nil]
      rfl
    refine ⟨?_, ?_⟩
    · rw [ht, hscope, Scope.outcome_followedBy]
      rfl
    · rw [runSeries_append, ← length_runSeries earlier ⟨{}, w⟩,
        List.getElem?_append_right (Nat.le_refl _), Nat.sub_self, ht]
      exact congrArg some (Prod.ext hending rfl)
  · intro direct isolated
    exact ⟨⟨(SeriesBody.run_scope ⟨false, body⟩ s).trans (SeriesBody.run_scope ⟨true, body⟩ s).symm,
      World.agree_of_silent ((SeriesBody.run_silent ⟨false, body⟩ s).trans
        (SeriesBody.run_silent ⟨true, body⟩ s).symm)⟩,
      Ending.resolve_eq_true.symm, Ending.resolve_eq_false.symm,
      fun _ => Ending.resolve_eq_error.symm⟩
  · obtain ⟨hending, hscope, hworld⟩ := SeriesBody.run_append xs ys s one first second
    exact ⟨hending, hscope, World.agree_of_silent hworld⟩

example :
    (runSeries [⟨true, [.fail "a", .raise (.text "b")]⟩, ⟨false, [.failed, .skip "c", .fail "d"]⟩]
      ⟨{}, {}⟩).map (fun step => (step.ending, step.outcome, step.trace)) =
      [(.panicked (.text "b"), ⟨true, false, [⟨.root, "a"⟩], []⟩, []),
        (.exited, ⟨true, true, [⟨.root, "a"⟩], [⟨.root, "c"⟩]⟩, [.failed true])] := by
  decide

end Testkit
