import Testkit.Proofs.Body.Accounts
import Testkit.Proofs.Body.Occurrences
import Testkit.Proofs.Body.Series

/-! What a sandboxed reporter shows when it is looked at, between the bodies that run against it and
anywhere in them: what was recorded by then, except by subtests that still run or have panicked. -/

namespace Testkit

/-- A look shows what the outermost test has recorded until then. What runs in it at that time is not
yet part of it. -/
theorem Occurs.look {history : List Deed} {live : List (List Deed)} {o : Outcome}
    (ho : Occurs history live (.looked o)) {env : Env} {scope : Scope}
    (h : TruthfulAll env scope history) {top : List Deed} (hl : live.head? = some top) :
    o = (env.enclosing.getLast?.getD (scope.followedBy (.recorded env.path top))).outcome := by
  generalize ha : Act.looked o = a at ho
  induction ho generalizing env scope top with
  | here a after =>
    obtain rfl := Option.some.inj hl
    subst ha
    rw [Scope.recorded_nil, Scope.followedBy_fresh]
    exact h.1
  | @later history before inner a d ho ih =>
    obtain rfl := Option.some.inj hl
    have hbefore := ih h.2 rfl ha
    rwa [Scope.followedBy_assoc, ← Scope.recorded_append] at hbefore
  | @subtest history live a name ending after ho ih =>
    obtain rfl := Option.some.inj hl
    obtain ⟨top, inner, rfl⟩ := List.exists_cons_of_ne_nil ho.ne_nil
    have hinside := ih h.1 rfl ha
    rw [Scope.recorded_nil, Scope.followedBy_fresh]
    simpa only [Env.inSubtest, List.getLast?_cons, Option.getD_some] using hinside
  | @sandbox history live a ending after ho ih =>
    obtain rfl := Option.some.inj hl
    obtain ⟨top, inner, rfl⟩ := List.exists_cons_of_ne_nil ho.ne_nil
    have hinside := ih h.1 rfl ha
    rw [Scope.recorded_nil, Scope.followedBy_fresh]
    simpa only [Env.inSandbox, List.getLast?_cons, Option.getD_some] using hinside

/-- Whether something was at most added from one outcome to the other. -/
structure Outcome.GrowsTo (o p : Outcome) : Prop where
  failures : o.failures <+: p.failures
  skips : o.skips <+: p.skips
  failed : o.failed = true → p.failed = true
  skipped : o.skipped = true → p.skipped = true

namespace Outcome.GrowsTo

variable {o p q : Outcome}

theorem refl (o : Outcome) : o.GrowsTo o := ⟨List.prefix_rfl, List.prefix_rfl, id, id⟩

theorem trans (h : o.GrowsTo p) (h' : p.GrowsTo q) : o.GrowsTo q where
  failures := h.failures.trans h'.failures
  skips := h.skips.trans h'.skips
  failed ho := h'.failed (h.failed ho)
  skipped ho := h'.skipped (h.skipped ho)

theorem followedBy (base s : Scope) : base.outcome.GrowsTo (base.followedBy s).outcome where
  failures := List.prefix_append ..
  skips := List.prefix_append ..
  failed h := Bool.or_eq_true_iff.mpr (.inl h)
  skipped h := Bool.or_eq_true_iff.mpr (.inl h)

end Outcome.GrowsTo

def Moment.look? (m : Moment) : Option Outcome :=
  match m.event with
  | .act (.looked o) => some o
  | _ => none

/-- Where the outermost test is looked at, each look shows at least what those before have shown. -/
theorem looks_grow {env : Env} (he : env.enclosing = []) {scope : Scope} {history : List Deed}
    (h : TruthfulAll env scope history) (path : Path) :
    (scope.outcome :: (momentsAll path history).filterMap Moment.look?).Pairwise
      Outcome.GrowsTo := by
  induction history generalizing scope with
  | nil => exact List.pairwise_singleton _ _
  | cons d history ih =>
    -- The looks within one deed all show what was there before it.
    have hd : ∀ o ∈ (d.moments path).filterMap Moment.look?, o = scope.outcome := by
      intro o ho
      obtain ⟨m, hm, hlook⟩ := List.mem_filterMap.mp ho
      have hevent : m.event = .act (.looked o) := by
        revert hlook
        simp only [Moment.look?]
        split <;> simp_all
      obtain ⟨live, hoccurs⟩ := d.occurs_of_moment hevent hm
      have hshown := hoccurs.look ⟨h.1, trivial⟩ hoccurs.head?_of_singleton
      rwa [he, Scope.recorded_nil, Scope.followedBy_fresh] at hshown
    have hrest := ih h.2
    have hgrows := Outcome.GrowsTo.followedBy scope (.recorded env.path [d])
    rw [List.pairwise_cons] at hrest
    rw [momentsAll, List.filterMap_append, List.pairwise_cons, List.pairwise_append]
    refine ⟨fun o ho => ?_, ?_, hrest.2, fun o ho p hp => ?_⟩
    · obtain ho | ho := List.mem_append.mp ho
      · exact hd o ho ▸ .refl _
      · exact hgrows.trans (hrest.1 o ho)
    · exact List.pairwise_of_forall_mem_list fun o ho p hp => hd o ho ▸ hd p hp ▸ .refl _
    · exact hd o ho ▸ hgrows.trans (hrest.1 p hp)

def SeriesBody.history (b : SeriesBody) (s : State) : List Deed :=
  deedsAll b.actions (.top .sandboxed) s.cleared

/-- All that is done by the bodies, with a look at the reporter before each of them and at the end. -/
def seriesHistory : List SeriesBody → State → List Deed
  | [], s => [.act (.looked s.scope.outcome)]
  | b :: rest, s =>
    .act (.looked s.scope.outcome) :: (b.history s ++ seriesHistory rest (b.after s))

namespace SeriesBody

theorem account (b : SeriesBody) (s : State) :
    Account (b.history s) (.top .sandboxed) s.cleared
      (execAll b.actions (.top .sandboxed) s.cleared).2 :=
  Deeds.Accounts.all b.actions (.top .sandboxed) s.cleared

theorem after_scope (b : SeriesBody) (s : State) :
    (b.after s).scope = s.scope.followedBy (.recorded .root (b.history s)) :=
  (b.run_scope s.cleared).trans (b.account s).scope

theorem after_trace (b : SeriesBody) (s : State) :
    (b.after s).world.trace = (momentsAll .root (b.history s)).filterMap Moment.seen? := by
  have htrace : (b.after s).world.trace =
      (execAll b.actions (.top .sandboxed) s.cleared).2.world.trace := by
    simp only [after, run]
    generalize execAll b.actions (.top .sandboxed) s.cleared = r
    obtain ⟨ending, t⟩ := r
    cases b.direct <;> cases ending <;> rfl
  rw [htrace, (b.account s).world.trace]
  rfl

end SeriesBody

theorem seriesHistory_truthful (bodies : List SeriesBody) (s : State) :
    TruthfulAll (.top .sandboxed) s.scope (seriesHistory bodies s) := by
  induction bodies generalizing s with
  | nil => exact ⟨rfl, trivial⟩
  | cons b rest ih =>
    refine ⟨rfl, ?_⟩
    have hlook : Scope.recorded .root [.act (.looked s.scope.outcome)] = {} := rfl
    rw [show (Env.top .sandboxed).path = .root from rfl, hlook, Scope.followedBy_fresh]
    refine truthfulAll_append (b.account s).truthful ?_
    have hrest := ih (b.after s)
    rwa [b.after_scope] at hrest

theorem seriesHistory_seen (bodies : List SeriesBody) (s : State) :
    (momentsAll .root (seriesHistory bodies s)).filterMap Moment.seen? =
      .outcome s.scope.outcome ::
        (runSeries bodies s).flatMap fun step => step.trace ++ [.outcome step.outcome] := by
  induction bodies generalizing s with
  | nil => rfl
  | cons b rest ih =>
    have hrest := ih (b.after s)
    have hlook : (momentsAll .root [.act (.looked s.scope.outcome)]).filterMap Moment.seen? =
        [.outcome s.scope.outcome] := rfl
    rw [seriesHistory, ← List.singleton_append, momentsAll_append, momentsAll_append,
      List.filterMap_append, List.filterMap_append, hlook, hrest, ← b.after_trace, runSeries,
      List.flatMap_cons, List.append_assoc]
    rfl

theorem occurs_seriesHistory {b : SeriesBody} {s : State} (earlier later : List SeriesBody)
    {live : List (List Deed)} {a : Act}
    (h : Occurs (b.history (afterSeries earlier s)) live a) :
    ∃ live', live'.length = live.length ∧
      Occurs (seriesHistory (earlier ++ b :: later) s) live' a := by
  induction earlier generalizing s with
  | nil => exact (h.followed _).preceded [_]
  | cons c earlier ih =>
    obtain ⟨live', hl, h'⟩ := ih h
    obtain ⟨live'', hl', h''⟩ := h'.preceded (.act (.looked s.scope.outcome) :: c.history s)
    exact ⟨live'', hl'.trans hl, h''⟩

/-- Of the outcomes that a sandboxed reporter shows in the course of time, each has all that those before
had, in the same order. Wherever it is looked at, it shows exactly what the outermost test has recorded
until then, its finished subtests included: nothing of a subtest that still runs, or that a panic has
left. -/
theorem snapshots_grow (bodies : List SeriesBody) (w : World) :
    let s : State := ⟨{}, w⟩
    let history := seriesHistory bodies s
    let moments := momentsAll .root history
    .outcome s.scope.outcome ::
        (runSeries bodies s).flatMap (fun step => step.trace ++ [.outcome step.outcome]) =
      moments.filterMap Moment.seen? ∧
    (∀ earlier b later frames rest env t, bodies = earlier ++ b :: later →
      Control.Reaches frames ⟨b.actions, .top .sandboxed, (afterSeries earlier s).cleared⟩
          ⟨.outcome :: rest, env, t⟩ →
        ∃ live o, live.length = frames.countP Frame.hasScope + 1 ∧
          Occurs history live (.looked o) ∧
          (Exec.outcome env t).2.world = t.world.observe (.outcome o)) ∧
    (moments.filterMap Moment.look?).Pairwise Outcome.GrowsTo ∧
    ∀ top running o, Occurs history (top :: running) (.looked o) →
      o = (Scope.recorded .root top).outcome := by
  intro s history moments
  have htruthful : TruthfulAll (.top .sandboxed) {} history := seriesHistory_truthful bodies s
  have hgrow := looks_grow rfl htruthful .root
  refine ⟨(seriesHistory_seen bodies s).symm, ?_, (List.pairwise_cons.mp hgrow).2, ?_⟩
  · rintro earlier b later frames rest env t rfl hplace
    obtain ⟨live, hl, ho⟩ := hplace.occurs (List.mem_singleton_self _)
    obtain ⟨live', hl', ho'⟩ := occurs_seriesHistory earlier later ho
    exact ⟨live', _, hl'.trans hl, ho', rfl⟩
  · intro top running o ho
    rw [ho.look htruthful rfl, Scope.fresh_followedBy]
    rfl

/-- The reporter is looked at in a subtest that has failed but still runs, after a panic has left another
one. -/
theorem snapshots_grow_amid_subtest :
    let lost : Action := .catching [.subtest "a" [.fail "x", .raise (.code 7)]] false
    let running : Action := .subtest "b" [.fail "y", .outcome]
    let b : SeriesBody := ⟨true, [lost, running]⟩
    let s : State := ⟨{}, {}⟩
    let o : Outcome := ⟨false, false, [], []⟩
    let top : List Deed := [.act (.looked o),
      .subtest "a" [.act (.failure "x")] (.panicked (.code 7)),
      .act (.saw (.caught (.panicked (.code 7))))]
    (∃ live o, live.length = 2 ∧ Occurs (seriesHistory [b] s) live (.looked o)) ∧
    Occurs (seriesHistory [b] s) [top, [.act (.failure "y")]] (.looked o) ∧
    o = (Scope.recorded .root top).outcome := by
  intro lost running b s o top
  obtain ⟨-, hplaces, -, hexact⟩ := snapshots_grow [b] s.world
  have hplace : Control.Reaches [.subtest] ⟨b.actions, .top .sandboxed, s.cleared⟩ _ :=
    .next rfl (.inside (.subtest "b" _ _ _) (.next rfl (.here _)))
  have hlook : Occurs (seriesHistory [b] s) [top, [.act (.failure "y")]] (.looked o) :=
    .later _ (.later _ (.later _ (.subtest "b" _ _ (.later _ (.here _ _)))))
  obtain ⟨live, o', hl, ho, -⟩ := hplaces [] b [] _ _ _ _ rfl hplace
  exact ⟨⟨live, o', hl, ho⟩, hlook, hexact top _ o hlook⟩

end Testkit
