import Testkit.Proofs.Body.Accumulation
import Testkit.Proofs.Body.Deeds

/-! A body leaves what its history says: the state of its test, and what was seen, printed and logged. Where
the test asked something on the way, it was told what the history says until then. -/

namespace Testkit

namespace Moment

theorem kept_lose (moments : List Moment) :
    (moments.map lose).filter (fun m => m.fate = .kept) = [] := by
  refine List.filter_eq_nil_iff.mpr fun m hm => ?_
  obtain ⟨n, -, rfl⟩ := List.mem_map.mp hm
  by_cases hn : n.fate = .kept <;> simp [lose, hn]

theorem kept_setApart (moments : List Moment) :
    (moments.map setApart).filter (fun m => m.fate = .kept) = [] := by
  refine List.filter_eq_nil_iff.mpr fun m hm => ?_
  obtain ⟨n, -, rfl⟩ := List.mem_map.mp hm
  simp [setApart]

end Moment

namespace Scope

theorem followedBy_assoc (a b c : Scope) :
    (a.followedBy b).followedBy c = a.followedBy (b.followedBy c) := by
  simp [followedBy, Bool.or_assoc]

theorem recorded_nil (path : Path) : recorded path [] = {} := rfl

theorem recorded_append (path : Path) (history more : List Deed) :
    recorded path (history ++ more) = (recorded path history).followedBy (recorded path more) := by
  simp [recorded, followedBy, momentsAll_append]

theorem recorded_subtest (path : Path) (name : String) (history : List Deed) {ending : Ending}
    (h : ending.returns = true) :
    recorded path [.subtest name history ending] =
      Scope.absorb {} (recorded (path.child name) history) := by
  simp [recorded, momentsAll_singleton, Deed.moments, h, absorb, Deed.fails, Deed.skips,
    Moment.fails, Moment.failure?, Moment.skip?, List.filterMap_cons]

theorem recorded_subtest_of_panic (path : Path) (name : String) (history : List Deed)
    {ending : Ending} (h : ending.returns = false) :
    recorded path [.subtest name history ending] = {} := by
  simp only [recorded, momentsAll_singleton, Deed.moments, h, Bool.false_eq_true, if_false,
    Moment.kept_lose]
  rfl

theorem recorded_sandbox (path : Path) (history : List Deed) (ending : Ending) :
    recorded path [.sandbox history ending] = {} := by
  simp only [recorded, momentsAll_singleton, Deed.moments, List.filter_append,
    Moment.kept_setApart]
  rfl

end Scope

/-- Whether this was seen, printed and logged from `w` to `v`, in a test of that reporter. -/
structure World.Tells (r : Reporter) (moments : List Moment) (w v : World) : Prop where
  trace : v.trace = w.trace ++ moments.filterMap Moment.seen?
  printed : v.printed = w.printed ++ moments.filterMap (Moment.printed? r)
  log : v.log = w.log ++ moments.filterMap (Moment.notice? r)

namespace World.Tells

variable {r : Reporter} {w v u : World} {moments more : List Moment}

theorem nothing (r : Reporter) {w v : World} (ht : v.trace = w.trace) (hp : v.printed = w.printed)
    (hl : v.log = w.log) : Tells r [] w v :=
  ⟨by simp [ht], by simp [hp], by simp [hl]⟩

theorem append (h : Tells r moments w v) (h' : Tells r more v u) :
    Tells r (moments ++ more) w u where
  trace := by rw [h'.trace, h.trace, List.filterMap_append, List.append_assoc]
  printed := by rw [h'.printed, h.printed, List.filterMap_append, List.append_assoc]
  log := by rw [h'.log, h.log, List.filterMap_append, List.append_assoc]

/-- The same moments seen from somewhere else, where as much is told of them. -/
theorem map {r' : Reporter} {f : Moment → Moment} (h : Tells r' moments w v)
    (hs : ∀ m, (f m).seen? = m.seen?) (hp : ∀ m, (f m).printed? r = m.printed? r')
    (hn : ∀ m, (f m).notice? r = m.notice? r') : Tells r (moments.map f) w v where
  trace := by rw [List.filterMap_map, show Moment.seen? ∘ f = _ from funext hs, h.trace]
  printed := by rw [List.filterMap_map, show Moment.printed? r ∘ f = _ from funext hp, h.printed]
  log := by rw [List.filterMap_map, show Moment.notice? r ∘ f = _ from funext hn, h.log]

theorem lose (h : Tells r moments w v) : Tells r (moments.map Moment.lose) w v := by
  have hr (m : Moment) : m.lose.reporter r = m.reporter r := by
    by_cases hk : m.fate = .kept <;> simp [Moment.lose, Moment.reporter, hk]
  refine h.map (fun _ => rfl) (fun m => ?_) (fun m => ?_)
  · simp only [Moment.printed?, hr]
    rfl
  · simp only [Moment.notice?, hr]
    rfl

theorem setApart (h : Tells .sandboxed moments w v) :
    Tells r (moments.map Moment.setApart) w v := by
  have hr (m : Moment) : m.setApart.reporter r = m.reporter .sandboxed := by
    by_cases hk : m.fate = .apart <;> simp [Moment.setApart, Moment.reporter, hk]
  refine h.map (fun _ => rfl) (fun m => ?_) (fun m => ?_)
  · simp only [Moment.printed?, hr]
    rfl
  · simp only [Moment.notice?, hr]
    rfl

theorem unnoticed {m : Moment} (hs : m.seen? = none) (hp : m.printed? r = none)
    (hn : m.notice? r = none) (w : World) : Tells r [m] w w :=
  ⟨by simp [hs], by simp [hp], by simp [hn]⟩

theorem observe {m : Moment} {o : Observation} (hs : m.seen? = some o) (hp : m.printed? r = none)
    (hn : m.notice? r = none) (w : World) : Tells r [m] w (w.observe o) :=
  ⟨by simp [hs, World.observe], by simp [hp, World.observe], by simp [hn, World.observe]⟩

theorem print {m : Moment} {p : Printed} (hs : m.seen? = none) (hp : m.printed? r = some p)
    (hn : m.notice? r = none) (w : World) : Tells r [m] w (w.print p) :=
  ⟨by simp [hs, World.print], by simp [hp, World.print], by simp [hn, World.print]⟩

theorem notify {m : Moment} {n : Notice} (hs : m.seen? = none) (hp : m.printed? r = none)
    (hn : m.notice? r = some n) (w : World) : Tells r [m] w (w.notify n) :=
  ⟨by simp [hs, World.notify], by simp [hp, World.notify], by simp [hn, World.notify]⟩

theorem asked (r : Reporter) (path : Path) (answer : Bool) (w : World) :
    Tells r [⟨path, .kept, .act (.asked answer)⟩] w (w.observe (.failed answer)) := by
  cases r <;> exact observe rfl rfl rfl w

theorem looked (r : Reporter) (path : Path) (o : Outcome) (w : World) :
    Tells r [⟨path, .kept, .act (.looked o)⟩] w (w.observe (.outcome o)) := by
  cases r <;> exact observe rfl rfl rfl w

theorem saw (r : Reporter) (path : Path) (o : Observation) (w : World) :
    Tells r [⟨path, .kept, .act (.saw o)⟩] w (w.observe o) := by
  cases r <;> exact observe rfl rfl rfl w

theorem failNow (r : Reporter) (path : Path) (w : World) :
    Tells r [⟨path, .kept, .act .failNow⟩] w w := by
  cases r <;> exact unnoticed rfl rfl rfl w

theorem failure (r : Reporter) (path : Path) (message : String) (w : World) :
    Tells r [⟨path, .kept, .act (.failure message)⟩] w (r.tellFailure path message w) := by
  cases r with
  | sandboxed => exact notify rfl rfl rfl w
  | printing => exact print rfl rfl rfl w

theorem skip (r : Reporter) (path : Path) (message : String) (w : World) :
    Tells r [⟨path, .kept, .act (.skip message)⟩] w (r.tellSkip path message w) := by
  cases r with
  | sandboxed => exact unnoticed rfl rfl rfl w
  | printing =>
    have hp : Moment.printed? .printing ⟨path, .kept, .act (.skip message)⟩ =
        if message = "" then none else some (.skipMessage path message) := rfl
    rw [Reporter.tellSkip]
    by_cases hm : message = ""
    · rw [if_pos hm] at hp ⊢
      exact unnoticed rfl hp rfl w
    · rw [if_neg hm] at hp ⊢
      exact print rfl hp rfl w

theorem started (r : Reporter) (path : Path) (w : World) :
    Tells r [⟨path, .kept, .started⟩] w (r.tellStart path w) := by
  cases r with
  | sandboxed => exact notify rfl rfl rfl w
  | printing => exact unnoticed rfl rfl rfl w

/-- At the end of a subtest its exit is told if it was left early, and its skip if it returns. -/
theorem ended (r : Reporter) (path : Path) (ending : Ending) (skipped : Bool) (w : World) :
    Tells r [⟨path, .kept, .ended ending skipped⟩] w
      (if ending.returns then r.tellSkipped path skipped (r.tellExit path ending w)
      else r.tellExit path ending w) := by
  cases r with
  | sandboxed =>
    cases ending with
    | exited => exact notify rfl rfl rfl w
    | completed | panicked p => exact unnoticed rfl rfl rfl w
  | printing =>
    cases skipped with
    | false => cases ending <;> exact unnoticed rfl rfl rfl w
    | true =>
      cases ending with
      | panicked p => exact unnoticed rfl rfl rfl w
      | completed | exited => exact print rfl rfl rfl w

theorem act (r : Reporter) (w : World) (name : String) (op : ChannelOp) :
    Tells r [] w (w.act name op).1 := by
  simp only [World.act]
  split <;> exact nothing r rfl rfl rfl

end World.Tells

mutual

/-- Whether what is asked was answered rightly, if the test has that scope when it is done. -/
def Deed.Truthful (env : Env) (scope : Scope) : Deed → Prop
  | .act (.asked answer) => answer = scope.failedHere
  | .act (.looked o) => o = (env.enclosing.getLast?.getD scope).outcome
  | .act _ => True
  | .subtest name history _ => TruthfulAll (env.inSubtest name scope) {} history
  | .sandbox history _ => TruthfulAll (env.inSandbox scope) {} history

def TruthfulAll (env : Env) (scope : Scope) : List Deed → Prop
  | [] => True
  | d :: history =>
    d.Truthful env scope ∧ TruthfulAll env (scope.followedBy (.recorded env.path [d])) history

end

theorem truthfulAll_append {env : Env} {scope : Scope} {history more : List Deed}
    (h : TruthfulAll env scope history)
    (h' : TruthfulAll env (scope.followedBy (.recorded env.path history)) more) :
    TruthfulAll env scope (history ++ more) := by
  induction history generalizing scope with
  | nil => rwa [Scope.recorded_nil, Scope.followedBy_fresh] at h'
  | cons d history ih =>
    rw [← List.singleton_append, Scope.recorded_append, ← Scope.followedBy_assoc] at h'
    exact ⟨h.1, ih h.2 h'⟩

/-- Whether the history accounts for what becomes of `s` in a test. -/
structure Account (history : List Deed) (env : Env) (s t : State) : Prop where
  scope : t.scope = s.scope.followedBy (.recorded env.path history)
  world : World.Tells env.reporter (momentsAll env.path history) s.world t.world
  truthful : TruthfulAll env s.scope history

namespace Account

variable {env : Env} {s t u : State} {history more : List Deed}

theorem append (h : Account history env s t) (h' : Account more env t u) :
    Account (history ++ more) env s u where
  scope := by rw [h'.scope, h.scope, Scope.followedBy_assoc, Scope.recorded_append]
  world := momentsAll_append env.path history more ▸ h.world.append h'.world
  truthful := truthfulAll_append h.truthful (h.scope ▸ h'.truthful)

theorem nothing (env : Env) {s t : State} (hs : t.scope = s.scope)
    (hw : World.Tells env.reporter [] s.world t.world) : Account [] env s t :=
  ⟨hs.trans (Scope.followedBy_fresh _).symm, hw, trivial⟩

theorem refl (env : Env) (s : State) : Account [] env s s :=
  nothing env rfl (.nothing _ rfl rfl rfl)

theorem act {a : Act} (hs : t.scope = s.scope.followedBy (.recorded env.path [.act a]))
    (hw : World.Tells env.reporter [⟨env.path, .kept, .act a⟩] s.world t.world)
    (ha : (Deed.act a).Truthful env s.scope) : Account [.act a] env s t :=
  ⟨hs, hw, ha, trivial⟩

theorem failure (message : String) (env : Env) (s : State) :
    Account [.act (.failure message)] env s (Exec.record message env s).2 := by
  refine act ?_ (.failure _ _ _ _) trivial
  have h := s.scope.followedBy_recordFailure {} env.path message
  rw [Scope.followedBy_fresh] at h
  exact h.symm

theorem skip (message : String) (env : Env) (s : State) :
    Account [.act (.skip message)] env s (Exec.skip message env s).2 := by
  refine act ?_ (.skip _ _ _ _) trivial
  have h := s.scope.followedBy_recordSkip {} env.path message
  rw [Scope.followedBy_fresh] at h
  exact h.symm

theorem failNow (env : Env) (s : State) :
    Account [.act .failNow] env s (Exec.failNow env s).2 := by
  refine act ?_ (.failNow _ _ _) trivial
  have h := s.scope.followedBy_markFailed {}
  rw [Scope.followedBy_fresh] at h
  exact h.symm

theorem saw (o : Observation) (env : Env) (s : State) :
    Account [.act (.saw o)] env s ⟨s.scope, s.world.observe o⟩ :=
  act (Scope.followedBy_fresh _).symm (.saw _ _ _ _) trivial

theorem asked (env : Env) (s : State) :
    Account [.act (.asked s.scope.failedHere)] env s (Exec.failed env s).2 :=
  act (Scope.followedBy_fresh _).symm (.asked _ _ _ _) rfl

theorem looked (env : Env) (s : State) :
    Account [.act (.looked (env.enclosing.getLast?.getD s.scope).outcome)] env s
      (Exec.outcome env s).2 :=
  act (Scope.followedBy_fresh _).symm (.looked _ _ _ _) rfl

theorem recordAll (messages : List String) (env : Env) (s : State) :
    Account (messages.map fun m => .act (.failure m)) env s
      (Exec.recordAll messages env s).2 := by
  induction messages generalizing s with
  | nil => exact refl env s
  | cons m ms ih => exact (failure m env s).append (ih _)

theorem react (r : Reaction) (env : Env) (s : State) :
    Account (r.acts.map .act) env s (Exec.react r env s).2 := by
  cases r with
  | goOn | panic => exact refl env s
  | observe o => exact saw o env s
  | failNow => exact failNow env s

theorem follow (v : Verdict) (env : Env) (s : State) :
    Account (v.acts.map .act) env s (Exec.follow v env s).2 := by
  have h := (recordAll v.failures env s).append (react v.reaction env _)
  rw [Exec.follow, Exec.andThen_eq, if_pos (Exec.recordAll_completes _ env s), Verdict.acts,
    List.map_append, List.map_map]
  exact h

theorem subtest (name : String) (ending : Ending)
    (h : Account history (env.inSubtest name s.scope)
      ⟨{}, env.reporter.tellStart (env.path.child name) s.world⟩ t) :
    let path := env.path.child name
    let w := env.reporter.tellExit path ending t.world
    Account [.subtest name history ending] env s
      (if ending.returns then
        ⟨s.scope.absorb t.scope, env.reporter.tellSkipped path t.scope.skipped w⟩
      else ⟨s.scope, w⟩) := by
  intro path w
  have hscope : t.scope = .recorded path history := h.scope.trans (Scope.fresh_followedBy _)
  have hstart := World.Tells.started env.reporter path s.world
  have hover := World.Tells.ended env.reporter path ending (history.any Deed.skips) t.world
  have hskipped : t.scope.skipped = history.any Deed.skips := congrArg Scope.skipped hscope
  rw [← hskipped] at hover
  have hwhole := (hstart.append h.world).append hover
  cases hr : ending.returns with
  | true =>
    refine ⟨?_, ?_, h.truthful, trivial⟩
    · rw [if_pos rfl, Scope.recorded_subtest _ _ _ hr, Scope.followedBy_absorb,
        Scope.followedBy_fresh, ← hscope]
    · rw [momentsAll_singleton, Deed.moments, ← hskipped, if_pos hr, if_pos rfl]
      rw [if_pos hr] at hwhole
      exact hwhole
  | false =>
    have hn : ¬ ending.returns = true := by simp [hr]
    refine ⟨?_, ?_, h.truthful, trivial⟩
    · rw [if_neg Bool.false_ne_true, Scope.recorded_subtest_of_panic _ _ _ hr,
        Scope.followedBy_fresh]
    · rw [momentsAll_singleton, Deed.moments, ← hskipped, if_neg hn, if_neg Bool.false_ne_true]
      rw [if_neg hn] at hwhole
      exact hwhole.lose

/-- A sandbox on its own, without what is made of it. -/
theorem sandbox (ending : Ending)
    (h : Account history (env.inSandbox s.scope) ⟨{}, s.world⟩ t) :
    Account [.sandbox history ending] env s
      ⟨s.scope, Reporter.sandboxed.tellExit .root ending t.world⟩ := by
  refine ⟨?_, ?_, h.truthful, trivial⟩
  · rw [Scope.recorded_sandbox, Scope.followedBy_fresh]
  · rw [momentsAll_singleton, Deed.moments]
    refine h.world.setApart.append ?_
    cases ending with
    | exited => exact .notify rfl rfl rfl _
    | completed | panicked p => exact .unnoticed rfl rfl rfl _

end Account

namespace Deeds

/-- Whether these are the histories of what a body does. -/
def Accounts (x : Deeds) (a : Exec) : Prop := ∀ env s, Account (x env s) env s (a env s).2

namespace Accounts

variable {x y : Deeds} {a b : Exec}

theorem andThen (ha : Accounts x a) (hb : Accounts y b) :
    Accounts (.andThen a x y) (a.andThen b) := by
  intro env s
  rw [Exec.andThen_eq, Deeds.andThen]
  by_cases hc : (a env s).1 = .completed
  · rw [if_pos hc, if_pos hc]
    exact (ha env s).append (hb env _)
  · rw [if_neg hc, if_neg hc, List.append_nil]
    exact ha env s

theorem times (ha : Accounts x a) (n : Nat) : Accounts (.times a x n) (.times n a) := by
  induction n with
  | zero => exact .refl
  | succ n ih => exact ha.andThen ih

theorem subtest (ha : Accounts x a) (name : String) :
    Accounts (.subtest name a x) (.subtest name a) := by
  intro env s
  have h := ha (env.inSubtest name s.scope)
    ⟨{}, env.reporter.tellStart (env.path.child name) s.world⟩
  simp only [Exec.subtest_eq, Deeds.subtest]
  revert h
  simp only [Env.inSubtest]
  generalize a _ _ = r
  generalize x _ _ = history
  intro h
  rw [apply_ite Prod.snd]
  exact .subtest name r.1 h

theorem nest (ha : Accounts x a) (names : List String) :
    Accounts (.nest a x names) (names.foldr .subtest a) := by
  induction names with
  | nil => exact ha
  | cons name names ih => exact ih.subtest name

theorem thread (ha : Accounts x a) : Accounts (.watched a x .thread) a.thread :=
  fun env s => (ha env s).append (.saw (.thread (a env s).1) env (a env s).2)

theorem catching (ha : Accounts x a) (rethrow : Bool) :
    Accounts (.watched a x .caught) (a.catching rethrow) :=
  fun env s => (ha env s).append (.saw (.caught (a env s).1) env (a env s).2)

theorem sandboxed (ha : Accounts x a) (use : Ending → Scope → Exec)
    (acts : Ending → Scope → List Act)
    (hu : ∀ ending scope, Accounts (.acts (acts ending scope)) (use ending scope)) :
    Accounts (.sandboxed a x acts) (a.sandboxed use) := by
  intro env s
  let r := a (env.inSandbox s.scope) ⟨{}, s.world⟩
  let left : State := ⟨s.scope, Reporter.sandboxed.tellExit .root r.1 r.2.world⟩
  have hexec : a.sandboxed use env s =
      if r.1.returns then use r.1 r.2.scope env left else (r.1, left) :=
    Exec.sandboxed_eq a use env s
  have hover : Account [.sandbox (x (env.inSandbox s.scope) ⟨{}, s.world⟩) r.1] env s left :=
    .sandbox r.1 (ha _ _)
  rw [hexec]
  by_cases hr : r.1.returns = true
  · rw [if_pos hr, Deeds.sandboxed, if_pos hr]
    exact hover.append (hu r.1 r.2.scope env left)
  · rw [if_neg hr, Deeds.sandboxed, if_neg hr]
    exact hover

theorem channel (name : String) (op : ChannelOp) :
    Accounts (fun env s => Deeds.acts (s.world.act name op).2.acts env s)
      (.channel name op) := by
  intro env s
  have hact : Account [] env s ⟨s.scope, (s.world.act name op).1⟩ :=
    .nothing env rfl (.act env.reporter s.world name op)
  exact hact.append (.follow _ env _)

mutual

theorem action : (a : Action) → Accounts a.deeds a.exec
  | .fail message => .failure message
  | .check c => .follow c.verdict
  | .require c => .follow c.requirement
  | .skip message => .skip message
  | .failNow => .failNow
  | .failed => .asked
  | .mark label => .saw (.mark label)
  | .raise _ => .refl
  | .outcome => .looked
  | .subtest name body => (all body).subtest name
  | .nest names body => (all body).nest names
  | .repeated n body => (all body).times n
  | .thread body => (all body).thread
  | .catching body rethrow => (all body).catching rethrow
  | .expect e body => (all body).sandboxed _ _ fun ending scope =>
      .follow (e.verdict scope.failed (ending = .completed))
  | .sandbox body => (all body).sandboxed _ (fun _ scope => [.saw (.outcome scope.outcome)])
      fun _ scope => .saw (.outcome scope.outcome)
  | .channel name op => channel name op

theorem all : (body : List Action) → Accounts (deedsAll body) (execAll body)
  | [] => .refl
  | a :: rest => (action a).andThen (all rest)

end

end Accounts

end Deeds

end Testkit
