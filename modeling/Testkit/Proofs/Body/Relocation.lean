import Testkit.Proofs.Body.Pairing
import Testkit.Proofs.Body.Silence

/-! A body does the same at another path, with another reporter and among other scopes: only the
paths of what it reports are longer. What the outermost reporter has recorded is the one thing that
it can see of where it is. -/

namespace Testkit

def Path.under (base p : Path) : Path := ⟨base.components ++ p.components⟩

theorem Path.under_root (p : Path) : p.under .root = p := by
  simp [Path.under, Path.root]

theorem Path.under_child (base p : Path) (name : String) :
    base.under (p.child name) = (base.under p).child name := by
  simp [Path.under, Path.child]

def Entry.under (base : Path) (e : Entry) : Entry := { e with path := base.under e.path }

theorem Entry.root_under (e : Entry) : e.under .root = e := rfl

namespace Scope

def under (base : Path) (s : Scope) : Scope :=
  { s with failures := s.failures.map (·.under base), skips := s.skips.map (·.under base) }

theorem root_under (s : Scope) : s.under .root = s := by
  simp [under, Entry.root_under]

theorem under_recordFailure (base path : Path) (message : String) (s : Scope) :
    (s.recordFailure path message).under base =
      (s.under base).recordFailure (base.under path) message := by
  simp [under, recordFailure, markFailed, Entry.under]

theorem under_recordSkip (base path : Path) (message : String) (s : Scope) :
    (s.recordSkip path message).under base =
      (s.under base).recordSkip (base.under path) message := by
  simp [under, recordSkip, Entry.under]

theorem under_markFailed (base : Path) (s : Scope) :
    s.markFailed.under base = (s.under base).markFailed := rfl

theorem under_absorb (base : Path) (s child : Scope) :
    (s.absorb child).under base = (s.under base).absorb (child.under base) := by
  simp [under, absorb]

end Scope

/-- A part of a world that bodies without channels decide on their own, whatever reporters tell. -/
structure World.IsViewButChannels (view : World → World) : Prop where
  silent : ∀ {w v}, w.silent = v.silent → view w = view v
  observe : ∀ {w v} o, view w = view v → view (w.observe o) = view (v.observe o)

/-- A part of a world that all bodies decide on their own. -/
structure World.IsView (view : World → World) : Prop extends IsViewButChannels view where
  act : ∀ {w v} name op, view w = view v →
    view (w.act name op).1 = view (v.act name op).1 ∧ (w.act name op).2 = (v.act name op).2

theorem World.isView_silent : World.IsView World.silent where
  silent h := h
  observe o h := by simp [h]
  act name op h := act_congr h name op

/-- What bodies act on, whatever was seen and told. -/
def World.unseen (w : World) : World := { w.silent with trace := [] }

theorem World.unseen_eq_iff {w v : World} :
    w.unseen = v.unseen ↔ w.channels = v.channels ∧ w.now = v.now := by
  simp [unseen, silent]

theorem World.unseen_observe (w : World) (o : Observation) : (w.observe o).unseen = w.unseen := rfl

theorem World.isView_unseen : World.IsView World.unseen where
  silent h := by simp only [unseen, h]
  observe o h := h
  act {w v} name op h := by
    have ha (u : World) : (u.act name op).1.unseen = (u.unseen.act name op).1 ∧
        (u.act name op).2 = (u.unseen.act name op).2 := by
      simp only [World.act, unseen, World.silent]
      split <;> exact ⟨rfl, rfl⟩
    exact ⟨by rw [(ha w).1, (ha v).1, h], by rw [(ha w).2, (ha v).2, h]⟩

namespace World.IsViewButChannels

variable {view : World → World}

theorem tellFailure (hv : IsViewButChannels view) (r : Reporter) (path : Path) (message : String)
    (w : World) : view (r.tellFailure path message w) = view w :=
  hv.silent (r.silent_tellFailure path message w)

theorem tellSkip (hv : IsViewButChannels view) (r : Reporter) (path : Path) (message : String) (w : World) :
    view (r.tellSkip path message w) = view w :=
  hv.silent (r.silent_tellSkip path message w)

theorem tellStart (hv : IsViewButChannels view) (r : Reporter) (path : Path) (w : World) :
    view (r.tellStart path w) = view w :=
  hv.silent (r.silent_tellStart path w)

theorem tellExit (hv : IsViewButChannels view) (r : Reporter) (path : Path) (ending : Ending) (w : World) :
    view (r.tellExit path ending w) = view w :=
  hv.silent (r.silent_tellExit path ending w)

theorem tellSkipped (hv : IsViewButChannels view) (r : Reporter) (path : Path) (skipped : Bool) (w : World) :
    view (r.tellSkipped path skipped w) = view w :=
  hv.silent (r.silent_tellSkipped path skipped w)

end World.IsViewButChannels

/-- Whether `s` is `t` with all paths below `base`. Of the worlds, only the view is compared. -/
structure State.LooksUnder (view : World → World) (base : Path) (s t : State) : Prop where
  scope : s.scope = t.scope.under base
  world : view s.world = view t.world

abbrev State.IsUnder (base : Path) (s t : State) : Prop := s.LooksUnder World.silent base t

namespace Exec

/-- Whether a body does the same below `base` as without it, as far as the view shows it. -/
def Relocates (view : World → World) (base : Path) (a : Exec) : Prop :=
  ∀ ⦃env env' s t⦄, env.path = base.under env'.path → State.LooksUnder view base s t →
    (a env s).1 = (a env' t).1 ∧ (a env s).2.LooksUnder view base (a env' t).2

def relocation (view : World → World) : Pairing Path :=
  fun base env env' s t => env.path = base.under env'.path ∧ s.LooksUnder view base t

theorem relocation_kept {view : World → World} (hv : World.IsViewButChannels view) :
    (relocation view).Kept where
  observe o h := ⟨h.1, h.2.scope, hv.observe o h.2.world⟩
  record base message := by
    rintro env env' s t ⟨hp, hs⟩
    refine ⟨rfl, hp, ?_, ?_⟩
    · simp only [record, hp, hs.scope, Scope.under_recordFailure]
    · simp only [record, hv.tellFailure, hs.world]
  skip base message := by
    rintro env env' s t ⟨hp, hs⟩
    refine ⟨rfl, hp, ?_, ?_⟩
    · simp only [skip, hp, hs.scope, Scope.under_recordSkip]
    · simp only [skip, hv.tellSkip, hs.world]
  failNow base := by
    rintro env env' s t ⟨hp, hs⟩
    refine ⟨rfl, hp, ?_, hs.world⟩
    simp only [failNow, hs.scope, Scope.under_markFailed]
  failed base := by
    rintro env env' s t ⟨hp, hs⟩
    have hf : s.scope.failedHere = t.scope.failedHere := by
      rw [hs.scope]
      rfl
    refine ⟨rfl, hp, hs.scope, ?_⟩
    simp only [failed, hf]
    exact hv.observe _ hs.world
  subtest {base env env' s t} name := by
    rintro ⟨hp, hs⟩
    have hp' : env.path.child name = base.under (env'.path.child name) := by
      rw [hp, Path.under_child]
    have hw : view (env.reporter.tellStart (env.path.child name) s.world) =
        view (env'.reporter.tellStart (env'.path.child name) t.world) := by
      simp only [hv.tellStart, hs.world]
    refine ⟨base, ⟨hp', rfl, hw⟩, ?_⟩
    rintro ending u v ⟨-, hr⟩
    have habsorb : s.scope.absorb u.scope = (t.scope.absorb v.scope).under base := by
      rw [Scope.under_absorb, ← hs.scope, ← hr.scope]
    exact ⟨⟨hp, hs.scope, by simp only [hv.tellExit, hr.world]⟩,
      hp, habsorb, by simp only [hv.tellSkipped, hv.tellExit, hr.world]⟩
  sandbox {base env env' s t} := by
    -- A sandbox is at the top level wherever it is, so its body has the same paths in both runs.
    rintro ⟨hp, hs⟩
    refine ⟨.root, ⟨rfl, rfl, hs.world⟩, ?_⟩
    rintro ending u v ⟨-, hr⟩
    exact ⟨hr.scope.trans (Scope.root_under _), hp, hs.scope, by simp only [hv.tellExit, hr.world]⟩

theorem relocation_keptByChannels {view : World → World} (hv : World.IsView view) :
    (relocation view).KeptByChannels where
  act name op h :=
    have hw := hv.act name op h.2.world
    ⟨hw.2, h.1, h.2.scope, hw.1⟩

theorem Relocates.of_paired {view : World → World} {base : Path} {a : Exec}
    (h : Paired (relocation view) base a a) : Relocates view base a := by
  intro env env' s t hp hs
  obtain ⟨he, hr⟩ := h ⟨hp, hs⟩
  exact ⟨he, hr.2⟩

theorem relocates {body : List Action} (h : anyReadsOutcome body = false) (base : Path) :
    Relocates World.silent base (execAll body) :=
  have hc := Paired.closed (relocation_kept World.isView_silent.toIsViewButChannels)
    (relocation_keptByChannels World.isView_silent)
  .of_paired (hc.execAll body (fun ho => absurd ho (by simp [h])) base)

end Exec

/-- What is seen, but not what it shows of the outermost reporter. -/
def Observation.unread : Observation → Observation
  | .outcome _ => .outcome ⟨false, false, [], []⟩
  | o => o

def World.unread (w : World) : World :=
  { w.silent with trace := w.silent.trace.map Observation.unread }

theorem World.unread_observe (w : World) (o : Observation) :
    (w.observe o).unread = w.unread.observe o.unread := by
  simp [unread, observe, silent]

theorem World.isView_unread : World.IsView World.unread where
  silent h := by simp only [unread, h]
  observe o h := by rw [unread_observe, unread_observe, h]
  act {w v} name op h := by
    have ha (u : World) : (u.act name op).1.unread = (u.unread.act name op).1 ∧
        (u.act name op).2 = (u.unread.act name op).2 := by
      simp only [World.act, unread, World.silent]
      split <;> exact ⟨rfl, rfl⟩
    exact ⟨by rw [(ha w).1, (ha v).1, h], by rw [(ha w).2, (ha v).2, h]⟩

theorem World.agree_of_unread {w v : World} (h : w.unread = v.unread) :
    w.trace.map Observation.unread = v.trace.map Observation.unread ∧
      w.channels = v.channels ∧ w.now = v.now := by
  cases w
  cases v
  simpa [unread, silent] using h

theorem Exec.relocates_unread (body : List Action) (base : Path) :
    Relocates World.unread base (execAll body) := by
  have hc := Paired.closed (relocation_kept World.isView_unread.toIsViewButChannels)
    (relocation_keptByChannels World.isView_unread)
  refine .of_paired (hc.execAll body (fun _ base => ?_) base)
  rintro env env' s t ⟨hp, hs⟩
  refine ⟨rfl, hp, hs.scope, ?_⟩
  simp only [Exec.outcome, World.unread_observe, Observation.unread, hs.world]

end Testkit
