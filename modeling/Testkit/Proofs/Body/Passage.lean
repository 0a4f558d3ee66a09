import Testkit.Proofs.Body.Constructs
import Testkit.Proofs.Body.Induction

/-! What is true of the world before and after every body, if it is of each single thing that happens to
the world while a body runs. -/

namespace Testkit

/-- What may be true of a world and a later one, where the test in between has this reporter. -/
abbrev Passage := Reporter → World → World → Prop

namespace Passage

structure Kept (P : Passage) : Prop where
  refl : ∀ r w, P r w w
  trans : ∀ {r w v u}, P r w v → P r v u → P r w u
  observe : ∀ r w o, P r w (w.observe o)
  tellFailure : ∀ r path message w, P r w (r.tellFailure path message w)
  tellSkip : ∀ r path message w, P r w (r.tellSkip path message w)
  tellStart : ∀ r path w, P r w (r.tellStart path w)
  tellExit : ∀ r path ending w, P r w (r.tellExit path ending w)
  tellSkipped : ∀ r {path} skipped w, path ≠ .root → P r w (r.tellSkipped path skipped w)
  sandbox : ∀ {r w v}, P .sandboxed w v → P r w v

end Passage

namespace Exec

def Leads (P : Passage) (a : Exec) : Prop := ∀ env s, P env.reporter s.world (a env s).2.world

namespace Leads

variable {P : Passage} {a b : Exec}

theorem andThen (hP : P.Kept) (ha : Leads P a) (hb : Leads P b) : Leads P (a.andThen b) := by
  intro env s
  have h := ha env s
  rw [andThen_eq]
  split
  · exact hP.trans h (hb env (a env s).2)
  · exact h

theorem subtest (hP : P.Kept) (ha : Leads P a) (name : String) :
    Leads P (Exec.subtest name a) := by
  intro env s
  have hne : env.path.child name ≠ .root := by simp [Path.child, Path.root]
  have hstart := hP.tellStart env.reporter (env.path.child name) s.world
  have h := ha ⟨env.reporter, env.path.child name, s.scope :: env.enclosing⟩
    ⟨{}, env.reporter.tellStart (env.path.child name) s.world⟩
  simp only [subtest_eq]
  revert h
  generalize a _ _ = r
  intro h
  have hexit := hP.tellExit env.reporter (env.path.child name) r.1 r.2.world
  have hover := hP.trans (hP.trans hstart h) hexit
  cases r.1.returns with
  | true => exact hP.trans hover (hP.tellSkipped env.reporter r.2.scope.skipped _ hne)
  | false => exact hover

theorem sandboxed (hP : P.Kept) (ha : Leads P a) {use : Ending → Scope → Exec}
    (hu : ∀ ending scope, Leads P (use ending scope)) : Leads P (a.sandboxed use) := by
  intro env s
  have h := ha ⟨.sandboxed, .root, s.scope :: env.enclosing⟩ ⟨{}, s.world⟩
  simp only [sandboxed_eq]
  revert h
  generalize a _ _ = r
  intro h
  have hover : P env.reporter s.world (Reporter.sandboxed.tellExit .root r.1 r.2.world) :=
    hP.sandbox (hP.trans h (hP.tellExit .sandboxed .root r.1 r.2.world))
  cases r.1.returns with
  | true => exact hP.trans hover (hu r.1 r.2.scope env ⟨s.scope, _⟩)
  | false => exact hover

theorem closedButChannels (hP : P.Kept) : ClosedButChannels (Leads P) where
  done env s := hP.refl env.reporter s.world
  observe o env s := hP.observe env.reporter s.world o
  record message env s := hP.tellFailure env.reporter env.path message s.world
  skip message env s := hP.tellSkip env.reporter env.path message s.world
  failNow env s := hP.refl env.reporter s.world
  failed env s := hP.observe env.reporter s.world _
  panic _ env s := hP.refl env.reporter s.world
  andThen ha hb := ha.andThen hP hb
  subtest name _ ha := ha.subtest hP name
  thread ha env s := hP.trans (ha env s) (hP.observe env.reporter _ _)
  catching _ ha env s := hP.trans (ha env s) (hP.observe env.reporter _ _)
  sandboxed ha hu := ha.sandboxed hP hu

theorem closed (hP : P.Kept) (hact : ∀ r w name op, P r w (w.act name op).1) :
    Closed (Leads P) where
  toClosedButChannels := closedButChannels hP
  channel name op hv env s :=
    hP.trans (hact env.reporter s.world name op) (hv _ env ⟨s.scope, _⟩)

theorem outcome (hP : P.Kept) : Leads P Exec.outcome :=
  fun env s => hP.observe env.reporter s.world _

end Leads

end Exec

end Testkit
