import Testkit.Proofs.Body.Accumulation
import Testkit.Proofs.Body.Calls

/-! What a sandbox leaves behind. A body that runs against a sandboxed reporter prints nothing and only
adds to the trace, and whether it panics does not depend on where it runs unless it uses channels. -/

namespace Testkit

theorem World.act_keeps (w : World) (name : String) (op : ChannelOp) :
    (w.act name op).1.printed = w.printed ∧ (w.act name op).1.trace = w.trace := by
  simp only [World.act]
  split <;> exact ⟨rfl, rfl⟩

/-- Whether nothing is printed from `w` to `v`, and the trace only grows. -/
structure World.OnlySees (w v : World) : Prop where
  printed : v.printed = w.printed
  trace : w.trace <+: v.trace

namespace World.OnlySees

theorem of_eq {w v : World} (hp : v.printed = w.printed) (ht : v.trace = w.trace) : w.OnlySees v :=
  ⟨hp, ht ▸ List.prefix_refl _⟩

theorem trans {w v u : World} (h : w.OnlySees v) (h' : v.OnlySees u) : w.OnlySees u :=
  ⟨h'.printed.trans h.printed, h.trace.trans h'.trace⟩

theorem observe (w : World) (o : Observation) : w.OnlySees (w.observe o) :=
  ⟨rfl, List.prefix_append _ _⟩

theorem tellExit (path : Path) (ending : Ending) (w : World) :
    w.OnlySees (Reporter.sandboxed.tellExit path ending w) := by
  cases ending <;> exact of_eq rfl rfl

end World.OnlySees

theorem onlySees_kept : Passage.Kept fun r w v => r = .sandboxed → w.OnlySees v where
  refl _ _ _ := .of_eq rfl rfl
  trans h h' hr := (h hr).trans (h' hr)
  observe _ w o _ := .observe w o
  tellFailure := by
    rintro r path message w rfl
    exact .of_eq rfl rfl
  tellSkip := by
    rintro r path message w rfl
    exact .of_eq rfl rfl
  tellStart := by
    rintro r path w rfl
    exact .of_eq rfl rfl
  tellExit := by
    rintro r path ending w rfl
    exact .tellExit path ending w
  tellSkipped := by
    rintro r path skipped w - rfl
    exact .of_eq rfl rfl
  sandbox h _ := h rfl

theorem Exec.onlySees (body : List Action) :
    Leads (fun r w v => r = .sandboxed → w.OnlySees v) (execAll body) := by
  refine (Leads.closed onlySees_kept fun r w name op _ => ?_).execAll body
    fun _ => .outcome onlySees_kept
  obtain ⟨hp, ht⟩ := w.act_keeps name op
  exact .of_eq hp ht

/-- Wherever a body runs that uses no channels, it ends alike. -/
theorem ending_congr {body : List Action} (h : anyUsesChannels body = false) {env env' : Env}
    {s t : State} (hp : env.path = env'.path) (hs : s.scope = t.scope) :
    (execAll body env s).1 = (execAll body env' t).1 := by
  -- Without channels nothing of the world is needed, so that the two worlds may be any.
  have hv : World.IsViewButChannels fun _ => ({} : World) := ⟨fun _ => rfl, fun _ _ => rfl⟩
  have hclosed := Exec.Paired.closedButChannels (Exec.accumulation_kept hv fun _ _ => rfl)
  have hpaired := hclosed.execAll body (fun _ => Exec.paired_outcome fun _ _ => rfl)
    fun hu => absurd hu (by simp [h])
  have hscope : s.scope = Scope.followedBy {} t.scope := hs.trans t.scope.fresh_followedBy.symm
  exact (hpaired {} ⟨hp, hscope, rfl⟩).1

/-- A body that uses no channels and does not end in a panic. -/
structure Harmless (body : List Action) : Prop where
  noChannels : anyUsesChannels body = false
  returns : ∃ o, (runSandboxed body {}).1 = .ok o

namespace Harmless

variable {body : List Action}

theorem returns_in (h : Harmless body) (enclosing : List Scope) (w : World) :
    (execAll body ⟨.sandboxed, .root, enclosing⟩ ⟨{}, w⟩).1.returns = true := by
  obtain ⟨o, ho⟩ := h.returns
  have he : (execAll body ⟨.sandboxed, .root, enclosing⟩ ⟨{}, w⟩).1 =
      (execAll body ⟨.sandboxed, .root, [{}]⟩ ⟨{}, {}⟩).1 := ending_congr h.noChannels rfl rfl
  rw [he]
  rw [runSandboxed_eq] at ho
  revert ho
  dsimp only
  generalize (execAll body ⟨.sandboxed, .root, [{}]⟩ ⟨{}, {}⟩).1 = ending
  cases ending <;> simp [Ending.returns]

/-- A sandbox around the body changes the trace at most, the log aside. -/
theorem sandbox (h : Harmless body) (env : Env) (s : State) :
    ∃ w, Exec.sandbox (execAll body) env s = (.completed, ⟨s.scope, w⟩) ∧
      s.world.OnlySees w ∧ w.unseen = s.world.unseen := by
  have hr := h.returns_in (s.scope :: env.enclosing) s.world
  have ho := Exec.onlySees body ⟨.sandboxed, .root, s.scope :: env.enclosing⟩ ⟨{}, s.world⟩ rfl
  have hq := Exec.Quiet.execAll h.noChannels
    ⟨.sandboxed, .root, s.scope :: env.enclosing⟩ ⟨{}, s.world⟩
  rw [Exec.sandbox, Exec.sandboxed_eq]
  dsimp only
  rw [if_pos hr]
  refine ⟨_, rfl, ?_, ?_⟩
  · exact (ho.trans (.tellExit .root _ _)).trans (.observe _ _)
  · rw [World.unseen_observe, World.isView_unseen.tellExit]
    exact hq

end Harmless

end Testkit
