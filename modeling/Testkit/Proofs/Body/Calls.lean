import Testkit.Proofs.Body.Control
import Testkit.Proofs.Body.Pairing
import Testkit.Proofs.Body.Passage
import Testkit.Proofs.Body.Relocation
import Testkit.Proofs.Channel.Taking

/-! The calls on channels that a run makes. Nothing else changes a channel, so that what is true of one
call after the other is true of a run, wherever in it the calls are and whatever comes of them. -/

namespace Testkit

structure Call where
  name : String
  op : ChannelOp
  /-- What the call finds. -/
  world : World

/-- The calls of a run, in their order. -/
abbrev Calls := Env → State → List Call

namespace Calls

def none : Calls := fun _ _ => []

def andThen (a : Exec) (x y : Calls) : Calls := fun env s =>
  x env s ++ if (a env s).1 = .completed then y env (a env s).2 else []

def times (a : Exec) (x : Calls) : Nat → Calls
  | 0 => none
  | n + 1 => andThen a x (times a x n)

def subtest (name : String) (x : Calls) : Calls := fun env s =>
  x (env.inSubtest name s.scope) ⟨{}, env.reporter.tellStart (env.path.child name) s.world⟩

def sandboxed (x : Calls) : Calls := fun env s => x (env.inSandbox s.scope) ⟨{}, s.world⟩

end Calls

mutual

def Action.calls : Action → Calls
  | .channel name op => fun _ s => [⟨name, op, s.world⟩]
  | .subtest name body => .subtest name (callsAll body)
  | .nest names body => names.foldr Calls.subtest (callsAll body)
  | .repeated n body => .times (execAll body) (callsAll body) n
  | .thread body => callsAll body
  | .catching body _ => callsAll body
  | .expect _ body => .sandboxed (callsAll body)
  | .sandbox body => .sandboxed (callsAll body)
  | _ => .none

def callsAll : List Action → Calls
  | [] => .none
  | a :: rest => .andThen a.exec a.calls (callsAll rest)

end

theorem unseen_kept : Passage.Kept fun _ w v => v.unseen = w.unseen where
  refl _ _ := rfl
  trans h h' := h'.trans h
  observe _ _ _ := rfl
  tellFailure := World.isView_unseen.tellFailure
  tellSkip := World.isView_unseen.tellSkip
  tellStart := World.isView_unseen.tellStart
  tellExit := World.isView_unseen.tellExit
  tellSkipped r path skipped w _ := World.isView_unseen.tellSkipped r path skipped w
  sandbox h := h

namespace Exec

/-- Whether a body leaves all channels and the clock as they are. -/
def Quiet (a : Exec) : Prop := ∀ env s, (a env s).2.world.unseen = s.world.unseen

namespace Quiet

theorem closedButChannels : ClosedButChannels Quiet :=
  Leads.closedButChannels unseen_kept

theorem follow (v : Verdict) : Quiet (Exec.follow v) := closedButChannels.follow v

theorem outcome : Quiet Exec.outcome := Leads.outcome unseen_kept

theorem execAll {body : List Action} (h : anyUsesChannels body = false) : Quiet (execAll body) :=
  closedButChannels.execAll body (fun _ => outcome) fun hu => absurd hu (by simp [h])

end Quiet

end Exec

/-- Whether, as far as channels and the clock show, `w` becomes `v` by these calls. -/
inductive Chained : World → List Call → World → Prop
  | done {w v : World} (h : w.unseen = v.unseen) : Chained w [] v
  | call {w v : World} {k : Call} {ks : List Call} (hw : w.unseen = k.world.unseen)
    (h : Chained (k.world.act k.name k.op).1 ks v) : Chained w (k :: ks) v

namespace Chained

theorem of_eq {w w' v : World} {ks : List Call} (hw : w.unseen = w'.unseen) (h : Chained w' ks v) :
    Chained w ks v := by
  cases h with
  | done h => exact .done (hw.trans h)
  | call hk h => exact .call (hw.trans hk) h

theorem append {w v u : World} {ks ls : List Call} (h : Chained w ks v) (h' : Chained v ls u) :
    Chained w (ks ++ ls) u := by
  induction h with
  | done h => exact h'.of_eq h
  | call hk h ih => exact .call hk (ih h')

theorem ends {w v v' : World} {ks : List Call} (h : Chained w ks v) (hv : v.unseen = v'.unseen) :
    Chained w ks v' := by
  have hh := h.append (.done hv)
  rwa [List.append_nil] at hh

/-- What a call finds is what the calls before it leave. -/
theorem before {w v : World} {ks ls : List Call} {k : Call} (h : Chained w (ks ++ k :: ls) v) :
    Chained w ks k.world := by
  induction ks generalizing w with
  | nil =>
    cases h with
    | call hk h => exact .done hk
  | cons l ks ih =>
    cases h with
    | call hl h => exact .call hl (ih h)

end Chained

namespace Calls

/-- Whether these are the calls by which a body changes channels. -/
def Accounts (x : Calls) (a : Exec) : Prop :=
  ∀ env s, Chained s.world (x env s) (a env s).2.world

namespace Accounts

variable {x y : Calls} {a b : Exec}

theorem quiet (ha : a.Quiet) : Accounts .none a := fun env s => .done (ha env s).symm

theorem andThen (ha : Accounts x a) (hb : Accounts y b) :
    Accounts (.andThen a x y) (a.andThen b) := by
  intro env s
  rw [Exec.andThen_eq, Calls.andThen]
  by_cases hc : (a env s).1 = .completed
  · rw [if_pos hc, if_pos hc]
    exact (ha env s).append (hb env _)
  · rw [if_neg hc, if_neg hc, List.append_nil]
    exact ha env s

theorem times (ha : Accounts x a) (n : Nat) : Accounts (.times a x n) (.times n a) := by
  induction n with
  | zero => exact quiet fun _ _ => rfl
  | succ n ih => exact ha.andThen ih

theorem subtest (ha : Accounts x a) (name : String) :
    Accounts (.subtest name x) (.subtest name a) := by
  intro env s
  have hv := World.isView_unseen
  have h := ha (env.inSubtest name s.scope)
    ⟨{}, env.reporter.tellStart (env.path.child name) s.world⟩
  refine ((h.of_eq (hv.tellStart _ _ s.world).symm).ends ?_)
  rw [Exec.subtest_eq]
  dsimp only
  split
  · rw [hv.tellSkipped, hv.tellExit]
    rfl
  · rw [hv.tellExit]
    rfl

theorem nest (ha : Accounts x a) (names : List String) :
    Accounts (names.foldr .subtest x) (names.foldr .subtest a) := by
  induction names with
  | nil => exact ha
  | cons name names ih => exact ih.subtest name

theorem sandboxed (ha : Accounts x a) {use : Ending → Scope → Exec}
    (hu : ∀ ending scope, (use ending scope).Quiet) : Accounts (.sandboxed x) (a.sandboxed use) := by
  intro env s
  refine (ha (env.inSandbox s.scope) ⟨{}, s.world⟩).ends ?_
  rw [Exec.sandboxed_eq]
  dsimp only
  split
  · rw [hu, World.isView_unseen.tellExit]
    rfl
  · rw [World.isView_unseen.tellExit]
    rfl

theorem channel (name : String) (op : ChannelOp) :
    Accounts (fun _ s => [⟨name, op, s.world⟩]) (.channel name op) :=
  fun env s => .call rfl (.done (Exec.Quiet.follow _ env ⟨s.scope, (s.world.act name op).1⟩).symm)

mutual

theorem action : (a : Action) → Accounts a.calls a.exec
  | .fail message => quiet (Exec.Quiet.closedButChannels.record message)
  | .check c => quiet (.follow c.verdict)
  | .require c => quiet (.follow c.requirement)
  | .skip message => quiet (Exec.Quiet.closedButChannels.skip message)
  | .failNow => quiet Exec.Quiet.closedButChannels.failNow
  | .failed => quiet Exec.Quiet.closedButChannels.failed
  | .mark label => quiet (Exec.Quiet.closedButChannels.observe (.mark label))
  | .raise payload => quiet (Exec.Quiet.closedButChannels.panic payload)
  | .outcome => quiet .outcome
  | .subtest name body => (all body).subtest name
  | .nest names body => (all body).nest names
  | .repeated n body => (all body).times n
  -- What is observed at the end of these is not a call.
  | .thread body => fun env s => (all body env s).ends rfl
  | .catching body _ => fun env s => (all body env s).ends rfl
  | .expect _ body => (all body).sandboxed fun _ _ => .follow _
  | .sandbox body => (all body).sandboxed fun _ _ => Exec.Quiet.closedButChannels.observe _
  | .channel name op => channel name op

theorem all : (body : List Action) → Accounts (callsAll body) (execAll body)
  | [] => quiet fun _ _ => rfl
  | a :: rest => (action a).andThen (all rest)

end

end Accounts

end Calls

end Testkit
