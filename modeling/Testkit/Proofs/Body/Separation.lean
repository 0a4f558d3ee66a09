import Testkit.Proofs.Body.Containment
import Testkit.Proofs.Body.Control
import Testkit.Proofs.Body.Pairing

/-! What a sandbox runs makes no difference to the test around it. Two bodies that differ only in what
some of their sandboxes run come to the same places in the same states, and end alike. -/

namespace Testkit

/-- A construct without the body that it runs. -/
inductive Construct where
  | subtest (name : String)
  | nest (names : List String)
  | repeated (n : Nat)
  | thread
  | catching (rethrow : Bool)
  | expect (e : Expectation)
  | sandbox

namespace Construct

def around (body : List Action) : Construct → Action
  | .subtest name => .subtest name body
  | .nest names => .nest names body
  | .repeated n => .repeated n body
  | .thread => .thread body
  | .catching rethrow => .catching body rethrow
  | .expect e => .expect e body
  | .sandbox => .sandbox body

theorem paired {ι : Type} {R : Pairing ι} (hR : R.Kept) {body body' : List Action}
    (h : ∀ i, Exec.Paired R i (execAll body) (execAll body')) (k : Construct) (i : ι) :
    Exec.Paired R i (k.around body).exec (k.around body').exec := by
  cases k with
  | subtest name => exact .subtest hR h name
  | nest names => exact .nest hR h names i
  | repeated n => exact (h i).times n
  | thread => exact (h i).thread hR
  | catching rethrow => exact (h i).catching hR rethrow
  | expect e => exact .expect hR h e
  | sandbox => exact .sandbox hR h

end Construct

theorem Control.Opens.construct {f : Frame} {a : Action} {env : Env} {s : State} {p : Control}
    (h : Opens f a env s p) : ∃ (k : Construct) (body : List Action), a = k.around body := by
  cases h with
  | subtest name body => exact ⟨.subtest name, body, rfl⟩
  | nest name names body => exact ⟨.nest (name :: names), body, rfl⟩
  | nested body => exact ⟨.nest [], body, rfl⟩
  | @repeated n i body => exact ⟨.repeated n, body, rfl⟩
  | thread body => exact ⟨.thread, body, rfl⟩
  | catching body rethrow => exact ⟨.catching rethrow, body, rfl⟩
  | expect e body => exact ⟨.expect e, body, rfl⟩
  | sandbox body => exact ⟨.sandbox, body, rfl⟩

/-- Whether two bodies are the same but for some sandboxes that run `b` in the first and `c` in the
second, wherever these are. -/
inductive Varies (b c : List Action) : List Action → List Action → Prop
  | nil : Varies b c [] []
  | same (a : Action) {xs ys : List Action} (h : Varies b c xs ys) : Varies b c (a :: xs) (a :: ys)
  | inside (k : Construct) {body body' xs ys : List Action} (hb : Varies b c body body')
    (h : Varies b c xs ys) : Varies b c (k.around body :: xs) (k.around body' :: ys)
  | here {xs ys : List Action} (h : Varies b c xs ys) :
    Varies b c (.sandbox b :: xs) (.sandbox c :: ys)

namespace Varies

variable {b c : List Action}

theorem refl (body : List Action) : Varies b c body body := by
  induction body with
  | nil => exact nil
  | cons a body ih => exact same a ih

theorem symm {xs ys : List Action} (h : Varies b c xs ys) : Varies c b ys xs := by
  induction h with
  | nil => exact nil
  | same a h ih => exact same a ih
  | inside k hb h ihb ih => exact inside k ihb ih
  | here h ih => exact here ih

end Varies

/-- What a sandbox adds to the trace at some time. -/
def SandboxSees (body : List Action) (os : List Observation) : Prop :=
  ∃ env s, (Exec.sandbox (execAll body) env s).2.world.trace = s.world.trace ++ os

inductive Aligned (b c : List Action) : List Observation → List Observation → Prop
  | before (os : List Observation) : Aligned b c os os
  | observed {xs ys : List Observation} (h : Aligned b c xs ys) (o : Observation) :
    Aligned b c (xs ++ [o]) (ys ++ [o])
  | ran {xs ys os os' : List Observation} (h : Aligned b c xs ys) (hb : SandboxSees b os)
    (hc : SandboxSees c os') : Aligned b c (xs ++ os) (ys ++ os')

theorem Aligned.symm {b c : List Action} {xs ys : List Observation} (h : Aligned b c xs ys) :
    Aligned c b ys xs := by
  induction h with
  | before os => exact before os
  | observed h o ih => exact ih.observed o
  | ran h hb hc ih => exact ih.ran hc hb

/-- Whether two worlds are the same but for what a sandbox saw that ran `b` in the one and `c` in the
other. -/
structure World.Alike (b c : List Action) (w v : World) : Prop where
  printed : w.printed = v.printed
  channels : w.channels = v.channels
  now : w.now = v.now
  trace : Aligned b c w.trace v.trace

namespace World.Alike

variable {b c : List Action} {w v : World}

theorem refl (w : World) : w.Alike b c w := ⟨rfl, rfl, rfl, .before _⟩

theorem symm (h : w.Alike b c v) : v.Alike c b w :=
  ⟨h.printed.symm, h.channels.symm, h.now.symm, h.trace.symm⟩

theorem unseen (h : w.Alike b c v) : w.unseen = v.unseen := unseen_eq_iff.mpr ⟨h.channels, h.now⟩

theorem observe (h : w.Alike b c v) (o : Observation) : (w.observe o).Alike b c (v.observe o) :=
  ⟨h.printed, h.channels, h.now, h.trace.observed o⟩

theorem notify (h : w.Alike b c v) (n : Notice) : (w.notify n).Alike b c (v.notify n) :=
  ⟨h.printed, h.channels, h.now, h.trace⟩

theorem print (h : w.Alike b c v) (p : Printed) : (w.print p).Alike b c (v.print p) :=
  ⟨congrArg (· ++ [p]) h.printed, h.channels, h.now, h.trace⟩

theorem tellFailure (h : w.Alike b c v) (r : Reporter) (path : Path) (message : String) :
    (r.tellFailure path message w).Alike b c (r.tellFailure path message v) := by
  cases r with
  | sandboxed => exact h.notify _
  | printing => exact h.print _

theorem tellSkip (h : w.Alike b c v) (r : Reporter) (path : Path) (message : String) :
    (r.tellSkip path message w).Alike b c (r.tellSkip path message v) := by
  cases r with
  | sandboxed => exact h
  | printing =>
    simp only [Reporter.tellSkip]
    split
    · exact h
    · exact h.print _

theorem tellStart (h : w.Alike b c v) (r : Reporter) (path : Path) :
    (r.tellStart path w).Alike b c (r.tellStart path v) := by
  cases r with
  | sandboxed => exact h.notify _
  | printing => exact h

theorem tellExit (h : w.Alike b c v) (r : Reporter) (path : Path) (ending : Ending) :
    (r.tellExit path ending w).Alike b c (r.tellExit path ending v) := by
  cases r with
  | printing => exact h
  | sandboxed =>
    cases ending with
    | exited => exact h.notify _
    | completed | panicked => exact h

theorem tellSkipped (h : w.Alike b c v) (r : Reporter) (path : Path) (skipped : Bool) :
    (r.tellSkipped path skipped w).Alike b c (r.tellSkipped path skipped v) := by
  cases r with
  | sandboxed => exact h
  | printing =>
    cases skipped with
    | true => exact h.print _
    | false => exact h

theorem act (h : w.Alike b c v) (name : String) (op : ChannelOp) :
    (w.act name op).2 = (v.act name op).2 ∧ (w.act name op).1.Alike b c (v.act name op).1 := by
  obtain ⟨hu, hv⟩ := World.isView_unseen.act name op h.unseen
  obtain ⟨hp, ht⟩ := w.act_keeps name op
  obtain ⟨hp', ht'⟩ := v.act_keeps name op
  obtain ⟨hchannels, hnow⟩ := unseen_eq_iff.mp hu
  refine ⟨hv, ?_, hchannels, hnow, ?_⟩
  · rw [hp, hp', h.printed]
  · rw [ht, ht']
    exact h.trace

end World.Alike

/-- Two runs in the same test and the same state, which have seen different sandboxes. -/
def separation (b c : List Action) : Pairing Unit :=
  fun _ env env' s t => env = env' ∧ s.scope = t.scope ∧ s.world.Alike b c t.world

variable {b c : List Action}

theorem separation_kept (b c : List Action) : (separation b c).Kept where
  observe o h := ⟨h.1, h.2.1, h.2.2.observe o⟩
  record _ message := by
    rintro env _ s t ⟨rfl, hs, hw⟩
    have hscope : s.scope.recordFailure env.path message =
        t.scope.recordFailure env.path message := by rw [hs]
    exact ⟨rfl, rfl, hscope, hw.tellFailure _ _ _⟩
  skip _ message := by
    rintro env _ s t ⟨rfl, hs, hw⟩
    have hscope : s.scope.recordSkip env.path message = t.scope.recordSkip env.path message := by
      rw [hs]
    exact ⟨rfl, rfl, hscope, hw.tellSkip _ _ _⟩
  failNow _ := by
    rintro env _ s t ⟨rfl, hs, hw⟩
    exact ⟨rfl, rfl, congrArg Scope.markFailed hs, hw⟩
  failed _ := by
    rintro env _ s t ⟨rfl, hs, hw⟩
    refine ⟨rfl, rfl, hs, ?_⟩
    simp only [Exec.failed, hs]
    exact hw.observe _
  subtest {_ env env' s t} name := by
    rintro ⟨rfl, hs, hw⟩
    have henv : env.inSubtest name s.scope = env.inSubtest name t.scope := by rw [hs]
    refine ⟨(), ⟨henv, rfl, hw.tellStart _ _⟩, ?_⟩
    rintro ending u v ⟨-, hr, hw'⟩
    have hexit := hw'.tellExit env.reporter (env.path.child name) ending
    have habsorb : s.scope.absorb u.scope = t.scope.absorb v.scope := by rw [hs, hr]
    refine ⟨⟨rfl, hs, hexit⟩, rfl, habsorb, ?_⟩
    rw [hr]
    exact hexit.tellSkipped _ _ _
  sandbox {_ env env' s t} := by
    rintro ⟨rfl, hs, hw⟩
    have henv : env.inSandbox s.scope = env.inSandbox t.scope := by rw [hs]
    refine ⟨(), ⟨henv, rfl, hw⟩, ?_⟩
    rintro ending u v ⟨-, hr, hw'⟩
    exact ⟨hr, rfl, hs, hw'.tellExit _ _ _⟩

theorem separation_keptByChannels (b c : List Action) : (separation b c).KeptByChannels where
  act name op h :=
    have hw := h.2.2.act name op
    ⟨hw.1, h.1, h.2.1, hw.2⟩

theorem separation_outcome :
    Exec.Paired (separation b c) () Exec.outcome Exec.outcome := by
  rintro env _ s t ⟨rfl, hs, hw⟩
  refine ⟨rfl, rfl, hs, ?_⟩
  simp only [Exec.outcome, hs]
  exact hw.observe _

theorem separation_exec (a : Action) : Exec.Paired (separation b c) () a.exec a.exec :=
  (Exec.Paired.closed (separation_kept b c) (separation_keptByChannels b c)).exec a
    (fun _ _ => separation_outcome) ()

theorem separation_sandbox (hb : Harmless b) (hc : Harmless c) :
    Exec.Paired (separation b c) () (.sandbox (execAll b)) (.sandbox (execAll c)) := by
  rintro env _ s t ⟨rfl, hs, hw⟩
  -- Both complete in the scope that they began in, whatever they have recorded inside.
  obtain ⟨w, hx, ⟨hp, os, ho⟩, hu⟩ := hb.sandbox env s
  obtain ⟨v, hy, ⟨hp', os', ho'⟩, hu'⟩ := hc.sandbox env t
  have hsees : SandboxSees b os := ⟨env, s, by rw [hx, ho]⟩
  have hsees' : SandboxSees c os' := ⟨env, t, by rw [hy, ho']⟩
  have hunseen : w.unseen = v.unseen := by rw [hu, hu', hw.unseen]
  rw [hx, hy]
  obtain ⟨hchannels, hnow⟩ := World.unseen_eq_iff.mp hunseen
  refine ⟨rfl, rfl, hs, ?_, hchannels, hnow, ?_⟩
  · rw [hp, hp', hw.printed]
  · rw [← ho, ← ho']
    exact hw.trace.ran hsees hsees'

theorem Varies.paired (hb : Harmless b) (hc : Harmless c) {xs ys : List Action}
    (h : Varies b c xs ys) : Exec.Paired (separation b c) () (execAll xs) (execAll ys) := by
  induction h with
  | nil => exact .leave .completed
  | same a h ih => exact (separation_exec a).andThen ih
  | inside k hbody h ihb ih =>
    exact (k.paired (separation_kept b c) (fun _ => ihb) ()).andThen ih
  | here h ih => exact (separation_sandbox hb hc).andThen ih

namespace Control

/-- Whether the same is still to be done at two places, sandboxes aside, and in the same state. -/
structure Alike (b c : List Action) (p q : Control) : Prop where
  body : Varies b c p.body q.body
  env : p.env = q.env
  scope : p.state.scope = q.state.scope
  world : p.state.world.Alike b c q.state.world

/-- Whether the first run is inside of a sandbox that runs `b`, while the second has come to the
sandbox in its place, which runs `c`. -/
def Apart (b c : List Action) (p q : Control) (frames : List Frame) (d : Control) : Prop :=
  ∃ outer inner e e', frames = outer ++ .sandbox :: inner ∧
    p.Reaches outer e ∧ q.Reaches outer e' ∧ e.Alike b c e' ∧
    (∃ rest rest', e.body = .sandbox b :: rest ∧ e'.body = .sandbox c :: rest') ∧
    (ofSandbox b e.env e.state).Reaches inner d

theorem Alike.symm {p q : Control} (h : p.Alike b c q) : q.Alike c b p :=
  ⟨h.body.symm, h.env.symm, h.scope.symm, h.world.symm⟩

theorem Alike.run (hb : Harmless b) (hc : Harmless c) {p q : Control} (h : p.Alike b c q) :
    p.run.1 = q.run.1 ∧ p.run.2.scope = q.run.2.scope ∧
      p.run.2.world.Alike b c q.run.2.world := by
  obtain ⟨he, -, hr⟩ := h.body.paired hb hc ⟨h.env, h.scope, h.world⟩
  exact ⟨he, hr⟩

theorem Apart.next {a a' : Action} {rest rest' : List Action} {env env' : Env}
    {s s' t t' : State} {frames : List Frame} {d : Control}
    (ha : a.exec env s = (.completed, s')) (ha' : a'.exec env' t = (.completed, t'))
    (h : Apart b c ⟨rest, env, s'⟩ ⟨rest', env', t'⟩ frames d) :
    Apart b c ⟨a :: rest, env, s⟩ ⟨a' :: rest', env', t⟩ frames d := by
  obtain ⟨outer, inner, e, e', hf, h1, h2, h3⟩ := h
  exact ⟨outer, inner, e, e', hf, .next ha h1, .next ha' h2, h3⟩

theorem Apart.inside {f : Frame} {a a' : Action} {rest rest' : List Action} {env env' : Env}
    {s t : State} {p q : Control} {frames : List Frame} {d : Control} (ho : Opens f a env s p)
    (ho' : Opens f a' env' t q) (h : Apart b c p q frames d) :
    Apart b c ⟨a :: rest, env, s⟩ ⟨a' :: rest', env', t⟩ (f :: frames) d := by
  obtain ⟨outer, inner, e, e', hf, h1, h2, h3⟩ := h
  exact ⟨f :: outer, inner, e, e', by rw [hf, List.cons_append], .inside ho h1, .inside ho' h2, h3⟩

theorem Opens.alike (hb : Harmless b) (hc : Harmless c) {f : Frame} {k : Construct}
    {body body' : List Action} {env : Env} {s t : State} {p : Control}
    (ho : Opens f (k.around body) env s p) (h : Varies b c body body') (hs : s.scope = t.scope)
    (hw : s.world.Alike b c t.world) :
    ∃ q, Opens f (k.around body') env t q ∧ p.Alike b c q := by
  have hbelow (path : Path) : Env.mk env.reporter path (s.scope :: env.enclosing) =
      ⟨env.reporter, path, t.scope :: env.enclosing⟩ := by rw [hs]
  have hboxed : env.inSandbox s.scope = env.inSandbox t.scope := by rw [hs]
  cases k with
  | subtest name =>
    cases ho
    have hstart := hw.tellStart env.reporter (env.path.child name)
    exact ⟨_, .subtest name body' env t, h, hbelow _, rfl, hstart⟩
  | nest names =>
    cases ho with
    | nested => exact ⟨_, .nested body' env t, h, rfl, hs, hw⟩
    | nest name names =>
      have hstart := hw.tellStart env.reporter (env.path.child name)
      have hnest : Varies b c [.nest names body] [.nest names body'] := .inside (.nest names) h .nil
      exact ⟨_, .nest name names body' env t, hnest, hbelow _, rfl, hstart⟩
  | repeated n =>
    cases ho with
    | @repeated _ i _ _ _ s' hi ht =>
      -- As many rounds complete in the second run, so that it begins the same round.
      obtain ⟨he, -, hscope, hworld⟩ := (h.paired hb hc).times i ⟨rfl, hs, hw⟩
      rw [ht] at he hscope hworld
      have ht' : Exec.times i (execAll body') env t =
          (.completed, (Exec.times i (execAll body') env t).2) := Prod.ext he.symm rfl
      exact ⟨_, .repeated hi ht', h, rfl, hscope, hworld⟩
  | thread =>
    cases ho
    exact ⟨_, .thread body' env t, h, rfl, hs, hw⟩
  | catching rethrow =>
    cases ho
    exact ⟨_, .catching body' rethrow env t, h, rfl, hs, hw⟩
  | expect e =>
    cases ho
    exact ⟨_, .expect e body' env t, h, hboxed, rfl, hw⟩
  | sandbox =>
    cases ho
    exact ⟨_, .sandbox body' env t, h, hboxed, rfl, hw⟩

/-- What two bodies begin with that vary: the same action, or a sandbox in place of another. -/
theorem Alike.head {a : Action} {rest : List Action} {env : Env} {s : State} {q : Control}
    (hb : Harmless b) (hc : Harmless c) (h : Alike b c ⟨a :: rest, env, s⟩ q) :
    ∃ a' rest' t, q = ⟨a' :: rest', env, t⟩ ∧ Varies b c rest rest' ∧
      Exec.Paired (separation b c) () a.exec a'.exec ∧
      ((∀ f p, Opens f a env s p → ∃ q, Opens f a' env t q ∧ p.Alike b c q) ∨
        a = .sandbox b ∧ a' = .sandbox c) := by
  obtain ⟨body, env', t⟩ := q
  obtain ⟨hbody, rfl, hs, hw⟩ := h
  cases hbody with
  | same _ hrest =>
    refine ⟨a, _, t, rfl, hrest, separation_exec a, .inl fun f p ho => ?_⟩
    obtain ⟨k, body, rfl⟩ := ho.construct
    exact ho.alike hb hc (.refl body) hs hw
  | inside k hbody hrest =>
    refine ⟨_, _, t, rfl, hrest, ?_, .inl fun f p ho => ho.alike hb hc hbody hs hw⟩
    exact k.paired (separation_kept b c) (fun _ => hbody.paired hb hc) ()
  | here hrest => exact ⟨_, _, t, rfl, hrest, separation_sandbox hb hc, .inr ⟨rfl, rfl⟩⟩

theorem Alike.reaches (hb : Harmless b) (hc : Harmless c) {p q d : Control} {frames : List Frame}
    (h : p.Alike b c q) (hr : p.Reaches frames d) :
    (∃ d', q.Reaches frames d' ∧ d.Alike b c d') ∨ Apart b c p q frames d := by
  -- The first run goes on its way step by step, and the second can take each step as well, until the
  -- first goes into a sandbox in whose place the second has another.
  induction hr generalizing q with
  | here p => exact .inl ⟨q, .here q, h⟩
  | @next frames a rest env s s' d ha hr ih =>
    obtain ⟨a', rest', t, rfl, hrest, hpaired, -⟩ := h.head hb hc
    obtain ⟨he, -, hscope, hworld⟩ := hpaired ⟨rfl, h.scope, h.world⟩
    rw [ha] at he hscope hworld
    have ha' : a'.exec env t = (.completed, (a'.exec env t).2) := Prod.ext he.symm rfl
    have hnext : Alike b c ⟨rest, env, s'⟩ ⟨rest', env, (a'.exec env t).2⟩ :=
      ⟨hrest, rfl, hscope, hworld⟩
    rcases ih hnext with ⟨d', hd, hdd⟩ | hapart
    · exact .inl ⟨d', .next ha' hd, hdd⟩
    · exact .inr (hapart.next ha ha')
  | @inside f frames a rest env s p d ho hr ih =>
    obtain ⟨a', rest', t, rfl, hrest, -, hopens | ⟨rfl, rfl⟩⟩ := h.head hb hc
    · obtain ⟨q, ho', hq⟩ := hopens f p ho
      rcases ih hq with ⟨d', hd, hdd⟩ | hapart
      · exact .inl ⟨d', .inside ho' hd, hdd⟩
      · exact .inr (hapart.inside ho ho')
    · cases ho
      exact .inr ⟨[], frames, _, _, rfl, .here _, .here _, h, ⟨rest, rest', rfl, rfl⟩, hr⟩

/-- Whether the second run comes wherever the first comes, inside of the same frames and in the same
state, and ends there alike, except inside of sandboxes that differ. -/
def Follows (b c : List Action) (p q : Control) : Prop :=
  ∀ frames d, p.Reaches frames d →
    (∃ d', q.Reaches frames d' ∧ d.Alike b c d' ∧ d.run.1 = d'.run.1 ∧
      d.run.2.scope = d'.run.2.scope) ∨ Apart b c p q frames d

theorem Alike.follows (hb : Harmless b) (hc : Harmless c) {p q : Control} (h : p.Alike b c q) :
    Follows b c p q := by
  intro frames d hr
  rcases h.reaches hb hc hr with ⟨d', hd, hdd⟩ | hapart
  · obtain ⟨he, hs, -⟩ := hdd.run hb hc
    exact .inl ⟨d', hd, hdd, he, hs⟩
  · exact .inr hapart

end Control

theorem Varies.runSandboxed {xs ys : List Action} (hb : Harmless b) (hc : Harmless c)
    (h : Varies b c xs ys) (w : World) : (runSandboxed xs w).1 = (runSandboxed ys w).1 := by
  have halike : Control.Alike b c ⟨xs, ⟨.sandboxed, .root, [{}]⟩, ⟨{}, w⟩⟩
      ⟨ys, ⟨.sandboxed, .root, [{}]⟩, ⟨{}, w⟩⟩ := ⟨h, rfl, rfl, .refl w⟩
  obtain ⟨he, hscope, -⟩ := halike.run hb hc
  simp only [Control.run] at he hscope
  rw [runSandboxed_eq, runSandboxed_eq]
  dsimp only
  rw [he, hscope]

theorem Varies.runPrinting {xs ys : List Action} (hb : Harmless b) (hc : Harmless c)
    (h : Varies b c xs ys) (name : String) (w : World) :
    (runPrinting name xs w).1 = (runPrinting name ys w).1 ∧
      (runPrinting name xs w).2.Alike b c (runPrinting name ys w).2 := by
  have halike : Control.Alike b c ⟨xs, ⟨.printing, .root, []⟩, ⟨{}, w⟩⟩
      ⟨ys, ⟨.printing, .root, []⟩, ⟨{}, w⟩⟩ := ⟨h, rfl, rfl, .refl w⟩
  obtain ⟨he, hscope, hworld⟩ := halike.run hb hc
  simp only [Control.run] at he hscope hworld
  rw [runPrinting_eq, runPrinting_eq]
  simp only [← he, ← hscope]
  split
  · exact ⟨rfl, hworld⟩
  · split
    · exact ⟨rfl, hworld⟩
    · exact ⟨rfl, hworld.tellSkipped _ _ _⟩

/-- What a sandbox runs makes no difference to the test around it. Let two bodies be the same but for
some sandboxes, anywhere in them, that run `b` in the one and `c` in the other, which use no channels and
do not panic. In a sandbox both bodies have the same result, as tests that print they pass or panic alike
and print the same. Anywhere, they end alike with the same scope, and have seen the same but for what
those sandboxes saw. Each comes wherever the other comes, in the same state of all live tests, and ends
there alike, except inside of those sandboxes. -/
theorem sandboxes_cannot_influence {xs ys : List Action} (hb : Harmless b) (hc : Harmless c)
    (h : Varies b c xs ys) :
    (∀ w, (runSandboxed xs w).1 = (runSandboxed ys w).1) ∧
    (∀ name w, (runPrinting name xs w).1 = (runPrinting name ys w).1 ∧
      (runPrinting name xs w).2.output name = (runPrinting name ys w).2.output name) ∧
    ∀ env s,
      let p : Control := ⟨xs, env, s⟩
      let q : Control := ⟨ys, env, s⟩
      (p.run.1 = q.run.1 ∧ p.run.2.scope = q.run.2.scope ∧
        p.run.2.world.Alike b c q.run.2.world) ∧
      p.Follows b c q ∧ q.Follows c b p := by
  refine ⟨fun w => h.runSandboxed hb hc w, fun name w => ?_, fun env s => ?_⟩
  · obtain ⟨hr, hw⟩ := h.runPrinting hb hc name w
    refine ⟨hr, ?_⟩
    simp only [World.output, hw.printed]
  · intro p q
    have halike : p.Alike b c q := ⟨h, rfl, rfl, .refl s.world⟩
    exact ⟨halike.run hb hc, halike.follows hb hc, halike.symm.follows hc hb⟩

/-- A sandbox that fails and leaves early, and one that does nothing, in a subtest. -/
theorem sandboxes_cannot_influence_subtest :
    let b := [Action.fail "a", .failNow]
    let body (inner : List Action) := [Action.subtest "d" [.sandbox inner, .failed], .skip "e"]
    Harmless b ∧ Harmless [] ∧ Varies b [] (body b) (body []) ∧
      (runSandboxed (body b) {}).1 = (runSandboxed (body []) {}).1 ∧
      (runPrinting "f" (body b) {}).2.output "f" = (runPrinting "f" (body []) {}).2.output "f" := by
  intro b body
  have hb : Harmless b := ⟨rfl, _, rfl⟩
  have hc : Harmless [] := ⟨rfl, _, rfl⟩
  have h : Varies b [] (body b) (body []) :=
    .inside (.subtest "d") (.here (.refl [.failed])) (.refl [.skip "e"])
  obtain ⟨hs, hp, -⟩ := sandboxes_cannot_influence hb hc h
  exact ⟨hb, hc, h, hs {}, (hp "f" {}).2⟩

end Testkit
