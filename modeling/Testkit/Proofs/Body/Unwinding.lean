import Testkit.Body.Run
import Testkit.Proofs.Body.Control

/-! Where the ending of a body comes from, what an early ending passes on its way out, and where it is
stopped. -/

namespace Testkit

/-- The state in which an ending at `env` and `t` comes out of the frames: that of the scope that was
put aside first, and nothing has happened but that catches and threads saw the ending. -/
def State.unwound (frames : List Frame) (ending : Ending) (env : Env) (t : State) : State :=
  ⟨(t.scope :: env.enclosing).getD (frames.countP Frame.hasScope) t.scope,
    t.world.observeAll (frames.reverse.flatMap (Frame.sees ending))⟩

theorem State.unwound_nil (ending : Ending) (env : Env) (t : State) :
    t.unwound [] ending env = t := by
  simp [unwound, World.observeAll]

theorem State.unwound_cons {f : Frame} {frames : List Frame} {env : Env} {scope : Scope}
    {enclosing : List Scope} (ending : Ending) (t : State)
    (h : env.enclosing.drop (frames.countP Frame.hasScope) =
      if f.hasScope then scope :: enclosing else enclosing) :
    t.unwound (f :: frames) ending env =
      ⟨if f.hasScope then scope else (t.unwound frames ending env).scope,
        (t.unwound frames ending env).world.observeAll (f.sees ending)⟩ := by
  have hw : (t.unwound (f :: frames) ending env).world =
      (t.unwound frames ending env).world.observeAll (f.sees ending) := by
    simp [unwound, World.observeAll, List.flatMap_append]
  have hs : (t.unwound (f :: frames) ending env).scope =
      if f.hasScope then scope else (t.unwound frames ending env).scope := by
    by_cases hf : f.hasScope = true
    · rw [if_pos hf] at h ⊢
      have hget : env.enclosing[frames.countP Frame.hasScope]? = some scope := by
        rw [← List.head?_drop, h]
        rfl
      simp [unwound, List.countP_cons_of_pos hf, hget]
    · rw [if_neg hf]
      simp only [unwound, List.countP_cons_of_neg hf]
  rw [← hs, ← hw]

namespace Control

/-- An early ending comes out of all frames that it passes, and nothing else is done on the way. -/
theorem Reaches.run_of_passes {frames : List Frame} {c : Control} {a : Action} {rest : List Action}
    {env : Env} {s t : State} {e : Ending} (h : Reaches frames c ⟨a :: rest, env, s⟩)
    (ha : a.exec env s = (e, t)) (he : e ≠ .completed) (hp : ∀ f ∈ frames, f.passes e = true) :
    c.run = (e, t.unwound frames e env) := by
  generalize hd : (⟨a :: rest, env, s⟩ : Control) = d at h
  induction h with
  | here c =>
    subst hd
    rw [run_cons, ha, if_neg he, State.unwound_nil]
  | next hb h ih => rw [run_cons, hb, if_pos rfl, ih hp hd]
  | @inside f frames b rest' env' s' c d ho h ih =>
    have hrun := ih (fun g hg => hp g (List.mem_cons_of_mem f hg)) hd
    have hexec := ho.exec_of_passes hrun he (hp f List.mem_cons_self)
    have henc := h.enclosing.trans ho.enclosing
    rw [run_cons, hexec, if_neg he]
    subst hd
    rw [State.unwound_cons e t henc]

end Control

def Action.isPlain : Action → Bool
  | .subtest _ _ | .nest _ _ | .repeated _ _ | .thread _ | .catching _ _ | .expect _ _
  | .sandbox _ => false
  | _ => true

namespace Control

/-- Whether control comes to an action without a body that ends so, in frames that all pass it. -/
def EndsBy (c : Control) (e : Ending) : Prop :=
  ∃ frames a rest env s, Reaches frames c ⟨a :: rest, env, s⟩ ∧ a.isPlain = true ∧
    (a.exec env s).1 = e ∧ ∀ f ∈ frames, f.passes e = true

theorem EndsBy.run_eq {c : Control} {e : Ending} (h : c.EndsBy e) (he : e ≠ .completed) :
    c.run.1 = e := by
  obtain ⟨frames, a, rest, env, s, hr, -, ha, hp⟩ := h
  rw [hr.run_of_passes (Prod.ext ha rfl) he hp]

theorem EndsBy.next {a : Action} {rest : List Action} {env : Env} {s t : State} {e : Ending}
    (ha : a.exec env s = (.completed, t)) (h : EndsBy ⟨rest, env, t⟩ e) :
    EndsBy ⟨a :: rest, env, s⟩ e := by
  obtain ⟨frames, b, rest', env', s', hr, hb⟩ := h
  exact ⟨frames, b, rest', env', s', .next ha hr, hb⟩

theorem EndsBy.inside {f : Frame} {a : Action} {rest : List Action} {env : Env} {s : State}
    {c : Control} {e : Ending} (ho : Opens f a env s c) (h : c.EndsBy e)
    (hp : f.passes e = true) : EndsBy ⟨a :: rest, env, s⟩ e := by
  obtain ⟨frames, b, rest', env', s', hr, hb, he, hps⟩ := h
  exact ⟨f :: frames, b, rest', env', s', .inside ho hr, hb, he, List.forall_mem_cons.mpr ⟨hp, hps⟩⟩

/-- Whether the body, wherever it runs, completes or ends by an action of its own. -/
def Traced (body : List Action) : Prop :=
  ∀ env s, (run ⟨body, env, s⟩).1 ≠ .completed →
    EndsBy ⟨body, env, s⟩ (run ⟨body, env, s⟩).1

def TracedAction (a : Action) : Prop :=
  ∀ rest env s, (a.exec env s).1 ≠ .completed → EndsBy ⟨a :: rest, env, s⟩ (a.exec env s).1

theorem TracedAction.plain {a : Action} (h : a.isPlain = true) : TracedAction a :=
  fun rest env s _ => ⟨[], a, rest, env, s, .here _, h, rfl, by simp⟩

theorem Traced.opened {c : Control} (h : Traced c.body) {f : Frame} {a : Action} {env : Env}
    {s : State} (ho : Opens f a env s c) (hf : f.hasScope = true) (rest : List Action)
    (he : (a.exec env s).1 ≠ .completed) : EndsBy ⟨a :: rest, env, s⟩ (a.exec env s).1 := by
  rw [ho.ending_of_scope hf] at he ⊢
  by_cases hr : c.run.1.returns = true
  · exact absurd (if_pos hr) he
  · rw [if_neg hr] at he ⊢
    exact (h c.env c.state he).inside ho (by rw [f.passes_of_hasScope _ hf]; simpa using hr)

theorem Traced.nest {body : List Action} (h : Traced body) (names : List String) :
    TracedAction (.nest names body) := by
  induction names with
  | nil => exact fun rest env s he => (h env s he).inside (.nested body env s) rfl
  | cons name names ih =>
    have hs : Traced [.nest names body] := by
      intro env s he
      rw [run_singleton] at he ⊢
      exact ih [] env s he
    exact fun rest env s => Traced.opened (c := ofSubtest name [.nest names body] env s) hs
      (.nest name names body env s) rfl rest

theorem Traced.repeated {body : List Action} (h : Traced body) (n : Nat) :
    TracedAction (.repeated n body) := by
  intro rest env s he
  obtain ⟨i, t, hi, ht, hr⟩ := Exec.round_of_times he
  have hrun : run ⟨body, env, t⟩ = (Action.repeated n body).exec env s := hr
  rw [← hrun] at he ⊢
  exact (h env t he).inside (.repeated hi ht) rfl

theorem Traced.catching {body : List Action} (h : Traced body) (rethrow : Bool) :
    TracedAction (.catching body rethrow) := by
  intro rest env s he
  cases rethrow with
  | false => exact absurd rfl he
  | true => exact (h env s he).inside (.catching body true env s) rfl

mutual

theorem tracedAction : (a : Action) → TracedAction a
  | .fail _ | .check _ | .require _ | .skip _ | .failNow | .failed | .mark _ | .raise _ | .outcome
  | .channel _ _ => .plain rfl
  | .subtest name body => fun rest env s => (traced body).opened (.subtest name body env s) rfl rest
  | .nest names body => (traced body).nest names
  | .repeated n body => (traced body).repeated n
  | .thread _ => fun _ _ _ he => absurd rfl he
  | .catching body rethrow => (traced body).catching rethrow
  | .expect e body => fun rest env s => (traced body).opened (.expect e body env s) rfl rest
  | .sandbox body => fun rest env s => (traced body).opened (.sandbox body env s) rfl rest

theorem traced : (body : List Action) → Traced body
  | [] => fun _ _ he => absurd rfl he
  | a :: rest => by
    intro env s he
    rw [run_cons] at he ⊢
    by_cases hc : (a.exec env s).1 = .completed
    · rw [if_pos hc] at he ⊢
      exact (traced rest env _ he).next (Prod.ext hc rfl)
    · rw [if_neg hc] at he ⊢
      exact tracedAction a rest env s hc

end

theorem Reaches.run_of_end {c : Control} {env : Env} {t : State} (h : Reaches [] c ⟨[], env, t⟩) :
    c.run = (.completed, t) := by
  generalize hf : ([] : List Frame) = frames at h
  generalize hd : (⟨[], env, t⟩ : Control) = d at h
  induction h with
  | here c =>
    subst hd
    rfl
  | next ha h ih => rw [run_cons, ha, if_pos rfl, ih hf hd]
  | inside ho h => cases hf

theorem reaches_end : (body : List Action) → (env : Env) → (s : State) →
    (run ⟨body, env, s⟩).1 = .completed → ∃ t, Reaches [] ⟨body, env, s⟩ ⟨[], env, t⟩
  | [], env, s, _ => ⟨s, .here _⟩
  | a :: rest, env, s, h => by
    rw [run_cons] at h
    by_cases hc : (a.exec env s).1 = .completed
    · rw [if_pos hc] at h
      obtain ⟨t, ht⟩ := reaches_end rest env _ h
      exact ⟨t, .next (Prod.ext hc rfl) ht⟩
    · rw [if_neg hc] at h
      exact absurd h hc

theorem run_completed_iff (c : Control) :
    c.run.1 = .completed ↔ ∃ t, Reaches [] c ⟨[], c.env, t⟩ :=
  ⟨reaches_end c.body c.env c.state, fun ⟨_, h⟩ => by rw [h.run_of_end]⟩

theorem run_early_iff (c : Control) {e : Ending} (he : e ≠ .completed) :
    c.run.1 = e ↔ c.EndsBy e := by
  constructor
  · rintro rfl
    exact traced c.body c.env c.state he
  · exact fun h => h.run_eq he

theorem passes_of_notMem {frames : List Frame} (p : Payload) (ht : .thread ∉ frames)
    (hc : .catching false ∉ frames) : ∀ f ∈ frames, f.passes (.panicked p) = true := by
  intro f hf
  cases f with
  | thread => exact absurd hf ht
  | catching rethrow =>
    cases rethrow with
    | false => exact absurd hf hc
    | true => rfl
  | _ => rfl

theorem Reaches.after_panic {outer inner : List Frame} {c d : Control} {b a : Action}
    {later rest : List Action} {env env' : Env} {s s' t : State} {f : Frame} {p : Payload}
    (hb : c.Reaches outer ⟨b :: later, env, s⟩) (ho : Opens f b env s d)
    (hs : f.passes (.panicked p) = false) (ha : d.Reaches inner ⟨a :: rest, env', s'⟩)
    (hp : a.exec env' s' = (.panicked p, t)) (hi : ∀ g ∈ inner, g.passes (.panicked p) = true) :
    c.Reaches outer ⟨later, env, t.unwound (f :: inner) (.panicked p) env'⟩ := by
  have hrun := ha.run_of_passes hp (by simp) hi
  have hexec := ho.exec_of_stops hrun hs
  have hf : f.hasScope = false := by
    cases f with
    | subtest => simp [Frame.passes, Ending.returns] at hs
    | sandbox => simp [Frame.passes, Ending.returns] at hs
    | _ => rfl
  have henc := ha.enclosing.trans ho.enclosing
  rw [State.unwound_cons (.panicked p) t henc, if_neg (by simp [hf])]
  exact hb.step hexec

/-- Early exits stay inside, and panics pass through until they are intercepted. -/
structure Confined (c : Control) : Prop where
  /-- What runs a body in a scope of its own is never left early, and panics only as that body. -/
  no_exit : ∀ {frames a rest env s f d}, c.Reaches frames ⟨a :: rest, env, s⟩ → Opens f a env s d →
    f.hasScope = true → (a.exec env s).1 = .completed ∨
      ∃ p, d.EndsBy (.panicked p) ∧ (a.exec env s).1 = .panicked p
  goes_on : ∀ {frames a rest env s f d}, c.Reaches frames ⟨a :: rest, env, s⟩ → Opens f a env s d →
    f.hasScope = true → d.EndsBy .exited → c.Reaches frames ⟨rest, env, (a.exec env s).2⟩
  comes_out : ∀ {frames a rest env s p t}, c.Reaches frames ⟨a :: rest, env, s⟩ →
    a.exec env s = (.panicked p, t) → .thread ∉ frames → .catching false ∉ frames →
    c.run = (.panicked p, t.unwound frames (.panicked p) env)
  intercepted : ∀ {outer inner a b later rest env env' s s' f d p t},
    c.Reaches outer ⟨b :: later, env, s⟩ → Opens f b env s d → (f = .thread ∨ f = .catching false) →
    d.Reaches inner ⟨a :: rest, env', s'⟩ → a.exec env' s' = (.panicked p, t) →
    .thread ∉ inner → .catching false ∉ inner →
    c.Reaches outer ⟨later, env, t.unwound (f :: inner) (.panicked p) env'⟩

theorem confined (c : Control) : c.Confined where
  no_exit {frames a rest env s f d} _ ho hf := by
    rw [ho.ending_of_scope hf]
    cases hd : d.run.1 with
    | panicked p => exact .inr ⟨p, (d.run_early_iff (by simp)).mp hd, rfl⟩
    | _ => exact .inl rfl
  goes_on h ho hf hd := by
    have ha := ho.ending_of_scope hf
    rw [hd.run_eq (by simp)] at ha
    exact h.step (Prod.ext ha rfl)
  comes_out h ha ht hc := h.run_of_passes ha (by simp) (passes_of_notMem _ ht hc)
  intercepted h ho hf hi ha ht hc := by
    refine h.after_panic ho ?_ hi ha (passes_of_notMem _ ht hc)
    obtain rfl | rfl := hf <;> rfl

end Control

def Control.sandboxed (body : List Action) (w : World) : Control :=
  .ofSandbox body (.top .sandboxed) ⟨{}, w⟩

def Control.printing (body : List Action) (w : World) : Control :=
  ⟨body, .top .printing, ⟨{}, w⟩⟩

def Control.isolated (body : List Action) (s : State) : Control :=
  ⟨body, .top .sandboxed, s⟩

theorem Ending.resolve_eq_true {e : Ending} : e.resolve = .ok true ↔ e = .completed := by
  cases e <;> simp [resolve]

theorem Ending.resolve_eq_false {e : Ending} : e.resolve = .ok false ↔ e = .exited := by
  cases e <;> simp [resolve]

theorem Ending.resolve_eq_error {e : Ending} {p : Payload} :
    e.resolve = .error p ↔ e = .panicked p := by
  cases e <;> simp [resolve]

section Calls

variable {name : String} {body : List Action} {w : World} {s t : State} {p : Payload}

theorem sandboxed_run :
    (Control.sandboxed body w).run = execAll body ⟨.sandboxed, .root, [{}]⟩ ⟨{}, w⟩ := rfl

theorem printing_run :
    (Control.printing body w).run = execAll body ⟨.printing, .root, []⟩ ⟨{}, w⟩ := rfl

theorem isolated_run : (Control.isolated body s).run = execAll body (.top .sandboxed) s := rfl

theorem runSandboxed_of_panic (h : (Control.sandboxed body w).run = (.panicked p, t)) :
    runSandboxed body w = (.error p, t.world) := by
  rw [runSandboxed_eq, ← sandboxed_run, h]
  rfl

theorem runPrinting_of_panic (h : (Control.printing body w).run = (.panicked p, t)) :
    runPrinting name body w = (.error p, t.world) := by
  rw [runPrinting_eq, ← printing_run, h]

theorem runIsolated_of_panic (h : (Control.isolated body s).run = (.panicked p, t)) :
    runIsolated body s = (.error p, t) := by
  rw [isolated_run] at h
  simp [runIsolated, SeriesBody.run, h, Ending.resolve, Reporter.tellExit_panicked]

theorem runIsolated_fst :
    (runIsolated body s).1 = (Control.isolated body s).run.1.resolve := rfl

theorem runSandboxed_error_iff :
    (runSandboxed body w).1 = .error p ↔ (Control.sandboxed body w).EndsBy (.panicked p) := by
  rw [← Control.run_early_iff _ (by simp), runSandboxed_eq, ← sandboxed_run]
  generalize (Control.sandboxed body w).run = r
  rcases r with ⟨ending, u⟩
  cases ending <;> simp

theorem runPrinting_error_iff :
    (runPrinting name body w).1 = .error p ↔
      (Control.printing body w).EndsBy (.panicked p) ∨
        (Control.printing body w).run.1.returns = true ∧
          (Control.printing body w).run.2.scope.failed = true ∧
          p = .text (failureSummary name (Control.printing body w).run.2.scope.failures) := by
  rw [← Control.run_early_iff _ (by simp), runPrinting_eq, ← printing_run]
  generalize (Control.printing body w).run = r
  rcases r with ⟨ending, u⟩
  cases ending <;> by_cases hu : u.scope.failed = true <;> simp [Ending.returns, hu, eq_comm]

theorem runIsolated_true_iff : (runIsolated body s).1 = .ok true ↔
    ∃ t, (Control.isolated body s).Reaches [] ⟨[], .top .sandboxed, t⟩ := by
  rw [runIsolated_fst, Ending.resolve_eq_true]
  exact Control.run_completed_iff _

theorem runIsolated_false_iff :
    (runIsolated body s).1 = .ok false ↔ (Control.isolated body s).EndsBy .exited := by
  rw [runIsolated_fst, Ending.resolve_eq_false]
  exact Control.run_early_iff _ (by simp)

theorem runIsolated_error_iff :
    (runIsolated body s).1 = .error p ↔ (Control.isolated body s).EndsBy (.panicked p) := by
  rw [runIsolated_fst, Ending.resolve_eq_error]
  exact Control.run_early_iff _ (by simp)

end Calls

/-- Early exits are contained, and genuine panics pass through unchanged. -/
theorem exits_stay_and_panics_pass (name : String) (body : List Action) (w : World) (s : State) :
    (∀ c : Control, c.Confined) ∧
    (∀ p, ((runSandboxed body w).1 = .error p ↔
        (Control.sandboxed body w).EndsBy (.panicked p)) ∧
      ∀ t, (Control.sandboxed body w).run = (.panicked p, t) →
        runSandboxed body w = (.error p, t.world)) ∧
    (∀ p, ((runPrinting name body w).1 = .error p ↔
        (Control.printing body w).EndsBy (.panicked p) ∨
          (Control.printing body w).run.1.returns = true ∧
            (Control.printing body w).run.2.scope.failed = true ∧
            p = .text (failureSummary name (Control.printing body w).run.2.scope.failures)) ∧
      ∀ t, (Control.printing body w).run = (.panicked p, t) →
        runPrinting name body w = (.error p, t.world)) ∧
    ((runIsolated body s).1 = .ok true ↔
      ∃ t, (Control.isolated body s).Reaches [] ⟨[], .top .sandboxed, t⟩) ∧
    ((runIsolated body s).1 = .ok false ↔ (Control.isolated body s).EndsBy .exited) ∧
    ∀ p, ((runIsolated body s).1 = .error p ↔
        (Control.isolated body s).EndsBy (.panicked p)) ∧
      ∀ t, (Control.isolated body s).run = (.panicked p, t) →
        runIsolated body s = (.error p, t) := by
  exact ⟨Control.confined, fun p => ⟨runSandboxed_error_iff, fun _ => runSandboxed_of_panic⟩,
    fun p => ⟨runPrinting_error_iff, fun _ => runPrinting_of_panic⟩, runIsolated_true_iff,
    runIsolated_false_iff, fun p => ⟨runIsolated_error_iff, fun _ => runIsolated_of_panic⟩⟩

/-- A catch stops the panic of a subtest, after another one that was left at once. -/
theorem exits_stay_and_panics_pass_caught :
    let s : State := ⟨{}, {}⟩
    let skipped : Action := .subtest "a" [.failNow]
    let raises : Action := .subtest "b" [.raise (.code 7), .mark none]
    let body : List Action := [.catching [skipped, raises] false, .mark none]
    ∃ t, (Control.isolated body s).Reaches [] ⟨[.mark none], .top .sandboxed, t⟩ ∧
      t.world.trace = [.caught (.panicked (.code 7))] := by
  intro s skipped raises body
  have hconfined := (exits_stay_and_panics_pass "" body s.world s).1
  have hends : (Control.ofSubtest "a" [.failNow] (.top .sandboxed) s).EndsBy .exited :=
    ⟨[], .failNow, [], _, _, .here _, rfl, rfl, by simp⟩
  have hskipped : Control.Reaches [] ⟨[skipped, raises], .top .sandboxed, s⟩
      ⟨[raises], .top .sandboxed, (skipped.exec (.top .sandboxed) s).2⟩ :=
    (hconfined _).goes_on (.here _) (.subtest "a" [.failNow] _ s) rfl hends
  exact ⟨_, (hconfined (Control.isolated body s)).intercepted (.here _) (.catching _ _ _ s)
    (.inr rfl) hskipped rfl (by simp) (by simp), rfl⟩

end Testkit
