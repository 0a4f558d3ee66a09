import Testkit.Proofs.Body.Accounts
import Testkit.Proofs.Body.Occurrences
import Testkit.Proofs.Body.Unwinding

/-! What a reporter tells while a test runs, against what is recorded when it is over: the same failures,
unless a panic leaves a subtest, whose failures are told but not kept. -/

namespace Testkit

/-- What happens in a test and its subtests, without what a sandbox keeps apart. -/
def ownMoments (path : Path) (history : List Deed) : List Moment :=
  (momentsAll path history).filter fun m => m.fate ≠ .apart

/-- Whether a panic leaves a subtest at that moment. -/
def Moment.panics (m : Moment) : Bool :=
  match m.event with
  | .ended ending _ => !ending.returns
  | _ => false

mutual

theorem Deed.panic_of_lost {path : Path} {m : Moment} (hm : m.fate = .lost) :
    (d : Deed) → m ∈ d.moments path →
      ∃ n ∈ d.moments path, n.fate ≠ .apart ∧ n.panics = true
  | .act a, h => by
    obtain rfl : m = ⟨path, .kept, .act a⟩ := List.mem_singleton.mp h
    exact nomatch hm
  | .subtest name history ending, h => by
    rw [Deed.moments] at h ⊢
    cases hr : ending.returns with
    | false =>
      -- The end of the subtest is itself the moment at which a panic leaves it.
      have hlost : Moment.lose ⟨path.child name, .kept, .ended ending (history.any Deed.skips)⟩ =
          ⟨path.child name, .lost, .ended ending (history.any Deed.skips)⟩ := rfl
      refine ⟨_, List.mem_map_of_mem (List.mem_append_right _ (List.mem_singleton_self _)), ?_, ?_⟩
      · simp [hlost]
      · simp [hlost, Moment.panics, hr]
    | true =>
      rw [hr, if_pos rfl] at h
      obtain h | h := List.mem_append.mp h
      · obtain rfl | h := List.mem_cons.mp h
        · exact nomatch hm
        · obtain ⟨n, hn, hp⟩ := panic_of_lost hm history h
          exact ⟨n, List.mem_append_left _ (List.mem_cons_of_mem _ hn), hp⟩
      · obtain rfl := List.mem_singleton.mp h
        exact nomatch hm
  | .sandbox history ending, h => by
    obtain h | h := List.mem_append.mp h
    · obtain ⟨n, hn, rfl⟩ := List.mem_map.mp h
      exact nomatch hm
    · obtain rfl := List.mem_singleton.mp h
      exact nomatch hm

/-- Only where a panic leaves a subtest is anything lost. -/
theorem panic_of_lost {path : Path} {m : Moment} (hm : m.fate = .lost) :
    (history : List Deed) → m ∈ momentsAll path history →
      ∃ n ∈ momentsAll path history, n.fate ≠ .apart ∧ n.panics = true
  | [], h => nomatch h
  | d :: history, h => by
    rw [momentsAll] at h ⊢
    obtain h | h := List.mem_append.mp h
    · obtain ⟨n, hn, hp⟩ := d.panic_of_lost hm h
      exact ⟨n, List.mem_append_left _ hn, hp⟩
    · obtain ⟨n, hn, hp⟩ := panic_of_lost hm history h
      exact ⟨n, List.mem_append_right _ hn, hp⟩

end

/-- Whether these are the failures that are kept of what happened: some of those that were told, in
their order, and all of them if no panic left a subtest. -/
def KeptFrom (own : List Moment) (failures : List Entry) : Prop :=
  failures.Sublist (own.filterMap Moment.failure?) ∧
    ((∀ m ∈ own, m.panics = false) → failures = own.filterMap Moment.failure?)

theorem keptFrom_recorded (path : Path) (history : List Deed) :
    KeptFrom (ownMoments path history) (Scope.recorded path history).failures := by
  have hkept : (momentsAll path history).filter (fun m => m.fate = .kept) =
      (ownMoments path history).filter fun m => m.fate = .kept := by
    rw [ownMoments, List.filter_filter]
    refine List.filter_congr fun m _ => ?_
    cases m.fate <;> rfl
  have hfailures : (Scope.recorded path history).failures =
      ((ownMoments path history).filter fun m => m.fate = .kept).filterMap Moment.failure? :=
    congrArg (List.filterMap Moment.failure?) hkept
  rw [KeptFrom, hfailures]
  refine ⟨List.filter_sublist.filterMap _, fun hp => ?_⟩
  rw [List.filter_eq_self.mpr]
  intro m hm
  obtain ⟨hmem, hapart⟩ := List.mem_filter.mp hm
  cases hf : m.fate with
  | kept => rfl
  | apart => simp [hf] at hapart
  | lost =>
    obtain ⟨n, hn, hown, hpanics⟩ := panic_of_lost hf history hmem
    have hcalm := hp n (List.mem_filter.mpr ⟨hn, by simpa using hown⟩)
    rw [hcalm] at hpanics
    exact nomatch hpanics

theorem titleOf_eq (name : String) (path : Path) :
    titleOf name path =
      if path = .root then name else name ++ "/" ++ "/".intercalate path.components := by
  by_cases h : path = .root
  · rw [h]
    rfl
  · rw [if_neg h, titleOf_of_ne_root h, Path.text_of_ne_root h]

def Printed.failure? : Printed → Option Entry
  | .failure path message => some ⟨path, message⟩
  | _ => none

def Notice.failure? : Notice → Option Entry
  | .failure path message => some ⟨path, message⟩
  | _ => none

/-- The event that a sandboxed reporter logs for a failure. -/
def Entry.event (e : Entry) : LogRecord :=
  ⟨.debug, "testbox::mock", "sandboxed failure", [("path", e.path.text), ("message", e.message)]⟩

theorem events_of_failures (notices : List Notice) :
    (notices.map Notice.record).filter (fun r => r.message = "sandboxed failure") =
      (notices.filterMap Notice.failure?).map Entry.event := by
  induction notices with
  | nil => rfl
  | cons n notices ih =>
    rw [List.map_cons, List.filter_cons, ih]
    cases n <;> rfl

namespace Moment

/-- The lines that a test of that name prints at that moment, if it does. -/
def lines? (name : String) (m : Moment) : Option String :=
  let title := if m.path = .root then name else name ++ "/" ++ "/".intercalate m.path.components
  match m.event with
  | .act (.failure message) => some ("--- FAIL: " ++ title ++ "\n    " ++ message ++ "\n")
  | .act (.skip message) =>
    if message = "" then none else some ("    " ++ title ++ ": " ++ message ++ "\n")
  | .ended ending true => if ending.returns then some ("--- SKIP: " ++ title ++ "\n") else none
  | _ => none

theorem printed?_of_apart {m : Moment} (h : m.fate = .apart) (r : Reporter) :
    m.printed? r = none := by
  simp [printed?, reporter, h]

theorem reporter_of_ne_apart {m : Moment} (h : m.fate ≠ .apart) (r : Reporter) :
    m.reporter r = r := if_neg h

theorem lines_printed (name : String) (m : Moment) :
    (m.printed? .printing).map (·.lines name) = if m.fate ≠ .apart then m.lines? name else none := by
  by_cases h : m.fate = .apart
  · rw [printed?_of_apart h, if_neg (not_not_intro h)]
    rfl
  · rw [if_pos h, printed?, lines?, ← titleOf_eq, reporter_of_ne_apart h]
    cases m.event with
    | started => rfl
    | act a =>
      cases a with
      | skip message =>
        by_cases hm : message = ""
        · simp [hm]
        · simp [hm, Printed.lines]
      | _ => rfl
    | ended ending skipped => cases skipped <;> cases ending <;> rfl

theorem failure?_printed (m : Moment) :
    (m.printed? .printing).bind Printed.failure? = if m.fate ≠ .apart then m.failure? else none := by
  by_cases h : m.fate = .apart
  · rw [printed?_of_apart h, if_neg (not_not_intro h)]
    rfl
  · rw [if_pos h, printed?, failure?, reporter_of_ne_apart h]
    cases m.event with
    | started => rfl
    | act a =>
      cases a with
      | skip message => by_cases hm : message = "" <;> simp [hm, Printed.failure?]
      | _ => rfl
    | ended ending skipped => cases skipped <;> cases ending <;> rfl

theorem failure?_noticed (m : Moment) :
    (m.notice? .sandboxed).bind Notice.failure? = m.failure? := by
  have hr : m.reporter .sandboxed = .sandboxed := ite_self _
  rw [notice?, failure?, hr]
  cases m.event with
  | started => rfl
  | act a => cases a <;> rfl
  | ended ending skipped => cases ending <;> rfl

end Moment

theorem lines_of_printed (name : String) (moments : List Moment) :
    (moments.filterMap (Moment.printed? .printing)).map (·.lines name) =
      (moments.filter fun m => m.fate ≠ .apart).filterMap (Moment.lines? name) := by
  rw [List.map_filterMap, List.filterMap_filter]
  simp only [Moment.lines_printed, decide_eq_true_iff]

theorem failures_of_printed (moments : List Moment) :
    (moments.filterMap (Moment.printed? .printing)).filterMap Printed.failure? =
      (moments.filter fun m => m.fate ≠ .apart).filterMap Moment.failure? := by
  rw [List.filterMap_filterMap, List.filterMap_filter]
  simp only [Moment.failure?_printed, decide_eq_true_iff]

theorem failures_of_noticed (moments : List Moment) :
    (moments.filterMap (Moment.notice? .sandboxed)).filterMap Notice.failure? =
      moments.filterMap Moment.failure? := by
  rw [List.filterMap_filterMap]
  simp only [Moment.failure?_noticed]

namespace Control

/-- What is printed from this place on. -/
def prints (c : Control) : List Printed :=
  (momentsAll c.env.path c.history).filterMap (Moment.printed? c.env.reporter)

theorem account (c : Control) : Account c.history c.env c.state c.run.2 :=
  Deeds.Accounts.all c.body c.env c.state

theorem scope_of_fresh {c : Control} (h : c.state.scope = {}) :
    c.run.2.scope = .recorded c.env.path c.history := by
  rw [c.account.scope, h, Scope.fresh_followedBy]

theorem keptFrom_of_fresh {c : Control} (h : c.state.scope = {}) :
    KeptFrom (ownMoments c.env.path c.history) c.run.2.scope.failures := by
  rw [scope_of_fresh h]
  exact keptFrom_recorded ..

theorem skipped_of_fresh {c : Control} (h : c.state.scope = {}) :
    c.run.2.scope.skipped = c.history.any Deed.skips :=
  congrArg Scope.skipped (scope_of_fresh h)

/-- What a subtest prints comes together, its skip last, before what the test around it prints when it
goes on. -/
theorem printed_subtest (child : String) (inner rest : List Action) (env : Env) (s : State) :
    let inside := ofSubtest child inner env s
    let t := ((Action.subtest child inner).exec env s).2
    (run ⟨.subtest child inner :: rest, env, s⟩).2.world.printed =
      s.world.printed ++ inside.prints ++
        (if env.reporter = .printing ∧ inside.run.1.returns = true ∧
            inside.history.any Deed.skips = true then [.skipped inside.env.path] else []) ++
        if inside.run.1.returns then prints ⟨rest, env, t⟩ else [] := by
  intro inside t
  have hinside : inside.run.2.world.printed = s.world.printed ++ inside.prints := by
    have hstart : inside.state.world.printed = s.world.printed := by
      rcases env with ⟨_ | _, path, enclosing⟩ <;> rfl
    rw [inside.account.world.printed, hstart]
    rfl
  let w := env.reporter.tellExit inside.env.path inside.run.1 inside.run.2.world
  have hexit : w.printed = inside.run.2.world.printed := by
    simp only [w]
    cases env.reporter <;> cases inside.run.1 <;> rfl
  have hsubtest := exec_subtest child inner env s
  cases hr : inside.run.1.returns with
  | true =>
    have hexec : (Action.subtest child inner).exec env s = (.completed,
        ⟨s.scope.absorb inside.run.2.scope,
          env.reporter.tellSkipped inside.env.path inside.run.2.scope.skipped w⟩) := by
      rw [hsubtest]
      exact if_pos hr
    have hskip : (env.reporter.tellSkipped inside.env.path inside.run.2.scope.skipped w).printed =
        w.printed ++ if env.reporter = .printing ∧ inside.history.any Deed.skips = true
          then [.skipped inside.env.path] else [] := by
      rw [inside.skipped_of_fresh rfl]
      cases env.reporter <;> cases inside.history.any Deed.skips <;>
        simp [Reporter.tellSkipped, World.print]
    have hrest : (run ⟨rest, env, t⟩).2.world.printed =
        t.world.printed ++ prints ⟨rest, env, t⟩ := (account ⟨rest, env, t⟩).world.printed
    rw [run_cons, if_pos (congrArg Prod.fst hexec), hrest, show t = _ from congrArg Prod.snd hexec,
      hskip, hexit, hinside]
    simp
  | false =>
    have hexec : (Action.subtest child inner).exec env s = (inside.run.1, ⟨s.scope, w⟩) := by
      rw [hsubtest]
      exact if_neg (by simp [inside, hr])
    have hearly : inside.run.1 ≠ .completed := by
      intro hc
      rw [hc] at hr
      exact absurd hr (by decide)
    rw [run_cons, hexec, if_neg hearly, hexit, hinside]
    simp

end Control

theorem printed_runPrinting (name : String) (body : List Action) (w : World) :
    let c := Control.printing body w
    (runPrinting name body w).2.printed = w.printed ++ c.prints ++
      if c.run.1.returns = true ∧ c.run.2.scope.failed = false ∧ c.history.any Deed.skips = true
        then [.skipped .root] else [] := by
  intro c
  have hprinted : c.run.2.world.printed = w.printed ++ c.prints := c.account.world.printed
  rw [runPrinting_eq, ← printing_run, ← hprinted, ← c.skipped_of_fresh rfl]
  generalize c.run = r
  obtain ⟨ending, t⟩ := r
  cases ending with
  | panicked p => exact (List.append_nil _).symm
  | completed | exited =>
    cases hf : t.scope.failed <;> cases hs : t.scope.skipped <;>
      simp [hf, hs, Ending.returns, Reporter.tellSkipped, World.print]

theorem log_runSandboxed (body : List Action) (w : World) :
    let c := Control.sandboxed body w
    (runSandboxed body w).2.log = w.log ++
      (momentsAll .root c.history).filterMap (Moment.notice? .sandboxed) ++
      if c.run.1 = .exited then [.exitedEarly .root] else [] := by
  intro c
  have hlog : c.run.2.world.log = w.log ++
      (momentsAll .root c.history).filterMap (Moment.notice? .sandboxed) := c.account.world.log
  rw [runSandboxed_eq, ← sandboxed_run, ← hlog]
  generalize c.run = r
  obtain ⟨ending, t⟩ := r
  cases ending <;> simp [Reporter.tellExit, World.notify]

/-- Whatever is told is told when it happens, and what is recorded in the end are the failures that were
told, each in its place, without those of subtests that a panic has left. A test that prints writes a
block for each of its failures, a line for each skip with a message, and one after all of a subtest that
was skipped. A sandboxed test logs an event for each failure, also where it is kept apart. -/
theorem live_reports_match_record (name : String) (body : List Action) (w : World) :
    (∀ (a : Action) env s, World.Tells env.reporter (momentsAll env.path (a.deeds env s)) s.world
      (a.exec env s).2.world) ∧
    (∀ env s, ∃ failures,
      (execAll body env s).2.scope.failures = s.scope.failures ++ failures ∧
        KeptFrom (ownMoments env.path (deedsAll body env s)) failures) ∧
    (∀ child inner rest env s,
      let inside := Control.ofSubtest child inner env s
      let t := ((Action.subtest child inner).exec env s).2
      (Control.run ⟨.subtest child inner :: rest, env, s⟩).2.world.printed =
        s.world.printed ++ inside.prints ++
          (if env.reporter = .printing ∧ inside.run.1.returns = true ∧
              inside.history.any Deed.skips = true then [.skipped inside.env.path] else []) ++
          if inside.run.1.returns then Control.prints ⟨rest, env, t⟩ else []) ∧
    (let c := Control.printing body w
      let own := ownMoments .root c.history
      let r := runPrinting name body w
      r.2.output name = w.output name ++ String.join (own.filterMap (Moment.lines? name)) ++
        (if c.run.1.returns = true ∧ c.run.2.scope.failed = false ∧
          c.history.any Deed.skips = true then "--- SKIP: " ++ name ++ "\n" else "") ∧
      r.2.printed.filterMap Printed.failure? =
        w.printed.filterMap Printed.failure? ++ own.filterMap Moment.failure? ∧
      KeptFrom own c.run.2.scope.failures ∧
      (c.run.1.returns = true → c.run.2.scope.failed = true →
        r.1 = .error (.text (failureSummary name c.run.2.scope.failures)))) ∧
    (let c := Control.sandboxed body w
      let own := ownMoments .root c.history
      let r := runSandboxed body w
      let events (v : World) :=
        (v.log.map Notice.record).filter fun e => e.message = "sandboxed failure"
      events r.2 =
        events w ++ ((momentsAll .root c.history).filterMap Moment.failure?).map Entry.event ∧
      (own.filterMap (Moment.notice? .sandboxed)).filterMap Notice.failure? =
        own.filterMap Moment.failure? ∧
      KeptFrom own c.run.2.scope.failures ∧
      ∀ o, r.1 = .ok o → o = c.run.2.scope.outcome) := by
  refine ⟨fun a env s => (Deeds.Accounts.action a env s).world, fun env s => ?_,
    Control.printed_subtest, ?_, ?_⟩
  · exact ⟨_, congrArg Scope.failures (Deeds.Accounts.all body env s).scope, keptFrom_recorded ..⟩
  · intro c own r
    have hprinted : r.2.printed = _ := printed_runPrinting name body w
    have hlines : c.prints.map (·.lines name) = own.filterMap (Moment.lines? name) :=
      lines_of_printed name _
    have hfailures : c.prints.filterMap Printed.failure? = own.filterMap Moment.failure? :=
      failures_of_printed _
    refine ⟨?_, ?_, Control.keptFrom_of_fresh rfl, fun hr hf => ?_⟩
    · rw [World.output, hprinted, List.map_append, List.map_append, String.join_append,
        String.join_append, hlines]
      congr 1
      split <;> rfl
    · rw [hprinted, List.filterMap_append, List.filterMap_append, hfailures]
      split <;> exact List.append_nil _
    · exact runPrinting_error_iff.mpr (.inr ⟨hr, hf, rfl⟩)
  · intro c own r events
    have hlog : r.2.log = _ := log_runSandboxed body w
    refine ⟨?_, failures_of_noticed _, Control.keptFrom_of_fresh rfl, fun o ho => ?_⟩
    · simp only [events]
      rw [hlog, List.map_append, List.map_append, List.filter_append, List.filter_append,
        events_of_failures (List.filterMap _ _), failures_of_noticed]
      split <;> exact List.append_nil _
    · rw [show r = _ from runSandboxed_eq body w, ← sandboxed_run] at ho
      revert ho
      generalize c.run = q
      obtain ⟨ending, u⟩ := q
      cases ending <;> simp [eq_comm]

/-- A subtest goes on after a skip that it caught, and fails before the test around it does. -/
theorem live_reports_match_record_nested :
    let body : List Action := [.subtest "a" [.catching [.skip "b"] false, .fail "x"], .fail "y"]
    let w : World := {}
    let c := Control.printing body w
    let own := ownMoments .root c.history
    let failures : List Entry := [⟨⟨["a"]⟩, "x"⟩, ⟨.root, "y"⟩]
    let o : Outcome := ⟨true, false, failures, [⟨⟨["a"]⟩, "b"⟩]⟩
    ((∀ m ∈ own, m.panics = false) ∧ c.run.2.scope.failures = own.filterMap Moment.failure?) ∧
    (c.run.1.returns = true ∧ c.run.2.scope.failed = true ∧
      (runPrinting "t" body w).1 = .error (.text (failureSummary "t" failures))) ∧
    (runSandboxed body w).1 = .ok o ∧ o = (Control.sandboxed body w).run.2.scope.outcome := by
  intro body w c own failures o
  obtain ⟨-, -, -, ⟨-, -, hkept, hsummary⟩, -, -, -, houtcome⟩ :=
    live_reports_match_record "t" body w
  have hcalm : ∀ m ∈ own, m.panics = false := by decide
  have hok : (runSandboxed body w).1 = .ok o := rfl
  exact ⟨⟨hcalm, hkept.2 hcalm⟩, ⟨rfl, rfl, hsummary rfl rfl⟩, hok, houtcome o hok⟩

end Testkit
