import Testkit.Proofs.Body.Accounts
import Testkit.Proofs.Body.Receipts
import Testkit.Proofs.Channel.Arrivals

/-! What the checks of channels make of the values that come by the deadline, and what a test has of
them: a check that holds leaves its scope as it was, and one that does not adds its failure and the
context. -/

namespace Testkit

namespace ChannelCheck

/-- Whether the channel is as the check has it by `deadline`. -/
def Met (check : ChannelCheck) (c : Channel) (deadline : Instant) : Prop :=
  match check with
  | .value => c.arrivals deadline ≠ []
  | .noMoreValues => c.arrivals deadline = [] ∧ ¬ c.AbandonedBy deadline
  | .closed => c.arrivals deadline = [] ∧ c.AbandonedBy deadline
  | .notClosed => ¬ c.AbandonedBy deadline

instance (check : ChannelCheck) (c : Channel) (deadline : Instant) :
    Decidable (check.Met c deadline) :=
  match check with
  | .value => inferInstanceAs (Decidable (¬ _))
  | .noMoreValues => inferInstanceAs (Decidable (_ ∧ _))
  | .closed => inferInstanceAs (Decidable (_ ∧ _))
  | .notClosed => inferInstanceAs (Decidable (¬ _))

/-- The checks that receive once. -/
def oneShot : List ChannelCheck := [.value, .noMoreValues, .closed]

theorem met_one (c : Channel) (deadline : Instant) :
    ∃ check ∈ oneShot, ∀ other ∈ oneShot, other.Met c deadline ↔ other = check := by
  by_cases hn : c.arrivals deadline = []
  · by_cases ha : c.AbandonedBy deadline
    · exact ⟨.closed, by decide, by simp [oneShot, Met, hn, ha]⟩
    · exact ⟨.noMoreValues, by decide, by simp [oneShot, Met, hn, ha]⟩
  · exact ⟨.value, by decide, by simp [oneShot, Met, hn]⟩

variable {check : ChannelCheck} {c : Channel} {deadline : Instant}

theorem accepts_offers_iff (hc : check ∈ oneShot) :
    check.Accepts (c.offers deadline) ↔ check.Met c deadline := by
  rw [Channel.offers]
  cases hv : c.arrivals deadline with
  | cons v rest =>
    cases check with
    | notClosed => simp [oneShot] at hc
    | _ => simp [Accepts, Met, hv, Received.value?]
  | nil =>
    by_cases ha : c.AbandonedBy deadline
    · cases check with
      | notClosed => simp [oneShot] at hc
      | _ => simp [Accepts, Met, hv, ha, Received.value?]
    · cases check with
      | notClosed => simp [oneShot] at hc
      | _ => simp [Accepts, Met, hv, ha, Received.value?]

theorem act_oneShot (hc : check ∈ oneShot) (c : Channel) (now : Instant) (timeout : Duration)
    (context : Option String) :
    c.act now (.check check timeout context) =
      ((c.receive now (now + timeout.nanos)).2.1, (c.receive now (now + timeout.nanos)).2.2,
        check.ruling c.kind timeout context (c.receive now (now + timeout.nanos)).1) := by
  rw [← verdict_eq_ruling]
  cases check with
  | notClosed => simp [oneShot] at hc
  | _ => rfl

end ChannelCheck

def Reaction.seen : Reaction → List Observation
  | .observe o => [o]
  | _ => []

def Reaction.ending : Reaction → Ending
  | .goOn | .observe _ => .completed
  | .failNow => .exited
  | .panic payload => .panicked payload

/-- What a call on a channel leaves of what a test finds in `s`: failures with these messages at the path
of the test itself, which are told as they are recorded; what was seen of the call; and the channel and
the time as they are then. -/
structure Aftermath (env : Env) (s : State) (messages : List String) (seen : List Observation)
    (name : String) (d : Channel) (later : Instant) (t : State) : Prop where
  scope : t.scope =
    if messages = [] then s.scope
    else { s.scope with
      failedHere := true
      failed := true
      failures := s.scope.failures ++ messages.map fun m => ⟨env.path, m⟩ }
  trace : t.world.trace = s.world.trace ++ seen
  log : t.world.log = s.world.log ++
    if env.reporter = .sandboxed then messages.map (Notice.failure env.path) else []
  printed : t.world.printed = s.world.printed ++
    if env.reporter = .printing then messages.map (Printed.failure env.path) else []
  channels : ∀ other, t.world.channels.lookup other =
    if other = name then some d else s.world.channels.lookup other
  now : t.world.now = later

/-- A test that fails at once says why. -/
def Verdict.Explained (v : Verdict) : Prop := v.reaction = .failNow → v.failures ≠ []

namespace Exec

theorem scope_recordAll (messages : List String) (env : Env) (s : State) :
    (recordAll messages env s).2.scope =
      if messages = [] then s.scope
      else { s.scope with
        failedHere := true
        failed := true
        failures := s.scope.failures ++ messages.map fun m => ⟨env.path, m⟩ } := by
  induction messages generalizing s with
  | nil => rfl
  | cons m ms ih =>
    let t : State :=
      ⟨s.scope.recordFailure env.path m, env.reporter.tellFailure env.path m s.world⟩
    have hnext : recordAll (m :: ms) env s = recordAll ms env t := rfl
    rw [hnext, ih t, if_neg (List.cons_ne_nil m ms)]
    by_cases hms : ms = []
    · simp [hms, t, Scope.recordFailure, Scope.markFailed]
    · simp [hms, t, Scope.recordFailure, Scope.markFailed]

theorem world_recordAll (messages : List String) (env : Env) (s : State) :
    let w := (recordAll messages env s).2.world
    w.trace = s.world.trace ∧
      w.log = s.world.log ++
        (if env.reporter = .sandboxed then messages.map (Notice.failure env.path) else []) ∧
      w.printed = s.world.printed ++
        (if env.reporter = .printing then messages.map (Printed.failure env.path) else []) ∧
      w.channels = s.world.channels ∧ w.now = s.world.now := by
  intro w
  induction messages generalizing s with
  | nil => simp [w, recordAll, done]
  | cons m ms ih =>
    let t : State :=
      ⟨s.scope.recordFailure env.path m, env.reporter.tellFailure env.path m s.world⟩
    obtain ⟨htrace, hlog, hprinted, hchannels, hnow⟩ := ih t
    have hnext : w = (recordAll ms env t).2.world := rfl
    rw [hnext, htrace, hlog, hprinted, hchannels, hnow]
    cases hr : env.reporter <;>
      simp [t, hr, Reporter.tellFailure, World.notify, World.print]

theorem react_eq (r : Reaction) (env : Env) (s : State) :
    react r env s = (r.ending,
      ⟨if r = .failNow then s.scope.markFailed else s.scope,
        { s.world with trace := s.world.trace ++ r.seen }⟩) := by
  cases r <;> simp [react, done, observe, leave, failNow, Reaction.ending, Reaction.seen,
    World.observe]

end Exec

/-- How a call goes on that says so of its channel. -/
theorem exec_channel (env : Env) {s : State} {name : String} {c d : Channel} {op : ChannelOp}
    {later : Instant} {v : Verdict} (hc : s.world.channels.lookup name = some c)
    (hact : c.act s.world.now op = (d, later, v)) (hv : v.Explained) :
    ∃ t, (Action.channel name op).exec env s = (v.reaction.ending, t) ∧
      Aftermath env s v.failures v.reaction.seen name d later t := by
  let u : State := ⟨s.scope, { s.world.setChannel name d with now := later }⟩
  let told := (Exec.recordAll v.failures env u).2
  have hact' : s.world.act name op = (u.world, v) := by rw [World.act_of_lookup hc, hact]
  have hexec : (Action.channel name op).exec env s = Exec.react v.reaction env told := by
    have hfollow : (Action.channel name op).exec env s = Exec.follow v env u := by
      simp only [Action.exec, Exec.channel, hact', u]
    rw [hfollow, Exec.follow, Exec.andThen_eq, if_pos (Exec.recordAll_completes _ env u)]
  have hscope := Exec.scope_recordAll v.failures env u
  obtain ⟨htrace, hlog, hprinted, hchannels, hnow⟩ := Exec.world_recordAll v.failures env u
  rw [hexec, Exec.react_eq]
  refine ⟨_, rfl, ?_, ?_, hlog, hprinted, fun other => ?_, hnow⟩
  · by_cases hr : v.reaction = .failNow
    · have hne := hv hr
      rw [if_neg hne] at hscope ⊢
      simp only [hr, if_true, told, hscope, Scope.markFailed, u]
    · simp only [hr, if_false, told, hscope, u]
  · exact congrArg (· ++ v.reaction.seen) htrace
  · have hlookup := s.world.lookup_setChannel name other d
    rw [hc, Option.map_some] at hlookup
    exact (congrArg (List.lookup other) hchannels).trans hlookup

theorem execAll_cons_of_completed {a : Action} {env : Env} {s t : State}
    (h : a.exec env s = (.completed, t)) (rest : List Action) :
    execAll (a :: rest) env s = execAll rest env t := by
  rw [execAll, Exec.andThen_eq, h, if_pos rfl]

theorem execAll_cons_of_stopped {a : Action} {env : Env} {s t : State} {ending : Ending}
    (h : a.exec env s = (ending, t)) (he : ending ≠ .completed) (rest : List Action) :
    execAll (a :: rest) env s = (ending, t) := by
  rw [execAll, Exec.andThen_eq, h, if_neg he]

/-- Of the checks that receive once exactly one holds, whatever comes to the channel and whenever its
senders leave, if only the calls return: a value comes by the deadline, or none comes and a sender is
left, or none is. In each case a value that comes is taken. The check that holds answers and has nothing
recorded. Each of the others has its one failure recorded at the path of the test itself, and then the
context if there is one. The check for a value ends the test with that, and the other ones let it go
on. -/
theorem one_shot_checks_split (env : Env) (s : State) {name : String} {c : Channel}
    (hc : s.world.channels.lookup name = some c) {timeout : Duration} {deadline : Instant}
    (hreturns : c.ReturnsBy s.world.now timeout deadline) :
    let received := c.offers deadline
    (∃ check ∈ ChannelCheck.oneShot, ∀ other ∈ ChannelCheck.oneShot,
      other.Met c deadline ↔ other = check) ∧
    ∀ check ∈ ChannelCheck.oneShot, ∀ context : Option String,
      let call : Action := .channel name (.check check timeout context)
      ∃ d later t, c.arrivals deadline = received.value?.toList ++ d.arrivals deadline ∧
        if check.Met c deadline then
          (∀ rest, execAll (call :: rest) env s = execAll rest env t) ∧
            Aftermath env s [] [check.answer received] name d later t
        else
          let messages := check.reproach c.kind timeout received :: context.toList
          if check = .value then
            (∀ rest, execAll (call :: rest) env s = (.exited, t)) ∧
              Aftermath env s messages [] name d later t
          else
            (∀ rest, execAll (call :: rest) env s = execAll rest env t) ∧
              Aftermath env s messages [.held false] name d later t := by
  intro received
  refine ⟨ChannelCheck.met_one c deadline, fun check hcheck context => ?_⟩
  intro call
  obtain rfl := hreturns.deadline_eq
  have hnow : s.world.now ≤ s.world.now + timeout.nanos := Nat.le_add_right _ _
  obtain ⟨hreceive, htaken⟩ := c.receive_eq_offers hnow
  have hact := ChannelCheck.act_oneShot hcheck c s.world.now timeout context
  rw [hreceive, ChannelCheck.ruling] at hact
  have haccepts : check.Accepts (c.offers (s.world.now + timeout.nanos)) ↔
      check.Met c (s.world.now + timeout.nanos) := ChannelCheck.accepts_offers_iff hcheck
  by_cases hm : check.Met c (s.world.now + timeout.nanos)
  · rw [if_pos (haccepts.mpr hm)] at hact
    obtain ⟨t, hexec, hafter⟩ := exec_channel env hc hact fun h => by cases h
    refine ⟨_, (c.receive s.world.now (s.world.now + timeout.nanos)).2.2, t, htaken, ?_⟩
    rw [if_pos hm]
    exact ⟨execAll_cons_of_completed hexec, hafter⟩
  · rw [if_neg (mt haccepts.mp hm)] at hact
    obtain ⟨t, hexec, hafter⟩ := exec_channel env hc hact fun _ => List.cons_ne_nil _ _
    refine ⟨_, (c.receive s.world.now (s.world.now + timeout.nanos)).2.2, t, htaken, ?_⟩
    rw [if_neg hm]
    by_cases hvalue : check = .value
    · simp only [if_pos hvalue] at hexec hafter ⊢
      exact ⟨execAll_cons_of_stopped hexec (by simp), hafter⟩
    · simp only [if_neg hvalue] at hexec hafter ⊢
      exact ⟨execAll_cons_of_completed hexec, hafter⟩

/-- A value that passes without a buffer after another sender left without one, a channel that is over,
and one to which nothing comes, each with a check that does not hold. -/
theorem one_shot_checks_split_late :
    let late : Channel := ⟨.int32, some 0, [], false, [⟨3, none⟩, ⟨4, some (.int32 7)⟩, ⟨6, none⟩]⟩
    let ended : Channel := ⟨.unit, none, [], false, []⟩
    let idle : Channel := ⟨.nat64, some 1, [], true, []⟩
    let s : State := ⟨{}, ⟨[], [], [], [("a", late), ("b", ended), ("c", idle)], 0⟩⟩
    let env : Env := ⟨.sandboxed, ⟨["d"]⟩, [{}]⟩
    let fails (name : String) (check : ChannelCheck) (timeout : Duration) (text : String) : Prop :=
      ∃ t, execAll [.channel name (.check check timeout (some ""))] env s =
          (if check = .value then .exited else .completed, t) ∧
        t.scope.failures = [⟨⟨["d"]⟩, text⟩, ⟨⟨["d"]⟩, ""⟩]
    fails "a" .closed Duration.max "expected no more i32 values from channel but got one: 7" ∧
      fails "b" .value ⟨5⟩ "expected a () value from channel but the channel was closed" ∧
      fails "b" .noMoreValues ⟨5⟩ "channel was unexpectedly closed" ∧
      fails "c" .value ⟨5⟩ "expected a u64 value from channel but did not receive one in 5ns" ∧
      fails "c" .closed ⟨5⟩ "expected channel to be closed within 5ns but it was not" := by
  intro late ended idle s env fails
  have hfails {name : String} {c : Channel} {check : ChannelCheck} {timeout : Duration}
      {deadline : Instant} (hc : s.world.channels.lookup name = some c)
      (hreturns : c.ReturnsBy 0 timeout deadline) (hcheck : check ∈ ChannelCheck.oneShot)
      (hm : ¬ check.Met c deadline) :
      fails name check timeout (check.reproach c.kind timeout (c.offers deadline)) := by
    obtain ⟨d, later, t, -, h⟩ := (one_shot_checks_split env s hc hreturns).2 check hcheck (some "")
    rw [if_neg hm] at h
    refine ⟨t, ?_⟩
    by_cases hvalue : check = .value
    · rw [if_pos hvalue] at h ⊢
      exact ⟨h.1 [], congrArg Scope.failures h.2.scope⟩
    · rw [if_neg hvalue] at h ⊢
      exact ⟨h.1 [], congrArg Scope.failures h.2.scope⟩
  have hlate : late.ReturnsBy 0 Duration.max (0 + Duration.max.nanos) := .untimed (by decide)
  have hended : ended.ReturnsBy 0 ⟨5⟩ 5 := .inTime (by decide)
  have hidle : idle.ReturnsBy 0 ⟨5⟩ 5 := .inTime (by decide)
  exact ⟨hfails rfl hlate (by decide) (by decide), hfails rfl hended (by decide) (by decide),
    hfails rfl hended (by decide) (by decide), hfails rfl hidle (by decide) (by decide),
    hfails rfl hidle (by decide) (by decide)⟩

/-- The check that a channel stays open takes all values that come by the deadline, in their order, and
answers whether a sender is left then, as receiving with the time that is left would until something
other than a value comes. If none is left, it has its failure recorded and then the context if there is
one; the test goes on in any case. It takes and records nothing if the clock cannot show the deadline,
and panics. -/
theorem open_check_takes_all (env : Env) (s : State) {name : String} {c : Channel}
    (hc : s.world.channels.lookup name = some c) (timeout : Duration) (context : Option String) :
    let now := s.world.now
    let op : ChannelOp := .check .notClosed timeout context
    let call : Action := .channel name op
    (∀ deadline, deadline? now timeout = some deadline →
      let stays : Bool := ¬ c.AbandonedBy deadline
      let d := c.emptied deadline
      ∃ later t,
        (∀ rest, execAll (call :: rest) env s = execAll rest env t) ∧
        Aftermath env s
          (if stays then [] else "channel was unexpectedly closed" :: context.toList)
          [.held stays] name d later t ∧
        c.taken now op = c.arrivals deadline ∧ d.buffer = [] ∧
        (c.Ordered → c.arrivals deadline =
          c.buffer ++ LateSender.values (c.late.filter (·.due ≤ deadline))) ∧
        Channel.ReceivesUntil deadline c now (c.arrivals deadline)
          (if stays then .timedOut else .closed) d later) ∧
    (deadline? now timeout = none →
      ∃ t, (∀ rest, execAll (call :: rest) env s = (.panicked (.text deadlineOverflow), t)) ∧
        Aftermath env s [] [] name c now t ∧ c.taken now op = []) := by
  intro now op call
  refine ⟨fun deadline hd => ?_, fun hd => ?_⟩
  · intro stays d
    have hnow : now ≤ deadline := deadline?_eq_some hd ▸ Nat.le_add_right _ _
    obtain ⟨htaken, hdrain⟩ := c.drain_eq hnow
    have hreceives := c.receivesUntil_drain hnow
    have hact : c.act now op = (d, (c.drain now deadline).2.2,
        ⟨if stays then [] else "channel was unexpectedly closed" :: context.toList,
          .observe (.held stays)⟩) := by
      simp only [op, Channel.act, Channel.check, hd, ChannelCheck.verdict_eq_ruling,
        ChannelCheck.ruling_notClosed]
      rw [hdrain]
      by_cases ha : c.AbandonedBy deadline
      · simp [stays, ha, d]
      · simp [stays, ha, d]
    obtain ⟨t, hexec, hafter⟩ := exec_channel env hc hact fun h => by cases h
    have hsees : c.taken now op = c.arrivals deadline := by
      simpa only [op, Channel.taken, Channel.sees, hd] using htaken
    refine ⟨_, t, execAll_cons_of_completed hexec, hafter, hsees, rfl,
      fun ho => Channel.arrivals_of_ordered ho deadline, ?_⟩
    by_cases ha : c.AbandonedBy deadline
    · simpa [stays, ha] using hreceives
    · simpa [stays, ha] using hreceives
  · have hact : c.act now op = (c, now, ⟨[], .panic (.text deadlineOverflow)⟩) := by
      simp only [op, Channel.act, Channel.check, hd]
    obtain ⟨t, hexec, hafter⟩ := exec_channel env hc hact fun h => by cases h
    have hsees : c.taken now op = [] := by
      simp only [op, Channel.taken, Channel.sees, hd, List.filterMap_nil]
    exact ⟨t, execAll_cons_of_stopped hexec (by simp), hafter, hsees⟩

/-- A full channel with two more values to come and a sender that leaves without one, and the same check
with a timeout that is too long for the clock. -/
theorem open_check_takes_all_of_full :
    let c : Channel := ⟨.int32, some 1, [.int32 1], false,
      [⟨2, some (.int32 2)⟩, ⟨2, some (.int32 5)⟩, ⟨4, none⟩]⟩
    let s : State := ⟨{}, ⟨[], [], [], [("a", c)], 0⟩⟩
    let env : Env := .top .printing
    deadline? 0 ⟨4⟩ = some 4 ∧ deadline? 0 Duration.max = none ∧
      c.taken 0 (.check .notClosed ⟨4⟩ (some "b")) = [.int32 1, .int32 2, .int32 5] ∧
      (∃ t, execAll [.channel "a" (.check .notClosed ⟨4⟩ (some "b"))] env s = (.completed, t) ∧
        t.scope.failures = [⟨.root, "channel was unexpectedly closed"⟩, ⟨.root, "b"⟩] ∧
        t.world.trace = [.held false]) ∧
      ∃ t, execAll [.channel "a" (.check .notClosed Duration.max (some "b"))] env s =
          (.panicked (.text "overflow when adding duration to instant"), t) ∧
        t.world.channels.lookup "a" = some c := by
  intro c s env
  have hc : s.world.channels.lookup "a" = some c := rfl
  have hshort : deadline? 0 ⟨4⟩ = some 4 := by decide
  have hlong : deadline? 0 Duration.max = none := by decide
  obtain ⟨later, t, hgoesOn, hafter, htaken, -⟩ :=
    (open_check_takes_all env s hc ⟨4⟩ (some "b")).1 4 hshort
  obtain ⟨u, hstops, hleft, -⟩ := (open_check_takes_all env s hc Duration.max (some "b")).2 hlong
  exact ⟨hshort, hlong, htaken, ⟨t, hgoesOn [], congrArg Scope.failures hafter.scope, hafter.trace⟩,
    u, hstops [], hleft.channels "a"⟩

end Testkit
