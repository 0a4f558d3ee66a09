import Testkit.Body.Run
import Testkit.Proofs.Body.Calls

/-! The values that pass through the channels of a run. What a channel accepts comes after what waits in
it, and calls take from the front, so that at any time the values that it has accepted are those that
were taken and then those that still wait. -/

namespace Testkit

namespace World

theorem lookup_setChannel (w : World) (name other : String) (c : Channel) :
    (w.setChannel name c).channels.lookup other =
      if other = name then (w.channels.lookup name).map fun _ => c
      else w.channels.lookup other := by
  simp only [setChannel]
  induction w.channels with
  | nil => simp
  | cons e rest ih =>
    obtain ⟨key, d⟩ := e
    by_cases hk : key = name
    · subst hk
      by_cases ho : other = key
      · simp [ho]
      · rw [if_neg ho] at ih ⊢
        simp [List.lookup_cons, beq_false_of_ne ho, ih]
    · by_cases ho : other = key
      · subst ho
        simp [hk]
      · by_cases hn : other = name
        · subst hn
          rw [if_pos rfl] at ih ⊢
          simp [List.lookup_cons, hk, beq_false_of_ne ho, ih]
        · rw [if_neg hn] at ih ⊢
          simp [List.lookup_cons, hk, beq_false_of_ne ho, ih]

/-- The values that wait in a channel. -/
def waiting (w : World) (name : String) : List Item :=
  (w.channels.lookup name).elim [] Channel.buffer

theorem waiting_of_unseen {w v : World} (h : w.unseen = v.unseen) (name : String) :
    w.waiting name = v.waiting name := by
  rw [waiting, waiting, (unseen_eq_iff.mp h).1]

theorem act_of_lookup {w : World} {name : String} {c : Channel}
    (h : w.channels.lookup name = some c) (op : ChannelOp) :
    w.act name op = ({ w.setChannel name (c.act w.now op).1 with now := (c.act w.now op).2.1 },
      (c.act w.now op).2.2) := by
  simp only [act, h]

theorem act_of_lookup_eq_none {w : World} {name : String} (h : w.channels.lookup name = none)
    (op : ChannelOp) : w.act name op = (w, {}) := by
  simp only [act, h]

theorem lookup_act {w : World} {name : String} {c : Channel}
    (h : w.channels.lookup name = some c) (op : ChannelOp) :
    (w.act name op).1.channels.lookup name = some (c.act w.now op).1 := by
  have hs := w.lookup_setChannel name name (c.act w.now op).1
  rw [if_pos rfl, h] at hs
  rw [act_of_lookup h]
  exact hs

theorem lookup_act_of_ne (w : World) {name other : String} (ho : other ≠ name) (op : ChannelOp) :
    (w.act name op).1.channels.lookup other = w.channels.lookup other := by
  cases h : w.channels.lookup name with
  | none => rw [act_of_lookup_eq_none h]
  | some c =>
    have hs := w.lookup_setChannel name other (c.act w.now op).1
    rw [if_neg ho] at hs
    rw [act_of_lookup h]
    exact hs

end World

namespace Call

def channel? (k : Call) : Option Channel := k.world.channels.lookup k.name

/-- What the channel accepts during the call, if the call is on that channel. -/
def accepted (name : String) (k : Call) : List Item :=
  if k.name = name then k.channel?.elim [] fun c => c.accepted k.world.now k.op else []

def taken (name : String) (k : Call) : List Item :=
  if k.name = name then k.channel?.elim [] fun c => c.taken k.world.now k.op else []

theorem conserves (k : Call) (name : String) :
    k.world.waiting name ++ k.accepted name =
      k.taken name ++ (k.world.act k.name k.op).1.waiting name := by
  by_cases hn : k.name = name
  · subst hn
    rw [accepted, taken, if_pos rfl, if_pos rfl, channel?]
    cases hc : k.world.channels.lookup k.name with
    | none => simp [World.act_of_lookup_eq_none hc]
    | some c =>
      rw [World.waiting, World.waiting, World.lookup_act hc, hc]
      exact c.buffer_act k.world.now k.op
  · have ho : name ≠ k.name := fun h => hn h.symm
    rw [accepted, taken, if_neg hn, if_neg hn, World.waiting, World.waiting,
      World.lookup_act_of_ne _ ho, List.append_nil, List.nil_append]

end Call

theorem Chained.conserves {w v : World} {ks : List Call} (h : Chained w ks v) (name : String) :
    w.waiting name ++ ks.flatMap (·.accepted name) =
      ks.flatMap (·.taken name) ++ v.waiting name := by
  induction h with
  | done h => simp [World.waiting_of_unseen h]
  | @call w v k ks hw h ih =>
    rw [List.flatMap_cons, List.flatMap_cons, World.waiting_of_unseen hw, ← List.append_assoc,
      k.conserves, List.append_assoc, ih, List.append_assoc]

/-- The first calls of a run lead to what the next one finds. -/
theorem Chained.conserves_before {w v : World} {ks ls : List Call} {k : Call}
    (h : Chained w (ks ++ k :: ls) v) (name : String) :
    w.waiting name ++ ks.flatMap (·.accepted name) =
      ks.flatMap (·.taken name) ++ k.world.waiting name :=
  h.before.conserves name

namespace Control

/-- Whether control comes to this call. -/
def Makes (c : Control) (k : Call) : Prop :=
  ∃ frames rest env t, c.Reaches frames ⟨.channel k.name k.op :: rest, env, t⟩ ∧ k.world = t.world

/-- Whether an action is this call, or control comes to the call inside of it. -/
def MakesIn (a : Action) (env : Env) (s : State) (k : Call) : Prop :=
  (a = .channel k.name k.op ∧ k.world = s.world) ∨ ∃ f c, Opens f a env s c ∧ c.Makes k

theorem makes_nil (env : Env) (s : State) (k : Call) : ¬ Makes ⟨[], env, s⟩ k := by
  rintro ⟨frames, rest, env', t, h, -⟩
  cases h

theorem makes_cons {a : Action} {rest : List Action} {env : Env} {s : State} {k : Call} :
    Makes ⟨a :: rest, env, s⟩ k ↔
      MakesIn a env s k ∨
        (a.exec env s).1 = .completed ∧ Makes ⟨rest, env, (a.exec env s).2⟩ k := by
  constructor
  · rintro ⟨frames, rest', env', t, h, hw⟩
    cases h with
    | here => exact .inl (.inl ⟨rfl, hw⟩)
    | next ha h =>
      rw [ha]
      exact .inr ⟨rfl, frames, rest', env', t, h, hw⟩
    | @inside f frames _ _ _ _ c _ ho h => exact .inl (.inr ⟨f, c, ho, frames, rest', env', t, h, hw⟩)
  · rintro ((⟨rfl, hw⟩ | ⟨f, c, ho, frames, rest', env', t, h, hw⟩) |
      ⟨ha, frames, rest', env', t, h, hw⟩)
    · exact ⟨[], rest, env, s, .here _, hw⟩
    · exact ⟨f :: frames, rest', env', t, .inside ho h, hw⟩
    · exact ⟨frames, rest', env', t, .next (Prod.ext ha rfl) h, hw⟩

theorem makesIn_of_opens {f : Frame} {a : Action} {env : Env} {s : State} {c : Control}
    (ho : Opens f a env s c) (hu : ∀ g d, Opens g a env s d → d = c) {k : Call} :
    MakesIn a env s k ↔ c.Makes k := by
  constructor
  · rintro (⟨rfl, -⟩ | ⟨g, d, hd, h⟩)
    · cases ho
    · exact hu g d hd ▸ h
  · exact fun h => .inr ⟨f, c, ho, h⟩

theorem makes_singleton {a : Action} {env : Env} {s : State} {k : Call} :
    Makes ⟨[a], env, s⟩ k ↔ MakesIn a env s k := by
  rw [makes_cons]
  exact or_iff_left fun h => makes_nil _ _ _ h.2

end Control

namespace Calls

open Control

theorem mem_times {a : Exec} {x : Calls} {n : Nat} {env : Env} {s : State} {k : Call} :
    k ∈ times a x n env s ↔
      ∃ i t, i < n ∧ Exec.times i a env s = (.completed, t) ∧ k ∈ x env t := by
  induction n generalizing s with
  | zero => simp [times, none]
  | succ n ih =>
    rw [times, andThen, List.mem_append]
    constructor
    · rintro (hk | hk)
      · exact ⟨0, s, Nat.succ_pos n, rfl, hk⟩
      · by_cases ha : (a env s).1 = .completed
        · rw [if_pos ha, ih] at hk
          obtain ⟨i, t, hi, ht, hk⟩ := hk
          refine ⟨i + 1, t, Nat.succ_lt_succ hi, ?_, hk⟩
          rw [Exec.times, Exec.andThen_eq, if_pos ha, ht]
        · rw [if_neg ha] at hk
          cases hk
    · rintro ⟨i, t, hi, ht, hk⟩
      cases i with
      | zero =>
        obtain rfl : s = t := congrArg Prod.snd ht
        exact .inl hk
      | succ i =>
        rw [Exec.times, Exec.andThen_eq] at ht
        by_cases ha : (a env s).1 = .completed
        · rw [if_pos ha] at ht
          rw [if_pos ha, ih]
          exact .inr ⟨i, t, Nat.lt_of_succ_lt_succ hi, ht, hk⟩
        · rw [if_neg ha] at ht
          exact absurd (congrArg Prod.fst ht) ha

theorem mem_nest {body : List Action}
    (hbody : ∀ env s k, k ∈ callsAll body env s ↔ Makes ⟨body, env, s⟩ k) (names : List String) :
    ∀ env s k, k ∈ names.foldr Calls.subtest (callsAll body) env s ↔
      MakesIn (.nest names body) env s k := by
  induction names with
  | nil =>
    intro env s k
    exact (hbody env s k).trans (makesIn_of_opens (.nested body env s) (by rintro _ _ ⟨⟩; rfl)).symm
  | cons name names ih =>
    intro env s k
    refine Iff.trans ?_ (makesIn_of_opens (.nest name names body env s) (by rintro _ _ ⟨⟩; rfl)).symm
    exact (ih _ _ k).trans makes_singleton.symm

mutual

theorem mem_calls : (a : Action) → ∀ env s k, k ∈ a.calls env s ↔ MakesIn a env s k
  | .fail _ | .check _ | .require _ | .skip _ | .failNow | .failed | .mark _ | .raise _
  | .outcome => by
    intro env s k
    refine ⟨fun h => absurd h List.not_mem_nil, ?_⟩
    rintro (⟨⟨⟩, -⟩ | ⟨f, c, ⟨⟩, -⟩)
  | .subtest name body => fun env s k =>
    (mem_callsAll body _ _ k).trans
      (makesIn_of_opens (.subtest name body env s) (by rintro _ _ ⟨⟩; rfl)).symm
  | .nest names body => mem_nest (mem_callsAll body) names
  | .repeated n body => by
    intro env s k
    refine mem_times.trans ⟨?_, ?_⟩
    · rintro ⟨i, t, hi, ht, hk⟩
      exact .inr ⟨_, _, .repeated hi ht, (mem_callsAll body env t k).mp hk⟩
    · rintro (⟨⟨⟩, -⟩ | ⟨f, c, ho, h⟩)
      cases ho with
      | repeated hi ht => exact ⟨_, _, hi, ht, (mem_callsAll body env _ k).mpr h⟩
  | .thread body => fun env s k =>
    (mem_callsAll body _ _ k).trans
      (makesIn_of_opens (.thread body env s) (by rintro _ _ ⟨⟩; rfl)).symm
  | .catching body rethrow => fun env s k =>
    (mem_callsAll body _ _ k).trans
      (makesIn_of_opens (.catching body rethrow env s) (by rintro _ _ ⟨⟩; rfl)).symm
  | .expect e body => fun env s k =>
    (mem_callsAll body _ _ k).trans
      (makesIn_of_opens (.expect e body env s) (by rintro _ _ ⟨⟩; rfl)).symm
  | .sandbox body => fun env s k =>
    (mem_callsAll body _ _ k).trans
      (makesIn_of_opens (.sandbox body env s) (by rintro _ _ ⟨⟩; rfl)).symm
  | .channel name op => by
    intro env s k
    constructor
    · intro h
      obtain rfl := List.mem_singleton.mp h
      exact .inl ⟨rfl, rfl⟩
    · rintro (⟨h, hw⟩ | ⟨f, c, ⟨⟩, -⟩)
      obtain ⟨rfl, rfl⟩ := Action.channel.inj h
      obtain ⟨name, op, world⟩ := k
      obtain rfl : world = s.world := hw
      exact List.mem_singleton_self _

theorem mem_callsAll : (body : List Action) → ∀ env s k,
    k ∈ callsAll body env s ↔ Makes ⟨body, env, s⟩ k
  | [] => fun env s k => ⟨fun h => absurd h List.not_mem_nil, fun h => absurd h (makes_nil env s k)⟩
  | a :: rest => by
    intro env s k
    rw [makes_cons, ← mem_calls a env s k, callsAll, andThen, List.mem_append]
    refine or_congr_right ?_
    by_cases ha : (a.exec env s).1 = .completed
    · rw [if_pos ha]
      exact (mem_callsAll rest env _ k).trans ⟨fun h => ⟨ha, h⟩, And.right⟩
    · rw [if_neg ha]
      exact ⟨fun h => absurd h List.not_mem_nil, fun h => absurd h.1 ha⟩

end

end Calls

/-- While a body runs, the values that a channel has accepted are at any time those that calls have
taken, in the same order, and then those that wait in it. The calls are all those that control comes
to, wherever in the body they are and however they end. Each receives as often as its kind of call
does, and speaks of what it received: the check for a value gives it, and the other ones name it. If it
says what it would say of a closed channel, then no sender is left, and all that the channel has accepted
is taken. -/
theorem values_pass_once (body : List Action) (env : Env) (s : State) (name : String) :
    let calls := callsAll body env s
    let accepted (ks : List Call) := s.world.waiting name ++ ks.flatMap (·.accepted name)
    let taken (ks : List Call) := ks.flatMap (·.taken name)
    (∀ k, k ∈ calls ↔ Control.Makes ⟨body, env, s⟩ k) ∧
    accepted calls = taken calls ++ (execAll body env s).2.world.waiting name ∧
    ∀ before k after c, calls = before ++ k :: after → k.name = name → k.channel? = some c →
      let sees := c.sees k.world.now k.op
      let verdict := (k.world.act name k.op).2
      let d := (c.act k.world.now k.op).1
      accepted before = taken before ++ c.buffer ∧
        accepted (before ++ [k]) = taken (before ++ [k]) ++ d.buffer ∧
        Channel.Reports c.kind k.world.now k.op sees verdict ∧
        k.taken name = sees.filterMap Received.value? ∧
        (k.op.onClosed? c.kind = some verdict →
          d.Exhausted ∧ accepted (before ++ [k]) = taken (before ++ [k])) ∧
        ((∀ v delay, k.op ≠ .sendLater v delay) → c.late = c.leaving k.world.now k.op ++ d.late) := by
  intro calls accepted taken
  have hchained : Chained s.world calls (execAll body env s).2.world := Calls.Accounts.all body env s
  refine ⟨Calls.mem_callsAll body env s, hchained.conserves name, ?_⟩
  rintro before k after c hcalls rfl hc sees verdict d
  rw [hcalls] at hchained
  have hwaiting : k.world.waiting k.name = c.buffer := congrArg (·.elim [] Channel.buffer) hc
  have hbefore : accepted before = taken before ++ c.buffer := by
    have h := hchained.conserves_before k.name
    rwa [hwaiting] at h
  have hthis : k.accepted k.name = c.accepted k.world.now k.op := by simp [Call.accepted, hc]
  have htaken : k.taken k.name = c.taken k.world.now k.op := by simp [Call.taken, hc]
  have hafter : accepted (before ++ [k]) = taken (before ++ [k]) ++ d.buffer := by
    have h : accepted (before ++ [k]) = accepted before ++ c.accepted k.world.now k.op := by
      simp [accepted, hthis]
    have h' : taken (before ++ [k]) = taken before ++ c.taken k.world.now k.op := by
      simp [taken, htaken]
    rw [h, h', hbefore, List.append_assoc, c.buffer_act, List.append_assoc]
  have hreports : Channel.Reports c.kind k.world.now k.op sees verdict := by
    have hv : verdict = (c.act k.world.now k.op).2.2 :=
      congrArg Prod.snd (World.act_of_lookup hc k.op)
    rw [hv]
    exact c.reports_act k.world.now k.op
  refine ⟨hbefore, hafter, hreports, htaken, fun hclosed => ?_, c.late_act k.world.now⟩
  have hd : d.Exhausted := Channel.exhausted_of_sees (hreports.saw_closed hclosed)
  refine ⟨hd, ?_⟩
  rw [hafter, hd.buffer, List.append_nil]

/-- A value that passes without a buffer, in a subtest that is then skipped, and the end of the
channel. -/
theorem values_pass_once_unbuffered :
    let c : Channel := ⟨.int32, some 0, [], false, []⟩
    let body : List Action := [.channel "a" (.sendLater (.int32 1) ⟨5⟩),
      .subtest "b" [.channel "a" (.check .value ⟨9⟩ none), .skip "c"],
      .channel "a" .close, .channel "a" (.check .closed ⟨0⟩ none)]
    let s : State := ⟨{}, ⟨[], [], [], [("a", { c with senderOpen := true })], 0⟩⟩
    let calls := callsAll body (.top .sandboxed) s
    calls.flatMap (·.accepted "a") = [.int32 1] ∧ calls.flatMap (·.taken "a") = [.int32 1] ∧
      c.Exhausted := by
  intro c body s calls
  have haccepted : calls.flatMap (·.accepted "a") = [.int32 1] := by decide +kernel
  have htaken : calls.flatMap (·.taken "a") = [.int32 1] := by decide +kernel
  have hs := values_pass_once body (.top .sandboxed) s "a"
  let last : Call :=
    ⟨"a", .check .closed ⟨0⟩ none, (execAll (body.take 3) (.top .sandboxed) s).2.world⟩
  have hlast := hs.2.2 (calls.take 3) last [] c rfl rfl rfl
  have hclosed := hlast.2.2.2.2.1 rfl
  exact ⟨haccepted, htaken, hclosed.1⟩

end Testkit
