import Testkit.Proofs.Channel.Verdicts

/-! What a call takes from a channel, and what it says of it. -/

namespace Testkit

namespace Channel

/-- What the receives of a call give, one after the other. -/
def sees (c : Channel) (now : Instant) : ChannelOp → List Received
  | .tryReceive timeout => [(c.receive now (now + timeout.nanos)).1]
  | .check .notClosed timeout _ =>
    match deadline? now timeout with
    | none => []
    | some deadline => drainSees deadline c.load c now
  | .check _ timeout _ => [(c.receive now (now + timeout.nanos)).1]
  | _ => []

def taken (c : Channel) (now : Instant) (op : ChannelOp) : List Item :=
  (c.sees now op).filterMap Received.value?

/-- The late senders that leave during a call. -/
def leaving (c : Channel) (now : Instant) (op : ChannelOp) : List LateSender :=
  c.late.take (c.late.length - (c.act now op).1.late.length)

/-- The values that the channel accepts during a call: those of late senders, and then the one that the
call itself sends, if the sender is told so. -/
def accepted (c : Channel) (now : Instant) (op : ChannelOp) : List Item :=
  LateSender.values (c.leaving now op) ++
    match op with
    | .send v => if (c.send now v).1 = .sent then [v] else []
    | _ => []

theorem Passes.gone_eq {c d : Channel} {gone : List LateSender} {taken : List Item}
    (h : c.Passes d gone taken) : gone = c.late.take (c.late.length - d.late.length) := by
  rw [h.late, List.length_append, Nat.add_sub_cancel, List.take_left]

theorem passes_close (c : Channel) : c.Passes c.close [] [] :=
  ⟨rfl, by simp [LateSender.values, close]⟩

theorem passes_check (c : Channel) (now : Instant) (check : ChannelCheck) (timeout : Duration)
    (context : Option String) :
    ∃ gone, c.Passes (c.check now check timeout context).1 gone
      (c.taken now (.check check timeout context)) := by
  have hreceive : ∃ gone, c.Passes (c.receive now (now + timeout.nanos)).2.1 gone
      ([(c.receive now (now + timeout.nanos)).1].filterMap Received.value?) := by
    obtain ⟨gone, h⟩ := c.passes_receive now (now + timeout.nanos)
    rw [Received.filterMap_value?_singleton]
    exact ⟨gone, h.toPasses⟩
  cases check with
  | notClosed =>
    simp only [Channel.check, taken, sees]
    cases deadline? now timeout with
    | none => exact ⟨[], .refl c⟩
    | some deadline =>
      obtain ⟨gone, h⟩ := passes_drainUpTo deadline c.load c now
      exact ⟨gone, h.toPasses⟩
  | value => exact hreceive
  | noMoreValues => exact hreceive
  | closed => exact hreceive

theorem passes_act (c : Channel) (now : Instant) {op : ChannelOp} (hs : ∀ v, op ≠ .send v)
    (hl : ∀ v delay, op ≠ .sendLater v delay) :
    c.Passes (c.act now op).1 (c.leaving now op) (c.taken now op) := by
  have hpasses : ∃ gone, c.Passes (c.act now op).1 gone (c.taken now op) := by
    cases op with
    | send v => exact absurd rfl (hs v)
    | sendLater v delay => exact absurd rfl (hl v delay)
    | close => exact ⟨[], c.passes_close⟩
    | buffered =>
      obtain ⟨gone, h⟩ := c.passes_settle now
      exact ⟨gone, h.toPasses⟩
    | tryReceive timeout =>
      obtain ⟨gone, h⟩ := c.passes_receive now (now + timeout.nanos)
      rw [taken, sees, Received.filterMap_value?_singleton]
      exact ⟨gone, h.toPasses⟩
    | check check timeout context => exact c.passes_check now check timeout context
  obtain ⟨gone, h⟩ := hpasses
  have hgone : gone = c.leaving now op := h.gone_eq
  exact hgone ▸ h

theorem send_cases (c : Channel) (now : Instant) (v : Item) :
    ((c.send now v).1 = .sent ∧
        (c.send now v).2 = { c.settle now with buffer := (c.settle now).buffer ++ [v] }) ∨
      (c.send now v).1 ≠ .sent ∧ (c.send now v).2 = c.settle now := by
  simp only [send]
  split
  · exact .inr ⟨by simp, rfl⟩
  · split
    · exact .inl ⟨rfl, rfl⟩
    · exact .inr ⟨by simp, rfl⟩

theorem leaving_send (c : Channel) (now : Instant) (v : Item) :
    c.Passes (c.settle now) (c.leaving now (.send v)) [] := by
  obtain ⟨gone, h⟩ := c.passes_settle now
  have hlate : (c.act now (.send v)).1.late = (c.settle now).late := by
    rcases c.send_cases now v with ⟨-, hd⟩ | ⟨-, hd⟩ <;> simp [act, hd]
  have hgone : gone = c.leaving now (.send v) := by
    rw [leaving, hlate]
    exact h.gone_eq
  exact hgone ▸ h.toPasses

theorem length_insertLate (s : LateSender) (late : List LateSender) :
    (insertLate s late).length = late.length + 1 := by
  induction late with
  | nil => rfl
  | cons t late ih =>
    simp only [insertLate]
    split <;> simp [ih]

theorem leaving_sendLater (c : Channel) (now : Instant) (v : Item) (delay : Duration) :
    c.leaving now (.sendLater v delay) = [] := by
  have hle : c.late.length ≤ (c.act now (.sendLater v delay)).1.late.length := by
    simp only [act, sendLater]
    split
    · simp [length_insertLate]
    · exact Nat.le_refl _
  rw [leaving, Nat.sub_eq_zero_of_le hle, List.take_zero]

theorem accepted_of_ne_send (c : Channel) (now : Instant) {op : ChannelOp}
    (hs : ∀ v, op ≠ .send v) : c.accepted now op = LateSender.values (c.leaving now op) := by
  cases op with
  | send v => exact absurd rfl (hs v)
  | _ => exact List.append_nil _

/-- The values that are accepted come after those that wait, and those that are taken come from the
front. -/
theorem buffer_act (c : Channel) (now : Instant) (op : ChannelOp) :
    c.buffer ++ c.accepted now op = c.taken now op ++ (c.act now op).1.buffer := by
  by_cases hs : ∃ v, op = .send v
  · obtain ⟨v, rfl⟩ := hs
    have h := (c.leaving_send now v).buffer
    rw [List.nil_append] at h
    rw [accepted, ← List.append_assoc, h]
    rcases c.send_cases now v with ⟨hr, hd⟩ | ⟨hr, hd⟩ <;> simp [act, taken, sees, hr, hd]
  · have hs' : ∀ v, op ≠ .send v := fun v h => hs ⟨v, h⟩
    rw [c.accepted_of_ne_send now hs']
    by_cases hl : ∃ v delay, op = .sendLater v delay
    · obtain ⟨v, delay, rfl⟩ := hl
      simp only [leaving_sendLater, act, sendLater, taken, sees]
      split <;> simp [LateSender.values]
    · exact (c.passes_act now hs' fun v delay h => hl ⟨v, delay, h⟩).buffer

theorem late_act (c : Channel) (now : Instant) {op : ChannelOp}
    (hl : ∀ v delay, op ≠ .sendLater v delay) :
    c.late = c.leaving now op ++ (c.act now op).1.late := by
  by_cases hs : ∃ v, op = .send v
  · obtain ⟨v, rfl⟩ := hs
    have h := (c.leaving_send now v).late
    rcases c.send_cases now v with ⟨-, hd⟩ | ⟨-, hd⟩ <;> simpa [act, hd] using h
  · exact (c.passes_act now (fun v h => hs ⟨v, h⟩) hl).late

theorem exhausted_of_sees {c : Channel} {now : Instant} {op : ChannelOp}
    (h : .closed ∈ c.sees now op) : (c.act now op).1.Exhausted := by
  have hreceive (timeout : Duration)
      (hr : Received.closed ∈ [(c.receive now (now + timeout.nanos)).1]) :
      (c.receive now (now + timeout.nanos)).2.1.Exhausted :=
    exhausted_of_receive (List.mem_singleton.mp hr).symm
  cases op with
  | tryReceive timeout => exact hreceive timeout h
  | check check timeout context =>
    simp only [act]
    cases check with
    | notClosed =>
      simp only [sees] at h
      simp only [Channel.check]
      cases hd : deadline? now timeout with
      | none => simp [hd] at h
      | some deadline =>
        rw [hd] at h
        exact exhausted_of_drainUpTo h
    | value => exact hreceive timeout h
    | noMoreValues => exact hreceive timeout h
    | closed => exact hreceive timeout h
  | _ => simp [sees] at h

end Channel

/-- What a helper says of a closed channel. -/
def ChannelOp.onClosed? (kind : ItemKind) : ChannelOp → Option Verdict
  | .tryReceive _ => some (.observe (.received .closed))
  | .check c timeout context => some (c.ruling kind timeout context .closed)
  | _ => none

def ChannelOp.receives (op : ChannelOp) : Bool := (op.onClosed? .unit).isSome

/-- Whether a call may receive these one after the other and then say this. All helpers receive once
and speak of what they receive: the check for a value gives it, and the other ones name it. The check
that a channel stays open discards values until it receives something else, and does not receive at all
if the clock cannot show its deadline. -/
inductive Channel.Reports (kind : ItemKind) (now : Instant) :
    ChannelOp → List Received → Verdict → Prop
  | received (timeout : Duration) (r : Received) :
    Reports kind now (.tryReceive timeout) [r] (.observe (.received r))
  | check {check : ChannelCheck} (h : check ≠ .notClosed) (timeout : Duration)
    (context : Option String) (r : Received) :
    Reports kind now (.check check timeout context) [r] (check.ruling kind timeout context r)
  | drained {timeout : Duration} {deadline : Instant} (hd : deadline? now timeout = some deadline)
    (context : Option String) (values : List Item) {r : Received} (h : r.value? = none) :
    Reports kind now (.check .notClosed timeout context) (values.map .value ++ [r])
      (ChannelCheck.ruling .notClosed kind timeout context r)
  | overflow {timeout : Duration} (hd : deadline? now timeout = none) (context : Option String) :
    Reports kind now (.check .notClosed timeout context) []
      ⟨[], .panic (.text deadlineOverflow)⟩
  | other {op : ChannelOp} (h : op.receives = false) (v : Verdict) : Reports kind now op [] v

namespace Channel

theorem reports_check (c : Channel) (now : Instant) (check : ChannelCheck) (timeout : Duration)
    (context : Option String) :
    Reports c.kind now (.check check timeout context) (c.sees now (.check check timeout context))
      (c.check now check timeout context).2.2 := by
  cases check with
  | notClosed =>
    simp only [sees, Channel.check]
    cases hd : deadline? now timeout with
    | none => exact .overflow hd context
    | some deadline =>
      obtain ⟨values, hs, hr⟩ := drainSees_spec deadline (Nat.le_refl c.load) now
      simp only [hs, ChannelCheck.verdict_eq_ruling]
      exact .drained hd context values hr
  | value | noMoreValues | closed =>
    simp only [sees, Channel.check, ChannelCheck.verdict_eq_ruling]
    exact .check (by simp) timeout context _

theorem reports_act (c : Channel) (now : Instant) (op : ChannelOp) :
    Reports c.kind now op (c.sees now op) (c.act now op).2.2 := by
  cases op with
  | tryReceive timeout => exact .received timeout _
  | check check timeout context => exact c.reports_check now check timeout context
  | _ => exact .other rfl _

/-- A helper that says what it would say of a closed channel has received that it is closed. -/
theorem Reports.saw_closed {kind : ItemKind} {now : Instant} {op : ChannelOp}
    {rs : List Received} {v : Verdict} (h : Reports kind now op rs v)
    (hv : op.onClosed? kind = some v) : .closed ∈ rs := by
  cases h with
  | received timeout r =>
    simp only [ChannelOp.onClosed?, Verdict.observe, Option.some.injEq, Verdict.mk.injEq,
      Reaction.observe.injEq, Observation.received.injEq, true_and] at hv
    exact List.mem_singleton.mpr hv
  | check h timeout context r =>
    have hr : r = .closed := ChannelCheck.eq_closed_of_ruling (Option.some.inj hv).symm
    exact List.mem_singleton.mpr hr.symm
  | @drained timeout deadline hd context values r h =>
    have hr : r = .closed := ChannelCheck.eq_closed_of_ruling (Option.some.inj hv).symm
    exact List.mem_append_right _ (List.mem_singleton.mpr hr.symm)
  | overflow hd context =>
    simp [ChannelOp.onClosed?, ChannelCheck.ruling, ChannelCheck.Accepts] at hv
  | @other op h v => cases op <;> simp [ChannelOp.receives, ChannelOp.onClosed?] at h hv

end Channel

end Testkit
