import Testkit.Proofs.Channel.Taking

/-! What comes to a channel by a deadline, and what a receiver that waits until then makes of it. The
answer of a check does not depend on the receives that it takes: it depends on the values that come and
on the senders that are left. -/

namespace Testkit

namespace Channel

variable {c d : Channel} {now t deadline : Instant}

/-- The values that wait and those that come by `deadline`, in their order. A sender does not come before
those ahead of it in the list. -/
def arrivals (c : Channel) (deadline : Instant) : List Item :=
  c.buffer ++ LateSender.values (c.late.takeWhile (·.due ≤ deadline))

/-- The channel once those values are taken. -/
def emptied (c : Channel) (deadline : Instant) : Channel :=
  { c with buffer := [], late := c.late.dropWhile (·.due ≤ deadline) }

/-- Whether the senders are to come soonest first. -/
def Ordered (c : Channel) : Prop := c.late.Pairwise fun s t => s.due ≤ t.due

theorem mem_insertLate {s u : LateSender} {late : List LateSender} (h : u ∈ insertLate s late) :
    u = s ∨ u ∈ late := by
  induction late with
  | nil => exact .inl (List.mem_singleton.mp h)
  | cons t late ih =>
    simp only [insertLate] at h
    split at h
    · exact List.mem_cons.mp h
    · rcases List.mem_cons.mp h with rfl | hu
      · exact .inr List.mem_cons_self
      · exact (ih hu).imp_right (List.mem_cons_of_mem t)

theorem ordered_insertLate {late : List LateSender}
    (h : late.Pairwise fun s t => s.due ≤ t.due) (s : LateSender) :
    (insertLate s late).Pairwise fun s t => s.due ≤ t.due := by
  induction late with
  | nil => exact List.pairwise_singleton _ s
  | cons t late ih =>
    obtain ⟨ht, hlate⟩ := List.pairwise_cons.mp h
    simp only [insertLate]
    by_cases hs : s.due < t.due
    · rw [if_pos hs]
      refine List.pairwise_cons.mpr ⟨?_, h⟩
      have hle : ∀ u ∈ late, s.due ≤ u.due := fun u hu =>
        Nat.le_trans (Nat.le_of_lt hs) (ht u hu)
      exact List.forall_mem_cons.mpr ⟨Nat.le_of_lt hs, hle⟩
    · rw [if_neg hs]
      refine List.pairwise_cons.mpr ⟨fun u hu => ?_, ih hlate⟩
      rcases mem_insertLate hu with rfl | hu
      · exact Nat.not_lt.mp hs
      · exact ht u hu

/-- All that is done to a channel keeps its senders in order. -/
theorem Ordered.act (h : c.Ordered) (now : Instant) (op : ChannelOp) :
    (c.act now op).1.Ordered := by
  by_cases hl : ∃ v delay, op = .sendLater v delay
  · obtain ⟨v, delay, rfl⟩ := hl
    simp only [Channel.act, sendLater]
    split
    · exact ordered_insertLate h _
    · exact h
  · have hlate := c.late_act now fun v delay hop => hl ⟨v, delay, hop⟩
    rw [Ordered, hlate] at h
    exact (List.pairwise_append.mp h).2.1

theorem arrivals_of_ordered (h : c.Ordered) (deadline : Instant) :
    c.arrivals deadline = c.buffer ++ LateSender.values (c.late.filter (·.due ≤ deadline)) := by
  have hfilter : ∀ late : List LateSender, (late.Pairwise fun s t => s.due ≤ t.due) →
      late.takeWhile (·.due ≤ deadline) = late.filter (·.due ≤ deadline) := by
    intro late hlate
    induction late with
    | nil => rfl
    | cons s late ih =>
      obtain ⟨hs, hlate⟩ := List.pairwise_cons.mp hlate
      by_cases hdue : s.due ≤ deadline
      · simp [hdue, ih hlate]
      · have hlater : ∀ u ∈ late, ¬ u.due ≤ deadline := fun u hu hle =>
          hdue (Nat.le_trans (hs u hu) hle)
        simpa [hdue] using hlater
  rw [arrivals, hfilter c.late h]

theorem PassesBy.arrivals {gone : List LateSender} {taken : List Item}
    (h : c.PassesBy t d gone taken) (ht : t ≤ deadline) :
    c.arrivals deadline = taken ++ d.arrivals deadline := by
  have hgone : ∀ s ∈ gone, decide (s.due ≤ deadline) = true := fun s hs =>
    decide_eq_true (Nat.le_trans (h.due s hs) ht)
  have hvalues (late : List LateSender) : LateSender.values (gone ++ late) =
      LateSender.values gone ++ LateSender.values late := List.filterMap_append
  rw [Channel.arrivals, Channel.arrivals, h.late, List.takeWhile_append_of_pos hgone, hvalues,
    ← List.append_assoc, h.buffer, List.append_assoc]

theorem PassesBy.abandonedBy_iff {gone : List LateSender} {taken : List Item}
    (h : c.PassesBy t d gone taken) (ht : t ≤ deadline) :
    d.AbandonedBy deadline ↔ c.AbandonedBy deadline := by
  have hopen : d.senderOpen = c.senderOpen := by rw [h.rest]
  have hgone : ∀ s ∈ gone, s.due ≤ deadline := fun s hs => Nat.le_trans (h.due s hs) ht
  rw [AbandonedBy, AbandonedBy, hopen, h.late, List.forall_mem_append, and_iff_right hgone]

theorem Spent.takeWhile_late (h : c.Spent deadline) :
    c.late.takeWhile (·.due ≤ deadline) = [] ∧ c.late.dropWhile (·.due ≤ deadline) = c.late := by
  cases hl : c.late with
  | nil => exact ⟨rfl, rfl⟩
  | cons s late =>
    have hs : ¬ s.due ≤ deadline := Nat.not_le.mpr (h.late s (by simp [hl]))
    simp [hs]

theorem Spent.arrivals_eq_nil (h : c.Spent deadline) : c.arrivals deadline = [] := by
  rw [arrivals, h.buffer, h.takeWhile_late.1]
  rfl

/-- Who takes values until there is nothing more to be had by `deadline` has taken all that come. -/
theorem PassesBy.eq_emptied {gone : List LateSender} {taken : List Item}
    (h : c.PassesBy t d gone taken) (ht : t ≤ deadline) (hd : d.Spent deadline) :
    taken = c.arrivals deadline ∧ d = c.emptied deadline := by
  have harrivals := h.arrivals ht
  rw [hd.arrivals_eq_nil, List.append_nil] at harrivals
  refine ⟨harrivals.symm, ?_⟩
  have hgone : ∀ s ∈ gone, decide (s.due ≤ deadline) = true := fun s hs =>
    decide_eq_true (Nat.le_trans (h.due s hs) ht)
  have hlate : c.late.dropWhile (·.due ≤ deadline) = d.late := by
    rw [h.late, List.dropWhile_append_of_pos hgone, hd.takeWhile_late.2]
  rw [emptied, hlate, h.rest, hd.buffer]

/-- What a receiver sees that waits until `deadline`. -/
def offers (c : Channel) (deadline : Instant) : Received :=
  match c.arrivals deadline with
  | v :: _ => .value v
  | [] => if c.AbandonedBy deadline then .closed else .timedOut

/-- Whether a call that receives once returns by `deadline`. If the clock cannot show when its time is
over, it waits without end for something to come. -/
inductive ReturnsBy (c : Channel) (now : Instant) (timeout : Duration) : Instant → Prop
  | inTime {deadline : Instant} (hd : deadline? now timeout = some deadline) :
    ReturnsBy c now timeout deadline
  | untimed (h : c.offers (now + timeout.nanos) ≠ .timedOut) :
    ReturnsBy c now timeout (now + timeout.nanos)

theorem ReturnsBy.deadline_eq {timeout : Duration} (h : c.ReturnsBy now timeout deadline) :
    deadline = now + timeout.nanos := by
  cases h with
  | inTime hd => exact deadline?_eq_some hd
  | untimed h => rfl

theorem receive_eq_offers (c : Channel) (h : now ≤ deadline) :
    (c.receive now deadline).1 = c.offers deadline ∧
      c.arrivals deadline =
        (c.offers deadline).value?.toList ++ (c.receive now deadline).2.1.arrivals deadline := by
  obtain ⟨gone, hp⟩ := c.passes_receive now deadline
  have hle : max now deadline ≤ deadline := Nat.max_le.mpr ⟨h, Nat.le_refl deadline⟩
  have harrivals := hp.arrivals hle
  have hvain := @receive_in_vain c now deadline
  have habandoned := hp.abandonedBy_iff hle
  suffices hoffers : (c.receive now deadline).1 = c.offers deadline from
    ⟨hoffers, hoffers ▸ harrivals⟩
  rw [offers, harrivals]
  cases hr : (c.receive now deadline).1 with
  | value v => rfl
  | timedOut =>
    obtain ⟨hspent, hclosed⟩ := hvain (by rw [hr]; rfl)
    rw [hr, habandoned] at hclosed
    have hopen : ¬ c.AbandonedBy deadline := fun ha => Received.noConfusion (hclosed.mpr ha)
    rw [hspent.arrivals_eq_nil]
    exact (if_neg hopen).symm
  | closed =>
    obtain ⟨hspent, hclosed⟩ := hvain (by rw [hr]; rfl)
    rw [hr, habandoned] at hclosed
    rw [hspent.arrivals_eq_nil]
    exact (if_pos (hclosed.mp rfl)).symm

/-- Receiving with the time that is left until `deadline`, again and again, gives these values and then
something else. -/
inductive ReceivesUntil (deadline : Instant) :
    Channel → Instant → List Item → Received → Channel → Instant → Prop
  | last {c d : Channel} {now later : Instant} {r : Received}
    (h : c.act now (.tryReceive ⟨deadline - now⟩) = (d, later, .observe (.received r)))
    (hr : r.value? = none) : ReceivesUntil deadline c now [] r d later
  | next {c d e : Channel} {now later last : Instant} {v : Item} {values : List Item} {r : Received}
    (h : c.act now (.tryReceive ⟨deadline - now⟩) = (d, later, .observe (.received (.value v))))
    (ht : ReceivesUntil deadline d later values r e last) :
    ReceivesUntil deadline c now (v :: values) r e last

theorem act_tryReceive_left (c : Channel) (h : now ≤ deadline) :
    c.act now (.tryReceive ⟨deadline - now⟩) =
      ((c.receive now deadline).2.1, (c.receive now deadline).2.2,
        .observe (.received (c.receive now deadline).1)) := by
  simp only [act, Nat.add_sub_of_le h]

theorem receivesUntil_drainUpTo {n : Nat} (hn : c.load ≤ n) (h : now ≤ deadline) :
    ReceivesUntil deadline c now ((drainSees deadline n c now).filterMap Received.value?)
      (drainUpTo deadline n c now).1 (drainUpTo deadline n c now).2.1
      (drainUpTo deadline n c now).2.2 := by
  induction n generalizing c now with
  | zero =>
    obtain ⟨values, hs, hr⟩ := drainSees_spec deadline hn now
    obtain ⟨rfl⟩ : values = [] := by simpa [drainSees] using congrArg List.length hs
    rw [hs]
    simp only [List.map_nil, List.nil_append, Received.filterMap_value?_singleton, hr]
    exact .last (c.act_tryReceive_left h) hr
  | succ n ih =>
    obtain ⟨gone, hp⟩ := c.passes_receive now deadline
    have htime := c.receive_time_le now deadline
    have hact := c.act_tryReceive_left h
    simp only [drainUpTo, drainSees]
    revert hp htime hact
    rcases c.receive now deadline with ⟨r, d, later⟩
    intro hp htime hact
    have hlater : later ≤ deadline :=
      Nat.le_trans htime (Nat.max_le.mpr ⟨h, Nat.le_refl deadline⟩)
    cases r with
    | value v =>
      have hload : 1 + d.load ≤ c.load := hp.load_le
      have hmore : d.load ≤ n := by omega
      exact .next hact (ih hmore hlater)
    | timedOut => exact .last hact rfl
    | closed => exact .last hact rfl

/-- A drain takes all that comes by the deadline, and then tells whether a sender is left. -/
theorem drain_eq (c : Channel) (h : now ≤ deadline) :
    (drainSees deadline c.load c now).filterMap Received.value? = c.arrivals deadline ∧
      c.drain now deadline =
        (if c.AbandonedBy deadline then .closed else .timedOut, c.emptied deadline,
          (c.drain now deadline).2.2) := by
  obtain ⟨gone, hp⟩ := passes_drainUpTo deadline c.load c now
  obtain ⟨values, -, hr⟩ := drainSees_spec deadline (Nat.le_refl c.load) now
  obtain ⟨hspent, hclosed⟩ := drainUpTo_in_vain hr
  have hle : max now deadline ≤ deadline := Nat.max_le.mpr ⟨h, Nat.le_refl deadline⟩
  obtain ⟨htaken, hd⟩ := hp.eq_emptied hle hspent
  rw [hp.abandonedBy_iff hle] at hclosed
  have hanswer : (drainUpTo deadline c.load c now).1 =
      if c.AbandonedBy deadline then .closed else .timedOut := by
    by_cases ha : c.AbandonedBy deadline
    · rw [if_pos ha]
      exact hclosed.mpr ha
    · rw [if_neg ha]
      revert hr hclosed
      cases (drainUpTo deadline c.load c now).1 with
      | value v => exact fun hr => by cases hr
      | timedOut => exact fun _ _ => rfl
      | closed => exact fun _ hclosed => absurd (hclosed.mp rfl) ha
  exact ⟨htaken, Prod.ext hanswer (Prod.ext hd rfl)⟩

theorem receivesUntil_drain (c : Channel) (h : now ≤ deadline) :
    ReceivesUntil deadline c now (c.arrivals deadline)
      (if c.AbandonedBy deadline then .closed else .timedOut) (c.emptied deadline)
      (c.drain now deadline).2.2 := by
  obtain ⟨htaken, hdrain⟩ := c.drain_eq h
  have hreceives := receivesUntil_drainUpTo (Nat.le_refl c.load) h
  rw [htaken, ← drain] at hreceives
  rwa [hdrain] at hreceives

end Channel

end Testkit
