import Testkit.Body.Verdict

/-! Where the values of a channel go: from when a value is accepted it waits until a call takes it, and
the first one that was accepted is taken first. -/

namespace Testkit

def LateSender.values (late : List LateSender) : List Item := late.filterMap (·.value)

def Received.value? : Received → Option Item
  | .value v => some v
  | _ => none

theorem Received.filterMap_value?_singleton (r : Received) :
    [r].filterMap Received.value? = r.value?.toList := by
  cases r <;> rfl

namespace Channel

/-- Whether `c` becomes `d` when these late senders leave and these values are taken. -/
structure Passes (c d : Channel) (gone : List LateSender) (taken : List Item) : Prop where
  late : c.late = gone ++ d.late
  buffer : c.buffer ++ LateSender.values gone = taken ++ d.buffer

namespace Passes

theorem refl (c : Channel) : c.Passes c [] [] :=
  ⟨rfl, by simp [LateSender.values]⟩

theorem trans {c d e : Channel} {gone gone' : List LateSender} {taken taken' : List Item}
    (h : c.Passes d gone taken) (h' : d.Passes e gone' taken') :
    c.Passes e (gone ++ gone') (taken ++ taken') where
  late := by rw [h.late, h'.late, List.append_assoc]
  buffer := by
    have hvalues : LateSender.values (gone ++ gone') =
        LateSender.values gone ++ LateSender.values gone' := List.filterMap_append
    rw [hvalues, ← List.append_assoc, h.buffer, List.append_assoc, h'.buffer, List.append_assoc]

theorem load_le {c d : Channel} {gone : List LateSender} {taken : List Item}
    (h : c.Passes d gone taken) : taken.length + d.load ≤ c.load := by
  have hlate := congrArg List.length h.late
  have hbuffer := congrArg List.length h.buffer
  have hvalues : (LateSender.values gone).length ≤ gone.length := List.length_filterMap_le _ _
  simp only [List.length_append] at hlate hbuffer
  simp only [load]
  omega

end Passes

/-- Whether they do so by `t`, and nothing else of the channel changes. -/
structure PassesBy (t : Instant) (c d : Channel) (gone : List LateSender) (taken : List Item) :
    Prop extends Passes c d gone taken where
  due : ∀ s ∈ gone, s.due ≤ t
  rest : d = { c with buffer := d.buffer, late := d.late }

namespace PassesBy

variable {t u : Instant} {c d e : Channel} {gone gone' : List LateSender} {taken taken' : List Item}

theorem refl (t : Instant) (c : Channel) : c.PassesBy t c [] [] :=
  ⟨.refl c, by simp, rfl⟩

theorem trans (h : c.PassesBy t d gone taken) (h' : d.PassesBy t e gone' taken') :
    c.PassesBy t e (gone ++ gone') (taken ++ taken') where
  toPasses := h.toPasses.trans h'.toPasses
  due := List.forall_mem_append.mpr ⟨h.due, h'.due⟩
  rest := by
    obtain ⟨-, -, hd⟩ := h
    obtain ⟨-, -, he⟩ := h'
    rw [hd] at he
    exact he

theorem mono (h : c.PassesBy t d gone taken) (ht : t ≤ u) : c.PassesBy u d gone taken :=
  ⟨h.toPasses, fun s hs => Nat.le_trans (h.due s hs) ht, h.rest⟩

end PassesBy

theorem passes_head {t : Instant} (c : Channel) {s : LateSender} (hs : s.due ≤ t)
    (late : List LateSender) :
    PassesBy t { c with late := s :: late }
      { c with buffer := c.buffer ++ s.value.toList, late := late } [s] [] := by
  refine ⟨⟨rfl, ?_⟩, List.forall_mem_singleton.mpr hs, rfl⟩
  cases hv : s.value <;> simp [LateSender.values, hv]

theorem passes_settleFrom (now : Instant) (c : Channel) (late : List LateSender) :
    ∃ gone, PassesBy now { c with late := late } (settleFrom now c late) gone [] := by
  induction late generalizing c with
  | nil => exact ⟨[], .refl now _⟩
  | cons s late ih =>
    obtain ⟨due, value⟩ := s
    cases value with
    | none =>
      simp only [settleFrom]
      by_cases hdue : due ≤ now
      · have hhead := passes_head c (s := ⟨due, none⟩) hdue late
        rw [Option.toList_none, List.append_nil] at hhead
        obtain ⟨gone, h⟩ := ih c
        rw [if_pos hdue]
        exact ⟨_, hhead.trans h⟩
      · rw [if_neg hdue]
        exact ⟨[], .refl now _⟩
    | some v =>
      simp only [settleFrom]
      by_cases hin : due ≤ now ∧ c.hasRoom
      · have hhead := passes_head c (s := ⟨due, some v⟩) hin.1 late
        obtain ⟨gone, h⟩ := ih { c with buffer := c.buffer ++ [v] }
        rw [if_pos hin]
        exact ⟨_, hhead.trans h⟩
      · rw [if_neg hin]
        exact ⟨[], .refl now _⟩

theorem passes_settle (c : Channel) (now : Instant) :
    ∃ gone, c.PassesBy now (c.settle now) gone [] :=
  passes_settleFrom now c c.late

theorem passes_take? {c d : Channel} {now : Instant} {v : Item} (h : c.take? now = some (v, d)) :
    ∃ gone, c.PassesBy now d gone [v] := by
  simp only [take?] at h
  split at h
  · next w rest hbuffer =>
    obtain ⟨rfl, rfl⟩ := Prod.mk.inj (Option.some.inj h)
    exact ⟨[], ⟨rfl, by simp [hbuffer, LateSender.values]⟩, by simp, rfl⟩
  · next due w rest hbuffer hlate =>
    split at h
    · next hdue =>
      obtain ⟨rfl, rfl⟩ := Prod.mk.inj (Option.some.inj h)
      exact ⟨[⟨due, some w⟩], ⟨hlate, by simp [hbuffer, LateSender.values]⟩,
        List.forall_mem_singleton.mpr hdue, rfl⟩
    · simp at h
  · simp at h

theorem buffer_of_take?_eq_none {c : Channel} {now : Instant} (h : c.take? now = none) :
    c.buffer = [] := by
  cases hb : c.buffer with
  | nil => rfl
  | cons v rest => simp [take?, hb] at h

theorem passes_await {c : Channel} (hc : c.buffer = []) (now deadline : Instant)
    (late : List LateSender) :
    ∃ gone, PassesBy deadline { c with late := late } (c.await now deadline late).2.1 gone
      (c.await now deadline late).1.value?.toList := by
  induction late generalizing now with
  | nil =>
    simp only [await]
    split <;> exact ⟨[], .refl deadline _⟩
  | cons s late ih =>
    obtain ⟨due, value⟩ := s
    simp only [await]
    by_cases hdue : due ≤ deadline
    · rw [if_pos hdue]
      cases value with
      | none =>
        have hhead := passes_head c (s := ⟨due, none⟩) hdue late
        rw [Option.toList_none, List.append_nil] at hhead
        obtain ⟨gone, h⟩ := ih due
        exact ⟨_, hhead.trans h⟩
      | some v =>
        -- The value does not wait: it goes to the receiver as its sender leaves.
        have hhead : PassesBy deadline { c with late := ⟨due, some v⟩ :: late }
            { c with late := late } [⟨due, some v⟩] [v] :=
          ⟨⟨rfl, by simp [hc, LateSender.values]⟩, List.forall_mem_singleton.mpr hdue, rfl⟩
        obtain ⟨gone, h⟩ := passes_settle { c with late := late } due
        exact ⟨_, hhead.trans (h.mono hdue)⟩
    · rw [if_neg hdue]
      exact ⟨[], .refl deadline _⟩

theorem passes_receive (c : Channel) (now deadline : Instant) :
    ∃ gone, c.PassesBy (max now deadline) (c.receive now deadline).2.1 gone
      (c.receive now deadline).1.value?.toList := by
  have hnow : now ≤ max now deadline := Nat.le_max_left now deadline
  obtain ⟨gone, h⟩ := c.passes_settle now
  simp only [receive]
  cases ht : (c.settle now).take? now with
  | none =>
    obtain ⟨gone', h'⟩ := passes_await (buffer_of_take?_eq_none ht) now deadline (c.settle now).late
    exact ⟨_, (h.mono hnow).trans (h'.mono (Nat.le_max_right now deadline))⟩
  | some taken =>
    obtain ⟨v, d⟩ := taken
    obtain ⟨gone', h'⟩ := passes_take? ht
    obtain ⟨gone'', h''⟩ := d.passes_settle now
    exact ⟨_, (h.trans (h'.trans h'')).mono hnow⟩

theorem await_time_le (c : Channel) (now deadline : Instant) (late : List LateSender) :
    (c.await now deadline late).2.2 ≤ max now deadline := by
  induction late generalizing now with
  | nil =>
    simp only [await]
    split
    · exact Nat.le_max_right now deadline
    · exact Nat.le_max_left now deadline
  | cons s late ih =>
    obtain ⟨due, value⟩ := s
    simp only [await]
    by_cases hdue : due ≤ deadline
    · rw [if_pos hdue]
      cases value with
      | none =>
        have hle : max due deadline ≤ max now deadline :=
          Nat.max_le.mpr ⟨Nat.le_trans hdue (Nat.le_max_right now deadline),
            Nat.le_max_right now deadline⟩
        exact Nat.le_trans (ih due) hle
      | some v => exact Nat.le_trans hdue (Nat.le_max_right now deadline)
    · rw [if_neg hdue]
      exact Nat.le_max_right now deadline

theorem receive_time_le (c : Channel) (now deadline : Instant) :
    (c.receive now deadline).2.2 ≤ max now deadline := by
  simp only [receive]
  cases (c.settle now).take? now with
  | none => exact await_time_le _ now deadline _
  | some taken => exact Nat.le_max_left now deadline

/-- No sender is left, and no value waits. -/
structure Exhausted (c : Channel) : Prop where
  senderOpen : c.senderOpen = false
  late : c.late = []
  buffer : c.buffer = []

/-- No value can be had until `deadline` is over. -/
structure Spent (deadline : Instant) (c : Channel) : Prop where
  buffer : c.buffer = []
  late : ∀ s ∈ c.late.head?, deadline < s.due

/-- All senders are gone by `deadline`. -/
def AbandonedBy (deadline : Instant) (c : Channel) : Prop :=
  c.senderOpen = false ∧ ∀ s ∈ c.late, s.due ≤ deadline

instance (deadline : Instant) (c : Channel) : Decidable (c.AbandonedBy deadline) :=
  inferInstanceAs (Decidable (_ ∧ _))

theorem Spent.exhausted {deadline : Instant} {c : Channel} (h : c.Spent deadline)
    (ha : c.AbandonedBy deadline) : c.Exhausted := by
  refine ⟨ha.1, ?_, h.buffer⟩
  cases hl : c.late with
  | nil => rfl
  | cons s late =>
    have hlate : deadline < s.due := h.late s (by simp [hl])
    have hgone : s.due ≤ deadline := ha.2 s (by simp [hl])
    exact absurd hgone (Nat.not_le.mpr hlate)

/-- Who waits in vain does so to the end, unless all senders go before. -/
theorem await_in_vain {c : Channel} (hc : c.buffer = []) {now deadline : Instant}
    {late : List LateSender} (h : (c.await now deadline late).1.value? = none) :
    (c.await now deadline late).2.1.Spent deadline ∧
      ((c.await now deadline late).1 = .closed ↔
        (c.await now deadline late).2.1.AbandonedBy deadline) := by
  induction late generalizing now with
  | nil =>
    simp only [await]
    by_cases ho : c.senderOpen = true
    · rw [if_pos ho]
      exact ⟨⟨hc, by simp⟩, by simp [AbandonedBy, ho]⟩
    · rw [if_neg ho]
      exact ⟨⟨hc, by simp⟩, by simp [AbandonedBy, ho]⟩
  | cons s late ih =>
    obtain ⟨due, value⟩ := s
    simp only [await] at h ⊢
    by_cases hdue : due ≤ deadline
    · rw [if_pos hdue] at h ⊢
      cases value with
      | none => exact ih h
      | some v => cases h
    · rw [if_neg hdue]
      exact ⟨⟨hc, by simpa using hdue⟩, by simp [AbandonedBy, hdue]⟩

theorem receive_in_vain {c : Channel} {now deadline : Instant}
    (h : (c.receive now deadline).1.value? = none) :
    (c.receive now deadline).2.1.Spent deadline ∧
      ((c.receive now deadline).1 = .closed ↔
        (c.receive now deadline).2.1.AbandonedBy deadline) := by
  simp only [receive] at h ⊢
  cases ht : (c.settle now).take? now with
  | none =>
    rw [ht] at h
    exact await_in_vain (buffer_of_take?_eq_none ht) h
  | some taken =>
    rw [ht] at h
    cases h

theorem exhausted_of_receive {c : Channel} {now deadline : Instant}
    (h : (c.receive now deadline).1 = .closed) : (c.receive now deadline).2.1.Exhausted := by
  obtain ⟨hspent, hclosed⟩ := receive_in_vain (congrArg Received.value? h)
  exact hspent.exhausted (hclosed.mp h)

/-- What the receives of a drain give, one after the other. -/
def drainSees (deadline : Instant) : Nat → Channel → Instant → List Received
  | 0, c, now => [(c.receive now deadline).1]
  | more + 1, c, now =>
    match c.receive now deadline with
    | (.value v, c, now) => .value v :: drainSees deadline more c now
    | (r, _, _) => [r]

theorem passes_drainUpTo (deadline : Instant) (n : Nat) (c : Channel) (now : Instant) :
    ∃ gone, c.PassesBy (max now deadline) (drainUpTo deadline n c now).2.1 gone
      ((drainSees deadline n c now).filterMap Received.value?) := by
  induction n generalizing c now with
  | zero =>
    obtain ⟨gone, h⟩ := c.passes_receive now deadline
    refine ⟨gone, ?_⟩
    rw [drainSees, Received.filterMap_value?_singleton]
    exact h
  | succ n ih =>
    obtain ⟨gone, h⟩ := c.passes_receive now deadline
    have htime := c.receive_time_le now deadline
    simp only [drainUpTo, drainSees]
    revert h htime
    rcases c.receive now deadline with ⟨r, d, later⟩
    intro h htime
    cases r with
    | value v =>
      obtain ⟨gone', h'⟩ := ih d later
      have hle : max later deadline ≤ max now deadline :=
        Nat.max_le.mpr ⟨htime, Nat.le_max_right now deadline⟩
      exact ⟨_, h.trans (h'.mono hle)⟩
    | timedOut => exact ⟨gone, h⟩
    | closed => exact ⟨gone, h⟩

/-- A drain takes values until something else comes, which it then gives: it does not stop before. -/
theorem drainSees_spec (deadline : Instant) {n : Nat} {c : Channel} (hn : c.load ≤ n)
    (now : Instant) :
    ∃ values : List Item, drainSees deadline n c now =
        values.map .value ++ [(drainUpTo deadline n c now).1] ∧
      (drainUpTo deadline n c now).1.value? = none := by
  induction n generalizing c now with
  | zero =>
    obtain ⟨gone, h⟩ := c.passes_receive now deadline
    refine ⟨[], rfl, ?_⟩
    simp only [drainUpTo]
    cases hr : (c.receive now deadline).1.value? with
    | none => rfl
    | some v =>
      have hle := h.load_le
      simp only [hr, Option.toList_some, List.length_singleton] at hle
      omega
  | succ n ih =>
    obtain ⟨gone, h⟩ := c.passes_receive now deadline
    simp only [drainUpTo, drainSees]
    revert h
    rcases c.receive now deadline with ⟨r, d, later⟩
    intro h
    cases r with
    | value v =>
      have hle : 1 + d.load ≤ c.load := h.load_le
      obtain ⟨values, hs, hr⟩ := ih (by omega : d.load ≤ n) later
      exact ⟨v :: values, by simp only [hs, List.map_cons, List.cons_append], hr⟩
    | timedOut => exact ⟨[], rfl, rfl⟩
    | closed => exact ⟨[], rfl, rfl⟩

theorem drainUpTo_in_vain {deadline : Instant} {n : Nat} {c : Channel} {now : Instant}
    (h : (drainUpTo deadline n c now).1.value? = none) :
    (drainUpTo deadline n c now).2.1.Spent deadline ∧
      ((drainUpTo deadline n c now).1 = .closed ↔
        (drainUpTo deadline n c now).2.1.AbandonedBy deadline) := by
  induction n generalizing c now with
  | zero => exact receive_in_vain h
  | succ n ih =>
    have hvain := @receive_in_vain c now deadline
    simp only [drainUpTo] at h ⊢
    revert h hvain
    rcases c.receive now deadline with ⟨r, d, later⟩
    intro h hvain
    cases r with
    | value v => exact ih h
    | timedOut => exact hvain rfl
    | closed => exact hvain rfl

theorem exhausted_of_drainUpTo {deadline : Instant} {c : Channel} {now : Instant}
    (h : .closed ∈ drainSees deadline c.load c now) :
    (drainUpTo deadline c.load c now).2.1.Exhausted := by
  obtain ⟨values, hs, hr⟩ := drainSees_spec deadline (Nat.le_refl c.load) now
  obtain ⟨hspent, hclosed⟩ := drainUpTo_in_vain hr
  have hlast : .closed = (drainUpTo deadline c.load c now).1 := by simpa [hs] using h
  exact hspent.exhausted (hclosed.mp hlast.symm)

end Channel

end Testkit
