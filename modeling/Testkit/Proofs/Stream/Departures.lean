import Mathlib.Algebra.GroupWithZero.Nat
import Mathlib.Data.List.Perm.Basic
import Testkit.Proofs.Stream.Delivery

/-! How connections leave the registry: each once, by the drop of its body or with all others, and as
the notices tell it. A body that is dropped later takes no other connection with it. -/

namespace Testkit

def StreamReply.admitted? : StreamReply → Option Nat
  | .admitted id => some id
  | _ => none

namespace StreamNotice

def removed? : StreamNotice → Option Nat
  | .removed id => some id
  | _ => none

def ended : StreamNotice → Nat
  | .ending count => count
  | _ => 0

end StreamNotice

namespace Endpoint

/-- What there is to gather from some steps, of each in the state that it is taken in. -/
def gather {α : Type} (f : Endpoint → StreamOp → List α) (e : Endpoint) : List StreamOp → List α
  | [] => []
  | op :: ops => f e op ++ gather f (e.step op).2.1 ops

def admitted : Endpoint → List StreamOp → List Nat :=
  gather fun e op => (e.step op).1.admitted?.toList

def notices : Endpoint → List StreamOp → List StreamNotice := gather fun e op => (e.step op).2.2

/-- The connections that are registered before a step and not after it. -/
def departing (e : Endpoint) (op : StreamOp) : List Nat :=
  e.registry.registered.filter fun id => !(e.step op).2.1.isRegistered id

def departed : Endpoint → List StreamOp → List Nat := gather departing

theorem gather_append {α : Type} (f : Endpoint → StreamOp → List α) (e : Endpoint)
    (ops later : List StreamOp) :
    e.gather f (ops ++ later) = e.gather f ops ++ (e.after ops).gather f later := by
  induction ops generalizing e with
  | nil => rfl
  | cons op ops ih =>
    simp only [List.cons_append, gather, ih, List.append_assoc]
    rfl

theorem gather_singleton {α : Type} (f : Endpoint → StreamOp → List α) (e : Endpoint)
    (op : StreamOp) : e.gather f [op] = f e op := List.append_nil _

theorem step_admitted (e : Endpoint) (op : StreamOp) : (e.step op).1.admitted?.toList =
    if op = .request true ∧ e.registry.closed = false then [e.registry.nextId] else [] := by
  cases op with
  | request flush =>
    cases flush <;> cases hc : e.registry.closed <;> simp [step, request, hc, StreamReply.admitted?]
  | _ => simp [step, StreamReply.admitted?]

theorem admitted_eq_range (initial : Option Bytes) (ops : List StreamOp) :
    admitted { initial } ops = List.range (admissions ops) := by
  induction ops using List.reverseRecOn with
  | nil => rfl
  | append_singleton ops op ih =>
    rw [admitted, gather_append, gather_singleton, ← admitted, ih, step_admitted, after_nextId,
      after_closed, admissions_append_singleton]
    by_cases ho : op = .request true ∧ .beginClose ∉ ops
    · simp [ho, List.range_succ]
    · simp [ho]

theorem departing_eq_filter {e : Endpoint} (h : e.WellFormed) (op : StreamOp) :
    e.departing op = e.registry.registered.filter (op.ends ·) := by
  refine List.filter_congr fun id hid => ?_
  have hne : id ≠ e.registry.nextId := fun he => h.nextId_notMem (he ▸ hid)
  have hreg : e.isRegistered id = true := List.contains_iff_mem.mpr hid
  rw [step_isRegistered h hne, hreg, Bool.true_and, Bool.not_not]

theorem departing_drop {e : Endpoint} (h : e.WellFormed) (id : Nat) :
    e.departing (.drop id) = if e.isRegistered id then [id] else [] := by
  have hends : e.departing (.drop id) = e.registry.registered.filter (· = id) := by
    rw [departing_eq_filter h]
    simp only [StreamOp.ends, eq_comm]
  rw [hends, List.filter_eq, h.nodup.count, isRegistered]
  by_cases hid : id ∈ e.registry.registered <;> simp [hid]

theorem departing_endAll (e : Endpoint) : e.departing .endAll = e.registry.registered := by
  simp [departing, step, endAll, isRegistered]

theorem drop_notices {e : Endpoint} (h : e.WellFormed) (id : Nat) :
    (e.drop id).2 = (e.departing (.drop id)).map .removed := by
  rw [departing_drop h]
  by_cases hb : (e.body? id).isSome
  · rw [drop, if_pos hb]
    by_cases hr : e.isRegistered id = true <;> simp [hr]
  · have hr : e.isRegistered id = false := by
      by_contra hr
      exact hb (h.body_of_registered id (by simpa [isRegistered] using hr))
    rw [drop, if_neg hb, hr]
    rfl

theorem endAll_notices (e : Endpoint) : (e.endAll).2 =
    if e.departing .endAll = [] then [] else [.ending (e.departing .endAll).length] := by
  simp [departing_endAll, endAll]

theorem departing_of_stays {e : Endpoint} (h : e.WellFormed) {op : StreamOp} (hend : op ≠ .endAll)
    (hdrop : ∀ id, op ≠ .drop id) :
    e.departing op = [] ∧ ∀ n ∈ (e.step op).2.2, n.removed? = none ∧ n.ended = 0 := by
  refine ⟨?_, ?_⟩
  · rw [departing_eq_filter h, List.filter_eq_nil_iff]
    cases op with
    | endAll => exact absurd rfl hend
    | drop id => exact absurd rfl (hdrop id)
    | _ => simp [StreamOp.ends]
  · cases op with
    | endAll => exact absurd rfl hend
    | drop id => exact absurd rfl (hdrop id)
    | request flush =>
      cases flush <;> cases hc : e.registry.closed <;>
        simp [step, request, hc, StreamNotice.removed?, StreamNotice.ended]
    | _ => simp [step]

theorem step_count {e : Endpoint} (h : e.WellFormed) (op : StreamOp) :
    (e.departing op).length = ((e.step op).2.2.filterMap StreamNotice.removed?).length +
      ((e.step op).2.2.map StreamNotice.ended).sum := by
  by_cases hend : op = .endAll
  · subst hend
    have hn : (e.step .endAll).2.2 = (e.endAll).2 := rfl
    rw [hn, endAll_notices]
    by_cases hnil : e.departing .endAll = [] <;> simp [hnil, StreamNotice.removed?, StreamNotice.ended]
  · by_cases hdrop : ∃ id, op = .drop id
    · obtain ⟨id, rfl⟩ := hdrop
      have hn : (e.step (.drop id)).2.2 = (e.drop id).2 := rfl
      rw [hn, drop_notices h, departing_drop h]
      by_cases hr : e.isRegistered id = true <;> simp [hr, StreamNotice.removed?, StreamNotice.ended]
    · obtain ⟨hnone, hquiet⟩ := departing_of_stays h hend fun id he => hdrop ⟨id, he⟩
      have hremoved : (e.step op).2.2.filterMap StreamNotice.removed? = [] :=
        List.filterMap_eq_nil_iff.mpr fun n hm => (hquiet n hm).1
      have hended : ((e.step op).2.2.map StreamNotice.ended).sum = 0 :=
        List.sum_eq_zero_iff_forall_eq_nat.mpr
          (List.forall_mem_map.mpr fun n hm => (hquiet n hm).2)
      rw [hnone, hremoved, hended]
      rfl

theorem departed_length {e : Endpoint} (h : e.WellFormed) (ops : List StreamOp) :
    (e.departed ops).length = ((e.notices ops).filterMap StreamNotice.removed?).length +
      ((e.notices ops).map StreamNotice.ended).sum := by
  induction ops generalizing e with
  | nil => rfl
  | cons op ops ih =>
    have hstep := step_count h op
    have hrest := ih (h.step op)
    rw [departed, notices] at hrest ⊢
    simp only [gather, List.length_append, List.filterMap_append, List.map_append, List.sum_append]
    omega

theorem departed_append_registered (initial : Option Bytes) (ops : List StreamOp) :
    (departed { initial } ops ++ (after { initial } ops).registry.registered).Perm
      (List.range (admissions ops)) := by
  induction ops using List.reverseRecOn with
  | nil => exact List.Perm.refl _
  | append_singleton ops op ih =>
    have hw := (wellFormed_fresh initial).after ops
    have hsplit := List.filter_append_perm (op.ends ·) (after { initial } ops).registry.registered
    rw [departed, gather_append, gather_singleton, ← departed, departing_eq_filter hw, after_append,
      after_singleton, step_registered hw, after_nextId, after_closed, admissions_append_singleton,
      List.append_assoc, ← List.append_assoc (List.filter _ _)]
    have hnew : List.range (admissions ops + if op = .request true ∧ .beginClose ∉ ops then 1 else 0) =
        List.range (admissions ops) ++
          if op = .request true ∧ .beginClose ∉ ops then [admissions ops] else [] := by
      split
      · exact List.range_succ
      · exact (List.append_nil _).symm
    rw [hnew]
    simpa using ((hsplit.append_left _).trans ih).append_right _

/-- The endpoints differ at most in the body of one connection. -/
structure SameApartFrom (id : Nat) (e d : Endpoint) : Prop where
  initial : d.initial = e.initial
  registry : d.registry = e.registry
  body : ∀ other, other ≠ id → d.body? other = e.body? other

namespace SameApartFrom

theorem symm {id : Nat} {e d : Endpoint} (h : SameApartFrom id e d) : SameApartFrom id d e :=
  ⟨h.initial.symm, h.registry.symm, fun other ho => (h.body other ho).symm⟩

theorem trans {id : Nat} {e d c : Endpoint} (h : SameApartFrom id e d) (h' : SameApartFrom id d c) :
    SameApartFrom id e c :=
  ⟨h'.initial.trans h.initial, h'.registry.trans h.registry,
    fun other ho => (h'.body other ho).trans (h.body other ho)⟩

theorem of_poll (e : Endpoint) (id : Nat) : SameApartFrom id e (e.poll id).2 := by
  have hs : (e.step (.poll id)).2.1 = (e.poll id).2 := by simp only [Endpoint.step]
  exact ⟨hs ▸ step_initial e (.poll id), poll_registry e id,
    fun other ho => body?_poll_of_ne e ho.symm⟩

theorem of_drop {e : Endpoint} {id : Nat} (h : e.isRegistered id = false) :
    SameApartFrom id e (e.drop id).1 ∧ (e.drop id).2 = [] := by
  have hid : id ∉ e.registry.registered := by simpa [Endpoint.isRegistered] using h
  refine ⟨⟨step_initial e (.drop id), ?_, fun other ho => body?_drop_of_ne e ho.symm⟩, ?_⟩
  · by_cases hb : (e.body? id).isSome
    · simp only [Endpoint.drop, hb, if_true, List.erase_of_not_mem hid]
    · simp only [Endpoint.drop, hb, Bool.false_eq_true, if_false]
  · by_cases hb : (e.body? id).isSome <;> simp [Endpoint.drop, hb, h]

theorem isRegistered {id : Nat} {e d : Endpoint} (h : SameApartFrom id e d) (i : Nat) :
    d.isRegistered i = e.isRegistered i := by
  rw [Endpoint.isRegistered, Endpoint.isRegistered, h.registry]

theorem deliver {id : Nat} {e d : Endpoint} (h : SameApartFrom id e d) (chunk : Bytes)
    (queue : Bool) : SameApartFrom id (e.deliver chunk queue) (d.deliver chunk queue) := by
  refine ⟨?_, ?_, fun other ho => ?_⟩
  · simp only [Endpoint.deliver, broadcast]
    split_ifs <;> exact h.initial
  · simp only [Endpoint.deliver, broadcast, h.registry]
    split_ifs <;> simp [h.registry]
  · rw [body?_deliver, body?_deliver, h.body other ho, h.isRegistered, h.registry]

theorem request {id : Nat} {e d : Endpoint} (h : SameApartFrom id e d) (flush : Bool) :
    SameApartFrom id (e.request flush).2.1 (d.request flush).2.1 ∧
      (d.request flush).1 = (e.request flush).1 ∧ (d.request flush).2.2 = (e.request flush).2.2 := by
  by_cases hf : flush = true ∧ e.registry.closed = false
  · obtain ⟨rfl, hc⟩ := hf
    refine ⟨⟨?_, ?_, fun other ho => ?_⟩, ?_, ?_⟩
    · simp [Endpoint.request, h.registry, hc, h.initial]
    · simp [Endpoint.request, h.registry, hc]
    · have hbody : d.bodies.find? (·.id = other) = e.bodies.find? (·.id = other) := h.body other ho
      simp only [Endpoint.request, h.registry, hc, h.initial, body?, List.find?_append, hbody,
        Bool.not_true, Bool.false_eq_true, if_false]
    · simp [Endpoint.request, h.registry, hc]
    · simp [Endpoint.request, h.registry, hc]
  · have hd : ¬ (flush = true ∧ d.registry.closed = false) := by rwa [h.registry]
    rw [request_of_refused hf, request_of_refused hd]
    exact ⟨h, rfl, rfl⟩

theorem poll_of_ne {id i : Nat} {e d : Endpoint} (h : SameApartFrom id e d) (hi : i ≠ id) :
    SameApartFrom id (e.poll i).2 (d.poll i).2 ∧ (d.poll i).1 = (e.poll i).1 := by
  have hbody := h.body i hi
  cases hb : e.body? i with
  | none =>
    rw [poll_of_none hb, poll_of_none (hbody.trans hb)]
    exact ⟨h, rfl⟩
  | some b =>
    cases hn : b.next? with
    | none =>
      have hr := b.next?_eq_none_iff.mp hn
      rw [poll_of_nil hb hr, poll_of_nil (hbody.trans hb) hr, h.isRegistered]
      exact ⟨h, rfl⟩
    | some next =>
      have hpoll (x : Endpoint) (hx : x.body? i = some b) :
          x.poll i = (.chunk next.1, x.setBody next.2) := by simp only [Endpoint.poll, hx, hn]
      rw [hpoll e hb, hpoll d (hbody.trans hb)]
      refine ⟨⟨h.initial, h.registry, fun other ho => ?_⟩, rfl⟩
      rw [body?_setBody, body?_setBody, h.body other ho]

theorem drop_of_ne {id i : Nat} {e d : Endpoint} (h : SameApartFrom id e d) (hi : i ≠ id) :
    SameApartFrom id (e.drop i).1 (d.drop i).1 ∧ (d.drop i).2 = (e.drop i).2 := by
  have hbody := h.body i hi
  by_cases hb : (e.body? i).isSome
  · have hd : (d.body? i).isSome := by rw [hbody]; exact hb
    refine ⟨⟨?_, ?_, fun other ho => ?_⟩, ?_⟩
    · simp only [Endpoint.drop, hb, hd, if_true, h.initial]
    · simp only [Endpoint.drop, hb, hd, if_true, h.registry]
    · by_cases hio : i = other
      · rw [hio, body?_drop_self, body?_drop_self]
      · rw [body?_drop_of_ne e hio, body?_drop_of_ne d hio, h.body other ho]
    · simp only [Endpoint.drop, hb, hd, if_true, h.isRegistered]
  · have hd : ¬ (d.body? i).isSome := by rw [hbody]; exact hb
    rw [Endpoint.drop, if_neg hb, Endpoint.drop, if_neg hd]
    exact ⟨h, rfl⟩

/-- A step keeps the difference, and only a poll of that body tells it. -/
theorem step {id : Nat} {e d : Endpoint} (h : SameApartFrom id e d)
    (hid : e.isRegistered id = false) (op : StreamOp) :
    SameApartFrom id (e.step op).2.1 (d.step op).2.1 ∧ (d.step op).2.2 = (e.step op).2.2 ∧
      (op ≠ .poll id → (d.step op).1 = (e.step op).1) := by
  cases op with
  | enqueue chunk => exact ⟨h.deliver chunk true, rfl, fun _ => rfl⟩
  | send chunk => exact ⟨h.deliver chunk false, rfl, fun _ => rfl⟩
  | endAll =>
    refine ⟨⟨h.initial, ?_, h.body⟩, ?_, fun _ => rfl⟩
    · simp only [Endpoint.step, endAll, h.registry]
    · simp only [Endpoint.step, endAll, h.registry]
  | beginClose =>
    refine ⟨⟨h.initial, ?_, h.body⟩, rfl, fun _ => rfl⟩
    simp only [Endpoint.step, beginClose, h.registry]
  | request flush =>
    obtain ⟨hsame, hreply, hnotices⟩ := h.request flush
    rw [step_request, step_request, hreply]
    exact ⟨hsame, hnotices, fun _ => rfl⟩
  | poll i =>
    by_cases hi : i = id
    · subst hi
      exact ⟨((of_poll e i).symm.trans h).trans (of_poll d i), rfl, fun hne => absurd rfl hne⟩
    · obtain ⟨hsame, hreply⟩ := h.poll_of_ne hi
      exact ⟨hsame, rfl, fun _ => congrArg StreamReply.polled hreply⟩
  | drop i =>
    by_cases hi : i = id
    · subst hi
      have hd : d.isRegistered i = false := (h.isRegistered i).trans hid
      obtain ⟨hse, hne⟩ := of_drop hid
      obtain ⟨hsd, hnd⟩ := of_drop hd
      exact ⟨(hse.symm.trans h).trans hsd, hnd.trans hne.symm, fun _ => rfl⟩
    · obtain ⟨hsame, hnotices⟩ := h.drop_of_ne hi
      exact ⟨hsame, hnotices, fun _ => rfl⟩

theorem after {id : Nat} {e d : Endpoint} (h : SameApartFrom id e d) (hw : e.WellFormed)
    (hlt : id < e.registry.nextId) (hid : e.isRegistered id = false) (ops : List StreamOp) :
    SameApartFrom id (e.after ops) (d.after ops) ∧ d.notices ops = e.notices ops ∧
      ∀ other, other ≠ id → d.yielded other ops = e.yielded other ops := by
  induction ops generalizing e d with
  | nil => exact ⟨h, rfl, fun _ _ => rfl⟩
  | cons op ops ih =>
    obtain ⟨hsame, hnotices, hreply⟩ := h.step hid op
    have hlt' : id < (e.step op).2.1.registry.nextId := by
      rw [step_nextId]
      exact Nat.lt_add_right _ hlt
    have hid' : (e.step op).2.1.isRegistered id = false := by
      rw [step_isRegistered hw (Nat.ne_of_lt hlt), hid, Bool.false_and]
    obtain ⟨hafter, hrest, hyielded⟩ := ih hsame (hw.step op) hlt' hid'
    refine ⟨hafter, ?_, fun other ho => ?_⟩
    · rw [notices, gather, gather, hnotices]
      exact congrArg (_ ++ ·) hrest
    · rw [yielded, yielded, hyielded other ho]
      by_cases hp : op = .poll id
      · rw [hp, StreamOp.yields_poll_of_ne ho.symm, StreamOp.yields_poll_of_ne ho.symm]
      · rw [hreply hp]

end SameApartFrom

/-- At every moment: connections were numbered in the order of their admission; each of them either
is registered or has left, once; and as many have left as the notices say. A connection leaves with
the drop of its own body, of which one notice tells, or with all others, of which one notice gives
the count, and by no other step. To drop the body of a connection that is not registered changes
nothing, now or later, but that this body is gone. -/
theorem leaves_once (initial : Option Bytes) (ops : List StreamOp) :
    let start : Endpoint := { initial }
    let e := start.after ops
    start.admitted ops = List.range (admissions ops) ∧
    (start.departed ops ++ e.registry.registered).Perm (start.admitted ops) ∧
    admissions ops = e.registry.registered.length +
      ((start.notices ops).filterMap StreamNotice.removed?).length +
      ((start.notices ops).map StreamNotice.ended).sum ∧
    (∀ op : StreamOp, match op with
      | .drop id => e.departing op = (if e.isRegistered id then [id] else []) ∧
          (e.step op).2.2 = (e.departing op).map .removed
      | .endAll => e.departing op = e.registry.registered ∧
          (e.step op).2.2 = if e.departing op = [] then [] else [.ending (e.departing op).length]
      | _ => e.departing op = [] ∧ ∀ n ∈ (e.step op).2.2, n.removed? = none ∧ n.ended = 0) ∧
    (∀ id, e.isRegistered id = false → (e.drop id).2 = [] ∧ ∀ later,
      ((e.drop id).1.after later).registry = (e.after later).registry ∧
      (e.drop id).1.notices later = e.notices later ∧
      ∀ other, other ≠ id →
        ((e.drop id).1.after later).body? other = (e.after later).body? other ∧
        (e.drop id).1.yielded other later = e.yielded other later) := by
  intro start e
  have hw : e.WellFormed := (wellFormed_fresh initial).after ops
  have hadmitted : start.admitted ops = List.range (admissions ops) := admitted_eq_range initial ops
  have hperm := departed_append_registered initial ops
  refine ⟨hadmitted, hadmitted ▸ hperm, ?_, fun op => ?_, fun id hid => ?_⟩
  · have hlength := hperm.length_eq
    have hcount := departed_length (wellFormed_fresh initial) ops
    rw [List.length_append, List.length_range] at hlength
    simp only [e, start]
    omega
  · cases op with
    | drop id => exact ⟨departing_drop hw id, drop_notices hw id⟩
    | endAll => exact ⟨departing_endAll e, endAll_notices e⟩
    | _ => exact departing_of_stays hw (by simp) (by simp)
  · obtain ⟨hsame, hquiet⟩ := SameApartFrom.of_drop hid
    refine ⟨hquiet, fun later => ?_⟩
    by_cases hb : (e.body? id).isSome
    · obtain ⟨hafter, hnotices, hyielded⟩ := hsame.after hw (hw.body_lt id hb) hid later
      exact ⟨hafter.registry, hnotices, fun other ho => ⟨hafter.body other ho, hyielded other ho⟩⟩
    · have hnothing : (e.drop id).1 = e := by rw [drop, if_neg hb]
      rw [hnothing]
      exact ⟨rfl, rfl, fun _ _ => ⟨rfl, rfl⟩⟩

/-- One connection left with its body and one with all others, whose body is dropped only when a
third one has been admitted. -/
theorem leaves_once_stale :
    let start : Endpoint := { initial := none }
    let ops : List StreamOp := [.request true, .request true, .drop 0, .endAll, .request true]
    let later : List StreamOp := [.send [1], .poll 2, .drop 2]
    let e := start.after ops
    e.isRegistered 1 = false ∧ (e.body? 1).isSome ∧ start.notices ops = [.admitted 0 0,
        .admitted 1 0, .removed 0, .ending 1, .admitted 2 0] ∧
      (start.departed ops ++ [2]).Perm [0, 1, 2] ∧ (e.drop 1).2 = [] ∧
      (e.drop 1).1.yielded 2 later = [[1]] ∧ (e.drop 1).1.notices later = [.removed 2] := by
  intro start ops later e
  have hid : e.isRegistered 1 = false := by decide
  obtain ⟨-, hperm, -, -, hstale⟩ := leaves_once none ops
  obtain ⟨hquiet, hlater⟩ := hstale 1 hid
  obtain ⟨-, hnotices, hothers⟩ := hlater later
  exact ⟨hid, by decide, by decide, hperm, hquiet, (hothers 2 (by decide)).2.trans (by decide),
    hnotices.trans (by decide)⟩

end Endpoint

end Testkit
