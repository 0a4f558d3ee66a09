import Mathlib.Data.Fintype.EquivFin
import Mathlib.Logic.Relation
import Testkit.Proofs.Handler.Coherence

/-! Where sequential and delegating handlers send requests. A sequential handler counts those that come
to it, by whatever way, and a delegating one keeps to the handler set last; what becomes of a request
further on is nothing to them. -/

namespace Testkit

/-- The handlers that a handler may pass requests to itself. -/
def Handler.onward : Handler → List HandlerId
  | .swapping _ _ _ => []
  | h => h.delegates

theorem Handler.mem_onward {h : Handler} {next : HandlerId} (hp : h.passesTo? = some next) :
    next ∈ h.onward := by
  cases h with
  | swapping target next status => simp [passesTo?] at hp
  | _ => exact mem_delegates hp

theorem Handler.onward_passed (h : Handler) (r : Request) : (h.passed r).onward = h.onward := by
  cases h with
  | recording inner records heard => cases heard <;> rfl
  | _ => rfl

namespace Store

variable {s t : Store} {id i : HandlerId} {h : Handler}

/-- The handler and all that it may pass requests to are there, and no request can come back. -/
inductive Grounded (s : Store) : HandlerId → Prop
  | intro {id : HandlerId} {h : Handler} (hs : s.handlers[id]? = some h)
    (hd : ∀ d ∈ h.onward, Grounded s d) : Grounded s id

def PassesOn (s : Store) (i d : HandlerId) : Prop := ∃ h, s.handlers[i]? = some h ∧ d ∈ h.onward

/-- A composition of handlers is grounded if no handler comes back to itself. -/
theorem grounded_of_acyclic (hbound : ∀ i d, s.PassesOn i d → d < s.handlers.length)
    (hacyclic : ∀ i, ¬ Relation.TransGen s.PassesOn i i) (hid : id < s.handlers.length) :
    s.Grounded id := by
  let above : Fin s.handlers.length → Fin s.handlers.length → Prop :=
    fun d i => Relation.TransGen s.PassesOn i d
  have htrans : IsTrans _ above := ⟨fun _ _ _ h h' => h'.trans h⟩
  have hirrefl : Std.Irrefl above := ⟨fun i => hacyclic i⟩
  have hwf : WellFounded above := Finite.wellFounded_of_trans_of_irrefl above
  have hall : ∀ i : Fin s.handlers.length, s.Grounded i := by
    intro i
    induction i using hwf.induction with
    | _ i ih =>
      have hget := List.getElem?_eq_getElem i.isLt
      refine .intro hget fun d hd => ?_
      have hpasses : s.PassesOn i d := ⟨_, hget, hd⟩
      exact ih ⟨d, hbound i d hpasses⟩ (.single hpasses)
  exact hall ⟨id, hid⟩

/-- Handlers that pass requests only to those built before them are grounded. -/
theorem grounded_of_lt (hlt : ∀ p ∈ s.handlers.zipIdx, ∀ d ∈ p.1.onward, d < p.2)
    (hid : id < s.handlers.length) : s.Grounded id := by
  induction id using Nat.strong_induction_on with
  | _ i ih =>
    have hget := List.getElem?_eq_getElem hid
    refine .intro hget fun d hd => ?_
    have hd' : d < i := hlt (s.handlers[i], i) (List.mem_zipIdx_iff_getElem?.mpr hget) d hd
    exact ih d hd' (Nat.lt_trans hd' hid)

theorem Grounded.answers (hg : s.Grounded id)
    (ht : ∀ i : HandlerId, (t.handlers[i]?).map Handler.onward = (s.handlers[i]?).map Handler.onward)
    (r : Request) : ∃ fuel, (serveFor fuel id r t).1 ≠ .unanswered := by
  induction hg generalizing t with
  | @intro id g hs _ ih =>
    have hid := ht id
    rw [hs] at hid
    obtain ⟨h, hget, honward⟩ := Option.map_eq_some_iff.mp hid
    cases hp : h.passesTo? with
    | none => exact ⟨1, answers_of_answer hget hp r⟩
    | some next =>
      have hnext : next ∈ g.onward := honward ▸ Handler.mem_onward hp
      have hvisit : ∀ i : HandlerId, ((t.visit id r).handlers[i]?).map Handler.onward =
          (s.handlers[i]?).map Handler.onward := by
        intro i
        rw [handlers_visit_of_pass hget hp, ← ht i]
        by_cases hi : id = i
        · subst hi
          rw [List.getElem?_set_self (List.getElem?_eq_some_iff.mp hget).1, hget, Option.map_some,
            Option.map_some, Handler.onward_passed]
        · rw [List.getElem?_set_ne hi]
      obtain ⟨fuel, hfuel⟩ := ih next hnext hvisit
      exact ⟨fuel + 1, by rwa [serveFor_pass hget hp]⟩

theorem Grounded.serve_answers (hg : s.Grounded id) (r : Request) :
    (s.serve id r).1 ≠ .unanswered := by
  obtain ⟨fuel, hfuel⟩ := hg.answers (fun _ => rfl) r
  rwa [serve_eq_serveFor hfuel]

/-- Whether each request finds a composition of handlers without circles. -/
def Acyclic : Store → List HandlerOp → Prop
  | _, [] => True
  | s, op :: ops => (∀ p ∈ op.asked?, s.Grounded p.1) ∧ Acyclic (s.operate op).2 ops

theorem Acyclic.answers {ops : List HandlerOp} (h : s.Acyclic ops) :
    .answered .unanswered ∉ (run ops s).1 := by
  induction ops generalizing s with
  | nil => exact List.not_mem_nil
  | cons op ops ih =>
    obtain ⟨hop, hops⟩ := h
    intro hmem
    rcases List.mem_append.mp hmem with hmem | hmem
    · obtain ⟨id, r, hid, ha⟩ := answered_mem_operate_iff.mp hmem
      exact (hop (id, r) hid).serve_answers r ha
    · exact ih hops hmem

end Store

def Happening.setting? (i : HandlerId) : Happening → Option HandlerId
  | .redirected id next => if id = i then some next else none
  | _ => none

/-- The handlers that are set for a delegating one. -/
def settingsAt (i : HandlerId) (log : List Happening) : List HandlerId :=
  log.filterMap (Happening.setting? i)

/-- Where a request that comes to a handler goes next. -/
def Happening.onward? (i : HandlerId) (later : List Happening) : Happening → Option HandlerId
  | .visited id _ =>
    if id = i then
      match later with
      | .visited next _ :: _ => some next
      | _ => none
    else none
  | _ => none

/-- The handlers to which a handler passes the requests that come to it. -/
def passings (i : HandlerId) : List Happening → List HandlerId
  | [] => []
  | e :: later => (e.onward? i later).toList ++ passings i later

theorem Happening.onward?_of_visit? {e : Happening} {i : HandlerId} (h : e.visit? i = none)
    (later : List Happening) : e.onward? i later = none := by
  cases e with
  | visited id r =>
    have hi : id ≠ i := fun hi => by simp [visit?, hi] at h
    simp only [onward?, if_neg hi]
  | _ => rfl

namespace Handler

variable {first : HandlerId} {rest : List HandlerId} {i : HandlerId} {log : List Happening}

theorem advance_val {n : Nat} (next : Fin (n + 1)) : (advance next).val = min (next.val + 1) n := by
  by_cases h : next.val < n
  · rw [advance, dif_pos h]
    exact (Nat.min_eq_left h).symm
  · rw [advance, dif_neg h]
    omega

theorem meets_sequential (next : Fin (rest.length + 1)) (i : HandlerId) (e : Happening) :
    (Handler.sequential first rest next).meets i e =
      .sequential first rest (if (e.visit? i).isSome then advance next else next) := by
  cases e with
  | visited id r =>
    by_cases hi : id = i
    · simp [meets, Happening.at?, Happening.visit?, hi, after, visited, passed]
    · simp [meets, Happening.at?, Happening.visit?, hi]
  | answered _ | replied _ => rfl
  | _ =>
    rw [meets]
    split <;> rfl

theorem along_sequential (first : HandlerId) (next : Fin (rest.length + 1)) (i : HandlerId)
    (log : List Happening) :
    ∃ now : Fin (rest.length + 1),
      (Handler.sequential first rest next).along i log = .sequential first rest now ∧
        now.val = min (next.val + (requestsAt i log).length) rest.length := by
  induction log generalizing next with
  | nil => exact ⟨next, rfl, (Nat.min_eq_left (Nat.le_of_lt_succ next.isLt)).symm⟩
  | cons e log ih =>
    rw [along_cons, meets_sequential]
    obtain ⟨now, halong, hnow⟩ := ih (if (e.visit? i).isSome then advance next else next)
    refine ⟨now, halong, hnow.trans ?_⟩
    cases hv : e.visit? i with
    | none => simp [requestsAt, hv]
    | some r =>
      have hlt := next.isLt
      simp only [requestsAt, List.filterMap_cons, hv, List.length_cons, Option.isSome_some,
        if_true, advance_val]
      omega

theorem meets_delegating (current : HandlerId) (i : HandlerId) (e : Happening) :
    (Handler.delegating current).meets i e = .delegating ((e.setting? i).getD current) := by
  cases e with
  | redirected id next =>
    by_cases hi : id = i
    · simp [meets, Happening.at?, Happening.setting?, hi, after, redirected]
    · simp [meets, Happening.at?, Happening.setting?, hi]
  | answered _ | replied _ => rfl
  | _ =>
    rw [meets]
    split <;> rfl

theorem along_delegating (current : HandlerId) (i : HandlerId) (log : List Happening) :
    (Handler.delegating current).along i log =
      .delegating ((settingsAt i log).getLast?.getD current) := by
  induction log generalizing current with
  | nil => rfl
  | cons e log ih =>
    rw [along_cons, meets_delegating, ih]
    cases hs : e.setting? i with
    | none => simp [settingsAt, hs]
    | some next => simp [settingsAt, hs, List.getLast?_cons]

end Handler

section

variable {hs : HandlerId → Option Handler} {log before later : List Happening} {i : HandlerId}
  {r : Request} {first current : HandlerId} {rest : List HandlerId}

theorem passings_sequential {next : Fin (rest.length + 1)} (hlog : Coherent hs log)
    (hi : hs i = some (.sequential first rest next)) :
    (passings i log).map some = (List.range (requestsAt i log).length).map fun k =>
      (first :: rest)[min (next.val + k) rest.length]? := by
  -- From any turn: the first request to come moves the handler on before the others.
  induction log generalizing hs next with
  | nil => rfl
  | cons e log ih =>
    obtain ⟨he, hlater⟩ := hlog
    have hnext : replayed [e] hs i =
        some (.sequential first rest (if (e.visit? i).isSome then advance next else next)) := by
      rw [replayed, hi]
      exact congrArg some (Handler.meets_sequential next i e)
    have hrest := ih hlater hnext
    cases hv : e.visit? i with
    | none =>
      simp only [hv, Option.isSome_none, Bool.false_eq_true, if_false] at hrest
      simpa [passings, requestsAt, hv, Happening.onward?_of_visit? hv] using hrest
    | some r =>
      have honward : e.onward? i log = some ((first :: rest).get next) := by
        obtain rfl := Happening.eq_of_visit? hv
        have hvisit : Coherent hs ([] ++ .visited i r :: log) := ⟨he, hlater⟩
        obtain ⟨more, rfl⟩ := hvisit.next_of_passesTo? hi rfl
        simp only [Happening.onward?, if_true]
      have hget : some ((first :: rest).get next) =
          (first :: rest)[min (next.val + 0) rest.length]? := by
        rw [Nat.add_zero, Nat.min_eq_left (Nat.le_of_lt_succ next.isLt)]
        exact (List.getElem?_eq_getElem next.isLt).symm
      have hlength : (requestsAt i (e :: log)).length = (requestsAt i log).length + 1 := by
        rw [requestsAt, List.filterMap_cons, hv]
        rfl
      rw [passings, honward, hlength, List.range_succ_eq_map, List.map_cons, List.map_map, ← hget]
      refine congrArg (some _ :: ·) (hrest.trans (List.map_congr_left fun k _ => ?_))
      have hval : min ((if (e.visit? i).isSome then advance next else next).val + k) rest.length =
          min (next.val + (k + 1)) rest.length := by
        rw [hv, Option.isSome_some, if_pos rfl, Handler.advance_val]
        omega
      rw [hval]
      rfl

theorem map_range_turns {α : Type} (first : α) (rest : List α) (n : Nat) :
    ((List.range n).map fun k => (first :: rest)[min k rest.length]?) =
      ((first :: rest).take n ++ List.replicate (n - (rest.length + 1))
        ((first :: rest).getLast (List.cons_ne_nil first rest))).map some := by
  have hlast : (first :: rest)[rest.length]? =
      some ((first :: rest).getLast (List.cons_ne_nil first rest)) := by
    rw [List.getLast_eq_getElem]
    exact List.getElem?_eq_getElem (Nat.lt_succ_self _)
  refine List.ext_getElem? fun k => ?_
  by_cases hk : k < n
  · rw [List.getElem?_map, List.getElem?_range hk, List.getElem?_map, Option.map_some]
    by_cases hr : k < rest.length + 1
    · have htake : k < ((first :: rest).take n).length := by
        rw [List.length_take]
        exact Nat.lt_min.mpr ⟨hk, hr⟩
      rw [Nat.min_eq_left (Nat.le_of_lt_succ hr), List.getElem?_append_left htake,
        List.getElem?_take_of_lt hk, List.getElem?_eq_getElem hr]
      rfl
    · have htake : ((first :: rest).take n).length = rest.length + 1 := by
        rw [List.length_take, List.length_cons]
        omega
      have hle : ((first :: rest).take n).length ≤ k := by omega
      have hrep : k - (rest.length + 1) < n - (rest.length + 1) := by omega
      have hmin : min k rest.length = rest.length := by omega
      rw [hmin, hlast, List.getElem?_append_right hle, htake, List.getElem?_replicate_of_lt hrep]
      rfl
  · rw [List.getElem?_eq_none (by simpa using hk), List.getElem?_eq_none]
    simp only [List.length_map, List.length_append, List.length_take, List.length_cons,
      List.length_replicate]
    omega

/-- Where the requests of a run go. -/
structure Routed (hs : HandlerId → Option Handler) (log : List Happening) : Prop where
  answered : .answered .unanswered ∉ log
  /-- Each request that comes to a sequential handler goes one handler further than the one before, but
  not beyond the last. -/
  sequential {i : HandlerId} {first : HandlerId} {rest : List HandlerId}
    {next : Fin (rest.length + 1)} (hi : hs i = some (.sequential first rest next))
    {before later : List Happening} {r : Request} (hlog : log = before ++ .visited i r :: later) :
    ∃ d more, (first :: rest)[min (next.val + (requestsAt i before).length) rest.length]? = some d ∧
      later = .visited d r :: more
  /-- Each handler before the last gets one request. -/
  once {i : HandlerId} {first : HandlerId} {rest : List HandlerId}
    {next : Fin (rest.length + 1)} (hi : hs i = some (.sequential first rest next))
    (hnext : next.val = 0) :
    passings i log = (first :: rest).take (requestsAt i log).length ++
      List.replicate ((requestsAt i log).length - (rest.length + 1))
        ((first :: rest).getLast (List.cons_ne_nil first rest))
  /-- Each request that comes to a delegating handler goes to the one set last. -/
  delegating {i : HandlerId} {current : HandlerId} (hi : hs i = some (.delegating current))
    {before later : List Happening} {r : Request} (hlog : log = before ++ .visited i r :: later) :
    ∃ more, later = .visited ((settingsAt i before).getLast?.getD current) r :: more
  /-- Each request that is not passed on is answered by what the handler is by then, and that is what has
  happened to it and not to others. -/
  own {i : HandlerId} {h : Handler} (hi : hs i = some h) {before later : List Happening}
    {r : Request} (hlog : log = before ++ .visited i r :: later)
    (hp : (h.along i before).passesTo? = none) :
    later.findSome? Happening.answer? = some ((h.along i before).reply i r)

theorem Coherent.routed (hlog : Coherent hs log) (hanswer : .answered .unanswered ∉ log) :
    Routed hs log where
  answered := hanswer
  sequential {i first rest next} hi {before later r} he := by
    subst he
    obtain ⟨now, halong, hnow⟩ := Handler.along_sequential first next i before
    have hp : ((Handler.sequential first rest next).along i before).passesTo? =
        some ((first :: rest).get now) := by
      rw [halong]
      rfl
    obtain ⟨more, hmore⟩ := hlog.next_of_passesTo? hi hp
    refine ⟨_, more, ?_, hmore⟩
    rw [← hnow]
    exact List.getElem?_eq_getElem now.isLt
  once {i first rest next} hi hnext := by
    have hpassings := passings_sequential hlog hi
    simp only [hnext, Nat.zero_add] at hpassings
    rw [map_range_turns] at hpassings
    exact List.map_injective_iff.mpr (Option.some_injective _) hpassings
  delegating {i current} hi {before later r} he := by
    subst he
    refine hlog.next_of_passesTo? hi ?_
    rw [Handler.along_delegating]
    rfl
  own {i h} hi {before later r} he hp := by
    subst he
    exact hlog.reply_of_passesTo? hi hp

end

/-- Each request of a run finds every handler as the requests before have left it, whatever came of them:
the sequential ones at their next turn, the delegating ones with the handler that was set last. -/
theorem requests_routed_by_turn (s : Store) (ops : List HandlerOp) (h : s.Acyclic ops) :
    Routed s.state (Store.run ops s).1 ∧ s.Undergoes (Store.run ops s).1 (Store.run ops s).2 :=
  ⟨(Store.coherent_run h.answers).routed h.answers, Store.undergoes_run ops s⟩

/-- A sequential handler in two places, one of them behind a delegating handler. -/
def relay : Store where
  handlers := [.panicking (.text "first"), .broken, .fixed (.ofStatus 200),
    .sequential 0 [1, 2] ⟨0, by decide⟩, .fixed (.ofStatus 404), .delegating 3,
    .sequential 5 [3] ⟨0, by decide⟩]

/-- The sequential handler is swapped out after a panic and set again. -/
def relayOps : List HandlerOp :=
  [.request 5 default, .setHandler 5 4, .send 5 default, .setHandler 5 3, .request 6 default,
    .request 6 default, .request 5 default]

theorem relay_acyclic : relay.Acyclic relayOps := by
  have hask (s : Store) (hlt : ∀ p ∈ s.handlers.zipIdx, ∀ d ∈ p.1.onward, d < p.2) (r : Request)
      {id : HandlerId} (hid : id < s.handlers.length) : ∀ p ∈ some (id, r), s.Grounded p.1 := by
    intro p hp
    obtain rfl := Option.some.inj hp
    exact Store.grounded_of_lt hlt hid
  have hset (s : Store) : ∀ p ∈ (none : Option (HandlerId × Request)), s.Grounded p.1 :=
    fun _ hp => by cases hp
  exact ⟨hask _ (by decide) _ (by decide), hset _, hask _ (by decide) _ (by decide), hset _,
    hask _ (by decide) _ (by decide), hask _ (by decide) _ (by decide),
    hask _ (by decide) _ (by decide), trivial⟩

theorem requests_routed_by_turn_of_relay :
    (Routed relay.state (Store.run relayOps relay).1 ∧
      relay.Undergoes (Store.run relayOps relay).1 (Store.run relayOps relay).2) ∧
      passings 3 (Store.run relayOps relay).1 = [0, 1, 2, 2] ∧
      passings 5 (Store.run relayOps relay).1 = [3, 4, 3, 3] ∧
      (Store.run relayOps relay).1.filterMap Happening.answer? =
        [.panicked (.text "first"), .response (.ofStatus 404), .broke, .response (.ofStatus 200),
          .response (.ofStatus 200)] :=
  ⟨requests_routed_by_turn relay relayOps relay_acyclic, by decide, by decide, by decide⟩

end Testkit
