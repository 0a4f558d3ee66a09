import Mathlib.Data.List.Nodup
import Mathlib.Data.List.Perm.Subperm
import Testkit.Handler.Serve

/-! The way that a request takes: each handler on it passes the request on and remembers it, and the
last one answers. No handler comes twice on a way, so that there is always fuel for it. -/

namespace Testkit

namespace Handler

/-- The handler that the next request is passed to. -/
def passesTo? : Handler → Option HandlerId
  | .sequential first rest next => some ((first :: rest).get next)
  | .delegating current => some current
  | .recording inner _ _ => some inner
  | _ => none

/-- The handler once it has passed on a request. -/
def passed (r : Request) : Handler → Handler
  | .sequential first rest next => .sequential first rest (advance next)
  | .recording inner records true => .recording inner (records ++ [r.recorded]) true
  | h => h

theorem mem_delegates {h : Handler} {next : HandlerId} (hp : h.passesTo? = some next) :
    next ∈ h.delegates := by
  cases h with
  | sequential first rest i => exact Option.some.inj hp ▸ List.get_mem _ _
  | delegating current => exact Option.some.inj hp ▸ List.mem_singleton.mpr rfl
  | recording inner records heard => exact Option.some.inj hp ▸ List.mem_singleton.mpr rfl
  | _ => simp [passesTo?] at hp

theorem passed_of_passesTo?_eq_none {h : Handler} (hp : h.passesTo? = none) (r : Request) :
    h.passed r = h := by
  cases h <;> first | rfl | simp [passesTo?] at hp

theorem passed_flush (r : Request) (flush : Bool) (h : Handler) :
    h.passed { r with flush } = h.passed r := by
  cases h with
  | recording inner records heard => cases heard <;> rfl
  | _ => rfl

/-- The handlers that answer in full or not at all, and those that pass requests on. -/
def IsPlain : Handler → Prop
  | .fixed r => ∃ body, r.body = .ofBytes body
  | .json _ _ | .sequential _ _ _ | .delegating _ | .recording _ _ _ | .broken | .panicking _ => True
  | _ => False

/-- What comes of a request that a plain handler does not pass on. -/
def served : Handler → Served
  | .fixed r => .response r
  | .json (.ok value) headers => .response (jsonResponse value.compact headers)
  | .json (.error _) _ => .response (.ofStatus 500)
  | .broken => .broke
  | .panicking payload => .panicked payload
  | _ => .unanswered

end Handler

namespace Store

/-- A request that comes to the first handler takes the way to the last one, which answers it. -/
inductive Routes (s : Store) : HandlerId → List HandlerId → Handler → Prop
  | answer {id : HandlerId} {h : Handler} (hs : s.handlers[id]? = some h)
    (hp : h.passesTo? = none) : Routes s id [id] h
  | pass {id next : HandlerId} {h leaf : Handler} {way : List HandlerId}
    (hs : s.handlers[id]? = some h) (hp : h.passesTo? = some next) (hr : Routes s next way leaf) :
    Routes s id (id :: way) leaf

namespace Routes

variable {s : Store} {id : HandlerId} {way : List HandlerId} {leaf : Handler}

theorem passesTo?_leaf (h : s.Routes id way leaf) : leaf.passesTo? = none := by
  induction h with
  | answer _ hp => exact hp
  | pass _ _ _ ih => exact ih

theorem unique {way' : List HandlerId} {leaf' : Handler} (h : s.Routes id way leaf)
    (h' : s.Routes id way' leaf') : way = way' := by
  induction h generalizing way' with
  | answer hs hp =>
    cases h' with
    | answer => rfl
    | pass hs' hp' =>
      obtain rfl := Option.some.inj (hs.symm.trans hs')
      simp [hp] at hp'
  | pass hs hp _ ih =>
    cases h' with
    | answer hs' hp' =>
      obtain rfl := Option.some.inj (hs.symm.trans hs')
      simp [hp] at hp'
    | pass hs' hp' hr' =>
      obtain rfl := Option.some.inj (hs.symm.trans hs')
      obtain rfl := Option.some.inj (hp.symm.trans hp')
      rw [ih hr']

theorem from_mem (h : s.Routes id way leaf) {i : HandlerId} (hi : i ∈ way) :
    ∃ later, s.Routes i later leaf ∧ later <:+ way := by
  induction h with
  | @answer id' h' hs hp =>
    obtain rfl := List.mem_singleton.mp hi
    exact ⟨[i], .answer hs hp, List.suffix_refl _⟩
  | @pass id' next h' leaf' way' hs hp hr ih =>
    rcases List.mem_cons.mp hi with rfl | hi
    · exact ⟨i :: way', .pass hs hp hr, List.suffix_refl _⟩
    · obtain ⟨later, hl, hsuffix⟩ := ih hi
      exact ⟨later, hl, hsuffix.trans (List.suffix_cons _ _)⟩

theorem nodup (h : s.Routes id way leaf) : way.Nodup := by
  induction h with
  | answer _ _ => exact List.nodup_singleton _
  | @pass id' next h' leaf' way' hs hp hr ih =>
    refine List.nodup_cons.mpr ⟨fun hi => ?_, ih⟩
    -- The way from there on would be the whole way, which is longer.
    obtain ⟨later, hl, hsuffix⟩ := hr.from_mem hi
    have hlater : id' :: way' = later := unique (.pass hs hp hr) hl
    have hle := hsuffix.length_le
    rw [← hlater, List.length_cons] at hle
    omega

theorem lt_length (h : s.Routes id way leaf) {i : HandlerId} (hi : i ∈ way) :
    i < s.handlers.length := by
  obtain ⟨later, hl, -⟩ := h.from_mem hi
  cases hl with
  | answer hs _ => exact (List.getElem?_eq_some_iff.mp hs).1
  | pass hs _ _ => exact (List.getElem?_eq_some_iff.mp hs).1

theorem length_le (h : s.Routes id way leaf) : way.length ≤ s.handlers.length := by
  have hsub : way ⊆ List.range s.handlers.length := fun i hi => List.mem_range.mpr (h.lt_length hi)
  simpa using (List.subperm_of_subset h.nodup hsub).length_le

theorem congr {t : Store} (h : s.Routes id way leaf)
    (ht : ∀ i ∈ way, t.handlers[i]? = s.handlers[i]?) : t.Routes id way leaf := by
  induction h with
  | answer hs hp => exact .answer ((ht _ (List.mem_singleton.mpr rfl)).trans hs) hp
  | pass hs hp _ ih =>
    obtain ⟨hid, hway⟩ := List.forall_mem_cons.mp ht
    exact .pass (hid.trans hs) hp (ih hway)

end Routes

theorem length_le_longestWay (s : Store) : s.handlers.length ≤ s.longestWay := by
  have hturns : ∀ (hs : List Handler) (n : Nat), n ≤ hs.foldl (fun n h => n + h.turnsLeft) n := by
    intro hs
    induction hs with
    | nil => exact fun n => Nat.le_refl n
    | cons h hs ih => exact fun n => Nat.le_trans (Nat.le_add_right n _) (ih _)
  exact Nat.le_mul_of_pos_right _ (hturns s.handlers 1)

theorem handlers_set_self {s : Store} {id : HandlerId} {h : Handler}
    (hs : s.handlers[id]? = some h) : s.handlers.set id h = s.handlers := by
  obtain ⟨hlt, hget⟩ := List.getElem?_eq_some_iff.mp hs
  rw [← hget, List.set_getElem_self]

/-- The store once a request has come to a handler and is either answered by it or on its way to the
next one. -/
def visit (s : Store) (id : HandlerId) (r : Request) : Store := (serveFor 1 id r s).2

theorem serveFor_pass {s : Store} {id next : HandlerId} {h : Handler}
    (hs : s.handlers[id]? = some h) (hp : h.passesTo? = some next) (fuel : Nat) (r : Request) :
    serveFor (fuel + 1) id r s = serveFor fuel next r (s.visit id r) := by
  cases h with
  | sequential first rest i =>
    obtain rfl := Option.some.inj hp
    simp only [visit, serveFor, hs]
  | delegating current =>
    obtain rfl := Option.some.inj hp
    simp only [visit, serveFor, hs]
  | recording inner records heard =>
    obtain rfl := Option.some.inj hp
    simp only [visit, serveFor, hs]
  | _ => simp [Handler.passesTo?] at hp

theorem handlers_visit_of_pass {s : Store} {id next : HandlerId} {h : Handler}
    (hs : s.handlers[id]? = some h) (hp : h.passesTo? = some next) (r : Request) :
    (s.visit id r).handlers = s.handlers.set id (h.passed r) := by
  cases h with
  | sequential first rest i =>
    simp only [visit, serveFor, hs]
    rfl
  | delegating current =>
    simp only [visit, serveFor, hs]
    exact (handlers_set_self hs).symm
  | recording inner records heard =>
    simp only [visit, serveFor, hs]
    cases heard with
    | false => exact (handlers_set_self hs).symm
    | true => rfl
  | _ => simp [Handler.passesTo?] at hp

theorem serveFor_answer {s : Store} {id : HandlerId} {h : Handler}
    (hs : s.handlers[id]? = some h) (hp : h.passesTo? = none) (hk : h.IsPlain) (fuel : Nat)
    (r : Request) : (serveFor (fuel + 1) id r s).1 = h.served ∧
      (serveFor (fuel + 1) id r s).2.handlers = s.handlers := by
  cases h with
  | json value headers => cases value <;> simp [serveFor, hs, Handler.served, notify]
  | fixed _ | broken | panicking _ => simp [serveFor, hs, Handler.served, notify]
  | sequential _ _ _ | delegating _ | recording _ _ _ => simp [Handler.passesTo?] at hp
  | _ => exact absurd hk (by simp [Handler.IsPlain])

/-- The handlers once a request has taken its way. -/
def passedAlong (s : Store) (way : List HandlerId) (r : Request) : List Handler :=
  s.handlers.mapIdx fun i h => if i ∈ way then h.passed r else h

theorem serveFor_of_routes {s : Store} {id : HandlerId} {way : List HandlerId} {leaf : Handler}
    (h : s.Routes id way leaf) (hk : leaf.IsPlain) {fuel : Nat} (hfuel : way.length ≤ fuel)
    (r : Request) : (serveFor fuel id r s).1 = leaf.served ∧
      (serveFor fuel id r s).2.handlers = s.passedAlong way r := by
  induction fuel generalizing s id way with
  | zero => cases h <;> simp at hfuel
  | succ fuel ih =>
    cases h with
    | answer hs hp =>
      obtain ⟨hserved, hhandlers⟩ := serveFor_answer hs hp hk fuel r
      refine ⟨hserved, hhandlers.trans (List.ext_getElem? fun i => ?_)⟩
      rw [passedAlong, List.getElem?_mapIdx]
      by_cases hi : i = id
      · simp [hi, hs, Handler.passed_of_passesTo?_eq_none hp]
      · simp [hi]
    | @pass _ next h _ way hs hp hr =>
      -- The rest of the way does not come back here, so that it is the same once this handler has
      -- passed the request on.
      obtain ⟨hid, -⟩ := List.nodup_cons.mp (Routes.pass hs hp hr).nodup
      have ht := handlers_visit_of_pass hs hp r
      have hother : ∀ i, i ≠ id → (s.visit id r).handlers[i]? = s.handlers[i]? := fun i hi => by
        rw [ht, List.getElem?_set_ne (Ne.symm hi)]
      have hway : (s.visit id r).Routes next way leaf :=
        hr.congr fun i hi => hother i fun he => hid (he ▸ hi)
      obtain ⟨hserved, hhandlers⟩ := ih hway (Nat.le_of_succ_le_succ hfuel)
      rw [serveFor_pass hs hp fuel r]
      refine ⟨hserved, hhandlers.trans (List.ext_getElem? fun i => ?_)⟩
      rw [passedAlong, passedAlong, List.getElem?_mapIdx, List.getElem?_mapIdx]
      by_cases hi : i = id
      · obtain ⟨hlt, hget⟩ := List.getElem?_eq_some_iff.mp hs
        simp [hi, hid, ht, hlt, hget]
      · simp [hi, hother i hi]

theorem serve_of_routes {s : Store} {id : HandlerId} {way : List HandlerId} {leaf : Handler}
    (h : s.Routes id way leaf) (hk : leaf.IsPlain) (r : Request) :
    ∃ t, s.serve id r = (leaf.served, t) ∧ t.handlers = s.passedAlong way r :=
  let ⟨hserved, hhandlers⟩ :=
    serveFor_of_routes h hk (Nat.le_trans h.length_le s.length_le_longestWay) r
  ⟨_, Prod.ext hserved rfl, hhandlers⟩

/-- The handler and all that it can pass requests to are plain, and no request can come to a handler
again: every way ends. -/
inductive Plain (s : Store) : HandlerId → Prop
  | intro {id : HandlerId} {h : Handler} (hs : s.handlers[id]? = some h) (hk : h.IsPlain)
    (hd : ∀ d ∈ h.delegates, Plain s d) : Plain s id

theorem Plain.routes {s : Store} {id : HandlerId} (h : s.Plain id) :
    ∃ way leaf, s.Routes id way leaf ∧ leaf.IsPlain := by
  induction h with
  | @intro id h hs hk _ ih =>
    cases hp : h.passesTo? with
    | none => exact ⟨[id], h, .answer hs hp, hk⟩
    | some next =>
      obtain ⟨way, leaf, hr, hleaf⟩ := ih next (Handler.mem_delegates hp)
      exact ⟨id :: way, leaf, .pass hs hp hr, hleaf⟩

end Store

end Testkit
