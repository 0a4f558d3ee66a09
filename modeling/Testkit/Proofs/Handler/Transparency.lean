import Testkit.Proofs.Handler.Coherence

/-! Recorders change nothing: what happens with a recorder, other than to itself, happens in the same order
if all that refers to the recorder refers to the handler behind it instead. -/

namespace Testkit

namespace Handler

/-- The handler with other handlers in the place of those it refers to. -/
def rewire (f : HandlerId → HandlerId) : Handler → Handler
  | .sequential first rest next =>
    .sequential (f first) (rest.map f) (next.cast (by rw [List.length_map]))
  | .delegating current => .delegating (f current)
  | .recording inner records heard => .recording (f inner) records heard
  | .swapping target next status => .swapping target (f next) status
  | h => h

variable (f : HandlerId → HandlerId)

theorem passesTo?_rewire (h : Handler) : (h.rewire f).passesTo? = h.passesTo?.map f := by
  cases h with
  | sequential first rest next =>
    simp only [rewire, passesTo?, Option.map_some, List.get_eq_getElem, ← List.map_cons,
      List.getElem_map, Fin.val_cast]
  | _ => rfl

theorem reply_rewire (id : HandlerId) (r : Request) {h : Handler} :
    (h.rewire f).reply id r = h.reply id r := by
  cases h <;> rfl

theorem isDelegating_rewire (h : Handler) : (h.rewire f).isDelegating = h.isDelegating := by
  cases h <;> rfl

theorem records_rewire (h : Handler) : (h.rewire f).records = h.records := by
  cases h <;> rfl

theorem endpoint?_rewire (h : Handler) : (h.rewire f).endpoint? = h.endpoint? := by
  cases h <;> rfl

theorem restream_rewire (g : Endpoint → Endpoint) (h : Handler) :
    (h.rewire f).restream g = (h.restream g).rewire f := by
  cases h <;> rfl

theorem advance_cast {m n : Nat} (hmn : m + 1 = n + 1) (next : Fin (m + 1)) :
    advance (next.cast hmn) = (advance next).cast hmn := by
  obtain rfl := Nat.succ.inj hmn
  rfl

theorem visited_rewire (r : Request) (h : Handler) :
    (h.rewire f).visited r = (h.visited r).rewire f := by
  cases h with
  | sequential first rest next =>
    simp only [rewire, visited, passed, advance_cast]
  | recording inner records heard => cases heard <;> rfl
  | _ => rfl

end Handler

/-- What happens if others are set. -/
def Happening.rewire (f : HandlerId → HandlerId) : Happening → Happening
  | .redirected id next => .redirected id (f next)
  | e => e

def HandlerOp.rewire (f : HandlerId → HandlerId) : HandlerOp → HandlerOp
  | .request id r => .request (f id) r
  | .send id r => .send (f id) r
  | .setHandler id next => .setHandler id (f next)
  | op => op

/-- The handler to which something is done. -/
def HandlerOp.target? : HandlerOp → Option HandlerId
  | .setHandler id _ | .takeRecords id | .dropReceiver id | .onStream id _ => some id
  | .request _ _ | .send _ _ => none

theorem HandlerOp.target?_rewire (f : HandlerId → HandlerId) (op : HandlerOp) :
    (op.rewire f).target? = op.target? := by
  cases op <;> rfl

theorem Happening.at?_rewire (f : HandlerId → HandlerId) (e : Happening) :
    (e.rewire f).at? = e.at? := by
  cases e <;> rfl

namespace Handler

theorem after_rewire (f : HandlerId → HandlerId) (e : Happening) (h : Handler) :
    (h.rewire f).after (e.rewire f) = (h.after e).rewire f := by
  cases e with
  | visited id r => exact visited_rewire f r h
  | streamed id e => exact restream_rewire f (fun _ => e) h
  | answered _ | replied _ => rfl
  | _ => cases h <;> rfl

theorem meets_rewire (f : HandlerId → HandlerId) (i : HandlerId) (e : Happening) (h : Handler) :
    (h.rewire f).meets i (e.rewire f) = (h.meets i e).rewire f := by
  rw [meets, meets, Happening.at?_rewire, after_rewire]
  split <;> rfl

theorem along_recording (inner : HandlerId) (i : HandlerId) (log : List Happening)
    (records : List Request) (heard : Bool) : ∃ records' heard',
      (Handler.recording inner records heard).along i log = .recording inner records' heard' := by
  induction log generalizing records heard with
  | nil => exact ⟨records, heard, rfl⟩
  | cons e log ih =>
    have hmeets : ∃ records' heard',
        (Handler.recording inner records heard).meets i e = .recording inner records' heard' := by
      rw [meets]
      split
      · cases e with
        | visited id r => cases heard <;> exact ⟨_, _, rfl⟩
        | _ => exact ⟨_, _, rfl⟩
      · exact ⟨_, _, rfl⟩
    obtain ⟨records', heard', he⟩ := hmeets
    rw [along_cons, he]
    exact ih records' heard'

end Handler

namespace Store

variable {s : Store} {id : HandlerId}

theorem names_delegateTo (s : Store) (id next : HandlerId) : (s.delegateTo id next).names = s.names := by
  rw [delegateTo]
  split <;> rfl

theorem names_onEndpoint (s : Store) (id : HandlerId)
    (f : Endpoint → Endpoint × List StreamNotice) : (s.onEndpoint id f).names = s.names := by
  rw [onEndpoint]
  split <;> rfl

theorem names_operate {op : HandlerOp} {id : HandlerId} (s : Store) (hop : op.target? = some id) :
    (s.operate op).2.names = s.names := by
  cases op with
  | request _ _ | send _ _ => cases hop
  | setHandler id next => exact s.names_delegateTo id next
  | takeRecords id | dropReceiver id => rfl
  | onStream id f => exact s.names_onEndpoint id f

theorem at?_of_mem_operate {op : HandlerOp} {id : HandlerId} (s : Store)
    (hop : op.target? = some id) {e : Happening} (he : e ∈ (s.operate op).1) :
    e.at? = some id := by
  cases op with
  | request _ _ | send _ _ => cases hop
  | onStream id f =>
    obtain ⟨endpoint, -, rfl⟩ := List.mem_map.mp he
    exact hop
  | _ =>
    obtain rfl := List.mem_singleton.mp he
    exact hop

theorem names_serveFor (fuel : Nat) (id : HandlerId) (r : Request) (s : Store) :
    (serveFor fuel id r s).2.names = s.names := by
  induction fuel generalizing s id with
  | zero => rfl
  | succ fuel ih =>
    cases hs : s.handlers[id]? with
    | none => simp only [serveFor, hs]
    | some h =>
      cases h with
      | json value headers => cases value <;> simp only [serveFor, hs, notify]
      | recording inner records heard => cases heard <;> simp [serveFor, hs, ih, set]
      | swapping target next status =>
        simp only [serveFor, hs]
        split
        · exact names_delegateTo s _ next
        · rfl
      | stream e contentType environment =>
        simp only [serveFor, hs]
        split <;> rfl
      | _ => simp only [serveFor, hs, ih, notify, set]

theorem endpoint?_of_restream {s t : Store} {id : HandlerId} {g : Endpoint → Endpoint}
    (ht : t.handlers = s.handlers.modify id (Handler.restream g)) :
    t.endpoint? id = (s.endpoint? id).map g := by
  rw [endpoint?, endpoint?, ht, List.getElem?_modify_eq]
  cases s.handlers[id]? with
  | none => rfl
  | some h => cases h <;> rfl

theorem available_live (s : Store) (id connection : Nat) :
    s.available (.live id connection) = (s.endpoint? id).elim 0 fun e =>
      (e.body? connection).elim 0 fun b => b.head.length + b.live.length := by
  rw [available, endpoint?]
  cases s.handlers[id]? with
  | none => rfl
  | some h => cases h <;> rfl

theorem drainFor_of_not_chunk {n : Nat} {body : ResponseBody}
    (hp : ∀ c, (s.poll body).1 ≠ .chunk c) : drainFor (n + 1) body s = ([], s.poll body) := by
  rw [drainFor]
  split
  · next c _ _ he => exact absurd (congrArg Prod.fst he) (hp c)
  · rfl

end Store

namespace Store

variable {s t : Store} {i inner : HandlerId} {log : List Happening}

def HasRecorder (s : Store) (i inner : HandlerId) : Prop :=
  ∃ records heard, s.handlers[i]? = some (.recording inner records heard)

namespace HasRecorder

theorem of_undergoes (h : s.HasRecorder i inner) (hs : s.Undergoes log t) : t.HasRecorder i inner := by
  obtain ⟨records, heard, hi⟩ := h
  obtain ⟨records', heard', he⟩ := Handler.along_recording inner i log records heard
  exact ⟨records', heard', by rw [hs, hi, Option.map_some, he]⟩

theorem endpoint?_eq_none (h : s.HasRecorder i inner) : s.endpoint? i = none := by
  obtain ⟨records, heard, hi⟩ := h
  rw [endpoint?, hi]
  rfl

theorem isDelegating_eq_false (h : s.HasRecorder i inner) :
    (s.handlers[i]?).any Handler.isDelegating = false := by
  obtain ⟨records, heard, hi⟩ := h
  rw [hi]
  rfl

end HasRecorder

end Store

/-- A recorder and the handler that it passes requests to. -/
structure Wrapping where
  recorder : HandlerId
  inner : HandlerId
  ne : inner ≠ recorder

namespace Wrapping

variable {w : Wrapping} {s s' t t' : Store} {id : HandlerId} {log : List Happening}

/-- The handler itself, or what is behind it if it is the recorder. -/
def bypass (w : Wrapping) (id : HandlerId) : HandlerId := if id = w.recorder then w.inner else id

theorem bypass_recorder (w : Wrapping) : w.bypass w.recorder = w.inner := if_pos rfl

theorem bypass_of_ne (h : id ≠ w.recorder) : w.bypass id = id := if_neg h

theorem bypass_inner (w : Wrapping) : w.bypass w.inner = w.inner := bypass_of_ne w.ne

def bareStore (w : Wrapping) (s : Store) : Store :=
  { s with handlers := s.handlers.map (Handler.rewire w.bypass) }

def bareOps (w : Wrapping) (ops : List HandlerOp) : List HandlerOp :=
  (ops.filter fun op => op.target? ≠ some w.recorder).map (HandlerOp.rewire w.bypass)

def bareLog (w : Wrapping) (log : List Happening) : List Happening :=
  (log.filter fun e => e.at? ≠ some w.recorder).map (Happening.rewire w.bypass)

theorem bareLog_append (w : Wrapping) (log later : List Happening) :
    w.bareLog (log ++ later) = w.bareLog log ++ w.bareLog later := by
  rw [bareLog, List.filter_append, List.map_append]
  rfl

theorem bareLog_cons_of_eq {e : Happening} (he : e.at? = some w.recorder) (log : List Happening) :
    w.bareLog (e :: log) = w.bareLog log := by
  rw [bareLog, List.filter_cons_of_neg (by simpa using he)]
  rfl

theorem bareLog_cons_of_ne {e : Happening} (he : e.at? ≠ some w.recorder) (log : List Happening) :
    w.bareLog (e :: log) = e.rewire w.bypass :: w.bareLog log := by
  rw [bareLog, List.filter_cons_of_pos (by simpa using he)]
  rfl

theorem bareLog_cons_of_at {e : Happening} (he : e.at? = some id) (hid : id ≠ w.recorder)
    (log : List Happening) : w.bareLog (e :: log) = e.rewire w.bypass :: w.bareLog log := by
  refine bareLog_cons_of_ne ?_ log
  rw [he]
  exact fun h => hid (Option.some.inj h)

theorem along_bareLog {i : HandlerId} (hi : i ≠ w.recorder) (log : List Happening) (h : Handler) :
    (h.rewire w.bypass).along i (w.bareLog log) = (h.along i log).rewire w.bypass := by
  induction log generalizing h with
  | nil => rfl
  | cons e log ih =>
    by_cases he : e.at? = some w.recorder
    · have hmeets : h.meets i e = h := if_neg fun h => hi (Option.some.inj (h.symm.trans he))
      rw [bareLog_cons_of_eq he, Handler.along_cons, hmeets, ih]
    · rw [bareLog_cons_of_ne he, Handler.along_cons, Handler.along_cons, Handler.meets_rewire, ih]

/-- Whether `t` is `s` without the recorder: nothing refers to it any more. -/
structure Bares (w : Wrapping) (s t : Store) : Prop where
  other (i : HandlerId) (hi : i ≠ w.recorder) :
    t.handlers[i]? = (s.handlers[i]?).map (Handler.rewire w.bypass)
  wrapped : s.HasRecorder w.recorder w.inner
  bare : t.HasRecorder w.recorder w.inner
  names : t.names = s.names

theorem bares_bareStore {records : List Request} {heard : Bool}
    (hw : s.handlers[w.recorder]? = some (.recording w.inner records heard)) :
    w.Bares s (w.bareStore s) where
  other i _ := List.getElem?_map
  wrapped := ⟨records, heard, hw⟩
  bare := by
    refine ⟨records, heard, ?_⟩
    have hget : (w.bareStore s).handlers[w.recorder]? = _ := List.getElem?_map
    rw [hget, hw, Option.map_some, Handler.rewire, w.bypass_inner]
  names := rfl

/-- However far a request comes without the recorder, with it it comes as far and the same happens. -/
def Follows (w : Wrapping) (s t : Store) (id : HandlerId) (r : Request) (fuel : Nat) : Prop :=
  ∃ more, fuel ≤ more ∧
    (Store.serveFor more id r s).1 = (Store.serveFor fuel (w.bypass id) r t).1 ∧
    Store.wayFor fuel (w.bypass id) r t = w.bareLog (Store.wayFor more id r s)

namespace Bares

theorem of_undergoes (h : w.Bares s t) (hs : s.Undergoes log s')
    (ht : t.Undergoes (w.bareLog log) t') (hnames : t'.names = s'.names) : w.Bares s' t' where
  other i hi := by
    rw [ht i, hs i, h.other i hi, Option.map_map, Option.map_map]
    exact congrArg (Option.map · _) (funext fun g => along_bareLog hi log g)
  wrapped := h.wrapped.of_undergoes hs
  bare := h.bare.of_undergoes ht
  names := hnames

theorem delegating?_eq (h : w.Bares s t) (target : String) :
    t.delegating? target = s.delegating? target := by
  have hkind (i : HandlerId) : (t.handlers[i]?).any Handler.isDelegating =
      (s.handlers[i]?).any Handler.isDelegating := by
    by_cases hi : i = w.recorder
    · subst hi
      rw [h.wrapped.isDelegating_eq_false, h.bare.isDelegating_eq_false]
    · rw [h.other i hi]
      cases s.handlers[i]? with
      | none => rfl
      | some g => exact g.isDelegating_rewire w.bypass
  simp only [Store.delegating?, Store.find?, h.names, hkind]

theorem redirections_eq (h : w.Bares s t) (g : Handler) :
    t.redirections (g.rewire w.bypass) = w.bareLog (s.redirections g) := by
  cases g with
  | swapping target next status =>
    rw [Handler.rewire, Store.redirections, Store.redirections, h.delegating?_eq]
    cases hd : s.delegating? target with
    | none => rfl
    | some d =>
      have hne : d ≠ w.recorder := by
        intro he
        obtain ⟨g, hg, hkind⟩ := Store.handler_of_find? hd
        have hrecorder := h.wrapped.isDelegating_eq_false
        rw [← he, hg] at hrecorder
        exact Bool.noConfusion (hkind.symm.trans hrecorder)
      rw [Option.toList_some, List.map_cons, List.map_nil, List.map_cons, List.map_nil,
        bareLog_cons_of_at rfl hne]
      rfl
  | _ => rfl

theorem visit (h : w.Bares s t) {g : Handler} {next : HandlerId} (hid : id ≠ w.recorder)
    (hs : s.handlers[id]? = some g) (hp : g.passesTo? = some next) (r : Request) :
    w.Bares (s.visit id r) (t.visit id r) := by
  have ht : t.handlers[id]? = some (g.rewire w.bypass) := by rw [h.other id hid, hs, Option.map_some]
  have hp' : (g.rewire w.bypass).passesTo? = some (w.bypass next) := by
    rw [Handler.passesTo?_rewire, hp, Option.map_some]
  refine h.of_undergoes (Store.undergoes_pass hs hp r) ?_ ?_
  · rw [bareLog_cons_of_at rfl hid]
    exact Store.undergoes_pass ht hp' r
  · rw [Store.visit, Store.visit, Store.names_serveFor, Store.names_serveFor, h.names]

theorem visit_recorder (h : w.Bares s t) (r : Request) : w.Bares (s.visit w.recorder r) t := by
  obtain ⟨records, heard, hs⟩ := h.wrapped
  refine h.of_undergoes (Store.undergoes_pass hs rfl r) ?_ ?_
  · rw [bareLog_cons_of_eq rfl]
    exact .of_handlers_eq rfl
  · rw [Store.visit, Store.names_serveFor, h.names]

theorem follows_recorder (h : w.Bares s t) {r : Request} {fuel : Nat}
    (hinner : w.Follows (s.visit w.recorder r) t w.inner r fuel) : w.Follows s t w.recorder r fuel := by
  obtain ⟨records, heard, hs⟩ := h.wrapped
  obtain ⟨more, hle, hserve, hway⟩ := hinner
  rw [w.bypass_inner] at hserve hway
  refine ⟨more + 1, Nat.le_succ_of_le hle, ?_, ?_⟩
  · rw [Store.serveFor_pass hs rfl, w.bypass_recorder, hserve]
  · rw [Store.wayFor_pass hs rfl, w.bypass_recorder, hway, bareLog_cons_of_eq rfl]

theorem follows_other (h : w.Bares s t) (hid : id ≠ w.recorder) {r : Request} {fuel : Nat}
    (hnext : ∀ next, w.Bares (s.visit id r) (t.visit id r) →
      w.Follows (s.visit id r) (t.visit id r) next r fuel) :
    w.Follows s t id r (fuel + 1) := by
  rw [Follows, bypass_of_ne hid]
  have hget := h.other id hid
  cases hs : s.handlers[id]? with
  | none =>
    rw [hs, Option.map_none] at hget
    refine ⟨fuel + 1, Nat.le_refl _, ?_, ?_⟩
    · simp only [Store.serveFor, hs, hget]
    · simp only [Store.wayFor, hs, hget]
      rfl
  | some g =>
    rw [hs, Option.map_some] at hget
    have hpass := g.passesTo?_rewire w.bypass
    cases hp : g.passesTo? with
    | none =>
      rw [hp, Option.map_none] at hpass
      refine ⟨fuel + 1, Nat.le_refl _, ?_, ?_⟩
      · rw [Store.serveFor_of_answer hs hp, Store.serveFor_of_answer hget hpass,
          Store.serveFor_eq_reply hs hp, Store.serveFor_eq_reply hget hpass, Handler.reply_rewire]
      · rw [Store.wayFor_answer hs hp, Store.wayFor_answer hget hpass, h.redirections_eq,
          bareLog_cons_of_at rfl hid]
        rfl
    | some next =>
      rw [hp, Option.map_some] at hpass
      obtain ⟨more, hle, hserve, hway⟩ := hnext next (h.visit hid hs hp r)
      refine ⟨more + 1, Nat.succ_le_succ hle, ?_, ?_⟩
      · rw [Store.serveFor_pass hs hp, Store.serveFor_pass hget hpass, hserve]
      · rw [Store.wayFor_pass hs hp, Store.wayFor_pass hget hpass, hway,
          bareLog_cons_of_at rfl hid]
        rfl

theorem follows (h : w.Bares s t) (fuel : Nat) (id : HandlerId) (r : Request) :
    w.Follows s t id r fuel := by
  induction fuel generalizing s t id with
  | zero => exact ⟨0, Nat.le_refl 0, rfl, rfl⟩
  | succ fuel ih =>
    -- The recorder takes fuel of its own; the handler behind it then takes as much as without it.
    by_cases hid : id = w.recorder
    · subst hid
      have hinner := (h.visit_recorder r).follows_other w.ne fun next hnext => ih hnext next
      exact h.follows_recorder hinner
    · exact h.follows_other hid fun next hnext => ih hnext next

/-- Nothing comes of a request that does not come of it without the recorder. -/
theorem serve_eq (h : w.Bares s t) (id : HandlerId) (r : Request) :
    (s.serve id r).1 = (t.serve (w.bypass id) r).1 := by
  by_cases hanswer : (t.serve (w.bypass id) r).1 = .unanswered
  · by_contra hne
    rw [hanswer] at hne
    -- With as much fuel as the request needs with the recorder, it is answered without it, too.
    obtain ⟨stages, hr, -⟩ := Store.stages_of_serveFor hne
    obtain ⟨more, hle, hserve, -⟩ := h.follows stages.length id r
    obtain ⟨i, m, -, hfuel, hleaf⟩ := Store.serveFor_of_stages hr hle
    have hbare : (Store.serveFor stages.length (w.bypass id) r t).1 ≠ .unanswered := by
      rw [← hserve, hfuel]
      exact hleaf
    exact hbare (Store.serve_eq_serveFor hbare ▸ hanswer)
  · obtain ⟨more, -, hserve, -⟩ := h.follows t.longestWay id r
    have hmore : (Store.serveFor more id r s).1 ≠ .unanswered := by
      rw [hserve]
      exact hanswer
    rw [Store.serve_eq_serveFor hmore]
    exact hserve

theorem serve (h : w.Bares s t) {r : Request}
    (hanswer : (t.serve (w.bypass id) r).1 ≠ .unanswered) :
    t.way (w.bypass id) r = w.bareLog (s.way id r) ∧
      w.Bares (s.serve id r).2 (t.serve (w.bypass id) r).2 := by
  obtain ⟨more, -, hserve, hway⟩ := h.follows t.longestWay id r
  have hmore : (Store.serveFor more id r s).1 ≠ .unanswered := by
    rw [hserve]
    exact hanswer
  have hsame : t.way (w.bypass id) r = w.bareLog (s.way id r) := by
    rw [Store.way_eq_wayFor hmore]
    exact hway
  refine ⟨hsame, h.of_undergoes (s.undergoes_serve id r) ?_ ?_⟩
  · rw [← hsame]
    exact t.undergoes_serve (w.bypass id) r
  · rw [Store.serve, Store.serve, Store.names_serveFor, Store.names_serveFor, h.names]

theorem endpoint?_eq (h : w.Bares s t) (id : HandlerId) : t.endpoint? id = s.endpoint? id := by
  by_cases hid : id = w.recorder
  · rw [hid, h.wrapped.endpoint?_eq_none, h.bare.endpoint?_eq_none]
  · rw [Store.endpoint?, Store.endpoint?, h.other id hid, Option.bind_map]
    exact congrArg _ (funext fun g => g.endpoint?_rewire w.bypass)

theorem bareLog_streamings (h : s.HasRecorder w.recorder w.inner) (id : HandlerId) :
    w.bareLog (s.streamings id) = s.streamings id := by
  rw [Store.streamings]
  cases he : s.endpoint? id with
  | none => rfl
  | some e =>
    have hid : id ≠ w.recorder := by
      rintro rfl
      rw [h.endpoint?_eq_none] at he
      cases he
    exact bareLog_cons_of_at rfl hid []

theorem streamings_eq (h : w.Bares s t) (id : HandlerId) :
    t.streamings id = w.bareLog (s.streamings id) := by
  rw [bareLog_streamings h.wrapped, Store.streamings, Store.streamings, h.endpoint?_eq]

theorem readings_eq (h : w.Bares s t) (a : Served) : t.readings a = w.bareLog (s.readings a) := by
  cases a with
  | response a =>
    obtain ⟨status, headers, body⟩ := a
    cases body with
    | chunks cs failure => rfl
    | live id connection => exact h.streamings_eq id
  | _ => rfl

theorem restream (h : w.Bares s t) (g : Endpoint → Endpoint)
    (hs : s'.handlers = s.handlers.modify id (Handler.restream g))
    (ht : t'.handlers = t.handlers.modify id (Handler.restream g))
    (hnames : t'.names = s'.names) : w.Bares s' t' := by
  have hs' := Store.Undergoes.of_restream hs
  have hlog : t'.streamings id = w.bareLog (s'.streamings id) := by
    rw [bareLog_streamings (h.wrapped.of_undergoes hs'), Store.streamings, Store.streamings,
      Store.endpoint?_of_restream hs, Store.endpoint?_of_restream ht, h.endpoint?_eq]
  refine h.of_undergoes hs' ?_ hnames
  rw [← hlog]
  exact .of_restream ht

theorem onEndpoint (h : w.Bares s t) (id : HandlerId)
    (f : Endpoint → Endpoint × List StreamNotice) :
    w.Bares (s.onEndpoint id f) (t.onEndpoint id f) :=
  h.restream _ (s.handlers_onEndpoint id f) (t.handlers_onEndpoint id f)
    (by rw [Store.names_onEndpoint, Store.names_onEndpoint, h.names])

theorem poll (h : w.Bares s t) (body : ResponseBody) :
    ∃ p body' s' t', s.poll body = (p, body', s') ∧ t.poll body = (p, body', t') ∧
      w.Bares s' t' := by
  cases body with
  | chunks cs failure =>
    cases cs <;> cases failure <;> exact ⟨_, _, s, t, rfl, rfl, h⟩
  | live id connection =>
    have hsame := h.endpoint?_eq id
    cases he : s.endpoint? id with
    | none =>
      rw [he] at hsame
      exact ⟨_, _, s, t, Store.poll_of_endpoint?_eq_none he connection,
        Store.poll_of_endpoint?_eq_none hsame connection, h⟩
    | some e =>
      rw [he] at hsame
      exact ⟨_, _, _, _, Store.poll_of_endpoint? he connection,
        Store.poll_of_endpoint? hsame connection,
        h.restream (fun _ => (e.poll connection).2) rfl rfl h.names⟩

theorem drainFor (h : w.Bares s t) (n : Nat) (body : ResponseBody) :
    ∃ cs p body' s' t', Store.drainFor n body s = (cs, p, body', s') ∧
      Store.drainFor n body t = (cs, p, body', t') ∧ w.Bares s' t' := by
  induction n generalizing s t body with
  | zero =>
    obtain ⟨p, body', s', t', hs, ht, hpoll⟩ := h.poll body
    exact ⟨[], p, body', s', t', by rw [Store.drainFor, hs], by rw [Store.drainFor, ht], hpoll⟩
  | succ n ih =>
    obtain ⟨p, body', s', t', hs, ht, hpoll⟩ := h.poll body
    by_cases hp : ∃ c, p = .chunk c
    · obtain ⟨c, rfl⟩ := hp
      obtain ⟨cs, p, body'', s'', t'', hs', ht', hdrain⟩ := ih hpoll body'
      refine ⟨c :: cs, p, body'', s'', t'', ?_, ?_, hdrain⟩
      · simp only [Store.drainFor, hs, hs']
      · simp only [Store.drainFor, ht, ht']
    · refine ⟨[], p, body', s', t', ?_, ?_, hpoll⟩
      · rw [← hs]
        exact Store.drainFor_of_not_chunk fun c hc => hp ⟨c, by rw [← hc, hs]⟩
      · rw [← ht]
        exact Store.drainFor_of_not_chunk fun c hc => hp ⟨c, by rw [← hc, ht]⟩

theorem available_eq (h : w.Bares s t) (body : ResponseBody) :
    t.available body = s.available body := by
  cases body with
  | chunks cs failure => rfl
  | live id connection => rw [Store.available_live, Store.available_live, h.endpoint?_eq]

theorem dropBody (h : w.Bares s t) (body : ResponseBody) :
    w.Bares (s.dropBody body) (t.dropBody body) := by
  cases body with
  | chunks cs failure => exact h
  | live id connection => exact h.onEndpoint id (·.drop connection)

theorem readBody (h : w.Bares s t) (body : ResponseBody) :
    (t.readBody body).1 = (s.readBody body).1 ∧ w.Bares (s.readBody body).2 (t.readBody body).2 := by
  obtain ⟨cs, p, body', s', t', hs, ht, hdrain⟩ := h.drainFor (s.available body) body
  have hs' : s.drain body = (cs, p, body', s') := hs
  have ht' : t.drain body = (cs, p, body', t') := by
    rw [Store.drain, h.available_eq]
    exact ht
  have hdrop := hdrain.dropBody body'
  cases p <;> simp only [Store.readBody, hs', ht'] <;> exact ⟨trivial, hdrop⟩

theorem send (h : w.Bares s t) {r : Request}
    (hanswer : (t.serve (w.bypass id) { r with flush := false }).1 ≠ .unanswered) :
    (t.send (w.bypass id) r).1 = (s.send id r).1 ∧
      w.Bares (s.send id r).2 (t.send (w.bypass id) r).2 := by
  have hsame := h.serve_eq id { r with flush := false }
  obtain ⟨-, hserve⟩ := h.serve hanswer
  rw [Store.send, Store.send]
  generalize s.serve id { r with flush := false } = served at hsame hserve
  generalize t.serve (w.bypass id) { r with flush := false } = served' at hsame hserve
  obtain ⟨a, s'⟩ := served
  obtain ⟨a', t'⟩ := served'
  obtain rfl : a = a' := hsame
  cases a with
  | response a =>
    have hread := hserve.readBody a.body
    generalize hs' : s'.readBody a.body = read at hread
    generalize ht' : t'.readBody a.body = read' at hread
    obtain ⟨result, s''⟩ := read
    obtain ⟨result', t''⟩ := read'
    obtain ⟨rfl, hbares⟩ : result' = result ∧ w.Bares s'' t'' := hread
    simp only [hs', ht']
    cases result' <;> exact ⟨rfl, hbares⟩
  | broke => exact ⟨rfl, hserve.other, hserve.wrapped, hserve.bare, hserve.names⟩
  | _ => exact ⟨rfl, hserve⟩

/-- What is done to the recorder itself is of no concern without it. -/
theorem operate_recorder (h : w.Bares s t) {op : HandlerOp} (hop : op.target? = some w.recorder) :
    w.bareLog (s.operate op).1 = [] ∧ w.Bares (s.operate op).2 t := by
  have hlog : w.bareLog (s.operate op).1 = [] := by
    rw [bareLog, List.map_eq_nil_iff, List.filter_eq_nil_iff]
    intro e he
    simpa using s.at?_of_mem_operate hop he
  refine ⟨hlog, h.of_undergoes (s.undergoes_operate op) ?_ ?_⟩
  · rw [hlog]
    exact .of_handlers_eq rfl
  · rw [h.names, s.names_operate hop]

theorem operate_elsewhere (h : w.Bares s t) {op : HandlerOp} (hop : op.target? = some id)
    (hid : id ≠ w.recorder) :
    (t.operate (op.rewire w.bypass)).1 = w.bareLog (s.operate op).1 ∧
      w.Bares (s.operate op).2 (t.operate (op.rewire w.bypass)).2 := by
  have hlog : (t.operate (op.rewire w.bypass)).1 = w.bareLog (s.operate op).1 := by
    cases op with
    | request _ _ | send _ _ => cases hop
    | setHandler id next =>
      obtain rfl := Option.some.inj hop
      exact Eq.symm (bareLog_cons_of_at rfl hid [])
    | dropReceiver id =>
      obtain rfl := Option.some.inj hop
      exact Eq.symm (bareLog_cons_of_at rfl hid [])
    | onStream id f => exact (h.onEndpoint id f).streamings_eq id
    | takeRecords id =>
      obtain rfl := Option.some.inj hop
      have hrecords : (t.takeRecords id).1 = (s.takeRecords id).1 := by
        rw [Store.takeRecords, Store.takeRecords, h.other id hid]
        cases s.handlers[id]? with
        | none => rfl
        | some g => exact g.records_rewire w.bypass
      show [Happening.taken id (t.takeRecords id).1] = w.bareLog [.taken id (s.takeRecords id).1]
      rw [bareLog_cons_of_at rfl hid, hrecords]
      rfl
  refine ⟨hlog, h.of_undergoes (s.undergoes_operate op) ?_ ?_⟩
  · rw [← hlog]
    exact t.undergoes_operate _
  · rw [s.names_operate hop, t.names_operate ((op.target?_rewire w.bypass).trans hop), h.names]

theorem operate (h : w.Bares s t) {op : HandlerOp} (hop : op.target? ≠ some w.recorder)
    (hanswer : .answered .unanswered ∉ (t.operate (op.rewire w.bypass)).1) :
    (t.operate (op.rewire w.bypass)).1 = w.bareLog (s.operate op).1 ∧
      w.Bares (s.operate op).2 (t.operate (op.rewire w.bypass)).2 := by
  cases op with
  | request id r =>
    obtain ⟨hway, hbares⟩ := h.serve (Store.serve_ne_unanswered rfl hanswer)
    refine ⟨?_, hbares⟩
    show _ ++ [_] = w.bareLog (_ ++ [_])
    rw [bareLog_append, hway, h.serve_eq]
    rfl
  | send id r =>
    have hserve := Store.serve_ne_unanswered rfl hanswer
    obtain ⟨hway, -⟩ := h.serve hserve
    obtain ⟨hreply, hbares⟩ := h.send hserve
    refine ⟨?_, hbares⟩
    rw [HandlerOp.rewire, Store.operate_send, Store.operate_send]
    simp only [bareLog_append]
    rw [hway, h.serve_eq, hreply, hbares.readings_eq]
    rfl
  | setHandler id _ | takeRecords id | dropReceiver id | onStream id _ =>
    exact h.operate_elsewhere rfl fun hid => hop (congrArg some hid)

theorem run (h : w.Bares s t) {ops : List HandlerOp}
    (hanswer : .answered .unanswered ∉ (Store.run (w.bareOps ops) t).1) :
    (Store.run (w.bareOps ops) t).1 = w.bareLog (Store.run ops s).1 ∧
      w.Bares (Store.run ops s).2 (Store.run (w.bareOps ops) t).2 := by
  induction ops generalizing s t with
  | nil => exact ⟨rfl, h⟩
  | cons op ops ih =>
    by_cases hop : op.target? = some w.recorder
    · have hops : w.bareOps (op :: ops) = w.bareOps ops := by
        rw [bareOps, List.filter_cons_of_neg (by simpa using hop)]
        rfl
      rw [hops] at hanswer ⊢
      obtain ⟨hnow, hbares⟩ := h.operate_recorder hop
      obtain ⟨hlater, hrest⟩ := ih hbares hanswer
      refine ⟨?_, hrest⟩
      rw [Store.run_cons, bareLog_append, hnow, hlater, List.nil_append]
    · have hops : w.bareOps (op :: ops) = op.rewire w.bypass :: w.bareOps ops := by
        rw [bareOps, List.filter_cons_of_pos (by simpa using hop)]
        rfl
      rw [hops] at hanswer ⊢
      obtain ⟨hnow, hbares⟩ := h.operate hop fun hu => hanswer (List.mem_append_left _ hu)
      obtain ⟨hlater, hrest⟩ := ih hbares fun hu => hanswer (List.mem_append_right _ hu)
      refine ⟨?_, hrest⟩
      rw [Store.run_cons, Store.run_cons, bareLog_append, hnow, hlater]

end Bares

end Wrapping

end Testkit
