import Testkit.Bench.Step
import Testkit.Proofs.Handler.Stages

/-! What happens to handlers: what is done with them from outside, which of them each request comes to,
and what comes of it. A handler becomes what happens to itself makes of it, whatever the others do. -/

namespace Testkit

inductive HandlerOp where
  | request (id : HandlerId) (r : Request)
  /-- A request through a client, which reads the response and drops it. -/
  | send (id : HandlerId) (r : Request)
  | setHandler (id next : HandlerId)
  | takeRecords (id : HandlerId)
  | dropReceiver (id : HandlerId)
  | onStream (id : HandlerId) (f : Endpoint → Endpoint × List StreamNotice)

inductive Happening where
  | visited (id : HandlerId) (r : Request)
  | answered (a : Served)
  | replied (reply : Except ClientError Answer)
  | redirected (id next : HandlerId)
  | taken (id : HandlerId) (records : List Request)
  | unheard (id : HandlerId)
  /-- The endpoint of a stream is this one from now on. -/
  | streamed (id : HandlerId) (e : Endpoint)
deriving DecidableEq

/-- The handler that is asked, and for what. -/
def HandlerOp.asked? : HandlerOp → Option (HandlerId × Request)
  | .request id r => some (id, r)
  | .send id r => some (id, { r with flush := false })
  | _ => none

/-- The handler to which it happens. -/
def Happening.at? : Happening → Option HandlerId
  | .visited id _ | .redirected id _ | .taken id _ | .unheard id | .streamed id _ => some id
  | .answered _ | .replied _ => none

namespace Handler

def restream (f : Endpoint → Endpoint) : Handler → Handler
  | .stream e contentType environment => .stream (f e) contentType environment
  | h => h

/-- The handler once a request has come to it. -/
def visited (r : Request) : Handler → Handler
  | .stream e contentType environment =>
    .stream (e.request r.flush).2.1 contentType environment
  | h => h.passed r

def redirected (next : HandlerId) : Handler → Handler
  | .delegating _ => .delegating next
  | h => h

def emptied : Handler → Handler
  | .recording inner _ heard => .recording inner [] heard
  | h => h

def unheard : Handler → Handler
  | .recording inner _ _ => .recording inner [] false
  | h => h

def records : Handler → List Request
  | .recording _ records _ => records
  | _ => []

def endpoint? : Handler → Option Endpoint
  | .stream e _ _ => some e
  | _ => none

/-- What comes of a request that is not passed on. -/
def reply (id : HandlerId) (r : Request) : Handler → Served
  | .echo => .response (echoResponse r)
  | .flushProbe => .response ⟨200, [], .ofBytes (Bytes.ofText (toString r.flush))⟩
  | .swapping _ _ status => .response (.ofStatus status)
  | .stream e contentType environment =>
    match (e.request r.flush).1 with
    | none => .response (.ofStatus 500)
    | some connection =>
      .response ⟨200, streamHeaders contentType environment, .live id connection⟩
  | h => h.served

/-- What becomes of a handler to which something happens. -/
def after (h : Handler) : Happening → Handler
  | .visited _ r => h.visited r
  | .redirected _ next => h.redirected next
  | .taken _ _ => h.emptied
  | .unheard _ => h.unheard
  | .streamed _ e => h.restream fun _ => e
  | .answered _ | .replied _ => h

/-- What becomes of the handler with number `i` when something happens, perhaps to another one. -/
def meets (i : HandlerId) (e : Happening) (h : Handler) : Handler :=
  if e.at? = some i then h.after e else h

def along (i : HandlerId) (log : List Happening) (h : Handler) : Handler :=
  log.foldl (fun h e => h.meets i e) h

theorem along_cons (i : HandlerId) (e : Happening) (log : List Happening) (h : Handler) :
    h.along i (e :: log) = (h.meets i e).along i log := rfl

theorem along_append (i : HandlerId) (before later : List Happening) :
    along i (before ++ later) = along i later ∘ along i before :=
  funext fun _ => List.foldl_append

theorem along_elsewhere {i : HandlerId} {log : List Happening} (hlog : ∀ e ∈ log, e.at? ≠ some i)
    (h : Handler) : h.along i log = h := by
  induction log with
  | nil => rfl
  | cons e log ih =>
    obtain ⟨he, hlog⟩ := List.forall_mem_cons.mp hlog
    rw [along_cons, meets, if_neg he, ih hlog]

theorem visited_of_passesTo? {h : Handler} {next : HandlerId} (hp : h.passesTo? = some next)
    (r : Request) : h.visited r = h.passed r := by
  cases h with
  | stream e contentType environment => simp [passesTo?] at hp
  | _ => rfl

end Handler

namespace Store

variable {s t u : Store} {id next i : HandlerId} {h : Handler} {r : Request} {fuel : Nat}

def takeRecords (s : Store) (id : HandlerId) : List Request × Store :=
  ((s.handlers[id]?).elim [] Handler.records,
    { s with handlers := s.handlers.modify id Handler.emptied })

def dropReceiver (s : Store) (id : HandlerId) : Store :=
  { s with handlers := s.handlers.modify id Handler.unheard }

/-- What a handler that answers does to another one. -/
def redirections (s : Store) : Handler → List Happening
  | .swapping target next _ => (s.delegating? target).toList.map (.redirected · next)
  | _ => []

def wayFor : Nat → HandlerId → Request → Store → List Happening
  | 0, _, _, _ => []
  | fuel + 1, id, r, s =>
    match s.handlers[id]? with
    | none => []
    | some h =>
      .visited id r ::
        match h.passesTo? with
        | some next => wayFor fuel next r (s.visit id r)
        | none => s.redirections h

/-- The handlers that a request comes to, one after the other, and what the last of them does to others. -/
def way (s : Store) (id : HandlerId) (r : Request) : List Happening := wayFor s.longestWay id r s

def endpoint? (s : Store) (id : HandlerId) : Option Endpoint :=
  (s.handlers[id]?).bind Handler.endpoint?

def streamings (s : Store) (id : HandlerId) : List Happening :=
  (s.endpoint? id).toList.map (.streamed id)

/-- What it does to the stream that has answered when the response is read and dropped. -/
def readings (s : Store) : Served → List Happening
  | .response ⟨_, _, .live id _⟩ => s.streamings id
  | _ => []

def operate (s : Store) : HandlerOp → List Happening × Store
  | .request id r => (s.way id r ++ [.answered (s.serve id r).1], (s.serve id r).2)
  | .send id r =>
    let unflushed := { r with flush := false }
    let a := (s.serve id unflushed).1
    let (reply, t) := s.send id r
    (s.way id unflushed ++ .answered a :: (t.readings a ++ [.replied reply]), t)
  | .setHandler id next => ([.redirected id next], s.delegateTo id next)
  | .takeRecords id =>
    let (records, t) := s.takeRecords id
    ([.taken id records], t)
  | .dropReceiver id => ([.unheard id], s.dropReceiver id)
  | .onStream id f => ((s.onEndpoint id f).streamings id, s.onEndpoint id f)

theorem operate_send (s : Store) (id : HandlerId) (r : Request) :
    s.operate (.send id r) =
      (s.way id { r with flush := false } ++
        ([.answered (s.serve id { r with flush := false }).1] ++
          ((s.send id r).2.readings (s.serve id { r with flush := false }).1 ++
            [.replied (s.send id r).1])), (s.send id r).2) := rfl

def run : List HandlerOp → Store → List Happening × Store
  | [], s => ([], s)
  | op :: ops, s =>
    let (now, t) := s.operate op
    let (later, u) := run ops t
    (now ++ later, u)

theorem handlers_modify (hs : s.handlers[id]? = some h) (g : Handler → Handler) :
    s.handlers.modify id g = s.handlers.set id (g h) := by
  rw [List.modify_eq_set_getElem?, hs]
  rfl

theorem run_cons (op : HandlerOp) (ops : List HandlerOp) (s : Store) :
    run (op :: ops) s = ((s.operate op).1 ++ (run ops (s.operate op).2).1,
      (run ops (s.operate op).2).2) := rfl

theorem handler_of_find? {names : List Naming} {kind : Handler → Bool} {name : String}
    (hf : s.find? names kind name = some id) :
    ∃ h, s.handlers[id]? = some h ∧ kind h = true := by
  obtain ⟨n, hn, rfl⟩ := Option.map_eq_some_iff.mp hf
  have hkind := List.find?_some hn
  cases hs : s.handlers[n.handler]? with
  | none => simp [hs] at hkind
  | some h => exact ⟨h, rfl, by simpa [hs] using (Bool.and_eq_true_iff.mp hkind).2⟩

theorem recording_of_control? {name : String}
    (hc : s.control? Handler.isRecording name = some id) :
    ∃ inner records heard, s.handlers[id]? = some (.recording inner records heard) := by
  obtain ⟨h, hs, hkind⟩ := handler_of_find? hc
  cases h with
  | recording inner records heard => exact ⟨inner, records, heard, hs⟩
  | _ => cases hkind

theorem step_recorded {b : Bench} {name : String}
    (hc : b.store.control? Handler.isRecording name = some id) :
    ∃ closed, b.step (.recorded name) =
      (.recorded (b.store.takeRecords id).1 closed,
        { b with store := (b.store.takeRecords id).2 }) := by
  obtain ⟨inner, records, heard, hs⟩ := recording_of_control? hc
  refine ⟨!(b.store.inUse b.roots).contains id, ?_⟩
  simp only [Bench.step, Bench.onRecorder, hc, hs, takeRecords, handlers_modify hs]
  rfl

theorem step_dropReceiver {b : Bench} {name : String}
    (hc : b.store.control? Handler.isRecording name = some id) :
    b.step (.dropReceiver name) =
      (.receiverDropped, { b with store := b.store.dropReceiver id }) := by
  obtain ⟨inner, records, heard, hs⟩ := recording_of_control? hc
  simp only [Bench.step, Bench.onRecorder, hc, hs, dropReceiver, handlers_modify hs]
  rfl

/-- Whether each handler has become what has happened to it makes of it. -/
def Undergoes (s : Store) (log : List Happening) (t : Store) : Prop :=
  ∀ i : HandlerId, t.handlers[i]? = (s.handlers[i]?).map (Handler.along i log)

namespace Undergoes

variable {log log' : List Happening}

theorem trans (h : s.Undergoes log t) (h' : t.Undergoes log' u) : s.Undergoes (log ++ log') u := by
  intro i
  rw [h' i, h i, Option.map_map, Handler.along_append]

theorem of_handlers_eq (ht : t.handlers = s.handlers) : s.Undergoes [] t := by
  intro i
  have hstill : Handler.along i [] = fun h => h := rfl
  rw [ht, hstill, Option.map_id']

theorem silent {e : Happening} (he : e.at? = none) : s.Undergoes [e] s := by
  intro i
  have hstill : Handler.along i [e] = fun h => h := by
    funext g
    exact if_neg (by simp [he])
  rw [hstill, Option.map_id']

theorem of_modify {e : Happening} (he : e.at? = some id)
    (ht : t.handlers = s.handlers.modify id (·.after e)) : s.Undergoes [e] t := by
  intro i
  have hmeets : Handler.along i [e] = fun g => if id = i then g.after e else g := by
    funext g
    show (if e.at? = some i then g.after e else g) = _
    simp only [he, Option.some.injEq]
  rw [ht, List.getElem?_modify, hmeets]
  rfl

theorem of_restream {f : Endpoint → Endpoint}
    (ht : t.handlers = s.handlers.modify id (Handler.restream f)) :
    s.Undergoes (t.streamings id) t := by
  intro i
  by_cases hi : i = id
  · subst hi
    cases hs : s.handlers[i]? with
    | none => simp [ht, hs]
    | some h =>
      have hget : t.handlers[i]? = some (h.restream f) := by simp [ht, hs]
      rw [hget, streamings, endpoint?, hget]
      cases h with
      | stream e contentType environment =>
        have hmeets : (Handler.stream e contentType environment).meets i (.streamed i (f e)) =
            .stream (f e) contentType environment := if_pos rfl
        exact congrArg some hmeets.symm
      | _ => rfl
  · have helse : Handler.along i (t.streamings id) = fun h => h := by
      funext g
      refine Handler.along_elsewhere (fun e he => ?_) g
      obtain ⟨endpoint, -, rfl⟩ := List.mem_map.mp he
      exact fun h => hi (Option.some.inj h).symm
    rw [ht, List.getElem?_modify_ne _ _ (Ne.symm hi), helse, Option.map_id']

end Undergoes

theorem handlers_delegateTo (s : Store) (id next : HandlerId) :
    (s.delegateTo id next).handlers = s.handlers.modify id (Handler.redirected next) := by
  cases hs : s.handlers[id]? with
  | none =>
    rw [List.modify_eq_self (List.getElem?_eq_none_iff.mp hs)]
    simp only [delegateTo, hs]
  | some h =>
    rw [handlers_modify hs]
    cases h with
    | delegating current => simp only [delegateTo, hs, set, Handler.redirected]
    | _ => simp only [delegateTo, hs, Handler.redirected, handlers_set_self hs]

theorem handlers_onEndpoint (s : Store) (id : HandlerId)
    (f : Endpoint → Endpoint × List StreamNotice) :
    (s.onEndpoint id f).handlers = s.handlers.modify id (Handler.restream fun e => (f e).1) := by
  cases hs : s.handlers[id]? with
  | none =>
    rw [List.modify_eq_self (List.getElem?_eq_none_iff.mp hs)]
    simp only [onEndpoint, hs]
  | some h =>
    rw [handlers_modify hs]
    cases h with
    | stream e contentType environment =>
      simp only [onEndpoint, hs, set, notifyAll, Handler.restream]
    | _ => simp only [onEndpoint, hs, Handler.restream, handlers_set_self hs]

theorem undergoes_visited {h : Handler} (hs : s.handlers[id]? = some h)
    (ht : t.handlers = s.handlers.set id (h.visited r)) : s.Undergoes [.visited id r] t :=
  .of_modify rfl (ht.trans (handlers_modify hs _).symm)

theorem undergoes_answer (hs : s.handlers[id]? = some h) (hp : h.passesTo? = none) (r : Request) :
    s.Undergoes (.visited id r :: s.redirections h) (s.visit id r) := by
  have hself (hv : h.visited r = h) : s.handlers = s.handlers.set id (h.visited r) := by
    rw [hv, handlers_set_self hs]
  cases h with
  | sequential _ _ _ | delegating _ | recording _ _ _ => simp [Handler.passesTo?] at hp
  | json value headers =>
    refine undergoes_visited hs (Eq.trans ?_ (hself rfl))
    cases value <;> simp only [visit, serveFor, hs, notify]
  | stream e contentType environment =>
    refine undergoes_visited hs ?_
    simp only [visit, serveFor, hs, Handler.visited]
    split <;> next he => rw [he]; rfl
  | swapping target next status =>
    cases hd : s.delegating? target with
    | none =>
      have hlog : s.redirections (.swapping target next status) = [] := by
        simp only [redirections, hd, Option.toList_none, List.map_nil]
      rw [hlog]
      refine undergoes_visited hs (Eq.trans ?_ (hself rfl))
      simp only [visit, serveFor, hs, hd]
    | some d =>
      have hlog : s.redirections (.swapping target next status) = [.redirected d next] := by
        simp only [redirections, hd, Option.toList_some, List.map_cons, List.map_nil]
      have ht : s.visit id r = s.delegateTo d next := by simp only [visit, serveFor, hs, hd]
      rw [hlog, ht]
      exact (undergoes_visited hs (hself rfl)).trans
        (.of_modify rfl (s.handlers_delegateTo d next))
  | _ =>
    refine undergoes_visited hs (Eq.trans ?_ (hself rfl))
    simp only [visit, serveFor, hs, notify]

theorem wayFor_answer (hs : s.handlers[id]? = some h) (hp : h.passesTo? = none) (fuel : Nat)
    (r : Request) : wayFor (fuel + 1) id r s = .visited id r :: s.redirections h := by
  simp only [wayFor, hs, hp]

theorem wayFor_pass (hs : s.handlers[id]? = some h) (hp : h.passesTo? = some next) (fuel : Nat)
    (r : Request) :
    wayFor (fuel + 1) id r s = .visited id r :: wayFor fuel next r (s.visit id r) := by
  simp only [wayFor, hs, hp]

theorem wayFor_of_stages {stages : List (HandlerId × Store)} (hr : Stages r s id stages)
    (hfuel : stages.length ≤ fuel) : wayFor fuel id r s = wayFor stages.length id r s := by
  induction hr generalizing fuel with
  | @answer s id h hs hp =>
    cases fuel with
    | zero => simp at hfuel
    | succ fuel => rw [List.length_singleton, wayFor_answer hs hp, wayFor_answer hs hp]
  | @pass s id next h stages hs hp hr ih =>
    cases fuel with
    | zero => simp at hfuel
    | succ fuel =>
      rw [List.length_cons, wayFor_pass hs hp, wayFor_pass hs hp,
        ih (Nat.le_of_succ_le_succ hfuel)]

theorem way_eq_wayFor (hanswer : (serveFor fuel id r s).1 ≠ .unanswered) :
    s.way id r = wayFor fuel id r s := by
  obtain ⟨stages, hr, hle⟩ := stages_of_serveFor hanswer
  rw [way, wayFor_of_stages hr hr.length_le_longestWay, wayFor_of_stages hr hle]

theorem undergoes_pass (hs : s.handlers[id]? = some h) (hp : h.passesTo? = some next) (r : Request) :
    s.Undergoes [.visited id r] (s.visit id r) := by
  refine undergoes_visited hs ?_
  rw [handlers_visit_of_pass hs hp, Handler.visited_of_passesTo? hp]

theorem undergoes_serveFor (fuel : Nat) (id : HandlerId) (r : Request) (s : Store) :
    s.Undergoes (wayFor fuel id r s) (serveFor fuel id r s).2 := by
  induction fuel generalizing s id with
  | zero => exact .of_handlers_eq rfl
  | succ fuel ih =>
    cases hs : s.handlers[id]? with
    | none => simpa only [wayFor, serveFor, hs] using Undergoes.of_handlers_eq rfl
    | some h =>
      cases hp : h.passesTo? with
      | none =>
        rw [wayFor_answer hs hp, serveFor_of_answer hs hp]
        exact undergoes_answer hs hp r
      | some next =>
        rw [wayFor_pass hs hp, serveFor_pass hs hp]
        exact (undergoes_pass hs hp r).trans (ih next (s.visit id r))

theorem undergoes_serve (s : Store) (id : HandlerId) (r : Request) :
    s.Undergoes (s.way id r) (s.serve id r).2 :=
  undergoes_serveFor s.longestWay id r s

/-- Whether `t` is `s` but for the endpoint of a stream, if that. -/
def Streams (s : Store) (id : HandlerId) (t : Store) : Prop :=
  ∃ f, t.handlers = s.handlers.modify id (Handler.restream f)

theorem Streams.trans (h : s.Streams id t) (h' : t.Streams id u) : s.Streams id u := by
  obtain ⟨f, hf⟩ := h
  obtain ⟨g, hg⟩ := h'
  have hcomp : Handler.restream g ∘ Handler.restream f = Handler.restream (g ∘ f) := by
    funext h
    cases h <;> rfl
  exact ⟨g ∘ f, by rw [hg, hf, List.modify_modify_eq, hcomp]⟩

theorem Streams.refl (s : Store) (id : HandlerId) : s.Streams id s := by
  have hid : Handler.restream (fun e => e) = fun h => h := by
    funext h
    cases h <;> rfl
  exact ⟨fun e => e, by rw [hid]; exact (List.modify_id id s.handlers).symm⟩

theorem poll_of_endpoint? {id : HandlerId} {e : Endpoint}
    (he : s.endpoint? id = some e) (connection : Nat) :
    s.poll (.live id connection) = ((e.poll connection).1, .live id connection,
      { s with handlers := s.handlers.modify id (Handler.restream fun _ => (e.poll connection).2) }) := by
  obtain ⟨h, hs, hh⟩ := Option.bind_eq_some_iff.mp he
  cases h with
  | stream e' contentType environment =>
    obtain rfl := Option.some.inj hh
    simp only [poll, hs, handlers_modify hs]
    rfl
  | _ => cases hh

theorem poll_of_endpoint?_eq_none {id : HandlerId}
    (he : s.endpoint? id = none) (connection : Nat) :
    s.poll (.live id connection) = (.gone, .live id connection, s) := by
  simp only [poll]
  split
  · next hs => simp [endpoint?, hs, Handler.endpoint?] at he
  · rfl

theorem streams_poll (s : Store) (id connection : Nat) :
    (s.poll (.live id connection)).2.1 = .live id connection ∧
      s.Streams id (s.poll (.live id connection)).2.2 := by
  cases he : s.endpoint? id with
  | none =>
    rw [poll_of_endpoint?_eq_none he]
    exact ⟨rfl, .refl s id⟩
  | some e =>
    rw [poll_of_endpoint? he]
    exact ⟨rfl, _, rfl⟩

theorem streams_drainFor (n : Nat) (s : Store) (id connection : Nat) :
    (drainFor n (.live id connection) s).2.2.1 = .live id connection ∧
      s.Streams id (drainFor n (.live id connection) s).2.2.2 := by
  induction n generalizing s with
  | zero => exact s.streams_poll id connection
  | succ n ih =>
    obtain ⟨hbody, hpoll⟩ := s.streams_poll id connection
    rw [drainFor]
    split
    · next he =>
      rw [he] at hbody hpoll
      obtain rfl := hbody
      obtain ⟨hrest, hdrain⟩ := ih _
      exact ⟨hrest, hpoll.trans hdrain⟩
    · exact ⟨hbody, hpoll⟩

theorem drainFor_chunks (n : Nat) (s : Store) (cs : List Bytes) (failure : Option String) :
    ∃ cs' failure', (drainFor n (.chunks cs failure) s).2.2 = (.chunks cs' failure', s) := by
  induction n generalizing cs with
  | zero => cases cs <;> cases failure <;> exact ⟨_, _, rfl⟩
  | succ n ih =>
    cases cs with
    | nil => cases failure <;> exact ⟨_, _, rfl⟩
    | cons c cs => exact ih cs

theorem snd_readBody (s : Store) (body : ResponseBody) :
    (s.readBody body).2 = (s.drain body).2.2.2.dropBody (s.drain body).2.2.1 := by
  rw [readBody]
  split <;> next he => rw [he]

theorem undergoes_readBody (s : Store) (a : Response) :
    s.Undergoes ((s.readBody a.body).2.readings (.response a)) (s.readBody a.body).2 := by
  obtain ⟨status, headers, body⟩ := a
  rw [snd_readBody]
  cases body with
  | chunks cs failure =>
    obtain ⟨cs', failure', he⟩ := drainFor_chunks (s.available (.chunks cs failure)) s cs failure
    rw [drain, he]
    exact .of_handlers_eq rfl
  | live id connection =>
    obtain ⟨hbody, hdrain⟩ :=
      streams_drainFor (s.available (.live id connection)) s id connection
    rw [drain, hbody]
    obtain ⟨f, hf⟩ := hdrain.trans ⟨_, handlers_onEndpoint _ id (·.drop connection)⟩
    exact .of_restream hf

theorem undergoes_send (s : Store) (id : HandlerId) (r : Request) :
    (s.serve id { r with flush := false }).2.Undergoes
      ((s.send id r).2.readings (s.serve id { r with flush := false }).1) (s.send id r).2 := by
  rw [send]
  cases s.serve id { r with flush := false } with
  | mk a t =>
    cases a with
    | response a =>
      have hread := t.undergoes_readBody a
      cases hb : t.readBody a.body with
      | mk result u =>
        rw [hb] at hread
        simp only [hb]
        cases result <;> exact hread
    | broke | panicked payload | unanswered => exact .of_handlers_eq rfl

theorem undergoes_operate (s : Store) (op : HandlerOp) :
    s.Undergoes (s.operate op).1 (s.operate op).2 := by
  cases op with
  | request id r => exact (s.undergoes_serve id r).trans (.silent rfl)
  | send id r =>
    rw [operate_send]
    exact (s.undergoes_serve id { r with flush := false }).trans
      ((Undergoes.silent rfl).trans ((s.undergoes_send id r).trans (.silent rfl)))
  | setHandler id next => exact .of_modify rfl (s.handlers_delegateTo id next)
  | takeRecords id => exact .of_modify rfl rfl
  | dropReceiver id => exact .of_modify rfl rfl
  | onStream id f => exact .of_restream (s.handlers_onEndpoint id f)

theorem undergoes_run (ops : List HandlerOp) (s : Store) :
    s.Undergoes (run ops s).1 (run ops s).2 := by
  induction ops generalizing s with
  | nil => exact .of_handlers_eq rfl
  | cons op ops ih => exact (s.undergoes_operate op).trans (ih _)

theorem answered_not_mem_streamings (s : Store) (id : HandlerId) (a : Served) :
    .answered a ∉ s.streamings id := by
  simp [streamings]

theorem answered_not_mem_wayFor (fuel : Nat) (id : HandlerId) (r : Request) (s : Store)
    (a : Served) : .answered a ∉ wayFor fuel id r s := by
  induction fuel generalizing s id with
  | zero => exact List.not_mem_nil
  | succ fuel ih =>
    cases hs : s.handlers[id]? with
    | none => simp [wayFor, hs]
    | some h =>
      cases hp : h.passesTo? with
      | some next => simp [wayFor_pass hs hp, ih]
      | none =>
        rw [wayFor_answer hs hp]
        cases h <;> simp [redirections]

theorem answered_mem_operate_iff {op : HandlerOp} {a : Served} :
    .answered a ∈ (s.operate op).1 ↔
      ∃ id r, op.asked? = some (id, r) ∧ (s.serve id r).1 = a := by
  cases op with
  | request id r =>
    simp [operate, way, answered_not_mem_wayFor, HandlerOp.asked?, eq_comm]
  | send id r =>
    have hread (u : Store) : .answered a ∉ u.readings (s.serve id { r with flush := false }).1 := by
      simp only [readings]
      split
      · exact answered_not_mem_streamings _ _ _
      · exact List.not_mem_nil
    simp [operate_send, way, answered_not_mem_wayFor, hread, HandlerOp.asked?, eq_comm]
  | onStream id f =>
    simp [operate, answered_not_mem_streamings, HandlerOp.asked?]
  | _ => simp [operate, HandlerOp.asked?]

theorem serve_ne_unanswered {op : HandlerOp} (hop : op.asked? = some (id, r))
    (hanswer : .answered .unanswered ∉ (s.operate op).1) : (s.serve id r).1 ≠ .unanswered :=
  fun hu => hanswer (answered_mem_operate_iff.mpr ⟨id, r, hop, hu⟩)

end Store

end Testkit
