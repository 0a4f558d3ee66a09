import Mathlib.Data.List.Induction
import Testkit.Proofs.Handler.Routes
import Testkit.Transport.Client
import Testkit.Transport.Server

/-! The client and the server agree on plain handlers: a request gets the same response by either, or
none, and leaves the handlers in the same state. -/

namespace Testkit

def ResponseBody.bytes : ResponseBody → Bytes
  | .chunks cs _ => cs.flatten
  | .live _ _ => []

@[simp] theorem ResponseBody.bytes_ofBytes (body : Bytes) : (ofBytes body).bytes = body := by
  cases body <;> simp [ofBytes, bytes]

def Answer.response (a : Answer) : Response := ⟨a.status, a.headers, .ofBytes a.body⟩

namespace Handler

/-- What the client makes of what comes of a request. -/
def sent (h : Handler) : Except ClientError Answer :=
  match h.served with
  | .response r => .ok ⟨r.status, r.headers, r.body.bytes⟩
  | .panicked payload => .error (.handlerPanicked payload)
  | .broke => .error .connectionBroken
  | .unanswered => .error .unanswered

theorem served_cases {h : Handler} (hk : h.IsPlain) (hp : h.passesTo? = none) :
    (∃ status headers body, h.served = .response ⟨status, headers, .ofBytes body⟩ ∧
      h ≠ .broken ∧ ∀ payload, h ≠ .panicking payload) ∨
    (h = .broken ∧ h.served = .broke) ∨
    (∃ payload, h = .panicking payload ∧ h.served = .panicked payload) := by
  cases h with
  | fixed r =>
    obtain ⟨body, hbody⟩ := hk
    exact .inl ⟨r.status, r.headers, body, by rw [← hbody]; rfl, by simp, by simp⟩
  | json value headers =>
    cases value with
    | ok value => exact .inl ⟨_, _, _, rfl, by simp, by simp⟩
    | error e => exact .inl ⟨500, [], [], rfl, by simp, by simp⟩
  | broken => exact .inr (.inl ⟨rfl, rfl⟩)
  | panicking payload => exact .inr (.inr ⟨payload, rfl, rfl⟩)
  | sequential _ _ _ | delegating _ | recording _ _ _ => simp [passesTo?] at hp
  | _ => exact absurd hk (by simp [IsPlain])

theorem sent_errors {h : Handler} (hk : h.IsPlain) (hp : h.passesTo? = none) :
    (h.sent = .error .connectionBroken ↔ h = .broken) ∧
    (∀ text, (∃ payload, h.sent = .error (.handlerPanicked payload) ∧
        ClientError.payloadText payload = text) ↔
      h = .panicking (.text text) ∨
        ∃ n, h = .panicking (.code n) ∧ text = "(non-string panic payload)") ∧
    ∀ e, h.sent = .error e → e = .connectionBroken ∨ ∃ payload, e = .handlerPanicked payload := by
  obtain ⟨status, headers, body, hl, hbroken, hpanicking⟩ | ⟨rfl, hl⟩ | ⟨payload, rfl, hl⟩ :=
    served_cases hk hp
  · simp [sent, hl, hbroken, hpanicking]
  · simp [sent, hl]
  · cases payload with
    | text message => simp [sent, hl, ClientError.payloadText]
    | code n => simp [sent, hl, ClientError.payloadText, eq_comm]

/-- The handler as if no request had come to it. -/
def unserved : Handler → Handler
  | .sequential first rest _ => .sequential first rest 0
  | .recording inner _ _ => .recording inner [] true
  | h => h

theorem unserved_passed (r : Request) (h : Handler) : (h.passed r).unserved = h.unserved := by
  cases h with
  | recording inner records heard => cases heard <;> rfl
  | _ => rfl

theorem unserved_delegates (h : Handler) : h.unserved.delegates = h.delegates := by
  cases h <;> rfl

theorem unserved_isPlain (h : Handler) : h.unserved.IsPlain ↔ h.IsPlain := by
  cases h <;> rfl

end Handler

namespace Store

variable {s t : Store} {id : HandlerId} {way : List HandlerId} {leaf : Handler}

theorem readBody_ofBytes (s : Store) (body : Bytes) : s.readBody (.ofBytes body) = (.ok body, s) := by
  cases body <;>
    simp [readBody, drain, available, drainFor, poll, dropBody, ResponseBody.ofBytes]

theorem passedAlong_flush (s : Store) (way : List HandlerId) (r : Request) (flush : Bool) :
    s.passedAlong way { r with flush } = s.passedAlong way r := by
  simp only [passedAlong, Handler.passed_flush]

theorem send_of_routes (h : s.Routes id way leaf) (hk : leaf.IsPlain) (r : Request) :
    (s.send id r).1 = leaf.sent ∧ (s.send id r).2.handlers = s.passedAlong way r := by
  obtain ⟨after, hserve, hhandlers⟩ := serve_of_routes h hk { r with flush := false }
  rw [passedAlong_flush] at hhandlers
  rw [← hhandlers, send, hserve, Handler.sent]
  obtain ⟨status, headers, body, hl, -⟩ | ⟨-, hl⟩ | ⟨payload, -, hl⟩ :=
    Handler.served_cases hk h.passesTo?_leaf
  · simp [hl, readBody_ofBytes]
  · simp [hl, notify]
  · simp [hl]

theorem respond_of_routes (h : s.Routes id way leaf) (hk : leaf.IsPlain) (r : Request) :
    (s.respond id r).1 = leaf.sent.toOption.map Answer.response ∧
      (s.respond id r).2.handlers = s.passedAlong way r := by
  obtain ⟨after, hserve, hhandlers⟩ := serve_of_routes h hk { r with flush := true }
  rw [passedAlong_flush] at hhandlers
  rw [← hhandlers, respond, hserve, Handler.sent]
  obtain ⟨status, headers, body, hl, -⟩ | ⟨-, hl⟩ | ⟨payload, -, hl⟩ :=
    Handler.served_cases hk h.passesTo?_leaf
  · simp [hl, Except.toOption, Answer.response]
  · simp [hl, Except.toOption]
  · simp [hl, Except.toOption]

def unserved (s : Store) : List Handler := s.handlers.map Handler.unserved

theorem unserved_of_passedAlong {r : Request} (h : t.handlers = s.passedAlong way r) :
    t.unserved = s.unserved := by
  refine List.ext_getElem? fun i => ?_
  rw [unserved, unserved, h, passedAlong, List.getElem?_map, List.getElem?_map,
    List.getElem?_mapIdx, Option.map_map]
  congr 1
  funext g
  by_cases hi : i ∈ way <;> simp [hi, Handler.unserved_passed]

theorem Plain.congr (h : s.Plain id) (ht : t.unserved = s.unserved) : t.Plain id := by
  induction h with
  | @intro id h hs hk _ ih =>
    have hi : (t.handlers[id]?).map Handler.unserved = some h.unserved := by
      rw [← List.getElem?_map, ← unserved, ht, unserved, List.getElem?_map, hs, Option.map_some]
    obtain ⟨h', hs', he⟩ := Option.map_eq_some_iff.mp hi
    refine .intro hs' ?_ fun d hd => ih d ?_
    · rwa [← Handler.unserved_isPlain, he, Handler.unserved_isPlain]
    · rwa [← Handler.unserved_delegates, ← he, Handler.unserved_delegates]

theorem unserved_delegateTo (s : Store) (id next : HandlerId) :
    (s.delegateTo id next).unserved =
      if (s.unserved[id]?).any Handler.isDelegating then s.unserved.set id (.delegating next)
      else s.unserved := by
  rw [unserved, unserved, List.getElem?_map, delegateTo]
  cases hs : s.handlers[id]? with
  | none => simp
  | some h =>
    cases h with
    | delegating current => simp [set, List.map_set, Handler.unserved, Handler.isDelegating]
    | _ => simp [Handler.unserved, Handler.isDelegating]

end Store

/-- What may happen to handlers one thing after another: a request comes to one of them, one that
delegates is given another one to delegate to, or one more is built. -/
inductive Exchange where
  | request (id : HandlerId) (r : Request)
  | redirect (id next : HandlerId)
  | add (h : Handler)

namespace Store

/-- How the handlers are put together, whatever requests come to them. -/
def arrange (s : Store) : Exchange → Store
  | .request _ _ => s
  | .redirect id next => s.delegateTo id next
  | .add h => (s.add h).2

def arranged (s : Store) (xs : List Exchange) : Store := xs.foldl arrange s

def exchange {α : Type} (serve : Store → HandlerId → Request → α × Store)
    (done : List α × Store) : Exchange → List α × Store
  | .request id r =>
    let (a, s) := serve done.2 id r
    (done.1 ++ [a], s)
  | x => (done.1, done.2.arrange x)

/-- What comes of the requests, and the handlers after all of them. -/
def exchanges {α : Type} (s : Store) (serve : Store → HandlerId → Request → α × Store)
    (xs : List Exchange) : List α × Store :=
  xs.foldl (exchange serve) ([], s)

theorem exchanges_append_singleton {α : Type} (s : Store)
    (serve : Store → HandlerId → Request → α × Store) (xs : List Exchange) (x : Exchange) :
    s.exchanges serve (xs ++ [x]) = exchange serve (s.exchanges serve xs) x := by
  simp [exchanges]

theorem unserved_arrange {s t : Store} (ht : t.unserved = s.unserved) (x : Exchange) :
    (t.arrange x).unserved = (s.arrange x).unserved := by
  cases x with
  | request id r => exact ht
  | redirect id next => simp only [arrange, unserved_delegateTo, ht]
  | add h =>
    simp only [unserved, arrange, add, List.map_append] at ht ⊢
    rw [ht]

theorem handlers_arrange {s t : Store} (ht : t.handlers = s.handlers) (x : Exchange) :
    (t.arrange x).handlers = (s.arrange x).handlers := by
  cases x with
  | request id r => exact ht
  | redirect id next =>
    rw [arrange, arrange, delegateTo, delegateTo, ht]
    split <;> simp [set, ht]
  | add h => simp [arrange, add, ht]

/-- The transports have given the same responses so far, and the handlers are the same by now: those
that were put together, with what they remember. -/
structure InStep (start : Store) (client : List (Except ClientError Answer) × Store)
    (server : List (Option Response) × Store) : Prop where
  responses : client.1.map (fun a => a.toOption.map Answer.response) = server.1
  handlers : client.2.handlers = server.2.handlers
  arranged : client.2.unserved = start.unserved

theorem InStep.exchange {start : Store} {client : List (Except ClientError Answer) × Store}
    {server : List (Option Response) × Store} (h : InStep start client server) {x : Exchange}
    (hx : ∀ id r, x = .request id r → start.Plain id) :
    InStep (start.arrange x) (exchange send client x) (exchange respond server x) := by
  cases x with
  | request id r =>
    obtain ⟨way, leaf, hr, hk⟩ := ((hx id r rfl).congr h.arranged).routes
    -- Where a request goes depends on nothing but the handlers, which the server has as well.
    have hr' : server.2.Routes id way leaf := hr.congr fun i _ => by rw [h.handlers]
    obtain ⟨hsent, hclient⟩ := send_of_routes hr hk r
    obtain ⟨hresponse, hserver⟩ := respond_of_routes hr' hk r
    refine ⟨?_, ?_, (unserved_of_passedAlong hclient).trans h.arranged⟩
    · simp only [Store.exchange, List.map_append, List.map_singleton, h.responses, hsent, hresponse]
    · simp only [Store.exchange, hclient, hserver, passedAlong, h.handlers]
  | redirect id next | add g =>
    exact ⟨h.responses, handlers_arrange h.handlers _, unserved_arrange h.arranged _⟩

theorem inStep {s : Store} {xs : List Exchange}
    (hplain : ∀ before id r later, xs = before ++ .request id r :: later →
      (s.arranged before).Plain id) :
    InStep (s.arranged xs) (s.exchanges send xs) (s.exchanges respond xs) := by
  induction xs using List.reverseRecOn with
  | nil => exact ⟨rfl, rfl, rfl⟩
  | append_singleton xs x ih =>
    have hstep := ih fun before id r later hxs =>
      hplain before id r (later ++ [x]) (by rw [hxs, List.append_assoc, List.cons_append])
    rw [exchanges_append_singleton, exchanges_append_singleton, arranged, List.foldl_append]
    exact hstep.exchange fun id r hr => hplain xs id r [] (by rw [hr])

/-- Whatever requests come and wherever requests are sent in between, as long as each request comes to
a plain handler, the client and the server agree: each request is answered alike, or comes back as an
error from the one and is not answered by the other, and the handlers end in the same state. Each
request takes its way to one last handler, which decides what comes of it, and what passes it on has
done so and remembers it, however it ends. It ends in a broken connection if the last handler breaks
it and in a panic if that one panics, with its text if it has one, and in no other error. -/
theorem transports_agree (s : Store) (xs : List Exchange)
    (hplain : ∀ before id r later, xs = before ++ .request id r :: later →
      (s.arranged before).Plain id) :
    (s.exchanges send xs).1.map (fun a => a.toOption.map Answer.response) =
      (s.exchanges respond xs).1 ∧
    (s.exchanges send xs).2.handlers = (s.exchanges respond xs).2.handlers ∧
    ∀ before id r later, xs = before ++ .request id r :: later →
      let t := (s.exchanges send before).2
      ∃ way leaf, t.Routes id way leaf ∧
        (t.send id r).1 = leaf.sent ∧ (t.send id r).2.handlers = t.passedAlong way r ∧
        ((t.send id r).1 = .error .connectionBroken ↔ leaf = .broken) ∧
        (∀ text, (∃ payload, (t.send id r).1 = .error (.handlerPanicked payload) ∧
            ClientError.payloadText payload = text) ↔
          leaf = .panicking (.text text) ∨
            ∃ n, leaf = .panicking (.code n) ∧ text = "(non-string panic payload)") ∧
        ∀ e, (t.send id r).1 = .error e →
          e = .connectionBroken ∨ ∃ payload, e = .handlerPanicked payload := by
  refine ⟨(inStep hplain).responses, (inStep hplain).handlers, ?_⟩
  intro before id r later hxs t
  have hstep : InStep (s.arranged before) (s.exchanges send before) (s.exchanges respond before) :=
    inStep fun earlier id' r' between hbefore =>
      hplain earlier id' r' (between ++ .request id r :: later) (by simp [hxs, hbefore])
  obtain ⟨way, leaf, hr, hk⟩ := ((hplain before id r later hxs).congr hstep.arranged).routes
  obtain ⟨hsent, hhandlers⟩ := send_of_routes hr hk r
  refine ⟨way, leaf, hr, hsent, hhandlers, ?_⟩
  rw [hsent]
  exact Handler.sent_errors hk hr.passesTo?_leaf

/-- A recorder that is asked itself and through another handler, before a handler that breaks the
connection, two that panic and one that answers; in between, a request is sent past it. -/
theorem transports_agree_recording :
    let turns : List Handler := [.broken, .panicking (.text "no"), .panicking (.code 7),
      .fixed ⟨200, [("x-a", [49])], .ofBytes [104, 105]⟩, .sequential 0 [1, 2, 3] 0]
    let s : Store := { handlers := turns ++ [.recording 4 [] true, .delegating 5] }
    let r : Request := ⟨"GET", { path := "/" }, [], [], false⟩
    let xs : List Exchange := [.request 6 r, .request 5 r, .add (.fixed (.ofStatus 404)),
      .redirect 6 7, .request 6 r, .redirect 6 5, .request 6 r, .request 6 r]
    (s.exchanges respond xs).1 = [none, none, some (.ofStatus 404), none,
        some ⟨200, [("x-a", [49])], .ofBytes [104, 105]⟩] ∧
      (s.exchanges respond xs).2.handlers[5]? = some (.recording 4 [r, r, r, r] true) := by
  intro turns s r xs
  have hturns : ∀ t : Store, t.handlers.take 6 = s.handlers.take 6 → t.Plain 5 := by
    intro t ht
    have hget : ∀ i < 6, t.handlers[i]? = s.handlers[i]? := fun i hi => by
      rw [← List.getElem?_take_of_lt hi, ht, List.getElem?_take_of_lt hi]
    refine .intro (hget 5 (by decide)) trivial (List.forall_mem_singleton.mpr ?_)
    refine .intro (hget 4 (by decide)) trivial ?_
    simp only [Handler.delegates, List.forall_mem_cons]
    exact ⟨.intro (hget 0 (by decide)) trivial nofun, .intro (hget 1 (by decide)) trivial nofun,
      .intro (hget 2 (by decide)) trivial nofun, .intro (hget 3 (by decide)) ⟨_, rfl⟩ nofun, nofun⟩
  have hback : ∀ t : Store, t.handlers.take 6 = s.handlers.take 6 →
      t.handlers[6]? = some (.delegating 5) → t.Plain 6 := fun t ht h6 =>
    .intro h6 trivial (List.forall_mem_singleton.mpr (hturns t ht))
  have hplain : ∀ before id r' later, xs = before ++ .request id r' :: later →
      (s.arranged before).Plain id := by
    intro before id r' later hxs
    have hbefore : before = xs.take before.length := by simp [hxs]
    have hid : xs[before.length]? = some (.request id r') := by simp [hxs]
    rw [hbefore]
    generalize before.length = n at hid
    rcases n with _ | _ | _ | _ | _ | _ | _ | _ | n <;> cases hid
    · exact hback _ rfl rfl
    · exact hturns _ rfl
    · have hfixed : (s.arranged (xs.take 4)).Plain 7 := .intro rfl ⟨[], rfl⟩ nofun
      exact .intro (h := .delegating 7) rfl trivial (List.forall_mem_singleton.mpr hfixed)
    · exact hback _ rfl rfl
    · exact hback _ rfl rfl
  obtain ⟨hresponses, hhandlers, -⟩ := transports_agree s xs hplain
  rw [← hresponses, ← hhandlers]
  simp only [xs, r, s, turns]
  exact ⟨rfl, rfl⟩

end Store

end Testkit
