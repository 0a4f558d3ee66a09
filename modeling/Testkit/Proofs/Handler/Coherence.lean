import Testkit.Proofs.Handler.Happenings

/-! What follows what: a handler that a request comes to passes it on or answers it, as it is by then.
This holds at each point of a run in which every request is answered. -/

namespace Testkit

namespace Happening

def answer? : Happening → Option Served
  | .answered a => some a
  | _ => none

/-- Whether what comes later is what the handlers, as they are, make of it. -/
def Explained (hs : HandlerId → Option Handler) (later : List Happening) : Happening → Prop
  | .visited id r => ∃ h, hs id = some h ∧
      match h.passesTo? with
      | some next => ∃ rest, later = .visited next r :: rest
      | none => later.findSome? answer? = some (h.reply id r)
  | .taken id records => records = (hs id).elim [] Handler.records
  | _ => True

theorem Explained.append {hs : HandlerId → Option Handler} {e : Happening} {later : List Happening}
    (h : e.Explained hs later) (more : List Happening) : e.Explained hs (later ++ more) := by
  cases e with
  | visited id r =>
    obtain ⟨g, hg, hlater⟩ := h
    refine ⟨g, hg, ?_⟩
    cases hp : g.passesTo? with
    | some next =>
      rw [hp] at hlater
      obtain ⟨rest, rfl⟩ := hlater
      exact ⟨rest ++ more, rfl⟩
    | none =>
      rw [hp] at hlater
      show (later ++ more).findSome? answer? = some (g.reply id r)
      rw [List.findSome?_append, hlater, Option.some_or]
  | taken id records => exact h
  | _ => trivial

def visit? (i : HandlerId) : Happening → Option Request
  | .visited id r => if id = i then some r else none
  | _ => none

theorem eq_of_visit? {e : Happening} {i : HandlerId} {r : Request} (h : e.visit? i = some r) :
    e = .visited i r := by
  cases e with
  | visited id r' =>
    by_cases hi : id = i
    · simp only [visit?, if_pos hi, Option.some.injEq] at h
      rw [hi, h]
    · simp [visit?, hi] at h
  | _ => cases h

end Happening

/-- The requests that come to a handler. -/
def requestsAt (i : HandlerId) (log : List Happening) : List Request :=
  log.filterMap (Happening.visit? i)

theorem requestsAt_cons (i : HandlerId) (e : Happening) (log : List Happening) :
    requestsAt i (e :: log) = (e.visit? i).toList ++ requestsAt i log := by
  rw [requestsAt, List.filterMap_cons]
  cases e.visit? i <;> rfl

/-- The handlers by their numbers, once all this has happened. -/
def replayed (log : List Happening) (hs : HandlerId → Option Handler) (i : HandlerId) :
    Option Handler :=
  (hs i).map (Handler.along i log)

theorem replayed_nil (hs : HandlerId → Option Handler) : replayed [] hs = hs :=
  funext fun _ => Option.map_id'

theorem replayed_append (before later : List Happening) (hs : HandlerId → Option Handler) :
    replayed (before ++ later) hs = replayed later (replayed before hs) := by
  funext i
  simp only [replayed, Option.map_map, Handler.along_append]

/-- Whether everything that happens is explained by what the handlers are by then. -/
def Coherent : (HandlerId → Option Handler) → List Happening → Prop
  | _, [] => True
  | hs, e :: later => e.Explained hs later ∧ Coherent (replayed [e] hs) later

namespace Coherent

variable {hs : HandlerId → Option Handler} {before later log : List Happening}

theorem append (h : Coherent hs before) (h' : Coherent (replayed before hs) later) :
    Coherent hs (before ++ later) := by
  induction before generalizing hs with
  | nil => rwa [replayed_nil] at h'
  | cons e before ih =>
    obtain ⟨he, h⟩ := h
    rw [← List.singleton_append, replayed_append] at h'
    exact ⟨he.append later, ih h h'⟩

theorem of_append (h : Coherent hs (before ++ later)) : Coherent (replayed before hs) later := by
  induction before generalizing hs with
  | nil => rwa [replayed_nil]
  | cons e before ih =>
    rw [← List.singleton_append, replayed_append]
    exact ih h.2

theorem explained {e : Happening} (h : Coherent hs (before ++ e :: later)) :
    e.Explained (replayed before hs) later :=
  h.of_append.1

section

variable {i next : HandlerId} {r : Request} {g : Handler}

theorem explained_visit (h : Coherent hs (before ++ .visited i r :: later)) (hi : hs i = some g) :
    match (g.along i before).passesTo? with
    | some next => ∃ more, later = .visited next r :: more
    | none => later.findSome? Happening.answer? = some ((g.along i before).reply i r) := by
  obtain ⟨g', hg', hlater⟩ := h.explained
  have hsame : replayed before hs i = some (g.along i before) := congrArg _ hi
  obtain rfl := Option.some.inj (hsame.symm.trans hg')
  exact hlater

theorem next_of_passesTo? (h : Coherent hs (before ++ .visited i r :: later)) (hi : hs i = some g)
    (hp : (g.along i before).passesTo? = some next) : ∃ more, later = .visited next r :: more := by
  have hvisit := h.explained_visit hi
  rwa [hp] at hvisit

theorem reply_of_passesTo? (h : Coherent hs (before ++ .visited i r :: later))
    (hi : hs i = some g) (hp : (g.along i before).passesTo? = none) :
    later.findSome? Happening.answer? = some ((g.along i before).reply i r) := by
  have hvisit := h.explained_visit hi
  rwa [hp] at hvisit

end

theorem of_forall (h : ∀ e ∈ log, ∀ hs later, e.Explained hs later) : Coherent hs log := by
  induction log generalizing hs with
  | nil => trivial
  | cons e log ih =>
    obtain ⟨he, hlog⟩ := List.forall_mem_cons.mp h
    exact ⟨he hs log, ih hlog⟩

end Coherent

namespace Store

variable {s t : Store} {id next : HandlerId} {h : Handler} {r : Request} {fuel : Nat}
  {log : List Happening}

/-- The handlers by their numbers. -/
def state (s : Store) (id : HandlerId) : Option Handler := s.handlers[id]?

theorem Undergoes.replayed_eq (h : s.Undergoes log t) : replayed log s.state = t.state :=
  funext fun i => (h i).symm

theorem serveFor_eq_reply (hs : s.handlers[id]? = some h) (hp : h.passesTo? = none) (r : Request) :
    (serveFor 1 id r s).1 = h.reply id r := by
  cases h with
  | sequential _ _ _ | delegating _ | recording _ _ _ => simp [Handler.passesTo?] at hp
  | json value headers => cases value <;> simp only [serveFor, hs, Handler.reply, Handler.served]
  | stream e contentType environment =>
    simp only [serveFor, hs, Handler.reply]
    split <;> next he => rw [he]
  | _ => simp only [serveFor, hs, Handler.reply, Handler.served]

theorem explained_redirections (s : Store) (h : Handler) {e : Happening}
    (he : e ∈ s.redirections h) : e.answer? = none ∧ ∀ hs later, e.Explained hs later := by
  cases h with
  | swapping target next status =>
    obtain ⟨d, -, rfl⟩ := List.mem_map.mp he
    exact ⟨rfl, fun _ _ => trivial⟩
  | _ => cases he

theorem explained_streamings (s : Store) (id : HandlerId) {e : Happening}
    (he : e ∈ s.streamings id) (hs : HandlerId → Option Handler) (later : List Happening) :
    e.Explained hs later := by
  obtain ⟨endpoint, -, rfl⟩ := List.mem_map.mp he
  trivial

theorem wayFor_cons (hanswer : (serveFor fuel id r s).1 ≠ .unanswered) :
    ∃ rest, wayFor fuel id r s = .visited id r :: rest := by
  cases fuel with
  | zero => exact absurd rfl hanswer
  | succ fuel =>
    cases hs : s.handlers[id]? with
    | none => simp [serveFor, hs] at hanswer
    | some h =>
      cases hp : h.passesTo? with
      | none => exact ⟨_, wayFor_answer hs hp fuel r⟩
      | some next => exact ⟨_, wayFor_pass hs hp fuel r⟩

/-- All that a request goes through is explained, if it is answered in the end. -/
theorem coherent_wayFor (hanswer : (serveFor fuel id r s).1 ≠ .unanswered) :
    Coherent s.state (wayFor fuel id r s ++ [.answered (serveFor fuel id r s).1]) := by
  induction fuel generalizing s id with
  | zero => exact absurd rfl hanswer
  | succ fuel ih =>
    cases hs : s.handlers[id]? with
    | none => simp [serveFor, hs] at hanswer
    | some h =>
      cases hp : h.passesTo? with
      | none =>
        rw [wayFor_answer hs hp, serveFor_of_answer hs hp, serveFor_eq_reply hs hp]
        have hsilent : (s.redirections h).findSome? Happening.answer? = none :=
          List.findSome?_eq_none_iff.mpr fun e he => (explained_redirections s h he).1
        refine ⟨⟨h, hs, ?_⟩, .append (.of_forall fun e he => ?_) ⟨trivial, trivial⟩⟩
        · rw [hp]
          show (s.redirections h ++ [_]).findSome? Happening.answer? = _
          rw [List.findSome?_append, hsilent]
          rfl
        · exact (explained_redirections s h he).2
      | some next =>
        rw [serveFor_pass hs hp] at hanswer ⊢
        rw [wayFor_pass hs hp]
        obtain ⟨rest, hrest⟩ := wayFor_cons hanswer
        refine ⟨⟨h, hs, ?_⟩, ?_⟩
        · rw [hp]
          exact ⟨_, by rw [hrest]; rfl⟩
        · rw [(undergoes_pass hs hp r).replayed_eq]
          exact ih hanswer

theorem explained_readings (s : Store) (a : Served) {e : Happening} (he : e ∈ s.readings a)
    (hs : HandlerId → Option Handler) (later : List Happening) : e.Explained hs later := by
  simp only [readings] at he
  split at he
  · exact explained_streamings s _ he hs later
  · cases he

theorem coherent_operate {op : HandlerOp} (hanswer : .answered .unanswered ∉ (s.operate op).1) :
    Coherent s.state (s.operate op).1 := by
  cases op with
  | request id r => exact coherent_wayFor (serve_ne_unanswered rfl hanswer)
  | send id r =>
    rw [operate_send, ← List.append_assoc]
    refine (coherent_wayFor (serve_ne_unanswered rfl hanswer)).append
      (.append (.of_forall fun e he => ?_) ⟨trivial, trivial⟩)
    exact explained_readings _ _ he
  | takeRecords id => exact ⟨rfl, trivial⟩
  | onStream id f => exact .of_forall fun e he => explained_streamings _ id he
  | setHandler id next => exact ⟨trivial, trivial⟩
  | dropReceiver id => exact ⟨trivial, trivial⟩

theorem coherent_run {ops : List HandlerOp} (hanswer : .answered .unanswered ∉ (run ops s).1) :
    Coherent s.state (run ops s).1 := by
  induction ops generalizing s with
  | nil => trivial
  | cons op ops ih =>
    have hnow : .answered .unanswered ∉ (s.operate op).1 :=
      fun h => hanswer (List.mem_append_left _ h)
    have hlater : .answered .unanswered ∉ (run ops (s.operate op).2).1 :=
      fun h => hanswer (List.mem_append_right _ h)
    refine (coherent_operate hnow).append ?_
    rw [(s.undergoes_operate op).replayed_eq]
    exact ih hlater

end Store

end Testkit
