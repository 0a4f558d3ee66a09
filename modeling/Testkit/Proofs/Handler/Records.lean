import Testkit.Proofs.Handler.Transparency

/-! What recorders keep: each request that comes to one, in order, from before it is passed on. So the record
is there whatever becomes of the request. -/

namespace Testkit

def Happening.recordsAt (i : HandlerId) : Happening → List Request
  | .taken id records => if id = i then records else []
  | _ => []

/-- The records that are taken from a recorder. -/
def recordsTaken (i : HandlerId) (log : List Happening) : List Request :=
  log.flatMap (Happening.recordsAt i)

/-- Whether a record has all of a request but the transport that it came by. -/
structure Request.KeptAs (r record : Request) : Prop where
  method : record.method = r.method
  uri : record.uri = r.uri
  headers : record.headers = r.headers
  body : record.body = r.body
  flush : record.flush = false

theorem Request.keptAs_recorded (requests : List Request) :
    List.Forall₂ Request.KeptAs requests (requests.map Request.recorded) := by
  induction requests with
  | nil => exact .nil
  | cons r requests ih => exact .cons ⟨rfl, rfl, rfl, rfl, rfl⟩ ih

section

variable {hs : HandlerId → Option Handler} {log before later : List Happening} {i inner : HandlerId}
  {e : Happening} {records : List Request} {heard : Bool}

/-- What a recorder gives and what it keeps is what it had and the request that has come. -/
theorem meets_recording (he : e.Explained hs later) (hi : hs i = some (.recording inner records true))
    (hheard : e ≠ .unheard i) : ∃ kept,
      (Handler.recording inner records true).meets i e = .recording inner kept true ∧
        e.recordsAt i ++ kept = records ++ (e.visit? i).toList.map Request.recorded := by
  by_cases hat : e.at? = some i
  · rw [Handler.meets, if_pos hat]
    cases e with
    | visited id r =>
      obtain rfl : id = i := Option.some.inj hat
      refine ⟨records ++ [r.recorded], rfl, ?_⟩
      simp [Happening.visit?, Happening.recordsAt]
    | taken id taken =>
      obtain rfl : id = i := Option.some.inj hat
      have htaken : taken = records := by
        have h : taken = (hs id).elim [] Handler.records := he
        rw [hi] at h
        exact h
      refine ⟨[], rfl, ?_⟩
      simp [Happening.visit?, Happening.recordsAt, htaken]
    | unheard id => exact absurd (congrArg _ (Option.some.inj hat)) hheard
    | _ => exact ⟨records, rfl, by simp [Happening.visit?, Happening.recordsAt]⟩
  · rw [Handler.meets, if_neg hat]
    refine ⟨records, rfl, ?_⟩
    cases e with
    | visited id r | taken id records =>
      have hid : id ≠ i := fun h => hat (congrArg some h)
      simp [Happening.visit?, Happening.recordsAt, hid]
    | _ => simp [Happening.visit?, Happening.recordsAt]

theorem along_recording_heard (hlog : Coherent hs (before ++ later))
    (hi : hs i = some (.recording inner records true)) (hheard : .unheard i ∉ before) : ∃ kept,
      (Handler.recording inner records true).along i before = .recording inner kept true ∧
        recordsTaken i before ++ kept = records ++ (requestsAt i before).map Request.recorded := by
  induction before generalizing hs records with
  | nil => exact ⟨records, rfl, (List.append_nil records).symm⟩
  | cons e before ih =>
    obtain ⟨he, hlater⟩ := hlog
    have hne : e ≠ .unheard i := fun h => hheard (h ▸ List.mem_cons_self)
    obtain ⟨mid, hmeets, hmid⟩ := meets_recording he hi hne
    have hmid' : replayed [e] hs i = some (.recording inner mid true) := by
      rw [replayed, hi]
      exact congrArg some hmeets
    obtain ⟨kept, halong, hkept⟩ := ih hlater hmid' fun h => hheard (List.mem_cons_of_mem e h)
    refine ⟨kept, ?_, ?_⟩
    · rw [Handler.along_cons, hmeets, halong]
    · calc recordsTaken i (e :: before) ++ kept
          = e.recordsAt i ++ (recordsTaken i before ++ kept) := List.append_assoc _ _ _
        _ = e.recordsAt i ++ (mid ++ (requestsAt i before).map Request.recorded) := by rw [hkept]
        _ = records ++ (e.visit? i).toList.map Request.recorded ++
              (requestsAt i before).map Request.recorded := by rw [← List.append_assoc, hmid]
        _ = records ++ (requestsAt i (e :: before)).map Request.recorded := by
          rw [requestsAt_cons, List.map_append, List.append_assoc]

theorem along_recording_unheard (inner i : HandlerId) (log : List Happening) :
    (Handler.recording inner [] false).along i log = .recording inner [] false := by
  induction log with
  | nil => rfl
  | cons e log ih =>
    have hmeets : (Handler.recording inner [] false).meets i e = .recording inner [] false := by
      rw [Handler.meets]
      split
      · cases e <;> rfl
      · rfl
    rw [Handler.along_cons, hmeets, ih]

theorem along_recording_of_unheard (hlog : .unheard i ∈ log) (records : List Request) (heard : Bool) :
    (Handler.recording inner records heard).along i log = .recording inner [] false := by
  obtain ⟨before, later, rfl⟩ := List.append_of_mem hlog
  obtain ⟨records', heard', hbefore⟩ := Handler.along_recording inner i before records heard
  have hmeets : (Handler.recording inner records' heard').meets i (.unheard i) =
      .recording inner [] false := if_pos rfl
  rw [Handler.along_append, Function.comp_apply, hbefore, Handler.along_cons, hmeets,
    along_recording_unheard]

/-- What the recorders have kept at each point. -/
structure Recorded (hs : HandlerId → Option Handler) (log : List Happening) : Prop where
  /-- Until its receiver is dropped, a recorder gives and keeps one record for each request that has come,
  in order, and each has what came. -/
  kept {i inner : HandlerId} {records : List Request}
    (hi : hs i = some (.recording inner records true)) {before later : List Happening}
    (hlog : log = before ++ later) (hheard : .unheard i ∉ before) :
    ∃ new : List Request,
      recordsTaken i before ++ ((Handler.recording inner records true).along i before).records =
        records ++ new ∧
      List.Forall₂ Request.KeptAs (requestsAt i before) new
  dropped {i inner : HandlerId} {records : List Request} {heard : Bool}
    (hi : hs i = some (.recording inner records heard)) {before later : List Happening}
    (hlog : log = before ++ later) (hheard : .unheard i ∈ before) :
    ((Handler.recording inner records heard).along i before).records = []
  /-- The handler behind a recorder comes after it and is given the same request. -/
  passed {i inner : HandlerId} {records : List Request} {heard : Bool}
    (hi : hs i = some (.recording inner records heard)) {before later : List Happening}
    {r : Request} (hlog : log = before ++ .visited i r :: later) :
    ∃ more, later = .visited inner r :: more

theorem Coherent.recorded (hlog : Coherent hs log) : Recorded hs log where
  kept {i inner records} hi {before later} he hheard := by
    subst he
    obtain ⟨kept, halong, hkept⟩ := along_recording_heard hlog hi hheard
    rw [halong]
    exact ⟨_, hkept, Request.keptAs_recorded _⟩
  dropped {i inner records heard} hi {before later} he hheard := by
    rw [along_recording_of_unheard hheard]
    rfl
  passed {i inner records heard} hi {before later r} he := by
    subst he
    obtain ⟨records', heard', halong⟩ := Handler.along_recording inner i before records heard
    refine hlog.next_of_passesTo? hi ?_
    rw [halong]
    rfl

end

/-- Whether it is what comes of a request, and happens to no handler. -/
def Happening.isResult (e : Happening) : Bool := e.at?.isNone

/-- What comes of requests. -/
def results (log : List Happening) : List Happening := log.filter Happening.isResult

theorem results_bareLog (w : Wrapping) (log : List Happening) :
    results (w.bareLog log) = results log := by
  induction log with
  | nil => rfl
  | cons e log ih =>
    by_cases he : e.at? = some w.recorder
    · have hresult : ¬ e.isResult := by simp [Happening.isResult, he]
      rw [Wrapping.bareLog_cons_of_eq he, ih, results, results, List.filter_cons_of_neg hresult]
    · rw [Wrapping.bareLog_cons_of_ne he]
      by_cases hresult : e.isResult
      · have hsame : e.rewire w.bypass = e := by
          cases e with
          | redirected id next => cases hresult
          | _ => rfl
        rw [hsame, results, results, List.filter_cons_of_pos hresult,
          List.filter_cons_of_pos hresult]
        exact congrArg (e :: ·) ih
      · have hresult' : ¬ (e.rewire w.bypass).isResult := by
          rwa [Happening.isResult, Happening.at?_rewire]
        rw [results, results, List.filter_cons_of_neg hresult, List.filter_cons_of_neg hresult']
        exact ih

theorem answered_mem_bareLog (w : Wrapping) {log : List Happening} {a : Served}
    (h : .answered a ∈ log) : .answered a ∈ w.bareLog log := by
  have hresult : .answered a ∈ results log := List.mem_filter.mpr ⟨h, rfl⟩
  rw [← results_bareLog w] at hresult
  exact List.mem_of_mem_filter hresult

/-- All that comes of the requests of a run, and all that happens to other handlers, is as it would be if
the handler behind the recorder stood in its place; and each recorder keeps what comes to it. -/
theorem recording_transparent_and_complete (w : Wrapping) (s : Store) (records : List Request)
    (heard : Bool) (hw : s.handlers[w.recorder]? = some (.recording w.inner records heard))
    (ops : List HandlerOp)
    (hanswer : .answered .unanswered ∉ (Store.run (w.bareOps ops) (w.bareStore s)).1) :
    results (Store.run (w.bareOps ops) (w.bareStore s)).1 = results (Store.run ops s).1 ∧
      (Store.run (w.bareOps ops) (w.bareStore s)).1 = w.bareLog (Store.run ops s).1 ∧
      w.Bares (Store.run ops s).2 (Store.run (w.bareOps ops) (w.bareStore s)).2 ∧
      (∀ id r, ((Store.run ops s).2.serve id r).1 =
        ((Store.run (w.bareOps ops) (w.bareStore s)).2.serve (w.bypass id) r).1) ∧
      Recorded s.state (Store.run ops s).1 ∧
      s.Undergoes (Store.run ops s).1 (Store.run ops s).2 := by
  obtain ⟨hlog, hbares⟩ := (Wrapping.bares_bareStore hw).run hanswer
  have hanswer' : .answered .unanswered ∉ (Store.run ops s).1 := by
    intro hu
    apply hanswer
    rw [hlog]
    exact answered_mem_bareLog w hu
  refine ⟨?_, hlog, hbares, hbares.serve_eq, (Store.coherent_run hanswer').recorded,
    Store.undergoes_run ops s⟩
  rw [hlog, results_bareLog]

/-- A recorder behind another one, before handlers that fail. -/
def wiretap : Store where
  handlers := [.panicking (.text "first"), .broken, .fixed (.ofStatus 200),
    .sequential 0 [1, 2, 2] ⟨0, by decide⟩, .recording 3 [] true, .recording 4 [] true,
    .delegating 5]

def call (method : String) (body : Bytes) : Request :=
  ⟨method, { path := "/a", query := some method }, [("x-b", body)], body, true⟩

def outerWrapping : Wrapping := ⟨5, 4, by decide⟩

/-- The receiver of the outer recorder is dropped before the last request. -/
def wiretapOps : List HandlerOp :=
  [.request 6 (call "GET" []), .send 6 (call "PUT" [1]), .takeRecords 5,
    .request 5 (call "POST" [2, 3]), .dropReceiver 5, .request 6 (call "HEAD" [])]

theorem recording_transparent_and_complete_of_wiretap :
    let log := (Store.run wiretapOps wiretap).1
    results (Store.run (outerWrapping.bareOps wiretapOps) (outerWrapping.bareStore wiretap)).1 =
        results log ∧
      log.filterMap Happening.answer? =
        [.panicked (.text "first"), .broke, .response (.ofStatus 200), .response (.ofStatus 200)] ∧
      recordsTaken 5 log =
        [⟨"GET", ⟨none, none, "/a", some "GET"⟩, [("x-b", [])], [], false⟩,
          ⟨"PUT", ⟨none, none, "/a", some "PUT"⟩, [("x-b", [1])], [1], false⟩] ∧
      (requestsAt 4 log).map (·.method) = ["GET", "PUT", "POST", "HEAD"] ∧
      List.Forall₂ Request.KeptAs (requestsAt 4 log)
        ((Handler.recording 3 [] true).along 4 log).records := by
  intro log
  obtain ⟨hresults, -, -, -, hrecorded, -⟩ :=
    recording_transparent_and_complete outerWrapping wiretap [] true rfl wiretapOps (by decide)
  have hinner : wiretap.state 4 = some (.recording 3 [] true) := rfl
  obtain ⟨new, hkept, hall⟩ := hrecorded.kept hinner (List.append_nil log).symm (by decide)
  have hnone : recordsTaken 4 log = [] := by decide
  rw [hnone, List.nil_append, List.nil_append] at hkept
  exact ⟨hresults, by decide, by decide, by decide, hkept ▸ hall⟩

end Testkit
