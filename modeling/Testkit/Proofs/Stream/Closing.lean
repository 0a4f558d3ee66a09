import Testkit.Proofs.Handler.Routes
import Testkit.Proofs.Stream.Delivery

/-! Closing is final. It is done in two steps, between which any other steps may come: from the first
one on nothing is admitted or delivered, and from the second one on nothing is registered. -/

namespace Testkit

theorem handedOver_append_beginClose (since later : List StreamOp) :
    handedOver (since ++ .beginClose :: later) = handedOver since := by
  induction later using List.reverseRecOn with
  | nil => simp [handedOver_append_singleton, StreamOp.chunk?]
  | append_singleton later op ih =>
    rw [← List.cons_append, ← List.append_assoc, handedOver_append_singleton, ih]
    simp

namespace Endpoint

theorem request_of_closed {e : Endpoint} (h : e.registry.closed = true) (flush : Bool) :
    ∃ notices, e.request flush = (none, e, notices) :=
  ⟨_, request_of_refused (by simp [h])⟩

theorem deliver_of_closed {e : Endpoint} (h : e.registry.closed = true) (chunk : Bytes)
    (queue : Bool) : e.deliver chunk queue = e := by
  simp [deliver, h]

theorem after_beginClose_closed (e : Endpoint) (before later : List StreamOp) :
    (e.after (before ++ .beginClose :: later)).registry.closed = true := by
  simp [after_closed]

theorem after_pending_of_closed {e : Endpoint} (h : e.registry.closed = true)
    (hp : e.registry.pending = []) (ops : List StreamOp) :
    (e.after ops).registry.pending = [] := by
  induction ops using List.reverseRecOn with
  | nil => exact hp
  | append_singleton ops op ih =>
    have hc : (e.after ops).registry.closed = true := by simp [after_closed, h]
    rw [after_append, after_singleton, step_pending, ih, hc]
    cases op <;> simp

theorem after_beginClose_pending (e : Endpoint) (before later : List StreamOp) :
    (e.after (before ++ .beginClose :: later)).registry.pending = [] := by
  rw [List.append_cons, after_append]
  refine after_pending_of_closed ?_ ?_ later
  · simp [after_closed]
  · rw [after_append, after_singleton]
    rfl

theorem after_registered_of_closed {e : Endpoint} (hw : e.WellFormed)
    (h : e.registry.closed = true) (ops : List StreamOp) :
    (e.after ops).registry.registered =
      e.registry.registered.filter fun id => !ops.any (·.ends id) := by
  induction ops using List.reverseRecOn with
  | nil => simp [after]
  | append_singleton ops op ih =>
    have hc : (e.after ops).registry.closed = true := by simp [after_closed, h]
    rw [after_append, after_singleton, step_registered (hw.after ops), ih, hc]
    simp [List.filter_filter, Bool.and_comm]

theorem registered_of_closing {initial : Option Bytes} {before later : List StreamOp}
    (h : .endAll ∈ later) :
    (after { initial } (before ++ .beginClose :: later)).registry.registered = [] := by
  have hw := (wellFormed_fresh initial).after (before ++ [.beginClose])
  rw [List.append_cons, after_append, after_registered_of_closed hw (by simp [after_closed]),
    List.filter_eq_nil_iff]
  intro id _
  have hany : later.any (·.ends id) = true := List.any_eq_true.mpr ⟨.endAll, h, rfl⟩
  simp [hany]

/-- A registered connection was admitted, and nothing has ended it since. -/
theorem admission_of_registered {initial : Option Bytes} {id : Nat} {ops : List StreamOp}
    (h : (after { initial } ops).isRegistered id = true) :
    ∃ earlier since, ops = earlier ++ .request true :: since ∧
      ((after { initial } earlier).step (.request true)).1 = .admitted id ∧
      since.any (·.ends id) = false := by
  induction ops using List.reverseRecOn with
  | nil => simp [after, isRegistered] at h
  | append_singleton ops op ih =>
    have hw := (wellFormed_fresh initial).after ops
    rw [after_append, after_singleton, isRegistered, List.contains_iff_mem, step_registered hw,
      List.mem_append, List.mem_filter] at h
    rcases h with ⟨hm, he⟩ | hm
    · obtain ⟨earlier, since, rfl, ha, hs⟩ := ih (List.contains_iff_mem.mpr hm)
      refine ⟨earlier, since ++ [op], by simp, ha, ?_⟩
      rw [List.any_append, hs]
      simpa using he
    · split at hm
      · rename_i ho
        obtain rfl := List.mem_singleton.mp hm
        obtain ⟨rfl, hc⟩ := ho
        exact ⟨ops, [], rfl, by simp [step, request, hc], rfl⟩
      · simp at hm

end Endpoint

theorem Store.serve_of_refused {s : Store} {id : HandlerId} {e : Endpoint} {contentType : Bytes}
    {environment : Option Bytes} {request : Request}
    (hs : s.handlers[id]? = some (.stream e contentType environment))
    (hr : ¬ (request.flush = true ∧ e.registry.closed = false)) :
    (s.serve id request).1 = .response (.ofStatus 500) ∧
      (s.serve id request).2.handlers = s.handlers := by
  have hnone := Endpoint.request_of_refused hr
  have hlen : 0 < s.handlers.length := Nat.zero_lt_of_lt (List.getElem?_eq_some_iff.mp hs).1
  obtain ⟨fuel, hf⟩ :=
    Nat.exists_eq_add_one.mpr (Nat.lt_of_lt_of_le hlen s.length_le_longestWay)
  exact ⟨by simp only [serve, hf, serveFor, hs, hnone],
    by simp only [serve, hf, serveFor, hs, hnone, set, notifyAll, handlers_set_self hs]⟩

theorem Store.serve_of_closed {s : Store} {id : HandlerId} {e : Endpoint} {contentType : Bytes}
    {environment : Option Bytes} (hs : s.handlers[id]? = some (.stream e contentType environment))
    (hc : e.registry.closed = true) (request : Request) :
    (s.serve id request).1 = .response (.ofStatus 500) ∧
      (s.serve id request).2.handlers = s.handlers :=
  serve_of_refused hs (by simp [hc])

namespace Endpoint

/-- Whatever steps come between those of closing and after them: once closing has begun, the endpoint
is closed and nothing waits, a request is answered by an empty 500 and a chunk is lost, and neither
changes anything. Once all connections have been ended, none is registered any more. A connection that
was registered when closing began and whose body is kept has yielded or still yields the initial
chunk, what waited for it and what was handed over from its admission until closing began, and then
it ends. -/
theorem close_is_final (initial : Option Bytes) (before later : List StreamOp) :
    let start : Endpoint := { initial }
    let ops := before ++ .beginClose :: later
    let e := start.after ops
    e.registry.closed = true ∧ e.registry.pending = [] ∧
    (∀ flush, ∃ notices, e.step (.request flush) = (.refused, e, notices)) ∧
    (∀ (s : Store) (i : HandlerId) contentType environment (request : Request),
      s.handlers[i]? = some (.stream e contentType environment) →
        (s.serve i request).1 = .response ⟨500, [], .chunks [] none⟩ ∧
        (s.serve i request).2.handlers = s.handlers) ∧
    (∀ chunk, e.step (.enqueue chunk) = (.done, e, []) ∧ e.step (.send chunk) = (.done, e, [])) ∧
    (.endAll ∈ later → e.registry.registered = [] ∧
      ∀ id, (start.after before).isRegistered id = true → .drop id ∉ later →
        ∃ earlier since rest, before = earlier ++ .request true :: since ∧
          ((start.after earlier).step (.request true)).1 = .admitted id ∧
          start.yielded id ops ++ rest =
            initial.toList.filter (!·.isEmpty) ++ waitingAfter earlier ++ handedOver since ∧
          (∀ n, start.yielded id (ops ++ List.replicate n (.poll id)) =
            start.yielded id ops ++ rest.take n) ∧
          ((e.after (List.replicate rest.length (.poll id))).poll id).1 = .ended) := by
  intro start ops e
  have hc : e.registry.closed = true := after_beginClose_closed start before later
  refine ⟨hc, after_beginClose_pending start before later, ?_, ?_, ?_, ?_⟩
  · intro flush
    obtain ⟨notices, hr⟩ := request_of_closed hc flush
    exact ⟨notices, by simp only [step, hr]⟩
  · intro s i contentType environment request hs
    exact Store.serve_of_closed hs hc request
  · intro chunk
    simp only [step, enqueue, send, deliver_of_closed hc, and_self]
  · intro hend
    have hnone : e.registry.registered = [] := registered_of_closing hend
    refine ⟨hnone, fun id hreg hkept => ?_⟩
    obtain ⟨earlier, since, hbefore, ha, hsince⟩ := admission_of_registered hreg
    have hdrop : .drop id ∉ since ++ .beginClose :: later := by
      intro hm
      rcases List.mem_append.mp hm with hm | hm
      · simpa [StreamOp.ends] using List.any_eq_false.mp hsince _ hm
      · exact hkept ((List.mem_cons.mp hm).resolve_left (by simp))
    have hops : ops = earlier ++ .request true :: (since ++ .beginClose :: later) := by
      simp [ops, hbefore]
    obtain ⟨d, hd, hy⟩ := body_of_admission ha hdrop
    rw [handedOver_append_beginClose] at hy
    have hleft : e.isRegistered id = false := by simp [isRegistered, hnone]
    simp only [e, hops] at hleft ⊢
    refine ⟨earlier, since, d.rest, hbefore, ha, hy, fun n => ?_, poll_after_polls hd hleft⟩
    rw [yielded_append, yielded_replicate hd]

/-- Two connections, one of which has still something to yield when closing begins, and steps of all
kinds between the steps of closing and after them. -/
theorem close_is_final_between :
    let start : Endpoint := { initial := some [0] }
    let before : List StreamOp := [.enqueue [1], .request true, .poll 0, .send [2]]
    let later : List StreamOp :=
      [.enqueue [3], .request true, .poll 0, .beginClose, .send [4], .endAll, .request true, .endAll]
    let ops := before ++ .beginClose :: later
    (start.after before).isRegistered 0 = true ∧ .drop 0 ∉ later ∧ .endAll ∈ later ∧
      (start.after ops).registry = ⟨[], 1, [], true⟩ ∧
      ∃ rest, start.yielded 0 ops ++ rest = [[0], [1], [2]] ∧
        (((start.after ops).after (List.replicate rest.length (.poll 0))).poll 0).1 = .ended := by
  intro start before later ops
  have hr : (start.after before).isRegistered 0 = true := by decide
  have hk : .drop 0 ∉ later := by decide
  have he : .endAll ∈ later := by decide
  obtain ⟨-, -, -, -, -, hall⟩ := close_is_final (some [0]) before later
  obtain ⟨earlier, since, rest, hb, -, hy, -, hp⟩ := (hall he).2 0 hr hk
  have hsplit : earlier = [.enqueue [1]] ∧ since = [.poll 0, .send [2]] := by
    rcases earlier with _ | ⟨a, _ | ⟨b, _ | ⟨c, _ | ⟨d, t⟩⟩⟩⟩ <;> simp_all [before]
  obtain ⟨rfl, rfl⟩ := hsplit
  exact ⟨hr, hk, he, by decide, rest, hy.trans (by decide), hp⟩

end Endpoint

end Testkit
