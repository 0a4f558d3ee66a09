import Testkit.Proofs.Stream.Registry

/-! What the body of a connection yields: the initial chunk, what waited for the connection, and what
was handed over until the connection was ended, each once and in order. -/

namespace Testkit

theorem StreamOp.yields_poll_of_ne {id i : Nat} (h : i ≠ id) (r : StreamReply) :
    StreamOp.yields id (.poll i) r = [] := by
  cases r with
  | polled p => cases p <;> simp [yields, h]
  | _ => rfl

theorem any_ends_of_kept {id : Nat} {ops : List StreamOp} (hk : .drop id ∉ ops) :
    ops.any (·.ends id) = decide (.endAll ∈ ops) := by
  rw [Bool.eq_iff_iff, List.any_eq_true, decide_eq_true_eq]
  constructor
  · rintro ⟨op, hm, he⟩
    cases op with
    | endAll => exact hm
    | drop i =>
      simp only [StreamOp.ends, decide_eq_true_eq] at he
      exact absurd (he ▸ hm) hk
    | _ => simp [StreamOp.ends] at he
  · exact fun hm => ⟨.endAll, hm, rfl⟩

theorem ne_nil_of_mem_waitingFrom {chunk : Bytes} (before ops : List StreamOp)
    (h : chunk ∈ waitingFrom before ops) : chunk ≠ [] := by
  induction ops generalizing before with
  | nil => simp [waitingFrom] at h
  | cons op ops ih =>
    rw [waitingFrom, List.mem_append] at h
    rcases h with h | h
    · split at h
      · simp at h
      · cases op with
        | enqueue c =>
          rw [StreamOp.leaves] at h
          split at h
          · simp at h
          · rename_i hn
            rw [List.mem_singleton.mp h]
            simpa using fun he => hn (.inl (by simp [he]))
        | _ => simp [StreamOp.leaves] at h
    · exact ih _ h

namespace Endpoint

/-- A step adds a chunk that it hands over to what a registered connection can yield, and a poll
yields from the front of it. -/
theorem step_body {e : Endpoint} {id : Nat} {b : StreamBody} (hb : e.body? id = some b)
    (hid : id ≠ e.registry.nextId) {op : StreamOp} (hk : op ≠ .drop id) :
    ∃ d, (e.step op).2.1.body? id = some d ∧
      op.yields id (e.step op).1 ++ d.rest = b.rest ++
        if e.registry.closed = false ∧ e.isRegistered id then op.chunk?.toList else [] := by
  have hdeliver : ∀ chunk queue, ∃ d, (e.deliver chunk queue).body? id = some d ∧
      d.rest = b.rest ++ if e.registry.closed = false ∧ e.isRegistered id then
        (if chunk.isEmpty then none else some chunk).toList else [] := by
    intro chunk queue
    refine ⟨_, by rw [body?_deliver, hb]; rfl, ?_⟩
    cases chunk <;> cases e.registry.closed <;> cases e.isRegistered id <;> simp [StreamBody.rest]
  have hsame : ∀ {e' : Endpoint}, e'.body? id = e.body? id →
      ∃ d, e'.body? id = some d ∧ [] ++ d.rest = b.rest ++
        if e.registry.closed = false ∧ e.isRegistered id then [] else [] :=
    fun h => ⟨b, h.trans hb, by simp⟩
  cases op with
  | enqueue chunk => exact hdeliver chunk true
  | send chunk => exact hdeliver chunk false
  | endAll => exact hsame rfl
  | beginClose => exact hsame rfl
  | request flush =>
    rw [step_request]
    exact hsame (body?_request e hid flush)
  | drop i =>
    have hi : i ≠ id := fun he => hk (he ▸ rfl)
    exact hsame (body?_drop_of_ne e hi)
  | poll i =>
    by_cases hi : i = id
    · subst i
      cases hr : b.rest with
      | nil =>
        refine ⟨b, ?_, ?_⟩
        · simp [step, poll_of_nil hb hr, hb]
        · simp only [step, poll_of_nil hb hr, StreamOp.chunk?]
          split <;> simp_all [StreamOp.yields]
      | cons chunk later =>
        obtain ⟨d, hd, hl, hp⟩ := poll_of_cons hb hr
        refine ⟨d, ?_, ?_⟩
        · simp [step, hp, body?_setBody, hb, hd, body?_id hb]
        · simp [step, hp, StreamOp.yields, StreamOp.chunk?, hl]
    · rw [StreamOp.yields_poll_of_ne hi]
      exact hsame (body?_poll_of_ne e hi)

theorem step_isRegistered {e : Endpoint} (h : e.WellFormed) {id : Nat}
    (hid : id ≠ e.registry.nextId) (op : StreamOp) :
    (e.step op).2.1.isRegistered id = (e.isRegistered id && !op.ends id) := by
  rw [Bool.eq_iff_iff, Bool.and_eq_true, isRegistered, isRegistered, List.contains_iff_mem,
    List.contains_iff_mem, step_registered h, List.mem_append, List.mem_filter]
  split <;> simp [hid]

theorem after_nextId_le (e : Endpoint) (ops : List StreamOp) :
    e.registry.nextId ≤ (e.after ops).registry.nextId := by
  induction ops generalizing e with
  | nil => exact Nat.le_refl _
  | cons op ops ih =>
    refine Nat.le_trans ?_ (ih (e.step op).2.1)
    rw [step_nextId]
    exact Nat.le_add_right _ _

theorem after_isRegistered {e : Endpoint} (h : e.WellFormed) {id : Nat}
    (hid : id < e.registry.nextId) (ops : List StreamOp) :
    (e.after ops).isRegistered id = (e.isRegistered id && !ops.any (·.ends id)) := by
  induction ops using List.reverseRecOn with
  | nil => simp [after]
  | append_singleton ops op ih =>
    have hle := after_nextId_le e ops
    rw [after_append, after_singleton, step_isRegistered (h.after ops) (by omega), ih]
    simp [Bool.and_assoc]

theorem after_body {e : Endpoint} (h : e.WellFormed) {id : Nat} {b : StreamBody}
    (hb : e.body? id = some b) (hr : e.isRegistered id) (hc : e.registry.closed = false)
    {ops : List StreamOp} (hk : .drop id ∉ ops) :
    ∃ d, (e.after ops).body? id = some d ∧ e.yielded id ops ++ d.rest = b.rest ++ handedOver ops := by
  have hid : id < e.registry.nextId := h.body_lt id (by simp [hb])
  -- From the end: what the last step hands over depends on all steps before it.
  induction ops using List.reverseRecOn with
  | nil => exact ⟨b, hb, by simp [yielded, handedOver]⟩
  | append_singleton ops op ih =>
    obtain ⟨d, hd, hy⟩ := ih fun hm => hk (List.mem_append_left _ hm)
    have hop : op ≠ .drop id := fun he => hk (by simp [he])
    have hle := after_nextId_le e ops
    obtain ⟨d', hd', hy'⟩ := step_body hd (by omega) hop
    refine ⟨d', by rw [after_append, after_singleton, hd'], ?_⟩
    have hends := any_ends_of_kept fun hm => hk (List.mem_append_left _ hm)
    rw [yielded_append, handedOver_append_singleton, yielded, yielded, List.append_nil,
      List.append_assoc, hy', ← List.append_assoc, hy, List.append_assoc, after_closed,
      after_isRegistered h hid, hr, hc, hends]
    by_cases he : StreamOp.endAll ∈ ops <;> by_cases hbc : StreamOp.beginClose ∈ ops <;>
      simp [he, hbc]

theorem yielded_replicate {e : Endpoint} {id : Nat} {b : StreamBody} (hb : e.body? id = some b)
    (n : Nat) : e.yielded id (List.replicate n (.poll id)) = b.rest.take n := by
  induction n generalizing e b with
  | zero => rfl
  | succ n ih =>
    rw [List.replicate_succ, yielded]
    cases hr : b.rest with
    | nil =>
      have hs : e.step (.poll id) =
          (.polled (if e.isRegistered id then .pending else .ended), e, []) := by
        simp only [step, poll_of_nil hb hr]
      rw [hs, ih hb, hr]
      split <;> simp [StreamOp.yields]
    | cons chunk later =>
      obtain ⟨d, hd, hl, hp⟩ := poll_of_cons hb hr
      have hs : e.step (.poll id) = (.polled (.chunk chunk), e.setBody d, []) := by
        simp only [step, hp]
      have hb' : (e.setBody d).body? id = some d := by
        simp [body?_setBody, hb, hd, body?_id hb]
      rw [hs, ih hb', hl]
      simp [StreamOp.yields]

theorem yielded_of_nextId_le {e : Endpoint} (h : e.WellFormed) {id : Nat} {ops : List StreamOp}
    (hid : (e.after ops).registry.nextId ≤ id) : e.yielded id ops = [] := by
  induction ops generalizing e with
  | nil => rfl
  | cons op ops ih =>
    rw [yielded, ih (h.step op) hid, List.append_nil]
    have hle := after_nextId_le e (op :: ops)
    have hnone : e.body? id = none := by
      by_contra hn
      have hlt := h.body_lt id (Option.isSome_iff_ne_none.mpr hn)
      omega
    cases op with
    | poll i =>
      by_cases hi : i = id
      · simp [step, hi, poll_of_none hnone, StreamOp.yields]
      · exact StreamOp.yields_poll_of_ne hi _
    | _ => rfl

theorem request_admitted {e : Endpoint} {flush : Bool} {id : Nat}
    (h : (e.step (.request flush)).1 = .admitted id) :
    flush = true ∧ e.registry.closed = false ∧ id = e.registry.nextId := by
  cases flush <;> cases hc : e.registry.closed <;> simp_all [step, request]

theorem after_admission {e : Endpoint} (h : e.WellFormed) (hc : e.registry.closed = false) :
    ∃ b, (e.step (.request true)).2.1.body? e.registry.nextId = some b ∧
      b.rest = headOf e.initial e.registry.pending ∧
      (e.step (.request true)).2.1.isRegistered e.registry.nextId = true := by
  have hn := h.body?_nextId
  refine ⟨⟨e.registry.nextId, headOf e.initial e.registry.pending, []⟩, ?_, ?_, ?_⟩
  · simp only [body?] at hn
    simp [step, request, hc, body?, hn]
  · simp [StreamBody.rest]
  · simp [step, request, hc, isRegistered]

theorem step_initial (e : Endpoint) (op : StreamOp) : (e.step op).2.1.initial = e.initial := by
  cases op with
  | enqueue chunk =>
    simp only [step, enqueue, deliver]
    split_ifs <;> rfl
  | send chunk =>
    simp only [step, send, deliver]
    split_ifs <;> rfl
  | request flush => cases flush <;> cases hc : e.registry.closed <;> simp [step, request, hc]
  | poll id =>
    simp only [step, poll]
    split
    · rfl
    · split <;> rfl
  | drop id =>
    simp only [step, drop]
    split <;> rfl
  | _ => rfl

theorem after_initial (e : Endpoint) (ops : List StreamOp) : (e.after ops).initial = e.initial := by
  induction ops generalizing e with
  | nil => rfl
  | cons op ops ih => exact (ih _).trans (step_initial e op)

theorem headOf_waiting (initial : Option Bytes) {before : List StreamOp}
    (h : .beginClose ∉ before) :
    headOf initial (after { initial } before).registry.pending =
      initial.toList.filter (!·.isEmpty) ++ waitingAfter before := by
  rw [headOf, after_pending initial h, List.filter_append]
  congr 1
  refine List.filter_eq_self.mpr fun chunk hm => ?_
  simpa using ne_nil_of_mem_waitingFrom [] before hm

theorem body_of_admission {initial : Option Bytes} {earlier since : List StreamOp} {id : Nat}
    (ha : ((after { initial } earlier).step (.request true)).1 = .admitted id)
    (hk : .drop id ∉ since) :
    ∃ d, (after { initial } (earlier ++ .request true :: since)).body? id = some d ∧
      yielded id { initial } (earlier ++ .request true :: since) ++ d.rest =
        initial.toList.filter (!·.isEmpty) ++ waitingAfter earlier ++ handedOver since := by
  have hw := (wellFormed_fresh initial).after earlier
  obtain ⟨-, hc, rfl⟩ := request_admitted ha
  obtain ⟨b, hb, hrest, hr⟩ := after_admission hw hc
  have hopen : .beginClose ∉ earlier := by simpa [after_closed] using hc
  have hc' : ((after { initial } earlier).step (.request true)).2.1.registry.closed = false := by
    rw [step_closed, hc]
    rfl
  obtain ⟨d, hd, hy⟩ := after_body (hw.step _) hb hr hc' hk
  have hyielded : yielded (after { initial } earlier).registry.nextId { initial }
      (earlier ++ .request true :: since) =
        ((after { initial } earlier).step (.request true)).2.1.yielded
          (after { initial } earlier).registry.nextId since := by
    rw [yielded_append, yielded_of_nextId_le (wellFormed_fresh initial) (Nat.le_refl _)]
    rfl
  refine ⟨d, ?_, ?_⟩
  · rw [after_append]
    exact hd
  · rw [hyielded, hy, hrest, after_initial, headOf_waiting initial hopen]

theorem isRegistered_of_endAll {initial : Option Bytes} {earlier since : List StreamOp} {id : Nat}
    (ha : ((after { initial } earlier).step (.request true)).1 = .admitted id)
    (hend : .endAll ∈ since) :
    (after { initial } (earlier ++ .request true :: since)).isRegistered id = false := by
  have hw := (wellFormed_fresh initial).after earlier
  obtain ⟨-, hc, rfl⟩ := request_admitted ha
  have hlt : (after { initial } earlier).registry.nextId <
      ((after { initial } earlier).step (.request true)).2.1.registry.nextId := by
    rw [step_nextId, if_pos ⟨rfl, hc⟩]
    exact Nat.lt_succ_self _
  have hany : since.any (·.ends (after { initial } earlier).registry.nextId) = true :=
    List.any_eq_true.mpr ⟨.endAll, hend, rfl⟩
  rw [List.append_cons, after_append, after_append, after_singleton,
    after_isRegistered (hw.step _) hlt, hany, Bool.not_true, Bool.and_false]

theorem rest_eq_nil_of_ended {e : Endpoint} {id : Nat} {b : StreamBody} (hb : e.body? id = some b)
    (h : (e.poll id).1 = .ended) : b.rest = [] := by
  cases hr : b.rest with
  | nil => rfl
  | cons chunk later =>
    obtain ⟨d, _, _, hp⟩ := poll_of_cons hb hr
    simp [hp] at h

theorem poll_after_polls {e : Endpoint} {id : Nat} {b : StreamBody} (hb : e.body? id = some b)
    (hr : e.isRegistered id = false) :
    ((e.after (List.replicate b.rest.length (.poll id))).poll id).1 = .ended := by
  generalize hn : b.rest.length = n
  induction n generalizing e b with
  | zero =>
    have hnil := List.eq_nil_of_length_eq_zero hn
    simp [after, poll_of_nil hb hnil, hr]
  | succ n ih =>
    obtain ⟨chunk, rest, hrest⟩ := List.exists_cons_of_length_eq_add_one hn
    obtain ⟨d, hid, hd, hp⟩ := poll_of_cons hb hrest
    have hb' : (e.setBody d).body? id = some d := by
      simp [body?_setBody, hb, hid, body?_id hb]
    have hlen : d.rest.length = n := by
      rw [hrest, List.length_cons] at hn
      rw [hd]
      exact Nat.succ.inj hn
    have hstep : (e.step (.poll id)).2.1 = e.setBody d := by simp only [step, hp]
    rw [List.replicate_succ, ← List.singleton_append, after_append, after_singleton, hstep]
    exact ih hb' hr hlen

/-- What a connection whose body is kept has yielded, followed by what it can still yield, is the
initial chunk, then what waited when it was admitted, then what was handed over until the connections
were ended or the endpoint closed. The body ends once it has yielded all that and the connections
were ended. (An endpoint is closed by the steps `beginClose` and `endAll`.) -/
theorem yields_exactly {initial : Option Bytes} {before later : List StreamOp} {flush : Bool}
    {id : Nat}
    (hadmitted : ((Endpoint.after { initial } before).step (.request flush)).1 = .admitted id)
    (hkept : .drop id ∉ later) :
    let e : Endpoint := { initial }
    let ops := before ++ .request flush :: later
    ∃ rest,
      e.yielded id ops ++ rest =
        initial.toList.filter (!·.isEmpty) ++ waitingAfter before ++ handedOver later ∧
      (∀ n, e.yielded id (ops ++ List.replicate n (.poll id)) = e.yielded id ops ++ rest.take n) ∧
      ((e.after ops).poll id).1 =
        match rest with
        | chunk :: _ => .chunk chunk
        | [] => if .endAll ∈ later then .ended else .pending := by
  intro e ops
  have hw := (wellFormed_fresh initial).after before
  obtain ⟨rfl, hc, rfl⟩ := request_admitted hadmitted
  obtain ⟨b, hb, hrest, hr⟩ := after_admission hw hc
  have hopen : .beginClose ∉ before := by
    simpa [after_closed] using hc
  have hc' : ((e.after before).step (.request true)).2.1.registry.closed = false := by
    rw [step_closed, hc]
    rfl
  obtain ⟨d, hd, hy⟩ := after_body (hw.step _) hb hr hc' hkept
  have hafter : e.after ops = ((e.after before).step (.request true)).2.1.after later :=
    after_append e before _
  have hyielded : e.yielded (e.after before).registry.nextId ops =
      ((e.after before).step (.request true)).2.1.yielded (e.after before).registry.nextId later := by
    rw [yielded_append, yielded_of_nextId_le (wellFormed_fresh initial) (Nat.le_refl _)]
    rfl
  refine ⟨d.rest, ?_, ?_, ?_⟩
  · rw [hyielded, hy, hrest, after_initial, headOf_waiting initial hopen]
  · intro n
    rw [yielded_append, yielded_replicate (hafter ▸ hd)]
  · rw [hafter]
    cases hn : d.rest with
    | nil =>
      have hlt : (e.after before).registry.nextId <
          ((e.after before).step (.request true)).2.1.registry.nextId := by
        rw [step_nextId, if_pos ⟨rfl, hc⟩]
        exact Nat.lt_succ_self _
      rw [poll_of_nil hd hn, after_isRegistered (hw.step _) hlt, hr, any_ends_of_kept hkept]
      by_cases he : StreamOp.endAll ∈ later <;> simp [he]
    | cons chunk rest =>
      obtain ⟨d', _, _, hp⟩ := poll_of_cons hd hn
      rw [hp]

/-- A second connection, which misses what the first one got, and is polled again after the endpoint
has been closed. -/
theorem yields_exactly_second :
    let e : Endpoint := { initial := some [0] }
    let before : List StreamOp :=
      [.enqueue [1], .request true, .send [2], .drop 0, .enqueue [], .enqueue [3], .send [4]]
    let later : List StreamOp := [.enqueue [5], .poll 1, .beginClose, .send [6], .endAll]
    ((e.after before).step (.request true)).1 = .admitted 1 ∧ .drop 1 ∉ later ∧
      ∃ rest, e.yielded 1 (before ++ .request true :: later) ++ rest = [[0], [3], [5]] ∧
        ((e.after (before ++ .request true :: later)).poll 1).1 =
          match rest with
          | chunk :: _ => .chunk chunk
          | [] => .ended := by
  intro e before later
  have ha : ((e.after before).step (.request true)).1 = .admitted 1 := by decide
  have hk : .drop 1 ∉ later := by decide
  obtain ⟨rest, hy, _, hp⟩ := yields_exactly ha hk
  exact ⟨ha, hk, rest, hy.trans (by decide), hp⟩

end Endpoint

end Testkit
