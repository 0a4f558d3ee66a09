import Testkit.Stream.Endpoint

/-! Runs of an endpoint, and what their steps alone say about it: which connections are registered
and which chunks wait. -/

namespace Testkit

namespace StreamOp

/-- The chunk that a step hands to the endpoint. An empty one does not count. -/
def chunk? : StreamOp → Option Bytes
  | .enqueue chunk => if chunk.isEmpty then none else some chunk
  | .send chunk => if chunk.isEmpty then none else some chunk
  | _ => none

def ends (id : Nat) : StreamOp → Bool
  | .endAll => true
  | .drop i => i = id
  | _ => false

def yields (id : Nat) : StreamOp → StreamReply → List Bytes
  | .poll i, .polled (.chunk chunk) => if i = id then [chunk] else []
  | _, _ => []

end StreamOp

def admissions (ops : List StreamOp) : Nat :=
  (ops.takeWhile (· ≠ .beginClose)).count (.request true)

/-- The connections that the steps admit and do not end, if the first gets the number `id`. -/
def registeredFrom (id : Nat) : List StreamOp → List Nat
  | [] => []
  | .beginClose :: _ => []
  | .request true :: later =>
    (if later.any (·.ends id) then [] else [id]) ++ registeredFrom (id + 1) later
  | _ :: later => registeredFrom id later

def registeredAfter (ops : List StreamOp) : List Nat := registeredFrom 0 ops

/-- The chunk that waits for a connection because of a step that follows `before`: one that is not
empty and that was enqueued while the endpoint was open and nobody was connected. -/
def StreamOp.leaves (before : List StreamOp) : StreamOp → List Bytes
  | .enqueue chunk =>
    if chunk.isEmpty ∨ .beginClose ∈ before ∨ registeredAfter before ≠ [] then [] else [chunk]
  | _ => []

/-- The chunks that wait because of the later steps and were not given to a connection since. -/
def waitingFrom (before : List StreamOp) : List StreamOp → List Bytes
  | [] => []
  | op :: later =>
    (if .request true ∈ later then [] else op.leaves before) ++ waitingFrom (before ++ [op]) later

def waitingAfter (ops : List StreamOp) : List Bytes := waitingFrom [] ops

/-- The chunks handed over until the connections are ended or the endpoint is closed. -/
def handedOver (ops : List StreamOp) : List Bytes :=
  (ops.takeWhile fun op => op ≠ .endAll ∧ op ≠ .beginClose).filterMap StreamOp.chunk?

theorem admissions_append_singleton (ops : List StreamOp) (op : StreamOp) :
    admissions (ops ++ [op]) =
      admissions ops + if op = .request true ∧ .beginClose ∉ ops then 1 else 0 := by
  induction ops with
  | nil => cases op <;> simp [admissions, List.takeWhile, List.count_cons]
  | cons x ops ih =>
    by_cases hx : x = .beginClose
    · simp [admissions, hx]
    · have hne : StreamOp.beginClose ≠ x := fun h => hx h.symm
      simp only [admissions, List.cons_append, List.takeWhile_cons, List.count_cons, hx, hne,
        ne_eq, not_false_eq_true, decide_true, if_true, List.mem_cons, false_or] at ih ⊢
      omega

theorem registeredFrom_append_singleton (id : Nat) (ops : List StreamOp) (op : StreamOp) :
    registeredFrom id (ops ++ [op]) = (registeredFrom id ops).filter (fun i => !op.ends i) ++
      if op = .request true ∧ .beginClose ∉ ops then [id + admissions ops] else [] := by
  induction ops generalizing id with
  | nil =>
    cases op with
    | request flush => cases flush <;> simp [registeredFrom, admissions]
    | _ => simp [registeredFrom]
  | cons x ops ih =>
    cases x with
    | request flush =>
      cases flush with
      | false => simpa [registeredFrom, admissions] using ih id
      | true =>
        have hn : id + 1 + admissions ops = id + admissions (.request true :: ops) := by
          simp only [admissions, List.takeWhile_cons, ne_eq, reduceCtorEq, not_false_eq_true,
            decide_true, if_true, List.count_cons, BEq.rfl]
          omega
        have hh := ih (id + 1)
        rw [hn] at hh
        by_cases he : ops.any (·.ends id) = true
        · simp [registeredFrom, hh, he]
        · by_cases ho : op.ends id = true
          · simp [registeredFrom, hh, he, ho]
          · simp [registeredFrom, hh, he, ho]
    | beginClose => simp [registeredFrom]
    | _ => simpa [registeredFrom, admissions] using ih id

theorem waitingFrom_append_singleton (before ops : List StreamOp) (op : StreamOp) :
    waitingFrom before (ops ++ [op]) =
      if op = .request true then []
      else waitingFrom before ops ++ op.leaves (before ++ ops) := by
  induction ops generalizing before with
  | nil => by_cases h : op = .request true <;> simp [waitingFrom, StreamOp.leaves, h]
  | cons x ops ih =>
    have hh := ih (before ++ [x])
    rw [List.append_assoc, List.singleton_append] at hh
    rw [List.cons_append, waitingFrom, hh]
    by_cases h : op = .request true
    · simp [h]
    · have hne : StreamOp.request true ≠ op := fun he => h he.symm
      simp [h, hne, waitingFrom]

theorem handedOver_append_singleton (ops : List StreamOp) (op : StreamOp) :
    handedOver (ops ++ [op]) =
      handedOver ops ++
        if .endAll ∈ ops ∨ .beginClose ∈ ops then [] else op.chunk?.toList := by
  induction ops with
  | nil =>
    cases op with
    | enqueue chunk => cases chunk <;> simp [handedOver, StreamOp.chunk?]
    | send chunk => cases chunk <;> simp [handedOver, StreamOp.chunk?]
    | _ => simp [handedOver, StreamOp.chunk?]
  | cons x ops ih =>
    by_cases hx : x = .endAll ∨ x = .beginClose
    · rcases hx with rfl | rfl <;> simp [handedOver]
    · obtain ⟨he, hb⟩ := not_or.mp hx
      simp only [handedOver, List.cons_append, List.takeWhile_cons, he, hb, ne_eq, not_false_eq_true,
        and_self, decide_true, if_true, List.filterMap_cons, List.mem_cons, Ne.symm he, Ne.symm hb,
        false_or] at ih ⊢
      cases hc : x.chunk? with
      | none => exact ih
      | some chunk => simp only [ih, List.cons_append]

namespace Endpoint

def after (e : Endpoint) (ops : List StreamOp) : Endpoint :=
  ops.foldl (fun e op => (e.step op).2.1) e

/-- The chunks that the body of connection `id` yields during some steps. -/
def yielded (id : Nat) (e : Endpoint) : List StreamOp → List Bytes
  | [] => []
  | op :: ops => op.yields id (e.step op).1 ++ yielded id (e.step op).2.1 ops

theorem after_append (e : Endpoint) (ops later : List StreamOp) :
    e.after (ops ++ later) = (e.after ops).after later := List.foldl_append

theorem after_singleton (e : Endpoint) (op : StreamOp) : e.after [op] = (e.step op).2.1 := rfl

theorem after_close (e : Endpoint) : e.after [.beginClose, .endAll] = e.close.1 := rfl

theorem yielded_append (id : Nat) (e : Endpoint) (ops later : List StreamOp) :
    e.yielded id (ops ++ later) = e.yielded id ops ++ (e.after ops).yielded id later := by
  induction ops generalizing e with
  | nil => rfl
  | cons op ops ih =>
    simp only [List.cons_append, yielded, ih, List.append_assoc]
    rfl

end Endpoint

end Testkit
