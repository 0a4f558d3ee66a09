import Testkit.Body.Exec

/-! What is true of every body, shown by its parts. What only bodies without channels are to have need
not be shown of operations on channels. -/

namespace Testkit

mutual

/-- Whether the body looks at what the outermost reporter has recorded. -/
def Action.readsOutcome : Action → Bool
  | .outcome => true
  | .subtest _ body => anyReadsOutcome body
  | .nest _ body => anyReadsOutcome body
  | .repeated _ body => anyReadsOutcome body
  | .thread body => anyReadsOutcome body
  | .catching body _ => anyReadsOutcome body
  | .expect _ body => anyReadsOutcome body
  | .sandbox body => anyReadsOutcome body
  | _ => false

def anyReadsOutcome : List Action → Bool
  | [] => false
  | a :: rest => a.readsOutcome || anyReadsOutcome rest

end

mutual

def Action.usesChannels : Action → Bool
  | .channel _ _ => true
  | .subtest _ body => anyUsesChannels body
  | .nest _ body => anyUsesChannels body
  | .repeated _ body => anyUsesChannels body
  | .thread body => anyUsesChannels body
  | .catching body _ => anyUsesChannels body
  | .expect _ body => anyUsesChannels body
  | .sandbox body => anyUsesChannels body
  | _ => false

def anyUsesChannels : List Action → Bool
  | [] => false
  | a :: rest => a.usesChannels || anyUsesChannels rest

end

namespace Exec

structure ClosedButChannels (P : Exec → Prop) : Prop where
  done : P done
  andThen : ∀ {a b}, P a → P b → P (a.andThen b)
  observe : ∀ o, P (observe o)
  record : ∀ message, P (record message)
  skip : ∀ message, P (skip message)
  failNow : P failNow
  failed : P failed
  panic : ∀ payload, P (leave (.panicked payload))
  subtest : ∀ name {a}, P a → P (subtest name a)
  thread : ∀ {a}, P a → P a.thread
  catching : ∀ {a} rethrow, P a → P (a.catching rethrow)
  sandboxed : ∀ {a use}, P a → (∀ ending scope, P (use ending scope)) → P (a.sandboxed use)

structure Closed (P : Exec → Prop) : Prop extends ClosedButChannels P where
  channel : ∀ name op, (∀ v, P (follow v)) → P (channel name op)

variable {P : Exec → Prop}

namespace ClosedButChannels

theorem recordAll (h : ClosedButChannels P) (messages : List String) : P (Exec.recordAll messages) := by
  induction messages with
  | nil => exact h.done
  | cons m ms ih => exact h.andThen (h.record m) ih

theorem follow (h : ClosedButChannels P) (v : Verdict) : P (Exec.follow v) := by
  refine h.andThen (h.recordAll v.failures) ?_
  cases v.reaction with
  | goOn => exact h.done
  | observe o => exact h.observe o
  | failNow => exact h.failNow
  | panic payload => exact h.panic payload

theorem times (h : ClosedButChannels P) {a : Exec} (ha : P a) (n : Nat) : P (Exec.times n a) := by
  induction n with
  | zero => exact h.done
  | succ n ih => exact h.andThen ha ih

theorem nest (h : ClosedButChannels P) {a : Exec} (ha : P a) (names : List String) :
    P (names.foldr Exec.subtest a) := by
  induction names with
  | nil => exact ha
  | cons name names ih => exact h.subtest name ih

theorem expect (h : ClosedButChannels P) {a : Exec} (ha : P a) (e : Expectation) : P (Exec.expect e a) :=
  h.sandboxed ha fun ending scope => h.follow (e.verdict scope.failed (ending = .completed))

theorem sandbox (h : ClosedButChannels P) {a : Exec} (ha : P a) : P (Exec.sandbox a) :=
  h.sandboxed ha fun _ scope => h.observe (.outcome scope.outcome)

mutual

/-- Only a body that looks at the outermost reporter needs that `P` is true of that, too, and only one
that uses channels needs it of operations on them. -/
theorem exec (h : ClosedButChannels P) : (a : Action) → (a.readsOutcome → P Exec.outcome) →
    (a.usesChannels → ∀ name op, P (Exec.channel name op)) → P a.exec
  | .fail message, _, _ => h.record message
  | .check c, _, _ => h.follow c.verdict
  | .require c, _, _ => h.follow c.requirement
  | .skip message, _, _ => h.skip message
  | .failNow, _, _ => h.failNow
  | .failed, _, _ => h.failed
  | .mark label, _, _ => h.observe (.mark label)
  | .subtest name body, ho, hc => h.subtest name (h.execAll body ho hc)
  | .nest names body, ho, hc => h.nest (h.execAll body ho hc) names
  | .repeated n body, ho, hc => h.times (h.execAll body ho hc) n
  | .thread body, ho, hc => h.thread (h.execAll body ho hc)
  | .catching body rethrow, ho, hc => h.catching rethrow (h.execAll body ho hc)
  | .raise payload, _, _ => h.panic payload
  | .expect e body, ho, hc => h.expect (h.execAll body ho hc) e
  | .sandbox body, ho, hc => h.sandbox (h.execAll body ho hc)
  | .outcome, ho, _ => ho rfl
  | .channel name op, _, hc => hc rfl name op

theorem execAll (h : ClosedButChannels P) :
    (body : List Action) → (anyReadsOutcome body → P Exec.outcome) →
      (anyUsesChannels body → ∀ name op, P (Exec.channel name op)) → P (execAll body)
  | [], _, _ => h.done
  | a :: rest, ho, hc =>
    h.andThen
      (h.exec a (fun hr => ho (by simp [anyReadsOutcome, hr]))
        fun hu => hc (by simp [anyUsesChannels, hu]))
      (h.execAll rest (fun hr => ho (by simp [anyReadsOutcome, hr]))
        fun hu => hc (by simp [anyUsesChannels, hu]))

end

end ClosedButChannels

namespace Closed

theorem exec (h : Closed P) (a : Action) (ho : a.readsOutcome → P Exec.outcome) : P a.exec :=
  h.toClosedButChannels.exec a ho fun _ name op => h.channel name op h.follow

theorem execAll (h : Closed P) (body : List Action) (ho : anyReadsOutcome body → P Exec.outcome) :
    P (execAll body) :=
  h.toClosedButChannels.execAll body ho fun _ name op => h.channel name op h.follow

end Closed

end Exec

end Testkit
