import Testkit.Proofs.Channel.Receiving

/-! What a check makes of what it receives. It answers if that is what it is to find, and otherwise has
it recorded what was found instead. -/

namespace Testkit

namespace ChannelCheck

def Accepts (check : ChannelCheck) (received : Received) : Prop :=
  match check with
  | .value => received.value? ≠ none
  | .noMoreValues => received = .timedOut
  | .closed => received = .closed
  | .notClosed => received ≠ .closed

instance (check : ChannelCheck) (received : Received) : Decidable (check.Accepts received) :=
  match check with
  | .value => inferInstanceAs (Decidable (¬ _))
  | .noMoreValues => inferInstanceAs (Decidable (_ = _))
  | .closed => inferInstanceAs (Decidable (_ = _))
  | .notClosed => inferInstanceAs (Decidable (¬ _))

/-- What a check that holds answers: the one for a value gives the value. -/
def answer (check : ChannelCheck) (received : Received) : Observation :=
  match check, received with
  | .value, .value v => .value v
  | _, _ => .held true

/-- The failure of a test whose check does not hold. A value that is not to come is named in it. -/
def reproach (check : ChannelCheck) (kind : ItemKind) (timeout : Duration) : Received → String
  | .value v =>
    "expected no more " ++ kind.typeName ++ " values from channel but got one: " ++ v.describe
  | .closed =>
    if check = .value then
      "expected a " ++ kind.typeName ++ " value from channel but the channel was closed"
    else "channel was unexpectedly closed"
  | .timedOut =>
    if check = .value then
      "expected a " ++ kind.typeName ++ " value from channel but did not receive one in " ++
        timeout.text
    else "expected channel to be closed within " ++ timeout.text ++ " but it was not"

/-- The failures to record and what the test does then. The context comes after the failure, and only the
check for a value ends the test. -/
def ruling (check : ChannelCheck) (kind : ItemKind) (timeout : Duration) (context : Option String)
    (received : Received) : Verdict :=
  if check.Accepts received then .observe (check.answer received)
  else ⟨check.reproach kind timeout received :: context.toList,
    if check = .value then .failNow else .observe (.held false)⟩

theorem verdict_eq_ruling (check : ChannelCheck) (kind : ItemKind) (timeout : Duration)
    (context : Option String) (received : Received) :
    check.verdict kind timeout context received = check.ruling kind timeout context received := by
  cases check <;> cases received <;> rfl

theorem ruling_notClosed (kind : ItemKind) (timeout : Duration) (context : Option String)
    (received : Received) :
    ruling .notClosed kind timeout context received =
      ⟨if received = .closed then "channel was unexpectedly closed" :: context.toList else [],
        .observe (.held (received ≠ .closed))⟩ := by
  cases received <;> rfl

theorem noMoreOf_ne (name text : String) :
    "expected no more " ++ name ++ " values from channel but got one: " ++ text ≠
      "channel was unexpectedly closed" := by
  intro h
  have hhead : ("expected no more " ++ name ++ " values from channel but got one: " ++
      text).toList.head? = some 'e' := by
    rw [String.toList_append, String.toList_append, String.toList_append, List.append_assoc,
      List.append_assoc]
    rfl
  have hclosed : "channel was unexpectedly closed".toList.head? = some 'c' := rfl
  rw [h, hclosed] at hhead
  simp at hhead

theorem reproach_value_ne (kind : ItemKind) (timeout : Duration) (v : Item) :
    reproach .noMoreValues kind timeout (.value v) ≠ reproach .noMoreValues kind timeout .closed :=
  noMoreOf_ne kind.typeName v.describe

theorem noneIn_ne (name text : String) :
    "expected a " ++ name ++ " value from channel but did not receive one in " ++ text ≠
      "expected a " ++ name ++ " value from channel but the channel was closed" := by
  intro h
  -- Both begin alike, and differ in what they say of the channel.
  have hl := congrArg String.toList h
  simp only [String.toList_append, List.append_assoc, List.append_cancel_left_eq] at hl
  simp at hl

theorem reproach_timedOut_ne (kind : ItemKind) (timeout : Duration) :
    reproach .value kind timeout .timedOut ≠ reproach .value kind timeout .closed :=
  noneIn_ne kind.typeName timeout.text

/-- A check that says of a channel what it says of a closed one has found it closed. -/
theorem eq_closed_of_ruling {check : ChannelCheck} {kind : ItemKind} {timeout : Duration}
    {context : Option String} {r : Received}
    (h : check.ruling kind timeout context r = check.ruling kind timeout context .closed) :
    r = .closed := by
  refine Decidable.byContradiction fun hr => ?_
  have hf := congrArg Verdict.failures h
  cases check with
  | value =>
    have hclosed : ¬ Accepts .value .closed := by decide
    by_cases ha : Accepts .value r
    · simp [ruling, ha, hclosed, Verdict.observe] at hf
    · cases r with
      | value v => exact ha (by simp [Accepts, Received.value?])
      | closed => exact hr rfl
      | timedOut =>
        simp only [ruling, if_neg ha, if_neg hclosed, List.cons.injEq] at hf
        exact reproach_timedOut_ne kind timeout hf.1
  | noMoreValues =>
    have hclosed : ¬ Accepts .noMoreValues .closed := by decide
    cases r with
    | closed => exact hr rfl
    | timedOut => simp [ruling, Accepts, Verdict.observe] at hf
    | value v =>
      have ha : ¬ Accepts .noMoreValues (.value v) := by simp [Accepts]
      simp only [ruling, if_neg ha, if_neg hclosed, List.cons.injEq] at hf
      exact reproach_value_ne kind timeout v hf.1
  | closed =>
    have hclosed : Accepts .closed .closed := by decide
    have ha : ¬ Accepts .closed r := hr
    simp [ruling, ha, hclosed, Verdict.observe] at hf
  | notClosed => simp [ruling_notClosed, hr] at hf

end ChannelCheck

end Testkit
