import Testkit.Proofs.Body.Constructs
import Testkit.Proofs.Body.Pairing

/-! What is done while a body runs, as a history: the acts of a test in their order, and between them the
subtests and sandboxes that it runs, each with a history of its own. -/

namespace Testkit

/-- What a test does with its reporter, and what it sees. -/
inductive Act where
  | failure (message : String)
  | failNow
  | skip (message : String)
  /-- The test asks whether it failed. -/
  | asked (answer : Bool)
  /-- The test looks at what the outermost reporter has recorded. -/
  | looked (o : Outcome)
  | saw (o : Observation)
deriving DecidableEq, Repr

inductive Deed where
  | act (a : Act)
  | subtest (name : String) (history : List Deed) (ending : Ending)
  | sandbox (history : List Deed) (ending : Ending)

namespace Deed

/-- Whether the test itself fails by it. What is done in a subtest or a sandbox is not done by the test
around it. -/
def fails : Deed → Bool
  | act (.failure _) | act .failNow => true
  | _ => false

def skips : Deed → Bool
  | act (.skip _) => true
  | _ => false

end Deed

def Reaction.acts : Reaction → List Act
  | .observe o => [.saw o]
  | .failNow => [.failNow]
  | .goOn | .panic _ => []

def Verdict.acts (v : Verdict) : List Act := v.failures.map .failure ++ v.reaction.acts

/-- What is done from a state on, at a place in the test. -/
abbrev Deeds := Env → State → List Deed

namespace Deeds

def acts (as : List Act) : Deeds := fun _ _ => as.map .act

def andThen (a : Exec) (x y : Deeds) : Deeds := fun env s =>
  x env s ++ if (a env s).1 = .completed then y env (a env s).2 else []

def times (a : Exec) (x : Deeds) : Nat → Deeds
  | 0 => acts []
  | n + 1 => andThen a x (times a x n)

def subtest (name : String) (a : Exec) (x : Deeds) : Deeds := fun env s =>
  let inside := env.inSubtest name s.scope
  let start : State := ⟨{}, env.reporter.tellStart (env.path.child name) s.world⟩
  [.subtest name (x inside start) (a inside start).1]

def nest (a : Exec) (x : Deeds) : List String → Deeds
  | [] => x
  | name :: names => subtest name (names.foldr Exec.subtest a) (nest a x names)

/-- What is done in another thread or in a catch is done by the same test. -/
def watched (a : Exec) (x : Deeds) (seen : Ending → Observation) : Deeds := fun env s =>
  x env s ++ [.act (.saw (seen (a env s).1))]

def sandboxed (a : Exec) (x : Deeds) (use : Ending → Scope → List Act) : Deeds := fun env s =>
  let inside := env.inSandbox s.scope
  let start : State := ⟨{}, s.world⟩
  let r := a inside start
  .sandbox (x inside start) r.1 :: if r.1.returns then (use r.1 r.2.scope).map .act else []

end Deeds

mutual

def Action.deeds : Action → Deeds
  | .fail message => .acts [.failure message]
  | .check c => .acts c.verdict.acts
  | .require c => .acts c.requirement.acts
  | .skip message => .acts [.skip message]
  | .failNow => .acts [.failNow]
  | .failed => fun _ s => [.act (.asked s.scope.failedHere)]
  | .mark label => .acts [.saw (.mark label)]
  | .subtest name body => .subtest name (execAll body) (deedsAll body)
  | .nest names body => .nest (execAll body) (deedsAll body) names
  | .repeated n body => .times (execAll body) (deedsAll body) n
  | .thread body => .watched (execAll body) (deedsAll body) .thread
  | .catching body _ => .watched (execAll body) (deedsAll body) .caught
  | .raise _ => .acts []
  | .expect e body => .sandboxed (execAll body) (deedsAll body) fun ending scope =>
      (e.verdict scope.failed (ending = .completed)).acts
  | .sandbox body => .sandboxed (execAll body) (deedsAll body) fun _ scope =>
      [.saw (.outcome scope.outcome)]
  | .outcome => fun env s => [.act (.looked (env.enclosing.getLast?.getD s.scope).outcome)]
  | .channel name op => fun env s => Deeds.acts (s.world.act name op).2.acts env s

def deedsAll : List Action → Deeds
  | [] => .acts []
  | a :: rest => .andThen a.exec a.deeds (deedsAll rest)

end

/-- An act happens, where the live tests have done so much until then, outermost first. What runs at
that time is not among what the test around it has done. -/
inductive Occurs : List Deed → List (List Deed) → Act → Prop
  | here (a : Act) (after : List Deed) : Occurs (.act a :: after) [[]] a
  | later {history before : List Deed} {inner : List (List Deed)} {a : Act} (d : Deed)
    (h : Occurs history (before :: inner) a) : Occurs (d :: history) ((d :: before) :: inner) a
  | subtest {history : List Deed} {live : List (List Deed)} {a : Act} (name : String)
    (ending : Ending) (after : List Deed) (h : Occurs history live a) :
    Occurs (.subtest name history ending :: after) ([] :: live) a
  | sandbox {history : List Deed} {live : List (List Deed)} {a : Act} (ending : Ending)
    (after : List Deed) (h : Occurs history live a) :
    Occurs (.sandbox history ending :: after) ([] :: live) a

/-- What becomes of what a test reports. -/
inductive Fate where
  | kept
  /-- A panic leaves a subtest around it. -/
  | lost
  /-- There is a sandbox around it. -/
  | apart
deriving DecidableEq, Repr

inductive Event where
  | act (a : Act)
  | started
  | ended (ending : Ending) (skipped : Bool)
deriving DecidableEq, Repr

structure Moment where
  path : Path
  fate : Fate
  event : Event
deriving DecidableEq, Repr

namespace Moment

def lose (m : Moment) : Moment := { m with fate := if m.fate = .kept then .lost else m.fate }

def setApart (m : Moment) : Moment := { m with fate := .apart }

end Moment

mutual

/-- All that happens, in the order of time. -/
def Deed.moments (path : Path) : Deed → List Moment
  | .act a => [⟨path, .kept, .act a⟩]
  | .subtest name history ending =>
    let there (event : Event) : Moment := ⟨path.child name, .kept, event⟩
    let inside := there .started :: momentsAll (path.child name) history ++
      [there (.ended ending (history.any Deed.skips))]
    if ending.returns then inside else inside.map Moment.lose
  | .sandbox history ending =>
    (momentsAll .root history).map Moment.setApart ++
      [⟨.root, .apart, .ended ending (history.any Deed.skips)⟩]

def momentsAll (path : Path) : List Deed → List Moment
  | [] => []
  | d :: history => d.moments path ++ momentsAll path history

end

theorem momentsAll_eq (path : Path) (history : List Deed) :
    momentsAll path history = history.flatMap (Deed.moments path) := by
  induction history with
  | nil => rfl
  | cons d history ih => rw [momentsAll, ih, List.flatMap_cons]

theorem momentsAll_append (path : Path) (history more : List Deed) :
    momentsAll path (history ++ more) = momentsAll path history ++ momentsAll path more := by
  simp only [momentsAll_eq, List.flatMap_append]

theorem momentsAll_singleton (path : Path) (d : Deed) :
    momentsAll path [d] = d.moments path := by
  simp only [momentsAll_eq, List.flatMap_singleton]

namespace Moment

def failure? (m : Moment) : Option Entry :=
  match m.event with
  | .act (.failure message) => some ⟨m.path, message⟩
  | _ => none

def skip? (m : Moment) : Option Entry :=
  match m.event with
  | .act (.skip message) => some ⟨m.path, message⟩
  | _ => none

def fails (m : Moment) : Bool :=
  match m.event with
  | .act a => (Deed.act a).fails
  | _ => false

def seen? (m : Moment) : Option Observation :=
  match m.event with
  | .act (.asked answer) => some (.failed answer)
  | .act (.looked o) => some (.outcome o)
  | .act (.saw o) => some o
  | _ => none

/-- The reporter at that moment, if that of the whole history is `r`. -/
def reporter (r : Reporter) (m : Moment) : Reporter := if m.fate = .apart then .sandboxed else r

def printed? (r : Reporter) (m : Moment) : Option Printed :=
  match m.reporter r, m.event with
  | .printing, .act (.failure message) => some (.failure m.path message)
  | .printing, .act (.skip message) =>
    if message = "" then none else some (.skipMessage m.path message)
  | .printing, .ended ending true => if ending.returns then some (.skipped m.path) else none
  | _, _ => none

def notice? (r : Reporter) (m : Moment) : Option Notice :=
  match m.reporter r, m.event with
  | .sandboxed, .act (.failure message) => some (.failure m.path message)
  | .sandboxed, .started => some (.subtestStarted m.path)
  | .sandboxed, .ended .exited _ => some (.exitedEarly m.path)
  | _, _ => none

end Moment

/-- The state of a test that has done this, from its beginning. -/
def Scope.recorded (path : Path) (history : List Deed) : Scope :=
  let kept := (momentsAll path history).filter fun m => m.fate = .kept
  { failedHere := history.any Deed.fails
    failed := kept.any Moment.fails
    skipped := history.any Deed.skips
    failures := kept.filterMap Moment.failure?
    skips := kept.filterMap Moment.skip? }

end Testkit
