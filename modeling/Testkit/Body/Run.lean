import Testkit.Body.Exec

/-! Running bodies from the outside: in a sandbox, as a test that prints, or one after the other
against one sandboxed reporter. -/

namespace Testkit

def Env.top (reporter : Reporter) : Env := ⟨reporter, .root, []⟩

/-- What a sandboxed body recorded, or the payload of its panic. -/
def runSandboxed (body : List Action) (w : World) : Except Payload Outcome × World :=
  match Exec.inScope .sandboxed .root (execAll body) (.top .sandboxed) ⟨{}, w⟩ with
  | (.panicked p, s) => (.error p, s.world)
  | (_, s) => (.ok s.scope.outcome, s.world)

def failureSummary (name : String) (failures : List Entry) : String :=
  "test `" ++ name ++ "` failed" ++ String.join (failures.map fun e => "\n  " ++ e.text)

/-- A test that prints passes or panics, be it only with its summary. -/
def runPrinting (name : String) (body : List Action) (w : World) : Except Payload Unit × World :=
  match execAll body (.top .printing) ⟨{}, w⟩ with
  | (.panicked p, s) => (.error p, s.world)
  | (_, s) =>
    if s.scope.failed then (.error (.text (failureSummary name s.scope.failures)), s.world)
    else (.ok (), Reporter.printing.tellSkipped .root s.scope.skipped s.world)

def World.output (w : World) (name : String) : String := String.join (w.printed.map (·.lines name))

/-- A body for a sandboxed reporter, run on a thread of its own or directly. -/
structure SeriesBody where
  direct : Bool
  actions : List Action

def SeriesBody.run (b : SeriesBody) (s : State) : Ending × State :=
  match execAll b.actions (.top .sandboxed) s with
  | (ending, t) =>
    (ending, if b.direct then t else ⟨t.scope, Reporter.sandboxed.tellExit .root ending t.world⟩)

/-- Whether a body ran to its end, unless its panic goes on. -/
def Ending.resolve : Ending → Except Payload Bool
  | .completed => .ok true
  | .exited => .ok false
  | .panicked p => .error p

/-- Runs a body for a sandboxed reporter on a thread of its own. -/
def runIsolated (body : List Action) (s : State) : Except Payload Bool × State :=
  match SeriesBody.run ⟨false, body⟩ s with
  | (ending, t) => (ending.resolve, t)

/-- How one of several bodies ended, all that is recorded by then, and what it added to trace and
log. -/
structure SeriesStep where
  direct : Bool
  ending : Ending
  outcome : Outcome
  trace : List Observation
  log : List Notice

def runSeries : List SeriesBody → State → List SeriesStep
  | [], _ => []
  | b :: rest, s =>
    let (ending, t) := b.run ⟨s.scope, { s.world with trace := [], log := [] }⟩
    ⟨b.direct, ending, t.scope.outcome, t.world.trace, t.world.log⟩ :: runSeries rest t

end Testkit
