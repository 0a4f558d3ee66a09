import Testkit.Log.Record
import Testkit.Reader.Script

/-! The pump reads a source in the background and passes on what it gets, until the input ends, a
read fails, or nobody is there to take it. -/

namespace Testkit

inductive PumpState where
  | idle
  | reading
  | stalled
  | sending (chunk : Bytes)
  | done
deriving DecidableEq, Repr

structure Pump where
  script : Script
  state : PumpState := .idle
  reads : Nat := 0
  passed : List Bytes := []
  /-- Whether there is still somebody to take them. -/
  wanted : Bool := true
  /-- The error that ended the reading. -/
  failure : Option String := none
deriving DecidableEq, Repr

namespace Pump

def readLimit : Nat := 8192

def afterRead (p : Pump) : ReadResult → Pump
  | .chunk b rest => { p with script := rest, state := .sending b }
  | .ended => { p with state := .done }
  | .interrupted rest => { p with script := rest, state := .idle }
  | .failed message => { p with state := .done, failure := some message }
  | .stalled rest => { p with script := rest, state := .stalled }

def step (p : Pump) : Pump :=
  match p.state with
  | .idle => { p with state := .reading, reads := p.reads + 1 }
  | .reading => p.afterRead (p.script.read readLimit)
  | .sending chunk =>
    if p.wanted then { p with passed := p.passed ++ [chunk], state := .idle }
    else { p with state := .done }
  | .stalled => p
  | .done => p

def release (p : Pump) : Pump :=
  match p.state with
  | .stalled => { p with state := .reading }
  | _ => p

def atRest (p : Pump) : Bool := p.state = .stalled || p.state = .done

inductive Move where
  | step
  | release
deriving DecidableEq, Repr

def move (p : Pump) : Move → Pump
  | .step => p.step
  | .release => p.release

def moves (p : Pump) (ms : List Move) : Pump := ms.foldl move p

def runFor : Nat → Pump → Pump
  | 0, p => p
  | n + 1, p => if p.atRest then p else runFor n p.step

/-- Runs until the pump stalls or is done. Three steps go to each item or byte at most. -/
def run (p : Pump) : Pump := runFor (3 * p.script.size + 4) p

/-- Nobody takes the chunks any more. -/
def abandon (p : Pump) : Pump := { p with wanted := false, passed := [] }

def records (p : Pump) : List LogRecord :=
  p.failure.toList.map fun error =>
    ⟨.debug, "test_helpers::io", "background read failed, treating as end of input",
      [("error", error)]⟩

end Pump

end Testkit
