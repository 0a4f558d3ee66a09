import Testkit.Body.Action
import Testkit.Report.Announcement
import Testkit.Report.Scope

/-! What the bodies of a run share, and the reporter that each of them runs against. -/

namespace Testkit

structure World where
  trace : List Observation := []
  log : List Notice := []
  printed : List Printed := []
  channels : List (String × Channel) := []
  now : Instant := .start
deriving Inhabited

namespace World

def observe (w : World) (o : Observation) : World := { w with trace := w.trace ++ [o] }

def notify (w : World) (n : Notice) : World := { w with log := w.log ++ [n] }

def print (w : World) (p : Printed) : World := { w with printed := w.printed ++ [p] }

def setChannel (w : World) (name : String) (c : Channel) : World :=
  { w with channels := w.channels.map fun e => if e.1 = name then (name, c) else e }

end World

/-- Whether a reporter only keeps what it is told, or writes it out as well. -/
inductive Reporter where
  | sandboxed
  | printing
deriving DecidableEq, Repr

namespace Reporter

def tellFailure (r : Reporter) (path : Path) (message : String) (w : World) : World :=
  match r with
  | .sandboxed => w.notify (.failure path message)
  | .printing => w.print (.failure path message)

def tellSkip (r : Reporter) (path : Path) (message : String) (w : World) : World :=
  match r with
  | .sandboxed => w
  | .printing => if message = "" then w else w.print (.skipMessage path message)

def tellStart (r : Reporter) (path : Path) (w : World) : World :=
  match r with
  | .sandboxed => w.notify (.subtestStarted path)
  | .printing => w

def tellExit (r : Reporter) (path : Path) (ending : Ending) (w : World) : World :=
  match r, ending with
  | .sandboxed, .exited => w.notify (.exitedEarly path)
  | _, _ => w

def tellSkipped (r : Reporter) (path : Path) (skipped : Bool) (w : World) : World :=
  match r, skipped with
  | .printing, true => w.print (.skipped path)
  | _, _ => w

end Reporter

/-- Where a body runs: its reporter, its path, and the scopes around its own, innermost first. -/
structure Env where
  reporter : Reporter
  path : Path
  enclosing : List Scope

/-- The body's own scope, and what all bodies share. -/
structure State where
  scope : Scope
  world : World
deriving Inhabited

end Testkit
