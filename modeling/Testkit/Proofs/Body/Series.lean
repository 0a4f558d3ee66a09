import Testkit.Proofs.Body.Control
import Testkit.Proofs.Body.Silence
import Testkit.Body.Run

/-! Bodies that run one after another against one sandboxed reporter. -/

namespace Testkit

/-- What is there for a further body: trace and log are begun anew for each. -/
def State.cleared (s : State) : State := ⟨s.scope, { s.world with trace := [], log := [] }⟩

def SeriesBody.after (b : SeriesBody) (s : State) : State := (b.run s.cleared).2

def afterSeries (bodies : List SeriesBody) (s : State) : State :=
  bodies.foldl (fun s b => b.after s) s

namespace SeriesBody

theorem run_fst (b : SeriesBody) (s : State) :
    (b.run s).1 = (execAll b.actions (.top .sandboxed) s).1 := rfl

theorem run_scope (b : SeriesBody) (s : State) :
    (b.run s).2.scope = (execAll b.actions (.top .sandboxed) s).2.scope := by
  simp only [run]
  split <;> rfl

theorem run_silent (b : SeriesBody) (s : State) :
    (b.run s).2.world.silent = (execAll b.actions (.top .sandboxed) s).2.world.silent := by
  simp only [run]
  split
  · rfl
  · exact Reporter.silent_tellExit _ _ _ _

theorem run_of_completed {b : SeriesBody} {s : State} (h : (b.run s).1 = .completed) :
    b.run s = execAll b.actions (.top .sandboxed) s := by
  rw [run_fst] at h
  simp only [run]
  revert h
  generalize execAll b.actions (.top .sandboxed) s = r
  obtain ⟨ending, t⟩ := r
  rintro rfl
  split <;> rfl

end SeriesBody

theorem length_runSeries (bodies : List SeriesBody) (s : State) :
    (runSeries bodies s).length = bodies.length := by
  induction bodies generalizing s with
  | nil => rfl
  | cons b bodies ih => simp only [runSeries, List.length_cons, ih]

theorem runSeries_append (earlier later : List SeriesBody) (s : State) :
    runSeries (earlier ++ later) s = runSeries earlier s ++ runSeries later (afterSeries earlier s) := by
  induction earlier generalizing s with
  | nil => rfl
  | cons b earlier ih =>
    simp only [List.cons_append, runSeries, ih]
    rfl

theorem execAll_append (xs ys : List Action) :
    execAll (xs ++ ys) = (execAll xs).andThen (execAll ys) := by
  induction xs with
  | nil => rfl
  | cons a xs ih => rw [List.cons_append, execAll, execAll, ih, Exec.andThen_assoc]

end Testkit
