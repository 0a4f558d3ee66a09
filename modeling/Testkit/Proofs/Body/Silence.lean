import Testkit.Body.Exec

/-! What a reporter tells while a test runs does not change anything else. -/

namespace Testkit

namespace World

/-- The part of a world that does not depend on the reporter. -/
def silent (w : World) : World := { w with log := [], printed := [] }

@[simp] theorem silent_observe (w : World) (o : Observation) :
    (w.observe o).silent = w.silent.observe o := rfl

theorem agree_of_silent {w v : World} (h : w.silent = v.silent) :
    w.trace = v.trace ∧ w.channels = v.channels ∧ w.now = v.now := by
  cases w
  cases v
  simpa [silent] using h

theorem act_silent (w : World) (name : String) (op : ChannelOp) :
    (w.act name op).1.silent = (w.silent.act name op).1 ∧
      (w.act name op).2 = (w.silent.act name op).2 := by
  simp only [act, silent]
  split <;> exact ⟨rfl, rfl⟩

theorem act_congr {w v : World} (h : w.silent = v.silent) (name : String) (op : ChannelOp) :
    (w.act name op).1.silent = (v.act name op).1.silent ∧
      (w.act name op).2 = (v.act name op).2 := by
  obtain ⟨hw, hr⟩ := act_silent w name op
  obtain ⟨hv, hs⟩ := act_silent v name op
  exact ⟨by rw [hw, hv, h], by rw [hr, hs, h]⟩

end World

namespace Reporter

@[simp] theorem silent_tellFailure (r : Reporter) (path : Path) (message : String) (w : World) :
    (r.tellFailure path message w).silent = w.silent := by
  cases r <;> rfl

@[simp] theorem silent_tellSkip (r : Reporter) (path : Path) (message : String) (w : World) :
    (r.tellSkip path message w).silent = w.silent := by
  cases r with
  | sandboxed => rfl
  | printing => simp only [tellSkip]; split <;> rfl

@[simp] theorem silent_tellStart (r : Reporter) (path : Path) (w : World) :
    (r.tellStart path w).silent = w.silent := by
  cases r <;> rfl

@[simp] theorem silent_tellExit (r : Reporter) (path : Path) (ending : Ending) (w : World) :
    (r.tellExit path ending w).silent = w.silent := by
  cases r <;> cases ending <;> rfl

@[simp] theorem silent_tellSkipped (r : Reporter) (path : Path) (skipped : Bool) (w : World) :
    (r.tellSkipped path skipped w).silent = w.silent := by
  cases r <;> cases skipped <;> rfl

end Reporter

end Testkit
