import CallProfiler.Arena.Basic
import CallProfiler.Calibration

/-!
# Mitigation in an arena

The slots are gone through in postorder, so what a slot is left with is measured against children
that are mitigated already.
-/

namespace CallProfiler.Arena

/-- Take the cost of recording off a slot whose children are mitigated. -/
def mitigateAt (calibration : Calibration) (arena : Arena) (id : Nat) : Except Fault Arena :=
  if (arena.node id).mitigated then .ok arena
  else do
    let calls ← arena.overChildren (·.count) id
    let cost ← Checked.add 64 (calibration.selfOverhead (arena.node id).count)
      (calibration.childrenOverhead calls)
    let floor ← arena.overChildren (·.realtime) id
    return arena.change id fun slot => slot.hold { slot.node with
      realtime := max (slot.node.realtime - cost) floor
      mitigated := true }

/-- The mitigated tree, where no sum leaves its width. -/
def mitigated (calibration : Calibration) (arena : Arena) : Except Fault Arena :=
  if calibration.isCalibrated then do
    let relieved ← (arena.postorder.filter (· != rootId)).foldlM (mitigateAt calibration) arena
    relieved.withRootTotals
  else .ok arena

end CallProfiler.Arena
