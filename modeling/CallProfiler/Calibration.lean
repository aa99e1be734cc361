import CallProfiler.Width

/-!
# Calibration

A calibration says what recording itself costs: the time that a number of sample calls lost to
their own bookkeeping, and the time that they added to the call around them. Costs of other
call counts are scaled in proportion.
-/

namespace CallProfiler

/-- The measured cost of `samples` calls. No samples means that nothing was measured. -/
structure Calibration where
  samples : UInt32
  /-- Nanoseconds that the calls saw of their own bookkeeping. -/
  selfTime : UInt64
  /-- Nanoseconds that the calls added to the call around them. -/
  childrenTime : UInt64
deriving DecidableEq, Repr

namespace Calibration

/-- Nothing measured. -/
def none : Calibration := ⟨0, 0, 0⟩

def isCalibrated (calibration : Calibration) : Bool := calibration.samples != 0

/-- The share of `calls` calls in a cost of `samples` calls, rounded down and kept to 64 bits. -/
def scaled (total : UInt64) (calls : Nat) (samples : UInt32) : Nat :=
  if samples = 0 then 0 else total.toNat * calls / samples.toNat % Width.bound 64

/-- Time that `calls` intervals lost to their own bookkeeping. -/
def selfOverhead (calibration : Calibration) (calls : Nat) : Nat :=
  scaled calibration.selfTime calls calibration.samples

/-- Time that `calls` child intervals added to their parent. -/
def childrenOverhead (calibration : Calibration) (calls : Nat) : Nat :=
  scaled calibration.childrenTime calls calibration.samples

/-- A cost divided by the number of calls. -/
def perCall (total : UInt64) (samples : UInt32) : Float :=
  if samples = 0 then 0.0 else total.toFloat / samples.toUInt64.toFloat

def selfPerCall (calibration : Calibration) : Float :=
  perCall calibration.selfTime calibration.samples

def childrenPerCall (calibration : Calibration) : Float :=
  perCall calibration.childrenTime calibration.samples

end Calibration

end CallProfiler
