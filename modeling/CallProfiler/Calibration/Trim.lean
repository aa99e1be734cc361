import CallProfiler.Fault

/-!
# Combining trials

Overhead is measured several times and the trials are combined into one value. Outliers can be
kept, cut off at both ends of the sorted trials, or left out by their distance from the mean.
-/

namespace CallProfiler

/-- How trials are combined. -/
inductive TrimPolicy where
  /-- The mean of all trials. -/
  | mean
  /-- The mean without the lowest and the highest `discard` trials. -/
  | trimmed (discard : Nat)
  /-- The mean of the trials within `bound` standard deviations of the mean. -/
  | sigmaClip (bound : Float)

namespace TrimPolicy

/-- The policy where nothing else is asked for. -/
def standard : TrimPolicy := .trimmed 1

/-- The mean, rounded down; zero for no values. -/
def meanOf (values : List UInt64) : Nat := Checked.total (values.map (·.toNat)) / values.length

/-- The values in ascending order. -/
def sorted (values : List UInt64) : List UInt64 := values.mergeSort fun left right => left ≤ right

/-- The mean without both ends, or the middle value where the ends leave nothing. -/
def trimmedMean (discard : Nat) (values : List UInt64) : Except Fault Nat := do
  let both ← Checked.multiply 64 2 discard
  let ascending := sorted values
  if ascending.length ≤ both then
    return (ascending[ascending.length / 2]?.map (·.toNat)).getD 0
  else return meanOf ((ascending.drop discard).take (ascending.length - both))

/-- The values within `bound` standard deviations of the mean. -/
def withinSigma (bound : Float) (total : Nat) (values : List UInt64) : List UInt64 :=
  let size := values.length.toUInt64.toFloat
  let average := total.toUInt64.toFloat / size
  let squares := values.map fun value =>
    (value.toFloat - average) * (value.toFloat - average)
  let variance := squares.foldl (· + ·) 0.0 / size
  let distance := bound * variance.sqrt
  values.filter fun value => (value.toFloat - average).abs ≤ distance

/-- The mean of the values close to the mean, or of all where none is close. -/
def clippedMean (bound : Float) (values : List UInt64) : Except Fault Nat := do
  let total ← Checked.sum 64 (values.map (·.toNat))
  let kept := withinSigma bound total values
  return meanOf (if kept.isEmpty then values else kept)

/-- Combine the values of some trials; no trials give zero. -/
def combine (policy : TrimPolicy) (values : List UInt64) : Except Fault Nat :=
  if values.isEmpty then .ok 0
  else match policy with
    | .mean => .ok (meanOf values)
    | .trimmed discard => trimmedMean discard values
    | .sigmaClip bound => clippedMean bound values

end TrimPolicy

end CallProfiler
