import CallProfiler.Calibration.Settings
import CallProfiler.Capture.Recorder

/-!
# Measuring the cost of recording

A trial opens one interval, opens and closes a number of sample intervals inside it, and closes
it. The outer interval's time is what the samples cost the call around them; the sum of their
own times is what they saw of themselves.
-/

namespace CallProfiler.Capture

/-- What the events of a trial measured, the outer interval being the first event. -/
def trialOfEvents (events : List Event) : Except Fault Trial := do
  let spans := events.map (·.duration)
  let selfTime ← Checked.sum 64 spans.tail
  return ⟨.ofNat selfTime, .ofNat (spans.head?.getD 0)⟩

end CallProfiler.Capture
