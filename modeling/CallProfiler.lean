import CallProfiler.Main
import CallProfiler.Capture.Scope
import CallProfiler.Files.Tree
import CallProfiler.Proofs.CallTree.Coverage
import CallProfiler.Proofs.Log.RoundTrip
import CallProfiler.Proofs.Capture.PagedStore
import CallProfiler.Proofs.Capture.Recording
import CallProfiler.Proofs.Capture.Discipline
import CallProfiler.Proofs.CallTree.Refusals
import CallProfiler.Proofs.CallTree.Offences
import CallProfiler.Proofs.CallTree.Clocks
import CallProfiler.Proofs.Capture.HandOff
import CallProfiler.Proofs.CallTree.Statistics
import CallProfiler.Proofs.Analysis
import CallProfiler.Proofs.Analysis.Frames
import CallProfiler.Proofs.Capture.Performance
import CallProfiler.Proofs.CallTree.Fitting
import CallProfiler.Proofs.Capture.Faithfulness
import CallProfiler.Proofs.Arena.Invariant
import CallProfiler.Proofs.Log.Reading
import CallProfiler.Proofs.Log.Rewriting
import CallProfiler.Proofs.Capture.Registry
import CallProfiler.Proofs.Files
import CallProfiler.Proofs.Capture.Shutdown
import CallProfiler.Proofs.Capture.Delivery
import CallProfiler.Proofs.Capture.Custody
import CallProfiler.Proofs.Capture.Scopes
import CallProfiler.Proofs.Log.Interrupted
import CallProfiler.Proofs.Capture.FailedShutdown
import CallProfiler.Proofs.Capture.StoreRefinement
import CallProfiler.Proofs.CallTree.Relief
import CallProfiler.Proofs.Analysis.Mitigation
import CallProfiler.Proofs.Report.Ending
import CallProfiler.Proofs.CallTree.Costs
import CallProfiler.Proofs.CallTree.Siblings
import CallProfiler.Proofs.CallTree.Settling
import CallProfiler.Proofs.CallTree.Ranking
import CallProfiler.Proofs.CallTree.DirectRecursion
import CallProfiler.Proofs.Analysis.Bounds
import CallProfiler.Proofs.Log.Acceptance
import CallProfiler.Proofs.Log.Quantising
import CallProfiler.Proofs.Log.FirstRefusal
import CallProfiler.Proofs.Log.Histories
import CallProfiler.Proofs.Log.Sections
import CallProfiler.Proofs.Log.Layout
import CallProfiler.Proofs.Capture.Violation
import CallProfiler.Proofs.Capture.Room
import CallProfiler.Proofs.Calibration.Outliers
import CallProfiler.Proofs.Calibration.Ordering
import CallProfiler.Proofs.Summary.RoundTrip
