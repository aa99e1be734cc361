import CallProfiler.Command.Report
import CallProfiler.Proofs.Files
import CallProfiler.Proofs.Outcome
import CallProfiler.Proofs.Summary.Values

/-!
# Summaries read back

The summary of a run has numbers that fit, if the run does, and rates of frames that cannot be too
large. What is written for it to a file is therefore read from the file as a summary that differs
from it in the digits of rates at most (`read_of_write`).
-/

namespace CallProfiler

/-- Each number of a profile that a summary gives fits its width. -/
structure ThreadProfile.Fits (profile : ThreadProfile) : Prop where
  frameCount : profile.frameCount < Width.bound 64
  frameTime : profile.frameTime < Width.bound 64
  stats : ∀ stat ∈ profile.stats, stat.Fits

/-- Each number of a run that a summary gives fits its width. -/
def RunProfile.Fits (run : RunProfile) : Prop := ∀ profile ∈ run.threads, profile.Fits

namespace Summary

/-! ## Summaries of runs -/

open Decimal in
/-- The rate of frames whose number and time fit is a number that is not too large. -/
theorem atMost_fps {profile : ThreadProfile} (fits : profile.Fits) :
    AtMost 96 profile.fps.toModel.unpack := by
  rw [ThreadProfile.fps]
  split
  · exact atMost_zero.mono (by decide)
  · rename_i timed
    have time : profile.frameTime.toUInt64.toNat ≠ 0 := by
      rw [Nat.toUInt64, UInt64.toNat_ofNat_of_lt' fits.frameTime]
      exact timed
    have frames := atMost_mul (atMost_toFloat profile.frameCount.toUInt64) atMost_billion
      (by decide) (by decide)
    exact atMost_div frames (atLeast_toFloat time) (by decide) (by decide)

theorem fits_of_ofThread {profile : ThreadProfile} {thread : ThreadSummary} (fits : profile.Fits)
    (made : ofThread profile = .ok thread) : thread.Fits := by
  rw [ofThread] at made
  obtain ⟨events, counted, made⟩ := bind_eq_ok_iff.1 made
  cases made
  obtain ⟨few, rfl⟩ := Checked.sum_eq_ok_iff.1 counted
  exact ⟨profile.id.toNat_lt, fits.frameCount, fits.frameTime, atMost_fps fits, few, fits.stats⟩

variable {run : RunProfile} {mitigated : Bool} {generatedAt : String} {summary : Summary}

theorem exists_ofThread_iff {profile : ThreadProfile} :
    (∃ thread, ofThread profile = .ok thread) ↔
      Checked.total (profile.full.children.preorder.map (·.count)) < Width.bound 64 := by
  constructor
  · rintro ⟨thread, made⟩
    obtain ⟨events, counted, _⟩ := bind_eq_ok_iff.1 made
    exact (Checked.sum_eq_ok_iff.1 counted).1
  · intro few
    exact exists_ok_bind (Checked.sum_eq_ok_iff.2 ⟨few, rfl⟩) ⟨_, rfl⟩

/-- A run has a summary unless it has a thread with too many events to be counted. -/
theorem exists_ofRun_iff : (∃ summary, ofRun run mitigated generatedAt = .ok summary) ↔
    ∀ profile ∈ run.threads,
      Checked.total (profile.full.children.preorder.map (·.count)) < Width.bound 64 := by
  simp only [← exists_ofThread_iff, ← exists_mapM_eq_ok_iff]
  constructor
  · rintro ⟨summary, made⟩
    obtain ⟨threads, done, _⟩ := bind_eq_ok_iff.1 made
    exact ⟨threads, done⟩
  · rintro ⟨threads, done⟩
    exact exists_ok_bind done ⟨_, rfl⟩

theorem fits_of_ofRun (fits : run.Fits) (made : ofRun run mitigated generatedAt = .ok summary) :
    summary.Fits := by
  rw [ofRun] at made
  obtain ⟨threads, each, made⟩ := bind_eq_ok_iff.1 made
  cases made
  refine ⟨fun thread member => ?_, fun failure member => ?_⟩
  · obtain ⟨profile, inRun, along⟩ := of_mem_mapM each member
    exact fits_of_ofThread (fits profile inRun) along
  · obtain ⟨reason, _, rfl⟩ := List.mem_map.1 member
    exact reason.id.toNat_lt

end Summary

/-! ## Summaries in files -/

variable {tree after : FileTree} {path : String}

theorem exists_write_of_writeSummary {summary : Summary}
    (written : (Command.writeSummary FileTree.access path summary).run tree = (.ok (), after)) :
    ∃ before, FileTree.write before path summary.write.toList = .ok after := by
  rw [Command.writeSummary] at written
  split at written
  · cases written
  obtain ⟨isDirectory, _, _, written⟩ := FileTree.exists_run_of_bind written
  split at written
  · cases written
  obtain ⟨inDirectory, _, _, written⟩ := FileTree.exists_run_of_bind written
  obtain ⟨inFile, _, _, written⟩ := FileTree.exists_run_of_bind written
  change StateT.run (if _ then pure (Except.ok ()) >>= _ else
    FileTree.access.makeDirectories _ >>= _) _ = _ at written
  split at written
  all_goals
    obtain ⟨made, prepared, _, written⟩ := FileTree.exists_run_of_bind written
    rcases made with reason | ⟨⟩
    · cases written
    · obtain ⟨result, last, ran, written⟩ := FileTree.exists_run_of_bind written
      rcases result with reason | ⟨⟩
      · cases written
      · cases written
        exact ⟨prepared, FileTree.write_of_run ran⟩

/-- A summary goes to the spot that a path leads to, if nothing has to be made first. -/
theorem run_writeSummary {directory : Nat} {name : String} (summary : Summary)
    (leads : tree.spot? path = some (directory, name))
    (ready : ((FilePath.parent? path).getD "").isEmpty = true) :
    (Command.writeSummary FileTree.access path summary).run tree =
      (.ok (), tree.putFile directory name (.text summary.write.toList)) := by
  have nonempty : path.isEmpty = false := by
    obtain ⟨valid, _⟩ := FileTree.spot?_eq_some_iff.1 leads
    refine eq_false_of_ne_true fun empty => ?_
    rw [String.isEmpty_iff] at empty
    subst empty
    exact absurd valid (by decide +kernel)
  have noDirectory : tree.isDirectory path = false := by
    rw [FileTree.spot?] at leads
    rw [FileTree.isDirectory]
    split <;> simp_all [Place.spot?]
  rw [Command.writeSummary, nonempty, if_neg Bool.false_ne_true,
    FileTree.run_bind_of_run FileTree.run_isDirectory, noDirectory, if_neg Bool.false_ne_true]
  simp only [ready, Bool.true_or, if_true, pure_bind]
  rw [FileTree.run_bind_of_run FileTree.run_isDirectory,
    FileTree.run_bind_of_run FileTree.run_isFile,
    FileTree.run_bind_of_run (FileTree.run_write leads _)]
  rfl

theorem run_readSummary {text : List Char} (holds : tree.read path = .ok (.text text)) :
    (Command.readSummary FileTree.access path).run tree = (.ok (Summary.read? text), tree) := by
  rw [Command.readSummary, FileTree.run_bind_of_run FileTree.run_read, holds]
  simp only [FileContent.toText?, Option.bind_eq_bind, Option.bind_some, StateT.run_pure]
  rfl

/-- What was written for a summary is what is read from the file. -/
theorem run_readSummary_of_writeSummary {summary : Summary}
    (written : (Command.writeSummary FileTree.access path summary).run tree = (.ok (), after)) :
    (Command.readSummary FileTree.access path).run after =
      (.ok (Summary.read? summary.write.toList), after) := by
  obtain ⟨before, wrote⟩ := exists_write_of_writeSummary written
  obtain ⟨directory, name, leads, rfl⟩ := FileTree.write_eq_ok_iff.1 wrote
  have stillLeads := FileTree.spot?_putFile (FileTree.node?_of_spot leads)
    (.text summary.write.toList) path
  exact run_readSummary (FileTree.read_of_spot (stillLeads.trans leads)
    (before.node?_putFile_self directory name _))

namespace Summary

variable {run : RunProfile} {mitigated : Bool} {generatedAt : String}

/-- A run whose numbers fit has a summary, unless a thread has too many events to be counted. The
text of the summary is read back as the summary, but for the digits of rates, and so is every file
that it was written to. -/
theorem read_of_write (fits : run.Fits) :
    ((∃ summary, ofRun run mitigated generatedAt = .ok summary) ↔
      ∀ profile ∈ run.threads,
        Checked.total (profile.full.children.preorder.map (·.count)) < Width.bound 64) ∧
    ∀ summary, ofRun run mitigated generatedAt = .ok summary →
      ∃ loaded, read? summary.write.toList = some loaded ∧
        loaded.withoutRates = summary.withoutRates ∧
        ∀ tree after path,
          (Command.writeSummary FileTree.access path summary).run tree = (.ok (), after) →
            (Command.readSummary FileTree.access path).run after = (.ok (some loaded), after) := by
  refine ⟨exists_ofRun_iff, fun summary made => ?_⟩
  obtain ⟨loaded, read, same⟩ := exists_read?_write (fits_of_ofRun fits made)
  refine ⟨loaded, read, same, fun tree after path written => ?_⟩
  rw [run_readSummary_of_writeSummary written, read]

/-- A frame whose name needs escapes. -/
def escapedFrame : Node where
  name := "draw \"loop\" \\ \n\x01\x7f 図"
  level := 0
  frame := true
  processClock := false
  realtime := 50000000
  cpu := 41000000
  count := 3
  removedCalls := 0
  recursions := 0
  mitigated := false

/-- A frame thread with entries of ordinary and of extreme numbers. -/
def escapedThread : ThreadProfile where
  id := 7
  full := ⟨{ Node.root with frame := true }, .node escapedFrame .nil .nil⟩
  collapsed := ⟨{ Node.root with frame := true }, .node escapedFrame .nil .nil⟩
  stats := [
    ⟨escapedFrame.name, 0, 50000000, 41000000, 0, 3, 0, false⟩,
    ⟨"", -2147483648, 18446744073709551615, 0, 18446744073709551615, 1, 4294967295, true⟩]

/-- A run with that thread and a failure. -/
def escapedRun : RunProfile where
  calibration := ⟨4096, 35, 90⟩
  threads := [escapedThread]
  failures := [⟨9, .recursionDetected "\x1b[31m\"図\""⟩]

theorem read_of_write_escaped :
    escapedRun.Fits ∧ ∃ summary loaded after,
      ofRun escapedRun true "2024-05-01T10:00:00+00:00" = .ok summary ∧
      (Command.writeSummary FileTree.access "summary.json" summary).run .empty = (.ok (), after) ∧
      (Command.readSummary FileTree.access "summary.json").run after = (.ok (some loaded), after) ∧
      loaded.withoutRates = summary.withoutRates := by
  have fits : escapedRun.Fits := by
    intro profile member
    cases List.mem_singleton.1 member
    refine ⟨by decide +kernel, by decide +kernel, ?_⟩
    simp only [escapedThread, List.forall_mem_cons]
    exact ⟨⟨by decide, by decide, by decide, by decide, by decide, by decide⟩,
      ⟨by decide, by decide, by decide, by decide, by decide, by decide⟩, nofun⟩
  have few : ∀ profile ∈ escapedRun.threads,
      Checked.total (profile.full.children.preorder.map (·.count)) < Width.bound 64 := by
    decide +kernel
  have leads : FileTree.empty.spot? "summary.json" = some (0, "summary.json") := by decide +kernel
  obtain ⟨summary, made⟩ := (@read_of_write _ true "2024-05-01T10:00:00+00:00" fits).1.2 few
  obtain ⟨loaded, _, same, back⟩ := (read_of_write fits).2 summary made
  have written := run_writeSummary summary leads (by decide +kernel)
  exact ⟨fits, summary, loaded, _, made, written, back _ _ _ written, same⟩

end Summary

end CallProfiler
