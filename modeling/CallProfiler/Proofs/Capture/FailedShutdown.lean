import CallProfiler.Proofs.Capture.Shutdown
import CallProfiler.Proofs.Log.Interrupted

/-!
# Failed shutdowns

A shutdown takes the log from the registry before it writes anything, and a shutdown that fails
answers with a reason in place of the log. `obtainable_iff` says what is left of the events then:
they can be had from the file of the event log if that was written to its end, and nowhere
otherwise, not from the registry either.
-/

namespace CallProfiler

variable {tree after : FileTree} {path : String}

/-! ## Paths that lead nowhere -/

namespace FileTree

/-- Nothing is written where a path leads to no spot. -/
theorem run_write_nowhere (nowhere : tree.spot? path = none) (text : List Char) :
    ∃ reason, (access.write path text).run tree = (.error reason, tree) := by
  cases written : tree.write path text with
  | ok after =>
      obtain ⟨directory, name, leads, _⟩ := write_eq_ok_iff.1 written
      rw [nowhere] at leads
      cases leads
  | error reason =>
      refine ⟨reason, ?_⟩
      show commit (fun tree => tree.write path text) tree = _
      rw [commit, written]

theorem read_nowhere (nowhere : tree.spot? path = none) : ∃ reason, tree.read path = .error reason := by
  rw [spot?] at nowhere
  rw [read]
  cases found : tree.find path with
  | error reason => exact ⟨reason, rfl⟩
  | ok place =>
      rw [found] at nowhere
      cases place with
      | directory route => exact ⟨_, rfl⟩
      | file _ _ _ => cases nowhere
      | free _ _ => cases nowhere

end FileTree

/-! ## Logs in files -/

namespace Log

variable {log : EventLog}

/-- A file that was written is read back. -/
theorem run_load_putFile {directory : Nat} {name : String}
    (leads : tree.spot? path = some (directory, name)) (text : List Char) :
    (load FileTree.access path).run (tree.putFile directory name (.text text)) =
      ((decode (linesOfText text)).mapError .decode, tree.putFile directory name (.text text)) := by
  have stillLeads : (tree.putFile directory name (.text text)).spot? path = some (directory, name) :=
    (FileTree.spot?_putFile (FileTree.node?_of_spot leads) _ path).trans leads
  exact run_load (FileTree.read_of_spot stillLeads (tree.node?_putFile_self directory name _))

/-- A log that was saved is in its file to the end. -/
theorem load_of_save (saved : (save FileTree.access path .standard log).run tree = (.ok (), after)) :
    ∃ text, (encode .standard log).toText = .ok text ∧
      (load FileTree.access path).run after =
        ((decode (linesOfText text)).mapError .decode, after) := by
  cases leads : tree.spot? path with
  | none =>
      obtain ⟨refusal, written⟩ := FileTree.run_write_nowhere leads (encode .standard log).text
      rw [save, FileTree.run_bind_of_run written] at saved
      cases saved
  | some spot =>
      rw [run_save leads] at saved
      obtain ⟨outcome, rfl⟩ := Prod.ext_iff.1 saved
      refine ⟨(encode .standard log).text, ?_, run_load_putFile leads _⟩
      exact map_eq_ok_iff.2 ⟨(), restate_eq_ok_iff.1 outcome, rfl⟩

/-- A log that could not be saved leaves no events in its file. -/
theorem load_of_save_refused {reason : LogWriteError}
    (failed : (save FileTree.access path .standard log).run tree = (refuse reason, after))
    (small : (tableOf .standard log).length ≤ Width.bound 32) {loaded : EventLog}
    (loads : (load FileTree.access path).run after = (.ok loaded, after)) :
    loaded.threads.entries = [] := by
  cases leads : tree.spot? path with
  | none =>
      obtain ⟨refusal, written⟩ := FileTree.run_write_nowhere leads (encode .standard log).text
      rw [save, FileTree.run_bind_of_run written] at failed
      cases failed
      obtain ⟨refusal, nothing⟩ := FileTree.read_nowhere leads
      rw [load, FileTree.run_bind_of_run FileTree.run_read, nothing] at loads
      cases loads
  | some spot =>
      rw [run_save leads] at failed
      obtain ⟨outcome, rfl⟩ := Prod.ext_iff.1 failed
      rw [run_load_putFile leads] at loads
      obtain ⟨name, refused, _⟩ := restate_eq_refuse_iff.1 outcome
      have wrong : ¬ ∀ event ∈ log.threads.allEvents, Text.isWord event.name.toList = true :=
        fun named => outcome_ne_refused named name refused
      rw [(decode_of_refused wrong small).2] at loads
      cases loads
      rfl

end Log

namespace Capture.Registry

variable {registry left : Registry} {error : ShutdownError} {settings : ProfilerSettings}
  {log : EventLog}

/-! ## How shutdowns fail -/

/-- A report that fails leaves the files as they were, and its failure is not one of the log. -/
theorem writeReport_refused
    (failed : (writeReport FileTree.access settings log).run tree = (refuse error, after)) :
    after = tree ∧ ∀ reason, error ≠ .log reason := by
  rw [writeReport] at failed
  split at failed
  · cases failed
  · rename_i path _
    cases rendered : reportText log settings.sections with
    | error stop =>
        rw [rendered] at failed
        cases stop with
        | fault reached => cases failed
        | refused reason =>
            cases failed
            exact ⟨rfl, by rintro _ ⟨⟩⟩
    | ok report =>
        rw [rendered, Stop.restate] at failed
        cases leads : tree.spot? path with
        | none =>
            obtain ⟨reason, written⟩ := FileTree.run_write_nowhere leads report.toList
            rw [FileTree.run_bind_of_run written] at failed
            cases failed
            exact ⟨rfl, by rintro _ ⟨⟩⟩
        | some spot =>
            rw [FileTree.run_bind_of_run (FileTree.run_write leads _)] at failed
            cases failed

/-! ## What is left -/

/-- An event list is still in the registry, where the next log that is taken has it, or in the file of
the event log. -/
def Obtainable (left : Registry) (after : FileTree) (entry : UInt32 × List Event) : Prop :=
  entry ∈ left.takeLog.2.threads.entries ∨
    ∃ path loaded, left.settings.logPath = some path ∧
      (Log.load FileTree.access path).run after = (.ok loaded, after) ∧
      entry ∈ loaded.threads.entries

/-- The registry itself has nothing more once the log was taken. -/
theorem obtainable_takeLog {entry : UInt32 × List Event} :
    Obtainable registry.takeLog.1 after entry ↔
      ∃ path loaded, registry.settings.logPath = some path ∧
        (Log.load FileTree.access path).run after = (.ok loaded, after) ∧
        entry ∈ loaded.threads.entries :=
  or_iff_right nofun

section Saved

variable {path : String} (asked : settings.logPath = some path)

include asked

theorem run_writeLog_eq (log : EventLog) :
    (writeLog FileTree.access settings log).run tree =
      (Stop.restate .log ((Log.save FileTree.access path .standard log).run tree).1,
        ((Log.save FileTree.access path .standard log).run tree).2) := by
  rw [writeLog, asked]
  rfl

theorem save_of_writeLog_refused
    (failed : (writeLog FileTree.access settings log).run tree = (refuse error, after)) :
    ∃ reason, error = .log reason ∧
      (Log.save FileTree.access path .standard log).run tree = (refuse reason, after) := by
  rw [run_writeLog_eq asked] at failed
  obtain ⟨outcome, last⟩ := Prod.ext_iff.1 failed
  obtain ⟨reason, refused, same⟩ := restate_eq_refuse_iff.1 outcome
  exact ⟨reason, same.symm, Prod.ext refused last⟩

theorem save_of_writeLog (written : (writeLog FileTree.access settings log).run tree = (.ok (), after)) :
    (Log.save FileTree.access path .standard log).run tree = (.ok (), after) := by
  rw [run_writeLog_eq asked] at written
  obtain ⟨outcome, last⟩ := Prod.ext_iff.1 written
  exact Prod.ext (restate_eq_ok_iff.1 outcome) last

end Saved

/-- The events of a log that was written to its end are in its file, unless a time among them is too
late for the format; the whole file is refused then. -/
theorem Reached.obtainable_iff_inTime {calibration : Calibration} {path : String}
    (reached : Reached settings calibration registry)
    (few : (registry.threads.allEvents.map (·.name)).eraseDups.length ≤ Width.bound 32)
    (asked : settings.logPath = some path)
    (saved : (Log.save FileTree.access path .standard registry.takeLog.2).run tree = (.ok (), after))
    {entry : UInt32 × List Event} (held : entry ∈ registry.threads.entries) :
    Obtainable registry.takeLog.1 after entry ↔ Log.InTime registry.threads.allEvents := by
  obtain ⟨text, encoded, loads⟩ := Log.load_of_save saved
  obtain rfl := reached.settings_eq
  have named : ∀ event ∈ registry.threads.allEvents, Text.isWord event.name.toList = true := by
    by_contra wrong
    obtain ⟨⟨reason, stopped⟩, _⟩ :=
      @Log.decode_of_refused .standard registry.takeLog.2 wrong few
    rw [Log.Encoding.toText, stopped] at encoded
    cases encoded
  rw [obtainable_takeLog]
  constructor
  · rintro ⟨_, loaded, asked', loaded', _⟩
    by_contra late
    have proper : Log.Proper registry.threads.allEvents := fun event member => by
      obtain ⟨entry, inside, ofEntry⟩ := List.mem_flatMap.1 member
      exact ⟨named event member, (reached.handedOff entry inside).forward event ofEntry⟩
    obtain ⟨reason, refused⟩ :=
      @Log.lost_of_late .standard rfl registry.takeLog.2 proper late few text encoded
    rw [asked] at asked'
    cases asked'
    rw [loads, refused] at loaded'
    cases loaded'
  · intro inTime
    obtain ⟨same, encoded', decoded⟩ := reached.decode_log named inTime few
    rw [encoded] at encoded'
    cases encoded'
    rw [decoded] at loads
    exact ⟨path, _, asked, loads, held⟩

/-- After a shutdown that failed an event list is to be had just if an event log was asked for and was
written to its end, without a time in it that is too late for the format. -/
theorem obtainable_iff {calibration : Calibration} (reached : Reached settings calibration registry)
    (few : (registry.threads.allEvents.map (·.name)).eraseDups.length ≤ Width.bound 32)
    (failed : (registry.finish FileTree.access).run tree = ((left, refuse error), after)) :
    ∀ entry ∈ registry.threads.entries, Obtainable left after entry ↔
      settings.logPath.isSome = true ∧ (∀ reason, error ≠ .log reason) ∧
        Log.InTime registry.threads.allEvents := by
  intro entry held
  obtain rfl := reached.settings_eq
  have finishes := finish_finishes FileTree.access registry tree
  rw [failed] at finishes
  cases finishes with
  | unsaved _ failedLog =>
      cases asked : registry.settings.logPath with
      | none =>
          -- Nothing is saved then, so nothing can fail.
          rw [writeLog, asked] at failedLog
          cases failedLog
      | some path =>
          obtain ⟨reason, rfl, failedSave⟩ := save_of_writeLog_refused asked failedLog
          refine iff_of_false ?_ fun others => others.2.1 reason rfl
          rw [obtainable_takeLog, asked]
          rintro ⟨_, loaded, ⟨⟩, loads, member⟩
          rw [Log.load_of_save_refused failedSave few loads] at member
          cases member
  | unreported _ written failedReport =>
      obtain ⟨rfl, notLog⟩ := writeReport_refused failedReport
      cases asked : registry.settings.logPath with
      | none =>
          refine iff_of_false ?_ fun others => Bool.false_ne_true others.1
          rw [obtainable_takeLog, asked]
          rintro ⟨_, _, ⟨⟩, _⟩
      | some path =>
          rw [reached.obtainable_iff_inTime few asked (save_of_writeLog asked written) held]
          simp [notLog]

/-- A registry after the hand-off of a thread that has no frames, so that there is no report of it. -/
def frameless (settings : ProfilerSettings) : Registry :=
  (Registry.new settings ⟨1000, 40, 60⟩).acceptHandOff loading.recorder.flush.2

/-- The settings ask for a report, and for an event log at a path if there is one. -/
def reporting (logPath : Option String) : ProfilerSettings :=
  { ProfilerSettings.standard with logPath, reportPath := some "report.txt" }

theorem obtainable_iff_frameless : ∃ left after,
    ((frameless (reporting (some "run.log"))).finish FileTree.access).run .empty =
        ((left, refuse (.run .noFrameThread)), after) ∧
      (frameless (reporting (some "run.log"))).threads.entries.map (·.1) = [0] ∧
      ∀ entry ∈ (frameless (reporting (some "run.log"))).threads.entries,
        Obtainable left after entry := by
  have loaded : Session.Reached Session.IsOpen false loading :=
    .pop (.push .start "load" false _) (by decide) _
  have reached : Reached (reporting (some "run.log")) ⟨1000, 40, 60⟩
      (frameless (reporting (some "run.log"))) := .handOff .new loaded
  obtain ⟨left, after, failed⟩ : ∃ left after,
      ((frameless (reporting (some "run.log"))).finish FileTree.access).run .empty =
        ((left, refuse (.run .noFrameThread)), after) := ⟨_, _, rfl⟩
  refine ⟨left, after, failed, rfl, fun entry held => ?_⟩
  exact (obtainable_iff reached (by decide) failed entry held).2 ⟨rfl, nofun, by decide⟩

/-- Without an event log a report that fails takes all events with it. -/
theorem exists_not_obtainable : ∃ left after entry,
    ((frameless (reporting none)).finish FileTree.access).run .empty =
        ((left, refuse (.run .noFrameThread)), after) ∧
      entry ∈ (frameless (reporting none)).threads.entries ∧ ¬ Obtainable left after entry := by
  obtain ⟨after, failed⟩ : ∃ after,
      ((frameless (reporting none)).finish FileTree.access).run .empty =
        (((frameless (reporting none)).takeLog.1, refuse (.run .noFrameThread)), after) :=
    ⟨_, rfl⟩
  refine ⟨_, after, _, failed, List.mem_cons_self, ?_⟩
  rw [obtainable_takeLog]
  rintro ⟨path, loaded, ⟨⟩, _⟩

end Capture.Registry

end CallProfiler
