import CallProfiler.Command.Report
import CallProfiler.Proofs.Capture.Registry
import CallProfiler.Proofs.Files

/-!
# Shutdowns and reports

A shutdown writes the log that it took and renders its report from the log in memory; the report
command renders one from the file. `finish_endsLike_report` says that both come to the same: the
file holds the log that was taken, and the two renderings end alike, in the same text where there
is one. `reportText` is what they have in common, and the `run` lemmas reduce each of them to it.
-/

namespace CallProfiler

variable {tree after : FileTree} {path : String} {directory : Nat} {name : String}

/-! ## Logs in files -/

namespace Log

theorem run_save (leads : tree.spot? path = some (directory, name)) (options : EncodeOptions)
    (log : EventLog) : (save FileTree.access path options log).run tree =
      (Stop.restate .invalidName (encode options log).outcome,
        tree.putFile directory name (.text (encode options log).text)) := by
  rw [save, FileTree.run_bind_of_run (FileTree.run_write leads _)]
  rfl

theorem run_load {content : FileContent} (holds : tree.read path = .ok content) :
    (load FileTree.access path).run tree = ((decode content.lines).mapError .decode, tree) := by
  rw [load, FileTree.run_bind_of_run FileTree.run_read, holds]
  rfl

theorem run_load_text (leads : tree.spot? path = some (directory, name)) {text : List Char}
    (holds : tree.node? directory name = some (.file (.text text))) {log : EventLog}
    (decoded : decode (linesOfText text) = .ok log) :
    (load FileTree.access path).run tree = (.ok log, tree) := by
  rw [run_load (FileTree.read_of_spot leads holds)]
  show ((decode (linesOfText text)).mapError _, tree) = _
  rw [decoded]
  rfl

end Log

/-! ## The report command -/

namespace Command

/-- The failure of a command whose log cannot be analysed. -/
def analysisFailure (error : RunError) : Failure :=
  ⟨"Failed to analyse event log", [error.message]⟩

section Attempt

variable {α β : Type} {first : Attempt (StateM FileTree) α} {next : α → Attempt (StateM FileTree) β}

theorem run_bind_of_ok {value : α} (ran : first.run.run tree = (.ok value, after)) :
    (first >>= next).run.run tree = (next value).run.run after := by
  rw [ExceptT.run_bind, FileTree.run_bind_of_run ran]

theorem run_bind_of_error {stop : Stop Failure} (ran : first.run.run tree = (.error stop, after)) :
    (first >>= next).run.run tree = (.error stop, after) := by
  rw [ExceptT.run_bind, FileTree.run_bind_of_run ran]
  rfl

end Attempt

theorem run_readLog {log : EventLog}
    (loads : (Log.load FileTree.access path).run tree = (.ok log, tree)) :
    (readLog FileTree.access path).run.run tree = (.ok log, tree) := by
  have lifted : (ExceptT.lift (Log.load FileTree.access path) :
      Attempt (StateM FileTree) _).run.run tree = (.ok (.ok log), tree) := by
    rw [ExceptT.run_lift, StateT.run_map, loads]
    rfl
  rw [readLog, run_bind_of_ok lifted]
  rfl

/-- A report of a log file is one of the log in it. -/
theorem run_report {log : EventLog}
    (loads : (Log.load FileTree.access path).run tree = (.ok log, tree)) (sections : UInt32)
    (now : String) :
    (report FileTree.access ⟨path, sections, none, true⟩ now).run.run tree =
      (Stop.restate analysisFailure (Capture.Registry.reportText log sections), tree) := by
  rw [report, run_bind_of_ok (run_readLog loads), Capture.Registry.reportText]
  cases analysed : analyzeLog log true with
  | error stop =>
      cases stop <;> exact run_bind_of_error rfl
  | ok run =>
      refine (@run_bind_of_ok tree tree _ _ _ _ run rfl).trans ?_
      show _ = (Stop.restate analysisFailure (Stop.ofFault (Report.render run sections)), tree)
      cases Report.render run sections with
      | error reached => exact @run_bind_of_error tree tree _ _ _ _ (.fault reached) rfl
      | ok text => exact @run_bind_of_ok tree tree _ _ _ _ text rfl

end Command

/-! ## Shutdowns -/

namespace Capture.Registry

variable {settings : ProfilerSettings} {log : EventLog}

theorem run_writeLog (asked : settings.logPath = some path)
    (leads : tree.spot? path = some (directory, name)) {text : List Char}
    (encoded : (Log.encode .standard log).toText = .ok text) :
    (writeLog FileTree.access settings log).run tree =
      (.ok (), tree.putFile directory name (.text text)) := by
  rw [Log.Encoding.toText] at encoded
  obtain ⟨_, complete, rfl⟩ := map_eq_ok_iff.1 encoded
  rw [writeLog, asked]
  dsimp only
  rw [FileTree.run_bind_of_run (Log.run_save leads _ _), complete]
  rfl

theorem run_writeReport (asked : settings.reportPath = some path)
    (leads : tree.spot? path = some (directory, name)) :
    (writeReport FileTree.access settings log).run tree =
      match reportText log settings.sections with
      | .error stop => (Stop.restate .run (.error stop), tree)
      | .ok report => (.ok (), tree.putFile directory name (.text report.toList)) := by
  rw [writeReport, asked]
  dsimp only
  cases reportText log settings.sections with
  | error stop => cases stop <;> rfl
  | ok report =>
      rw [Stop.restate, FileTree.run_bind_of_run (FileTree.run_write leads _)]
      rfl

/-- The tree that a shutdown leaves once the log is saved: a report that could be rendered is put
at its spot. -/
def leftBehind (saved : FileTree) (spot : Nat × String) :
    Except (Stop RunError) String → FileTree
  | .error _ => saved
  | .ok report => saved.putFile spot.1 spot.2 (.text report.toList)

/-- A shutdown that can write both its files ends as the rendering of the report does. -/
theorem run_finish {registry : Registry} {logPath reportPath : String}
    {logSpot reportSpot : Nat × String} {text : List Char}
    (logAsked : registry.settings.logPath = some logPath)
    (reportAsked : registry.settings.reportPath = some reportPath)
    (logLeads : tree.spot? logPath = some logSpot)
    (reportLeads : (tree.putFile logSpot.1 logSpot.2 (.text text)).spot? reportPath = some reportSpot)
    (encoded : (Log.encode .standard registry.takeLog.2).toText = .ok text)
    {rendered : Except (Stop RunError) String}
    (renders : reportText registry.takeLog.2 registry.settings.sections = rendered) :
    (registry.finish FileTree.access).run tree =
      ((registry.takeLog.1, (Stop.restate .run rendered).map fun _ => registry.takeLog.2),
        leftBehind (tree.putFile logSpot.1 logSpot.2 (.text text)) reportSpot rendered) := by
  have saved := run_writeLog logAsked logLeads encoded
  have reported := @run_writeReport (tree.putFile logSpot.1 logSpot.2 (.text text)) reportPath
    reportSpot.1 reportSpot.2 registry.settings registry.takeLog.2 reportAsked reportLeads
  rw [renders] at reported
  rw [finish]
  dsimp only [takeLog] at saved reported ⊢
  rw [FileTree.run_bind_of_run saved]
  cases rendered with
  | error stop =>
      refine (FileTree.run_bind_of_run reported).trans ?_
      cases stop <;> rfl
  | ok report => exact FileTree.run_bind_of_run reported

section LeftBehind

variable {saved : FileTree} {logSpot reportSpot : Nat × String} {reportPath : String}
  (leads : saved.spot? reportPath = some reportSpot)

include leads

theorem spot?_leftBehind (rendered : Except (Stop RunError) String) (path : String) :
    (leftBehind saved reportSpot rendered).spot? path = saved.spot? path := by
  cases rendered with
  | error stop => rfl
  | ok report => exact FileTree.spot?_putFile (FileTree.node?_of_spot leads) _ path

/-- The report that could be rendered is in its file. -/
theorem read_leftBehind (report : String) :
    (leftBehind saved reportSpot (.ok report)).read reportPath = .ok (.text report.toList) :=
  FileTree.read_of_spot ((spot?_leftBehind leads _ reportPath).trans leads)
    (saved.node?_putFile_self reportSpot.1 reportSpot.2 _)

omit leads in
/-- A report leaves what is at other spots alone. -/
theorem node?_leftBehind (rendered : Except (Stop RunError) String) (apart : logSpot ≠ reportSpot) :
    (leftBehind saved reportSpot rendered).node? logSpot.1 logSpot.2 =
      saved.node? logSpot.1 logSpot.2 := by
  cases rendered with
  | error stop => rfl
  | ok report => exact FileTree.node?_putFile_of_ne _ apart

end LeftBehind

/-! ## Both ways of reporting -/

/-- The settings ask for the event log and the text report, and each goes to a file of its own
that can be written. -/
structure WritesBoth (settings : ProfilerSettings) (tree : FileTree) (logPath reportPath : String) :
    Prop where
  logAsked : settings.logPath = some logPath
  reportAsked : settings.reportPath = some reportPath
  logWritable : tree.Writable logPath
  reportWritable : tree.Writable reportPath
  /-- In one file the report would take the place of the log. -/
  apart : tree.spot? logPath ≠ tree.spot? reportPath

/-- A shutdown that took a log and a report of the log's file end in the same way. -/
inductive EndAlike (log : EventLog) (reportFile : Except SystemError FileContent) :
    Except (Stop ShutdownError) EventLog → Except (Stop Command.Failure) String → Prop where
  | rendered (text : String) (written : reportFile = .ok (.text text.toList)) :
      EndAlike log reportFile (.ok log) (.ok text)
  | withoutFrames :
      EndAlike log reportFile (refuse (.run .noFrameThread))
        (refuse (Command.analysisFailure .noFrameThread))
  | faulted (fault : Fault) :
      EndAlike log reportFile (.error (.fault fault)) (.error (.fault fault))

theorem endAlike {rendered : Except (Stop RunError) String}
    {reportFile : Except SystemError FileContent}
    (written : ∀ report, rendered = .ok report → reportFile = .ok (.text report.toList)) :
    EndAlike log reportFile ((Stop.restate .run rendered).map fun _ => log)
      (Stop.restate Command.analysisFailure rendered) := by
  rcases rendered with (fault | ⟨⟩) | report
  · exact .faulted fault
  · exact .withoutFrames
  · exact .rendered report (written report rfl)

theorem EndAlike.noFrameThread_iff {reportFile : Except SystemError FileContent}
    {outcome : Except (Stop ShutdownError) EventLog} {answer : Except (Stop Command.Failure) String}
    (alike : EndAlike log reportFile outcome answer) :
    outcome = refuse (.run .noFrameThread) ↔
      answer = refuse (Command.analysisFailure .noFrameThread) := by
  cases alike with
  | rendered text _ => constructor <;> intro impossible <;> cases impossible
  | withoutFrames => exact ⟨fun _ => rfl, fun _ => rfl⟩
  | faulted fault => constructor <;> intro impossible <;> cases impossible

/-- After a shutdown the file of the event log holds the log that was taken, whatever became of
the report; and a report of that file ends as the shutdown did, with the text that the shutdown
wrote to the file of the report. -/
theorem finish_endsLike_report {calibration : Calibration} {registry : Registry}
    (reached : Reached settings calibration registry)
    (named : ∀ event ∈ registry.threads.allEvents, Text.isWord event.name.toList = true)
    (inTime : Log.InTime registry.threads.allEvents)
    (few : (registry.threads.allEvents.map (·.name)).eraseDups.length ≤ Width.bound 32)
    {logPath reportPath : String} (writes : WritesBoth settings tree logPath reportPath)
    (now : String) :
    ∃ left outcome answer after,
      (registry.finish FileTree.access).run tree = ((left, outcome), after) ∧
      (Command.report FileTree.access ⟨logPath, settings.sections, none, true⟩ now).run.run after =
        (answer, after) ∧
      (Log.load FileTree.access logPath).run after = (.ok registry.takeLog.2, after) ∧
      EndAlike registry.takeLog.2 (after.read reportPath) outcome answer ∧
      (outcome = refuse (.run .noFrameThread) ↔
        answer = refuse (Command.analysisFailure .noFrameThread)) := by
  obtain ⟨text, encoded, decoded⟩ := reached.decode_log named inTime few
  obtain ⟨logSpot, logLeads⟩ := writes.logWritable.exists_spot
  obtain ⟨reportSpot, reportLeads⟩ := writes.reportWritable.exists_spot
  obtain rfl := reached.settings_eq
  let saved := tree.putFile logSpot.1 logSpot.2 (.text text)
  have ledThere (path : String) : saved.spot? path = tree.spot? path :=
    FileTree.spot?_putFile (FileTree.node?_of_spot logLeads) _ path
  have reportLeadsThere := (ledThere reportPath).trans reportLeads
  let rendered := reportText registry.takeLog.2 registry.settings.sections
  let after := leftBehind saved reportSpot rendered
  have finished := run_finish writes.logAsked writes.reportAsked logLeads reportLeadsThere encoded
    (Eq.refl rendered)
  have loads : (Log.load FileTree.access logPath).run after = (.ok registry.takeLog.2, after) := by
    have leads : after.spot? logPath = some logSpot :=
      (spot?_leftBehind reportLeadsThere rendered logPath).trans ((ledThere logPath).trans logLeads)
    have apart : logSpot ≠ reportSpot := fun same =>
      writes.apart (by rw [logLeads, reportLeads, same])
    have holds : after.node? logSpot.1 logSpot.2 = some (.file (.text text)) :=
      (node?_leftBehind rendered apart).trans (tree.node?_putFile_self logSpot.1 logSpot.2 _)
    exact Log.run_load_text leads holds decoded
  have alike : EndAlike registry.takeLog.2 (after.read reportPath)
      ((Stop.restate .run rendered).map fun _ => registry.takeLog.2)
      (Stop.restate Command.analysisFailure rendered) :=
    endAlike fun report isReport => by
      rw [show after = leftBehind saved reportSpot (.ok report) from
        congrArg (leftBehind saved reportSpot) isReport]
      exact read_leftBehind reportLeadsThere report
  exact ⟨_, _, _, after, finished, Command.run_report loads _ now, loads, alike,
    alike.noFrameThread_iff⟩

/-- A frame with a call inside it. -/
def drawing : Session :=
  (((((Session.start false).push "frame" true ⟨0, 0⟩).push "draw" false ⟨10, 4⟩).pop ⟨1⟩
    ⟨20, 9⟩).pop ⟨0⟩ ⟨30, 12⟩)

/-- A call on a thread without frames. -/
def loading : Session := ((Session.start false).push "load" false ⟨5, 0⟩).pop ⟨0⟩ ⟨25, 3⟩

/-- A registry that writes both its files, after the hand-offs of two threads. The report is to have
all sections but that of the functions. -/
def twoThreads : Registry :=
  ((Registry.new { ProfilerSettings.standard with
      logPath := some "run.log"
      reportPath := some "report.txt"
      sections := 7 } ⟨1000, 40, 60⟩).acceptHandOff
    drawing.recorder.flush.2).acceptHandOff loading.recorder.flush.2

theorem finish_endsLike_report_twoThreads : ∃ left text after,
    (twoThreads.finish FileTree.access).run .empty = ((left, .ok twoThreads.takeLog.2), after) ∧
      (Command.report FileTree.access ⟨"run.log", 7, none, true⟩ "").run.run after =
        (.ok text, after) ∧
      (Log.load FileTree.access "run.log").run after = (.ok twoThreads.takeLog.2, after) ∧
      after.read "report.txt" = .ok (.text text.toList) := by
  have drawn : Session.Reached Session.IsOpen false drawing :=
    .pop (.pop (.push (.push .start "frame" true _) "draw" false _) (by decide) _) (by decide) _
  have loaded : Session.Reached Session.IsOpen false loading :=
    .pop (.push .start "load" false _) (by decide) _
  have reached : Reached twoThreads.settings ⟨1000, 40, 60⟩ twoThreads :=
    .handOff (.handOff .new drawn) loaded
  have writes : WritesBoth twoThreads.settings .empty "run.log" "report.txt" :=
    ⟨rfl, rfl, ⟨[], _, rfl⟩, ⟨[], _, rfl⟩, by decide⟩
  obtain ⟨left, outcome, answer, after, finished, reported, loads, alike, _⟩ :=
    finish_endsLike_report reached (by decide) (by decide) (by decide) writes ""
  have succeeds : ((twoThreads.finish FileTree.access).run .empty).1.2.isOk = true := by
    decide +kernel
  rw [finished] at succeeds
  cases alike with
  | rendered text written => exact ⟨left, text, after, finished, reported, loads, written⟩
  | withoutFrames => cases succeeds
  | faulted fault => cases succeeds

end Capture.Registry

end CallProfiler
