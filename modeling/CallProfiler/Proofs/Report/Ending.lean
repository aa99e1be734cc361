import CallProfiler.Proofs.Analysis.Envelope
import CallProfiler.Proofs.Capture.Shutdown
import CallProfiler.Proofs.Report.Rows

/-!
# How the report of a file ends

A file of any bytes is decoded, analysed and rendered into a report, or is refused on the way.
Two things stand against that. Times and calls are added up within machine widths, so the
totals of a thread have to fit them (`ThreadFits`), and a column is no wider than a number of
16 bits says, so no name may take that many bytes. There is no other way to fail.
-/

namespace CallProfiler.Report

open CallProfiler.Text

/-! ## Rows -/

section Rows

variable {label : String} {tree : CallTree}

theorem overflows_treeRows (label : String) (tree : CallTree) :
    Checked.Overflows (treeRows label tree) := by
  have ofNode (name : String) (node : Node) (children : Forest Node) :
      Checked.Overflows (Row.ofNode name node children) :=
    (Checked.Overflows.sum _ _).bind fun _ => .ok _
  refine (ofNode label tree.root tree.children).bind fun root => Checked.Overflows.bind ?_
    fun nodes => .ok _
  intro reached stopped
  obtain ⟨entry, _, failed⟩ := exists_of_mapM_eq_error stopped
  exact ofNode entry.1.name entry.1 entry.2 reached failed

/-- The rows of a tree that fits come to be. -/
theorem exists_treeRows (fits : tree.Fits) : ∃ rows, treeRows label tree = .ok rows := by
  have ofNode (name : String) (node : Node) {children : Forest Node}
      (time : children.time < Width.bound 64) : ∃ row, Row.ofNode name node children = .ok row :=
    exists_ok_bind (Forest.realtime_of_time time) ⟨_, rfl⟩
  obtain ⟨root, first⟩ := ofNode label tree.root
    (Nat.lt_of_le_of_lt (Forest.time_le_total tree.children) fits.children.realtime)
  refine exists_ok_bind first ?_
  cases others : tree.children.entries.mapM fun entry =>
    Row.ofNode entry.1.name entry.1 entry.2 with
  | ok nodes => exact ⟨_, rfl⟩
  | error reached =>
      obtain ⟨entry, member, failed⟩ := exists_of_mapM_eq_error others
      obtain ⟨row, made⟩ := ofNode entry.1.name entry.1 (fits.children.time_lt_of_mem member)
      rw [made] at failed
      cases failed

/-- The rows of a section fail only by a sum, and only if a tree does not fit. -/
theorem Section.overflow_of_rows {choice : Section} {thread : ThreadProfile} {reached : Fault}
    (stopped : choice.rows thread = .error reached) :
    reached = .addOverflow ∧ ¬ (thread.full.Fits ∧ thread.collapsed.Fits) := by
  have failed : ∃ tree : CallTree, (tree = thread.full ∨ tree = thread.collapsed) ∧
      treeRows (threadLabel thread.id) tree = .error reached := by
    cases choice with
    | threadRoots =>
        rcases bind_eq_error_iff.1 stopped with failed | ⟨_, _, impossible⟩
        · exact ⟨thread.full, .inl rfl, failed⟩
        · cases impossible
    | detailed => exact ⟨thread.full, .inl rfl, stopped⟩
    | noRecursion => exact ⟨thread.collapsed, .inr rfl, stopped⟩
    | functions => cases stopped
  obtain ⟨tree, isTree, failed⟩ := failed
  refine ⟨overflows_treeRows _ _ reached failed, fun ⟨full, collapsed⟩ => ?_⟩
  have fits : tree.Fits := by
    rcases isTree with rfl | rfl
    · exact full
    · exact collapsed
  obtain ⟨rows, made⟩ := @exists_treeRows (threadLabel thread.id) tree fits
  rw [made] at failed
  cases failed

/-- A name column is too wide only because of a row. -/
theorem exists_wide_row {rows : List Row} {reached : Fault}
    (stopped : columnWidth (nameWidth rows) = .error reached) :
    reached = .widthOutOfRange ∧ ∃ row ∈ rows, Width.bound 16 ≤ row.size := by
  rw [columnWidth] at stopped
  split at stopped
  · cases stopped
  · rename_i wide
    cases stopped
    refine ⟨rfl, ?_⟩
    have least : 4 < Width.bound 16 := by decide
    rw [nameWidth, List.foldl_max] at wide
    cases widest : (rows.map fun row => (String.ofList row.name).utf8ByteSize).max? with
    | none =>
        rw [widest, Option.getD_none, Nat.max_self] at wide
        exact absurd least wide
    | some size =>
        obtain ⟨row, member, rfl⟩ := List.mem_map.1 (List.max?_mem widest)
        rw [widest, Option.getD_some, Nat.max_lt, not_and] at wide
        exact ⟨row, member, Nat.le_of_not_lt (wide least)⟩

end Rows

/-! ## Reports -/

/-- The ways in which rendering fails: at a sum of a thread whose trees do not fit, or at a row
that is wider than any column. -/
theorem fault_of_render {run : RunProfile} {mask : UInt32} {reached : Fault}
    (stopped : render run mask = .error reached) :
    (reached = .addOverflow ∧
        ∃ thread ∈ run.threads, ¬ (thread.full.Fits ∧ thread.collapsed.Fits)) ∨
      (reached = .widthOutOfRange ∧ ∃ thread ∈ run.threads, ∃ choice rows,
        Section.rows choice thread = .ok rows ∧ ∃ row ∈ rows, Width.bound 16 ≤ row.size) := by
  obtain written | ⟨_, _, impossible⟩ := bind_eq_error_iff.1 stopped
  · obtain sections | ⟨_, _, impossible⟩ := bind_eq_error_iff.1 written
    · obtain ⟨choice, _, failed⟩ := exists_of_mapM_eq_error sections
      obtain grouping | ⟨groups, grouped, failed⟩ := bind_eq_error_iff.1 failed
      · obtain ⟨thread, member, failed⟩ := exists_of_mapM_eq_error grouping
        obtain ⟨overflow, unfit⟩ := Section.overflow_of_rows failed
        exact .inl ⟨overflow, thread, member, unfit⟩
      · obtain width | ⟨_, _, impossible⟩ := bind_eq_error_iff.1 failed
        · obtain ⟨outOfRange, row, member, wide⟩ := exists_wide_row width
          obtain ⟨rows, inGroups, inRows⟩ := List.mem_flatten.1 member
          obtain ⟨thread, inRun, made⟩ := of_mem_mapM grouped inGroups
          exact .inr ⟨outOfRange, thread, inRun, choice, rows, made, row, inRows, wide⟩
        · cases impossible
    · cases impossible
  · cases impossible

/-- Every profile of a run is that of an entry of its log. -/
theorem exists_entry_of_mem_threads {log : EventLog} {mitigate : Bool} {run : RunProfile}
    (done : analyzeLog log mitigate = .ok run) {thread : ThreadProfile}
    (member : thread ∈ run.threads) : ∃ entry ∈ log.threads.entries,
      analyzeThread entry.1 entry.2 log.calibration mitigate = .ok thread := by
  cases outcome : analyzeThreads log.calibration mitigate log.threads.entries with
  | error reached =>
      rw [analyzeLog, outcome] at done
      cases done
  | ok result =>
      obtain ⟨profiles, failures⟩ := result
      rw [analyzeLog_of_analyzeThreads outcome] at done
      split at done
      · cases done
      · cases done
        have among : thread ∈ profiles := by
          rcases List.mem_append.1 member with framed | other
          · exact List.mem_of_mem_filter framed
          · exact List.mem_of_mem_filter other
        obtain ⟨events, held, analysed⟩ := (mem_profiles_iff outcome thread).1 among
        exact ⟨_, ThreadTable.events?_eq_some_iff.1 held, analysed⟩

/-- Why a file gives no report. -/
inductive Refusal where
  | undecodable (error : Log.DecodeError)
  | unanalysable (error : RunError)
deriving DecidableEq, Repr

/-- The report of a log. -/
def ofLog (log : EventLog) (mitigate : Bool) (mask : UInt32) : Except (Stop Refusal) String := do
  let run ← Stop.restate Refusal.unanalysable (analyzeLog log mitigate)
  Stop.ofFault (render run mask)

theorem ofLog_of_run {log : EventLog} {mitigate : Bool} {mask : UInt32} {run : RunProfile}
    (analysed : analyzeLog log mitigate = .ok run) :
    ofLog log mitigate mask = Stop.ofFault (render run mask) := by
  rw [ofLog, analysed]
  rfl

/-- The report of a file, from its bytes. -/
def ofBytes (bytes : List UInt8) (mitigate : Bool) (mask : UInt32) :
    Except (Stop Refusal) String := do
  let log ← (Log.decode (Log.linesOfBytes bytes)).mapError fun error =>
    Stop.refused (Refusal.undecodable error)
  ofLog log mitigate mask

/-- The names of a log leave room for what stands around them in a column. -/
def NamesFit (log : EventLog) : Prop :=
  ∀ event ∈ log.threads.allEvents, event.name.utf8ByteSize + Row.frill < Width.bound 16

/-- How the report of a log ends: in a text or a refusal, or in one of two faults, each for what
the log holds. -/
theorem ofLog_ends (log : EventLog) (mitigate : Bool) (mask : UInt32) :
    Stop.Completes (ofLog log mitigate mask) ∨
      (ofLog log mitigate mask = .error (.fault .addOverflow) ∧
        ∃ entry ∈ log.threads.entries, ¬ ThreadFits entry.2 log.calibration mitigate) ∨
      (ofLog log mitigate mask = .error (.fault .widthOutOfRange) ∧ ¬ NamesFit log) := by
  by_cases completes : Stop.Completes (ofLog log mitigate mask)
  · exact .inl completes
  · obtain ⟨reached, stopped⟩ : ∃ reached, ofLog log mitigate mask = .error (.fault reached) := by
      by_contra none
      exact completes fun reached stopped => none ⟨reached, stopped⟩
    refine .inr ?_
    rw [stopped]
    rcases analysis : analyzeLog log mitigate with (other | reason) | run
    · rw [ofLog, analysis] at stopped
      cases stopped
      obtain ⟨rfl, unfit⟩ := overflow_of_analyzeLog analysis
      exact .inl ⟨rfl, unfit⟩
    · rw [ofLog, analysis] at stopped
      cases stopped
    · rw [ofLog_of_run analysis] at stopped
      have failed := Stop.ofFault_eq_fault_iff.1 stopped
      rcases fault_of_render failed with ⟨rfl, thread, member, unfit⟩ |
        ⟨rfl, thread, member, choice, rows, made, row, inRows, wide⟩
      · obtain ⟨entry, inLog, analysed⟩ := exists_entry_of_mem_threads analysis member
        exact .inl ⟨rfl, entry, inLog, fun fits => unfit (fits.fits_profile analysed)⟩
      · obtain ⟨entry, inLog, analysed⟩ := exists_entry_of_mem_threads analysis member
        obtain ⟨event, inEvents, long⟩ :=
          exists_event_of_shows (Section.shows_rows analysed made row inRows) wide
        refine .inr ⟨rfl, fun fits => ?_⟩
        have short := fits event (List.mem_flatMap.2 ⟨entry, inLog, inEvents⟩)
        omega

section Bytes

variable {bytes : List UInt8} {mitigate : Bool} {mask : UInt32}

theorem ofBytes_of_undecodable {problem : Log.DecodeError}
    (decoded : Log.decode (Log.linesOfBytes bytes) = .error problem) :
    ofBytes bytes mitigate mask = refuse (.undecodable problem) := by
  rw [ofBytes, decoded]
  rfl

theorem ofBytes_of_decoded {log : EventLog}
    (decoded : Log.decode (Log.linesOfBytes bytes) = .ok log) :
    ofBytes bytes mitigate mask = ofLog log mitigate mask := by
  rw [ofBytes, decoded]
  rfl

end Bytes

/-- How a file of any bytes ends: in a report or a refusal, or in one of two faults, each for
what the file holds. -/
theorem ofBytes_ends (bytes : List UInt8) (mitigate : Bool) (mask : UInt32) :
    Stop.Completes (ofBytes bytes mitigate mask) ∨
      ∃ log, Log.decode (Log.linesOfBytes bytes) = .ok log ∧
        ((ofBytes bytes mitigate mask = .error (.fault .addOverflow) ∧
            ∃ entry ∈ log.threads.entries, ¬ ThreadFits entry.2 log.calibration mitigate) ∨
          (ofBytes bytes mitigate mask = .error (.fault .widthOutOfRange) ∧ ¬ NamesFit log)) := by
  cases decoded : Log.decode (Log.linesOfBytes bytes) with
  | error problem =>
      rw [ofBytes_of_undecodable decoded]
      exact .inl nofun
  | ok log =>
      rw [ofBytes_of_decoded decoded]
      exact (ofLog_ends log mitigate mask).imp id fun faults => ⟨log, rfl, faults⟩

/-- A file whose second thread makes two calls that last 2^63 nanoseconds each. -/
def twoLongCalls : List UInt8 := String.toUTF8 (
  "P: 0 0 0 0 0\n" ++
  "T: 0 0\n" ++
  "E: 1 0 frame 0 100\n" ++
  "T: 1 0\n" ++
  "E: 0 0 io 0 9223372036854775808\n" ++
  "E: 0 0 io 0 9223372036854775808\n") |>.toList

/-- Together these calls last longer than a number of 64 bits tells, mitigated or not, and no
report of the other thread is to be had. -/
theorem ofBytes_twoLongCalls :
    ofBytes twoLongCalls true Section.allBits = .error (.fault .addOverflow) ∧
      ofBytes twoLongCalls false Section.allBits = .error (.fault .addOverflow) := by
  decide +kernel

/-! ## The report command -/

section Command

variable {path : String} {tree : FileTree} {bytes : List UInt8} {mitigate : Bool} {mask : UInt32}

/-- The words in which the report command passes a refusal on. -/
def Refusal.failure (path : String) : Refusal → Command.Failure
  | .undecodable error => Command.readFailure path (.decode error)
  | .unanalysable error => Command.analysisFailure error

/-- The report command ends as the report of a log does, once it has read one. -/
theorem run_report_of_log {log : EventLog}
    (loads : (Log.load FileTree.access path).run tree = (.ok log, tree)) (now : String) :
    (Command.report FileTree.access ⟨path, mask, none, mitigate⟩ now).run.run tree =
      (Stop.restate (Refusal.failure path) (ofLog log mitigate mask), tree) := by
  rw [Command.report, Command.run_bind_of_ok (Command.run_readLog loads)]
  rcases analysis : analyzeLog log mitigate with (reached | reason) | run
  · rw [ofLog, analysis]
    exact Command.run_bind_of_error rfl
  · rw [ofLog, analysis]
    exact Command.run_bind_of_error rfl
  · rw [ofLog_of_run analysis]
    refine (@Command.run_bind_of_ok tree tree _ _ _ _ run rfl).trans ?_
    cases render run mask with
    | error reached => exact @Command.run_bind_of_error tree tree _ _ _ _ (.fault reached) rfl
    | ok text => exact @Command.run_bind_of_ok tree tree _ _ _ _ text rfl

/-- The report command ends as the report of the file's bytes does. No other proof needs this: it
is what carries everything said of `ofBytes` over to the command. -/
theorem run_report_of_bytes (holds : tree.read path = .ok (.bytes bytes)) (now : String) :
    (Command.report FileTree.access ⟨path, mask, none, mitigate⟩ now).run.run tree =
      (Stop.restate (Refusal.failure path) (ofBytes bytes mitigate mask), tree) := by
  have loads := Log.run_load holds
  rw [FileContent.lines] at loads
  cases decoded : Log.decode (Log.linesOfBytes bytes) with
  | error problem =>
      rw [decoded] at loads
      have lifted : (ExceptT.lift (Log.load FileTree.access path) :
          Command.Attempt (StateM FileTree) _).run.run tree =
          (.ok (.error (.decode problem)), tree) := by
        rw [ExceptT.run_lift, StateT.run_map, loads]
        rfl
      have refused : (Command.readLog FileTree.access path).run.run tree =
          (.error (.refused (Command.readFailure path (.decode problem))), tree) := by
        rw [Command.readLog, Command.run_bind_of_ok lifted]
        rfl
      rw [Command.report, Command.run_bind_of_error refused, ofBytes_of_undecodable decoded]
      rfl
  | ok log =>
      rw [decoded] at loads
      rw [run_report_of_log loads, ofBytes_of_decoded decoded]

end Command

end CallProfiler.Report
