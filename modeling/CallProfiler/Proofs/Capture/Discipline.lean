import CallProfiler.Proofs.Capture.Session

/-!
# Stack discipline

Closing an interval ought to succeed just where it is the innermost open one. A recorder
compares no more than depths, though: `disciplined_iff` says that as long as only open intervals
are closed this finds every violation, and that of the closed ones just those pass that were
opened as deep as the innermost open interval.
-/

namespace CallProfiler.Capture

namespace Session

/-- The innermost open interval. -/
def innermost? (session : Session) : Option Handle := session.openNow.head?

/-- The depth at which an interval was opened. -/
def level? (session : Session) (handle : Handle) : Option Int :=
  session.recorder.records[handle.slot]?.map (·.level)

/-- An attempt to close the interval succeeds just where it is the innermost open one, and is
otherwise reported as a violation that poisons the recorder. -/
def Disciplined (session : Session) (handle : Handle) : Prop :=
  ∀ now, ((session.recorder.pop handle now).2 = .ok () ↔ session.innermost? = some handle) ∧
    (session.innermost? ≠ some handle →
      (session.recorder.pop handle now).1.poisoned = true ∧
        ∃ diagnostic,
          (session.recorder.pop handle now).2 = refuse (.stackMismatch diagnostic))

/-- The open intervals lie in each other, one level apart. -/
def Nested (records : List Record) : List Handle → Prop
  | [] => True
  | handle :: outer =>
    records[handle.slot]?.map (·.level) = some (outer.length : Int) ∧ Nested records outer

/-- What is true of a session whose recorder found no violation, while only open intervals are
closed. -/
structure Sound (session : Session) : Prop where
  depth : session.recorder.depth = session.openNow.length
  fits : Width.fitsSigned 32 session.recorder.depth = true
  levels : ∀ record ∈ session.recorder.records, 0 ≤ record.level
  given : ∀ handle ∈ session.given, handle.slot < session.recorder.records.length
  openGiven : ∀ handle ∈ session.openNow, handle ∈ session.given
  nested : Nested session.recorder.records session.openNow

theorem Sound.depth_nonneg {session : Session} (sound : session.Sound) :
    0 ≤ session.recorder.depth := by
  rw [sound.depth]
  exact Int.natCast_nonneg _

/-! ## Levels of open intervals -/

theorem Nested.of_levels {before after : List Record} {handles : List Handle}
    (nested : Nested before handles)
    (same : ∀ handle ∈ handles,
      after[handle.slot]?.map (·.level) = before[handle.slot]?.map (·.level)) :
    Nested after handles := by
  induction handles with
  | nil => trivial
  | cons handle outer inductionHypothesis =>
      refine ⟨(same handle List.mem_cons_self).trans nested.1, ?_⟩
      exact inductionHypothesis nested.2 fun other member =>
        same other (List.mem_cons_of_mem handle member)

/-- An open interval is less deep than there are open ones. -/
theorem Nested.level_lt {records : List Record} {handles : List Handle}
    (nested : Nested records handles) {handle : Handle} (member : handle ∈ handles) :
    ∃ level : Nat, records[handle.slot]?.map (·.level) = some (level : Int) ∧
      level < handles.length := by
  induction handles with
  | nil => cases member
  | cons head outer inductionHypothesis =>
      rcases List.mem_cons.1 member with rfl | inOuter
      · exact ⟨outer.length, nested.1, Nat.lt_succ_self _⟩
      · obtain ⟨level, found, bound⟩ := inductionHypothesis nested.2 inOuter
        exact ⟨level, found, Nat.lt_succ_of_lt bound⟩

/-- Only the innermost open interval is at the last level. -/
theorem Nested.head_of_level {records : List Record} {handles : List Handle}
    (nested : Nested records handles) {handle : Handle} (member : handle ∈ handles)
    (level : records[handle.slot]?.map (·.level) = some ((handles.length : Int) - 1)) :
    handles.head? = some handle := by
  cases handles with
  | nil => cases member
  | cons head outer =>
      rcases List.mem_cons.1 member with rfl | inOuter
      · rfl
      · obtain ⟨depth, found, bound⟩ := nested.2.level_lt inOuter
        rw [found, List.length_cons] at level
        simp only [Option.some.injEq] at level
        omega

theorem Sound.level_innermost {session : Session} (sound : session.Sound) {handle : Handle}
    (innermost : session.innermost? = some handle) :
    session.level? handle = some ((session.openNow.length : Int) - 1) := by
  have nested := sound.nested
  rw [innermost?] at innermost
  match handles : session.openNow, innermost with
  | _ :: outer, rfl =>
      rw [handles] at nested
      rw [level?, nested.1, List.length_cons]
      simp

/-! ## Sessions stay sound -/

theorem start_sound (processClock : Bool) : (start processClock).Sound where
  depth := rfl
  fits := rfl
  levels := by simp [start]
  given := by simp [start]
  openGiven := by simp [start]
  nested := trivial

section Steps

open Recorder (Opens Closes)

variable {session : Session} {next : Recorder} {handle : Handle} {now : Reading}

/-- New records leave those there were in their places. -/
theorem Sound.recorded (sound : session.Sound) (more : List Record)
    (records : next.records = session.recorder.records ++ more)
    (atLeast : ∀ record ∈ more, 0 ≤ record.level) :
    (∀ record ∈ next.records, 0 ≤ record.level) ∧
      (∀ handle ∈ session.given, handle.slot < next.records.length) ∧
      Nested next.records session.openNow := by
  rw [records]
  refine ⟨?_, ?_, ?_⟩
  · intro record member
    exact (List.mem_append.1 member).elim (sound.levels record) (atLeast record)
  · intro handle member
    rw [List.length_append]
    exact Nat.lt_add_right _ (sound.given handle member)
  · refine sound.nested.of_levels fun handle isOpen => ?_
    rw [List.getElem?_append_left (sound.given handle (sound.openGiven handle isOpen))]

theorem Sound.afterPush (sound : session.Sound) {name : String} {frame : Bool}
    {outcome : Except Fault Handle}
    (opens : Opens session.recorder (session.recorder.opening name frame now) next outcome) :
    (session.afterPush next outcome).Sound := by
  have nonnegative := sound.depth_nonneg
  cases opens with
  | opened records depth fits _ =>
      obtain ⟨levels, given, nested⟩ :=
        sound.recorded [session.recorder.opening name frame now] records
          (by simpa [Recorder.opening] using nonnegative)
      constructor
      case depth =>
        show next.depth = ((_ :: session.openNow).length : Nat)
        rw [depth, sound.depth, List.length_cons]
        rfl
      case fits => exact fits
      case levels => exact levels
      case given =>
        intro other member
        rcases List.mem_cons.1 member with rfl | older
        · show session.recorder.records.length < next.records.length
          rw [records, List.length_append]
          exact Nat.lt_succ_self _
        · exact given other older
      case openGiven =>
        intro other member
        rcases List.mem_cons.1 member with rfl | older
        · exact List.mem_cons_self
        · exact List.mem_cons_of_mem _ (sound.openGiven other older)
      case nested =>
        refine ⟨?_, nested⟩
        show next.records[session.recorder.records.length]?.map (·.level) = _
        simp [records, Recorder.opening, sound.depth]
  | failed _ records depth _ =>
      have recorded : ∃ more, next.records = session.recorder.records ++ more ∧
          ∀ record ∈ more, 0 ≤ record.level := by
        rcases records with same | one
        · exact ⟨[], by simpa using same, by simp⟩
        · exact ⟨_, one, by simpa [Recorder.opening] using nonnegative⟩
      obtain ⟨more, records, atLeast⟩ := recorded
      obtain ⟨levels, given, nested⟩ := sound.recorded more records atLeast
      exact ⟨depth.trans sound.depth, depth ▸ sound.fits, levels, given, sound.openGiven, nested⟩

/-- Closing the innermost open interval leaves the next one innermost. -/
theorem Sound.closed (sound : session.Sound) (isOpen : session.IsOpen handle) {record : Record}
    (found : session.recorder.records[handle.slot]? = some record)
    (innermost : record.level = session.recorder.depth - 1)
    (records : next.records = session.recorder.records.modify handle.slot (Record.close now))
    (depth : next.depth = session.recorder.depth - 1)
    (fits : Width.fitsSigned 32 next.depth = true) :
    Sound { session with recorder := next, openNow := session.openNow.erase handle } := by
  have level : session.recorder.records[handle.slot]?.map (·.level)
      = some ((session.openNow.length : Int) - 1) := by
    rw [found, Option.map_some, innermost, sound.depth]
  have head := sound.nested.head_of_level isOpen level
  obtain ⟨outer, isHead⟩ := List.head?_eq_some_iff.1 head
  have nested := sound.nested
  rw [isHead] at nested
  have sameLevels (index : Nat) : next.records[index]?.map (·.level)
      = session.recorder.records[index]?.map (·.level) := by
    rw [records, ← List.getElem?_map, map_close fun _ => rfl, List.getElem?_map]
  constructor
  case depth =>
    show next.depth = _
    rw [depth, sound.depth, isHead, List.erase_cons_head, List.length_cons]
    simp
  case fits => exact fits
  case levels =>
    show ∀ record ∈ next.records, 0 ≤ record.level
    rw [records]
    exact forall_close (fun _ nonnegative => nonnegative) sound.levels handle.slot
  case given =>
    intro other member
    show other.slot < next.records.length
    rw [records, List.length_modify]
    exact sound.given other member
  case openGiven =>
    exact fun other member => sound.openGiven other (List.mem_of_mem_erase member)
  case nested =>
    show Nested next.records (session.openNow.erase handle)
    rw [isHead, List.erase_cons_head]
    exact nested.2.of_levels fun other _ => sameLevels other.slot

theorem Sound.afterPop (sound : session.Sound) (isOpen : session.IsOpen handle)
    {outcome : Except (Stop CaptureError) Unit}
    (closes : Closes session.recorder handle now next outcome)
    (healthy : next.poisoned = false) : (session.afterPop next handle outcome).Sound := by
  cases closes with
  | unknown => exact sound
  | uncounted => exact sound
  | violated _ _ _ _ _ poisoned => rw [poisoned] at healthy; cases healthy
  | closed found innermost records depth fits _ =>
      exact sound.closed isOpen found innermost records depth fits

end Steps

/-! ## What a recorder accepts -/

/-- While only open intervals are closed, a recorder without violations is sound. -/
theorem Reached.sound {processClock : Bool} {session : Session}
    (reached : Reached IsOpen processClock session) :
    session.recorder.Live ∧ (session.recorder.poisoned = false → session.Sound) := by
  apply reached.invariant (start_sound processClock)
  · intro session name frame now next outcome sound opens _
    exact sound.afterPush opens
  · intro session handle now next outcome sound isOpen closes healthy _
    exact sound.afterPop isOpen closes healthy

/-- What is not negative may be counted down. -/
theorem fitsSigned_sub_one {width : Nat} {value : Int} (nonnegative : 0 ≤ value)
    (fits : Width.fitsSigned width value = true) :
    Width.fitsSigned width (value - 1) = true := by
  have bound := Width.bound_pos (width - 1)
  rw [Width.fitsSigned_iff] at fits ⊢
  omega

/-- A recorder closes any of its intervals that was opened at the last level, and reports every
other as a violation. -/
theorem Sound.pop_cases {session : Session} (sound : session.Sound) (live : session.recorder.Live)
    {handle : Handle} (owns : session.Owns handle) (now : Reading) :
    session.level? handle = some ((session.openNow.length : Int) - 1) ∧
        (session.recorder.pop handle now).2 = .ok () ∨
      session.level? handle ≠ some ((session.openNow.length : Int) - 1) ∧
        (session.recorder.pop handle now).1.poisoned = true ∧
        ∃ diagnostic,
          (session.recorder.pop handle now).2 = refuse (.stackMismatch diagnostic) := by
  have inside := sound.given handle owns
  have closes := (Recorder.pop_closes live handle now).2
  generalize session.recorder.pop handle now = result at closes
  obtain ⟨next, outcome⟩ := result
  cases closes with
  | unknown missing => exact absurd inside (Nat.not_lt.2 (List.getElem?_eq_none_iff.1 missing))
  | uncounted narrow =>
      rw [fitsSigned_sub_one sound.depth_nonneg sound.fits] at narrow
      cases narrow
  | violated diagnostic found other _ _ poisoned =>
      refine .inr ⟨?_, poisoned, diagnostic, rfl⟩
      rw [level?, found, Option.map_some, ← sound.depth]
      exact fun same => other (Option.some.inj same)
  | closed found innermost =>
      refine .inl ⟨?_, rfl⟩
      rw [level?, found, Option.map_some, innermost, sound.depth]

section Sound

variable {session : Session} {handle : Handle}

theorem Sound.disciplined_of_innermost (sound : session.Sound) (live : session.recorder.Live)
    (owns : session.Owns handle) (innermost : session.innermost? = some handle) :
    session.Disciplined handle := by
  refine fun now => ⟨?_, fun other => absurd innermost other⟩
  rcases sound.pop_cases live owns now with ⟨_, closed⟩ | ⟨level, _⟩
  · exact iff_of_true closed innermost
  · exact absurd (sound.level_innermost innermost) level

/-- Whatever is not innermost is told apart by its level alone. -/
theorem Sound.disciplined_iff_level (sound : session.Sound) (live : session.recorder.Live)
    (owns : session.Owns handle) (other : session.innermost? ≠ some handle) :
    session.Disciplined handle ↔
      session.level? handle ≠ some ((session.openNow.length : Int) - 1) := by
  constructor
  · intro disciplined level
    rcases sound.pop_cases live owns ⟨0, 0⟩ with ⟨_, closed⟩ | ⟨differs, _⟩
    · exact other ((disciplined ⟨0, 0⟩).1.1 closed)
    · exact differs level
  · intro level now
    rcases sound.pop_cases live owns now with ⟨same, _⟩ | ⟨_, poisoned, diagnostic, refused⟩
    · exact absurd same level
    · refine ⟨iff_of_false ?_ other, fun _ => ⟨poisoned, diagnostic, refused⟩⟩
      rw [refused]
      exact nofun

/-- An interval at the last level was opened as deep as the innermost open one. -/
theorem Sound.exists_innermost (sound : session.Sound)
    (level : session.level? handle = some ((session.openNow.length : Int) - 1)) :
    ∃ innermost, session.innermost? = some innermost ∧
      session.level? innermost = session.level? handle := by
  cases handles : session.openNow with
  | nil =>
      -- No interval was opened at a negative level.
      rw [handles, level?] at level
      obtain ⟨record, found, negative⟩ := Option.map_eq_some_iff.1 level
      have nonnegative := sound.levels record (List.mem_of_getElem? found)
      rw [negative] at nonnegative
      exact absurd nonnegative (by decide)
  | cons innermost outer =>
      have isHead : session.innermost? = some innermost := by rw [innermost?, handles]; rfl
      exact ⟨innermost, isHead, (sound.level_innermost isHead).trans level.symm⟩

end Sound

/-- While only open intervals are closed, a recorder that saw no violation tells the innermost
open interval from every other that is open, and from every closed one that was not opened at
its level. A closed one that was passes for it. -/
theorem disciplined_iff {processClock : Bool} {session : Session}
    (reached : Reached IsOpen processClock session)
    (healthy : session.recorder.poisoned = false) {handle : Handle}
    (owns : session.Owns handle) :
    session.Disciplined handle ↔
      session.IsOpen handle ∨ ∀ innermost, session.innermost? = some innermost →
        session.level? innermost ≠ session.level? handle := by
  obtain ⟨live, soundIfHealthy⟩ := reached.sound
  have sound := soundIfHealthy healthy
  by_cases isInnermost : session.innermost? = some handle
  · have isOpen : session.IsOpen handle := List.mem_of_head? isInnermost
    exact iff_of_true (sound.disciplined_of_innermost live owns isInnermost) (.inl isOpen)
  · rw [sound.disciplined_iff_level live owns isInnermost]
    constructor
    · intro level
      refine .inr fun innermost isHead same => level ?_
      rw [← same]
      exact sound.level_innermost isHead
    · rintro (isOpen | apart) level
      · exact isInnermost (sound.nested.head_of_level isOpen level)
      · obtain ⟨innermost, isHead, same⟩ := sound.exists_innermost level
        exact apart innermost isHead same

/-- Two intervals, one in the other, of which neither was closed. -/
def twoOpen : Session :=
  ((start true).push "outer" true ⟨0, 0⟩).push "inner" false ⟨10, 10⟩

theorem disciplined_iff_twoOpen :
    Reached IsOpen true twoOpen ∧ twoOpen.recorder.poisoned = false ∧
      (∀ handle ∈ twoOpen.given, twoOpen.Disciplined handle) ∧
      twoOpen.given = [⟨1⟩, ⟨0⟩] := by
  have reached : Reached IsOpen true twoOpen := .push (.push .start "outer" true _) "inner" false _
  have given : ∀ handle ∈ twoOpen.given, twoOpen.Owns handle ∧ twoOpen.IsOpen handle := by decide
  refine ⟨reached, rfl, fun handle member => ?_, rfl⟩
  obtain ⟨owns, isOpen⟩ := given handle member
  exact (disciplined_iff reached rfl owns).2 (.inl isOpen)

/-- An interval that was closed, and after it another that is open. -/
def oneAfterAnother : Session :=
  (((start true).push "first" true ⟨0, 0⟩).pop ⟨0⟩ ⟨10, 10⟩).push "second" true ⟨20, 20⟩

/-- The handle of the first interval closes the second. -/
theorem closed_passes_oneAfterAnother :
    Reached Owns true oneAfterAnother ∧ oneAfterAnother.recorder.poisoned = false ∧
      oneAfterAnother.Owns ⟨0⟩ ∧ oneAfterAnother.openNow = [⟨1⟩] ∧
      (oneAfterAnother.recorder.pop ⟨0⟩ ⟨30, 30⟩).2 = .ok () ∧
      ¬oneAfterAnother.Disciplined ⟨0⟩ := by
  have reached : Reached Owns true oneAfterAnother :=
    .push (.pop (.push .start "first" true _) (by decide) _) "second" true _
  have accepted : (oneAfterAnother.recorder.pop ⟨0⟩ ⟨30, 30⟩).2 = .ok () := rfl
  refine ⟨reached, rfl, by decide, rfl, accepted, fun disciplined => ?_⟩
  exact absurd ((disciplined ⟨30, 30⟩).1.1 accepted) (by decide)

end Session

end CallProfiler.Capture
