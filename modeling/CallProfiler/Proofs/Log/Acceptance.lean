import CallProfiler.Proofs.Log.Parsing
import CallProfiler.Proofs.Log.RoundTrip
import CallProfiler.Proofs.ThreadTable

/-!
# Logs that are accepted

All that a reader holds can be told from the statements so far (`Reader.ofStatements`), and one
more statement that is allowed leads to the reader of one statement more. Over the lines of a log
this gives `decode_accepts_iff`: a log is accepted if its lines make statements that are allowed,
one of them of the properties, and what it decodes to is what the statements tell.
-/

namespace CallProfiler.Log

open CallProfiler.Text

variable {earlier statements : List Statement} {events : List (UInt32 × Event)}

/-! ## Events -/

theorem OpenSection.cursor_advance (place : OpenSection) (delta : Int) :
    (place.advance delta).cursor = place.cursor + delta := by
  simp only [cursor, advance, List.sum_cons]
  omega

/-- An event whose times fit is held as it is described. -/
theorem EventLine.describes_event {line : EventLine} {place : OpenSection} {name : String}
    {cursor : Nat} (named : line.label.name? (namesIn earlier) = some name)
    (time : place.cursor = cursor)
    (fits : cursor * tickIn earlier + line.duration.toNat * tickIn earlier < Width.bound 64) :
    line.Describes earlier place (line.event name (clockIn earlier) (tickIn earlier) cursor) := by
  have startFits : cursor * tickIn earlier < UInt64.size :=
    Nat.lt_of_le_of_lt (Nat.le_add_right _ _) fits
  exact {
    name := named
    level := rfl
    frame := rfl
    processClock := rfl
    start := by
      rw [event, UInt64.toNat_ofNat_of_lt' startFits, time, Int.natCast_mul, Int.mul_comm]
    stop := by
      rw [event, UInt64.toNat_ofNat_of_lt' fits, time, Int.natCast_add, Int.natCast_mul,
        Int.natCast_mul, Int.mul_comm, Int.mul_comm (tickIn earlier : Int) line.duration.toNat]
    cpu := rfl }

/-- The description of an event leaves nothing of it open. -/
theorem EventLine.Describes.unique {line : EventLine} {place : OpenSection} {event other : Event}
    (describes : line.Describes earlier place event)
    (also : line.Describes earlier place other) : event = other := by
  have name : event.name = other.name :=
    Option.some.inj (describes.name.symm.trans also.name)
  have start : event.start = other.start :=
    UInt64.toNat_inj.1 (Int.ofNat_inj.1 (describes.start.trans also.start.symm))
  have stop : event.stop = other.stop :=
    UInt64.toNat_inj.1 (Int.ofNat_inj.1 (describes.stop.trans also.stop.symm))
  have level := describes.level.trans also.level.symm
  have frame := describes.frame.trans also.frame.symm
  have processClock := describes.processClock.trans also.processClock.symm
  have cpu := describes.cpu.trans also.cpu.symm
  cases event
  cases other
  simp_all

/-- Statements record one list of events. -/
theorem Recorded.unique {others : List (UInt32 × Event)} (recorded : Recorded statements events)
    (also : Recorded statements others) : events = others := by
  induction recorded generalizing others with
  | nothing =>
      cases also
      rfl
  | other _ other inductionHypothesis =>
      cases also with
      | other also => exact inductionHypothesis also
      | event => exact absurd rfl (other _)
  | event _ inSection describes inductionHypothesis =>
      cases also with
      | other _ other => exact absurd rfl (other _)
      | event also inSame describesSame =>
          cases inSection.symm.trans inSame
          rw [describes.unique describesSame, inductionHypothesis also]

theorem sectionIn?_event {line : EventLine} {place : OpenSection}
    (inSection : sectionIn? earlier = some place) :
    sectionIn? (.event line :: earlier) = some (place.advance line.delta.toInt) := by
  rw [sectionIn?, inSection, Option.map_some]

/-! ## Readers -/

namespace Reader

variable {statement : Statement} {next : Reader}

/-- The reader that statements leave behind, with the events that they record. -/
def ofStatements (statements : List Statement) (events : List (UInt32 × Event)) : Reader where
  names := formatIn statements
  calibration := (propertiesIn? statements).map (·.1)
  tick := tickIn statements
  processClock := clockIn statements
  nameTable := namesIn statements
  current := (sectionIn? statements).map fun place => ⟨place.id, place.cursor⟩
  opened := openedIn statements
  events

theorem ofStatements_nil : ofStatements [] [] = start := rfl

/-- The reader after a thread line is that of one statement more. -/
theorem opened_ofStatements (id : UInt32) (base : Int64) :
    { ofStatements earlier events with
      current := some ⟨id, base.toInt⟩, opened := id :: openedIn earlier } =
      ofStatements (.thread id base :: earlier) events := by
  have cursor : (⟨id, base.toInt, []⟩ : OpenSection).cursor = base.toInt := Int.add_zero _
  have after : (ofStatements (.thread id base :: earlier) events).current =
      some ⟨id, base.toInt⟩ := by
    rw [ofStatements, sectionIn?, Option.map_some, cursor]
  rw [← after]
  rfl

/-- The reader after an event line is that of one statement more. -/
theorem record_ofStatements {line : EventLine} {place : OpenSection} {cursor : Nat}
    (inSection : sectionIn? earlier = some place)
    (time : (place.advance line.delta.toInt).cursor = cursor) (name : String) :
    (ofStatements earlier events).record ⟨place.id, place.cursor⟩ cursor name line =
      ofStatements (.event line :: earlier)
        ((place.id, line.event name (clockIn earlier) (tickIn earlier) cursor) :: events) := by
  have after : (ofStatements (.event line :: earlier)
      ((place.id, line.event name (clockIn earlier) (tickIn earlier) cursor) :: events)).current =
        some ⟨place.id, cursor⟩ := by
    rw [ofStatements, sectionIn?_event inSection, ← time]
    rfl
  rw [record, ← after]
  rfl

/-- What the reader of some statements takes is allowed after them, and leads to the reader of one
statement more. -/
theorem Takes.allowed (recorded : Recorded earlier events)
    (takes : (ofStatements earlier events).Takes statement next) :
    statement.Allowed earlier ∧ ∃ after, Recorded (statement :: earlier) after ∧
      next = ofStatements (statement :: earlier) after := by
  cases takes with
  | format => exact ⟨trivial, events, .other recorded nofun, rfl⟩
  | properties => exact ⟨trivial, events, .other recorded nofun, rfl⟩
  | name => exact ⟨trivial, events, .other recorded nofun, rfl⟩
  | @thread id base notNegative fits =>
      -- Readers multiply natural numbers, and statements are about whole ones.
      have fits : base.toInt.toNat * tickIn earlier < Width.bound 64 := fits
      refine ⟨⟨notNegative, ?_⟩, events, .other recorded nofun, opened_ofStatements id base⟩
      rw [← Int.toNat_of_nonneg notNegative]
      exact_mod_cast fits
  | @event line place cursor name inSection named time inTime fits =>
      obtain ⟨opened, inSectionBefore, rfl⟩ := Option.map_eq_some_iff.1 inSection
      have current : sectionIn? (.event line :: earlier) =
          some (opened.advance line.delta.toInt) := sectionIn?_event inSectionBefore
      have time := (opened.cursor_advance line.delta.toInt).trans time
      have describes := line.describes_event named time fits
      refine ⟨⟨_, current, ⟨name, named⟩, ?_, ?_, ?_⟩, _, .event recorded current describes,
        record_ofStatements inSectionBefore time name⟩
      · omega
      · omega
      · rw [time]
        have fits : cursor * tickIn earlier + line.duration.toNat * tickIn earlier <
          Width.bound 64 := fits
        rw [Int.mul_comm, Int.mul_comm (tickIn earlier : Int)]
        exact_mod_cast fits

/-- What is allowed after some statements their reader takes, and becomes the reader of one
statement more. -/
theorem takes_of_allowed (recorded : Recorded earlier events)
    (allowed : statement.Allowed earlier) :
    ∃ after, Recorded (statement :: earlier) after ∧
      (ofStatements earlier events).Takes statement (ofStatements (statement :: earlier) after) := by
  cases statement with
  | format names => exact ⟨events, .other recorded nofun, .format names⟩
  | properties calibration coarse processClock =>
      exact ⟨events, .other recorded nofun, .properties calibration coarse processClock⟩
  | name id name => exact ⟨events, .other recorded nofun, .name id name⟩
  | thread id base =>
      obtain ⟨notNegative, fits⟩ := allowed
      refine ⟨events, .other recorded nofun, opened_ofStatements id base ▸ .thread notNegative ?_⟩
      rw [← Int.toNat_of_nonneg notNegative] at fits
      exact_mod_cast fits
  | event line =>
      obtain ⟨place, inSection, ⟨name, named⟩, notNegative, inTime, fits⟩ := allowed
      obtain ⟨opened, inSectionBefore, rfl⟩ := Option.map_eq_some_iff.1 inSection
      obtain ⟨cursor, time⟩ := Int.eq_ofNat_of_zero_le notNegative
      rw [time, Int.mul_comm, Int.mul_comm (tickIn earlier : Int)] at fits
      have fits : cursor * tickIn earlier + line.duration.toNat * tickIn earlier <
        Width.bound 64 := by exact_mod_cast fits
      refine ⟨_, .event recorded inSection (line.describes_event named time fits), ?_⟩
      have reached := @record_ofStatements earlier events line opened cursor inSectionBefore time name
      refine reached ▸ .event ?_ named ?_ ?_ fits
      · rw [ofStatements, inSectionBefore]
        rfl
      · rw [← time, opened.cursor_advance]
      · omega

/-! ## Lines -/

/-- A reader of statements that accepts a line becomes the reader of the statements that the line
leads to. -/
theorem readLine_ofStatements {line : Line} (recorded : Recorded earlier events)
    (read : ((ofStatements earlier events).readLine line).outcome = .ok next) :
    ∃ after all, Recorded after all ∧ next = ofStatements after all ∧
      ∀ rest statements, Follows after rest statements → Follows earlier (line :: rest) statements := by
  cases line with
  | none => cases read
  | some text =>
      rcases readWords_eq_ok_iff.1 read with ⟨blank, rfl⟩ | ⟨statement, form, takes⟩
      · exact ⟨earlier, events, recorded, rfl, fun _ _ later => .blank blank later⟩
      · obtain ⟨allowed, all, recordedAfter, same⟩ := takes.allowed recorded
        exact ⟨statement :: earlier, all, recordedAfter, same,
          fun _ _ later => .stated form allowed later⟩

end Reader

namespace Decoder

open Reader (ofStatements)

/-- Lines that follow the statements before them are accepted. -/
theorem readLines_of_follows {input : List Line} (follows : Follows earlier input statements)
    (recorded : Recorded earlier events) (decoder : Decoder) (number : Nat) :
    ∃ all, Recorded statements all ∧
      (decoder.readLines (ofStatements earlier events) number input).2 =
        .ok (ofStatements statements all) := by
  induction follows generalizing decoder number events with
  | done => exact ⟨events, recorded, rfl⟩
  | @blank earlier statements text rest blank _ inductionHypothesis =>
      have first : ((ofStatements earlier events).readLine (some text)).outcome =
          .ok (ofStatements earlier events) := Reader.readWords_eq_ok_iff.2 (.inl ⟨blank, rfl⟩)
      simp only [readLines, first]
      exact inductionHypothesis recorded _ _
  | @stated earlier statements text rest statement form allowed _ inductionHypothesis =>
      obtain ⟨after, recordedAfter, takes⟩ := Reader.takes_of_allowed recorded allowed
      have first : ((ofStatements earlier events).readLine (some text)).outcome =
          .ok (ofStatements (statement :: earlier) after) :=
        Reader.readWords_eq_ok_iff.2 (.inr ⟨statement, form, takes⟩)
      simp only [readLines, first]
      exact inductionHypothesis recordedAfter _ _

/-- A reader of statements reads all lines, if they follow these statements, or is stopped at the
first of them that does not. -/
theorem readLines_cases (recorded : Recorded earlier events) (decoder : Decoder) (number : Nat)
    (input : List Line) :
    (∃ statements all, Follows earlier input statements ∧ Recorded statements all ∧
      (decoder.readLines (ofStatements earlier events) number input).2 =
        .ok (ofStatements statements all)) ∨
    ∃ before line after problem statements, input = before ++ line :: after ∧
      Follows earlier before statements ∧ (¬ ∃ more, Follows statements [line] more) ∧
      (decoder.readLines (ofStatements earlier events) number input).2 =
        .error (.badLine (number + before.length) problem) := by
  -- By induction on the lines: what was read before is known by its statements only.
  induction input generalizing decoder number earlier events with
  | nil => exact .inl ⟨earlier, events, .done, recorded, rfl⟩
  | cons line rest inductionHypothesis =>
      cases first : ((ofStatements earlier events).readLine line).outcome with
      | error problem =>
          have wrong : ¬ ∃ more, Follows earlier [line] more := by
            rintro ⟨more, follows⟩
            obtain ⟨_, _, read⟩ := readLines_of_follows follows recorded decoder number
            simp only [readLines, first] at read
            cases read
          simp only [readLines, first]
          exact .inr ⟨[], line, rest, problem, earlier, rfl, .done, wrong, rfl⟩
      | ok middle =>
          simp only [readLines, first]
          have count (before : List Line) :
              number + 1 + before.length = number + (line :: before).length := by
            rw [List.length_cons]
            omega
          obtain ⟨after, all, recordedAfter, rfl, leads⟩ :=
            Reader.readLine_ofStatements recorded first
          rcases inductionHypothesis recordedAfter _ (number + 1) with
            ⟨statements, whole, later, read⟩ |
            ⟨before, next, others, problem, statements, rfl, later, wrong, refused⟩
          · exact .inl ⟨statements, whole, leads _ _ later, read⟩
          · rw [count] at refused
            exact .inr ⟨line :: before, next, others, problem, statements, rfl, leads _ _ later,
              wrong, refused⟩

end Decoder

/-! ## The log -/

/-- The threads that a reader collects, with their events. -/
theorem events?_foldr_collect (events : List (UInt32 × Event)) (ids : List UInt32) (id : UInt32) :
    (ids.foldr (fun id table => collect events table id) ThreadTable.empty).events? id =
      if id ∈ ids then some ((events.filter (·.1 == id)).map (·.2)) else none := by
  induction ids with
  | nil => rfl
  | cons head rest inductionHypothesis =>
      rw [List.foldr_cons, collect]
      split
      · rename_i held
        rw [inductionHypothesis]
        by_cases same : id = head
        · subst same
          rw [inductionHypothesis] at held
          simp_all
        · simp [same]
      · rw [ThreadTable.events?_insert, inductionHypothesis]
        by_cases same : id = head <;> simp [same]

theorem Reader.toLog_eq_ok_iff {reader : Reader} {log : EventLog} :
    reader.toLog = .ok log ↔ reader.calibration = some log.calibration ∧
      ∀ id, log.threads.events? id = if id ∈ reader.opened then
        some ((reader.events.reverse.filter (·.1 == id)).map (·.2)) else none := by
  rw [toLog]
  cases reader.calibration with
  | none => simp
  | some calibration =>
      have threads := events?_foldr_collect reader.events.reverse reader.opened
      constructor
      · intro made
        cases made
        exact ⟨rfl, threads⟩
      · rintro ⟨same, told⟩
        obtain ⟨logCalibration, logThreads⟩ := log
        cases same
        have sameThreads : reader.opened.foldr (fun id table =>
            collect reader.events.reverse table id) .empty = logThreads :=
          ThreadTable.ext_events? fun id => (threads id).trans (told id).symm
        rw [← sameThreads]
        rfl

/-- A reader makes the log that its statements tell. -/
theorem Reader.toLog_ofStatements {log : EventLog} (recorded : Recorded statements events) :
    (ofStatements statements events).toLog = .ok log ↔ Tells statements events log := by
  rw [toLog_eq_ok_iff]
  constructor
  · rintro ⟨measured, threads⟩
    obtain ⟨⟨calibration, coarse, processClock⟩, stated, rfl⟩ := Option.map_eq_some_iff.1 measured
    exact ⟨recorded, ⟨coarse, processClock, stated⟩, threads⟩
  · rintro ⟨_, ⟨coarse, processClock, stated⟩, threads⟩
    exact ⟨Option.map_eq_some_iff.2 ⟨_, stated, rfl⟩, threads⟩

theorem propertiesIn?_isSome_iff : (propertiesIn? statements).isSome = true ↔
    ∃ calibration coarse processClock,
      Statement.properties calibration coarse processClock ∈ statements := by
  rw [propertiesIn?, List.isSome_findSome?, List.any_eq_true]
  constructor
  · rintro ⟨statement, member, found⟩
    cases statement with
    | properties calibration coarse processClock =>
        exact ⟨calibration, coarse, processClock, member⟩
    | format | name | thread | event => cases found
  · rintro ⟨calibration, coarse, processClock, member⟩
    exact ⟨_, member, rfl⟩

namespace Reader

/-- At the end of the lines of a log it takes the properties to make a log of them. -/
theorem exists_toLog_iff :
    (∃ log, (ofStatements statements events).toLog = .ok log) ↔
      ∃ calibration coarse processClock,
        Statement.properties calibration coarse processClock ∈ statements := by
  rw [← propertiesIn?_isSome_iff, toLog]
  cases stated : propertiesIn? statements with
  | none => simp [ofStatements, stated]
  | some properties => simp [ofStatements, stated]

theorem toLog_eq_error {reader : Reader} {error : DecodeError}
    (refused : reader.toLog = .error error) : error = .missingHeader := by
  rw [toLog] at refused
  split at refused <;> cases refused
  rfl

end Reader

namespace Decoder

open Reader (ofStatements ofStatements_nil)

variable {decoder : Decoder} {input : List Line}

theorem decode_of_readLines_ok {reader : Reader}
    (read : (decoder.readLines .start 1 input).2 = .ok reader) :
    (decoder.decode input).2 = reader.toLog := by
  show (decoder.readLines .start 1 input).2.bind Reader.toLog = _
  rw [read]
  rfl

theorem decode_of_readLines_error {error : DecodeError}
    (refused : (decoder.readLines .start 1 input).2 = .error error) :
    (decoder.decode input).2 = .error error := by
  show (decoder.readLines .start 1 input).2.bind Reader.toLog = _
  rw [refused]
  rfl

/-- Where all lines are allowed, decoding makes of them what they tell. -/
theorem exists_decode_of_follows (decoder : Decoder) (follows : Follows [] input statements) :
    ∃ all, Recorded statements all ∧
      (decoder.decode input).2 = (ofStatements statements all).toLog := by
  obtain ⟨all, recorded, read⟩ := readLines_of_follows follows .nothing decoder 1
  rw [ofStatements_nil] at read
  exact ⟨all, recorded, decode_of_readLines_ok read⟩

/-- What was decoded is made of lines that are all allowed. -/
theorem follows_of_decode {log : EventLog} (decoded : (decoder.decode input).2 = .ok log) :
    ∃ statements all, Follows [] input statements ∧ Recorded statements all ∧
      (ofStatements statements all).toLog = .ok log := by
  rcases readLines_cases .nothing decoder 1 input with
    ⟨statements, all, follows, recorded, read⟩ | ⟨_, _, _, _, _, _, _, _, refused⟩
  · rw [ofStatements_nil] at read
    exact ⟨statements, all, follows, recorded, (decode_of_readLines_ok read).symm.trans decoded⟩
  · rw [ofStatements_nil] at refused
    rw [decode_of_readLines_error refused] at decoded
    cases decoded

/-- Decoding succeeds where all lines are allowed and one of them states the properties. -/
theorem exists_decode_iff (decoder : Decoder) (input : List Line) :
    (∃ log, (decoder.decode input).2 = .ok log) ↔
      ∃ statements, Follows [] input statements ∧ ∃ calibration coarse processClock,
        Statement.properties calibration coarse processClock ∈ statements := by
  constructor
  · rintro ⟨log, decoded⟩
    obtain ⟨statements, all, follows, _, made⟩ := follows_of_decode decoded
    exact ⟨statements, follows, Reader.exists_toLog_iff.1 ⟨log, made⟩⟩
  · rintro ⟨statements, follows, properties⟩
    obtain ⟨all, _, same⟩ := exists_decode_of_follows decoder follows
    rw [same]
    exact Reader.exists_toLog_iff.2 properties

/-- What is decoded is what the statements of the lines tell. -/
theorem decode_eq_ok_iff (decoder : Decoder) (input : List Line) (log : EventLog) :
    (decoder.decode input).2 = .ok log ↔
      ∃ statements events, Follows [] input statements ∧ Tells statements events log := by
  constructor
  · intro decoded
    obtain ⟨statements, all, follows, recorded, made⟩ := follows_of_decode decoded
    exact ⟨statements, all, follows, (Reader.toLog_ofStatements recorded).1 made⟩
  · rintro ⟨statements, events, follows, tells⟩
    obtain ⟨all, recorded, same⟩ := exists_decode_of_follows decoder follows
    cases recorded.unique tells.recorded
    rw [same]
    exact (Reader.toLog_ofStatements recorded).2 tells

/-- What is refused is so for its first line that is not allowed, or for want of properties. -/
theorem refused_of_decode {error : DecodeError} (refused : (decoder.decode input).2 = .error error) :
    error = .missingHeader ∨
      ∃ before line after problem statements, input = before ++ line :: after ∧
        Follows [] before statements ∧ (¬ ∃ more, Follows statements [line] more) ∧
        error = .badLine (before.length + 1) problem := by
  rcases readLines_cases .nothing decoder 1 input with
    ⟨statements, all, _, _, read⟩ |
    ⟨before, line, after, problem, statements, parted, follows, wrong, stopped⟩
  · rw [ofStatements_nil] at read
    rw [decode_of_readLines_ok read] at refused
    exact .inl (Reader.toLog_eq_error refused)
  · rw [ofStatements_nil] at stopped
    rw [decode_of_readLines_error stopped] at refused
    cases refused
    exact .inr ⟨before, line, after, problem, statements, parted, follows, wrong, by
      rw [Nat.add_comm]⟩

/-- A log is accepted if and only if all its lines are blank or make statements that are allowed
where they stand, one of them of the properties of the run. It decodes to what the statements
tell: the latest calibration, and each thread with its events in the order of their lines, at the
exact times of the timeline. Whatever the lines are, decoding ends with a log or with a refusal,
which is of the first line that is not allowed or of a log without properties. -/
theorem decode_accepts_iff (decoder : Decoder) (input : List Line) :
    ((∃ log, (decoder.decode input).2 = .ok log) ↔
      ∃ statements, Follows [] input statements ∧ ∃ calibration coarse processClock,
        Statement.properties calibration coarse processClock ∈ statements) ∧
    (∀ log, (decoder.decode input).2 = .ok log ↔
      ∃ statements events, Follows [] input statements ∧ Tells statements events log) ∧
    ∀ error, (decoder.decode input).2 = .error error →
      error = .missingHeader ∨
      ∃ before line after problem statements, input = before ++ line :: after ∧
        Follows [] before statements ∧ (¬ ∃ more, Follows statements [line] more) ∧
        error = .badLine (before.length + 1) problem :=
  ⟨exists_decode_iff decoder input, decode_eq_ok_iff decoder input,
    fun _ refused => refused_of_decode refused⟩

end Decoder

/-- A thread goes on when a section of it is opened again, and ticks are those of the resolution
that is in force at a line. -/
example :
    let text := "P: 0 0 0 0 0\nT: 7 5\nE: 0 0 load -2 4\nP: 0 0 0 1 0\n" ++
      "E: 0 0 draw 1 2\nT: 7 1\nE: 0 0 load 0 1 9"
    (decode (linesOfText text.toList)).map (·.threads.entries) =
      .ok [(7, [⟨"load", 0, false, false, 3, 7, 0⟩, ⟨"draw", 0, false, false, 400, 600, 0⟩,
        ⟨"load", 0, false, false, 100, 200, 9⟩])] := by
  rfl

end CallProfiler.Log
