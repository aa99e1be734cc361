import CallProfiler.Proofs.Log.FirstRefusal

/-!
# Thread sections

A log has its events in sections, each opened by a thread line, and the sections of several
threads stand in any order. A reader goes through them with one cursor, but a thread line sets it
anew, and nothing that was collected before is looked at again. So a section comes to the same
wherever it stands, and `decode_reordered` says what follows: sections can be put in another order,
as long as those of one thread keep theirs.
-/

namespace CallProfiler.Log

open CallProfiler.Text

/-! ## Sections as they are written -/

/-- A line begins with a mark, if it is text at all. -/
def Marked (mark : List Char) (line : Line) : Prop :=
  ∀ text ∈ line, (words text).head? = some mark

def IsBlank (line : Line) : Prop :=
  ∃ text ∈ line, words text = []

instance (mark : List Char) : DecidablePred (Marked mark) := fun line =>
  inferInstanceAs (Decidable (∀ text ∈ line, _))

instance : DecidablePred IsBlank := fun line =>
  inferInstanceAs (Decidable (∃ text ∈ line, _))

/-- The mark of the lines that make a statement. -/
def Statement.mark : Statement → List Char
  | .format _ => formatMark
  | .properties .. => propertiesMark
  | .name .. => nameMark
  | .thread .. => threadMark
  | .event _ => eventMark

/-- What a line states is told by its mark. -/
theorem Says.mark_eq {names : NameFormat} {statement : Statement} {mark text : List Char}
    (form : Says names (words text) statement) (marked : Marked mark (some text)) :
    statement.mark = mark := by
  have first := marked text rfl
  generalize words text = words at form first
  cases form <;> exact Option.some.inj first

/-- A section as it is written: a thread line, and the event lines after it, with blank ones
anywhere between them. Nothing is said of the words after the marks, so a section may be refused. -/
structure WrittenSection where
  opening : Line
  inside : List Line
  opens : Marked threadMark opening
  belongs : ∀ line ∈ inside, IsBlank line ∨ Marked eventMark line

namespace WrittenSection

def lines (written : WrittenSection) : List Line := written.opening :: written.inside

/-- The thread of a section, if its line has an id that can be read. -/
def thread? (written : WrittenSection) : Option UInt32 :=
  match written.opening.map words with
  | some (_ :: idWord :: _) => (readNat 10 32 idWord).toOption.map .ofNat
  | _ => none

theorem thread?_of_says {written : WrittenSection} {names : NameFormat} {text : List Char}
    {id : UInt32} {base : Int64} (line : written.opening = some text)
    (form : Says names (words text) (.thread id base)) : written.thread? = some id := by
  rw [thread?, line, Option.map_some]
  generalize words text = words at form
  cases form with
  | thread numeral =>
      have fits : id.toNat < Width.bound 32 := id.toNat_lt
      simp [readNat_eq_ok_iff.2 ⟨numeral, fits⟩, Except.toOption]

/-- The events of a section that is read by itself, with their thread, in the order of the lines.
A section that is refused has none. -/
def events (written : WrittenSection) (reader : Reader) : List (UInt32 × Event) :=
  match reader.readEach written.lines with
  | .ok next => next.events.reverse
  | .error _ => []

end WrittenSection

/-- The lines of a log with these sections. -/
def sectioned (opening : List Line) (sections : List WrittenSection) (closing : List Line) :
    List Line :=
  opening ++ sections.flatMap (·.lines) ++ closing

/-- The same sections in an order in which those of every thread stand as before. -/
structure Reordered (sections others : List WrittenSection) : Prop where
  perm : sections.Perm others
  sameThread : ∀ id, sections.filter (·.thread? == some id) = others.filter (·.thread? == some id)

theorem Reordered.symm {sections others : List WrittenSection}
    (reordered : Reordered sections others) : Reordered others sections where
  perm := reordered.perm.symm
  sameThread id := (reordered.sameThread id).symm

/-- Neighbours that are not of one thread may change places. -/
theorem Reordered.swap {first second : WrittenSection} (apart : first.thread? ≠ second.thread?)
    (before after : List WrittenSection) :
    Reordered (before ++ first :: second :: after) (before ++ second :: first :: after) where
  perm := (List.Perm.swap second first after).append_left before
  sameThread id := by
    have one : ¬ (first.thread? = some id ∧ second.thread? = some id) :=
      fun ⟨left, right⟩ => apart (left.trans right.symm)
    rw [List.filter_append, List.filter_append]
    by_cases left : first.thread? = some id <;> by_cases right : second.thread? = some id
    · exact absurd ⟨left, right⟩ one
    all_goals simp [left, right]

/-! ## Readers -/

namespace Reader

variable {reader next after base : Reader} {statement : Statement} {line : Line}
  {input : List Line} {id : UInt32}

/-- The reader with all that another one has collected under what it has collected itself. -/
def onTop (reader base : Reader) : Reader :=
  { reader with
    opened := reader.opened ++ base.opened
    events := reader.events ++ base.events }

/-- What a header leaves to the sections after it: the reader with nothing collected, outside of
all sections. -/
def cleared (reader : Reader) : Reader :=
  { reader with current := none, opened := [], events := [] }

/-- What was collected before decides of no statement whether it is taken, and stays as it is. -/
theorem takes_onTop_iff : (reader.onTop base).Takes statement after ↔
    ∃ next, reader.Takes statement next ∧ after = next.onTop base := by
  constructor
  · intro takes
    cases takes with
    | format names => exact ⟨_, .format names, rfl⟩
    | properties calibration coarse processClock =>
        exact ⟨_, .properties calibration coarse processClock, rfl⟩
    | name id name => exact ⟨_, .name id name, rfl⟩
    | thread notNegative fits => exact ⟨_, .thread notNegative fits, rfl⟩
    | event inSection named time inTime fits =>
        exact ⟨_, .event inSection named time inTime fits, rfl⟩
  · rintro ⟨next, takes, rfl⟩
    cases takes with
    | format names => exact .format names
    | properties calibration coarse processClock =>
        exact .properties calibration coarse processClock
    | name id name => exact .name id name
    | thread notNegative fits => exact .thread notNegative fits
    | event inSection named time inTime fits => exact .event inSection named time inTime fits

theorem readLine_onTop_iff : ((reader.onTop base).readLine line).outcome = .ok after ↔
    ∃ next, (reader.readLine line).outcome = .ok next ∧ after = next.onTop base := by
  cases line with
  | none => simp [readLine]
  | some text =>
      simp only [readLine, readWords_eq_ok_iff]
      constructor
      · rintro (⟨blank, rfl⟩ | ⟨statement, form, takes⟩)
        · exact ⟨reader, .inl ⟨blank, rfl⟩, rfl⟩
        · obtain ⟨next, alone, rfl⟩ := takes_onTop_iff.1 takes
          exact ⟨next, .inr ⟨statement, form, alone⟩, rfl⟩
      · rintro ⟨next, ⟨blank, rfl⟩ | ⟨statement, form, takes⟩, rfl⟩
        · exact .inl ⟨blank, rfl⟩
        · exact .inr ⟨statement, form, takes_onTop_iff.2 ⟨next, takes, rfl⟩⟩

theorem readEach_onTop_iff : (reader.onTop base).readEach input = .ok after ↔
    ∃ next, reader.readEach input = .ok next ∧ after = next.onTop base := by
  induction input generalizing reader with
  | nil =>
      constructor
      · rintro ⟨⟩
        exact ⟨reader, rfl, rfl⟩
      · rintro ⟨_, ⟨⟩, rfl⟩
        rfl
  | cons line rest inductionHypothesis =>
      simp only [readEach_cons_eq_ok_iff, readLine_onTop_iff]
      constructor
      · rintro ⟨_, ⟨middle, first, rfl⟩, later⟩
        obtain ⟨next, alone, rfl⟩ := inductionHypothesis.1 later
        exact ⟨next, ⟨middle, first, alone⟩, rfl⟩
      · rintro ⟨next, ⟨middle, first, later⟩, rfl⟩
        exact ⟨_, ⟨middle, first, rfl⟩, inductionHypothesis.2 ⟨next, later, rfl⟩⟩

theorem readEach_blank (blank : ∀ line ∈ input, IsBlank line) (reader : Reader) :
    reader.readEach input = .ok reader := by
  induction input with
  | nil => rfl
  | cons line rest inductionHypothesis =>
      obtain ⟨⟨text, rfl, none⟩, others⟩ := List.forall_mem_cons.1 blank
      exact readEach_cons_eq_ok_iff.2
        ⟨reader, readWords_eq_ok_iff.2 (.inl ⟨none, rfl⟩), inductionHypothesis others⟩

/-! ## One section -/

/-- A thread line is read alike in a section and outside of all. -/
theorem readLine_opening_iff (opens : Marked threadMark line) :
    (reader.readLine line).outcome = .ok after ↔
      ∃ next, (reader.cleared.readLine line).outcome = .ok next ∧ after = next.onTop reader := by
  cases line with
  | none => simp [readLine]
  | some text =>
      have notBlank : words text ≠ [] := by
        intro blank
        simpa [blank] using opens text rfl
      simp only [readLine, readWords_eq_ok_iff, notBlank, false_and, false_or]
      constructor
      · rintro ⟨statement, form, takes⟩
        have mark := form.mark_eq opens
        cases takes with
        | thread notNegative fits => exact ⟨_, ⟨_, form, .thread notNegative fits⟩, rfl⟩
        | format | properties | name | event => cases mark
      · rintro ⟨next, ⟨statement, form, takes⟩, rfl⟩
        have mark := form.mark_eq opens
        cases takes with
        | thread notNegative fits => exact ⟨_, form, .thread notNegative fits⟩
        | format | properties | name | event => cases mark

/-- A section comes to the same wherever it stands. -/
theorem readEach_section_iff (written : WrittenSection) :
    reader.readEach written.lines = .ok after ↔
      ∃ next, reader.cleared.readEach written.lines = .ok next ∧ after = next.onTop reader := by
  simp only [WrittenSection.lines, readEach_cons_eq_ok_iff]
  constructor
  · rintro ⟨middle, opened, later⟩
    obtain ⟨first, openedAlone, rfl⟩ := (readLine_opening_iff written.opens).1 opened
    obtain ⟨next, alone, rfl⟩ := readEach_onTop_iff.1 later
    exact ⟨next, ⟨first, openedAlone, alone⟩, rfl⟩
  · rintro ⟨next, ⟨first, openedAlone, alone⟩, rfl⟩
    exact ⟨_, (readLine_opening_iff written.opens).2 ⟨first, openedAlone, rfl⟩,
      readEach_onTop_iff.2 ⟨next, alone, rfl⟩⟩

/-- A reader that has come from a header into a section of a thread, with no other before. -/
structure Within (header : Reader) (id : UInt32) (reader : Reader) : Prop where
  unchanged : reader.cleared = header.cleared
  inSection : ∀ place ∈ reader.current, place.id = id
  opened : reader.opened = [id]
  events : ∀ entry ∈ reader.events, entry.1 = id

/-- The lines of a section lead to no other one. -/
theorem Within.readLine {header : Reader} (within : Within header id reader)
    (belongs : IsBlank line ∨ Marked eventMark line)
    (read : (reader.readLine line).outcome = .ok next) : Within header id next := by
  cases line with
  | none => cases read
  | some text =>
      rcases readWords_eq_ok_iff.1 read with ⟨_, rfl⟩ | ⟨statement, form, takes⟩
      · exact within
      · have inside : Marked eventMark (some text) := by
          refine belongs.resolve_left ?_
          rintro ⟨_, ⟨⟩, blank⟩
          rw [blank] at form
          cases form
        have mark := form.mark_eq inside
        cases takes with
        | format | properties | name | thread => cases mark
        | @event _ place cursor name inSection =>
            have same := within.inSection place inSection
            exact {
              unchanged := within.unchanged
              inSection := by
                rintro _ ⟨⟩
                exact same
              opened := within.opened
              events := List.forall_mem_cons.2 ⟨same, within.events⟩ }

/-- A section that is read by itself opens its thread, and its events are of this thread. -/
theorem within_of_readEach {written : WrittenSection}
    (read : reader.cleared.readEach written.lines = .ok next) :
    ∃ id, written.thread? = some id ∧ Within reader id next := by
  obtain ⟨opening, inside, opens, belongs⟩ := written
  obtain ⟨first, opened, later⟩ := readEach_cons_eq_ok_iff.1 read
  cases opening with
  | none => cases opened
  | some text =>
      rcases readWords_eq_ok_iff.1 opened with ⟨blank, _⟩ | ⟨statement, form, takes⟩
      · simpa [blank] using opens text rfl
      · have mark := form.mark_eq opens
        cases takes with
        | format | properties | name | event => cases mark
        | @thread id base notNegative fits =>
            refine ⟨id, WrittenSection.thread?_of_says rfl form, ?_⟩
            refine preserved_of_foldlM
              (fun _ line member _ within read => within.readLine (belongs line member) read)
              ?_ later
            exact {
              unchanged := rfl
              inSection := by
                rintro _ ⟨⟩
                rfl
              opened := rfl
              events := by rintro _ ⟨⟩ }

/-! ## Several sections -/

/-- The events of a section are of its thread only. -/
theorem filter_events (written : WrittenSection) (reader : Reader) (id : UInt32) :
    (written.events reader.cleared).filter (·.1 == id) =
      if written.thread? = some id then written.events reader.cleared else [] := by
  rw [WrittenSection.events]
  cases read : reader.cleared.readEach written.lines with
  | error problem => simp
  | ok next =>
      obtain ⟨own, thread, within⟩ := within_of_readEach read
      simp only [thread, Option.some.injEq]
      split
      · rename_i same
        refine List.filter_eq_self.2 fun entry member => ?_
        simpa [same] using within.events entry (List.mem_reverse.1 member)
      · rename_i other
        refine List.filter_eq_nil_iff.2 fun entry member => ?_
        rw [within.events entry (List.mem_reverse.1 member)]
        simpa using other

/-- The events of a thread are those of its sections. -/
theorem filter_flatMap_events (sections : List WrittenSection) (reader : Reader) (id : UInt32) :
    (sections.flatMap (·.events reader.cleared)).filter (·.1 == id) =
      (sections.filter (·.thread? == some id)).flatMap (·.events reader.cleared) := by
  induction sections with
  | nil => rfl
  | cons written rest inductionHypothesis =>
      rw [List.flatMap_cons, List.filter_append, filter_events, inductionHypothesis]
      by_cases same : written.thread? = some id <;> simp [same]

/-- What reading sections leaves behind. -/
structure Gathers (before : Reader) (sections : List WrittenSection) (after : Reader) : Prop where
  unchanged : after.cleared = before.cleared
  opened : ∀ id, id ∈ after.opened ↔
    id ∈ before.opened ∨ ∃ written ∈ sections, written.thread? = some id
  events : after.events.reverse =
    before.events.reverse ++ sections.flatMap (·.events before.cleared)

theorem gathers_section {written : WrittenSection}
    (read : reader.readEach written.lines = .ok after) : reader.Gathers [written] after := by
  obtain ⟨next, alone, rfl⟩ := (readEach_section_iff written).1 read
  obtain ⟨own, thread, within⟩ := within_of_readEach alone
  have events : written.events reader.cleared = next.events.reverse := by
    rw [WrittenSection.events, alone]
  exact {
    unchanged := within.unchanged
    opened := by
      intro id
      simp [onTop, within.opened, thread, or_comm, eq_comm]
    events := by simp [onTop, events] }

theorem Gathers.append {middle : Reader} {first rest : List WrittenSection}
    (head : reader.Gathers first middle) (tail : middle.Gathers rest after) :
    reader.Gathers (first ++ rest) after where
  unchanged := tail.unchanged.trans head.unchanged
  opened := by
    intro id
    simp only [tail.opened, head.opened, List.mem_append, or_and_right, exists_or, or_assoc]
  events := by
    rw [tail.events, head.events, head.unchanged, List.append_assoc, List.flatMap_append]

/-- Sections that are read are gathered one after the other. -/
theorem gathers_of_readEach {sections : List WrittenSection}
    (read : reader.readEach (sections.flatMap (·.lines)) = .ok after) :
    reader.Gathers sections after := by
  induction sections generalizing reader with
  | nil =>
      cases read
      exact ⟨rfl, by simp, by simp⟩
  | cons written rest inductionHypothesis =>
      rw [List.flatMap_cons] at read
      obtain ⟨middle, first, later⟩ := readEach_append_eq_ok_iff.1 read
      exact (gathers_section first).append (inductionHypothesis later)

/-- Sections are accepted together if and only if each of them is accepted by itself. -/
theorem exists_readEach_iff {sections : List WrittenSection} :
    (∃ after, reader.readEach (sections.flatMap (·.lines)) = .ok after) ↔
      ∀ written ∈ sections, ∃ next, reader.cleared.readEach written.lines = .ok next := by
  -- By induction from any reader: a section leaves the header to the next ones as it was.
  induction sections generalizing reader with
  | nil => exact ⟨fun _ => by simp, fun _ => ⟨reader, rfl⟩⟩
  | cons written rest inductionHypothesis =>
      simp only [List.flatMap_cons, readEach_append_eq_ok_iff, List.forall_mem_cons]
      constructor
      · rintro ⟨after, middle, first, later⟩
        have unchanged := (gathers_section first).unchanged
        obtain ⟨next, alone, _⟩ := (readEach_section_iff written).1 first
        exact ⟨⟨next, alone⟩, unchanged ▸ inductionHypothesis.1 ⟨after, later⟩⟩
      · rintro ⟨⟨next, alone⟩, others⟩
        have first := (readEach_section_iff written).2 ⟨next, alone, rfl⟩
        have unchanged := (gathers_section first).unchanged
        obtain ⟨after, later⟩ := inductionHypothesis.2 (unchanged.symm ▸ others)
        exact ⟨after, _, first, later⟩

/-- What is gathered of sections in another order makes the same log. -/
theorem Gathers.toLog_of_reordered {other : Reader} {sections others : List WrittenSection}
    {log : EventLog} (reordered : Reordered sections others)
    (left : reader.Gathers sections after) (right : reader.Gathers others other)
    (made : after.toLog = .ok log) : other.toLog = .ok log := by
  have unchanged : other.cleared = after.cleared := right.unchanged.trans left.unchanged.symm
  have calibration : other.calibration = after.calibration := by
    show other.cleared.calibration = after.cleared.calibration
    rw [unchanged]
  rw [toLog_eq_ok_iff] at made ⊢
  refine ⟨calibration.trans made.1, fun id => ?_⟩
  have opened : id ∈ other.opened ↔ id ∈ after.opened := by
    rw [right.opened, left.opened]
    simp only [reordered.perm.mem_iff]
  have events : other.events.reverse.filter (·.1 == id) =
      after.events.reverse.filter (·.1 == id) := by
    rw [right.events, left.events, List.filter_append, List.filter_append, filter_flatMap_events,
      filter_flatMap_events, reordered.sameThread]
  rw [made.2 id, events]
  simp only [opened]

end Reader

/-! ## Logs -/

theorem decode_eq_ok_iff_readEach {input : List Line} {log : EventLog} :
    decode input = .ok log ↔
      ∃ reader, Reader.start.readEach input = .ok reader ∧ reader.toLog = .ok log := by
  constructor
  · intro decoded
    cases read : (Decoder.fresh.readLines .start 1 input).2 with
    | ok reader =>
        exact ⟨reader, Decoder.readLines_eq_ok_iff.1 read,
          (Decoder.decode_of_readLines_ok read).symm.trans decoded⟩
    | error error => cases (Decoder.decode_of_readLines_error read).symm.trans decoded
  · rintro ⟨reader, read, made⟩
    exact (Decoder.decode_of_readLines_ok (Decoder.readLines_eq_ok_iff.2 read)).trans made

variable {closing : List Line} {sections others : List WrittenSection}

theorem decode_of_reordered {log : EventLog} (opening : List Line)
    (blank : ∀ line ∈ closing, IsBlank line) (reordered : Reordered sections others)
    (decoded : decode (sectioned opening sections closing) = .ok log) :
    decode (sectioned opening others closing) = .ok log := by
  simp only [sectioned, decode_eq_ok_iff_readEach,
    Reader.readEach_append_eq_ok_iff] at decoded ⊢
  obtain ⟨_, ⟨after, ⟨header, first, read⟩, closed⟩, made⟩ := decoded
  cases (Reader.readEach_blank blank after).symm.trans closed
  have each := Reader.exists_readEach_iff.1 ⟨_, read⟩
  obtain ⟨other, readOthers⟩ := Reader.exists_readEach_iff.2 fun written member =>
    each written (reordered.perm.mem_iff.2 member)
  exact ⟨other, ⟨other, ⟨header, first, readOthers⟩, Reader.readEach_blank blank other⟩,
    (Reader.gathers_of_readEach read).toLog_of_reordered reordered
      (Reader.gathers_of_readEach readOthers) made⟩

/-- Where sections stand does not matter, as long as those of every thread stand one after the
other as before. Whatever lines are before the sections, a log in one order and in the other are
decoded to the same, or both are refused. -/
theorem decode_reordered (opening : List Line) (blank : ∀ line ∈ closing, IsBlank line)
    (reordered : Reordered sections others) :
    (∃ log, decode (sectioned opening sections closing) = .ok log ∧
      decode (sectioned opening others closing) = .ok log) ∨
    ((∃ error, decode (sectioned opening sections closing) = .error error) ∧
      ∃ error, decode (sectioned opening others closing) = .error error) := by
  cases left : decode (sectioned opening sections closing) with
  | ok log => exact .inl ⟨log, rfl, decode_of_reordered opening blank reordered left⟩
  | error error =>
      refine .inr ⟨⟨error, rfl⟩, ?_⟩
      cases right : decode (sectioned opening others closing) with
      | ok log =>
          cases left.symm.trans (decode_of_reordered opening blank reordered.symm right)
      | error other => exact ⟨other, rfl⟩

/-- A thread with two sections. -/
def earlySection : WrittenSection where
  opening := some "T: 7 0".toList
  inside := [some "E: 0 0 load 5 1".toList, some "E: 0 1 read 1 2".toList]
  opens := by decide
  belongs := by decide

def lateSection : WrittenSection where
  opening := some "T: 7 20".toList
  inside := [some "E: 0 0 load 5 1".toList, some []]
  opens := by decide
  belongs := by decide

def otherSection : WrittenSection where
  opening := some "T: 3 0".toList
  inside := [some "E: 0 0 draw 2 9".toList]
  opens := by decide
  belongs := by decide

/-- A section of another thread moves out from between the two. -/
theorem decode_reordered_otherSection :
    Reordered [earlySection, otherSection, lateSection] [otherSection, earlySection, lateSection] ∧
      (∀ line ∈ [some []], IsBlank line) ∧
      ∃ log, decode (sectioned [some "P: 0 0 0 0 0".toList]
          [earlySection, otherSection, lateSection] [some []]) = .ok log ∧
        decode (sectioned [some "P: 0 0 0 0 0".toList]
          [otherSection, earlySection, lateSection] [some []]) = .ok log := by
  have apart : earlySection.thread? ≠ otherSection.thread? := by decide
  have reordered := Reordered.swap apart [] [lateSection]
  have blank : ∀ line ∈ [some []], IsBlank line := by decide
  obtain ⟨log, accepted⟩ : ∃ log, decode (sectioned [some "P: 0 0 0 0 0".toList]
      [earlySection, otherSection, lateSection] [some []]) = .ok log := ⟨_, rfl⟩
  refine ⟨reordered, blank, ?_⟩
  rcases decode_reordered [some "P: 0 0 0 0 0".toList] blank reordered with
    same | ⟨⟨error, refused⟩, _⟩
  · exact same
  · cases accepted.symm.trans refused

/-- Sections of one thread do not change places. -/
example : (decode (sectioned [some "P: 0 0 0 0 0".toList] [lateSection, earlySection] [])).map
    (·.threads.entries) = .ok [(7, [⟨"load", 0, false, false, 25, 26, 0⟩,
      ⟨"load", 0, false, false, 5, 6, 0⟩, ⟨"read", 1, false, false, 6, 8, 0⟩])] := by
  rfl

end CallProfiler.Log
