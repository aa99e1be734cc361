import CallProfiler.Proofs.Log.Lines
import CallProfiler.Proofs.Log.Statements

/-!
# Reading lines as statements

`readWords_eq_ok_iff`: a reader accepts the words of a line if they make a statement that the
reader can take, and becomes what the statement makes of it. From word to line every lemma is an
equivalence, so what is accepted is known as exactly as what is refused.
-/

namespace CallProfiler.Log

open CallProfiler.Text

/-! ## Words -/

namespace Words

variable {field : Field} {words rest : List (List Char)}

/-- A word that is interpreted is the first of the line. -/
theorem interpreted_eq_ok_iff {α : Type} {read : List Char → Except NumeralProblem α} {value : α} :
    (do let word ← next field; interpret field read word : Words α) words = .ok (value, rest) ↔
      ∃ word, words = word :: rest ∧ read word = .ok value := by
  constructor
  · intro done
    obtain ⟨word, _, first, done⟩ := bind_eq_ok done
    obtain ⟨number, interpreted, same⟩ := bind_eq_ok_iff.1 done
    cases same
    exact ⟨word, next_eq_ok first, mapError_eq_ok_iff.1 interpreted⟩
  · rintro ⟨word, rfl, done⟩
    rw [bind_of_ok (next_cons field word rest), interpret, done]
    rfl

theorem unsigned_eq_ok_iff {width value : Nat} :
    unsigned width field words = .ok (value, rest) ↔
      ∃ word, words = word :: rest ∧ Unsigned word value ∧ value < Width.bound width := by
  simp only [← readNat_eq_ok_iff]
  exact interpreted_eq_ok_iff

theorem signed_eq_ok_iff {width : Nat} {value : Int} :
    signed width field words = .ok (value, rest) ↔
      ∃ word, words = word :: rest ∧ Signed word value ∧ Width.fitsSigned width value = true := by
  simp only [← readInt_eq_ok_iff]
  exact interpreted_eq_ok_iff

/-- A number that fits its field is one of the numbers of the field's type. -/
theorem exists_typed_iff {Number Value : Type} {numeral : List Char → Value → Prop}
    {fits : Value → Prop} {value : Value} {view : Number → Value} {make : Value → Number}
    (within : ∀ number, fits (view number))
    (restored : ∀ value, fits value → view (make value) = value) :
    (∃ word, words = word :: rest ∧ numeral word value ∧ fits value) ↔
      ∃ word number, words = word :: rest ∧ numeral word (view number) ∧ value = view number := by
  constructor
  · rintro ⟨word, line, denotes, small⟩
    have same := restored value small
    exact ⟨word, make value, line, by rwa [same], same.symm⟩
  · rintro ⟨word, number, line, denotes, rfl⟩
    exact ⟨word, line, denotes, within number⟩

theorem unsigned32_eq_ok_iff {value : Nat} :
    unsigned 32 field words = .ok (value, rest) ↔
      ∃ word, ∃ number : UInt32, words = word :: rest ∧ Unsigned word number.toNat ∧
        value = number.toNat := by
  rw [unsigned_eq_ok_iff]
  exact exists_typed_iff UInt32.toNat_lt fun _ => UInt32.toNat_ofNat_of_lt'

theorem unsigned64_eq_ok_iff {value : Nat} :
    unsigned 64 field words = .ok (value, rest) ↔
      ∃ word, ∃ number : UInt64, words = word :: rest ∧ Unsigned word number.toNat ∧
        value = number.toNat := by
  rw [unsigned_eq_ok_iff]
  exact exists_typed_iff UInt64.toNat_lt fun _ => UInt64.toNat_ofNat_of_lt'

theorem signed32_eq_ok_iff {value : Int} :
    signed 32 field words = .ok (value, rest) ↔
      ∃ word, ∃ number : Int32, words = word :: rest ∧ Signed word number.toInt ∧
        value = number.toInt := by
  rw [signed_eq_ok_iff]
  exact exists_typed_iff Width.fitsSigned_toInt32 fun _ => Width.toInt_ofInt32

theorem signed64_eq_ok_iff {value : Int} :
    signed 64 field words = .ok (value, rest) ↔
      ∃ word, ∃ number : Int64, words = word :: rest ∧ Signed word number.toInt ∧
        value = number.toInt := by
  rw [signed_eq_ok_iff]
  exact exists_typed_iff Width.fitsSigned_toInt64 fun _ => Width.toInt_ofInt64

theorem flag_eq_ok_iff {value : Bool} :
    flag field words = .ok (value, rest) ↔
      ∃ word, words = word :: rest ∧ Unsigned word value.toNat := by
  constructor
  · intro read
    obtain ⟨number, middle, first, read⟩ := bind_eq_ok read
    obtain ⟨word, line, numeral, _⟩ := unsigned_eq_ok_iff.1 first
    split at read
    · cases read
      exact ⟨word, line, numeral⟩
    · cases read
      exact ⟨word, line, numeral⟩
    · cases read
  · rintro ⟨word, line, numeral⟩
    have fits : value.toNat < Width.bound 8 := by cases value <;> decide
    rw [flag, bind_of_ok (unsigned_eq_ok_iff.2 ⟨word, line, numeral, fits⟩)]
    cases value <;> rfl

/-- CPU time that is missing counts as none. -/
theorem optionalUnsigned_iff_saysCpu {cpu : UInt64} :
    (∃ value rest, optionalUnsigned 64 field words = .ok (value, rest) ∧
      cpu = .ofNat (value.getD 0)) ↔ SaysCpu words cpu := by
  constructor
  · rintro ⟨value, rest, read, rfl⟩
    cases words with
    | nil =>
        cases read
        exact .absent
    | cons word extra =>
        obtain ⟨number, interpreted, same⟩ := bind_eq_ok_iff.1 read
        cases same
        obtain ⟨numeral, fits⟩ := readNat_eq_ok_iff.1 (mapError_eq_ok_iff.1 interpreted)
        have same : (UInt64.ofNat number).toNat = number := UInt64.toNat_ofNat_of_lt' fits
        exact .present (by rwa [Option.getD_some, same])
  · intro stated
    cases stated with
    | absent => exact ⟨none, [], rfl, rfl⟩
    | @present word extra cpu numeral =>
        have fits : cpu.toNat < Width.bound 64 := cpu.toNat_lt
        have read := readNat_eq_ok_iff.2 ⟨numeral, fits⟩
        refine ⟨some cpu.toNat, extra, ?_, UInt64.ofNat_toNat.symm⟩
        rw [optionalUnsigned, interpret, read]
        rfl

end Words

/-! ## Lines -/

/-- The event of an event line that starts at some time in ticks. -/
def EventLine.event (line : EventLine) (name : String) (processClock : Bool)
    (tick cursor : Nat) : Event where
  name
  level := line.level
  frame := line.frame
  processClock
  start := .ofNat (cursor * tick)
  stop := .ofNat (cursor * tick + line.duration.toNat * tick)
  cpu := line.cpu

namespace Reader

variable {reader next : Reader} {words rest : List (List Char)}

/-- The reader after an event of this name that starts where the cursor then is. -/
def record (reader : Reader) (place : Section) (cursor : Nat) (name : String)
    (line : EventLine) : Reader :=
  { reader with
    current := some { place with cursor }
    events := (place.id, line.event name reader.processClock reader.tick cursor) :: reader.events }

/-- What a statement makes of a reader that can take it. -/
inductive Takes (reader : Reader) : Statement → Reader → Prop
  | format (names : NameFormat) : Takes reader (.format names) { reader with names }
  | properties (calibration : Calibration) (coarse processClock : Bool) :
      Takes reader (.properties calibration coarse processClock) { reader with
        calibration := some calibration, tick := tickLength coarse, processClock }
  | name (id : UInt32) (name : String) :
      Takes reader (.name id name) { reader with nameTable := (id, name) :: reader.nameTable }
  | thread {id : UInt32} {base : Int64} (notNegative : 0 ≤ base.toInt)
      (fits : base.toInt.toNat * reader.tick < Width.bound 64) :
      Takes reader (.thread id base) { reader with
        current := some ⟨id, base.toInt⟩, opened := id :: reader.opened }
  | event {line : EventLine} {place : Section} {cursor : Nat} {name : String}
      (inSection : reader.current = some place)
      (named : line.label.name? reader.nameTable = some name)
      (time : place.cursor + line.delta.toInt = cursor) (inTime : cursor < Width.bound 63)
      (fits : cursor * reader.tick + line.duration.toNat * reader.tick < Width.bound 64) :
      Takes reader (.event line) (reader.record place cursor name line)

theorem readFormat_eq_ok_iff :
    (reader.readFormat words).map (·.1) = .ok next ↔
      ∃ names, Says reader.names (formatMark :: words) (.format names) ∧
        reader.Takes (.format names) next := by
  rw [map_eq_ok_iff]
  constructor
  · rintro ⟨⟨_, rest⟩, line, rfl⟩
    obtain ⟨version, _, first, read⟩ := Words.bind_eq_ok line
    obtain ⟨word, rfl, numeral, _⟩ := Words.unsigned_eq_ok_iff.1 first
    split at read
    · cases read
      exact ⟨.inlineNames, .format numeral, .format .inlineNames⟩
    · cases read
      exact ⟨.nameTable, .format numeral, .format .nameTable⟩
    · cases read
  · rintro ⟨names, stated, takes⟩
    cases takes
    cases stated with
    | format numeral =>
        have fits : names.version < Width.bound 32 := by cases names <;> decide
        refine ⟨(_, ?rest), ?read, rfl⟩
        case read =>
          rw [readFormat, Words.bind_of_ok (Words.unsigned_eq_ok_iff.2 ⟨_, rfl, numeral, fits⟩)]
          cases names <;> rfl

theorem readProperties_eq_ok_iff :
    (reader.readProperties words).map (·.1) = .ok next ↔
      ∃ calibration coarse processClock,
        Says reader.names (propertiesMark :: words) (.properties calibration coarse processClock) ∧
          reader.Takes (.properties calibration coarse processClock) next := by
  rw [map_eq_ok_iff]
  constructor
  · rintro ⟨⟨_, rest⟩, read, rfl⟩
    obtain ⟨_, _, first, read⟩ := Words.bind_eq_ok read
    obtain ⟨_, _, second, read⟩ := Words.bind_eq_ok read
    obtain ⟨_, _, third, read⟩ := Words.bind_eq_ok read
    obtain ⟨coarse, _, fourth, read⟩ := Words.bind_eq_ok read
    obtain ⟨processClock, _, fifth, read⟩ := Words.bind_eq_ok read
    cases read
    obtain ⟨_, samples, rfl, samplesNumeral, rfl⟩ := Words.unsigned32_eq_ok_iff.1 first
    obtain ⟨_, selfTime, rfl, selfNumeral, rfl⟩ := Words.unsigned64_eq_ok_iff.1 second
    obtain ⟨_, childrenTime, rfl, childrenNumeral, rfl⟩ := Words.unsigned64_eq_ok_iff.1 third
    obtain ⟨_, rfl, coarseFlag⟩ := Words.flag_eq_ok_iff.1 fourth
    obtain ⟨_, rfl, clockFlag⟩ := Words.flag_eq_ok_iff.1 fifth
    rw [UInt32.ofNat_toNat, UInt64.ofNat_toNat, UInt64.ofNat_toNat]
    exact ⟨⟨samples, selfTime, childrenTime⟩, coarse, processClock,
      .properties samplesNumeral selfNumeral childrenNumeral coarseFlag clockFlag,
      .properties _ coarse processClock⟩
  · rintro ⟨calibration, coarse, processClock, stated, takes⟩
    cases takes
    cases stated with
    | properties samplesNumeral selfNumeral childrenNumeral coarseFlag clockFlag =>
        refine ⟨(_, ?rest), ?read, rfl⟩
        case read =>
          rw [readProperties,
            Words.bind_of_ok (Words.unsigned32_eq_ok_iff.2 ⟨_, _, rfl, samplesNumeral, rfl⟩),
            Words.bind_of_ok (Words.unsigned64_eq_ok_iff.2 ⟨_, _, rfl, selfNumeral, rfl⟩),
            Words.bind_of_ok (Words.unsigned64_eq_ok_iff.2 ⟨_, _, rfl, childrenNumeral, rfl⟩),
            Words.bind_of_ok (Words.flag_eq_ok_iff.2 ⟨_, rfl, coarseFlag⟩),
            Words.bind_of_ok (Words.flag_eq_ok_iff.2 ⟨_, rfl, clockFlag⟩),
            UInt32.ofNat_toNat, UInt64.ofNat_toNat, UInt64.ofNat_toNat]
          rfl

theorem readName_eq_ok_iff {names : NameFormat} {id : UInt32} {name : String} :
    (∃ rest, readName words = .ok ((id, name), rest)) ↔
      Says names (nameMark :: words) (.name id name) := by
  constructor
  · rintro ⟨rest, line⟩
    obtain ⟨_, _, first, read⟩ := Words.bind_eq_ok line
    obtain ⟨word, _, second, read⟩ := Words.bind_eq_ok read
    cases read
    obtain ⟨_, id, rfl, numeral, rfl⟩ := Words.unsigned32_eq_ok_iff.1 first
    cases Words.next_eq_ok second
    rw [UInt32.ofNat_toNat]
    exact .name numeral
  · intro stated
    cases stated with
    | name numeral =>
        refine ⟨?rest, ?read⟩
        case read =>
          rw [readName,
            Words.bind_of_ok (Words.unsigned32_eq_ok_iff.2 ⟨_, id, rfl, numeral, rfl⟩),
            Words.bind_of_ok (Words.next_cons _ _ _), UInt32.ofNat_toNat]
          rfl

theorem readThread_eq_ok_iff :
    (reader.readThread words).map (·.1) = .ok next ↔
      ∃ id base, Says reader.names (threadMark :: words) (.thread id base) ∧
        reader.Takes (.thread id base) next := by
  rw [map_eq_ok_iff]
  constructor
  · rintro ⟨⟨_, rest⟩, read, rfl⟩
    obtain ⟨_, _, first, read⟩ := Words.bind_eq_ok read
    obtain ⟨_, _, second, read⟩ := Words.bind_eq_ok read
    obtain ⟨_, id, rfl, idNumeral, rfl⟩ := Words.unsigned32_eq_ok_iff.1 first
    obtain ⟨_, base, rfl, baseNumeral, rfl⟩ := Words.signed64_eq_ok_iff.1 second
    split at read
    · cases read
    · rename_i inRange
      cases read
      rw [not_or, Int.not_lt, Nat.not_le] at inRange
      rw [UInt32.ofNat_toNat]
      exact ⟨id, base, .thread idNumeral baseNumeral, .thread inRange.1 inRange.2⟩
  · rintro ⟨id, base, stated, takes⟩
    cases stated with
    | thread idNumeral baseNumeral =>
        cases takes with
        | thread notNegative fits =>
            refine ⟨(_, ?rest), ?read, rfl⟩
            case read =>
              rw [readThread,
                Words.bind_of_ok (Words.unsigned32_eq_ok_iff.2 ⟨_, id, rfl, idNumeral, rfl⟩),
                Words.bind_of_ok (Words.signed64_eq_ok_iff.2 ⟨_, base, rfl, baseNumeral, rfl⟩),
                if_neg (by omega), UInt32.ofNat_toNat]
              rfl

/-- The words of an event line up to its label, which has to stand for a name. -/
theorem readEventHead_eq_ok_iff {head : EventHead} :
    reader.readEventHead words = .ok (head, rest) ↔
      ∃ frameWord levelWord labelWord, ∃ frame : Bool, ∃ level : Int32, ∃ label : Label,
        ∃ name, words = frameWord :: levelWord :: labelWord :: rest ∧
        Unsigned frameWord frame.toNat ∧ Signed levelWord level.toInt ∧
        label.Says reader.names labelWord ∧ label.name? reader.nameTable = some name ∧
        head = ⟨frame, level.toInt, name⟩ := by
  constructor
  · intro read
    obtain ⟨frame, _, first, read⟩ := Words.bind_eq_ok read
    obtain ⟨_, _, second, read⟩ := Words.bind_eq_ok read
    obtain ⟨frameWord, rfl, frameFlag⟩ := Words.flag_eq_ok_iff.1 first
    obtain ⟨levelWord, level, rfl, levelNumeral, rfl⟩ := Words.signed32_eq_ok_iff.1 second
    cases names : reader.names <;> simp only [names] at read
    case inlineNames =>
      obtain ⟨word, _, third, read⟩ := Words.bind_eq_ok read
      cases read
      cases Words.next_eq_ok third
      exact ⟨frameWord, levelWord, word, frame, level, .inline (.ofList word), .ofList word, rfl,
        frameFlag, levelNumeral, .inline word, rfl, rfl⟩
    case nameTable =>
      obtain ⟨_, _, third, read⟩ := Words.bind_eq_ok read
      obtain ⟨idWord, id, rfl, idNumeral, rfl⟩ := Words.unsigned32_eq_ok_iff.1 third
      rw [UInt32.ofNat_toNat] at read
      cases known : reader.nameTable.lookup id <;> simp only [known] at read
      case none => cases read
      case some name =>
        cases read
        exact ⟨frameWord, levelWord, idWord, frame, level, .entry id, name, rfl, frameFlag,
          levelNumeral, .entry idNumeral, known, rfl⟩
  · rintro ⟨frameWord, levelWord, labelWord, frame, level, label, name, rfl, frameFlag,
      levelNumeral, labelled, named, rfl⟩
    rw [readEventHead, Words.bind_of_ok (Words.flag_eq_ok_iff.2 ⟨frameWord, rfl, frameFlag⟩),
      Words.bind_of_ok (Words.signed32_eq_ok_iff.2 ⟨levelWord, level, rfl, levelNumeral, rfl⟩)]
    generalize reader.names = names at labelled
    cases labelled with
    | inline =>
        cases named
        rfl
    | @entry _ id numeral =>
        have known : reader.nameTable.lookup id = some name := named
        dsimp only
        rw [Words.bind_of_ok (Words.unsigned32_eq_ok_iff.2 ⟨labelWord, id, rfl, numeral, rfl⟩),
          UInt32.ofNat_toNat, known]
        rfl

/-- The words of an event line after its label, which have to place it on the timeline. -/
theorem readEventTail_eq_ok_iff {place : Section} {frame : Bool} {level : Int32} {name : String}
    (label : Label) :
    (∃ rest, reader.readEventTail place ⟨frame, level.toInt, name⟩ words = .ok (next, rest)) ↔
      ∃ deltaWord durationWord extra, ∃ delta : Int64, ∃ duration cpu : UInt64, ∃ cursor : Nat,
        words = deltaWord :: durationWord :: extra ∧ Signed deltaWord delta.toInt ∧
        Unsigned durationWord duration.toNat ∧ SaysCpu extra cpu ∧
        place.cursor + delta.toInt = cursor ∧ cursor < Width.bound 63 ∧
        cursor * reader.tick + duration.toNat * reader.tick < Width.bound 64 ∧
        next = reader.record place cursor name ⟨frame, level, label, delta, duration, cpu⟩ := by
  constructor
  · rintro ⟨rest, read⟩
    obtain ⟨_, _, first, read⟩ := Words.bind_eq_ok read
    obtain ⟨_, extra, second, read⟩ := Words.bind_eq_ok read
    obtain ⟨cpu, _, third, read⟩ := Words.bind_eq_ok read
    obtain ⟨deltaWord, delta, rfl, deltaNumeral, rfl⟩ := Words.signed64_eq_ok_iff.1 first
    obtain ⟨durationWord, duration, rfl, durationNumeral, rfl⟩ :=
      Words.unsigned64_eq_ok_iff.1 second
    have cpuTime := Words.optionalUnsigned_iff_saysCpu.1 ⟨cpu, _, third, rfl⟩
    dsimp only at read
    split at read
    · cases read
    · rename_i narrow
      split at read
      · cases read
      · rename_i notNegative
        split at read
        · cases read
        · rename_i inWidth
          cases read
          obtain ⟨cursor, time⟩ := Int.eq_ofNat_of_zero_le (Int.not_lt.1 notNegative)
          have inTime : cursor < Width.bound 63 := by
            simpa [time, Width.fitsSigned_natCast] using narrow
          rw [time, Int.toNat_natCast, Nat.not_le] at inWidth
          refine ⟨deltaWord, durationWord, extra, delta, duration, _, cursor, rfl, deltaNumeral,
            durationNumeral, cpuTime, time, inTime, inWidth, ?_⟩
          simp only [record, EventLine.event, time, Int.toNat_natCast, Int32.ofInt_toInt]
  · rintro ⟨deltaWord, durationWord, extra, delta, duration, cpu, cursor, rfl, deltaNumeral,
      durationNumeral, cpuTime, time, inTime, inWidth, rfl⟩
    obtain ⟨value, rest, read, rfl⟩ := Words.optionalUnsigned_iff_saysCpu.2 cpuTime
    refine ⟨rest, ?_⟩
    rw [readEventTail,
      Words.bind_of_ok (Words.signed64_eq_ok_iff.2 ⟨deltaWord, delta, rfl, deltaNumeral, rfl⟩),
      Words.bind_of_ok
        (Words.unsigned64_eq_ok_iff.2 ⟨durationWord, duration, rfl, durationNumeral, rfl⟩),
      Words.bind_of_ok read]
    simp only [time, Int.toNat_natCast, Int32.ofInt_toInt]
    rw [Width.fitsSigned_natCast.2 inTime, if_neg (by decide), if_neg (by omega),
      if_neg (Nat.not_le.2 inWidth)]
    rfl

theorem readEvent_eq_ok_iff :
    (reader.readEvent words).outcome = .ok next ↔
      ∃ line, Says reader.names (eventMark :: words) (.event line) ∧
        reader.Takes (.event line) next := by
  constructor
  · intro read
    rw [readEvent] at read
    split at read
    · cases read
    · rename_i place inSection
      split at read
      · cases read
      · rename_i head rest begins
        obtain ⟨⟨_, last⟩, ends, rfl⟩ := map_eq_ok_iff.1 read
        obtain ⟨frameWord, levelWord, labelWord, frame, level, label, name, rfl, frameFlag,
          levelNumeral, labelled, named, rfl⟩ := readEventHead_eq_ok_iff.1 begins
        obtain ⟨deltaWord, durationWord, extra, delta, duration, cpu, cursor, rfl, deltaNumeral,
          durationNumeral, cpuTime, time, inTime, inWidth, rfl⟩ :=
            (readEventTail_eq_ok_iff label).1 ⟨last, ends⟩
        exact ⟨⟨frame, level, label, delta, duration, cpu⟩,
          .event frameFlag levelNumeral labelled deltaNumeral durationNumeral cpuTime,
          .event inSection named time inTime inWidth⟩
  · rintro ⟨line, stated, takes⟩
    cases stated with
    | event frameFlag levelNumeral labelled deltaNumeral durationNumeral cpuTime =>
        cases takes with
        | event inSection named time inTime inWidth =>
            have begins := fun rest => (@readEventHead_eq_ok_iff reader _ rest _).2 ⟨_, _, _,
              line.frame, line.level, line.label, _, rfl, frameFlag, levelNumeral, labelled, named,
              rfl⟩
            obtain ⟨last, ends⟩ := (readEventTail_eq_ok_iff line.label).2 ⟨_, _, _, line.delta,
              line.duration, line.cpu, _, rfl, deltaNumeral, durationNumeral, cpuTime, time,
              inTime, inWidth, rfl⟩
            rw [readEvent, inSection]
            dsimp only
            rw [begins]
            exact map_eq_ok_iff.2 ⟨_, ends, rfl⟩

/-- The words of a line are accepted if there are none or they make a statement that the reader
takes. -/
theorem readWords_eq_ok_iff :
    (reader.readWords words).outcome = .ok next ↔
      words = [] ∧ next = reader ∨
        ∃ statement, Says reader.names words statement ∧ reader.Takes statement next := by
  constructor
  · intro read
    cases words with
    | nil =>
        cases read
        exact .inl ⟨rfl, rfl⟩
    | cons mark words =>
        refine .inr ?_
        rw [readWords] at read
        split at read
        · rename_i isFormat
          obtain ⟨names, stated, takes⟩ := readFormat_eq_ok_iff.1 read
          exact ⟨.format names, isFormat ▸ stated, takes⟩
        split at read
        · rename_i isProperties
          obtain ⟨_, _, _, stated, takes⟩ := readProperties_eq_ok_iff.1 read
          exact ⟨.properties _ _ _, isProperties ▸ stated, takes⟩
        split at read
        · rename_i isName
          split at read
          · cases read
          · rename_i entry rest line
            cases read
            have stated : Says reader.names (nameMark :: words) (.name entry.1 entry.2) :=
              readName_eq_ok_iff.1 ⟨rest, line⟩
            exact ⟨.name entry.1 entry.2, isName ▸ stated, .name entry.1 entry.2⟩
        split at read
        · rename_i isThread
          obtain ⟨id, base, stated, takes⟩ := readThread_eq_ok_iff.1 read
          exact ⟨.thread id base, isThread ▸ stated, takes⟩
        split at read
        · rename_i isEvent
          obtain ⟨line, stated, takes⟩ := readEvent_eq_ok_iff.1 read
          exact ⟨.event line, isEvent ▸ stated, takes⟩
        · cases read
  · rintro (⟨rfl, rfl⟩ | ⟨statement, stated, takes⟩)
    · rfl
    -- The mark, by which the line is read, is that of the statement.
    · cases form : stated with
      | format =>
          rw [readWords, if_pos rfl]
          exact readFormat_eq_ok_iff.2 ⟨_, stated, takes⟩
      | properties =>
          rw [readWords, if_neg (by decide), if_pos rfl]
          exact readProperties_eq_ok_iff.2 ⟨_, _, _, stated, takes⟩
      | name =>
          obtain ⟨_, line⟩ := readName_eq_ok_iff.2 stated
          rw [readWords, if_neg (by decide), if_neg (by decide), if_pos rfl, line]
          cases takes
          rfl
      | thread =>
          rw [readWords, if_neg (by decide), if_neg (by decide), if_neg (by decide), if_pos rfl]
          exact readThread_eq_ok_iff.2 ⟨_, _, stated, takes⟩
      | event =>
          rw [readWords, if_neg (by decide), if_neg (by decide), if_neg (by decide),
            if_neg (by decide), if_pos rfl]
          exact readEvent_eq_ok_iff.2 ⟨_, stated, takes⟩

end Reader

end CallProfiler.Log
