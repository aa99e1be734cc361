import CallProfiler.Log.Decoder
import CallProfiler.Log.Encoder
import CallProfiler.Proofs.Text.Numeral
import CallProfiler.Proofs.Text.Words
import Mathlib.Data.List.Forall2

/-!
# Lines of an event log read back

What the writer puts on a line, the reader finds there: one lemma for every kind of word and,
from those, one for every kind of line.
-/

namespace CallProfiler.Log

open CallProfiler.Text

/-! ## Fields -/

/-- The words of a line are those that its fields show. -/
theorem words_spaced {fields shown : List (List Char)} (shows : List.Forall₂ Shows fields shown) :
    words (spaced fields) = shown := by
  induction shows with
  | nil => rfl
  | @cons field word fields shown first rest inductionHypothesis =>
      obtain ⟨isWord, count, rfl⟩ := first
      cases rest with
      | nil =>
          rw [spaced, List.intercalate_singleton, words_replicate_append, words_of_isWord isWord]
      | cons second others =>
          rw [spaced] at inductionHypothesis
          rw [spaced, List.intercalate_cons_cons, List.append_assoc, List.append_assoc,
            words_replicate_append, List.singleton_append,
            words_append_cons isWord (by decide), inductionHypothesis]

/-- No line is broken by its fields. -/
theorem newline_not_mem_spaced {fields shown : List (List Char)}
    (shows : List.Forall₂ Shows fields shown) : '\n' ∉ spaced fields := by
  induction shows with
  | nil => simp [spaced]
  | @cons field word fields shown first rest inductionHypothesis =>
      obtain ⟨isWord, count, rfl⟩ := first
      have inWord : '\n' ∉ word := by
        intro member
        have blank := (isWord_iff.1 isWord).2 _ member
        exact absurd blank (by decide)
      have inField : '\n' ∉ List.replicate count ' ' ++ word := by
        simp [inWord]
      cases rest with
      | nil => simpa [spaced] using inWord
      | cons second others =>
          rw [spaced] at inductionHypothesis
          rw [spaced, List.intercalate_cons_cons]
          intro member
          rcases List.mem_append.1 member with inFirst | inRest
          · rcases List.mem_append.1 inFirst with inside | between
            · exact inField inside
            · exact absurd between (by decide)
          · exact inductionHypothesis inRest

/-! ## Words -/

namespace Words

/-- Reading two things is reading the one and then, from what is left, the other. -/
theorem bind_eq_ok {α β : Type} {first : Words α} {next : α → Words β}
    {words : List (List Char)} {result : β × List (List Char)}
    (read : (first >>= next) words = .ok result) :
    ∃ value rest, first words = .ok (value, rest) ∧ next value rest = .ok result := by
  have read : (first words >>= fun result => next result.1 result.2) = .ok result := read
  obtain ⟨⟨value, rest⟩, head, tail⟩ := bind_eq_ok_iff.1 read
  exact ⟨value, rest, head, tail⟩

/-- Reading goes on after a word that was read. -/
theorem bind_of_ok {α β : Type} {first : Words α} {next : α → Words β}
    {words rest : List (List Char)} {value : α} (read : first words = .ok (value, rest)) :
    (first >>= next) words = next value rest := by
  show (first words >>= fun result => next result.1 result.2) = _
  rw [read]
  rfl

theorem next_eq_ok {field : Field} {words rest : List (List Char)} {word : List Char}
    (read : next field words = .ok (word, rest)) : words = word :: rest := by
  cases words with
  | nil => cases read
  | cons head tail =>
      cases read
      rfl

theorem next_cons (field : Field) (word : List Char) (rest : List (List Char)) :
    next field (word :: rest) = .ok (word, rest) := rfl

theorem unsigned_decimal {width value : Nat} (field : Field) (fits : value < Width.bound width)
    (rest : List (List Char)) :
    unsigned width field (decimal value :: rest) = .ok (value, rest) := by
  rw [unsigned, bind_of_ok (next_cons field _ rest), interpret, readNat_decimal fits]
  rfl

theorem signed_signedDecimal {width : Nat} {value : Int} (field : Field)
    (fits : Width.fitsSigned width value = true) (rest : List (List Char)) :
    signed width field (signedDecimal value :: rest) = .ok (value, rest) := by
  rw [signed, bind_of_ok (next_cons field _ rest), interpret, readInt_signedDecimal fits]
  rfl

theorem flag_flagDigit (field : Field) (value : Bool) (rest : List (List Char)) :
    flag field (flagDigit value :: rest) = .ok (value, rest) := by
  cases value <;> rfl

theorem optionalUnsigned_decimal {width value : Nat} (field : Field)
    (fits : value < Width.bound width) (rest : List (List Char)) :
    optionalUnsigned width field (decimal value :: rest) = .ok (some value, rest) := by
  rw [optionalUnsigned, interpret, readNat_decimal fits]
  rfl

end Words

/-! ## Lines -/

theorem isWord_flagDigit (flag : Bool) : isWord (flagDigit flag) = true := by
  cases flag <;> decide

/-- An event that the format can hold: its name is a word, it does not end before it begins, and
signed numbers can hold its times. -/
structure Writable (event : Event) : Prop where
  isName : isWord event.name.toList = true
  ordered : event.start ≤ event.stop
  inTime : event.stop.toNat < Width.bound 63

instance (event : Event) : Decidable (Writable event) :=
  decidable_of_iff (isWord event.name.toList = true ∧ event.start ≤ event.stop ∧
      event.stop.toNat < Width.bound 63)
    ⟨fun ⟨isName, ordered, inTime⟩ => ⟨isName, ordered, inTime⟩,
      fun writable => ⟨writable.isName, writable.ordered, writable.inTime⟩⟩

/-- An event that the format can hold in ticks of some length. -/
structure WritableIn (tick : Nat) (event : Event) : Prop where
  isName : isWord event.name.toList = true
  ordered : event.start ≤ event.stop
  inTime : event.stop.toNat / tick < Width.bound 63

theorem Writable.inNanoseconds {event : Event} (writable : Writable event) :
    WritableIn (tickLength false) event :=
  ⟨writable.isName, writable.ordered, Nat.lt_of_le_of_lt (Nat.div_le_self _ _) writable.inTime⟩

theorem WritableIn.ticks_le {tick : Nat} {event : Event} (writable : WritableIn tick event) :
    event.start.toNat / tick ≤ event.stop.toNat / tick :=
  Nat.div_le_div_right (UInt64.le_iff_toNat_le.1 writable.ordered)

theorem WritableIn.startInTime {tick : Nat} {event : Event} (writable : WritableIn tick event) :
    event.start.toNat / tick < Width.bound 63 :=
  Nat.lt_of_le_of_lt writable.ticks_le writable.inTime

/-- Times of a log whose differences are taken stay within the width. -/
theorem fitsSigned_sub {left right : Nat} (leftFits : left < Width.bound 63)
    (rightFits : right < Width.bound 63) : Width.fitsSigned 64 ((left : Int) - right) = true := by
  have half : Width.bound (64 - 1) = Width.bound 63 := rfl
  rw [Width.fitsSigned_iff, half]
  omega

theorem signedDecimal_sub {left right : Nat} (ordered : right ≤ left) :
    signedDecimal ((left : Int) - right) = decimal (left - right) := by
  rw [signedDecimal, if_neg (by omega)]
  congr 1
  omega

/-- What an event line keeps of an event: the clock is that of the whole log, and CPU time may
be left out. -/
def restored (cpu processClock : Bool) (event : Event) : Event :=
  { event with processClock, cpu := if cpu then event.cpu else 0 }

/-- A time rounded down to a whole number of ticks. -/
def roundedDown (tick : Nat) (time : UInt64) : UInt64 := .ofNat (time.toNat / tick * tick)

/-- An event whose start and stop are each rounded down to whole ticks. -/
def quantised (tick : Nat) (event : Event) : Event :=
  { event with start := roundedDown tick event.start, stop := roundedDown tick event.stop }

/-- A time in whole ticks is again one of 64 bits when it is put in nanoseconds. -/
theorem div_mul_lt (time : UInt64) (tick : Nat) : time.toNat / tick * tick < Width.bound 64 :=
  Nat.lt_of_le_of_lt (Nat.div_mul_le_self _ _) time.toNat_lt

theorem roundedDown_one (time : UInt64) : roundedDown 1 time = time := by
  rw [roundedDown, Nat.div_one, Nat.mul_one, UInt64.ofNat_toNat]

/-- In nanoseconds nothing is rounded. -/
theorem quantised_one (event : Event) : quantised 1 event = event := by
  rw [quantised, roundedDown_one, roundedDown_one]

namespace Reader

variable (reader : Reader)

/-- A line is read by the words that its fields show. -/
theorem readLine_spaced {fields shown : List (List Char)}
    (shows : List.Forall₂ Shows fields shown) :
    reader.readLine (some (spaced fields)) = reader.readWords shown := by
  rw [readLine, words_spaced shows]

theorem readFormat_version (names : NameFormat) :
    reader.readFormat [decimal names.version] = .ok ({ reader with names }, []) := by
  cases names <;> rfl

theorem readProperties_written (calibration : Calibration) (coarse processClock : Bool) :
    reader.readProperties [decimal calibration.samples.toNat, decimal calibration.selfTime.toNat,
        decimal calibration.childrenTime.toNat, flagDigit coarse, flagDigit processClock] =
      .ok ({ reader with
        calibration := some calibration, tick := tickLength coarse, processClock }, []) := by
  have samples : calibration.samples.toNat < Width.bound 32 := calibration.samples.toNat_lt
  have selfTime : calibration.selfTime.toNat < Width.bound 64 := calibration.selfTime.toNat_lt
  have childrenTime : calibration.childrenTime.toNat < Width.bound 64 :=
    calibration.childrenTime.toNat_lt
  rw [readProperties, Words.bind_of_ok (Words.unsigned_decimal _ samples _),
    Words.bind_of_ok (Words.unsigned_decimal _ selfTime _),
    Words.bind_of_ok (Words.unsigned_decimal _ childrenTime _),
    Words.bind_of_ok (Words.flag_flagDigit _ coarse _),
    Words.bind_of_ok (Words.flag_flagDigit _ processClock _),
    UInt32.ofNat_toNat, UInt64.ofNat_toNat, UInt64.ofNat_toNat]
  rfl

theorem readName_written {id : Nat} (fits : id < Width.bound 32) (name : String) :
    readName [decimal id, name.toList] = .ok ((.ofNat id, name), []) := by
  rw [readName, Words.bind_of_ok (Words.unsigned_decimal _ fits _),
    Words.bind_of_ok (Words.next_cons _ _ _), String.ofList_toList]
  rfl

theorem readThread_written (id : UInt32) {base : Nat} (inTime : base < Width.bound 63)
    (fits : base * reader.tick < Width.bound 64) :
    reader.readThread [decimal id.toNat, signedDecimal base] =
      .ok ({ reader with current := some ⟨id, base⟩, opened := id :: reader.opened }, []) := by
  have ofWidth : id.toNat < Width.bound 32 := id.toNat_lt
  have inRange : ¬ ((base : Int) < 0 ∨ Width.bound 64 ≤ (base : Int).toNat * reader.tick) := by
    rw [Int.toNat_natCast]
    omega
  rw [readThread, Words.bind_of_ok (Words.unsigned_decimal _ ofWidth _),
    Words.bind_of_ok (Words.signed_signedDecimal _ (Width.fitsSigned_natCast.2 inTime) _),
    if_neg inRange, UInt32.ofNat_toNat]
  rfl

/-- Whether the reader knows what name a field of an event line stands for. -/
def Knows (table : List String) (name : String) : Prop :=
  match reader.names with
  | .inlineNames => True
  | .nameTable =>
    table.idxOf name < Width.bound 32 ∧
      reader.nameTable.lookup (.ofNat (table.idxOf name)) = some name

theorem readEventHead_written {table : List String} {event : Event}
    (known : reader.Knows table event.name) (rest : List (List Char)) :
    reader.readEventHead (flagDigit event.frame :: signedDecimal event.level.toInt ::
        nameField reader.names table event.name :: rest) =
      .ok (⟨event.frame, event.level.toInt, event.name⟩, rest) := by
  have level := Width.fitsSigned_toInt32 event.level
  rw [readEventHead, Words.bind_of_ok (Words.flag_flagDigit _ _ _),
    Words.bind_of_ok (Words.signed_signedDecimal _ level _)]
  rw [Knows] at known
  cases names : reader.names with
  | inlineNames =>
      simp only [nameField]
      rw [Words.bind_of_ok (Words.next_cons _ _ _), String.ofList_toList]
      rfl
  | nameTable =>
      rw [names] at known
      simp only [nameField]
      rw [Words.bind_of_ok (Words.unsigned_decimal _ known.1 _), known.2]
      rfl

/-- The CPU time on an event line, if there is one. -/
theorem optionalUnsigned_written (cpu : Bool) (time : UInt64) :
    Words.optionalUnsigned 64 .cpuTime (if cpu then [decimal time.toNat] else []) =
      .ok (if cpu then some time.toNat else none, []) := by
  cases cpu with
  | false => rfl
  | true => exact Words.optionalUnsigned_decimal _ time.toNat_lt _

theorem readEventTail_written (id : UInt32) {cursor : Nat} {event : Event} (cpu : Bool)
    (fits : cursor < Width.bound 63) (writable : WritableIn reader.tick event) :
    reader.readEventTail ⟨id, cursor⟩ ⟨event.frame, event.level.toInt, event.name⟩
        (signedDecimal (((event.start.toNat / reader.tick : Nat) : Int) - cursor) ::
          signedDecimal (((event.stop.toNat / reader.tick : Nat) : Int) -
            (event.start.toNat / reader.tick : Nat)) ::
          if cpu then [decimal event.cpu.toNat] else []) =
      .ok ({ reader with
        current := some ⟨id, (event.start.toNat / reader.tick : Nat)⟩
        events := (id, restored cpu reader.processClock (quantised reader.tick event)) ::
          reader.events }, []) := by
  have ordered := writable.ticks_le
  have startInTime := writable.startInTime
  have inTime := writable.inTime
  have stopFits := div_mul_lt event.stop reader.tick
  rw [quantised, roundedDown, roundedDown]
  generalize event.start.toNat / reader.tick = start at *
  generalize event.stop.toNat / reader.tick = stop at *
  have half : Width.bound 64 = 2 * Width.bound 63 := Width.bound_succ 63
  have delta : Width.fitsSigned 64 ((start : Int) - cursor) = true := fitsSigned_sub startInTime fits
  have duration : stop - start < Width.bound 64 := by omega
  have cursorAfter : (cursor : Int) + (start - cursor) = start := by omega
  have onTime : start * reader.tick + (stop - start) * reader.tick = stop * reader.tick := by
    rw [← Nat.add_mul, Nat.add_sub_cancel' ordered]
  rw [readEventTail, Words.bind_of_ok (Words.signed_signedDecimal _ delta _),
    signedDecimal_sub ordered, Words.bind_of_ok (Words.unsigned_decimal _ duration _),
    Words.bind_of_ok (optionalUnsigned_written cpu event.cpu)]
  simp only [cursorAfter, Int.toNat_natCast, onTime]
  rw [Width.fitsSigned_natCast.2 startInTime, if_neg (by decide), if_neg (by omega),
    if_neg (Nat.not_le.2 stopFits), Int32.ofInt_toInt]
  cases cpu with
  | false => rfl
  | true =>
      rw [if_pos rfl, Option.getD_some, UInt64.ofNat_toNat]
      rfl

theorem shows_formatLine (names : NameFormat) :
    List.Forall₂ Shows [formatMark, decimal names.version] [formatMark, decimal names.version] :=
  .cons (.refl (by decide)) (.cons (.refl (isWord_decimal _)) .nil)

theorem readLine_format (names : NameFormat) :
    (reader.readLine (some (spaced [formatMark, decimal names.version]))).outcome =
      .ok { reader with names } := by
  rw [readLine_spaced reader (shows_formatLine names), readWords, if_pos rfl, readFormat_version]
  rfl

/-- The fields of the properties line, all of which are words. -/
def propertiesFields (calibration : Calibration) (coarse processClock : Bool) : List (List Char) :=
  [propertiesMark, decimal calibration.samples.toNat, decimal calibration.selfTime.toNat,
    decimal calibration.childrenTime.toNat, flagDigit coarse, flagDigit processClock]

theorem shows_propertiesFields (calibration : Calibration) (coarse processClock : Bool) :
    List.Forall₂ Shows (propertiesFields calibration coarse processClock)
      (propertiesFields calibration coarse processClock) :=
  .cons (.refl (by decide)) (.cons (.refl (isWord_decimal _)) (.cons (.refl (isWord_decimal _))
    (.cons (.refl (isWord_decimal _)) (.cons (.refl (isWord_flagDigit _))
      (.cons (.refl (isWord_flagDigit _)) .nil)))))

theorem readLine_properties (calibration : Calibration) (coarse processClock : Bool) :
    (reader.readLine (some (spaced (propertiesFields calibration coarse processClock)))).outcome =
      .ok { reader with
        calibration := some calibration, tick := tickLength coarse, processClock } := by
  rw [readLine_spaced reader (shows_propertiesFields calibration coarse processClock),
    propertiesFields, readWords, if_neg (by decide), if_pos rfl, readProperties_written]
  rfl

theorem shows_nameLine (id : Nat) {name : String} (isName : isWord name.toList = true) :
    List.Forall₂ Shows [nameMark, flushRight 3 (decimal id), name.toList]
      [nameMark, decimal id, name.toList] :=
  .cons (.refl (by decide)) (.cons (.flushRight 3 (isWord_decimal id)) (.cons (.refl isName) .nil))

theorem readLine_name {id : Nat} (fits : id < Width.bound 32) {name : String}
    (isName : isWord name.toList = true) :
    (reader.readLine (some (nameLine id name))).outcome =
      .ok { reader with nameTable := (.ofNat id, name) :: reader.nameTable } := by
  rw [nameLine, readLine_spaced reader (shows_nameLine id isName), readWords,
    if_neg (by decide), if_neg (by decide), if_pos rfl, readName_written fits]

theorem shows_threadLine (id : UInt32) (base : Int) :
    List.Forall₂ Shows [threadMark, flushRight 3 (decimal id.toNat), signedDecimal base]
      [threadMark, decimal id.toNat, signedDecimal base] :=
  .cons (.refl (by decide)) (.cons (.flushRight 3 (isWord_decimal _))
    (.cons (.refl (isWord_signedDecimal base)) .nil))

theorem readLine_thread (id : UInt32) {base : Nat} (inTime : base < Width.bound 63)
    (fits : base * reader.tick < Width.bound 64) :
    (reader.readLine (some (spaced [threadMark, flushRight 3 (decimal id.toNat),
        signedDecimal base]))).outcome =
      .ok { reader with current := some ⟨id, base⟩, opened := id :: reader.opened } := by
  rw [readLine_spaced reader (shows_threadLine id base), readWords, if_neg (by decide),
    if_neg (by decide), if_neg (by decide), if_pos rfl, readThread_written reader id inTime fits]
  rfl

end Reader

/-- The fields of an event line with these times. -/
def timedFields (options : EncodeOptions) (table : List String) (event : Event)
    (delta duration : Int) : List (List Char) :=
  eventMark :: flagDigit event.frame :: signedDecimal event.level.toInt ::
    nameField options.names table event.name :: signedDecimal delta :: signedDecimal duration ::
    if options.cpu then [decimal event.cpu.toNat] else []

theorem shows_timedFields (options : EncodeOptions) (table : List String) {event : Event}
    (isName : isWord event.name.toList = true) (delta duration : Int) :
    List.Forall₂ Shows (timedFields options table event delta duration)
      (timedFields options table event delta duration) := by
  have name : isWord (nameField options.names table event.name) = true := by
    cases options.names with
    | inlineNames => exact isName
    | nameTable => exact isWord_decimal _
  have cpu : List.Forall₂ Shows (if options.cpu then [decimal event.cpu.toNat] else [])
      (if options.cpu then [decimal event.cpu.toNat] else []) := by
    split
    · exact .cons (.refl (isWord_decimal _)) .nil
    · exact .nil
  exact .cons (.refl (by decide)) (.cons (.refl (isWord_flagDigit _))
    (.cons (.refl (isWord_signedDecimal _)) (.cons (.refl name)
      (.cons (.refl (isWord_signedDecimal _)) (.cons (.refl (isWord_signedDecimal _)) cpu)))))

/-- The fields of an event line, all of which are words. -/
def eventFields (options : EncodeOptions) (table : List String) (cursor : Nat) (event : Event) :
    List (List Char) :=
  let start := event.start.toNat / tickLength options.coarse
  let stop := event.stop.toNat / tickLength options.coarse
  timedFields options table event ((start : Int) - cursor) ((stop : Int) - start)

theorem shows_eventFields (options : EncodeOptions) (table : List String) (cursor : Nat)
    {event : Event} (isName : isWord event.name.toList = true) :
    List.Forall₂ Shows (eventFields options table cursor event)
      (eventFields options table cursor event) :=
  shows_timedFields options table isName _ _

/-- A time in ticks, if a signed number can hold it. -/
theorem ticks_of_lt {tick : Nat} {time : UInt64} (fits : time.toNat / tick < Width.bound 63) :
    ticks tick time = (time.toNat / tick : Nat) :=
  if_pos fits

/-- Writing an event does not fail, and writes its fields. -/
theorem eventLine_eq_ok (options : EncodeOptions) (table : List String) {cursor : Nat}
    {event : Event} (fits : cursor < Width.bound 63)
    (writable : WritableIn (tickLength options.coarse) event) :
    eventLine options table cursor event = .ok (spaced (eventFields options table cursor event)) := by
  have startInTime := writable.startInTime
  rw [eventLine, ticks_of_lt startInTime, ticks_of_lt writable.inTime, Checked.subtractSigned,
    if_pos (fitsSigned_sub startInTime fits), Checked.subtractSigned,
    if_pos (fitsSigned_sub writable.inTime startInTime)]
  rfl

/-- What is read back of an event that was written. -/
def written (options : EncodeOptions) (processClock : Bool) (event : Event) : Event :=
  restored options.cpu processClock (quantised (tickLength options.coarse) event)

/-- An event line is read back as the event, with what the format drops left out. -/
theorem Reader.readLine_event (reader : Reader) (id : UInt32) {cursor : Nat}
    (inSection : reader.current = some ⟨id, cursor⟩) {options : EncodeOptions}
    (tick : reader.tick = tickLength options.coarse) (names : reader.names = options.names)
    {table : List String} {event : Event}
    (writable : WritableIn (tickLength options.coarse) event)
    (known : reader.Knows table event.name) (fits : cursor < Width.bound 63) :
    (reader.readLine (some (spaced (eventFields options table cursor event)))).outcome =
      .ok { reader with
        current := some ⟨id, (event.start.toNat / tickLength options.coarse : Nat)⟩
        events := (id, written options reader.processClock event) :: reader.events } := by
  rw [readLine_spaced reader (shows_eventFields options table cursor writable.isName), eventFields,
    timedFields, readWords, if_neg (by decide), if_neg (by decide), if_neg (by decide),
    if_neg (by decide), if_pos rfl, readEvent, inSection]
  simp only
  rw [← names, reader.readEventHead_written known]
  simp only
  rw [written, ← tick] at *
  rw [reader.readEventTail_written id options.cpu fits writable]
  rfl

end CallProfiler.Log
