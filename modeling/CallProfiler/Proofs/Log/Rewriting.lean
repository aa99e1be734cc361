import CallProfiler.Proofs.Log.Reading
import CallProfiler.Proofs.Log.RoundTrip

/-!
# Decoded logs written again

A decoder accepts times of 64 bits, but a writer puts them down as signed numbers.
`encode_of_decode` says what becomes of a decoded log that is written in nanoseconds: it comes
back if all its events stop below the bound of signed numbers, and else it is lost, because
the writing faults or a line is written that no reader accepts. `Fails` is what `Leads` is not:
lines that end in a fault, or at which a reader stops.
-/

namespace CallProfiler.Log

open CallProfiler.Text

/-! ## Encodings that no reader gets through -/

/-- The writing does not come to its end, or a reader stops at one of the lines. -/
inductive Encoding.Fails : Encoding → Reader → Prop where
  | stopped {lines : List (List Char)} {reader : Reader} (stop : Stop InvalidName) :
      Fails ⟨lines, .error stop⟩ reader
  | refused {line : List Char} {later : List (List Char)} {outcome : Except (Stop InvalidName) Unit}
      {reader : Reader} (problem : LineProblem) (unbroken : '\n' ∉ line)
      (stops : (reader.readLine (some line)).outcome = .error problem) :
      Fails ⟨line :: later, outcome⟩ reader
  | later {line : List Char} {rest : List (List Char)} {outcome : Except (Stop InvalidName) Unit}
      {reader next : Reader} (unbroken : '\n' ∉ line)
      (first : (reader.readLine (some line)).outcome = .ok next) (fails : Fails ⟨rest, outcome⟩ next) :
      Fails ⟨line :: rest, outcome⟩ reader

namespace Encoding

variable {first second encoding : Encoding} {before middle reader : Reader}

/-- What fails goes on failing, whatever is written after it. -/
theorem Fails.andThen (fails : first.Fails reader) (second : Encoding) :
    (first.andThen second).Fails reader := by
  induction fails with
  | stopped stop => exact .stopped stop
  | @refused line later outcome reader problem unbroken stops =>
      cases outcome with
      | ok done => exact .refused problem unbroken stops
      | error stop => exact .stopped stop
  | @later line rest outcome reader next unbroken first _ inductionHypothesis =>
      cases outcome with
      | ok done => exact .later unbroken first inductionHypothesis
      | error stop => exact .stopped stop

/-- A failure may come after lines that are read. -/
theorem Leads.andThen_fails (leads : first.Leads before middle) (fails : second.Fails middle) :
    (first.andThen second).Fails before := by
  obtain ⟨lines, outcome⟩ := first
  obtain ⟨complete, unbroken, read⟩ := leads
  cases complete
  rw [Encoding.andThen]
  dsimp only at unbroken read ⊢
  induction lines generalizing before with
  | nil =>
      cases read
      exact fails
  | cons line rest inductionHypothesis =>
      rw [Reader.readAll, List.foldlM_cons] at read
      obtain ⟨next, head, tail⟩ := bind_eq_ok_iff.1 read
      obtain ⟨own, others⟩ := List.forall_mem_cons.1 unbroken
      exact .later own head (inductionHypothesis others tail)

/-- A decoder refuses the text of lines at which a reader stops. -/
theorem Fails.readLines (fails : encoding.Fails reader) (complete : encoding.outcome = .ok ())
    (decoder : Decoder) (number : Nat) :
    ∃ reason, (decoder.readLines reader number (linesOfText encoding.text)).2 = .error reason := by
  induction fails generalizing decoder number with
  | stopped stop => cases complete
  | @refused line later outcome reader problem unbroken stops =>
      rw [text, List.flatMap_cons, List.append_assoc, List.singleton_append, linesOfText,
        lines_append_cons unbroken, List.map_cons, Decoder.readLines]
      simp only [stops]
      exact ⟨_, rfl⟩
  | @later line rest outcome reader next unbroken first _ inductionHypothesis =>
      rw [text, List.flatMap_cons, List.append_assoc, List.singleton_append, linesOfText,
        lines_append_cons unbroken, List.map_cons, Decoder.readLines]
      simp only [first]
      exact inductionHypothesis complete _ _

end Encoding

/-- A written log does not come back: the writing faults, or its text is refused. -/
def Lost (options : EncodeOptions) (log : EventLog) : Prop :=
  ∀ text, (encode options log).toText = .ok text → ∃ reason, decode (linesOfText text) = .error reason

theorem Lost.not_roundTrips {options : EncodeOptions} {log : EventLog} (lost : Lost options log) :
    ¬ RoundTrips options log := by
  rintro ⟨text, decoded, written, accepted, _⟩
  obtain ⟨reason, refused⟩ := lost text written
  rw [refused] at accepted
  cases accepted

theorem lost_of_fails {options : EncodeOptions} {log : EventLog}
    (fails : (encode options log).Fails .start) : Lost options log := by
  intro text written
  rw [Encoding.toText] at written
  obtain ⟨_, complete, rfl⟩ := map_eq_ok_iff.1 written
  obtain ⟨reason, refused⟩ := fails.readLines complete .fresh 1
  refine ⟨reason, ?_⟩
  show Except.bind (Decoder.readLines _ _ _ _).2 _ = _
  rw [refused]
  rfl

/-! ## Late times -/

/-- A time that a signed number cannot hold is written as the negative number of its bits. -/
theorem ticks_of_le {time : UInt64} (late : Width.bound 63 ≤ time.toNat) :
    ticks (tickLength false) time = (time.toNat : Int) - Width.bound 64 := by
  have whole : time.toNat / tickLength false = time.toNat := Nat.div_one _
  rw [ticks, whole]
  exact if_neg (Nat.not_lt.2 late)

theorem ticks_neg {time : UInt64} (late : Width.bound 63 ≤ time.toNat) :
    ticks (tickLength false) time < 0 := by
  have inWidth : time.toNat < Width.bound 64 := time.toNat_lt
  rw [ticks_of_le late]
  omega

theorem ticks_nonneg {time : UInt64} (inTime : time.toNat < Width.bound 63) :
    0 ≤ ticks (tickLength false) time := by
  rw [ticks_of_lt (Nat.lt_of_le_of_lt (Nat.div_le_self _ _) inTime)]
  exact Int.natCast_nonneg _

/-- An event with its times in ticks, if their differences fit. -/
theorem eventLine_timed {options : EncodeOptions} (precise : options.coarse = false)
    {table : List String} {cursor : Int} {event : Event} {line : List Char}
    (written : eventLine options table cursor event = .ok line) :
    ∃ delta duration, Width.fitsSigned 64 delta = true ∧
      delta = ticks (tickLength false) event.start - cursor ∧
      duration = ticks (tickLength false) event.stop - ticks (tickLength false) event.start ∧
      line = spaced (timedFields options table event delta duration) := by
  rw [eventLine, precise] at written
  obtain ⟨delta, first, written⟩ := bind_eq_ok_iff.1 written
  obtain ⟨duration, second, written⟩ := bind_eq_ok_iff.1 written
  obtain ⟨fits, rfl⟩ := Checked.subtractSigned_eq_ok_iff.1 first
  obtain ⟨_, rfl⟩ := Checked.subtractSigned_eq_ok_iff.1 second
  cases written
  exact ⟨_, _, fits, rfl, rfl, rfl⟩

/-- No reader accepts the line of an event that stops late. -/
theorem Reader.readLine_late {reader : Reader} {id : UInt32} {cursor : Int}
    (inSection : reader.current = some ⟨id, cursor⟩) {options : EncodeOptions}
    (names : reader.names = options.names) {table : List String} {event : Event}
    (known : reader.Knows table event.name) (isName : isWord event.name.toList = true)
    (late : Width.bound 63 ≤ event.stop.toNat) {delta duration : Int}
    (fits : Width.fitsSigned 64 delta = true)
    (deltaEq : delta = ticks (tickLength false) event.start - cursor)
    (durationEq : duration =
      ticks (tickLength false) event.stop - ticks (tickLength false) event.start) :
    ∃ problem, (reader.readLine (some (spaced (timedFields options table event delta duration)))).outcome =
      .error problem := by
  rw [readLine_spaced reader (shows_timedFields options table isName delta duration), timedFields,
    readWords, if_neg (by decide), if_neg (by decide), if_neg (by decide), if_neg (by decide),
    if_pos rfl, readEvent, inSection]
  simp only
  rw [← names, reader.readEventHead_written known]
  simp only
  cases outcome : reader.readEventTail ⟨id, cursor⟩
      ⟨event.frame, event.level.toInt, event.name⟩ (signedDecimal delta :: signedDecimal duration ::
        if options.cpu then [decimal event.cpu.toNat] else []) with
  | error problem => exact ⟨problem, rfl⟩
  | ok result =>
      -- The event would have to start in time, and then it would last a negative time.
      exfalso
      obtain ⟨_, _, _, delta', duration', _, cursor', line, deltaNumeral, durationNumeral, _, time,
        _⟩ := (readEventTail_eq_ok_iff (.inline event.name)).1 ⟨result.2, outcome⟩
      cases line
      dsimp only at time
      have first := readInt_eq_ok_iff.2 ⟨deltaNumeral, Width.fitsSigned_toInt64 delta'⟩
      rw [readInt_signedDecimal fits] at first
      cases first
      have second := (@readNat_eq_ok_iff 64).2 ⟨durationNumeral, duration'.toNat_lt⟩
      have startInTime : event.start.toNat < Width.bound 63 := by
        by_contra startLate
        have negative := ticks_neg (Nat.not_lt.1 startLate)
        omega
      have negative : duration < 0 := by
        have starts := ticks_nonneg startInTime
        have stops := ticks_neg late
        rw [durationEq]
        omega
      rw [signedDecimal, if_pos negative, readNat_minus] at second
      cases second

/-- No reader accepts a section that begins late. -/
theorem Reader.readLine_thread_late (reader : Reader) (id : UInt32) {base : Int}
    (fits : Width.fitsSigned 64 base = true) (negative : base < 0) :
    (reader.readLine (some (spaced [threadMark, flushRight 3 (decimal id.toNat),
        signedDecimal base]))).outcome = .error .baseOutOfRange := by
  have ofWidth : id.toNat < Width.bound 32 := id.toNat_lt
  rw [readLine_spaced reader (shows_threadLine id base), readWords, if_neg (by decide),
    if_neg (by decide), if_neg (by decide), if_pos rfl, readThread,
    Words.bind_of_ok (Words.unsigned_decimal _ ofWidth _),
    Words.bind_of_ok (Words.signed_signedDecimal _ fits _), if_pos (.inl negative)]
  rfl

/-! ## Logs with late events -/

/-- What is known of the events of a decoded log. -/
def Proper (events : List Event) : Prop :=
  ∀ event ∈ events, isWord event.name.toList = true ∧ event.start ≤ event.stop

/-- Whether all events stop while signed numbers can hold their times. -/
def InTime (events : List Event) : Prop := ∀ event ∈ events, event.stop.toNat < Width.bound 63

instance (events : List Event) : Decidable (InTime events) :=
  inferInstanceAs (Decidable (∀ event ∈ events, _))

theorem writable_of_inTime {events : List Event} (proper : Proper events) (inTime : InTime events) :
    ∀ event ∈ events, Writable event := fun event member =>
  ⟨(proper event member).1, (proper event member).2, inTime event member⟩

section Late

variable {options : EncodeOptions} (precise : options.coarse = false) {table : List String}
  {reader : Reader} (tick : reader.tick = tickLength options.coarse)
  (names : reader.names = options.names)

include precise tick names

/-- The events of a section are not read to their end if one of them stops late. -/
theorem encodeEvents_fails {events : List Event} (proper : Proper events) (late : ¬ InTime events)
    (known : ∀ event ∈ events, reader.Knows table event.name) {id : UInt32} {cursor : Nat}
    (fits : cursor < Width.bound 63) (inSection : reader.current = some ⟨id, cursor⟩) :
    (encodeEvents options table cursor events).Fails reader := by
  induction events generalizing reader cursor with
  | nil => exact absurd (by simp [InTime]) late
  | cons event rest inductionHypothesis =>
      obtain ⟨own, properRest⟩ := List.forall_mem_cons.1 proper
      obtain ⟨knownHere, knownRest⟩ := List.forall_mem_cons.1 known
      rw [encodeEvents]
      by_cases here : event.stop.toNat < Width.bound 63
      · have writable : WritableIn (tickLength options.coarse) event :=
          Writable.inTicks precise ⟨own.1, own.2, here⟩
        have lateRest : ¬ InTime rest := fun inTime =>
          late (List.forall_mem_cons.2 ⟨here, inTime⟩)
        let next : Reader := { reader with
          current := some ⟨id, (event.start.toNat / tickLength options.coarse : Nat)⟩
          events := (id, written options reader.processClock event) :: reader.events }
        have first := reader.readLine_event id inSection tick names writable knownHere fits
        have fails := @inductionHypothesis next tick names properRest lateRest knownRest _
          writable.startInTime rfl
        rw [eventLine_eq_ok options table fits writable, ticks_of_lt writable.startInTime]
        exact .later (newline_not_mem_spaced (shows_eventFields options table cursor own.1)) first
          fails
      · cases written : eventLine options table cursor event with
        | error reached => exact .stopped _
        | ok line =>
            obtain ⟨delta, duration, narrow, deltaEq, durationEq, rfl⟩ :=
              eventLine_timed precise written
            obtain ⟨problem, refused⟩ := Reader.readLine_late inSection names knownHere own.1
              (Nat.not_lt.1 here) narrow deltaEq durationEq
            exact .refused problem
              (newline_not_mem_spaced (shows_timedFields options table own.1 delta duration)) refused

theorem encodeSection_fails {id : UInt32} {events : List Event} (proper : Proper events)
    (late : ¬ InTime events) (known : ∀ event ∈ events, reader.Knows table event.name) :
    (encodeSection options table id events).Fails reader := by
  cases events with
  | nil => exact absurd (by simp [InTime]) late
  | cons first rest =>
      have unbroken (base : Int) := newline_not_mem_spaced (Reader.shows_threadLine id base)
      by_cases startInTime : first.start.toNat < Width.bound 63
      · let base := first.start.toNat / tickLength options.coarse
        let opened : Reader := { reader with
          current := some ⟨id, base⟩
          opened := id :: reader.opened }
        have inTicks : base < Width.bound 63 := Nat.lt_of_le_of_lt (Nat.div_le_self _ _) startInTime
        have opening := reader.readLine_thread id inTicks
          (tick ▸ div_mul_lt first.start (tickLength options.coarse))
        have fails := @encodeEvents_fails options precise table opened tick names (first :: rest)
          proper late known id base inTicks rfl
        rw [encodeSection, ticks_of_lt inTicks]
        exact (Encoding.Leads.cons (unbroken _) opening (.nil opened)).andThen_fails fails
      · have startLate := Nat.not_lt.1 startInTime
        have inWidth : first.start.toNat < Width.bound 64 := first.start.toNat_lt
        have half : Width.bound 64 = 2 * Width.bound 63 := Width.bound_succ 63
        have fits : Width.fitsSigned 64 (ticks (tickLength false) first.start) = true := by
          rw [ticks_of_le startLate, Width.fitsSigned_iff]
          show -(Width.bound 63 : Int) ≤ _ ∧ _ < (Width.bound 63 : Int)
          omega
        rw [encodeSection, precise]
        exact (Encoding.Fails.refused _ (unbroken _)
          (reader.readLine_thread_late id fits (ticks_neg startLate))).andThen _

theorem encodeSections_fails {entries : List (UInt32 × List Event)}
    (proper : Proper (entries.flatMap (·.2))) (late : ¬ InTime (entries.flatMap (·.2)))
    (known : ∀ event ∈ entries.flatMap (·.2), reader.Knows table event.name) :
    (encodeSections options table entries).Fails reader := by
  induction entries generalizing reader with
  | nil => exact absurd (by simp [InTime]) late
  | cons entry rest inductionHypothesis =>
      obtain ⟨id, events⟩ := entry
      rw [List.flatMap_cons] at proper late known
      obtain ⟨properHere, properRest⟩ := List.forall_mem_append.1 proper
      obtain ⟨knownHere, knownRest⟩ := List.forall_mem_append.1 known
      rw [encodeSections]
      by_cases here : InTime events
      · have lateRest : ¬ InTime (rest.flatMap (·.2)) := fun inTime =>
          late (List.forall_mem_append.2 ⟨here, inTime⟩)
        obtain ⟨current, leads⟩ := @encodeSection_leads options table id events
          (fun event member => (writable_of_inTime properHere here event member).inTicks precise) reader tick names knownHere
        exact leads.andThen_fails
          (@inductionHypothesis { reader with
            current
            opened := (([(id, events)].filter isOccupied).map (·.1)).reverse ++ reader.opened
            events := (tagged options reader.processClock (id, events)).reverse ++ reader.events }
            tick names properRest lateRest knownRest)
      · exact (encodeSection_fails precise tick names properHere here knownHere).andThen _

end Late

/-- A log of which an event stops late is lost. -/
theorem lost_of_late {options : EncodeOptions} (precise : options.coarse = false) {log : EventLog}
    (proper : Proper log.threads.allEvents) (late : ¬ InTime log.threads.allEvents)
    (small : (tableOf options log).length ≤ Width.bound 32) : Lost options log := by
  have named : ∀ event ∈ log.threads.allEvents, isWord event.name.toList = true :=
    fun event member => (proper event member).1
  apply lost_of_fails
  rw [encode_eq named small]
  exact (preamble_leads named small).andThen_fails
    (encodeSections_fails precise rfl rfl proper late fun _ member => prepared_knows small member)

/-- A decoded log that is written in nanoseconds comes back from its text just if all its events
stop below the bound of signed numbers; else it is lost. -/
theorem encode_of_decode {input : List Line} {log : EventLog} (accepted : decode input = .ok log)
    (names : NameFormat)
    (few : names = .nameTable →
      (log.threads.allEvents.map (·.name)).eraseDups.length ≤ Width.bound 32) :
    if InTime log.threads.allEvents then RoundTrips ⟨names, false, true⟩ log
    else Lost ⟨names, false, true⟩ log := by
  have proper : Proper log.threads.allEvents := fun _ member => proper_of_decode accepted member
  have small : (tableOf ⟨names, false, true⟩ log).length ≤ Width.bound 32 := by
    cases names with
    | inlineNames => exact Nat.zero_le _
    | nameTable => exact few rfl
  split
  · rename_i inTime
    exact roundTrips_of_writable rfl (writable_of_inTime proper inTime) small
  · rename_i late
    exact lost_of_late rfl proper late small

/-- Two calls on one thread, in the coarse unit and with a table of names. -/
def coarseLines : List Line :=
  linesOfText "F: 1\nP: 0 0 0 1 0\nN: 0 run\nN: 1 step\nT: 4 7\nE: 1 0 0 0 9\nE: 0 1 1 2 3\n".toList

theorem encode_of_decode_coarse : ∃ log, decode coarseLines = .ok log ∧
    InTime log.threads.allEvents ∧ RoundTrips ⟨.nameTable, false, true⟩ log := by
  obtain ⟨log, accepted, inTime, few⟩ : ∃ log, decode coarseLines = .ok log ∧
      InTime log.threads.allEvents ∧
      (log.threads.allEvents.map (·.name)).eraseDups.length ≤ Width.bound 32 :=
    ⟨_, rfl, by decide, by decide⟩
  refine ⟨log, accepted, inTime, ?_⟩
  have comesBack := encode_of_decode accepted .nameTable fun _ => few
  rwa [if_pos inTime] at comesBack

/-- A call that stops at the bound of signed numbers. -/
def lateLines : List Line :=
  linesOfText "F: 0\nP: 0 0 0 0 0\nT: 0 0\nE: 0 0 a 0 9223372036854775808\n".toList

/-- Not every accepted log comes back. -/
theorem exists_accepted_not_roundTrips :
    ∃ log, decode lateLines = .ok log ∧ ¬ RoundTrips ⟨.inlineNames, false, true⟩ log := by
  obtain ⟨log, accepted, late⟩ : ∃ log, decode lateLines = .ok log ∧
      ¬ InTime log.threads.allEvents := ⟨_, rfl, by decide⟩
  have proper : Proper log.threads.allEvents := fun _ member => proper_of_decode accepted member
  exact ⟨log, accepted, (lost_of_late rfl proper late (Nat.zero_le _)).not_roundTrips⟩

end CallProfiler.Log
