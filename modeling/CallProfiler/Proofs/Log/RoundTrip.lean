import CallProfiler.Proofs.FirstOccurrences
import CallProfiler.Proofs.Log.Lines
import Mathlib.Data.List.Induction

/-!
# Event logs read back

`Leads` says that lines were written well and take a reader from one state to another. The
parts of an encoding are composed by it: the header, the name table, then section after
section. `decode_encode` is about the whole: a log that was written is accepted, and what it
decodes to is the log, with what the format drops left out.
-/

namespace CallProfiler.Log

open CallProfiler.Text

/-! ## Reading all lines -/

/-- Read lines one after the other. -/
def Reader.readEach (reader : Reader) (input : List Line) : Except LineProblem Reader :=
  input.foldlM (fun reader line => (reader.readLine line).outcome) reader

theorem Reader.readEach_cons_eq_ok_iff {reader after : Reader} {line : Line} {rest : List Line} :
    reader.readEach (line :: rest) = .ok after ↔
      ∃ next, (reader.readLine line).outcome = .ok next ∧ next.readEach rest = .ok after := by
  rw [readEach, List.foldlM_cons]
  exact bind_eq_ok_iff

theorem Reader.readEach_append_eq_ok_iff {reader after : Reader} {first rest : List Line} :
    reader.readEach (first ++ rest) = .ok after ↔
      ∃ next, reader.readEach first = .ok next ∧ next.readEach rest = .ok after := by
  rw [readEach, List.foldlM_append]
  exact bind_eq_ok_iff

/-- A decoder accepts the lines that a reader can read. -/
theorem Decoder.readLines_eq_ok_iff {decoder : Decoder} {reader after : Reader} {number : Nat}
    {input : List Line} :
    (decoder.readLines reader number input).2 = .ok after ↔ reader.readEach input = .ok after := by
  induction input generalizing decoder reader number with
  | nil => simp [readLines, Reader.readEach, pure, Except.pure]
  | cons line rest inductionHypothesis =>
      rw [Reader.readEach_cons_eq_ok_iff, readLines]
      cases outcome : (reader.readLine line).outcome with
      | error problem => simp
      | ok next => simp [inductionHypothesis]

/-- Read lines of text one after the other. -/
def Reader.readAll (reader : Reader) (written : List (List Char)) : Except LineProblem Reader :=
  written.foldlM (fun reader line => (reader.readLine (some line)).outcome) reader

theorem Reader.readAll_append {before middle : Reader} {earlier : List (List Char)}
    (read : before.readAll earlier = .ok middle) (later : List (List Char)) :
    before.readAll (earlier ++ later) = middle.readAll later := by
  rw [readAll] at read ⊢
  rw [List.foldlM_append, read]
  rfl

theorem Decoder.readLines_of_readAll {before after : Reader} {written : List (List Char)}
    (read : before.readAll written = .ok after) (decoder : Decoder) (number : Nat) :
    (decoder.readLines before number (written.map some)).2 = .ok after := by
  rw [readLines_eq_ok_iff, Reader.readEach, List.foldlM_map]
  exact read

/-- Lines that were written to their end, and that take a reader from one state to another. -/
structure Encoding.Leads (encoding : Encoding) (before after : Reader) : Prop where
  complete : encoding.outcome = .ok ()
  unbroken : ∀ line ∈ encoding.lines, '\n' ∉ line
  read : before.readAll encoding.lines = .ok after

namespace Encoding.Leads

theorem nil (reader : Reader) : Leads ⟨[], .ok ()⟩ reader reader where
  complete := rfl
  unbroken := by simp
  read := rfl

theorem cons {encoding : Encoding} {line : List Char} {before middle after : Reader}
    (unbroken : '\n' ∉ line) (first : (before.readLine (some line)).outcome = .ok middle)
    (rest : encoding.Leads middle after) :
    Leads ⟨line :: encoding.lines, encoding.outcome⟩ before after where
  complete := rest.complete
  unbroken := List.forall_mem_cons.2 ⟨unbroken, rest.unbroken⟩
  read := by
    have others := rest.read
    rw [Reader.readAll] at others ⊢
    rw [List.foldlM_cons, first]
    exact others

theorem andThen {first second : Encoding} {before middle after : Reader}
    (head : first.Leads before middle) (tail : second.Leads middle after) :
    (first.andThen second).Leads before after := by
  rw [Encoding.andThen, head.complete]
  exact {
    complete := tail.complete
    unbroken := List.forall_mem_append.2 ⟨head.unbroken, tail.unbroken⟩
    read := by rw [Reader.readAll_append head.read, tail.read] }

/-- The text of lines that lead from the start of a log to its end decodes to that log. -/
theorem decode {encoding : Encoding} {after : Reader} (leads : encoding.Leads .start after) :
    encoding.toText = .ok encoding.text ∧
      Log.decode (linesOfText encoding.text) = after.toLog := by
  constructor
  · rw [toText, leads.complete]
    rfl
  · have whole : Reader.start.readAll (encoding.lines ++ [[]]) = .ok after := by
      rw [Reader.readAll_append leads.read]
      rfl
    have accepted := Decoder.readLines_of_readAll whole .fresh 1
    rw [linesOfText, text, lines_flatMap leads.unbroken, Log.decode, Decoder.decode]
    show Except.bind (Decoder.readLines _ _ _ _).2 _ = _
    rw [accepted]
    rfl

end Encoding.Leads

/-! ## The name table -/

/-- The table of a writer as a reader holds it. -/
def tableEntries (table : List String) : List (UInt32 × String) :=
  (table.zipIdx.map fun (name, id) => (.ofNat id, name)).reverse

theorem tableEntries_concat (table : List String) (name : String) :
    tableEntries (table ++ [name]) = (.ofNat table.length, name) :: tableEntries table := by
  rw [tableEntries, List.zipIdx_append, List.map_append, List.reverse_append]
  simp [tableEntries]

/-- The id of a name leads back to it. -/
theorem lookup_tableEntries {table : List String} {name : String} (member : name ∈ table)
    (small : table.length ≤ Width.bound 32) :
    (tableEntries table).lookup (.ofNat (table.idxOf name)) = some name := by
  induction table using List.reverseRecOn with
  | nil => cases member
  | append_singleton table last inductionHypothesis =>
      rw [List.length_append, List.length_singleton] at small
      rw [tableEntries_concat]
      by_cases inTable : name ∈ table
      · have earlier := List.idxOf_lt_length_of_mem inTable
        have different : (UInt32.ofNat (table.idxOf name) == UInt32.ofNat table.length) = false := by
          rw [beq_eq_false_iff_ne]
          intro same
          have size : UInt32.size = Width.bound 32 := rfl
          have ids := congrArg UInt32.toNat same
          rw [UInt32.toNat_ofNat_of_lt' (Nat.lt_of_lt_of_le earlier (by omega)),
            UInt32.toNat_ofNat_of_lt' (by omega)] at ids
          omega
        rw [List.idxOf_append_of_mem inTable, List.lookup_cons, different]
        exact inductionHypothesis inTable (by omega)
      · obtain rfl : name = last := by simpa [inTable] using member
        rw [List.idxOf_append_of_notMem inTable]
        simp

/-- The table after the names of some events. -/
def tableAfter (format : NameFormat) (table : List String) (events : List Event) : List String :=
  match format with
  | .inlineNames => table
  | .nameTable => (table ++ events.map (·.name)).eraseDups

theorem length_le_tableAfter (format : NameFormat) {table : List String} (distinct : table.Nodup)
    (events : List Event) : table.length ≤ (tableAfter format table events).length := by
  cases format with
  | inlineNames => exact Nat.le_refl _
  | nameTable =>
      rw [tableAfter, List.eraseDups_append, FirstOccurrences.eraseDups_of_nodup distinct,
        List.length_append]
      omega

/-- The name lines put the table into the reader. -/
theorem encodeNames_leads (format : NameFormat) {table : List String} {events : List Event}
    (distinct : table.Nodup) (named : ∀ event ∈ events, isWord event.name.toList = true)
    (small : (tableAfter format table events).length ≤ Width.bound 32) {reader : Reader}
    (held : reader.nameTable = tableEntries table) :
    (encodeNames format table events).2 = tableAfter format table events ∧
      (encodeNames format table events).1.Leads reader
        { reader with nameTable := tableEntries (tableAfter format table events) } := by
  induction events generalizing table reader with
  | nil =>
      have same : tableAfter format table [] = table := by
        cases format with
        | inlineNames => rfl
        | nameTable =>
            rw [tableAfter, List.map_nil, List.append_nil,
              FirstOccurrences.eraseDups_of_nodup distinct]
      rw [same, ← held]
      exact ⟨rfl, .nil reader⟩
  | cons event rest inductionHypothesis =>
      have isName := named event List.mem_cons_self
      have others : ∀ other ∈ rest, isWord other.name.toList = true := fun other member =>
        named other (List.mem_cons_of_mem event member)
      rw [encodeNames, isName]
      simp only [Bool.not_true, Bool.false_eq_true, if_false]
      split
      · rename_i new
        obtain ⟨rfl, absent⟩ := new
        have longer : tableAfter .nameTable table (event :: rest) =
            tableAfter .nameTable (table ++ [event.name]) rest := by
          simp [tableAfter]
        have distinctNext : (table ++ [event.name]).Nodup :=
          List.nodup_append.2 ⟨distinct, List.nodup_singleton _, by
            rintro name member _ only rfl
            exact absent (List.mem_singleton.1 only ▸ member)⟩
        rw [longer] at small ⊢
        have bound := length_le_tableAfter .nameTable distinctNext rest
        rw [List.length_append, List.length_singleton] at bound
        have fits : table.length < Width.bound 32 := by omega
        let next : Reader :=
          { reader with nameTable := (.ofNat table.length, event.name) :: reader.nameTable }
        have first : (reader.readLine (some (nameLine table.length event.name))).outcome = .ok next :=
          reader.readLine_name fits isName
        have heldNext : next.nameTable = tableEntries (table ++ [event.name]) := by
          rw [tableEntries_concat, ← held]
        obtain ⟨grown, leads⟩ := inductionHypothesis distinctNext others small heldNext
        exact ⟨grown, .cons (newline_not_mem_spaced (Reader.shows_nameLine _ isName)) first leads⟩
      · rename_i known
        have same : tableAfter format table (event :: rest) = tableAfter format table rest := by
          cases format with
          | inlineNames => rfl
          | nameTable =>
              have member : event.name ∈ table := by simpa using known
              exact FirstOccurrences.eraseDups_append_cons_of_mem member
        rw [same] at small ⊢
        exact inductionHypothesis distinct others small held

/-! ## Sections -/

/-- The events of a thread as a reader will hold them. -/
def tagged (options : EncodeOptions) (processClock : Bool) (entry : UInt32 × List Event) :
    List (UInt32 × Event) :=
  entry.2.map fun event => (entry.1, written options processClock event)

/-- Event lines put the events of a section into the reader. -/
theorem encodeEvents_leads {options : EncodeOptions} {table : List String} {events : List Event}
    (writable : ∀ event ∈ events, WritableIn (tickLength options.coarse) event) {reader : Reader}
    (tick : reader.tick = tickLength options.coarse) (names : reader.names = options.names)
    (known : ∀ event ∈ events, reader.Knows table event.name) {id : UInt32} {cursor : Nat}
    (fits : cursor < Width.bound 63) (inSection : reader.current = some ⟨id, cursor⟩) :
    ∃ current, (encodeEvents options table cursor events).Leads reader
      { reader with
        current
        events :=
          (tagged options reader.processClock (id, events)).reverse ++ reader.events } := by
  induction events generalizing reader cursor with
  | nil =>
      refine ⟨reader.current, ?_⟩
      rw [encodeEvents]
      exact .nil reader
  | cons event rest inductionHypothesis =>
      have here := writable event List.mem_cons_self
      have others : ∀ other ∈ rest, WritableIn (tickLength options.coarse) other :=
        fun other member => writable other (List.mem_cons_of_mem event member)
      let next : Reader := { reader with
        current := some ⟨id, (event.start.toNat / tickLength options.coarse : Nat)⟩
        events := (id, written options reader.processClock event) :: reader.events }
      have first := reader.readLine_event id inSection tick names here
        (known event List.mem_cons_self) fits
      have knownNext : ∀ other ∈ rest, next.Knows table other.name := fun other member =>
        known other (List.mem_cons_of_mem event member)
      obtain ⟨current, leads⟩ := @inductionHypothesis others next tick names knownNext _
        here.startInTime rfl
      refine ⟨current, ?_⟩
      rw [encodeEvents, eventLine_eq_ok options table fits here, ticks_of_lt here.startInTime]
      have whole := leads.cons (newline_not_mem_spaced (shows_eventFields options table cursor here.isName))
        first
      simpa [tagged] using whole

/-- Whether a thread has events, and so a section. -/
def isOccupied (entry : UInt32 × List Event) : Bool := !entry.2.isEmpty

/-- A section opens its thread and puts the events into the reader; without events there is
none. -/
theorem encodeSection_leads {options : EncodeOptions} {table : List String} {id : UInt32}
    {events : List Event} (writable : ∀ event ∈ events, WritableIn (tickLength options.coarse) event)
    {reader : Reader} (tick : reader.tick = tickLength options.coarse)
    (names : reader.names = options.names)
    (known : ∀ event ∈ events, reader.Knows table event.name) :
    ∃ current, (encodeSection options table id events).Leads reader
      { reader with
        current
        opened := (([(id, events)].filter isOccupied).map (·.1)).reverse ++ reader.opened
        events :=
          (tagged options reader.processClock (id, events)).reverse ++ reader.events } := by
  cases events with
  | nil => exact ⟨reader.current, .nil reader⟩
  | cons first rest =>
      have inTime := (writable first List.mem_cons_self).startInTime
      let base := first.start.toNat / tickLength options.coarse
      let opened : Reader := { reader with
        current := some ⟨id, base⟩
        opened := id :: reader.opened }
      have opening := reader.readLine_thread id inTime
        (tick ▸ div_mul_lt first.start (tickLength options.coarse))
      obtain ⟨current, leads⟩ := @encodeEvents_leads options table (first :: rest) writable
        opened tick names known id base inTime rfl
      refine ⟨current, ?_⟩
      rw [encodeSection, ticks_of_lt inTime]
      exact (Encoding.Leads.cons (newline_not_mem_spaced (Reader.shows_threadLine id base)) opening
        (.nil opened)).andThen leads

theorem encodeSections_leads {options : EncodeOptions} {table : List String}
    {entries : List (UInt32 × List Event)}
    (writable : ∀ event ∈ entries.flatMap (·.2), WritableIn (tickLength options.coarse) event)
    {reader : Reader} (tick : reader.tick = tickLength options.coarse)
    (names : reader.names = options.names)
    (known : ∀ event ∈ entries.flatMap (·.2), reader.Knows table event.name) :
    ∃ current, (encodeSections options table entries).Leads reader
      { reader with
        current
        opened := ((entries.filter isOccupied).map (·.1)).reverse ++ reader.opened
        events :=
          (entries.flatMap (tagged options reader.processClock)).reverse ++ reader.events } := by
  induction entries generalizing reader with
  | nil => exact ⟨reader.current, .nil reader⟩
  | cons entry rest inductionHypothesis =>
      obtain ⟨id, events⟩ := entry
      rw [List.flatMap_cons, List.forall_mem_append] at writable known
      obtain ⟨between, first⟩ := @encodeSection_leads options table id events writable.1
        reader tick names known.1
      obtain ⟨current, others⟩ := @inductionHypothesis writable.2
        { reader with
          current := between
          opened := (([(id, events)].filter isOccupied).map (·.1)).reverse ++ reader.opened
          events := (tagged options reader.processClock (id, events)).reverse ++ reader.events }
        tick names known.2
      refine ⟨current, ?_⟩
      have whole := first.andThen others
      rw [← List.append_assoc, ← List.append_assoc, ← List.reverse_append, ← List.reverse_append,
        ← List.map_append, ← List.filter_append] at whole
      exact whole

/-! ## The log of a reader -/

/-- A thread whose id is greater than all others goes to the end. -/
theorem place_of_forall_lt {id : UInt32} {entries : List (UInt32 × List Event)}
    (beyond : ∀ entry ∈ entries, entry.1 < id) (events : List Event) :
    ThreadTable.place id events entries = entries ++ [(id, events)] := by
  induction entries with
  | nil => rfl
  | cons head rest inductionHypothesis =>
      have smaller := beyond head List.mem_cons_self
      have others := inductionHypothesis fun entry member =>
        beyond entry (List.mem_cons_of_mem head member)
      rw [ThreadTable.place, if_neg (UInt32.lt_asymm smaller),
        if_neg (UInt32.ne_of_lt smaller).symm, others, List.cons_append]

theorem events?_of_forall_lt {id : UInt32} {table : ThreadTable}
    (beyond : ∀ entry ∈ table.entries, entry.1 < id) : table.events? id = none := by
  have nowhere : table.entries.find? (fun entry => entry.1 == id) = none := by
    refine List.find?_eq_none.2 fun entry member => ?_
    simpa using UInt32.ne_of_lt (beyond entry member)
  rw [ThreadTable.events?, nowhere]
  rfl

/-- The step by which the threads of a reader come into the table of a log. -/
def collect (events : List (UInt32 × Event)) (table : ThreadTable) (id : UInt32) : ThreadTable :=
  if (table.events? id).isSome then table
  else table.insert id ((events.filter (·.1 == id)).map (·.2))

/-- Threads that come in the order of their ids are put one after the other. -/
theorem entries_foldl_collect (events : List (UInt32 × Event)) {ids : List UInt32}
    {table : ThreadTable} (ascending : ids.Pairwise (· < ·))
    (beyond : ∀ entry ∈ table.entries, ∀ id ∈ ids, entry.1 < id) :
    (ids.foldl (collect events) table).entries =
      table.entries ++ ids.map fun id => (id, (events.filter (·.1 == id)).map (·.2)) := by
  induction ids generalizing table with
  | nil => simp
  | cons id rest inductionHypothesis =>
      obtain ⟨smaller, ascendingRest⟩ := List.pairwise_cons.1 ascending
      have beyondHere : ∀ entry ∈ table.entries, entry.1 < id := fun entry member =>
        beyond entry member id List.mem_cons_self
      have collected : (collect events table id).entries =
          table.entries ++ [(id, (events.filter (·.1 == id)).map (·.2))] := by
        rw [collect, events?_of_forall_lt beyondHere]
        exact place_of_forall_lt beyondHere _
      have beyondRest : ∀ entry ∈ (collect events table id).entries, ∀ other ∈ rest,
          entry.1 < other := by
        rw [collected]
        intro entry member other inRest
        rcases List.mem_append.1 member with before | here
        · exact beyond entry before other (List.mem_cons_of_mem id inRest)
        · rw [List.mem_singleton.1 here]
          exact smaller other inRest
      rw [List.foldl_cons, inductionHypothesis ascendingRest beyondRest, collected,
        List.append_assoc, List.singleton_append, List.map_cons]

theorem fst_of_mem_tagged {options : EncodeOptions} {processClock : Bool}
    {entry : UInt32 × List Event} {pair : UInt32 × Event}
    (member : pair ∈ tagged options processClock entry) : pair.1 = entry.1 := by
  obtain ⟨event, _, rfl⟩ := List.mem_map.1 member
  rfl

/-- The events that were tagged with the id of one of several threads are its own. -/
theorem filter_flatMap_tagged (options : EncodeOptions) (processClock : Bool)
    {entries : List (UInt32 × List Event)}
    (ascending : entries.Pairwise fun left right => left.1 < right.1)
    {entry : UInt32 × List Event} (member : entry ∈ entries) :
    (entries.flatMap (tagged options processClock)).filter (·.1 == entry.1) =
      tagged options processClock entry := by
  have own : (tagged options processClock entry).filter (·.1 == entry.1) =
      tagged options processClock entry := by
    apply List.filter_eq_self.2
    intro pair inEntry
    simpa using fst_of_mem_tagged inEntry
  have apart {others : List (UInt32 × List Event)}
      (different : ∀ other ∈ others, other.1 ≠ entry.1) :
      (others.flatMap (tagged options processClock)).filter (·.1 == entry.1) = [] := by
    apply List.filter_eq_nil_iff.2
    intro pair inOthers
    obtain ⟨other, inList, inOther⟩ := List.mem_flatMap.1 inOthers
    rw [fst_of_mem_tagged inOther, beq_iff_eq]
    exact different other inList
  obtain ⟨before, after, rfl⟩ := List.append_of_mem member
  obtain ⟨_, tail, across⟩ := List.pairwise_append.1 ascending
  have beforeApart : ∀ other ∈ before, other.1 ≠ entry.1 := fun other inBefore =>
    UInt32.ne_of_lt (across other inBefore entry List.mem_cons_self)
  have afterApart : ∀ other ∈ after, other.1 ≠ entry.1 := fun other inAfter =>
    (UInt32.ne_of_lt ((List.pairwise_cons.1 tail).1 other inAfter)).symm
  rw [List.flatMap_append, List.flatMap_cons, List.filter_append, List.filter_append,
    apart beforeApart, apart afterApart, own, List.nil_append, List.append_nil]

/-- A reader that holds the sections of some threads makes a log of just these. -/
theorem toLog_of_sections {options : EncodeOptions} {processClock : Bool}
    {entries : List (UInt32 × List Event)}
    (ascending : entries.Pairwise fun left right => left.1 < right.1) {reader : Reader}
    {calibration : Calibration} (measured : reader.calibration = some calibration)
    (opened : reader.opened = ((entries.filter isOccupied).map (·.1)).reverse)
    (events : reader.events = (entries.flatMap (tagged options processClock)).reverse) :
    ∃ log, reader.toLog = .ok log ∧ log.calibration = calibration ∧
      log.threads.entries = (entries.filter isOccupied).map fun entry =>
        (entry.1, entry.2.map (written options processClock)) := by
  have ids : ((entries.filter isOccupied).map (·.1)).Pairwise (· < ·) :=
    List.pairwise_map.2 (ascending.filter isOccupied)
  have collected := @entries_foldl_collect (entries.flatMap (tagged options processClock)) _ .empty
    ids (by simp [ThreadTable.empty])
  refine ⟨⟨calibration, _⟩, ?_, rfl, collected.trans ?_⟩
  · rw [Reader.toLog, measured, opened, events, List.reverse_reverse]
    simp only [List.foldr_reverse]
    rfl
  · rw [List.map_map]
    apply List.map_congr_left
    intro entry member
    have inEntries := (List.mem_filter.1 member).1
    show (entry.1, _) = _
    rw [filter_flatMap_tagged options processClock ascending inEntries, tagged, List.map_map]
    rfl

/-! ## The whole log -/

/-- The clock flag of a log: some event was measured with the clock of the process. -/
def anyProcessClock (log : EventLog) : Bool := log.threads.allEvents.any (·.processClock)

/-- What a reader knows of a log before its names. -/
def headed (options : EncodeOptions) (log : EventLog) : Reader :=
  { Reader.start with
    names := options.names
    calibration := some log.calibration
    tick := tickLength options.coarse
    processClock := anyProcessClock log }

theorem headerLines_leads (options : EncodeOptions) (log : EventLog) :
    Encoding.Leads ⟨headerLines options log, .ok ()⟩ .start (headed options log) :=
  .cons (newline_not_mem_spaced (Reader.shows_formatLine options.names))
    (Reader.start.readLine_format options.names)
    (.cons (newline_not_mem_spaced (Reader.shows_propertiesFields log.calibration options.coarse
        (anyProcessClock log)))
      (Reader.readLine_properties _ log.calibration options.coarse (anyProcessClock log))
      (.nil (headed options log)))

/-- With its name lines read, a reader knows what the event lines refer to. -/
theorem knows_tableAfter {reader : Reader} {format : NameFormat} (names : reader.names = format)
    {events : List Event}
    (held : reader.nameTable = tableEntries (tableAfter format [] events))
    (small : (tableAfter format [] events).length ≤ Width.bound 32) {event : Event}
    (member : event ∈ events) : reader.Knows (tableAfter format [] events) event.name := by
  rw [Reader.Knows, names]
  cases format with
  | inlineNames => trivial
  | nameTable =>
      have inTable : event.name ∈ tableAfter .nameTable [] events := by
        rw [tableAfter, List.nil_append, List.mem_eraseDups]
        exact List.mem_map_of_mem member
      have index := List.idxOf_lt_length_of_mem inTable
      rw [held]
      exact ⟨by omega, lookup_tableEntries inTable small⟩

/-- The names that event lines of a log refer to. -/
abbrev tableOf (options : EncodeOptions) (log : EventLog) : List String :=
  tableAfter options.names [] log.threads.allEvents

/-- What a reader knows of a log before its sections. -/
def prepared (options : EncodeOptions) (log : EventLog) : Reader :=
  { headed options log with nameTable := tableEntries (tableOf options log) }

/-- What is written before the sections. -/
def preamble (options : EncodeOptions) (log : EventLog) : Encoding :=
  Encoding.andThen ⟨headerLines options log, .ok ()⟩
    (encodeNames options.names [] log.threads.allEvents).1

section Whole

variable {options : EncodeOptions} {log : EventLog}
  (named : ∀ event ∈ log.threads.allEvents, isWord event.name.toList = true)
  (small : (tableOf options log).length ≤ Width.bound 32)

include small

theorem prepared_knows {event : Event} (member : event ∈ log.threads.allEvents) :
    (prepared options log).Knows (tableOf options log) event.name :=
  knows_tableAfter rfl rfl small member

include named

/-- The lines before the sections tell the reader all names. -/
theorem preamble_leads : (preamble options log).Leads .start (prepared options log) :=
  (headerLines_leads options log).andThen
    (encodeNames_leads options.names List.nodup_nil named small rfl).2

theorem encode_eq : encode options log =
    (preamble options log).andThen
      (encodeSections options (tableOf options log) log.threads.entries) := by
  have table : (encodeNames options.names [] log.threads.allEvents).2 = tableOf options log :=
    (@encodeNames_leads options.names [] log.threads.allEvents List.nodup_nil named small
      (headed options log) rfl).1
  rw [← table]
  rfl

end Whole

/-- A written log comes back from its text: it is accepted, and decodes to its calibration and
to the threads that have events, each with its events as the format keeps them. -/
def RoundTrips (options : EncodeOptions) (log : EventLog) : Prop :=
  ∃ text decoded, (encode options log).toText = .ok text ∧
    decode (linesOfText text) = .ok decoded ∧
    decoded.calibration = log.calibration ∧
    decoded.threads.entries = log.threads.occupied.map fun entry =>
      (entry.1, entry.2.map (restored options.cpu (anyProcessClock log)))

/-- A log whose events can be written in its ticks is accepted again, and decodes to its calibration
and to what was written of the threads that have events. -/
theorem decode_written {options : EncodeOptions} {log : EventLog}
    (writable : ∀ event ∈ log.threads.allEvents, WritableIn (tickLength options.coarse) event)
    (small : (tableOf options log).length ≤ Width.bound 32) :
    ∃ text decoded, (encode options log).toText = .ok text ∧
      decode (linesOfText text) = .ok decoded ∧
      decoded.calibration = log.calibration ∧
      decoded.threads.entries = log.threads.occupied.map fun entry =>
        (entry.1, entry.2.map (written options (anyProcessClock log))) := by
  have named : ∀ event ∈ log.threads.allEvents, isWord event.name.toList = true :=
    fun event member => (writable event member).isName
  obtain ⟨current, sections⟩ := @encodeSections_leads options (tableOf options log)
    log.threads.entries writable (prepared options log) rfl rfl
    fun _ member => prepared_knows small member
  rw [show (prepared options log).opened = [] from rfl,
    show (prepared options log).events = [] from rfl, List.append_nil, List.append_nil] at sections
  have whole := (preamble_leads named small).andThen sections
  rw [← encode_eq named small] at whole
  obtain ⟨text, decodes⟩ := whole.decode
  obtain ⟨decoded, toLog, calibration, threads⟩ := @toLog_of_sections options
    (anyProcessClock log) log.threads.entries log.threads.ascending
    { prepared options log with
      current
      opened := ((log.threads.entries.filter isOccupied).map (·.1)).reverse
      events := (log.threads.entries.flatMap (tagged options (anyProcessClock log))).reverse }
    log.calibration rfl rfl rfl
  exact ⟨_, decoded, text, decodes.trans toLog, calibration, threads⟩

theorem Writable.inTicks {options : EncodeOptions} (precise : options.coarse = false) {event : Event}
    (writable : Writable event) : WritableIn (tickLength options.coarse) event := by
  rw [precise]
  exact writable.inNanoseconds

/-- In nanoseconds no time is rounded. -/
theorem written_of_precise {options : EncodeOptions} (precise : options.coarse = false)
    (processClock : Bool) : written options processClock = restored options.cpu processClock := by
  funext event
  have exact : quantised (tickLength options.coarse) event = event := by
    rw [precise]
    exact quantised_one event
  rw [written, exact]

/-- A log whose events can be written comes back. -/
theorem roundTrips_of_writable {options : EncodeOptions} (precise : options.coarse = false)
    {log : EventLog} (writable : ∀ event ∈ log.threads.allEvents, Writable event)
    (small : (tableOf options log).length ≤ Width.bound 32) : RoundTrips options log := by
  have comesBack := decode_written (fun event member => (writable event member).inTicks precise) small
  rwa [written_of_precise precise] at comesBack

/-- A log that was written is accepted again, and decodes to its calibration and to the threads
that have events, each with its events as the format keeps them. -/
theorem decode_encode (options : EncodeOptions) (precise : options.coarse = false)
    (log : EventLog) (writable : ∀ event ∈ log.threads.allEvents, Writable event)
    (few : (log.threads.allEvents.map (·.name)).eraseDups.length < Width.bound 32) :
    ∃ text decoded, (encode options log).toText = .ok text ∧
      decode (linesOfText text) = .ok decoded ∧
      decoded.calibration = log.calibration ∧
      decoded.threads.entries = log.threads.occupied.map fun entry =>
        (entry.1, entry.2.map (restored options.cpu (anyProcessClock log))) := by
  have small : (tableOf options log).length ≤ Width.bound 32 := by
    cases names : options.names with
    | inlineNames => simp [tableOf, tableAfter, names]
    | nameTable => simpa [tableOf, tableAfter, names] using Nat.le_of_lt few
  exact roundTrips_of_writable precise writable small

/-- Two threads with events and one without; the second event of the first begins before the
first one does. -/
def threeThreads : EventLog :=
  ⟨⟨1000, 40, 60⟩, .ofList [
    (7, [⟨"frame", 0, true, true, 100, 250, 30⟩]),
    (5, []),
    (2, [⟨"load", 1, false, false, 90, 120, 0⟩, ⟨"frame", -1, false, false, 80, 130, 12⟩])]⟩

theorem decode_encode_threeThreads :
    ∃ text decoded, (encode .standard threeThreads).toText = .ok text ∧
      decode (linesOfText text) = .ok decoded ∧
      decoded.calibration = threeThreads.calibration ∧
      decoded.threads.entries = threeThreads.threads.occupied.map fun entry =>
        (entry.1, entry.2.map (restored true (anyProcessClock threeThreads))) :=
  decode_encode .standard rfl threeThreads (by decide) (by decide)

end CallProfiler.Log
