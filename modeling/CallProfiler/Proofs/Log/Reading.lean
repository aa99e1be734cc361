import CallProfiler.Proofs.Log.Parsing

/-!
# What a reader accepts

A log that was decoded has only what lines can bring into a reader. `Proper` holds of a reader
as long as it reads, whatever the lines are: the names that it knows are words, and no event
that it holds ends before it begins. `proper_of_decode` says so of every decoded log.
-/

namespace CallProfiler.Log

open CallProfiler.Text

namespace Reader

variable {reader next : Reader} {words : List (List Char)}

/-- What lines can bring into a reader: names are words, and events end when they begin or
after that. -/
structure Proper (reader : Reader) : Prop where
  names : ∀ entry ∈ reader.nameTable, isWord entry.2.toList = true
  named : ∀ entry ∈ reader.events, isWord entry.2.name.toList = true
  ordered : ∀ entry ∈ reader.events, entry.2.start ≤ entry.2.stop

/-- Only names and events make a reader proper. -/
theorem Proper.of_same (proper : reader.Proper) (names : next.nameTable = reader.nameTable)
    (events : next.events = reader.events) : next.Proper where
  names := by rw [names]; exact proper.names
  named := by rw [events]; exact proper.named
  ordered := by rw [events]; exact proper.ordered

/-! ## Readers that stay proper -/

/-- An event whose times fit does not end before it begins. -/
theorem start_le_stop_event {line : EventLine} {name : String} {processClock : Bool}
    {tick cursor : Nat}
    (fits : cursor * tick + line.duration.toNat * tick < Width.bound 64) :
    (line.event name processClock tick cursor).start ≤
      (line.event name processClock tick cursor).stop := by
  have startFits : cursor * tick < Width.bound 64 :=
    Nat.lt_of_le_of_lt (Nat.le_add_right _ _) fits
  rw [EventLine.event, UInt64.le_iff_toNat_le, UInt64.toNat_ofNat_of_lt' startFits,
    UInt64.toNat_ofNat_of_lt' fits]
  exact Nat.le_add_right _ _

/-- The name of an event is a word of its line or a name that the reader knows. -/
theorem Proper.isWord_of_label {label : Label} {word : List Char} {name : String}
    (proper : reader.Proper) (isName : isWord word = true)
    (labelled : label.Says reader.names word)
    (named : label.name? reader.nameTable = some name) : isWord name.toList = true := by
  generalize reader.names = names at labelled
  cases labelled with
  | inline =>
      cases named
      rwa [String.toList_ofList]
  | @entry _ id =>
      obtain ⟨before, later, parted, _⟩ := List.lookup_eq_some_iff.1 named
      exact proper.names (id, name) (by rw [parted]; simp)

/-- A statement in words keeps a reader proper. -/
theorem Proper.takes {statement : Statement} (proper : reader.Proper)
    (inWords : ∀ word ∈ words, isWord word = true) (stated : Says reader.names words statement)
    (takes : reader.Takes statement next) : next.Proper := by
  cases takes with
  | format => exact proper.of_same rfl rfl
  | properties => exact proper.of_same rfl rfl
  | thread => exact proper.of_same rfl rfl
  | name =>
      cases stated with
      | @name _ word =>
          have isName : isWord (String.ofList word).toList = true := by
            rw [String.toList_ofList]
            exact inWords word (by simp)
          exact ⟨List.forall_mem_cons.2 ⟨isName, proper.names⟩, proper.named, proper.ordered⟩
  | event _ named _ _ fits =>
      cases stated with
      | @event _ _ label _ _ _ _ _ _ labelled =>
          have isName := proper.isWord_of_label (inWords label (by simp)) labelled named
          exact ⟨proper.names, List.forall_mem_cons.2 ⟨isName, proper.named⟩,
            List.forall_mem_cons.2 ⟨start_le_stop_event fits, proper.ordered⟩⟩

/-- Reading a line keeps a reader proper. -/
theorem Proper.readLine {line : Line} (proper : reader.Proper)
    (read : (reader.readLine line).outcome = .ok next) : next.Proper := by
  cases line with
  | none => cases read
  | some text =>
      rcases readWords_eq_ok_iff.1 read with ⟨_, rfl⟩ | ⟨statement, stated, takes⟩
      · exact proper
      · exact proper.takes (fun _ => isWord_of_mem_words) stated takes

theorem proper_start : start.Proper := ⟨by simp [start], by simp [start], by simp [start]⟩

/-- Whatever lines a decoder accepts, its reader stays proper. -/
theorem Proper.readLines {decoder : Decoder} {number : Nat} {input : List Line}
    (proper : reader.Proper) (read : (decoder.readLines reader number input).2 = .ok next) :
    next.Proper := by
  induction input generalizing decoder reader number with
  | nil =>
      cases read
      exact proper
  | cons line rest inductionHypothesis =>
      rw [Decoder.readLines] at read
      split at read
      · cases read
      · rename_i middle first
        exact inductionHypothesis (proper.readLine first) read

/-! ## Decoded logs -/

/-- The events of a log are those of its reader. -/
theorem mem_events_of_toLog {log : EventLog} (made : reader.toLog = .ok log) {event : Event}
    (member : event ∈ log.threads.allEvents) : ∃ id, (id, event) ∈ reader.events := by
  rw [toLog] at made
  split at made
  · cases made
  · cases made
    obtain ⟨entry, inTable, inEntry⟩ := List.mem_flatMap.1 member
    clear member
    dsimp only at inTable
    generalize reader.opened = opened at inTable
    induction opened with
    | nil => cases inTable
    | cons id rest inductionHypothesis =>
        rw [List.foldr_cons] at inTable
        split at inTable
        · exact inductionHypothesis inTable
        · rcases ThreadTable.mem_place inTable with rfl | before
          · obtain ⟨pair, kept, rfl⟩ := List.mem_map.1 inEntry
            exact ⟨pair.1, List.mem_reverse.1 (List.mem_filter.1 kept).1⟩
          · exact inductionHypothesis before

end Reader

/-- The events of a decoded log have words for names, and none ends before it begins. -/
theorem proper_of_decode {input : List Line} {log : EventLog} (accepted : decode input = .ok log)
    {event : Event} (member : event ∈ log.threads.allEvents) :
    isWord event.name.toList = true ∧ event.start ≤ event.stop := by
  obtain ⟨reader, read, made⟩ := bind_eq_ok_iff.1 accepted
  obtain ⟨id, held⟩ := Reader.mem_events_of_toLog made member
  have proper := Reader.proper_start.readLines read
  exact ⟨proper.named _ held, proper.ordered _ held⟩

end CallProfiler.Log
