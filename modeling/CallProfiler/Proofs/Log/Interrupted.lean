import CallProfiler.Proofs.Log.RoundTrip

/-!
# Logs whose writing stops

A writer stops at the first name that cannot be written. All names come before the first section,
so what is in a file then is a log without threads: `decode_of_refused` says that a reader accepts
it, and `outcome_ne_refused` that no other log is stopped like that.
-/

namespace CallProfiler.Log

open CallProfiler.Text

variable {options : EncodeOptions} {log : EventLog}

/-! ## Names -/

/-- The names before one that cannot be written are all that is written of them. -/
theorem encodeNames_append (format : NameFormat) {table : List String} {earlier : List Event}
    {event : Event} (named : ∀ other ∈ earlier, isWord other.name.toList = true)
    (wrong : isWord event.name.toList = false) (later : List Event) :
    (encodeNames format table (earlier ++ event :: later)).1 =
      ⟨(encodeNames format table earlier).1.lines, refuse ⟨event.name⟩⟩ := by
  induction earlier generalizing table with
  | nil => simp [encodeNames, wrong]
  | cons head rest inductionHypothesis =>
      obtain ⟨isName, others⟩ := List.forall_mem_cons.1 named
      rw [List.cons_append, encodeNames, encodeNames, isName]
      simp only [Bool.not_true, Bool.false_eq_true, if_false]
      split
      · simp only [inductionHypothesis others]
      · exact inductionHypothesis others

theorem encodeNames_complete (format : NameFormat) {table : List String} {events : List Event}
    (named : ∀ event ∈ events, isWord event.name.toList = true) :
    (encodeNames format table events).1.outcome = .ok () := by
  induction events generalizing table with
  | nil => rfl
  | cons event rest inductionHypothesis =>
      obtain ⟨isName, others⟩ := List.forall_mem_cons.1 named
      rw [encodeNames, isName]
      simp only [Bool.not_true, Bool.false_eq_true, if_false]
      split
      · exact inductionHypothesis others
      · exact inductionHypothesis others

/-- Of names that are not all right there is a first wrong one. -/
theorem exists_first_wrong {events : List Event}
    (wrong : ¬ ∀ event ∈ events, isWord event.name.toList = true) :
    ∃ earlier event later, events = earlier ++ event :: later ∧
      (∀ other ∈ earlier, isWord other.name.toList = true) ∧
      isWord event.name.toList = false := by
  obtain ⟨event, found⟩ : ∃ event, events.find? (fun event => !isWord event.name.toList) =
      some event := by
    rw [← Option.isSome_iff_exists, List.find?_isSome]
    simpa using wrong
  obtain ⟨isWrong, earlier, later, rfl, named⟩ := List.find?_eq_some_iff_append.1 found
  exact ⟨earlier, event, later, rfl, by simpa using named, by simpa using isWrong⟩

/-! ## Sections -/

theorem Encoding.andThen_ne_refused {first second : Encoding} {reason : InvalidName}
    (head : first.outcome ≠ refuse reason) (tail : second.outcome ≠ refuse reason) :
    (first.andThen second).outcome ≠ refuse reason := by
  obtain ⟨lines, outcome⟩ := first
  cases outcome with
  | ok done => exact tail
  | error stop => exact head

theorem encodeEvents_ne_refused (options : EncodeOptions) (table : List String) (cursor : Int)
    (events : List Event) (reason : InvalidName) :
    (encodeEvents options table cursor events).outcome ≠ refuse reason := by
  induction events generalizing cursor with
  | nil => rintro ⟨⟩
  | cons event rest inductionHypothesis =>
      rw [encodeEvents]
      split
      · rintro ⟨⟩
      · exact inductionHypothesis _

theorem encodeSection_ne_refused (options : EncodeOptions) (table : List String) (id : UInt32)
    (events : List Event) (reason : InvalidName) :
    (encodeSection options table id events).outcome ≠ refuse reason := by
  cases events with
  | nil => exact nofun
  | cons first rest =>
      exact Encoding.andThen_ne_refused nofun (encodeEvents_ne_refused options table _ _ reason)

/-- Only names are refused; in the sections a writer may at most fault. -/
theorem encodeSections_ne_refused (options : EncodeOptions) (table : List String)
    (entries : List (UInt32 × List Event)) (reason : InvalidName) :
    (encodeSections options table entries).outcome ≠ refuse reason := by
  induction entries with
  | nil => exact nofun
  | cons entry rest inductionHypothesis =>
      exact Encoding.andThen_ne_refused
        (encodeSection_ne_refused options table entry.1 entry.2 reason) inductionHypothesis

/-! ## Whole logs -/

/-- The writing of a log whose names are all right is not stopped by a name. -/
theorem outcome_ne_refused (named : ∀ event ∈ log.threads.allEvents, isWord event.name.toList = true)
    (reason : InvalidName) : (encode options log).outcome ≠ refuse reason := by
  refine Encoding.andThen_ne_refused ?_ (encodeSections_ne_refused options _ _ reason)
  refine Encoding.andThen_ne_refused nofun ?_
  rw [encodeNames_complete options.names named]
  exact nofun

/-- The table only grows with more names. -/
theorem length_tableAfter_le (format : NameFormat) (earlier later : List Event) :
    (tableAfter format [] earlier).length ≤ (tableAfter format [] (earlier ++ later)).length := by
  cases format with
  | inlineNames => exact Nat.le_refl _
  | nameTable =>
      rw [tableAfter, tableAfter, List.nil_append, List.nil_append, List.map_append,
        List.eraseDups_append, List.length_append]
      exact Nat.le_add_right _ _

/-- Where a name is wrong the writing stops there, and what was written until then is read back as a
log without threads. -/
theorem decode_of_refused
    (wrong : ¬ ∀ event ∈ log.threads.allEvents, isWord event.name.toList = true)
    (small : (tableOf options log).length ≤ Width.bound 32) :
    (∃ reason, (encode options log).outcome = refuse reason) ∧
      decode (linesOfText (encode options log).text) = .ok ⟨log.calibration, .empty⟩ := by
  obtain ⟨earlier, event, later, split, named, isWrong⟩ := exists_first_wrong wrong
  have smallHere : (tableAfter options.names [] earlier).length ≤ Width.bound 32 := by
    rw [tableOf, split] at small
    exact Nat.le_trans (length_tableAfter_le options.names earlier _) small
  have leads := (headerLines_leads options log).andThen
    (@encodeNames_leads options.names [] earlier List.nodup_nil named smallHere
      (headed options log) rfl).2
  have written : encode options log =
      ⟨headerLines options log ++ (encodeNames options.names [] earlier).1.lines,
        refuse ⟨event.name⟩⟩ := by
    have stopped := @encodeNames_append options.names [] earlier event named isWrong later
    rw [encode, split]
    generalize encodeNames options.names [] (earlier ++ event :: later) = result at stopped ⊢
    obtain ⟨names, table⟩ := result
    cases stopped
    rfl
  rw [written]
  exact ⟨⟨_, rfl⟩, leads.decode.2⟩

end CallProfiler.Log
