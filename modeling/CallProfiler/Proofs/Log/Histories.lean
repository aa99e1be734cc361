import CallProfiler.Proofs.Log.FirstRefusal
import Mathlib.Data.Set.Card

/-!
# Logs decoded one after the other

A decoder outlives the logs that it decodes, and keeps the names that it met. `Mentions` says which
line brings up which name, and `ComesUp` which names an input brings up before its reading stops.
`decodeAll_forgets` says that nothing else is left of an input: what is decoded of the next ones
does not depend on it.
-/

namespace CallProfiler.Log

open CallProfiler.Text

variable {earlier : List Statement} {events : List (UInt32 × Event)} {name : String}

/-! ## Names that come up -/

/-- A line brings up a name after some statements: a name line the one that it states, and an event
line the word in the place of the name, where events carry their names. The event line has to be
in a section, and its words up to the name have to be right, but not those after it. -/
inductive Mentions (earlier : List Statement) : List (List Char) → String → Prop
  | entry {words : List (List Char)} {id : UInt32} {name : String}
      (form : Says (formatIn earlier) words (.name id name)) : Mentions earlier words name
  | event {frameWord levelWord nameWord : List Char} {rest : List (List Char)} {frame : Bool}
      {level : Int32} (inSection : (sectionIn? earlier).isSome = true)
      (inline : formatIn earlier = .inlineNames) (frameFlag : Unsigned frameWord frame.toNat)
      (levelNumeral : Signed levelWord level.toInt) :
      Mentions earlier (eventMark :: frameWord :: levelWord :: nameWord :: rest) (.ofList nameWord)

/-- An input brings up a name in a line that reading comes to: all lines before it are allowed. -/
def ComesUp (input : List Line) (name : String) : Prop :=
  ∃ before text after statements, input = before ++ some text :: after ∧
    Follows [] before statements ∧ Mentions statements (words text) name

/-! ## Lines -/

namespace Reader

theorem mentioned_readName {reader : Reader} {words : List (List Char)} :
    (reader.readWords (nameMark :: words)).mentioned = some name ↔
      ∃ id, Says reader.names (nameMark :: words) (.name id name) := by
  simp only [← readName_eq_ok_iff]
  rw [readWords, if_neg (by decide), if_neg (by decide), if_pos rfl]
  cases read : readName words with
  | error problem => simp
  | ok result =>
      obtain ⟨⟨id, stated⟩, rest⟩ := result
      simp

theorem mentioned_readEvent {reader : Reader} {words : List (List Char)} :
    (reader.readEvent words).mentioned = some name ↔
      reader.current.isSome = true ∧ reader.names = .inlineNames ∧
        ∃ frameWord levelWord nameWord rest, ∃ frame : Bool, ∃ level : Int32,
          words = frameWord :: levelWord :: nameWord :: rest ∧ Unsigned frameWord frame.toNat ∧
          Signed levelWord level.toInt ∧ name = .ofList nameWord := by
  rw [readEvent]
  cases place : reader.current with
  | none => simp
  | some place =>
      constructor
      · intro mentioned
        dsimp only at mentioned
        split at mentioned
        · cases mentioned
        · rename_i head rest begins
          dsimp only at mentioned
          split at mentioned
          · rename_i inline
            cases mentioned
            obtain ⟨frameWord, levelWord, nameWord, frame, level, label, known, rfl, frameFlag,
              levelNumeral, labelled, named, rfl⟩ := readEventHead_eq_ok_iff.1 begins
            rw [inline] at labelled
            cases labelled
            cases named
            exact ⟨rfl, inline, frameWord, levelWord, nameWord, rest, frame, level, rfl, frameFlag,
              levelNumeral, rfl⟩
          · cases mentioned
      · rintro ⟨_, inline, frameWord, levelWord, nameWord, rest, frame, level, rfl, frameFlag,
          levelNumeral, rfl⟩
        have labelled : (Label.inline (.ofList nameWord)).Says reader.names nameWord := by
          rw [inline]
          exact .inline nameWord
        have begins := (@readEventHead_eq_ok_iff reader _ rest _).2 ⟨frameWord, levelWord, nameWord,
          frame, level, .inline (.ofList nameWord), .ofList nameWord, rfl, frameFlag, levelNumeral,
          labelled, rfl, rfl⟩
        dsimp only
        rw [begins]
        exact if_pos inline

/-- The name that a line brings up is the one that the reader mentions. -/
theorem mentioned_readWords {words : List (List Char)} :
    ((ofStatements earlier events).readWords words).mentioned = some name ↔
      Mentions earlier words name := by
  constructor
  · intro mentioned
    cases words with
    | nil => cases mentioned
    | cons mark words =>
        by_cases isName : mark = nameMark
        · subst isName
          obtain ⟨id, form⟩ := mentioned_readName.1 mentioned
          exact .entry form
        by_cases isEvent : mark = eventMark
        · subst isEvent
          rw [readWords, if_neg (by decide), if_neg (by decide), if_neg (by decide),
            if_neg (by decide), if_pos rfl] at mentioned
          obtain ⟨inSection, inline, frameWord, levelWord, nameWord, rest, frame, level, rfl,
            frameFlag, levelNumeral, rfl⟩ := mentioned_readEvent.1 mentioned
          exact .event (by simpa [ofStatements] using inSection) inline frameFlag levelNumeral
        · rw [readWords, if_neg isName, if_neg isEvent] at mentioned
          split_ifs at mentioned
  · rintro (form | ⟨inSection, inline, frameFlag, levelNumeral⟩)
    · cases line : form with
      | name => exact mentioned_readName.2 ⟨_, form⟩
    · rw [readWords, if_neg (by decide), if_neg (by decide), if_neg (by decide),
        if_neg (by decide), if_pos rfl]
      exact mentioned_readEvent.2 ⟨by simpa [ofStatements] using inSection, inline, _, _, _, _, _, _,
        rfl, frameFlag, levelNumeral, rfl⟩

end Reader

/-! ## Names that a decoder has met -/

namespace Decoder

open Reader (ofStatements ofStatements_nil)

variable {decoder : Decoder} {reader : Reader} {number : Nat} {input : List Line}

theorem mem_names_intern {other : String} :
    name ∈ (decoder.intern other).names ↔ other = name ∨ name ∈ decoder.names := by
  rw [intern]
  split
  · rename_i known
    constructor
    · exact .inr
    · rintro (rfl | member)
      · exact known
      · exact member
  · rw [List.mem_cons, eq_comm]

/-- A line adds the name that it mentions to those met. -/
theorem mem_names_met {mentioned : Option String} :
    name ∈ (mentioned.elim decoder decoder.intern).names ↔
      mentioned = some name ∨ name ∈ decoder.names := by
  cases mentioned with
  | none => simp
  | some other =>
      rw [Option.some.injEq]
      exact mem_names_intern

/-- No name is forgotten. -/
theorem mem_names_readLines_of_mem (met : name ∈ decoder.names) :
    name ∈ (decoder.readLines reader number input).1.names := by
  induction input generalizing decoder reader number with
  | nil => exact met
  | cons line rest inductionHypothesis =>
      have still := (@mem_names_met name decoder (reader.readLine line).mentioned).2 (.inr met)
      rw [readLines]
      cases (reader.readLine line).outcome with
      | error problem => exact still
      | ok next => exact inductionHypothesis still

/-- A line that is read adds its name, whether it is accepted or not. -/
theorem mem_names_readLines_cons {line : Line} {rest : List Line}
    (mentioned : (reader.readLine line).mentioned = some name) :
    name ∈ (decoder.readLines reader number (line :: rest)).1.names := by
  have met := (@mem_names_met name decoder (reader.readLine line).mentioned).2 (.inl mentioned)
  rw [readLines]
  cases (reader.readLine line).outcome with
  | error problem => exact met
  | ok next => exact mem_names_readLines_of_mem met

/-- A name was met before the lines, or one of them that reading comes to brings it up. -/
theorem exists_mention_of_mem_readLines (recorded : Recorded earlier events)
    (member : name ∈ (decoder.readLines (ofStatements earlier events) number input).1.names) :
    name ∈ decoder.names ∨ ∃ before text after statements,
      input = before ++ some text :: after ∧ Follows earlier before statements ∧
        Mentions statements (words text) name := by
  induction input generalizing decoder number earlier events with
  | nil => exact .inl member
  | cons line rest inductionHypothesis =>
      have here : name ∈ (((ofStatements earlier events).readLine line).mentioned.elim decoder
            decoder.intern).names →
          name ∈ decoder.names ∨ ∃ before text after statements,
            line :: rest = before ++ some text :: after ∧ Follows earlier before statements ∧
              Mentions statements (words text) name := by
        intro met
        rcases mem_names_met.1 met with mentioned | known
        · cases line with
          | none => cases mentioned
          | some text =>
              exact .inr ⟨[], text, rest, earlier, rfl, .done, Reader.mentioned_readWords.1 mentioned⟩
        · exact .inl known
      rw [readLines] at member
      cases outcome : ((ofStatements earlier events).readLine line).outcome with
      | error problem =>
          simp only [outcome] at member
          exact here member
      | ok next =>
          simp only [outcome] at member
          obtain ⟨after, all, recordedAfter, rfl, leads⟩ :=
            Reader.readLine_ofStatements recorded outcome
          rcases inductionHypothesis recordedAfter member with
            met | ⟨before, text, later, statements, rfl, follows, mentions⟩
          · exact here met
          · exact .inr ⟨line :: before, text, later, statements, rfl, leads _ _ follows, mentions⟩

/-- After an input a decoder has met the names that it had met before, and those that the input
brings up. -/
theorem mem_names_decode :
    name ∈ (decoder.decode input).1.names ↔ name ∈ decoder.names ∨ ComesUp input name := by
  show name ∈ (decoder.readLines .start 1 input).1.names ↔ _
  rw [← ofStatements_nil]
  constructor
  · exact exists_mention_of_mem_readLines .nothing
  · rintro (met | ⟨before, text, after, statements, rfl, follows, mentions⟩)
    · exact mem_names_readLines_of_mem met
    · obtain ⟨all, _, read⟩ := readLines_of_follows follows .nothing decoder 1
      rw [readLines_append read]
      exact mem_names_readLines_cons (Reader.mentioned_readWords.2 mentions)

/-! ## Several logs -/

/-- Decode inputs one after the other, whether they are logs or not. -/
def decodeAll (decoder : Decoder) :
    List (List Line) → Decoder × List (Except DecodeError EventLog)
  | [] => (decoder, [])
  | input :: rest =>
    let (next, outcome) := decoder.decode input
    let (last, outcomes) := next.decodeAll rest
    (last, outcome :: outcomes)

theorem decodeAll_snd (decoder : Decoder) (inputs : List (List Line)) :
    (decoder.decodeAll inputs).2 = inputs.map Log.decode := by
  induction inputs generalizing decoder with
  | nil => rfl
  | cons input rest inductionHypothesis =>
      rw [decodeAll, List.map_cons, ← decode_snd decoder, ← inductionHypothesis]

theorem mem_names_decodeAll {inputs : List (List Line)} :
    name ∈ (decoder.decodeAll inputs).1.names ↔
      name ∈ decoder.names ∨ ∃ input ∈ inputs, ComesUp input name := by
  induction inputs generalizing decoder with
  | nil => simp [decodeAll]
  | cons input rest inductionHypothesis =>
      have whole : (decoder.decodeAll (input :: rest)).1 =
          ((decoder.decode input).1.decodeAll rest).1 := rfl
      simp only [whole, inductionHypothesis, mem_names_decode, List.mem_cons, exists_eq_or_imp,
        or_assoc]

/-- Nothing is left of the inputs that a decoder was given but names. Each outcome is that of a
decoder that has met no other input, and the number of names met is that of the different names
that the inputs brought up, each until its reading stopped. -/
theorem decodeAll_forgets (inputs : List (List Line)) :
    (fresh.decodeAll inputs).2 = inputs.map Log.decode ∧
      {name | ∃ input ∈ inputs, ComesUp input name}.Finite ∧
      (fresh.decodeAll inputs).1.size = {name | ∃ input ∈ inputs, ComesUp input name}.ncard := by
  have names : {name | ∃ input ∈ inputs, ComesUp input name} =
      ((fresh.decodeAll inputs).1.names.toFinset : Set String) := by
    ext name
    rw [Set.mem_ofPred_eq, Finset.mem_coe, List.mem_toFinset, mem_names_decodeAll]
    simp [fresh]
  refine ⟨decodeAll_snd fresh inputs, ?_, ?_⟩
  · rw [names]
    exact Finset.finite_toSet _
  · rw [names, Set.ncard_coe_finset,
      List.toFinset_card_of_nodup (fresh.decodeAll inputs).1.distinct, size]

/-- A name counts although the rest of its line is refused, and once for all inputs. -/
example :
    let (decoder, outcomes) := fresh.decodeAll
      [linesOfText "T: 7 0\nE: 0 0 load x\nN: 1 draw".toList, linesOfText "N: 2 load".toList]
    decoder.names = ["load"] ∧ outcomes.map (·.map (·.threads.entries)) =
      [.error (.badLine 2 (.invalid .timeDelta ['x'])), .error .missingHeader] :=
  ⟨rfl, rfl⟩

end Decoder

end CallProfiler.Log
