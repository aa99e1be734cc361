import CallProfiler.Proofs.Log.FirstRefusal
import Mathlib.Logic.Relation

/-!
# The layout of event logs

A log may be laid out in many ways: blanks between words can be wider or other ones, lines can be
indented or end in a carriage return, and blank lines can stand anywhere. `Respaced` and `Relaid`
are these changes to a text, letter by letter. `decode_relaid` says that nothing that is decoded or
refused depends on them, but for the numbers of the lines, and on those only where blank lines come
or go.
-/

namespace CallProfiler.Log

open CallProfiler.Text

/-! ## Changes of layout -/

/-- Blanks that part words without ending a line. -/
def Gap (run : List Char) : Prop := ∀ letter ∈ run, isBlank letter = true ∧ letter ≠ '\n'

/-- A line begins behind this text. -/
def LineBegins (before : List Char) : Prop := before = [] ∨ ∃ earlier, before = earlier ++ ['\n']

/-- A line ends in front of this text. -/
def LineEnds (after : List Char) : Prop := after = [] ∨ ∃ later, after = '\n' :: later

/-- A change of the blanks at one place of a line. -/
inductive Respaced : List Char → List Char → Prop where
  /-- Some blanks give way to others. -/
  | inside {before after run other : List Char} (old : Gap run) (someOld : run ≠ [])
      (new : Gap other) (someNew : other ≠ []) :
      Respaced (before ++ (run ++ after)) (before ++ (other ++ after))
  | atStart {before after run : List Char} (begins : LineBegins before) (new : Gap run) :
      Respaced (before ++ after) (before ++ (run ++ after))
  | atEnd {before after run : List Char} (ends : LineEnds after) (new : Gap run) :
      Respaced (before ++ after) (before ++ (run ++ after))

/-- A change of blanks in a line, or a new line that holds nothing else. -/
inductive Relaid : List Char → List Char → Prop where
  | respaced {text other : List Char} (change : Respaced text other) : Relaid text other
  | lineBefore {before after run : List Char} (begins : LineBegins before) (blank : Gap run) :
      Relaid (before ++ after) (before ++ (run ++ '\n' :: after))
  | lineAfter {before after run : List Char} (ends : LineEnds after) (blank : Gap run) :
      Relaid (before ++ after) (before ++ ('\n' :: run ++ after))

/-- A line without the carriage return at its end, if it has one. -/
def withoutReturn (line : List Char) : List Char :=
  if line.getLast? = some '\r' then line.dropLast else line

/-- The words of each line. -/
def wordsOfLines (text : List Char) : List (List (List Char)) := (lines text).map words

/-- What no single change touches, several leave as it was. -/
theorem eq_of_eqvGen {α β : Type} {change : α → α → Prop} {observe : α → β}
    (keeps : ∀ before after, change before after → observe after = observe before)
    {before after : α} (changes : Relation.EqvGen change before after) :
    observe after = observe before := by
  induction changes with
  | rel _ _ single => exact keeps _ _ single
  | refl => rfl
  | symm _ _ _ inductionHypothesis => exact inductionHypothesis.symm
  | trans _ _ _ _ _ first second => exact second.trans first

/-! ## Lines of a text in another layout -/

variable {before after run text other : List Char}

theorem Gap.blank (gap : Gap run) : ∀ letter ∈ run, isBlank letter = true :=
  fun letter member => (gap letter member).1

theorem gap_singleton {letter : Char} (blank : isBlank letter = true) (kept : letter ≠ '\n') :
    Gap [letter] := List.forall_mem_singleton.2 ⟨blank, kept⟩

theorem Gap.lines_eq (gap : Gap run) : lines run = [run] :=
  List.splitOnP_eq_singleton fun letter member => by simpa using (gap letter member).2

theorem exists_lines_concat (text : List Char) : ∃ earlier last, lines text = earlier ++ [last] :=
  (List.eq_nil_or_concat' (lines text)).resolve_left (List.splitOnP_ne_nil _ _)

theorem exists_lines_cons (text : List Char) : ∃ next later, lines text = next :: later :=
  List.exists_cons_of_ne_nil (List.splitOnP_ne_nil _ _)

theorem LineBegins.lines_eq (begins : LineBegins before) :
    ∃ earlier, lines before = earlier ++ [[]] := by
  rcases begins with rfl | ⟨earlier, rfl⟩
  · exact ⟨[], rfl⟩
  · exact ⟨lines earlier, List.splitOnP_append_cons earlier [] (by decide)⟩

theorem LineEnds.lines_eq (ends : LineEnds after) : ∃ later, lines after = [] :: later := by
  rcases ends with rfl | ⟨later, rfl⟩
  · exact ⟨[], rfl⟩
  · exact ⟨lines later, List.splitOnP_append_cons [] later (by decide)⟩

theorem Gap.lines_append {later : List (List Char)} {next : List Char} (gap : Gap run)
    (begins : lines after = next :: later) : lines (run ++ after) = (run ++ next) :: later := by
  have single : lines run = [] ++ [run] := gap.lines_eq
  rw [Text.lines_append single begins, List.nil_append]

/-- The line that a gap is put in, among the others. -/
theorem Gap.lines_append_append {earlier later : List (List Char)} {last next : List Char}
    (gap : Gap run) (ends : lines before = earlier ++ [last])
    (begins : lines after = next :: later) :
    lines (before ++ (run ++ after)) = earlier ++ (last ++ (run ++ next)) :: later :=
  Text.lines_append ends (gap.lines_append begins)

/-- Blanks in a line make no other words. -/
theorem Respaced.wordsOfLines_eq (change : Respaced text other) :
    wordsOfLines other = wordsOfLines text := by
  cases change with
  | @inside before after run other old someOld new someNew =>
      obtain ⟨earlier, last, ends⟩ := exists_lines_concat before
      obtain ⟨next, later, begins⟩ := exists_lines_cons after
      simp only [wordsOfLines, old.lines_append_append ends begins,
        new.lines_append_append ends begins, List.map_append, List.map_cons,
        words_append_append someOld old.blank, words_append_append someNew new.blank]
  | @atStart before after run starts new =>
      obtain ⟨earlier, ends⟩ := starts.lines_eq
      obtain ⟨next, later, begins⟩ := exists_lines_cons after
      simp only [wordsOfLines, new.lines_append_append ends begins, lines_append ends begins,
        List.map_append, List.map_cons, List.nil_append, words_append_of_blank new.blank]
  | @atEnd before after run stops new =>
      obtain ⟨earlier, last, ends⟩ := exists_lines_concat before
      obtain ⟨later, begins⟩ := stops.lines_eq
      simp only [wordsOfLines, new.lines_append_append ends begins, lines_append ends begins,
        List.map_append, List.map_cons, List.append_nil, words_append_blank new.blank]

theorem words_withoutReturn (line : List Char) : words (withoutReturn line) = words line := by
  rw [withoutReturn]
  split
  · rename_i returned
    obtain ⟨front, rfl⟩ := List.getLast?_eq_some_iff.1 returned
    have gap : Gap ['\r'] := gap_singleton rfl (by decide)
    rw [List.dropLast_concat, words_append_blank gap.blank]
  · rfl

/-- The words of each line that has some. -/
def statedWords (text : List Char) : List (List (List Char)) :=
  (wordsOfLines text).filter fun words => !words.isEmpty

theorem statedWords_eq_of_cons (earlier later : List (List (List Char)))
    (old : wordsOfLines text = earlier ++ later)
    (new : wordsOfLines other = earlier ++ [] :: later) : statedWords other = statedWords text := by
  simp [statedWords, old, new]

/-- No change of layout makes other words, but on lines of other numbers. -/
theorem Relaid.statedWords_eq (change : Relaid text other) :
    statedWords other = statedWords text := by
  cases change with
  | respaced change => rw [statedWords, change.wordsOfLines_eq, statedWords]
  | @lineBefore before after run starts blank =>
      obtain ⟨earlier, ends⟩ := starts.lines_eq
      obtain ⟨next, later, begins⟩ := exists_lines_cons after
      have broken : lines ('\n' :: after) = [] :: lines after :=
        List.splitOnP_append_cons [] after (by decide)
      apply statedWords_eq_of_cons (earlier.map words) ((lines after).map words)
      · rw [wordsOfLines, lines_append ends begins, begins, List.map_append, List.nil_append]
      · rw [wordsOfLines, blank.lines_append_append ends broken, List.map_append, List.map_cons,
          List.nil_append, List.append_nil, words_of_blank blank.blank]
  | @lineAfter before after run stops blank =>
      obtain ⟨earlier, last, ends⟩ := exists_lines_concat before
      obtain ⟨later, begins⟩ := stops.lines_eq
      have broken :
          lines (before ++ ('\n' :: run ++ after)) = lines before ++ lines (run ++ after) :=
        List.splitOnP_append_cons before (run ++ after) (by decide)
      have added : lines (run ++ after) = run :: later := by
        rw [blank.lines_append begins, List.append_nil]
      apply statedWords_eq_of_cons ((lines before).map words) (later.map words)
      · rw [wordsOfLines, lines_append ends begins, ends, List.append_nil]
        simp
      · rw [wordsOfLines, broken, added, List.map_append, List.map_cons, words_of_blank blank.blank]

/-! ## Decoding -/

def hasWords (line : List Char) : Bool := !(words line).isEmpty

/-- The lines of a text that have words. -/
def statedLines (text : List Char) : List (List Char) := (lines text).filter hasWords

theorem map_words_statedLines (text : List Char) :
    (statedLines text).map words = statedWords text := by
  rw [statedLines, statedWords, wordsOfLines, List.filter_map]
  rfl

/-- How many lines with words stand before the line of a number. -/
def statedBefore (text : List Char) (number : Nat) : Nat :=
  ((lines text).take (number - 1)).countP hasWords

/-- An error with its line counted among those that have words. -/
def recounted (text : List Char) : DecodeError → DecodeError
  | .badLine number problem => .badLine (statedBefore text number + 1) problem
  | .missingHeader => .missingHeader

namespace Decoder

variable (decoder : Decoder) (reader : Reader) (number : Nat)

/-- A line is no more than its words. -/
theorem readLines_of_words {texts others : List (List Char)}
    (same : texts.map words = others.map words) :
    decoder.readLines reader number (texts.map some) =
      decoder.readLines reader number (others.map some) := by
  induction texts generalizing decoder reader number others with
  | nil =>
      cases others with
      | nil => rfl
      | cons => cases same
  | cons text rest inductionHypothesis =>
      cases others with
      | nil => cases same
      | cons other more =>
          obtain ⟨first, later⟩ := List.cons.inj same
          have line : reader.readLine (some text) = reader.readLine (some other) := by
            rw [Reader.readLine, Reader.readLine, first]
          simp only [List.map_cons, readLines, line, inductionHypothesis _ _ _ later]

theorem decode_of_words {texts others : List (List Char)}
    (same : texts.map words = others.map words) :
    decoder.decode (texts.map some) = decoder.decode (others.map some) := by
  rw [decode, decode, readLines_of_words _ _ _ same]

/-- A blank line is passed over. -/
theorem readLines_cons_blank {text : List Char} (blank : words text = []) (rest : List Line) :
    decoder.readLines reader number (some text :: rest) =
      decoder.readLines reader (number + 1) rest := by
  rw [readLines, Reader.readLine, blank]
  rfl

/-- Without the blank lines the same is read, and the line that is refused is the same. -/
theorem readLines_filter (ordinal : Nat) (texts : List (List Char)) :
    let whole := decoder.readLines reader number (texts.map some)
    let stated := decoder.readLines reader ordinal ((texts.filter hasWords).map some)
    whole.1 = stated.1 ∧
      ((∃ next, whole.2 = .ok next ∧ stated.2 = .ok next) ∨
        ∃ before line after problem, texts = before ++ line :: after ∧
          whole.2 = .error (.badLine (number + before.length) problem) ∧
          stated.2 = .error (.badLine (ordinal + before.countP hasWords) problem)) := by
  induction texts generalizing decoder reader number ordinal with
  | nil => exact ⟨rfl, .inl ⟨reader, rfl, rfl⟩⟩
  | cons text rest inductionHypothesis =>
      by_cases kept : hasWords text = true
      · simp only [List.filter_cons_of_pos kept, List.map_cons, readLines]
        cases read : (reader.readLine (some text)).outcome with
        | error problem =>
            exact ⟨rfl, .inr ⟨[], text, rest, problem, rfl, rfl, rfl⟩⟩
        | ok next =>
            obtain ⟨met, outcome⟩ := inductionHypothesis _ next (number + 1) (ordinal + 1)
            refine ⟨met, outcome.imp_right ?_⟩
            rintro ⟨before, line, after, problem, rfl, whole, stated⟩
            refine ⟨text :: before, line, after, problem, rfl, ?_, ?_⟩
            · simp only [whole, List.length_cons, Nat.add_assoc, Nat.add_comm 1]
            · simp only [stated, List.countP_cons_of_pos kept, Nat.add_assoc, Nat.add_comm 1]
      · have blank : words text = [] := by simpa [hasWords] using kept
        obtain ⟨met, outcome⟩ := inductionHypothesis decoder reader (number + 1) ordinal
        simp only [List.filter_cons_of_neg kept, List.map_cons, readLines_cons_blank _ _ _ blank]
        refine ⟨met, outcome.imp_right ?_⟩
        rintro ⟨before, line, after, problem, rfl, whole, stated⟩
        refine ⟨text :: before, line, after, problem, rfl, ?_, ?_⟩
        · rw [whole, List.length_cons, Nat.add_assoc, Nat.add_comm 1]
        · rw [stated, List.countP_cons_of_neg kept]

/-- Decoding the lines that have words is decoding all, but for the numbers of lines. -/
theorem decode_statedLines (text : List Char) :
    (decoder.decode (linesOfText text)).1 = (decoder.decode ((statedLines text).map some)).1 ∧
      (decoder.decode (linesOfText text)).2.mapError (recounted text) =
        (decoder.decode ((statedLines text).map some)).2 := by
  obtain ⟨met, outcome⟩ := readLines_filter decoder .start 1 1 (lines text)
  refine ⟨met, ?_⟩
  rcases outcome with ⟨next, whole, stated⟩ | ⟨before, line, after, problem, split, whole, stated⟩
  · rw [linesOfText, decode_of_readLines_ok whole, statedLines, decode_of_readLines_ok stated]
    cases made : next.toLog with
    | ok log => rfl
    | error error =>
        rw [Reader.toLog_eq_error made]
        rfl
  · have earlier : statedBefore text (1 + before.length) =
        before.countP hasWords := by
      rw [statedBefore, split, Nat.add_sub_cancel_left, List.take_left]
    rw [linesOfText, decode_of_readLines_error whole, statedLines,
      decode_of_readLines_error stated, Nat.add_comm 1 (List.countP _ _), ← earlier]
    rfl

end Decoder

/-- How a log is laid out does not matter. A text with other blanks in its lines is decoded to the
same log, or refused at the same line for the same reason, and brings up the same names; nor does it
matter whether carriage returns are taken off with the line feeds. A text with blank lines anywhere
comes to the same but for the number of the line that is refused, which is the same one among the
lines that have words. -/
theorem decode_relaid (decoder : Decoder) (text other : List Char) :
    (Relation.EqvGen Respaced text other →
      decoder.decode (linesOfText other) = decoder.decode (linesOfText text)) ∧
    decoder.decode (((lines text).map withoutReturn).map some) =
      decoder.decode (linesOfText text) ∧
    (Relation.EqvGen Relaid text other →
      (decoder.decode (linesOfText other)).1 = (decoder.decode (linesOfText text)).1 ∧
      (decoder.decode (linesOfText other)).2.mapError (recounted other) =
        (decoder.decode (linesOfText text)).2.mapError (recounted text)) := by
  refine ⟨fun changes => ?_, ?_, fun changes => ?_⟩
  · exact Decoder.decode_of_words decoder
      (eq_of_eqvGen (fun _ _ change => Respaced.wordsOfLines_eq change) changes)
  · refine Decoder.decode_of_words decoder ?_
    rw [List.map_map, Function.comp_def]
    simp only [words_withoutReturn]
  · have same : statedWords other = statedWords text :=
      eq_of_eqvGen (fun _ _ change => Relaid.statedWords_eq change) changes
    rw [← map_words_statedLines, ← map_words_statedLines] at same
    obtain ⟨met, outcome⟩ := Decoder.decode_statedLines decoder text
    obtain ⟨metOther, outcomeOther⟩ := Decoder.decode_statedLines decoder other
    rw [met, metOther, outcome, outcomeOther, Decoder.decode_of_words decoder same]
    exact ⟨rfl, rfl⟩

/-- A log with a wrong line, as it was written. -/
def plainText : List Char := "P: 1 2 3 0 0\nT: 0 x\n".toList

/-- The same with a tabulator and carriage returns. -/
def returnedText : List Char := "P:\t1 2 3 0 0\r\nT: 0 x\r\n".toList

/-- The same with a line of its own for a no-break space. -/
def spreadText : List Char := "P:\t1 2 3 0 0\r\n\u00a0\nT: 0 x\r\n".toList

theorem plainText_returnedText : Relation.EqvGen Respaced plainText returnedText := by
  have tabulator : Respaced plainText "P:\t1 2 3 0 0\nT: 0 x\n".toList :=
    @Respaced.inside "P:".toList "1 2 3 0 0\nT: 0 x\n".toList [' '] ['\t']
      (gap_singleton rfl (by decide)) (by decide) (gap_singleton rfl (by decide)) (by decide)
  have firstReturn : Respaced "P:\t1 2 3 0 0\nT: 0 x\n".toList
      "P:\t1 2 3 0 0\r\nT: 0 x\n".toList :=
    @Respaced.atEnd "P:\t1 2 3 0 0".toList "\nT: 0 x\n".toList ['\r']
      (.inr ⟨"T: 0 x\n".toList, rfl⟩) (gap_singleton rfl (by decide))
  have secondReturn : Respaced "P:\t1 2 3 0 0\r\nT: 0 x\n".toList returnedText :=
    @Respaced.atEnd "P:\t1 2 3 0 0\r\nT: 0 x".toList ['\n'] ['\r'] (.inr ⟨[], rfl⟩)
      (gap_singleton rfl (by decide))
  exact .trans _ _ _ (.rel _ _ tabulator)
    (.trans _ _ _ (.rel _ _ firstReturn) (.rel _ _ secondReturn))

theorem returnedText_spreadText : Relaid returnedText spreadText :=
  @Relaid.lineBefore "P:\t1 2 3 0 0\r\n".toList "T: 0 x\r\n".toList ['\u00a0']
    (.inr ⟨"P:\t1 2 3 0 0\r".toList, rfl⟩) (gap_singleton rfl (by decide))

/-- The wrong line is the second one, and behind the blank line the third. -/
theorem decode_relaid_spreadText :
    Relation.EqvGen Respaced plainText returnedText ∧
      Relation.EqvGen Relaid returnedText spreadText ∧
      decode (linesOfText plainText) = .error (.badLine 2 (.invalid .baseTime ['x'])) ∧
      decode (linesOfText returnedText) = .error (.badLine 2 (.invalid .baseTime ['x'])) ∧
      decode (linesOfText spreadText) = .error (.badLine 3 (.invalid .baseTime ['x'])) ∧
      (decode (linesOfText spreadText)).mapError (recounted spreadText) =
        (decode (linesOfText returnedText)).mapError (recounted returnedText) := by
  have respaced := plainText_returnedText
  have relaid := Relation.EqvGen.rel _ _ returnedText_spreadText
  have refused :
      decode (linesOfText plainText) = .error (.badLine 2 (.invalid .baseTime ['x'])) := rfl
  have alike := (decode_relaid .fresh plainText returnedText).1 respaced
  refine ⟨respaced, relaid, refused, ?_, rfl, ?_⟩
  · rw [decode, alike]
    exact refused
  · exact ((decode_relaid .fresh returnedText spreadText).2.2 relaid).2

end CallProfiler.Log
