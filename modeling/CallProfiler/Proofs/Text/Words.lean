import CallProfiler.Text.Blank
import CallProfiler.Text.Column

/-!
# Words and lines read back

A word ends at the first blank, and blanks before it make no word, so a field padded to its
column shows the word in it. A line ends at the first line feed.
-/

namespace CallProfiler.Text

/-! ## Words -/

theorem isWord_iff {text : List Char} :
    isWord text = true ↔ text ≠ [] ∧ ∀ letter ∈ text, isBlank letter = false := by
  simp [isWord]

/-- A blank at the beginning makes no word. -/
theorem words_cons_of_isBlank {letter : Char} (blank : isBlank letter = true) (rest : List Char) :
    words (letter :: rest) = words rest := by
  rw [words, List.splitOnP_cons_eq_if_modifyHead, if_pos blank, List.filter_cons]
  rfl

/-- Nor do the spaces that fill a column. -/
theorem words_replicate_append (count : Nat) (rest : List Char) :
    words (List.replicate count ' ' ++ rest) = words rest := by
  induction count with
  | zero => rfl
  | succ count inductionHypothesis =>
      rw [List.replicate_succ, List.cons_append, words_cons_of_isBlank (by decide),
        inductionHypothesis]

theorem words_of_isWord {word : List Char} (isWord : isWord word = true) :
    words word = [word] := by
  obtain ⟨nonempty, letters⟩ := isWord_iff.1 isWord
  rw [words, List.splitOnP_eq_singleton letters]
  simp [nonempty]

/-- A word ends at the first blank. -/
theorem words_append_cons {word : List Char} {letter : Char} (isWord : isWord word = true)
    (blank : isBlank letter = true) (rest : List Char) :
    words (word ++ letter :: rest) = word :: words rest := by
  obtain ⟨nonempty, letters⟩ := isWord_iff.1 isWord
  rw [words, List.splitOnP_append_cons_of_forall_mem letters letter blank, List.filter_cons]
  simp [nonempty, words]

/-- A blank parts the words before it from those behind it. -/
theorem words_append_cons_of_isBlank {letter : Char} (blank : isBlank letter = true)
    (before after : List Char) :
    words (before ++ letter :: after) = words before ++ words after := by
  rw [words, List.splitOnP_append_cons before after blank, List.filter_append]
  rfl

/-- Blanks at the beginning make no word. -/
theorem words_append_of_blank {run : List Char} (blank : ∀ letter ∈ run, isBlank letter = true)
    (rest : List Char) : words (run ++ rest) = words rest := by
  induction run with
  | nil => rfl
  | cons letter others inductionHypothesis =>
      obtain ⟨first, later⟩ := List.forall_mem_cons.1 blank
      rw [List.cons_append, words_cons_of_isBlank first, inductionHypothesis later]

theorem words_of_blank {run : List Char} (blank : ∀ letter ∈ run, isBlank letter = true) :
    words run = [] := by
  rw [← List.append_nil run, words_append_of_blank blank]
  rfl

/-- Blanks part the words before them from those behind them, however many they are. -/
theorem words_append_append {run : List Char} (nonempty : run ≠ [])
    (blank : ∀ letter ∈ run, isBlank letter = true) (before after : List Char) :
    words (before ++ (run ++ after)) = words before ++ words after := by
  obtain ⟨letter, others, rfl⟩ := List.exists_cons_of_ne_nil nonempty
  obtain ⟨first, later⟩ := List.forall_mem_cons.1 blank
  rw [List.cons_append, words_append_cons_of_isBlank first, words_append_of_blank later]

/-- Blanks at the end make no word either. -/
theorem words_append_blank {run : List Char} (blank : ∀ letter ∈ run, isBlank letter = true)
    (before : List Char) : words (before ++ run) = words before := by
  cases run with
  | nil => rw [List.append_nil]
  | cons letter others =>
      obtain ⟨first, later⟩ := List.forall_mem_cons.1 blank
      rw [words_append_cons_of_isBlank first, words_of_blank later, List.append_nil]

/-- What lies between separators holds none. -/
theorem not_separator_of_mem_splitOnP {α : Type} {separates : α → Bool} {text piece : List α}
    (member : piece ∈ text.splitOnP separates) : ∀ letter ∈ piece, separates letter = false := by
  induction text generalizing piece with
  | nil =>
      rw [List.splitOnP_nil, List.mem_singleton] at member
      simp [member]
  | cons first rest inductionHypothesis =>
      rw [List.splitOnP_cons_eq_if_modifyHead] at member
      split at member
      · rcases List.mem_cons.1 member with rfl | later
        · simp
        · exact inductionHypothesis later
      · rename_i kept
        obtain ⟨head, tail, pieces⟩ :=
          List.exists_cons_of_ne_nil (List.splitOnP_ne_nil separates rest)
        rw [pieces] at member inductionHypothesis
        rcases List.mem_cons.1 member with rfl | later
        · exact List.forall_mem_cons.2
            ⟨by simpa using kept, inductionHypothesis List.mem_cons_self⟩
        · exact inductionHypothesis (List.mem_cons_of_mem head later)

/-- The words of a text are words. -/
theorem isWord_of_mem_words {text word : List Char} (member : word ∈ words text) :
    isWord word = true := by
  obtain ⟨piece, nonempty⟩ := List.mem_filter.1 member
  exact isWord_iff.2 ⟨by simpa using nonempty, not_separator_of_mem_splitOnP piece⟩

/-- A field shows a word if it is that word, with spaces before it or not. -/
def Shows (field word : List Char) : Prop :=
  isWord word = true ∧ ∃ count, field = List.replicate count ' ' ++ word

theorem Shows.refl {word : List Char} (isWord : isWord word = true) : Shows word word :=
  ⟨isWord, 0, rfl⟩

theorem Shows.flushRight {word : List Char} (width : Nat) (isWord : isWord word = true) :
    Shows (flushRight width word) word :=
  ⟨isWord, width - word.length, rfl⟩

/-- A line ends at the first line feed. -/
theorem lines_append_cons {line : List Char} (unbroken : '\n' ∉ line) (rest : List Char) :
    lines (line ++ '\n' :: rest) = line :: lines rest := by
  have letters : ∀ letter ∈ line, (letter == '\n') = false := by
    intro letter member
    simpa using fun same : letter = '\n' => unbroken (same ▸ member)
  exact List.splitOnP_append_cons_of_forall_mem letters '\n' (by decide) rest

/-- Lines without line feeds are the lines of their text; an empty one follows the last. -/
theorem lines_flatMap {written : List (List Char)} (unbroken : ∀ line ∈ written, '\n' ∉ line) :
    lines (written.flatMap fun line => line ++ ['\n']) = written ++ [[]] := by
  induction written with
  | nil => rfl
  | cons line rest inductionHypothesis =>
      obtain ⟨own, others⟩ := List.forall_mem_cons.1 unbroken
      rw [List.flatMap_cons, List.append_assoc, List.singleton_append, lines_append_cons own,
        inductionHypothesis others, List.cons_append]

/-- Texts put together join the last line of the one with the first line of the other. -/
theorem lines_append {first second last next : List Char} {earlier later : List (List Char)}
    (ends : lines first = earlier ++ [last]) (begins : lines second = next :: later) :
    lines (first ++ second) = earlier ++ (last ++ next) :: later := by
  rw [lines] at *
  induction first generalizing earlier last with
  | nil =>
      obtain ⟨rfl, rfl⟩ : earlier = [] ∧ last = [] := by simpa [List.cons_eq_append_iff] using ends
      exact begins
  | cons letter rest inductionHypothesis =>
      rw [List.splitOnP_cons_eq_if_modifyHead] at ends
      rw [List.cons_append, List.splitOnP_cons_eq_if_modifyHead]
      obtain ⟨head, tail, pieces⟩ :=
        List.exists_cons_of_ne_nil (List.splitOnP_ne_nil (fun letter => letter == '\n') rest)
      rw [pieces] at ends inductionHypothesis
      split
      · rename_i feed
        rw [if_pos feed] at ends
        cases earlier with
        | nil => cases ends
        | cons _ others =>
            obtain ⟨rfl, same⟩ := List.cons.inj ends
            rw [inductionHypothesis same]
            rfl
      · rename_i kept
        rw [if_neg kept, List.modifyHead_cons] at ends
        cases earlier with
        | nil =>
            obtain ⟨rfl, rfl⟩ := List.cons.inj ends
            rw [inductionHypothesis (List.nil_append [head]).symm]
            rfl
        | cons _ others =>
            obtain ⟨rfl, rfl⟩ := List.cons.inj ends
            rw [inductionHypothesis List.cons_append.symm]
            rfl

end CallProfiler.Text
