import CallProfiler.Proofs.Json.Numbers
import CallProfiler.Proofs.Json.Strings

/-!
# Values read back

The pretty text of a value is read back as the value, if its numbers are well-formed
(`read?_pretty`). The reader needs no greater depth than the text has characters, since every
part of a value stands inside the text of the whole.
-/

namespace CallProfiler.Json

/-- A value whose numbers are all well-formed. -/
inductive Value.WellFormed : Value → Prop
  | null : WellFormed .null
  | bool (flag : Bool) : WellFormed (.bool flag)
  | number {number : Number} (wellFormed : number.WellFormed) : WellFormed (.number number)
  | string (content : String) : WellFormed (.string content)
  | brokenString : WellFormed .brokenString
  | array {items : List Value} (all : ∀ item ∈ items, WellFormed item) : WellFormed (.array items)
  | object {fields : List (Option String × Value)} (all : ∀ field ∈ fields, WellFormed field.2) :
      WellFormed (.object fields)

theorem Value.WellFormed.ofNat (value : Nat) : (Value.ofNat value).WellFormed :=
  .number (Number.wellFormed_ofNat value)

theorem Value.WellFormed.ofInt (value : Int) : (Value.ofInt value).WellFormed :=
  .number (Number.wellFormed_ofInt value)

variable {value : Value} {level outer depth : Nat} {text other rest : List Char}

/-! ## Blanks -/

theorem skipBlanks_cons {letter : Char} (solid : isBlank letter = false) :
    skipBlanks (letter :: rest) = letter :: rest :=
  List.dropWhile_cons_of_neg (by simp [solid])

theorem isBlank_of_numberHead {letter : Char} (head : letter = '-' ∨ letter.isDigit = true) :
    isBlank letter = false := by
  refine eq_false_of_ne_true fun blank => ?_
  simp only [isBlank, Bool.or_eq_true, beq_iff_eq] at blank
  rcases blank with ((rfl | rfl) | rfl) | rfl <;> exact absurd head (by decide)

theorem length_lineBreak (level : Nat) : (lineBreak level).length = 2 * level + 1 := by
  rw [lineBreak, List.length_cons, List.length_replicate]

theorem skipBlanks_lineBreak (level : Nat) (rest : List Char) :
    skipBlanks (lineBreak level ++ rest) = skipBlanks rest := by
  refine List.dropWhile_append_of_pos fun letter member => ?_
  rcases List.mem_cons.1 member with rfl | space
  · rfl
  · rw [List.eq_of_mem_replicate space]
    rfl

/-- Blanks before a value do not matter. -/
theorem readValue_congr (same : skipBlanks text = skipBlanks other) :
    readValue depth text = readValue depth other := by
  cases depth with
  | zero => rfl
  | succ depth => rw [readValue, readValue, same]

theorem readItems_congr (same : skipBlanks text = skipBlanks other) :
    readItems depth text = readItems depth other := by
  cases depth with
  | zero => rfl
  | succ depth => rw [readItems, readItems, readValue_congr same]

theorem readFields_congr (same : skipBlanks text = skipBlanks other) :
    readFields depth text = readFields depth other := by
  cases depth with
  | zero => rfl
  | succ depth => rw [readFields, readFields, same]

/-! ## Parts -/

/-- The text of a value begins with no blank, and not as the end of an array does. -/
theorem Value.WellFormed.exists_write_eq_cons (wellFormed : value.WellFormed) (level : Nat) :
    ∃ letter rest, value.write level = letter :: rest ∧ isBlank letter = false ∧ letter ≠ ']' := by
  cases wellFormed with
  | null => exact ⟨_, _, rfl, rfl, by decide⟩
  | bool flag => cases flag <;> exact ⟨_, _, rfl, rfl, by decide⟩
  | number wellFormed =>
      obtain ⟨letter, rest, written, head⟩ := wellFormed.exists_write_eq_cons
      refine ⟨letter, rest, written, isBlank_of_numberHead head, ?_⟩
      rintro rfl
      exact absurd head (by decide)
  | string content => exact ⟨_, _, rfl, rfl, by decide⟩
  | brokenString => exact ⟨_, _, rfl, rfl, by decide⟩
  | @array items all => cases items <;> exact ⟨_, _, rfl, rfl, by decide⟩
  | @object fields all => cases fields <;> exact ⟨_, _, rfl, rfl, by decide⟩

/-- A value is read back from its text, whatever comes after it that is no part of a number. -/
def Value.ReadBack (value : Value) : Prop :=
  ∀ level depth rest, EndsNumber rest → (value.write level).length ≤ depth + 1 →
    readValue (depth + 1) (value.write level ++ rest) = some (value, rest)

theorem endsNumber_lineBreak : EndsNumber (lineBreak level ++ rest) := by
  rintro _ ⟨⟩
  decide

theorem endsNumber_comma : EndsNumber (',' :: rest) := by
  rintro _ ⟨⟩
  decide

section Items

variable {item : Value} {items : List Value} {more : List Char}

theorem readItems_last (read : readValue depth text = some (item, other))
    (closing : skipBlanks other = ']' :: rest) :
    readItems (depth + 1) text = some ([item], rest) := by
  simp [readItems, read, closing]

theorem readItems_more (read : readValue depth text = some (item, other))
    (comma : skipBlanks other = ',' :: more) (later : readItems depth more = some (items, rest)) :
    readItems (depth + 1) text = some (item :: items, rest) := by
  simp [readItems, read, comma, later]

/-- Items are read back up to the end of their array. -/
theorem readItems_write (readBack : ∀ part ∈ item :: items, part.ReadBack)
    (deep : (item.write level).length + (writeItems level items).length + 2 ≤ depth) :
    readItems depth (item.write level ++
      (writeItems level items ++ (lineBreak outer ++ ']' :: rest))) =
      some (item :: items, rest) := by
  induction items generalizing item depth with
  | nil =>
      obtain ⟨depth, rfl⟩ := Nat.exists_eq_add_of_le' (Nat.le_of_add_left_le deep)
      exact readItems_last
        (readBack item List.mem_cons_self level depth _ endsNumber_lineBreak (by omega))
        ((skipBlanks_lineBreak outer _).trans (skipBlanks_cons rfl))
  | cons next later inductionHypothesis =>
      obtain ⟨depth, rfl⟩ := Nat.exists_eq_add_of_le' (Nat.le_of_add_left_le deep)
      rw [writeItems] at deep ⊢
      simp only [List.cons_append, List.append_assoc, List.length_cons, List.length_append]
        at deep ⊢
      refine readItems_more
        (readBack item List.mem_cons_self level depth _ endsNumber_comma (by omega))
        (skipBlanks_cons rfl) ?_
      rw [readItems_congr (skipBlanks_lineBreak level _)]
      exact inductionHypothesis
        (fun part member => readBack part (List.mem_cons_of_mem item member)) (by omega)

end Items

section Fields

variable {name : Option String} {fields : List (Option String × Value)} {more : List Char}

theorem readFields_last (read : readValue depth text = some (value, other))
    (closing : skipBlanks other = '\x7d' :: rest) :
    readFields (depth + 1) (writeName name ++ ':' :: text) = some ([(name, value)], rest) := by
  obtain ⟨content, written, nameRead⟩ := exists_writeName_eq name
  rw [written, readFields, List.cons_append, skipBlanks_cons rfl]
  simp [nameRead, skipBlanks_cons, isBlank, read, closing]

theorem readFields_more (read : readValue depth text = some (value, other))
    (comma : skipBlanks other = ',' :: more)
    (later : readFields depth more = some (fields, rest)) :
    readFields (depth + 1) (writeName name ++ ':' :: text) =
      some ((name, value) :: fields, rest) := by
  obtain ⟨content, written, nameRead⟩ := exists_writeName_eq name
  rw [written, readFields, List.cons_append, skipBlanks_cons rfl]
  simp [nameRead, skipBlanks_cons, isBlank, read, comma, later]

/-- Fields are read back up to the end of their object. -/
theorem readFields_write (readBack : ∀ field ∈ (name, value) :: fields, field.2.ReadBack)
    (deep : (value.write level).length + (writeFields level fields).length + 2 ≤ depth) :
    readFields depth (writeName name ++ (':' :: ' ' :: (value.write level ++
      (writeFields level fields ++ (lineBreak outer ++ '\x7d' :: rest))))) =
      some ((name, value) :: fields, rest) := by
  induction fields generalizing name value depth with
  | nil =>
      obtain ⟨depth, rfl⟩ := Nat.exists_eq_add_of_le' (Nat.le_of_add_left_le deep)
      have valueBack : value.ReadBack := readBack (name, value) List.mem_cons_self
      exact readFields_last
        ((readValue_congr rfl).trans (valueBack level depth _ endsNumber_lineBreak (by omega)))
        ((skipBlanks_lineBreak outer _).trans (skipBlanks_cons rfl))
  | cons field later inductionHypothesis =>
      obtain ⟨nextName, next⟩ := field
      obtain ⟨depth, rfl⟩ := Nat.exists_eq_add_of_le' (Nat.le_of_add_left_le deep)
      rw [writeFields] at deep ⊢
      simp only [List.cons_append, List.append_assoc, List.length_cons, List.length_append,
        List.nil_append] at deep ⊢
      have valueBack : value.ReadBack := readBack (name, value) List.mem_cons_self
      refine readFields_more
        ((readValue_congr rfl).trans (valueBack level depth _ endsNumber_comma (by omega)))
        (skipBlanks_cons rfl) ?_
      rw [readFields_congr (skipBlanks_lineBreak level _)]
      exact inductionHypothesis
        (fun part member => readBack part (List.mem_cons_of_mem (name, value) member)) (by omega)

end Fields

/-! ## Values -/

theorem readValue_number {number : Number} (wellFormed : number.WellFormed)
    (ends : EndsNumber rest) :
    readValue (depth + 1) (number.write ++ rest) = some (.number number, rest) := by
  have read := Number.readNumber_write wellFormed ends
  obtain ⟨letter, later, written, head⟩ := wellFormed.exists_write_eq_cons
  rw [written, List.cons_append] at read ⊢
  rw [readValue, skipBlanks_cons (isBlank_of_numberHead head)]
  -- All that begins with another letter is no number.
  split <;> rename_i same
  case h_7 => simp [read]
  all_goals
    obtain ⟨rfl, _⟩ := List.cons.inj same
    exact absurd head (by decide)

theorem readValue_array {letter : Char} {items : List Value}
    (inside : skipBlanks text = letter :: other) (goesOn : letter ≠ ']')
    (read : readItems depth (letter :: other) = some (items, rest)) :
    readValue (depth + 1) ('[' :: text) = some (.array items, rest) := by
  rw [readValue, skipBlanks_cons rfl]
  simp [inside, goesOn, read]

theorem readValue_object {fields : List (Option String × Value)}
    (inside : skipBlanks text = '"' :: other)
    (read : readFields depth ('"' :: other) = some (fields, rest)) :
    readValue (depth + 1) ('\x7b' :: text) = some (.object fields, rest) := by
  rw [readValue, skipBlanks_cons rfl]
  simp [inside, read]

theorem Value.WellFormed.readBack (wellFormed : value.WellFormed) : value.ReadBack := by
  induction wellFormed <;> intro level depth rest ends deep
  case null => rfl
  case bool flag => cases flag <;> rfl
  case number wellFormed => exact readValue_number wellFormed ends
  case string content =>
      obtain ⟨text, written, read⟩ := exists_writeName_eq (some content)
      show readValue (depth + 1) (writeName (some content) ++ rest) = _
      rw [written, List.cons_append, readValue, skipBlanks_cons rfl]
      simp [read]
  case brokenString => rfl
  case array items all inductionHypothesis =>
      cases items with
      | nil => rfl
      | cons first later =>
          obtain ⟨letter, text, written, solid, goesOn⟩ :=
            (all first List.mem_cons_self).exists_write_eq_cons (level + 1)
          rw [write] at deep ⊢
          simp only [List.cons_append, List.append_assoc, List.length_cons, List.length_append,
            List.nil_append, length_lineBreak] at deep ⊢
          have read := @readItems_write (level + 1) level depth rest first later
            inductionHypothesis (by omega)
          rw [written, List.cons_append] at read ⊢
          exact readValue_array
            ((skipBlanks_lineBreak _ _).trans (skipBlanks_cons solid)) goesOn read
  case object fields all inductionHypothesis =>
      cases fields with
      | nil => rfl
      | cons first later =>
          obtain ⟨name, value⟩ := first
          obtain ⟨text, written, _⟩ := exists_writeName_eq name
          rw [write] at deep ⊢
          simp only [List.cons_append, List.append_assoc, List.length_cons, List.length_append,
            List.nil_append, length_lineBreak] at deep ⊢
          have read := @readFields_write value (level + 1) level depth rest name later
            inductionHypothesis (by omega)
          rw [written, List.cons_append] at read ⊢
          exact readValue_object ((skipBlanks_lineBreak _ _).trans (skipBlanks_cons rfl)) read

/-- The pretty text of a value is read as the value. -/
theorem read?_pretty (wellFormed : value.WellFormed) :
    read? value.pretty.toList = some value := by
  have read := wellFormed.readBack 0 (2 * (value.write 0).length + 1) [] nofun (by omega)
  rw [List.append_nil] at read
  rw [read?, Value.pretty, String.toList_ofList, read]
  rfl

end CallProfiler.Json
