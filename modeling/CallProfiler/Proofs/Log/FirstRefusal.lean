import CallProfiler.Proofs.Log.Acceptance

/-!
# The first wrong line

A decoder reads line after line: what it makes of some lines does not depend on those after them,
nor on the names that it met in other logs. So a refusal is that of the first wrong line.
`decode_stops_at_first` says so of every input: any other input that begins with the same lines is
refused in the same way, the lines before are accepted, and properties are missed only where every
line is allowed.
-/

namespace CallProfiler.Log

namespace Decoder

variable {decoder other : Decoder} {reader middle : Reader} {number : Nat} {input first : List Line}

/-! ## Lines after lines -/

/-- Reading goes on after lines that were all accepted. -/
theorem readLines_append (read : (decoder.readLines reader number first).2 = .ok middle)
    (rest : List Line) :
    decoder.readLines reader number (first ++ rest) =
      (decoder.readLines reader number first).1.readLines middle (number + first.length) rest := by
  induction first generalizing decoder reader number with
  | nil =>
      cases read
      rfl
  | cons line others inductionHypothesis =>
      rw [readLines] at read
      rw [List.cons_append, readLines, readLines]
      cases outcome : (reader.readLine line).outcome with
      | error problem =>
          simp only [outcome] at read
          cases read
      | ok next =>
          simp only [outcome] at read
          have count : number + 1 + others.length = number + (line :: others).length := by
            rw [List.length_cons]
            omega
          simp only
          rw [inductionHypothesis read, count]

/-- What is read does not depend on the names met before. -/
theorem readLines_snd (decoder other : Decoder) (reader : Reader) (number : Nat)
    (input : List Line) :
    (decoder.readLines reader number input).2 = (other.readLines reader number input).2 := by
  induction input generalizing decoder other reader number with
  | nil => rfl
  | cons line rest inductionHypothesis =>
      rw [readLines, readLines]
      cases (reader.readLine line).outcome with
      | error problem => rfl
      | ok next => exact inductionHypothesis _ _ _ _

/-- A log is decoded alike whatever was decoded before it. -/
theorem decode_snd (decoder : Decoder) (input : List Line) :
    (decoder.decode input).2 = Log.decode input := by
  show (decoder.readLines .start 1 input).2.bind Reader.toLog = _
  rw [readLines_snd decoder .fresh]
  rfl

/-! ## Wrong lines -/

/-- Reading stops at a line if all lines before it are accepted and it is wrong. -/
theorem readLines_eq_error_iff {error : DecodeError} :
    (decoder.readLines reader number input).2 = .error error ↔
      ∃ before line after middle problem, input = before ++ line :: after ∧
        (decoder.readLines reader number before).2 = .ok middle ∧
        (middle.readLine line).outcome = .error problem ∧
        error = .badLine (number + before.length) problem := by
  constructor
  · intro stopped
    induction input generalizing decoder reader number with
    | nil => cases stopped
    | cons line rest inductionHypothesis =>
        rw [readLines] at stopped
        cases outcome : (reader.readLine line).outcome with
        | error problem =>
            simp only [outcome] at stopped
            cases stopped
            exact ⟨[], line, rest, reader, problem, rfl, rfl, outcome, rfl⟩
        | ok next =>
            simp only [outcome] at stopped
            obtain ⟨before, wrong, after, middle, problem, rfl, read, refused, rfl⟩ :=
              inductionHypothesis stopped
            refine ⟨line :: before, wrong, after, middle, problem, rfl, ?_, refused, ?_⟩
            · rw [readLines]
              simp only [outcome]
              exact read
            · rw [List.length_cons, Nat.add_assoc, Nat.add_comm 1]
  · rintro ⟨before, line, after, middle, problem, rfl, read, refused, rfl⟩
    rw [readLines_append read, readLines]
    simp only [refused]

/-- Whatever the names met before, a log is refused at a line if the lines before it are accepted
and it is wrong after them. -/
theorem decode_eq_badLine_iff {problem : LineProblem} :
    (decoder.decode input).2 = .error (.badLine number problem) ↔
      ∃ before line after middle, input = before ++ line :: after ∧ number = before.length + 1 ∧
        (decoder.readLines .start 1 before).2 = .ok middle ∧
        (middle.readLine line).outcome = .error problem := by
  constructor
  · intro refused
    cases read : (decoder.readLines .start 1 input).2 with
    | ok reader =>
        rw [decode_of_readLines_ok read] at refused
        cases Reader.toLog_eq_error refused
    | error error =>
        rw [decode_of_readLines_error read] at refused
        cases refused
        obtain ⟨before, line, after, middle, problem, rfl, accepted, wrong, same⟩ :=
          readLines_eq_error_iff.1 read
        cases same
        exact ⟨before, line, after, middle, rfl, Nat.add_comm _ _, accepted, wrong⟩
  · rintro ⟨before, line, after, middle, rfl, rfl, accepted, wrong⟩
    exact decode_of_readLines_error (readLines_eq_error_iff.2
      ⟨before, line, after, middle, problem, rfl, accepted, wrong, by rw [Nat.add_comm]⟩)

/-- Lines that are all accepted make a log, but for missing properties. -/
theorem decode_of_accepted (read : (decoder.readLines .start 1 input).2 = .ok reader) :
    (∃ log, (decoder.decode input).2 = .ok log) ∨
      (decoder.decode input).2 = .error .missingHeader := by
  rw [decode_of_readLines_ok read]
  cases made : reader.toLog with
  | ok log => exact .inl ⟨log, rfl⟩
  | error error => exact .inr (by rw [Reader.toLog_eq_error made])

/-- The lines that a decoder accepts are those that are allowed. -/
theorem exists_follows_iff (decoder : Decoder) (input : List Line) :
    (∃ statements, Follows [] input statements) ↔
      ∃ reader, (decoder.readLines .start 1 input).2 = .ok reader := by
  rw [← Reader.ofStatements_nil]
  constructor
  · rintro ⟨statements, follows⟩
    obtain ⟨all, _, read⟩ := readLines_of_follows follows .nothing decoder 1
    exact ⟨_, read⟩
  · rintro ⟨reader, read⟩
    rcases readLines_cases .nothing decoder 1 input with
      ⟨statements, _, follows, _, _⟩ | ⟨_, _, _, _, _, _, _, _, refused⟩
    · exact ⟨statements, follows⟩
    · cases read.symm.trans refused

end Decoder

/-- The line of a number, counted from one, is not allowed, and all lines before it are. -/
structure FirstWrong (input : List Line) (number : Nat) : Prop where
  positive : 1 ≤ number
  within : number ≤ input.length
  before : ∃ statements, Follows [] (input.take (number - 1)) statements
  wrong : ¬ ∃ statements, Follows [] (input.take number) statements

/-- Decoding stops at the first line that is not allowed, if there is one: every input that begins
with the lines up to it is refused with the same error, by whatever decoder, and the lines before it
are a log or miss no more than the properties. That properties are missed is said only of inputs
whose lines are all allowed. -/
theorem Decoder.decode_stops_at_first (decoder : Decoder) (input : List Line) :
    (∀ number problem, (decoder.decode input).2 = .error (.badLine number problem) →
      FirstWrong input number ∧
      (∀ (other : Decoder) (alike : List Line), alike.take number = input.take number →
        (other.decode alike).2 = .error (.badLine number problem)) ∧
      ((∃ log, (decoder.decode (input.take (number - 1))).2 = .ok log) ∨
        (decoder.decode (input.take (number - 1))).2 = .error .missingHeader)) ∧
    ((decoder.decode input).2 = .error .missingHeader →
      ∃ statements, Follows [] input statements) := by
  constructor
  · intro number problem refused
    obtain ⟨before, line, after, middle, rfl, rfl, accepted, wrong⟩ :=
      decode_eq_badLine_iff.1 refused
    have earlier : (before ++ line :: after).take (before.length + 1 - 1) = before :=
      List.take_left' rfl
    have upTo : (before ++ line :: after).take (before.length + 1) = before ++ [line] :=
      List.take_length_add_append 1
    rw [earlier, upTo]
    refine ⟨⟨by omega, by simp, ?_, ?_⟩, fun other alike same => ?_, decode_of_accepted accepted⟩
    · rw [earlier]
      exact (exists_follows_iff decoder before).2 ⟨middle, accepted⟩
    · rw [upTo, exists_follows_iff decoder]
      rintro ⟨reader, read⟩
      cases read.symm.trans
        (readLines_eq_error_iff.2 ⟨before, line, [], middle, problem, rfl, accepted, wrong, rfl⟩)
    · refine decode_eq_badLine_iff.2
        ⟨before, line, alike.drop (before.length + 1), middle, ?_, rfl, ?_, wrong⟩
      · conv_lhs => rw [← List.take_append_drop (before.length + 1) alike, same]
        rw [List.append_assoc, List.singleton_append]
      · rw [readLines_snd other decoder]
        exact accepted
  · intro missing
    rw [exists_follows_iff decoder]
    cases read : (decoder.readLines .start 1 input).2 with
    | ok reader => exact ⟨reader, rfl⟩
    | error error =>
        obtain ⟨_, _, _, _, _, _, _, _, rfl⟩ := readLines_eq_error_iff.1 read
        rw [decode_of_readLines_error read] at missing
        cases missing

end CallProfiler.Log
