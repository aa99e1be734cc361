import CallProfiler.Json.Reader
import CallProfiler.Json.Writer
import Mathlib.Tactic.SplitIfs

/-!
# Strings read back

A string is written character by character, and each character is read as one piece: a letter, or
the code unit of a control that has no letter of its own. Pieces of such units join to the
characters that were written (`readContent_flatMap_escaped`).
-/

namespace CallProfiler.Json

variable {letter : Char} {unit : Nat}

/-- A code unit that is no half of a pair is a character by itself. -/
theorem joinPieces_code (single : unit < 0xD800) (pieces : List Piece) :
    joinPieces (.code unit :: pieces) = (joinPieces pieces).map (Char.ofNat unit :: ·) := by
  have notHigh : ¬ (0xD800 ≤ unit ∧ unit < 0xDC00) := by omega
  have notLow : ¬ (0xDC00 ≤ unit ∧ unit < 0xE000) := by omega
  have neither : ¬ (0xD800 ≤ unit ∧ unit < 0xE000) := by omega
  rcases pieces with _ | ⟨_ | low, rest⟩
  · exact if_neg neither
  · exact if_neg neither
  · exact (if_neg notHigh).trans (if_neg notLow)

theorem codeUnit?_control (small : unit < 0x20) :
    codeUnit? ['0', '0', Nat.digitChar (unit / 16), Nat.digitChar (unit % 16)] = some unit := by
  have all : ∀ unit < 0x20,
      codeUnit? ['0', '0', Nat.digitChar (unit / 16), Nat.digitChar (unit % 16)] = some unit := by
    decide
  exact all unit small

/-- An escape that is a single letter is read as the character that it stands for. -/
theorem readPieces_escape {mark : Char} (known : escapeOf? mark = some letter) (rest : List Char) :
    readPieces ('\\' :: mark :: rest) =
      (readPieces rest).map fun (pieces, after) => (.letter letter :: pieces, after) := by
  rw [readPieces, known]
  · cases readPieces rest <;> rfl
  · rintro _ _ _ _ _ rfl
    cases known

/-- A character between quotes is read as one piece, which stands for it. -/
theorem exists_readPieces_escaped (letter : Char) : ∃ piece,
    (∀ rest, readPieces (escaped letter ++ rest) =
      (readPieces rest).map fun (pieces, after) => (piece :: pieces, after)) ∧
    ∀ pieces, joinPieces (piece :: pieces) = (joinPieces pieces).map (letter :: ·) := by
  rw [escaped]
  split_ifs with quote backslash backspace formFeed newline carriageReturn tab control
  · exact ⟨.letter letter, readPieces_escape (by rw [quote]; rfl), fun pieces => rfl⟩
  · exact ⟨.letter letter, readPieces_escape (by rw [backslash]; rfl), fun pieces => rfl⟩
  · exact ⟨.letter letter, readPieces_escape (by rw [backspace]; rfl), fun pieces => rfl⟩
  · exact ⟨.letter letter, readPieces_escape (by rw [formFeed]; rfl), fun pieces => rfl⟩
  · exact ⟨.letter letter, readPieces_escape (by rw [newline]; rfl), fun pieces => rfl⟩
  · exact ⟨.letter letter, readPieces_escape (by rw [carriageReturn]; rfl), fun pieces => rfl⟩
  · exact ⟨.letter letter, readPieces_escape (by rw [tab]; rfl), fun pieces => rfl⟩
  · refine ⟨.code letter.toNat, fun rest => ?_, fun pieces => ?_⟩
    · show readPieces ('\\' :: 'u' :: '0' :: '0' :: _ :: _ :: rest) = _
      rw [readPieces, codeUnit?_control control]
      cases readPieces rest <;> rfl
    · rw [joinPieces_code (Nat.lt_trans control (by decide)), Char.ofNat_toNat]
  · refine ⟨.letter letter, fun rest => ?_, fun pieces => rfl⟩
    have plain : ¬ (letter = '\\' ∨ letter.toNat < 0x20) := not_or.2 ⟨backslash, control⟩
    rw [List.singleton_append, readPieces, if_neg plain]
    · cases readPieces rest <;> rfl
    · exact quote
    · exact fun _ _ _ _ _ same => absurd same backslash
    · exact fun _ _ same => absurd same backslash

theorem exists_readPieces_flatMap_escaped (content rest : List Char) : ∃ pieces,
    readPieces (content.flatMap escaped ++ '"' :: rest) = some (pieces, rest) ∧
      joinPieces pieces = some content := by
  induction content with
  | nil => exact ⟨[], rfl, rfl⟩
  | cons letter later inductionHypothesis =>
      obtain ⟨pieces, read, joined⟩ := inductionHypothesis
      obtain ⟨piece, first, join⟩ := exists_readPieces_escaped letter
      refine ⟨piece :: pieces, ?_, ?_⟩
      · rw [List.flatMap_cons, List.append_assoc, first, read]
        rfl
      · rw [join, joined]
        rfl

/-- A name is written between quotes, and what follows the first quote is read back as the name. -/
theorem exists_writeName_eq (name : Option String) : ∃ text,
    writeName name = '"' :: text ∧ ∀ rest, readContent (text ++ rest) = some (name, rest) := by
  cases name with
  | none => exact ⟨_, rfl, fun rest => rfl⟩
  | some name =>
      refine ⟨_, rfl, fun rest => ?_⟩
      obtain ⟨pieces, read, joined⟩ := exists_readPieces_flatMap_escaped name.toList rest
      have closed : name.toList.flatMap escaped ++ ['"'] ++ rest =
          name.toList.flatMap escaped ++ '"' :: rest := List.append_assoc ..
      show readContent (name.toList.flatMap escaped ++ ['"'] ++ rest) = _
      rw [closed, readContent, read]
      simp [joined]

end CallProfiler.Json
