import CallProfiler.Json.Value

/-!
# Reading JSON

A text is one value with blanks around it, and nothing else. Escapes of surrogate pairs are
joined; a control inside a string, a leading zero and a trailing comma are refused.
-/

namespace CallProfiler.Json

/-- Blanks between the parts of a text. -/
def isBlank (letter : Char) : Bool :=
  letter == ' ' || letter == '\n' || letter == '\t' || letter == '\r'

/-- The text after its leading blanks. -/
def skipBlanks (text : List Char) : List Char := text.dropWhile isBlank

/-- A part of a string: a character, or a code unit that an escape names. -/
inductive Piece where
  | letter (letter : Char)
  | code (unit : Nat)
deriving DecidableEq, Repr

/-- The characters of a string, if every code unit has its place. -/
def joinPieces : List Piece → Option (List Char)
  | [] => some []
  | .letter letter :: rest => (joinPieces rest).map (letter :: ·)
  | .code high :: .code low :: rest =>
    if 0xD800 ≤ high ∧ high < 0xDC00 then
      if 0xDC00 ≤ low ∧ low < 0xE000 then
        (joinPieces rest).map
          (Char.ofNat (0x10000 + (high - 0xD800) * 0x400 + (low - 0xDC00)) :: ·)
      else none
    else if 0xDC00 ≤ high ∧ high < 0xE000 then none
    else (joinPieces (.code low :: rest)).map (Char.ofNat high :: ·)
  | .code unit :: rest =>
    if 0xD800 ≤ unit ∧ unit < 0xE000 then none
    else (joinPieces rest).map (Char.ofNat unit :: ·)

/-- The character of an escape that is a single letter. -/
def escapeOf? : Char → Option Char
  | '"' => some '"'
  | '\\' => some '\\'
  | '/' => some '/'
  | 'b' => some '\x08'
  | 'f' => some '\x0c'
  | 'n' => some '\n'
  | 'r' => some '\r'
  | 't' => some '\t'
  | _ => none

/-- The code unit of four hexadecimal digits. -/
def codeUnit? (digits : List Char) : Option Nat :=
  digits.foldlM (fun unit digit => (Text.digitValue? 16 digit).map (unit * 16 + ·)) 0

/-- The pieces of a string up to its closing quote, and the text after it. -/
def readPieces : List Char → Option (List Piece × List Char)
  | [] => none
  | '"' :: rest => some ([], rest)
  | '\\' :: 'u' :: a :: b :: c :: d :: rest => do
    let unit ← codeUnit? [a, b, c, d]
    let (pieces, after) ← readPieces rest
    return (.code unit :: pieces, after)
  | '\\' :: letter :: rest => do
    let character ← escapeOf? letter
    let (pieces, after) ← readPieces rest
    return (.letter character :: pieces, after)
  | letter :: rest =>
    if letter = '\\' ∨ letter.toNat < 0x20 then none
    else do
      let (pieces, after) ← readPieces rest
      return (.letter letter :: pieces, after)

/-- The content of a string after its opening quote. -/
def readContent (text : List Char) : Option (Option String × List Char) := do
  let (pieces, after) ← readPieces text
  return ((joinPieces pieces).map String.ofList, after)

/-- The digits at the head of a text, of which there has to be one. -/
def readDigits (text : List Char) : Option (List Char × List Char) :=
  let digits := text.takeWhile Char.isDigit
  if digits.isEmpty then none else some (digits, text.dropWhile Char.isDigit)

/-- The fraction at the head of a text, if there is a point. -/
def readFraction : List Char → Option (Option (List Char) × List Char)
  | '.' :: rest => (readDigits rest).map fun (digits, after) => (some digits, after)
  | text => some (none, text)

/-- The exponent after its letter. -/
def readExponentDigits (negative : Bool) (text : List Char) :
    Option (Option Int × List Char) :=
  (readDigits text).map fun (digits, after) =>
    let size : Int := Nat.ofDigitChars 10 digits 0
    (some (if negative then -size else size), after)

/-- The exponent at the head of a text, if there is one. -/
def readExponent : List Char → Option (Option Int × List Char)
  | letter :: rest =>
    if letter = 'e' ∨ letter = 'E' then
      match rest with
      | '+' :: digits => readExponentDigits false digits
      | '-' :: digits => readExponentDigits true digits
      | digits => readExponentDigits false digits
    else some (none, letter :: rest)
  | [] => some (none, [])

/-- The number at the head of a text. -/
def readNumber (text : List Char) : Option (Number × List Char) := do
  let (negative, text) := match text with
    | '-' :: rest => (true, rest)
    | text => (false, text)
  let (whole, text) ← readDigits text
  if whole.head? = some '0' ∧ whole.length > 1 then none
  let (fraction, text) ← readFraction text
  let (exponent, text) ← readExponent text
  return (⟨negative, whole, fraction, exponent⟩, text)

mutual

/-- The value at the head of a text; the depth bounds the work. -/
def readValue (depth : Nat) (text : List Char) : Option (Value × List Char) :=
  match depth with
  | 0 => none
  | depth + 1 =>
    match skipBlanks text with
    | 'n' :: 'u' :: 'l' :: 'l' :: rest => some (.null, rest)
    | 't' :: 'r' :: 'u' :: 'e' :: rest => some (.bool true, rest)
    | 'f' :: 'a' :: 'l' :: 's' :: 'e' :: rest => some (.bool false, rest)
    | '"' :: rest => do
      let (content, after) ← readContent rest
      return (content.elim .brokenString .string, after)
    | '[' :: rest =>
      match skipBlanks rest with
      | ']' :: after => some (.array [], after)
      | inside => do
        let (items, after) ← readItems depth inside
        return (.array items, after)
    | '\x7b' :: rest =>
      match skipBlanks rest with
      | '\x7d' :: after => some (.object [], after)
      | inside => do
        let (fields, after) ← readFields depth inside
        return (.object fields, after)
    | text => do
      let (number, after) ← readNumber text
      return (.number number, after)

/-- The items of an array up to its end. -/
def readItems (depth : Nat) (text : List Char) : Option (List Value × List Char) :=
  match depth with
  | 0 => none
  | depth + 1 => do
    let (item, after) ← readValue depth text
    match skipBlanks after with
    | ']' :: after => return ([item], after)
    | ',' :: more => do
      let (items, after) ← readItems depth more
      return (item :: items, after)
    | _ => none

/-- The fields of an object up to its end. -/
def readFields (depth : Nat) (text : List Char) :
    Option (List (Option String × Value) × List Char) :=
  match depth with
  | 0 => none
  | depth + 1 =>
    match skipBlanks text with
    | '"' :: rest => do
      let (name, after) ← readContent rest
      match skipBlanks after with
      | ':' :: rest => do
        let (value, after) ← readValue depth rest
        match skipBlanks after with
        | '\x7d' :: after => return ([(name, value)], after)
        | ',' :: more => do
          let (fields, after) ← readFields depth more
          return ((name, value) :: fields, after)
        | _ => none
      | _ => none
    | _ => none

end

/-- The value of a whole text. -/
def read? (text : List Char) : Option Value := do
  let (value, after) ← readValue (2 * text.length + 2) text
  if (skipBlanks after).isEmpty then some value else none

end CallProfiler.Json
