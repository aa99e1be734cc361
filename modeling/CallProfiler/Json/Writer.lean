import CallProfiler.Json.Value

/-!
# Writing JSON

The pretty form: one item or field to a line, two spaces of indentation for each level, and no
line breaks in an empty array or object. Strings escape the quote, the backslash and the
controls, and nothing else.
-/

namespace CallProfiler.Json

/-- One character of a string. -/
def escaped (letter : Char) : List Char :=
  if letter = '"' then ['\\', '"']
  else if letter = '\\' then ['\\', '\\']
  else if letter = '\x08' then ['\\', 'b']
  else if letter = '\x0c' then ['\\', 'f']
  else if letter = '\n' then ['\\', 'n']
  else if letter = '\r' then ['\\', 'r']
  else if letter = '\t' then ['\\', 't']
  else if letter.toNat < 0x20 then
    ['\\', 'u', '0', '0', Nat.digitChar (letter.toNat / 16), Nat.digitChar (letter.toNat % 16)]
  else [letter]

/-- The text of a string. -/
def writeString (content : String) : List Char :=
  '"' :: content.toList.flatMap escaped ++ ['"']

/-- The text of a string that may be broken; half a pair stands for a broken one. -/
def writeName : Option String → List Char
  | some name => writeString name
  | none => ['"', '\\', 'u', 'd', '8', '0', '0', '"']

/-- The text of a number. -/
def Number.write (number : Number) : List Char :=
  let sign := if number.negative then ['-'] else []
  let fraction := match number.fraction with
    | some digits => '.' :: digits
    | none => []
  let exponent := match number.exponent with
    | some exponent =>
      'e' :: (if exponent < 0 then '-' else '+') :: Text.decimal exponent.natAbs
    | none => []
  sign ++ number.whole ++ fraction ++ exponent

/-- A line break and the indentation of a level. -/
def lineBreak (level : Nat) : List Char := '\n' :: List.replicate (2 * level) ' '

mutual

/-- The text of a value whose own line is indented by `level`. -/
def Value.write (level : Nat) : Value → List Char
  | .null => ['n', 'u', 'l', 'l']
  | .bool true => ['t', 'r', 'u', 'e']
  | .bool false => ['f', 'a', 'l', 's', 'e']
  | .number literal => literal.write
  | .string content => writeString content
  | .brokenString => writeName none
  | .array [] => ['[', ']']
  | .array (first :: rest) =>
    '[' :: lineBreak (level + 1) ++ first.write (level + 1) ++
      writeItems (level + 1) rest ++ lineBreak level ++ [']']
  | .object [] => ['\x7b', '\x7d']
  | .object ((name, value) :: rest) =>
    '\x7b' :: lineBreak (level + 1) ++ writeName name ++ [':', ' '] ++
      value.write (level + 1) ++ writeFields (level + 1) rest ++ lineBreak level ++ ['\x7d']

/-- The items after the first. -/
def writeItems (level : Nat) : List Value → List Char
  | [] => []
  | item :: rest => ',' :: lineBreak level ++ item.write level ++ writeItems level rest

/-- The fields after the first. -/
def writeFields (level : Nat) : List (Option String × Value) → List Char
  | [] => []
  | (name, value) :: rest =>
    ',' :: lineBreak level ++ writeName name ++ [':', ' '] ++ value.write level ++
      writeFields level rest

end

/-- The pretty text of a value. -/
def Value.pretty (value : Value) : String := String.ofList (value.write 0)

end CallProfiler.Json
