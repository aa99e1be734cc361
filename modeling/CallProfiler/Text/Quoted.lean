import CallProfiler.Text.Numeral
import CallProfiler.Text.Printable

/-!
# Quoted text

A text in double quotes, on one line, in which every character can be seen. Quotes and
backslashes are preceded by a backslash, four controls have a letter of their own, and any
other character that would not show is written by its code point in hexadecimal. A single
quote stays as it is.
-/

namespace CallProfiler.Text

/-- One character between quotes. -/
def quotedCharacter (letter : Char) : List Char :=
  if letter = '"' then ['\\', '"']
  else if letter = '\\' then ['\\', '\\']
  else if letter = '\n' then ['\\', 'n']
  else if letter = '\t' then ['\\', 't']
  else if letter = '\r' then ['\\', 'r']
  else if letter = '\x00' then ['\\', '0']
  else if isPrintable letter then [letter]
  else ['\\', 'u', '\x7b'] ++ hexadecimal letter.toNat ++ ['\x7d']

/-- A text between double quotes. -/
def quoted (text : List Char) : String :=
  String.ofList (['"'] ++ text.flatMap quotedCharacter ++ ['"'])

end CallProfiler.Text
