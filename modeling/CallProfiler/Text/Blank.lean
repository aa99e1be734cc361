/-!
# Blanks, words and lines

A word is a longest run of characters that are not blank. Blank means the White_Space
property of Unicode, so a no-break space parts words just as a space does.
-/

namespace CallProfiler.Text

/-- The White_Space property: the only characters that part words. -/
def isBlank (letter : Char) : Bool :=
  let code := letter.toNat
  (0x09 ≤ code && code ≤ 0x0D) || code == 0x20 || code == 0x85 || code == 0xA0 ||
    code == 0x1680 || (0x2000 ≤ code && code ≤ 0x200A) || code == 0x2028 ||
    code == 0x2029 || code == 0x202F || code == 0x205F || code == 0x3000

/-- The words of a text, in order. -/
def words (text : List Char) : List (List Char) :=
  (text.splitOnP isBlank).filter fun word => !word.isEmpty

/-- The lines of a text, without their line feeds. The last one may be empty. -/
def lines (text : List Char) : List (List Char) :=
  text.splitOnP fun letter => letter == '\n'

/-- The blanks taken off both ends. -/
def trim (text : List Char) : List Char :=
  ((text.dropWhile isBlank).reverse.dropWhile isBlank).reverse

/-- Whether a text has characters and none of them is blank. -/
def isWord (text : List Char) : Bool :=
  !text.isEmpty && text.all fun letter => !isBlank letter

end CallProfiler.Text
