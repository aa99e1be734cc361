import CallProfiler.Fault

/-!
# Columns

A field of a table is filled with spaces up to its width, counted in characters. A text that
is already as wide as its column is left alone. A width is a number of 16 bits.
-/

namespace CallProfiler.Text

/-- The width that a computation gives to a column, if a column can be that wide. -/
def columnWidth (width : Nat) : Except Fault Nat :=
  if width < Width.bound 16 then .ok width else .error .widthOutOfRange

/-- The text at the right end of a column. -/
def flushRight (width : Nat) (text : List Char) : List Char :=
  List.replicate (width - text.length) ' ' ++ text

/-- The text at the left end of a column. -/
def flushLeft (width : Nat) (text : List Char) : List Char :=
  text ++ List.replicate (width - text.length) ' '

end CallProfiler.Text
