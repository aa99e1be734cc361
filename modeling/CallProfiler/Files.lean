import CallProfiler.Log.Decoder

/-!
# Files

What the library needs of a file system: reading and writing whole files, and making
directories. `FileAccess` is the interface and `SystemError` holds the verdicts of the system.
-/

namespace CallProfiler

/-- Why a file system refuses an operation. -/
inductive SystemError where
  | notFound
  | fileExists
  | notADirectory
  | isADirectory
  | nameTooLong
  /-- A path with a null character in it. -/
  | nullInPath
  /-- A refusal of another kind, in the words of the system. -/
  | other (message : String)
deriving DecidableEq, Repr

/-- The wording of a refusal. -/
def SystemError.message : SystemError → String
  | .notFound => "No such file or directory (os error 2)"
  | .fileExists => "File exists (os error 17)"
  | .notADirectory => "Not a directory (os error 20)"
  | .isADirectory => "Is a directory (os error 21)"
  | .nameTooLong => "File name too long (os error 36)"
  | .nullInPath => "file name contained an unexpected NUL byte"
  | .other message => message

/-- What a file holds: a text that was written as such, or bytes from elsewhere. -/
inductive FileContent where
  | text (text : List Char)
  | bytes (bytes : List UInt8)
deriving DecidableEq, Repr

namespace FileContent

/-- The lines of a file. -/
def lines : FileContent → List Log.Line
  | .text letters => Log.linesOfText letters
  | .bytes raw => Log.linesOfBytes raw

/-- The text of a file, if it is one. -/
def toText? : FileContent → Option (List Char)
  | .text letters => some letters
  | .bytes raw => (String.fromUTF8? raw.toByteArray).map (·.toList)

end FileContent

/-- The operations on files, as steps of a monad. -/
structure FileAccess (m : Type → Type) where
  isFile : String → m Bool
  isDirectory : String → m Bool
  read : String → m (Except SystemError FileContent)
  write : String → List Char → m (Except SystemError Unit)
  /-- Make a directory and those above it that are missing. -/
  makeDirectories : String → m (Except SystemError Unit)

end CallProfiler
