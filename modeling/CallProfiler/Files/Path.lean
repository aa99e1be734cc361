import CallProfiler.Files

/-!
# Paths

A path is names with slashes between them. It may neither hold a null character nor take more
bytes than a limit.
-/

namespace CallProfiler

namespace FilePath

/-- The bytes at which a path is too long. -/
def tooManyBytes : Nat := 4096

/-- Refuse what leads nowhere in any file system. -/
def check (path : String) : Except SystemError Unit :=
  if path.toList.contains (Char.ofNat 0) then .error .nullInPath
  else if path.isEmpty then .error .notFound
  else if tooManyBytes ≤ path.utf8ByteSize then .error .nameTooLong
  else .ok ()

/-- The names that a path passes through. -/
def components (path : String) : List String :=
  ((path.toList.splitOnP fun letter => letter == '/').map String.ofList).filter fun name =>
    name != ""

/-- Whether a path ends in a slash, so that it can only lead to a directory. -/
def endsInSlash (path : String) : Bool := path.toList.getLast? == some '/'

/-- A path, given from its end, without what adds nothing there: slashes and the name `.` after
a slash. -/
def trimEnd : List Char → List Char
  | '/' :: rest => trimEnd rest
  | '.' :: '/' :: rest => trimEnd rest
  | reversed => reversed

/-- The path without its last name; none where there is no name to take off. -/
def parent? (path : String) : Option String :=
  let reversed := trimEnd path.toList.reverse
  if reversed.isEmpty then none
  else
    let above := reversed.dropWhile fun letter => letter != '/'
    let kept := trimEnd above
    some (String.ofList (if kept.isEmpty then above.take 1 else kept.reverse))

example : parent? "logs/./run//" = some "logs" := by decide +kernel
example : parent? "/run" = some "/" := by decide +kernel
example : parent? "/." = none := by decide +kernel

end FilePath

end CallProfiler
