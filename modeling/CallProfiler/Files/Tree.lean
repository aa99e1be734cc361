import CallProfiler.Files.Path

/-!
# File trees

A file system that is a value. It gives the verdicts of a real one on paths that lead nowhere,
through files, or to directories. A directory is a number, so that the table of all names stays
flat and a step of a path is one look into it.
-/

namespace CallProfiler

/-- What a name in a directory stands for. -/
inductive FileNode where
  | directory (number : Nat)
  | file (content : FileContent)
deriving DecidableEq, Repr

/-- Files and directories. Directories are numbered as they are made, the top being 0. -/
structure FileTree where
  /-- What names stand for, by the directory that they are in. -/
  nodes : List ((Nat × String) × FileNode)
  /-- The directories there are. -/
  directories : Nat

/-- The directories from a place up to the top, which is not listed. -/
abbrev Route := List Nat

/-- The directory that a route belongs to. -/
def Route.here (route : Route) : Nat := route.headD 0

/-- Where a path leads. -/
inductive Place where
  | directory (route : Route)
  | file (directory : Nat) (name : String) (content : FileContent)
  /-- A name that stands for nothing in its directory. -/
  | free (directory : Nat) (name : String)

namespace FileTree

/-- A file system with nothing but its top. -/
def empty : FileTree := ⟨[], 1⟩

/-- What a name in a directory stands for. -/
def node? (tree : FileTree) (directory : Nat) (name : String) : Option FileNode :=
  tree.nodes.lookup (directory, name)

/-- Put a file under a name, instead of anything there. -/
def putFile (tree : FileTree) (directory : Nat) (name : String) (content : FileContent) :
    FileTree :=
  { tree with
    nodes := ((directory, name), .file content) ::
      tree.nodes.filter fun entry => entry.1 != (directory, name) }

/-- Make a directory under a name that is free. -/
def addDirectory (tree : FileTree) (directory : Nat) (name : String) : FileTree where
  nodes := ((directory, name), .directory tree.directories) :: tree.nodes
  directories := tree.directories + 1

@[simp] theorem node?_putFile_self (tree : FileTree) (directory : Nat) (name : String)
    (content : FileContent) :
    (tree.putFile directory name content).node? directory name = some (.file content) := by
  simp [node?, putFile]

/-- A file that is put somewhere leaves all other names alone. -/
theorem node?_putFile_of_ne {tree : FileTree} {directory other : Nat} {name otherName : String}
    (content : FileContent) (different : (other, otherName) ≠ (directory, name)) :
    (tree.putFile directory name content).node? other otherName =
      tree.node? other otherName := by
  have skipped : ((other, otherName) == (directory, name)) = false := by simpa using different
  simp only [node?, putFile, List.lookup_cons, skipped]
  induction tree.nodes with
  | nil => rfl
  | cons entry rest inductionHypothesis =>
      obtain ⟨key, node⟩ := entry
      by_cases same : key = (directory, name)
      · subst same
        simp only [List.lookup_cons, skipped]
        simpa using inductionHypothesis
      · have kept : (key != (directory, name)) = true := by simpa using same
        simp only [List.filter_cons, kept, if_true, List.lookup_cons, inductionHypothesis]

/-- Where one name leads from a directory. -/
def step (tree : FileTree) (route : Route) (name : String) : Except SystemError Place :=
  if name = "." then .ok (.directory route)
  else if name = ".." then .ok (.directory route.tail)
  else if 255 < name.utf8ByteSize then .error .nameTooLong
  else match tree.node? route.here name with
    | some (.directory number) => .ok (.directory (number :: route))
    | some (.file content) => .ok (.file route.here name content)
    | none => .ok (.free route.here name)

/-- The directory that names lead to, one after the other. -/
def walk (tree : FileTree) (route : Route) : List String → Except SystemError Route
  | [] => .ok route
  | name :: rest => do
    match ← tree.step route name with
    | .directory route => walk tree route rest
    | .file .. => .error .notADirectory
    | .free .. => .error .notFound

/-- Where a path leads. -/
def find (tree : FileTree) (path : String) : Except SystemError Place := do
  FilePath.check path
  let names := FilePath.components path
  let names := if FilePath.endsInSlash path then names ++ ["."] else names
  tree.step (← tree.walk [] names.dropLast) (names.getLastD ".")

def isFile (tree : FileTree) (path : String) : Bool :=
  match tree.find path with
  | .ok (.file ..) => true
  | _ => false

def isDirectory (tree : FileTree) (path : String) : Bool :=
  match tree.find path with
  | .ok (.directory _) => true
  | _ => false

/-- The content of a file. -/
def read (tree : FileTree) (path : String) : Except SystemError FileContent := do
  match ← tree.find path with
  | .file _ _ content => .ok content
  | .directory _ => .error .isADirectory
  | .free .. => .error .notFound

/-- The tree with a text as the content of a file. -/
def write (tree : FileTree) (path : String) (text : List Char) :
    Except SystemError FileTree := do
  FilePath.check path
  let names := FilePath.components path
  let route ← tree.walk [] names.dropLast
  if FilePath.endsInSlash path then .error .isADirectory
  else match ← tree.step route (names.getLastD ".") with
    | .directory _ => .error .isADirectory
    | .file directory name _ => .ok (tree.putFile directory name (.text text))
    | .free directory name => .ok (tree.putFile directory name (.text text))

/-- The tree with directories at all places that names lead to from one directory. A file that
is met only after a directory was made is in the way of another one; a file met before that
makes the whole path lead nowhere. -/
def makeAlong (tree : FileTree) (made : Bool) (route : Route) :
    List String → Except SystemError FileTree
  | [] => .ok tree
  | name :: rest => do
    match ← tree.step route name with
    | .directory route => makeAlong tree made route rest
    | .file .. => .error (if made || rest.isEmpty then .fileExists else .notADirectory)
    | .free directory name =>
      makeAlong (tree.addDirectory directory name) true (tree.directories :: route) rest

/-- The tree with a directory at the end of a path, and those above it. -/
def makeDirectories (tree : FileTree) (path : String) : Except SystemError FileTree :=
  if path.isEmpty then .ok tree
  else do
    FilePath.check path
    tree.makeAlong false [] (FilePath.components path)

/-- Keep the changed tree of an operation that succeeds. -/
def commit (operation : FileTree → Except SystemError FileTree) :
    StateM FileTree (Except SystemError Unit) := fun tree =>
  match operation tree with
  | .ok changed => (.ok (), changed)
  | .error refusal => (.error refusal, tree)

/-- The operations on files, as steps on a tree. -/
def access : FileAccess (StateM FileTree) where
  isFile path := return (← get).isFile path
  isDirectory path := return (← get).isDirectory path
  read path := return (← get).read path
  write path text := commit fun tree => tree.write path text
  makeDirectories path := commit fun tree => tree.makeDirectories path

end FileTree

end CallProfiler
