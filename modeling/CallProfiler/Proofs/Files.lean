import CallProfiler.Files.Tree
import CallProfiler.Proofs.Outcome

/-!
# Files in a tree

The spot of a file is the directory and the name that it goes by there. A path can be written
to just if it leads to a spot, and what is written is read back through every path that leads
to the same one. `spot?_putFile` says that no path leads to another spot than before, so files
that lie apart do not disturb each other.
-/

namespace CallProfiler

/-- The spot that a place is, unless it is a directory. -/
def Place.spot? : Place → Option (Nat × String)
  | .directory _ => none
  | .file number name _ => some (number, name)
  | .free number name => some (number, name)

/-- A place without the file that may be there. -/
def Place.vacated : Place → Place
  | .directory route => .directory route
  | .file number name _ => .free number name
  | .free number name => .free number name

theorem map_vacated_eq_directory_iff {place : Except SystemError Place} {route : Route} :
    place.map Place.vacated = .ok (.directory route) ↔ place = .ok (.directory route) := by
  rcases place with refusal | inner | _ | _ <;> simp [Except.map, Place.vacated]

theorem exists_map_vacated_iff {place : Except SystemError Place} {spot : Nat × String} :
    (∃ vacated, place.map Place.vacated = .ok vacated ∧ vacated.spot? = some spot) ↔
      ∃ there, place = .ok there ∧ there.spot? = some spot := by
  rcases place with refusal | inner | _ | _ <;> simp [Except.map, Place.vacated, Place.spot?]

namespace FileTree

/-- The spot that a path leads to, if a file may be there. -/
def spot? (tree : FileTree) (path : String) : Option (Nat × String) :=
  match tree.find path with
  | .ok place => place.spot?
  | .error _ => none

variable {tree after : FileTree} {path : String} {directory : Nat} {name : String}
  {spot : Nat × String}

/-! ## Where paths lead -/

/-- A place is what its directory has under its name. -/
theorem node?_of_step {route : Route} {next : String} {place : Place}
    (stepped : tree.step route next = .ok place) (leads : place.spot? = some (directory, name)) :
    (∃ content, place = .file directory name content ∧
        tree.node? directory name = some (.file content)) ∨
      (place = .free directory name ∧ tree.node? directory name = none) := by
  rw [step] at stepped
  split at stepped
  · cases stepped
    cases leads
  · split at stepped
    · cases stepped
      cases leads
    · split at stepped
      · cases stepped
      · split at stepped <;> rename_i there <;> cases stepped <;> cases leads
        · exact .inl ⟨_, rfl, there⟩
        · exact .inr ⟨rfl, there⟩

/-- Names are walked through directories. -/
theorem walk_cons_eq_ok_iff {route last : Route} {next : String} {rest : List String} :
    tree.walk route (next :: rest) = .ok last ↔
      ∃ inner, tree.step route next = .ok (.directory inner) ∧ tree.walk inner rest = .ok last := by
  rw [walk, bind_eq_ok_iff]
  constructor
  · rintro ⟨place, stepped, walked⟩
    cases place with
    | directory inner => exact ⟨inner, stepped, walked⟩
    | file _ _ _ => cases walked
    | free _ _ => cases walked
  · rintro ⟨inner, stepped, walked⟩
    exact ⟨_, stepped, walked⟩

/-- A path to a file ends in its name, after directories only. -/
theorem spot?_eq_some_iff : tree.spot? path = some spot ↔
    FilePath.check path = .ok () ∧ FilePath.endsInSlash path = false ∧
      ∃ route, tree.walk [] (FilePath.components path).dropLast = .ok route ∧
        ∃ place, tree.step route ((FilePath.components path).getLastD ".") = .ok place ∧
          place.spot? = some spot := by
  have found : tree.spot? path = some spot ↔
      ∃ place, tree.find path = .ok place ∧ place.spot? = some spot := by
    rw [spot?]
    cases tree.find path <;> simp
  rw [found]
  simp only [find, bind_eq_ok_iff]
  cases slash : FilePath.endsInSlash path with
  | false =>
      simp only [Bool.false_eq_true, if_false, true_and]
      constructor
      · rintro ⟨place, ⟨_, valid, route, walked, stepped⟩, leads⟩
        exact ⟨valid, route, walked, place, stepped, leads⟩
      · rintro ⟨valid, route, walked, place, stepped, leads⟩
        exact ⟨place, ⟨(), valid, route, walked, stepped⟩, leads⟩
  | true =>
      -- Such a path goes on to the directory itself.
      simp only [if_true, List.getLastD_concat, Bool.true_eq_false, false_and, and_false, iff_false]
      rintro ⟨place, ⟨_, _, route, _, stepped⟩, leads⟩
      cases stepped
      cases leads

/-! ## Writing and reading -/

/-- A path can be written to just if it leads to a spot, which then holds the text. -/
theorem write_eq_ok_iff {text : List Char} : tree.write path text = .ok after ↔
    ∃ directory name, tree.spot? path = some (directory, name) ∧
      after = tree.putFile directory name (.text text) := by
  simp only [write, bind_eq_ok_iff, spot?_eq_some_iff]
  constructor
  · rintro ⟨_, valid, route, walked, written⟩
    split at written
    · cases written
    · rename_i slash
      obtain ⟨place, stepped, written⟩ := bind_eq_ok_iff.1 written
      cases place with
      | directory inner => cases written
      | file number name content =>
          cases written
          exact ⟨number, name, ⟨valid, eq_false_of_ne_true slash, route, walked, _, stepped, rfl⟩, rfl⟩
      | free number name =>
          cases written
          exact ⟨number, name, ⟨valid, eq_false_of_ne_true slash, route, walked, _, stepped, rfl⟩, rfl⟩
  · rintro ⟨number, name, ⟨valid, slash, route, walked, place, stepped, leads⟩, rfl⟩
    refine ⟨(), valid, route, walked, ?_⟩
    rw [slash, if_neg Bool.false_ne_true]
    refine bind_eq_ok_iff.2 ⟨place, stepped, ?_⟩
    cases place with
    | directory inner => cases leads
    | file _ _ _ => cases leads; rfl
    | free _ _ => cases leads; rfl

/-- Steps on a tree are taken one after the other. -/
theorem run_bind_of_run {α β : Type} {first : StateM FileTree α} {next : α → StateM FileTree β}
    {value : α} (ran : first.run tree = (value, after)) :
    (first >>= next).run tree = (next value).run after := by
  rw [StateT.run_bind, ran]
  rfl

/-- A text can be put at the end of a path. -/
def Writable (tree : FileTree) (path : String) : Prop :=
  ∃ text after, tree.write path text = .ok after

theorem Writable.exists_spot (writable : tree.Writable path) :
    ∃ spot, tree.spot? path = some spot := by
  obtain ⟨text, after, written⟩ := writable
  obtain ⟨directory, name, leads, _⟩ := write_eq_ok_iff.1 written
  exact ⟨_, leads⟩

theorem run_write (leads : tree.spot? path = some (directory, name)) (text : List Char) :
    (access.write path text).run tree = (.ok (), tree.putFile directory name (.text text)) := by
  have written : tree.write path text = .ok (tree.putFile directory name (.text text)) :=
    write_eq_ok_iff.2 ⟨directory, name, leads, rfl⟩
  show commit (fun tree => tree.write path text) tree = _
  rw [commit, written]

/-- Steps that were taken one after the other. -/
theorem exists_run_of_bind {α β : Type} {first : StateM FileTree α} {next : α → StateM FileTree β}
    {result : β} (ran : (first >>= next).run tree = (result, after)) :
    ∃ value middle, first.run tree = (value, middle) ∧ (next value).run middle = (result, after) :=
  ⟨_, _, rfl, ran⟩

theorem write_of_run {text : List Char}
    (ran : (access.write path text).run tree = (.ok (), after)) :
    tree.write path text = .ok after := by
  change commit (fun tree => tree.write path text) tree = _ at ran
  rw [commit] at ran
  split at ran
  · rename_i changed written
    cases ran
    exact written
  · cases ran

theorem run_read : (access.read path).run tree = (tree.read path, tree) := rfl

theorem run_isDirectory : (access.isDirectory path).run tree = (tree.isDirectory path, tree) := rfl

theorem run_isFile : (access.isFile path).run tree = (tree.isFile path, tree) := rfl

/-- No directory is where a path leads to a file. -/
theorem node?_of_spot (leads : tree.spot? path = some (directory, name)) (number : Nat) :
    tree.node? directory name ≠ some (.directory number) := by
  obtain ⟨_, _, _, _, _, stepped, leads⟩ := spot?_eq_some_iff.1 leads
  rcases node?_of_step stepped leads with ⟨content, _, there⟩ | ⟨_, there⟩ <;> simp [there]

/-- A file is read through every path that leads to its spot. -/
theorem read_of_spot (leads : tree.spot? path = some (directory, name)) {content : FileContent}
    (there : tree.node? directory name = some (.file content)) : tree.read path = .ok content := by
  obtain ⟨valid, slash, route, walked, place, stepped, leads⟩ := spot?_eq_some_iff.1 leads
  have found : tree.find path = .ok place := by
    simp only [find, bind_eq_ok_iff]
    rw [slash, if_neg Bool.false_ne_true]
    exact ⟨(), valid, route, walked, stepped⟩
  refine bind_eq_ok_iff.2 ⟨place, found, ?_⟩
  rcases node?_of_step stepped leads with ⟨held, rfl, holds⟩ | ⟨_, nothing⟩
  · rw [holds] at there
    cases there
    rfl
  · rw [nothing] at there
    cases there

/-! ## Files that are put into a tree -/

section PutFile

variable (noDirectory : ∀ number, tree.node? directory name ≠ some (.directory number))
  (content : FileContent)

include noDirectory

/-- Names lead to the same places, but for what is in the file. -/
theorem step_putFile (route : Route) (next : String) :
    ((tree.putFile directory name content).step route next).map Place.vacated =
      (tree.step route next).map Place.vacated := by
  rw [step, step]
  split
  · rfl
  · split
    · rfl
    · split
      · rfl
      · by_cases same : (route.here, next) = (directory, name)
        · cases same
          rw [node?_putFile_self]
          cases there : tree.node? route.here name with
          | none => rfl
          | some node =>
              cases node with
              | directory number => exact absurd there (noDirectory number)
              | file held => rfl
        · rw [node?_putFile_of_ne content same]

theorem step_putFile_directory {route inner : Route} {next : String} :
    (tree.putFile directory name content).step route next = .ok (.directory inner) ↔
      tree.step route next = .ok (.directory inner) := by
  rw [← map_vacated_eq_directory_iff, step_putFile noDirectory, map_vacated_eq_directory_iff]

theorem step_putFile_spot {route : Route} {next : String} {spot : Nat × String} :
    (∃ place, (tree.putFile directory name content).step route next = .ok place ∧
        place.spot? = some spot) ↔
      ∃ place, tree.step route next = .ok place ∧ place.spot? = some spot := by
  rw [← exists_map_vacated_iff, step_putFile noDirectory, exists_map_vacated_iff]

theorem walk_putFile {route last : Route} {names : List String} :
    (tree.putFile directory name content).walk route names = .ok last ↔
      tree.walk route names = .ok last := by
  induction names generalizing route with
  | nil => exact Iff.rfl
  | cons next rest inductionHypothesis =>
      simp only [walk_cons_eq_ok_iff, step_putFile_directory noDirectory, inductionHypothesis]

/-- Paths lead where they led. -/
theorem spot?_putFile (path : String) :
    (tree.putFile directory name content).spot? path = tree.spot? path := by
  refine Option.ext fun spot => ?_
  simp only [spot?_eq_some_iff, walk_putFile noDirectory, step_putFile_spot noDirectory]

end PutFile

end FileTree

end CallProfiler
