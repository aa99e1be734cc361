import CallProfiler.Event
import Mathlib.Data.List.Induction
import Mathlib.Data.List.Nodup
import Mathlib.Data.List.TakeWhile

/-!
# Call paths

An event list says which call made which: the caller of an event is the latest earlier event
one level around it. The names from the outermost caller down to an event are its call path.
Nothing here looks at a call tree; the theorems about trees compare them with these paths.

A path is recursive if its last name occurs in it before. Its reduction leaves recursion out:
what was called inside a function counts from the outermost call of that function.
-/

namespace CallProfiler

/-- Names of nested calls, the outermost first. -/
abbrev CallPath := List String

/-- The names around a call at a level, where `earlier` are the events before it, the latest
first. Only a level above zero has a caller. -/
def callers : List Event → Int → CallPath
  | [], _ => []
  | candidate :: older, level =>
    if 0 < level ∧ candidate.level.toInt = level - 1 then
      callers older (level - 1) ++ [candidate.name]
    else callers older level

/-- An event with its call path. -/
structure Call where
  path : CallPath
  event : Event
deriving DecidableEq, Repr

namespace Call

/-- The calls of an event list that goes on after earlier events. -/
def after (earlier : List Event) : List Event → List Call
  | [] => []
  | event :: rest =>
    ⟨callers earlier event.level.toInt ++ [event.name], event⟩ :: after (event :: earlier) rest

/-- The calls of an event list, in its order. -/
def ofEvents (events : List Event) : List Call := after [] events

@[simp] theorem map_event_after (earlier events : List Event) :
    (after earlier events).map (·.event) = events := by
  induction events generalizing earlier with
  | nil => rfl
  | cons event rest inductionHypothesis => simp [after, inductionHypothesis]

/-- A list that goes on has the calls of its parts. -/
theorem after_append (earlier first second : List Event) :
    after earlier (first ++ second) =
      after earlier first ++ after (first.reverse ++ earlier) second := by
  induction first generalizing earlier with
  | nil => rfl
  | cons event rest inductionHypothesis =>
      simp [after, inductionHypothesis]

/-- A call path ends with the name of its event. -/
theorem exists_path_eq {earlier events : List Event} {call : Call}
    (member : call ∈ after earlier events) : ∃ around, call.path = around ++ [call.event.name] := by
  induction events generalizing earlier with
  | nil => cases member
  | cons event rest inductionHypothesis =>
      rcases List.mem_cons.1 member with rfl | later
      · exact ⟨_, rfl⟩
      · exact inductionHypothesis later

/-- A call is the call of an event between those before and after it. -/
theorem exists_split {earlier events : List Event} {call : Call}
    (member : call ∈ after earlier events) :
    ∃ before later, events = before ++ call.event :: later ∧
      call.path = callers (before.reverse ++ earlier) call.event.level.toInt ++
        [call.event.name] := by
  induction events generalizing earlier with
  | nil => cases member
  | cons event rest inductionHypothesis =>
      rcases List.mem_cons.1 member with rfl | inRest
      · exact ⟨[], rest, rfl, rfl⟩
      · obtain ⟨before, later, parted, path⟩ := inductionHypothesis inRest
        refine ⟨event :: before, later, by rw [parted, List.cons_append], ?_⟩
        rw [path, List.reverse_cons, List.append_assoc, List.singleton_append]

/-- An event between others has a call. -/
theorem mem_ofEvents (before later : List Event) (event : Event) :
    ⟨callers before.reverse event.level.toInt ++ [event.name], event⟩ ∈
      ofEvents (before ++ event :: later) := by
  rw [ofEvents, after_append, List.append_nil]
  exact List.mem_append_right _ List.mem_cons_self

@[simp] theorem map_event_ofEvents (events : List Event) :
    (ofEvents events).map (·.event) = events :=
  map_event_after [] events

end Call

namespace CallPath

/-- Whether the last name occurs earlier in the path. -/
def isRecursive (path : CallPath) : Bool :=
  match path.getLast? with
  | none => false
  | some name => path.dropLast.contains name

@[simp] theorem isRecursive_concat (path : CallPath) (name : String) :
    isRecursive (path ++ [name]) = path.contains name := by
  simp [isRecursive]

/-- The part of a path before the first call of its last name is shorter than the path. -/
theorem length_before_last {path : CallPath} {name : String}
    (last : path.getLast? = some name) :
    (path.takeWhile (· != name)).length < path.length := by
  have sublist := List.takeWhile_sublist (l := path) (· != name)
  rcases Nat.lt_or_eq_of_le sublist.length_le with shorter | same
  · exact shorter
  · have everyOther := sublist.eq_of_length same
    have member : name ∈ path.takeWhile (· != name) := by
      rw [everyOther]
      exact List.mem_of_getLast? last
    have differs := List.all_eq_true.1 List.all_takeWhile name member
    simp at differs

/-- The path without its recursion: what is before the first call of the last name, reduced in
turn, and then that name. -/
def reduced (path : CallPath) : CallPath :=
  match _ : path.getLast? with
  | none => []
  | some name => reduced (path.takeWhile (· != name)) ++ [name]
termination_by path.length
decreasing_by exact length_before_last ‹_›

@[simp] theorem reduced_nil : reduced [] = [] := by
  rw [reduced]
  rfl

theorem takeWhile_append_of_mem {path later : CallPath} {name : String} (member : name ∈ path) :
    (path ++ later).takeWhile (· != name) = path.takeWhile (· != name) := by
  induction path with
  | nil => cases member
  | cons head rest inductionHypothesis =>
      by_cases same : head = name
      · simp [same]
      · have inRest : name ∈ rest := by
          rcases List.mem_cons.1 member with equal | inRest
          · exact absurd equal.symm same
          · exact inRest
        simp [same, inductionHypothesis inRest]

theorem takeWhile_of_not_mem {path : CallPath} {name : String} (absent : name ∉ path) :
    path.takeWhile (· != name) = path := by
  have others : ∀ other ∈ path, (other != name) = true := by
    intro other member
    simpa using fun equal : other = name => absent (equal ▸ member)
  simpa using @List.takeWhile_append_of_pos _ _ path [] others

/-- Reducing a call looks only at what is around its outermost namesake. -/
theorem reduced_concat (path : CallPath) (name : String) :
    reduced (path ++ [name]) = reduced (path.takeWhile (· != name)) ++ [name] := by
  have before : (path ++ [name]).takeWhile (· != name) = path.takeWhile (· != name) := by
    by_cases member : name ∈ path
    · exact takeWhile_append_of_mem member
    · rw [List.takeWhile_append, takeWhile_of_not_mem member]
      simp
  rw [reduced]
  split
  · rename_i none
    simp at none
  · rename_i last someLast
    obtain rfl : name = last := by simpa using someLast
    rw [before]

/-- A call whose name is new stays below its caller. -/
theorem reduced_concat_of_not_mem {path : CallPath} {name : String} (absent : name ∉ path) :
    reduced (path ++ [name]) = reduced path ++ [name] := by
  rw [reduced_concat, takeWhile_of_not_mem absent]

/-- Where a name is around already, calls in between do not matter. -/
theorem reduced_append_concat_of_mem {path later : CallPath} {name : String}
    (member : name ∈ path) :
    reduced (path ++ later ++ [name]) = reduced (path ++ [name]) := by
  rw [reduced_concat, reduced_concat, takeWhile_append_of_mem member]

/-- A call right inside its namesake adds nothing to it. -/
theorem reduced_concat_concat (path : CallPath) (name : String) :
    reduced (path ++ [name] ++ [name]) = reduced (path ++ [name]) := by
  rw [reduced_concat, reduced_concat]
  by_cases member : name ∈ path
  · rw [takeWhile_append_of_mem member]
  · rw [List.takeWhile_append, takeWhile_of_not_mem member]
    simp

theorem reduced_of_last {path : CallPath} {name : String} (last : path.getLast? = some name) :
    path.reduced = reduced (path.takeWhile (· != name)) ++ [name] := by
  rw [reduced]
  split
  · rename_i none
    rw [last] at none
    cases none
  · rename_i other someLast
    rw [last] at someLast
    cases someLast
    rfl

/-- Reduction adds no name. -/
theorem mem_of_mem_reduced {path : CallPath} {name : String} (member : name ∈ path.reduced) :
    name ∈ path := by
  induction path using reduced.induct with
  | case1 path none =>
      obtain rfl := List.getLast?_eq_none_iff.1 none
      rwa [reduced_nil] at member
  | case2 path last isLast inductionHypothesis =>
      rw [reduced_of_last isLast] at member
      rcases List.mem_append.1 member with before | same
      · exact List.takeWhile_subset _ (inductionHypothesis before)
      · rw [List.mem_singleton.1 same]
        exact List.mem_of_getLast? isLast

/-- A reduced path names no function twice. -/
theorem nodup_reduced (path : CallPath) : path.reduced.Nodup := by
  induction path using reduced.induct with
  | case1 path none =>
      obtain rfl := List.getLast?_eq_none_iff.1 none
      rw [reduced_nil]
      exact List.nodup_nil
  | case2 path last isLast inductionHypothesis =>
      rw [reduced_of_last isLast]
      refine List.nodup_append.2 ⟨inductionHypothesis, List.nodup_singleton _, ?_⟩
      intro name member other only same
      have before := List.mem_takeWhile_imp (mem_of_mem_reduced member)
      rw [same, List.mem_singleton.1 only] at before
      simp at before

/-- A path that names no function twice is its own reduction. -/
theorem reduced_of_nodup {path : CallPath} (distinct : path.Nodup) : reduced path = path := by
  induction path using List.reverseRecOn with
  | nil => exact reduced_nil
  | append_singleton path name inductionHypothesis =>
      have parts := List.nodup_append.1 distinct
      have absent : name ∉ path := fun member => parts.2.2 name member name (by simp) rfl
      rw [reduced_concat_of_not_mem absent, inductionHypothesis parts.1]

/-- A path that names no function twice is not recursive. -/
theorem isRecursive_of_nodup {path : CallPath} (distinct : path.Nodup) :
    path.isRecursive = false := by
  induction path using List.reverseRecOn with
  | nil => rfl
  | append_singleton path name _ =>
      have parts := List.nodup_append.1 distinct
      rw [isRecursive_concat, ← Bool.not_eq_true, List.contains_iff_mem]
      exact fun member => parts.2.2 name member name (by simp) rfl

/-- A path that names no function twice becomes recursive below a call of its last function. -/
theorem isRecursive_cons_concat {path : CallPath} {first last : String}
    (distinct : (path ++ [last]).Nodup) :
    isRecursive (first :: (path ++ [last])) = true ↔ last = first := by
  have absent : last ∉ path := fun member =>
    (List.nodup_append.1 distinct).2.2 last member last (List.mem_singleton_self last) rfl
  rw [← List.cons_append, isRecursive_concat, List.contains_iff_mem, List.mem_cons]
  exact or_iff_left absent

end CallPath

/-- Reduction keeps the name of the event. -/
theorem Call.getLast?_reduced {earlier events : List Event} {call : Call}
    (member : call ∈ Call.after earlier events) :
    call.path.reduced.getLast? = some call.event.name := by
  obtain ⟨around, path⟩ := Call.exists_path_eq member
  rw [path, CallPath.reduced_concat, List.getLast?_concat]

end CallProfiler
