import CallProfiler.Proofs.CallTree.Refusals
import Mathlib.Order.Nat

/-!
# The first offence of an event list

An event is misplaced if its level is negative or more than one below the level of the event
before it. In its place it still changes the clock if the process clock timed it inside an event
that the thread clock timed. Both are said of the event and of what comes before it, without a
tree or a stack: the event around it is the latest one of the level above. `build_refuses_iff`
says that an offence is all that can be wrong with the structure of a list, and that the first
one is reported.
-/

namespace CallProfiler

/-- The refusals that are about the structure of a list: its levels, its clocks and its merge. -/
def AnalysisError.IsStructural : AnalysisError → Prop
  | .brokenEventList .. | .clockKindChange .. | .mergeInvariant _ => True
  | .multipleFrameEntryPoints _ | .recursionDetected _ => False

namespace Event

/-- The level of the latest of earlier events, which come with the latest first. The root is
around the first event. -/
def latestLevel (earlier : List Event) : Int := earlier.head?.elim (-1) (·.level.toInt)

/-- The latest of earlier events at a level. -/
def latestAt? (earlier : List Event) (level : Int) : Option Event :=
  earlier.find? fun other => other.level.toInt = level

/-- An event may be at any level from zero to one below the event before it. -/
def InPlace (earlier : List Event) (event : Event) : Prop :=
  0 ≤ event.level.toInt ∧ event.level.toInt ≤ latestLevel earlier + 1

theorem latestAt?_cons (event : Event) (earlier : List Event) (level : Int) :
    latestAt? (event :: earlier) level =
      if event.level.toInt = level then some event else latestAt? earlier level := by
  rw [latestAt?, List.find?_cons]
  by_cases same : event.level.toInt = level
  · rw [if_pos same, decide_eq_true same]
  · rw [if_neg same, decide_eq_false same]
    rfl

end Event

open Event

/-- What is wrong with an event, where `earlier` are the events before it, the latest first. -/
inductive Offence (earlier : List Event) (event : Event) : AnalysisError → Prop where
  | misplaced (outOfPlace : ¬ InPlace earlier event) :
      Offence earlier event (.brokenEventList earlier.length event.name event.level)
  | clockChanged {parent : Event} (inPlace : InPlace earlier event)
      (nested : 0 < event.level.toInt)
      (around : latestAt? earlier (event.level.toInt - 1) = some parent)
      (byProcess : event.processClock = true) (byThread : parent.processClock = false) :
      Offence earlier event (.clockKindChange parent.name event.name)

/-- The event at a place of a list that goes on after earlier events is wrong. -/
def OffendsAt (earlier events : List Event) (index : Nat) (error : AnalysisError) : Prop :=
  ∃ event, events[index]? = some event ∧ Offence ((events.take index).reverse ++ earlier) event error

/-- The event at a place of a list is wrong, and none before it is. -/
structure FirstOffence (earlier events : List Event) (index : Nat) (error : AnalysisError) :
    Prop where
  offends : OffendsAt earlier events index error
  first : ∀ sooner < index, ∀ other, ¬ OffendsAt earlier events sooner other

/-- One thing at most is wrong with an event. -/
theorem Offence.unique {earlier : List Event} {event : Event} {error other : AnalysisError}
    (offence : Offence earlier event error) (again : Offence earlier event other) :
    error = other := by
  cases offence with
  | misplaced outOfPlace =>
      cases again with
      | misplaced _ => rfl
      | clockChanged inPlace _ _ _ _ => exact absurd inPlace outOfPlace
  | clockChanged inPlace nested around byProcess byThread =>
      cases again with
      | misplaced outOfPlace => exact absurd inPlace outOfPlace
      | clockChanged _ _ aroundAgain _ _ =>
          rw [around] at aroundAgain
          cases aroundAgain
          rfl

theorem offendsAt_zero {earlier rest : List Event} {event : Event} {error : AnalysisError} :
    OffendsAt earlier (event :: rest) 0 error ↔ Offence earlier event error := by
  simp [OffendsAt]

theorem offendsAt_succ {earlier rest : List Event} {event : Event} {index : Nat}
    {error : AnalysisError} :
    OffendsAt earlier (event :: rest) (index + 1) error ↔
      OffendsAt (event :: earlier) rest index error := by
  simp [OffendsAt]

/-- Where anything is wrong, something is the first to be. -/
theorem OffendsAt.exists_first {earlier events : List Event} {index : Nat}
    {error : AnalysisError} (offends : OffendsAt earlier events index error) :
    ∃ first other, FirstOffence earlier events first other := by
  classical
  have somewhere : ∃ place other, OffendsAt earlier events place other := ⟨index, error, offends⟩
  obtain ⟨other, found⟩ := Nat.find_spec somewhere
  refine ⟨Nat.find somewhere, other, found, ?_⟩
  intro sooner before another offendsSooner
  exact Nat.find_min somewhere before ⟨another, offendsSooner⟩

section Cons

variable {earlier rest : List Event} {event : Event} {error : AnalysisError}

/-- A wrong event at the beginning is the first one. -/
theorem firstOffence_of_offence (offence : Offence earlier event error) {index : Nat}
    {other : AnalysisError} :
    FirstOffence earlier (event :: rest) index other ↔ index = 0 ∧ other = error := by
  constructor
  · rintro ⟨offends, first⟩
    cases index with
    | zero => exact ⟨rfl, (offendsAt_zero.1 offends).unique offence⟩
    | succ index => exact absurd (offendsAt_zero.2 offence) (first 0 (Nat.succ_pos index) error)
  · rintro ⟨rfl, rfl⟩
    refine ⟨offendsAt_zero.2 offence, ?_⟩
    intro sooner before
    exact absurd before (Nat.not_lt_zero sooner)

/-- Behind an event that is right the first wrong one is that of the rest. -/
theorem firstOffence_succ (right : ∀ other, ¬ Offence earlier event other) {index : Nat} :
    FirstOffence earlier (event :: rest) (index + 1) error ↔
      FirstOffence (event :: earlier) rest index error := by
  constructor
  · rintro ⟨offends, first⟩
    refine ⟨offendsAt_succ.1 offends, ?_⟩
    intro sooner before other offendsSooner
    exact first (sooner + 1) (Nat.succ_lt_succ before) other (offendsAt_succ.2 offendsSooner)
  · rintro ⟨offends, first⟩
    refine ⟨offendsAt_succ.2 offends, ?_⟩
    intro sooner before other offendsSooner
    cases sooner with
    | zero => exact right other (offendsAt_zero.1 offendsSooner)
    | succ sooner =>
        exact first sooner (Nat.lt_of_succ_lt_succ before) other (offendsAt_succ.1 offendsSooner)

end Cons

namespace OpenPath

/-- The open events are those around what comes next: one for each level down to the latest, and
each of them the latest event of its level. -/
structure Encloses (path : OpenPath) (earlier : List Event) : Prop where
  length : (path.length : Int) = latestLevel earlier + 1
  latest : ∀ depth : Nat, depth < path.length → path.reverse[depth]? = latestAt? earlier depth

theorem encloses_nil : Encloses [] [] where
  length := rfl
  latest := by
    intro depth within
    exact absurd within (Nat.not_lt_zero depth)

section Encloses

variable {path outer : OpenPath} {earlier : List Event} {event : Event}

/-- An event has a place on the stack just where it is in its place. -/
theorem Encloses.around?_isSome_iff (encloses : path.Encloses earlier) :
    (path.around? event.level).isSome ↔ InPlace earlier event := by
  have length := encloses.length
  rw [around?, InPlace]
  split
  · rename_i fits
    simp only [Option.isSome_some, true_iff]
    omega
  · rename_i deep
    simp only [Option.isSome_none, Bool.false_eq_true, false_iff]
    omega

/-- The innermost of the events that stay open is the latest one of the level above. -/
theorem Encloses.head?_eq (encloses : path.Encloses earlier)
    (around : path.around? event.level = some outer) :
    outer.head? =
      if 0 < event.level.toInt then latestAt? earlier (event.level.toInt - 1) else none := by
  obtain ⟨depth, level, fits, length, outermost⟩ := reverse_of_around around
  split
  · rename_i nested
    have shallower : depth - 1 < depth := by omega
    have above : event.level.toInt - 1 = (depth - 1 : Nat) := by omega
    rw [above, ← encloses.latest (depth - 1) (by omega), ← List.getLast?_reverse,
      List.getLast?_eq_getElem?, List.length_reverse, length, outermost,
      List.getElem?_take_of_lt shallower]
  · have nothing : outer = [] := List.eq_nil_of_length_eq_zero (by omega)
    rw [nothing, List.head?_nil]

/-- An event that has found its place is open around what comes next. -/
theorem Encloses.step (encloses : path.Encloses earlier)
    (around : path.around? event.level = some outer) :
    Encloses (event :: outer) (event :: earlier) := by
  obtain ⟨depth, level, fits, length, outermost⟩ := reverse_of_around around
  constructor
  · show ((outer.length + 1 : Nat) : Int) = event.level.toInt + 1
    omega
  · intro other within
    rw [List.length_cons, length] at within
    rw [List.reverse_cons, latestAt?_cons, level]
    by_cases own : depth = other
    · subst own
      rw [if_pos rfl, List.getElem?_append_right (by simp [length])]
      simp [length]
    · have outside : other < depth := by omega
      rw [if_neg (by omega), List.getElem?_append_left (by simp only [List.length_reverse]; omega),
        outermost, List.getElem?_take_of_lt outside]
      exact encloses.latest other (by omega)

/-- One step of the check: a wrong event is refused for what is wrong with it, and any other one
is open around the rest. -/
theorem Encloses.check_cons (encloses : path.Encloses earlier) (event : Event)
    (rest : List Event) :
    (∃ error, Offence earlier event error ∧
      check path earlier.length (event :: rest) = .error error) ∨
    (∀ error, ¬ Offence earlier event error) ∧ ∃ outer,
      Encloses (event :: outer) (event :: earlier) ∧
      check path earlier.length (event :: rest) =
        check (event :: outer) (event :: earlier).length rest := by
  rw [check]
  cases around : path.around? event.level with
  | none =>
      left
      refine ⟨_, .misplaced ?_, rfl⟩
      rw [← encloses.around?_isSome_iff, around]
      simp
  | some outer =>
      have inPlace : InPlace earlier event := by
        rw [← encloses.around?_isSome_iff, around]
        rfl
      have parent := encloses.head?_eq around
      dsimp only
      by_cases nested : 0 < event.level.toInt
      · rw [if_pos nested] at parent
        rw [parent]
        cases found : latestAt? earlier (event.level.toInt - 1) with
        | none =>
            right
            refine ⟨?_, outer, encloses.step around, rfl⟩
            rintro _ (outOfPlace | ⟨_, _, isParent, _, _⟩)
            · exact outOfPlace inPlace
            · rw [found] at isParent
              cases isParent
        | some parent =>
            dsimp only
            split
            · rename_i changed
              rw [Bool.and_eq_true, Bool.not_eq_true'] at changed
              exact .inl ⟨_, .clockChanged inPlace nested found changed.1 changed.2, rfl⟩
            · rename_i kept
              right
              refine ⟨?_, outer, encloses.step around, rfl⟩
              rintro _ (outOfPlace | ⟨_, _, isParent, byProcess, byThread⟩)
              · exact outOfPlace inPlace
              · rw [found] at isParent
                cases isParent
                exact kept (by rw [byProcess, byThread]; rfl)
      · rw [if_neg nested] at parent
        rw [parent]
        right
        refine ⟨?_, outer, encloses.step around, rfl⟩
        rintro _ (outOfPlace | ⟨_, inside, _, _, _⟩)
        · exact outOfPlace inPlace
        · exact nested inside

end Encloses

/-- The check refuses a list for its first offence. -/
theorem Encloses.check_eq_error_iff {path : OpenPath} {earlier events : List Event}
    (encloses : path.Encloses earlier) {error : AnalysisError} :
    check path earlier.length events = .error error ↔
      ∃ index, FirstOffence earlier events index error := by
  induction events generalizing path earlier with
  | nil =>
      constructor
      · intro impossible
        cases impossible
      · rintro ⟨_, ⟨_, impossible, _⟩, _⟩
        cases impossible
  | cons event rest inductionHypothesis =>
      rcases encloses.check_cons event rest with ⟨found, offence, refused⟩ |
        ⟨right, outer, enclosesNext, following⟩
      · rw [refused]
        constructor
        · rintro ⟨⟩
          exact ⟨0, (firstOffence_of_offence offence).2 ⟨rfl, rfl⟩⟩
        · rintro ⟨index, first⟩
          rw [((firstOffence_of_offence offence).1 first).2]
      · rw [following, inductionHypothesis enclosesNext]
        constructor
        · rintro ⟨index, first⟩
          exact ⟨index + 1, (firstOffence_succ right).2 first⟩
        · rintro ⟨index, first⟩
          cases index with
          | zero => exact absurd (offendsAt_zero.1 first.offends) (right error)
          | succ index => exact ⟨index, (firstOffence_succ right).1 first⟩

theorem check_eq_error_iff {events : List Event} {error : AnalysisError} :
    check [] 0 events = .error error ↔ ∃ index, FirstOffence [] events index error :=
  encloses_nil.check_eq_error_iff

/-- Nothing is wrong with an accepted list. -/
theorem not_offendsAt_of_check {events : List Event} (accepted : check [] 0 events = .ok ())
    (index : Nat) (error : AnalysisError) : ¬ OffendsAt [] events index error := by
  intro offends
  obtain ⟨first, other, isFirst⟩ := offends.exists_first
  have refused := check_eq_error_iff.2 ⟨first, isFirst⟩
  rw [accepted] at refused
  cases refused

/-- No event of an accepted list is wrong after those before it. -/
theorem not_offence_of_check {before later : List Event} {event : Event}
    (accepted : check [] 0 (before ++ event :: later) = .ok ()) (error : AnalysisError) :
    ¬ Offence before.reverse event error := by
  intro offence
  refine not_offendsAt_of_check accepted before.length error ⟨event, ?_, ?_⟩
  · rw [List.getElem?_append_right (Nat.le_refl _), Nat.sub_self, List.getElem?_cons_zero]
  · rw [List.take_left, List.append_nil]
    exact offence

end OpenPath

namespace CallTree

/-- A list is refused for its structure just where the check refuses it. -/
theorem build_eq_refuse_iff {events : List Event} {error : AnalysisError} :
    error.IsStructural ∧ build events = refuse error ↔
      OpenPath.check [] 0 events = .error error := by
  constructor
  · rintro ⟨structural, refused⟩
    rcases refused_of_build refused with failed | ⟨_, count, rfl⟩
    · exact failed
    · exact structural.elim
  · intro failed
    refine ⟨?_, ?_⟩
    · rcases OpenPath.refused_of_check failed with ⟨_, _, _, rfl⟩ | ⟨_, _, rfl⟩
      · exact trivial
      · exact trivial
    · rw [build_eq, failed]
      rfl

/-- Building refuses the structure of a list just where an event of it offends, and reports the
first such event. Following the levels ends without a fault on every list. -/
theorem build_refuses_iff (events : List Event) :
    (∀ error : AnalysisError, error.IsStructural ∧ build events = refuse error ↔
      ∃ index, FirstOffence [] events index error) ∧
    ((∃ error : AnalysisError, error.IsStructural ∧ build events = refuse error) ↔
      ∃ index error, OffendsAt [] events index error) ∧
    Stop.Completes (OpenPath.follow [] 0 events) := by
  have exact (error : AnalysisError) : error.IsStructural ∧ build events = refuse error ↔
      ∃ index, FirstOffence [] events index error :=
    build_eq_refuse_iff.trans OpenPath.check_eq_error_iff
  refine ⟨exact, ?_, OpenPath.completes_follow events⟩
  constructor
  · rintro ⟨error, refused⟩
    obtain ⟨index, first⟩ := (exact error).1 refused
    exact ⟨index, error, first.offends⟩
  · rintro ⟨index, error, offends⟩
    obtain ⟨first, other, isFirst⟩ := offends.exists_first
    exact ⟨other, (exact other).2 ⟨first, isFirst⟩⟩

end CallTree

end CallProfiler
