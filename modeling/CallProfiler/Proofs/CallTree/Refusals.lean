import CallProfiler.Proofs.CallTree.Merging
import CallProfiler.Proofs.CallTree.Nesting
import Mathlib.Data.List.Chain

/-!
# Refused event lists

Why a list of events has no call tree. `check_eq_ok` names lists that are accepted: their levels
climb one at a time and they keep to one clock. `refused_of_build` says that nothing but the
check of the list and the number of frame calls can refuse one, so the guard of the strict
merge never does.
-/

namespace CallProfiler

/-- No level of a list is negative or more than one above the level before it. -/
def Climbs (before : Int) (levels : List Int) : Prop :=
  (before :: levels).IsChain fun previous level => 0 ≤ level ∧ level ≤ previous + 1

theorem climbs_cons {before level : Int} {rest : List Int} :
    Climbs before (level :: rest) ↔ (0 ≤ level ∧ level ≤ before + 1) ∧ Climbs level rest :=
  List.isChain_cons_cons

theorem climbs_concat {before level : Int} {levels : List Int} :
    Climbs before (levels ++ [level]) ↔
      Climbs before levels ∧ 0 ≤ level ∧ level ≤ levels.getLast?.getD before + 1 := by
  induction levels generalizing before with
  | nil => simp [Climbs]
  | cons head rest inductionHypothesis =>
      rw [List.cons_append, climbs_cons, climbs_cons, inductionHypothesis, List.getLast?_cons,
        Option.getD_some]
      simp only [and_assoc]

theorem Climbs.nonnegative {before : Int} {levels : List Int} (climbs : Climbs before levels) :
    ∀ level ∈ levels, 0 ≤ level := by
  induction levels generalizing before with
  | nil => simp
  | cons head rest inductionHypothesis =>
      obtain ⟨⟨own, _⟩, following⟩ := climbs_cons.1 climbs
      exact List.forall_mem_cons.2 ⟨own, inductionHypothesis following⟩

namespace OpenPath

/-- An event that is not too deep has a place. -/
theorem around?_of_fits (path : OpenPath) {level : Int32} (nonnegative : 0 ≤ level.toInt)
    (fits : level.toInt ≤ path.length) :
    ∃ outer, path.around? level = some outer ∧ (outer.length : Int) = level.toInt ∧
      ∀ event ∈ outer, event ∈ path := by
  refine ⟨_, if_pos ⟨nonnegative, fits⟩, ?_, fun event member => List.mem_of_mem_drop member⟩
  rw [List.length_drop]
  omega

/-- Events of one clock whose levels climb are accepted. -/
theorem check_eq_ok {path : OpenPath} {index : Nat} {events : List Event} {processClock : Bool}
    (climbs : Climbs ((path.length : Int) - 1) (events.map (·.level.toInt)))
    (ofPath : ∀ event ∈ path, event.processClock = processClock)
    (ofEvents : ∀ event ∈ events, event.processClock = processClock) :
    check path index events = .ok () := by
  induction events generalizing path index with
  | nil => rfl
  | cons event rest inductionHypothesis =>
      rw [List.map_cons, climbs_cons] at climbs
      obtain ⟨⟨nonnegative, bound⟩, following⟩ := climbs
      obtain ⟨outer, around, length, fromPath⟩ :=
        around?_of_fits path nonnegative (by omega)
      have own := ofEvents event List.mem_cons_self
      have accepted : check (event :: outer) (index + 1) rest = .ok () := by
        apply inductionHypothesis
        · rw [List.length_cons, Int.natCast_succ, length, Int.add_sub_cancel]
          exact following
        · intro other member
          rcases List.mem_cons.1 member with rfl | inOuter
          · exact own
          · exact ofPath other (fromPath other inOuter)
        · exact fun other member => ofEvents other (List.mem_cons_of_mem event member)
      rw [check, around]
      dsimp only
      split
      · exact accepted
      · rename_i parent isHead
        rw [if_neg, accepted]
        have parentClock := ofPath parent (fromPath parent (List.mem_of_head? isHead))
        simp [own, parentClock]

/-- A list is refused for the level or for the clock of one of its events. -/
theorem refused_of_check {path : OpenPath} {index : Nat} {events : List Event}
    {reason : AnalysisError} (refused : check path index events = .error reason) :
    (∃ place name level, reason = .brokenEventList place name level) ∨
      ∃ parent name, reason = .clockKindChange parent name := by
  induction events generalizing path index with
  | nil => cases refused
  | cons event rest inductionHypothesis =>
      rw [check] at refused
      split at refused
      · cases refused
        exact .inl ⟨_, _, _, rfl⟩
      · split at refused
        · exact inductionHypothesis refused
        · split at refused
          · cases refused
            exact .inr ⟨_, _, rfl⟩
          · exact inductionHypothesis refused

end OpenPath

namespace Forest

/-- Every event is a node of its own, in the order of the events. -/
theorem preorder_ofEvents (events : List Event) :
    (ofEvents events).preorder = events.map .ofEvent := by
  induction events with
  | nil => rfl
  | cons event rest inductionHypothesis =>
      have whole := (span_spec (fun other => (Node.ofEvent event).level < other.level)
        (ofEvents rest)).1
      rw [List.map_cons, ← inductionHypothesis, ← whole, preorder_append]
      rfl

/-- A merge that stops was stopped by one of the nodes that it was to combine. -/
theorem stopped_of_mergeInto {ε : Type} {combine : Node → Node → Except ε Node}
    {merged forest : Forest Node} {reason : ε}
    (stopped : mergeInto combine merged forest = .error reason) :
    ∃ survivor, ∃ label ∈ forest.preorder, combine survivor label = .error reason := by
  induction forest generalizing merged with
  | nil => cases stopped
  | node label children siblings childrenHypothesis siblingsHypothesis =>
      -- The siblings' and the children's own trouble is trouble of the whole forest.
      have below {kept : Forest Node} (inside : mergeInto combine kept children = .error reason) :
          ∃ survivor, ∃ other ∈ (node label children siblings).preorder,
            combine survivor other = .error reason := by
        obtain ⟨survivor, other, member, done⟩ := childrenHypothesis inside
        exact ⟨survivor, other, by simp [preorder, member], done⟩
      have beside {kept : Forest Node} (outside : mergeInto combine kept siblings = .error reason) :
          ∃ survivor, ∃ other ∈ (node label children siblings).preorder,
            combine survivor other = .error reason := by
        obtain ⟨survivor, other, member, done⟩ := siblingsHypothesis outside
        exact ⟨survivor, other, by simp [preorder, member], done⟩
      rw [mergeInto] at stopped
      split at stopped
      · rcases bind_eq_error_iff.1 stopped with inside | ⟨inner, _, outside⟩
        · exact below inside
        · exact beside outside
      · rename_i survivor kept _
        rcases bind_eq_error_iff.1 stopped with own | ⟨_, _, stopped⟩
        · exact ⟨survivor, label, by simp [preorder], own⟩
        · rcases bind_eq_error_iff.1 stopped with inside | ⟨_, _, outside⟩
          · exact below inside
          · exact beside outside

end Forest

namespace CallTree

/-- The strict merge of single events absorbs nothing but single events. -/
theorem mergeSiblingsStrict_ne_refused {root : Node} {events : List Event}
    {reason : AnalysisError} :
    mergeSiblingsStrict ⟨root, .ofEvents events⟩ ≠ .error (.refused reason) := by
  intro refused
  obtain stopped | ⟨_, _, impossible⟩ := bind_eq_error_iff.1 refused
  · obtain ⟨survivor, label, member, absorbed⟩ := Forest.stopped_of_mergeInto stopped
    rw [Forest.preorder_ofEvents] at member
    obtain ⟨event, _, rfl⟩ := List.mem_map.1 member
    have single : (Node.ofEvent event).isSingle = true := rfl
    rw [Node.absorbSingle, if_pos single] at absorbed
    exact Stop.ofFault_ne_refused absorbed
  · cases impossible

/-- A list is refused by its check, or because a frame thread makes calls beside its frames. -/
theorem refused_of_build {events : List Event} {reason : AnalysisError}
    (refused : build events = .error (.refused reason)) :
    OpenPath.check [] 0 events = .error reason ∨
      OpenPath.check [] 0 events = .ok () ∧ ∃ count, reason = .multipleFrameEntryPoints count := by
  rw [build_eq] at refused
  rcases bind_eq_error_iff.1 refused with checked | ⟨_, checked, refused⟩
  · obtain ⟨cause, failed, same⟩ := mapError_eq_error_iff.1 checked
    cases same
    exact .inl failed
  · refine .inr ⟨mapError_eq_ok_iff.1 checked, ?_⟩
    rcases bind_eq_error_iff.1 refused with merging | ⟨merged, _, refused⟩
    · exact absurd merging mergeSiblingsStrict_ne_refused
    · rcases bind_eq_error_iff.1 refused with totalling | ⟨totalled, _, refused⟩
      · exact absurd totalling Stop.ofFault_ne_refused
      · obtain ⟨cause, marking, same⟩ := mapError_eq_error_iff.1 refused
        cases same
        rw [markFrameThread] at marking
        split at marking
        · split at marking
          · cases marking
            exact ⟨_, rfl⟩
          · cases marking
        · cases marking

end CallTree

end CallProfiler
