import Mathlib.Data.List.Induction
import Mathlib.Data.List.Nodup

/-!
# First occurrences

`List.eraseDups` keeps the first occurrence of every value. These are the laws by which lists
of names and paths are merged.
-/

namespace CallProfiler.FirstOccurrences

variable {α β : Type} [BEq α] [LawfulBEq α] [BEq β] [LawfulBEq β]

theorem nodup_eraseDups : (values : List α) → values.eraseDups.Nodup
  | [] => .nil
  | first :: rest => by
      rw [List.eraseDups_cons]
      apply List.nodup_cons.2
      constructor
      · intro member
        have others := (List.mem_filter.1 (List.mem_eraseDups.1 member)).2
        simp at others
      · exact nodup_eraseDups _
termination_by values => values.length
decreasing_by exact Nat.lt_succ_of_le (List.length_filter_le ..)

/-- A list without repetitions is a list of first occurrences. -/
theorem eraseDups_of_nodup {values : List α} (distinct : values.Nodup) :
    values.eraseDups = values := by
  induction values with
  | nil => rfl
  | cons first rest inductionHypothesis =>
      obtain ⟨absent, distinctRest⟩ := List.nodup_cons.1 distinct
      have unchanged : rest.filter (fun other => !other == first) = rest := by
        apply List.filter_eq_self.2
        intro other member
        simpa using fun equal : other = first => absent (equal ▸ member)
      rw [List.eraseDups_cons, unchanged, inductionHypothesis distinctRest]

theorem removeAll_congr {left right values : List α} (same : ∀ value, value ∈ left ↔ value ∈ right) :
    values.removeAll left = values.removeAll right := by
  simp only [List.removeAll]
  congr 1
  funext value
  simp [same value]

/-- A prefix may be reduced to its first occurrences before the rest is added. -/
theorem eraseDups_eraseDups_append (earlier later : List α) :
    (earlier.eraseDups ++ later).eraseDups = (earlier ++ later).eraseDups := by
  rw [List.eraseDups_append, List.eraseDups_append, eraseDups_of_nodup (nodup_eraseDups earlier),
    removeAll_congr fun _ => List.mem_eraseDups]

/-- A value that occurred before adds nothing. -/
theorem eraseDups_append_cons_of_mem {earlier later : List α} {value : α}
    (member : value ∈ earlier) :
    (earlier ++ value :: later).eraseDups = (earlier ++ later).eraseDups := by
  rw [List.eraseDups_append, List.eraseDups_append]
  simp [List.removeAll, member]

/-- A value that did not occur before comes last. -/
theorem eraseDups_concat_of_not_mem {earlier : List α} {value : α} (absent : value ∉ earlier) :
    (earlier ++ [value]).eraseDups = earlier.eraseDups ++ [value] := by
  have kept : [value].removeAll earlier = [value] := by
    simp [List.removeAll, absent]
  rw [List.eraseDups_append, kept, eraseDups_of_nodup (List.nodup_singleton value)]

/-- First occurrences stand in the order in which their values first occur. -/
theorem idxOf_lt_of_sublist_eraseDups {values : List α} {first second : α}
    (sub : [first, second].Sublist values.eraseDups) :
    values.idxOf first < values.idxOf second := by
  induction values using List.reverseRecOn with
  | nil => cases sub
  | append_singleton earlier value inductionHypothesis =>
      have before (sub : [first, second].Sublist earlier.eraseDups) :
          (earlier ++ [value]).idxOf first < (earlier ++ [value]).idxOf second := by
        have inFirst : first ∈ earlier := List.mem_eraseDups.1 (sub.subset (by simp))
        have inSecond : second ∈ earlier := List.mem_eraseDups.1 (sub.subset (by simp))
        rw [List.idxOf_append_of_mem inFirst, List.idxOf_append_of_mem inSecond]
        exact inductionHypothesis sub
      by_cases known : value ∈ earlier
      · rw [eraseDups_append_cons_of_mem known, List.append_nil] at sub
        exact before sub
      · rw [eraseDups_concat_of_not_mem known] at sub
        rcases List.sublist_append_iff.1 sub with ⟨left, right, parts, inEarlier, inLast⟩
        cases inLast with
        | cons _ inNothing =>
            obtain rfl := List.sublist_nil.1 inNothing
            rw [List.append_nil] at parts
            exact before (parts ▸ inEarlier)
        | cons_cons _ inNothing =>
            obtain rfl := List.sublist_nil.1 inNothing
            obtain ⟨rfl, rfl⟩ : left = [first] ∧ value = second := by
              rw [show [first, second] = [first] ++ [second] from rfl] at parts
              exact ⟨(List.append_inj_left' parts rfl).symm,
                (List.singleton_inj.1 (List.append_inj_right' parts rfl)).symm⟩
            have inFirst : first ∈ earlier := List.mem_eraseDups.1 (inEarlier.subset (by simp))
            rw [List.idxOf_append_of_mem inFirst, List.idxOf_append_of_notMem known]
            exact Nat.lt_of_lt_of_le (List.idxOf_lt_length_of_mem inFirst) (Nat.le_add_right _ _)

theorem eraseDups_map {transform : α → β} (injective : Function.Injective transform) :
    (values : List α) → (values.map transform).eraseDups = values.eraseDups.map transform
  | [] => rfl
  | first :: rest => by
      have others : (rest.map transform).filter (fun other => !other == transform first) =
          (rest.filter fun other => !other == first).map transform := by
        rw [List.filter_map]
        congr 2
        funext other
        simp [injective.eq_iff]
      rw [List.map_cons, List.eraseDups_cons, others, eraseDups_map injective, List.eraseDups_cons,
        List.map_cons]
termination_by values => values.length
decreasing_by exact Nat.lt_succ_of_le (List.length_filter_le ..)

end CallProfiler.FirstOccurrences
