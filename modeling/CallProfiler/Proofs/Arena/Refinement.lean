import CallProfiler.Proofs.Arena.Building
import CallProfiler.Proofs.Arena.Collapsing
import CallProfiler.Proofs.Arena.Mitigating
import CallProfiler.Proofs.CallTree.Invariant

/-!
# Arenas and the call trees that they represent

Every operation on an arena does to the tree that it represents what the operation of the same
name does to a call tree, and stops where that stops. So the arenas that the operations lead to
represent just the call trees that they lead to (`derived_iff`), and what is proved of the one is
true of the other.
-/

namespace CallProfiler.Arena

variable {arena next : Arena} {parent other : Option Nat} {shape second : Forest Nat}
  {forest children : Forest Node} {tree result : CallTree} {events : List Event}

/-- The slots settle which forest they hold. -/
theorem Holds.unique (first : arena.Holds parent shape forest)
    (again : arena.Holds other second children) (same : shape.tops = second.tops) :
    forest = children := by
  induction first generalizing other second children with
  | nil =>
      cases again with
      | nil => rfl
      | node => cases same
  | node inside slot below beside belowHypothesis besideHypothesis =>
      cases again with
      | nil => cases same
      | node inside' slot' below' beside' =>
          obtain ⟨rfl, rest⟩ := List.cons.inj same
          obtain ⟨rfl, _, tops⟩ := Slot.mk.inj (slot.symm.trans slot')
          rw [belowHypothesis below' tops, besideHypothesis beside' rest]

namespace Represents

/-- An arena represents one tree only. -/
theorem unique (first : arena.Represents tree) (again : arena.Represents result) :
    tree = result := by
  obtain ⟨shape, lays⟩ := first
  obtain ⟨second, laysAgain⟩ := again
  have whole := lays.holds.unique laysAgain.holds rfl
  obtain ⟨root, children⟩ := tree
  obtain ⟨_, _⟩ := result
  cases whole
  rfl

theorem mitigated (represents : arena.Represents tree) (calibration : Calibration) :
    Follows (arena.mitigated calibration) (tree.mitigated calibration) := by
  obtain ⟨shape, lays⟩ := represents
  exact (lays.mitigated calibration).imp (fun _ _ _ _ same => same)
    fun _ _ _ _ laysNext => ⟨shape, laysNext⟩

theorem collapseRecursion (represents : arena.Represents tree) :
    Follows arena.collapseRecursion tree.collapseRecursion := by
  obtain ⟨shape, lays⟩ := represents
  exact lays.collapseRecursion

theorem deepCopy (represents : arena.Represents tree) : arena.deepCopy.Represents tree := by
  obtain ⟨shape, lays⟩ := represents
  exact ⟨_, lays.deepCopy⟩

theorem mergeSiblings (represents : arena.Represents tree) :
    Follows arena.mergeSiblings tree.mergeSiblings := by
  obtain ⟨shape, lays⟩ := represents
  exact lays.mergeSiblings

/-- The strict merges are refused together, but several nodes may offend, and they are not come to
in the same order. -/
theorem mergeSiblingsStrict (represents : arena.Represents tree) :
    Matches (fun _ _ => True) Represents arena.mergeSiblingsStrict tree.mergeSiblingsStrict := by
  obtain ⟨shape, lays⟩ := represents
  exact lays.mergeSiblingsStrict

end Represents

/-- The arenas to which the operations lead from an event list. -/
inductive Reached (events : List Event) : Arena → Prop where
  | built {arena : Arena} (done : build events = .ok arena) : Reached events arena
  | mitigated {arena next : Arena} (reached : Reached events arena) (calibration : Calibration)
      (done : arena.mitigated calibration = .ok next) : Reached events next
  | collapsed {arena next : Arena} (reached : Reached events arena)
      (done : arena.collapseRecursion = .ok next) : Reached events next
  | copied {arena : Arena} (reached : Reached events arena) : Reached events arena.deepCopy
  | merged {arena next : Arena} (reached : Reached events arena)
      (done : arena.mergeSiblings = .ok next) : Reached events next
  | mergedStrictly {arena next : Arena} (reached : Reached events arena)
      (done : arena.mergeSiblingsStrict = .ok next) : Reached events next

/-- A reached arena represents a tree that the operations on trees lead to. -/
theorem Reached.exists_derived (reached : Reached events arena) :
    ∃ tree, arena.Represents tree ∧ CallTree.Derived events tree := by
  induction reached with
  | built done =>
      obtain ⟨tree, built, represents⟩ := (build_follows events).right_of_ok done
      exact ⟨tree, represents, .built built⟩
  | mitigated _ calibration done inductionHypothesis =>
      obtain ⟨tree, represents, derived⟩ := inductionHypothesis
      obtain ⟨result, mitigated, related⟩ := (represents.mitigated calibration).right_of_ok done
      exact ⟨result, related, .mitigated derived calibration mitigated⟩
  | collapsed _ done inductionHypothesis =>
      obtain ⟨tree, represents, derived⟩ := inductionHypothesis
      obtain ⟨result, collapsed, related⟩ := represents.collapseRecursion.right_of_ok done
      exact ⟨result, related, .collapsed derived collapsed⟩
  | copied _ inductionHypothesis =>
      obtain ⟨tree, represents, derived⟩ := inductionHypothesis
      exact ⟨tree, represents.deepCopy, derived⟩
  | merged _ done inductionHypothesis =>
      obtain ⟨tree, represents, derived⟩ := inductionHypothesis
      obtain ⟨result, merged, related⟩ := represents.mergeSiblings.right_of_ok done
      exact ⟨result, related, .merged derived merged⟩
  | mergedStrictly _ done inductionHypothesis =>
      obtain ⟨tree, represents, derived⟩ := inductionHypothesis
      obtain ⟨result, merged, related⟩ := represents.mergeSiblingsStrict.right_of_ok done
      exact ⟨result, related, .mergedStrictly derived merged⟩

/-- Every tree that the operations on trees lead to is represented by a reached arena. -/
theorem exists_reached_of_derived (derived : CallTree.Derived events tree) :
    ∃ arena, Reached events arena ∧ arena.Represents tree := by
  induction derived with
  | built done =>
      obtain ⟨arena, built, represents⟩ := (build_follows events).left_of_ok done
      exact ⟨arena, .built built, represents⟩
  | mitigated _ calibration done inductionHypothesis =>
      obtain ⟨arena, reached, represents⟩ := inductionHypothesis
      obtain ⟨next, mitigated, related⟩ := (represents.mitigated calibration).left_of_ok done
      exact ⟨next, .mitigated reached calibration mitigated, related⟩
  | collapsed _ done inductionHypothesis =>
      obtain ⟨arena, reached, represents⟩ := inductionHypothesis
      obtain ⟨next, collapsed, related⟩ := represents.collapseRecursion.left_of_ok done
      exact ⟨next, .collapsed reached collapsed, related⟩
  | merged _ done inductionHypothesis =>
      obtain ⟨arena, reached, represents⟩ := inductionHypothesis
      obtain ⟨next, merged, related⟩ := represents.mergeSiblings.left_of_ok done
      exact ⟨next, .merged reached merged, related⟩
  | mergedStrictly _ done inductionHypothesis =>
      obtain ⟨arena, reached, represents⟩ := inductionHypothesis
      obtain ⟨next, merged, related⟩ := represents.mergeSiblingsStrict.left_of_ok done
      exact ⟨next, .mergedStrictly reached merged, related⟩

/-- The operations lead to the same trees in arenas and outside of them. -/
theorem derived_iff :
    CallTree.Derived events tree ↔ ∃ arena, Reached events arena ∧ arena.Represents tree := by
  refine ⟨exists_reached_of_derived, ?_⟩
  rintro ⟨arena, reached, represents⟩
  obtain ⟨_, again, derived⟩ := reached.exists_derived
  rwa [represents.unique again]

end CallProfiler.Arena
