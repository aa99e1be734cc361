import CallProfiler.CallTree.Build
import CallProfiler.Proofs.Outcome

/-!
# What the stack of open events holds

Following an event list keeps a stack of open events. It always holds one event for each level
from zero to the latest one (`Leveled`), so closing what is too deep leaves as many events as the
next level says, or too few. Hence `check`, which only compares levels with the number of open
events, says the same as `follow`, and no level ever leaves its width (`completes_follow`).
-/

namespace CallProfiler

namespace OpenPath

/-- The open events around an event at this level, if the level is not too deep. -/
def around? (path : OpenPath) (level : Int32) : Option OpenPath :=
  if 0 ≤ level.toInt ∧ level.toInt ≤ path.length then
    some (path.drop (path.length - level.toInt.toNat))
  else none

/-- Refuse the first event of a list that has no place or changes the clock. -/
def check (path : OpenPath) (index : Nat) : List Event → Except AnalysisError Unit
  | [] => .ok ()
  | event :: rest =>
    match path.around? event.level with
    | none => .error (.brokenEventList index event.name event.level)
    | some outer =>
      match outer.head? with
      | none => check (event :: outer) (index + 1) rest
      | some parent =>
        if event.processClock && !parent.processClock then
          .error (.clockKindChange parent.name event.name)
        else check (event :: outer) (index + 1) rest

/-- What stays open around an event are the outermost of the open events, as many as its level
says. -/
theorem reverse_of_around {path outer : OpenPath} {level : Int32}
    (around : path.around? level = some outer) :
    ∃ depth : Nat, level.toInt = depth ∧ depth ≤ path.length ∧ outer.length = depth ∧
      outer.reverse = path.reverse.take depth := by
  rw [around?] at around
  split at around
  · rename_i fits
    cases around
    refine ⟨level.toInt.toNat, by omega, by omega, ?_, ?_⟩
    · rw [List.length_drop]
      omega
    · rw [List.reverse_drop]
      congr 1
      omega
  · cases around

/-- Every open event is at the level that the number of events around it says. -/
inductive Leveled : OpenPath → Prop where
  | nil : Leveled []
  | cons {event : Event} {outer : OpenPath} (level : event.level.toInt = outer.length)
      (around : Leveled outer) : Leveled (event :: outer)

namespace Leveled

variable {path : OpenPath}

theorem level_eq (leveled : Leveled path) : path.level = path.length - 1 := by
  cases leveled with
  | nil => rfl
  | cons level around =>
      rw [OpenPath.level, List.head?_cons, Option.elim_some, level, List.length_cons]
      omega

theorem drop (leveled : Leveled path) (count : Nat) : Leveled (path.drop count) := by
  induction leveled generalizing count with
  | nil =>
      rw [List.drop_nil]
      exact .nil
  | cons level around inductionHypothesis =>
      cases count with
      | zero => exact .cons level around
      | succ count => exact inductionHypothesis count

/-- What is closed for an event is what lies deeper than its level counts. -/
theorem dropWhile_eq_drop (leveled : Leveled path) {level : Int} (nonnegative : 0 ≤ level) :
    path.dropWhile (fun other => level ≤ other.level.toInt) =
      path.drop (path.length - level.toNat) := by
  induction leveled with
  | nil => rw [List.dropWhile_nil, List.drop_nil]
  | @cons event outer own around inductionHypothesis =>
      by_cases closed : level ≤ event.level.toInt
      · have count : (event :: outer).length - level.toNat =
            (outer.length - level.toNat) + 1 := by
          rw [List.length_cons]
          omega
        rw [List.dropWhile_cons_of_pos (by simpa using closed), count, List.drop_succ_cons]
        exact inductionHypothesis
      · have count : (event :: outer).length - level.toNat = 0 := by
          rw [List.length_cons]
          omega
        rw [List.dropWhile_cons_of_neg (by simpa using closed), count, List.drop_zero]

/-- Closing leaves the event one level below the innermost open event just where its level does
not exceed the number of open events. The sum is no larger than the event's own level. -/
theorem settle_eq (leveled : Leveled path) (level : Int32) :
    path.settle level = .ok (path.around? level) := by
  rw [settle, around?]
  split
  · rename_i above
    have negative : ¬ (0 ≤ level.toInt ∧ level.toInt ≤ path.length) := by
      have rootLevel : Node.root.level = -1 := rfl
      omega
    rw [if_neg negative]
  · rename_i below
    have nonnegative : 0 ≤ level.toInt := by
      have rootLevel : Node.root.level = -1 := rfl
      omega
    rw [leveled.dropWhile_eq_drop nonnegative]
    generalize remaining : path.drop (path.length - level.toInt.toNat) = outer
    have outerLeveled : Leveled outer := remaining ▸ leveled.drop _
    have count : outer.length = min level.toInt.toNat path.length := by
      rw [← remaining, List.length_drop]
      omega
    have sum : OpenPath.level outer + 1 = outer.length := by
      rw [outerLeveled.level_eq]
      omega
    have fits : Width.fitsSigned 32 (OpenPath.level outer + 1) = true := by
      rw [sum, Width.fitsSigned_natCast]
      have bound := level.toInt_lt
      show outer.length < 1 <<< 31
      omega
    have added : Checked.addSigned 32 (OpenPath.level outer) 1 = .ok (outer.length : Int) := by
      rw [Checked.addSigned, if_pos fits, sum]
    have same : level.toInt = outer.length ↔ 0 ≤ level.toInt ∧ level.toInt ≤ path.length := by
      omega
    simp only [added, bind, Except.bind, pure, Except.pure, same]

/-- An event that has found its place is open at the level that the number of events around it
says. -/
theorem step (leveled : Leveled path) {event : Event} {outer : OpenPath}
    (around : path.around? event.level = some outer) : Leveled (event :: outer) := by
  rw [around?] at around
  split at around
  · rename_i fits
    cases around
    refine .cons ?_ (leveled.drop _)
    rw [List.length_drop]
    omega
  · cases around

/-- Following the open events by their levels is following them by their number. -/
theorem follow_eq (leveled : Leveled path) (index : Nat) (events : List Event) :
    path.follow index events = (path.check index events).mapError .refused := by
  induction events generalizing path index with
  | nil => rfl
  | cons event rest inductionHypothesis =>
      rw [follow, check, leveled.settle_eq]
      cases around : path.around? event.level with
      | none => rfl
      | some outer =>
          have next := inductionHypothesis (leveled.step around) (index + 1)
          simp only [liftM, monadLift, MonadLift.monadLift, Stop.ofFault, ok_bind]
          cases outer.head? with
          | none => exact next
          | some parent =>
              dsimp only
              split
              · rfl
              · exact next

end Leveled

theorem follow_eq_check (events : List Event) :
    follow [] 0 events = (check [] 0 events).mapError .refused :=
  Leveled.nil.follow_eq 0 events

/-- Following a list comes to an end or to a refusal: no level leaves its width. -/
theorem completes_follow (events : List Event) : Stop.Completes (follow [] 0 events) := by
  intro reached stopped
  rw [follow_eq_check] at stopped
  obtain ⟨cause, _, impossible⟩ := mapError_eq_error_iff.1 stopped
  cases impossible

end OpenPath

namespace CallTree

/-- A tree is built from a list that passes the check. -/
theorem build_eq (events : List Event) :
    build events = (do
      (OpenPath.check [] 0 events).mapError .refused
      let raw : CallTree := ⟨.root, .ofEvents events⟩
      let merged ← raw.mergeSiblingsStrict
      let totalled ← merged.withRootTotals
      totalled.markFrameThread.mapError .refused) := by
  rw [build, OpenPath.follow_eq_check]

end CallTree

end CallProfiler
