import CallProfiler.Width

/-!
# Faults and checked totals

Times, counts and levels are numbers kept within a machine width. Every sum of them goes
through this module, so a total that leaves its width is a `Fault`, never a wrapped number.
`Stop` keeps a fault apart from a refusal, which is a verdict on the input.
-/

namespace CallProfiler

/-- An operation that has no answer for its operands or at this moment. -/
inductive Fault where
  | addOverflow
  | subtractOverflow
  | multiplyOverflow
  | shiftOverflow
  | capacityOverflow
  | widthOutOfRange
  | allocAfterDrain
  | reserveAfterDrain
deriving DecidableEq, Repr

/-- The wording of a fault. -/
def Fault.message : Fault → String
  | .addOverflow => "attempt to add with overflow"
  | .subtractOverflow => "attempt to subtract with overflow"
  | .multiplyOverflow => "attempt to multiply with overflow"
  | .shiftOverflow => "attempt to shift left with overflow"
  | .capacityOverflow => "capacity overflow"
  | .widthOutOfRange => "Formatting argument out of range"
  | .allocAfterDrain => "alloc_item after drain"
  | .reserveAfterDrain => "reserve after drain"

/-- The two ways in which a computation ends without a value. -/
inductive Stop (Reason : Type) where
  | fault (fault : Fault)
  | refused (reason : Reason)
deriving DecidableEq, Repr

/-- A fault stays a fault where refusals are possible too. -/
def Stop.ofFault {Reason α : Type} : Except Fault α → Except (Stop Reason) α
  | .ok value => .ok value
  | .error reached => .error (.fault reached)

instance {Reason : Type} : MonadLift (Except Fault) (Except (Stop Reason)) where
  monadLift := Stop.ofFault

/-- Refuse for a reason. -/
def refuse {Reason α : Type} (reason : Reason) : Except (Stop Reason) α :=
  .error (.refused reason)

/-- Restate the reason of a refusal; values and faults stay as they are. -/
def Stop.restate {Reason Other α : Type} (wording : Reason → Other) :
    Except (Stop Reason) α → Except (Stop Other) α
  | .ok value => .ok value
  | .error (.fault reached) => .error (.fault reached)
  | .error (.refused reason) => .error (.refused (wording reason))

namespace Checked

/-- The sum of two unsigned numbers, if it fits `width` bits. -/
def add (width left right : Nat) : Except Fault Nat :=
  if left + right < Width.bound width then .ok (left + right) else .error .addOverflow

/-- The sum of a list, without regard to any width. -/
def total (values : List Nat) : Nat := values.foldr (· + ·) 0

/-- The sum of a list, from the left, if every partial sum fits `width` bits. -/
def sum (width : Nat) (values : List Nat) : Except Fault Nat :=
  values.foldlM (add width) 0

/-- The difference of two unsigned numbers, if the second is not the larger one. -/
def subtract (left right : Nat) : Except Fault Nat :=
  if right ≤ left then .ok (left - right) else .error .subtractOverflow

/-- The product of two unsigned numbers, if it fits `width` bits. -/
def multiply (width left right : Nat) : Except Fault Nat :=
  if left * right < Width.bound width then .ok (left * right) else .error .multiplyOverflow

/-- The sum of two signed numbers, if it fits `width` bits. -/
def addSigned (width : Nat) (left right : Int) : Except Fault Int :=
  if Width.fitsSigned width (left + right) then .ok (left + right) else .error .addOverflow

/-- The difference of two signed numbers, if it fits `width` bits. -/
def subtractSigned (width : Nat) (left right : Int) : Except Fault Int :=
  if Width.fitsSigned width (left - right) then .ok (left - right) else .error .subtractOverflow

@[simp] theorem total_nil : total [] = 0 := rfl

@[simp] theorem total_cons (value : Nat) (rest : List Nat) :
    total (value :: rest) = value + total rest := rfl

theorem add_eq_ok_iff {width left right result : Nat} :
    add width left right = .ok result ↔
      left + right < Width.bound width ∧ result = left + right := by
  unfold add
  split
  · simp_all [eq_comm]
  · simp only [reduceCtorEq, false_iff]
    omega

theorem foldlM_add_eq_ok_iff {width start result : Nat} {values : List Nat}
    (fits : start < Width.bound width) :
    values.foldlM (add width) start = .ok result ↔
      start + total values < Width.bound width ∧ result = start + total values := by
  induction values generalizing start with
  | nil => simp [pure, Except.pure, fits, eq_comm]
  | cons value rest inductionHypothesis =>
      by_cases next : start + value < Width.bound width
      · simp [List.foldlM_cons, add, next, bind, Except.bind, inductionHypothesis next,
          Nat.add_assoc]
      · simp [List.foldlM_cons, add, next, bind, Except.bind]
        omega

/-- A sum succeeds exactly when the total fits. -/
theorem sum_eq_ok_iff {width result : Nat} {values : List Nat} :
    sum width values = .ok result ↔
      total values < Width.bound width ∧ result = total values := by
  simpa [sum] using @foldlM_add_eq_ok_iff width 0 result values (Width.bound_pos width)

end Checked

end CallProfiler
