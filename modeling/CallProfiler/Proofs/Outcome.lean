import CallProfiler.Fault
import Mathlib.Algebra.GroupWithZero.Nat

/-!
# Outcomes

How a computation that may stop comes to a value: every part of it came to one. `Keeps` and
`Adds` follow what such computations leave alone and add up, from one step to all of them.
-/

namespace CallProfiler

theorem bind_eq_ok_iff {ε α β : Type} {first : Except ε α} {next : α → Except ε β} {result : β} :
    first >>= next = .ok result ↔ ∃ value, first = .ok value ∧ next value = .ok result := by
  cases first with
  | error reason => simp [bind, Except.bind]
  | ok value => simp [bind, Except.bind]

theorem mapError_eq_ok_iff {ε δ α : Type} {computation : Except ε α} {restate : ε → δ}
    {result : α} : computation.mapError restate = .ok result ↔ computation = .ok result := by
  cases computation with
  | error reason =>
      constructor <;> intro impossible <;> cases impossible
  | ok value =>
      constructor <;> intro same <;> cases same <;> rfl

theorem map_eq_ok_iff {ε α β : Type} {computation : Except ε α} {transform : α → β} {result : β} :
    computation.map transform = .ok result ↔
      ∃ value, computation = .ok value ∧ transform value = result := by
  cases computation with
  | error reason => simp [Except.map]
  | ok value => simp [Except.map]

theorem bind_eq_error_iff {ε α β : Type} {first : Except ε α} {next : α → Except ε β}
    {reason : ε} : first >>= next = .error reason ↔
      first = .error reason ∨ ∃ value, first = .ok value ∧ next value = .error reason := by
  cases first with
  | error reason => simp [bind, Except.bind]
  | ok value => simp [bind, Except.bind]

theorem ok_bind {ε α β : Type} (value : α) (next : α → Except ε β) :
    (.ok value >>= next) = next value := rfl

/-- Where the parts come to values, so does the whole. -/
theorem exists_ok_bind {ε α β : Type} {first : Except ε α} {next : α → Except ε β} {value : α}
    (head : first = .ok value) (tail : ∃ result, next value = .ok result) :
    ∃ result, first >>= next = .ok result :=
  tail.imp fun _ done => bind_eq_ok_iff.2 ⟨value, head, done⟩

theorem mapError_eq_error_iff {ε δ α : Type} {computation : Except ε α} {restate : ε → δ}
    {reason : δ} : computation.mapError restate = .error reason ↔
      ∃ cause, computation = .error cause ∧ restate cause = reason := by
  cases computation with
  | error cause =>
      constructor
      · intro same
        cases same
        exact ⟨cause, rfl, rfl⟩
      · rintro ⟨_, ⟨⟩, rfl⟩
        rfl
  | ok value =>
      constructor
      · intro impossible
        cases impossible
      · rintro ⟨_, ⟨⟩, _⟩

theorem restate_eq_ok_iff {Reason Other α : Type} {wording : Reason → Other}
    {computation : Except (Stop Reason) α} {value : α} :
    Stop.restate wording computation = .ok value ↔ computation = .ok value := by
  rcases computation with (fault | reason) | result
  · constructor <;> rintro ⟨⟩
  · constructor <;> rintro ⟨⟩
  · constructor <;> rintro ⟨⟩ <;> rfl

/-- A refusal is one in other words, and no fault. -/
theorem restate_eq_refuse_iff {Reason Other α : Type} {wording : Reason → Other}
    {computation : Except (Stop Reason) α} {other : Other} :
    Stop.restate wording computation = refuse other ↔
      ∃ reason, computation = refuse reason ∧ wording reason = other := by
  rcases computation with (fault | reason) | result
  · constructor
    · rintro ⟨⟩
    · rintro ⟨_, ⟨⟩, _⟩
  · constructor
    · rintro ⟨⟩
      exact ⟨reason, rfl, rfl⟩
    · rintro ⟨_, ⟨⟩, rfl⟩
      rfl
  · constructor
    · rintro ⟨⟩
    · rintro ⟨_, ⟨⟩, _⟩

/-! ## Computations over a list -/

section Lists

variable {ε α β : Type} {each : α → Except ε β} {values : List α}

/-- Every result is that of one of the values. -/
theorem of_mem_mapM {results : List β} (done : values.mapM each = .ok results) {result : β}
    (member : result ∈ results) : ∃ value ∈ values, each value = .ok result := by
  induction values generalizing results with
  | nil =>
      cases done
      cases member
  | cons value rest inductionHypothesis =>
      rw [List.mapM_cons] at done
      obtain ⟨first, head, done⟩ := bind_eq_ok_iff.1 done
      obtain ⟨others, tail, same⟩ := bind_eq_ok_iff.1 done
      cases same
      rcases List.mem_cons.1 member with rfl | later
      · exact ⟨value, List.mem_cons_self, head⟩
      · obtain ⟨source, inRest, along⟩ := inductionHypothesis tail later
        exact ⟨source, List.mem_cons_of_mem value inRest, along⟩

/-- A list stops where one of its values does. -/
theorem exists_of_mapM_eq_error {reason : ε} (stopped : values.mapM each = .error reason) :
    ∃ value ∈ values, each value = .error reason := by
  induction values with
  | nil => cases stopped
  | cons value rest inductionHypothesis =>
      rw [List.mapM_cons] at stopped
      rcases bind_eq_error_iff.1 stopped with head | ⟨first, _, stopped⟩
      · exact ⟨value, List.mem_cons_self, head⟩
      · rcases bind_eq_error_iff.1 stopped with tail | ⟨others, _, impossible⟩
        · obtain ⟨source, inRest, along⟩ := inductionHypothesis tail
          exact ⟨source, List.mem_cons_of_mem value inRest, along⟩
        · cases impossible

/-- A list has results if each of its values has one. -/
theorem exists_mapM_eq_ok_iff : (∃ results, values.mapM each = .ok results) ↔
    ∀ value ∈ values, ∃ result, each value = .ok result := by
  constructor
  · rintro ⟨results, done⟩
    induction values generalizing results with
    | nil => nofun
    | cons value rest inductionHypothesis =>
        rw [List.mapM_cons] at done
        obtain ⟨first, head, done⟩ := bind_eq_ok_iff.1 done
        obtain ⟨others, tail, _⟩ := bind_eq_ok_iff.1 done
        exact List.forall_mem_cons.2 ⟨⟨first, head⟩, inductionHypothesis others tail⟩
  · intro all
    cases outcome : values.mapM each with
    | ok results => exact ⟨results, rfl⟩
    | error reason =>
        obtain ⟨value, member, stopped⟩ := exists_of_mapM_eq_error outcome
        obtain ⟨result, done⟩ := all value member
        rw [done] at stopped
        cases stopped

/-- Checks of several values succeed together, or one of them fails. -/
theorem forM_cases (check : α → Except ε Unit) (values : List α) :
    (values.forM check = .ok () ∧ ∀ value ∈ values, check value = .ok ()) ∨
      ∃ reason, values.forM check = .error reason ∧
        ∃ value ∈ values, check value = .error reason := by
  induction values with
  | nil => exact .inl ⟨rfl, nofun⟩
  | cons value rest inductionHypothesis =>
      have first : (value :: rest).forM check = check value >>= fun _ => rest.forM check := rfl
      rw [first, List.forall_mem_cons]
      cases own : check value with
      | error reason => exact .inr ⟨reason, rfl, value, List.mem_cons_self, own⟩
      | ok checked =>
          rcases inductionHypothesis with ⟨done, all⟩ | ⟨reason, stopped, other, member, failing⟩
          · exact .inl ⟨done, rfl, all⟩
          · exact .inr ⟨reason, stopped, other, List.mem_cons_of_mem value member, failing⟩

end Lists

/-! ## Steps taken one after the other -/

section Steps

variable {ε State Value : Type} {step : State → Value → Except ε State} {first last : State}
  {values : List Value}

/-- Every step leaves something as it was. -/
def Keeps {β : Type} (step : State → Value → Except ε State) (observe : State → β) : Prop :=
  ∀ ⦃state : State⦄ ⦃value : Value⦄ ⦃next : State⦄,
    step state value = .ok next → observe next = observe state

/-- Every step adds to a quantity what the value amounts to. -/
def Adds (step : State → Value → Except ε State) (quantity : State → Nat) (amount : Value → Nat) :
    Prop :=
  ∀ ⦃state : State⦄ ⦃value : Value⦄ ⦃next : State⦄,
    step state value = .ok next → quantity next = quantity state + amount value

/-- Where every step leaves something as it was, all of them do. -/
theorem Keeps.foldlM {β : Type} {observe : State → β} (keeps : Keeps step observe)
    (done : values.foldlM step first = .ok last) : observe last = observe first := by
  induction values generalizing first with
  | nil =>
      cases done
      rfl
  | cons value rest inductionHypothesis =>
      rw [List.foldlM_cons] at done
      obtain ⟨middle, head, tail⟩ := bind_eq_ok_iff.1 done
      rw [inductionHypothesis tail, keeps head]

/-- What every step preserves, all of them do. -/
theorem preserved_of_foldlM {good : State → Prop}
    (preserves : ∀ state, ∀ value ∈ values, ∀ next, good state → step state value = .ok next →
      good next)
    (start : good first) (done : values.foldlM step first = .ok last) : good last := by
  induction values generalizing first with
  | nil =>
      cases done
      exact start
  | cons value rest inductionHypothesis =>
      rw [List.foldlM_cons] at done
      obtain ⟨middle, head, tail⟩ := bind_eq_ok_iff.1 done
      exact inductionHypothesis
        (fun state other member => preserves state other (List.mem_cons_of_mem value member))
        (preserves first value List.mem_cons_self middle start head) tail

/-- Where every step can also be taken on images of its state and value, all of them can. -/
theorem foldlM_map_eq_ok {Image Seen : Type} {imageStep : Image → Seen → Except ε Image}
    {image : State → Image} {seen : Value → Seen}
    (each : ∀ state value next, step state value = .ok next →
      imageStep (image state) (seen value) = .ok (image next))
    (done : values.foldlM step first = .ok last) :
    (values.map seen).foldlM imageStep (image first) = .ok (image last) := by
  induction values generalizing first with
  | nil =>
      cases done
      rfl
  | cons value rest inductionHypothesis =>
      rw [List.foldlM_cons] at done
      obtain ⟨middle, head, tail⟩ := bind_eq_ok_iff.1 done
      rw [List.map_cons, List.foldlM_cons]
      exact bind_eq_ok_iff.2 ⟨image middle, each first value middle head, inductionHypothesis tail⟩

/-- What the steps add together. -/
theorem Adds.foldlM {quantity : State → Nat} {amount : Value → Nat}
    (adds : Adds step quantity amount) (done : values.foldlM step first = .ok last) :
    quantity last = quantity first + (values.map amount).sum := by
  induction values generalizing first with
  | nil =>
      cases done
      simp
  | cons value rest inductionHypothesis =>
      rw [List.foldlM_cons] at done
      obtain ⟨middle, head, tail⟩ := bind_eq_ok_iff.1 done
      rw [inductionHypothesis tail, adds head, List.map_cons, List.sum_cons, Nat.add_assoc]

end Steps

namespace Stop

theorem ofFault_eq_ok_iff {Reason α : Type} {computation : Except Fault α} {result : α} :
    (ofFault computation : Except (Stop Reason) α) = .ok result ↔ computation = .ok result := by
  cases computation with
  | error reached => simp [ofFault]
  | ok value => simp [ofFault]

theorem ofFault_eq_fault_iff {Reason α : Type} {computation : Except Fault α} {reached : Fault} :
    (ofFault computation : Except (Stop Reason) α) = .error (.fault reached) ↔
      computation = .error reached := by
  cases computation with
  | error other => simp [ofFault]
  | ok value => simp [ofFault]

/-- A computation that comes to a value or a refusal. -/
def Completes {Reason α : Type} (computation : Except (Stop Reason) α) : Prop :=
  ∀ reached, computation ≠ .error (.fault reached)

/-- What a computation that completes does first it does to the end. -/
theorem Completes.of_bind {Reason α β : Type} {first : Except (Stop Reason) α}
    {next : α → Except (Stop Reason) β} (completes : Completes (first >>= next)) :
    Completes first := by
  rintro reached rfl
  exact completes reached rfl

theorem Completes.bind {Reason α β : Type} {first : Except (Stop Reason) α}
    {next : α → Except (Stop Reason) β} (head : Completes first)
    (tail : ∀ value, first = .ok value → Completes (next value)) : Completes (first >>= next) := by
  intro reached stopped
  rcases bind_eq_error_iff.1 stopped with early | ⟨value, done, late⟩
  · exact head reached early
  · exact tail value done reached late

/-- Where only faults are possible, what completes comes to a value. -/
theorem Completes.exists_ok {Reason α β : Type} {first : Except Fault α}
    {next : α → Except (Stop Reason) β} (completes : Completes (ofFault first >>= next)) :
    ∃ value, first = .ok value ∧ Completes (next value) := by
  cases first with
  | error reached => exact absurd rfl (completes reached)
  | ok value => exact ⟨value, rfl, completes⟩

/-- Where only faults are possible nothing is refused. -/
theorem ofFault_ne_refused {Reason α : Type} {computation : Except Fault α} {reason : Reason} :
    (ofFault computation : Except (Stop Reason) α) ≠ .error (.refused reason) := by
  cases computation with
  | error reached => simp [ofFault]
  | ok value => simp [ofFault]

end Stop

/-! ## Two computations side by side -/

/-- Two computations stop for reasons that are alike, or come to values that belong together. -/
inductive Matches {ε δ α β : Type} (alike : ε → δ → Prop) (related : α → β → Prop) :
    Except ε α → Except δ β → Prop
  | stopped {reason : ε} {other : δ} (same : alike reason other) :
      Matches alike related (.error reason) (.error other)
  | done {left : α} {right : β} (belong : related left right) :
      Matches alike related (.ok left) (.ok right)

namespace Matches

variable {ε δ α β γ κ : Type} {alike : ε → δ → Prop} {related : α → β → Prop}
  {first : Except ε α} {second : Except δ β}

theorem bind {further : γ → κ → Prop} {next : α → Except ε γ} {other : β → Except δ κ}
    (head : Matches alike related first second)
    (tail : ∀ left right, related left right → Matches alike further (next left) (other right)) :
    Matches alike further (first >>= next) (second >>= other) := by
  cases head with
  | stopped same => exact .stopped same
  | done belong => exact tail _ _ belong

/-- What is asked first on both sides may be the same question. -/
theorem bind_same {further : γ → κ → Prop} {question : Except ε α} {next : α → Except ε γ}
    {other : α → Except ε κ} (tail : ∀ answer, question = .ok answer →
      Matches Eq further (next answer) (other answer)) :
    Matches Eq further (question >>= next) (question >>= other) := by
  cases question with
  | error reason => exact .stopped rfl
  | ok answer => exact tail answer rfl

/-- What the second side still does to its value, the first may have done already. -/
theorem bind_pure {further : α → κ → Prop} {wrap : β → κ}
    (matching : Matches alike related first second)
    (wraps : ∀ left right, related left right → further left (wrap right)) :
    Matches alike further first (second >>= fun right => pure (wrap right)) := by
  cases matching with
  | stopped same => exact .stopped same
  | done belong => exact .done (wraps _ _ belong)

/-- What the second side still does to its value may be left to what belongs together. -/
theorem of_bind_pure {further : α → κ → Prop} {wrap : β → κ}
    (matching : Matches alike further first (second >>= fun right => pure (wrap right))) :
    Matches alike (fun left right => further left (wrap right)) first second := by
  cases second with
  | error other =>
      cases matching with
      | stopped same => exact .stopped same
  | ok right =>
      cases matching with
      | done belong => exact .done belong

/-- What is known of the reasons and the values makes other ones of them. -/
theorem imp {other : ε → δ → Prop} {further : α → β → Prop}
    (matching : Matches alike related first second)
    (reasons : ∀ left right, first = .error left → second = .error right → alike left right →
      other left right)
    (values : ∀ left right, first = .ok left → second = .ok right → related left right →
      further left right) :
    Matches other further first second := by
  cases matching with
  | stopped same => exact .stopped (reasons _ _ rfl rfl same)
  | done belong => exact .done (values _ _ rfl rfl belong)

/-- Two computations match if neither comes to a value. -/
theorem of_stopped {reason : ε} (stopped : first = .error reason)
    (never : ∀ right, second ≠ .ok right) (same : ∀ other, alike reason other) :
    Matches alike related first second := by
  subst stopped
  cases second with
  | error other => exact .stopped (same other)
  | ok right => exact absurd rfl (never right)

/-- Where the second side has come to a value, so has the first. -/
theorem left_of_ok {right : β} (matching : Matches alike related first second)
    (done : second = .ok right) : ∃ left, first = .ok left ∧ related left right := by
  subst done
  cases matching with
  | done belong => exact ⟨_, rfl, belong⟩

/-- Where the second side has stopped, so has the first. -/
theorem left_of_error {other : δ} (matching : Matches alike related first second)
    (stopped : second = .error other) : ∃ reason, first = .error reason ∧ alike reason other := by
  subst stopped
  cases matching with
  | stopped same => exact ⟨_, rfl, same⟩

/-- Where the first side has come to a value, so has the second. -/
theorem right_of_ok {left : α} (matching : Matches alike related first second)
    (done : first = .ok left) : ∃ right, second = .ok right ∧ related left right := by
  subst done
  cases matching with
  | done belong => exact ⟨_, rfl, belong⟩

theorem mapError {other : Except ε β} (matching : Matches Eq related first other)
    (restate : ε → κ) :
    Matches Eq related (first.mapError restate) (other.mapError restate) := by
  cases matching with
  | stopped same => exact .stopped (congrArg restate same)
  | done belong => exact .done belong

theorem ofFault {Reason : Type} {first : Except Fault α} {second : Except Fault β}
    (matching : Matches Eq related first second) :
    Matches Eq related (Stop.ofFault first : Except (Stop Reason) α) (Stop.ofFault second) := by
  cases matching with
  | stopped same => exact .stopped (congrArg Stop.fault same)
  | done belong => exact .done belong

end Matches

namespace Checked

/-- The sum of a list, without regard to any width, is the library's sum. -/
theorem total_eq_sum (values : List Nat) : total values = values.sum := rfl

theorem lt_bound_of_add {width left right result : Nat} (done : add width left right = .ok result) :
    result < Width.bound width := by
  obtain ⟨fits, rfl⟩ := add_eq_ok_iff.1 done
  exact fits

theorem subtract_eq_ok_iff {left right result : Nat} :
    subtract left right = .ok result ↔ right ≤ left ∧ result = left - right := by
  unfold subtract
  split
  · simp_all [eq_comm]
  · simp only [reduceCtorEq, false_iff]
    omega

theorem subtractSigned_eq_ok_iff {width : Nat} {left right result : Int} :
    subtractSigned width left right = .ok result ↔
      Width.fitsSigned width (left - right) = true ∧ result = left - right := by
  unfold subtractSigned
  split
  · rename_i fits
    simp [fits, eq_comm]
  · rename_i narrow
    simp [narrow]

/-- A computation that can fail only by a sum that leaves its width. -/
def Overflows {α : Type} (computation : Except Fault α) : Prop :=
  ∀ reached, computation = .error reached → reached = .addOverflow

namespace Overflows

variable {α β : Type}

theorem ok (value : α) : Overflows (.ok value : Except Fault α) := by
  intro reached failed
  cases failed

theorem bind {first : Except Fault α} {next : α → Except Fault β} (head : Overflows first)
    (tail : ∀ value, Overflows (next value)) : Overflows (first >>= next) := by
  intro reached failed
  cases first with
  | error reason =>
      cases failed
      exact head _ rfl
  | ok value => exact tail value reached failed

theorem add (width left right : Nat) : Overflows (Checked.add width left right) := by
  intro reached failed
  unfold Checked.add at failed
  split at failed
  · cases failed
  · cases failed
    rfl

theorem foldlM {step : β → α → Except Fault β} (each : ∀ state value, Overflows (step state value))
    (values : List α) (state : β) : Overflows (values.foldlM step state) := by
  induction values generalizing state with
  | nil => exact ok state
  | cons value rest inductionHypothesis =>
      rw [List.foldlM_cons]
      exact (each state value).bind inductionHypothesis

theorem sum (width : Nat) (values : List Nat) : Overflows (Checked.sum width values) :=
  foldlM (add width) values 0

/-- Where no sum leaves its width there is a value. -/
theorem exists_ok {computation : Except Fault α} (overflows : Overflows computation)
    (fits : computation ≠ .error .addOverflow) : ∃ value, computation = .ok value := by
  cases computation with
  | ok value => exact ⟨value, rfl⟩
  | error reached =>
      cases overflows reached rfl
      exact absurd rfl fits

end Overflows

end Checked

namespace Stop

/-- A computation that can be refused, and can fail only by a sum that leaves its width. -/
def Overflows {Reason α : Type} (computation : Except (Stop Reason) α) : Prop :=
  ∀ reached, computation = .error (.fault reached) → reached = .addOverflow

namespace Overflows

variable {Reason α β : Type}

theorem bind {first : Except (Stop Reason) α} {next : α → Except (Stop Reason) β}
    (head : Overflows first) (tail : ∀ value, Overflows (next value)) :
    Overflows (first >>= next) := by
  intro reached stopped
  rcases bind_eq_error_iff.1 stopped with early | ⟨value, _, late⟩
  · exact head reached early
  · exact tail value reached late

theorem ofFault {computation : Except Fault α} (overflows : Checked.Overflows computation) :
    Overflows (ofFault computation : Except (Stop Reason) α) :=
  fun reached stopped => overflows reached (ofFault_eq_fault_iff.1 stopped)

/-- What always comes to a value or a refusal never fails. -/
theorem of_completes {computation : Except (Stop Reason) α} (completes : Completes computation) :
    Overflows computation :=
  fun reached stopped => absurd stopped (completes reached)

end Overflows

end Stop

end CallProfiler
