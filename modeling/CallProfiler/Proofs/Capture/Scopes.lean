import CallProfiler.Capture.Scope
import CallProfiler.Proofs.Capture.Delivery
import CallProfiler.Proofs.Outcome
import Mathlib.Data.List.Perm.Basic

/-!
# Scopes and flushes

A thread enters scopes, leaves the one that it entered last, and is flushed at any time, also
inside scopes. A guard knows no more than a slot, and a flush gives the recorder up for which the
slot was meant; the recorder that the thread has by the time a scope is left may have put another
interval there. `run_handsOff` says what comes of it: the guard closes nothing then, but it
poisons that recorder, and all that the thread recorded since the flush is lost. Where no guard
meets another interval in its slot, all scopes that were entered and left since the flush are
handed off.
-/

namespace CallProfiler.Capture

/-- No closing leads a recorder out of the depths that it can count. -/
theorem Recorder.pop_fits {recorder : Recorder}
    (fits : Width.fitsSigned 32 recorder.depth = true) (handle : Handle) (now : Reading) :
    Width.fitsSigned 32 (recorder.pop handle now).1.depth = true := by
  rw [pop]
  split
  · exact fits
  · split
    · exact fits
    · rename_i counted
      obtain ⟨fitsNext, rfl⟩ := Checked.subtractSigned_eq_ok_iff.1 counted
      dsimp only
      split <;> exact fitsNext

namespace ThreadCapture

/-- A thread that was flushed goes on with a new recorder. -/
theorem flush_recorder (thread : ThreadCapture) :
    ∃ processClock, thread.flush.recorder = .new processClock := by
  obtain ⟨registry, _ | recorder⟩ := thread <;> exact ⟨_, rfl⟩

theorem flush_registry (thread : ThreadCapture) :
    thread.flush.registry = thread.registry.acceptHandOff thread.recorder.flush.2 := by
  obtain ⟨registry, _ | recorder⟩ := thread <;> rfl

end ThreadCapture

/-- What the program of a thread does with its scopes. It leaves no scope but the one that it is
in. -/
inductive ScopeAction where
  | enter (name : String) (frame : Bool) (now : Reading)
  | leave (now : Reading)
  | flush
deriving DecidableEq, Repr

/-- A thread with its scopes. -/
structure Scopes where
  thread : ThreadCapture
  /-- The scopes that the thread is in and that it entered since the latest flush, the innermost
  first, each with the record of its interval. -/
  inner : List (ScopeGuard × Record)
  /-- The guards of the scopes around them, which were entered before the flush. -/
  outer : List ScopeGuard
  /-- The intervals of the scopes entered and left since the flush. -/
  closed : List Record
  /-- How often since the flush a guard from before it met another interval in its slot. -/
  collisions : Nat

namespace Scopes

open Recorder (Opens Closes)

/-- A thread that is in no scope. -/
def start (registry : Registry) : Scopes := ⟨.new registry, [], [], [], 0⟩

/-- The recorder that the thread has now. -/
def recorder (scopes : Scopes) : Recorder := scopes.thread.recorder

/-- The interval of a scope that is entered now, as deep as there are scopes around it. -/
def interval (scopes : Scopes) (name : String) (frame : Bool) (now : Reading) : Record :=
  ⟨name, scopes.inner.length, frame, scopes.recorder.processClock, now, ⟨0, 0⟩, false⟩

/-- The slot of a guard is taken in the recorder that the thread has now. -/
def meets (scopes : Scopes) (guard : ScopeGuard) : Bool :=
  scopes.recorder.records[guard.handle.slot]?.isSome

/-- What a thread is in after an attempt to enter a scope. -/
def afterEnter (scopes : Scopes) (record : Record) (thread : ThreadCapture) :
    Except Fault ScopeGuard → Scopes
  | .ok guard => { scopes with thread, inner := (guard, record) :: scopes.inner }
  | .error _ => { scopes with thread }

def enter (scopes : Scopes) (name : String) (frame : Bool) (now : Reading) : Scopes :=
  let (thread, outcome) := scopes.thread.enter name frame now
  scopes.afterEnter (scopes.interval name frame now) thread outcome

def leave (scopes : Scopes) (now : Reading) : Scopes :=
  match scopes.inner, scopes.outer with
  | (guard, record) :: around, _ =>
    { scopes with
      thread := scopes.thread.leave guard now
      inner := around
      closed := scopes.closed ++ [record.close now] }
  | [], guard :: around =>
    { scopes with
      thread := scopes.thread.leave guard now
      outer := around
      collisions := scopes.collisions + (scopes.meets guard).toNat }
  | [], [] => scopes

def flush (scopes : Scopes) : Scopes :=
  ⟨scopes.thread.flush, [], scopes.inner.map (·.1) ++ scopes.outer, [], 0⟩

def act (scopes : Scopes) : ScopeAction → Scopes
  | .enter name frame now => scopes.enter name frame now
  | .leave now => scopes.leave now
  | .flush => scopes.flush

def run (scopes : Scopes) (actions : List ScopeAction) : Scopes := actions.foldl act scopes

variable {scopes : Scopes} {base : Int} {records after : List Record}
  {inner : List (ScopeGuard × Record)} {now : Reading}

/-! ## Scopes in each other -/

/-- The records of the scopes that a thread is in, from a base level on. -/
def Nested (records : List Record) (base : Int) : List (ScopeGuard × Record) → Prop
  | [] => True
  | (guard, record) :: around =>
    records[guard.handle.slot]? = some { record with level := base + around.length } ∧
      record.level = around.length ∧ record.complete = false ∧
      (∀ other ∈ around, other.1.handle.slot ≠ guard.handle.slot) ∧ Nested records base around

theorem Nested.of_same (nested : Nested records base inner)
    (same : ∀ scope ∈ inner, after[scope.1.handle.slot]? = records[scope.1.handle.slot]?) :
    Nested after base inner := by
  induction inner with
  | nil => trivial
  | cons scope around inductionHypothesis =>
      obtain ⟨found, level, incomplete, apart, others⟩ := nested
      refine ⟨(same scope List.mem_cons_self).trans found, level, incomplete, apart, ?_⟩
      exact inductionHypothesis others fun other member =>
        same other (List.mem_cons_of_mem scope member)

theorem Nested.slot_lt (nested : Nested records base inner) :
    ∀ scope ∈ inner, scope.1.handle.slot < records.length := by
  induction inner with
  | nil => nofun
  | cons scope around inductionHypothesis =>
      obtain ⟨found, _, _, _, others⟩ := nested
      exact List.forall_mem_cons.2
        ⟨(List.getElem?_eq_some_iff.1 found).1, inductionHypothesis others⟩

theorem Nested.append (nested : Nested records base inner) (more : List Record) :
    Nested (records ++ more) base inner :=
  nested.of_same fun scope member => List.getElem?_append_left (nested.slot_lt scope member)

/-- A record that is completed comes to the completed ones. -/
theorem filter_close_perm {slot : Nat} {record : Record} (found : records[slot]? = some record)
    (incomplete : record.complete = false) (now : Reading) :
    ((records.modify slot (Record.close now)).filter (·.complete)).Perm
      (records.filter (·.complete) ++ [record.close now]) := by
  induction records generalizing slot with
  | nil => cases found
  | cons head rest inductionHypothesis =>
      cases slot with
      | zero =>
          cases found
          rw [List.modify_zero_cons, List.filter_cons_of_pos rfl,
            List.filter_cons_of_neg (by simpa using incomplete)]
          exact (List.perm_append_singleton _ _).symm
      | succ slot =>
          rw [List.modify_succ_cons, List.filter_cons, List.filter_cons]
          have others := inductionHypothesis found
          split
          · exact others.cons head
          · exact others

/-! ## Programs -/

/-- What is true of a thread whose open intervals begin at a base level. -/
structure Sound (scopes : Scopes) (base : Int) : Prop where
  atWork : scopes.recorder.AtWork
  depth : scopes.recorder.depth = base + scopes.inner.length
  fits : Width.fitsSigned 32 scopes.recorder.depth = true
  baseFits : Width.fitsSigned 32 base = true
  levels : ∀ record ∈ scopes.recorder.records, base ≤ record.level
  nested : Nested scopes.recorder.records base scopes.inner
  poisoned : scopes.recorder.poisoned = true ↔ scopes.collisions ≠ 0
  closed : scopes.collisions = 0 →
    base = 0 ∧ (scopes.recorder.records.filter (·.complete)).Perm scopes.closed

/-- A thread with a new recorder, or with none, in no scope that it entered since. -/
theorem sound_of_new {processClock : Bool} (isNew : scopes.recorder = .new processClock)
    (inner : scopes.inner = []) (closed : scopes.closed = []) (collisions : scopes.collisions = 0) :
    scopes.Sound 0 := by
  constructor
  case atWork =>
    rw [isNew]
    exact Recorder.atWork_new processClock
  case depth =>
    rw [isNew, inner]
    rfl
  case fits =>
    rw [isNew]
    rfl
  case baseFits => rfl
  case levels => simp [isNew]
  case nested =>
    rw [inner]
    trivial
  case poisoned => simp [isNew, collisions, Recorder.new]
  case closed => simp [isNew, closed]

/-- Records of intervals that are opened now come after those there were. -/
theorem Sound.recorded {name : String} {frame : Bool} {next : Recorder} {more : List Record}
    (sound : scopes.Sound base) (records : next.records = scopes.recorder.records ++ more)
    (opened : ∀ record ∈ more, record = scopes.recorder.opening name frame now) :
    (∀ record ∈ next.records, base ≤ record.level) ∧ Nested next.records base scopes.inner ∧
      next.records.filter (·.complete) = scopes.recorder.records.filter (·.complete) := by
  rw [records]
  refine ⟨fun record member => ?_, sound.nested.append more, ?_⟩
  · rcases List.mem_append.1 member with older | latest
    · exact sound.levels record older
    · rw [opened record latest]
      show base ≤ scopes.recorder.depth
      rw [sound.depth]
      exact Int.le_add_of_nonneg_right (Int.natCast_nonneg _)
  · rw [List.filter_append, List.append_right_eq_self, List.filter_eq_nil_iff]
    intro record member
    rw [opened record member]
    exact Bool.false_ne_true

/-- A scope that is entered is the innermost one. -/
theorem Sound.afterEnter {name : String} {frame : Bool} {next : Recorder}
    {outcome : Except Fault Handle} (sound : scopes.Sound base) (atWork : next.AtWork)
    (opens : Opens scopes.recorder (scopes.recorder.opening name frame now) next outcome) :
    (scopes.afterEnter (scopes.interval name frame now)
      { scopes.thread with current := some next } (outcome.map ScopeGuard.mk)).Sound base := by
  cases opens with
  | opened records depth fits poisoned =>
      obtain ⟨levels, nested, completed⟩ :=
        @Sound.recorded scopes base now name frame next _ sound records (by simp)
      constructor
      case atWork => exact atWork
      case depth =>
        show next.depth = base + ((scopes.inner.length + 1 : Nat) : Int)
        rw [depth, sound.depth]
        omega
      case fits => exact fits
      case baseFits => exact sound.baseFits
      case levels => exact levels
      case nested =>
        refine ⟨?_, rfl, rfl, fun other member => ?_, nested⟩
        · show next.records[scopes.recorder.records.length]? = _
          simp [records, Recorder.opening, interval, sound.depth]
        · exact Nat.ne_of_lt (sound.nested.slot_lt other member)
      case poisoned => exact poisoned ▸ sound.poisoned
      case closed => exact fun none => completed ▸ sound.closed none
  | failed _ records depth poisoned =>
      have more : ∃ more, next.records = scopes.recorder.records ++ more ∧
          ∀ record ∈ more, record = scopes.recorder.opening name frame now := by
        rcases records with same | one
        · exact ⟨[], by simpa using same, by simp⟩
        · exact ⟨_, one, by simp⟩
      obtain ⟨more, records, opened⟩ := more
      obtain ⟨levels, nested, completed⟩ := sound.recorded records opened
      constructor
      case atWork => exact atWork
      case depth => exact depth.trans sound.depth
      case fits => exact depth ▸ sound.fits
      case baseFits => exact sound.baseFits
      case levels => exact levels
      case nested => exact nested
      case poisoned => exact poisoned ▸ sound.poisoned
      case closed => exact fun none => completed ▸ sound.closed none

theorem Sound.enter (sound : scopes.Sound base) (name : String) (frame : Bool) (now : Reading) :
    (scopes.enter name frame now).Sound base := by
  have opens := (Recorder.push_opens sound.atWork.live name frame now).2
  exact sound.afterEnter (sound.atWork.push name frame now) opens

/-- What lies between numbers that fit does so too. -/
theorem fitsSigned_of_between {width : Nat} {low value high : Int}
    (lowFits : Width.fitsSigned width low = true) (highFits : Width.fitsSigned width high = true)
    (above : low ≤ value) (below : value ≤ high) : Width.fitsSigned width value = true := by
  rw [Width.fitsSigned_iff] at lowFits highFits ⊢
  omega

/-- The guard of the innermost scope completes the record of that scope, and nothing else. -/
theorem Sound.closes {guard : ScopeGuard} {record : Record}
    {around : List (ScopeGuard × Record)} (sound : scopes.Sound base)
    (isInner : scopes.inner = (guard, record) :: around) (now : Reading) :
    let next := (scopes.recorder.pop guard.handle now).1
    next.AtWork ∧ next.depth = base + around.length ∧
      Width.fitsSigned 32 next.depth = true ∧
      next.records = scopes.recorder.records.modify guard.handle.slot (Record.close now) ∧
      next.poisoned = scopes.recorder.poisoned := by
  have depth := sound.depth
  rw [isInner, List.length_cons] at depth
  have nested := sound.nested
  rw [isInner] at nested
  have fits : Width.fitsSigned 32 (scopes.recorder.depth - 1) = true :=
    fitsSigned_of_between sound.baseFits sound.fits (by omega) (by omega)
  have atWork := sound.atWork.pop guard.handle now
  have closes := (Recorder.pop_closes sound.atWork.live guard.handle now).2
  generalize scopes.recorder.pop guard.handle now = result at atWork closes
  obtain ⟨next, outcome⟩ := result
  cases closes with
  | unknown missing =>
      rw [nested.1] at missing
      cases missing
  | uncounted narrow =>
      rw [fits] at narrow
      cases narrow
  | violated _ found other =>
      -- The scope was entered at the level that the depth goes back to.
      rw [nested.1] at found
      cases found
      exact absurd (by simp only; omega) other
  | closed _ _ records nextDepth nextFits poisoned =>
      exact ⟨atWork, by omega, nextFits, records, poisoned⟩

/-- The guard of a scope from before the flush closes nothing. If it meets another interval in
its slot it poisons the recorder. -/
theorem Sound.misses {guard : ScopeGuard} (sound : scopes.Sound base)
    (outside : scopes.inner = []) (now : Reading) :
    let next := (scopes.recorder.pop guard.handle now).1
    next.AtWork ∧ next.records = scopes.recorder.records ∧
      ((next.depth = base ∧ next.poisoned = scopes.recorder.poisoned ∧
          (scopes.meets guard = true → scopes.recorder.poisoned = true)) ∨
        (next.depth = base - 1 ∧ Width.fitsSigned 32 next.depth = true ∧ next.poisoned = true ∧
          scopes.meets guard = true)) := by
  have depth := sound.depth
  rw [outside, List.length_nil, Int.natCast_zero, Int.add_zero] at depth
  have atWork := sound.atWork.pop guard.handle now
  have closes := (Recorder.pop_closes sound.atWork.live guard.handle now).2
  have counted := Recorder.pop_fits sound.fits guard.handle now
  generalize scopes.recorder.pop guard.handle now = result at atWork closes counted
  obtain ⟨next, outcome⟩ := result
  cases closes with
  | unknown missing =>
      refine ⟨atWork, rfl, .inl ⟨depth, rfl, fun met => ?_⟩⟩
      rw [meets, missing] at met
      cases met
  | uncounted narrow =>
      -- Only a recorder that was poisoned before is as deep down as that.
      refine ⟨atWork, rfl, .inl ⟨depth, rfl, fun _ => ?_⟩⟩
      refine sound.poisoned.2 fun none => ?_
      rw [depth, (sound.closed none).1] at narrow
      cases narrow
  | violated _ found _ records nextDepth poisoned =>
      refine ⟨atWork, records, .inr ⟨by omega, counted, poisoned, ?_⟩⟩
      rw [meets, found]
      rfl
  | @closed _ record found innermost =>
      -- No record lies as low as the depth would have to go.
      have above := sound.levels record (List.mem_of_getElem? found)
      omega

/-- The thread is in the next scope when the innermost one is left. -/
theorem Sound.leaveInner {guard : ScopeGuard} {record : Record}
    {around : List (ScopeGuard × Record)} (sound : scopes.Sound base)
    (isInner : scopes.inner = (guard, record) :: around) (now : Reading) :
    Sound { scopes with
      thread := scopes.thread.leave guard now
      inner := around
      closed := scopes.closed ++ [record.close now] } base := by
  obtain ⟨atWork, depth, fits, records, poisoned⟩ := sound.closes isInner now
  have nested := sound.nested
  rw [isInner] at nested
  obtain ⟨found, level, incomplete, apart, others⟩ := nested
  constructor
  case atWork => exact atWork
  case depth => exact depth
  case fits => exact fits
  case baseFits => exact sound.baseFits
  case levels =>
    show ∀ record ∈ (scopes.recorder.pop guard.handle now).1.records, base ≤ record.level
    rw [records]
    exact forall_close (fun _ above => above) sound.levels guard.handle.slot
  case nested =>
    show Nested (scopes.recorder.pop guard.handle now).1.records base around
    rw [records]
    refine others.of_same fun other member => ?_
    simp [(apart other member).symm]
  case poisoned =>
    show (scopes.recorder.pop guard.handle now).1.poisoned = true ↔ _
    rw [poisoned]
    exact sound.poisoned
  case closed =>
    intro none
    obtain ⟨atZero, closed⟩ := sound.closed none
    refine ⟨atZero, ?_⟩
    rw [atZero, Int.zero_add, ← level] at found
    show ((scopes.recorder.pop guard.handle now).1.records.filter _).Perm
      (scopes.closed ++ [record.close now])
    rw [records]
    exact (filter_close_perm found incomplete now).trans (closed.append_right _)

/-- A scope from before the flush that is left takes the base level down if it poisons the
recorder. -/
theorem Sound.leaveOuter {guard : ScopeGuard} (sound : scopes.Sound base)
    (outside : scopes.inner = []) (around : List ScopeGuard) (now : Reading) :
    ∃ next, Sound { scopes with
      thread := scopes.thread.leave guard now
      outer := around
      collisions := scopes.collisions + (scopes.meets guard).toNat } next := by
  let next := (scopes.recorder.pop guard.handle now).1
  have inScope {level : Int} (depth : next.depth = level) :
      next.depth = level + scopes.inner.length := by
    rw [outside, depth, List.length_nil, Int.natCast_zero, Int.add_zero]
  obtain ⟨atWork, records, ⟨depth, poisoned, before⟩ | ⟨depth, fits, poisoned, met⟩⟩ :=
    @Sound.misses scopes base guard sound outside now
  · refine ⟨base, ?_⟩
    constructor
    case atWork => exact atWork
    case depth => exact inScope depth
    case fits => exact depth ▸ sound.baseFits
    case baseFits => exact sound.baseFits
    case levels => exact records ▸ sound.levels
    case nested => exact outside ▸ trivial
    case poisoned =>
      show next.poisoned = true ↔ _
      rw [poisoned, sound.poisoned]
      cases met : scopes.meets guard with
      | false => exact Iff.rfl
      | true => exact iff_of_true (sound.poisoned.1 (before met)) (Nat.succ_ne_zero _)
    case closed =>
      intro none
      exact records ▸ sound.closed (Nat.eq_zero_of_add_eq_zero_right none)
  · refine ⟨base - 1, ?_⟩
    constructor
    case atWork => exact atWork
    case depth => exact inScope depth
    case fits => exact fits
    case baseFits => exact depth ▸ fits
    case levels =>
      intro record member
      change record ∈ next.records at member
      rw [show next.records = _ from records] at member
      have above := sound.levels record member
      omega
    case nested => exact outside ▸ trivial
    case poisoned => exact iff_of_true poisoned (by simp [met])
    case closed => simp [met]

theorem Sound.leave (sound : scopes.Sound base) (now : Reading) :
    ∃ next, (scopes.leave now).Sound next := by
  rw [Scopes.leave]
  split
  · rename_i isInner
    exact ⟨base, sound.leaveInner isInner now⟩
  · rename_i isInner _
    exact sound.leaveOuter isInner _ now
  · exact ⟨base, sound⟩

theorem Sound.act (sound : scopes.Sound base) (action : ScopeAction) :
    ∃ next, (scopes.act action).Sound next := by
  cases action with
  | enter name frame now => exact ⟨base, sound.enter name frame now⟩
  | leave now => exact sound.leave now
  | flush =>
      obtain ⟨processClock, isNew⟩ := scopes.thread.flush_recorder
      exact ⟨0, sound_of_new isNew rfl rfl rfl⟩

theorem Sound.run (sound : scopes.Sound base) (actions : List ScopeAction) :
    ∃ next, (scopes.run actions).Sound next := by
  induction actions generalizing scopes base with
  | nil => exact ⟨base, sound⟩
  | cons action later inductionHypothesis =>
      obtain ⟨middle, soundMiddle⟩ := sound.act action
      exact inductionHypothesis soundMiddle

/-! ## What is handed off -/

/-- A thread that saw no collision hands off what it closed since the latest flush. -/
theorem Sound.handsOff (sound : scopes.Sound base) (none : scopes.collisions = 0) :
    ∃ events, events.Perm (scopes.closed.map Record.toEvent) ∧
      scopes.thread.flush.registry = scopes.thread.registry.accept events := by
  have completed := (sound.closed none).2
  have healthy : scopes.recorder.poisoned = false :=
    eq_false_of_ne_true fun poisoned => sound.poisoned.1 poisoned none
  refine ⟨scopes.recorder.completedEvents, completed.map Record.toEvent, ?_⟩
  rw [ThreadCapture.flush_registry, ← recorder, sound.atWork.flush]
  split
  · rfl
  · rename_i idle
    have nothing : scopes.recorder.completedEvents = [] := by
      rw [Recorder.completedEvents, List.map_eq_nil_iff, List.filter_eq_nil_iff]
      exact fun record member complete => idle ⟨healthy, record, member, complete⟩
    rw [nothing]
    rfl

theorem Sound.handsOffNothing (sound : scopes.Sound base) (some : scopes.collisions ≠ 0) :
    scopes.thread.flush.registry = scopes.thread.registry := by
  have idle := Recorder.flush_eq_none (.inr (.inl (sound.poisoned.2 some)))
  rw [ThreadCapture.flush_registry, ← recorder, idle]
  rfl

/-- Whatever a thread does with its scopes, and wherever it is flushed: unless a guard from before
the latest flush met another interval in its slot, all scopes that were entered and left since are
handed off with the next flush; if one did, nothing is. The guard of a scope entered since the
flush completes the record of this scope only and poisons nothing; one from before completes none,
and poisons the recorder just where it meets another interval in its slot. -/
theorem run_handsOff (registry : Registry) (actions : List ScopeAction) :
    let scopes := (start registry).run actions
    (if scopes.collisions = 0 then
      ∃ events, events.Perm (scopes.closed.map Record.toEvent) ∧
        scopes.thread.flush.registry = scopes.thread.registry.accept events
    else scopes.thread.flush.registry = scopes.thread.registry) ∧
    (∀ guard record around now, scopes.inner = (guard, record) :: around →
      let next := (scopes.thread.leave guard now).recorder
      (∃ level, scopes.recorder.records[guard.handle.slot]? = some { record with level }) ∧
        next.records = scopes.recorder.records.modify guard.handle.slot (Record.close now) ∧
        next.poisoned = scopes.recorder.poisoned) ∧
    (∀ guard around now, scopes.inner = [] → scopes.outer = guard :: around →
      let next := (scopes.thread.leave guard now).recorder
      next.records = scopes.recorder.records ∧
        (next.poisoned = true ↔ scopes.recorder.poisoned = true ∨ scopes.meets guard = true)) := by
  obtain ⟨base, sound⟩ := (sound_of_new rfl rfl rfl rfl : (start registry).Sound 0).run actions
  intro scopes
  refine ⟨?_, ?_, ?_⟩
  · split
    · rename_i none
      exact sound.handsOff none
    · rename_i some
      exact sound.handsOffNothing some
  · intro guard record around now isInner
    obtain ⟨_, _, _, records, poisoned⟩ := sound.closes isInner now
    have nested := sound.nested
    rw [isInner] at nested
    exact ⟨⟨_, nested.1⟩, records, poisoned⟩
  · intro guard around now outside _
    obtain ⟨_, records, ⟨_, poisoned, before⟩ | ⟨_, _, poisoned, met⟩⟩ :=
      @Sound.misses scopes base guard sound outside now
    · refine ⟨records, ?_⟩
      rw [or_iff_left_of_imp before]
      exact iff_of_eq (congrArg (· = true) poisoned)
    · exact ⟨records, iff_of_true poisoned (.inr met)⟩

/-- A scope around a flush is lost. Its guard does no harm while its slot is free. -/
example : ((start (.new .standard ⟨1, 0, 0⟩)).run
    [.enter "outer" false ⟨0, 0⟩, .flush, .leave ⟨10, 0⟩, .enter "next" false ⟨20, 0⟩,
      .leave ⟨30, 0⟩, .flush]).thread.registry.threads.entries =
        [(0, [⟨"next", 0, false, false, 20, 30, 0⟩])] := by decide

/-- A scope around a flush, and after the flush a scope inside it. -/
def flushedInside : Scopes :=
  (start (.new .standard ⟨1, 0, 0⟩)).run
    [.enter "outer" false ⟨0, 0⟩, .flush, .enter "inner" false ⟨10, 0⟩, .leave ⟨20, 0⟩,
      .leave ⟨30, 0⟩]

/-- The inner scope was entered and left after the flush. It is lost with the guard of the outer
one, which meets it in its slot. -/
theorem flushedInside_loses :
    (flushedInside.closed.map (·.name)) = ["inner"] ∧ flushedInside.collisions = 1 ∧
      flushedInside.recorder.poisoned = true ∧
      flushedInside.thread.flush.registry.threads.entries = [] ∧
      ¬ ∃ events, events.Perm (flushedInside.closed.map Record.toEvent) ∧
        flushedInside.thread.flush.registry = flushedInside.thread.registry.accept events := by
  refine ⟨rfl, rfl, rfl, rfl, ?_⟩
  rintro ⟨events, handedOff, registry⟩
  rw [List.perm_singleton.1 handedOff] at registry
  exact absurd (congrArg (·.nextId) registry) (by decide)

end Scopes

end CallProfiler.Capture
