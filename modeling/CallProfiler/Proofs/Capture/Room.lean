import CallProfiler.Proofs.Capture.Delivery
import Mathlib.Data.List.Induction

/-!
# Room made ahead

Pages are made before they are needed: at every outermost interval a recorder makes room for three
times as many records as the largest unit so far had. `RoomMade` says what making room comes to,
`Recorder.peak` what a recorder knows of its units, and `pages_made_ahead` that a unit which is no
more than three times as large as one before it finds all its pages made.
-/

namespace CallProfiler.Capture

namespace PagedStore

variable {α : Type} {store grown : PagedStore α} {items : List α} {count : Nat}

/-- The slots of all pages. -/
def capacity (store : PagedStore α) : Nat := store.pageCount * store.pageSize

/-- What making room for some items comes to. -/
structure RoomMade (store grown : PagedStore α) (count : Nat) : Prop where
  kept : store.pageCount ≤ grown.pageCount
  enough : count ≤ grown.freeSlots
  /-- Where there is room already, no page is made. -/
  nothing : count ≤ store.freeSlots → grown.pageCount = store.pageCount
  /-- Where there is not, the last page that is made is needed. -/
  needed : store.freeSlots < count → grown.freeSlots < count + store.pageSize

theorem Holds.length_le_capacity (holds : store.Holds items) : store.length ≤ store.capacity := by
  rw [holds.length]
  exact holds.room

/-- A count of slots rounded up to whole pages is enough, and less than a page too much. -/
theorem roundUp_bounds {size : Nat} (positive : 0 < size) (missing : Nat) :
    missing ≤ (missing + size - 1) / size * size ∧
      (missing + size - 1) / size * size < missing + size := by
  have whole := Nat.div_add_mod' (missing + size - 1) size
  have rest := Nat.mod_lt (missing + size - 1) positive
  omega

theorem Holds.roomMade (holds : store.Holds items) (done : store.reserve count = .ok grown) :
    RoomMade store grown count := by
  have within := holds.length_le_capacity
  rw [capacity] at within
  rw [PagedStore.reserve, if_neg holds.not_drained] at done
  split at done
  · rename_i already
    cases done
    exact ⟨Nat.le_refl _, already, fun _ => rfl, fun few => absurd already (Nat.not_le.2 few)⟩
  · rename_i short
    obtain ⟨slots, counted, made⟩ := bind_eq_ok_iff.1 done
    obtain ⟨_, rfl⟩ := Checked.add_eq_ok_iff.1 counted
    cases made
    obtain ⟨enough, few⟩ := roundUp_bounds store.pageSize_pos (count - store.freeSlots)
    generalize (count - store.freeSlots + store.pageSize - 1) / store.pageSize = more
      at enough few ⊢
    have free :
        PagedStore.freeSlots { store with pages := store.pages ++ Array.replicate more #[] } =
          store.freeSlots + more * store.pageSize := by
      show (store.pages ++ Array.replicate more #[]).size * store.pageSize - store.length = _
      rw [Array.size_append, Array.size_replicate, Nat.add_mul, freeSlots, pageCount]
      exact Nat.sub_add_comm within
    refine ⟨by simp [pageCount], ?_, fun already => absurd already short, fun _ => ?_⟩
    · rw [free]
      omega
    · rw [free]
      omega

/-- Room is made unless the slots that are missing cannot be counted together with a page. -/
theorem Holds.exists_reserve_iff (holds : store.Holds items) (count : Nat) :
    (∃ grown, store.reserve count = .ok grown) ↔
      count ≤ store.freeSlots ∨ count - store.freeSlots + store.pageSize < Width.bound 64 := by
  rw [PagedStore.reserve, if_neg holds.not_drained]
  split
  · rename_i already
    exact iff_of_true ⟨_, rfl⟩ (.inl already)
  · rename_i short
    rw [or_iff_right short]
    constructor
    · rintro ⟨grown, done⟩
      obtain ⟨slots, counted, _⟩ := bind_eq_ok_iff.1 done
      exact (Checked.add_eq_ok_iff.1 counted).1
    · intro fits
      exact exists_ok_bind (Checked.add_eq_ok_iff.2 ⟨fits, rfl⟩) ⟨_, rfl⟩

/-- Whatever is asked of a store but to be drained, it goes on holding items. -/
theorem exists_holds_of_run (holds : ∃ items, store.Holds items) {requests : List (Request α)}
    (live : ∀ request ∈ requests, request ≠ .drain) :
    ∃ items, (store.run requests).1.Holds items := by
  induction requests generalizing store with
  | nil => exact holds
  | cons request later inductionHypothesis =>
      obtain ⟨items, holds⟩ := holds
      obtain ⟨first, others⟩ := List.forall_mem_cons.1 live
      refine inductionHypothesis ?_ others
      cases request with
      | alloc entry =>
          obtain ⟨grown, done, holdsMore⟩ := holds.alloc entry
          simp only [done]
          exact ⟨_, holdsMore⟩
      | reserve count =>
          dsimp only
          cases outcome : store.reserve count with
          | ok grown => exact ⟨_, holds.reserve outcome⟩
          | error reached => exact ⟨_, holds⟩
      | get index => exact ⟨_, holds⟩
      | update index change => exact ⟨_, holds.modify index change⟩
      | list => exact ⟨_, holds⟩
      | drain => exact absurd rfl first

/-- Storing an item makes no page unless all are full, and takes none away. -/
theorem Holds.pageCount_of_alloc (holds : store.Holds items) {entry : α}
    (done : store.alloc entry = .ok grown) :
    store.pageCount ≤ grown.pageCount ∧
      (store.length < store.capacity → grown.pageCount = store.pageCount) := by
  rw [PagedStore.alloc, if_neg holds.not_drained] at done
  cases done
  simp only [pageCount, Array.size_modify]
  split
  · rename_i full
    refine ⟨by simp, fun room => ?_⟩
    have page := (Nat.div_lt_iff_lt_mul store.pageSize_pos).2 room
    rw [full] at page
    exact absurd page (Nat.lt_irrefl _)
  · exact ⟨Nat.le_refl _, fun _ => rfl⟩

end PagedStore

/-! ## Units -/

namespace Recorder

variable {recorder next : Recorder} {operation : Operation} {operations unit : List Operation}

/-- The recorder that takes in the record of a push: room is made first at an outermost interval. -/
def prepared (recorder : Recorder) : Recorder :=
  if recorder.depth = 0 then recorder.startUnit.1 else recorder

/-- The most records that a unit has brought so far, the present one included. -/
def peak (recorder : Recorder) : Nat :=
  max recorder.largestUnit (recorder.records.length - recorder.unitStart)

/-- A recorder at work whose present unit began at one of its records. -/
structure Counting (recorder : Recorder) : Prop where
  atWork : recorder.AtWork
  unitStart : recorder.unitStart ≤ recorder.records.length

theorem Counting.length_eq (counting : recorder.Counting) :
    recorder.store.length = recorder.records.length :=
  PagedStore.Holds.length counting.atWork.live

theorem counting_onPages (processClock : Bool) {pageBits : Nat} {item : ItemSize}
    {store : PagedStore Record}
    (made : PagedStore.ofItems item pageBits = .ok store) :
    (onPages processClock store).Counting :=
  ⟨atWork_onPages processClock made, Nat.zero_le _⟩

/-- What an operation inside a unit leaves as it was, or adds to. -/
structure WithinUnit (recorder next : Recorder) : Prop where
  counting : next.Counting
  unitStart : next.unitStart = recorder.unitStart
  largestUnit : next.largestUnit = recorder.largestUnit
  records : recorder.records.length ≤ next.records.length
  capacity : recorder.store.capacity ≤ next.store.capacity

theorem WithinUnit.peak_le (within : WithinUnit recorder next) : recorder.peak ≤ next.peak := by
  have records := within.records
  rw [peak, peak, within.unitStart, within.largestUnit]
  omega

/-- What making room for a unit comes to. -/
structure UnitStarted (recorder next : Recorder) : Prop where
  counting : next.Counting
  records : next.records = recorder.records
  unitStart : next.unitStart = recorder.records.length
  largestUnit : next.largestUnit = recorder.peak

/-- Room is made for three times the peak. -/
theorem Counting.startUnit_eq (counting : recorder.Counting) :
    recorder.startUnit =
      match recorder.store.reserve (3 * recorder.peak) with
      | .error reached =>
        ({ recorder with largestUnit := recorder.peak, unitStart := recorder.records.length },
          some reached)
      | .ok store =>
        ({ recorder with
            store, largestUnit := recorder.peak, unitStart := recorder.records.length },
          none) := by
  have items : Checked.subtract recorder.records.length recorder.unitStart =
      .ok (recorder.records.length - recorder.unitStart) :=
    Checked.subtract_eq_ok_iff.2 ⟨counting.unitStart, rfl⟩
  simp only [Recorder.startUnit, counting.length_eq, items]
  rfl

theorem Counting.startUnit (counting : recorder.Counting) :
    UnitStarted recorder recorder.startUnit.1 ∧
      (recorder.startUnit.2 = none →
        recorder.records.length + 3 * recorder.peak ≤ recorder.startUnit.1.store.capacity) := by
  rw [counting.startUnit_eq]
  cases reserved : recorder.store.reserve (3 * recorder.peak) with
  | error reached =>
      exact ⟨⟨⟨⟨counting.atWork.live, counting.atWork.unflushed⟩, Nat.le_refl _⟩, rfl, rfl, rfl⟩,
        nofun⟩
  | ok store =>
      have holds := PagedStore.Holds.reserve counting.atWork.live reserved
      have records : Recorder.records { recorder with
          store, largestUnit := recorder.peak, unitStart := recorder.records.length } =
            recorder.records := records_eq holds
      have enough := (PagedStore.Holds.roomMade counting.atWork.live reserved).enough
      have within := holds.length_le_capacity
      rw [PagedStore.freeSlots, ← PagedStore.capacity, holds.length] at enough
      rw [holds.length] at within
      refine ⟨⟨⟨⟨live_of_holds holds, counting.atWork.unflushed⟩, ?_⟩, records, rfl, rfl⟩,
        fun _ => ?_⟩
      · exact Nat.le_of_eq (congrArg List.length records).symm
      · show _ ≤ store.capacity
        omega

/-- The record of an interval is stored, on a page that was there if one had room. -/
theorem Counting.openRecord (counting : recorder.Counting) (name : String) (frame : Bool)
    (now : Reading) :
    WithinUnit recorder (recorder.openRecord name frame now).1 ∧
      (recorder.openRecord name frame now).1.records.length = recorder.records.length + 1 ∧
      (recorder.records.length < recorder.store.capacity →
        (recorder.openRecord name frame now).1.store.pageCount = recorder.store.pageCount) := by
  obtain ⟨grown, allocated, holds⟩ :=
    PagedStore.Holds.alloc counting.atWork.live (recorder.opening name frame now)
  obtain ⟨depth, opened⟩ : ∃ depth, (recorder.openRecord name frame now).1 =
      { recorder with store := grown, depth } := by
    rw [opening] at allocated
    simp only [Recorder.openRecord, allocated]
    split <;> exact ⟨_, rfl⟩
  have records : Recorder.records { recorder with store := grown, depth } =
      recorder.records ++ [recorder.opening name frame now] := records_eq holds
  have longer : (recorder.records ++ [recorder.opening name frame now]).length =
      recorder.records.length + 1 := List.length_append
  obtain ⟨kept, inRoom⟩ := PagedStore.Holds.pageCount_of_alloc counting.atWork.live allocated
  rw [opened, records, longer]
  refine ⟨⟨⟨⟨live_of_holds holds, counting.atWork.unflushed⟩, ?_⟩, rfl, rfl, ?_, ?_⟩, rfl, ?_⟩
  · rw [records, longer]
    exact Nat.le_succ_of_le counting.unitStart
  · rw [records, longer]
    exact Nat.le_succ _
  · rw [PagedStore.capacity, PagedStore.capacity, PagedStore.pageSize, PagedStore.pageSize,
      PagedStore.pageBits_of_alloc allocated]
    exact Nat.mul_le_mul_right _ kept
  · rw [← counting.length_eq]
    exact inRoom

/-- A pop changes no more of the store than the record of its slot. -/
theorem pop_store (recorder : Recorder) (handle : Handle) (now : Reading) :
    (recorder.pop handle now).1.store = recorder.store ∨
      (recorder.pop handle now).1.store =
        recorder.store.modify handle.slot (Record.close now) := by
  simp only [Recorder.pop]
  split
  · exact .inl rfl
  · split
    · exact .inl rfl
    · split
      · exact .inl rfl
      · exact .inr rfl

/-- A pop leaves pages and units alone. -/
theorem Counting.pop (counting : recorder.Counting) (handle : Handle) (now : Reading) :
    WithinUnit recorder (recorder.pop handle now).1 := by
  have atWork := counting.atWork.pop handle now
  have stored := pop_store recorder handle now
  obtain ⟨store, depth, poisoned, popped⟩ := pop_same recorder handle now
  rw [popped] at stored atWork ⊢
  have records : Recorder.records { recorder with store, depth, poisoned } = recorder.records ∨
      Recorder.records { recorder with store, depth, poisoned } =
        recorder.records.modify handle.slot (Record.close now) := by
    refine stored.imp (fun same => ?_) (fun changed => ?_)
    · rw [Recorder.records, same, Recorder.records]
    · refine records_eq ?_
      rw [changed]
      exact PagedStore.Holds.modify counting.atWork.live handle.slot (Record.close now)
  have length : (Recorder.records { recorder with store, depth, poisoned }).length =
      recorder.records.length := by
    rcases records with same | changed
    · rw [same]
    · rw [changed, List.length_modify]
  have capacity : store.capacity = recorder.store.capacity := by
    rcases stored with same | changed
    · exact congrArg PagedStore.capacity same
    · rw [show store = _ from changed]
      simp [PagedStore.capacity, PagedStore.pageCount, PagedStore.modify, PagedStore.pageSize]
  exact ⟨⟨atWork, Nat.le_trans counting.unitStart (Nat.le_of_eq length.symm)⟩, rfl, rfl,
    Nat.le_of_eq length.symm, Nat.le_of_eq capacity.symm⟩

/-- A push for which room could be made stores its record in the prepared recorder. -/
theorem push_eq_openRecord (ready : recorder.depth = 0 → recorder.startUnit.2 = none)
    (name : String) (frame : Bool) (now : Reading) :
    recorder.push name frame now = recorder.prepared.openRecord name frame now := by
  rw [Recorder.push, prepared]
  split
  · rename_i outermost
    have room := ready outermost
    generalize recorder.startUnit = started at room
    obtain ⟨middle, outcome⟩ := started
    cases room
    rfl
  · rfl

/-- Whatever is recorded, no record is lost and no unit forgotten. -/
structure Grown (recorder next : Recorder) : Prop where
  counting : next.Counting
  peak : recorder.peak ≤ next.peak
  records : recorder.records.length ≤ next.records.length

theorem WithinUnit.grown (within : WithinUnit recorder next) : Grown recorder next :=
  ⟨within.counting, within.peak_le, within.records⟩

theorem UnitStarted.grown (started : UnitStarted recorder next) : Grown recorder next where
  counting := started.counting
  peak := by
    rw [Recorder.peak, Recorder.peak, started.largestUnit]
    exact Nat.le_max_left _ _
  records := Nat.le_of_eq (congrArg List.length started.records).symm

theorem Grown.trans {last : Recorder} (first : Grown recorder next) (second : Grown next last) :
    Grown recorder last :=
  ⟨second.counting, Nat.le_trans first.peak second.peak, Nat.le_trans first.records second.records⟩

theorem Counting.push (counting : recorder.Counting) (name : String) (frame : Bool)
    (now : Reading) : Grown recorder (recorder.push name frame now).1 := by
  rw [Recorder.push]
  split
  · have started := counting.startUnit.1
    generalize recorder.startUnit = result at started
    obtain ⟨middle, _ | reached⟩ := result
    · exact started.grown.trans (started.counting.openRecord name frame now).1.grown
    · exact started.grown
  · exact (counting.openRecord name frame now).1.grown

theorem Counting.operate (counting : recorder.Counting) (records : operation.empties = false) :
    Grown recorder (recorder.operate operation).1 := by
  cases operation with
  | push name frame now => exact counting.push name frame now
  | pop handle now => exact (counting.pop handle now).grown
  | flush => cases records
  | drop => cases records

theorem Counting.run (counting : recorder.Counting)
    (records : ∀ operation ∈ operations, operation.empties = false) :
    Grown recorder (recorder.run operations).1 := by
  induction operations generalizing recorder with
  | nil => exact ⟨counting, Nat.le_refl _, Nat.le_refl _⟩
  | cons operation later inductionHypothesis =>
      obtain ⟨first, others⟩ := List.forall_mem_cons.1 records
      have grown := counting.operate first
      exact grown.trans (inductionHypothesis grown.counting others)

/-- What is done from the opening of an outermost interval on, before another one is opened. -/
structure IsUnit (recorder : Recorder) (unit : List Operation) : Prop where
  outermost : recorder.depth = 0
  opens : ∃ name frame now handle inside, unit = .push name frame now :: inside ∧
    (recorder.push name frame now).2 = .ok handle
  inside : ∀ earlier name frame now later, unit = earlier ++ .push name frame now :: later →
    earlier ≠ [] → (recorder.run earlier).1.depth ≠ 0

/-- How many records operations bring. -/
def brought (recorder : Recorder) (operations : List Operation) : Nat :=
  (recorder.run operations).1.records.length - recorder.records.length

/-- Storing the record of a push makes no page: there are as many as after room was made. -/
def StoresInRoom (recorder : Recorder) (name : String) (frame : Bool) (now : Reading) : Prop :=
  (recorder.push name frame now).1.store.pageCount = recorder.prepared.store.pageCount

/-- What is true inside a unit, from its first record on. -/
structure InUnit (start next : Recorder) : Prop where
  counting : next.Counting
  unitStart : next.unitStart = start.records.length
  largestUnit : next.largestUnit = start.peak
  room : start.records.length + 3 * start.peak ≤ next.store.capacity

theorem InUnit.step {start last : Recorder} (inUnit : InUnit start next)
    (within : WithinUnit next last) : InUnit start last where
  counting := within.counting
  unitStart := within.unitStart.trans inUnit.unitStart
  largestUnit := within.largestUnit.trans inUnit.largestUnit
  room := Nat.le_trans inUnit.room within.capacity

/-- A unit that was opened has its room. -/
theorem Counting.prepared (counting : recorder.Counting) (outermost : recorder.depth = 0)
    (started : recorder.startUnit.2 = none) :
    InUnit recorder recorder.prepared ∧ recorder.prepared.records = recorder.records := by
  obtain ⟨unit, room⟩ := counting.startUnit
  rw [Recorder.prepared, if_pos outermost]
  exact ⟨⟨unit.counting, unit.unitStart, unit.largestUnit, room started⟩, unit.records⟩

/-- A push that gives a handle has made room before. -/
theorem startUnit_of_push {name : String} {frame : Bool} {now : Reading} {handle : Handle}
    (outermost : recorder.depth = 0) (opened : (recorder.push name frame now).2 = .ok handle) :
    recorder.startUnit.2 = none := by
  rw [Recorder.push, if_pos outermost] at opened
  generalize recorder.startUnit = result at opened
  obtain ⟨middle, _ | reached⟩ := result
  · rfl
  · cases opened

/-- A push of a unit stores its record in a recorder that has the unit's room; only the first one
makes room before. -/
theorem IsUnit.prepared (isUnit : IsUnit recorder unit) (counting : recorder.Counting)
    {earlier later : List Operation} {name : String} {frame : Bool} {now : Reading}
    (inUnit : earlier ≠ [] → InUnit recorder (recorder.run earlier).1)
    (parts : unit = earlier ++ .push name frame now :: later) :
    InUnit recorder (recorder.run earlier).1.prepared ∧
      (recorder.run earlier).1.prepared.records = (recorder.run earlier).1.records ∧
      (recorder.run earlier).1.push name frame now =
        (recorder.run earlier).1.prepared.openRecord name frame now := by
  cases earlier with
  | nil =>
      obtain ⟨_, _, _, _, _, first, opened⟩ := isUnit.opens
      rw [parts, List.nil_append] at first
      cases first
      have started := startUnit_of_push isUnit.outermost opened
      obtain ⟨ready, same⟩ := counting.prepared isUnit.outermost started
      exact ⟨ready, same, push_eq_openRecord (fun _ => started) name frame now⟩
  | cons operation others =>
      have nonempty := List.cons_ne_nil operation others
      have within := isUnit.inside _ name frame now later parts nonempty
      rw [Recorder.prepared, if_neg within]
      refine ⟨inUnit nonempty, rfl, ?_⟩
      rw [Recorder.push, if_neg within]

/-- After every part of a unit, the recorder is inside it. -/
theorem IsUnit.inUnit (isUnit : IsUnit recorder unit) (counting : recorder.Counting)
    (records : ∀ operation ∈ unit, operation.empties = false) {earlier later : List Operation}
    (parts : unit = earlier ++ later) (nonempty : earlier ≠ []) :
    InUnit recorder (recorder.run earlier).1 := by
  induction earlier using List.reverseRecOn generalizing later with
  | nil => exact absurd rfl nonempty
  | append_singleton before operation inductionHypothesis =>
      rw [List.append_assoc, List.singleton_append] at parts
      have inside := inductionHypothesis parts
      have allowed := records operation (by simp [parts])
      rw [run_append]
      show InUnit recorder ((recorder.run before).1.operate operation).1
      cases operation with
      | push name frame now =>
          obtain ⟨ready, -, pushed⟩ := isUnit.prepared counting inside parts
          rw [operate, pushed]
          exact ready.step (ready.counting.openRecord name frame now).1
      | pop handle now =>
          -- No unit begins with a pop.
          have begun : before ≠ [] := by
            rintro rfl
            obtain ⟨_, _, _, _, _, first, _⟩ := isUnit.opens
            rw [parts] at first
            cases first
          exact (inside begun).step ((inside begun).counting.pop handle now)
      | flush => cases allowed
      | drop => cases allowed

/-- A recorder knows of a unit that is over. -/
theorem IsUnit.brought_le_peak (isUnit : IsUnit recorder unit) (counting : recorder.Counting)
    (records : ∀ operation ∈ unit, operation.empties = false) :
    brought recorder unit ≤ (recorder.run unit).1.peak := by
  have nonempty : unit ≠ [] := by
    rintro rfl
    obtain ⟨_, _, _, _, _, first, _⟩ := isUnit.opens
    cases first
  have inUnit := isUnit.inUnit counting records (List.append_nil unit).symm nonempty
  rw [brought, peak, inUnit.unitStart]
  exact Nat.le_max_right _ _

/-- A unit within three times the peak makes no page but at its start. -/
theorem IsUnit.storesInRoom (isUnit : IsUnit recorder unit) (counting : recorder.Counting)
    (records : ∀ operation ∈ unit, operation.empties = false)
    (few : brought recorder unit ≤ 3 * recorder.peak)
    {earlier later : List Operation} {name : String} {frame : Bool} {now : Reading}
    (parts : unit = earlier ++ .push name frame now :: later) :
    (recorder.run earlier).1.StoresInRoom name frame now := by
  obtain ⟨ready, same, pushed⟩ :=
    isUnit.prepared counting (isUnit.inUnit counting records parts) parts
  obtain ⟨within, longer, inRoom⟩ := ready.counting.openRecord name frame now
  have others : ∀ operation ∈ later, operation.empties = false := fun operation member =>
    records operation (by simp [parts, member])
  have total : (recorder.run unit).1 =
      (((recorder.run earlier).1.push name frame now).1.run later).1 := by
    rw [parts, run_append]
    rfl
  have rest := (within.counting.run others).records
  rw [longer, ← pushed, ← total] at rest
  rw [StoresInRoom, pushed]
  refine inRoom ?_
  have room := ready.room
  rw [brought] at few
  omega

end Recorder

/-! ## Pages made ahead -/

/-- On pages of any size, a unit that brings no more than three times as many records as one before
it finds all its pages made. Making room for some items, whatever was stored before, leaves their
slots free, and makes a page only if it is needed. -/
theorem pages_made_ahead (processClock : Bool) {pageBits : Nat} {item : ItemSize}
    {store : PagedStore Record}
    (made : PagedStore.ofItems item pageBits = .ok store) :
    (∀ before early between unit : List Operation,
      (∀ operation ∈ before ++ early ++ between ++ unit, operation.empties = false) →
      let reached := fun operations => ((Recorder.onPages processClock store).run operations).1
      (reached before).IsUnit early →
      (reached (before ++ early ++ between)).IsUnit unit →
      (reached (before ++ early ++ between)).brought unit ≤ 3 * (reached before).brought early →
      ∀ inside name frame now later, unit = inside ++ .push name frame now :: later →
        (reached (before ++ early ++ between ++ inside)).StoresInRoom name frame now) ∧
    ∀ {α : Type} {entry : ItemSize} {shelf : PagedStore α},
      PagedStore.ofItems entry pageBits = .ok shelf →
      ∀ (requests : List (Request α)) (count : Nat), (∀ request ∈ requests, request ≠ .drain) →
        let filled := (shelf.run requests).1
        (count ≤ filled.freeSlots ∨
          count - filled.freeSlots + filled.pageSize < Width.bound 64) →
        ∃ grown, filled.reserve count = .ok grown ∧ filled.RoomMade grown count := by
  constructor
  · intro before early between unit records reached isEarly isUnit few inside name frame now later
      parts
    simp only [List.forall_mem_append] at records
    obtain ⟨⟨⟨beforeRecords, earlyRecords⟩, betweenRecords⟩, unitRecords⟩ := records
    have atEarly := ((Recorder.counting_onPages processClock made).run beforeRecords).counting
    have known := isEarly.brought_le_peak atEarly earlyRecords
    have after := (atEarly.run earlyRecords).counting.run betweenRecords
    have joined (first second : List Operation) :
        reached (first ++ second) = ((reached first).run second).1 := by
      simp only [reached, Recorder.run_append]
    rw [joined, joined] at isUnit few
    rw [joined, joined, joined]
    refine isUnit.storesInRoom after.counting unitRecords ?_ parts
    exact Nat.le_trans few (Nat.mul_le_mul_left 3 (Nat.le_trans known after.peak))
  · intro α entry shelf madeShelf requests count live filled fits
    obtain ⟨items, holds⟩ := PagedStore.exists_holds_of_run
      ⟨[], (PagedStore.holds_of_ofItems madeShelf).2⟩ live
    obtain ⟨grown, done⟩ := (holds.exists_reserve_iff count).2 fits
    exact ⟨grown, done, holds.roomMade done⟩

/-- An interval by itself, then three in one another: the third one lies on a page that was made
when the first one of the three was opened. -/
theorem pages_made_ahead_nested :
    let opening (name : String) : Operation := .push name (name == "frame") ⟨0, 0⟩
    let shelf : PagedStore Record := ⟨#[#[]], 1, 0, false⟩
    let reached := ((Recorder.onPages false shelf).run
      [opening "frame", .pop ⟨0⟩ ⟨1, 1⟩, opening "frame", opening "work"]).1
    reached.StoresInRoom "leaf" false ⟨0, 0⟩ ∧
      ∃ grown, shelf.reserve 3 = .ok grown ∧ shelf.RoomMade grown 3 := by
  intro opening shelf reached
  have made : PagedStore.ofItems ⟨56, by decide⟩ 1 = .ok shelf := rfl
  obtain ⟨units, rooms⟩ := pages_made_ahead false made
  constructor
  · refine units [] [opening "frame", .pop ⟨0⟩ ⟨1, 1⟩] []
      [opening "frame", opening "work", opening "leaf"] ?_ ?_ ?_ ?_
      [opening "frame", opening "work"] "leaf" false ⟨0, 0⟩ [] rfl
    · decide
    · refine ⟨rfl, ⟨_, _, _, ⟨0⟩, _, rfl, rfl⟩, ?_⟩
      rintro (_ | ⟨first, _ | ⟨second, _ | ⟨third, others⟩⟩⟩) name frame now later parts nonempty
      · exact absurd rfl nonempty
      all_goals cases parts
    · refine ⟨by decide, ⟨_, _, _, ⟨1⟩, _, rfl, by decide +kernel⟩, ?_⟩
      rintro (_ | ⟨first, _ | ⟨second, _ | ⟨third, others⟩⟩⟩) name frame now later parts nonempty
      · exact absurd rfl nonempty
      · cases parts
        decide
      · cases parts
        decide
      · simp at parts
    · decide
  · exact rooms made [] 3 nofun (.inr (by decide))

end CallProfiler.Capture
