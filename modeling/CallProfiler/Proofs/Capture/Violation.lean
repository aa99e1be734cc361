import CallProfiler.Proofs.Capture.Delivery
import CallProfiler.Proofs.Capture.Discipline
import CallProfiler.Proofs.Capture.Performance
import Mathlib.Data.List.Nodup

/-!
# The first violation

A program that closes its intervals in the reverse order of opening them is never refused. The first
time that it closes another one than the innermost, it is told all that is open. A recorder finds
the open intervals among all that it has stored, and marks the one that was to be closed by name and
level only; `pop_of_bracketed` says that this is the stack of the program all the same, with that
one interval marked, and that nothing of the whole run is handed off any more.
-/

namespace CallProfiler.Capture

/-- An interval that a program has entered: the handle that it got, and the name that it gave. -/
structure Entered where
  handle : Handle
  name : String
deriving DecidableEq, Repr

/-- The stack of a program as a diagnostic shows it: in the order of opening, each interval at its
level, and the one that was to be closed marked. -/
def shown (openNow : List Entered) (violated : Entered) : List OpenInterval :=
  openNow.reverse.mapIdx fun level interval =>
    ⟨interval.name, level, decide (interval.handle = violated.handle)⟩

/-! ## Records of the open intervals -/

/-- The records that are not completed are those of the open intervals, from the outermost on, each
as deep as there are others around it. -/
inductive Pending : List Record → List Entered → Prop where
  | nothing {records : List Record} (completed : ∀ record ∈ records, record.complete = true) :
      Pending records []
  | inside {before after : List Record} {outer : List Entered} (around : Pending before outer)
      {record : Record} (incomplete : record.complete = false)
      (level : record.level = outer.length)
      (completed : ∀ record ∈ after, record.complete = true) :
      Pending (before ++ record :: after) (⟨⟨before.length⟩, record.name⟩ :: outer)

namespace Pending

variable {records : List Record} {openNow inner outer : List Entered} {entered : Entered}

theorem append (pending : Pending records openNow) {more : List Record}
    (completed : ∀ record ∈ more, record.complete = true) : Pending (records ++ more) openNow := by
  cases pending with
  | nothing earlier => exact .nothing (List.forall_mem_append.2 ⟨earlier, completed⟩)
  | inside around incomplete level later =>
      rw [List.append_assoc, List.cons_append]
      exact .inside around incomplete level (List.forall_mem_append.2 ⟨later, completed⟩)

/-- An interval that is opened is the innermost one. -/
theorem opened (pending : Pending records openNow) {record : Record}
    (incomplete : record.complete = false) (level : record.level = openNow.length) :
    Pending (records ++ [record]) (⟨⟨records.length⟩, record.name⟩ :: openNow) :=
  .inside pending incomplete level (by simp)

/-- Closing the innermost interval leaves those around it open. -/
theorem closed (pending : Pending records (entered :: outer)) (now : Reading) :
    Pending (records.modify entered.handle.slot (Record.close now)) outer := by
  cases pending with
  | @inside before after outer around record incomplete level completed =>
      rw [modify_length_append]
      exact around.append (List.forall_mem_cons.2 ⟨rfl, completed⟩)

/-- The record of an open interval is in the slot of its handle. -/
theorem exists_record (pending : Pending records (inner ++ entered :: outer)) :
    ∃ record, records[entered.handle.slot]? = some record ∧ record.name = entered.name ∧
      record.level = outer.length := by
  induction inner generalizing records with
  | nil =>
      cases pending with
      | @inside before after outer around record incomplete level completed =>
          exact ⟨record, by simp, rfl, level⟩
  | cons head rest inductionHypothesis =>
      cases pending with
      | @inside before after outer around record incomplete level completed =>
          obtain ⟨outerRecord, found, name, outerLevel⟩ := inductionHypothesis around
          refine ⟨outerRecord, ?_, name, outerLevel⟩
          rw [List.getElem?_append_left (List.getElem?_eq_some_iff.1 found).1]
          exact found

theorem slot_lt (pending : Pending records openNow) :
    ∀ interval ∈ openNow, interval.handle.slot < records.length := by
  intro interval member
  obtain ⟨inner, outer, rfl⟩ := List.append_of_mem member
  obtain ⟨record, found, _⟩ := pending.exists_record
  exact (List.getElem?_eq_some_iff.1 found).1

/-- No two open intervals have one handle. -/
theorem nodup (pending : Pending records openNow) : (openNow.map (·.handle)).Nodup := by
  induction pending with
  | nothing => exact .nil
  | @inside before after outer around record _ _ _ inductionHypothesis =>
      refine List.nodup_cons.2 ⟨fun member => ?_, inductionHypothesis⟩
      obtain ⟨interval, inOuter, same⟩ := List.mem_map.1 member
      have below := around.slot_lt interval inOuter
      rw [same] at below
      exact Nat.lt_irrefl _ below

/-- What is seen of the records that are not completed. -/
theorem map_filter {β : Type} (pending : Pending records openNow) (see : String → Int → β) :
    ((records.filter fun record => !record.complete).map fun record =>
        see record.name record.level) =
      openNow.reverse.mapIdx fun level interval => see interval.name level := by
  induction pending with
  | @nothing records completed =>
      have none : (records.filter fun record => !record.complete) = [] :=
        List.filter_eq_nil_iff.2 fun record member => by simp [completed record member]
      rw [none]
      rfl
  | @inside before after outer around record incomplete level completed inductionHypothesis =>
      have none : (after.filter fun record => !record.complete) = [] :=
        List.filter_eq_nil_iff.2 fun record member => by simp [completed record member]
      rw [List.filter_append, List.map_append, inductionHypothesis,
        List.filter_cons_of_pos (by simp [incomplete]), none, List.reverse_cons, List.mapIdx_concat,
        List.length_reverse, ← level]
      rfl

/-- Among the open intervals a level stands for one handle only. -/
theorem handle_eq_iff (pending : Pending records (inner ++ entered :: outer)) {level : Nat}
    (inside : level < (inner ++ entered :: outer).reverse.length) :
    (inner ++ entered :: outer).reverse[level].handle = entered.handle ↔ level = outer.length := by
  have within : outer.length < (inner ++ entered :: outer).reverse.length := by
    rw [List.length_reverse, List.length_append, List.length_cons]
    omega
  have here : (inner ++ entered :: outer).reverse[outer.length].handle = entered.handle := by simp
  have distinct : ((inner ++ entered :: outer).reverse.map (·.handle)).Nodup := by
    rw [List.map_reverse]
    exact List.nodup_reverse.2 pending.nodup
  have same := @List.Nodup.getElem_inj_iff _ _ distinct level (by rwa [List.length_map])
    outer.length (by rwa [List.length_map])
  rwa [List.getElem_map, List.getElem_map, here] at same

/-- Name and level mark an interval that is open, and no other that is. -/
theorem mapIdx_eq_shown (pending : Pending records (inner ++ entered :: outer)) :
    ((inner ++ entered :: outer).reverse.mapIdx fun level interval => OpenInterval.mk interval.name
      level ((level : Int) == outer.length && interval.name == entered.name)) =
      shown (inner ++ entered :: outer) entered := by
  rw [shown, List.mapIdx_eq_mapIdx_iff]
  intro level inside
  congr 1
  rw [Bool.eq_iff_iff, decide_eq_true_iff, pending.handle_eq_iff inside, Bool.and_eq_true,
    beq_iff_eq, Int.natCast_inj]
  refine ⟨And.left, ?_⟩
  rintro rfl
  simp

end Pending

namespace Recorder

variable {recorder : Recorder} {openNow inner outer : List Entered} {violated : Entered}

/-! ## Poisoned recorders -/

/-- A recorder that is poisoned stays so, and hands nothing off. -/
theorem operate_of_poisoned (poisoned : recorder.poisoned = true) (operation : Operation) :
    (recorder.operate operation).1.poisoned = true ∧ (recorder.operate operation).2 = none := by
  have flushed : recorder.flush.1.poisoned = true ∧ recorder.flush.2 = none := by
    refine ⟨?_, flush_eq_none (.inr (.inl poisoned))⟩
    rw [flush]
    split <;> exact poisoned
  cases operation with
  | push name frame now =>
      obtain ⟨_, _, _, _, same⟩ := push_same recorder name frame now
      rw [operate, same]
      exact ⟨poisoned, rfl⟩
  | pop handle now =>
      refine ⟨?_, rfl⟩
      simp only [operate, pop]
      split
      · exact poisoned
      · split
        · exact poisoned
        · split
          · rfl
          · exact poisoned
  | flush => exact flushed
  | drop => exact flushed

theorem run_of_poisoned (poisoned : recorder.poisoned = true) (operations : List Operation) :
    (recorder.run operations).1.poisoned = true ∧ (recorder.run operations).2 = [] := by
  induction operations generalizing recorder with
  | nil => exact ⟨poisoned, rfl⟩
  | cons operation later inductionHypothesis =>
      obtain ⟨still, nothing⟩ := operate_of_poisoned poisoned operation
      obtain ⟨last, none⟩ := inductionHypothesis still
      refine ⟨last, ?_⟩
      rw [run]
      simp only [nothing, none, Option.toList_none, List.append_nil]

/-! ## Runs without a violation -/

/-- What a recorder has after a run without a violation. -/
structure Follows (recorder : Recorder) (openNow : List Entered) : Prop where
  atWork : recorder.AtWork
  depth : recorder.depth = openNow.length
  fits : Width.fitsSigned 32 recorder.depth = true
  pending : Pending recorder.records openNow

theorem follows_onPages (processClock : Bool) {pageBits : Nat} {item : ItemSize}
    {store : PagedStore Record}
    (made : PagedStore.ofItems item pageBits = .ok store) :
    (onPages processClock store).Follows [] where
  atWork := atWork_onPages processClock made
  depth := rfl
  fits := rfl
  pending := by
    rw [records_eq (PagedStore.holds_of_ofItems made).2]
    exact .nothing (by simp)

/-- A push puts its interval on the stack. -/
theorem Follows.push (follows : recorder.Follows openNow) {name : String} {frame : Bool}
    {now : Reading} {handle : Handle} (opened : (recorder.push name frame now).2 = .ok handle) :
    (recorder.push name frame now).1.Follows (⟨handle, name⟩ :: openNow) := by
  have atWork := follows.atWork.push name frame now
  have opens := (push_opens follows.atWork.live name frame now).2
  generalize recorder.push name frame now = result at opened atWork opens
  obtain ⟨next, outcome⟩ := result
  cases opened
  cases opens with
  | opened records depth fits poisoned =>
      refine ⟨atWork, ?_, fits, ?_⟩
      · rw [depth, follows.depth, List.length_cons]
        rfl
      · rw [records]
        exact follows.pending.opened rfl follows.depth

/-- A pop of the innermost interval takes it off the stack. -/
theorem Follows.pop (follows : recorder.Follows (violated :: outer)) (now : Reading) :
    (recorder.pop violated.handle now).2 = .ok () ∧
      (recorder.pop violated.handle now).1.Follows outer := by
  have pending : Pending recorder.records ([] ++ violated :: outer) := follows.pending
  obtain ⟨record, found, _, level⟩ := pending.exists_record
  have depth : recorder.depth - 1 = outer.length := by
    rw [follows.depth, List.length_cons]
    omega
  have narrower : Width.fitsSigned 32 (recorder.depth - 1) = true :=
    Session.fitsSigned_sub_one (by rw [follows.depth]; exact Int.natCast_nonneg _) follows.fits
  have atWork := follows.atWork.pop violated.handle now
  have closes := (pop_closes follows.atWork.live violated.handle now).2
  generalize recorder.pop violated.handle now = result at atWork closes
  obtain ⟨next, outcome⟩ := result
  cases closes with
  | unknown missing => rw [found] at missing; cases missing
  | uncounted narrow => rw [narrower] at narrow; cases narrow
  | violated _ other differs =>
      rw [found] at other
      cases other
      exact absurd (level.trans depth.symm) differs
  | closed _ _ records nextDepth fits _ =>
      refine ⟨rfl, atWork, nextDepth.trans depth, fits, ?_⟩
      rw [records]
      exact follows.pending.closed now

/-- A pop of an interval that is not at the last level is a violation. -/
theorem pop_of_other {handle : Handle} {record : Record} (live : recorder.Live)
    (found : recorder.records[handle.slot]? = some record)
    (counted : Width.fitsSigned 32 (recorder.depth - 1) = true)
    (other : record.level ≠ recorder.depth - 1) (now : Reading) :
    recorder.pop handle now =
      ({ recorder with depth := recorder.depth - 1, poisoned := true },
        refuse (.stackMismatch
          ({ recorder with depth := recorder.depth - 1 }.diagnose record))) := by
  rw [← PagedStore.Holds.get?_eq live] at found
  simp only [Recorder.pop, found, Checked.subtractSigned, counted, if_true, other, ne_eq,
    not_false_eq_true]

/-- A pop of any other open interval is a violation, of which the diagnostic shows the stack. -/
theorem Follows.pop_violated (follows : recorder.Follows (inner ++ violated :: outer))
    (inside : inner ≠ []) (now : Reading) :
    (recorder.pop violated.handle now).1.poisoned = true ∧
      (recorder.pop violated.handle now).2 = refuse (.stackMismatch {
        openIntervals := shown (inner ++ violated :: outer) violated
        exitName := violated.name
        exitLevel := outer.length
        currentLevel := (inner ++ violated :: outer).length - 1 }) := by
  obtain ⟨record, found, name, level⟩ := follows.pending.exists_record
  have narrower : Width.fitsSigned 32 (recorder.depth - 1) = true :=
    Session.fitsSigned_sub_one (by rw [follows.depth]; exact Int.natCast_nonneg _) follows.fits
  have other : record.level ≠ recorder.depth - 1 := by
    have some := List.length_pos_iff.2 inside
    rw [level, follows.depth, List.length_append, List.length_cons]
    omega
  rw [pop_of_other follows.atWork.live found narrower other]
  have marked := follows.pending.map_filter fun shownName shownLevel =>
    OpenInterval.mk shownName shownLevel (shownLevel == outer.length && shownName == violated.name)
  rw [follows.pending.mapIdx_eq_shown, records] at marked
  refine ⟨rfl, ?_⟩
  rw [diagnose, level, name, marked, follows.depth]

/-! ## Whole runs -/

/-- The runs in which every push opens an interval and every pop closes the innermost one that is
open, with the intervals open after them, the innermost first. So no handle is popped twice. -/
inductive Bracketed (start : Recorder) : List Operation → List Entered → Prop where
  | start : Bracketed start [] []
  | push {done : List Operation} {openNow : List Entered} (bracketed : Bracketed start done openNow)
      {name : String} {frame : Bool} {now : Reading} {handle : Handle}
      (opened : ((start.run done).1.push name frame now).2 = .ok handle) :
      Bracketed start (done ++ [.push name frame now]) (⟨handle, name⟩ :: openNow)
  | pop {done : List Operation} {innermost : Entered} {outer : List Entered}
      (bracketed : Bracketed start done (innermost :: outer)) (now : Reading) :
      Bracketed start (done ++ [.pop innermost.handle now]) outer

/-- What stands in a list with one more at the end is that one, or stood there before. -/
theorem eq_or_exists_of_concat {α : Type} {done earlier later : List α} {last entry : α}
    (split : done ++ [last] = earlier ++ entry :: later) :
    (earlier = done ∧ entry = last) ∨ ∃ between, done = earlier ++ entry :: between := by
  rcases List.eq_nil_or_concat' later with rfl | ⟨between, other, rfl⟩
  · obtain ⟨same, ending⟩ := List.append_inj' split rfl
    exact .inl ⟨same.symm, (List.singleton_inj.1 ending).symm⟩
  · rw [← List.cons_append, ← List.append_assoc] at split
    exact .inr ⟨between, (List.append_inj' split rfl).1⟩

/-- Without a violation every pop succeeds and nothing is handed off. -/
theorem Bracketed.follows {start : Recorder} {done : List Operation} (new : start.Follows [])
    (bracketed : Bracketed start done openNow) :
    (start.run done).1.Follows openNow ∧ (start.run done).2 = [] ∧
      ∀ earlier handle now later, done = earlier ++ .pop handle now :: later →
        ((start.run earlier).1.pop handle now).2 = .ok () := by
  induction bracketed with
  | start => exact ⟨new, rfl, by simp⟩
  | push _ opened inductionHypothesis =>
      obtain ⟨follows, nothing, closings⟩ := inductionHypothesis
      rw [run_append]
      refine ⟨follows.push opened, ?_, ?_⟩
      · rw [nothing]
        rfl
      · intro earlier handle now later split
        rcases eq_or_exists_of_concat split with ⟨_, different⟩ | ⟨between, before⟩
        · cases different
        · exact closings earlier handle now between before
  | pop _ now inductionHypothesis =>
      obtain ⟨follows, nothing, closings⟩ := inductionHypothesis
      rw [run_append]
      refine ⟨(follows.pop now).2, ?_, ?_⟩
      · rw [nothing]
        rfl
      · intro earlier handle time later split
        rcases eq_or_exists_of_concat split with ⟨rfl, same⟩ | ⟨between, before⟩
        · cases same
          exact (follows.pop now).1
        · exact closings earlier handle time between before

/-- As long as a program closes its innermost interval every pop succeeds. The first pop of another
open one is refused with a diagnostic of the whole stack: the open intervals in the order in which
they were opened, at the levels from zero on, with the one that was to be closed marked and no
other one, its name and level, and the level that the recorder is at now. The recorder is poisoned
from then on, and the sink receives nothing, not even of what was recorded before. -/
theorem pop_of_bracketed (processClock : Bool) {pageBits : Nat} {item : ItemSize}
    {store : PagedStore Record}
    (made : PagedStore.ofItems item pageBits = .ok store) {done : List Operation}
    (bracketed : Bracketed (onPages processClock store) done (inner ++ violated :: outer))
    (inside : inner ≠ []) (now : Reading) :
    let start := onPages processClock store
    (∀ earlier handle time later, done = earlier ++ .pop handle time :: later →
      ((start.run earlier).1.pop handle time).2 = .ok ()) ∧
    ((start.run done).1.pop violated.handle now).2 = refuse (.stackMismatch {
      openIntervals := shown (inner ++ violated :: outer) violated
      exitName := violated.name
      exitLevel := outer.length
      currentLevel := (inner ++ violated :: outer).length - 1 }) ∧
    ((inner ++ violated :: outer).map (·.handle)).Nodup ∧
    ∀ later, (start.run (done ++ .pop violated.handle now :: later)).1.poisoned = true ∧
      (start.run (done ++ .pop violated.handle now :: later)).2 = [] := by
  intro start
  obtain ⟨follows, nothing, closings⟩ := bracketed.follows (follows_onPages processClock made)
  obtain ⟨poisoned, refused⟩ := follows.pop_violated inside now
  refine ⟨closings, refused, follows.pending.nodup, fun later => ?_⟩
  obtain ⟨still, none⟩ := run_of_poisoned poisoned later
  rw [run_append, nothing, List.nil_append]
  exact ⟨still, none⟩

/-- Two intervals of one name, of which the first was closed, and one inside the second. -/
def namesakes : List Operation :=
  [.push "work" false ⟨1, 0⟩, .pop ⟨0⟩ ⟨2, 0⟩, .push "work" false ⟨3, 0⟩, .push "work" false ⟨4, 0⟩]

theorem pop_of_bracketed_namesakes :
    Bracketed (new false) namesakes ([⟨⟨2⟩, "work"⟩] ++ ⟨⟨1⟩, "work"⟩ :: []) ∧
      ((((new false).run namesakes).1.pop ⟨1⟩ ⟨5, 0⟩).2 = refuse (.stackMismatch {
        openIntervals := [⟨"work", 0, true⟩, ⟨"work", 1, false⟩]
        exitName := "work"
        exitLevel := 0
        currentLevel := 1 })) ∧
      ((new false).run (namesakes ++ [.pop ⟨1⟩ ⟨5, 0⟩, .pop ⟨2⟩ ⟨6, 0⟩, .flush])).2 = [] := by
  have made : PagedStore.ofItems ⟨56, by decide⟩ PagedStore.standardPageBits =
      .ok (PagedStore.new : PagedStore Record) := rfl
  have bracketed : Bracketed (new false) namesakes ([⟨⟨2⟩, "work"⟩] ++ ⟨⟨1⟩, "work"⟩ :: []) :=
    .push (.push (.pop (.push .start rfl) ⟨2, 0⟩) rfl) rfl
  obtain ⟨_, refused, _, later⟩ := pop_of_bracketed false made bracketed (by decide) ⟨5, 0⟩
  exact ⟨bracketed, refused, (later [.pop ⟨2⟩ ⟨6, 0⟩, .flush]).2⟩

end Recorder

end CallProfiler.Capture
