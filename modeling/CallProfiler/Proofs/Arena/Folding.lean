import CallProfiler.Arena.Recursion
import CallProfiler.Proofs.Arena.Callers
import Mathlib.Data.List.Find

/-!
# Folding recursion in an arena

Folding one slot hands its node outwards along the callers around it, and so the walk over a shape
does what `Forest.foldOutwards` does to the forest that the shape holds.
-/

namespace CallProfiler.Arena

open CallerSlot (allSlots innermost)

variable {arena : Arena} {callers passed outer : List CallerSlot} {target : CallerSlot}
  {listed before after : List Nat} {id : Nat} {shape : Forest Nat} {forest children : Forest Node}
  {node : Node}

/-- A slot is taken off the list that it is on, and what it lists moves to one of the callers. -/
theorem Surrounds.relink (surrounds : arena.Surrounds (passed ++ target :: outer) listed)
    (below : arena.Holds (some id) shape children)
    (distinct : (rootId :: (allSlots (passed ++ target :: outer) ++ id :: shape.preorder)).Nodup) :
    let next := (arena.change (innermost (passed ++ target :: outer)) fun slot =>
      { slot with children := slot.children.filter (· != id) }).changeAll shape.tops
        (.moveTo target.id)
    next.Surrounds (passed ++ target :: outer) (listed.filter (· != id)) ∧
      next.Holds (some target.id) shape children ∧
      Within (allSlots (passed ++ target :: outer) ++ shape.preorder) arena next := by
  obtain ⟨head, tail, chain⟩ : ∃ head tail, passed ++ target :: outer = head :: tail := by
    cases passed <;> exact ⟨_, _, rfl⟩
  rw [chain] at surrounds distinct ⊢
  obtain ⟨rootFresh, distinctParts⟩ := List.nodup_cons.1 distinct
  obtain ⟨_, distinctShape, apart⟩ := List.nodup_append'.1 distinctParts
  obtain ⟨_, distinctShape⟩ := List.nodup_cons.1 distinctShape
  obtain ⟨notCaller, apartShape⟩ := List.disjoint_cons_right.1 apart
  have notRoot : rootId ∉ shape.preorder := fun member => rootFresh (by simp [member])
  have tops := Forest.tops_sublist_preorder shape
  have unlisting := Within.change arena head.id fun slot =>
    { slot with children := slot.children.filter (· != id) }
  have unlisted := surrounds.unlist
    (((List.sublist_append_left _ _).cons_cons rootId).nodup distinct) notCaller
  have belowThen := below.within unlisting
    (List.disjoint_singleton.2 fun member => apartShape List.mem_cons_self member)
  intro next
  have moving : Within shape.tops _ next := .changeAll _ shape.tops (.moveTo target.id)
  refine ⟨unlisted.within (moving.mono tops.subset)
    (List.disjoint_cons_left.2 ⟨notRoot, apartShape⟩), ?_, ?_⟩
  · refine belowThen.moved distinctShape (Nat.le_of_eq moving.size.symm)
      (fun other member => ?_) fun other _ absent => moving.slot other absent
    exact slot_changeAll_of_mem (tops.nodup distinctShape) member
      (belowThen.lt_size other (tops.subset member))
  · exact (Within.change_of_mem (List.mem_append_left _ List.mem_cons_self) _ _).trans
      (moving.mono fun other member => List.mem_append_right _ (tops.subset member))

/-- A caller counts the calls of a slot and lists what the slot had below it. -/
theorem Surrounds.takeOver (surrounds : arena.Surrounds (passed ++ target :: outer) listed)
    (moved : arena.Holds (some target.id) shape children)
    (distinct : (rootId :: (allSlots (passed ++ target :: outer) ++ shape.preorder)).Nodup)
    (grown : Node) :
    (arena.change target.id fun slot => (slot.hold grown).adopt shape.tops).Surrounds
      (passed ++ target.takeOver grown shape children :: outer) listed := by
  obtain ⟨apart, fresh⟩ := CallerSlot.apart_of_nodup
    (((List.sublist_append_left _ _).cons_cons rootId).nodup distinct)
  have notShape : target.id ∉ shape.preorder := fun member =>
    (List.nodup_append'.1 (List.nodup_cons.1 distinct).2).2.2 (by simp) member
  have growing := Within.change arena target.id fun slot => (slot.hold grown).adopt shape.tops
  have held := (surrounds.held target (by simp)).within growing (List.disjoint_singleton.2 fresh)
  refine surrounds.change _ rfl apart (fun parent own => ?_)
    (held.append (moved.within growing (List.disjoint_singleton.2 notShape)))
  simp [Slot.hold, Slot.adopt, CallerSlot.takeOver]

/-- Folding a slot into one of the callers around cuts it off, and the caller takes it over. -/
theorem foldInto_matches (surrounds : arena.Surrounds (passed ++ target :: outer) listed)
    (inside : id < arena.size)
    (slot : arena.slot id = ⟨node, some (innermost (passed ++ target :: outer)), shape.tops⟩)
    (below : arena.Holds (some id) shape children)
    (distinct : (rootId :: (allSlots (passed ++ target :: outer) ++ id :: shape.preorder)).Nodup)
    (exclusive inner : Nat) :
    Matches Eq (fun next grown =>
        next.Surrounds (passed ++ target.takeOver grown shape children :: outer)
          (listed.filter (· != id)) ∧ next.CutOff id ∧
        Within (allSlots (passed ++ target :: outer) ++ id :: shape.preorder) arena next)
      (arena.foldInto id target.id exclusive)
      (target.node.takeIn (node.leaving inner children)) := by
  have apart : id ∉ rootId :: allSlots (passed ++ target :: outer) ∧ id ∉ shape.preorder := by
    obtain ⟨rootFresh, distinctParts⟩ := List.nodup_cons.1 distinct
    obtain ⟨_, distinctShape, apart⟩ := List.nodup_append'.1 distinctParts
    refine ⟨?_, (List.nodup_cons.1 distinctShape).1⟩
    rw [List.mem_cons, not_or]
    exact ⟨fun same => rootFresh (by simp [same]), fun member => apart member List.mem_cons_self⟩
  have targetCaller : target.id ∈ allSlots (passed ++ target :: outer) := by simp
  have takes (node : Node) : node.takeIn (arena.folded id exclusive) =
      node.takeIn ((arena.node id).leaving inner children) := rfl
  have ownNode : arena.node id = node := by rw [Arena.node, slot]
  obtain ⟨around, moved, within⟩ := surrounds.relink below distinct
  rw [foldInto]
  simp only [slot, takes, ownNode]
  generalize (arena.change (innermost (passed ++ target :: outer)) fun slot =>
    { slot with children := slot.children.filter (· != id) }).changeAll shape.tops
      (.moveTo target.id) = linked at around moved within ⊢
  rw [around.node_eq target (by simp)]
  cases target.node.takeIn (node.leaving inner children) with
  | error reason => exact .stopped rfl
  | ok grown =>
      simp only [ok_bind]
      have grownAround := around.takeOver moved
        (((List.sublist_cons_self id _).append_left _).cons_cons rootId |>.nodup distinct) grown
      have changes := within.trans (.change_of_mem (List.mem_append_left _ targetCaller) linked
        fun slot => (slot.hold grown).adopt shape.tops)
      generalize (linked.change target.id fun slot => (slot.hold grown).adopt shape.tops) =
        grownArena at grownAround changes ⊢
      have cutting := Within.change grownArena id fun cut =>
        { cut with parent := none, children := [] }
      refine .done ⟨grownAround.within cutting (List.disjoint_singleton.2 ?_), ?_, ?_⟩
      · simp only [List.mem_cons, not_or, (CallerSlot.allSlots_takeOver_perm).mem_iff,
          List.mem_append] at apart ⊢
        exact ⟨apart.1.1, apart.1.2, apart.2⟩
      · have known : id < grownArena.size := Nat.lt_of_lt_of_eq inside changes.size.symm
        rw [CutOff, slot_change_self known]
        exact ⟨rfl, rfl⟩
      · refine (changes.mono fun other member => ?_).trans
          (.change_of_mem (List.mem_append_right _ List.mem_cons_self) _ _)
        simp only [List.mem_append, List.mem_cons] at member ⊢
        exact member.imp_right .inr

/-- A slot without a namesake among its callers stays where it is. -/
theorem foldAt_of_fresh (surrounds : arena.Surrounds callers listed)
    (link : (arena.slot id).parent = some (innermost callers))
    (distinct : (rootId :: allSlots callers).Nodup)
    (fresh : ∀ caller ∈ callers, caller.node.name ≠ arena.name id) (count : Nat) :
    foldAt (arena, count) id = .ok (arena, count) := by
  have missing : (callers.map (·.id)).find? (fun other => arena.name other == arena.name id) =
      none := by
    refine List.find?_eq_none.2 fun other member found => ?_
    obtain ⟨caller, around, rfl⟩ := List.mem_map.1 member
    rw [beq_iff_eq, name, surrounds.node_eq caller around] at found
    exact fresh caller around found
  rw [foldAt]
  simp only [surrounds.around_eq link distinct, missing]

/-- The search for a namesake ends at the first caller of the name and passes those before it. -/
theorem Surrounds.search (surrounds : arena.Surrounds (passed ++ target :: outer) listed)
    {own : String} (others : ∀ caller ∈ passed, caller.node.name ≠ own)
    (namesake : target.node.name = own) :
    ((passed ++ target :: outer).map (·.id)).find? (fun other => arena.name other == own) =
        some target.id ∧
      ((passed ++ target :: outer).map (·.id)).takeWhile
        (fun other => !(arena.name other == own)) = passed.map (·.id) := by
  have passes : ∀ other ∈ passed.map (·.id), (!(arena.name other == own)) = true := by
    refine List.forall_mem_map.2 fun caller member => ?_
    rw [name, surrounds.node_eq caller (List.mem_append_left _ member), Bool.not_eq_true',
      beq_eq_false_iff_ne]
    exact others caller member
  have stops : (arena.name target.id == own) = true := by
    rw [name, surrounds.node_eq target (by simp), namesake, beq_self_eq_true]
  rw [List.map_append, List.map_cons]
  constructor
  · refine List.find?_eq_some_iff_append.2 ⟨stops, _, _, rfl, fun other member => ?_⟩
    exact passes other member
  · rw [List.takeWhile_append_of_pos passes, List.takeWhile_cons, stops, Bool.not_true,
      if_neg Bool.false_ne_true, List.append_nil]

/-- A slot passes the callers between and goes into its namesake, as its node does that is handed
outwards. -/
theorem handOut_matches (surrounds : arena.Surrounds (passed ++ target :: outer) listed)
    (inside : id < arena.size)
    (slot : arena.slot id = ⟨node, some (innermost (passed ++ target :: outer)), shape.tops⟩)
    (below : arena.Holds (some id) shape children)
    (distinct : (rootId :: (allSlots (passed ++ target :: outer) ++ id :: shape.preorder)).Nodup)
    (others : ∀ caller ∈ passed, caller.node.name ≠ node.name)
    (namesake : target.node.name = node.name) (inner count : Nat) :
    Matches Eq (fun state around => ∃ revised : List CallerSlot,
        revised.map (·.toCaller) = around ∧ state.1.Surrounds revised (listed.filter (· != id)) ∧
        Handed (passed ++ target :: outer) (id :: shape.preorder) (arena, count) state revised []
          [id])
      ((arena.changeAll (passed.map (·.id)) fun slot =>
        slot.hold (slot.node.letPass [node.leaving inner children])).foldInto id target.id
          (node.realtime - inner) >>= fun next => pure (next, count + 1))
      (Caller.handOut ((passed ++ target :: outer).map (·.toCaller))
        (node.leaving inner children)) := by
  have passing := surrounds.passAll [] (node.leaving inner children)
    (((List.sublist_append_left _ _).cons_cons rootId).nodup distinct)
  have sameSlots : allSlots (passed.map (·.letPass (node.leaving inner children)) ++
      target :: outer) = allSlots (passed ++ target :: outer) := by
    rw [CallerSlot.allSlots_append, CallerSlot.allSlots_map_letPass, CallerSlot.allSlots_append]
  have sameInnermost : innermost (passed.map (·.letPass (node.leaving inner children)) ++
      target :: outer) = innermost (passed ++ target :: outer) := by
    cases passed <;> rfl
  have changed := Within.changeAll arena (passed.map (·.id)) fun slot =>
    slot.hold (slot.node.letPass [node.leaving inner children])
  have known : passed.map (·.id) ⊆ allSlots (passed ++ target :: outer) := by
    rw [CallerSlot.allSlots_append]
    exact fun other member =>
      List.mem_append_left _ ((CallerSlot.map_id_sublist passed).subset member)
  generalize (arena.changeAll (passed.map (·.id)) fun slot =>
    slot.hold (slot.node.letPass [node.leaving inner children])) = first at passing changed ⊢
  have apart := (List.nodup_append'.1 (List.nodup_cons.1 distinct).2).2.2
  obtain ⟨notCaller, apartShape⟩ := List.disjoint_cons_right.1 apart
  have ownSlot := (changed.slot id fun member => notCaller (known member)).trans slot
  rw [← sameInnermost] at ownSlot
  have folding := foldInto_matches passing (changed.size ▸ inside) ownSlot
    (below.within changed fun other inShape member => apartShape (known member) inShape)
    (sameSlots ▸ distinct) (node.realtime - inner) inner
  have passes : ∀ caller ∈ passed.map (·.toCaller),
      (node.leaving inner children).name ≠ caller.node.name :=
    List.forall_mem_map.2 fun caller member same => others caller member same.symm
  rw [List.map_append, List.map_cons, Caller.handOut_of_parted passes namesake.symm]
  refine folding.bind ?_
  rintro next grown ⟨around, cut, within⟩
  apply Matches.done
  refine ⟨_, ?_, around, ?_, ?_, ?_, fun other member => List.mem_singleton.1 member ▸ cut, rfl⟩
  · simp [CallerSlot.letPass, CallerSlot.takeOver, Node.leaving]
  · simp [CallerSlot.letPass, CallerSlot.takeOver, CallerSlot.place]
  · refine (CallerSlot.allSlots_takeOver_perm.append_right _).trans ?_
    rw [sameSlots, List.append_assoc]
    exact (List.perm_append_singleton id shape.preorder).append_left _
  · rw [sameSlots] at within
    exact (changed.mono fun other member => List.mem_append_left _ (known member)).trans within

/-- A slot with a namesake among its callers is handed outwards along them. -/
theorem foldAt_matches (surrounds : arena.Surrounds callers listed) (inside : id < arena.size)
    (slot : arena.slot id = ⟨node, some (innermost callers), shape.tops⟩)
    (below : arena.Holds (some id) shape children)
    (distinct : (rootId :: (allSlots callers ++ id :: shape.preorder)).Nodup)
    (recursive : ∃ caller ∈ callers, caller.node.name = node.name) (count : Nat) :
    Matches Eq (fun state around => ∃ revised : List CallerSlot,
        revised.map (·.toCaller) = around ∧ state.1.Surrounds revised (listed.filter (· != id)) ∧
        Handed callers (id :: shape.preorder) (arena, count) state revised [] [id])
      (foldAt (arena, count) id)
      (children.realtime >>= fun inner =>
        Caller.handOut (callers.map (·.toCaller)) (node.leaving inner children)) := by
  obtain ⟨target, found⟩ : ∃ target,
      callers.find? (fun caller => caller.node.name == node.name) = some target := by
    obtain ⟨caller, around, same⟩ := recursive
    exact Option.isSome_iff_exists.1 (List.find?_isSome.2 ⟨caller, around, beq_iff_eq.2 same⟩)
  obtain ⟨namesake, passed, outer, rfl, others⟩ := List.find?_eq_some_iff_append.1 found
  rw [beq_iff_eq] at namesake
  simp only [Bool.not_eq_true', beq_eq_false_iff_ne] at others
  have ownNode : arena.node id = node := by rw [Arena.node, slot]
  have ownName : arena.name id = node.name := congrArg Node.name ownNode
  have exclusive : arena.exclusive id = children.realtime >>= fun inner =>
      pure (node.realtime - inner) := by
    rw [Arena.exclusive, below.overChildren (by rw [slot]), ownNode]
    rfl
  obtain ⟨search, between⟩ := surrounds.search others namesake
  rw [foldAt]
  simp only [surrounds.around_eq (by rw [slot])
    (((List.sublist_append_left _ _).cons_cons rootId).nodup distinct), ownName, search, between,
    exclusive, bind_assoc, pure_bind]
  exact .bind_same fun inner _ =>
    handOut_matches surrounds inside slot below distinct others namesake inner count

/-- A slot that stayed so far, with what it has below it by then, is handed outwards as well. -/
theorem Handed.foldAt {state next : Arena × Nat} {outer : List CallerSlot} {own : Forest Nat}
    {ids others gone : List Nat}
    (handed : Handed callers ids state next outer (id :: own.preorder) gone)
    (distinct : (rootId :: (allSlots callers ++ (ids ++ others))).Nodup)
    (surrounds : next.1.Surrounds outer listed) (inside : id < next.1.size)
    (slot : next.1.slot id = ⟨node, some (innermost outer), own.tops⟩)
    (below : next.1.Holds (some id) own children)
    (recursive : ∃ caller ∈ outer, caller.node.name = node.name) :
    Matches Eq (fun last around => ∃ (revised : List CallerSlot) (further : List Nat),
        revised.map (·.toCaller) = around ∧
        last.1.Surrounds revised (listed.filter (· != id)) ∧
        Handed callers ids state last revised [] further)
      (foldAt next id)
      (children.realtime >>= fun inner =>
        Caller.handOut (outer.map (·.toCaller)) (node.leaving inner children)) := by
  have distinctIds : (rootId :: (allSlots callers ++ ids)).Nodup :=
    (((List.sublist_append_left _ _).append_left _).cons_cons rootId).nodup distinct
  have distinctNext := handed.nodup distinctIds
  refine (foldAt_matches surrounds inside slot below
    ((((List.sublist_append_left _ _).append_left _).cons_cons rootId).nodup distinctNext)
    recursive next.2).imp (fun _ _ _ _ same => same) ?_
  rintro last _ - - ⟨revised, rfl, around, folded⟩
  exact ⟨revised, _, rfl, around, handed.trans distinctIds folded⟩

/-! ## Folding the slots of a shape -/

/-- What the walk over the slots of a shape comes to: the slots that are kept hold what remains of
the forest, and the callers around have taken the rest over. The innermost one lists others before
and after the slots of the shape. -/
def Folds (callers : List CallerSlot) (shape : Forest Nat) (before after : List Nat)
    (state next : Arena × Nat) (result : Forest Node × List Caller) : Prop :=
  ∃ (revised : List CallerSlot) (kept : Forest Nat) (gone : List Nat),
    revised.map (·.toCaller) = result.2 ∧
    next.1.Holds (some (innermost callers)) kept result.1 ∧
    next.1.Surrounds revised (before ++ (kept.tops ++ after)) ∧
    Handed callers shape.preorder state next revised kept.preorder gone

namespace Folds

variable {state next last : Arena × Nat} {revised : List CallerSlot} {inner later own : Forest Nat}
  {gone : List Nat} {rest : Forest Node} {around : List Caller}

/-- Once the slots below a slot are gone through, it holds what is left there and what it has taken
over as a caller. -/
theorem leave {beside : List Nat} {remaining : Forest Node} {around : List Caller}
    (folds : Folds (⟨⟨label, .nil⟩, id, .nil, beside⟩ :: callers) inner [] [] state next
      (remaining, around)) :
    ∃ (taken : Caller) (outer : List CallerSlot) (own : Forest Nat) (gone : List Nat),
      around = taken :: outer.map (·.toCaller) ∧ id < next.1.size ∧
      next.1.slot id = ⟨taken.node, some (innermost outer), own.tops⟩ ∧
      next.1.Holds (some id) own (remaining.append taken.taken) ∧ next.1.Surrounds outer beside ∧
      Handed callers (id :: inner.preorder) state next outer (id :: own.preorder) gone := by
  obtain ⟨_, kept, gone, rfl, held, surrounds, handed⟩ := folds
  obtain ⟨own, outer, rfl, place⟩ := handed.exists_innermost
  obtain ⟨sameId, sameBeside⟩ := Prod.mk.inj place
  cases surrounds with
  | caller inside slot taken around =>
      rw [sameId] at inside slot taken
      rw [sameBeside] at around
      have left := handed.leave rfl
      simp only [List.nil_append, List.append_nil, ← Forest.tops_append] at slot
      rw [← Forest.preorder_append] at left
      exact ⟨own.toCaller, outer, kept.append own.adopted, gone, rfl, inside, slot,
        held.append taken, around, left⟩

/-- A slot that was cut off leaves what comes after it. -/
theorem ofGone (handed : Handed callers (id :: inner.preorder) state next revised [] gone)
    (distinct : (rootId :: (allSlots callers ++ (Forest.node id inner later).preorder)).Nodup)
    (beside : Folds revised later before after next last (rest, around)) :
    Folds callers (.node id inner later) before after state last (rest, around) := by
  obtain ⟨final, stay, further, callersEq, held, surrounds, beyond⟩ := beside
  rw [handed.innermost_eq] at held
  exact ⟨final, stay, _, callersEq, held, surrounds,
    (handed.append_right later.preorder).trans distinct beyond⟩

/-- A slot that stays does so with what it has below it by then. -/
theorem ofKept (handed : Handed callers (id :: inner.preorder) state next revised
      (id :: own.preorder) gone)
    (distinct : (rootId :: (allSlots callers ++ (Forest.node id inner later).preorder)).Nodup)
    (inside : id < next.1.size)
    (slot : next.1.slot id = ⟨node, some (innermost callers), own.tops⟩)
    (below : next.1.Holds (some id) own children)
    (beside : Folds revised later (before ++ [id]) after next last (rest, around)) :
    Folds callers (.node id inner later) before after state last
      (.node node children rest, around) := by
  obtain ⟨final, stay, further, callersEq, held, surrounds, beyond⟩ := beside
  have distinctNext := (List.nodup_cons.1 (handed.nodup_beside distinct)).2
  rw [List.nodup_append', List.nodup_append', List.disjoint_append_right] at distinctNext
  obtain ⟨_, ⟨_, _, apartLater⟩, apartCallers, _⟩ := distinctNext
  obtain ⟨fresh, apart⟩ := List.disjoint_cons_left.1
    (List.disjoint_append_right.2 ⟨List.disjoint_comm.1 apartCallers, apartLater⟩)
  rw [handed.innermost_eq] at held
  refine ⟨final, .node id own stay, _, callersEq, .node ?_ ?_ (below.within beyond.within apart)
    held, ?_, (handed.append_right later.preorder).trans distinct (beyond.append_left _)⟩
  · exact Nat.lt_of_lt_of_eq inside beyond.within.size.symm
  · rw [beyond.within.slot id fresh, slot]
  · simpa [Forest.tops] using surrounds

end Folds

/-- The walk over the slots of a shape hands recursive nodes outwards as the walk over the forest
does that they hold. -/
theorem Holds.foldOutwards (holds : arena.Holds (some (innermost callers)) shape forest)
    (surrounds : arena.Surrounds callers (before ++ (shape.tops ++ after)))
    (distinct : (rootId :: (allSlots callers ++ shape.preorder)).Nodup)
    (apart : (before ++ after).Disjoint shape.preorder) (count : Nat) :
    Matches Eq (Folds callers shape before after (arena, count))
      (shape.postorder.foldlM foldAt (arena, count))
      (forest.foldOutwards (callers.map (·.toCaller))) := by
  induction forest generalizing arena callers before after shape count with
  | nil =>
      cases holds
      exact .done ⟨callers, .nil, [], rfl, .nil, surrounds, .refl _ _ _⟩
  | node label children siblings childrenHypothesis siblingsHypothesis =>
      cases holds with
      | @node _ id _ inner later _ _ inside slot below beside =>
      obtain ⟨notListed, apart⟩ := List.disjoint_cons_right.1 apart
      have apartLater := (List.disjoint_append_right.1 apart).2
      have besideSlots : later.preorder.Disjoint (allSlots callers ++ id :: inner.preorder) := by
        have all := (List.nodup_cons.1 distinct).2
        rw [Forest.preorder, ← List.cons_append, ← List.append_assoc] at all
        exact List.disjoint_comm.1 (List.nodup_append'.1 all).2.2
      have notLater : id ∉ later.preorder := fun member => besideSlots member (by simp)
      -- While the slots below are folded, this one is a caller as well.
      have surroundsOwn : arena.Surrounds (⟨⟨label, .nil⟩, id, .nil,
          before ++ (id :: (later.tops ++ after))⟩ :: callers) ([] ++ (inner.tops ++ [])) :=
        .caller inside (by simp [slot, Forest.tops]) .nil surrounds
      have within := childrenHypothesis below surroundsOwn (CallerSlot.nodup_within distinct)
        (List.disjoint_nil_left _) count
      rw [Forest.postorder, List.foldlM_append, Forest.foldOutwards]
      refine within.bind ?_
      rintro ⟨first, counted⟩ ⟨remaining, _⟩ folds
      obtain ⟨taken, outer, own, gone, rfl, ownInside, ownSlot, held, around, handed⟩ := folds.leave
      rw [List.foldlM_cons]
      by_cases recursive : ∃ caller ∈ outer, caller.node.name = taken.node.name
      · have namesake : (outer.map (·.toCaller)).any
            (fun caller => caller.node.name == taken.node.name) = true := by
          simpa using recursive
        simp only [namesake, if_true]
        rw [← bind_assoc]
        refine (handed.foldAt distinct around ownInside ownSlot held recursive).bind ?_
        rintro ⟨second, total⟩ _ ⟨revised, further, rfl, aroundSecond, handedSecond⟩
        have besideSecond := beside.within handedSecond.within besideSlots
        rw [← handedSecond.innermost_eq] at besideSecond
        rw [List.mem_append, not_or] at notListed
        have notAfter : id ∉ later.tops ++ after := fun member =>
          (List.mem_append.1 member).elim (notLater ∘ Forest.mem_preorder_of_mem_tops) notListed.2
        rw [filter_bne_of_listed notListed.1 notAfter] at aroundSecond
        exact (siblingsHypothesis besideSecond aroundSecond (handedSecond.nodup_beside distinct)
          apartLater total).imp (fun _ _ _ _ same => same)
            fun _ _ _ _ => .ofGone handedSecond distinct
      · have unmatched : (outer.map (·.toCaller)).any
            (fun caller => caller.node.name == taken.node.name) = false := by
          simpa using recursive
        simp only [unmatched, Bool.false_eq_true, if_false]
        have distinctFirst := handed.nodup_beside distinct
        have ownName : first.name id = taken.node.name := by rw [name, Arena.node, ownSlot]
        have fresh : ∀ caller ∈ outer, caller.node.name ≠ first.name id :=
          fun caller member same => recursive ⟨caller, member, same.trans ownName⟩
        rw [foldAt_of_fresh around (by rw [ownSlot])
          (((List.sublist_append_left _ _).cons_cons rootId).nodup distinctFirst) fresh, ok_bind]
        have besideFirst := beside.within handed.within besideSlots
        rw [← handed.innermost_eq] at besideFirst
        rw [handed.innermost_eq] at ownSlot
        have surroundsFirst :
            first.Surrounds outer ((before ++ [id]) ++ (later.tops ++ after)) := by
          simpa using around
        refine (siblingsHypothesis besideFirst surroundsFirst ?_ ?_ counted).bind_pure
          fun _ _ => .ofKept handed distinct ownInside ownSlot held
        · exact ((List.sublist_append_right _ _).append_left _).cons_cons rootId |>.nodup
            distinctFirst
        · rw [List.disjoint_append_left] at apartLater
          rw [List.disjoint_append_left, List.disjoint_append_left, List.singleton_disjoint]
          exact ⟨⟨apartLater.1, notLater⟩, apartLater.2⟩

end CallProfiler.Arena
