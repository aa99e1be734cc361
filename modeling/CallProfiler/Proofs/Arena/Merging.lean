import CallProfiler.Proofs.Arena.Gathering
import CallProfiler.Proofs.CallTree.Collapsing
import CallProfiler.Proofs.CallTree.Refusals

/-!
# Merging in an arena

The walk gathers the children of one slot and then goes on below those that are left, so it takes
a step for every slot that stays. It comes to the slots of the tree that merging makes of the tree
that the arena holds, and stops where that stops.
-/

namespace CallProfiler.Arena

variable {ε : Type} {permit : Node → Except ε Unit} {combine : Node → Node → Except ε Node}
  {arena next : Arena} {parent : Option Nat} {id : Nat} {shape inner later : Forest Nat}
  {forest children siblings : Forest Node} {label survivor : Node} {Possible : ε → Prop}

/-! ## The walk -/

theorem mergeFrom_nil (steps : Nat) : mergeFrom permit combine steps [] arena = .ok arena := by
  cases steps <;> rfl

/-- In a number of steps the walk goes through the slots on top of a stack, and no further. -/
def Passes (permit : Node → Except ε Unit) (combine : Node → Node → Except ε Node)
    (arena next : Arena) (steps : Nat) (tops : List Nat) : Prop :=
  ∀ more pending, mergeFrom permit combine (steps + more) (tops ++ pending) arena =
    mergeFrom permit combine more pending next

/-- Within a number of steps the walk stops in or below the slots on top of a stack. -/
def StopsWithin (permit : Node → Except ε Unit) (combine : Node → Node → Except ε Node)
    (arena : Arena) (steps : Nat) (tops : List Nat) (reason : ε) : Prop :=
  ∀ more pending, mergeFrom permit combine (steps + more) (tops ++ pending) arena = .error reason

section Steps

variable {middle last : Arena} {tops others : List Nat} {steps further bound : Nat} {reason : ε}

theorem mergeFrom_cons (done : arena.mergeChildren permit combine id = .ok middle)
    (listed : (middle.slot id).children = tops) (steps : Nat) (pending : List Nat) :
    mergeFrom permit combine (steps + 1) (id :: pending) arena =
      mergeFrom permit combine steps (tops ++ pending) middle := by
  rw [mergeFrom, done, ok_bind, listed]

theorem Passes.nil (arena : Arena) : Passes permit combine arena arena 0 [] := by
  intro more pending
  rw [Nat.zero_add, List.nil_append]

theorem Passes.node (done : arena.mergeChildren permit combine id = .ok middle)
    (listed : (middle.slot id).children = tops)
    (below : Passes permit combine middle next steps tops)
    (beside : Passes permit combine next last further others) :
    Passes permit combine arena last (1 + steps + further) (id :: others) := by
  intro more pending
  have count : 1 + steps + further + more = (steps + (further + more)) + 1 := by omega
  rw [count, List.cons_append, mergeFrom_cons done listed, below, beside]

namespace StopsWithin

theorem mono (stops : StopsWithin permit combine arena steps tops reason) (few : steps ≤ bound) :
    StopsWithin permit combine arena bound tops reason := by
  intro more pending
  have count : bound + more = steps + (bound - steps + more) := by omega
  rw [count, stops]

theorem ofOwn (stopped : arena.mergeChildren permit combine id = .error reason) :
    StopsWithin permit combine arena 1 (id :: others) reason := by
  intro more pending
  rw [Nat.add_comm, List.cons_append, mergeFrom, stopped]
  rfl

theorem ofBelow (done : arena.mergeChildren permit combine id = .ok middle)
    (listed : (middle.slot id).children = tops)
    (stops : StopsWithin permit combine middle steps tops reason) :
    StopsWithin permit combine arena (1 + steps) (id :: others) reason := by
  intro more pending
  have count : 1 + steps + more = (steps + more) + 1 := by omega
  rw [count, List.cons_append, mergeFrom_cons done listed, stops]

theorem ofBeside (done : arena.mergeChildren permit combine id = .ok middle)
    (listed : (middle.slot id).children = tops)
    (below : Passes permit combine middle next steps tops)
    (stops : StopsWithin permit combine next further others reason) :
    StopsWithin permit combine arena (1 + steps + further) (id :: others) reason := by
  intro more pending
  have count : 1 + steps + further + more = (steps + (further + more)) + 1 := by omega
  rw [count, List.cons_append, mergeFrom_cons done listed, below, stops]

end StopsWithin

end Steps

/-- Merging from the slots of a shape on, and merging below the trees that they hold, come to the
same trees. The walk takes a step for every slot that is left. -/
structure MergesTo (permit : Node → Except ε Unit) (combine : Node → Node → Except ε Node)
    (arena : Arena) (parent : Option Nat) (shape : Forest Nat) (forest : Forest Node)
    (next : Arena) (result : Forest Nat) (merged : Forest Node) : Prop where
  done : Forest.mergeBelow (Forest.admitting permit combine) forest = .ok merged
  rebuilt : next.Rebuilt shape.preorder parent result merged
  tops : result.tops = shape.tops
  within : Within shape.preorder arena next
  passes : Passes permit combine arena next result.size shape.tops

/-- Both merges stop. -/
structure MergeStops (permit : Node → Except ε Unit) (combine : Node → Node → Except ε Node)
    (arena : Arena) (shape : Forest Nat) (forest : Forest Node) (reason : ε) : Prop where
  never : ∀ merged, Forest.mergeBelow (Forest.admitting permit combine) forest ≠ .ok merged
  stops : StopsWithin permit combine arena shape.size shape.tops reason

section Trees

variable {middle last : Arena} {found result resultLater : Forest Nat}
  {gathered merged mergedLater : Forest Node} {reason : ε}

namespace ChildrenMerged

/-- Merging further below changes no other slots. -/
theorem trans (own : ChildrenMerged arena middle id label parent inner found gathered)
    (within : Within found.preorder middle next) : Within (id :: inner.preorder) arena next :=
  own.within.trans (within.mono fun _ member =>
    List.mem_cons_of_mem id (own.rebuilt.subset member))

theorem size_le (own : ChildrenMerged arena middle id label parent inner found gathered) :
    found.size ≤ inner.size := by
  have few := own.rebuilt.size_le
  rwa [Forest.length_preorder] at few

theorem listed (own : ChildrenMerged arena middle id label parent inner found gathered) :
    (middle.slot id).children = found.tops := by
  rw [own.slot]

end ChildrenMerged

theorem MergesTo.nil (arena : Arena) (parent : Option Nat) :
    MergesTo permit combine arena parent .nil .nil arena .nil .nil where
  done := rfl
  rebuilt := ⟨.nil, [], .nil, nofun⟩
  tops := rfl
  within := .refl _ _
  passes := .nil arena

theorem MergesTo.size_le
    (merges : MergesTo permit combine arena parent inner children next result merged) :
    result.size ≤ inner.size := by
  have few := merges.rebuilt.size_le
  rwa [Forest.length_preorder] at few

/-- A slot is merged once its children are, then what is below them, then what is beside it. -/
theorem MergesTo.node (inside : id < arena.size)
    (distinct : (Forest.node id inner later).preorder.Nodup)
    (done : arena.mergeChildren permit combine id = .ok middle)
    (gathers : Forest.gather (Forest.admitting permit combine) .nil children = .ok gathered)
    (own : ChildrenMerged arena middle id label parent inner found gathered)
    (below : MergesTo permit combine middle (some id) found gathered next result merged)
    (beside : MergesTo permit combine next parent later siblings last resultLater mergedLater) :
    MergesTo permit combine arena parent (.node id inner later) (.node label children siblings)
      last (.node id result resultLater) (.node label merged mergedLater) := by
  obtain ⟨fresh, distinctParts⟩ := List.nodup_cons.1 distinct
  obtain ⟨distinctInner, _, apart⟩ := List.nodup_append'.1 distinctParts
  rw [List.mem_append, not_or] at fresh
  have changed := own.trans below.within
  constructor
  case done =>
    exact Forest.mergeBelow_node_iff.2 ⟨merged, mergedLater,
      Forest.mergeInto_iff_gather.2 ⟨gathered, gathers, below.done⟩, beside.done, rfl⟩
  case rebuilt =>
    have together := own.rebuilt.trans distinctInner below.within below.rebuilt
    have outside : id ∉ found.preorder := fun member => fresh.1 (own.rebuilt.subset member)
    refine .node ?_ ?_ (together.within beside.within apart) beside.rebuilt
    · rw [beside.within.size, changed.size]
      exact inside
    · rw [beside.within.slot id fresh.2, below.within.slot id outside, own.slot, below.tops]
  case tops => rw [Forest.tops, Forest.tops, beside.tops]
  case within =>
    refine (changed.mono ?_).trans (beside.within.mono ?_)
    · exact List.cons_subset_cons id (List.subset_append_left _ _)
    · exact List.Subset.trans (List.subset_append_right _ _) (List.subset_cons_self _ _)
  case passes => exact .node done own.listed below.passes beside.passes

namespace MergeStops

/-- The merge of a slot's own children stops. -/
theorem ofOwn {other : ε} (stopped : arena.mergeChildren permit combine id = .error reason)
    (outcome : Forest.gather (Forest.admitting permit combine) .nil children = .error other) :
    MergeStops permit combine arena (.node id inner later) (.node label children siblings)
      reason where
  never := by
    intro _ done
    obtain ⟨_, _, mergedInto, _⟩ := Forest.mergeBelow_node_iff.1 done
    obtain ⟨_, gathers, _⟩ := Forest.mergeInto_iff_gather.1 mergedInto
    cases outcome.symm.trans gathers
  stops := by
    refine (StopsWithin.ofOwn stopped).mono ?_
    rw [Forest.size]
    omega

/-- The merge stops below the children that are left. -/
theorem ofBelow (done : arena.mergeChildren permit combine id = .ok middle)
    (gathers : Forest.gather (Forest.admitting permit combine) .nil children = .ok gathered)
    (own : ChildrenMerged arena middle id label parent inner found gathered)
    (below : MergeStops permit combine middle found gathered reason) :
    MergeStops permit combine arena (.node id inner later) (.node label children siblings)
      reason where
  never := by
    intro _ done
    obtain ⟨_, _, mergedInto, _⟩ := Forest.mergeBelow_node_iff.1 done
    obtain ⟨_, again, mergedBelow⟩ := Forest.mergeInto_iff_gather.1 mergedInto
    cases gathers.symm.trans again
    exact below.never _ mergedBelow
  stops := by
    refine (StopsWithin.ofBelow done own.listed below.stops).mono ?_
    have few := own.size_le
    rw [Forest.size]
    omega

/-- The merge stops beside a slot with which it has come to an end. -/
theorem ofBeside (done : arena.mergeChildren permit combine id = .ok middle)
    (own : ChildrenMerged arena middle id label parent inner found gathered)
    (below : MergesTo permit combine middle (some id) found gathered next result merged)
    (beside : MergeStops permit combine next later siblings reason) :
    MergeStops permit combine arena (.node id inner later) (.node label children siblings)
      reason where
  never := by
    intro _ done
    obtain ⟨_, _, _, mergedBeside, _⟩ := Forest.mergeBelow_node_iff.1 done
    exact beside.never _ mergedBeside
  stops := by
    refine (StopsWithin.ofBeside done own.listed below.passes beside.stops).mono ?_
    have few := Nat.le_trans below.size_le own.size_le
    rw [Forest.size]
    omega

end MergeStops

end Trees

/-- Merging from the slots of a shape on ends where merging below the trees that they hold does. -/
theorem mergeFrom_cases (keepsName : Keeps combine Node.name)
    (combines : ∀ survivor absorbed reason, combine survivor absorbed = .error reason →
      Possible reason)
    (holds : arena.Holds parent shape forest) (distinct : shape.preorder.Nodup)
    (admits : ∀ node ∈ forest.beneath, ∀ reason, permit node = .error reason → Possible reason) :
    (∃ next result merged,
      MergesTo permit combine arena parent shape forest next result merged) ∨
    ∃ reason, Possible reason ∧ MergeStops permit combine arena shape forest reason := by
  -- What a slot has below it is another forest once its children are merged, but no larger one.
  induction size : forest.size using Nat.strong_induction_on
    generalizing arena parent shape forest with
  | h bound inductionHypothesis =>
  cases holds with
  | nil => exact .inl ⟨arena, .nil, .nil, .nil arena parent⟩
  | @node _ id label inner later children siblings inside slot below beside =>
      obtain ⟨fresh, distinctParts⟩ := List.nodup_cons.1 distinct
      obtain ⟨distinctInner, distinctLater, apart⟩ := List.nodup_append'.1 distinctParts
      rw [List.mem_append, not_or] at fresh
      rw [Forest.size] at size
      simp only [Forest.beneath, List.forall_mem_append] at admits
      have merging := mergeChildren_matches keepsName combines inside slot below
        (List.nodup_cons.2 ⟨fresh.1, distinctInner⟩)
        fun node member => admits.1 node (Forest.mem_preorder_of_mem_tops member)
      cases outcome : Forest.gather (Forest.admitting permit combine) .nil children with
      | error other =>
          obtain ⟨reason, stopped, possible⟩ := merging.left_of_error outcome
          exact .inr ⟨reason, possible, .ofOwn stopped outcome⟩
      | ok gathered =>
          obtain ⟨middle, done, found, own⟩ := merging.left_of_ok outcome
          have sizes := And.intro below.size_eq own.rebuilt.holds.size_eq
          have few := own.size_le
          have admitsBelow : ∀ node ∈ gathered.beneath, ∀ reason,
              permit node = .error reason → Possible reason := by
            intro node member
            rcases Forest.mem_beneath_gather outcome member with inNone | inChildren
            · cases inNone
            · exact admits.1 node (Forest.mem_preorder_of_mem_beneath inChildren)
          rcases inductionHypothesis gathered.size (by omega) own.rebuilt.holds
            (own.rebuilt.nodup distinctInner) admitsBelow rfl with
            ⟨next, result, merged, mergesBelow⟩ | ⟨reason, possible, stops⟩
          · have apartOwn : later.preorder.Disjoint (id :: inner.preorder) :=
              List.disjoint_cons_right.2 ⟨fresh.2, List.disjoint_comm.1 apart⟩
            have besideNext := beside.within (own.trans mergesBelow.within) apartOwn
            rcases inductionHypothesis siblings.size (by omega) besideNext distinctLater admits.2
              rfl with
              ⟨last, resultLater, mergedLater, mergesBeside⟩ | ⟨reason, possible, stops⟩
            · exact .inl ⟨last, _, _,
                .node inside distinct done outcome own mergesBelow mergesBeside⟩
            · exact .inr ⟨reason, possible, .ofBeside done own mergesBelow stops⟩
          · exact .inr ⟨reason, possible, .ofBelow done outcome own stops⟩

/-! ## Whole trees -/

namespace Lays

variable {tree : CallTree}

/-- Merging from the root on merges the children of the tree. -/
theorem mergeFrom (lays : arena.Lays shape tree) (permit : Node → Except ε Unit)
    (Possible : ε → Prop) (keepsName : Keeps combine Node.name)
    (combines : ∀ survivor absorbed reason, combine survivor absorbed = .error reason →
      Possible reason)
    (admits : ∀ node ∈ tree.children.preorder, ∀ reason, permit node = .error reason →
      Possible reason) :
    Matches (fun reason _ => Possible reason)
      (fun next children => next.Represents { tree with children })
      (mergeFrom permit combine arena.size [rootId] arena)
      (Forest.mergeInto (Forest.admitting permit combine) .nil tree.children) := by
  have mergeBelow_iff {merged : Forest Node} :
      Forest.mergeBelow (Forest.admitting permit combine) tree.whole = .ok merged ↔
        ∃ children, Forest.mergeInto (Forest.admitting permit combine) .nil tree.children =
          .ok children ∧ merged = .node tree.root children .nil := by
    rw [CallTree.whole, Forest.mergeBelow_node_iff]
    simp [Forest.mergeBelow]
  have enough := lays.size_le
  have distinct : (Forest.node rootId shape .nil).preorder.Nodup := by
    simpa [Forest.preorder] using lays.distinct
  rcases mergeFrom_cases keepsName combines lays.holds distinct (by
    simpa [CallTree.whole, Forest.beneath] using admits) with
    ⟨next, result, merged, merges⟩ | ⟨reason, possible, stops⟩
  · obtain ⟨children, done, rfl⟩ := mergeBelow_iff.1 merges.done
    have finished := merges.passes (arena.size - result.size) []
    rw [Nat.add_sub_of_le (Nat.le_trans merges.size_le enough), mergeFrom_nil] at finished
    obtain ⟨inner, rfl⟩ : ∃ inner, result = .node rootId inner .nil := by
      cases merges.rebuilt.holds with
      | node _ _ _ beside =>
          cases beside
          cases List.head_eq_of_cons_eq merges.tops
          exact ⟨_, rfl⟩
    have ids : (Forest.node rootId shape .nil).preorder = rootId :: shape.preorder := by
      rw [Forest.preorder, Forest.preorder, List.append_nil]
    have merging : next.Lays inner { tree with children } :=
      lays.rebuilt (ids ▸ merges.within) (ids ▸ merges.rebuilt)
    rw [done]
    exact finished ▸ .done ⟨inner, merging⟩
  · have finished := stops.stops (arena.size - (Forest.node rootId shape .nil).size) []
    rw [Nat.add_sub_of_le enough] at finished
    exact .of_stopped finished
      (fun children done => stops.never _ (mergeBelow_iff.2 ⟨_, done, rfl⟩)) fun _ => possible

theorem mergeSiblings (lays : arena.Lays shape tree) :
    Follows arena.mergeSiblings tree.mergeSiblings := by
  have merging := lays.mergeFrom (fun _ => .ok ()) (· = .addOverflow) Node.keeps_name
    (fun survivor absorbed _ => CallTree.overflows_absorb survivor absorbed _) (by simp)
  have exact : Matches Eq _ _ _ := merging.imp (fun reason other _ stopped same => by
    rw [same, CallTree.overflows_mergeInto _ _ other stopped]) fun _ _ _ _ related => related
  exact exact.bind_pure fun _ _ related => related

end Lays

/-! ## The strict merge -/

theorem admitting_admitSingle :
    Forest.admitting admitSingle
        (fun survivor absorbed => Stop.ofFault (survivor.absorb absorbed)) =
      Node.absorbSingle := by
  funext survivor absorbed
  rw [Forest.admitting, admitSingle, Node.absorbSingle]
  split <;> rfl

theorem keeps_name_ofFault : Keeps (fun survivor absorbed =>
    (Stop.ofFault (Node.absorb survivor absorbed) : Except (Stop AnalysisError) Node)) Node.name :=
  fun _ _ _ done => Node.keeps_name (Stop.ofFault_eq_ok_iff.1 done)

/-- Absorbing stops at a sum that leaves its width. -/
theorem reason_of_ofFault_absorb {absorbed : Node} {reason : Stop AnalysisError}
    (stopped : Stop.ofFault (survivor.absorb absorbed) = .error reason) :
    reason = .fault .addOverflow := by
  cases outcome : survivor.absorb absorbed with
  | ok node =>
      rw [outcome] at stopped
      cases stopped
  | error reached =>
      rw [outcome] at stopped
      cases stopped
      rw [CallTree.overflows_absorb survivor absorbed reached outcome]

namespace Lays

variable {tree : CallTree}

/-- The strict merge comes to a tree in an arena where it does outside of it. Which of several
offending nodes it names depends on the order in which it comes to them. -/
theorem mergeSiblingsStrict (lays : arena.Lays shape tree) :
    Matches (fun _ _ => True) Represents arena.mergeSiblingsStrict tree.mergeSiblingsStrict := by
  have merging := lays.mergeFrom admitSingle (fun _ => True)
    keeps_name_ofFault (fun _ _ _ _ => trivial) (fun _ _ _ _ => trivial)
  rw [admitting_admitSingle] at merging
  exact merging.bind_pure fun _ _ related => related

/-- Where every node is a single record the strict merge refuses nothing, and stops at the same
sums. -/
theorem mergeSiblingsStrict_of_single (lays : arena.Lays shape tree)
    (single : ∀ node ∈ tree.children.preorder, node.isSingle = true) :
    Follows arena.mergeSiblingsStrict tree.mergeSiblingsStrict := by
  have merging := lays.mergeFrom admitSingle (· = .fault .addOverflow)
    keeps_name_ofFault (fun _ _ _ => reason_of_ofFault_absorb) fun node member reason refused => by
      rw [admitSingle, if_pos (single node member)] at refused
      cases refused
  rw [admitting_admitSingle] at merging
  have exact : Matches Eq _ _ _ := merging.imp (fun reason other _ stopped same => by
    obtain ⟨survivor, label, member, failed⟩ := Forest.stopped_of_mergeInto stopped
    rw [Node.absorbSingle, if_pos (single label member)] at failed
    rw [same, reason_of_ofFault_absorb failed]) fun _ _ _ _ related => related
  exact exact.bind_pure fun _ _ related => related

end Lays

/-! ## Nothing to merge -/

/-- Where no slot lists two of the same name, merging changes nothing and refuses nothing. -/
theorem mergeFrom_of_nodup
    (distinct : ∀ id, ((arena.slot id).children.map arena.name).Nodup) (steps : Nat)
    (pending : List Nat) : mergeFrom permit combine steps pending arena = .ok arena := by
  induction steps generalizing pending with
  | zero => rfl
  | succ steps inductionHypothesis =>
      cases pending with
      | nil => rfl
      | cons id pending =>
          have unmerged : arena.mergeChildren permit combine id = .ok arena := by
            rw [mergeChildren, @planFolds_of_nodup _ [] _ (distinct id)]
            exact congrArg Except.ok (change_eq_self rfl)
          rw [mergeFrom, unmerged, ok_bind]
          exact inductionHypothesis _

end CallProfiler.Arena
