import CallProfiler.Arena.Merge
import CallProfiler.Proofs.Arena.Layout
import CallProfiler.Proofs.CallTree.Gathering
import Mathlib.Data.List.Find

/-!
# Gathering the children of a slot

The children of a slot that repeat a name are planned to be absorbed, which leaves their slots
vacant and what was below them below the slots that they went into. Carrying the plan out gathers
the trees that the children hold as `Forest.gather` does.
-/

namespace CallProfiler.Arena

variable {ε : Type} {permit : Node → Except ε Unit} {combine : Node → Node → Except ε Node}
  {arena next : Arena} {parent : Option Nat} {id : Nat}
  {shape inner later own first rest kept : Forest Nat}
  {forest children siblings before after held : Forest Node} {label survivor : Node}

/-! ## Plans -/

section Plans

variable {stay come : List Nat} {child target : Nat}

theorem planFolds_of_none
    (absent : stay.find? (fun other => arena.name other == arena.name child) = none) :
    arena.planFolds stay (child :: come) = arena.planFolds (stay ++ [child]) come := by
  rw [planFolds, absent]

theorem planFolds_of_some
    (found : stay.find? (fun other => arena.name other == arena.name child) = some target) :
    arena.planFolds stay (child :: come) =
      ((arena.planFolds stay come).1, (target, child) :: (arena.planFolds stay come).2) := by
  rw [planFolds, found]

/-- Where no name is repeated, all stay. -/
theorem planFolds_of_nodup (distinct : ((stay ++ come).map arena.name).Nodup) :
    arena.planFolds stay come = (stay ++ come, []) := by
  induction come generalizing stay with
  | nil => rw [planFolds, List.append_nil]
  | cons child come inductionHypothesis =>
      have absent : stay.find? (fun other => arena.name other == arena.name child) = none := by
        refine List.find?_eq_none.2 fun other member found => ?_
        rw [List.map_append] at distinct
        exact (List.nodup_append.1 distinct).2.2 _ (List.mem_map_of_mem member) _
          (List.mem_map_of_mem List.mem_cons_self) (beq_iff_eq.1 found)
      rw [planFolds_of_none absent, inductionHypothesis (by simpa using distinct),
        List.append_assoc]
      rfl

/-- A plan looks at names only. -/
theorem planFolds_congr (same : ∀ id ∈ stay ++ come, next.name id = arena.name id) :
    next.planFolds stay come = arena.planFolds stay come := by
  induction come generalizing stay with
  | nil => rfl
  | cons child come inductionHypothesis =>
      have sameChild := same child (by simp)
      have found : stay.find? (fun other => next.name other == next.name child) =
          stay.find? (fun other => arena.name other == arena.name child) := by
        refine List.find?_congr fun other member => ?_
        rw [sameChild, same other (List.mem_append_left _ member)]
      rw [planFolds, planFolds, found]
      split
      · rw [inductionHypothesis fun id member => same id (by simp_all; tauto)]
      · rw [inductionHypothesis fun id member => same id (by simpa using member)]

/-- What goes into another slot is what repeats a name. -/
theorem map_planFolds (stay come : List Nat) :
    (arena.planFolds stay come).2.map (fun fold => arena.node fold.2) =
      Forest.repeats (stay.map arena.name) (come.map arena.node) := by
  induction come generalizing stay with
  | nil => rfl
  | cons child come inductionHypothesis =>
      rw [List.map_cons, Forest.repeats]
      cases found : stay.find? (fun other => arena.name other == arena.name child) with
      | none =>
          have absent : (arena.node child).name ∉ stay.map arena.name := by
            rintro member
            obtain ⟨other, inStay, same⟩ := List.mem_map.1 member
            exact List.find?_eq_none.1 found other inStay (beq_iff_eq.2 same)
          rw [planFolds_of_none found, if_neg absent, inductionHypothesis, List.map_append]
          rfl
      | some target =>
          have same := List.find?_some found
          have known : (arena.node child).name ∈ stay.map arena.name :=
            List.mem_map.2 ⟨target, List.mem_of_find?_eq_some found, beq_iff_eq.1 same⟩
          rw [planFolds_of_some found, if_pos known, List.map_cons, inductionHypothesis]

/-- Where no held tree has a name, no slot is found by it. -/
theorem Holds.find?_eq_none (holds : arena.Holds parent kept held)
    (missing : held.find? (Forest.named (arena.name child)) = none) :
    kept.tops.find? (fun other => arena.name other == arena.name child) = none := by
  refine List.find?_eq_none.2 fun other member found => ?_
  have fails := Forest.find?_eq_none missing (arena.node other)
    (holds.map_tops ▸ List.mem_map_of_mem member)
  exact Bool.false_ne_true (fails.symm.trans found)

/-- Where a forest parts at the first tree of a name, its slot is the first one of the name. -/
theorem Holds.find?_eq_some {above : Nat} (holds : arena.Holds parent first before)
    (fails : ∀ other ∈ before.tops, Forest.named (arena.name child) other = false)
    (passes : arena.name above = arena.name child) :
    (first.append (.node above own rest)).tops.find?
      (fun other => arena.name other == arena.name child) = some above := by
  rw [Forest.tops_append, List.find?_append, List.find?_eq_none.2]
  · rw [Forest.tops, List.find?_cons, passes, beq_self_eq_true]
    rfl
  · intro other member found
    have apart := fails (arena.node other) (holds.map_tops ▸ List.mem_map_of_mem member)
    exact Bool.false_ne_true (apart.symm.trans found)

end Plans

/-! ## Absorbing -/

/-- What there is after a slot was absorbed: the survivor holds both, with the children of both
below it, and nothing is left in the slot. -/
structure Absorbed (arena next : Arena) (above absorbed : Nat) (listed : List Nat) (node : Node) :
    Prop where
  size : next.size = arena.size
  survivor : next.slot above =
    ⟨node, (arena.slot above).parent, (arena.slot above).children ++ listed⟩
  vacant : next.slot absorbed = .vacant
  moved : ∀ id ∈ listed, next.slot id = (arena.slot id).moveTo above
  others : ∀ id, id ≠ above → id ≠ absorbed → id ∉ listed → next.slot id = arena.slot id

variable {above absorbed : Nat} {outer : Option Nat}

theorem absorb_matches (combine : Node → Node → Except ε Node)
    (heldOwn : arena.Holds parent (.node above own rest) (.node survivor held after))
    (inside : absorbed < arena.size) (slot : arena.slot absorbed = ⟨label, outer, inner.tops⟩)
    (below : arena.Holds (some absorbed) inner children) (distinct : inner.preorder.Nodup)
    (fresh : absorbed ∉ inner.preorder) (apart : above ∉ absorbed :: inner.preorder) :
    Matches Eq (fun next node => Absorbed arena next above absorbed inner.tops node)
      (absorb combine arena (above, absorbed)) (combine survivor label) := by
  have tops := Forest.tops_sublist_preorder inner
  have notInTops {id : Nat} (outside : id ∉ inner.preorder) : id ∉ inner.tops :=
    fun member => outside (tops.subset member)
  rw [List.mem_cons, not_or] at apart
  obtain ⟨different, notBelow⟩ := apart
  cases heldOwn with
  | node insideAbove ownSlot _ _ =>
  have survives : ((arena.change absorbed fun _ => .vacant).changeAll inner.tops
      (.moveTo above)).slot above = ⟨survivor, parent, own.tops⟩ := by
    rw [slot_changeAll_of_not_mem (notInTops notBelow), slot_change_of_ne different, ownSlot]
  rw [absorb]
  simp only [node, slot, survives]
  cases combine survivor label with
  | error reason => exact .stopped rfl
  | ok node =>
      refine .done ?_
      constructor
      case size => simp
      case survivor =>
        rw [slot_change_self (by simpa using insideAbove), survives, ownSlot]
        rfl
      case vacant =>
        rw [slot_change_of_ne (Ne.symm different), slot_changeAll_of_not_mem (notInTops fresh),
          slot_change_self inside]
      case moved =>
        intro id member
        have inShape := tops.subset member
        have notAbove : id ≠ above := fun same => notBelow (same ▸ inShape)
        have notAbsorbed : id ≠ absorbed := fun same => fresh (same ▸ inShape)
        rw [slot_change_of_ne notAbove, slot_changeAll_of_mem (tops.nodup distinct) member
          (by simpa using below.lt_size id inShape), slot_change_of_ne notAbsorbed]
      case others =>
        intro id notAbove notAbsorbed notMoved
        rw [slot_change_of_ne notAbove, slot_changeAll_of_not_mem notMoved,
          slot_change_of_ne notAbsorbed]

namespace Absorbed

variable {node : Node}

theorem node_eq (absorption : Absorbed arena next above absorbed shape.tops node)
    (notAbove : id ≠ above) (notAbsorbed : id ≠ absorbed) : next.node id = arena.node id := by
  rw [Arena.node, Arena.node]
  by_cases member : id ∈ shape.tops
  · rw [absorption.moved id member]
    rfl
  · rw [absorption.others id notAbove notAbsorbed member]

theorem within (absorption : Absorbed arena next above absorbed shape.tops node) :
    Within (above :: absorbed :: shape.preorder) arena next where
  size := absorption.size
  slot id outside := by
    simp only [List.mem_cons, not_or] at outside
    exact absorption.others id outside.1 outside.2.1
      fun top => outside.2.2 (Forest.mem_preorder_of_mem_tops top)

/-- The survivor and its siblings hold what they held, and what was absorbed beside it. -/
theorem holds (absorption : Absorbed arena next above absorbed inner.tops node)
    (heldFirst : arena.Holds parent first before)
    (heldOwn : arena.Holds parent (.node above own rest) (.node survivor held after))
    (below : arena.Holds (some absorbed) inner children)
    (distinct : ((first.append (.node above own rest)).preorder ++
      absorbed :: inner.preorder).Nodup) :
    next.Holds parent (first.append (.node above (own.append inner) rest))
      (before.append (.node node (held.append children) after)) := by
  cases heldOwn with
  | node inside slot inOwn beside =>
      simp only [Forest.preorder_append, Forest.preorder] at distinct
      have size := Nat.le_of_eq absorption.size.symm
      have unchanged {id : Nat} (notAbove : id ≠ above)
          (outside : id ∉ absorbed :: inner.preorder) : next.slot id = arena.slot id :=
        absorption.within.slot id (by simp_all)
      have moved : next.Holds (some above) inner children :=
        below.moved (by grind) size absorption.moved fun id member notTop =>
          absorption.others id (by grind) (by grind) notTop
      refine .append ?_ (.node (Nat.lt_of_lt_of_le inside size) ?_ (.append ?_ moved) ?_)
      · exact heldFirst.congr size fun id member => unchanged (by grind) (by grind)
      · rw [absorption.survivor, slot, Forest.tops_append]
      · exact inOwn.congr size fun id member => unchanged (by grind) (by grind)
      · exact beside.congr size fun id member => unchanged (by grind) (by grind)

end Absorbed

/-! ## Gathering -/

/-- What the slots of a shape leave after the first one was absorbed by a namesake: all others are
where they were, what was below it has come below the survivor, and no name has changed. -/
structure Gathered (arena next : Arena) (parent : Option Nat) (id above : Nat)
    (first own rest inner later : Forest Nat) (gathered siblings : Forest Node) : Prop where
  kept : next.Holds parent (first.append (.node above (own.append inner) rest)) gathered
  beside : next.Holds parent later siblings
  names : ∀ other ∈ (first.append (.node above own rest)).tops ++ later.tops,
    next.name other = arena.name other
  cutOff : next.CutOff id
  within : Within (above :: id :: inner.preorder) arena next

/-- The slot apart that was absorbed, gathering goes on with the slots that there were. -/
theorem gathered_perm :
    (id :: ((first.append (.node above (own.append inner) rest)).preorder ++ later.preorder)).Perm
      ((first.append (.node above own rest)).preorder ++
        (Forest.node id inner later).preorder) := by
  refine List.perm_iff_count.2 fun other => ?_
  simp only [Forest.preorder_append, Forest.preorder, List.count_append, List.count_cons]
  omega

theorem gathered_of_absorb (keepsName : Keeps combine Node.name)
    (heldFirst : arena.Holds parent first before)
    (heldOwn : arena.Holds parent (.node above own rest) (.node survivor held after))
    (holds : arena.Holds parent (.node id inner later) (.node label children siblings))
    (distinct : ((first.append (.node above own rest)).preorder ++
      (Forest.node id inner later).preorder).Nodup) :
    Matches Eq (fun next node => Gathered arena next parent id above first own rest inner later
        (before.append (.node node (held.append children) after)) siblings)
      (absorb combine arena (above, id)) (combine survivor label) := by
  cases holds with
  | node inside slot below beside =>
  have aboveKept : above ∈ (first.append (.node above own rest)).preorder := by
    simp [Forest.preorder]
  have aboveNode : arena.name above = survivor.name := by
    cases heldOwn with
    | node _ ownSlot _ _ => rw [Arena.name, Arena.node, ownSlot]
  obtain ⟨_, distinctShape, apart⟩ := List.nodup_append'.1 distinct
  obtain ⟨fresh, distinctParts⟩ := List.nodup_cons.1 distinctShape
  obtain ⟨distinctInner, _, apartParts⟩ := List.nodup_append'.1 distinctParts
  obtain ⟨notKept, apartKept⟩ := List.disjoint_cons_right.1 apart
  rw [List.mem_append, not_or] at fresh
  rw [List.disjoint_append_right] at apartKept
  have apartAbove : above ∉ id :: inner.preorder := by
    rw [List.mem_cons, not_or]
    exact ⟨fun same => notKept (same ▸ aboveKept), apartKept.1 aboveKept⟩
  have absorbing :=
    absorb_matches combine heldOwn inside slot below distinctInner fresh.1 apartAbove
  refine absorbing.imp (fun _ _ _ _ same => same) fun next node _ combined absorption => ?_
  constructor
  case kept =>
    exact absorption.holds heldFirst heldOwn below <|
      ((List.Sublist.refl _).append ((List.sublist_append_left _ _).cons_cons id)).nodup distinct
  case beside =>
    refine beside.within absorption.within fun other inLater member => ?_
    rcases List.mem_cons.1 member with rfl | member
    · exact apartKept.2 aboveKept inLater
    · rcases List.mem_cons.1 member with rfl | inInner
      · exact fresh.2 inLater
      · exact apartParts inInner inLater
  case names =>
    intro other member
    by_cases isAbove : other = above
    · rw [isAbove, aboveNode, Arena.name, Arena.node, absorption.survivor]
      exact keepsName combined
    · have notAbsorbed : other ≠ id := by
        rintro rfl
        rcases List.mem_append.1 member with inKept | inLater
        · exact notKept (Forest.mem_preorder_of_mem_tops inKept)
        · exact fresh.2 (Forest.mem_preorder_of_mem_tops inLater)
      rw [Arena.name, Arena.name, absorption.node_eq isAbove notAbsorbed]
  case cutOff =>
    rw [CutOff, absorption.vacant]
    exact ⟨rfl, rfl⟩
  case within => exact absorption.within

/-- Carrying out a plan for the slots of a shape gathers the forest that they hold. -/
theorem Holds.gather (keepsName : Keeps combine Node.name) (heldKept : arena.Holds parent kept held)
    (holds : arena.Holds parent shape forest)
    (distinct : (kept.preorder ++ shape.preorder).Nodup) :
    Matches Eq (fun next gathered => ∃ result,
        next.Rebuilt (kept.preorder ++ shape.preorder) parent result gathered ∧
        result.tops = (arena.planFolds kept.tops shape.tops).1 ∧
        Within (kept.preorder ++ shape.preorder) arena next)
      ((arena.planFolds kept.tops shape.tops).2.foldlM (absorb combine) arena)
      (Forest.gather combine held forest) := by
  induction forest generalizing arena kept held shape with
  | nil =>
      cases holds
      refine .done ⟨kept, ⟨heldKept, [], ?_, nofun⟩, rfl, .refl _ _⟩
      simp [Forest.preorder]
  | node label children siblings _ inductionHypothesis =>
      cases holds with
      | @node _ id _ inner later _ _ inside slot below beside =>
      have own : arena.name id = label.name := by rw [Arena.name, Arena.node, slot]
      rw [Forest.gather]
      cases found : held.find? (Forest.named label.name) with
      | none =>
          rw [← own] at found
          have joined := heldKept.append (.node inside slot below .nil)
          have following := inductionHypothesis joined beside (by
            simpa [Forest.preorder] using distinct)
          simp only [Forest.tops_append, Forest.preorder_append, Forest.tops, Forest.preorder,
            List.append_nil, List.append_assoc, List.cons_append] at following
          simp only [Forest.tops, Forest.preorder, planFolds_of_none (heldKept.find?_eq_none found)]
          exact following
      | some pair =>
          obtain ⟨survivor, keptChildren⟩ := pair
          obtain ⟨before, after, rfl, passes, fails, replaced⟩ := Forest.find?_eq_some found
          obtain ⟨first, above, ownKept, rest, rfl, heldFirst, heldOwn⟩ := heldKept.parted
          have aboveName : arena.name above = arena.name id := by
            cases heldOwn with
            | node _ ownSlot _ _ =>
                rw [own, Arena.name, Arena.node, ownSlot]
                exact beq_iff_eq.1 passes
          have foundSlot : (first.append (.node above ownKept rest)).tops.find?
              (fun other => arena.name other == arena.name id) = some above :=
            heldFirst.find?_eq_some (own ▸ fails) aboveName
          simp only [Forest.tops, planFolds_of_some foundSlot, List.foldlM_cons, replaced]
          refine (gathered_of_absorb keepsName heldFirst heldOwn (.node inside slot below beside)
            distinct).bind fun middle node gathered => ?_
          -- The absorbed slot apart, the same slots are passed on.
          have passedOn := @gathered_perm id inner later ownKept first rest above
          obtain ⟨idApart, distinctNext⟩ := List.nodup_cons.1 (passedOn.nodup_iff.2 distinct)
          have following := inductionHypothesis gathered.kept gathered.beside distinctNext
          have sameTops : (first.append (.node above (ownKept.append inner) rest)).tops =
              (first.append (.node above ownKept rest)).tops := by
            simp [Forest.tops]
          rw [sameTops, planFolds_congr gathered.names] at following
          refine following.imp (fun _ _ _ _ same => same) ?_
          rintro next result - - ⟨shape, ⟨held, gone, all, cut⟩, tops, within⟩
          refine ⟨shape, ⟨held, id :: gone, ?_, ?_⟩, tops, ?_⟩
          · exact List.perm_middle.trans ((all.cons id).trans passedOn)
          · refine List.forall_mem_cons.2 ⟨?_, cut⟩
            rw [CutOff, within.slot id idApart]
            exact gathered.cutOff
          · refine (gathered.within.mono ?_).trans (within.mono fun other member =>
              passedOn.subset (List.mem_cons_of_mem id member))
            intro other member
            simp only [List.mem_cons] at member
            rcases member with rfl | rfl | inInner <;> simp [Forest.preorder, *]

/-- The children of a slot are merged: it lists those that stay, and the slots below it have come to
hold what the forest there is gathered into. -/
structure ChildrenMerged (arena next : Arena) (id : Nat) (label : Node) (parent : Option Nat)
    (inner found : Forest Nat) (gathered : Forest Node) : Prop where
  slot : next.slot id = ⟨label, parent, found.tops⟩
  rebuilt : next.Rebuilt inner.preorder (some id) found gathered
  within : Within (id :: inner.preorder) arena next

/-- Absorbing what is planned to be absorbed gathers the trees below a slot. The plan is made before
the children that stay are listed, but looks at names only. -/
theorem gatherChildren_matches (keepsName : Keeps combine Node.name) (inside : id < arena.size)
    (slot : arena.slot id = ⟨label, parent, inner.tops⟩)
    (below : arena.Holds (some id) inner children) (distinct : (id :: inner.preorder).Nodup) :
    Matches Eq (fun next gathered => ∃ found,
        ChildrenMerged arena next id label parent inner found gathered)
      ((arena.planFolds [] inner.tops).2.foldlM (absorb combine) (arena.change id fun outer =>
        { outer with children := (arena.planFolds [] inner.tops).1 }))
      (Forest.gather combine .nil children) := by
  obtain ⟨fresh, distinctInner⟩ := List.nodup_cons.1 distinct
  generalize planned : arena.planFolds [] inner.tops = plan
  have relisting := Within.change arena id fun outer => { outer with children := plan.1 }
  have sameNames : ∀ other ∈ [] ++ inner.tops,
      (arena.change id fun outer => { outer with children := plan.1 }).name other =
        arena.name other := by
    intro other member
    have notOwn : other ≠ id := fun same => fresh (same ▸ Forest.mem_preorder_of_mem_tops member)
    rw [name, name, node, node, slot_change_of_ne notOwn]
  have gathering := Holds.gather keepsName .nil
    (below.within relisting (List.disjoint_singleton.2 fresh)) distinctInner
  rw [Forest.tops, planFolds_congr sameNames, planned] at gathering
  refine gathering.imp (fun _ _ _ _ same => same) ?_
  rintro next gathered - - ⟨found, rebuilt, tops, within⟩
  refine ⟨found, ?_, rebuilt, ?_⟩
  · rw [within.slot id fresh, slot_change_self inside, slot, tops]
  · exact (relisting.mono (by simp)).trans (within.mono (List.subset_cons_self _ _))

/-- Merging the children of a slot gathers the trees below it, where all that is absorbed is
admitted. -/
theorem mergeChildren_matches {Possible : ε → Prop} (keepsName : Keeps combine Node.name)
    (combines : ∀ survivor absorbed reason, combine survivor absorbed = .error reason →
      Possible reason)
    (inside : id < arena.size) (slot : arena.slot id = ⟨label, parent, inner.tops⟩)
    (below : arena.Holds (some id) inner children) (distinct : (id :: inner.preorder).Nodup)
    (admits : ∀ node ∈ children.tops, ∀ reason, permit node = .error reason → Possible reason) :
    Matches (fun reason _ => Possible reason)
      (fun next gathered => ∃ found,
        ChildrenMerged arena next id label parent inner found gathered)
      (arena.mergeChildren permit combine id)
      (Forest.gather (Forest.admitting permit combine) .nil children) := by
  have gathering := gatherChildren_matches keepsName inside slot below distinct
  have plan : (arena.planFolds [] inner.tops).2.map (fun fold => arena.node fold.2) =
      Forest.repeats [] children.tops := by
    rw [map_planFolds, below.map_tops]
    rfl
  have admitted_iff {gathered : Forest Node} :=
    @Forest.gather_admitting_iff _ _ permit keepsName .nil children gathered
  rw [mergeChildren, slot]
  dsimp only
  rcases forM_cases (fun fold : Nat × Nat => permit (arena.node fold.2))
    (arena.planFolds [] inner.tops).2 with ⟨done, all⟩ | ⟨reason, stopped, fold, member, failing⟩
  · have admitted : ∀ node ∈ Forest.repeats [] children.tops, permit node = .ok () := by
      rw [← plan]
      exact List.forall_mem_map.2 all
    rw [done, ok_bind]
    cases outcome : Forest.gather combine .nil children with
    | ok gathered =>
        obtain ⟨next, absorbed, related⟩ := gathering.left_of_ok outcome
        rw [absorbed, admitted_iff.2 ⟨admitted, outcome⟩]
        exact .done related
    | error reason =>
        obtain ⟨survivor, absorbed, failed⟩ := Forest.exists_of_gather_eq_error outcome
        obtain ⟨_, stopped, rfl⟩ := gathering.left_of_error outcome
        refine .of_stopped stopped (fun gathered guarded => ?_)
          fun _ => combines survivor absorbed _ failed
        rw [(admitted_iff.1 guarded).2] at outcome
        cases outcome
  · have repeated : arena.node fold.2 ∈ Forest.repeats [] children.tops := by
      rw [← plan]
      exact List.mem_map_of_mem member
    simp only [stopped]
    refine .of_stopped rfl (fun gathered guarded => ?_) fun _ =>
      admits _ ((Forest.repeats_sublist _ _).subset repeated) reason failing
    rw [(admitted_iff.1 guarded).1 _ repeated] at failing
    cases failing

end CallProfiler.Arena
