import CallProfiler.Arena.Basic
import CallProfiler.Proofs.Outcome
import CallProfiler.Proofs.Walks
import Mathlib.Data.List.Nodup
import Mathlib.Data.List.Perm.Subperm

/-!
# How an arena lays out a tree

A shape is a forest of slot numbers. `Holds` says that the slots of a shape hold the nodes of a
forest and are linked as the forest nests them; it looks at no other slot, so what leaves the
slots of a shape alone keeps what they hold. `Represents` relates a whole arena to a call tree:
its slots hold the tree below the root, and all others are cut off.
-/

namespace CallProfiler

namespace Arena

variable {arena next last : Arena} {parent : Option Nat} {shape inner later : Forest Nat}
  {forest children siblings : Forest Node} {label : Node} {id : Nat}

/-- There are no more different slots than the arena has. -/
theorem length_le_size {ids : List Nat} (distinct : ids.Nodup)
    (inside : ∀ id ∈ ids, id < arena.size) : ids.length ≤ arena.size := by
  have subset : ids ⊆ List.range arena.size := fun id member => List.mem_range.2 (inside id member)
  have few := (List.subperm_of_subset distinct subset).length_le
  rwa [List.length_range] at few

/-! ## Slots that an operation leaves alone -/

/-- An operation changes slots of a list at most, and makes none. -/
structure Within (ids : List Nat) (arena next : Arena) : Prop where
  size : next.size = arena.size
  slot : ∀ id ∉ ids, next.slot id = arena.slot id

namespace Within

variable {ids others : List Nat}

theorem refl (ids : List Nat) (arena : Arena) : Within ids arena arena := ⟨rfl, fun _ _ => rfl⟩

theorem mono (within : Within ids arena next) (subset : ids ⊆ others) :
    Within others arena next :=
  ⟨within.size, fun id absent => within.slot id fun member => absent (subset member)⟩

theorem trans (first : Within ids arena next) (second : Within ids next last) :
    Within ids arena last :=
  ⟨second.size.trans first.size,
    fun id absent => (second.slot id absent).trans (first.slot id absent)⟩

theorem change (arena : Arena) (id : Nat) (update : Slot → Slot) :
    Within [id] arena (arena.change id update) :=
  ⟨size_change arena id update,
    fun _ absent => slot_change_of_ne fun same => absent (same ▸ List.mem_cons_self)⟩

/-- Changing one slot of a list stays within the list. -/
theorem change_of_mem (member : id ∈ ids) (arena : Arena) (update : Slot → Slot) :
    Within ids arena (arena.change id update) :=
  (change arena id update).mono (List.cons_subset.2 ⟨member, List.nil_subset ids⟩)

theorem changeAll (arena : Arena) (ids : List Nat) (update : Slot → Slot) :
    Within ids arena (arena.changeAll ids update) :=
  ⟨size_changeAll arena ids update, fun _ absent => slot_changeAll_of_not_mem absent⟩

end Within

/-! ## What the slots of a shape hold -/

/-- The slots of a shape hold a forest, its outermost trees below a parent. -/
inductive Holds (arena : Arena) : Option Nat → Forest Nat → Forest Node → Prop
  | nil {parent : Option Nat} : Holds arena parent .nil .nil
  | node {parent : Option Nat} {id : Nat} {label : Node} {inner later : Forest Nat}
      {children siblings : Forest Node} (inside : id < arena.size)
      (slot : arena.slot id = ⟨label, parent, inner.tops⟩)
      (below : Holds arena (some id) inner children) (beside : Holds arena parent later siblings) :
      Holds arena parent (.node id inner later) (.node label children siblings)

namespace Holds

theorem map_node (holds : arena.Holds parent shape forest) : shape.map arena.node = forest := by
  induction holds with
  | nil => rfl
  | node inside slot below beside belowHypothesis besideHypothesis =>
      rw [Forest.map, belowHypothesis, besideHypothesis, Arena.node, slot]

theorem map_tops (holds : arena.Holds parent shape forest) :
    shape.tops.map arena.node = forest.tops := by
  rw [← Forest.tops_map, holds.map_node]

theorem lt_size (holds : arena.Holds parent shape forest) :
    ∀ id ∈ shape.preorder, id < arena.size := by
  induction holds with
  | nil => nofun
  | node inside slot below beside belowHypothesis besideHypothesis =>
      rw [Forest.preorder, List.forall_mem_cons, List.forall_mem_append]
      exact ⟨inside, belowHypothesis, besideHypothesis⟩

theorem size_eq (holds : arena.Holds parent shape forest) : shape.size = forest.size := by
  rw [← Forest.length_preorder, ← Forest.length_preorder, ← holds.map_node, Forest.preorder_map,
    List.length_map]

/-- Slots that are left alone hold what they held. -/
theorem congr (holds : arena.Holds parent shape forest) (size : arena.size ≤ next.size)
    (same : ∀ id ∈ shape.preorder, next.slot id = arena.slot id) :
    next.Holds parent shape forest := by
  induction holds with
  | nil => exact .nil
  | node inside slot below beside belowHypothesis besideHypothesis =>
      rw [Forest.preorder, List.forall_mem_cons, List.forall_mem_append] at same
      obtain ⟨own, inBelow, inBeside⟩ := same
      exact .node (Nat.lt_of_lt_of_le inside size) (own.trans slot) (belowHypothesis inBelow)
        (besideHypothesis inBeside)

theorem within (holds : arena.Holds parent shape forest) {ids : List Nat}
    (change : Within ids arena next) (apart : shape.preorder.Disjoint ids) :
    next.Holds parent shape forest :=
  holds.congr (Nat.le_of_eq change.size.symm) fun id member => change.slot id (apart member)

theorem append {first second : Forest Nat} {leading rest : Forest Node}
    (left : arena.Holds parent first leading) (right : arena.Holds parent second rest) :
    arena.Holds parent (first.append second) (leading.append rest) := by
  induction left with
  | nil => exact right
  | node inside slot below beside _ besideHypothesis =>
      exact .node inside slot below (besideHypothesis right)

/-- Where a forest parts at a tree, its shape parts at a slot. -/
theorem parted {before after : Forest Node}
    (holds : arena.Holds parent shape (before.append (.node label children after))) :
    ∃ (first : Forest Nat) (id : Nat) (inner rest : Forest Nat),
      shape = first.append (.node id inner rest) ∧ arena.Holds parent first before ∧
      arena.Holds parent (.node id inner rest) (.node label children after) := by
  induction before generalizing shape with
  | nil =>
      cases holds with
      | node inside slot below beside =>
          exact ⟨.nil, _, _, _, rfl, .nil, .node inside slot below beside⟩
  | node head own siblings _ inductionHypothesis =>
      cases holds with
      | @node _ topId _ top _ _ _ inside slot below beside =>
          obtain ⟨first, id, inner, rest, rfl, held, there⟩ := inductionHypothesis beside
          exact ⟨.node topId top first, id, inner, rest, rfl, .node inside slot below held, there⟩

/-- The outermost slots of a shape may be hung below another parent together. -/
theorem moved {target : Nat} (holds : arena.Holds parent shape forest)
    (distinct : shape.preorder.Nodup) (size : arena.size ≤ next.size)
    (tops : ∀ id ∈ shape.tops, next.slot id = (arena.slot id).moveTo target)
    (others : ∀ id ∈ shape.preorder, id ∉ shape.tops → next.slot id = arena.slot id) :
    next.Holds (some target) shape forest := by
  induction holds with
  | nil => exact .nil
  | @node parent id label inner later children siblings inside slot below beside _
      besideHypothesis =>
      obtain ⟨fresh, distinctParts⟩ := List.nodup_cons.1 distinct
      obtain ⟨_, distinctLater, apart⟩ := List.nodup_append'.1 distinctParts
      rw [List.mem_append, not_or] at fresh
      rw [Forest.tops, List.forall_mem_cons] at tops
      rw [Forest.tops, Forest.preorder, List.forall_mem_cons, List.forall_mem_append] at others
      obtain ⟨_, inBelow, inBeside⟩ := others
      refine .node (Nat.lt_of_lt_of_le inside size) ?_ ?_ ?_
      · rw [tops.1, slot]
        rfl
      · refine below.congr size fun other member => inBelow other member ?_
        rw [List.mem_cons, not_or]
        exact ⟨fun same => fresh.1 (same ▸ member),
          fun top => apart member (Forest.mem_preorder_of_mem_tops top)⟩
      · refine besideHypothesis distinctLater tops.2 fun other member notTop => ?_
        refine inBeside other member ?_
        rw [List.mem_cons, not_or]
        exact ⟨fun same => fresh.2 (same ▸ member), notTop⟩

/-- The sum over the children of a slot is the one over the trees that are held below it. -/
theorem overChildren (below : arena.Holds (some id) inner children)
    (listed : (arena.slot id).children = inner.tops) (quantity : Node → Nat) :
    arena.overChildren quantity id = Checked.sum 64 (children.tops.map quantity) := by
  rw [Arena.overChildren, listed, ← below.map_tops, List.map_map]
  rfl

/-- The outermost slots of a shape lie below the parent. -/
theorem parent_of_mem_tops (holds : arena.Holds parent shape forest) :
    ∀ id ∈ shape.tops, (arena.slot id).parent = parent := by
  induction holds with
  | nil => nofun
  | node inside slot below beside _ besideHypothesis =>
      rw [Forest.tops, List.forall_mem_cons]
      exact ⟨by rw [slot], besideHypothesis⟩

end Holds

/-- Nothing is above a slot and nothing below it. -/
def CutOff (arena : Arena) (id : Nat) : Prop :=
  (arena.slot id).parent = none ∧ (arena.slot id).children = []

/-- The slots of a list have come to hold a forest, and those that are left over are cut off. -/
structure Rebuilt (arena : Arena) (ids : List Nat) (parent : Option Nat) (shape : Forest Nat)
    (forest : Forest Node) : Prop where
  holds : arena.Holds parent shape forest
  cutOff : ∃ gone, (shape.preorder ++ gone).Perm ids ∧ ∀ id ∈ gone, arena.CutOff id

namespace Rebuilt

variable {ids others : List Nat}

/-- What is rebuilt takes no more slots than there were. -/
theorem size_le (rebuilt : arena.Rebuilt ids parent shape forest) : shape.size ≤ ids.length := by
  obtain ⟨gone, all, _⟩ := rebuilt.cutOff
  rw [← all.length_eq, List.length_append, Forest.length_preorder]
  exact Nat.le_add_right _ _

theorem subset (rebuilt : arena.Rebuilt ids parent shape forest) : shape.preorder ⊆ ids := by
  obtain ⟨gone, all, _⟩ := rebuilt.cutOff
  exact fun id member => all.subset (List.mem_append_left gone member)

theorem nodup (rebuilt : arena.Rebuilt ids parent shape forest) (distinct : ids.Nodup) :
    shape.preorder.Nodup := by
  obtain ⟨gone, all, _⟩ := rebuilt.cutOff
  exact (List.nodup_append.1 (all.nodup_iff.2 distinct)).1

/-- Slots that are left alone stay rebuilt. -/
theorem within (rebuilt : arena.Rebuilt ids parent shape forest)
    (change : Within others arena next) (apart : ids.Disjoint others) :
    next.Rebuilt ids parent shape forest where
  holds := rebuilt.holds.within change fun _ member => apart (rebuilt.subset member)
  cutOff := by
    obtain ⟨gone, all, cut⟩ := rebuilt.cutOff
    refine ⟨gone, all, fun id member => ?_⟩
    have known := all.subset (List.mem_append_right _ member)
    rw [CutOff, change.slot id (apart known)]
    exact cut id member

/-- What is rebuilt may be rebuilt again. -/
theorem trans {result : Forest Nat} {merged : Forest Node}
    (first : arena.Rebuilt ids parent shape forest) (distinct : ids.Nodup)
    (change : Within shape.preorder arena next)
    (second : next.Rebuilt shape.preorder parent result merged) :
    next.Rebuilt ids parent result merged where
  holds := second.holds
  cutOff := by
    obtain ⟨gone, all, cut⟩ := first.cutOff
    obtain ⟨further, rest, cutFurther⟩ := second.cutOff
    have apart := (List.nodup_append'.1 (all.nodup_iff.2 distinct)).2.2
    refine ⟨further ++ gone, ?_, ?_⟩
    · rw [← List.append_assoc]
      exact (rest.append_right gone).trans all
    · refine List.forall_mem_append.2 ⟨cutFurther, fun id member => ?_⟩
      rw [CutOff, change.slot id fun inShape => apart inShape member]
      exact cut id member

/-- A slot above what is rebuilt, and beside it, is rebuilt with it. -/
theorem node (inside : id < arena.size) (slot : arena.slot id = ⟨label, parent, inner.tops⟩)
    (below : arena.Rebuilt ids (some id) inner children)
    (beside : arena.Rebuilt others parent later siblings) :
    arena.Rebuilt (id :: (ids ++ others)) parent (.node id inner later)
      (.node label children siblings) where
  holds := .node inside slot below.holds beside.holds
  cutOff := by
    obtain ⟨gone, all, cut⟩ := below.cutOff
    obtain ⟨further, rest, cutFurther⟩ := beside.cutOff
    refine ⟨gone ++ further, ?_, List.forall_mem_append.2 ⟨cut, cutFurther⟩⟩
    rw [Forest.preorder, List.cons_append, List.append_assoc, ← List.append_assoc later.preorder]
    have swapped : (later.preorder ++ gone ++ further).Perm (gone ++ later.preorder ++ further) :=
      List.perm_append_comm.append_right further
    refine ((swapped.append_left inner.preorder).trans ?_).cons id
    rw [List.append_assoc, ← List.append_assoc]
    exact all.append rest

end Rebuilt

/-- An arena lays a call tree out in the slots of a shape, below the root's, and every other slot
is cut off. -/
structure Lays (arena : Arena) (shape : Forest Nat) (tree : CallTree) : Prop where
  holds : arena.Holds none (.node rootId shape .nil) tree.whole
  distinct : (rootId :: shape.preorder).Nodup
  cutOff : ∀ id ∉ rootId :: shape.preorder, arena.CutOff id

/-- An arena represents a call tree if it lays it out in some shape. -/
def Represents (arena : Arena) (tree : CallTree) : Prop := ∃ shape, arena.Lays shape tree

/-- An operation on an arena stops where one on a tree stops, and for the same reason, or leads to
an arena that represents the tree that the other leads to. -/
abbrev Follows {ε : Type} (onArena : Except ε Arena) (onTree : Except ε CallTree) : Prop :=
  Matches Eq Represents onArena onTree

namespace Lays

variable {tree : CallTree}

theorem slot_root (lays : arena.Lays shape tree) :
    arena.slot rootId = ⟨tree.root, none, shape.tops⟩ := by
  cases lays.holds with
  | node inside slot below beside => exact slot

theorem rootId_lt (lays : arena.Lays shape tree) : rootId < arena.size := by
  cases lays.holds with
  | node inside slot below beside => exact inside

theorem below (lays : arena.Lays shape tree) : arena.Holds (some rootId) shape tree.children := by
  cases lays.holds with
  | node inside slot below beside => exact below

theorem distinct_shape (lays : arena.Lays shape tree) : shape.preorder.Nodup :=
  (List.nodup_cons.1 lays.distinct).2

theorem rootId_not_mem (lays : arena.Lays shape tree) : rootId ∉ shape.preorder :=
  (List.nodup_cons.1 lays.distinct).1

/-- A tree has no more nodes than its arena has slots. -/
theorem size_le (lays : arena.Lays shape tree) :
    (Forest.node rootId shape .nil).size ≤ arena.size := by
  rw [← Forest.length_preorder]
  refine length_le_size ?_ lays.holds.lt_size
  simpa [Forest.preorder] using lays.distinct

/-- A tree that is rebuilt in the slots of another one leaves all others cut off. -/
theorem rebuilt {other : CallTree} (lays : arena.Lays shape tree)
    (within : Within (rootId :: shape.preorder) arena next)
    (rebuilt : next.Rebuilt (rootId :: shape.preorder) none (.node rootId inner .nil) other.whole) :
    next.Lays inner other where
  holds := rebuilt.holds
  distinct := by
    obtain ⟨gone, all, _⟩ := rebuilt.cutOff
    have distinct := all.nodup_iff.2 lays.distinct
    simpa [Forest.preorder] using (List.nodup_append.1 distinct).1
  cutOff := by
    intro id outside
    obtain ⟨gone, all, cut⟩ := rebuilt.cutOff
    by_cases known : id ∈ rootId :: shape.preorder
    · have left := (all.mem_iff (a := id)).2 known
      rw [Forest.preorder, Forest.preorder, List.append_nil] at left
      exact cut id ((List.mem_append.1 left).resolve_left outside)
    · rw [CutOff, within.slot id known]
      exact lays.cutOff id known

/-- Another node for the root leaves the rest of the tree where it is. -/
theorem changeRoot (lays : arena.Lays shape tree) {update : Slot → Slot} {root : Node}
    (updated : update ⟨tree.root, none, shape.tops⟩ = ⟨root, none, shape.tops⟩) :
    (arena.change rootId update).Lays shape { tree with root } where
  holds := by
    have apart : shape.preorder.Disjoint [rootId] :=
      List.disjoint_singleton.2 lays.rootId_not_mem
    refine .node ?_ ?_ (lays.below.within (.change arena rootId update) apart) .nil
    · rw [size_change]
      exact lays.rootId_lt
    · rw [slot_change_self lays.rootId_lt, lays.slot_root, updated]
  distinct := lays.distinct
  cutOff := by
    intro id outside
    have apart : id ≠ rootId := fun same => outside (same ▸ List.mem_cons_self)
    rw [CutOff, slot_change_of_ne apart]
    exact lays.cutOff id outside

/-- Other trees may come to be in the slots below the root. -/
theorem changeBelow (lays : arena.Lays shape tree) {children : Forest Node}
    (held : next.Holds (some rootId) shape children) (within : Within shape.preorder arena next) :
    next.Lays shape { tree with children } where
  holds := by
    refine .node ?_ ?_ held .nil
    · exact Nat.lt_of_lt_of_eq lays.rootId_lt within.size.symm
    · rw [within.slot rootId lays.rootId_not_mem, lays.slot_root]
  distinct := lays.distinct
  cutOff := by
    intro id outside
    rw [CutOff, within.slot id fun member => outside (List.mem_cons_of_mem rootId member)]
    exact lays.cutOff id outside

theorem withRootTotals (lays : arena.Lays shape tree) :
    Matches Eq (fun next other => next.Lays shape other) arena.withRootTotals
      tree.withRootTotals := by
  have listed : (arena.slot rootId).children = shape.tops := by rw [lays.slot_root]
  rw [Arena.withRootTotals, CallTree.withRootTotals, lays.below.overChildren listed,
    lays.below.overChildren listed]
  exact .bind_same fun realtime _ => .bind_same fun cpu _ => .done (lays.changeRoot rfl)

end Lays

end Arena

end CallProfiler
