import CallProfiler.Proofs.Arena.Refinement
import CallProfiler.Proofs.Arena.Walks

/-!
# What every arena is

`Reachable` follows the lists of children from the root, and `WellFormed` says how the slots that
it comes to are linked, what the nodes in them are, and that the two walks meet each of them once.
The links of a reached arena are those of the shape in which it lays a tree out, and its nodes are
those of the tree, which is sound.
-/

namespace CallProfiler.Arena

variable {arena : Arena} {parent : Option Nat} {shape : Forest Nat} {forest : Forest Node}
  {tree : CallTree} {events : List Event} {id : Nat}

/-! ## Slots that the root leads to -/

/-- The root leads to a slot through the lists of children. -/
inductive Reachable (arena : Arena) : Nat → Prop where
  | root : Reachable arena rootId
  | child {outer id : Nat} (reachable : Reachable arena outer)
      (listed : id ∈ (arena.slot outer).children) : Reachable arena id

namespace Holds

theorem children_of_mem_entries (holds : arena.Holds parent shape forest) :
    ∀ entry ∈ shape.entries, (arena.slot entry.1).children = entry.2.tops := by
  induction holds with
  | nil => nofun
  | node inside slot below beside belowHypothesis besideHypothesis =>
      rw [Forest.entries, List.forall_mem_cons, List.forall_mem_append]
      exact ⟨by rw [slot], belowHypothesis, besideHypothesis⟩

theorem parent_of_mem_entries (holds : arena.Holds parent shape forest) :
    ∀ entry ∈ shape.entries, ∀ child ∈ entry.2.tops,
      (arena.slot child).parent = some entry.1 := by
  induction holds with
  | nil => nofun
  | node inside slot below beside belowHypothesis besideHypothesis =>
      rw [Forest.entries, List.forall_mem_cons, List.forall_mem_append]
      exact ⟨below.parent_of_mem_tops, belowHypothesis, besideHypothesis⟩

/-- Where the outermost slots of a shape are reachable, all are. -/
theorem reachable (holds : arena.Holds parent shape forest)
    (outermost : ∀ id ∈ shape.tops, arena.Reachable id) :
    ∀ id ∈ shape.preorder, arena.Reachable id := by
  induction holds with
  | nil => nofun
  | node inside slot below beside belowHypothesis besideHypothesis =>
      rw [Forest.tops, List.forall_mem_cons] at outermost
      rw [Forest.preorder, List.forall_mem_cons, List.forall_mem_append]
      refine ⟨outermost.1, belowHypothesis fun child listed => ?_, besideHypothesis outermost.2⟩
      exact .child outermost.1 (by rwa [slot])

end Holds

/-- A slot is listed once: by its parent, which the root leads to, and by no other slot. It is one
level above its parent. -/
structure Linked (arena : Arena) (id outer : Nat) : Prop where
  parent : (arena.slot id).parent = some outer
  reachable : arena.Reachable outer
  once : (arena.slot outer).children.count id = 1
  nowhereElse : ∀ other, id ∈ (arena.slot other).children → other = outer
  level : (arena.node id).level = (arena.node outer).level + 1

/-- How the slots of an arena are linked, and what the nodes in them are. -/
structure WellFormed (arena : Arena) : Prop where
  /-- Nothing is above the root, neither by its own link nor by a list of children. -/
  root : (arena.slot rootId).parent = none ∧ ∀ other, rootId ∉ (arena.slot other).children
  rootLevel : (arena.node rootId).level = -1
  linked : ∀ id, arena.Reachable id → id ≠ rootId → ∃ outer, arena.Linked id outer
  siblings : ∀ id, arena.Reachable id → ((arena.slot id).children.map arena.name).Nodup
  counts : ∀ id, arena.Reachable id → 1 ≤ (arena.node id).count ∧
    (arena.node id).removedCalls ≤ (arena.node id).count ∧
    (arena.node id).ownCalls = .ok ((arena.node id).count - (arena.node id).removedCalls)
  realtime : arena.overChildren (·.realtime) rootId = .ok (arena.node rootId).realtime
  cpu : arena.overChildren (·.cpu) rootId = .ok (arena.node rootId).cpu
  frame : (arena.node rootId).frame = true → (arena.slot rootId).children.length = 1
  preorder : arena.preorder.Nodup ∧ ∀ id, id ∈ arena.preorder ↔ arena.Reachable id
  postorder : arena.postorder.Nodup ∧ ∀ id, id ∈ arena.postorder ↔ arena.Reachable id
  childFirst : ∀ id, arena.Reachable id → ∀ child ∈ (arena.slot id).children,
    [child, id].Sublist arena.postorder
  /-- Slots that have left the tree are linked to nothing. -/
  cutOff : ∀ id, ¬ arena.Reachable id → arena.CutOff id
  /-- No merge changes or refuses anything. -/
  merging : arena.mergeSiblings = .ok arena ∧ arena.mergeSiblingsStrict = .ok arena

namespace Lays

/-- The slots of a tree with what is below them. -/
theorem exists_entry (lays : arena.Lays shape tree) (member : id ∈ rootId :: shape.preorder) :
    ∃ inner, (id, inner) ∈ (Forest.node rootId shape .nil).entries ∧
      (arena.slot id).children = inner.tops := by
  have whole : rootId :: shape.preorder = (Forest.node rootId shape .nil).preorder := by
    rw [Forest.preorder, Forest.preorder, List.append_nil]
  rw [whole, ← Forest.map_fst_entries] at member
  obtain ⟨⟨_, inner⟩, inTree, rfl⟩ := List.mem_map.1 member
  exact ⟨inner, inTree, lays.holds.children_of_mem_entries _ inTree⟩

theorem reachable_iff (lays : arena.Lays shape tree) :
    arena.Reachable id ↔ id ∈ rootId :: shape.preorder := by
  constructor
  · intro reachable
    induction reachable with
    | root => exact List.mem_cons_self
    | child _ listed inductionHypothesis =>
        obtain ⟨inner, inTree, children⟩ := lays.exists_entry inductionHypothesis
        rw [children] at listed
        have inside := (Forest.preorder_sublist_of_mem_entries inTree).subset
          (List.mem_cons_of_mem _ (Forest.mem_preorder_of_mem_tops listed))
        simpa [Forest.preorder] using inside
  · intro member
    refine lays.holds.reachable ?_ id (by simpa [Forest.preorder] using member)
    rw [Forest.tops, Forest.tops, List.forall_mem_singleton]
    exact .root

/-- Only slots of the tree list others, and these name them as their parent. -/
theorem parent_of_listed {outer : Nat} (lays : arena.Lays shape tree)
    (listed : id ∈ (arena.slot outer).children) :
    arena.Reachable outer ∧ (arena.slot id).parent = some outer := by
  by_cases member : outer ∈ rootId :: shape.preorder
  · obtain ⟨inner, inTree, children⟩ := lays.exists_entry member
    rw [children] at listed
    exact ⟨lays.reachable_iff.2 member, lays.holds.parent_of_mem_entries _ inTree id listed⟩
  · rw [(lays.cutOff outer member).2] at listed
    cases listed

/-- A slot with the ones below it holds a node with the ones below it. -/
theorem mem_entries (lays : arena.Lays shape tree) {inner : Forest Nat}
    (inTree : (id, inner) ∈ (Forest.node rootId shape .nil).entries) :
    (arena.node id, inner.map arena.node) ∈ tree.whole.entries := by
  rw [← lays.holds.map_node, Forest.entries_map]
  exact List.mem_map_of_mem inTree

theorem linked {outer : Nat} (lays : arena.Lays shape tree) (sound : tree.Sound)
    (listed : id ∈ (arena.slot outer).children) : arena.Linked id outer := by
  obtain ⟨reachable, parent⟩ := lays.parent_of_listed listed
  obtain ⟨inner, inTree, children⟩ := lays.exists_entry (lays.reachable_iff.1 reachable)
  refine ⟨parent, reachable, ?_, fun other again => ?_, ?_⟩
  · have distinct : (Forest.node rootId shape .nil).preorder.Nodup := by
      simpa [Forest.preorder] using lays.distinct
    have once := (Forest.preorder_sublist_of_mem_entries inTree).nodup distinct
    rw [children] at listed ⊢
    exact List.count_eq_one_of_mem
      ((Forest.tops_sublist_preorder inner).nodup (List.nodup_cons.1 once).2) listed
  · have same := (lays.parent_of_listed again).2
    rw [parent] at same
    exact (Option.some.inj same).symm
  · refine sound.level_of_mem_entries _ (lays.mem_entries inTree) _ ?_
    rw [children] at listed
    rw [Forest.tops_map]
    exact List.mem_map_of_mem listed

/-- No slot lists two of the same name. -/
theorem nodup_names (lays : arena.Lays shape tree) (sound : tree.Sound) (id : Nat) :
    ((arena.slot id).children.map arena.name).Nodup := by
  by_cases member : id ∈ rootId :: shape.preorder
  · obtain ⟨inner, inTree, children⟩ := lays.exists_entry member
    have names := sound.nodup_of_mem_entries _ (lays.mem_entries inTree)
    rw [Forest.tops_map, List.map_map] at names
    rwa [children]
  · rw [(lays.cutOff id member).2]
    exact List.nodup_nil

/-- The links of an arena that lays a sound tree out, and the nodes in it. -/
theorem wellFormed (lays : arena.Lays shape tree) (sound : tree.Sound) : arena.WellFormed where
  root := by
    refine ⟨by rw [lays.slot_root], fun other listed => ?_⟩
    have parent := (lays.parent_of_listed listed).2
    rw [lays.slot_root] at parent
    cases parent
  rootLevel := by
    rw [node, lays.slot_root]
    exact sound.rootLevel
  linked := by
    intro id reachable apart
    cases reachable with
    | root => exact absurd rfl apart
    | child _ listed => exact ⟨_, lays.linked sound listed⟩
  siblings := fun id _ => lays.nodup_names sound id
  counts := by
    intro id reachable
    obtain ⟨inner, inTree, _⟩ := lays.exists_entry (lays.reachable_iff.1 reachable)
    obtain ⟨calls, removed⟩ := sound.counted_of_mem_entries _ (lays.mem_entries inTree)
    exact ⟨calls, removed, Checked.subtract_eq_ok_iff.2 ⟨removed, rfl⟩⟩
  realtime := by
    rw [lays.below.overChildren (by rw [lays.slot_root]), node, lays.slot_root]
    exact sound.realtime
  cpu := by
    rw [lays.below.overChildren (by rw [lays.slot_root]), node, lays.slot_root]
    exact sound.cpu
  frame := by
    rw [node, lays.slot_root, ← List.length_map (f := arena.node), lays.below.map_tops]
    exact sound.frame
  preorder := by
    rw [lays.preorder_eq]
    exact ⟨lays.distinct, fun id => lays.reachable_iff.symm⟩
  postorder := by
    have all : (shape.postorder ++ [rootId]).Perm (rootId :: shape.preorder) :=
      (List.perm_append_singleton _ _).trans (shape.postorder_perm_preorder.cons rootId)
    rw [lays.postorder_eq]
    exact ⟨all.nodup_iff.2 lays.distinct, fun id => all.mem_iff.trans lays.reachable_iff.symm⟩
  childFirst := by
    intro id reachable child listed
    obtain ⟨inner, inTree, children⟩ := lays.exists_entry (lays.reachable_iff.1 reachable)
    rw [children] at listed
    have first := Forest.postorder_child_parent inTree listed
    rw [lays.postorder_eq]
    simpa [Forest.postorder] using first
  cutOff := fun id outside => lays.cutOff id (mt lays.reachable_iff.2 outside)
  merging := by
    have distinct := lays.nodup_names sound
    exact ⟨mergeFrom_of_nodup distinct _ _, mergeFrom_of_nodup distinct _ _⟩

end Lays

/-- However an arena was come by, it is well formed. -/
theorem wellFormed_of_reached (reached : Reached events arena) : arena.WellFormed := by
  obtain ⟨tree, ⟨shape, lays⟩, derived⟩ := reached.exists_derived
  exact lays.wellFormed derived.sound

theorem wellFormed_of_reached_intertwined :
    ∃ arena, Reached CallTree.intertwined arena ∧ arena.WellFormed :=
  have reached := Reached.mergedStrictly (.merged (.copied (.collapsed (.mitigated
    (@Reached.built CallTree.intertwined _ rfl) ⟨100, 200, 300⟩ rfl) rfl)) rfl) rfl
  ⟨_, reached, wellFormed_of_reached reached⟩

end CallProfiler.Arena
