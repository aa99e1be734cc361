import CallProfiler.Proofs.CallTree.Merging

/-!
# Merging from above

Merging can also go from above: first the namesakes among the outermost trees are gathered, and
what lies below the trees that remain is merged after that. `gather_then_mergeBelow_iff` says that
this comes to the same forest.
-/

namespace CallProfiler.Forest

variable {ε : Type} {combine : Node → Node → Except ε Node}

/-- Gather the trees of a forest into those of their names, which are given their children; the
children are not merged. -/
def gather (combine : Node → Node → Except ε Node) (kept : Forest Node) :
    Forest Node → Except ε (Forest Node)
  | .nil => .ok kept
  | .node label children siblings =>
    match kept.find? (named label.name) with
    | none => gather combine (kept.append (.node label children .nil)) siblings
    | some (survivor, inner) => do
      let node ← combine survivor label
      gather combine (replace (named label.name) node (inner.append children) kept) siblings

/-- Merge what lies below each of the outermost nodes. -/
def mergeBelow (combine : Node → Node → Except ε Node) : Forest Node → Except ε (Forest Node)
  | .nil => .ok .nil
  | .node label children siblings => do
    let inner ← mergeInto combine .nil children
    let rest ← mergeBelow combine siblings
    return .node label inner rest

/-- The nodes that repeat a name, `names` being those of the nodes before. -/
def repeats (names : List String) : List Node → List Node
  | [] => []
  | label :: rest =>
    if label.name ∈ names then label :: repeats names rest else repeats (names ++ [label.name]) rest

/-! ## Finding and replacing where a forest parts -/

variable {before after children : Forest Node} {label : Node} {test : Node → Bool}

theorem find?_of_parted (fails : ∀ other ∈ before.tops, test other = false)
    (passes : test label = true) :
    (before.append (.node label children after)).find? test = some (label, children) := by
  induction before with
  | nil => rw [append, find?, if_pos passes]
  | node head inner siblings _ inductionHypothesis =>
      rw [tops, List.forall_mem_cons] at fails
      rw [append, find?, fails.1]
      exact inductionHypothesis fails.2

theorem replace_of_parted (fails : ∀ other ∈ before.tops, test other = false)
    (passes : test label = true) (node : Node) (grown : Forest Node) :
    replace test node grown (before.append (.node label children after)) =
      before.append (.node node grown after) := by
  induction before with
  | nil => rw [append, replace, if_pos passes, append]
  | node head inner siblings _ inductionHypothesis =>
      rw [tops, List.forall_mem_cons] at fails
      rw [append, replace, fails.1, if_neg Bool.false_ne_true, inductionHypothesis fails.2, append]

/-! ## Merging below -/

/-- Forests merge one after the other. -/
theorem mergeInto_append (merged first second : Forest Node) :
    mergeInto combine merged (first.append second) =
      mergeInto combine merged first >>= fun next => mergeInto combine next second := by
  induction first generalizing merged with
  | nil => rfl
  | node label children siblings _ inductionHypothesis =>
      rw [append, mergeInto_node_eq, @mergeInto_node_eq _ _ _ _ _ siblings]
      cases mergeInto combine merged (.node label children .nil) with
      | error reason => rfl
      | ok next => exact inductionHypothesis next

theorem tops_mergeBelow {forest merged : Forest Node}
    (done : mergeBelow combine forest = .ok merged) : merged.tops = forest.tops := by
  induction forest generalizing merged with
  | nil =>
      cases done
      rfl
  | node label children siblings _ inductionHypothesis =>
      obtain ⟨inner, _, done⟩ := bind_eq_ok_iff.1 done
      obtain ⟨rest, beside, same⟩ := bind_eq_ok_iff.1 done
      cases same
      rw [tops, tops, inductionHypothesis beside]

theorem mergeBelow_node_iff {siblings merged : Forest Node} :
    mergeBelow combine (.node label children siblings) = .ok merged ↔
      ∃ inner rest, mergeInto combine .nil children = .ok inner ∧
        mergeBelow combine siblings = .ok rest ∧ merged = .node label inner rest := by
  rw [mergeBelow]
  constructor
  · intro done
    obtain ⟨inner, within, done⟩ := bind_eq_ok_iff.1 done
    obtain ⟨rest, beside, same⟩ := bind_eq_ok_iff.1 done
    cases same
    exact ⟨inner, rest, within, beside, rfl⟩
  · rintro ⟨inner, rest, within, beside, rfl⟩
    rw [within, ok_bind, beside]
    rfl

theorem mergeBelow_append_iff {first second merged : Forest Node} :
    mergeBelow combine (first.append second) = .ok merged ↔
      ∃ left right, mergeBelow combine first = .ok left ∧
        mergeBelow combine second = .ok right ∧ merged = left.append right := by
  induction first generalizing merged with
  | nil =>
      constructor
      · intro done
        exact ⟨.nil, merged, rfl, done, rfl⟩
      · rintro ⟨_, right, ⟨⟩, done, rfl⟩
        exact done
  | node label children siblings _ inductionHypothesis =>
      simp only [append, mergeBelow_node_iff, inductionHypothesis]
      constructor
      · rintro ⟨inner, rest, within, ⟨left, right, beside, done, rfl⟩, rfl⟩
        exact ⟨_, right, ⟨inner, left, within, beside, rfl⟩, done, rfl⟩
      · rintro ⟨_, right, ⟨inner, left, within, beside, rfl⟩, done, rfl⟩
        exact ⟨inner, _, within, ⟨left, right, beside, done, rfl⟩, rfl⟩

/-! ## Gathering first -/

/-- Trees may join a merged forest one after the other, or be gathered before anything below them
is merged. -/
theorem gather_then_mergeBelow_iff {kept forest result : Forest Node} :
    (∃ gathered, gather combine kept forest = .ok gathered ∧
        mergeBelow combine gathered = .ok result) ↔
      ∃ merged, mergeBelow combine kept = .ok merged ∧
        mergeInto combine merged forest = .ok result := by
  induction forest generalizing kept with
  | nil =>
      constructor
      · rintro ⟨_, ⟨⟩, done⟩
        exact ⟨result, done, rfl⟩
      · rintro ⟨_, done, ⟨⟩⟩
        exact ⟨kept, rfl, done⟩
  | node label children siblings _ inductionHypothesis =>
      rw [gather]
      cases found : kept.find? (named label.name) with
      | none =>
          -- A new name stays new, since merging below a node leaves the node as it is.
          have fresh {merged : Forest Node} (done : mergeBelow combine kept = .ok merged) :
              merged.find? (named label.name) = none := by
            refine find?_eq_none_of fun other member => ?_
            rw [tops_mergeBelow done] at member
            exact find?_eq_none found other member
          simp only [inductionHypothesis, mergeBelow_append_iff, mergeBelow_node_iff]
          constructor
          · rintro ⟨_, ⟨merged, _, below, ⟨inner, _, within, ⟨⟩, rfl⟩, rfl⟩, rest⟩
            refine ⟨merged, below, ?_⟩
            rw [mergeInto, fresh below, within]
            exact rest
          · rintro ⟨merged, below, done⟩
            rw [mergeInto, fresh below] at done
            obtain ⟨inner, within, rest⟩ := bind_eq_ok_iff.1 done
            exact ⟨_, ⟨merged, _, below, ⟨inner, .nil, within, rfl, rfl⟩, rfl⟩, rest⟩
      | some pair =>
          obtain ⟨survivor, inner⟩ := pair
          obtain ⟨before, after, rfl, passes, fails, replaced⟩ := find?_eq_some found
          simp only [replaced, bind_eq_ok_iff]
          constructor
          · rintro ⟨gathered, ⟨node, combined, rest⟩, done⟩
            obtain ⟨merged, below, finished⟩ := inductionHypothesis.1 ⟨gathered, rest, done⟩
            obtain ⟨left, _, first, second, rfl⟩ := mergeBelow_append_iff.1 below
            obtain ⟨grown, right, within, beside, rfl⟩ := mergeBelow_node_iff.1 second
            rw [mergeInto_append] at within
            obtain ⟨own, head, tail⟩ := bind_eq_ok_iff.1 within
            have parted : mergeBelow combine (.node survivor inner after) =
                .ok (.node survivor own right) :=
              mergeBelow_node_iff.2 ⟨own, right, head, beside, rfl⟩
            refine ⟨_, mergeBelow_append_iff.2 ⟨left, _, first, parted, rfl⟩, ?_⟩
            rw [← tops_mergeBelow first] at fails
            rw [mergeInto, find?_of_parted fails passes]
            simp only [combined, tail, ok_bind, replace_of_parted fails passes]
            exact finished
          · rintro ⟨merged, below, done⟩
            obtain ⟨left, _, first, second, rfl⟩ := mergeBelow_append_iff.1 below
            obtain ⟨own, right, head, beside, rfl⟩ := mergeBelow_node_iff.1 second
            rw [← tops_mergeBelow first] at fails
            rw [mergeInto, find?_of_parted fails passes] at done
            obtain ⟨node, combined, done⟩ := bind_eq_ok_iff.1 done
            obtain ⟨grown, tail, rest⟩ := bind_eq_ok_iff.1 done
            rw [replace_of_parted fails passes] at rest
            have within : mergeInto combine .nil (inner.append children) = .ok grown := by
              rw [mergeInto_append, head]
              exact tail
            have parted : mergeBelow combine (.node node (inner.append children) after) =
                .ok (.node node grown right) :=
              mergeBelow_node_iff.2 ⟨grown, right, within, beside, rfl⟩
            obtain ⟨gathered, gathering, finished⟩ := inductionHypothesis.2
              ⟨_, mergeBelow_append_iff.2 ⟨left, _, first, parted, rfl⟩, rest⟩
            exact ⟨gathered, ⟨node, combined, gathering⟩, finished⟩

/-- Merging is gathering, and merging below what was gathered. -/
theorem mergeInto_iff_gather {forest merged : Forest Node} :
    mergeInto combine .nil forest = .ok merged ↔
      ∃ gathered, gather combine .nil forest = .ok gathered ∧
        mergeBelow combine gathered = .ok merged := by
  rw [gather_then_mergeBelow_iff]
  simp [mergeBelow]

/-! ## Admitting what is gathered -/

/-- Combine nodes once the second one is admitted. -/
def admitting (permit : Node → Except ε Unit) (combine : Node → Node → Except ε Node)
    (survivor label : Node) : Except ε Node := do
  permit label
  combine survivor label

theorem repeats_sublist (names : List String) (nodes : List Node) :
    (repeats names nodes).Sublist nodes := by
  induction nodes generalizing names with
  | nil => exact .slnil
  | cons label rest inductionHypothesis =>
      rw [repeats]
      split
      · exact (inductionHypothesis names).cons_cons label
      · exact (inductionHypothesis (names ++ [label.name])).cons label

theorem find?_named_eq_none_iff {kept : Forest Node} {name : String} :
    kept.find? (named name) = none ↔ name ∉ kept.tops.map (·.name) := by
  constructor
  · intro missing member
    obtain ⟨node, inKept, rfl⟩ := List.mem_map.1 member
    have fails := find?_eq_none missing node inKept
    rw [named, beq_self_eq_true] at fails
    cases fails
  · intro absent
    refine find?_eq_none_of fun node inKept => ?_
    exact beq_eq_false_iff_ne.2 fun same => absent (same ▸ List.mem_map_of_mem inKept)

/-- Gathering with a test is gathering where all that is absorbed passes the test. -/
theorem gather_admitting_iff {permit : Node → Except ε Unit} (keepsName : Keeps combine Node.name)
    {kept forest gathered : Forest Node} :
    gather (admitting permit combine) kept forest = .ok gathered ↔
      (∀ node ∈ repeats (kept.tops.map (·.name)) forest.tops, permit node = .ok ()) ∧
        gather combine kept forest = .ok gathered := by
  induction forest generalizing kept with
  | nil => simp [gather, tops, repeats]
  | node label children siblings _ inductionHypothesis =>
      rw [gather, gather, tops, repeats]
      cases found : kept.find? (named label.name) with
      | none =>
          rw [if_neg (find?_named_eq_none_iff.1 found)]
          simp only [inductionHypothesis, tops_append, tops, List.map_append, List.map_cons,
            List.map_nil]
      | some pair =>
          obtain ⟨survivor, inner⟩ := pair
          obtain ⟨before, after, rfl, passes, fails, replaced⟩ := find?_eq_some found
          have known :
              label.name ∈ (before.append (.node survivor inner after)).tops.map (·.name) :=
            Decidable.not_not.1 fun absent => by
              rw [find?_named_eq_none_iff.2 absent] at found
              cases found
          have sameNames {node : Node} (combined : combine survivor label = .ok node) :
              (before.append (.node node (inner.append children) after)).tops.map (·.name) =
                (before.append (.node survivor inner after)).tops.map (·.name) := by
            simp [tops, keepsName combined]
          rw [if_pos known, List.forall_mem_cons]
          simp only [replaced, admitting, bind_eq_ok_iff]
          constructor
          · rintro ⟨node, ⟨_, admitted, combined⟩, rest⟩
            obtain ⟨others, finished⟩ := inductionHypothesis.1 rest
            rw [sameNames combined] at others
            exact ⟨⟨admitted, others⟩, node, combined, finished⟩
          · rintro ⟨⟨admitted, others⟩, node, combined, finished⟩
            rw [← sameNames combined] at others
            exact ⟨node, ⟨(), admitted, combined⟩, inductionHypothesis.2 ⟨others, finished⟩⟩

/-- Gathering stops only where two nodes cannot be combined. -/
theorem exists_of_gather_eq_error {kept forest : Forest Node} {reason : ε}
    (stopped : gather combine kept forest = .error reason) :
    ∃ survivor absorbed, combine survivor absorbed = .error reason := by
  induction forest generalizing kept with
  | nil => cases stopped
  | node label children siblings _ inductionHypothesis =>
      rw [gather] at stopped
      split at stopped
      · exact inductionHypothesis stopped
      · rcases bind_eq_error_iff.1 stopped with failed | ⟨node, _, rest⟩
        · exact ⟨_, label, failed⟩
        · exact inductionHypothesis rest

/-! ## What is gathered -/

/-- The nodes that are not among the outermost ones. -/
def beneath : Forest Node → List Node
  | .nil => []
  | .node _ children siblings => children.preorder ++ siblings.beneath

theorem beneath_append (first second : Forest Node) :
    (first.append second).beneath = first.beneath ++ second.beneath := by
  induction first with
  | nil => rfl
  | node label children siblings _ inductionHypothesis =>
      rw [append, beneath, beneath, inductionHypothesis, List.append_assoc]

/-- Gathering moves what lies below the outermost nodes, but leaves it as it is. -/
theorem mem_beneath_gather {kept forest gathered : Forest Node}
    (done : gather combine kept forest = .ok gathered) {node : Node}
    (member : node ∈ gathered.beneath) : node ∈ kept.beneath ∨ node ∈ forest.beneath := by
  induction forest generalizing kept with
  | nil =>
      cases done
      exact .inl member
  | node label children siblings _ inductionHypothesis =>
      rw [gather] at done
      rw [beneath, List.mem_append]
      cases found : kept.find? (named label.name) with
      | none =>
          rw [found] at done
          have origin := inductionHypothesis done
          simp only [beneath_append, beneath, List.append_nil, List.mem_append] at origin
          tauto
      | some pair =>
          obtain ⟨survivor, inner⟩ := pair
          obtain ⟨before, after, rfl, _, _, replaced⟩ := find?_eq_some found
          rw [found] at done
          obtain ⟨next, _, done⟩ := bind_eq_ok_iff.1 done
          rw [replaced] at done
          have origin := inductionHypothesis done
          simp only [beneath_append, beneath, preorder_append, List.mem_append] at origin ⊢
          tauto

theorem mem_preorder_of_mem_beneath {forest : Forest Node} {node : Node}
    (member : node ∈ forest.beneath) : node ∈ forest.preorder := by
  induction forest with
  | nil => cases member
  | node label children siblings _ inductionHypothesis =>
      refine List.mem_cons_of_mem label ?_
      rcases List.mem_append.1 member with inChildren | inSiblings
      · exact List.mem_append_left _ inChildren
      · exact List.mem_append_right _ (inductionHypothesis inSiblings)

end CallProfiler.Forest
