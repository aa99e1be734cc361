import CallProfiler.CallTree.Recursion
import CallProfiler.Proofs.CallTree.Places
import CallProfiler.Proofs.Outcome
import Mathlib.Algebra.BigOperators.Group.List.Basic

/-!
# What folding recursion carries where

A recursive node gives its calls and children to the nearest namesake around it, which may be
recursive itself and pass them on. `foldRecursion_node` says what happens at one node, and
`Carried` is a quantity that folding moves but never changes. `foldRecursion_conserves` is
about all of them: what a quantity has at a place afterwards, together with what is still on
its way there, is what it had before at the places that reduce to that one.
-/

namespace CallProfiler

namespace Node

/-- A recursive node as it leaves for its namesake, `inside` being the time of its children. -/
def leaving (node : Node) (inside : Nat) (children : Forest Node) : Folded :=
  ⟨node.name, node.realtime - inside, node.count, node.recursions, children⟩

theorem takeIn_eq_ok {node grown : Node} {folded : Folded} (done : node.takeIn folded = .ok grown) :
    grown = { node with
      count := node.count + folded.calls
      removedCalls := node.removedCalls + folded.calls
      recursions := node.recursions + (1 + folded.recursions) } := by
  obtain ⟨count, sumCount, done⟩ := bind_eq_ok_iff.1 done
  obtain ⟨removedCalls, sumRemoved, done⟩ := bind_eq_ok_iff.1 done
  obtain ⟨deeper, sumDeeper, done⟩ := bind_eq_ok_iff.1 done
  obtain ⟨recursions, sumRecursions, done⟩ := bind_eq_ok_iff.1 done
  cases done
  rw [(Checked.add_eq_ok_iff.1 sumCount).2, (Checked.add_eq_ok_iff.1 sumRemoved).2,
    (Checked.add_eq_ok_iff.1 sumRecursions).2, (Checked.add_eq_ok_iff.1 sumDeeper).2]

theorem takeIn_keeps_name : Keeps takeIn Node.name := by
  intro node folded grown done
  rw [takeIn_eq_ok done]

theorem takeIn_keeps_realtime : Keeps takeIn Node.realtime := by
  intro node folded grown done
  rw [takeIn_eq_ok done]

theorem takeIn_keeps_cpu : Keeps takeIn Node.cpu := by
  intro node folded grown done
  rw [takeIn_eq_ok done]

theorem name_of_foldlM_takeIn {label grown : Node} {own passing : List Folded}
    (done : own.foldlM takeIn (label.letPass passing) = .ok grown) : grown.name = label.name := by
  have kept := takeIn_keeps_name.foldlM done
  exact kept

end Node

namespace Forest

/-- A forest with the children of the nodes that were taken in. -/
def adopt (forest : Forest Node) (own : List Folded) : Forest Node :=
  own.foldl (fun grown namesake => grown.append namesake.children) forest

@[simp] theorem adopt_nil (forest : Forest Node) : forest.adopt [] = forest := rfl

@[simp] theorem adopt_cons (forest : Forest Node) (namesake : Folded) (own : List Folded) :
    forest.adopt (namesake :: own) = (forest.append namesake.children).adopt own := rfl

/-- What folding did at one node: of those on their way the node takes in its namesakes, and
then it leaves too or stays. -/
theorem foldRecursion_node {path : CallPath} {label : Node}
    {children siblings remaining : Forest Node} {folded : List Folded}
    (done : foldRecursion path.reverse (.node label children siblings) = .ok (remaining, folded)) :
    ∃ (inner : Forest Node) (below own passing : List Folded) (node : Node)
        (rest : Forest Node) (later : List Folded),
      foldRecursion (path ++ [label.name]).reverse children = .ok (inner, below) ∧
      foldRecursion path.reverse siblings = .ok (rest, later) ∧
      own = below.filter (·.name = label.name) ∧ passing = below.filter (·.name ≠ label.name) ∧
      own.foldlM Node.takeIn (label.letPass passing) = .ok node ∧
      ((label.name ∈ path ∧ ∃ inside, (inner.adopt own).realtime = .ok inside ∧
          remaining = rest ∧ folded = passing ++ node.leaving inside (inner.adopt own) :: later) ∨
        (label.name ∉ path ∧ remaining = .node node (inner.adopt own) rest ∧
          folded = passing ++ later)) := by
  rw [foldRecursion] at done
  obtain ⟨⟨inner, below⟩, within, done⟩ := bind_eq_ok_iff.1 done
  simp only [List.partition_eq_filter_filter, Function.comp_def, beq_eq_decide,
    ← decide_not] at done
  obtain ⟨node, taken, done⟩ := bind_eq_ok_iff.1 done
  rw [show label.name :: path.reverse = (path ++ [label.name]).reverse by simp] at within
  by_cases recursive : label.name ∈ path
  · have known : path.reverse.contains label.name = true := by simpa using recursive
    simp only [known, if_true] at done
    obtain ⟨inside, sum, done⟩ := bind_eq_ok_iff.1 done
    obtain ⟨⟨rest, later⟩, beside, done⟩ := bind_eq_ok_iff.1 done
    cases done
    exact ⟨inner, below, _, _, node, rest, later, within, beside, rfl, rfl, taken,
      .inl ⟨recursive, inside, sum, rfl, rfl⟩⟩
  · have unknown : path.reverse.contains label.name = false := by simpa using recursive
    simp only [unknown, Bool.false_eq_true, if_false] at done
    obtain ⟨⟨rest, later⟩, beside, done⟩ := bind_eq_ok_iff.1 done
    cases done
    exact ⟨inner, below, _, _, node, rest, later, within, beside, rfl, rfl, taken,
      .inr ⟨recursive, rfl, rfl⟩⟩

theorem located_adopt (above : CallPath) (forest : Forest Node) (own : List Folded) :
    (forest.adopt own).located above =
      forest.located above ++ own.flatMap (·.children.located above) := by
  induction own generalizing forest with
  | nil => simp
  | cons namesake rest inductionHypothesis =>
      rw [adopt_cons, inductionHypothesis, located_append, List.flatMap_cons, List.append_assoc]

end Forest

/-- A quantity of nodes that folding moves: a node that stays has `kept`, a recursive one
brings `given` to its namesake, and on its way there that is `taken`. -/
structure Carried where
  kept : Node → Nat
  given : Node → Nat
  taken : Folded → Nat
  kept_takeIn : Adds Node.takeIn kept taken
  given_takeIn : Adds Node.takeIn given taken
  kept_letPass : ∀ (node : Node) (passing : List Folded), kept (node.letPass passing) = kept node
  given_letPass : ∀ (node : Node) (passing : List Folded), given (node.letPass passing) = given node
  taken_leaving : ∀ (node : Node) (inside : Nat) (children : Forest Node),
    taken (node.leaving inside children) = given node

namespace Carried

/-- Every node that stays counts once. -/
def nodes : Carried where
  kept _ := 1
  given _ := 0
  taken _ := 0
  kept_takeIn _ _ _ _ := rfl
  given_takeIn _ _ _ _ := rfl
  kept_letPass _ _ := rfl
  given_letPass _ _ := rfl
  taken_leaving _ _ _ := rfl

def count : Carried where
  kept := (·.count)
  given := (·.count)
  taken := (·.calls)
  kept_takeIn _ _ _ done := by rw [Node.takeIn_eq_ok done]
  given_takeIn _ _ _ done := by rw [Node.takeIn_eq_ok done]
  kept_letPass _ _ := rfl
  given_letPass _ _ := rfl
  taken_leaving _ _ _ := rfl

/-- All calls of a recursive node are removed. -/
def removedCalls : Carried where
  kept := (·.removedCalls)
  given := (·.count)
  taken := (·.calls)
  kept_takeIn _ _ _ done := by rw [Node.takeIn_eq_ok done]
  given_takeIn _ _ _ done := by rw [Node.takeIn_eq_ok done]
  kept_letPass _ _ := rfl
  given_letPass _ _ := rfl
  taken_leaving _ _ _ := rfl

/-- A recursive node counts itself and those it took in. -/
def recursions : Carried where
  kept := (·.recursions)
  given node := 1 + node.recursions
  taken folded := 1 + folded.recursions
  kept_takeIn _ _ _ done := by rw [Node.takeIn_eq_ok done]
  given_takeIn _ _ _ done := by rw [Node.takeIn_eq_ok done, Nat.add_assoc]
  kept_letPass _ _ := rfl
  given_letPass _ _ := rfl
  taken_leaving _ _ _ := rfl

/-- The CPU time of a recursive node is dropped. -/
def cpu : Carried where
  kept := (·.cpu)
  given _ := 0
  taken _ := 0
  kept_takeIn _ _ _ done := by rw [Node.takeIn_eq_ok done, Nat.add_zero]
  given_takeIn _ _ _ _ := rfl
  kept_letPass _ _ := rfl
  given_letPass _ _ := rfl
  taken_leaving _ _ _ := rfl

variable (carried : Carried) (target : CallPath)

/-- What is kept at a path. -/
def keptAt (places : List (CallPath × Node)) : Nat :=
  (places.map fun place => if place.1 = target then carried.kept place.2 else 0).sum

/-- What the nodes have whose paths reduce to a path. -/
def sourceAt (places : List (CallPath × Node)) : Nat :=
  (places.map fun place =>
    if place.1.reduced = target then
      if place.1.isRecursive then carried.given place.2 else carried.kept place.2
    else 0).sum

/-- What a node brings to a path that left the forest below `above`, its children included. -/
def share (above : CallPath) (folded : Folded) : Nat :=
  (if CallPath.reduced (above ++ [folded.name]) = target then carried.taken folded else 0) +
    carried.keptAt target
      (folded.children.located (CallPath.reduced (above ++ [folded.name])))

@[simp] theorem keptAt_nil : carried.keptAt target [] = 0 := rfl

@[simp] theorem keptAt_cons (place : CallPath × Node) (rest : List (CallPath × Node)) :
    carried.keptAt target (place :: rest) =
      (if place.1 = target then carried.kept place.2 else 0) + carried.keptAt target rest := by
  simp [keptAt]

@[simp] theorem keptAt_append (first second : List (CallPath × Node)) :
    carried.keptAt target (first ++ second) =
      carried.keptAt target first + carried.keptAt target second := by
  simp [keptAt]

/-- What a namesake brings goes to the node that takes it in. -/
theorem share_of_namesake {path : CallPath} {folded : Folded} {name : String}
    (namesake : folded.name = name) :
    carried.share target (path ++ [name]) folded =
      (if (path ++ [name]).reduced = target then carried.taken folded else 0) +
        carried.keptAt target (folded.children.located (path ++ [name]).reduced) := by
  rw [share, namesake, CallPath.reduced_concat_concat]

/-- What passes a node goes where it goes without that node. -/
theorem share_of_mem {path : CallPath} {folded : Folded} (around : folded.name ∈ path)
    (name : String) :
    carried.share target (path ++ [name]) folded = carried.share target path folded := by
  rw [share, share, CallPath.reduced_append_concat_of_mem around]

/-- What several namesakes bring to the node that takes them in. -/
theorem sum_share_of_namesakes {path : CallPath} {name : String} {own : List Folded}
    (namesakes : ∀ folded ∈ own, folded.name = name) :
    (own.map (carried.share target (path ++ [name]))).sum =
      (if (path ++ [name]).reduced = target then (own.map carried.taken).sum else 0) +
        carried.keptAt target
          (own.flatMap (·.children.located (path ++ [name]).reduced)) := by
  induction own with
  | nil => simp
  | cons first rest inductionHypothesis =>
      have others := inductionHypothesis fun folded member =>
        namesakes folded (List.mem_cons_of_mem first member)
      rw [List.map_cons, List.sum_cons, others,
        carried.share_of_namesake target (namesakes first List.mem_cons_self),
        List.flatMap_cons, carried.keptAt_append]
      split
      · rw [List.map_cons, List.sum_cons]
        omega
      · omega

/-- Of the nodes that left the children of a node, those of its name come to it and the others
pass it. -/
theorem sum_share_below {path : CallPath} {name : String} {below : List Folded}
    (around : ∀ folded ∈ below, folded.name ∈ path ++ [name]) :
    (below.map (carried.share target (path ++ [name]))).sum =
      (if (path ++ [name]).reduced = target then
          ((below.filter (·.name = name)).map carried.taken).sum
        else 0) +
        carried.keptAt target ((below.filter (·.name = name)).flatMap
          (·.children.located (path ++ [name]).reduced)) +
        ((below.filter (·.name ≠ name)).map (carried.share target path)).sum := by
  have namesakes : ∀ folded ∈ below.filter (·.name = name), folded.name = name :=
    fun folded member => of_decide_eq_true (List.mem_filter.1 member).2
  have passing : (below.filter (·.name ≠ name)).map (carried.share target (path ++ [name])) =
      (below.filter (·.name ≠ name)).map (carried.share target path) := by
    apply List.map_congr_left
    intro folded member
    obtain ⟨inBelow, different⟩ := List.mem_filter.1 member
    rcases List.mem_append.1 (around folded inBelow) with inPath | same
    · exact carried.share_of_mem target inPath name
    · exact absurd (List.mem_singleton.1 same) (of_decide_eq_true different)
  rw [← carried.sum_share_of_namesakes target namesakes, ← passing]
  exact (List.sum_map_filter_add_sum_map_filter_not (·.name = name)
    (carried.share target (path ++ [name])) below).symm

@[simp] theorem sourceAt_nil : carried.sourceAt target [] = 0 := rfl

@[simp] theorem sourceAt_cons (place : CallPath × Node) (rest : List (CallPath × Node)) :
    carried.sourceAt target (place :: rest) =
      (if place.1.reduced = target then
        if place.1.isRecursive then carried.given place.2 else carried.kept place.2
      else 0) + carried.sourceAt target rest := by
  simp [sourceAt]

@[simp] theorem sourceAt_append (first second : List (CallPath × Node)) :
    carried.sourceAt target (first ++ second) =
      carried.sourceAt target first + carried.sourceAt target second := by
  simp [sourceAt]

end Carried

namespace Forest

/-- A node leaves a forest only for a namesake around it. -/
theorem name_of_mem_folded {path : CallPath} {forest remaining : Forest Node}
    {folded : List Folded} (done : foldRecursion path.reverse forest = .ok (remaining, folded)) :
    ∀ leaving ∈ folded, leaving.name ∈ path := by
  induction forest generalizing path remaining folded with
  | nil =>
      cases done
      simp
  | node label children siblings childrenHypothesis siblingsHypothesis =>
      obtain ⟨inner, below, own, passing, node, rest, later, within, beside, _, passingEq, taken,
        outcome⟩ := foldRecursion_node done
      have upwards : ∀ leaving ∈ passing, leaving.name ∈ path := by
        intro leaving member
        rw [passingEq] at member
        obtain ⟨inBelow, different⟩ := List.mem_filter.1 member
        rcases List.mem_append.1 (childrenHypothesis within leaving inBelow) with inPath | same
        · exact inPath
        · exact absurd (List.mem_singleton.1 same) (of_decide_eq_true different)
      have following := siblingsHypothesis beside
      rcases outcome with ⟨recursive, inside, _, _, rfl⟩ | ⟨_, _, rfl⟩
      · rw [List.forall_mem_append, List.forall_mem_cons]
        refine ⟨upwards, ?_, following⟩
        show node.name ∈ path
        rw [Node.name_of_foldlM_takeIn taken]
        exact recursive
      · rw [List.forall_mem_append]
        exact ⟨upwards, following⟩

/-- Those that pass a node have their namesakes around it. -/
theorem name_of_mem_passing {path : CallPath} {name : String} {children inner : Forest Node}
    {below : List Folded}
    (within : foldRecursion (path ++ [name]).reverse children = .ok (inner, below)) :
    ∀ leaving ∈ below.filter (·.name ≠ name),
      leaving ∈ below ∧ leaving.name ≠ name ∧ leaving.name ∈ path := by
  intro leaving member
  obtain ⟨inBelow, different⟩ := List.mem_filter.1 member
  have different : leaving.name ≠ name := of_decide_eq_true different
  rcases List.mem_append.1 (name_of_mem_folded within leaving inBelow) with inPath | same
  · exact ⟨inBelow, different, inPath⟩
  · exact absurd (List.mem_singleton.1 same) different

/-- None of the outermost nodes leaves, and nothing passes them. -/
theorem tops_foldRecursion {β : Type} {observe : Node → β} (keeps : Keeps Node.takeIn observe)
    {forest remaining : Forest Node} {folded : List Folded}
    (done : foldRecursion [] forest = .ok (remaining, folded)) :
    remaining.tops.map observe = forest.tops.map observe := by
  induction forest generalizing remaining folded with
  | nil =>
      cases done
      rfl
  | node label children siblings _ inductionHypothesis =>
      obtain ⟨inner, below, own, passing, node, rest, later, within, beside, _, passingEq, taken,
        outcome⟩ := @foldRecursion_node [] _ _ _ _ _ done
      have noneHigher : passing = [] := by
        rw [passingEq]
        apply List.eq_nil_iff_forall_not_mem.2
        intro leaving member
        cases (name_of_mem_passing within leaving member).2.2
      have unchanged : observe node = observe label := by
        rw [noneHigher] at taken
        exact keeps.foldlM taken
      rcases outcome with ⟨recursive, _⟩ | ⟨_, rfl, _⟩
      · cases recursive
      · rw [tops, tops, List.map_cons, List.map_cons, unchanged, inductionHypothesis beside]

/-- Folding moves a quantity from every place to the one that its path reduces to: it is there
afterwards, or with a node that is still on its way. -/
theorem foldRecursion_conserves (carried : Carried) (target : CallPath) {path : CallPath}
    {forest remaining : Forest Node} {folded : List Folded}
    (done : foldRecursion path.reverse forest = .ok (remaining, folded)) :
    carried.keptAt target (remaining.located path.reduced) +
        (folded.map (carried.share target path)).sum =
      carried.sourceAt target (forest.located path) := by
  induction forest generalizing path remaining folded with
  | nil =>
      cases done
      simp [located]
  | node label children siblings childrenHypothesis siblingsHypothesis =>
      obtain ⟨inner, below, own, passing, node, rest, later, within, beside, ownEq, passingEq,
        taken, outcome⟩ := foldRecursion_node done
      have inChildren := childrenHypothesis within
      have inSiblings := siblingsHypothesis beside
      have parted := carried.sum_share_below target (name_of_mem_folded within)
      rw [← ownEq, ← passingEq] at parted
      have grown : carried.keptAt target
          ((inner.adopt own).located (path ++ [label.name]).reduced) =
            carried.keptAt target (inner.located (path ++ [label.name]).reduced) +
              carried.keptAt target
                (own.flatMap (·.children.located (path ++ [label.name]).reduced)) := by
        rw [located_adopt, carried.keptAt_append]
      have sameName := Node.name_of_foldlM_takeIn taken
      rw [located, carried.sourceAt_cons, carried.sourceAt_append, CallPath.isRecursive_concat]
      dsimp only
      rcases outcome with ⟨recursive, inside, _, rfl, rfl⟩ | ⟨fresh, rfl, rfl⟩
      · have given : carried.given node = carried.given label + (own.map carried.taken).sum := by
          rw [carried.given_takeIn.foldlM taken,
            carried.given_letPass]
        have leaves : carried.share target path (node.leaving inside (inner.adopt own)) =
            (if (path ++ [label.name]).reduced = target then carried.given node else 0) +
              carried.keptAt target ((inner.adopt own).located (path ++ [label.name]).reduced) := by
          rw [Carried.share, carried.taken_leaving, ← sameName]
          rfl
        rw [List.map_append, List.map_cons, List.sum_append, List.sum_cons, leaves, grown, given,
          List.contains_iff_mem.2 recursive]
        by_cases home : (path ++ [label.name]).reduced = target
        · rw [if_pos home] at parted
          rw [if_pos home, if_pos home, if_pos rfl]
          omega
        · rw [if_neg home] at parted
          rw [if_neg home, if_neg home]
          omega
      · have kept : carried.kept node = carried.kept label + (own.map carried.taken).sum := by
          rw [carried.kept_takeIn.foldlM taken,
            carried.kept_letPass]
        have stays : path.reduced ++ [node.name] = (path ++ [label.name]).reduced := by
          rw [sameName, CallPath.reduced_concat_of_not_mem fresh]
        rw [located, stays, carried.keptAt_cons, carried.keptAt_append, grown, kept,
          List.map_append, List.sum_append]
        by_cases home : (path ++ [label.name]).reduced = target
        · rw [if_pos home] at parted
          rw [if_pos home, if_pos home, if_neg (mt List.contains_iff_mem.1 fresh)]
          omega
        · rw [if_neg home] at parted
          rw [if_neg home, if_neg home]
          omega

end Forest

end CallProfiler
