import CallProfiler.Proofs.CallTree.Statistics
import Mathlib.Algebra.Ring.Int.Defs

/-!
# Exclusive time under direct recursion

Where every recursive call is made right inside its namesake, collapsing and adding up by name
keep the exclusive time of each function. That time is nowhere in a tree: it is what the nodes
of a name lasted less what their children did, so it is followed as a `balance`, in which the
time of a node counts for its own name and against its caller's. A node that leaves for its
caller counts for and against one name, and its children have a caller of the same name before
and after. `exclusive_of_collapse` carries the balance through folding, merging and adding up.
-/

namespace CallProfiler

open scoped List

namespace Forest

variable {forest : Forest Node} {caller : Option String} {name : String}

/-- The time of the nodes of a name, less the time of those called from it. `caller` is the name
of the node around the forest. -/
def balance (caller : Option String) (name : String) : Forest Node → Int
  | .nil => 0
  | .node label children siblings =>
    (if label.name = name then (label.realtime : Int) else 0) -
      (if caller = some name then (label.realtime : Int) else 0) +
      balance (some label.name) name children + balance caller name siblings

@[simp] theorem balance_nil : (nil : Forest Node).balance caller name = 0 := rfl

theorem balance_append (first second : Forest Node) :
    (first.append second).balance caller name =
      first.balance caller name + second.balance caller name := by
  induction first with
  | nil => simp [append]
  | node label children siblings _ inductionHypothesis =>
      rw [append, balance, balance, inductionHypothesis]
      omega

theorem balance_adopt (forest : Forest Node) (own : List Folded) :
    (forest.adopt own).balance caller name =
      forest.balance caller name + (own.map (·.children.balance caller name)).sum := by
  induction own generalizing forest with
  | nil => simp
  | cons namesake rest inductionHypothesis =>
      rw [adopt_cons, inductionHypothesis, balance_append, List.map_cons, List.sum_cons,
        Int.add_assoc]

/-! ## What the operations do to a balance -/

/-- Every recursive call below a path is made right inside its namesake. -/
def RecursesDirectly (path : CallPath) (forest : Forest Node) : Prop :=
  ∀ place ∈ forest.located path, place.1.isRecursive = true → place.1.isDirect = true

/-- Where recursion is direct a node leaves only for its caller, and folding keeps every balance:
what a node that leaves brings along is its children. -/
theorem balance_foldRecursion {path : CallPath} {remaining : Forest Node} {folded : List Folded}
    (around : ∀ outer, path.getLast? = some outer → caller = some outer)
    (direct : forest.RecursesDirectly path)
    (done : foldRecursion path.reverse forest = .ok (remaining, folded)) :
    (∀ leaving ∈ folded, caller = some leaving.name) ∧
      remaining.balance caller name + (folded.map (·.children.balance caller name)).sum =
        forest.balance caller name := by
  induction forest generalizing path caller remaining folded with
  | nil =>
      cases done
      simp
  | node label children siblings childrenHypothesis siblingsHypothesis =>
      obtain ⟨inner, below, own, passing, node, rest, later, within, beside, ownEq, passingEq,
        taken, outcome⟩ := foldRecursion_node done
      simp only [RecursesDirectly, located, List.forall_mem_cons, List.forall_mem_append] at direct
      obtain ⟨here, inChildren, inSiblings⟩ := direct
      obtain ⟨homewards, inside⟩ := @childrenHypothesis (some label.name) _ _ _ (by simp) inChildren within
      obtain ⟨laterHomewards, outside⟩ := siblingsHypothesis around inSiblings beside
      -- all that left the children is taken in here, and nothing passes
      have namesakes : ∀ leaving ∈ below, leaving.name = label.name := fun leaving member =>
        (Option.some.inj (homewards leaving member)).symm
      obtain rfl : own = below := by
        rw [ownEq, List.filter_eq_self]
        exact fun leaving member => decide_eq_true (namesakes leaving member)
      obtain rfl : passing = [] := by
        rw [passingEq, List.filter_eq_nil_iff]
        exact fun leaving member => by simpa using namesakes leaving member
      have realtime : node.realtime = label.realtime := realtime_of_takeIn taken
      have sameName := Node.name_of_foldlM_takeIn taken
      rw [← balance_adopt] at inside
      rw [balance, ← inside, ← outside]
      rcases outcome with ⟨recursive, sum, _, rfl, rfl⟩ | ⟨_, rfl, rfl⟩
      · have isDirect := here (by simpa using recursive)
        have isCaller : caller = some label.name :=
          around label.name (by simpa [CallPath.isDirect] using isDirect)
        rw [List.nil_append, List.forall_mem_cons, List.map_cons, List.sum_cons]
        refine ⟨⟨isCaller.trans (congrArg some sameName.symm), laterHomewards⟩, ?_⟩
        simp only [isCaller, Option.some.injEq, Node.leaving]
        omega
      · rw [balance, realtime, sameName]
        refine ⟨laterHomewards, ?_⟩
        omega

theorem balance_renumber (forest : Forest Node) (level : Int) :
    (forest.renumber level).balance caller name = forest.balance caller name := by
  induction forest generalizing caller level with
  | nil => rfl
  | node label children siblings childrenHypothesis siblingsHypothesis =>
      simp only [renumber, balance, childrenHypothesis, siblingsHypothesis]

/-- Merging brings together what has one name and one caller. -/
theorem balance_mergeInto {merged result : Forest Node}
    (done : mergeInto Node.absorb merged forest = .ok result) :
    result.balance caller name = merged.balance caller name + forest.balance caller name := by
  induction forest generalizing caller merged result with
  | nil =>
      cases done
      simp
  | node label children siblings childrenHypothesis siblingsHypothesis =>
      rcases mergeInto_node done with ⟨inner, _, within, rest⟩ |
        ⟨before, survivor, kept, after, node, inner, rfl, sameName, combined, within, rest⟩
      · rw [siblingsHypothesis rest, balance_append, balance, balance, balance,
          childrenHypothesis within, balance_nil]
        omega
      · rw [siblingsHypothesis rest, balance_append, balance_append, balance, balance, balance,
          childrenHypothesis within, Node.keeps_name combined, Node.adds_realtime combined,
          sameName, Int.natCast_add]
        split <;> split <;> omega

/-! ## What a balance says -/

/-- What the rows of a name lasted less what their children did. -/
theorem balance_eq_rows (forest : Forest Node) :
    forest.balance caller name =
      ((forest.rows.filter (·.name = name)).map (·.realtime)).sum -
        ((forest.rows.filter (·.name = name)).map (·.childrenRealtime)).sum -
        if caller = some name then (forest.time : Int) else 0 := by
  induction forest generalizing caller with
  | nil => simp [rows, entries]
  | node label children siblings childrenHypothesis siblingsHypothesis =>
      have rows : (node label children siblings).rows =
          .alone label children :: (children.rows ++ siblings.rows) := by
        simp [Forest.rows, entries]
      rw [balance, childrenHypothesis, siblingsHypothesis, rows, List.filter_cons,
        List.filter_append, time_node]
      by_cases own : label.name = name
      · simp [own, FunctionStat.alone]
        split <;> omega
      · simp [own, FunctionStat.alone]
        split <;> omega

/-- What the nodes of a name had to themselves, where all nodes cover their children. -/
theorem balance_eq_exclusive {above : CallPath} (covers : forest.CoversBelow above) :
    forest.balance caller name =
      (((forest.branches above).filter (·.node.name = name)).map Branch.exclusive).sum -
        if caller = some name then (forest.time : Int) else 0 := by
  induction forest generalizing caller above with
  | nil => simp [branches]
  | node label children siblings childrenHypothesis siblingsHypothesis =>
      have inside := covers.head
      rw [balance, childrenHypothesis covers.inChildren, siblingsHypothesis covers.inSiblings,
        branches, List.filter_cons, List.filter_append, time_node]
      by_cases own : label.name = name
      · simp [own, Branch.exclusive]
        split <;> omega
      · simp [own]
        split <;> omega

/-! ## Names -/

/-- Of the calls of a name the outermost ones are not recursive. -/
theorem exists_nonrecursive {path : CallPath} {node : Node} (member : node ∈ forest.preorder)
    (fresh : node.name ∉ path) :
    ∃ place ∈ forest.located path, place.1.isRecursive = false ∧ place.2.name = node.name := by
  induction forest generalizing path with
  | nil => cases member
  | node label children siblings childrenHypothesis siblingsHypothesis =>
      simp only [located, List.mem_cons, List.mem_append]
      by_cases same : label.name = node.name
      · refine ⟨_, .inl rfl, ?_, same⟩
        rw [CallPath.isRecursive_concat, same, ← Bool.not_eq_true, List.contains_iff_mem]
        exact fresh
      · rcases List.mem_cons.1 member with rfl | member
        · exact absurd rfl same
        · rcases List.mem_append.1 member with inChildren | inSiblings
          · have freshBelow : node.name ∉ path ++ [label.name] := by
              rw [List.mem_append, List.mem_singleton]
              exact fun known => known.elim fresh fun equal => same equal.symm
            obtain ⟨place, inForest, found⟩ := childrenHypothesis inChildren freshBelow
            exact ⟨place, .inr (.inl inForest), found⟩
          · obtain ⟨place, inForest, found⟩ := siblingsHypothesis inSiblings fresh
            exact ⟨place, .inr (.inr inForest), found⟩

end Forest

namespace CallTree

variable {full collapsed : CallTree} {stats : List FunctionStat} {name : String}

/-- Collapsing neither adds nor loses a name. -/
theorem mem_names_of_collapse (done : full.collapseRecursion = .ok collapsed) :
    name ∈ collapsed.children.preorder.map (·.name) ↔
      name ∈ full.children.preorder.map (·.name) := by
  have named {forest : Forest Node} {place : CallPath × Node}
      (member : place ∈ forest.located []) : place.1.reduced.getLast? = some place.2.name := by
    rw [Forest.dropLast_concat_of_mem_located member, CallPath.reduced_concat,
      List.getLast?_concat]
  constructor
  · intro inCollapsed
    obtain ⟨node, member, rfl⟩ := List.mem_map.1 inCollapsed
    rw [← Forest.map_snd_located []] at member
    obtain ⟨place, located, rfl⟩ := List.mem_map.1 member
    obtain ⟨source, inFull, _, home⟩ :=
      (mem_paths_of_collapse done place.1).1 (List.mem_map_of_mem located)
    have sameName := named inFull
    rw [home, Forest.getLast?_of_mem_located located] at sameName
    rw [Option.some.inj sameName, ← Forest.map_snd_located [], List.map_map]
    exact List.mem_map_of_mem (f := fun place : CallPath × Node => place.2.name) inFull
  · intro inFull
    obtain ⟨node, member, rfl⟩ := List.mem_map.1 inFull
    obtain ⟨source, located, outermost, sameName⟩ :=
      Forest.exists_nonrecursive member (List.not_mem_nil (a := node.name))
    obtain ⟨place, inCollapsed, home⟩ := List.mem_map.1
      ((mem_paths_of_collapse done source.1.reduced).2 ⟨source, located, outermost, rfl⟩)
    have ofPlace := Forest.getLast?_of_mem_located inCollapsed
    rw [home, named located, sameName] at ofPlace
    rw [Option.some.inj ofPlace, ← Forest.map_snd_located [], List.map_map]
    exact List.mem_map_of_mem (f := fun place : CallPath × Node => place.2.name) inCollapsed

/-! ## Exclusive time of a function -/

/-- Every node that shares its name with a call around it shares it with its caller. -/
def RecursesDirectly (tree : CallTree) : Prop := tree.children.RecursesDirectly []

instance (tree : CallTree) : Decidable tree.RecursesDirectly :=
  inferInstanceAs (Decidable (∀ place ∈ tree.children.located [],
    place.1.isRecursive = true → place.1.isDirect = true))

/-- The exclusive times of all nodes of a name together. -/
def exclusiveTimeOf (tree : CallTree) (name : String) : Nat :=
  (((tree.trunk :: tree.children.branches []).filter (·.node.name = name)).map
    Branch.exclusive).sum

theorem balance_whole (tree : CallTree) :
    tree.whole.balance none name = (if tree.root.name = name then (tree.root.realtime : Int) else 0) +
      tree.children.balance (some tree.root.name) name := by
  simp [whole, Forest.balance]

/-- Collapsing direct recursion keeps every balance. -/
theorem balance_of_collapse (direct : full.RecursesDirectly)
    (done : full.collapseRecursion = .ok collapsed) :
    collapsed.whole.balance none name = full.whole.balance none name := by
  rcases collapseRecursion_eq_ok done with ⟨_, rfl⟩ | ⟨remaining, folding, merged, root⟩
  · rfl
  · have folded := (@Forest.balance_foldRecursion _ (some full.root.name) name [] _ _ (by simp)
      direct folding).2
    have whole := @Forest.balance_mergeInto _ (some full.root.name) name _ _ merged
    rw [Forest.balance_nil, Forest.balance_renumber, Int.zero_add] at whole
    rw [List.map_nil, List.sum_nil, Int.add_zero] at folded
    rw [balance_whole, balance_whole, root, whole, folded]

/-- The balance of a name in a whole tree whose nodes cover their children. -/
theorem balance_of_covers (covers : full.Covers) :
    full.whole.balance none name = full.exclusiveTimeOf name := by
  have inForest : full.children.CoversBelow [] := fun branch member =>
    covers branch (List.mem_cons_of_mem _ member)
  have root : full.children.time ≤ full.root.realtime := covers _ List.mem_cons_self
  rw [balance_whole, Forest.balance_eq_exclusive inForest, exclusiveTimeOf, List.filter_cons]
  by_cases own : full.root.name = name
  · simp [own, trunk, Branch.exclusive]
    omega
  · simp [own, trunk]

/-- If a tree's nodes cover their children and every recursive call is made right inside its
namesake, the statistics of the collapsed tree have one entry for each function, and it has the
exclusive time that the function's nodes had together in the full tree. -/
theorem exclusive_of_collapse (covers : full.Covers) (direct : full.RecursesDirectly)
    (done : full.collapseRecursion = .ok collapsed) (collected : collapsed.statistics = .ok stats) :
    stats.map (·.name) ~ (full.preorder.map (·.name)).eraseDups ∧
      ∀ stat ∈ stats, stat.exclusive = full.exclusiveTimeOf stat.name := by
  obtain ⟨_, totals, summarizes, perm⟩ := statistics_eq_ok collected
  constructor
  · refine (names_of_statistics collected).trans ((List.perm_ext_iff_of_nodup
      (FirstOccurrences.nodup_eraseDups _) (FirstOccurrences.nodup_eraseDups _)).2 fun name => ?_)
    rw [List.mem_eraseDups, List.mem_eraseDups, preorder, preorder, whole, whole,
      Forest.preorder, Forest.preorder, root_of_collapse done]
    simp only [Forest.preorder, List.append_nil, List.map_cons, List.mem_cons,
      mem_names_of_collapse done]
  · intro stat member
    have total := summarizes.total stat (perm.mem_iff.1 member)
    have kept := @balance_of_collapse _ _ stat.name direct done
    rw [balance_of_covers covers, Forest.balance_eq_rows, ← total.realtime,
      ← total.childrenRealtime] at kept
    rw [FunctionStat.exclusive]
    simp at kept
    omega

/-- A search that deepens by calling itself, and scores at every depth. -/
def deepening : List Event :=
  [.plain "search" 0 0 300, .plain "search" 1 10 200, .plain "search" 2 20 150,
    .plain "score" 3 30 80, .plain "score" 2 160 190, .plain "search" 1 210 240,
    .plain "score" 1 250 290]

theorem exclusive_of_collapse_deepening :
    ∃ tree full collapsed stats, build deepening = .ok tree ∧
      tree.mitigated ⟨100, 200, 300⟩ = .ok full ∧ full.Covers ∧ full.RecursesDirectly ∧
      full.collapseRecursion = .ok collapsed ∧ collapsed.statistics = .ok stats ∧
      stats.map (·.name) ~ (full.preorder.map (·.name)).eraseDups ∧
      ∀ stat ∈ stats, stat.exclusive = full.exclusiveTimeOf stat.name := by
  obtain ⟨tree, full, collapsed, stats, built, mitigated, covers, direct, done, collected⟩ :
      ∃ tree full collapsed stats, build deepening = .ok tree ∧
        tree.mitigated ⟨100, 200, 300⟩ = .ok full ∧ full.Covers ∧ full.RecursesDirectly ∧
        full.collapseRecursion = .ok collapsed ∧ collapsed.statistics = .ok stats :=
    ⟨_, _, _, _, rfl, rfl, by decide, by decide, rfl, rfl⟩
  exact ⟨tree, full, collapsed, stats, built, mitigated, covers, direct, done, collected,
    exclusive_of_collapse covers direct done collected⟩

end CallTree

end CallProfiler
