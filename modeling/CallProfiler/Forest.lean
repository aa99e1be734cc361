/-!
# Ordered forests

A forest is a sequence of labelled trees, each with a forest of children. One type serves for
trees and for lists of siblings, so a walk over it is one structural recursion.
-/

namespace CallProfiler

universe u v

/-- A sequence of trees: the first tree's label and children, then its later siblings. -/
inductive Forest (α : Type u) where
  | nil
  | node (label : α) (children siblings : Forest α)
deriving DecidableEq, Repr

namespace Forest

variable {α : Type u} {β : Type v}

/-- Put the trees of a second forest after those of the first. -/
def append : Forest α → Forest α → Forest α
  | .nil, later => later
  | .node label children siblings, later => .node label children (siblings.append later)

/-- The labels of the outermost trees, in order. -/
def tops : Forest α → List α
  | .nil => []
  | .node label _ siblings => label :: siblings.tops

def isEmpty : Forest α → Bool
  | .nil => true
  | .node .. => false

/-- All labels, each before those of its children. -/
def preorder : Forest α → List α
  | .nil => []
  | .node label children siblings => label :: (children.preorder ++ siblings.preorder)

/-- All labels, each after those of its children. -/
def postorder : Forest α → List α
  | .nil => []
  | .node label children siblings => children.postorder ++ label :: siblings.postorder

/-- Every node with its children, each before its children's own entries. -/
def entries : Forest α → List (α × Forest α)
  | .nil => []
  | .node label children siblings => (label, children) :: (children.entries ++ siblings.entries)

/-- Every label with the labels of its strict ancestors, nearest first, in preorder. -/
def ancestry (above : List α) : Forest α → List (α × List α)
  | .nil => []
  | .node label children siblings =>
    (label, above) :: (children.ancestry (label :: above) ++ siblings.ancestry above)

/-- Other labels in the same places. -/
def map (relabel : α → β) : Forest α → Forest β
  | .nil => .nil
  | .node label children siblings =>
    .node (relabel label) (children.map relabel) (siblings.map relabel)

/-- The number of nodes. -/
def size : Forest α → Nat
  | .nil => 0
  | .node _ children siblings => 1 + children.size + siblings.size

/-- Label every node with its place in preorder, counted from `first`. -/
def numbered (first : Nat) : Forest α → Forest (Nat × α)
  | .nil => .nil
  | .node label children siblings =>
    .node (first, label) (children.numbered (first + 1))
      (siblings.numbered (first + 1 + children.size))

/-- The places of the nodes in preorder, counted from `first`. -/
def places (first : Nat) (forest : Forest α) : Forest Nat := (forest.numbered first).map (·.1)

/-- Part a forest before its first tree whose label fails the test. -/
def span (test : α → Bool) : Forest α → Forest α × Forest α
  | .nil => (.nil, .nil)
  | .node label children siblings =>
    if test label then
      let (leading, rest) := siblings.span test
      (.node label children leading, rest)
    else (.nil, .node label children siblings)

/-- The first outermost tree whose label passes the test. -/
def find? (test : α → Bool) : Forest α → Option (α × Forest α)
  | .nil => none
  | .node label children siblings =>
    if test label then some (label, children) else siblings.find? test

/-- Put another tree in the place of the first outermost one whose label passes the test. -/
def replace (test : α → Bool) (other : α) (grown : Forest α) : Forest α → Forest α
  | .nil => .nil
  | .node label children siblings =>
    if test label then .node other grown siblings
    else .node label children (replace test other grown siblings)

@[simp] theorem append_nil (forest : Forest α) : forest.append .nil = forest := by
  induction forest with
  | nil => rfl
  | node label children siblings _ inductionHypothesis => simp [append, inductionHypothesis]

theorem append_assoc (first second third : Forest α) :
    (first.append second).append third = first.append (second.append third) := by
  induction first with
  | nil => rfl
  | node label children siblings _ inductionHypothesis => simp [append, inductionHypothesis]

@[simp] theorem tops_append (first second : Forest α) :
    (first.append second).tops = first.tops ++ second.tops := by
  induction first with
  | nil => rfl
  | node label children siblings _ inductionHypothesis =>
      simp [append, tops, inductionHypothesis]

@[simp] theorem preorder_append (first second : Forest α) :
    (first.append second).preorder = first.preorder ++ second.preorder := by
  induction first with
  | nil => rfl
  | node label children siblings _ inductionHypothesis =>
      simp [append, preorder, inductionHypothesis]

@[simp] theorem places_nil (first : Nat) : (nil : Forest α).places first = .nil := rfl

@[simp] theorem places_node (first : Nat) (label : α) (children siblings : Forest α) :
    (Forest.node label children siblings).places first =
      .node first (children.places (first + 1)) (siblings.places (first + 1 + children.size)) :=
  rfl

@[simp] theorem tops_map (relabel : α → β) (forest : Forest α) :
    (forest.map relabel).tops = forest.tops.map relabel := by
  induction forest with
  | nil => rfl
  | node label children siblings _ inductionHypothesis => simp [map, tops, inductionHypothesis]

theorem preorder_map (relabel : α → β) (forest : Forest α) :
    (forest.map relabel).preorder = forest.preorder.map relabel := by
  induction forest with
  | nil => rfl
  | node label children siblings childrenHypothesis siblingsHypothesis =>
      simp only [map, preorder, childrenHypothesis, siblingsHypothesis, List.map_cons,
        List.map_append]

theorem entries_map (relabel : α → β) (forest : Forest α) :
    (forest.map relabel).entries =
      forest.entries.map fun entry => (relabel entry.1, entry.2.map relabel) := by
  induction forest with
  | nil => rfl
  | node label children siblings childrenHypothesis siblingsHypothesis =>
      simp only [map, entries, childrenHypothesis, siblingsHypothesis, List.map_cons,
        List.map_append]

theorem length_preorder (forest : Forest α) : forest.preorder.length = forest.size := by
  induction forest with
  | nil => rfl
  | node label children siblings childrenHypothesis siblingsHypothesis =>
      simp [preorder, size, childrenHypothesis, siblingsHypothesis]
      omega

theorem map_fst_entries (forest : Forest α) :
    forest.entries.map (·.1) = forest.preorder := by
  induction forest with
  | nil => rfl
  | node label children siblings childrenHypothesis siblingsHypothesis =>
      simp [entries, preorder, childrenHypothesis, siblingsHypothesis]

theorem map_fst_ancestry (forest : Forest α) (above : List α) :
    (forest.ancestry above).map (·.1) = forest.preorder := by
  induction forest generalizing above with
  | nil => rfl
  | node label children siblings childrenHypothesis siblingsHypothesis =>
      simp [ancestry, preorder, childrenHypothesis, siblingsHypothesis]

/-- Both walks meet every node once. -/
theorem postorder_perm_preorder (forest : Forest α) :
    forest.postorder.Perm forest.preorder := by
  induction forest with
  | nil => exact .nil
  | node label children siblings childrenHypothesis siblingsHypothesis =>
      refine List.perm_middle.trans (List.Perm.cons label ?_)
      exact childrenHypothesis.append siblingsHypothesis

end Forest

end CallProfiler
