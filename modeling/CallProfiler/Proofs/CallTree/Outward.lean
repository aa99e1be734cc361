import CallProfiler.Proofs.CallTree.Collapsing
import CallProfiler.Proofs.CallTree.Settling

/-!
# Handing recursive calls outwards at once

`Forest.foldRecursion` lets recursive nodes wait until the nodes around them have been come to.
They can also be handed outwards at once, past the nodes between and into their namesakes, if all
callers around are at hand. `foldOutwards_eq_ok_iff` says that this comes to the same.
-/

namespace CallProfiler

/-- A node around the place that is folded, and the trees that it has taken over so far. -/
structure Caller where
  node : Node
  taken : Forest Node

/-- Hand a node outwards, past the callers between and into the nearest namesake. -/
def Caller.handOut : List Caller → Folded → Except Fault (List Caller)
  | [], _ => .ok []
  | caller :: outer, leaving =>
    if leaving.name == caller.node.name then do
      let node ← caller.node.takeIn leaving
      return ⟨node, caller.taken.append leaving.children⟩ :: outer
    else do
      let outer ← handOut outer leaving
      return { caller with node := caller.node.letPass [leaving] } :: outer

/-- Take the recursive nodes out of a forest, each as it is come to. The result holds what remains
and what has become of the callers. -/
def Forest.foldOutwards (callers : List Caller) :
    Forest Node → Except Fault (Forest Node × List Caller)
  | .nil => .ok (.nil, callers)
  | .node label children siblings => do
    let (inner, around) ← foldOutwards (⟨label, .nil⟩ :: callers) children
    match around with
    | [] => .ok (.nil, [])
    | own :: outer =>
      let children := inner.append own.taken
      if outer.any fun caller => caller.node.name == own.node.name then do
        let inside ← children.realtime
        let outer ← Caller.handOut outer (own.node.leaving inside children)
        foldOutwards outer siblings
      else do
        let (rest, outer) ← foldOutwards outer siblings
        return (.node own.node children rest, outer)

namespace Node

variable {node : Node} {leaving : Folded} {passing later : List Folded}

theorem letPass_nil (node : Node) : node.letPass [] = node := rfl

theorem letPass_letPass :
    (node.letPass [leaving]).letPass passing = node.letPass (leaving :: passing) := by
  simp only [letPass, List.map_cons, Checked.total_eq_sum, List.sum_cons, List.map_nil,
    List.sum_nil, Nat.add_zero, Nat.sub_sub]

/-- Calls are counted and times taken off apart from each other. -/
theorem takeIn_letPass (node : Node) (leaving : Folded) (passing : List Folded) :
    (node.letPass passing).takeIn leaving =
      node.takeIn leaving >>= fun next => pure (next.letPass passing) := by
  simp only [takeIn, letPass, bind_assoc, pure_bind]

end Node

namespace Caller

variable {caller : Caller} {leaving : Folded} {folded : List Folded}
  {callers outer result : List Caller}

/-- Nodes that are handed outwards one after the other: those of a caller's name come to it, the
others pass it, and it makes no difference in which order. -/
theorem handOut_all_iff {node : Node} {taken : Forest Node} :
    folded.foldlM handOut (⟨node, taken⟩ :: outer) =
        .ok result ↔
      ∃ grown rest,
        (folded.filter (·.name == node.name)).foldlM Node.takeIn
          (node.letPass (folded.filter (·.name != node.name))) = .ok grown ∧
        (folded.filter (·.name != node.name)).foldlM
          handOut outer = .ok rest ∧
        result = ⟨grown, taken.adopt (folded.filter (·.name == node.name))⟩ :: rest := by
  induction folded generalizing node taken outer result with
  | nil =>
      simp [Node.letPass_nil, pure, Except.pure, eq_comm]
  | cons leaving folded inductionHypothesis =>
      rw [List.foldlM_cons, handOut]
      by_cases namesake : (leaving.name == node.name) = true
      · have comes : (leaving.name != node.name) = false := by simpa using namesake
        simp only [namesake, comes, if_true, Bool.false_eq_true, if_false, List.filter_cons,
          List.foldlM_cons, Node.takeIn_letPass, bind_eq_ok_iff, Forest.adopt_cons]
        constructor
        · rintro ⟨_, ⟨next, done, ⟨⟩⟩, later⟩
          obtain ⟨grown, rest, inside, outside, rfl⟩ := inductionHypothesis.1 later
          rw [Node.takeIn_keeps_name done] at inside outside ⊢
          exact ⟨grown, rest, ⟨_, ⟨next, done, rfl⟩, inside⟩, outside, rfl⟩
        · rintro ⟨grown, rest, ⟨_, ⟨next, done, ⟨⟩⟩, inside⟩, outside, rfl⟩
          rw [← Node.takeIn_keeps_name done] at inside outside ⊢
          exact ⟨_, ⟨next, done, rfl⟩, inductionHypothesis.2 ⟨grown, rest, inside, outside, rfl⟩⟩
      · have passes : (leaving.name != node.name) = true := by simpa using namesake
        simp only [namesake, passes, Bool.false_eq_true, if_true, if_false, List.filter_cons,
          List.foldlM_cons, bind_eq_ok_iff]
        constructor
        · rintro ⟨_, ⟨around, done, ⟨⟩⟩, later⟩
          obtain ⟨grown, rest, inside, outside, rfl⟩ := inductionHypothesis.1 later
          exact ⟨grown, rest, Node.letPass_letPass ▸ inside, ⟨around, done, outside⟩, rfl⟩
        · rintro ⟨grown, rest, inside, ⟨around, done, outside⟩, rfl⟩
          exact ⟨_, ⟨around, done, rfl⟩, inductionHypothesis.2
            ⟨grown, rest, Node.letPass_letPass.symm ▸ inside, outside, rfl⟩⟩

theorem names_of_handOut {around : List Caller} (done : handOut callers leaving = .ok around) :
    around.map (·.node.name) = callers.map (·.node.name) := by
  induction callers generalizing around with
  | nil =>
      cases done
      rfl
  | cons caller outer inductionHypothesis =>
      rw [handOut] at done
      split at done
      · obtain ⟨node, grown, same⟩ := bind_eq_ok_iff.1 done
        cases same
        rw [List.map_cons, List.map_cons, Node.takeIn_keeps_name grown]
      · obtain ⟨rest, handed, same⟩ := bind_eq_ok_iff.1 done
        cases same
        rw [List.map_cons, List.map_cons, inductionHypothesis handed]
        rfl

/-- A node that is handed outwards passes the callers up to its nearest namesake. -/
theorem handOut_of_parted {passed : List Caller} {target : Caller}
    (others : ∀ caller ∈ passed, leaving.name ≠ caller.node.name)
    (namesake : leaving.name = target.node.name) :
    handOut (passed ++ target :: outer) leaving =
      target.node.takeIn leaving >>= fun grown =>
        pure (passed.map (fun caller => { caller with node := caller.node.letPass [leaving] }) ++
          ⟨grown, target.taken.append leaving.children⟩ :: outer) := by
  induction passed with
  | nil =>
      rw [List.nil_append, handOut, if_pos (beq_iff_eq.2 namesake)]
      rfl
  | cons caller passed inductionHypothesis =>
      rw [List.forall_mem_cons] at others
      rw [List.cons_append, handOut, if_neg (mt beq_iff_eq.1 others.1),
        inductionHypothesis others.2, bind_assoc]
      rfl

theorem overflows_handOut (callers : List Caller) (leaving : Folded) :
    Checked.Overflows (handOut callers leaving) := by
  induction callers with
  | nil => exact .ok _
  | cons caller outer inductionHypothesis =>
      rw [handOut]
      split
      · exact (CallTree.overflows_takeIn _ _).bind fun node => .ok _
      · exact inductionHypothesis.bind fun rest => .ok _

end Caller

namespace Forest

theorem overflows_foldOutwards (callers : List Caller) (forest : Forest Node) :
    Checked.Overflows (foldOutwards callers forest) := by
  induction forest generalizing callers with
  | nil => exact .ok _
  | node label children siblings childrenHypothesis siblingsHypothesis =>
      rw [foldOutwards]
      refine (childrenHypothesis _).bind fun ⟨inner, around⟩ => ?_
      cases around with
      | nil => exact .ok _
      | cons own outer =>
          dsimp only
          split
          · refine (Checked.Overflows.sum _ _).bind fun inside => ?_
            exact (Caller.overflows_handOut _ _).bind fun outer => siblingsHypothesis outer
          · exact (siblingsHypothesis outer).bind fun rest => .ok _

theorem adopt_append (first second : Forest Node) (own : List Folded) :
    (first.append second).adopt own = first.append (second.adopt own) := by
  induction own generalizing second with
  | nil => rfl
  | cons namesake rest inductionHypothesis =>
      rw [adopt_cons, adopt_cons, append_assoc, inductionHypothesis]

/-- What folding does at a node once it has gone through its children. -/
theorem foldRecursion_node_eq {above : List String} {label node : Node}
    {children siblings inner : Forest Node} {below : List Folded}
    (folding : foldRecursion (label.name :: above) children = .ok (inner, below))
    (grown : (below.filter (·.name == label.name)).foldlM Node.takeIn
      (label.letPass (below.filter (·.name != label.name))) = .ok node) :
    foldRecursion above (.node label children siblings) =
      let children := inner.adopt (below.filter (·.name == label.name))
      if above.contains label.name then do
        let inside ← children.realtime
        let (rest, later) ← foldRecursion above siblings
        return (rest, below.filter (·.name != label.name) ++ node.leaving inside children :: later)
      else do
        let (rest, later) ← foldRecursion above siblings
        return (.node node children rest, below.filter (·.name != label.name) ++ later) := by
  rw [foldRecursion, folding]
  simp only [ok_bind, List.partition_eq_filter_filter]
  rw [show (List.filter (not ∘ fun x => x.name == label.name) below) =
    below.filter (·.name != label.name) from rfl, grown]
  rfl

theorem names_of_handOut_all {folded : List Folded} {callers around : List Caller}
    (done : folded.foldlM Caller.handOut callers =
      .ok around) : around.map (·.node.name) = callers.map (·.node.name) :=
  have keeps : Keeps Caller.handOut fun outer => outer.map (·.node.name) :=
    fun _ _ _ handed => Caller.names_of_handOut handed
  keeps.foldlM done

/-- A name is among the callers as they are just where it is among them as they will be. -/
theorem any_named_of_handOut_all {folded : List Folded} {callers around : List Caller}
    (done : folded.foldlM Caller.handOut callers = .ok around) (name : String) :
    (around.any fun caller => caller.node.name == name) =
      (callers.map (·.node.name)).contains name := by
  rw [← names_of_handOut_all done, List.contains_eq_any_beq, List.any_map]
  simp only [Function.comp_def, Bool.beq_comm]

theorem append_adopt_nil (inner : Forest Node) (own : List Folded) :
    inner.append (nil.adopt own) = inner.adopt own := by
  rw [← adopt_append, append_nil]

variable {callers around : List Caller} {forest remaining : Forest Node} {folded : List Folded}

/-- What is handed outwards at once could have waited. -/
theorem exists_folded_of_foldOutwards
    (done : foldOutwards callers forest = .ok (remaining, around)) :
    ∃ folded, foldRecursion (callers.map (·.node.name)) forest = .ok (remaining, folded) ∧
      folded.foldlM Caller.handOut callers = .ok around := by
  induction forest generalizing callers remaining around with
  | nil =>
      cases done
      exact ⟨[], rfl, rfl⟩
  | node label children siblings childrenHypothesis siblingsHypothesis =>
      rw [foldOutwards] at done
      obtain ⟨⟨inner, _⟩, within, done⟩ := bind_eq_ok_iff.1 done
      obtain ⟨below, folding, handing⟩ := childrenHypothesis within
      obtain ⟨node, outer, grown, passed, rfl⟩ := Caller.handOut_all_iff.1 handing
      simp only [any_named_of_handOut_all passed, Node.name_of_foldlM_takeIn grown,
        append_adopt_nil] at done
      rw [foldRecursion_node_eq folding grown]
      dsimp only
      split at done
      · rename_i recursive
        obtain ⟨inside, sum, done⟩ := bind_eq_ok_iff.1 done
        obtain ⟨next, handed, done⟩ := bind_eq_ok_iff.1 done
        obtain ⟨later, beside, handing⟩ := siblingsHypothesis done
        rw [Caller.names_of_handOut handed, names_of_handOut_all passed] at beside
        refine ⟨below.filter (·.name != label.name) ++ node.leaving inside
          (inner.adopt (below.filter (·.name == label.name))) :: later, ?_, ?_⟩
        · rw [if_pos recursive, sum, ok_bind, beside]
          rfl
        · rw [List.foldlM_append, passed, ok_bind, List.foldlM_cons, handed]
          exact handing
      · rename_i stays
        obtain ⟨⟨rest, next⟩, along, same⟩ := bind_eq_ok_iff.1 done
        cases same
        obtain ⟨later, beside, handing⟩ := siblingsHypothesis along
        rw [names_of_handOut_all passed] at beside
        refine ⟨below.filter (·.name != label.name) ++ later, ?_, ?_⟩
        · rw [if_neg stays, beside]
          rfl
        · rw [List.foldlM_append, passed]
          exact handing

/-- What waits could have been handed outwards at once. -/
theorem foldOutwards_of_foldRecursion
    (done : foldRecursion (callers.map (·.node.name)) forest = .ok (remaining, folded))
    (handing : folded.foldlM Caller.handOut callers = .ok around) :
    foldOutwards callers forest = .ok (remaining, around) := by
  induction forest generalizing callers remaining folded around with
  | nil =>
      cases done
      cases handing
      rfl
  | node label children siblings childrenHypothesis siblingsHypothesis =>
      obtain ⟨⟨inner, below⟩, folding, further⟩ := bind_eq_ok_iff.1 done
      simp only [List.partition_eq_filter_filter] at further
      obtain ⟨node, grown, _⟩ := bind_eq_ok_iff.1 further
      rw [foldRecursion_node_eq folding grown] at done
      dsimp only at done
      have within {outer : List Caller}
          (passed : (below.filter (·.name != label.name)).foldlM Caller.handOut callers =
            .ok outer) :
          foldOutwards (⟨label, .nil⟩ :: callers) children = .ok (inner,
            ⟨node, nil.adopt (below.filter (·.name == label.name))⟩ :: outer) :=
        childrenHypothesis folding (Caller.handOut_all_iff.2 ⟨node, outer, grown, passed, rfl⟩)
      rw [foldOutwards]
      split at done
      · rename_i recursive
        obtain ⟨inside, sum, done⟩ := bind_eq_ok_iff.1 done
        obtain ⟨⟨rest, later⟩, beside, same⟩ := bind_eq_ok_iff.1 done
        cases same
        rw [List.foldlM_append] at handing
        obtain ⟨outer, passed, handing⟩ := bind_eq_ok_iff.1 handing
        rw [List.foldlM_cons] at handing
        obtain ⟨next, handed, handing⟩ := bind_eq_ok_iff.1 handing
        rw [within passed, ok_bind]
        simp only [any_named_of_handOut_all passed, Node.name_of_foldlM_takeIn grown,
          append_adopt_nil, recursive, if_true, sum, ok_bind, handed]
        refine siblingsHypothesis ?_ handing
        rw [Caller.names_of_handOut handed, names_of_handOut_all passed, beside]
      · rename_i stays
        obtain ⟨⟨rest, later⟩, beside, same⟩ := bind_eq_ok_iff.1 done
        cases same
        rw [List.foldlM_append] at handing
        obtain ⟨outer, passed, handing⟩ := bind_eq_ok_iff.1 handing
        have after : foldOutwards outer siblings = .ok (rest, around) := by
          refine siblingsHypothesis ?_ handing
          rw [names_of_handOut_all passed, beside]
        rw [within passed, ok_bind]
        simp only [any_named_of_handOut_all passed, Node.name_of_foldlM_takeIn grown,
          append_adopt_nil, stays, after]
        rfl

/-- Handing nodes outwards at once comes to what letting them wait does. -/
theorem foldOutwards_eq_ok_iff :
    foldOutwards callers forest = .ok (remaining, around) ↔
      ∃ folded, foldRecursion (callers.map (·.node.name)) forest = .ok (remaining, folded) ∧
        folded.foldlM Caller.handOut callers = .ok around := by
  refine ⟨exists_folded_of_foldOutwards, ?_⟩
  rintro ⟨folded, done, handing⟩
  exact foldOutwards_of_foldRecursion done handing

/-- With nobody around nothing is handed outwards. -/
theorem foldOutwards_nil (forest : Forest Node) :
    forest.foldOutwards [] = foldRecursion [] forest >>= fun result => pure (result.1, []) := by
  cases folding : foldRecursion [] forest with
  | ok result =>
      have handing (folded : List Folded) : folded.foldlM Caller.handOut [] = .ok [] := by
        induction folded with
        | nil => rfl
        | cons leaving folded inductionHypothesis => exact inductionHypothesis
      exact foldOutwards_eq_ok_iff.2 ⟨result.2, folding, handing result.2⟩
  | error reached =>
      cases outwards : forest.foldOutwards [] with
      | ok result =>
          obtain ⟨folded, done, _⟩ := foldOutwards_eq_ok_iff.1 outwards
          cases folding.symm.trans done
      | error other =>
          cases overflows_foldOutwards _ _ _ outwards
          cases CallTree.overflows_foldRecursion _ _ _ folding
          rfl

end Forest

end CallProfiler
