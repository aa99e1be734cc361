import CallProfiler.CallTree.Merge
import CallProfiler.Proofs.CallTree.Places
import CallProfiler.Proofs.FirstOccurrences
import CallProfiler.Proofs.Outcome

/-!
# What merging does below every path

Merging is seen from the nodes below one path. `Grouped` says what becomes of them: one node
for each name, in the order in which the names first occur, and each is the first node of its
name with the others combined into it. `grouped_mergeInto` shows this for all paths at once;
sums, levels and flags of a merged forest are read off it.
-/

namespace CallProfiler

variable {ε : Type} {combine : Node → Node → Except ε Node}

/-- What becomes of the nodes of one path: nothing of none, and of some the first of them with
the others combined into it. -/
def Combined (combine : Node → Node → Except ε Node) : List Node → List Node → Prop
  | [], merged => merged = []
  | first :: rest, merged => ∃ node, rest.foldlM combine first = .ok node ∧ merged = [node]

/-- Nodes brought together by their names. -/
structure Grouped (combine : Node → Node → Except ε Node) (scattered merged : List Node) :
    Prop where
  names : merged.map (·.name) = (scattered.map (·.name)).eraseDups
  combined : ∀ name, Combined combine (scattered.filter (Forest.named name))
    (merged.filter (Forest.named name))

namespace Node

/-- Absorbing a sibling adds up its totals, if every sum fits, and leaves the rest alone. -/
theorem absorb_eq_ok {survivor absorbed node : Node} (done : survivor.absorb absorbed = .ok node) :
    node = { survivor with
      realtime := survivor.realtime + absorbed.realtime
      cpu := survivor.cpu + absorbed.cpu
      count := survivor.count + absorbed.count
      removedCalls := survivor.removedCalls + absorbed.removedCalls
      recursions := survivor.recursions + absorbed.recursions
      mitigated := survivor.mitigated && absorbed.mitigated } := by
  obtain ⟨realtime, sumRealtime, done⟩ := bind_eq_ok_iff.1 done
  obtain ⟨cpu, sumCpu, done⟩ := bind_eq_ok_iff.1 done
  obtain ⟨count, sumCount, done⟩ := bind_eq_ok_iff.1 done
  obtain ⟨removedCalls, sumRemoved, done⟩ := bind_eq_ok_iff.1 done
  obtain ⟨recursions, sumRecursions, done⟩ := bind_eq_ok_iff.1 done
  cases done
  rw [(Checked.add_eq_ok_iff.1 sumRealtime).2, (Checked.add_eq_ok_iff.1 sumCpu).2,
    (Checked.add_eq_ok_iff.1 sumCount).2, (Checked.add_eq_ok_iff.1 sumRemoved).2,
    (Checked.add_eq_ok_iff.1 sumRecursions).2]

/-- Where the strict merge absorbs at all, it absorbs as the lenient one does. -/
theorem absorb_of_absorbSingle {survivor absorbed node : Node}
    (done : survivor.absorbSingle absorbed = .ok node) : survivor.absorb absorbed = .ok node := by
  rw [absorbSingle] at done
  split at done
  · exact Stop.ofFault_eq_ok_iff.1 done
  · cases done

end Node

theorem Keeps.absorbSingle {β : Type} {observe : Node → β} (keeps : Keeps Node.absorb observe) :
    Keeps Node.absorbSingle observe := by
  intro survivor absorbed node done
  exact keeps (Node.absorb_of_absorbSingle done)

theorem Adds.absorbSingle {quantity amount : Node → Nat}
    (adds : Adds Node.absorb quantity amount) : Adds Node.absorbSingle quantity amount := by
  intro survivor absorbed node done
  exact adds (Node.absorb_of_absorbSingle done)

namespace Node

theorem keeps_name : Keeps absorb Node.name := by
  intro survivor absorbed node done
  rw [absorb_eq_ok done]

theorem keeps_level : Keeps absorb Node.level := by
  intro survivor absorbed node done
  rw [absorb_eq_ok done]

theorem keeps_frame : Keeps absorb Node.frame := by
  intro survivor absorbed node done
  rw [absorb_eq_ok done]

theorem keeps_processClock : Keeps absorb Node.processClock := by
  intro survivor absorbed node done
  rw [absorb_eq_ok done]

theorem adds_realtime : Adds absorb Node.realtime Node.realtime := by
  intro survivor absorbed node done
  rw [absorb_eq_ok done]

theorem adds_cpu : Adds absorb Node.cpu Node.cpu := by
  intro survivor absorbed node done
  rw [absorb_eq_ok done]

theorem adds_count : Adds absorb Node.count Node.count := by
  intro survivor absorbed node done
  rw [absorb_eq_ok done]

theorem adds_removedCalls : Adds absorb Node.removedCalls Node.removedCalls := by
  intro survivor absorbed node done
  rw [absorb_eq_ok done]

theorem adds_recursions : Adds absorb Node.recursions Node.recursions := by
  intro survivor absorbed node done
  rw [absorb_eq_ok done]

end Node

namespace Combined

/-- The first of the nodes that became one. -/
theorem exists_first {scattered : List Node} {node : Node}
    (combined : Combined combine scattered [node]) :
    ∃ first rest, scattered = first :: rest ∧ rest.foldlM combine first = .ok node := by
  cases scattered with
  | nil => cases combined
  | cons first rest =>
      obtain ⟨only, done, same⟩ := combined
      cases same
      exact ⟨first, rest, rfl, done⟩

theorem sum_eq {scattered merged : List Node} (combined : Combined combine scattered merged)
    {quantity : Node → Nat} (adds : Adds combine quantity quantity) :
    (merged.map quantity).sum = (scattered.map quantity).sum := by
  cases scattered with
  | nil =>
      cases combined
      rfl
  | cons first rest =>
      obtain ⟨node, done, rfl⟩ := combined
      simpa using adds.foldlM done

/-- Combining may be interrupted after some of the nodes. -/
theorem append {earlier later middle merged : List Node}
    (first : Combined combine earlier middle) (rest : Combined combine (middle ++ later) merged) :
    Combined combine (earlier ++ later) merged := by
  cases earlier with
  | nil =>
      cases first
      exact rest
  | cons head tail =>
      obtain ⟨node, done, rfl⟩ := first
      obtain ⟨last, further, rfl⟩ := rest
      have whole : (tail ++ later).foldlM combine head = .ok last := by
        rw [List.foldlM_append, done]
        exact further
      exact ⟨last, whole, rfl⟩

end Combined

namespace Grouped

theorem nodup_names {scattered merged : List Node} (grouped : Grouped combine scattered merged) :
    (merged.map (·.name)).Nodup := by
  rw [grouped.names]
  exact FirstOccurrences.nodup_eraseDups _

/-- At most one of the nodes with different names has a given one. -/
theorem few_named {nodes : List Node} (distinct : (nodes.map (·.name)).Nodup) (name : String) :
    (nodes.filter (Forest.named name)).length ≤ 1 := by
  have once := List.nodup_iff_count_le_one.1 distinct name
  rwa [List.count_eq_countP, List.countP_map, List.countP_eq_length_filter] at once

/-- The first of all nodes stays the first. -/
theorem head?_map_eq {scattered merged : List Node} (grouped : Grouped combine scattered merged)
    {β : Type} {observe : Node → β} (keeps : Keeps combine observe) :
    merged.head?.map observe = scattered.head?.map observe := by
  have names := grouped.names
  cases scattered with
  | nil => rw [List.map_eq_nil_iff.1 names]
  | cons first rest =>
      rw [List.map_cons, List.eraseDups_cons] at names
      obtain ⟨node, others, rfl, sameName, _⟩ := List.map_eq_cons_iff.1 names
      have ownName : Forest.named first.name first = true := beq_self_eq_true first.name
      have namesake : Forest.named first.name node = true := beq_iff_eq.2 sameName
      have combined := grouped.combined first.name
      rw [List.filter_cons_of_pos ownName, List.filter_cons_of_pos namesake] at combined
      obtain ⟨last, done, same⟩ := combined
      obtain ⟨rfl, _⟩ := List.cons.inj same
      exact congrArg some (keeps.foldlM done)

/-- Every node became part of one that was made from its first namesake. -/
theorem exists_kept {scattered merged : List Node} (grouped : Grouped combine scattered merged)
    {β : Type} {observe : Node → β} (keeps : Keeps combine observe) {label : Node}
    (member : label ∈ scattered) :
    ∃ node ∈ merged, ∃ first ∈ scattered, first.name = label.name ∧
      observe node = observe first := by
  have combined := grouped.combined label.name
  have isNamesake : label ∈ scattered.filter (Forest.named label.name) :=
    List.mem_filter.2 ⟨member, beq_self_eq_true label.name⟩
  cases namesakes : scattered.filter (Forest.named label.name) with
  | nil =>
      rw [namesakes] at isNamesake
      cases isNamesake
  | cons first rest =>
      rw [namesakes] at combined
      obtain ⟨node, done, only⟩ := combined
      have inMerged : node ∈ merged.filter (Forest.named label.name) := by
        rw [only]
        exact List.mem_cons_self
      have isFirst : first ∈ scattered.filter (Forest.named label.name) := by
        rw [namesakes]
        exact List.mem_cons_self
      obtain ⟨inScattered, sameName⟩ := List.mem_filter.1 isFirst
      exact ⟨node, List.mem_of_mem_filter inMerged, first, inScattered, beq_iff_eq.1 sameName,
        keeps.foldlM done⟩

/-- Nodes with different names stay as they are. -/
theorem of_nodup {nodes : List Node} (distinct : (nodes.map (·.name)).Nodup) :
    Grouped combine nodes nodes where
  names := (FirstOccurrences.eraseDups_of_nodup distinct).symm
  combined name := by
    match nodes.filter (Forest.named name), few_named distinct name with
    | [], _ => exact rfl
    | [node], _ => exact ⟨node, rfl, rfl⟩

/-- Grouping may be interrupted after some of the nodes. -/
theorem append {earlier later middle merged : List Node} (first : Grouped combine earlier middle)
    (rest : Grouped combine (middle ++ later) merged) :
    Grouped combine (earlier ++ later) merged where
  names := by
    rw [rest.names, List.map_append, first.names, FirstOccurrences.eraseDups_eraseDups_append,
      List.map_append]
  combined name := by
    have following := rest.combined name
    rw [List.filter_append] at following ⊢
    exact (first.combined name).append following

/-- A node may be combined into an earlier namesake before the rest is grouped. -/
theorem absorb {before after rest merged : List Node} {survivor absorbed node : Node}
    (namesakes : absorbed.name = survivor.name) (keepsName : node.name = survivor.name)
    (done : combine survivor absorbed = .ok node)
    (beforeApart : ∀ other ∈ before, other.name ≠ survivor.name)
    (afterApart : ∀ other ∈ after, other.name ≠ survivor.name)
    (grouped : Grouped combine (before ++ node :: after ++ rest) merged) :
    Grouped combine (before ++ survivor :: after ++ absorbed :: rest) merged where
  names := by
    have known : absorbed.name ∈ (before ++ survivor :: after).map (·.name) := by
      simp [namesakes]
    have dropped := @FirstOccurrences.eraseDups_append_cons_of_mem _ _ _ _
      (rest.map (·.name)) _ known
    rw [grouped.names]
    simpa [keepsName] using dropped.symm
  combined name := by
    have combined := grouped.combined name
    by_cases same : survivor.name = name
    · subst same
      have noneBefore : before.filter (Forest.named survivor.name) = [] :=
        List.filter_eq_nil_iff.2 fun other member => by
          simpa [Forest.named] using beforeApart other member
      have noneAfter : after.filter (Forest.named survivor.name) = [] :=
        List.filter_eq_nil_iff.2 fun other member => by
          simpa [Forest.named] using afterApart other member
      simp only [List.filter_append, List.filter_cons, noneBefore, noneAfter, Forest.named,
        keepsName, namesakes, beq_self_eq_true, if_true, List.nil_append,
        List.singleton_append] at combined ⊢
      obtain ⟨last, further, only⟩ := combined
      have whole : (absorbed :: rest.filter (Forest.named survivor.name)).foldlM combine survivor =
          .ok last := by
        rw [List.foldlM_cons, done]
        exact further
      exact ⟨last, whole, only⟩
    · have apart : (survivor.name == name) = false := by simpa using same
      simpa [List.filter_append, List.filter_cons, Forest.named, keepsName, namesakes, apart]
        using combined

end Grouped

namespace Forest

/-! ## Finding and replacing -/

/-- A forest parts at the first tree that passes a test, and replacing happens there. -/
theorem find?_eq_some {α : Type} {test : α → Bool} {forest : Forest α} {label : α}
    {children : Forest α} (found : forest.find? test = some (label, children)) :
    ∃ before after : Forest α, forest = before.append (.node label children after) ∧ test label = true ∧
      (∀ other ∈ before.tops, test other = false) ∧
      ∀ other grown, replace test other grown forest = before.append (.node other grown after) := by
  induction forest with
  | nil => cases found
  | node head inner siblings _ inductionHypothesis =>
      by_cases passes : test head = true
      · simp only [find?, passes, if_true, Option.some.injEq, Prod.mk.injEq] at found
        obtain ⟨rfl, rfl⟩ := found
        refine ⟨.nil, siblings, rfl, passes, by simp [tops], ?_⟩
        intro other grown
        simp [replace, passes, append]
      · simp only [find?, passes, Bool.false_eq_true, if_false] at found
        obtain ⟨before, after, rfl, holds, fails, replaced⟩ := inductionHypothesis found
        refine ⟨.node head inner before, after, rfl, holds, ?_, ?_⟩
        · intro other member
          rcases List.mem_cons.1 member with rfl | inBefore
          · simpa using passes
          · exact fails other inBefore
        · intro other grown
          simp [replace, passes, append, replaced]

theorem find?_eq_none {α : Type} {test : α → Bool} {forest : Forest α}
    (missing : forest.find? test = none) : ∀ other ∈ forest.tops, test other = false := by
  induction forest with
  | nil => simp [tops]
  | node head inner siblings _ inductionHypothesis =>
      by_cases passes : test head = true
      · simp [find?, passes] at missing
      · simp only [find?, passes, Bool.false_eq_true, if_false] at missing
        intro other member
        rcases List.mem_cons.1 member with rfl | inSiblings
        · simpa using passes
        · exact inductionHypothesis missing other inSiblings

theorem find?_eq_none_of {α : Type} {test : α → Bool} {forest : Forest α}
    (fails : ∀ other ∈ forest.tops, test other = false) :
    forest.find? test = none := by
  induction forest with
  | nil => rfl
  | node label children siblings _ inductionHypothesis =>
      have own := fails label List.mem_cons_self
      rw [find?, own]
      exact inductionHypothesis fun other member => fails other (List.mem_cons_of_mem label member)

/-! ## Merging -/

/-- Trees merge one after the other. -/
theorem mergeInto_node_eq (merged : Forest Node) (label : Node)
    (children siblings : Forest Node) :
    mergeInto combine merged (.node label children siblings) =
      mergeInto combine merged (.node label children .nil) >>= fun next =>
        mergeInto combine next siblings := by
  rw [mergeInto, mergeInto]
  split
  · cases mergeInto combine .nil children <;> rfl
  · rename_i survivor kept _
    cases combine survivor label with
    | error reason => rfl
    | ok node => cases mergeInto combine kept children <;> rfl

/-- What a merge of one tree into a forest did, and what is left to do. -/
theorem mergeInto_node {merged : Forest Node} {label : Node}
    {children siblings result : Forest Node}
    (done : mergeInto combine merged (.node label children siblings) = .ok result) :
    (∃ inner, (∀ other ∈ merged.tops, other.name ≠ label.name) ∧
      mergeInto combine .nil children = .ok inner ∧
      mergeInto combine (merged.append (.node label inner .nil)) siblings = .ok result) ∨
    ∃ (before : Forest Node) (survivor : Node) (kept after : Forest Node) (node : Node)
        (inner : Forest Node),
      merged = before.append (.node survivor kept after) ∧ survivor.name = label.name ∧
      combine survivor label = .ok node ∧ mergeInto combine kept children = .ok inner ∧
      mergeInto combine (before.append (.node node inner after)) siblings = .ok result := by
  rw [mergeInto] at done
  cases found : merged.find? (named label.name) with
  | none =>
      rw [found] at done
      obtain ⟨inner, within, rest⟩ := bind_eq_ok_iff.1 done
      refine .inl ⟨inner, ?_, within, rest⟩
      intro other member
      simpa [named] using find?_eq_none found other member
  | some pair =>
      obtain ⟨survivor, kept⟩ := pair
      rw [found] at done
      obtain ⟨node, combined, done⟩ := bind_eq_ok_iff.1 done
      obtain ⟨inner, within, rest⟩ := bind_eq_ok_iff.1 done
      obtain ⟨before, after, parted, holds, _, replaced⟩ := find?_eq_some found
      rw [replaced] at rest
      exact .inr ⟨before, survivor, kept, after, node, inner, parted,
        by simpa [named] using holds, combined, within, rest⟩

/-- Merging adds up a quantity of the nodes below every path. -/
theorem sum_under_mergeInto (keepsName : Keeps combine Node.name) {quantity : Node → Nat}
    (adds : Adds combine quantity quantity)
    {merged forest result : Forest Node} (done : mergeInto combine merged forest = .ok result)
    (path : CallPath) :
    ((result.under path).map quantity).sum =
      ((merged.under path).map quantity).sum + ((forest.under path).map quantity).sum := by
  induction forest generalizing merged result path with
  | nil =>
      cases done
      simp
  | node label children siblings childrenHypothesis siblingsHypothesis =>
      rcases mergeInto_node done with ⟨inner, _, within, rest⟩ |
        ⟨before, survivor, kept, after, node, inner, rfl, namesakes, combined, within, rest⟩
      · rw [siblingsHypothesis rest]
        cases path with
        | nil => simp [tops, Nat.add_assoc]
        | cons name path =>
            have children := childrenHypothesis within path
            by_cases same : label.name = name
            · simp [under_cons_node, same, children, Nat.add_assoc]
            · simp [under_cons_node, same]
      · rw [siblingsHypothesis rest]
        cases path with
        | nil =>
            simp only [under_empty, tops_append, tops, List.map_append, List.map_cons,
              List.sum_append, List.sum_cons, adds combined]
            omega
        | cons name path =>
            have children := childrenHypothesis within path
            by_cases same : survivor.name = name
            · simp only [under_append, under_cons_node, keepsName combined, ← namesakes, same,
                if_true, List.map_append, List.sum_append, children]
              omega
            · simp [under_cons_node, keepsName combined, ← namesakes, same]

/-- Siblings of different names that lie before or after a tree share no path with it. -/
theorem Distinct.apart {before after kept : Forest Node} {survivor : Node}
    (distinct : (before.append (.node survivor kept after)).Distinct) :
    (∀ other ∈ before.tops, other.name ≠ survivor.name) ∧
      ∀ other ∈ after.tops, other.name ≠ survivor.name := by
  have names := distinct []
  rw [under_empty, tops_append, tops, List.map_append, List.map_cons, List.nodup_append,
    List.nodup_cons] at names
  constructor
  · intro other member equal
    exact names.2.2 other.name (List.mem_map_of_mem member) survivor.name (by simp) equal
  · intro other member equal
    exact names.2.1.1 (List.mem_map.2 ⟨other, member, equal⟩)

/-- Below the name of one of the outermost trees there is only what is in that tree. -/
theorem under_of_apart {before after kept : Forest Node} {survivor : Node}
    (beforeApart : ∀ other ∈ before.tops, other.name ≠ survivor.name)
    (afterApart : ∀ other ∈ after.tops, other.name ≠ survivor.name) (path : CallPath) :
    (before.append (.node survivor kept after)).under (survivor.name :: path) =
      kept.under path := by
  simp [under_cons_node, under_cons_eq_nil beforeApart, under_cons_eq_nil afterApart]

/-- A forest without namesakes stays so when a tree of a new name joins it. -/
theorem Distinct.join {merged inner : Forest Node} {label : Node} (distinct : merged.Distinct)
    (fresh : ∀ other ∈ merged.tops, other.name ≠ label.name) (distinctInner : inner.Distinct) :
    (merged.append (.node label inner .nil)).Distinct := by
  intro path
  cases path with
  | nil =>
      have names := distinct []
      simp only [under_empty] at names
      simp only [under_empty, tops_append, tops, List.map_append, List.map_cons, List.map_nil]
      refine List.nodup_append.2 ⟨names, by simp, ?_⟩
      intro name member other only equal
      obtain ⟨node, inMerged, rfl⟩ := List.mem_map.1 member
      exact fresh node inMerged (equal.trans (List.mem_singleton.1 only))
  | cons name path =>
      by_cases same : label.name = name
      · subst same
        simpa [under_cons_node, under_cons_eq_nil fresh] using distinctInner path
      · simpa [under_cons_node, same] using distinct (name :: path)

/-- A tree of a forest without namesakes may give way to another one of its name. -/
theorem Distinct.exchange {before after kept inner : Forest Node} {survivor node : Node}
    (distinct : (before.append (.node survivor kept after)).Distinct)
    (sameName : node.name = survivor.name) (distinctInner : inner.Distinct) :
    (before.append (.node node inner after)).Distinct := by
  obtain ⟨beforeApart, afterApart⟩ := distinct.apart
  rw [← sameName] at beforeApart afterApart
  intro path
  cases path with
  | nil => simpa [tops, sameName] using distinct []
  | cons name path =>
      by_cases same : node.name = name
      · subst same
        rw [under_of_apart beforeApart afterApart]
        exact distinctInner path
      · have other : ¬ survivor.name = name := sameName ▸ same
        simpa [under_cons_node, same, other] using distinct (name :: path)

/-- Merging groups the nodes below every path by their names. -/
theorem grouped_mergeInto (keepsName : Keeps combine Node.name)
    {merged forest result : Forest Node} (distinct : merged.Distinct)
    (done : mergeInto combine merged forest = .ok result) (path : CallPath) :
    Grouped combine (merged.under path ++ forest.under path) (result.under path) := by
  -- The trees merged so far stay distinct; that is what the induction carries along.
  induction forest generalizing merged result path with
  | nil =>
      cases done
      simpa using Grouped.of_nodup (distinct path)
  | node label children siblings childrenHypothesis siblingsHypothesis =>
      rcases mergeInto_node done with ⟨inner, fresh, within, rest⟩ |
        ⟨before, survivor, kept, after, node, inner, rfl, namesakes, combined, within, rest⟩
      · have children := childrenHypothesis (fun path => by simp) within
        have distinctNext := distinct.join fresh fun path => (children path).nodup_names
        have following := siblingsHypothesis distinctNext rest path
        cases path with
        | nil => simpa [tops] using following
        | cons name path =>
            by_cases same : label.name = name
            · subst same
              have first := children path
              simp only [under_append, under_cons_node, under_cons_eq_nil fresh, under_nil, List.nil_append,
                if_true, List.append_nil] at first following ⊢
              exact first.append following
            · simpa [under_cons_node, same] using following
      · obtain ⟨beforeApart, afterApart⟩ := distinct.apart
        have nodeName := keepsName combined
        have insideOf := @under_of_apart before after kept survivor beforeApart afterApart
        have distinctKept : kept.Distinct := fun path => by
          simpa [insideOf] using distinct (survivor.name :: path)
        have children := childrenHypothesis distinctKept within
        have distinctNext := distinct.exchange nodeName fun path => (children path).nodup_names
        have following := siblingsHypothesis distinctNext rest path
        cases path with
        | nil =>
            simp only [under_empty, tops_append, tops] at following ⊢
            exact Grouped.absorb namesakes.symm nodeName combined beforeApart afterApart following
        | cons name path =>
            by_cases same : survivor.name = name
            · subst same
              have insideNext : (before.append (.node node inner after)).under
                  (survivor.name :: path) = inner.under path := by
                rw [← nodeName] at beforeApart afterApart ⊢
                exact under_of_apart beforeApart afterApart path
              rw [insideNext] at following
              rw [insideOf, under_cons_node, if_pos namesakes.symm, ← List.append_assoc]
              exact (children path).append following
            · have apart : ¬ label.name = name := namesakes ▸ same
              simpa [under_cons_node, nodeName, same, apart] using following

section Whole

variable {forest result : Forest Node} (keepsName : Keeps combine Node.name)
  (done : mergeInto combine .nil forest = .ok result)

include keepsName done

theorem grouped_of_mergeInto (path : CallPath) :
    Grouped combine (forest.under path) (result.under path) := by
  simpa using grouped_mergeInto keepsName (fun path => by simp) done path

/-- No siblings share a name after merging. -/
theorem distinct_of_mergeInto : result.Distinct := fun path =>
  (grouped_of_mergeInto keepsName done path).nodup_names

/-- The nodes of a path become one, the first with the others combined into it. -/
theorem combined_of_mergeInto (path : CallPath) :
    Combined combine (forest.nodesAt path) (result.nodesAt path) := by
  rcases path.eq_nil_or_concat' with rfl | ⟨parent, name, rfl⟩
  · rw [nodesAt_nil, nodesAt_nil]
    exact rfl
  · rw [nodesAt_concat, nodesAt_concat]
    exact (grouped_of_mergeInto keepsName done parent).combined name

/-- Siblings come in the order in which their paths first occur. -/
theorem siblings_of_mergeInto (path : CallPath) :
    (((result.located []).map (·.1)).filter fun other => other.dropLast = path) =
      (((forest.located []).map (·.1)).filter fun other => other.dropLast = path).eraseDups := by
  have names := (grouped_of_mergeInto keepsName done path).names
  have longer : Function.Injective fun name => (path ++ [name] : CallPath) := by
    intro left right equal
    simpa using equal
  have further (nodes : List Node) : (nodes.map fun label => path ++ [label.name]) =
      (nodes.map (·.name)).map fun name => path ++ [name] := by
    rw [List.map_map]
    rfl
  rw [filter_paths, filter_paths, further, further, FirstOccurrences.eraseDups_map longer, names]

/-- Merging neither adds nor loses a path. -/
theorem mem_paths_of_mergeInto (path : CallPath) :
    path ∈ (result.located []).map (·.1) ↔ path ∈ (forest.located []).map (·.1) := by
  have siblings := congrArg (path ∈ ·) (siblings_of_mergeInto keepsName done path.dropLast)
  simpa only [List.mem_eraseDups, List.mem_filter, decide_true, and_true, eq_iff_iff] using siblings

end Whole

end Forest

end CallProfiler
