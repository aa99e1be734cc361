import CallProfiler.Proofs.CallTree.Coverage
import CallProfiler.Proofs.CallTree.Invariant
import CallProfiler.Proofs.CallTree.Load

/-!
# Calls made directly inside an event

The event around another one is the latest before it that is one level above, so what was called
directly inside an event can be read off the list of events: `callees` are the later events one
level below it, up to the next event of its own level. Where every event lasted at least as long
as its callees together, all nodes of the nesting cover their children, and mitigation has
nothing to raise: the load of the nesting is the time of its events.
-/

namespace CallProfiler

/-- Of the events that came after an event, those that were called directly inside it. -/
def Event.callees (event : Event) (later : List Event) : List Event :=
  (later.takeWhile fun other => other.level != event.level).filter fun other =>
    other.level.toInt = event.level.toInt + 1

/-- Every event lasted at least as long as those called directly inside it together. -/
def CoversCallees : List Event → Prop
  | [] => True
  | event :: rest =>
    ((event.callees rest).map (·.duration)).sum ≤ event.duration ∧ CoversCallees rest

instance decidableCoversCallees : (events : List Event) → Decidable (CoversCallees events)
  | [] => .isTrue trivial
  | _ :: rest => @instDecidableAnd (_ ≤ _) (CoversCallees rest) _ (decidableCoversCallees rest)

namespace Forest

variable {path outer : OpenPath} {index : Nat} {event : Event} {earlier events rest : List Event}
  {forest : Forest Node}

/-- What the first event of an accepted list is planted before: the trees that become its
children are one level below it, and the others are not below it. -/
theorem exists_parts_ofEvents (accepted : OpenPath.check path index (event :: rest) = .ok ())
    (surrounds : path.Surrounds earlier) :
    ∃ (outer : OpenPath) (children siblings : Forest Node),
      OpenPath.check (event :: outer) (index + 1) rest = .ok () ∧
      OpenPath.Surrounds (event :: outer) (event :: earlier) ∧
      ofEvents (event :: rest) = .node (.ofEvent event) children siblings ∧
      ofEvents rest = children.append siblings ∧
      ∀ label ∈ children.tops, label.level = event.level.toInt + 1 := by
  obtain ⟨outer, around, acceptedRest⟩ := OpenPath.check_cons_eq_ok accepted
  obtain ⟨depth, level, fits, length, names⟩ := OpenPath.around?_eq_some around
  have descends := (locatedAround_ofEvents acceptedRest (surrounds.step around)).1
  rw [List.length_cons, length] at descends
  obtain ⟨children, siblings, planted, parted, deeper, _⟩ :=
    descends.span (show (Node.ofEvent event).level = depth from level)
  refine ⟨outer, children, siblings, acceptedRest, surrounds.step around, planted, parted, ?_⟩
  intro label member
  rw [deeper label member, level, Int.natCast_succ]

theorem entries_append {α : Type} (first second : Forest α) :
    (first.append second).entries = first.entries ++ second.entries := by
  induction first with
  | nil => rfl
  | node label children siblings _ inductionHypothesis =>
      simp [append, entries, inductionHypothesis]

/-- In the nesting of an accepted list every node is one level above its children. -/
theorem level_of_mem_tops_ofEvents (accepted : OpenPath.check path index events = .ok ())
    (surrounds : path.Surrounds earlier) :
    ∀ entry ∈ (ofEvents events).entries, ∀ child ∈ entry.2.tops,
      child.level = entry.1.level + 1 := by
  induction events generalizing path index earlier with
  | nil => simp [ofEvents, entries]
  | cons event rest inductionHypothesis =>
      obtain ⟨outer, children, siblings, acceptedRest, surroundsRest, whole, parted, below⟩ :=
        exists_parts_ofEvents accepted surrounds
      have others := inductionHypothesis acceptedRest surroundsRest
      rw [parted, entries_append] at others
      rw [whole, entries, List.forall_mem_cons]
      exact ⟨below, others⟩

/-- The children of an event's node lasted no longer than its callees. -/
theorem time_le_callees {children siblings : Forest Node}
    (parted : ofEvents rest = children.append siblings)
    (below : ∀ label ∈ children.tops, label.level = event.level.toInt + 1)
    (levels : ∀ entry ∈ children.entries, ∀ child ∈ entry.2.tops,
      child.level = entry.1.level + 1) :
    children.time ≤ ((event.callees rest).map (·.duration)).sum := by
  have nodes := preorder_ofEvents rest
  rw [parted, preorder_append] at nodes
  obtain ⟨inside, beside, rfl, ofInside, _⟩ := List.map_eq_append_iff.1 nodes.symm
  have deeper : ∀ other ∈ inside, (other.level != event.level) = true := by
    intro other member
    have inChildren : Node.ofEvent other ∈ children.preorder :=
      ofInside ▸ List.mem_map_of_mem member
    have least := level_le_of_mem_preorder (fun top listed => Int.le_of_eq (below top listed).symm)
      levels _ inChildren
    rw [bne_iff_ne]
    rintro same
    have level : event.level.toInt + 1 ≤ other.level.toInt := least
    rw [same] at level
    omega
  rw [Event.callees, List.takeWhile_append_of_pos deeper]
  have outermost : children.tops.Sublist
      ((inside.filter fun other => other.level.toInt = event.level.toInt + 1).map .ofEvent) := by
    have kept : children.tops.filter (·.level = event.level.toInt + 1) = children.tops :=
      List.filter_eq_self.2 fun label member => decide_eq_true (below label member)
    have sub := (tops_sublist_preorder children).filter (·.level = event.level.toInt + 1)
    rwa [kept, ← ofInside, List.filter_map] at sub
  have part : (inside.filter fun other => other.level.toInt = event.level.toInt + 1).Sublist
      ((inside ++ beside.takeWhile fun other => other.level != event.level).filter fun other =>
        other.level.toInt = event.level.toInt + 1) :=
    (List.sublist_append_left _ _).filter _
  have times := (outermost.map (·.realtime)).sum_le_sum fun _ _ => Nat.zero_le _
  rw [List.map_map] at times
  exact Nat.le_trans times ((part.map (·.duration)).sum_le_sum fun _ _ => Nat.zero_le _)

/-- Where events cover their callees, nodes cover their children. -/
theorem coversBelow_ofEvents (accepted : OpenPath.check path index events = .ok ())
    (surrounds : path.Surrounds earlier) (covers : CoversCallees events) (above : CallPath) :
    (ofEvents events).CoversBelow above := by
  induction events generalizing path index earlier above with
  | nil => simp [ofEvents, CoversBelow, branches]
  | cons event rest inductionHypothesis =>
      obtain ⟨outer, children, siblings, acceptedRest, surroundsRest, whole, parted, below⟩ :=
        exists_parts_ofEvents accepted surrounds
      have levels := level_of_mem_tops_ofEvents acceptedRest surroundsRest
      rw [parted, entries_append, List.forall_mem_append] at levels
      have others (above : CallPath) : (children.append siblings).CoversBelow above :=
        parted ▸ inductionHypothesis acceptedRest surroundsRest covers.2 above
      simp only [CoversBelow, branches_append, List.forall_mem_append] at others
      rw [whole, CoversBelow, branches, List.forall_mem_cons, List.forall_mem_append]
      refine ⟨?_, (others _).1, (others above).2⟩
      exact Nat.le_trans (time_le_callees parted below levels.1) covers.1

/-- A node that covers its children is not raised. -/
theorem load_of_coversBelow {above : CallPath} (covers : forest.CoversBelow above) :
    forest.reach = forest.time ∧ forest.load = forest.total (·.realtime) := by
  induction forest generalizing above with
  | nil => exact ⟨rfl, rfl⟩
  | node label children siblings childrenHypothesis siblingsHypothesis =>
      obtain ⟨reachInside, loadInside⟩ := childrenHypothesis covers.inChildren
      obtain ⟨reachBeside, loadBeside⟩ := siblingsHypothesis covers.inSiblings
      have covered := covers.head
      rw [reach, load, reachInside, loadInside, reachBeside, loadBeside, time_node, total_node,
        Nat.max_eq_left covered]
      exact ⟨rfl, rfl⟩

/-- Where events cover their callees, the load of their nesting is their time. -/
theorem load_ofEvents (accepted : OpenPath.check [] 0 events = .ok ())
    (covers : CoversCallees events) :
    (ofEvents events).load = (events.map (·.duration)).sum := by
  have nodes := coversBelow_ofEvents accepted OpenPath.surrounds_nil covers []
  rw [(load_of_coversBelow nodes).2, total, preorder_ofEvents, List.map_map]
  rfl

end Forest

end CallProfiler
