import CallProfiler.Proofs.CallTree.Fitting
import CallProfiler.Proofs.Capture.Performance

/-!
# Faithful captures

What a recorder hands off after a run of nested calls says what calls were made:
`perform_faithful`. The events are those of the calls in the order of the pushes, at their
depths, and the call tree that is built from them has the call paths of the forest, each with
the number of its calls. Nothing stands in the way of that but the widths of the machine and, on
a frame thread, calls beside the frames.
-/

namespace CallProfiler

open Capture

namespace Capture

/-- The call path of a call inside others, of which the innermost is named first. -/
def pathOf (call : Invocation) (around : List Invocation) : CallPath :=
  ((call :: around).map (·.name)).reverse

/-- The call paths of a forest, one for every call, in preorder. -/
def callPaths (above : List Invocation) (forest : Forest Invocation) : List CallPath :=
  (forest.ancestry above).map fun (call, around) => pathOf call around

/-- The events of the calls of a forest, in preorder. -/
def eventsOf (processClock : Bool) (above : List Invocation) (forest : Forest Invocation) :
    List Event :=
  (recordsOf processClock above forest).map Record.toEvent

variable {processClock : Bool} {above : List Invocation} {call : Invocation}
  {inner later forest : Forest Invocation}

theorem callPaths_node :
    callPaths above (.node call inner later) =
      pathOf call above :: (callPaths (call :: above) inner ++ callPaths above later) := by
  simp [callPaths, Forest.ancestry]

theorem eventsOf_node :
    eventsOf processClock above (.node call inner later) =
      (call.record processClock above.length).toEvent ::
        (eventsOf processClock (call :: above) inner ++ eventsOf processClock above later) := by
  simp [eventsOf, recordsOf_node]

/-- Levels below the bound of depths are kept by events. -/
theorem toInt_level_toEvent {depth : Nat} (fits : depth < Width.bound 31) :
    (call.record processClock depth).toEvent.level.toInt = depth :=
  Width.toInt_ofInt32 (Width.fitsSigned_natCast.2 fits)

/-! ## Levels and call paths -/

/-- The levels of the calls of a forest climb, and so does what follows it if it may follow the
calls around the forest. -/
theorem climbs_eventsOf {before : Int} {rest : List Int}
    (deep : above.length + forest.height < Width.bound 31)
    (start : (above.length : Int) ≤ before + 1)
    (following : ∀ last : Int, (above.length : Int) ≤ last + 1 → Climbs last rest) :
    Climbs before ((eventsOf processClock above forest).map (·.level.toInt) ++ rest) := by
  induction forest generalizing above before rest with
  | nil => exact following before start
  | node call inner later innerHypothesis laterHypothesis =>
      rw [Forest.height] at deep
      rw [eventsOf_node, List.map_cons, List.map_append, List.cons_append, List.append_assoc,
        climbs_cons, toInt_level_toEvent (by omega)]
      refine ⟨⟨Int.natCast_nonneg _, start⟩, innerHypothesis ?_ ?_ fun last inside => ?_⟩
      · rw [List.length_cons]
        omega
      · exact Int.le_refl _
      · rw [List.length_cons] at inside
        exact laterHypothesis (by omega) (by omega) following

/-- The callers of what comes next are the calls around it, at every level where it may begin. -/
def Around (earlier : List Event) (above : List Invocation) : Prop :=
  ∀ depth : Nat, depth ≤ above.length →
    callers earlier depth = ((above.map (·.name)).reverse).take depth

theorem Around.outer {earlier : List Event} (around : Around earlier (call :: above)) :
    Around earlier above := by
  intro depth bound
  rw [around depth (Nat.le_succ_of_le bound), List.map_cons, List.reverse_cons,
    List.take_append_of_le_length (by simpa using bound)]

/-- A call is around what comes right after its push. -/
theorem Around.push {earlier : List Event} (around : Around earlier above)
    (fits : above.length < Width.bound 31) :
    Around ((call.record processClock above.length).toEvent :: earlier) (call :: above) := by
  intro depth bound
  rw [List.length_cons] at bound
  rw [callers, toInt_level_toEvent fits, List.map_cons, List.reverse_cons]
  split
  · rename_i caller
    obtain rfl : depth = above.length + 1 := by omega
    have outer := around above.length (Nat.le_refl _)
    rw [List.take_of_length_le (by simp)] at outer
    rw [List.take_of_length_le (by simp), ← outer]
    congr 2
    omega
  · rw [around depth (by omega), List.take_append_of_le_length (by simp; omega)]

/-- The calls of a run have the call paths of the forest, and after it the calls around the
forest are the callers again. -/
theorem map_path_eventsOf {earlier : List Event}
    (deep : above.length + forest.height < Width.bound 31) (around : Around earlier above) :
    (Call.after earlier (eventsOf processClock above forest)).map (·.path) =
        callPaths above forest ∧
      Around ((eventsOf processClock above forest).reverse ++ earlier) above := by
  induction forest generalizing above earlier with
  | nil => exact ⟨rfl, around⟩
  | node call inner later innerHypothesis laterHypothesis =>
      rw [Forest.height] at deep
      have fits : above.length < Width.bound 31 := by omega
      have opened := @Around.push processClock above call earlier around fits
      obtain ⟨innerPaths, closed⟩ := @innerHypothesis (call :: above) _
        (by rw [List.length_cons]; omega) opened
      obtain ⟨laterPaths, after⟩ := laterHypothesis (by omega) closed.outer
      have own : callers earlier above.length = (above.map (·.name)).reverse := by
        rw [around _ (Nat.le_refl _), List.take_of_length_le (by simp)]
      rw [eventsOf_node, callPaths_node]
      constructor
      · rw [Call.after, toInt_level_toEvent fits, own, Call.after_append, List.map_cons,
          List.map_append, innerPaths, laterPaths]
        simp [pathOf, Record.toEvent, Invocation.record]
      · simpa using after

/-- The events of a run are those of its calls, in the order of the pushes. -/
theorem map_eventsOf (deep : above.length + forest.height < Width.bound 31) :
    (eventsOf processClock above forest).map (fun event =>
        (event.name, event.frame, event.level.toInt)) =
      (forest.ancestry above).map fun (call, around) =>
        (call.name, call.frame, (around.length : Int)) := by
  induction forest generalizing above with
  | nil => rfl
  | node call inner later innerHypothesis laterHypothesis =>
      rw [Forest.height] at deep
      have inside := @innerHypothesis (call :: above) (by rw [List.length_cons]; omega)
      have after := @laterHypothesis above (by omega)
      have fits : above.length < Width.bound 31 := by omega
      rw [eventsOf_node, List.map_cons, List.map_append, inside, after, toInt_level_toEvent fits]
      simp [Forest.ancestry, Record.toEvent, Invocation.record]

/-! ## Captures -/

/-- A hand-off that says what calls were made. -/
structure Captures (handedOff : List Event) (forest : Forest Invocation) : Prop where
  /-- The events are those of the calls, in the order of the pushes. -/
  events : handedOff.map (fun event => (event.name, event.frame, event.level.toInt)) =
    (forest.ancestry []).map fun (call, around) => (call.name, call.frame, (around.length : Int))
  /-- Nothing keeps the call tree from being built but calls beside frames and sums that leave
  their width. -/
  tree : match CallTree.build handedOff with
    | .ok tree => tree.children.IsTrie (callPaths [] forest) ∧
        ∀ place ∈ tree.children.located [], place.2.count = (callPaths [] forest).count place.1
    | .error (.refused reason) => ∃ count, reason = .multipleFrameEntryPoints count
    | .error (.fault _) => ¬ CallTree.TimesFit handedOff ∨ Width.bound 64 ≤ forest.size

/-- The events of a run are accepted. -/
theorem check_eventsOf (deep : forest.height < Width.bound 31) :
    OpenPath.check [] 0 (eventsOf processClock [] forest) = .ok () := by
  have climbs := @climbs_eventsOf processClock [] forest (-1) [] (by simpa using deep)
    (Int.le_refl _) fun _ _ => .singleton _
  rw [List.append_nil] at climbs
  apply @OpenPath.check_eq_ok [] _ _ processClock climbs
  · simp
  · intro event member
    simp only [eventsOf, recordsOf, List.map_map, List.mem_map] at member
    obtain ⟨_, _, rfl⟩ := member
    rfl

theorem length_along_eq_count (events : List Event) (path : CallPath) :
    (Call.along events path).length = ((Call.ofEvents events).map (·.path)).count path := by
  rw [Call.along, List.length_map, List.count_eq_countP, List.countP_map,
    List.countP_eq_length_filter]
  simp [Function.comp_def, beq_eq_decide]

/-- The tree of a run is the trie of the call paths of the forest, with the numbers of calls. -/
theorem tree_of_eventsOf (deep : forest.height < Width.bound 31) {tree : CallTree}
    (built : CallTree.build (eventsOf processClock [] forest) = .ok tree) :
    tree.children.IsTrie (callPaths [] forest) ∧
      ∀ place ∈ tree.children.located [], place.2.count = (callPaths [] forest).count place.1 := by
  have around : Around [] [] := by
    intro depth bound
    obtain rfl : depth = 0 := Nat.le_zero.1 bound
    rfl
  have paths : (Call.ofEvents (eventsOf processClock [] forest)).map (·.path) =
      callPaths [] forest := (map_path_eventsOf (by simpa using deep) around).1
  constructor
  · exact {
      distinct := (CallTree.distinct_of_build built).nodup_paths
      mem_iff := fun path => by rw [CallTree.mem_paths_of_build built, paths]
      level := fun place member => CallTree.level_of_build built member }
  · intro place member
    rw [CallTree.quantity_of_build built Node.adds_count member, ← paths, ← length_along_eq_count]
    simp [Node.ofEvent]

theorem captures_eventsOf (deep : forest.height < Width.bound 31) :
    Captures (eventsOf processClock [] forest) forest where
  events := map_eventsOf (by simpa using deep)
  tree := by
    have accepted := @check_eventsOf processClock forest deep
    have length : (eventsOf processClock [] forest).length = forest.size := by
      rw [eventsOf, List.length_map, length_recordsOf]
    split
    · rename_i tree built
      exact tree_of_eventsOf deep built
    · rename_i reason refused
      rcases CallTree.refused_of_build refused with failed | ⟨_, other⟩
      · rw [accepted] at failed
        cases failed
      · exact other
    · rename_i reached failed
      by_contra fits
      rw [not_or, not_not, Nat.not_le] at fits
      rcases CallTree.build_of_timesFit accepted fits.1 (length ▸ fits.2) with ⟨tree, built⟩ | refused
      · rw [built] at failed
        cases failed
      · obtain ⟨count, refused⟩ := refused
        rw [refused] at failed
        cases failed

/-! ## Faithful runs -/

/-- What is true of a run of the calls of a forest on a recorder of its own. -/
structure Performance.Faithful (performance : Performance) (forest : Forest Invocation) : Prop where
  /-- Every pop succeeds. -/
  closings : performance.closings = List.replicate forest.size (.ok ())
  /-- No step poisons the recorder. -/
  healthy : ∀ state ∈ performance.passed, state.poisoned = false
  depth : performance.recorder.depth = 0
  /-- The flush hands off one list, or none where no call was made. -/
  handOff : match performance.recorder.flush.2 with
    | some events => forest ≠ .nil ∧ Captures events forest
    | none => forest = .nil
  /-- Nothing is handed off after it. -/
  once : performance.recorder.flush.1.flush.2 = none

namespace Recorder

/-- A recorder at work that has closed everything hands off all its records, if it has any. -/
theorem Ready.flush {recorder : Recorder} {around : Nat} (ready : recorder.Ready around)
    (complete : ∀ record ∈ recorder.records, record.complete = true) :
    recorder.flush.2 = if recorder.records.isEmpty then none
      else some (recorder.records.map Record.toEvent) := by
  have drained := PagedStore.Holds.drain ready.live
  have notFlushed : ¬ recorder.flushed = true := by
    rw [ready.unflushed]
    exact Bool.false_ne_true
  rw [Recorder.flush, if_neg notFlushed]
  simp only [drained, List.filter_eq_self.2 complete, ready.healthy, Bool.false_or,
    List.isEmpty_map]

/-- The flush after a run of the calls of a forest. -/
theorem Performed.flush {processClock : Bool} {forest : Forest Invocation}
    {performance : Performance} (performed : Performed (new processClock) [] forest performance) :
    performance.recorder.flush.2 =
      if forest.isEmpty then none else some (eventsOf processClock [] forest) := by
  have records : performance.recorder.records = recordsOf processClock [] forest := by
    rw [performed.records, records_new, List.nil_append]
    rfl
  have complete : ∀ record ∈ performance.recorder.records, record.complete = true := by
    rw [records]
    intro record member
    simp only [recordsOf, List.mem_map] at member
    obtain ⟨_, _, rfl⟩ := member
    rfl
  rw [performed.ready.flush complete, records, eventsOf]
  cases forest with
  | nil => rfl
  | node call inner later =>
      rw [recordsOf_node]
      rfl

/-- A run of nested calls on a new recorder is captured faithfully. It comes to its end unless
it goes deeper, or makes more calls, than the machine's widths can count. -/
theorem perform_faithful (processClock : Bool) (forest : Forest Invocation) :
    match (new processClock).perform forest with
    | .ok performance => performance.Faithful forest
    | .error _ =>
      Width.bound 31 ≤ forest.height ∨ Width.bound 64 ≤ 3 * forest.size + Width.bound 14 := by
  have start : (new processClock).Ready ([] : List Invocation).length := ready_new processClock
  split
  · rename_i performance done
    have performed := start.perform done
    refine ⟨performed.closings, performed.healthy, performed.ready.depth, ?_, flush_flush _⟩
    rw [performed.flush]
    cases forest with
    | nil => rfl
    | node call inner later =>
        exact ⟨by simp, captures_eventsOf (by simpa using performed.deep)⟩
  · rename_i reached stopped
    by_contra counted
    rw [not_or, Nat.not_le, Nat.not_le] at counted
    obtain ⟨performance, done⟩ := @Ready.exists_perform _ [] forest start
      (by simpa using counted.1) (by simpa using counted.2)
    rw [done] at stopped
    cases stopped

end Recorder

end Capture

end CallProfiler
