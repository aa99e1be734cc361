import CallProfiler.Proofs.CallTree.Following
import CallProfiler.Proofs.CallTree.Places

/-!
# Nesting an event list

The nesting of an accepted event list puts every event where its call path says. The open
events around a place of the list are the callers of what comes next (`Surrounds`); the trees
that are still to come hang below them at the levels of their outermost nodes
(`locatedAround`). Both are followed through the list at once in `locatedAround_ofEvents`.
-/

namespace CallProfiler

namespace OpenPath

/-- The names of open events, the outermost first. -/
def names (path : OpenPath) : CallPath := (path.map (·.name)).reverse

@[simp] theorem length_names (path : OpenPath) : path.names.length = path.length := by
  simp [names]

/-- An event fits if its level is at most the number of open events; those of lower levels
stay open around it. -/
theorem around?_eq_some {path outer : OpenPath} {level : Int32}
    (around : path.around? level = some outer) :
    ∃ depth : Nat, level.toInt = depth ∧ depth ≤ path.length ∧ outer.length = depth ∧
      outer.names = path.names.take depth := by
  obtain ⟨depth, levelEq, fits, length, outermost⟩ := reverse_of_around around
  refine ⟨depth, levelEq, fits, length, ?_⟩
  rw [names, ← List.map_reverse, outermost, List.map_take, List.map_reverse, names]

/-- Accepting a list is finding a place for its first event and accepting the others after it. -/
theorem check_cons_eq_ok {path : OpenPath} {index : Nat} {event : Event} {rest : List Event}
    (accepted : check path index (event :: rest) = .ok ()) :
    ∃ outer, path.around? event.level = some outer ∧
      check (event :: outer) (index + 1) rest = .ok () := by
  rw [check] at accepted
  cases around : path.around? event.level with
  | none => simp [around] at accepted
  | some outer =>
      refine ⟨outer, rfl, ?_⟩
      rw [around] at accepted
      dsimp only at accepted
      split at accepted
      · exact accepted
      · split at accepted
        · cases accepted
        · exact accepted

/-- The open events are the callers of what comes next, at every level where it may begin. -/
def Surrounds (path : OpenPath) (earlier : List Event) : Prop :=
  ∀ depth : Nat, depth ≤ path.length → callers earlier depth = path.names.take depth

theorem surrounds_nil : Surrounds [] [] := by
  intro depth bound
  obtain rfl : depth = 0 := Nat.le_zero.1 bound
  rfl

/-- An event that has found its place is open for what comes next. -/
theorem Surrounds.step {path outer : OpenPath} {earlier : List Event} {event : Event}
    (surrounds : path.Surrounds earlier) (around : path.around? event.level = some outer) :
    Surrounds (event :: outer) (event :: earlier) := by
  obtain ⟨own, level, fits, length, names⟩ := around?_eq_some around
  intro depth bound
  rw [List.length_cons, length] at bound
  have openNames : OpenPath.names (event :: outer) = path.names.take own ++ [event.name] := by
    rw [← names]
    simp [OpenPath.names]
  have ownNames : (path.names.take own).length = own := by
    rw [List.length_take, length_names]
    omega
  rw [callers, openNames, level]
  split
  · -- One level below the event: the event is the caller.
    rename_i caller
    obtain rfl : depth = own + 1 := by omega
    have inner := surrounds own fits
    have whole : (path.names.take own ++ [event.name]).length = own + 1 := by simp [ownNames]
    rw [List.take_of_length_le (Nat.le_of_eq whole), ← inner]
    congr 2
    omega
  · rename_i other
    have outside : depth ≤ own := by omega
    rw [surrounds depth (by omega), List.take_append_of_le_length (by omega), List.take_take,
      Nat.min_eq_left outside]

end OpenPath

namespace Call

/-- The path of an accepted event has one name more than the event's level. -/
theorem length_path_of_mem_after {path : OpenPath} {index : Nat} {earlier events : List Event}
    (accepted : OpenPath.check path index events = .ok ()) (surrounds : path.Surrounds earlier)
    {call : Call} (member : call ∈ after earlier events) :
    ∃ depth : Nat, call.event.level.toInt = depth ∧ call.path.length = depth + 1 := by
  induction events generalizing path index earlier with
  | nil => cases member
  | cons event rest inductionHypothesis =>
      obtain ⟨outer, around, acceptedRest⟩ := OpenPath.check_cons_eq_ok accepted
      rcases List.mem_cons.1 member with rfl | later
      · obtain ⟨depth, level, fits, _, _⟩ := OpenPath.around?_eq_some around
        have callerNames := congrArg List.length (surrounds depth fits)
        rw [List.length_take, OpenPath.length_names] at callerNames
        refine ⟨depth, level, ?_⟩
        simp only [List.length_append, level, callerNames, List.length_singleton]
        omega
      · exact inductionHypothesis acceptedRest (surrounds.step around) later

end Call

namespace Forest

/-- A forest parts at its first tree that fails a test. -/
theorem span_spec {α : Type} (test : α → Bool) (forest : Forest α) :
    (forest.span test).1.append (forest.span test).2 = forest ∧
      (∀ label ∈ (forest.span test).1.tops, test label = true) ∧
      ∀ label ∈ (forest.span test).2.tops.head?, test label = false := by
  induction forest with
  | nil => simp [span, tops, append_nil]
  | node label children siblings _ inductionHypothesis =>
      obtain ⟨whole, leading, rest⟩ := inductionHypothesis
      by_cases passes : test label = true
      · simp only [span, passes, if_true, append, whole, tops, true_and]
        refine ⟨?_, rest⟩
        intro other member
        rcases List.mem_cons.1 member with rfl | inLeading
        · exact passes
        · exact leading other inLeading
      · simp [span, passes, append, tops]

/-- The outermost trees never begin deeper than those before them, nor below zero, nor deeper
than a bound. -/
structure Descends (bound : Nat) (forest : Forest Node) : Prop where
  ordered : forest.tops.Pairwise fun left right => right.level ≤ left.level
  bounded : ∀ label ∈ forest.tops, 0 ≤ label.level ∧ label.level ≤ bound

/-- What a node is planted before: the trees that become its children are one level below it,
and the others begin at its level or above. -/
theorem Descends.span {forest : Forest Node} {depth : Nat} {node : Node}
    (level : node.level = depth) (descends : forest.Descends (depth + 1)) :
    ∃ children siblings, plant node forest = .node node children siblings ∧
      forest = children.append siblings ∧
      (∀ label ∈ children.tops, label.level = (depth + 1 : Nat)) ∧
      siblings.Descends depth := by
  obtain ⟨whole, deeper, head⟩ := span_spec (fun other => node.level < other.level) forest
  refine ⟨_, _, rfl, whole.symm, ?_, ?_⟩
  · intro label member
    have below : node.level < label.level := of_decide_eq_true (deeper label member)
    have bound := (descends.bounded label (by rw [← whole]; simp [member])).2
    omega
  · have ordered := descends.ordered
    have bounded := descends.bounded
    rw [← whole, tops_append] at ordered bounded
    have orderedRest := (List.pairwise_append.1 ordered).2.1
    refine ⟨orderedRest, ?_⟩
    intro label member
    refine ⟨(bounded label (List.mem_append_right _ member)).1, ?_⟩
    cases rest : (forest.span fun other => node.level < other.level).2.tops with
    | nil => simp [rest] at member
    | cons first others =>
        rw [rest] at member head orderedRest
        have top : first.level ≤ node.level := by simpa using head first rfl
        rcases List.mem_cons.1 member with rfl | later
        · omega
        · have := (List.pairwise_cons.1 orderedRest).1 label later
          omega

/-- The nodes of a forest whose outermost trees belong to different levels of a path: every
tree lies below as many names of the path as its level says. -/
def locatedAround (names : CallPath) : Forest Node → List (CallPath × Node)
  | .nil => []
  | .node label children siblings =>
    located (names.take label.level.toNat) (.node label children .nil) ++
      locatedAround names siblings

theorem locatedAround_append (names : CallPath) (first second : Forest Node) :
    locatedAround names (first.append second) =
      locatedAround names first ++ locatedAround names second := by
  induction first with
  | nil => rfl
  | node label children siblings _ inductionHypothesis =>
      simp [append, locatedAround, inductionHypothesis]

/-- Trees that all begin right below a path are located below it. -/
theorem locatedAround_eq_located {names : CallPath} {forest : Forest Node}
    (level : ∀ label ∈ forest.tops, names.length ≤ label.level.toNat) :
    locatedAround names forest = forest.located names := by
  induction forest with
  | nil => rfl
  | node label children siblings _ inductionHypothesis =>
      have whole := List.take_of_length_le (level label (by simp [tops]))
      have rest := inductionHypothesis fun other member => level other (by simp [tops, member])
      simp [locatedAround, located, whole, rest]

/-- Names deeper than the outermost trees do not matter to them. -/
theorem locatedAround_take_append {names deeper : CallPath} {depth : Nat} {forest : Forest Node}
    (within : depth ≤ names.length)
    (level : ∀ label ∈ forest.tops, label.level.toNat ≤ depth) :
    locatedAround (names.take depth ++ deeper) forest = locatedAround names forest := by
  induction forest with
  | nil => rfl
  | node label children siblings _ inductionHypothesis =>
      have own := level label (by simp [tops])
      have outside : (names.take depth ++ deeper).take label.level.toNat =
          names.take label.level.toNat := by
        rw [List.take_append_of_le_length (by simp; omega), List.take_take, Nat.min_eq_left own]
      have rest := inductionHypothesis fun other member => level other (by simp [tops, member])
      rw [locatedAround, locatedAround, outside, rest]

/-- The nesting of an accepted list hangs below its open events, and every event is where its
call path says. -/
theorem locatedAround_ofEvents {path : OpenPath} {index : Nat} {earlier events : List Event}
    (accepted : OpenPath.check path index events = .ok ()) (surrounds : path.Surrounds earlier) :
    (ofEvents events).Descends path.length ∧
      locatedAround path.names (ofEvents events) =
        (Call.after earlier events).map fun call => (call.path, .ofEvent call.event) := by
  induction events generalizing path index earlier with
  | nil => exact ⟨⟨.nil, by simp [ofEvents, tops]⟩, rfl⟩
  | cons event rest inductionHypothesis =>
      obtain ⟨outer, around, acceptedRest⟩ := OpenPath.check_cons_eq_ok accepted
      obtain ⟨depth, level, fits, length, names⟩ := OpenPath.around?_eq_some around
      obtain ⟨descends, located⟩ := inductionHypothesis acceptedRest (surrounds.step around)
      rw [List.length_cons, length] at descends
      obtain ⟨children, siblings, planted, parted, deeper, shallow⟩ :=
        descends.span (show (Node.ofEvent event).level = depth from level)
      have whole : ofEvents (event :: rest) = .node (.ofEvent event) children siblings := planted
      have openNames : OpenPath.names (event :: outer) = path.names.take depth ++ [event.name] := by
        rw [← names]
        simp [OpenPath.names]
      have ownNames : (path.names.take depth).length = depth := by
        rw [List.length_take, OpenPath.length_names]
        omega
      constructor
      · -- The event is a tree of its own, and the trees after it begin no deeper.
        rw [whole]
        refine ⟨List.pairwise_cons.2 ⟨?_, shallow.ordered⟩, ?_⟩
        · intro label member
          have bound := (shallow.bounded label member).2
          rwa [← level] at bound
        · intro label member
          rcases List.mem_cons.1 member with rfl | later
          · show 0 ≤ event.level.toInt ∧ event.level.toInt ≤ path.length
            omega
          · have bounds := shallow.bounded label later
            omega
      · have callersOf : callers earlier event.level.toInt = path.names.take depth := by
          rw [level, surrounds depth fits]
        have inside : locatedAround (path.names.take depth ++ [event.name]) children =
            children.located (path.names.take depth ++ [event.name]) := by
          apply locatedAround_eq_located
          intro label member
          rw [List.length_append, ownNames, deeper label member]
          exact Nat.le_refl _
        have outside : locatedAround (path.names.take depth ++ [event.name]) siblings =
            locatedAround path.names siblings := by
          apply locatedAround_take_append (by simpa using fits)
          intro label member
          have bounds := shallow.bounded label member
          omega
        have ownLevel : (Node.ofEvent event).level.toNat = depth := by
          show event.level.toInt.toNat = depth
          omega
        rw [openNames, parted, locatedAround_append, inside, outside] at located
        rw [whole, locatedAround, Forest.located, Call.after, List.map_cons, ← located, ownLevel,
          callersOf]
        simp [Forest.located, Node.ofEvent]

/-- Every event of an accepted list is a node of its own, at its call path. -/
theorem located_ofEvents {events : List Event}
    (accepted : OpenPath.check [] 0 events = .ok ()) :
    (ofEvents events).located [] =
      (Call.ofEvents events).map fun call => (call.path, .ofEvent call.event) := by
  have located := (locatedAround_ofEvents accepted OpenPath.surrounds_nil).2
  rw [locatedAround_eq_located (by simp)] at located
  exact located

end Forest

end CallProfiler
