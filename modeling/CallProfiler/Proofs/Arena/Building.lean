import CallProfiler.Arena.Build
import CallProfiler.Proofs.Arena.Growing
import CallProfiler.Proofs.Arena.Merging
import CallProfiler.Proofs.CallTree.Refusals

/-!
# Slots for the events of a list

Following an event list in an arena refuses what following its open events refuses, and what it
adds is the nesting of the list. The two are shown apart: `plant` adds one node without any check,
and nodes that are planted in preorder, each at the level of its depth, grow the forest they are
the preorder of.
-/

namespace CallProfiler

/-- Leaving off what passes a test leaves off at least what passes a stricter one. -/
theorem dropWhile_dropWhile_of_imp {α : Type} {strict test : α → Bool} {values : List α}
    (stricter : ∀ value ∈ values, strict value = true → test value = true) :
    (values.dropWhile strict).dropWhile test = values.dropWhile test := by
  induction values with
  | nil => rfl
  | cons value rest inductionHypothesis =>
      rw [List.forall_mem_cons] at stricter
      by_cases passes : strict value = true
      · rw [List.dropWhile_cons_of_pos passes, List.dropWhile_cons_of_pos (stricter.1 passes)]
        exact inductionHypothesis stricter.2
      · rw [List.dropWhile_cons_of_neg passes]

namespace Arena

variable {arena next : Arena} {path outer : List Nat} {parent : Nat} {forest : Forest Node}

/-- Add a node below the innermost open slot that lies above its level. -/
def plant (state : Arena × List Nat) (node : Node) : Arena × List Nat :=
  let outer := state.1.openAround node.level state.2
  (state.1.add node (outer.headD rootId), state.1.size :: outer)

/-- The innermost slot that stays open lies above the level. -/
theorem level_lt_of_openAround {level : Int}
    (around : arena.openAround level path = parent :: outer) :
    (arena.node parent).level < level := by
  have fails := List.head?_dropWhile_not (fun id => decide (level ≤ (arena.node id).level)) path
  rw [openAround] at around
  simpa [around] using fails

theorem openAround_of_lt {level : Int} (lower : (arena.node parent).level < level) :
    arena.openAround level (parent :: outer) = parent :: outer :=
  List.dropWhile_cons_of_neg (by simpa using lower)

theorem openAround_of_le {level : Int} (closed : level ≤ (arena.node parent).level) :
    arena.openAround level (parent :: outer) = arena.openAround level outer :=
  List.dropWhile_cons_of_pos (by simpa using closed)

/-- What is closed around a level is closed around a lower one too. -/
theorem openAround_openAround {lower level : Int} (ordered : lower ≤ level) :
    arena.openAround lower (arena.openAround level path) = arena.openAround lower path := by
  refine dropWhile_dropWhile_of_imp fun id _ closed => ?_
  rw [decide_eq_true_eq] at closed ⊢
  exact Int.le_trans ordered closed

/-- Nodes in preorder that are planted at the level of their depth grow their forest. -/
theorem grows_of_plant {above : CallPath}
    (levels : ∀ place ∈ forest.located above, place.2.level = place.1.length - 1)
    (known : ∀ id ∈ path, id < arena.size)
    (around : arena.openAround above.length path = parent :: outer) :
    ∃ next reached, forest.preorder.foldl plant (arena, path) = (next, reached) ∧
      Grows parent forest arena next ∧ (∀ id ∈ reached, id < next.size) ∧
      next.openAround above.length reached = parent :: outer := by
  induction forest generalizing arena path parent outer above with
  | nil => exact ⟨arena, path, rfl, .nil parent arena, known, around⟩
  | node label children siblings childrenHypothesis siblingsHypothesis =>
      simp only [Forest.located, List.forall_mem_cons, List.forall_mem_append] at levels
      obtain ⟨own, inChildren, inSiblings⟩ := levels
      have level : label.level = above.length := by
        rw [own, List.length_append, List.length_singleton]
        omega
      have knownOpen : ∀ id ∈ parent :: outer, id < arena.size := fun id member =>
        known id ((List.dropWhile_sublist _).subset (around ▸ member))
      have inside := knownOpen parent List.mem_cons_self
      have planted : plant (arena, path) label =
          (arena.add label parent, arena.size :: parent :: outer) := by
        rw [plant, level, around]
        rfl
      have depth : ((above ++ [label.name]).length : Int) = above.length + 1 := by
        rw [List.length_append, List.length_singleton, Int.natCast_succ]
      have newNode : (arena.add label parent).node arena.size = label := by
        rw [Arena.node, slot_add_new]
      -- The new slot is not closed around its children, whose level is the next one.
      have openBelow : (arena.add label parent).openAround (above ++ [label.name]).length
          (arena.size :: parent :: outer) = arena.size :: parent :: outer := by
        refine openAround_of_lt ?_
        rw [newNode, level, depth]
        exact Int.lt_succ _
      obtain ⟨middle, reached, walked, below, knownMiddle, aroundMiddle⟩ :=
        childrenHypothesis inChildren (by
          rw [List.forall_mem_cons, size_add]
          exact ⟨Nat.lt_succ_self _, fun id member => Nat.lt_succ_of_lt (knownOpen id member)⟩)
          openBelow
      have openBeside : middle.openAround above.length reached = parent :: outer := by
        have newMiddle : middle.node arena.size = label := by
          rw [below.node_eq (by rw [size_add]; exact Nat.lt_succ_self _), newNode]
        have parentMiddle : middle.node parent = arena.node parent := by
          rw [below.node_eq (by rw [size_add]; exact Nat.lt_succ_of_lt inside), Arena.node,
            slot_add_of_lt inside, slot_change_self inside]
          rfl
        rw [← openAround_openAround (Int.le_of_lt (Int.lt_succ (above.length : Int))), ← depth,
          aroundMiddle, openAround_of_le (Int.le_of_eq (by rw [newMiddle, level])),
          openAround_of_lt]
        rw [parentMiddle]
        exact level_lt_of_openAround around
      obtain ⟨next, last, finished, beside, knownLast, aroundLast⟩ :=
        siblingsHypothesis inSiblings knownMiddle openBeside
      refine ⟨next, last, ?_, .node inside below beside, knownLast, aroundLast⟩
      rw [Forest.preorder, List.foldl_cons, List.foldl_append, planted, walked, finished]

/-! ## Refusals -/

/-- The slots of a path are those of the open events, with the root's below them. -/
inductive Opens (arena : Arena) : List Nat → OpenPath → Prop
  | root (inside : rootId < arena.size) (level : (arena.node rootId).level = Node.root.level)
      (top : (arena.slot rootId).parent = none) : Opens arena [rootId] []
  | event {id : Nat} {path : List Nat} {event : Event} {events : OpenPath}
      (inside : id < arena.size) (node : arena.node id = .ofEvent event)
      (below : (arena.slot id).parent.isSome = true) (around : Opens arena path events) :
      Opens arena (id :: path) (event :: events)

namespace Opens

variable {events : OpenPath} {event : Event}

/-- Slots that keep their nodes and parents stay open. -/
theorem congr (opens : arena.Opens path events) (size : arena.size ≤ next.size)
    (same : ∀ id < arena.size, next.node id = arena.node id ∧
      (next.slot id).parent = (arena.slot id).parent) : next.Opens path events := by
  induction opens with
  | root inside level top =>
      obtain ⟨node, parent⟩ := same rootId inside
      exact .root (Nat.lt_of_lt_of_le inside size) (node ▸ level) (parent ▸ top)
  | event inside node below around inductionHypothesis =>
      obtain ⟨sameNode, sameParent⟩ := same _ inside
      exact .event (Nat.lt_of_lt_of_le inside size) (sameNode.trans node) (sameParent ▸ below)
        inductionHypothesis

/-- The innermost open slot is the one of the innermost open event, or the root's. -/
theorem exists_head (opens : arena.Opens path events) :
    ∃ parent outer, path = parent :: outer ∧ parent < arena.size ∧
      (arena.node parent).level = events.level ∧
      match events.head? with
      | none => (arena.slot parent).parent = none
      | some event => arena.node parent = .ofEvent event ∧
          (arena.slot parent).parent.isSome = true := by
  cases opens with
  | root inside level top => exact ⟨_, _, rfl, inside, level, top⟩
  | event inside node below around =>
      refine ⟨_, _, rfl, inside, ?_, node, below⟩
      rw [node]
      rfl

theorem openAround (opens : arena.Opens path events) {level : Int}
    (belowRoot : Node.root.level < level) :
    arena.Opens (arena.openAround level path)
      (events.dropWhile fun other => level ≤ other.level.toInt) := by
  induction opens with
  | root inside rootLevel top =>
      rw [openAround_of_lt (rootLevel ▸ belowRoot)]
      exact .root inside rootLevel top
  | @event id path event events inside node below around inductionHypothesis =>
      have own : (arena.node id).level = event.level.toInt := by
        rw [node]
        rfl
      by_cases closed : level ≤ event.level.toInt
      · rw [openAround_of_le (own ▸ closed), List.dropWhile_cons_of_pos (by simpa using closed)]
        exact inductionHypothesis
      · rw [openAround_of_lt (own ▸ Int.not_le.1 closed),
          List.dropWhile_cons_of_neg (by simpa using closed)]
        exact .event inside node below around

/-- A level that closes the root closes all that is open. -/
theorem openAround_eq_nil (opens : arena.Opens path events) (leveled : events.Leveled)
    {level : Int} (outside : level ≤ Node.root.level) : arena.openAround level path = [] := by
  induction opens with
  | root inside rootLevel top =>
      rw [openAround_of_le (rootLevel ▸ outside)]
      rfl
  | @event id path event events inside node below around inductionHypothesis =>
      cases leveled with
      | cons own outer =>
          have level : (arena.node id).level = events.length := by
            rw [node]
            exact own
          have rootLevel : Node.root.level = -1 := rfl
          rw [openAround_of_le (by omega), inductionHypothesis outer]

/-- A new slot for an event is open above those it was opened in. -/
theorem add (opens : arena.Opens path events) (event : Event) (parent : Nat) :
    (arena.add (.ofEvent event) parent).Opens (arena.size :: path) (event :: events) := by
  refine .event ?_ ?_ ?_ (opens.congr ?_ fun id inside => ?_)
  · rw [size_add]
    exact Nat.lt_succ_self _
  · rw [node, slot_add_new]
  · rw [slot_add_new]
    rfl
  · rw [size_add]
    exact Nat.le_succ _
  · rw [node, slot_add_of_lt inside, node]
    by_cases same : id = parent
    · subst same
      rw [slot_change_self inside]
      exact ⟨rfl, rfl⟩
    · rw [slot_change_of_ne same]
      exact ⟨rfl, rfl⟩

end Opens

/-- Following a list refuses what following its open events refuses, and plants its nodes. -/
theorem follow_matches {events : OpenPath} (opens : arena.Opens path events)
    (leveled : events.Leveled) (index : Nat) (list : List Event) :
    Matches Eq (fun next _ => next = ((list.map Node.ofEvent).foldl plant (arena, path)).1)
      (arena.follow path index list) (events.follow index list) := by
  induction list generalizing arena path events index with
  | nil => exact .done rfl
  | cons event rest inductionHypothesis =>
      have settled := leveled.settle_eq event.level
      rw [Arena.follow, OpenPath.follow]
      rw [OpenPath.settle] at settled ⊢
      by_cases outside : event.level.toInt ≤ Node.root.level
      · rw [if_pos outside, opens.openAround_eq_nil leveled outside]
        exact .stopped rfl
      · rw [if_neg outside] at settled ⊢
        have stillOpen := opens.openAround (Int.not_le.1 outside)
        obtain ⟨parent, outer, around, _, level, head⟩ := stillOpen.exists_head
        have planted : plant (arena, path) (.ofEvent event) =
            (arena.add (.ofEvent event) parent, arena.size :: parent :: outer) := by
          have own : (Node.ofEvent event).level = event.level.toInt := rfl
          rw [plant, own, around]
          rfl
        rw [around] at stillOpen ⊢
        generalize (events.dropWhile fun other => event.level.toInt ≤ other.level.toInt) =
          surrounding at *
        rw [List.map_cons, List.foldl_cons, planted]
        simp only [List.head?_cons, level]
        cases sum : Checked.addSigned 32 (OpenPath.level surrounding) 1 with
        | error reached => exact .stopped rfl
        | ok below =>
            simp only [sum, ok_bind] at settled
            simp only [liftM, monadLift, MonadLift.monadLift, Stop.ofFault, ok_bind]
            by_cases fits : event.level.toInt = below
            · rw [if_pos fits] at settled ⊢
              have opened := leveled.step (Except.ok.inj settled).symm
              have next := inductionHypothesis (stillOpen.add event parent) opened (index + 1)
              simp only [pure, Except.pure, if_pos fits, ok_bind]
              cases innermost : surrounding.head? with
              | none =>
                  simp only [innermost] at head
                  rw [head]
                  exact next
              | some caller =>
                  simp only [innermost] at head
                  rw [name, head.1, head.2]
                  simp only [Bool.true_and, Node.ofEvent]
                  split
                  · exact .stopped rfl
                  · exact next
            · simp only [pure, Except.pure, if_neg fits, ok_bind]
              exact .stopped rfl

/-- Every event of an accepted list is at the level of its depth in the nesting. -/
theorem level_of_located_ofEvents {events : List Event}
    (accepted : OpenPath.check [] 0 events = .ok ()) :
    ∀ place ∈ (Forest.ofEvents events).located [], place.2.level = place.1.length - 1 := by
  rw [Forest.located_ofEvents accepted, List.forall_mem_map]
  intro call member
  obtain ⟨depth, level, length⟩ :=
    Call.length_path_of_mem_after accepted OpenPath.surrounds_nil member
  rw [length]
  show call.event.level.toInt = _
  omega

/-- Following a list lays out its nesting, or refuses it as following its open events does. -/
theorem follow_lays (events : List Event) :
    Matches Eq (fun raw _ => raw.Represents ⟨.root, .ofEvents events⟩)
      (empty.follow [rootId] 0 events) (OpenPath.follow [] 0 events) := by
  have opens : empty.Opens [rootId] [] := .root Nat.zero_lt_one rfl rfl
  refine (follow_matches opens .nil 0 events).imp (fun _ _ _ _ => id)
    fun raw _ _ followed planted => ?_
  have accepted : OpenPath.check [] 0 events = .ok () := by
    rw [OpenPath.follow_eq_check] at followed
    exact mapError_eq_ok_iff.1 followed
  have openRoot : empty.openAround ([] : CallPath).length [rootId] = [rootId] :=
    openAround_of_lt (by decide)
  obtain ⟨next, reached, walked, grows, _⟩ :=
    grows_of_plant (level_of_located_ofEvents accepted) (by decide) openRoot
  rw [Forest.preorder_ofEvents] at walked
  rw [planted, walked]
  exact ⟨_, grows.lays⟩

theorem Lays.markFrameThread {shape : Forest Nat} {tree : CallTree}
    (lays : arena.Lays shape tree) :
    Follows arena.markFrameThread tree.markFrameThread := by
  have flags : (shape.tops.any fun child => (arena.node child).frame) =
      tree.children.tops.any (·.frame) := by
    rw [← lays.below.map_tops, List.any_map]
    rfl
  have number : shape.tops.length = tree.children.tops.length := by
    rw [← lays.below.map_tops, List.length_map]
  rw [Arena.markFrameThread, CallTree.markFrameThread, lays.slot_root]
  simp only [flags, number]
  split
  · split
    · exact .stopped rfl
    · exact .done ⟨shape, lays.changeRoot rfl⟩
  · exact .done ⟨shape, lays⟩

/-- Building in an arena gives what building a tree gives, or refuses the same for the same
reason. -/
theorem build_follows (events : List Event) :
    Follows (build events) (CallTree.build events) := by
  have single : ∀ node ∈ (Forest.ofEvents events).preorder, node.isSingle = true := by
    rw [Forest.preorder_ofEvents, List.forall_mem_map]
    exact fun _ _ => rfl
  refine (follow_lays events).bind ?_
  rintro raw _ ⟨_, laysRaw⟩
  refine (laysRaw.mergeSiblingsStrict_of_single single).bind ?_
  rintro merged tree ⟨_, lays⟩
  refine (Matches.ofFault lays.withRootTotals).bind fun totalled other laysTotalled => ?_
  exact laysTotalled.markFrameThread.mapError _

end Arena

end CallProfiler
