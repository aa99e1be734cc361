import CallProfiler.CallTree.Statistics
import CallProfiler.Proofs.CallTree.Collapsing
import CallProfiler.Proofs.CallTree.Coverage

/-!
# Statistics of call trees

Statistics refuse a tree in which a name occurs above itself, and otherwise have one entry for
each name. `Summarizes` says what such an entry adds up. A collapsed tree has no recursion left
among its calls, but the check also looks at the root: `statistics_of_collapse` says that a call
that bears the root's name is refused, and that nothing else is.
-/

namespace CallProfiler

namespace FunctionStat

/-! ## Totals -/

/-- An entry adds up others. -/
structure IsTotal (stat : FunctionStat) (rows : List FunctionStat) : Prop where
  realtime : stat.realtime = (rows.map (·.realtime)).sum
  cpu : stat.cpu = (rows.map (·.cpu)).sum
  childrenRealtime : stat.childrenRealtime = (rows.map (·.childrenRealtime)).sum
  count : stat.count = (rows.map (·.count)).sum
  recursions : stat.recursions = (rows.map (·.recursions)).sum
  /-- No other level lies between this one and those of the rows. -/
  minLevel : ∀ bound, bound ≤ stat.minLevel ↔ ∀ row ∈ rows, bound ≤ row.minLevel
  processClock : stat.processClock = rows.any (·.processClock)

theorem isTotal_singleton (stat : FunctionStat) : stat.IsTotal [stat] := by
  constructor <;> simp

theorem add_eq_ok {stat other total : FunctionStat} (done : stat.add other = .ok total) :
    total = {
      name := stat.name
      minLevel := min stat.minLevel other.minLevel
      realtime := stat.realtime + other.realtime
      cpu := stat.cpu + other.cpu
      childrenRealtime := stat.childrenRealtime + other.childrenRealtime
      count := stat.count + other.count
      recursions := stat.recursions + other.recursions
      processClock := stat.processClock || other.processClock } := by
  obtain ⟨realtime, sumRealtime, done⟩ := bind_eq_ok_iff.1 done
  obtain ⟨cpu, sumCpu, done⟩ := bind_eq_ok_iff.1 done
  obtain ⟨childrenRealtime, sumChildren, done⟩ := bind_eq_ok_iff.1 done
  obtain ⟨count, sumCount, done⟩ := bind_eq_ok_iff.1 done
  obtain ⟨recursions, sumRecursions, done⟩ := bind_eq_ok_iff.1 done
  cases done
  rw [(Checked.add_eq_ok_iff.1 sumRealtime).2, (Checked.add_eq_ok_iff.1 sumCpu).2,
    (Checked.add_eq_ok_iff.1 sumChildren).2, (Checked.add_eq_ok_iff.1 sumCount).2,
    (Checked.add_eq_ok_iff.1 sumRecursions).2]

theorem IsTotal.add {stat other total : FunctionStat} {rows : List FunctionStat}
    (isTotal : stat.IsTotal rows) (done : stat.add other = .ok total) :
    total.IsTotal (rows ++ [other]) := by
  rw [add_eq_ok done]
  constructor
  case realtime => simp [isTotal.realtime]
  case cpu => simp [isTotal.cpu]
  case childrenRealtime => simp [isTotal.childrenRealtime]
  case count => simp [isTotal.count]
  case recursions => simp [isTotal.recursions]
  case minLevel =>
    intro bound
    rw [Int.le_min, isTotal.minLevel, List.forall_mem_append, List.forall_mem_singleton]
  case processClock => simp [isTotal.processClock]

/-- A list has one entry for each name of others, in the order in which these first occur, and
it adds up those of its name. -/
structure Summarizes (stats rows : List FunctionStat) : Prop where
  names : stats.map (·.name) = (rows.map (·.name)).eraseDups
  total : ∀ stat ∈ stats, stat.IsTotal (rows.filter (·.name = stat.name))

/-- An entry is collected into the first of its name, or behind all others. -/
theorem collect_eq_ok {row : FunctionStat} {stats next : List FunctionStat}
    (done : row.collect stats = .ok next) :
    (∃ before held after total, stats = before ++ held :: after ∧ held.name = row.name ∧
        held.add row = .ok total ∧ next = before ++ total :: after) ∨
      ((∀ held ∈ stats, held.name ≠ row.name) ∧ next = stats ++ [row]) := by
  induction stats generalizing next with
  | nil =>
      cases done
      exact .inr ⟨by simp, rfl⟩
  | cons held rest inductionHypothesis =>
      rw [collect] at done
      split at done
      · rename_i namesake
        obtain ⟨total, added, done⟩ := bind_eq_ok_iff.1 done
        cases done
        exact .inl ⟨[], held, rest, total, rfl, namesake, added, rfl⟩
      · rename_i other
        obtain ⟨grown, collected, done⟩ := bind_eq_ok_iff.1 done
        cases done
        rcases inductionHypothesis collected with
          ⟨before, found, after, total, rfl, namesake, added, rfl⟩ | ⟨absent, rfl⟩
        · exact .inl ⟨held :: before, found, after, total, rfl, namesake, added, rfl⟩
        · exact .inr ⟨List.forall_mem_cons.2 ⟨other, absent⟩, rfl⟩

theorem Summarizes.nodup {stats rows : List FunctionStat} (summarizes : Summarizes stats rows) :
    (stats.map (·.name)).Nodup := by
  rw [summarizes.names]
  exact FirstOccurrences.nodup_eraseDups _

/-- An entry of another name stays what it is. -/
theorem Summarizes.total_of_ne {stats rows : List FunctionStat} {row : FunctionStat}
    (summarizes : Summarizes stats rows) {stat : FunctionStat} (member : stat ∈ stats)
    (other : stat.name ≠ row.name) :
    stat.IsTotal ((rows ++ [row]).filter (·.name = stat.name)) := by
  have skipped : [row].filter (·.name = stat.name) = [] := by
    simpa using fun same : row.name = stat.name => other same.symm
  rw [List.filter_append, skipped, List.append_nil]
  exact summarizes.total stat member

/-- An entry of a known name is added to the one that has it. -/
theorem Summarizes.absorb {before after rows : List FunctionStat} {held row total : FunctionStat}
    (summarizes : Summarizes (before ++ held :: after) rows) (namesake : held.name = row.name)
    (added : held.add row = .ok total) :
    Summarizes (before ++ total :: after) (rows ++ [row]) := by
  have keepsName : total.name = held.name := by rw [add_eq_ok added]
  have apart : ∀ stat ∈ before ++ after, stat.name ≠ held.name := by
    have distinct := summarizes.nodup
    rw [List.map_append, List.map_cons] at distinct
    have fresh := (List.nodup_cons.1 (List.nodup_middle.1 distinct)).1
    intro stat member same
    rw [← List.map_append] at fresh
    exact fresh (same ▸ List.mem_map_of_mem member)
  constructor
  case names =>
    have known : row.name ∈ rows.map (·.name) := by
      rw [← List.mem_eraseDups, ← summarizes.names, ← namesake]
      simp
    have dropped := @FirstOccurrences.eraseDups_append_cons_of_mem _ _ _ _ [] _ known
    rw [List.append_nil] at dropped
    have sameNames : (before ++ total :: after).map (·.name) =
        (before ++ held :: after).map (·.name) := by
      simp [keepsName]
    rw [sameNames, summarizes.names, List.map_append]
    exact dropped.symm
  case total =>
    intro stat member
    rw [List.mem_append, List.mem_cons] at member
    have others (beside : stat ∈ before ++ after) :
        stat.IsTotal ((rows ++ [row]).filter (·.name = stat.name)) := by
      refine summarizes.total_of_ne ?_ (namesake ▸ apart stat beside)
      rcases List.mem_append.1 beside with inBefore | inAfter
      · exact List.mem_append_left _ inBefore
      · exact List.mem_append_right _ (List.mem_cons_of_mem held inAfter)
    rcases member with inBefore | rfl | inAfter
    · exact others (List.mem_append_left _ inBefore)
    · have whole := (summarizes.total held (by simp)).add added
      rw [List.filter_append, keepsName]
      simpa [namesake] using whole
    · exact others (List.mem_append_right _ inAfter)

/-- An entry of a new name comes last and stands for itself. -/
theorem Summarizes.concat {stats rows : List FunctionStat} {row : FunctionStat}
    (summarizes : Summarizes stats rows) (absent : ∀ held ∈ stats, held.name ≠ row.name) :
    Summarizes (stats ++ [row]) (rows ++ [row]) := by
  have fresh : row.name ∉ rows.map (·.name) := by
    rw [← List.mem_eraseDups, ← summarizes.names]
    intro named
    obtain ⟨held, member, same⟩ := List.mem_map.1 named
    exact absent held member same
  constructor
  case names =>
    rw [List.map_append, List.map_append, summarizes.names]
    exact (FirstOccurrences.eraseDups_concat_of_not_mem fresh).symm
  case total =>
    intro stat member
    rcases List.mem_append.1 member with old | new
    · exact summarizes.total_of_ne old (absent stat old)
    · obtain rfl := List.mem_singleton.1 new
      have noneBefore : rows.filter (·.name = stat.name) = [] := by
        rw [List.filter_eq_nil_iff]
        intro other inRows same
        exact fresh (of_decide_eq_true same ▸ List.mem_map_of_mem inRows)
      rw [List.filter_append, noneBefore]
      simpa using isTotal_singleton stat

/-- Collecting an entry adds it to what is summed up. -/
theorem Summarizes.collect {stats rows next : List FunctionStat} {row : FunctionStat}
    (summarizes : Summarizes stats rows) (done : row.collect stats = .ok next) :
    Summarizes next (rows ++ [row]) := by
  rcases collect_eq_ok done with ⟨before, held, after, total, rfl, namesake, added, rfl⟩ |
    ⟨absent, rfl⟩
  · exact summarizes.absorb namesake added
  · exact summarizes.concat absent

/-- The totals of one node, without regard to any width. -/
def alone (node : Node) (children : Forest Node) : FunctionStat where
  name := node.name
  minLevel := node.level
  realtime := node.realtime
  cpu := node.cpu
  childrenRealtime := children.time
  count := node.count
  recursions := node.recursions
  processClock := node.processClock

theorem ofNode_eq_ok {node : Node} {children : Forest Node} {stat : FunctionStat}
    (done : ofNode node children = .ok stat) : stat = alone node children := by
  obtain ⟨time, sum, done⟩ := bind_eq_ok_iff.1 done
  cases done
  rw [alone, ← Forest.realtime_eq_ok sum]

end FunctionStat

namespace Forest

/-- The totals of every node by itself, in preorder. -/
def rows (forest : Forest Node) : List FunctionStat :=
  forest.entries.map fun entry => FunctionStat.alone entry.1 entry.2

theorem map_rows {β : Type} {observe : FunctionStat → β} {quantity : Node → β}
    (ofNode : ∀ node children, observe (FunctionStat.alone node children) = quantity node)
    (forest : Forest Node) : forest.rows.map observe = forest.preorder.map quantity := by
  rw [rows, ← map_fst_entries, List.map_map, List.map_map]
  exact List.map_congr_left fun entry _ => ofNode entry.1 entry.2

/-- What rows of a name add up to is what the nodes of that name do. -/
theorem sum_rows_named {observe : FunctionStat → Nat} {quantity : Node → Nat}
    (ofNode : ∀ node children, observe (FunctionStat.alone node children) = quantity node)
    (forest : Forest Node) (name : String) :
    ((forest.rows.filter (·.name = name)).map observe).sum =
      ((forest.preorder.filter (·.name = name)).map quantity).sum := by
  rw [rows, ← map_fst_entries, List.filter_map, List.filter_map, List.map_map, List.map_map]
  apply congrArg List.sum
  exact List.map_congr_left fun entry _ => ofNode entry.1 entry.2

/-! ## Names above a node -/

/-- The names above a node and its own make up its path. -/
theorem map_ancestry (above : List Node) (forest : Forest Node) :
    (forest.ancestry above).map (fun entry =>
        ((entry.2.map (·.name)).reverse ++ [entry.1.name], entry.1)) =
      forest.located (above.map (·.name)).reverse := by
  induction forest generalizing above with
  | nil => rfl
  | node label children siblings childrenHypothesis siblingsHypothesis =>
      have inside := childrenHypothesis (label :: above)
      rw [List.map_cons, List.reverse_cons] at inside
      rw [ancestry, located, List.map_cons, List.map_append, inside, siblingsHypothesis]

/-- A forest below a longer path has its places below that path. -/
theorem located_cons (name : String) (above : CallPath) (forest : Forest Node) :
    forest.located (name :: above) =
      (forest.located above).map fun place => (name :: place.1, place.2) := by
  induction forest generalizing above with
  | nil => rfl
  | node label children siblings childrenHypothesis siblingsHypothesis =>
      rw [located, located, List.map_cons, List.map_append, ← childrenHypothesis,
        ← siblingsHypothesis]
      rfl

end Forest

namespace CallTree

/-- The first name that occurs above itself, by the paths from the root. -/
theorem recursiveName?_eq (tree : CallTree) :
    tree.recursiveName? =
      ((tree.children.located [tree.root.name]).find? fun place =>
        CallPath.isRecursive place.1).map (·.2.name) := by
  have whole : tree.whole.located [] =
      ([tree.root.name], tree.root) :: tree.children.located [tree.root.name] := by
    simp [CallTree.whole, Forest.located]
  have places := Forest.map_ancestry [] tree.whole
  rw [List.map_nil, List.reverse_nil, whole] at places
  have found := congrArg (List.find? fun place => CallPath.isRecursive place.1) places
  have rootPasses : (([tree.root.name], tree.root) :: tree.children.located [tree.root.name]).find?
        (fun place => CallPath.isRecursive place.1) =
      (tree.children.located [tree.root.name]).find? fun place =>
        CallPath.isRecursive place.1 := rfl
  rw [rootPasses, List.find?_map] at found
  rw [← found, Option.map_map, recursiveName?]
  have sameTest : (fun entry : Node × List Node => entry.2.any (·.name == entry.1.name)) =
      (fun place : CallPath × Node => CallPath.isRecursive place.1) ∘ fun entry =>
        ((entry.2.map (·.name)).reverse ++ [entry.1.name], entry.1) := by
    funext entry
    simp [List.any_eq]
  rw [← sameTest]
  rfl

/-- Where no call path names a function twice, only the root's name can be above itself. -/
theorem checkRecursion_of_nodup {tree : CallTree}
    (distinct : ∀ place ∈ tree.children.located [], place.1.Nodup) :
    (tree.root.name ∈ tree.children.preorder.map (·.name) ∧
        tree.checkRecursion = .error (.recursionDetected tree.root.name)) ∨
      (tree.root.name ∉ tree.children.preorder.map (·.name) ∧ tree.checkRecursion = .ok ()) := by
  have repeats : ∀ place ∈ tree.children.located [],
      CallPath.isRecursive (tree.root.name :: place.1) = true ↔ place.2.name = tree.root.name := by
    intro place member
    have path := Forest.dropLast_concat_of_mem_located member
    have distinctPath := distinct place member
    rw [path] at distinctPath ⊢
    exact CallPath.isRecursive_cons_concat distinctPath
  rw [checkRecursion, recursiveName?_eq, Forest.located_cons, List.find?_map, Option.map_map,
    ← Forest.map_snd_located [], List.map_map]
  cases found : (tree.children.located []).find?
    ((fun place => CallPath.isRecursive place.1) ∘ fun place => (tree.root.name :: place.1, place.2))
    with
  | some place =>
      have member := List.mem_of_find?_eq_some found
      have recursive := List.find?_some found
      have same := (repeats place member).1 recursive
      refine .inl ⟨List.mem_map.2 ⟨place, member, same⟩, ?_⟩
      rw [Option.map_some, Function.comp_apply, same]
  | none =>
      refine .inr ⟨fun named => ?_, rfl⟩
      obtain ⟨place, member, same⟩ := List.mem_map.1 named
      exact List.find?_eq_none.1 found place member ((repeats place member).2 same)

/-! ## Totals by name -/

/-- The totals of a tree have one entry for each of its names. -/
theorem summarizes_totalsByName {tree : CallTree} {stats : List FunctionStat}
    (done : tree.totalsByName = .ok stats) : FunctionStat.Summarizes stats tree.whole.rows := by
  have collected (entries : List (Node × Forest Node)) (first last before : List FunctionStat)
      (start : FunctionStat.Summarizes first before)
      (collecting : entries.foldlM (fun stats entry => do
        let stat ← FunctionStat.ofNode entry.1 entry.2
        stat.collect stats) first = .ok last) :
      FunctionStat.Summarizes last
        (before ++ entries.map fun entry => FunctionStat.alone entry.1 entry.2) := by
    induction entries generalizing first before with
    | nil =>
        cases collecting
        simpa using start
    | cons entry rest inductionHypothesis =>
        rw [List.foldlM_cons] at collecting
        obtain ⟨next, step, following⟩ := bind_eq_ok_iff.1 collecting
        obtain ⟨row, single, added⟩ := bind_eq_ok_iff.1 step
        rw [FunctionStat.ofNode_eq_ok single] at added
        have whole := inductionHypothesis next _ (start.collect added) following
        simpa using whole
  have empty : FunctionStat.Summarizes [] [] := ⟨rfl, by simp⟩
  exact collected tree.whole.entries [] stats [] empty done

open Checked (Overflows)

theorem overflows_add (stat other : FunctionStat) : Overflows (stat.add other) := by
  refine (Overflows.add _ _ _).bind fun realtime => ?_
  refine (Overflows.add _ _ _).bind fun cpu => ?_
  refine (Overflows.add _ _ _).bind fun childrenRealtime => ?_
  refine (Overflows.add _ _ _).bind fun count => ?_
  exact (Overflows.add _ _ _).bind fun recursions => .ok _

theorem overflows_collect (row : FunctionStat) (stats : List FunctionStat) :
    Overflows (row.collect stats) := by
  induction stats with
  | nil => exact .ok _
  | cons held rest inductionHypothesis =>
      rw [FunctionStat.collect]
      split
      · exact (overflows_add _ _).bind fun total => .ok _
      · exact inductionHypothesis.bind fun rest => .ok _

/-- Adding up fails only by a sum that leaves its width. -/
theorem overflows_totalsByName (tree : CallTree) : Overflows tree.totalsByName := by
  refine Overflows.foldlM (fun stats entry => ?_) _ _
  refine Overflows.bind ?_ fun row => overflows_collect row stats
  exact (Overflows.sum _ _).bind fun time => .ok _

/-- Statistics are the totals by name of a tree that passed the check, sorted. -/
theorem exists_totals_of_statistics {tree : CallTree} {stats : List FunctionStat}
    (done : tree.statistics = .ok stats) :
    tree.checkRecursion = .ok () ∧
      ∃ totals, FunctionStat.Summarizes totals tree.whole.rows ∧
        stats = totals.mergeSort FunctionStat.rankedBefore := by
  obtain ⟨_, checked, done⟩ := bind_eq_ok_iff.1 done
  obtain ⟨totals, added, done⟩ := bind_eq_ok_iff.1 done
  cases done
  exact ⟨mapError_eq_ok_iff.1 checked, totals,
    summarizes_totalsByName (Stop.ofFault_eq_ok_iff.1 added), rfl⟩

/-- Statistics are the totals by name of a tree that passed the check, in another order. -/
theorem statistics_eq_ok {tree : CallTree} {stats : List FunctionStat}
    (done : tree.statistics = .ok stats) :
    tree.checkRecursion = .ok () ∧
      ∃ totals, FunctionStat.Summarizes totals tree.whole.rows ∧ stats.Perm totals := by
  obtain ⟨checked, totals, summarizes, rfl⟩ := exists_totals_of_statistics done
  exact ⟨checked, totals, summarizes, List.mergeSort_perm _ _⟩

/-- Statistics have one entry for each name. -/
theorem names_of_statistics {tree : CallTree} {stats : List FunctionStat}
    (done : tree.statistics = .ok stats) :
    (stats.map (·.name)).Perm (tree.preorder.map (·.name)).eraseDups := by
  obtain ⟨_, totals, summarizes, perm⟩ := statistics_eq_ok done
  have rowNames : tree.whole.rows.map (·.name) = tree.preorder.map (·.name) :=
    Forest.map_rows (fun _ _ => rfl) tree.whole
  rw [← rowNames, ← summarizes.names]
  exact perm.map _

/-- A tree that passes the check has statistics, unless a sum leaves its width. -/
theorem statistics_of_checkRecursion {tree : CallTree} (passed : tree.checkRecursion = .ok ()) :
    (∃ stats, tree.statistics = .ok stats) ∨ tree.statistics = .error (.fault .addOverflow) := by
  rw [statistics, passed]
  cases totals : tree.totalsByName with
  | ok stats => exact .inl ⟨_, rfl⟩
  | error reached =>
      obtain rfl := overflows_totalsByName tree reached totals
      exact .inr rfl

theorem statistics_of_recursionDetected {tree : CallTree} {reason : AnalysisError}
    (failed : tree.checkRecursion = .error reason) :
    tree.statistics = .error (.refused reason) := by
  rw [statistics, failed]
  rfl

theorem rows_whole (tree : CallTree) :
    tree.whole.rows = .alone tree.root tree.children :: tree.children.rows := by
  simp [Forest.rows, whole, Forest.entries]

/-- The parts of statistics in which no call bears the root's name: an entry of the whole thread
and one for each name of a call. -/
theorem exists_parts_of_statistics {tree : CallTree} {stats : List FunctionStat}
    (done : tree.statistics = .ok stats) (rootLevel : tree.root.level < 0)
    (levels : ∀ node ∈ tree.children.preorder, 0 ≤ node.level)
    (fresh : tree.root.name ∉ tree.children.preorder.map (·.name)) :
    ∃ thread calls, stats.Perm (thread :: calls) ∧ thread.isThreadTotal = true ∧
      calls.map (·.name) = (tree.children.preorder.map (·.name)).eraseDups ∧
      ∀ stat ∈ calls, stat.isThreadTotal = false ∧
        stat.IsTotal (tree.children.rows.filter (·.name = stat.name)) := by
  obtain ⟨_, totals, summarizes, perm⟩ := statistics_eq_ok done
  have rows := tree.rows_whole
  have names := summarizes.names
  have apart : (tree.children.preorder.map (·.name)).filter (!· == tree.root.name) =
      tree.children.preorder.map (·.name) := by
    refine List.filter_eq_self.2 fun name member => ?_
    simpa using fun same : name = tree.root.name => fresh (same ▸ member)
  have rootName : (FunctionStat.alone tree.root tree.children).name = tree.root.name := rfl
  rw [rows, List.map_cons, Forest.map_rows fun _ _ => rfl, List.eraseDups_cons, rootName,
    apart] at names
  obtain ⟨thread, calls, rfl, threadName, callNames⟩ := List.map_eq_cons_iff.1 names
  refine ⟨thread, calls, perm, ?_, callNames, ?_⟩
  · have total := summarizes.total thread List.mem_cons_self
    have least := (total.minLevel thread.minLevel).1 (Int.le_refl _)
      (.alone tree.root tree.children) (by simp [rows, rootName, threadName])
    exact decide_eq_true (Int.lt_of_le_of_lt least rootLevel)
  · intro stat member
    have total := summarizes.total stat (List.mem_cons_of_mem thread member)
    have ofCall : stat.name ∈ tree.children.preorder.map (·.name) := by
      rw [← List.mem_eraseDups, ← callNames]
      exact List.mem_map_of_mem member
    have other : tree.root.name ≠ stat.name := fun same => fresh (same ▸ ofCall)
    rw [rows, List.filter_cons_of_neg (by simpa [rootName] using other)] at total
    refine ⟨decide_eq_false ?_, total⟩
    have least := (total.minLevel 0).2 fun row inRows => by
      have level : row.minLevel ∈ tree.children.rows.map (·.minLevel) :=
        List.mem_map_of_mem (List.mem_of_mem_filter inRows)
      rw [Forest.map_rows fun _ _ => rfl] at level
      obtain ⟨node, inTree, same⟩ := List.mem_map.1 level
      exact same ▸ levels node inTree
    exact Int.not_lt.2 least

/-! ## Statistics of collapsed trees -/

/-- A node bears the name of the calls whose paths reduce to its place. -/
theorem name_eq_of_reduced {tree : CallTree} {events : List Event} {place : CallPath × Node}
    {call : Call} (inTree : place ∈ tree.children.located []) (inCalls : call ∈ Call.ofEvents events)
    (path : call.path.reduced = place.1) : call.event.name = place.2.name := by
  have ofCall := Call.getLast?_reduced inCalls
  rw [path, Forest.getLast?_of_mem_located inTree] at ofCall
  exact (Option.some.inj ofCall).symm

/-- The names in a collapsed tree are those of the events. -/
theorem IsReducedTrie.mem_names {tree : CallTree} {events : List Event}
    (trie : tree.IsReducedTrie events) (name : String) :
    name ∈ tree.children.preorder.map (·.name) ↔ name ∈ events.map (·.name) := by
  rw [← Forest.map_snd_located [], List.map_map, ← Call.map_event_ofEvents events, List.map_map]
  constructor
  · intro named
    obtain ⟨place, member, rfl⟩ := List.mem_map.1 named
    obtain ⟨call, inCalls, path⟩ :=
      List.mem_map.1 ((trie.places.mem_iff place.1).1 (List.mem_map_of_mem member))
    exact List.mem_map.2 ⟨call, inCalls, name_eq_of_reduced member inCalls path⟩
  · intro named
    obtain ⟨call, inCalls, rfl⟩ := List.mem_map.1 named
    obtain ⟨place, member, path⟩ :=
      List.mem_map.1 ((trie.places.mem_iff call.path.reduced).2 (List.mem_map_of_mem inCalls))
    exact List.mem_map.2 ⟨place, member, (name_eq_of_reduced member inCalls path.symm).symm⟩

/-- What belongs to the calls of a name is found in the nodes of that name. -/
theorem IsReducedTrie.sum_named {tree : CallTree} {events : List Event}
    (trie : tree.IsReducedTrie events) {quantity : Node → Nat} {amount : Call → Nat}
    (each : ∀ place ∈ tree.children.located [], quantity place.2 =
      (((Call.ofEvents events).filter fun call => call.path.reduced = place.1).map amount).sum)
    (name : String) :
    ((tree.children.preorder.filter (·.name = name)).map quantity).sum =
      (((Call.ofEvents events).filter (·.event.name = name)).map amount).sum := by
  have distinct : (((tree.children.located []).filter (·.2.name = name)).map (·.1)).Nodup :=
    trie.places.distinct.sublist (List.filter_sublist.map _)
  have covered : ∀ call ∈ (Call.ofEvents events).filter (·.event.name = name),
      call.path.reduced ∈ ((tree.children.located []).filter (·.2.name = name)).map (·.1) := by
    intro call member
    obtain ⟨inCalls, named⟩ := List.mem_filter.1 member
    obtain ⟨place, inTree, path⟩ :=
      List.mem_map.1 ((trie.places.mem_iff call.path.reduced).2 (List.mem_map_of_mem inCalls))
    have sameName := name_eq_of_reduced inTree inCalls path.symm
    refine List.mem_map.2 ⟨place, List.mem_filter.2 ⟨inTree, ?_⟩, path⟩
    rwa [← sameName]
  rw [← sum_by_key distinct (·.path.reduced) amount covered, ← Forest.map_snd_located [],
    List.filter_map, List.map_map, List.map_map]
  apply congrArg List.sum
  apply List.map_congr_left
  intro place member
  obtain ⟨inTree, named⟩ := List.mem_filter.1 member
  rw [Function.comp_apply, Function.comp_apply, each place inTree, List.filter_filter]
  congr 2
  apply List.filter_congr
  intro call inCalls
  rw [← Bool.decide_and, decide_eq_decide]
  refine (and_iff_left_of_imp fun path => ?_).symm
  exact (name_eq_of_reduced inTree inCalls path).trans (of_decide_eq_true named)

/-- A collapsed tree passes the check just where no call bears the root's name. -/
theorem checkRecursion_of_collapse {events : List Event} {tree full collapsed : CallTree}
    (built : build events = .ok tree) (retimed : Retimed tree full)
    (done : full.collapseRecursion = .ok collapsed) :
    (Node.rootName ∈ events.map (·.name) ∧
        collapsed.checkRecursion = .error (.recursionDetected Node.rootName)) ∨
      (Node.rootName ∉ events.map (·.name) ∧ collapsed.checkRecursion = .ok ()) := by
  have trie := isReducedTrie_of_retimed built retimed done
  have distinct : ∀ place ∈ collapsed.children.located [], place.1.Nodup := by
    intro place member
    obtain ⟨call, _, path⟩ :=
      List.mem_map.1 ((trie.places.mem_iff place.1).1 (List.mem_map_of_mem member))
    rw [← path]
    exact CallPath.nodup_reduced call.path
  have rootName : collapsed.root.name = Node.rootName := by
    rw [root_of_collapse done, retimed.name, name_of_build built]
  have checked := checkRecursion_of_nodup distinct
  rwa [rootName, trie.mem_names] at checked

/-- Collapsing makes a tree fit for statistics, mitigated or not, unless a call bears the
root's name. Such a call is taken for recursion of the root, which no collapsing removes. -/
theorem statistics_of_collapse {events : List Event} {tree full collapsed : CallTree}
    (built : build events = .ok tree)
    (mitigated : full = tree ∨ ∃ calibration, tree.mitigated calibration = .ok full)
    (done : full.collapseRecursion = .ok collapsed) :
    (Node.rootName ∈ events.map (·.name) ∧
        collapsed.statistics = .error (.refused (.recursionDetected Node.rootName))) ∨
      (Node.rootName ∉ events.map (·.name) ∧
        ((∃ stats, collapsed.statistics = .ok stats) ∨
          collapsed.statistics = .error (.fault .addOverflow))) := by
  have retimed : Retimed tree full := by
    rcases mitigated with rfl | ⟨calibration, mitigatedOk⟩
    · exact .refl full
    · exact retimed_of_mitigated mitigatedOk
  rcases checkRecursion_of_collapse built retimed done with ⟨named, failed⟩ | ⟨unnamed, passed⟩
  · exact .inl ⟨named, statistics_of_recursionDetected failed⟩
  · exact .inr ⟨unnamed, statistics_of_checkRecursion passed⟩

theorem statistics_of_collapse_intertwined :
    ∃ tree full collapsed, build intertwined = .ok tree ∧
      tree.mitigated ⟨100, 200, 300⟩ = .ok full ∧ full.collapseRecursion = .ok collapsed ∧
      Node.rootName ∉ intertwined.map (·.name) ∧
      ((∃ stats, collapsed.statistics = .ok stats) ∨
        collapsed.statistics = .error (.fault .addOverflow)) :=
  ⟨_, _, _, rfl, rfl, rfl,
    (@statistics_of_collapse intertwined _ _ _ rfl (.inr ⟨⟨100, 200, 300⟩, rfl⟩) rfl).resolve_left
      fun refused => absurd refused.1 (by decide)⟩

/-- A call that bears the root's name. -/
def namedLikeRoot : List Event := [.plain "<root>" 0 0 10]

/-- Nothing is recursive here, and yet there are no statistics. -/
theorem statistics_namedLikeRoot :
    ∃ tree, build namedLikeRoot = .ok tree ∧ Forest.isRecursive [] tree.children = false ∧
      tree.collapseRecursion = .ok tree ∧
      tree.statistics = .error (.refused (.recursionDetected "<root>")) :=
  ⟨_, rfl, rfl, rfl, rfl⟩

end CallTree

end CallProfiler
