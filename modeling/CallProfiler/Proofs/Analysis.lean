import CallProfiler.Analysis
import CallProfiler.Proofs.CallTree.Refusals
import CallProfiler.Proofs.CallTree.Statistics

/-!
# The analysis of a thread

What a profile says about the events that it was made from. Every event passes through nesting,
merging, mitigation, collapsing and summing up by name; `analyzeThread_accounts` says that none
gets lost or is counted twice on the way.
-/

namespace CallProfiler

/-- A profile accounts for every event. Entries of recursive functions have the CPU time of
their outermost calls only. -/
structure ThreadProfile.Accounts (profile : ThreadProfile) (events : List Event) : Prop where
  eventCount : ∀ total, profile.eventCount = .ok total ↔
    total = events.length ∧ events.length < Width.bound 64
  threadTotal : ∃ thread, profile.stats.filter (·.isThreadTotal) = [thread]
  names : ((profile.stats.filter (!·.isThreadTotal)).map (·.name)).Perm
    (events.map (·.name)).eraseDups
  count : ∀ stat ∈ profile.stats.filter (!·.isThreadTotal),
    stat.count = (events.filter (·.name = stat.name)).length
  cpu : ∀ stat ∈ profile.stats.filter (!·.isThreadTotal),
    stat.cpu = (((Call.ofEvents events).filter fun call =>
      call.event.name = stat.name ∧ ¬ call.path.isRecursive).map (·.event.cpu.toNat)).sum
  counts : ((profile.stats.filter (!·.isThreadTotal)).map (·.count)).sum = events.length

section Analysis

variable {id : UInt32} {events : List Event} {calibration : Calibration} {mitigate : Bool}

/-- With mitigation or without, the same is done to the full tree. -/
theorem analyzeThread_eq :
    analyzeThread id events calibration mitigate = (do
      let tree ← CallTree.build events
      let full ← (if mitigate then Stop.ofFault (tree.mitigated calibration) else .ok tree)
      let collapsed ← Stop.ofFault full.collapseRecursion
      let stats ← collapsed.statistics
      return { id, full, collapsed, stats }) := by
  cases mitigate <;> rfl

/-- Every part of a profile is what its stage made of the one before. -/
theorem stages_of_analyzeThread {profile : ThreadProfile}
    (done : analyzeThread id events calibration mitigate = .ok profile) :
    profile.id = id ∧ ∃ tree, CallTree.build events = .ok tree ∧
      (if mitigate then tree.mitigated calibration else .ok tree) = .ok profile.full ∧
      profile.full.collapseRecursion = .ok profile.collapsed ∧
      profile.collapsed.statistics = .ok profile.stats := by
  rw [analyzeThread_eq] at done
  obtain ⟨tree, built, done⟩ := bind_eq_ok_iff.1 done
  obtain ⟨full, mitigating, done⟩ := bind_eq_ok_iff.1 done
  obtain ⟨collapsed, collapsing, done⟩ := bind_eq_ok_iff.1 done
  obtain ⟨stats, summing, done⟩ := bind_eq_ok_iff.1 done
  cases done
  refine ⟨rfl, tree, built, ?_, Stop.ofFault_eq_ok_iff.1 collapsing, summing⟩
  cases mitigate with
  | false =>
      cases mitigating
      rfl
  | true => exact Stop.ofFault_eq_ok_iff.1 mitigating

/-- What a thread's events went through. -/
theorem analyzeThread_eq_ok {profile : ThreadProfile}
    (done : analyzeThread id events calibration mitigate = .ok profile) :
    ∃ tree, CallTree.build events = .ok tree ∧ tree.Retimed profile.full ∧
      profile.full.collapseRecursion = .ok profile.collapsed ∧
      profile.collapsed.statistics = .ok profile.stats := by
  obtain ⟨_, tree, built, mitigating, collapsing, summing⟩ := stages_of_analyzeThread done
  refine ⟨tree, built, ?_, collapsing, summing⟩
  split at mitigating
  · exact CallTree.retimed_of_mitigated mitigating
  · cases mitigating
    exact .refl _

/-- An analysis whose trees came to be ends as its statistics do. -/
theorem analyzeThread_of_stages {tree full collapsed : CallTree}
    (built : CallTree.build events = .ok tree)
    (mitigating : (if mitigate then tree.mitigated calibration else .ok tree) = .ok full)
    (collapsing : full.collapseRecursion = .ok collapsed) :
    analyzeThread id events calibration mitigate =
      collapsed.statistics.map fun stats => { id, full, collapsed, stats } := by
  have staged : analyzeThread id events calibration mitigate = (do
      let tree ← CallTree.build events
      let full ← Stop.ofFault (if mitigate then tree.mitigated calibration else .ok tree)
      let collapsed ← Stop.ofFault full.collapseRecursion
      let stats ← collapsed.statistics
      return { id, full, collapsed, stats }) := by
    cases mitigate <;> rfl
  rw [staged, built, ok_bind, mitigating, Stop.ofFault, ok_bind, collapsing, Stop.ofFault, ok_bind]
  cases collapsed.statistics <;> rfl

/-- A full tree has a call for every event. -/
theorem CallTree.sum_counts_of_build {tree full : CallTree} (built : build events = .ok tree)
    (retimed : Retimed tree full) :
    (full.children.preorder.map (·.count)).sum = events.length := by
  have counts (forest : Forest Node) : forest.preorder.map (·.count) =
      ((forest.located []).map fun place => (place.1, place.2.untimed)).map (·.2.count) := by
    rw [← Forest.map_snd_located [], List.map_map, List.map_map]
    rfl
  have covered : ∀ call ∈ Call.ofEvents events,
      call.path ∈ (tree.children.located []).map (·.1) := fun call member =>
    (mem_paths_of_build built call.path).2 (List.mem_map_of_mem member)
  have byPath := sum_by_key (distinct_of_build built).nodup_paths Call.path (fun _ => 1) covered
  have length : ((Call.ofEvents events).map fun _ => 1).sum = events.length := by
    have sameLength := congrArg List.length (Call.map_event_ofEvents events)
    rw [List.length_map] at sameLength
    simp [sameLength]
  rw [counts, retimed.places, ← counts, ← length, ← byPath, ← Forest.map_snd_located [],
    List.map_map, List.map_map]
  apply congrArg List.sum
  apply List.map_congr_left
  intro place member
  have along := quantity_of_build built Node.adds_count member
  rw [Function.comp_apply, along, Call.along, List.map_map]
  rfl

/-- The parts of a thread's statistics: an entry of the whole thread, and one for each name that
adds up the nodes of that name. -/
theorem exists_parts_of_collapse {tree full collapsed : CallTree} {stats : List FunctionStat}
    (built : CallTree.build events = .ok tree) (retimed : tree.Retimed full)
    (collapsing : full.collapseRecursion = .ok collapsed)
    (summing : collapsed.statistics = .ok stats) :
    ∃ thread calls, stats.filter (·.isThreadTotal) = [thread] ∧
      (stats.filter (!·.isThreadTotal)).Perm calls ∧
      (calls.map (·.name)).Perm (events.map (·.name)).eraseDups ∧
      ∀ stat ∈ calls,
        stat.IsTotal (collapsed.children.rows.filter (·.name = stat.name)) := by
  have trie := CallTree.isReducedTrie_of_retimed built retimed collapsing
  have root := CallTree.root_of_collapse collapsing
  have rootLevel : collapsed.root.level < 0 := by
    rw [root, retimed.level, (CallTree.build_eq_ok built).2.2.2.2]
    decide
  have levels : ∀ node ∈ collapsed.children.preorder, 0 ≤ node.level := by
    intro node member
    rw [← Forest.map_snd_located []] at member
    obtain ⟨place, inTree, rfl⟩ := List.mem_map.1 member
    have named := Forest.dropLast_concat_of_mem_located inTree
    rw [trie.places.level place inTree, named, List.length_append, List.length_singleton]
    omega
  have fresh : collapsed.root.name ∉ collapsed.children.preorder.map (·.name) := by
    rw [trie.mem_names, root, retimed.name, CallTree.name_of_build built]
    rcases CallTree.checkRecursion_of_collapse built retimed collapsing with
      ⟨_, failed⟩ | ⟨unnamed, _⟩
    · have passed := (CallTree.statistics_eq_ok summing).1
      rw [failed] at passed
      cases passed
    · exact unnamed
  obtain ⟨thread, calls, perm, isThread, names, ofCalls⟩ :=
    CallTree.exists_parts_of_statistics summing rootLevel levels fresh
  have noThread : calls.filter (·.isThreadTotal) = [] :=
    List.filter_eq_nil_iff.2 fun stat member => by simp [(ofCalls stat member).1]
  have allCalls : calls.filter (!·.isThreadTotal) = calls :=
    List.filter_eq_self.2 fun stat member => by simp [(ofCalls stat member).1]
  refine ⟨thread, calls, ?_, ?_, ?_, fun stat member => (ofCalls stat member).2⟩
  · have whole := perm.filter (·.isThreadTotal)
    rw [List.filter_cons_of_pos isThread, noThread] at whole
    exact List.perm_singleton.1 whole
  · have rest := perm.filter (!·.isThreadTotal)
    rwa [List.filter_cons_of_neg (by simp [isThread]), allCalls] at rest
  · rw [names]
    refine (List.perm_ext_iff_of_nodup (FirstOccurrences.nodup_eraseDups _)
      (FirstOccurrences.nodup_eraseDups _)).2 fun name => ?_
    rw [List.mem_eraseDups, List.mem_eraseDups, trie.mem_names]

/-- The calls of a name are as many as its events. -/
theorem Call.length_filter_name (events : List Event) (name : String) :
    ((Call.ofEvents events).filter (·.event.name = name)).length =
      (events.filter (·.name = name)).length := by
  have sameEvents := congrArg (fun events => (events.filter (·.name = name)).length)
    (Call.map_event_ofEvents events)
  rw [← sameEvents, List.filter_map, List.length_map]
  rfl

/-- Every event is accounted for, with mitigation or without. -/
theorem analyzeThread_accounts {profile : ThreadProfile}
    (done : analyzeThread id events calibration mitigate = .ok profile) :
    profile.Accounts events := by
  obtain ⟨tree, built, retimed, collapsing, summing⟩ := analyzeThread_eq_ok done
  have trie := CallTree.isReducedTrie_of_retimed built retimed collapsing
  obtain ⟨thread, calls, whole, perm, names, totals⟩ :=
    exists_parts_of_collapse built retimed collapsing summing
  have count : ∀ stat ∈ calls, stat.count = (events.filter (·.name = stat.name)).length := by
    intro stat member
    rw [(totals stat member).count, Forest.sum_rows_named fun _ _ => rfl,
      @CallTree.IsReducedTrie.sum_named _ _ trie (·.count) (fun _ => 1)
        (fun place inTree => by simpa using trie.count place inTree),
      ← Call.length_filter_name]
    simp
  have cpu : ∀ stat ∈ calls, stat.cpu = (((Call.ofEvents events).filter fun call =>
      call.event.name = stat.name ∧ ¬ call.path.isRecursive).map (·.event.cpu.toNat)).sum := by
    intro stat member
    rw [(totals stat member).cpu, Forest.sum_rows_named fun _ _ => rfl, sum_map_filter_and]
    refine @CallTree.IsReducedTrie.sum_named _ _ trie (·.cpu) _ (fun place inTree => ?_) stat.name
    rw [trie.cpu place inTree, sum_map_filter_and]
  constructor
  case eventCount =>
    intro total
    rw [ThreadProfile.eventCount, Checked.sum_eq_ok_iff, Checked.total_eq_sum,
      CallTree.sum_counts_of_build built retimed]
    exact and_comm
  case threadTotal => exact ⟨thread, whole⟩
  case names => exact (perm.map _).trans names
  case count => exact fun stat member => count stat (perm.mem_iff.1 member)
  case cpu => exact fun stat member => cpu stat (perm.mem_iff.1 member)
  case counts =>
    have covered : ∀ event ∈ events, event.name ∈ (events.map (·.name)).eraseDups :=
      fun event member => List.mem_eraseDups.2 (List.mem_map_of_mem member)
    have byName := sum_by_key (FirstOccurrences.nodup_eraseDups _) Event.name (fun _ => 1) covered
    calc ((profile.stats.filter (!·.isThreadTotal)).map (·.count)).sum
        = (calls.map (·.count)).sum := (perm.map _).sum_nat
      _ = ((calls.map (·.name)).map fun name => (events.filter (·.name = name)).length).sum := by
          rw [List.map_map]
          exact congrArg List.sum (List.map_congr_left count)
      _ = ((events.map (·.name)).eraseDups.map fun name =>
            (events.filter (·.name = name)).length).sum := (names.map _).sum_nat
      _ = events.length := by simpa using byName

end Analysis

/-- Recursion of two functions through each other, mitigated. -/
theorem analyzeThread_accounts_intertwined :
    ∃ profile, analyzeThread 7 CallTree.intertwined ⟨100, 200, 300⟩ true = .ok profile ∧
      profile.Accounts CallTree.intertwined :=
  ⟨_, rfl, @analyzeThread_accounts 7 CallTree.intertwined ⟨100, 200, 300⟩ true _ rfl⟩

end CallProfiler
