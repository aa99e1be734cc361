import CallProfiler.Proofs.CallTree.Invariant
import CallProfiler.Proofs.CallTree.Settling

/-!
# Ranked statistics

Statistics are the totals of each name, and their order is a ranking: by exclusive time, longest
first, then by elapsed time, shortest first, and where both are equal by the first occurrence of
the name. That last rule is nowhere in the comparison, it is what a stable sort makes of totals
collected in preorder. The entry of the whole thread stands behind all others.
`statistics_ranked` says so, and that names above themselves are all that keeps a tree from
having statistics while its sums fit.
-/

namespace CallProfiler

open scoped List

/-! ## Ties -/

section Ties

variable {α : Type} {le : α → α → Bool}

/-- Sorting keeps the order of those that may stand either way. -/
theorem pairwise_mergeSort_stable (trans : ∀ a b c, le a b → le b c → le a c)
    (total : ∀ a b, le a b || le b a) (values : List α) :
    (values.mergeSort le).Pairwise fun first second =>
      le first second = true ∧ (le second first = true → [first, second].Sublist values) := by
  rw [List.pairwise_iff_forall_sublist]
  intro first second sub
  have ordered := List.pairwise_iff_forall_sublist.1 (List.pairwise_mergeSort trans total values) sub
  refine ⟨ordered, fun tied => ?_⟩
  -- all that tie with the first are in the order in which they came
  let ties := fun value => le first value && le value first
  have reflexive : le first first = true := by simpa using total first first
  have inOrder : (values.filter ties).Pairwise fun left right => le left right = true := by
    refine List.pairwise_of_forall_mem_list fun left inLeft right inRight => ?_
    have below := (Bool.and_eq_true_iff.1 (List.mem_filter.1 inLeft).2).2
    have above := (Bool.and_eq_true_iff.1 (List.mem_filter.1 inRight).2).1
    exact trans _ _ _ below above
  have kept := (List.sublist_mergeSort trans total inOrder List.filter_sublist).filter ties
  have sameLength := ((List.mergeSort_perm values le).filter ties).length_eq
  rw [List.filter_filter] at kept
  simp only [Bool.and_self] at kept
  have both := sub.filter ties
  rw [← kept.eq_of_length sameLength.symm] at both
  have pair : [first, second].filter ties = [first, second] := by
    simp [ties, reflexive, ordered, tied]
  rw [pair] at both
  exact both.trans List.filter_sublist

end Ties

namespace FunctionStat

/-! ## The ranking -/

/-- An entry stands before another, by exclusive time, elapsed time and the place of its name. -/
def Outranks (names : List String) (left right : FunctionStat) : Prop :=
  right.exclusive < left.exclusive ∨ left.exclusive = right.exclusive ∧
    (left.realtime < right.realtime ∨ left.realtime = right.realtime ∧
      names.idxOf left.name < names.idxOf right.name)

instance (names : List String) (left right : FunctionStat) :
    Decidable (Outranks names left right) :=
  inferInstanceAs (Decidable (_ ∨ _ ∧ (_ ∨ _ ∧ _)))

/-- When an entry may stand before another. -/
theorem rankedBefore_iff {left right : FunctionStat} :
    left.rankedBefore right = true ↔
      left.isThreadTotal = false ∧ right.isThreadTotal = true ∨
        left.isThreadTotal = right.isThreadTotal ∧ (right.exclusive < left.exclusive ∨
          left.exclusive = right.exclusive ∧ left.realtime ≤ right.realtime) := by
  by_cases kind : left.isThreadTotal = right.isThreadTotal
  · by_cases time : left.exclusive = right.exclusive
    · simp [rankedBefore, kind, time]
    · simp [rankedBefore, kind, time]
  · have apart := Bool.eq_not_of_ne kind
    cases thread : right.isThreadTotal <;> simp_all [rankedBefore]

theorem rankedBefore_trans (first second third : FunctionStat)
    (head : first.rankedBefore second = true) (tail : second.rankedBefore third = true) :
    first.rankedBefore third = true := by
  rw [rankedBefore_iff] at head tail ⊢
  grind

theorem rankedBefore_total (left right : FunctionStat) :
    (left.rankedBefore right || right.rankedBefore left) = true := by
  rw [Bool.or_eq_true, rankedBefore_iff, rankedBefore_iff]
  grind

/-- Of two entries of calls the one that stands first outranks the other, if ties stand in the
order of their names. -/
theorem outranks_of_rankedBefore {names : List String} {left right : FunctionStat}
    (sameKind : left.isThreadTotal = right.isThreadTotal)
    (before : left.rankedBefore right = true)
    (inOrder : right.rankedBefore left = true →
      names.idxOf left.name < names.idxOf right.name) : Outranks names left right := by
  rw [rankedBefore_iff] at before inOrder
  rw [Outranks]
  rcases before with ⟨isCall, isThread⟩ | ⟨_, longer | ⟨sameTime, noLonger⟩⟩
  · rw [sameKind, isThread] at isCall
    cases isCall
  · exact .inl longer
  · refine .inr ⟨sameTime, ?_⟩
    rcases Nat.lt_or_eq_of_le noLonger with shorter | sameRealtime
    · exact .inl shorter
    · exact .inr ⟨sameRealtime,
        inOrder (.inr ⟨sameKind.symm, .inr ⟨sameTime.symm, Nat.le_of_eq sameRealtime.symm⟩⟩)⟩

/-- Totals that stand in the order of their names are ranked by sorting them. -/
theorem pairwise_sorted {totals rows : List FunctionStat} (summarizes : Summarizes totals rows) :
    (totals.mergeSort rankedBefore).Pairwise fun left right =>
      left.rankedBefore right = true ∧ (left.isThreadTotal = right.isThreadTotal →
        Outranks (rows.map (·.name)) left right) := by
  refine (pairwise_mergeSort_stable rankedBefore_trans rankedBefore_total totals).imp ?_
  rintro left right ⟨before, stable⟩
  refine ⟨before, fun sameKind => outranks_of_rankedBefore sameKind before fun tied => ?_⟩
  have names := (stable tied).map (·.name)
  rw [summarizes.names] at names
  exact FirstOccurrences.idxOf_lt_of_sublist_eraseDups names

end FunctionStat

namespace CallTree

variable {tree : CallTree} {stats : List FunctionStat}

/-! ## Trees that have statistics -/

/-- No node has the name of a node above it, the root included. -/
def NamesakeFree (tree : CallTree) : Prop :=
  ∀ entry ∈ tree.whole.ancestry [], ∀ outer ∈ entry.2, outer.name ≠ entry.1.name

instance (tree : CallTree) : Decidable tree.NamesakeFree :=
  inferInstanceAs (Decidable
    (∀ entry ∈ tree.whole.ancestry [], ∀ outer ∈ entry.2, outer.name ≠ entry.1.name))

theorem checkRecursion_eq_ok_iff : tree.checkRecursion = .ok () ↔ tree.NamesakeFree := by
  have search : tree.recursiveName? = none ↔ tree.NamesakeFree := by
    simp [recursiveName?, NamesakeFree, List.find?_eq_none]
  rw [← search, checkRecursion]
  cases tree.recursiveName? <;> simp

/-- The root is one level below zero, and no call is. -/
structure Leveled (tree : CallTree) : Prop where
  root : tree.root.level = -1
  calls : ∀ node ∈ tree.children.preorder, 0 ≤ node.level

theorem Sound.leveled (sound : tree.Sound) : tree.Leveled where
  root := sound.rootLevel
  calls := by
    have levels := sound.level_of_mem_entries
    rw [whole, Forest.entries, Forest.entries, List.append_nil, List.forall_mem_cons] at levels
    refine Forest.level_le_of_mem_preorder (fun top listed => ?_) levels.2
    rw [levels.1 top listed, sound.rootLevel]
    omega

/-- The entry of the root's name is the one below level zero, where the root is. -/
theorem Leveled.minLevel (leveled : tree.Leveled) {stat : FunctionStat}
    (total : stat.IsTotal (tree.whole.rows.filter (·.name = stat.name))) :
    (stat.name = tree.root.name → stat.minLevel = -1) ∧
      (stat.isThreadTotal = true ↔ stat.name = tree.root.name) := by
  have callRows : ∀ row ∈ tree.children.rows, 0 ≤ row.minLevel := by
    intro row member
    have level : row.minLevel ∈ tree.children.rows.map (·.minLevel) := List.mem_map_of_mem member
    rw [Forest.map_rows fun _ _ => rfl] at level
    obtain ⟨node, inTree, same⟩ := List.mem_map.1 level
    exact same ▸ leveled.calls node inTree
  rw [rows_whole] at total
  have ofRoot (same : stat.name = tree.root.name) : stat.minLevel = -1 := by
    have isRoot : (FunctionStat.alone tree.root tree.children).name = stat.name := same.symm
    rw [List.filter_cons_of_pos (by simpa using isRoot)] at total
    have most := (total.minLevel stat.minLevel).1 (Int.le_refl _) _ List.mem_cons_self
    have least := (total.minLevel (-1)).2 fun row member => by
      rcases List.mem_cons.1 member with rfl | inCalls
      · exact Int.le_of_eq leveled.root.symm
      · exact Int.le_trans (by decide) (callRows row (List.mem_of_mem_filter inCalls))
    exact Int.le_antisymm (Int.le_trans most (Int.le_of_eq leveled.root)) least
  refine ⟨ofRoot, fun below => ?_, fun same => decide_eq_true (by rw [ofRoot same]; decide)⟩
  by_contra other
  have isCall : (FunctionStat.alone tree.root tree.children).name ≠ stat.name := Ne.symm other
  rw [List.filter_cons_of_neg (by simpa using isCall)] at total
  have least := (total.minLevel 0).2 fun row member => callRows row (List.mem_of_mem_filter member)
  exact absurd (of_decide_eq_true below) (Int.not_lt.2 least)

/-! ## Ranked statistics -/

/-- What the statistics of a tree are. -/
structure Ranks (tree : CallTree) (stats : List FunctionStat) : Prop where
  /-- Every name has one entry. -/
  names : stats.map (·.name) ~ (tree.preorder.map (·.name)).eraseDups
  totals : ∀ stat ∈ stats, stat.IsTotal (tree.whole.rows.filter (·.name = stat.name))
  /-- The entry of the root comes last, and of the others each outranks those behind it. -/
  order : ∃ calls thread, stats = calls ++ [thread] ∧
    thread.name = tree.root.name ∧ thread.minLevel = -1 ∧
    calls.Pairwise (FunctionStat.Outranks (tree.preorder.map (·.name)))

/-- The entry of the root's name is the only one below level zero, so ranked entries end with
it. -/
theorem Leveled.thread_last (leveled : tree.Leveled)
    (names : stats.map (·.name) ~ (tree.preorder.map (·.name)).eraseDups)
    (totals : ∀ stat ∈ stats, stat.IsTotal (tree.whole.rows.filter (·.name = stat.name)))
    (ranked : stats.Pairwise fun left right => left.rankedBefore right = true) :
    ∃ calls thread, stats = calls ++ [thread] ∧ thread.name = tree.root.name ∧
      ∀ stat ∈ calls, stat.isThreadTotal = false := by
  obtain ⟨thread, inStats, threadName⟩ : ∃ thread ∈ stats, thread.name = tree.root.name := by
    have named : tree.root.name ∈ stats.map (·.name) := by
      rw [names.mem_iff, List.mem_eraseDups]
      exact List.mem_map_of_mem List.mem_cons_self
    exact List.mem_map.1 named
  have isThread := (leveled.minLevel (totals thread inStats)).2.2 threadName
  have distinct : (stats.map (·.name)).Nodup :=
    names.nodup_iff.2 (FirstOccurrences.nodup_eraseDups _)
  obtain ⟨calls, behind, rfl⟩ := List.append_of_mem inStats
  rw [List.map_append, List.map_cons] at distinct
  have apart := (List.nodup_cons.1 (List.nodup_middle.1 distinct)).1
  rw [← List.map_append] at apart
  have ofCall (stat : FunctionStat) (member : stat ∈ calls ++ behind) :
      stat.isThreadTotal = false := by
    rw [← Bool.not_eq_true]
    intro below
    have inAll : stat ∈ calls ++ thread :: behind := by
      rcases List.mem_append.1 member with before | after
      · exact List.mem_append_left _ before
      · exact List.mem_append_right _ (List.mem_cons_of_mem _ after)
    have rootName := (leveled.minLevel (totals stat inAll)).2.1 below
    exact apart (threadName.trans rootName.symm ▸ List.mem_map_of_mem member)
  -- Nothing stands behind the entry of the thread.
  obtain rfl : behind = [] := by
    rw [List.eq_nil_iff_forall_not_mem]
    intro stat member
    have before := (List.pairwise_cons.1 (List.pairwise_append.1 ranked).2.1).1 stat member
    rw [FunctionStat.rankedBefore_iff, isThread,
      ofCall stat (List.mem_append_right _ member)] at before
    simp at before
  exact ⟨calls, thread, rfl, threadName, fun stat member => ofCall stat (by simpa using member)⟩

theorem Leveled.ranks (leveled : tree.Leveled) (done : tree.statistics = .ok stats) :
    tree.Ranks stats := by
  have names := names_of_statistics done
  obtain ⟨_, totals, summarizes, rfl⟩ := exists_totals_of_statistics done
  have rowNames : tree.whole.rows.map (·.name) = tree.preorder.map (·.name) :=
    Forest.map_rows (fun _ _ => rfl) tree.whole
  have perm := List.mergeSort_perm totals FunctionStat.rankedBefore
  have sorted := FunctionStat.pairwise_sorted summarizes
  generalize totals.mergeSort FunctionStat.rankedBefore = stats at perm sorted names ⊢
  have isTotal (stat : FunctionStat) (member : stat ∈ stats) :
      stat.IsTotal (tree.whole.rows.filter (·.name = stat.name)) :=
    summarizes.total stat (perm.mem_iff.1 member)
  refine ⟨names, isTotal, ?_⟩
  obtain ⟨calls, thread, rfl, threadName, ofCall⟩ :=
    leveled.thread_last names isTotal (sorted.imp fun ranked => ranked.1)
  have ofThread := leveled.minLevel (isTotal thread (by simp))
  refine ⟨calls, thread, rfl, threadName, ofThread.1 threadName, ?_⟩
  rw [← rowNames]
  refine (List.pairwise_append.1 sorted).1.imp_of_mem fun inLeft inRight ranked => ranked.2 ?_
  rw [ofCall _ inLeft, ofCall _ inRight]

/-- A tree has statistics just where no name is above itself, unless a sum leaves its width.
They are the totals of its names, ranked, with the entry of the whole thread behind all others. -/
theorem statistics_ranked (leveled : tree.Leveled) :
    (tree.statistics = .error (.fault .addOverflow) ∨
        ((∃ stats, tree.statistics = .ok stats) ↔ tree.NamesakeFree)) ∧
      (tree.TotalsFit → tree.statistics ≠ .error (.fault .addOverflow)) ∧
      ∀ stats, tree.statistics = .ok stats → tree.Ranks stats := by
  refine ⟨?_, fun fit => fit.completes_statistics _, fun stats done => leveled.ranks done⟩
  by_cases overflows : tree.statistics = .error (.fault .addOverflow)
  · exact .inl overflows
  · refine .inr ⟨?_, fun free => ?_⟩
    · rintro ⟨stats, done⟩
      exact checkRecursion_eq_ok_iff.1 (statistics_eq_ok done).1
    · have passed := checkRecursion_eq_ok_iff.2 free
      exact (statistics_of_checkRecursion passed).resolve_right overflows

/-- Three calls of one exclusive time, two of them of one elapsed time. -/
def tiedCalls : List Event :=
  [.plain "load" 0 0 10, .plain "draw" 0 10 30, .plain "blit" 1 10 20, .plain "parse" 0 30 50]

theorem statistics_ranked_tiedCalls :
    ∃ tree, build tiedCalls = .ok tree ∧ tree.Leveled ∧ tree.NamesakeFree ∧
      ∃ stats, tree.statistics = .ok stats ∧ tree.Ranks stats := by
  obtain ⟨tree, built, free, times, rows⟩ : ∃ tree, build tiedCalls = .ok tree ∧
      tree.NamesakeFree ∧ (∀ entry ∈ tree.whole.entries, entry.2.time < Width.bound 64) ∧
      FunctionStat.RowsFit tree.whole.rows :=
    ⟨_, rfl, by decide, by decide, by constructor <;> decide⟩
  have leveled := (sound_of_build built).leveled
  obtain ⟨ends, completes, ranks⟩ := statistics_ranked leveled
  have fit := completes ⟨times, fun name => rows.sublist List.filter_sublist⟩
  obtain ⟨stats, done⟩ := (ends.resolve_left fit).2 free
  exact ⟨tree, built, leveled, free, stats, done, ranks stats done⟩

end CallTree

end CallProfiler
