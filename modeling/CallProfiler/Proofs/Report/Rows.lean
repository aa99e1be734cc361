import CallProfiler.Proofs.CallTree.Labels
import CallProfiler.Proofs.Text.Numeral
import CallProfiler.Report
import Mathlib.Data.String.Basic

/-!
# What the rows of a report show

Every row of a report shows a name: the label of the thread, or what the root or some event is
called. An indentation and a count of recursive calls are put around it, which take no more
than `Row.frill` bytes, so the names of a log tell how wide its reports are.
-/

namespace CallProfiler.Report

open CallProfiler.Text

/-- The bytes of a text without letters beyond ASCII. -/
theorem utf8Len_eq_length {text : List Char} (ascii : ∀ letter ∈ text, letter.utf8Size = 1) :
    String.utf8Len text = text.length := by
  induction text with
  | nil => rfl
  | cons letter rest inductionHypothesis =>
      obtain ⟨own, others⟩ := List.forall_mem_cons.1 ascii
      rw [String.utf8Len_cons, inductionHypothesis others, own, List.length_cons]

theorem utf8Len_decimal (value : Nat) :
    String.utf8Len (decimal value) = (decimal value).length := by
  refine utf8Len_eq_length fun letter member => ?_
  have digit := isDigit_of_mem_decimal member
  simp only [Char.isDigit, Bool.and_eq_true, decide_eq_true_eq] at digit
  exact Char.utf8Size_eq_one_iff.2 (UInt32.le_trans digit.2 (by decide))

/-- A number of 32 bits has ten digits at most. -/
theorem length_decimal_le {value : Nat} (fits : value < Width.bound 32) :
    (decimal value).length ≤ 10 :=
  (Nat.length_toDigits_le_iff (by decide) (by decide)).2 (Nat.lt_trans fits (by decide))

namespace Row

/-- The bytes that a row's name takes. -/
def size (row : Row) : Nat := (String.ofList row.name).utf8ByteSize

/-- The most bytes that stand around a name: those of the deepest indentation, of two brackets
and a plus sign, and of ten digits. -/
def frill : Nat := 128 + 3 + 10

theorem size_displayName_le (name : String) (level : Int) {recursions : Nat}
    (fits : recursions < Width.bound 32) :
    (String.ofList (displayName name level recursions)).utf8ByteSize ≤
      name.utf8ByteSize + frill := by
  have indentation : String.utf8Len (List.replicate (indent level) ' ') = indent level := by
    rw [utf8Len_eq_length fun letter member => by rw [List.eq_of_mem_replicate member]; rfl,
      List.length_replicate]
  have own : String.utf8Len name.toList = name.utf8ByteSize := by
    rw [← String.utf8ByteSize_ofList, String.ofList_toList]
  have depth : indent level ≤ 128 := Nat.min_le_right _ _
  rw [String.utf8ByteSize_ofList, displayName, String.utf8Len_append, String.utf8Len_append,
    indentation, own, frill]
  split
  · have brackets : String.utf8Len (['[', '+'] ++ decimal recursions ++ [']']) =
        3 + (decimal recursions).length := by
      rw [String.utf8Len_append, String.utf8Len_append, utf8Len_decimal]
      have ends : String.utf8Len ['[', '+'] = 2 ∧ String.utf8Len [']'] = 1 := by decide
      omega
    have digits := length_decimal_le fits
    omega
  · have nothing : String.utf8Len [] = 0 := rfl
    omega

/-- A row takes no more bytes than one of these names with all that may stand around it. -/
def Shows (names : List String) (row : Row) : Prop :=
  ∃ name ∈ names, row.size ≤ name.utf8ByteSize + frill

theorem shows_ofNode {names : List String} {name : String} {node : Node}
    {children : Forest Node} {row : Row} (done : ofNode name node children = .ok row)
    (named : name ∈ names) (fits : node.recursions < Width.bound 32) : row.Shows names := by
  obtain ⟨time, _, done⟩ := bind_eq_ok_iff.1 done
  cases done
  exact ⟨name, named, size_displayName_le name node.level fits⟩

theorem shows_ofStat {names : List String} {stat : FunctionStat} (rank : Nat)
    (labelled : stat.Labelled names) : (ofStat rank stat).Shows names :=
  ⟨stat.name, labelled.1, size_displayName_le stat.name 0 labelled.2⟩

end Row

theorem size_threadLabel_le (id : UInt32) : (threadLabel id).utf8ByteSize ≤ 19 := by
  have number : (toString id).utf8ByteSize = (decimal id.toNat).length := by
    rw [← utf8Len_decimal, ← String.utf8ByteSize_ofList]
    rfl
  have digits := length_decimal_le id.toNat_lt
  have ends : (toString "<thread ").utf8ByteSize = 8 ∧ (toString ">").utf8ByteSize = 1 := by decide
  rw [threadLabel, String.utf8ByteSize_append, String.utf8ByteSize_append]
  omega

/-! ## The rows of a section -/

section Rows

variable {names : List String} {tree : CallTree} {label : String} {rows : List Row}

/-- The rows of a tree show its label and the names of its nodes. -/
theorem shows_treeRows (labelled : tree.Labelled names) (done : treeRows label tree = .ok rows) :
    ∀ row ∈ rows, row.Shows (label :: names) := by
  obtain ⟨ofRoot, ofChildren⟩ := CallTree.labelled_iff.1 labelled
  obtain ⟨root, first, done⟩ := bind_eq_ok_iff.1 done
  obtain ⟨nodes, others, done⟩ := bind_eq_ok_iff.1 done
  cases done
  refine List.forall_mem_cons.2 ⟨Row.shows_ofNode first List.mem_cons_self ofRoot.2, ?_⟩
  intro row member
  obtain ⟨entry, inTree, made⟩ := of_mem_mapM others member
  have node : entry.1 ∈ tree.children.preorder := by
    rw [← Forest.map_fst_entries]
    exact List.mem_map_of_mem inTree
  obtain ⟨named, fits⟩ := ofChildren entry.1 node
  exact Row.shows_ofNode made (List.mem_cons_of_mem label named) fits

theorem shows_statRows {stats : List FunctionStat}
    (labelled : ∀ stat ∈ stats, stat.Labelled names) :
    ∀ row ∈ statRows stats, row.Shows names := by
  intro row member
  obtain ⟨⟨stat, index⟩, inStats, rfl⟩ := List.mem_map.1 member
  have ranked : stat ∈ stats := List.fst_mem_of_mem_zipIdx inStats
  exact Row.shows_ofStat (index + 1) (labelled stat ranked)

theorem Row.Shows.mono {more : List String} {row : Row} (shows : row.Shows names)
    (subset : names ⊆ more) : row.Shows more :=
  shows.imp fun _ shown => ⟨subset shown.1, shown.2⟩

/-- The rows that a section has for a thread show its label and what its events are called. -/
theorem Section.shows_rows {choice : Section} {events : List Event} {calibration : Calibration}
    {mitigate : Bool} {id : UInt32} {profile : ThreadProfile}
    (analysed : analyzeThread id events calibration mitigate = .ok profile)
    (done : choice.rows profile = .ok rows) :
    ∀ row ∈ rows,
      row.Shows (threadLabel profile.id :: Node.rootName :: events.map (·.name)) := by
  obtain ⟨full, collapsed⟩ := derived_of_analyzeThread analysed
  obtain ⟨_, _, _, _, summing⟩ := analyzeThread_eq_ok analysed
  have stats := CallTree.labelled_statistics collapsed.labelled summing
  cases choice with
  | threadRoots =>
      obtain ⟨all, within, done⟩ := bind_eq_ok_iff.1 done
      cases done
      exact fun row member => shows_treeRows full.labelled within row (List.mem_of_mem_take member)
  | detailed => exact shows_treeRows full.labelled done
  | noRecursion => exact shows_treeRows collapsed.labelled done
  | functions =>
      cases done
      exact fun row member =>
        (shows_statRows stats row member).mono (List.subset_cons_self _ _)

/-- Where a row is wider than a column can be, some event has a name as wide, up to what stands
around names. -/
theorem exists_event_of_shows {id : UInt32} {events : List Event} {row : Row}
    (shows : row.Shows (threadLabel id :: Node.rootName :: events.map (·.name)))
    (wide : Width.bound 16 ≤ row.size) :
    ∃ event ∈ events, Width.bound 16 ≤ event.name.utf8ByteSize + Row.frill := by
  obtain ⟨name, named, size⟩ := shows
  have small : 19 + Row.frill < Width.bound 16 := by decide
  simp only [List.mem_cons, List.mem_map] at named
  rcases named with rfl | rfl | ⟨event, member, rfl⟩
  · have label := size_threadLabel_le id
    omega
  · have root : Node.rootName.utf8ByteSize = 6 := by decide
    omega
  · exact ⟨event, member, Nat.le_trans wide size⟩

end Rows

end CallProfiler.Report
