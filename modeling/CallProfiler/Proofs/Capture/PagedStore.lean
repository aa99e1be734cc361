import CallProfiler.Capture.PagedStore
import Mathlib.Data.List.Basic

/-!
# Pages as one list

A store behaves as the list of the items stored in it. `Holds` says how its pages make up that
list: page after page, each the window of the list that belongs to it. One theorem for each
operation says what it does to the list, so nothing that uses a store looks at its pages.
-/

namespace CallProfiler.Capture.PagedStore

variable {α : Type}

/-- The part of a list that is on one page. -/
def window (size number : Nat) (items : List α) : List α := (items.drop (number * size)).take size

/-- The store was not drained and holds these items, in the order in which they were stored. -/
structure Holds (store : PagedStore α) (items : List α) : Prop where
  live : store.drained = false
  length : store.length = items.length
  room : items.length ≤ store.pages.size * store.pageSize
  window : ∀ number page, store.pages[number]? = some page →
    page.toList = window store.pageSize number items

theorem pageSize_pos (store : PagedStore α) : 0 < store.pageSize := Width.bound_pos _

/-- Pages keep their size. -/
theorem pageBits_of_alloc {store grown : PagedStore α} {entry : α}
    (done : store.alloc entry = .ok grown) : grown.pageBits = store.pageBits := by
  rw [PagedStore.alloc] at done
  split at done
  · cases done
  · cases done
    rfl

theorem pageBits_of_reserve {store grown : PagedStore α} {count : Nat}
    (done : store.reserve count = .ok grown) : grown.pageBits = store.pageBits := by
  rw [PagedStore.reserve] at done
  split at done
  · cases done
  · split at done
    · cases done
      rfl
    · match slots : Checked.add 64 (count - store.freeSlots) store.pageSize with
      | .error reached =>
          rw [slots] at done
          cases done
      | .ok total =>
          rw [slots] at done
          cases done
          rfl

/-! ## Windows of a list -/

/-- All windows together are the list, as far as they reach. -/
theorem flatMap_window (size count : Nat) (items : List α) :
    (List.range count).flatMap (window size · items) = items.take (count * size) := by
  induction count with
  | zero => simp
  | succ count inductionHypothesis =>
      rw [List.range_succ, List.flatMap_append, inductionHypothesis, List.flatMap_singleton,
        Nat.succ_mul, List.take_add, window]

theorem getElem?_window {size : Nat} (positive : 0 < size) (index : Nat) (items : List α) :
    (window size (index / size) items)[index % size]? = items[index]? := by
  rw [window, List.getElem?_take_of_lt (Nat.mod_lt index positive), List.getElem?_drop,
    Nat.div_add_mod']

theorem window_of_length_le {size number : Nat} {items : List α}
    (beyond : items.length ≤ number * size) : window size number items = [] := by
  rw [window, List.drop_eq_nil_of_le beyond, List.take_nil]

/-- A new last item is on the page that its index says, and on no other. -/
theorem window_concat {size : Nat} (positive : 0 < size) (number : Nat) (items : List α)
    (entry : α) :
    window size number (items ++ [entry]) =
      if number = items.length / size then window size number items ++ [entry]
      else window size number items := by
  have whole := Nat.div_add_mod' items.length size
  have rest := Nat.mod_lt items.length positive
  rcases Nat.lt_trichotomy number (items.length / size) with before | rfl | behind
  · have full : (number + 1) * size ≤ items.length :=
      (Nat.le_div_iff_mul_le positive).1 before
    rw [Nat.succ_mul] at full
    rw [if_neg (Nat.ne_of_lt before), window, List.drop_append_of_le_length (by omega),
      List.take_append_of_le_length (by rw [List.length_drop]; omega), window]
  · rw [if_pos rfl, window, List.drop_append_of_le_length (by omega), List.take_append, window]
    congr 1
    exact List.take_of_length_le (by rw [List.length_drop, List.length_singleton]; omega)
  · have empty : items.length < number * size := (Nat.div_lt_iff_lt_mul positive).1 behind
    rw [if_neg (Nat.ne_of_gt behind), window_of_length_le (Nat.le_of_lt empty),
      window_of_length_le (by rw [List.length_append]; exact empty)]

/-- Changing an item changes the page that its index says, and no other. -/
theorem window_modify {size : Nat} (positive : 0 < size) (number index : Nat) (items : List α)
    (change : α → α) :
    window size number (items.modify index change) =
      if number = index / size then (window size number items).modify (index % size) change
      else window size number items := by
  apply List.ext_getElem?
  intro slot
  by_cases within : slot < size
  · have inWindow (list : List α) :
        (window size number list)[slot]? = list[number * size + slot]? := by
      rw [window, List.getElem?_take_of_lt within, List.getElem?_drop]
    have reached : index = number * size + slot ↔ number = index / size ∧ index % size = slot := by
      have whole := Nat.div_add_mod' index size
      constructor
      · rintro rfl
        rw [Nat.add_comm, Nat.add_mul_div_right _ _ positive, Nat.div_eq_of_lt within,
          Nat.add_mul_mod_self_right, Nat.mod_eq_of_lt within]
        exact ⟨(Nat.zero_add _).symm, rfl⟩
      · rintro ⟨rfl, rfl⟩
        exact whole.symm
    rw [inWindow, List.getElem?_modify]
    by_cases page : number = index / size
    · rw [if_pos page, List.getElem?_modify, inWindow]
      simp [reached, ← page]
    · rw [if_neg page, inWindow]
      simp [reached, page]
  · have outside (list : List α) : (window size number list)[slot]? = none :=
      List.getElem?_eq_none (by rw [window, List.length_take]; omega)
    split
    · rw [outside, List.getElem?_modify, outside]
      rfl
    · rw [outside, outside]

namespace Holds

variable {store : PagedStore α} {items : List α}

/-! ## Operations -/

theorem new : (PagedStore.new : PagedStore α).Holds [] where
  live := rfl
  length := rfl
  room := Nat.zero_le _
  window number page found := by
    rw [window_of_length_le (Nat.zero_le _)]
    match number with
    | 0 => cases found; rfl
    | _ + 1 => cases found

theorem not_drained (holds : store.Holds items) : ¬ store.drained = true := by
  rw [holds.live]
  exact Bool.false_ne_true

/-- The page of an index exists if the index is one of an item. -/
theorem page_lt (holds : store.Holds items) {index : Nat} (inside : index < items.length) :
    index / store.pageSize < store.pages.size :=
  (Nat.div_lt_iff_lt_mul store.pageSize_pos).2 (Nat.lt_of_lt_of_le inside holds.room)

theorem get?_eq (holds : store.Holds items) (index : Nat) : store.get? index = items[index]? := by
  rw [get?]
  cases found : store.pages[index / store.pageSize]? with
  | none =>
      have beyond : store.pages.size ≤ index / store.pageSize := by simpa using found
      have outside : items.length ≤ index :=
        Nat.not_lt.1 fun inside => Nat.not_lt.2 beyond (holds.page_lt inside)
      rw [List.getElem?_eq_none outside]
      rfl
  | some page =>
      rw [← getElem?_window store.pageSize_pos, ← holds.window _ page found,
        Array.getElem?_toList]
      rfl

theorem toList_eq (holds : store.Holds items) : store.toList = items := by
  have inOrder : store.pages.toList.flatMap (·.toList) =
      (List.range store.pages.size).flatMap (PagedStore.window store.pageSize · items) := by
    have pages : store.pages.toList.map (·.toList) =
        (List.range store.pages.size).map (PagedStore.window store.pageSize · items) := by
      apply List.ext_getElem
      · simp
      · intro number inPages _
        simp only [List.length_map, Array.length_toList] at inPages
        simpa using holds.window number _ (Array.getElem?_eq_getElem inPages)
    rw [List.flatMap_def, pages, List.flatMap_def]
  rw [toList, inOrder, flatMap_window, List.take_of_length_le holds.room]

/-- Empty pages at the end change nothing. -/
theorem morePages (holds : store.Holds items) (count : Nat) :
    ({ store with pages := store.pages ++ Array.replicate count #[] } : PagedStore α).Holds
      items where
  live := holds.live
  length := holds.length
  room := by
    refine Nat.le_trans holds.room (Nat.mul_le_mul_right _ ?_)
    simp
  window number page found := by
    rw [Array.getElem?_append] at found
    split at found
    · exact holds.window number page found
    · rename_i behind
      obtain ⟨_, rfl⟩ : _ ∧ #[] = page := by
        simpa [Array.getElem?_replicate] using found
      have beyond : items.length ≤ number * store.pageSize :=
        Nat.le_trans holds.room (Nat.mul_le_mul_right _ (Nat.not_lt.1 behind))
      exact (window_of_length_le beyond).symm

/-- The page of the next item takes it. -/
theorem pushed (holds : store.Holds items) (entry : α)
    (made : items.length / store.pageSize < store.pages.size) :
    ({ store with
        pages := store.pages.modify (items.length / store.pageSize) (·.push entry)
        length := items.length + 1 } : PagedStore α).Holds (items ++ [entry]) where
  live := holds.live
  length := by simp
  room := by
    rw [List.length_append, Array.size_modify]
    exact (Nat.div_lt_iff_lt_mul store.pageSize_pos).1 made
  window number page found := by
    rw [Array.getElem?_modify] at found
    show page.toList = PagedStore.window store.pageSize number (items ++ [entry])
    rw [window_concat store.pageSize_pos]
    split at found
    · rename_i here
      obtain ⟨held, inStore, rfl⟩ := Option.map_eq_some_iff.1 found
      rw [if_pos here.symm, Array.toList_push, holds.window number held inStore]
    · rename_i elsewhere
      rw [if_neg (Ne.symm elsewhere)]
      exact holds.window number page found

/-- A store takes an item in behind the others. -/
theorem alloc (holds : store.Holds items) (entry : α) :
    ∃ grown, store.alloc entry = .ok grown ∧ grown.Holds (items ++ [entry]) := by
  rw [PagedStore.alloc, if_neg holds.not_drained, holds.length]
  refine ⟨_, rfl, ?_⟩
  split
  · rename_i full
    have further := holds.morePages 1
    rw [Array.replicate_one, ← Array.push_eq_append] at further
    exact further.pushed entry (by
      show items.length / store.pageSize < (store.pages.push #[]).size
      rw [full, Array.size_push]
      exact Nat.lt_succ_self _)
  · rename_i notFull
    have within : items.length / store.pageSize ≤ store.pages.size :=
      Nat.div_le_of_le_mul (Nat.mul_comm .. ▸ holds.room)
    exact holds.pushed entry (Nat.lt_of_le_of_ne within notFull)

/-- Making room changes no item. -/
theorem reserve (holds : store.Holds items) {count : Nat} {grown : PagedStore α}
    (done : store.reserve count = .ok grown) : grown.Holds items := by
  rw [PagedStore.reserve, if_neg holds.not_drained] at done
  split at done
  · cases done
    exact holds
  · match slots : Checked.add 64 (count - store.freeSlots) store.pageSize with
    | .error reached =>
        rw [slots] at done
        cases done
    | .ok total =>
        rw [slots] at done
        cases done
        exact holds.morePages _

/-- There is room for as many items as can be counted together with a page. -/
theorem exists_reserve (holds : store.Holds items) (count : Nat)
    (counted : count + store.pageSize < Width.bound 64) :
    ∃ grown, store.reserve count = .ok grown := by
  rw [PagedStore.reserve, if_neg holds.not_drained]
  split
  · exact ⟨_, rfl⟩
  · have slots : Checked.add 64 (count - store.freeSlots) store.pageSize =
        .ok (count - store.freeSlots + store.pageSize) :=
      Checked.add_eq_ok_iff.2 ⟨by omega, rfl⟩
    rw [slots]
    exact ⟨_, rfl⟩

/-- Changing the item at an index changes it in the list. -/
theorem modify (holds : store.Holds items) (index : Nat) (change : α → α) :
    (store.modify index change).Holds (items.modify index change) where
  live := holds.live
  length := by rw [List.length_modify]; exact holds.length
  room := by
    rw [List.length_modify]
    simpa [PagedStore.modify, pageSize] using holds.room
  window number page found := by
    rw [PagedStore.modify, Array.getElem?_modify] at found
    show page.toList = PagedStore.window store.pageSize number (items.modify index change)
    rw [window_modify store.pageSize_pos]
    split at found
    · rename_i here
      obtain ⟨held, inStore, rfl⟩ := Option.map_eq_some_iff.1 found
      rw [if_pos here.symm, Array.toList_modify, holds.window number held inStore]
    · rename_i elsewhere
      rw [if_neg (Ne.symm elsewhere)]
      exact holds.window number page found

/-- The first drain hands out all items. -/
theorem drain (holds : store.Holds items) : store.drain.2 = items := by
  rw [PagedStore.drain, if_neg holds.not_drained]
  exact holds.toList_eq

end Holds

end CallProfiler.Capture.PagedStore
