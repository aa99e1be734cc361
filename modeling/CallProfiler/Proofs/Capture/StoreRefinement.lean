import CallProfiler.Proofs.Capture.PagedStore
import CallProfiler.Proofs.Outcome

/-!
# Stores as lists

To its user a store is a list of items until it is drained, and closed from then on. `Contents`
says how such a list answers requests, with no word about pages. `run_refines` says that a store
gives the same answers to any requests in any order, whatever the size of its pages, and that its
slots add up at every moment.
-/

namespace CallProfiler.Capture

variable {α : Type}

/-- What may be asked of a store. -/
inductive Request (α : Type) where
  | alloc (entry : α)
  | reserve (count : Nat)
  | get (index : Nat)
  /-- Change an item in its place. -/
  | update (index : Nat) (change : α → α)
  | list
  | drain

/-- What a store answers. -/
inductive Reply (α : Type) where
  | index (index : Nat)
  | done
  /-- The item that a request reached, if it reached one. -/
  | item (found : Option α)
  | items (all : List α)
  | fault (reached : Fault)
deriving DecidableEq, Repr

namespace PagedStore

/-- The store after a request, and its answer. A request that faults changes nothing. -/
def serve (store : PagedStore α) : Request α → PagedStore α × Reply α
  | .alloc entry =>
    match store.alloc entry with
    | .ok grown => (grown, .index store.length)
    | .error reached => (store, .fault reached)
  | .reserve count =>
    match store.reserve count with
    | .ok grown => (grown, .done)
    | .error reached => (store, .fault reached)
  | .get index => (store, .item (store.get? index))
  | .update index change => (store.modify index change, .item (store.get? index))
  | .list => (store, .items store.toList)
  | .drain => (store.drain.1, .items store.drain.2)

/-- The store after some requests, and all answers, in order. -/
def run (store : PagedStore α) : List (Request α) → PagedStore α × List (Reply α)
  | [] => (store, [])
  | request :: later =>
    let (next, reply) := store.serve request
    let (last, replies) := next.run later
    (last, reply :: replies)

end PagedStore

/-- What a store is to its user. -/
inductive Contents (α : Type) where
  | live (items : List α)
  | drained

namespace Contents

/-- The items that can still be reached. -/
def items : Contents α → List α
  | .live items => items
  | .drained => []

/-- How a list of items answers a request, and what becomes of it. -/
def serve : Contents α → Request α → Contents α × Reply α
  | .live items, .alloc entry => (.live (items ++ [entry]), .index items.length)
  | .live items, .reserve _ => (.live items, .done)
  | .live items, .get index => (.live items, .item items[index]?)
  | .live items, .update index change => (.live (items.modify index change), .item items[index]?)
  | .live items, .list => (.live items, .items items)
  | .live items, .drain => (.drained, .items items)
  | .drained, .alloc _ => (.drained, .fault .allocAfterDrain)
  | .drained, .reserve _ => (.drained, .fault .reserveAfterDrain)
  | .drained, .get _ => (.drained, .item none)
  | .drained, .update _ _ => (.drained, .item none)
  | .drained, .list => (.drained, .items [])
  | .drained, .drain => (.drained, .items [])

/-- What becomes of the contents after some requests, and all answers, in order. -/
def run (contents : Contents α) : List (Request α) → Contents α × List (Reply α)
  | [] => (contents, [])
  | request :: later =>
    let (next, reply) := contents.serve request
    let (last, replies) := next.run later
    (last, reply :: replies)

end Contents

namespace PagedStore

/-- The store was drained: its pages are gone, and it takes nothing in. -/
structure Closed (store : PagedStore α) : Prop where
  drained : store.drained = true
  pages : store.pages = #[]
  length : store.length = 0

/-- The pages of a store make up its contents. -/
inductive Holding (store : PagedStore α) : Contents α → Prop where
  | live {items : List α} (holds : store.Holds items) : Holding store (.live items)
  | drained (closed : store.Closed) : Holding store .drained

/-- What a user can see of a store is what its contents say. -/
structure Shows (store : PagedStore α) (contents : Contents α) : Prop where
  length : store.length = contents.items.length
  get : ∀ index, store.get? index = contents.items[index]?
  list : store.toList = contents.items
  /-- Every slot of every page is either in use or free. -/
  slots : store.length + store.freeSlots = store.pageCount * store.pageSize

variable {store : PagedStore α} {contents : Contents α}

/-! ## Closed stores -/

theorem Closed.get? (closed : store.Closed) (index : Nat) : store.get? index = none := by
  rw [PagedStore.get?, closed.pages]
  rfl

theorem Closed.toList (closed : store.Closed) : store.toList = [] := by
  rw [PagedStore.toList, closed.pages]
  rfl

theorem Closed.drain (closed : store.Closed) : store.drain.1.Closed ∧ store.drain.2 = [] := by
  rw [PagedStore.drain, if_pos closed.drained]
  exact ⟨⟨closed.drained, closed.pages, rfl⟩, rfl⟩

theorem Closed.modify (closed : store.Closed) (index : Nat) (change : α → α) :
    (store.modify index change).Closed where
  drained := closed.drained
  pages := by
    rw [PagedStore.modify, closed.pages]
    simp
  length := closed.length

/-- A drained store is closed. -/
theorem Holds.closed_drain {items : List α} (holds : store.Holds items) : store.drain.1.Closed := by
  rw [PagedStore.drain, if_neg holds.not_drained]
  exact ⟨rfl, rfl, rfl⟩

/-- A store that is not closed fails to make room only where the slots cannot be counted. -/
theorem Holds.overflow_of_reserve {items : List α} (holds : store.Holds items) {count : Nat}
    {reached : Fault} (failed : store.reserve count = .error reached) : reached = .addOverflow := by
  rw [PagedStore.reserve, if_neg holds.not_drained] at failed
  split at failed
  · cases failed
  · cases slots : Checked.add 64 (count - store.freeSlots) store.pageSize with
    | ok total =>
        rw [slots] at failed
        cases failed
    | error cause =>
        rw [slots] at failed
        cases failed
        exact Checked.Overflows.add _ _ _ reached slots

/-! ## Requests -/

theorem Holding.shows (holding : store.Holding contents) : store.Shows contents := by
  cases holding with
  | live holds =>
      have room := holds.room
      rw [← holds.length] at room
      exact ⟨holds.length, holds.get?_eq, holds.toList_eq, Nat.add_sub_cancel' room⟩
  | drained closed =>
      refine ⟨closed.length, closed.get?, closed.toList, ?_⟩
      rw [freeSlots, pageCount, closed.pages, closed.length]
      simp

/-- A store that is not closed answers a request as its items do, unless slots cannot be
counted. -/
theorem Holds.serve {items : List α} (holds : store.Holds items) (request : Request α)
    (counted : (store.serve request).2 ≠ .fault .addOverflow) :
    (store.serve request).1.Holding ((Contents.live items).serve request).1 ∧
      (store.serve request).2 = ((Contents.live items).serve request).2 := by
  cases request with
  | alloc entry =>
      obtain ⟨grown, done, holdsMore⟩ := holds.alloc entry
      simp only [PagedStore.serve, done, Contents.serve, holds.length, and_true]
      exact .live holdsMore
  | reserve count =>
      cases outcome : store.reserve count with
      | ok grown =>
          simp only [PagedStore.serve, outcome, Contents.serve, and_true]
          exact .live (holds.reserve outcome)
      | error reached =>
          obtain rfl := holds.overflow_of_reserve outcome
          simp only [PagedStore.serve, outcome, ne_eq, not_true_eq_false] at counted
  | get index =>
      simp only [PagedStore.serve, Contents.serve, holds.get?_eq, and_true]
      exact .live holds
  | update index change =>
      simp only [PagedStore.serve, Contents.serve, holds.get?_eq, and_true]
      exact .live (holds.modify index change)
  | list =>
      simp only [PagedStore.serve, Contents.serve, holds.toList_eq, and_true]
      exact .live holds
  | drain =>
      simp only [PagedStore.serve, Contents.serve, holds.drain, and_true]
      exact .drained holds.closed_drain

/-- A closed store stays closed and hands nothing out. -/
theorem Closed.serve (closed : store.Closed) (request : Request α) :
    (store.serve request).1.Holding (Contents.drained.serve request).1 ∧
      (store.serve request).2 = (Contents.drained.serve request).2 := by
  cases request with
  | alloc entry =>
      simp only [PagedStore.serve, PagedStore.alloc, closed.drained, if_true, Contents.serve,
        and_true]
      exact .drained closed
  | reserve count =>
      simp only [PagedStore.serve, PagedStore.reserve, closed.drained, if_true, Contents.serve,
        and_true]
      exact .drained closed
  | get index =>
      simp only [PagedStore.serve, Contents.serve, closed.get?, and_true]
      exact .drained closed
  | update index change =>
      simp only [PagedStore.serve, Contents.serve, closed.get?, and_true]
      exact .drained (closed.modify index change)
  | list =>
      simp only [PagedStore.serve, Contents.serve, closed.toList, and_true]
      exact .drained closed
  | drain =>
      simp only [PagedStore.serve, Contents.serve, closed.drain.2, and_true]
      exact .drained closed.drain.1

/-- The store answers a request as its contents do, unless slots cannot be counted. -/
theorem Holding.serve (holding : store.Holding contents) (request : Request α)
    (counted : (store.serve request).2 ≠ .fault .addOverflow) :
    (store.serve request).1.Holding (contents.serve request).1 ∧
      (store.serve request).2 = (contents.serve request).2 := by
  cases holding with
  | live holds => exact holds.serve request counted
  | drained closed => exact closed.serve request

/-- The store answers all requests as its contents do. -/
theorem Holding.run (holding : store.Holding contents) (requests : List (Request α))
    (counted : .fault .addOverflow ∉ (store.run requests).2) :
    (store.run requests).1.Holding (contents.run requests).1 ∧
      (store.run requests).2 = (contents.run requests).2 := by
  induction requests generalizing store contents with
  | nil => exact ⟨holding, rfl⟩
  | cons request later inductionHypothesis =>
      simp only [PagedStore.run, List.mem_cons, not_or] at counted
      obtain ⟨next, reply⟩ := holding.serve request (Ne.symm counted.1)
      obtain ⟨last, replies⟩ := inductionHypothesis next counted.2
      simp only [PagedStore.run, Contents.run, reply, replies, and_true]
      exact last

/-- No request changes the size of the pages. -/
theorem pageBits_of_serve (store : PagedStore α) (request : Request α) :
    (store.serve request).1.pageBits = store.pageBits := by
  cases request with
  | alloc entry =>
      rw [serve]
      split
      · exact pageBits_of_alloc ‹_›
      · rfl
  | reserve count =>
      rw [serve]
      split
      · exact pageBits_of_reserve ‹_›
      · rfl
  | get index => rfl
  | update index change => rfl
  | list => rfl
  | drain =>
      rw [serve, drain]
      split <;> rfl

theorem pageBits_of_run (store : PagedStore α) (requests : List (Request α)) :
    (store.run requests).1.pageBits = store.pageBits := by
  induction requests generalizing store with
  | nil => rfl
  | cons request later inductionHypothesis =>
      rw [run, inductionHypothesis, pageBits_of_serve]

/-- A new store of any page size holds nothing. -/
theorem holds_of_ofItems {pageBits : Nat} {item : ItemSize}
    (made : ofItems item pageBits = .ok store) :
    store.pageBits = pageBits ∧ store.Holds [] := by
  rw [ofItems] at made
  split at made
  · cases made
  · split at made
    · cases made
    · cases made
      refine ⟨rfl, rfl, rfl, Nat.zero_le _, fun number page found => ?_⟩
      rw [window_of_length_le (Nat.zero_le _)]
      match number with
      | 0 =>
          cases found
          rfl
      | _ + 1 => cases found

/-- Whatever is asked of a store of any page size, it answers as a list of items would that is
closed when it is drained, and shows no more than that list. -/
theorem run_refines {pageBits : Nat} {item : ItemSize}
    (made : ofItems item pageBits = .ok store)
    (requests : List (Request α)) (counted : .fault .addOverflow ∉ (store.run requests).2) :
    (store.run requests).2 = ((Contents.live []).run requests).2 ∧
      (store.run requests).1.Shows ((Contents.live []).run requests).1 ∧
      (store.run requests).1.pageSize = Width.bound pageBits := by
  obtain ⟨bits, holds⟩ := holds_of_ofItems made
  obtain ⟨holding, replies⟩ := (Holding.live holds).run requests counted
  refine ⟨replies, holding.shows, ?_⟩
  rw [pageSize, pageBits_of_run, bits]

/-- Items on pages of two, of which one is changed, and requests after the drain. -/
def pagesOfTwo : List (Request Nat) :=
  [.alloc 10, .alloc 20, .reserve 3, .alloc 30, .update 2 (· + 5), .get 2, .get 3, .list, .drain,
    .get 0, .alloc 40, .reserve 1, .drain]

theorem run_refines_pagesOfTwo :
    ∃ store : PagedStore Nat, withPageBits 1 = .ok store ∧
      .fault .addOverflow ∉ (store.run pagesOfTwo).2 ∧
      (store.run pagesOfTwo).2 = ((Contents.live []).run pagesOfTwo).2 ∧
      (store.run pagesOfTwo).1.Shows ((Contents.live []).run pagesOfTwo).1 ∧
      (store.run pagesOfTwo).1.pageSize = Width.bound 1 :=
  have counted : .fault .addOverflow ∉ (PagedStore.run ⟨#[#[]], 1, 0, false⟩ pagesOfTwo).2 := by
    decide
  have made : withPageBits 1 = .ok (⟨#[#[]], 1, 0, false⟩ : PagedStore Nat) := rfl
  ⟨_, made, counted, run_refines made pagesOfTwo counted⟩

end PagedStore

end CallProfiler.Capture
