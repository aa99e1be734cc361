import CallProfiler.Fault

/-!
# Paged storage

Items are appended to pages of one size, a power of two, so the place of an item follows from
its index alone and no item ever moves. Pages can be made ahead of need. Draining hands out all
items once; after that nothing can be stored.
-/

namespace CallProfiler.Capture

/-- The bytes that an item takes. -/
structure ItemSize where
  bytes : Nat
  positive : 0 < bytes

/-- The size of a number. -/
def ItemSize.word : ItemSize := ⟨8, by decide⟩

/-- Items in pages whose slots are told apart by `pageBits` bits. -/
structure PagedStore (α : Type) where
  pages : Array (Array α)
  pageBits : Nat
  /-- Items handed in so far; none after a drain. -/
  length : Nat
  drained : Bool
deriving Repr

namespace PagedStore

variable {α : Type}

/-- The slots of a page. -/
def pageSize (store : PagedStore α) : Nat := Width.bound store.pageBits

/-- The page size where nothing else is asked for. -/
def standardPageBits : Nat := 14

/-- A store for items of a size, with one empty page, which has to fit the address space. -/
def ofItems (item : ItemSize) (pageBits : Nat) : Except Fault (PagedStore α) :=
  if 64 ≤ pageBits then .error .shiftOverflow
  else if Width.bound 63 ≤ item.bytes * Width.bound pageBits then .error .capacityOverflow
  else .ok ⟨#[#[]], pageBits, 0, false⟩

/-- A store for numbers. -/
def withPageBits (pageBits : Nat) : Except Fault (PagedStore α) := ofItems .word pageBits

/-- A store with one empty page of the standard size. -/
def new : PagedStore α := ⟨#[#[]], standardPageBits, 0, false⟩

def isEmpty (store : PagedStore α) : Bool := store.length == 0

def pageCount (store : PagedStore α) : Nat := store.pages.size

/-- Slots made but not used yet. -/
def freeSlots (store : PagedStore α) : Nat := store.pageCount * store.pageSize - store.length

/-- Append an item, on a new page if all are full. The index of the item is the length before. -/
def alloc (store : PagedStore α) (entry : α) : Except Fault (PagedStore α) :=
  if store.drained then .error .allocAfterDrain
  else
    let page := store.length / store.pageSize
    let pages := if page = store.pages.size then store.pages.push #[] else store.pages
    .ok { store with
      pages := pages.modify page (·.push entry)
      length := store.length + 1 }

/-- Make pages until `count` more items fit. -/
def reserve (store : PagedStore α) (count : Nat) : Except Fault (PagedStore α) :=
  if store.drained then .error .reserveAfterDrain
  else if count ≤ store.freeSlots then .ok store
  else do
    let slots ← Checked.add 64 (count - store.freeSlots) store.pageSize
    return { store with
      pages := store.pages ++ Array.replicate ((slots - 1) / store.pageSize) #[] }

/-- The item at an index. -/
def get? (store : PagedStore α) (index : Nat) : Option α := do
  let page ← store.pages[index / store.pageSize]?
  page[index % store.pageSize]?

/-- Change the item at an index, if there is one. -/
def modify (store : PagedStore α) (index : Nat) (change : α → α) : PagedStore α :=
  { store with
    pages := store.pages.modify (index / store.pageSize)
      (·.modify (index % store.pageSize) change) }

/-- The items in the order in which they were stored. -/
def toList (store : PagedStore α) : List α := store.pages.toList.flatMap (·.toList)

/-- Hand out all items; the store is empty and closed afterwards. -/
def drain (store : PagedStore α) : PagedStore α × List α :=
  if store.drained then ({ store with length := 0 }, [])
  else ({ store with pages := #[], length := 0, drained := true }, store.toList)

end PagedStore

end CallProfiler.Capture
