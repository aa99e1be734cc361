import CallProfiler.Calibration
import CallProfiler.Event

/-!
# Event logs

Everything collected in one run: the calibration and the events of each thread in push order.
Threads are held in ascending order of their ids, each id once; `ThreadTable.insert` keeps it
so, and every walk over a log follows that order.
-/

namespace CallProfiler

/-- Event lists by thread id, in ascending order of the ids. -/
structure ThreadTable where
  entries : List (UInt32 × List Event)
  ascending : entries.Pairwise fun left right => left.1 < right.1

namespace ThreadTable

/-- A table of no threads. -/
def empty : ThreadTable := ⟨[], .nil⟩

/-- Put the events of a thread at their place, instead of any that the thread had. -/
def place (id : UInt32) (events : List Event) :
    List (UInt32 × List Event) → List (UInt32 × List Event)
  | [] => [(id, events)]
  | (other, held) :: rest =>
    if id < other then (id, events) :: (other, held) :: rest
    else if id = other then (id, events) :: rest
    else (other, held) :: place id events rest

theorem mem_place {id : UInt32} {events : List Event} {entries : List (UInt32 × List Event)}
    {entry : UInt32 × List Event} (member : entry ∈ place id events entries) :
    entry = (id, events) ∨ entry ∈ entries := by
  induction entries with
  | nil => simpa [place] using member
  | cons head rest inductionHypothesis =>
      simp only [place] at member
      split at member
      · simpa using member
      · split at member
        · rcases List.mem_cons.1 member with same | later
          · exact .inl same
          · exact .inr (List.mem_cons_of_mem _ later)
        · rcases List.mem_cons.1 member with same | later
          · exact .inr (by simp [same])
          · rcases inductionHypothesis later with same | older
            · exact .inl same
            · exact .inr (List.mem_cons_of_mem _ older)

theorem place_ascending {entries : List (UInt32 × List Event)} (id : UInt32)
    (events : List Event) (sorted : entries.Pairwise fun left right => left.1 < right.1) :
    (place id events entries).Pairwise fun left right => left.1 < right.1 := by
  induction entries with
  | nil => simp [place]
  | cons head rest inductionHypothesis =>
      obtain ⟨before, sortedRest⟩ := List.pairwise_cons.1 sorted
      simp only [place]
      split
      · rename_i smaller
        refine List.pairwise_cons.2 ⟨fun entry member => ?_, sorted⟩
        rcases List.mem_cons.1 member with same | later
        · simpa [same] using smaller
        · exact UInt32.lt_trans smaller (before entry later)
      · split
        · rename_i same
          exact List.pairwise_cons.2 ⟨fun entry member => by
            simpa [same] using before entry member, sortedRest⟩
        · rename_i notSmaller different
          refine List.pairwise_cons.2 ⟨fun entry member => ?_, inductionHypothesis sortedRest⟩
          rcases mem_place member with same | older
          · subst same
            have order := UInt32.not_lt.1 notSmaller
            exact UInt32.lt_of_le_of_ne order fun equal => different equal.symm
          · exact before entry older

/-- The table with the events of one thread put in. -/
def insert (table : ThreadTable) (id : UInt32) (events : List Event) : ThreadTable :=
  ⟨place id events table.entries, place_ascending id events table.ascending⟩

/-- The events of a thread, if the table has it. -/
def events? (table : ThreadTable) (id : UInt32) : Option (List Event) :=
  (table.entries.find? fun entry => entry.1 == id).map (·.2)

theorem find?_place {id other : UInt32} {events : List Event}
    {entries : List (UInt32 × List Event)} :
    (place id events entries).find? (fun entry => entry.1 == other) =
      if other = id then some (id, events) else entries.find? fun entry => entry.1 == other := by
  by_cases same : other = id
  · subst same
    induction entries with
    | nil => simp [place]
    | cons head rest inductionHypothesis =>
        simp only [place]
        split
        · simp
        · split
          · simp
          · rename_i different
            simpa [List.find?_cons, beq_false_of_ne (Ne.symm different)] using inductionHypothesis
  · have apart : (id == other) = false := by simpa using Ne.symm same
    induction entries with
    | nil => simp [place, same, apart]
    | cons head rest inductionHypothesis =>
        simp only [place]
        split
        · simp [apart]
        · split
          · rename_i equal
            simp [apart, ← equal]
          · simp_all [List.find?_cons]

/-- Putting a thread in changes what the table has for that thread and for no other. -/
@[simp] theorem events?_insert {table : ThreadTable} {id other : UInt32} {events : List Event} :
    (table.insert id events).events? other =
      if other = id then some events else table.events? other := by
  simp only [events?, insert, find?_place]
  split <;> rfl

/-- The table of a list of pairs; of two pairs with one id the later one counts. -/
def ofList (entries : List (UInt32 × List Event)) : ThreadTable :=
  entries.foldl (fun table entry => table.insert entry.1 entry.2) empty

/-- The number of threads. -/
def size (table : ThreadTable) : Nat := table.entries.length

/-- All events, thread by thread. -/
def allEvents (table : ThreadTable) : List Event := table.entries.flatMap (·.2)

/-- The threads that have any events. -/
def occupied (table : ThreadTable) : List (UInt32 × List Event) :=
  table.entries.filter fun entry => !entry.2.isEmpty

end ThreadTable

/-- One run: what recording cost and what was recorded. -/
structure EventLog where
  calibration : Calibration
  threads : ThreadTable

namespace EventLog

/-- The number of events on all threads. -/
def eventCount (log : EventLog) : Nat := log.threads.allEvents.length

/-- Whether no thread has an event. -/
def isEmpty (log : EventLog) : Bool := log.threads.entries.all fun entry => entry.2.isEmpty

end EventLog

end CallProfiler
