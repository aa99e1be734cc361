import CallProfiler.EventLog

/-!
# Thread tables

The events of a thread are those that stand beside its id. A table is no more than what its ids
lead to: where these agree, two tables are the same.
-/

namespace CallProfiler.ThreadTable

/-- The events of a thread are those that stand beside its id. -/
theorem events?_eq_some_iff {table : ThreadTable} {id : UInt32} {events : List Event} :
    table.events? id = some events ↔ (id, events) ∈ table.entries := by
  rw [events?, Option.map_eq_some_iff]
  constructor
  · rintro ⟨⟨other, held⟩, found, rfl⟩
    have same : other = id := by simpa using List.find?_some found
    rw [← same]
    exact List.mem_of_find?_eq_some found
  · intro member
    have ascending := table.ascending
    obtain ⟨before, after, split⟩ := List.append_of_mem member
    rw [split] at ascending ⊢
    have apart : before.find? (fun entry => entry.1 == id) = none := by
      rw [List.find?_eq_none]
      intro entry earlier
      have smaller := (List.pairwise_append.1 ascending).2.2 entry earlier _ List.mem_cons_self
      simpa using UInt32.ne_of_lt smaller
    exact ⟨(id, events), by simp [List.find?_append, apart], rfl⟩

theorem nodup_entries (table : ThreadTable) : table.entries.Nodup :=
  table.ascending.imp fun smaller same => UInt32.ne_of_lt smaller (congrArg Prod.fst same)

/-- Tables that have the same events for every id are the same. -/
theorem ext_events? {left right : ThreadTable}
    (same : ∀ id, left.events? id = right.events? id) : left = right := by
  have members (entry : UInt32 × List Event) :
      entry ∈ left.entries ↔ entry ∈ right.entries := by
    rw [← events?_eq_some_iff, ← events?_eq_some_iff, same]
  have perm : left.entries.Perm right.entries :=
    (List.perm_ext_iff_of_nodup left.nodup_entries right.nodup_entries).2 members
  have entries : left.entries = right.entries :=
    perm.eq_of_pairwise (fun _ _ _ _ before after => absurd after (UInt32.lt_asymm before))
      left.ascending right.ascending
  cases left
  cases right
  cases entries
  rfl

end CallProfiler.ThreadTable
