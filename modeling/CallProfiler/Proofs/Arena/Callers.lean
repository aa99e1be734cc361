import CallProfiler.Proofs.Arena.Layout
import CallProfiler.Proofs.CallTree.Outward

/-!
# The callers around a place in an arena

While the slots below a slot are folded, the slots around it form a chain of callers up to the
root. `Surrounds` describes this chain and what each of the slots lists. `Handed` keeps account of
the slots while nodes are handed outwards along the chain: they stay where they are, come to be
below a caller, or are cut off.
-/

namespace CallProfiler.Arena

/-- A caller in an arena: its slot, the slots of what it has taken over, and what is listed beside
it in the slot above before that one takes anything over. -/
structure CallerSlot extends Caller where
  id : Nat
  adopted : Forest Nat
  beside : List Nat

namespace CallerSlot

/-- The slots of a caller that change with it. -/
def slots (caller : CallerSlot) : List Nat := caller.id :: caller.adopted.preorder

/-- The slots of all callers. -/
def allSlots (callers : List CallerSlot) : List Nat := callers.flatMap slots

/-- Where a caller is. -/
def place (caller : CallerSlot) : Nat × List Nat := (caller.id, caller.beside)

/-- The slot of the innermost caller, or the root's. -/
def innermost (callers : List CallerSlot) : Nat := callers.head?.elim rootId (·.id)

/-- A caller that a recursive node passes. -/
def letPass (leaving : Folded) (caller : CallerSlot) : CallerSlot :=
  { caller with node := caller.node.letPass [leaving] }

/-- A caller that takes a recursive node over. -/
def takeOver (caller : CallerSlot) (grown : Node) (shape : Forest Nat) (children : Forest Node) :
    CallerSlot :=
  { caller with
    node := grown
    taken := caller.taken.append children
    adopted := caller.adopted.append shape }

@[simp] theorem allSlots_cons (caller : CallerSlot) (callers : List CallerSlot) :
    allSlots (caller :: callers) = caller.id :: (caller.adopted.preorder ++ allSlots callers) := rfl

@[simp] theorem allSlots_append (first second : List CallerSlot) :
    allSlots (first ++ second) = allSlots first ++ allSlots second :=
  List.flatMap_append

theorem allSlots_map_letPass (leaving : Folded) (passed : List CallerSlot) :
    allSlots (passed.map (·.letPass leaving)) = allSlots passed := by
  induction passed with
  | nil => rfl
  | cons caller passed inductionHypothesis =>
      rw [List.map_cons, allSlots_cons, allSlots_cons, inductionHypothesis]
      rfl

/-- What a caller takes over joins the slots of the callers. -/
theorem allSlots_takeOver_perm {passed outer : List CallerSlot} {target : CallerSlot}
    {grown : Node} {shape : Forest Nat} {children : Forest Node} :
    (allSlots (passed ++ target.takeOver grown shape children :: outer)).Perm
      (allSlots (passed ++ target :: outer) ++ shape.preorder) := by
  refine List.perm_iff_count.2 fun other => ?_
  simp only [allSlots_append, allSlots_cons, takeOver, Forest.preorder_append, List.count_append,
    List.count_cons]
  omega

/-- A slot beside which others lie may be a caller of those below it. -/
theorem nodup_within {callers : List CallerSlot} {label : Node} {id : Nat} {beside : List Nat}
    {inner later : Forest Nat}
    (distinct : (rootId :: (allSlots callers ++ (Forest.node id inner later).preorder)).Nodup) :
    (rootId :: (allSlots (⟨⟨label, .nil⟩, id, .nil, beside⟩ :: callers) ++
      inner.preorder)).Nodup := by
  rw [List.nodup_iff_count_le_one] at distinct ⊢
  intro other
  have once := distinct other
  simp only [allSlots_cons, Forest.preorder, List.nil_append, List.cons_append, List.count_cons,
    List.count_append] at once ⊢
  omega

/-- One of several callers apart from the others, and from what it has taken over. -/
theorem apart_of_nodup {before after : List CallerSlot} {caller : CallerSlot}
    (distinct : (rootId :: allSlots (before ++ caller :: after)).Nodup) :
    caller.id ∉ rootId :: allSlots (before ++ after) ∧ caller.id ∉ caller.adopted.preorder := by
  have moved : (rootId :: allSlots (before ++ caller :: after)).Perm
      (caller.id :: (caller.adopted.preorder ++ rootId :: allSlots (before ++ after))) := by
    refine List.perm_iff_count.2 fun other => ?_
    simp only [allSlots_append, allSlots_cons, List.count_append, List.count_cons]
    omega
  have fresh := (List.nodup_cons.1 (moved.nodup_iff.1 distinct)).1
  rw [List.mem_append, not_or] at fresh
  exact fresh.symm

theorem map_id_sublist (callers : List CallerSlot) :
    (callers.map (·.id)).Sublist (allSlots callers) := by
  induction callers with
  | nil => exact .slnil
  | cons caller callers inductionHypothesis =>
      exact (inductionHypothesis.trans (List.sublist_append_right _ _)).cons_cons caller.id

end CallerSlot

open CallerSlot (allSlots innermost)

/-- Taking a slot off a list that does not have it changes nothing. -/
theorem filter_bne_of_not_mem {ids : List Nat} {id : Nat} (absent : id ∉ ids) :
    ids.filter (· != id) = ids :=
  List.filter_eq_self.2 fun _ member => bne_iff_ne.2 fun same => absent (same ▸ member)

theorem filter_bne_of_listed {before after : List Nat} {id : Nat} (notBefore : id ∉ before)
    (notAfter : id ∉ after) : (before ++ id :: after).filter (· != id) = before ++ after := by
  rw [List.filter_append, List.filter_cons_of_neg (by simp), filter_bne_of_not_mem notBefore,
    filter_bne_of_not_mem notAfter]

/-- The callers around a place, innermost first, with what the innermost one lists before it takes
anything over. Above the outermost caller there is the root. -/
inductive Surrounds (arena : Arena) : List CallerSlot → List Nat → Prop
  | root {listed : List Nat} (inside : rootId < arena.size)
      (top : (arena.slot rootId).parent = none) (children : (arena.slot rootId).children = listed) :
      Surrounds arena [] listed
  | caller {caller : CallerSlot} {callers : List CallerSlot} {listed : List Nat}
      (inside : caller.id < arena.size)
      (slot : arena.slot caller.id =
        ⟨caller.node, some (innermost callers), listed ++ caller.adopted.tops⟩)
      (taken : arena.Holds (some caller.id) caller.adopted caller.taken)
      (around : Surrounds arena callers caller.beside) : Surrounds arena (caller :: callers) listed

variable {arena next : Arena} {callers before after : List CallerSlot} {caller : CallerSlot}
  {listed ids : List Nat} {id : Nat}

namespace Surrounds

/-- Callers whose slots are left alone stay around. -/
theorem within (surrounds : arena.Surrounds callers listed) (change : Within ids arena next)
    (apart : (rootId :: allSlots callers).Disjoint ids) : next.Surrounds callers listed := by
  induction surrounds with
  | root inside top children =>
      have same := change.slot rootId (apart List.mem_cons_self)
      exact .root (change.size ▸ inside) (same ▸ top) (same ▸ children)
  | @caller caller callers listed inside slot taken around inductionHypothesis =>
      have apartOwn : (caller.id :: caller.adopted.preorder).Disjoint ids :=
        fun other member => apart (by simp_all; tauto)
      have apartAround : (rootId :: allSlots callers).Disjoint ids :=
        fun other member => apart (by simp_all; tauto)
      refine .caller (change.size ▸ inside) ?_ ?_ (inductionHypothesis apartAround)
      · rw [change.slot caller.id (apartOwn List.mem_cons_self), slot]
      · exact taken.within change fun other member => apartOwn (List.mem_cons_of_mem _ member)

theorem lt_size (surrounds : arena.Surrounds callers listed) :
    ∀ id ∈ rootId :: callers.map (·.id), id < arena.size := by
  induction surrounds with
  | root inside => simpa using inside
  | caller inside _ _ _ inductionHypothesis =>
      rw [List.forall_mem_cons] at inductionHypothesis ⊢
      exact ⟨inductionHypothesis.1, List.forall_mem_cons.2 ⟨inside, inductionHypothesis.2⟩⟩

theorem node_eq (surrounds : arena.Surrounds callers listed) :
    ∀ caller ∈ callers, arena.node caller.id = caller.node := by
  induction surrounds with
  | root => nofun
  | caller _ slot _ _ inductionHypothesis =>
      exact List.forall_mem_cons.2 ⟨by rw [node, slot], inductionHypothesis⟩

theorem held (surrounds : arena.Surrounds callers listed) :
    ∀ caller ∈ callers, arena.Holds (some caller.id) caller.adopted caller.taken := by
  induction surrounds with
  | root => nofun
  | caller _ _ taken _ inductionHypothesis =>
      exact List.forall_mem_cons.2 ⟨taken, inductionHypothesis⟩

/-- Going up from below the innermost caller leads through all of them. -/
theorem above (surrounds : arena.Surrounds callers listed)
    (link : (arena.slot id).parent = some (innermost callers)) {steps : Nat}
    (enough : callers.length < steps) :
    arena.above steps id = callers.map (·.id) ++ [rootId] := by
  induction surrounds generalizing id steps with
  | root inside top children =>
      obtain ⟨further, rfl⟩ := Nat.exists_eq_succ_of_ne_zero (Nat.ne_of_gt enough)
      rw [Arena.above, link]
      cases further with
      | zero => rfl
      | succ further =>
          show rootId :: arena.above (further + 1) rootId = [rootId]
          rw [Arena.above, top]
  | caller inside slot taken around inductionHypothesis =>
      obtain ⟨further, rfl⟩ :=
        Nat.exists_eq_succ_of_ne_zero (Nat.ne_of_gt (Nat.zero_lt_of_lt enough))
      rw [Arena.above, link]
      have outwards : (arena.slot _).parent = some (innermost _) := congrArg Slot.parent slot
      exact congrArg _ (inductionHypothesis outwards (Nat.lt_of_succ_lt_succ enough))

/-- Above the slots that the innermost caller lists are the callers, and then the root. -/
theorem ancestors (surrounds : arena.Surrounds callers listed)
    (link : (arena.slot id).parent = some (innermost callers))
    (distinct : (rootId :: callers.map (·.id)).Nodup) :
    arena.ancestors id = callers.map (·.id) ++ [rootId] := by
  have few := length_le_size distinct surrounds.lt_size
  rw [List.length_cons, List.length_map] at few
  exact surrounds.above link few

/-- The search for a namesake goes through the callers. -/
theorem around_eq (surrounds : arena.Surrounds callers listed)
    (link : (arena.slot id).parent = some (innermost callers))
    (distinct : (rootId :: allSlots callers).Nodup) :
    (arena.ancestors id).takeWhile (· != rootId) = callers.map (·.id) := by
  have sub := CallerSlot.map_id_sublist callers
  have fresh : ∀ other ∈ callers.map (·.id), (other != rootId) = true :=
    fun other member => bne_iff_ne.2 fun same =>
      (List.nodup_cons.1 distinct).1 (same ▸ sub.subset member)
  rw [surrounds.ancestors link ((sub.cons_cons rootId).nodup distinct),
    List.takeWhile_append_of_pos fresh]
  simp

/-- A caller's slot may be changed as the caller is. -/
theorem change (surrounds : arena.Surrounds (before ++ caller :: after) listed)
    {update : Slot → Slot} (revised : CallerSlot)
    (samePlace : revised.place = caller.place)
    (apart : caller.id ∉ rootId :: allSlots (before ++ after))
    (updated : ∀ parent own, update ⟨caller.node, parent, own ++ caller.adopted.tops⟩ =
      ⟨revised.node, parent, own ++ revised.adopted.tops⟩)
    (taken : (arena.change caller.id update).Holds (some caller.id) revised.adopted revised.taken) :
    (arena.change caller.id update).Surrounds (before ++ revised :: after) listed := by
  obtain ⟨own, _, adopted, _⟩ := revised
  obtain ⟨rfl, rfl⟩ := Prod.mk.inj samePlace
  have changed := Within.change arena caller.id update
  induction before generalizing listed with
  | nil =>
      cases surrounds with
      | caller inside slot _ around =>
          refine .caller (by simpa using inside) ?_ taken
            (around.within changed (List.disjoint_singleton.2 apart))
          rw [slot_change_self inside, slot, updated]
  | cons first before inductionHypothesis =>
      cases surrounds with
      | caller inside slot held around =>
          simp only [List.cons_append, CallerSlot.allSlots_cons, List.mem_cons, List.mem_append,
            not_or] at apart
          obtain ⟨notRoot, notFirst, notAdopted, notAround⟩ := apart
          refine .caller (by simpa using inside) ?_ ?_
            (inductionHypothesis around (by simp_all))
          · rw [slot_change_of_ne (Ne.symm notFirst), slot]
            cases before <;> rfl
          · exact held.within changed (List.disjoint_singleton.2 notAdopted)

/-- A node that goes outwards may pass several callers. -/
theorem passAll (before : List CallerSlot) {passed : List CallerSlot} (leaving : Folded)
    (surrounds : arena.Surrounds (before ++ (passed ++ after)) listed)
    (distinct : (rootId :: allSlots (before ++ (passed ++ after))).Nodup) :
    (arena.changeAll (passed.map (·.id)) fun slot =>
      slot.hold (slot.node.letPass [leaving])).Surrounds
        (before ++ (passed.map (·.letPass leaving) ++ after)) listed := by
  induction passed generalizing arena before with
  | nil => exact surrounds
  | cons caller passed inductionHypothesis =>
      rw [List.cons_append] at surrounds distinct
      obtain ⟨apart, notAdopted⟩ := CallerSlot.apart_of_nodup distinct
      have changed := Within.change arena caller.id fun slot =>
        slot.hold (slot.node.letPass [leaving])
      have held := surrounds.held caller (by simp)
      have first := surrounds.change (caller.letPass leaving) rfl apart
        (fun _ _ => rfl) (held.within changed (List.disjoint_singleton.2 notAdopted))
      have assoc : before ++ caller.letPass leaving :: (passed ++ after) =
          before ++ [caller.letPass leaving] ++ (passed ++ after) := by simp
      rw [assoc] at first
      have rest := inductionHypothesis _ first (by simpa [CallerSlot.letPass] using distinct)
      rw [List.append_assoc, List.singleton_append] at rest
      exact rest

/-- A slot may be taken off the list of the innermost caller. -/
theorem unlist (surrounds : arena.Surrounds (caller :: callers) listed)
    (distinct : (rootId :: allSlots (caller :: callers)).Nodup)
    (fresh : id ∉ allSlots (caller :: callers)) :
    (arena.change caller.id fun outer =>
      { outer with children := outer.children.filter (· != id) }).Surrounds (caller :: callers)
        (listed.filter (· != id)) := by
  have changed := Within.change arena caller.id fun outer =>
    { outer with children := outer.children.filter (· != id) }
  obtain ⟨apart, notAdopted⟩ := @CallerSlot.apart_of_nodup [] callers caller distinct
  rw [CallerSlot.allSlots_cons, List.mem_cons, List.mem_append, not_or, not_or] at fresh
  cases surrounds with
  | caller inside slot taken around =>
      refine .caller (by simpa using inside) ?_
        (taken.within changed (List.disjoint_singleton.2 notAdopted))
        (around.within changed (List.disjoint_singleton.2 apart))
      have stay := filter_bne_of_not_mem fun member =>
        fresh.2.1 (Forest.mem_preorder_of_mem_tops member)
      rw [slot_change_self inside, slot]
      simp only [List.filter_append, stay]

end Surrounds

/-! ## Slots on their way outwards -/

/-- Nodes in some slots were handed outwards to the callers around: `kept` are the slots that stay
where they are, `gone` those that were cut off, and the callers have taken the others over. A state
also counts the slots that were cut off. -/
structure Handed (callers : List CallerSlot) (ids : List Nat) (state next : Arena × Nat)
    (revised : List CallerSlot) (kept gone : List Nat) : Prop where
  places : revised.map (·.place) = callers.map (·.place)
  slots : (allSlots revised ++ (kept ++ gone)).Perm (allSlots callers ++ ids)
  within : Within (allSlots callers ++ ids) state.1 next.1
  cutOff : ∀ id ∈ gone, next.1.CutOff id
  count : next.2 = state.2 + gone.length

namespace Handed

variable {revised : List CallerSlot} {state next last : Arena × Nat} {kept gone : List Nat}

theorem refl (callers : List CallerSlot) (ids : List Nat) (state : Arena × Nat) :
    Handed callers ids state state callers ids [] where
  places := rfl
  slots := by rw [List.append_nil]
  within := .refl _ _
  cutOff := nofun
  count := rfl

theorem nodup (handed : Handed callers ids state next revised kept gone)
    (distinct : (rootId :: (allSlots callers ++ ids)).Nodup) :
    (rootId :: (allSlots revised ++ (kept ++ gone))).Nodup :=
  (handed.slots.cons rootId).nodup_iff.2 distinct

theorem innermost_eq (handed : Handed callers ids state next revised kept gone) :
    innermost revised = innermost callers := by
  have places := handed.places
  cases revised <;> cases callers <;> simp_all [innermost, CallerSlot.place]

/-- Slots that take no part may be among those that stay. -/
theorem append_right (handed : Handed callers ids state next revised kept gone)
    (others : List Nat) :
    Handed callers (ids ++ others) state next revised (kept ++ others) gone where
  places := handed.places
  slots := by
    have swapped : (kept ++ others ++ gone).Perm (kept ++ gone ++ others) := by
      rw [List.append_assoc, List.append_assoc]
      exact List.perm_append_comm.append_left kept
    refine (swapped.append_left _).trans ?_
    rw [← List.append_assoc, ← List.append_assoc (allSlots callers)]
    exact handed.slots.append_right others
  within := handed.within.mono fun id member => by simp_all; tauto
  cutOff := handed.cutOff
  count := handed.count

/-- Slots beside those that take part differ from the ones that stay and from the callers'. -/
theorem nodup_beside {others : List Nat}
    (handed : Handed callers ids state next revised kept gone)
    (distinct : (rootId :: (allSlots callers ++ (ids ++ others))).Nodup) :
    (rootId :: (allSlots revised ++ (kept ++ others))).Nodup := by
  have all := (handed.append_right others).nodup distinct
  exact (((List.sublist_append_left _ _).append_left _).cons_cons rootId).nodup all

theorem append_left (handed : Handed callers ids state next revised kept gone)
    (first : List Nat) :
    Handed callers (first ++ ids) state next revised (first ++ kept) gone where
  places := handed.places
  slots := by
    rw [List.append_assoc]
    refine (List.perm_append_comm_assoc _ _ _).trans ?_
    exact (handed.slots.append_left first).trans (List.perm_append_comm_assoc _ _ _)
  within := handed.within.mono fun id member => by simp_all; tauto
  cutOff := handed.cutOff
  count := handed.count

/-- What stays may be handed outwards later. -/
theorem trans {further : List CallerSlot} {stay left : List Nat}
    (first : Handed callers ids state next revised kept gone)
    (distinct : (rootId :: (allSlots callers ++ ids)).Nodup)
    (second : Handed revised kept next last further stay left) :
    Handed callers ids state last further stay (gone ++ left) where
  places := second.places.trans first.places
  slots := by
    have slotsFirst := first.slots
    have slotsSecond := second.slots
    rw [List.perm_iff_count] at slotsFirst slotsSecond ⊢
    simp only [List.count_append] at slotsFirst slotsSecond ⊢
    intro id
    have before := slotsFirst id
    have after := slotsSecond id
    omega
  within := by
    refine first.within.trans (second.within.mono fun id member => first.slots.subset ?_)
    rw [← List.append_assoc]
    exact List.mem_append_left gone member
  cutOff := by
    have all := (List.nodup_cons.1 (first.nodup distinct)).2
    rw [← List.append_assoc] at all
    have apart := (List.nodup_append'.1 all).2.2
    refine List.forall_mem_append.2 ⟨fun id member => ?_, second.cutOff⟩
    rw [CutOff, second.within.slot id fun known => apart known member]
    exact first.cutOff id member
  count := by
    rw [second.count, first.count, List.length_append, Nat.add_assoc]

/-- Callers stay where they are. -/
theorem exists_innermost (handed : Handed (caller :: callers) ids state next revised kept gone) :
    ∃ own rest, revised = own :: rest ∧ own.place = caller.place := by
  have places := handed.places
  cases revised with
  | nil => cases places
  | cons own rest => exact ⟨own, rest, rfl, (List.cons.inj places).1⟩

/-- Once the slots below the innermost caller are gone through, it is no caller any more: it stays,
with what it has taken over. -/
theorem leave {caller own : CallerSlot} (fresh : caller.adopted = .nil)
    (handed : Handed (caller :: callers) ids state next (own :: revised) kept gone) :
    Handed callers (caller.id :: ids) state next revised
      (caller.id :: (kept ++ own.adopted.preorder)) gone where
  places := (List.cons.inj handed.places).2
  slots := by
    have sameId : own.id = caller.id := congrArg Prod.fst (List.cons.inj handed.places).1
    have slots := handed.slots
    rw [List.perm_iff_count] at slots ⊢
    intro id
    have here := slots id
    simp only [CallerSlot.allSlots_cons, List.cons_append, List.count_append, List.count_cons,
      fresh, Forest.preorder, List.count_nil, sameId] at here ⊢
    omega
  within := handed.within.mono fun id member => by
    simp_all [Forest.preorder]
    tauto
  cutOff := handed.cutOff
  count := handed.count

end Handed

end CallProfiler.Arena
