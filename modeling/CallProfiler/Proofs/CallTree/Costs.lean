import CallProfiler.Proofs.CallTree.Relief

/-!
# The cost of more calls

The cost of recording grows with the number of calls, but only 64 bits of it are kept. As long as
the cost fits, more calls never cost less, and of two nodes that took the same time around the same
children the one with more calls keeps no more of it. The first number of calls whose cost does not
fit costs less than one call fewer, so `risesTo_iff_scalesTo` is about all numbers of calls: costs
rise up to one of them just where the costs of that one fit.
-/

namespace CallProfiler

namespace Calibration

/-- The costs of so many calls fit their width, each kind by itself. -/
structure ScalesTo (calibration : Calibration) (calls : Nat) : Prop where
  own : calibration.selfTime.toNat * calls / calibration.samples.toNat < Width.bound 64
  inside : calibration.childrenTime.toNat * calls / calibration.samples.toNat < Width.bound 64

end Calibration

/-- Two nodes that took the same time around the same children, the second one in no fewer
calls. -/
structure Branch.CalledMore (fewer more : Branch) : Prop where
  count : fewer.node.count ≤ more.node.count
  realtime : more.node.realtime = fewer.node.realtime
  children : more.children = fewer.children
  /-- Either both bear the cost of recording or neither does any more. -/
  mitigated : more.node.mitigated = fewer.node.mitigated

/-- What mitigation leaves of a node whose children it has mitigated before. -/
structure Branch.Leaves (calibration : Calibration) (raw left : Branch) : Prop where
  children : raw.children.mitigate calibration = (left.children, none)
  node : raw.node.mitigate calibration left.children = .ok left.node

/-- Mitigation of a tree comes to its end and leaves one node where the other one was. -/
def CallTree.Turns (calibration : Calibration) (tree : CallTree) (raw left : Branch) : Prop :=
  ∃ full, tree.mitigated calibration = .ok full ∧
    (raw, left) ∈ (tree.children.branches []).zip (full.children.branches [])

/-- More calls never cost less than fewer calls, nor do they leave more of the same time, as long
as there are no more than `limit` of them. -/
structure Calibration.RisesTo (calibration : Calibration) (limit : Nat) : Prop where
  own : ∀ fewer more, fewer ≤ more → more ≤ limit →
    calibration.selfOverhead fewer ≤ calibration.selfOverhead more
  inside : ∀ fewer more, fewer ≤ more → more ≤ limit →
    calibration.childrenOverhead fewer ≤ calibration.childrenOverhead more
  left : ∀ (tree other : CallTree) (fewer more leftOfFewer leftOfMore : Branch),
    tree.Turns calibration fewer leftOfFewer → other.Turns calibration more leftOfMore →
      fewer.CalledMore more → more.node.count ≤ limit →
        leftOfMore.node.realtime ≤ leftOfFewer.node.realtime

/-! ## Scaling -/

namespace Calibration

variable {total : UInt64} {samples : UInt32} {calls : Nat}

theorem scaled_mono {fewer more : Nat} (le : fewer ≤ more)
    (fits : total.toNat * more / samples.toNat < Width.bound 64) :
    scaled total fewer samples ≤ scaled total more samples := by
  calc scaled total fewer samples
      ≤ total.toNat * fewer / samples.toNat := scaled_le total fewer samples
    _ ≤ total.toNat * more / samples.toNat := Nat.div_le_div_right (Nat.mul_le_mul_left _ le)
    _ = scaled total more samples := (scaled_eq fits).symm

/-- One more call adds to an exact cost less than its width can hold. -/
theorem quotient_succ_lt (total : UInt64) (samples : UInt32) (calls : Nat) :
    total.toNat * (calls + 1) / samples.toNat <
      total.toNat * calls / samples.toNat + Width.bound 64 := by
  rcases Nat.eq_zero_or_pos samples.toNat with none | some
  · rw [none, Nat.div_zero, Nat.div_zero, Nat.zero_add]
    exact Width.bound_pos 64
  · have atMost : total.toNat * (calls + 1) ≤
        total.toNat * calls + samples.toNat * total.toNat := by
      rw [Nat.mul_succ]
      apply Nat.add_le_add_left
      exact Nat.le_mul_of_pos_left _ some
    have narrow : total.toNat < Width.bound 64 := total.toNat_lt
    calc total.toNat * (calls + 1) / samples.toNat
        ≤ (total.toNat * calls + samples.toNat * total.toNat) / samples.toNat :=
          Nat.div_le_div_right atMost
      _ = total.toNat * calls / samples.toNat + total.toNat := Nat.add_mul_div_left _ _ some
      _ < _ := Nat.add_lt_add_left narrow _

/-- The call with which a cost leaves its width makes it smaller. -/
theorem scaled_succ_lt (fits : total.toNat * calls / samples.toNat < Width.bound 64)
    (exceeds : Width.bound 64 ≤ total.toNat * (calls + 1) / samples.toNat) :
    scaled total (calls + 1) samples < scaled total calls samples := by
  have step := quotient_succ_lt total samples calls
  have measured : samples ≠ 0 := by
    rintro rfl
    rw [UInt32.toNat_zero, Nat.div_zero] at exceeds
    exact absurd (Width.bound_pos 64) (Nat.not_lt.2 exceeds)
  have kept : scaled total (calls + 1) samples =
      total.toNat * (calls + 1) / samples.toNat - Width.bound 64 := by
    rw [scaled, if_neg measured, Nat.mod_eq_sub_mod exceeds]
    apply Nat.mod_eq_of_lt
    omega
  rw [kept, scaled_eq fits]
  omega

/-- A cost rises up to a number of calls just where the cost of that number fits. -/
theorem scaled_rises_iff {limit : Nat} :
    (∀ fewer more, fewer ≤ more → more ≤ limit →
        scaled total fewer samples ≤ scaled total more samples) ↔
      total.toNat * limit / samples.toNat < Width.bound 64 := by
  constructor
  · intro rises
    -- By induction the cost of one call fewer fits, so a cost that does not would fall below it.
    induction limit with
    | zero =>
        rw [Nat.mul_zero, Nat.zero_div]
        exact Width.bound_pos 64
    | succ calls inductionHypothesis =>
        have fits := inductionHypothesis fun fewer more le within =>
          rises fewer more le (Nat.le_succ_of_le within)
        by_contra exceeds
        have falls := scaled_succ_lt fits (Nat.not_lt.1 exceeds)
        exact absurd (rises calls (calls + 1) (Nat.le_succ calls) (Nat.le_refl _))
          (Nat.not_le.2 falls)
  · intro fits fewer more le within
    apply scaled_mono le
    exact Nat.lt_of_le_of_lt (Nat.div_le_div_right (Nat.mul_le_mul_left _ within)) fits

end Calibration

/-! ## What is left of nodes -/

variable {calibration : Calibration}

/-- A node is left alone where it was mitigated before, and else it loses what its calls and those
inside it cost. -/
theorem Node.mitigate_eq_ok {children : Forest Node} {node left : Node}
    (done : node.mitigate calibration children = .ok left) :
    node.mitigated = true ∧ left = node ∨
      node.mitigated = false ∧ ∃ calls floor, children.calls = .ok calls ∧
        children.realtime = .ok floor ∧
          left.realtime = max (node.realtime - (calibration.selfOverhead node.count +
            calibration.childrenOverhead calls)) floor := by
  rw [mitigate] at done
  split at done
  · rename_i before
    cases done
    exact .inl ⟨before, rfl⟩
  · rename_i fresh
    obtain ⟨calls, counted, done⟩ := bind_eq_ok_iff.1 done
    obtain ⟨cost, added, done⟩ := bind_eq_ok_iff.1 done
    obtain ⟨floor, summed, done⟩ := bind_eq_ok_iff.1 done
    cases done
    refine .inr ⟨Bool.eq_false_iff.2 fresh, calls, floor, counted, summed, ?_⟩
    rw [(Checked.add_eq_ok_iff.1 added).2]

/-- The dearer of two sets of calls leaves no more of the same time. -/
theorem Node.realtime_mitigate_le {children : Forest Node}
    {fewer more leftOfFewer leftOfMore : Node}
    (sameTime : more.realtime = fewer.realtime) (sameMark : more.mitigated = fewer.mitigated)
    (dearer : calibration.selfOverhead fewer.count ≤ calibration.selfOverhead more.count)
    (ofFewer : fewer.mitigate calibration children = .ok leftOfFewer)
    (ofMore : more.mitigate calibration children = .ok leftOfMore) :
    leftOfMore.realtime ≤ leftOfFewer.realtime := by
  rcases mitigate_eq_ok ofFewer with ⟨marked, rfl⟩ | ⟨fresh, calls, floor, counted, summed, time⟩
  · rcases mitigate_eq_ok ofMore with ⟨_, rfl⟩ | ⟨unmarked, _⟩
    · exact Nat.le_of_eq sameTime
    · rw [sameMark, marked] at unmarked
      cases unmarked
  · rcases mitigate_eq_ok ofMore with ⟨marked, _⟩ | ⟨_, sameCalls, sameFloor, again, once, other⟩
    · rw [sameMark, fresh] at marked
      cases marked
    · obtain rfl : calls = sameCalls := Except.ok.inj (counted.symm.trans again)
      obtain rfl : floor = sameFloor := Except.ok.inj (summed.symm.trans once)
      rw [time, other, sameTime]
      apply max_le_max_right
      omega

namespace Forest

/-- Mitigation leaves something of every node, in its place. -/
theorem branches_mitigate {forest left : Forest Node}
    (done : forest.mitigate calibration = (left, none)) (above : CallPath) :
    List.Forall₂ (Branch.Leaves calibration) (forest.branches above) (left.branches above) := by
  induction forest generalizing left above with
  | nil =>
      cases done
      exact .nil
  | node label children siblings childrenHypothesis siblingsHypothesis =>
      rw [mitigate] at done
      split at done
      · cases done
      · rename_i inner within
        split at done
        · cases done
        · rename_i node own
          cases beside : siblings.mitigate calibration with
          | mk rest reached? =>
              rw [beside] at done
              cases done
              have sameName : node.name = label.name :=
                (congrArg Node.name (untimed_of_mitigate own) : node.untimed.name = _)
              rw [branches, branches, sameName]
              apply List.Forall₂.cons
              · exact ⟨within, own⟩
              · apply List.rel_append
                · exact childrenHypothesis within _
                · exact siblingsHypothesis beside above

end Forest

/-- A tree of which mitigation comes to its end is left alone where nothing was measured, and else
its nodes are mitigated. -/
theorem CallTree.children_of_mitigated {tree full : CallTree}
    (done : tree.mitigated calibration = .ok full) :
    calibration.isCalibrated = false ∧ full = tree ∨
      calibration.isCalibrated = true ∧
        tree.children.mitigate calibration = (full.children, none) := by
  rw [mitigated, mitigate] at done
  cases calibrated : calibration.isCalibrated with
  | false =>
      rw [calibrated, if_neg Bool.false_ne_true] at done
      cases done
      exact .inl ⟨rfl, rfl⟩
  | true =>
      rw [calibrated, if_pos rfl] at done
      rcases finished : tree.children.mitigate calibration with ⟨children, _ | reached⟩
      · rw [finished] at done
        cases totals : withRootTotals { tree with children } with
        | error reached =>
            simp only [totals] at done
            cases done
        | ok totalled =>
            simp only [totals] at done
            cases done
            obtain ⟨realtime, _, rest⟩ := bind_eq_ok_iff.1 totals
            obtain ⟨cpu, _, whole⟩ := bind_eq_ok_iff.1 rest
            cases whole
            exact .inr ⟨rfl, rfl⟩
      · rw [finished] at done
        cases done

/-- A node of a mitigated tree is the raw node itself where nothing was measured, and else what
mitigation leaves of that. -/
theorem CallTree.Turns.leaves {tree : CallTree} {raw left : Branch}
    (turns : tree.Turns calibration raw left) :
    calibration.isCalibrated = false ∧ left = raw ∨
      calibration.isCalibrated = true ∧ raw.Leaves calibration left := by
  obtain ⟨full, done, paired⟩ := turns
  rcases children_of_mitigated done with ⟨unmeasured, rfl⟩ | ⟨calibrated, finished⟩
  · have same : List.Forall₂ Eq (full.children.branches []) (full.children.branches []) :=
      List.forall₂_refl _
    exact .inl ⟨unmeasured, ((List.forall₂_iff_zip.1 same).2 paired).symm⟩
  · have places := List.forall₂_iff_zip.1 (Forest.branches_mitigate finished [])
    exact .inr ⟨calibrated, places.2 paired⟩

/-- Of two nodes with the same time and the same children the dearer one keeps no more. -/
theorem Branch.CalledMore.left_le {tree other : CallTree}
    {fewer more leftOfFewer leftOfMore : Branch} (calledMore : fewer.CalledMore more)
    (ofFewer : tree.Turns calibration fewer leftOfFewer)
    (ofMore : other.Turns calibration more leftOfMore)
    (dearer : calibration.selfOverhead fewer.node.count ≤
      calibration.selfOverhead more.node.count) :
    leftOfMore.node.realtime ≤ leftOfFewer.node.realtime := by
  rcases ofFewer.leaves with ⟨unmeasured, rfl⟩ | ⟨calibrated, leaves⟩
  · rcases ofMore.leaves with ⟨_, rfl⟩ | ⟨measured, _⟩
    · exact Nat.le_of_eq calledMore.realtime
    · rw [unmeasured] at measured
      cases measured
  · rcases ofMore.leaves with ⟨unmeasured, _⟩ | ⟨_, again⟩
    · rw [calibrated] at unmeasured
      cases unmeasured
    · have sameChildren : leftOfMore.children = leftOfFewer.children := by
        have within := again.children
        rw [calledMore.children, leaves.children] at within
        exact (congrArg Prod.fst within).symm
      have own := again.node
      rw [sameChildren] at own
      apply Node.realtime_mitigate_le calledMore.realtime calledMore.mitigated dearer
      · exact leaves.node
      · exact own

namespace Calibration

/-- Costs rise up to a number of calls, and times fall, just where the costs of that number fit. -/
theorem risesTo_iff_scalesTo (calibration : Calibration) (limit : Nat) :
    calibration.RisesTo limit ↔ calibration.ScalesTo limit := by
  constructor
  · rintro ⟨own, inside, _⟩
    exact ⟨scaled_rises_iff.1 own, scaled_rises_iff.1 inside⟩
  · rintro ⟨own, inside⟩
    have ownRises := scaled_rises_iff.2 own
    constructor
    case own => exact ownRises
    case inside => exact scaled_rises_iff.2 inside
    case left =>
      intro tree other fewer more leftOfFewer leftOfMore ofFewer ofMore calledMore within
      apply calledMore.left_le ofFewer ofMore
      exact ownRises _ _ calledMore.count within

/-- Two functions that took the same time, the second one in two calls. -/
def onceAndTwice : List Event :=
  [.plain "once" 0 0 10, .plain "twice" 0 10 15, .plain "twice" 0 15 20]

/-- A cost of which one call bears half of what its width holds. -/
def halfWidth : Calibration :=
  ⟨1, 9223372036854775808, 0⟩

/-- Two calls of half a width each cost nothing: the function called once loses all of its time,
and the one called twice keeps it. -/
theorem not_risesTo_secondCall :
    halfWidth.selfOverhead 1 = 9223372036854775808 ∧ halfWidth.selfOverhead 2 = 0 ∧
      ¬ halfWidth.RisesTo 2 ∧
      ∃ tree full, CallTree.build onceAndTwice = .ok tree ∧
        tree.mitigated halfWidth = .ok full ∧
        tree.children.preorder.map (fun node => (node.name, node.count, node.realtime)) =
          [("once", 1, 10), ("twice", 2, 10)] ∧
        full.children.preorder.map (fun node => (node.name, node.count, node.realtime)) =
          [("once", 1, 0), ("twice", 2, 10)] := by
  have one : halfWidth.selfOverhead 1 = 9223372036854775808 := by decide
  have two : halfWidth.selfOverhead 2 = 0 := by decide
  refine ⟨one, two, ?_, ?_⟩
  · rintro ⟨own, _, _⟩
    have rises := own 1 2 (by decide) (by decide)
    rw [one, two] at rises
    exact absurd rises (by decide)
  · exact ⟨_, _, rfl, rfl, by decide, by decide⟩

end Calibration

end CallProfiler
