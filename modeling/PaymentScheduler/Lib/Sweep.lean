import Mathlib

/-!
# Sweeps of a queue

A sweep takes the first `limit` items of a queue that is sorted by `k`, and removes the targets
among them; the blockers stay in the queue. The items of equal rank come in any order, which may
differ from sweep to sweep, so a batch is any set that such an order puts first (`Batch`).

- `swept`: the number of targets that `m` sweeps remove at least (`Batch.swept_add_le`).
- `Batch.le_swept_add`: no more are removed where the blockers of equal rank come first.
-/

namespace Sweep

variable {ι κ : Type*} [DecidableEq ι] [LinearOrder κ] (k : ι → κ) (limit : Nat)
  (targets blockers : Finset ι)

/-- The items up to the rank `x`. -/
def upTo (s : Finset ι) (x : κ) : Finset ι := s.filter fun i => k i ≤ x

/-- The number of targets that are removed after a sweep, where `c` are before it. -/
def reach (c : Nat) : Nat :=
  targets.sup fun i => min (upTo k targets (k i)).card (c + limit - (upTo k blockers (k i)).card)

/-- The number of targets that are removed after `m` sweeps. -/
def swept : Nat → Nat
  | 0 => 0
  | m + 1 => reach k limit targets blockers (swept m)

/-- `batch` are the first items of the targets in `rest` and the blockers. -/
structure Batch (rest batch : Finset ι) : Prop where
  subset : batch ⊆ rest ∪ blockers
  card_le : batch.card ≤ limit
  first : ∀ x, upTo k (rest ∪ blockers) x ⊆ batch ∨ batch.card = limit ∧ ∀ i ∈ batch, k i ≤ x

variable {k limit targets blockers} {rest batch : Finset ι} {m : Nat}

omit [DecidableEq ι] in
theorem mem_upTo {s : Finset ι} {x : κ} {i : ι} : i ∈ upTo k s x ↔ i ∈ s ∧ k i ≤ x :=
  Finset.mem_filter

omit [DecidableEq ι] in
theorem upTo_subset {s : Finset ι} {x : κ} : upTo k s x ⊆ s := Finset.filter_subset _ _

omit [DecidableEq ι] in
theorem reach_mono : Monotone (reach k limit targets blockers) := by
  intro c d h
  refine Finset.sup_mono_fun fun i _ => ?_
  exact min_le_min_left _ (Nat.sub_le_sub_right (Nat.add_le_add_right h limit) _)

omit [DecidableEq ι] in
theorem swept_le_succ :
    swept k limit targets blockers m ≤ swept k limit targets blockers (m + 1) := by
  induction m with
  | zero => exact Nat.zero_le _
  | succ m ih => exact reach_mono ih

/-- What is left after a sweep, at most. -/
theorem Batch.swept_add_le (h : Batch k limit blockers rest batch) (hrest : rest ⊆ targets)
    (hc : swept k limit targets blockers m + rest.card ≤ targets.card) :
    swept k limit targets blockers (m + 1) + (rest \ batch).card ≤ targets.card := by
  have hle : (rest \ batch).card ≤ targets.card :=
    Finset.card_le_card (Finset.sdiff_subset.trans hrest)
  suffices hsup : swept k limit targets blockers (m + 1) ≤ targets.card - (rest \ batch).card by
    omega
  refine Finset.sup_le fun i hi => ?_
  have hsplit := Finset.card_sdiff_add_card_inter rest batch
  obtain hall | ⟨hfull, hx⟩ := h.first (k i)
  · -- All that is up to the rank of `i` is in the batch.
    have hsub : rest \ batch ⊆ targets \ upTo k targets (k i) := by
      intro j hj
      rw [Finset.mem_sdiff] at hj ⊢
      refine ⟨hrest hj.1, fun hjx => hj.2 (hall ?_)⟩
      exact mem_upTo.mpr ⟨Finset.mem_union_left _ hj.1, (mem_upTo.mp hjx).2⟩
    have hcard := Finset.card_le_card hsub
    rw [Finset.card_sdiff_of_subset upTo_subset] at hcard
    have hup : (upTo k targets (k i)).card ≤ targets.card := Finset.card_le_card upTo_subset
    refine (min_le_left _ _).trans ?_
    omega
  · -- The batch is full: it has all but the blockers up to the rank of `i`.
    have hsub : batch ⊆ (rest ∩ batch) ∪ upTo k blockers (k i) := by
      intro j hj
      rcases Finset.mem_union.mp (h.subset hj) with hr | hb
      · exact Finset.mem_union_left _ (Finset.mem_inter.mpr ⟨hr, hj⟩)
      · exact Finset.mem_union_right _ (mem_upTo.mpr ⟨hb, hx j hj⟩)
    have hcard := (Finset.card_le_card hsub).trans (Finset.card_union_le _ _)
    refine (min_le_right _ _).trans ?_
    omega

/-- The targets that are removed come before those that are left. -/
theorem Batch.removed_le (h : Batch k limit blockers rest batch)
    (hup : ∀ i ∈ targets, i ∉ rest → ∀ j ∈ rest, k i ≤ k j) :
    ∀ i ∈ targets, i ∉ rest \ batch → ∀ j ∈ rest \ batch, k i ≤ k j := by
  intro i hi hnot j hj
  obtain ⟨hjr, hjb⟩ := Finset.mem_sdiff.mp hj
  by_cases hir : i ∈ rest
  · have hib : i ∈ batch := by
      by_contra hib
      exact hnot (Finset.mem_sdiff.mpr ⟨hir, hib⟩)
    obtain hall | ⟨-, hx⟩ := h.first (k j)
    · exact absurd (hall (mem_upTo.mpr ⟨Finset.mem_union_left _ hjr, le_rfl⟩)) hjb
    · exact hx i hib
  · exact hup i hi hir j hjr

/-- Where the blockers come before the targets of their rank, no more is removed. -/
theorem Batch.le_swept_add (h : Batch k limit blockers rest batch) (hrest : rest ⊆ targets)
    (hdisj : Disjoint targets blockers)
    (hfirst : ∀ i ∈ rest, i ∈ batch → upTo k blockers (k i) ⊆ batch)
    (hup : ∀ i ∈ targets, i ∉ rest → ∀ j ∈ rest, k i ≤ k j)
    (hc : targets.card ≤ swept k limit targets blockers m + rest.card) :
    targets.card ≤ swept k limit targets blockers (m + 1) + (rest \ batch).card := by
  have hsplit := Finset.card_sdiff_add_card_inter rest batch
  obtain hnone | hsome := (rest ∩ batch).eq_empty_or_nonempty
  · have hmono : swept k limit targets blockers m ≤ swept k limit targets blockers (m + 1) :=
      swept_le_succ
    rw [hnone, Finset.card_empty] at hsplit
    omega
  -- The last target of the batch.
  obtain ⟨i, hi, hmax⟩ := Finset.exists_max_image _ k hsome
  obtain ⟨hir, hib⟩ := Finset.mem_inter.mp hi
  have hroom : (upTo k blockers (k i)).card + (rest ∩ batch).card ≤ limit := by
    rw [← Finset.card_union_of_disjoint]
    · refine (Finset.card_le_card (Finset.union_subset (hfirst i hir hib) ?_)).trans h.card_le
      exact Finset.inter_subset_right
    · refine hdisj.symm.mono upTo_subset ?_
      exact Finset.inter_subset_left.trans hrest
  have hupTo : targets \ (rest \ batch) ⊆ upTo k targets (k i) := by
    intro j hj
    obtain ⟨hjt, hjn⟩ := Finset.mem_sdiff.mp hj
    refine mem_upTo.mpr ⟨hjt, ?_⟩
    by_cases hjr : j ∈ rest
    · refine hmax j (Finset.mem_inter.mpr ⟨hjr, ?_⟩)
      by_contra hjb
      exact hjn (Finset.mem_sdiff.mpr ⟨hjr, hjb⟩)
    · exact hup j hjt hjr i hir
  have hcard := Finset.card_le_card hupTo
  rw [Finset.card_sdiff_of_subset (Finset.sdiff_subset.trans hrest)] at hcard
  have hreach : min (upTo k targets (k i)).card (swept k limit targets blockers m + limit -
      (upTo k blockers (k i)).card) ≤ swept k limit targets blockers (m + 1) :=
    Finset.le_sup (f := fun i => min (upTo k targets (k i)).card
      (swept k limit targets blockers m + limit - (upTo k blockers (k i)).card)) (hrest hir)
  omega

end Sweep
