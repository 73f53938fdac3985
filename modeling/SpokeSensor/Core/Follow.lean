import SpokeSensor.Core.Phase
import Mathlib.Data.Int.CardIntervalMod

/-!
# Following a change of speed

A locked estimator with the table `L` is fed the intervals `s L j`, in phase with the
table. In one revolution every cell is updated once (`ir_spoke_pattern.c:44–49`),
towards its own target, so the cells are independent gated smoothers
(`lut_following`).

- `Passes`: a cell whose target passes its gate closes in on it by 8 percent a
  revolution; one whose target is an outlier never moves (47–48).
- `speedError_lt`, `speedError_frozen`: all targets lie on the same side of their
  cells. Hence the error of the published revolution shrinks at every revolution when
  some cell lets its target pass, and stays otherwise.
- `follows_speed_iff`: the two together, for every reachable locked state.
- `tenth_slower_followed`, `half_speed_frozen`: a change of speed that every gate
  takes for an outlier leaves the estimate where it was.
-/

namespace SpokeSensor.Pattern

open Finset

/-- The intervals that follow: the target of the cell under the index. -/
def following (p : Pattern ℚ) (y : ℕ → ℕ) (t : ℕ) : ℕ :=
  y ((p.spokeIndex + t) % p.estimate.spokeCount)

/-- The error of the published revolution, `R` revolutions on. -/
def speedError (p : Pattern ℚ) (y : ℕ → ℕ) (s : ℚ) (R : ℕ) : ℚ :=
  |(p.timedRun (p.following y) (p.estimate.spokeCount * R)).estimate.revolutionPeriodUs
    - s * ∑ j ∈ range p.estimate.spokeCount, p.lut j|

/-- The target `y j` passes the gate of the cell `j`. -/
def Passes (p : Pattern ℚ) (y : ℕ → ℕ) (j : ℕ) : Prop :=
  |(y j : ℚ) - p.lut j| ≤ max 80 (28 / 100 * p.lut j)

instance (p : Pattern ℚ) (y : ℕ → ℕ) (j : ℕ) : Decidable (p.Passes y j) := by
  unfold Passes; infer_instance

/-! ## One cell under a constant target

A cell that meets the same interval again and again goes towards it by eight percent
each time, if the first distance is within the gate, and stays where it is otherwise.
After that first meeting nothing changes: a cell that has passed its gate comes
closer, and the gate stays open.
-/

section Cell

variable {cell : ℚ} {y : ℕ}

/-- Within the accepted range an update is a smoothing step, over and over. -/
theorem iterate_adaptCell_eq (hc : 70 ≤ cell ∧ cell ≤ 15000) (hy : 70 ≤ y ∧ y ≤ 15000) (k : ℕ) :
    (fun c => adaptCell c (y : ℚ))^[k] cell
      = (fun c => Smoothing.step (8 / 100) (Smoothing.shareGate 80 (28 / 100)) c (y : ℚ))^[k]
          cell := by
  have hy' : (70 : ℚ) ≤ y ∧ (y : ℚ) ≤ 15000 := ⟨by exact_mod_cast hy.1, by exact_mod_cast hy.2⟩
  induction k generalizing cell with
  | zero => rfl
  | succ k ih =>
    -- the updated cell is within the range, hence occupied, again
    rw [Function.iterate_succ_apply, Function.iterate_succ_apply, ih (adaptCell_mem hc hy'),
      adaptCell_eq (by linarith [hc.1])]

/-- The distance left after `k` updates. -/
theorem iterate_adaptCell_sub (hc : 70 ≤ cell ∧ cell ≤ 15000) (hy : 70 ≤ y ∧ y ≤ 15000)
    (k : ℕ) :
    (fun c => adaptCell c (y : ℚ))^[k] cell - y
      = -((if |(y : ℚ) - cell| ≤ max 80 (28 / 100 * cell) then (92 / 100) ^ k else 1)
          * (y - cell)) := by
  rw [iterate_adaptCell_eq hc hy]
  by_cases h : |(y : ℚ) - cell| ≤ max 80 (28 / 100 * cell)
  · rw [if_pos h, Smoothing.iterate_of_pass (by norm_num) (by norm_num) (by norm_num)
      (by norm_num) h]
    norm_num
  · rw [if_neg h, Smoothing.iterate_of_fail h]
    ring

end Cell

/-! ## All cells

After a change of speed every cell has one target. The error of the published period
is the sum of what the cells are short of, all in the same direction, so it shrinks
exactly if one of them moves.
-/

section Run

variable {p : Pattern ℚ} {xs : List ℕ} {y : ℕ → ℕ} {s : ℚ} {N : ℕ}

theorem following_accepted (hn : 0 < p.estimate.spokeCount)
    (hy : ∀ j < p.estimate.spokeCount, 70 ≤ y j ∧ y j ≤ 15000) : Accepted (p.following y) :=
  fun _ => hy _ (Nat.mod_lt _ hn)

/-- After `t` edges the index has moved `t` cells, and each cell has met its target as
often as the index has passed it. This is an induction on the edges, with the index
carrying it. -/
theorem lut_following (h : Inv p xs) (hl : p.estimate.countLocked = true)
    (hx : Accepted (p.following y))
    (hedge : ∀ k, k ≤ N → edgeAt p.lastEdgeUs (p.following y) k ≠ 0) :
    ∀ {t : ℕ}, t ≤ N →
      (p.timedRun (p.following y) t).estimate.countLocked = true ∧
      (p.timedRun (p.following y) t).estimate.spokeCount = p.estimate.spokeCount ∧
      (p.timedRun (p.following y) t).spokeIndex = (p.spokeIndex + t) % p.estimate.spokeCount ∧
      ∀ j, (p.timedRun (p.following y) t).lut j
        = (fun c => adaptCell c (y j : ℚ))^[
            Nat.count (fun i => (p.spokeIndex + i) % p.estimate.spokeCount = j) t] (p.lut j)
  | 0, _ => by
    rw [timedRun_zero]
    exact ⟨hl, rfl, (Nat.mod_eq_of_lt (h.shape.index_lt hl)).symm, fun j => rfl⟩
  | t + 1, ht => by
    obtain ⟨hl', hc, hi, hlut⟩ := lut_following h hl hx hedge (Nat.le_of_succ_le ht)
    have hshape := (inv_timedRun h hx hedge (Nat.le_of_succ_le ht)).shape
    obtain ⟨hl'', hc', hi', hlut'⟩ := timedRun_succ_locked hx hedge ht hshape hl'
    refine ⟨hl'', hc'.trans hc, ?_, fun j => ?_⟩
    · rw [hi', hc, hi, Nat.mod_add_mod, Nat.add_assoc]
    · -- only the cell under the index meets its target once more
      rw [hlut', hi, Nat.count_succ]
      by_cases hj : (p.spokeIndex + t) % p.estimate.spokeCount = j
      · rw [if_pos hj.symm, if_pos hj, hj, hlut, Function.iterate_succ_apply']
        rw [following, hj]
      · rw [if_neg (Ne.symm hj), if_neg hj, Nat.add_zero]
        exact hlut j

/-- A whole number of revolutions passes every cell equally often. -/
theorem count_revolutions {n idx j R : ℕ} (hidx : idx < n) (hj : j < n) :
    Nat.count (fun i => (idx + i) % n = j) (n * R) = R := by
  have hn : 0 < n := Nat.zero_lt_of_lt hj
  have htarget : idx + (j + (n - idx)) ≡ j [MOD n] := by
    rw [show idx + (j + (n - idx)) = j + n by omega]
    exact Nat.add_mod_right j n
  have hcongr : (fun i => (idx + i) % n = j) = fun i => i ≡ j + (n - idx) [MOD n] := by
    funext i
    rw [eq_iff_iff]
    constructor
    · intro hi
      have hmod : idx + i ≡ j [MOD n] := hi.trans (Nat.mod_eq_of_lt hj).symm
      exact Nat.ModEq.add_left_cancel' idx (hmod.trans htarget.symm)
    · intro hi
      exact Eq.trans ((Nat.ModEq.add_left idx hi).trans htarget) (Nat.mod_eq_of_lt hj)
  simp only [hcongr]
  rw [Nat.count_modEq_card _ hn, Nat.mul_div_cancel_left _ hn, Nat.mul_mod_right,
    if_neg (Nat.not_lt_zero _), Nat.add_zero]

/-- What is left of the speed change after `R` revolutions. -/
theorem speedError_eq (h : Inv p xs) (hl : p.estimate.countLocked = true)
    (hy : ∀ j < p.estimate.spokeCount, (y j : ℚ) = s * p.lut j ∧ 70 ≤ y j ∧ y j ≤ 15000)
    (hedge : ∀ k, k ≤ N → edgeAt p.lastEdgeUs (p.following y) k ≠ 0) {R : ℕ}
    (hR : p.estimate.spokeCount * R ≤ N) :
    p.speedError y s R
      = |s - 1| * ∑ j ∈ range p.estimate.spokeCount,
          (if p.Passes y j then (92 / 100) ^ R else 1) * p.lut j := by
  have hn : 0 < p.estimate.spokeCount := Nat.pos_of_ne_zero (h.shape.locked_iff.mp hl)
  have hx := following_accepted hn fun j hj => (hy j hj).2
  obtain ⟨-, hc, -, hlut⟩ := lut_following h hl hx hedge hR
  have hinv := inv_timedRun h hx hedge hR
  have hcell : ∀ j ∈ range p.estimate.spokeCount,
      (p.timedRun (p.following y) (p.estimate.spokeCount * R)).lut j - s * p.lut j
        = -((s - 1) * ((if p.Passes y j then (92 / 100) ^ R else 1) * p.lut j)) := by
    intro j hj
    have hj := mem_range.mp hj
    obtain ⟨hyj, hmem⟩ := hy j hj
    have hdist : (y j : ℚ) - p.lut j = (s - 1) * p.lut j := by
      rw [hyj]
      ring
    rw [hlut j, count_revolutions (h.shape.index_lt hl) hj, ← hyj,
      iterate_adaptCell_sub (h.cells j hj) hmem]
    by_cases hp : p.Passes y j
    · rw [if_pos hp, if_pos (by exact hp), hdist]
      ring
    · rw [if_neg hp, if_neg (by exact hp), hdist]
      ring
  -- every cell errs on the same side, so the sum of the errors is the error of the sum
  rw [speedError, hinv.revolution, hc, mul_sum, ← sum_sub_distrib, sum_congr rfl hcell,
    sum_neg_distrib, ← mul_sum, abs_neg, abs_mul]
  congr 1
  refine abs_of_nonneg (sum_nonneg fun j hj => mul_nonneg ?_ ?_)
  · split <;> positivity
  · linarith [(h.cells j (mem_range.mp hj)).1]

/-- A cell that lets its target pass makes every revolution shrink the error. -/
theorem speedError_lt (h : Inv p xs) (hl : p.estimate.countLocked = true) (hs : s ≠ 1)
    (hy : ∀ j < p.estimate.spokeCount, (y j : ℚ) = s * p.lut j ∧ 70 ≤ y j ∧ y j ≤ 15000)
    (hedge : ∀ k, k ≤ N → edgeAt p.lastEdgeUs (p.following y) k ≠ 0) {R : ℕ}
    (hR : p.estimate.spokeCount * (R + 1) ≤ N)
    (hpass : ∃ j < p.estimate.spokeCount, p.Passes y j) :
    p.speedError y s (R + 1) < p.speedError y s R := by
  have hR' : p.estimate.spokeCount * R ≤ N :=
    le_trans (Nat.mul_le_mul_left _ (Nat.le_succ R)) hR
  rw [speedError_eq h hl hy hedge hR, speedError_eq h hl hy hedge hR']
  refine mul_lt_mul_of_pos_left ?_ (abs_pos.mpr (sub_ne_zero.mpr hs))
  have hpow : ((92 : ℚ) / 100) ^ (R + 1) < (92 / 100) ^ R :=
    pow_lt_pow_right_of_lt_one₀ (by norm_num) (by norm_num) (Nat.lt_succ_self R)
  have hpos : ∀ j < p.estimate.spokeCount, 0 < p.lut j :=
    fun j hj => by linarith [(h.cells j hj).1]
  obtain ⟨j, hj, hpj⟩ := hpass
  refine sum_lt_sum (fun i hi => ?_) ⟨j, mem_range.mpr hj, ?_⟩
  · refine mul_le_mul_of_nonneg_right ?_ (hpos i (mem_range.mp hi)).le
    split
    · exact hpow.le
    · exact le_rfl
  · rw [if_pos hpj, if_pos hpj]
    exact mul_lt_mul_of_pos_right hpow (hpos j hj)

/-- When every target is an outlier the error stays what it was. -/
theorem speedError_frozen (h : Inv p xs) (hl : p.estimate.countLocked = true)
    (hy : ∀ j < p.estimate.spokeCount, (y j : ℚ) = s * p.lut j ∧ 70 ≤ y j ∧ y j ≤ 15000)
    (hedge : ∀ k, k ≤ N → edgeAt p.lastEdgeUs (p.following y) k ≠ 0) {R : ℕ}
    (hR : p.estimate.spokeCount * R ≤ N)
    (hfail : ∀ j < p.estimate.spokeCount, ¬ p.Passes y j) :
    p.speedError y s R = |s - 1| * ∑ j ∈ range p.estimate.spokeCount, p.lut j := by
  rw [speedError_eq h hl hy hedge hR]
  congr 1
  refine sum_congr rfl fun j hj => ?_
  rw [if_neg (hfail j (mem_range.mp hj)), one_mul]

end Run

/-- After a change of speed by the factor `s`, every revolution brings the published
period closer to the true one exactly when some interval lies within the outlier gate
of its cell. The cells are independent, none moves away from its target, and one that
passes its gate once passes it for ever (`Smoothing.gate_persists`). -/
theorem follows_speed_iff (es : List UInt64)
    (hl : (init.ingestAll es : Pattern ℚ).estimate.countLocked = true) (y : ℕ → ℕ) {s : ℚ}
    (hs : 0 < s ∧ s ≠ 1)
    (hy : ∀ j < (init.ingestAll es : Pattern ℚ).estimate.spokeCount,
      (y j : ℚ) = s * (init.ingestAll es : Pattern ℚ).lut j ∧ 70 ≤ y j ∧ y j ≤ 15000)
    {N : ℕ} (hN : (init.ingestAll es : Pattern ℚ).estimate.spokeCount ≤ N)
    (hedge : ∀ k, k ≤ N → edgeAt (init.ingestAll es : Pattern ℚ).lastEdgeUs
      ((init.ingestAll es : Pattern ℚ).following y) k ≠ 0) :
    (∀ R, (init.ingestAll es : Pattern ℚ).estimate.spokeCount * (R + 1) ≤ N →
      (init.ingestAll es : Pattern ℚ).speedError y s (R + 1)
        < (init.ingestAll es : Pattern ℚ).speedError y s R) ↔
    ∃ j < (init.ingestAll es : Pattern ℚ).estimate.spokeCount,
      |(y j : ℚ) - (init.ingestAll es : Pattern ℚ).lut j|
        ≤ max 80 (28 / 100 * (init.ingestAll es : Pattern ℚ).lut j) := by
  have hinv := inv_run es
  constructor
  · intro hless
    by_contra hnone
    have hfail : ∀ j < (init.ingestAll es : Pattern ℚ).estimate.spokeCount,
        ¬ (init.ingestAll es : Pattern ℚ).Passes y j := fun j hj hp => hnone ⟨j, hj, hp⟩
    have hlt := hless 0 (by omega)
    rw [speedError_frozen hinv hl hy hedge (by omega) hfail,
      speedError_frozen hinv hl hy hedge (by omega) hfail] at hlt
    exact lt_irrefl _ hlt
  · exact fun hpass R hR => speedError_lt hinv hl hs.2 hy hedge hR hpass

/-! ## Twenty-five spokes with one wide gap, slowing down

A run that locks and then slows down: within the gate it is followed, and at half the
speed it is not.
-/

/-- The edges up to the lock of a wheel of 25 spokes. -/
def lockedEdges : List UInt64 := (List.range (192 + 1)).map (edgeAt 1 (oneGap 25 2000))

theorem ingestAll_lockedEdges :
    init.ingestAll lockedEdges = wheelRun 1 (oneGap 25 2000) 192 := rfl

theorem lockedEdges_locksAt : LocksAt 1 (oneGap 25 2000) 192 191 25 :=
  oneGap_locksAt (by decide) (by decide) (by decide) (by decide) (by decide)

theorem lockedEdges_locked :
    (init.ingestAll lockedEdges : Pattern ℚ).estimate.countLocked = true ∧
      (init.ingestAll lockedEdges : Pattern ℚ).estimate.spokeCount = 25 := by
  have h := And.intro lockedEdges_locksAt.locked lockedEdges_locksAt.count
  rw [show 191 + 1 = 192 from rfl] at h
  rwa [ingestAll_lockedEdges]

/-- The table holds the intervals of the turn that follows. -/
theorem lockedEdges_lut {j : ℕ} (hj : j < 25) :
    (init.ingestAll lockedEdges : Pattern ℚ).lut j = (oneGap 25 2000 (192 + j) : ℚ) := by
  have hmap : ∀ j < 25, capturedMap 1 (oneGap 25 2000) 191 25 j = (oneGap 25 2000 (192 + j) : ℚ) :=
    fun j hj => lockedEdges_locksAt.capturedMap_eq (oneGap_periodic 25 2000) hj
  have h := lockedEdges_locksAt.lut_eq j
  rw [show 191 + 1 = 192 from rfl] at h
  rw [ingestAll_lockedEdges, h]
  split
  · -- the locking interval is as long as the one that follows it
    subst j
    rw [hmap 0 hj]
    exact (adaptCell_eq_iff (by decide)).mpr (.inl (by decide))
  · exact hmap j hj

/-- The edges that follow do not wrap. -/
theorem lockedEdges_edge {y : ℕ → ℕ}
    (hx : Accepted ((init.ingestAll lockedEdges : Pattern ℚ).following y)) :
    ∀ k, k ≤ 25 → edgeAt (init.ingestAll lockedEdges : Pattern ℚ).lastEdgeUs
      ((init.ingestAll lockedEdges : Pattern ℚ).following y) k ≠ 0 := by
  have hgap := lockedEdges_locksAt.accepted
  have hedge := lockedEdges_locksAt.edge
  have hlast : (init.ingestAll lockedEdges : Pattern ℚ).lastEdgeUs
      = edgeAt 1 (oneGap 25 2000) 192 := by
    rw [ingestAll_lockedEdges, wheelRun_eq (by decide)]
    exact lastEdge_timedRun hedge le_rfl
  have hnat : (edgeAt 1 (oneGap 25 2000) 192).toNat = _ :=
    edgeAt_toNat (n := 192) hgap (by decide) le_rfl
  have hsum : ∑ i ∈ range 192, oneGap 25 2000 i ≤ 192 * 15000 := by
    simpa using Finset.sum_le_card_nsmul (range 192) (oneGap 25 2000) 15000 fun i _ => (hgap i).2
  rw [hlast]
  refine edgeAt_ne_zero hx (hedge 192 le_rfl) ?_
  rw [hnat]
  exact lt_of_le_of_lt (Nat.add_le_add_right (Nat.add_le_add_left hsum _) _) (by decide)

/-- Ten percent slower is followed. -/
theorem tenth_slower_followed :
    (∀ R, (init.ingestAll lockedEdges : Pattern ℚ).estimate.spokeCount * (R + 1) ≤ 25 →
      (init.ingestAll lockedEdges : Pattern ℚ).speedError
          (fun j => 11 * oneGap 25 2000 (192 + j) / 10) (11 / 10) (R + 1)
        < (init.ingestAll lockedEdges : Pattern ℚ).speedError
          (fun j => 11 * oneGap 25 2000 (192 + j) / 10) (11 / 10) R) ↔
    ∃ j < (init.ingestAll lockedEdges : Pattern ℚ).estimate.spokeCount,
      |((11 * oneGap 25 2000 (192 + j) / 10 : ℕ) : ℚ)
          - (init.ingestAll lockedEdges : Pattern ℚ).lut j|
        ≤ max 80 (28 / 100 * (init.ingestAll lockedEdges : Pattern ℚ).lut j) := by
  obtain ⟨hl, hcount⟩ := lockedEdges_locked
  have hy : ∀ j < (init.ingestAll lockedEdges : Pattern ℚ).estimate.spokeCount,
      ((11 * oneGap 25 2000 (192 + j) / 10 : ℕ) : ℚ)
          = 11 / 10 * (init.ingestAll lockedEdges : Pattern ℚ).lut j ∧
        70 ≤ 11 * oneGap 25 2000 (192 + j) / 10 ∧ 11 * oneGap 25 2000 (192 + j) / 10 ≤ 15000 := by
    intro j hj
    rw [lockedEdges_lut (hcount ▸ hj), oneGap]
    split <;> norm_num
  exact follows_speed_iff lockedEdges hl _ (by norm_num) hy (by rw [hcount])
    (lockedEdges_edge (following_accepted (by rw [hcount]; decide) fun j hj => (hy j hj).2))

/-- Half the speed is taken for an outlier in every cell: the intervals double, and
the gates are 28 percent wide. The error stays, and so does the lock. -/
theorem half_speed_frozen :
    (init.ingestAll lockedEdges : Pattern ℚ).estimate.countLocked = true ∧
    (∀ j < (init.ingestAll lockedEdges : Pattern ℚ).estimate.spokeCount,
      ((2 * oneGap 25 2000 (192 + j) : ℕ) : ℚ)
          = 2 * (init.ingestAll lockedEdges : Pattern ℚ).lut j ∧
        70 ≤ 2 * oneGap 25 2000 (192 + j) ∧ 2 * oneGap 25 2000 (192 + j) ≤ 15000) ∧
    (∀ k, k ≤ 25 → edgeAt (init.ingestAll lockedEdges : Pattern ℚ).lastEdgeUs
      ((init.ingestAll lockedEdges : Pattern ℚ).following
        fun j => 2 * oneGap 25 2000 (192 + j)) k ≠ 0) ∧
    ¬ (init.ingestAll lockedEdges : Pattern ℚ).speedError
          (fun j => 2 * oneGap 25 2000 (192 + j)) 2 1
        < (init.ingestAll lockedEdges : Pattern ℚ).speedError
          (fun j => 2 * oneGap 25 2000 (192 + j)) 2 0 := by
  obtain ⟨hl, hcount⟩ := lockedEdges_locked
  have hinv := inv_run lockedEdges
  have hy : ∀ j < (init.ingestAll lockedEdges : Pattern ℚ).estimate.spokeCount,
      ((2 * oneGap 25 2000 (192 + j) : ℕ) : ℚ)
          = 2 * (init.ingestAll lockedEdges : Pattern ℚ).lut j ∧
        70 ≤ 2 * oneGap 25 2000 (192 + j) ∧ 2 * oneGap 25 2000 (192 + j) ≤ 15000 := by
    intro j hj
    rw [lockedEdges_lut (hcount ▸ hj), oneGap]
    split <;> norm_num
  have hedge := lockedEdges_edge (y := fun j => 2 * oneGap 25 2000 (192 + j))
    (following_accepted (by rw [hcount]; decide) fun j hj => (hy j hj).2)
  have hfail : ∀ j < (init.ingestAll lockedEdges : Pattern ℚ).estimate.spokeCount,
      ¬ (init.ingestAll lockedEdges : Pattern ℚ).Passes
        (fun j => 2 * oneGap 25 2000 (192 + j)) j := by
    intro j hj
    rw [Passes, lockedEdges_lut (hcount ▸ hj), oneGap]
    split <;> norm_num
  refine ⟨hl, hy, hedge, ?_⟩
  rw [speedError_frozen hinv hl hy hedge (by rw [hcount]) hfail,
    speedError_frozen hinv hl hy hedge (by omega) hfail]
  exact lt_irrefl _

end SpokeSensor.Pattern
