import SpokeSensor.Core.Follow
import SpokeSensor.Lib.RoundRobin

/-!
# What one edge can change in a locked estimator

An edge whose spacing from the last one is accepted moves the cell under the index and
the index itself (`ir_spoke_pattern.c:42–55`); any other edge moves neither.

- `Counts`: which edges these are.
- `lut_ingestEdge`, `index_ingestEdge`, `revolution_ingestEdge`: the cells, the index
  and the published revolution after one edge.
- `abs_adaptCell_sub_le`: the cell moves by at most 8 percent of its gate.
- `cellChanges_le`: along a run the cells are served in turn, so `k` edges change none
  of them more than `⌈k / spoke_count⌉` times.
- `adaptation_bounded`: all of it, in every locked state that a run reaches.

The timestamp `0` stands for no time and is refused before its spacing is looked at
(62), also when the clock wraps onto it (`wrapped_zero_ignored`).
-/

namespace SpokeSensor.Pattern

open Finset

/-- The edge counts: it is not the reserved timestamp, and its spacing is accepted. -/
def Counts (p : Pattern ℚ) (e : UInt64) : Prop :=
  e ≠ 0 ∧ 70 ≤ p.intervalTo e ∧ p.intervalTo e ≤ 15000

instance (p : Pattern ℚ) (e : UInt64) : Decidable (p.Counts e) := by
  unfold Counts; infer_instance

/-- How many of the calls change the cell `j`. -/
def cellChanges (p : Pattern ℚ) (j : ℕ) : List UInt64 → ℕ
  | [] => 0
  | e :: es =>
    (if (p.ingestEdge e).1.lut j = p.lut j then 0 else 1) + cellChanges (p.ingestEdge e).1 j es

/-- Which of the calls count. -/
def counted (p : Pattern ℚ) : List UInt64 → List Bool
  | [] => []
  | e :: es => decide (p.Counts e) :: counted (p.ingestEdge e).1 es

theorem counted_length (p : Pattern ℚ) (es : List UInt64) :
    (p.counted es).length = es.length := by
  induction es generalizing p with
  | nil => rfl
  | cons e es ih => rw [counted, List.length_cons, List.length_cons, ih]

variable {p : Pattern ℚ} {xs : List ℕ}

/-! ## One edge

In a locked state an edge reaches `update_map` alone (`ir_spoke_pattern.c:42–55`), and
that moves one cell, towards the interval, within its gate.
-/

/-- An edge that does not count leaves everything but the clock. -/
theorem ingestEdge_not_counts (hl : p.estimate.countLocked = true) {e : UInt64}
    (hc : ¬ p.Counts e) :
    (p.ingestEdge e).1.intervalLut = p.intervalLut ∧
      (p.ingestEdge e).1.spokeIndex = p.spokeIndex ∧
      (p.ingestEdge e).1.estimate = p.estimate := by
  rcases ingestEdge_locked hl e with heq | heq | ⟨h0, -, hr, -⟩
  · rw [heq]
    exact ⟨rfl, rfl, rfl⟩
  · rw [heq]
    exact ⟨rfl, rfl, rfl⟩
  · exact absurd ⟨h0, (inRange_iff _).mp hr⟩ hc

/-- An edge that counts updates the table. -/
theorem ingestEdge_counts (h : Inv p xs) (hl : p.estimate.countLocked = true) {e : UInt64}
    (hc : p.Counts e) :
    (p.ingestEdge e).1 = ((p.withEdge e).pushInterval (ofRat (p.intervalTo e))).updateMap
      (ofRat (p.intervalTo e)) := by
  obtain ⟨h0, hrange⟩ := hc
  rcases ingestEdge_cases p e with
    ⟨hz, -⟩ | ⟨-, hlast, -⟩ | ⟨-, -, hr, -⟩ | ⟨-, -, -, heq⟩
  · exact absurd hz h0
  · exact absurd hlast (h.started (h.learned hl))
  · exact absurd ((inRange_iff _).mpr hrange) hr
  · rw [heq]
    exact learn_locked (by exact hl) _

/-- The cells after one edge. -/
theorem lut_ingestEdge (h : Inv p xs) (hl : p.estimate.countLocked = true) (e : UInt64) (j : ℕ) :
    (p.ingestEdge e).1.lut j
      = if p.Counts e ∧ p.spokeIndex = j then adaptCell (p.lut j) (p.intervalTo e)
        else p.lut j := by
  by_cases hc : p.Counts e
  · rw [ingestEdge_counts h hl hc, updateMap_lut _ _ (by exact h.shape.index_lt_max hl)]
    show (if j = p.spokeIndex then adaptCell (p.lut p.spokeIndex) (p.intervalTo e : ℚ)
      else p.lut j) = _
    by_cases hj : p.spokeIndex = j
    · rw [if_pos hj.symm, if_pos ⟨hc, hj⟩, hj]
    · rw [if_neg (Ne.symm hj), if_neg (fun hcj => hj hcj.2)]
  · obtain ⟨hlut, -, -⟩ := ingestEdge_not_counts hl hc
    rw [if_neg (fun hcj => hc hcj.1), lut, hlut, lut]

/-- The index after one edge. -/
theorem index_ingestEdge (h : Inv p xs) (hl : p.estimate.countLocked = true) (e : UInt64) :
    (p.ingestEdge e).1.spokeIndex
      = if p.Counts e then (p.spokeIndex + 1) % p.estimate.spokeCount else p.spokeIndex := by
  by_cases hc : p.Counts e
  · rw [if_pos hc, ingestEdge_counts h hl hc]
    rfl
  · rw [if_neg hc]
    exact (ingestEdge_not_counts hl hc).2.1

/-- No update moves a cell by more than 8 percent of its gate. -/
theorem abs_adaptCell_sub_le {cell : ℚ} (hc : 0 < cell) (x : ℚ) :
    |adaptCell cell x - cell| ≤ 8 / 100 * max 80 (28 / 100 * cell) := by
  rw [adaptCell_eq hc]
  exact Smoothing.abs_step_sub_le (by norm_num) (le_max_of_le_left (by norm_num))

/-- The published revolution moves with the cell under the index. -/
theorem revolution_ingestEdge (h : Inv p xs) (hl : p.estimate.countLocked = true) (e : UInt64) :
    (p.ingestEdge e).1.estimate.revolutionPeriodUs - p.estimate.revolutionPeriodUs
      = (p.ingestEdge e).1.lut p.spokeIndex - p.lut p.spokeIndex := by
  have hcount := (estimate_ingestEdge_locked hl e).1
  rw [(h.ingestEdge e).revolution, h.revolution, hcount, ← sum_sub_distrib]
  refine sum_eq_single_of_mem _ (mem_range.mpr (h.shape.index_lt hl)) fun j _ hj => ?_
  rw [lut_ingestEdge h hl, if_neg (fun hcj => hj hcj.2.symm), sub_self]

/-! ## Runs

The index moves by one cell an edge, so a cell is visited once in each revolution of
the index; nothing else can change it.
-/

/-- The cells are served in turn: a cell changes only when it is under the index. -/
theorem cellChanges_le_visits (h : Inv p xs) (hl : p.estimate.countLocked = true) (j : ℕ)
    (es : List UInt64) :
    p.cellChanges j es
      ≤ RoundRobin.visits p.estimate.spokeCount p.spokeIndex j (p.counted es) := by
  induction es generalizing p xs with
  | nil => exact le_rfl
  | cons e es ih =>
    obtain ⟨hcount, -, hlock⟩ := estimate_ingestEdge_locked hl e
    have hrest := ih (h.ingestEdge e) hlock
    rw [hcount, index_ingestEdge h hl] at hrest
    rw [cellChanges, counted, lut_ingestEdge h hl]
    by_cases hc : p.Counts e
    · rw [if_pos hc] at hrest
      rw [decide_eq_true hc, RoundRobin.visits]
      refine Nat.add_le_add ?_ hrest
      by_cases hj : p.spokeIndex = j
      · rw [if_pos hj]
        split_ifs <;> omega
      · have hkept : ¬ (p.Counts e ∧ p.spokeIndex = j) := fun hcj => hj hcj.2
        rw [if_pos (if_neg hkept)]
        exact Nat.zero_le _
    · have hkept : ¬ (p.Counts e ∧ p.spokeIndex = j) := fun hcj => hc hcj.1
      rw [if_neg hc] at hrest
      rw [decide_eq_false hc, RoundRobin.visits, if_pos (if_neg hkept), Nat.zero_add]
      exact hrest

/-- Over `k` edges no cell changes more than `⌈k / spoke_count⌉` times. A cell changes
only when it is under the index (`cellChanges_le_visits`), and the index serves the
cells in turn. -/
theorem cellChanges_le (h : Inv p xs) (hl : p.estimate.countLocked = true) (j : ℕ)
    (es : List UInt64) :
    p.cellChanges j es ≤ ⌈(es.length : ℚ) / p.estimate.spokeCount⌉₊ := by
  have hidx := h.shape.index_lt hl
  refine (cellChanges_le_visits h hl j es).trans ?_
  rw [← counted_length p es]
  by_cases hj : j < p.estimate.spokeCount
  · exact RoundRobin.visits_le_ceil hidx hj _
  · rw [RoundRobin.visits_eq_zero hidx (not_lt.mp hj)]
    exact Nat.zero_le _

/-- What one edge may do to a locked estimator: a step of the cell under the index
that is bounded by its gate, a step of the index, and a published revolution that
moves with the cell. Count and confidence stay. -/
structure Adapts (p : Pattern ℚ) (e : UInt64) : Prop where
  /-- No cell but the one under the index changes. -/
  others : ∀ j ≠ p.spokeIndex, (p.ingestEdge e).1.lut j = p.lut j
  cell : |(p.ingestEdge e).1.lut p.spokeIndex - p.lut p.spokeIndex|
    ≤ 8 / 100 * max 80 (28 / 100 * p.lut p.spokeIndex)
  spokeCount : (p.ingestEdge e).1.estimate.spokeCount = p.estimate.spokeCount
  confidence : (p.ingestEdge e).1.estimate.confidence = p.estimate.confidence
  /-- The index advances by one for an edge that counts, and for no other. -/
  index : (p.ingestEdge e).1.spokeIndex
    = if p.Counts e then (p.spokeIndex + 1) % p.estimate.spokeCount else p.spokeIndex
  advances : (p.ingestEdge e).1.spokeIndex = (p.spokeIndex + 1) % p.estimate.spokeCount ↔
    p.Counts e
  revolution : (p.ingestEdge e).1.estimate.revolutionPeriodUs - p.estimate.revolutionPeriodUs
    = (p.ingestEdge e).1.lut p.spokeIndex - p.lut p.spokeIndex

/-- With more than one spoke the next index is another one. -/
theorem succ_mod_ne {n i : ℕ} (hn : 1 < n) (hi : i < n) : i ≠ (i + 1) % n := by
  by_cases hwrap : i + 1 = n
  · rw [hwrap, Nat.mod_self]
    omega
  · rw [Nat.mod_eq_of_lt (by omega)]
    omega

theorem Inv.adapts (h : Inv p xs) (hl : p.estimate.countLocked = true) (e : UInt64) :
    p.Adapts e where
  others j hj := by
    rw [lut_ingestEdge h hl, if_neg (fun hcj => hj hcj.2.symm)]
  cell := by
    have hpos : 0 < p.lut p.spokeIndex := by
      linarith [(h.cells _ (h.shape.index_lt hl)).1]
    rw [lut_ingestEdge h hl]
    split
    · exact abs_adaptCell_sub_le hpos _
    · rw [sub_self, abs_zero]
      exact mul_nonneg (by norm_num) (le_max_of_le_left (by norm_num))
  spokeCount := (estimate_ingestEdge_locked hl e).1
  confidence := (estimate_ingestEdge_locked hl e).2.1
  index := index_ingestEdge h hl e
  advances := by
    have hmany : 1 < p.estimate.spokeCount := lt_of_lt_of_le (by decide) (h.shape.count_ge hl)
    rw [index_ingestEdge h hl]
    by_cases hc : p.Counts e
    · rw [if_pos hc]
      exact iff_of_true rfl hc
    · rw [if_neg hc]
      exact iff_of_false (succ_mod_ne hmany (h.shape.index_lt hl)) hc
  revolution := revolution_ingestEdge h hl e

/-- Adaptation is bounded and local, in every locked state that a run reaches: each
further edge keeps to `Adapts`, and along any further edges a cell changes at most
once a revolution of the index. -/
theorem adaptation_bounded (es : List UInt64)
    (hl : (init.ingestAll es : Pattern ℚ).estimate.countLocked = true) :
    (∀ e, (init.ingestAll es : Pattern ℚ).Adapts e) ∧
    ∀ (ds : List UInt64) (j : ℕ), (init.ingestAll es : Pattern ℚ).cellChanges j ds
      ≤ ⌈(ds.length : ℚ) / (init.ingestAll es : Pattern ℚ).estimate.spokeCount⌉₊ :=
  ⟨(inv_run es).adapts hl, fun ds j => cellChanges_le (inv_run es) hl j ds⟩

/-- Adaptation after the lock of a wheel with one wide gap. -/
theorem lockedEdges_adapt :
    (∀ e, (init.ingestAll lockedEdges : Pattern ℚ).Adapts e) ∧
    ∀ (ds : List UInt64) (j : ℕ), (init.ingestAll lockedEdges : Pattern ℚ).cellChanges j ds
      ≤ ⌈(ds.length : ℚ) / (init.ingestAll lockedEdges : Pattern ℚ).estimate.spokeCount⌉₊ :=
  adaptation_bounded lockedEdges lockedEdges_locked.1

/-! ## The reserved timestamp

An edge at the timestamp zero is dropped (`ir_spoke_pattern.c:62`), although the clock
may come to zero after it has wrapped. The index stays then, whatever the interval is.
-/

/-- A locked wheel whose clock stands 100 microseconds before it wraps. -/
def wrappingEdges : List UInt64 := lockedEdges ++ [-100]

/-- The next edge is 100 microseconds later, at the timestamp `0`: its spacing is
within the range, the index stays. -/
theorem wrapped_zero_ignored :
    (init.ingestAll wrappingEdges : Pattern ℚ).estimate.countLocked = true ∧
    (init.ingestAll wrappingEdges : Pattern ℚ).intervalTo 0 = 100 ∧
    ¬ (((init.ingestAll wrappingEdges : Pattern ℚ).ingestEdge 0).1.spokeIndex
        = ((init.ingestAll wrappingEdges : Pattern ℚ).spokeIndex + 1)
          % (init.ingestAll wrappingEdges : Pattern ℚ).estimate.spokeCount ↔
      70 ≤ (init.ingestAll wrappingEdges : Pattern ℚ).intervalTo 0 ∧
        (init.ingestAll wrappingEdges : Pattern ℚ).intervalTo 0 ≤ 15000) := by
  have hlast : ∀ (p : Pattern ℚ) (e : UInt64), p.ingestAll [e] = (p.ingestEdge e).1 :=
    fun _ _ => rfl
  have hrun : (init.ingestAll wrappingEdges : Pattern ℚ)
      = ((init.ingestAll lockedEdges).ingestEdge (-100)).1 := by
    rw [wrappingEdges, ingestAll_append, hlast]
  have hl : (init.ingestAll wrappingEdges : Pattern ℚ).estimate.countLocked = true := by
    rw [hrun]
    exact (estimate_ingestEdge_locked lockedEdges_locked.1 _).2.2
  have hspacing : (init.ingestAll wrappingEdges : Pattern ℚ).intervalTo 0 = 100 := by
    rw [hrun, intervalTo, ingestEdge_lastEdgeUs _ (by decide)]
    decide
  refine ⟨hl, hspacing, fun hiff => ?_⟩
  have hmoved := ((inv_run wrappingEdges).adapts hl 0).advances.mp
    (hiff.mpr (by rw [hspacing]; exact ⟨by decide, by decide⟩))
  exact hmoved.1 rfl

end SpokeSensor.Pattern
