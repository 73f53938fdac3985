import SpokeSensor.Core.Repetition
import SpokeSensor.Lib.Smoothing

/-!
# The invariant of the estimator in exact arithmetic

`Inv p xs` relates a state to the list `xs` of every interval accepted so far, latest
first.

- `Inv`: the ring holds the first 104 of them, the learned cells stay within the
  accepted range (`ir_spoke_pattern.c:66`), and the published revolution period and
  wheel frequency are those of the table (51–54).
- `adaptCell_eq`, `adaptCell_mem`: an update of an occupied cell is a gated smoothing
  step and stays in range.
- `Inv.pushInterval`, `Inv.updateMap`, `Inv.learn`: each part of a call keeps the
  invariant.
- `Inv.ingestEdge`, `Inv.ingestAll`: and so do a call and a run, with `recordAll`
  collecting the intervals. `inv_run` is the case of a run from `init`.
-/

namespace SpokeSensor.Pattern

open Finset

/-! ## One cell

What the update makes of a cell within the limits stays within the limits.
-/

/-- An occupied cell makes a gated smoothing step. -/
theorem adaptCell_eq {cell : ℚ} (h : 0 < cell) (x : ℚ) :
    adaptCell cell x
      = Smoothing.step (8 / 100) (Smoothing.shareGate 80 (28 / 100)) cell x := by
  have hgate : gate cell = Smoothing.shareGate 80 (28 / 100) cell := by
    simp only [gate, Smoothing.shareGate, fmaxf_rat, ofRat_rat]
    norm_num
  simp only [adaptCell, ofRat_rat, if_pos h, fabsf_rat, hgate]
  rfl

theorem adaptCell_mem {cell x : ℚ} (hc : 70 ≤ cell ∧ cell ≤ 15000)
    (hx : 70 ≤ x ∧ x ≤ 15000) : 70 ≤ adaptCell cell x ∧ adaptCell cell x ≤ 15000 := by
  rw [adaptCell_eq (by linarith [hc.1])]
  exact Smoothing.step_mem (by norm_num) (by norm_num) hc hx

theorem lutSum_eq (p : Pattern ℚ) (n : ℕ) : p.lutSum n = ∑ i ∈ range n, p.lut i := by
  unfold lutSum
  induction n with
  | zero => rfl
  | succ n ih =>
    rw [List.range_succ, List.foldl_append, ih, sum_range_succ]
    rfl

theorem inRange_iff (x : ℕ) : InRange (ofRat x : ℚ) ↔ 70 ≤ x ∧ x ≤ 15000 := by
  simp only [InRange, ofRat_rat, not_or, not_lt, blockMinUs, linkLossUs]
  norm_num

/-! ## The invariant

Shape, history and published values together. It is what the numerical results take
from a reachable state.
-/

/-- The intervals accepted so far, `xs`, latest first, and what the state says about
them. Everything that a numerical result needs of a reachable state is here: what is
in the ring, between which bounds the cells are, and that what has been published is
what the table says. -/
structure Inv (p : Pattern ℚ) (xs : List ℕ) : Prop where
  shape : p.Shape
  ring : Ring.Holds p.history p.historyHead p.historySize (xs.map (Nat.cast : ℕ → ℚ))
  range : ∀ x ∈ xs, 70 ≤ x ∧ x ≤ 15000
  events : p.acceptedEvents = UInt32.ofNat xs.length
  started : xs ≠ [] → p.lastEdgeUs ≠ 0
  learned : p.estimate.countLocked = true → xs ≠ []
  cells : ∀ j < p.estimate.spokeCount, 70 ≤ p.lut j ∧ p.lut j ≤ 15000
  revolution : p.estimate.revolutionPeriodUs = ∑ j ∈ Finset.range p.estimate.spokeCount, p.lut j
  wheelHz : p.estimate.wheelHz
    = if 0 < p.estimate.revolutionPeriodUs then 1000000 / p.estimate.revolutionPeriodUs else 0
  confidence : 0 ≤ p.estimate.confidence ∧ p.estimate.confidence ≤ 1

variable {p : Pattern ℚ} {xs : List ℕ}

/-- The `k`-th latest accepted interval is read by `back`. -/
theorem Inv.back_eq (h : Inv p xs) {k : ℕ} (hk : k < p.historySize) :
    ∃ x, xs[k]? = some x ∧ p.back k = (x : ℚ) := by
  have := h.ring.back_eq k hk
  rw [List.getElem?_map, Option.map_eq_some_iff] at this
  obtain ⟨x, hx, heq⟩ := this
  exact ⟨x, hx, heq.symm⟩

theorem Inv.back_mem (h : Inv p xs) {k : ℕ} (hk : k < p.historySize) :
    70 ≤ p.back k ∧ p.back k ≤ 15000 := by
  obtain ⟨x, hx, heq⟩ := h.back_eq hk
  obtain ⟨h1, h2⟩ := h.range x (List.mem_of_getElem? hx)
  rw [heq]
  exact ⟨by exact_mod_cast h1, by exact_mod_cast h2⟩

theorem Inv.historySize_eq (h : Inv p xs) : p.historySize = min xs.length historyCapacity := by
  simpa using h.ring.size_eq

theorem Inv.init : Inv init [] where
  shape := shape_init
  ring := Ring.Holds.empty _
  range _ hx := nomatch hx
  events := rfl
  started h := absurd rfl h
  learned h := nomatch h
  cells j hj := absurd hj (Nat.not_lt_zero j)
  revolution := rfl
  wheelHz := rfl
  confidence := ⟨le_rfl, zero_le_one⟩

theorem Inv.withEdge (h : Inv p xs) {e : UInt64} (he : e ≠ 0) : Inv (p.withEdge e) xs where
  shape := h.shape.withEdge e
  ring := h.ring
  range := h.range
  events := h.events
  started _ := he
  learned := h.learned
  cells := h.cells
  revolution := h.revolution
  wheelHz := h.wheelHz
  confidence := h.confidence

theorem Inv.pushInterval (h : Inv p xs) (hlast : p.lastEdgeUs ≠ 0) {x : ℕ}
    (hx : 70 ≤ x ∧ x ≤ 15000) : Inv (p.pushInterval (ofRat x)) (x :: xs) where
  shape := h.shape.pushInterval _
  ring := h.ring.push (x : ℚ)
  range y hy := by
    rcases List.mem_cons.mp hy with rfl | hy
    · exact hx
    · exact h.range y hy
  events := by
    show p.acceptedEvents + 1 = _
    rw [h.events, List.length_cons, UInt32.ofNat_add]
    rfl
  started _ := hlast
  learned _ := List.cons_ne_nil _ _
  cells := h.cells
  revolution := h.revolution
  wheelHz := h.wheelHz
  confidence := h.confidence

theorem Inv.noteConfidence (h : Inv p xs) {c : ℚ} (hc : 0 ≤ c ∧ c ≤ 1) :
    Inv (p.noteConfidence c) xs where
  shape := ⟨h.shape.head_lt, h.shape.size_le, h.shape.unlocked, h.shape.count_ge,
    h.shape.count_le, h.shape.index_lt, h.shape.current_eq⟩
  ring := h.ring
  range := h.range
  events := h.events
  started := h.started
  learned := h.learned
  cells := h.cells
  revolution := h.revolution
  wheelHz := h.wheelHz
  confidence := hc

/-- The table update publishes the sum of the table it leaves behind. -/
theorem updateMap_revolution (p : Pattern ℚ) (x : ℚ) :
    (p.updateMap x).estimate.revolutionPeriodUs
      = ∑ j ∈ Finset.range p.estimate.spokeCount, (p.updateMap x).lut j :=
  lutSum_eq (p.updateMap x) p.estimate.spokeCount

theorem updateMap_wheelHz (p : Pattern ℚ) (x : ℚ) :
    (p.updateMap x).estimate.wheelHz
      = if 0 < (p.updateMap x).estimate.revolutionPeriodUs then
          1000000 / (p.updateMap x).estimate.revolutionPeriodUs
        else 0 := by
  have hmega : (ofRat 1.0e6 : ℚ) = 1000000 := by
    rw [ofRat_rat]
    norm_num
  show (if (ofRat 0 : ℚ) < (p.updateMap x).estimate.revolutionPeriodUs then
    (ofRat 1.0e6 : ℚ) / (p.updateMap x).estimate.revolutionPeriodUs else ofRat 0) = _
  rw [hmega]
  rfl

/-- `update_map` on a table within range, whatever was published before. -/
theorem Inv.updateMap {x : ℕ} (hx : 70 ≤ x ∧ x ≤ 15000) (hshape : (p.updateMap (ofRat x)).Shape)
    (hring : Ring.Holds p.history p.historyHead p.historySize (xs.map (Nat.cast : ℕ → ℚ)))
    (hrange : ∀ x ∈ xs, 70 ≤ x ∧ x ≤ 15000)
    (hevents : p.acceptedEvents = UInt32.ofNat xs.length)
    (hstarted : p.lastEdgeUs ≠ 0) (hne : xs ≠ [])
    (hindex : p.spokeIndex < countMax)
    (hcells : ∀ j < p.estimate.spokeCount, 70 ≤ p.lut j ∧ p.lut j ≤ 15000)
    (hcell : p.spokeIndex < p.estimate.spokeCount)
    (hconf : 0 ≤ p.estimate.confidence ∧ p.estimate.confidence ≤ 1) :
    Inv (p.updateMap (ofRat x)) xs where
  shape := hshape
  ring := hring
  range := hrange
  events := hevents
  started _ := hstarted
  learned _ := hne
  cells j hj := by
    rw [updateMap_lut p _ hindex]
    split
    · -- the step towards an accepted interval stays within the range
      rw [ofRat_rat]
      exact adaptCell_mem (hcells _ hcell) ⟨by exact_mod_cast hx.1, by exact_mod_cast hx.2⟩
    · exact hcells j hj
  revolution := updateMap_revolution p _
  wheelHz := updateMap_wheelHz p _
  confidence := hconf

theorem Inv.learn {x : ℕ} (h : Inv p (x :: xs)) (hx : 70 ≤ x ∧ x ≤ 15000) :
    Inv (p.learn (ofRat x)) (x :: xs) := by
  have hshape := h.shape.learn (ofRat x : ℚ)
  rcases learn_cases p (ofRat x : ℚ) with
    ⟨hl, heq⟩ | ⟨-, -, heq⟩ | ⟨-, -, heq⟩ | ⟨-, -, hacc, heq⟩ <;> rw [heq] at hshape ⊢
  · exact Inv.updateMap hx hshape h.ring h.range h.events (h.started (List.cons_ne_nil _ _))
      (List.cons_ne_nil _ _) (h.shape.index_lt_max hl) h.cells (h.shape.index_lt hl) h.confidence
  · exact h
  · exact h.noteConfidence (separationConfidence_mem _)
  · -- the new table holds the last `best_count` intervals
    obtain ⟨hge, hle, hsize⟩ := (rankCandidates_bestCount p).resolve_left hacc.1
    refine Inv.updateMap hx hshape h.ring h.range h.events (h.started (List.cons_ne_nil _ _))
      (List.cons_ne_nil _ _) (Nat.succ_pos _) (fun j hj => ?_)
      (Nat.lt_of_lt_of_le (Nat.succ_pos 15) hge) (separationConfidence_mem _)
    rw [lock_lut _ hle hj]
    have hj' : j < p.rankCandidates.bestCount := hj
    exact h.back_mem (by omega)

/-! ## Runs

Every call keeps it, with the interval that it has accepted.
-/

/-- The intervals accepted so far, after one more call. -/
def record (p : Pattern ℚ) (xs : List ℕ) (e : UInt64) : List ℕ :=
  if (p.ingestEdge e).2 then p.intervalTo e :: xs else xs

/-- The intervals accepted along a run. -/
def recordAll (p : Pattern ℚ) (xs : List ℕ) : List UInt64 → List ℕ
  | [] => xs
  | e :: es => recordAll (p.ingestEdge e).1 (p.record xs e) es

/-- One call keeps the invariant, with the interval in front of the list if it is
accepted. -/
theorem Inv.ingestEdge (h : Inv p xs) (e : UInt64) :
    Inv (p.ingestEdge e).1 (p.record xs e) := by
  rcases ingestEdge_cases p e with
    ⟨-, heq⟩ | ⟨h0, -, heq⟩ | ⟨h0, -, -, heq⟩ | ⟨h0, -, hr, heq⟩ <;> rw [record, heq]
  · exact h
  · exact h.withEdge h0
  · exact h.withEdge h0
  · have hx := (inRange_iff _).mp hr
    exact ((h.withEdge h0).pushInterval h0 hx).learn hx

/-- The invariant holds along every run. -/
theorem Inv.ingestAll (h : Inv p xs) (es : List UInt64) :
    Inv (p.ingestAll es) (p.recordAll xs es) := by
  induction es generalizing p xs with
  | nil => exact h
  | cons e es ih => exact ih (h.ingestEdge e)

/-- Every state reached from `init`. -/
theorem inv_run (es : List UInt64) :
    Inv (Pattern.init.ingestAll es) (Pattern.init.recordAll [] es) :=
  Inv.init.ingestAll es

/-! ## Consequences

What later modules use of it, one fact each.
-/

/-- While locked, the revolution period is positive. -/
theorem Inv.revolution_pos (h : Inv p xs) (hl : p.estimate.countLocked = true) :
    0 < p.estimate.revolutionPeriodUs := by
  rw [h.revolution]
  refine Finset.sum_pos (fun j hj => ?_) ?_
  · linarith [(h.cells j (Finset.mem_range.mp hj)).1]
  · rw [Finset.nonempty_range_iff]
    exact h.shape.locked_iff.mp hl

/-- An inference is made on a full ring: 192 intervals have been accepted. -/
theorem Inv.full_of_events (h : Inv p xs) (hev : confidenceEvents ≤ p.acceptedEvents.toNat) :
    p.historySize = historyCapacity := by
  have hlen : confidenceEvents ≤ xs.length := by
    rw [h.events, UInt32.toNat_ofNat'] at hev
    exact hev.trans (Nat.mod_le _ _)
  rw [h.historySize_eq]
  exact Nat.min_eq_right (le_trans (by decide) hlen)

end SpokeSensor.Pattern
