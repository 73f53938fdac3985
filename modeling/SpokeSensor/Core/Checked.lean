import SpokeSensor.Core.Invariant
import SpokeSensor.Lib.Loops

/-!
# Bounds of the estimator

The functions of `Pattern` once more, with the faults that C leaves undefined or that
the source guards against.

- `Fault`: an array index out of bounds (`ir_spoke_pattern.c:8, 37, 44, 52, 68`), a
  `size_t` subtraction below zero, a remainder by zero (49), and the fallback of
  `update_map` for an empty cell (45).
- `checkedIngestEdge`: one call, statement by statement, stopping at the first fault.
- `Ready`: what `update_map` relies on; a fresh lock leaves it
  (`Inv.ready_inferCount`).
- `Inv.checkedIngestEdge`, `Inv.checkedIngestAll`: on every reachable state the
  checked functions return what the total ones return, so none of the faults occurs.
- `reachable_safe`: this, together with the bounds of `Inv`, for every run.
-/

namespace SpokeSensor

/-- What must not happen. -/
inductive Fault where
  | historyIndex
  | lutIndex
  | underflow
  | moduloZero
  | emptyCell
  deriving DecidableEq, Repr

namespace Pattern

section Model

variable {F : Type} [Add F] [Sub F] [Mul F] [Div F] [LT F] [DecidableLT F]
  [LE F] [DecidableLE F] [CFloat F]

/-- An array read, faulting with `fault` out of bounds. -/
def readAt {n : ℕ} (fault : Fault) (xs : Vector F n) (i : ℕ) : Except Fault F :=
  if h : i < n then .ok (xs.get ⟨i, h⟩) else .error fault

/-- An array write, faulting with `fault` out of bounds. -/
def writeAt {n : ℕ} (fault : Fault) (xs : Vector F n) (i : ℕ) (x : F) :
    Except Fault (Vector F n) :=
  if i < n then .ok (xs.setIfInBounds i x) else .error fault

/-- `back` -/
def checkedBack (p : Pattern F) (n : ℕ) : Except Fault F :=
  if p.historyHead + historyCapacity - 1 < n then .error .underflow
  else readAt .historyIndex p.history
    ((p.historyHead + historyCapacity - 1 - n) % historyCapacity)

/-- The inner loop of `infer_count`. -/
def checkedWindowSums (p : Pattern F) (n : ℕ) : Except Fault (F × F) :=
  (List.range n).foldlM (fun acc i => do
    let a ← p.checkedBack i
    let b ← p.checkedBack (i + n)
    return (acc.1 + fabsf (a - b), acc.2 + ofRat 0.5 * (a + b))) (ofRat 0, ofRat 0)

/-- The normalised error of the candidate `n`. -/
def checkedRepetitionError (p : Pattern F) (n : ℕ) : Except Fault F := do
  let sums ← p.checkedWindowSums n
  return sums.1 / fmaxf sums.2 (ofRat 1) * (ofRat 1 + ofRat 0.001 * ofRat n)

/-- One candidate of the loop. -/
def checkedRankCandidate (p : Pattern F) (r : Ranking F) (n : ℕ) :
    Except Fault (Ranking F) :=
  if p.historySize < 2 * n then .ok r
  else do
    let error ← p.checkedRepetitionError n
    if error < r.best then return { best := error, second := r.best, bestCount := n }
    else if error < r.second then return { r with second := error }
    else return r

/-- The loop over the candidates. -/
def checkedRankCandidates (p : Pattern F) : Except Fault (Ranking F) :=
  (List.range' countMin (countMax + 1 - countMin)).foldlM p.checkedRankCandidate
    { best := fltMax, second := fltMax, bestCount := 0 }

/-- The copy loop at lock. -/
def checkedCaptureLut (p : Pattern F) (n : ℕ) : Except Fault (Vector F countMax) :=
  (List.range n).foldlM (fun lut i => do
    let x ← p.checkedBack i
    writeAt .lutIndex lut (n - 1 - i) x) p.intervalLut

/-- `infer_count` (12–40) -/
def checkedInferCount (p : Pattern F) : Except Fault (Pattern F) := do
  let r ← p.checkedRankCandidates
  let p := p.noteConfidence (separationConfidence r)
  if accepts r then
    let lut ← p.checkedCaptureLut r.bestCount
    return { p.lock r.bestCount with intervalLut := lut }
  else return p

/-- The sum of the first `n` cells. -/
def checkedLutSum (p : Pattern F) (n : ℕ) : Except Fault F :=
  (List.range n).foldlM (fun sum i => do
    let cell ← readAt .lutIndex p.intervalLut i
    return sum + cell) (ofRat 0)

/-- `update_map` (42–55), with a fault where the remainder or the fallback would be
taken wrongly. -/
def checkedUpdateMap (p : Pattern F) (interval : F) : Except Fault (Pattern F) := do
  let n := p.estimate.spokeCount
  let cell ← readAt .lutIndex p.intervalLut p.spokeIndex
  if ¬ ofRat 0 < cell then .error .emptyCell
  else if n = 0 then .error .moduloZero
  else do
    let lut ← writeAt .lutIndex p.intervalLut p.spokeIndex (adaptCell cell interval)
    let index := (p.spokeIndex + 1) % n
    let p := { p with intervalLut := lut, spokeIndex := index }
    let revolution ← p.checkedLutSum n
    return { p with
      estimate :=
        { p.estimate with
          currentSpoke := index
          revolutionPeriodUs := revolution
          wheelHz := if ofRat 0 < revolution then ofRat 1.0e6 / revolution else ofRat 0 } }

/-- An interval enters the ring. -/
def checkedPushInterval (p : Pattern F) (interval : F) : Except Fault (Pattern F) := do
  let history ← writeAt .historyIndex p.history p.historyHead interval
  return { p.pushInterval interval with history := history }

/-- What follows an accepted interval. -/
def checkedLearn (p : Pattern F) (interval : F) : Except Fault (Pattern F) := do
  let p ←
    if p.estimate.countLocked = false ∧ confidenceEvents ≤ p.acceptedEvents.toNat then
      p.checkedInferCount
    else .ok p
  if p.estimate.countLocked then p.checkedUpdateMap interval else return p

/-- `ir_spoke_pattern_ingest_edge` (61–76) -/
def checkedIngestEdge (p : Pattern F) (edgeUs : UInt64) : Except Fault (Pattern F × Bool) :=
  if edgeUs = 0 then .ok (p, false)
  else if p.lastEdgeUs = 0 then .ok ({ p with lastEdgeUs := edgeUs }, false)
  else
    let interval : F := ofRat (edgeUs - p.lastEdgeUs).toNat
    let p := { p with lastEdgeUs := edgeUs }
    if interval < ofRat blockMinUs ∨ ofRat linkLossUs < interval then .ok (p, false)
    else do
      let p ← p.checkedPushInterval interval
      let p ← p.checkedLearn interval
      return (p, true)

/-- A sequence of calls, stopping at the first fault. -/
def checkedIngestAll (p : Pattern F) (edges : List UInt64) : Except Fault (Pattern F) :=
  edges.foldlM (fun p e => do
    let r ← p.checkedIngestEdge e
    return r.1) p

end Model

/-! ## No fault where the indices are in bounds

Each checked function computes what the total one does, if its indices are in bounds
and its divisors not zero. One lemma for each function, the callers citing those of
what they call.
-/

section Bounds

set_option linter.unusedSectionVars false

variable {F : Type} [Add F] [Sub F] [Mul F] [Div F] [LT F] [DecidableLT F]
  [LE F] [DecidableLE F] [CFloat F] {p : Pattern F} {n : ℕ}

theorem readAt_ok {m i : ℕ} (fault : Fault) (xs : Vector F m) (hi : i < m) (d : F) :
    readAt fault xs i = .ok (xs[i]?.getD d) := by
  rw [readAt, dif_pos hi, Vector.getElem?_eq_getElem hi, Option.getD_some]
  rfl

theorem writeAt_ok {m i : ℕ} (fault : Fault) (xs : Vector F m) (hi : i < m) (x : F) :
    writeAt fault xs i x = .ok (xs.setIfInBounds i x) :=
  if_pos hi

theorem checkedBack_ok (p : Pattern F) (hn : n < historyCapacity) :
    p.checkedBack n = .ok (p.back n) := by
  rw [checkedBack, if_neg (by omega), readAt, dif_pos (Nat.mod_lt _ (Nat.succ_pos _))]
  rfl

theorem checkedWindowSums_ok (p : Pattern F) (hn : n ≤ countMax) :
    p.checkedWindowSums n = .ok (p.windowSums n) := by
  have hval := generated_values
  refine Loops.foldlM_eq_pure (fun acc i hi => ?_) _
  have hi := List.mem_range.mp hi
  rw [checkedBack_ok p (by omega), checkedBack_ok p (by omega)]
  rfl

theorem checkedRankCandidate_ok (p : Pattern F) (r : Ranking F) (hn : n ≤ countMax) :
    p.checkedRankCandidate r n = .ok (p.rankCandidate r n) := by
  have herror : p.checkedRepetitionError n = .ok (p.repetitionError n) := by
    rw [checkedRepetitionError, checkedWindowSums_ok p hn]
    rfl
  rw [checkedRankCandidate, rankCandidate, herror]
  split
  · rfl
  · show (if _ then _ else if _ then _ else _) = Except.ok (if _ then _ else if _ then _ else _)
    split
    · rfl
    · split <;> rfl

theorem checkedRankCandidates_ok (p : Pattern F) :
    p.checkedRankCandidates = .ok p.rankCandidates := by
  refine Loops.foldlM_eq_pure (fun r n hn => checkedRankCandidate_ok p r ?_) _
  rw [List.mem_range'_1] at hn
  omega

theorem checkedCaptureLut_ok (p : Pattern F) (hn : n ≤ countMax) :
    p.checkedCaptureLut n = .ok (p.captureLut n) := by
  have hval := generated_values
  refine Loops.foldlM_eq_pure (fun lut i hi => ?_) _
  have hi := List.mem_range.mp hi
  rw [checkedBack_ok p (by omega)]
  exact writeAt_ok _ _ (by omega) _

theorem checkedInferCount_ok (p : Pattern F) : p.checkedInferCount = .ok p.inferCount := by
  rw [checkedInferCount, checkedRankCandidates_ok, inferCount]
  show (if _ then _ else _) = Except.ok (if _ then _ else _)
  split
  · -- the count of a lock is a candidate, so the copy stays inside the table
    rename_i hacc
    obtain ⟨-, hle, -⟩ := (rankCandidates_bestCount p).resolve_left hacc.1
    rw [checkedCaptureLut_ok _ hle]
    rfl
  · rfl

theorem checkedLutSum_ok (p : Pattern F) (hn : n ≤ countMax) :
    p.checkedLutSum n = .ok (p.lutSum n) := by
  refine Loops.foldlM_eq_pure (fun sum i hi => ?_) _
  have hi := List.mem_range.mp hi
  rw [readAt_ok _ _ (lt_of_lt_of_le hi hn) (ofRat 0)]
  rfl

theorem checkedUpdateMap_ok (p : Pattern F) (x : F) (hindex : p.spokeIndex < countMax)
    (hpos : p.estimate.spokeCount ≠ 0) (hle : p.estimate.spokeCount ≤ countMax)
    (hcell : ofRat 0 < p.lut p.spokeIndex) : p.checkedUpdateMap x = .ok (p.updateMap x) := by
  rw [checkedUpdateMap, readAt_ok _ _ hindex (ofRat 0)]
  show (if ¬ ofRat 0 < p.lut p.spokeIndex then _ else if p.estimate.spokeCount = 0 then _
    else _) = _
  rw [if_neg (not_not.mpr hcell), if_neg hpos, writeAt_ok _ _ hindex]
  show (checkedLutSum _ _ >>= _) = _
  rw [checkedLutSum_ok _ hle]
  rfl

theorem checkedPushInterval_ok (x : F) (hhead : p.historyHead < historyCapacity) :
    p.checkedPushInterval x = .ok (p.pushInterval x) := by
  rw [checkedPushInterval, writeAt_ok _ _ hhead]
  rfl

end Bounds

/-! ## No fault on a reachable state

The bounds come from the shape of a reachable state, and that no divisor is zero from
its invariant.
-/

section Reachable

variable {p : Pattern ℚ} {xs : List ℕ}

/-- What `update_map` relies on: an index inside the table, a count to divide by, and
cells that are not empty. -/
def Ready (p : Pattern ℚ) : Prop :=
  p.spokeIndex < p.estimate.spokeCount ∧ p.estimate.spokeCount ≤ countMax ∧
    0 < p.lut p.spokeIndex

theorem Inv.ready (h : Inv p xs) (hl : p.estimate.countLocked = true) : p.Ready :=
  ⟨h.shape.index_lt hl, h.shape.count_le, by linarith [(h.cells _ (h.shape.index_lt hl)).1]⟩

/-- A fresh lock leaves a table that is ready. -/
theorem Inv.ready_inferCount (h : Inv p xs) (hunlocked : p.estimate.countLocked = false)
    (hl : p.inferCount.estimate.countLocked = true) : p.inferCount.Ready := by
  by_cases hacc : accepts p.rankCandidates
  · obtain ⟨hge, hle, hsize⟩ := (rankCandidates_bestCount p).resolve_left hacc.1
    have hpos : 0 < p.rankCandidates.bestCount := lt_of_lt_of_le (Nat.succ_pos 15) hge
    have hinfer : p.inferCount = (p.noteConfidence (separationConfidence p.rankCandidates)).lock
        p.rankCandidates.bestCount := if_pos hacc
    rw [hinfer]
    -- the index is reset, and the cell under it holds an interval of the ring
    refine ⟨hpos, hle, ?_⟩
    show 0 < ((p.noteConfidence _).lock _).lut 0
    rw [lock_lut _ hle hpos]
    have hback := (h.back_mem (k := p.rankCandidates.bestCount - 1 - 0) (by omega)).1
    exact lt_of_lt_of_le (by norm_num) hback
  · have hinfer : p.inferCount = p.noteConfidence (separationConfidence p.rankCandidates) :=
      if_neg hacc
    rw [hinfer] at hl
    exact absurd (hunlocked.symm.trans hl) Bool.false_ne_true

theorem checkedUpdateMap_ready (x : ℚ) (h : p.estimate.countLocked = true → p.Ready) :
    (if p.estimate.countLocked then p.checkedUpdateMap x else .ok p)
      = .ok (if p.estimate.countLocked then p.updateMap x else p) := by
  split
  · rename_i hl
    obtain ⟨hindex, hle, hcell⟩ := h hl
    exact checkedUpdateMap_ok p x (hindex.trans_le hle) (Nat.ne_zero_of_lt hindex) hle hcell
  · rfl

theorem Inv.checkedLearn (h : Inv p xs) (x : ℚ) : p.checkedLearn x = .ok (p.learn x) := by
  rw [Pattern.checkedLearn, Pattern.learn]
  by_cases hc : p.estimate.countLocked = false ∧ confidenceEvents ≤ p.acceptedEvents.toNat
  · rw [if_pos hc, if_pos hc, checkedInferCount_ok]
    exact checkedUpdateMap_ready x (h.ready_inferCount hc.1)
  · rw [if_neg hc, if_neg hc]
    exact checkedUpdateMap_ready x h.ready

/-- A call on a reachable state does not fault. -/
theorem Inv.checkedIngestEdge (h : Inv p xs) (e : UInt64) :
    p.checkedIngestEdge e = .ok (p.ingestEdge e) := by
  rw [Pattern.checkedIngestEdge, Pattern.ingestEdge]
  by_cases h0 : e = 0
  · rw [if_pos h0, if_pos h0]
  by_cases hlast : p.lastEdgeUs = 0
  · rw [if_neg h0, if_neg h0, if_pos hlast, if_pos hlast]
  rw [if_neg h0, if_neg h0, if_neg hlast, if_neg hlast]
  -- only an accepted interval reaches the arrays
  by_cases hr : InRange (ofRat (p.intervalTo e) : ℚ)
  · have hpush : Inv ((p.withEdge e).pushInterval (ofRat (p.intervalTo e))) _ :=
      (h.withEdge h0).pushInterval h0 ((inRange_iff _).mp hr)
    refine (if_neg hr).trans (Eq.trans ?_ (congrArg Except.ok (if_neg hr)).symm)
    have hpushed : (p.withEdge e).checkedPushInterval (ofRat (p.intervalTo e))
        = .ok ((p.withEdge e).pushInterval (ofRat (p.intervalTo e))) :=
      checkedPushInterval_ok _ h.shape.head_lt
    show ((p.withEdge e).checkedPushInterval (ofRat (p.intervalTo e)) >>= _) = _
    rw [hpushed]
    show (((p.withEdge e).pushInterval (ofRat (p.intervalTo e))).checkedLearn
      (ofRat (p.intervalTo e)) >>= _) = _
    rw [hpush.checkedLearn]
    rfl
  · exact (if_pos (not_not.mp hr)).trans (congrArg Except.ok (if_pos (not_not.mp hr))).symm

/-- A run from a reachable state does not fault. -/
theorem Inv.checkedIngestAll (h : Inv p xs) (es : List UInt64) :
    p.checkedIngestAll es = .ok (p.ingestAll es) := by
  induction es generalizing p xs with
  | nil => rfl
  | cons e es ih =>
    rw [Pattern.checkedIngestAll, List.foldlM_cons, h.checkedIngestEdge e]
    exact ih (h.ingestEdge e)

end Reachable

/-- Every run from `init` ends without a fault in a state within its bounds, and a
lock is final. That covers every array access, subtraction and division of the
estimator, since the checked functions compute what the total ones do
(`Inv.checkedIngestAll`). -/
theorem reachable_safe (es : List UInt64) :
    let p : Pattern ℚ := init.ingestAll es
    (init : Pattern ℚ).checkedIngestAll es = .ok p ∧
    (p.historyHead < historyCapacity ∧ p.historySize ≤ historyCapacity) ∧
    (p.estimate.countLocked = true ↔ p.estimate.spokeCount ≠ 0) ∧
    (p.estimate.countLocked = true →
      (countMin ≤ p.estimate.spokeCount ∧ p.estimate.spokeCount ≤ countMax) ∧
      p.estimate.currentSpoke = p.spokeIndex ∧ p.spokeIndex < p.estimate.spokeCount ∧
      (∀ j < p.estimate.spokeCount, 70 ≤ p.lut j ∧ p.lut j ≤ 15000) ∧
      p.estimate.revolutionPeriodUs = ∑ j ∈ Finset.range p.estimate.spokeCount, p.lut j ∧
      p.estimate.wheelHz = 1000000 / p.estimate.revolutionPeriodUs) ∧
    (0 ≤ p.estimate.confidence ∧ p.estimate.confidence ≤ 1) ∧
    (p.estimate.countLocked = true → ∀ fs : List UInt64,
      (p.ingestAll fs).estimate.spokeCount = p.estimate.spokeCount ∧
      (p.ingestAll fs).estimate.confidence = p.estimate.confidence ∧
      (p.ingestAll fs).estimate.countLocked = true) := by
  intro p
  have h : Inv p _ := inv_run es
  refine ⟨Inv.init.checkedIngestAll es, ⟨h.shape.head_lt, h.shape.size_le⟩, h.shape.locked_iff,
    fun hl => ⟨⟨h.shape.count_ge hl, h.shape.count_le⟩, h.shape.current_eq, h.shape.index_lt hl,
      h.cells, h.revolution, ?_⟩, h.confidence, fun hl fs => estimate_ingestAll_locked hl fs⟩
  rw [h.wheelHz, if_pos (h.revolution_pos hl)]

end Pattern

end SpokeSensor
