import SpokeSensor.Core.Generated

/-!
# The spoke-pattern estimator (`ir_spoke_pattern.c`)

The functions of the source, over an arbitrary `float` type `F`. Array accesses are
total here (a read outside the array gives `0`, a write outside it does nothing);
`Checked` shows that no reachable state makes such an access.

- `back` (`ir_spoke_pattern.c:7–10`): the history ring, read backwards from the latest
  interval.
- `inferCount` (12–40): `rankCandidates` compares the two latest windows of every
  candidate, `separationConfidence` sets the best apart from the second best, and
  `lock` copies the winner's window into the table.
- `updateMap` (42–55): one cell moves towards the interval, the index moves on, and
  the sum of the table is published.
- `ingestEdge` (61–76): the entry point. An edge that locks runs `infer_count` and
  then `update_map` in the same call (72–74).
-/

namespace SpokeSensor

/-- `ir_spoke_estimate_t`: what the estimator publishes. -/
structure Estimate (F : Type) where
  spokeCount : ℕ
  currentSpoke : ℕ
  countLocked : Bool
  confidence : F
  revolutionPeriodUs : F
  wheelHz : F

/-- `ir_spoke_pattern_t`: the ring of the history with its head and fill count, the
learned table with its index, and the estimate. -/
structure Pattern (F : Type) where
  history : Vector F historyCapacity
  intervalLut : Vector F countMax
  historyHead : ℕ
  historySize : ℕ
  lastEdgeUs : UInt64
  acceptedEvents : UInt32
  spokeIndex : ℕ
  estimate : Estimate F

namespace Pattern

variable {F : Type} [Add F] [Sub F] [Mul F] [Div F] [LT F] [DecidableLT F]
  [LE F] [DecidableLE F] [CFloat F]

/-- `ir_spoke_pattern_init` (57–59): all bytes zero. -/
def init : Pattern F where
  history := Vector.replicate historyCapacity (ofRat 0)
  intervalLut := Vector.replicate countMax (ofRat 0)
  historyHead := 0
  historySize := 0
  lastEdgeUs := 0
  acceptedEvents := 0
  spokeIndex := 0
  estimate :=
    { spokeCount := 0, currentSpoke := 0, countLocked := false
      confidence := ofRat 0, revolutionPeriodUs := ofRat 0, wheelHz := ofRat 0 }

/-- `back` (7–10): the entry written `n` entries before the latest one. -/
def back (p : Pattern F) (n : ℕ) : F :=
  p.history[Fin.ofNat historyCapacity (p.historyHead + historyCapacity - 1 - n)]

/-- The table cell `interval_lut[i]`. -/
def lut (p : Pattern F) (i : ℕ) : F :=
  p.intervalLut[i]?.getD (ofRat 0)

/-! ## `infer_count`

In the order of the source (`ir_spoke_pattern.c:12–40`): the sums over two windows,
the error of a candidate, the ranking, the confidence, and what is stored at a lock.
-/

/-- The inner loop (17–22): `error` and `mean` summed over one window of `n`
intervals. -/
def windowSums (p : Pattern F) (n : ℕ) : F × F :=
  (List.range n).foldl (fun acc i =>
    let a := p.back i
    let b := p.back (i + n)
    (acc.1 + fabsf (a - b), acc.2 + ofRat 0.5 * (a + b))) (ofRat 0, ofRat 0)

/-- The normalised repetition error of the candidate `n` (23). The factor prefers the
shorter of two candidates, if by a thousandth for each spoke. -/
def repetitionError (p : Pattern F) (n : ℕ) : F :=
  let sums := p.windowSums n
  sums.1 / fmaxf sums.2 (ofRat 1) * (ofRat 1 + ofRat 0.001 * ofRat n)

/-- `best`, `second` and `best_count`. -/
structure Ranking (F : Type) where
  best : F
  second : F
  bestCount : ℕ

/-- One candidate (16–28): skipped while the history holds fewer than `2 n` intervals. -/
def rankCandidate (p : Pattern F) (r : Ranking F) (n : ℕ) : Ranking F :=
  if p.historySize < 2 * n then r
  else
    let error := p.repetitionError n
    if error < r.best then { best := error, second := r.best, bestCount := n }
    else if error < r.second then { r with second := error }
    else r

/-- The loop over `n = COUNT_MIN .. COUNT_MAX` (13–29), from two sentinels. -/
def rankCandidates (p : Pattern F) : Ranking F :=
  (List.range' countMin (countMax + 1 - countMin)).foldl p.rankCandidate
    { best := fltMax, second := fltMax, bestCount := 0 }

/-- The distance from `best` to `second`, relative to `second`, clamped to `[0, 1]`
(30–32). -/
def separationConfidence (r : Ranking F) : F :=
  let separation :=
    if isfinite r.second then (r.second - r.best) / fmaxf r.second (ofRat 1.0e-6)
    else ofRat 0
  fminf (fmaxf separation (ofRat 0)) (ofRat 1)

/-- The copy loop at lock (36–37): the last `n` intervals, oldest first, the latest
one in the cell `n - 1`. -/
def captureLut (p : Pattern F) (n : ℕ) : Vector F countMax :=
  (List.range n).foldl (fun lut i => lut.setIfInBounds (n - 1 - i) (p.back i)) p.intervalLut

/-- The condition under which `infer_count` locks (33). -/
def accepts (r : Ranking F) : Prop :=
  r.bestCount ≠ 0 ∧ r.best < ofRat 0.035 ∧ ofRat 0.08 < separationConfidence r

instance (r : Ranking F) : Decidable (accepts r) := by
  unfold accepts; infer_instance

/-- `infer_count` writes the confidence in every case. -/
def noteConfidence (p : Pattern F) (c : F) : Pattern F :=
  { p with estimate := { p.estimate with confidence := c } }

/-- What `infer_count` writes when it locks on `n` (34–38). The index goes back to the
cell `0`. -/
def lock (p : Pattern F) (n : ℕ) : Pattern F :=
  { p with
    estimate := { p.estimate with spokeCount := n, countLocked := true }
    intervalLut := p.captureLut n
    spokeIndex := 0 }

/-- `infer_count` (12–40) -/
def inferCount (p : Pattern F) : Pattern F :=
  let r := p.rankCandidates
  let p := p.noteConfidence (separationConfidence r)
  if accepts r then p.lock r.bestCount else p

/-! ## `update_map`

One cell, the index and the published values (`ir_spoke_pattern.c:42–55`).
-/

/-- The outlier gate of a cell whose previous value is `previous` (46): 28 percent of
it, but never below 80 microseconds. -/
def gate (previous : F) : F :=
  fmaxf (ofRat 80) (ofRat outlierSigma * ofRat 0.08 * previous)

/-- The value a cell takes when `interval` arrives (45–48): an exponential step,
unless the interval is an outlier. An empty cell is compared with the interval itself. -/
def adaptCell (cell interval : F) : F :=
  let previous := if ofRat 0 < cell then cell else interval
  if fabsf (interval - previous) ≤ gate previous then
    cell + ofRat learningRate * (interval - cell)
  else cell

/-- The sum of the first `n` cells (51–52). -/
def lutSum (p : Pattern F) (n : ℕ) : F :=
  (List.range n).foldl (fun sum i => sum + p.lut i) (ofRat 0)

/-- `update_map` (42–55) -/
def updateMap (p : Pattern F) (interval : F) : Pattern F :=
  let n := p.estimate.spokeCount
  let lut := p.intervalLut.setIfInBounds p.spokeIndex (adaptCell (p.lut p.spokeIndex) interval)
  let index := (p.spokeIndex + 1) % n
  let p := { p with intervalLut := lut, spokeIndex := index }
  let revolution := p.lutSum n
  { p with
    estimate :=
      { p.estimate with
        currentSpoke := index
        revolutionPeriodUs := revolution
        wheelHz := if ofRat 0 < revolution then ofRat 1.0e6 / revolution else ofRat 0 } }

/-! ## `ir_spoke_pattern_ingest_edge`

The interval to the last edge, the ring, and then inference or update
(`ir_spoke_pattern.c:61–76`).
-/

/-- An interval enters the ring and is counted (68–71). -/
def pushInterval (p : Pattern F) (interval : F) : Pattern F :=
  { p with
    history := p.history.setIfInBounds p.historyHead interval
    historyHead := (p.historyHead + 1) % historyCapacity
    historySize := if p.historySize < historyCapacity then p.historySize + 1 else p.historySize
    acceptedEvents := p.acceptedEvents + 1 }

/-- What follows an accepted interval (72–74): inference while unlocked, then the
table update, in the same call when the inference locks. -/
def learn (p : Pattern F) (interval : F) : Pattern F :=
  let p :=
    if p.estimate.countLocked = false ∧ confidenceEvents ≤ p.acceptedEvents.toNat then
      p.inferCount
    else p
  if p.estimate.countLocked then p.updateMap interval else p

/-- `ir_spoke_pattern_ingest_edge` (61–76): the new state and the returned flag. The
timestamp `0` is refused, and the first edge only starts the clock. -/
def ingestEdge (p : Pattern F) (edgeUs : UInt64) : Pattern F × Bool :=
  if edgeUs = 0 then (p, false)
  else if p.lastEdgeUs = 0 then ({ p with lastEdgeUs := edgeUs }, false)
  else
    let interval : F := ofRat (edgeUs - p.lastEdgeUs).toNat
    let p := { p with lastEdgeUs := edgeUs }
    if interval < ofRat blockMinUs ∨ ofRat linkLossUs < interval then (p, false)
    else ((p.pushInterval interval).learn interval, true)

/-- The state after a sequence of calls. -/
def ingestAll (p : Pattern F) (edges : List UInt64) : Pattern F :=
  edges.foldl (fun p e => (p.ingestEdge e).1) p

end Pattern

end SpokeSensor
