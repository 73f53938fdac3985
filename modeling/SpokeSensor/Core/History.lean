import SpokeSensor.Core.PatternSpec
import SpokeSensor.Lib.Loops
import Mathlib.Data.List.OfFn

/-!
# The history ring as a list

The ring (`ir_spoke_pattern.c:7–10, 68–70`) stands for the list of the intervals that
were accepted, for every `float`.

- `acceptedIntervals`: the accepted intervals, read off the time stamps alone. The
  ring holds the latest 104 of them after every sequence of edges (`holds_ingestAll`).
- `inferWith`: the computation of `infer_count` (12–40) over any way to read the
  `k`-th latest interval, where a read may fail.
- `inferWith_eq`, `inferCount_eq`: reading only cells that have been written and
  reading the list give the same result, neither fails, and the result is what
  `infer_count` leaves behind.
- `history_refines_list`: every reachable state reads as that list, and so does the
  state in which an accepted edge runs `infer_count`.
-/

set_option linter.unusedSectionVars false

namespace SpokeSensor.Pattern

variable {F : Type} [Add F] [Sub F] [Mul F] [Div F] [LT F] [DecidableLT F]
  [LE F] [DecidableLE F] [CFloat F]

/-! ## The accepted intervals

What the ring is to hold, told from the edges alone: the interval to the previous
edge, where it lies within the limits.
-/

/-- The intervals that are accepted after the edge `last` (zero if there was none),
oldest first. -/
def acceptedIntervals (last : UInt64) : List UInt64 → List F
  | [] => []
  | e :: es =>
    if e = 0 then acceptedIntervals last es
    else if last = 0 ∨ ¬ InRange (ofRat (e - last).toNat : F) then acceptedIntervals e es
    else ofRat (e - last).toNat :: acceptedIntervals e es

/-- The state in which `infer_count` may be called, once an interval has been pushed. -/
def pushed (p : Pattern F) (e : UInt64) : Pattern F :=
  (p.withEdge e).pushInterval (ofRat (p.intervalTo e))

/-! ## The computation of `infer_count` on a list

The same computation as that of the source, with a list in place of the ring. It fails
where it would read past the end of the list, which is how the next section knows that
it never does.
-/

section Inference

variable (size : ℕ) (read : ℕ → Option F)

/-- The inner loop over reads that may fail. -/
def windowSumsWith (n : ℕ) : Option (F × F) :=
  (List.range n).foldlM (fun acc i => do
    let a ← read i
    let b ← read (i + n)
    return (acc.1 + fabsf (a - b), acc.2 + ofRat 0.5 * (a + b))) (ofRat 0, ofRat 0)

/-- One candidate, skipped while there are fewer than `2 n` intervals. -/
def rankCandidateWith (r : Ranking F) (n : ℕ) : Option (Ranking F) :=
  if size < 2 * n then some r
  else do
    let sums ← windowSumsWith read n
    let error := sums.1 / fmaxf sums.2 (ofRat 1) * (ofRat 1 + ofRat 0.001 * ofRat n)
    return if error < r.best then { best := error, second := r.best, bestCount := n }
      else if error < r.second then { r with second := error }
      else r

/-- The confidence and, if the winner is accepted, the map of its last intervals. -/
def inferWith : Option (F × Option (List F)) := do
  let r ← (List.range' countMin (countMax + 1 - countMin)).foldlM (rankCandidateWith size read)
    { best := fltMax, second := fltMax, bestCount := 0 }
  if accepts r then
    let map ← (List.range r.bestCount).mapM fun j => read (r.bestCount - 1 - j)
    return (separationConfidence r, some map)
  else return (separationConfidence r, none)

end Inference

/-- Only cells that have been written can be read. -/
def writtenBack (p : Pattern F) (k : ℕ) : Option F :=
  if k < p.historySize then some (p.back k) else none

/-- What a result of `inferWith` makes of the state. -/
def applyInference (p : Pattern F) (result : F × Option (List F)) : Pattern F :=
  let p := p.noteConfidence result.1
  match result.2 with
  | none => p
  | some map =>
    { p with
      estimate := { p.estimate with spokeCount := map.length, countLocked := true }
      intervalLut := Vector.ofFn fun j => map[j.val]?.getD p.intervalLut[j]
      spokeIndex := 0 }

/-! ## Loops whose reads succeed

A loop all of whose reads succeed computes the same as the loop over the ring.
-/

variable {p : Pattern F} {read : ℕ → Option F} {n : ℕ}

/-- What `infer_count` finds: the confidence, and the map if the winner is accepted. -/
def inference (p : Pattern F) : F × Option (List F) :=
  (separationConfidence p.rankCandidates,
    if accepts p.rankCandidates then
      some ((List.range p.rankCandidates.bestCount).map fun j =>
        p.back (p.rankCandidates.bestCount - 1 - j))
    else none)

section

variable (hread : ∀ k < p.historySize, read k = some (p.back k))

include hread

/-- A candidate that is not skipped reads `2 n` intervals. -/
theorem windowSumsWith_eq (hn : 2 * n ≤ p.historySize) :
    windowSumsWith read n = some (p.windowSums n) := by
  refine Loops.foldlM_eq_pure (fun acc i hi => ?_) _
  have hi := List.mem_range.mp hi
  rw [hread i (by omega), hread (i + n) (by omega)]
  rfl

theorem rankCandidateWith_eq (r : Ranking F) :
    rankCandidateWith p.historySize read r n = some (p.rankCandidate r n) := by
  rw [rankCandidateWith, rankCandidate]
  by_cases hskip : p.historySize < 2 * n
  · rw [if_pos hskip, if_pos hskip]
  · rw [if_neg hskip, if_neg hskip, windowSumsWith_eq hread (not_lt.mp hskip)]
    rfl

/-- Whatever reads the written cells computes what `infer_count` computes. -/
theorem inferWith_eq : inferWith p.historySize read = some p.inference := by
  have hrank : (List.range' countMin (countMax + 1 - countMin)).foldlM
      (rankCandidateWith p.historySize read) { best := fltMax, second := fltMax, bestCount := 0 }
        = some p.rankCandidates :=
    Loops.foldlM_eq_pure (fun r n _ => rankCandidateWith_eq hread r) _
  rw [inferWith, hrank, inference]
  show (if accepts p.rankCandidates then _ else _) = _
  by_cases hacc : accepts p.rankCandidates
  · -- the winner was not skipped, so its map has been written too
    obtain ⟨-, -, hsize⟩ := (rankCandidates_bestCount p).resolve_left hacc.1
    rw [if_pos hacc, if_pos hacc, Loops.mapM_eq_pure fun j hj => hread _ (by
      have hj := List.mem_range.mp hj
      omega)]
    rfl
  · rw [if_neg hacc, if_neg hacc]
    rfl

end

/-- The copy loop leaves the cells from `n` on as they are. -/
theorem captureLut_getElem?_of_le (p : Pattern F) {n k j : ℕ} (hn : 0 < n) (hj : n ≤ j) :
    ((List.range k).foldl (fun lut i => lut.setIfInBounds (n - 1 - i) (p.back i))
      p.intervalLut)[j]? = p.intervalLut[j]? := by
  induction k with
  | zero => rfl
  | succ k ih =>
    rw [List.range_succ, List.foldl_append, List.foldl_cons, List.foldl_nil,
      Vector.getElem?_setIfInBounds_ne (by omega)]
    exact ih

/-- The table that `inference` leads to. -/
theorem captureLut_eq (p : Pattern F) (hacc : accepts p.rankCandidates) :
    p.captureLut p.rankCandidates.bestCount
      = Vector.ofFn fun j : Fin countMax =>
          ((List.range p.rankCandidates.bestCount).map fun i =>
            p.back (p.rankCandidates.bestCount - 1 - i))[j.val]?.getD p.intervalLut[j] := by
  obtain ⟨hge, hle, -⟩ := (rankCandidates_bestCount p).resolve_left hacc.1
  have hpos : 0 < p.rankCandidates.bestCount := lt_of_lt_of_le (Nat.succ_pos 15) hge
  refine Vector.ext fun j hj => Option.some.inj ?_
  rw [← Vector.getElem?_eq_getElem, Vector.getElem_ofFn, captureLut]
  rcases lt_or_ge j p.rankCandidates.bestCount with hin | hout
  · rw [captureLut_getElem? _ hle le_rfl (by omega) hin]
    simp [hin]
  · rw [captureLut_getElem?_of_le _ hpos hout]
    simp [hout, hj]

/-- `infer_count` writes what it finds, and nothing else. -/
theorem inferCount_eq (p : Pattern F) : p.inferCount = p.applyInference p.inference := by
  by_cases hacc : accepts p.rankCandidates
  · have hinfer : p.inferCount = (p.noteConfidence (separationConfidence p.rankCandidates)).lock
        p.rankCandidates.bestCount := if_pos hacc
    have hlut : (p.noteConfidence (separationConfidence p.rankCandidates)).captureLut
        p.rankCandidates.bestCount = p.captureLut p.rankCandidates.bestCount := rfl
    have hlen : ((List.range p.rankCandidates.bestCount).map fun i =>
        p.back (p.rankCandidates.bestCount - 1 - i)).length = p.rankCandidates.bestCount := by
      simp
    rw [hinfer, lock, hlut, captureLut_eq p hacc, inference, if_pos hacc]
    simp only [applyInference, hlen]
    rfl
  · have hinfer : p.inferCount = p.noteConfidence (separationConfidence p.rankCandidates) :=
      if_neg hacc
    rw [hinfer, inference, if_neg hacc]
    rfl

/-! ## A state that reads as a list

`back p i` is the `i`-th entry, as far as there are entries, and what has not been
written is not read.
-/

/-- The ring holds the first 104 elements of `xs`, and `infer_count` is a function of
them: of the list alone, and of no cell that was never written. -/
structure ReadsAs (p : Pattern F) (xs : List F) : Prop where
  size_eq : p.historySize = min xs.length historyCapacity
  back_eq : ∀ k < p.historySize, xs[k]? = some (p.back k)
  /-- Both ways to read compute the inference that `infer_count` writes. -/
  infer : ∃ r, inferWith p.historySize p.writtenBack = some r ∧
    inferWith (xs.take historyCapacity).length (fun k => (xs.take historyCapacity)[k]?) = some r ∧
    p.inferCount = p.applyInference r
  /-- The table stored at lock: the last `spoke_count` intervals, oldest first. -/
  map : accepts p.rankCandidates →
    p.inferCount.estimate.countLocked = true ∧
      (List.range p.inferCount.estimate.spokeCount).map p.inferCount.lut
        = (xs.take p.inferCount.estimate.spokeCount).reverse

/-- The first `n` elements, oldest first. -/
theorem reverse_take_eq {xs : List F} {n : ℕ} (hn : ∀ k < n, xs[k]? = some (p.back k)) :
    (List.range n).map (fun j => p.back (n - 1 - j)) = (xs.take n).reverse := by
  induction n generalizing xs with
  | zero => rfl
  | succ n ih =>
    have hlast := hn n (Nat.lt_succ_self n)
    rw [List.take_add_one, hlast, Option.toList_some, List.reverse_append, ← ih fun k hk =>
      hn k (by omega), List.range_succ_eq_map, List.map_cons, List.map_map]
    simp only [List.reverse_cons, List.reverse_nil, List.nil_append, List.singleton_append,
      List.cons.injEq]
    exact ⟨by simp, List.map_congr_left fun j _ => congrArg p.back (by simp; omega)⟩

/-- A ring that holds a list reads as it. -/
theorem ReadsAs.of_holds {xs : List F}
    (h : Ring.Holds p.history p.historyHead p.historySize xs) : p.ReadsAs xs where
  size_eq := h.size_eq
  back_eq := h.back_eq
  infer := by
    have hlen : (xs.take historyCapacity).length = p.historySize := by
      rw [List.length_take, h.size_eq, min_comm]
    refine ⟨p.inference, inferWith_eq fun k hk => if_pos hk, ?_, inferCount_eq p⟩
    rw [hlen]
    refine inferWith_eq fun k hk => ?_
    rw [List.getElem?_take_of_lt (hk.trans_le h.size_le)]
    exact h.back_eq k hk
  map hacc := by
    obtain ⟨-, hle, hsize⟩ := (rankCandidates_bestCount p).resolve_left hacc.1
    have hinfer : p.inferCount = (p.noteConfidence (separationConfidence p.rankCandidates)).lock
        p.rankCandidates.bestCount := if_pos hacc
    rw [hinfer]
    refine ⟨rfl, ?_⟩
    show (List.range p.rankCandidates.bestCount).map _
      = (xs.take p.rankCandidates.bestCount).reverse
    rw [← reverse_take_eq (p := p) fun k hk => h.back_eq k (by omega)]
    exact List.map_congr_left fun j hj => lock_lut _ hle (List.mem_range.mp hj)

/-! ## Runs

The invariant along all calls, from the empty ring on.
-/

/-- Learning does not touch the ring. -/
theorem learn_history (p : Pattern F) (x : F) :
    (p.learn x).history = p.history ∧ (p.learn x).historyHead = p.historyHead ∧
      (p.learn x).historySize = p.historySize := by
  rcases p.learn_cases x with ⟨-, heq⟩ | ⟨-, -, heq⟩ | ⟨-, -, heq⟩ | ⟨-, -, -, heq⟩ <;> rw [heq] <;>
    exact ⟨rfl, rfl, rfl⟩

/-- What one edge adds to the accepted intervals. -/
theorem acceptedIntervals_single (last e : UInt64) :
    (acceptedIntervals last [e] : List F)
      = if e ≠ 0 ∧ last ≠ 0 ∧ InRange (ofRat (e - last).toNat : F) then
          [ofRat (e - last).toNat]
        else [] := by
  by_cases h0 : e = 0
  · simp [acceptedIntervals, h0]
  by_cases hl : last = 0
  · simp [acceptedIntervals, h0, hl]
  by_cases hr : InRange (ofRat (e - last).toNat : F) <;> simp [acceptedIntervals, h0, hl, hr]

/-- The last edge of the state is the last edge of the list. -/
theorem acceptedIntervals_cons (p : Pattern F) (e : UInt64) (es : List UInt64) :
    (acceptedIntervals p.lastEdgeUs (e :: es) : List F) = acceptedIntervals p.lastEdgeUs [e]
      ++ acceptedIntervals (p.ingestEdge e).1.lastEdgeUs es := by
  by_cases h0 : e = 0
  · simp [acceptedIntervals, ingestEdge, h0]
  · rw [ingestEdge_lastEdgeUs p h0, acceptedIntervals, acceptedIntervals]
    simp only [if_neg h0]
    split <;> simp [acceptedIntervals]

theorem acceptedIntervals_append (p : Pattern F) (es : List UInt64) (e : UInt64) :
    (acceptedIntervals p.lastEdgeUs (es ++ [e]) : List F)
      = acceptedIntervals p.lastEdgeUs es ++ acceptedIntervals (p.ingestAll es).lastEdgeUs [e] := by
  induction es generalizing p with
  | nil => rfl
  | cons d es ih =>
    rw [List.cons_append, acceptedIntervals_cons, ih, acceptedIntervals_cons p d es,
      List.append_assoc, ingestAll_cons]

/-- An accepted interval is in the ring when `infer_count` is called. -/
theorem holds_pushed {xs : List F}
    (h : Ring.Holds p.history p.historyHead p.historySize xs) {e : UInt64}
    (hcond : e ≠ 0 ∧ p.lastEdgeUs ≠ 0 ∧ InRange (ofRat (e - p.lastEdgeUs).toNat : F)) :
    Ring.Holds (p.pushed e).history (p.pushed e).historyHead (p.pushed e).historySize
      ((acceptedIntervals p.lastEdgeUs [e]).reverse ++ xs) := by
  rw [acceptedIntervals_single, if_pos hcond]
  exact h.push (ofRat (p.intervalTo e))

/-- One call puts the interval of an accepted edge in front of the list. -/
theorem holds_ingestEdge {xs : List F}
    (h : Ring.Holds p.history p.historyHead p.historySize xs) (e : UInt64) :
    Ring.Holds (p.ingestEdge e).1.history (p.ingestEdge e).1.historyHead
      (p.ingestEdge e).1.historySize ((acceptedIntervals p.lastEdgeUs [e]).reverse ++ xs) := by
  rcases ingestEdge_cases p e with
    ⟨h0, heq⟩ | ⟨-, hl, heq⟩ | ⟨-, -, hr, heq⟩ | ⟨h0, hl, hr, heq⟩
  -- the first three add nothing
  · rw [acceptedIntervals_single, if_neg (fun hc => hc.1 h0), heq]
    exact h
  · rw [acceptedIntervals_single, if_neg (fun hc => hc.2.1 hl), heq]
    exact h
  · rw [acceptedIntervals_single, if_neg (fun hc => hr hc.2.2), heq]
    exact h
  · obtain ⟨hhist, hhead, hsize⟩ := learn_history (p.pushed e) (ofRat (p.intervalTo e))
    rw [heq]
    rw [pushed] at hhist hhead hsize
    rw [hhist, hhead, hsize]
    exact holds_pushed h ⟨h0, hl, hr⟩

/-- After every sequence of calls the ring holds the accepted intervals, latest first.
By induction on the calls; of each of them `ingestEdge_cases` says whether it pushes. -/
theorem holds_ingestAll {xs : List F}
    (h : Ring.Holds p.history p.historyHead p.historySize xs) (es : List UInt64) :
    Ring.Holds (p.ingestAll es).history (p.ingestAll es).historyHead
      (p.ingestAll es).historySize ((acceptedIntervals p.lastEdgeUs es).reverse ++ xs) := by
  induction es generalizing p xs with
  | nil => exact h
  | cons e es ih =>
    have := ih (holds_ingestEdge h e)
    rwa [← List.append_assoc, ← List.reverse_append, ← acceptedIntervals_cons] at this

/-- The call returns `true` for the edges that the list counts, and runs `infer_count`
from `pushed`. -/
theorem ingestEdge_accepted (p : Pattern F) (e : UInt64) :
    ((p.ingestEdge e).2 = true ↔
      e ≠ 0 ∧ p.lastEdgeUs ≠ 0 ∧ InRange (ofRat (e - p.lastEdgeUs).toNat : F)) ∧
    ((p.ingestEdge e).2 = true →
      (p.ingestEdge e).1 = (p.pushed e).learn (ofRat (p.intervalTo e))) := by
  rcases ingestEdge_cases p e with
    ⟨h0, heq⟩ | ⟨-, hl, heq⟩ | ⟨-, -, hr, heq⟩ | ⟨h0, hl, hr, heq⟩ <;> rw [heq]
  · exact ⟨iff_of_false Bool.false_ne_true fun hc => hc.1 h0, nofun⟩
  · exact ⟨iff_of_false Bool.false_ne_true fun hc => hc.2.1 hl, nofun⟩
  · exact ⟨iff_of_false Bool.false_ne_true fun hc => hr hc.2.2, nofun⟩
  · exact ⟨iff_of_true rfl ⟨h0, hl, hr⟩, fun _ => rfl⟩

/-- The ring buffer refines the list of accepted intervals: every reachable state
reads as that list, and so does the state in which an accepted edge runs
`infer_count`. Nothing is rounded or compared in the proof, so it holds for every
`float`. -/
theorem history_refines_list (es : List UInt64) :
    (init.ingestAll es : Pattern F).ReadsAs (acceptedIntervals 0 es).reverse ∧
    ∀ e, (((init.ingestAll es : Pattern F).ingestEdge e).2 = true ↔
        (acceptedIntervals 0 (es ++ [e]) : List F) ≠ acceptedIntervals 0 es) ∧
      (((init.ingestAll es : Pattern F).ingestEdge e).2 = true →
        ((init.ingestAll es : Pattern F).ingestEdge e).1
          = ((init.ingestAll es : Pattern F).pushed e).learn
              (ofRat ((init.ingestAll es : Pattern F).intervalTo e)) ∧
        ((init.ingestAll es : Pattern F).pushed e).ReadsAs
          (acceptedIntervals 0 (es ++ [e])).reverse) := by
  have hrun := holds_ingestAll (p := (init : Pattern F)) (Ring.Holds.empty _) es
  have hinit : (init : Pattern F).lastEdgeUs = 0 := rfl
  rw [List.append_nil, hinit] at hrun
  refine ⟨ReadsAs.of_holds hrun, fun e => ?_⟩
  obtain ⟨hiff, hlearn⟩ := ingestEdge_accepted (init.ingestAll es : Pattern F) e
  have happend := acceptedIntervals_append (init : Pattern F) es e
  rw [hinit] at happend
  refine ⟨?_, fun he => ⟨hlearn he, ReadsAs.of_holds ?_⟩⟩
  · rw [hiff, happend, acceptedIntervals_single]
    split
    · exact iff_of_true ‹_› (by simp)
    · exact iff_of_false ‹_› (by simp)
  · rw [happend, List.reverse_append]
    exact holds_pushed hrun (hiff.mp he)

end SpokeSensor.Pattern
