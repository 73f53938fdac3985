import SpokeSensor.Core.Pattern
import SpokeSensor.Lib.Ring

/-!
# Control flow of the estimator, for every `float`

What one call of `ir_spoke_pattern_ingest_edge` can do, and what follows without
looking at a single rounding.

- `ingestEdge_cases`, `learn_cases`: every way through `ir_spoke_pattern.c:61–76`,
  with the guards taken. Later modules cite these and do not unfold the functions.
- `updateMap_lut`, `lock_lut`: which cells the two writers of the table touch.
- `Shape`: ties the head, the fill count, the lock flag, the spoke count and the table
  index together; every call preserves it (`Shape.ingestEdge`).
- `estimate_ingestAll_locked`: a lock is final, with its count and its confidence.
-/

set_option linter.unusedSectionVars false

namespace SpokeSensor.Pattern

variable {F : Type} [Add F] [Sub F] [Mul F] [Div F] [LT F] [DecidableLT F]
  [LE F] [DecidableLE F] [CFloat F]

/-! ## Reads after writes

What `back` and `lut` read after one of the three places of the source has written the
ring or the table.
-/

/-- One update writes the cell under the index and no other. -/
theorem updateMap_lut (p : Pattern F) (x : F) (h : p.spokeIndex < countMax) (j : ℕ) :
    (p.updateMap x).lut j
      = if j = p.spokeIndex then adaptCell (p.lut p.spokeIndex) x else p.lut j := by
  show (p.intervalLut.setIfInBounds p.spokeIndex (adaptCell (p.lut p.spokeIndex) x))[j]?.getD _
    = _
  rw [Vector.getElem?_setIfInBounds]
  by_cases hj : p.spokeIndex = j
  · subst hj
    rw [if_pos rfl, if_pos h, if_pos rfl, Option.getD_some]
  · rw [if_neg hj, if_neg (Ne.symm hj)]
    rfl

/-- After `k` rounds of the copy loop the last `k` of the cells `0 .. n - 1` are
written. -/
theorem captureLut_getElem? (p : Pattern F) {n : ℕ} (hn : n ≤ countMax) :
    ∀ {k : ℕ}, k ≤ n → ∀ {j : ℕ}, n - k ≤ j → j < n →
      ((List.range k).foldl (fun lut i => lut.setIfInBounds (n - 1 - i) (p.back i))
        p.intervalLut)[j]? = some (p.back (n - 1 - j))
  | 0, _, j, hlo, hhi => absurd hhi (by omega)
  | k + 1, hk, j, hlo, hhi => by
    rw [List.range_succ, List.foldl_append, List.foldl_cons, List.foldl_nil,
      Vector.getElem?_setIfInBounds]
    by_cases hj : n - 1 - k = j
    · rw [if_pos hj, if_pos (by omega)]
      congr 2
      omega
    · -- written in an earlier round, and not again
      rw [if_neg hj]
      exact captureLut_getElem? p hn (by omega) (by omega) hhi

/-- The captured table: the last `n` intervals, oldest first. -/
theorem lock_lut (p : Pattern F) {n j : ℕ} (hn : n ≤ countMax) (hj : j < n) :
    (p.lock n).lut j = p.back (n - 1 - j) := by
  show (p.captureLut n)[j]?.getD _ = _
  rw [captureLut, captureLut_getElem? p hn le_rfl (by omega) hj, Option.getD_some]

/-! ## The cases of one call

`ir_spoke_pattern_ingest_edge` has four outcomes for an accepted interval, by the
lock, the number of events and the acceptance of the ranking
(`ir_spoke_pattern.c:61–76`). The run lemmas below and in the other modules only use
these.
-/

/-- The interval measured by an edge. -/
def intervalTo (p : Pattern F) (edgeUs : UInt64) : ℕ :=
  (edgeUs - p.lastEdgeUs).toNat

/-- The range check of `ingestEdge` (`ir_spoke_pattern.c:66`), on the converted
interval. -/
def InRange (interval : F) : Prop :=
  ¬ (interval < ofRat blockMinUs ∨ ofRat linkLossUs < interval)

instance (interval : F) : Decidable (InRange interval) := by
  unfold InRange; infer_instance

/-- The pattern once its last edge is `edgeUs`. -/
def withEdge (p : Pattern F) (edgeUs : UInt64) : Pattern F :=
  { p with lastEdgeUs := edgeUs }

/-- Everything one call of `ir_spoke_pattern_ingest_edge` can do: nothing for the
timestamp `0`, start the clock, remember the edge, or learn an interval. -/
theorem ingestEdge_cases (p : Pattern F) (e : UInt64) :
    (e = 0 ∧ p.ingestEdge e = (p, false)) ∨
    (e ≠ 0 ∧ p.lastEdgeUs = 0 ∧ p.ingestEdge e = (p.withEdge e, false)) ∨
    (e ≠ 0 ∧ p.lastEdgeUs ≠ 0 ∧ ¬ InRange (ofRat (p.intervalTo e) : F) ∧
      p.ingestEdge e = (p.withEdge e, false)) ∨
    (e ≠ 0 ∧ p.lastEdgeUs ≠ 0 ∧ InRange (ofRat (p.intervalTo e) : F) ∧
      p.ingestEdge e
        = (((p.withEdge e).pushInterval (ofRat (p.intervalTo e))).learn
            (ofRat (p.intervalTo e)), true)) := by
  by_cases h0 : e = 0
  · exact .inl ⟨h0, by rw [ingestEdge, if_pos h0]⟩
  by_cases hl : p.lastEdgeUs = 0
  · exact .inr (.inl ⟨h0, hl, by rw [ingestEdge, if_neg h0, if_pos hl]; rfl⟩)
  by_cases hr : InRange (ofRat (p.intervalTo e) : F)
  · refine .inr (.inr (.inr ⟨h0, hl, hr, ?_⟩))
    rw [ingestEdge, if_neg h0, if_neg hl]
    exact if_neg hr
  · refine .inr (.inr (.inl ⟨h0, hl, hr, ?_⟩))
    rw [ingestEdge, if_neg h0, if_neg hl]
    exact if_pos (not_not.mp hr)

theorem learn_locked {p : Pattern F} (h : p.estimate.countLocked = true) (x : F) :
    p.learn x = p.updateMap x := by
  simp [learn, h]

theorem learn_waiting {p : Pattern F} (h : p.estimate.countLocked = false)
    (hev : p.acceptedEvents.toNat < confidenceEvents) (x : F) : p.learn x = p := by
  have hno : ¬ (p.estimate.countLocked = false ∧
      confidenceEvents ≤ p.acceptedEvents.toNat) := fun hc => absurd hc.2 (not_le.mpr hev)
  simp only [learn, if_neg hno]
  exact if_neg (by simp [h])

theorem learn_undecided {p : Pattern F} (h : p.estimate.countLocked = false)
    (hev : confidenceEvents ≤ p.acceptedEvents.toNat) (hacc : ¬ accepts p.rankCandidates)
    (x : F) : p.learn x = p.noteConfidence (separationConfidence p.rankCandidates) := by
  have hinfer : p.inferCount = p.noteConfidence (separationConfidence p.rankCandidates) :=
    if_neg hacc
  simp only [learn, if_pos (And.intro h hev), hinfer]
  exact if_neg (by simp [noteConfidence, h])

theorem learn_lock {p : Pattern F} (h : p.estimate.countLocked = false)
    (hev : confidenceEvents ≤ p.acceptedEvents.toNat) (hacc : accepts p.rankCandidates)
    (x : F) :
    p.learn x = ((p.noteConfidence (separationConfidence p.rankCandidates)).lock
      p.rankCandidates.bestCount).updateMap x := by
  have hinfer : p.inferCount = (p.noteConfidence (separationConfidence p.rankCandidates)).lock
      p.rankCandidates.bestCount := if_pos hacc
  simp only [learn, if_pos (And.intro h hev), hinfer]
  exact if_pos rfl

/-- Everything that can follow an accepted interval. -/
theorem learn_cases (p : Pattern F) (x : F) :
    (p.estimate.countLocked = true ∧ p.learn x = p.updateMap x) ∨
    (p.estimate.countLocked = false ∧ p.acceptedEvents.toNat < confidenceEvents ∧
      p.learn x = p) ∨
    (p.estimate.countLocked = false ∧ ¬ accepts p.rankCandidates ∧
      p.learn x = p.noteConfidence (separationConfidence p.rankCandidates)) ∨
    (p.estimate.countLocked = false ∧ confidenceEvents ≤ p.acceptedEvents.toNat ∧
      accepts p.rankCandidates ∧
      p.learn x = ((p.noteConfidence (separationConfidence p.rankCandidates)).lock
        p.rankCandidates.bestCount).updateMap x) := by
  cases h : p.estimate.countLocked with
  | true => exact .inl ⟨rfl, learn_locked h x⟩
  | false =>
    rcases Nat.lt_or_ge p.acceptedEvents.toNat confidenceEvents with hev | hev
    · exact .inr (.inl ⟨rfl, hev, learn_waiting h hev x⟩)
    by_cases hacc : accepts p.rankCandidates
    · exact .inr (.inr (.inr ⟨rfl, hev, hacc, learn_lock h hev hacc x⟩))
    · exact .inr (.inr (.inl ⟨rfl, hacc, learn_undecided h hev hacc x⟩))

/-- Learning does not touch the last edge or the number of accepted intervals. -/
theorem learn_frame (p : Pattern F) (x : F) :
    (p.learn x).lastEdgeUs = p.lastEdgeUs ∧ (p.learn x).acceptedEvents = p.acceptedEvents := by
  rcases p.learn_cases x with ⟨-, heq⟩ | ⟨-, -, heq⟩ | ⟨-, -, heq⟩ | ⟨-, -, -, heq⟩ <;> rw [heq] <;>
    exact ⟨rfl, rfl⟩

/-- An edge is remembered whatever becomes of its interval. -/
theorem ingestEdge_lastEdgeUs (p : Pattern F) {e : UInt64} (he : e ≠ 0) :
    (p.ingestEdge e).1.lastEdgeUs = e := by
  rcases p.ingestEdge_cases e with ⟨h0, -⟩ | ⟨-, -, heq⟩ | ⟨-, -, -, heq⟩ | ⟨-, -, -, heq⟩
  · exact absurd h0 he
  · rw [heq]
    rfl
  · rw [heq]
    rfl
  · rw [heq]
    exact (learn_frame ..).1

/-- Only an inference that accepts its winner locks. -/
theorem learn_of_locks {p : Pattern F} {x : F} (hunlocked : p.estimate.countLocked = false)
    (hlocked : (p.learn x).estimate.countLocked = true) :
    confidenceEvents ≤ p.acceptedEvents.toNat ∧ accepts p.rankCandidates ∧
      p.learn x = ((p.noteConfidence (separationConfidence p.rankCandidates)).lock
        p.rankCandidates.bestCount).updateMap x := by
  have hstay : ∀ q : Pattern F, p.learn x = q →
      q.estimate.countLocked = p.estimate.countLocked → False := by
    rintro q rfl hq
    exact Bool.false_ne_true (hunlocked.symm.trans (hq.symm.trans hlocked))
  rcases learn_cases p x with ⟨hl, -⟩ | ⟨-, -, heq⟩ | ⟨-, -, heq⟩ | ⟨-, hev, hacc, heq⟩
  · exact absurd (hunlocked.symm.trans hl) Bool.false_ne_true
  · exact (hstay _ heq rfl).elim
  · exact (hstay _ heq rfl).elim
  · exact ⟨hev, hacc, heq⟩

/-- Only an accepted interval locks. -/
theorem ingestEdge_of_locks {p : Pattern F} {e : UInt64}
    (hunlocked : p.estimate.countLocked = false)
    (hlocked : (p.ingestEdge e).1.estimate.countLocked = true) :
    e ≠ 0 ∧ p.lastEdgeUs ≠ 0 ∧ InRange (ofRat (p.intervalTo e) : F) ∧
      p.ingestEdge e
        = (((p.withEdge e).pushInterval (ofRat (p.intervalTo e))).learn
            (ofRat (p.intervalTo e)), true) := by
  rcases ingestEdge_cases p e with ⟨-, heq⟩ | ⟨-, -, heq⟩ | ⟨-, -, -, heq⟩ | ⟨h0, hl, hr, heq⟩
  -- the first three leave the estimate as it is
  · rw [heq] at hlocked
    exact absurd (hunlocked.symm.trans hlocked) Bool.false_ne_true
  · rw [heq] at hlocked
    exact absurd (hunlocked.symm.trans hlocked) Bool.false_ne_true
  · rw [heq] at hlocked
    exact absurd (hunlocked.symm.trans hlocked) Bool.false_ne_true
  · exact ⟨h0, hl, hr, heq⟩

/-! ## Shape

The indices stay in their arrays and the counters within their bounds, for every
`float`: nothing here depends on what is stored.
-/

/-- The spoke count that a scan ends with: none, or a candidate that was not
skipped. -/
theorem rankCandidates_bestCount (p : Pattern F) :
    p.rankCandidates.bestCount = 0 ∨
      (countMin ≤ p.rankCandidates.bestCount ∧ p.rankCandidates.bestCount ≤ countMax ∧
        2 * p.rankCandidates.bestCount ≤ p.historySize) := by
  have hscan : ∀ (l : List ℕ) (r : Ranking F), (∀ n ∈ l, countMin ≤ n ∧ n ≤ countMax) →
      (r.bestCount = 0 ∨ (countMin ≤ r.bestCount ∧ r.bestCount ≤ countMax ∧
        2 * r.bestCount ≤ p.historySize)) →
      ((l.foldl p.rankCandidate r).bestCount = 0 ∨
        (countMin ≤ (l.foldl p.rankCandidate r).bestCount ∧
          (l.foldl p.rankCandidate r).bestCount ≤ countMax ∧
          2 * (l.foldl p.rankCandidate r).bestCount ≤ p.historySize)) := by
    intro l
    induction l with
    | nil => exact fun r _ hr => hr
    | cons n l ih =>
      intro r hl hr
      refine ih _ (fun m hm => hl m (List.mem_cons_of_mem _ hm)) ?_
      have hn := hl n List.mem_cons_self
      -- only a new best changes the count, and it was not skipped
      simp only [rankCandidate]
      split_ifs with hskip
      · exact hr
      · exact .inr ⟨hn.1, hn.2, not_lt.mp hskip⟩
      · exact hr
      · exact hr
  refine hscan _ _ (fun n hn => ?_) (.inl rfl)
  rw [List.mem_range'_1] at hn
  exact ⟨hn.1, by omega⟩

/-- The part of the state that no rounding can disturb: what the integers and the
flags of the estimator say about each other. -/
structure Shape (p : Pattern F) : Prop where
  head_lt : p.historyHead < historyCapacity
  size_le : p.historySize ≤ historyCapacity
  unlocked : p.estimate.countLocked = false →
    p.estimate.spokeCount = 0 ∧ p.spokeIndex = 0 ∧ p.estimate.currentSpoke = 0
  count_ge : p.estimate.countLocked = true → countMin ≤ p.estimate.spokeCount
  count_le : p.estimate.spokeCount ≤ countMax
  index_lt : p.estimate.countLocked = true → p.spokeIndex < p.estimate.spokeCount
  current_eq : p.estimate.currentSpoke = p.spokeIndex

theorem Shape.locked_iff {p : Pattern F} (h : p.Shape) :
    p.estimate.countLocked = true ↔ p.estimate.spokeCount ≠ 0 := by
  constructor
  · intro hl hz
    have hge := h.count_ge hl
    rw [hz] at hge
    exact absurd hge (Nat.not_succ_le_zero 15)
  · intro hne
    by_contra hl
    exact hne (h.unlocked (by simpa using hl)).1

theorem Shape.index_lt_max {p : Pattern F} (h : p.Shape)
    (hl : p.estimate.countLocked = true) : p.spokeIndex < countMax :=
  (h.index_lt hl).trans_le h.count_le

theorem shape_init : (init : Pattern F).Shape where
  head_lt := Nat.succ_pos _
  size_le := Nat.zero_le _
  unlocked _ := ⟨rfl, rfl, rfl⟩
  count_ge h := nomatch h
  count_le := Nat.zero_le _
  index_lt h := nomatch h
  current_eq := rfl

theorem Shape.withEdge {p : Pattern F} (h : p.Shape) (e : UInt64) : (p.withEdge e).Shape :=
  ⟨h.head_lt, h.size_le, h.unlocked, h.count_ge, h.count_le, h.index_lt, h.current_eq⟩

theorem Shape.pushInterval {p : Pattern F} (h : p.Shape) (x : F) : (p.pushInterval x).Shape where
  head_lt := Nat.mod_lt _ (by decide)
  size_le := by
    have := h.size_le
    simp only [Pattern.pushInterval]
    split <;> omega
  unlocked := h.unlocked
  count_ge := h.count_ge
  count_le := h.count_le
  index_lt := h.index_lt
  current_eq := h.current_eq

/-- One table update needs a count and an index below it; it keeps the count and
moves the index. -/
theorem Shape.updateMap {p : Pattern F} (x : F) (hhead : p.historyHead < historyCapacity)
    (hsize : p.historySize ≤ historyCapacity) (hlock : p.estimate.countLocked = true)
    (hge : countMin ≤ p.estimate.spokeCount) (hle : p.estimate.spokeCount ≤ countMax) :
    (p.updateMap x).Shape where
  head_lt := hhead
  size_le := hsize
  unlocked h := by
    have : p.estimate.countLocked = false := h
    rw [hlock] at this
    cases this
  count_ge _ := hge
  count_le := hle
  index_lt _ := Nat.mod_lt _ (lt_of_lt_of_le (by decide) hge)
  current_eq := rfl

theorem Shape.learn {p : Pattern F} (h : p.Shape) (x : F) : (p.learn x).Shape := by
  rcases learn_cases p x with ⟨hl, heq⟩ | ⟨-, -, heq⟩ | ⟨hl, -, heq⟩ | ⟨hl, -, hacc, heq⟩ <;>
    rw [heq]
  · exact Shape.updateMap x h.head_lt h.size_le hl (h.count_ge hl) h.count_le
  · exact h
  · exact ⟨h.head_lt, h.size_le, h.unlocked, h.count_ge, h.count_le, h.index_lt, h.current_eq⟩
  · -- the lock comes first, then the update of the same call
    obtain ⟨hge, hle, -⟩ := (rankCandidates_bestCount p).resolve_left hacc.1
    exact Shape.updateMap x h.head_lt h.size_le rfl hge hle

/-- Every call preserves the shape. -/
theorem Shape.ingestEdge {p : Pattern F} (h : p.Shape) (e : UInt64) :
    (p.ingestEdge e).1.Shape := by
  rcases ingestEdge_cases p e with ⟨-, heq⟩ | ⟨-, -, heq⟩ | ⟨-, -, -, heq⟩ | ⟨-, -, -, heq⟩ <;>
    rw [heq]
  · exact h
  · exact h.withEdge e
  · exact h.withEdge e
  · exact ((h.withEdge e).pushInterval _).learn _

theorem ingestAll_cons (p : Pattern F) (e : UInt64) (es : List UInt64) :
    p.ingestAll (e :: es) = ((p.ingestEdge e).1).ingestAll es := rfl

theorem ingestAll_append (p : Pattern F) (es fs : List UInt64) :
    p.ingestAll (es ++ fs) = (p.ingestAll es).ingestAll fs :=
  List.foldl_append

theorem Shape.ingestAll {p : Pattern F} (h : p.Shape) (es : List UInt64) :
    (p.ingestAll es).Shape := by
  induction es generalizing p with
  | nil => exact h
  | cons e es ih => exact ih (h.ingestEdge e)

/-! ## A lock is final

No branch of the source resets `count_locked`, so count and confidence stay as they
were published.
-/

/-- Everything one call can do once locked: an accepted interval only updates the
table. -/
theorem ingestEdge_locked {p : Pattern F} (hl : p.estimate.countLocked = true) (e : UInt64) :
    (p.ingestEdge e = (p, false)) ∨ (p.ingestEdge e = (p.withEdge e, false)) ∨
    (e ≠ 0 ∧ p.lastEdgeUs ≠ 0 ∧ InRange (ofRat (p.intervalTo e) : F) ∧
      p.ingestEdge e = (((p.withEdge e).pushInterval (ofRat (p.intervalTo e))).updateMap
        (ofRat (p.intervalTo e)), true)) := by
  rcases ingestEdge_cases p e with
    ⟨-, heq⟩ | ⟨-, -, heq⟩ | ⟨-, -, -, heq⟩ | ⟨h0, hlast, hr, heq⟩
  · exact .inl heq
  · exact .inr (.inl heq)
  · exact .inr (.inl heq)
  · refine .inr (.inr ⟨h0, hlast, hr, ?_⟩)
    rwa [learn_locked (show ((p.withEdge e).pushInterval _).estimate.countLocked = true from hl)]
      at heq

/-- Once locked, the count, the confidence and the lock itself never change. -/
theorem estimate_ingestEdge_locked {p : Pattern F} (hl : p.estimate.countLocked = true)
    (e : UInt64) :
    (p.ingestEdge e).1.estimate.spokeCount = p.estimate.spokeCount ∧
      (p.ingestEdge e).1.estimate.confidence = p.estimate.confidence ∧
      (p.ingestEdge e).1.estimate.countLocked = true := by
  rcases ingestEdge_locked hl e with heq | heq | ⟨-, -, -, heq⟩ <;> rw [heq] <;>
    exact ⟨rfl, rfl, hl⟩

theorem estimate_ingestAll_locked {p : Pattern F} (hl : p.estimate.countLocked = true)
    (es : List UInt64) :
    (p.ingestAll es).estimate.spokeCount = p.estimate.spokeCount ∧
      (p.ingestAll es).estimate.confidence = p.estimate.confidence ∧
      (p.ingestAll es).estimate.countLocked = true := by
  induction es generalizing p with
  | nil => exact ⟨rfl, rfl, hl⟩
  | cons e es ih =>
    -- the lock that the first call keeps is what the rest of the run starts from
    obtain ⟨hcount, hconf, hlock⟩ := estimate_ingestEdge_locked hl e
    obtain ⟨hcount', hconf', hlock'⟩ := ih hlock
    exact ⟨hcount'.trans hcount, hconf'.trans hconf, hlock'⟩

end SpokeSensor.Pattern
