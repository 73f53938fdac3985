import SpokeSensor.Core.Harmonics
import SpokeSensor.Core.History

/-!
# The candidates of `infer_count`

What the three variables of the loop in `ir_spoke_pattern.c:13–29` mean when it ends,
and that this is what they mean in every call.

- `Ranks p r`: the least error, the first candidate with it, and the least error of
  the others.
- `ranks_rankCandidates`: on any history with two candidates that are not skipped, and
  errors below the sentinel, this is what the loop computes.
- `inferred`: the state on which an edge calls `infer_count`, if it does.
- `inferred_full`, `inferred_error_lt`: along a run it is called on full rings only,
  so all 33 candidates take part and no error comes near `FLT_MAX`.
- `candidates_ranked`: all of this for every history, and for every call of every run.
-/

namespace SpokeSensor.Pattern

open Finset

/-! ## What the loop computes

The loop over the candidates keeps the smallest error with its first count, and the
smallest error of the others (`ir_spoke_pattern.c:15–29`). `Ranks` says so of the
result, for every history.
-/

/-- The candidate `n` is not skipped. -/
def Admissible (p : Pattern ℚ) (n : ℕ) : Prop :=
  (countMin ≤ n ∧ n ≤ countMax) ∧ 2 * n ≤ p.historySize

/-- `best`, `best_count` and `second` in terms of the errors of the candidates. -/
structure Ranks (p : Pattern ℚ) (r : Ranking ℚ) : Prop where
  best : IsLeast {e | ∃ n, p.Admissible n ∧ e = windowError p.back n} r.best
  bestCount : IsLeast {n | p.Admissible n ∧ r.best = windowError p.back n} r.bestCount
  second : IsLeast {e | ∃ n, n ≠ r.bestCount ∧ p.Admissible n ∧ e = windowError p.back n} r.second

variable {p : Pattern ℚ} {n m : ℕ} {e : ℚ}

theorem mem_entries_iff_admissible :
    (n, e) ∈ p.entries ↔ p.Admissible n ∧ e = windowError p.back n := by
  rw [mem_entries, Admissible]
  exact and_assoc.symm

/-- With two candidates and errors below the sentinel, the loop finds the minimum, its
first candidate and the runner-up. -/
theorem ranks_rankCandidates (hn : p.Admissible n) (hm : p.Admissible m) (hne : n ≠ m)
    (herror : ∀ k, p.Admissible k → windowError p.back k < fltMax) :
    p.Ranks p.rankCandidates := by
  have hrank := p.ranked_rankCandidates
  have hentry : ∀ k, p.Admissible k → (k, windowError p.back k) ∈ p.entries :=
    fun k hk => mem_entries_iff_admissible.mpr ⟨hk, rfl⟩
  -- one of the two is not the winner
  obtain ⟨k, hk, hkey⟩ : ∃ k, p.Admissible k ∧ k ≠ p.rankCandidates.bestCount := by
    by_cases h : n = p.rankCandidates.bestCount
    · exact ⟨m, hm, fun h' => hne (h.trans h'.symm)⟩
    · exact ⟨n, hn, h⟩
  constructor
  · have hbest := hrank.isLeast_best (hentry n hn) (herror n hn)
    simpa only [mem_entries_iff_admissible] using hbest
  · have hcount := hrank.isLeast_key (hentry n hn) (herror n hn)
    simpa only [mem_entries_iff_admissible] using hcount
  · have hsecond := hrank.isLeast_second (hentry k hk) hkey (herror k hk)
    simpa only [mem_entries_iff_admissible] using hsecond

/-! ## The calls along a run

`infer_count` is called once 192 intervals have been accepted, and from then on until
the lock. The ring is full by then, so all 33 counts are candidates in each of these
calls.
-/

/-- The state on which `ir_spoke_pattern_ingest_edge` calls `infer_count`, if it does. -/
def inferred (p : Pattern ℚ) (edgeUs : UInt64) : Option (Pattern ℚ) :=
  if edgeUs = 0 then none
  else if p.lastEdgeUs = 0 then none
  else if ¬ InRange (ofRat (p.intervalTo edgeUs) : ℚ) then none
  else if (p.pushed edgeUs).estimate.countLocked = false ∧
      confidenceEvents ≤ (p.pushed edgeUs).acceptedEvents.toNat then some (p.pushed edgeUs)
  else none

theorem inferred_eq_some {q : Pattern ℚ} {edgeUs : UInt64} (h : p.inferred edgeUs = some q) :
    edgeUs ≠ 0 ∧ p.lastEdgeUs ≠ 0 ∧ InRange (ofRat (p.intervalTo edgeUs) : ℚ) ∧
      q = p.pushed edgeUs ∧ q.estimate.countLocked = false ∧
      confidenceEvents ≤ q.acceptedEvents.toNat := by
  rw [inferred] at h
  split_ifs at h with hzero hfirst hrange hcall
  obtain rfl := Option.some.inj h
  exact ⟨hzero, hfirst, hrange, rfl, hcall.1, hcall.2⟩

/-- With a call, the edge leaves what `infer_count` leaves, and the table updated if that
has locked. -/
theorem ingestEdge_of_inferred {q : Pattern ℚ} {edgeUs : UInt64}
    (h : p.inferred edgeUs = some q) :
    p.ingestEdge edgeUs = (if q.inferCount.estimate.countLocked then
      q.inferCount.updateMap (ofRat (p.intervalTo edgeUs)) else q.inferCount, true) := by
  obtain ⟨hzero, hfirst, hrange, rfl, hunlocked, hevents⟩ := inferred_eq_some h
  rcases ingestEdge_cases p edgeUs with ⟨h0, -⟩ | ⟨-, h0, -⟩ | ⟨-, -, h0, -⟩ | ⟨-, -, -, heq⟩
  · exact absurd h0 hzero
  · exact absurd h0 hfirst
  · exact absurd hrange h0
  · have hlearn : p.ingestEdge edgeUs
        = ((p.pushed edgeUs).learn (ofRat (p.intervalTo edgeUs)), true) := heq
    rw [hlearn]
    simp only [learn, if_pos (And.intro hunlocked hevents)]

/-- Without one, `infer_count` is not reached: the edge is dropped, or the table updated at
most. -/
theorem ingestEdge_of_not_inferred {edgeUs : UInt64} (h : p.inferred edgeUs = none) :
    (p.ingestEdge edgeUs).1 = p ∨ (p.ingestEdge edgeUs).1 = p.withEdge edgeUs ∨
      (p.ingestEdge edgeUs).1 = p.pushed edgeUs ∨
      (p.ingestEdge edgeUs).1 = (p.pushed edgeUs).updateMap (ofRat (p.intervalTo edgeUs)) := by
  rcases ingestEdge_cases p edgeUs with
    ⟨-, heq⟩ | ⟨-, -, heq⟩ | ⟨-, -, -, heq⟩ | ⟨hzero, hfirst, hrange, heq⟩ <;> rw [heq]
  · exact .inl rfl
  · exact .inr (.inl rfl)
  · exact .inr (.inl rfl)
  · rw [inferred, if_neg hzero, if_neg hfirst, if_neg (not_not.mpr hrange)] at h
    have hcall : ¬ ((p.pushed edgeUs).estimate.countLocked = false ∧
        confidenceEvents ≤ (p.pushed edgeUs).acceptedEvents.toNat) := by
      intro hcall
      rw [if_pos hcall] at h
      cases h
    show ((p.pushed edgeUs).learn _) = p ∨ ((p.pushed edgeUs).learn _) = _ ∨
      ((p.pushed edgeUs).learn _) = _ ∨ ((p.pushed edgeUs).learn _) = _
    simp only [learn, if_neg hcall]
    cases (p.pushed edgeUs).estimate.countLocked with
    | true => exact .inr (.inr (.inr rfl))
    | false => exact .inr (.inr (.inl rfl))

/-- `infer_count` publishes the confidence of its ranking, and the table update keeps it. -/
theorem confidence_of_inferred {q : Pattern ℚ} {edgeUs : UInt64}
    (h : p.inferred edgeUs = some q) :
    (p.ingestEdge edgeUs).1.estimate.confidence = separationConfidence q.rankCandidates := by
  have hinfer : q.inferCount.estimate.confidence = separationConfidence q.rankCandidates := by
    rw [inferCount]
    split_ifs
    · rfl
    · rfl
  rw [ingestEdge_of_inferred h]
  cases q.inferCount.estimate.countLocked with
  | true => exact hinfer
  | false => exact hinfer

/-- Intervals of the accepted range leave errors below a million. -/
theorem windowError_lt {f : ℕ → ℚ} (hn : n ≤ countMax)
    (hf : ∀ i < 2 * n, 70 ≤ f i ∧ f i ≤ 15000) : windowError f n < 1000000 := by
  have hn' : (n : ℚ) ≤ 48 := by exact_mod_cast hn
  have hterm : ∀ i ∈ range n, |f i - f (i + n)| ≤ 15000 := by
    intro i hi
    have hi := mem_range.mp hi
    obtain ⟨hlow, hhigh⟩ := hf i (by omega)
    obtain ⟨hlow', hhigh'⟩ := hf (i + n) (by omega)
    rw [abs_le]
    constructor <;> linarith
  have hsum : ∑ i ∈ range n, |f i - f (i + n)| ≤ 720000 := by
    calc _ ≤ ∑ _i ∈ range n, (15000 : ℚ) := sum_le_sum hterm
      _ = n * 15000 := by simp
      _ ≤ 720000 := by linarith
  have hquotient : (∑ i ∈ range n, |f i - f (i + n)|)
      / max (∑ i ∈ range n, 1 / 2 * (f i + f (i + n))) 1 ≤ 720000 :=
    (div_le_self (sum_nonneg fun i _ => abs_nonneg _) (le_max_right _ _)).trans hsum
  rw [windowError]
  calc _ ≤ 720000 * (1 + 1 / 1000 * (n : ℚ)) := by gcongr
    _ < 1000000 := by linarith

/-- `infer_count` is only called on a full ring of accepted intervals. -/
theorem inferred_full {es : List UInt64} {edgeUs : UInt64} {q : Pattern ℚ}
    (h : (init.ingestAll es).inferred edgeUs = some q) :
    q.historySize = historyCapacity ∧ ∀ i < q.historySize, 70 ≤ q.back i ∧ q.back i ≤ 15000 := by
  obtain ⟨hzero, -, hrange, rfl, -, hevents⟩ := inferred_eq_some h
  have hinv := ((inv_run es).withEdge hzero).pushInterval hzero ((inRange_iff _).mp hrange)
  exact ⟨hinv.full_of_events hevents, fun i hi => hinv.back_mem hi⟩

/-- No error comes near the sentinel. -/
theorem inferred_error_lt {es : List UInt64} {edgeUs : UInt64} {q : Pattern ℚ}
    (h : (init.ingestAll es).inferred edgeUs = some q) {n : ℕ} (hn : q.Admissible n) :
    windowError q.back n < fltMax := by
  obtain ⟨⟨-, hhigh⟩, hfull⟩ := hn
  have hlt := windowError_lt hhigh fun i hi => (inferred_full h).2 i (by omega)
  exact hlt.trans (by rw [fltMax_rat]; norm_num)

/-- On a history with two candidates and errors below `FLT_MAX` the loop ends with the
least error, the least candidate with that error, and the least error of the others. In
every call along a run all candidates take part, no error reaches `FLT_MAX`, and the
published confidence is that of the two least errors. -/
theorem candidates_ranked :
    (∀ p : Pattern ℚ, (∃ n m, p.Admissible n ∧ p.Admissible m ∧ n ≠ m) →
      (∀ n, p.Admissible n → windowError p.back n < fltMax) → p.Ranks p.rankCandidates) ∧
    ∀ (es : List UInt64) (edgeUs : UInt64) (q : Pattern ℚ),
      (init.ingestAll es).inferred edgeUs = some q →
      (∀ n, countMin ≤ n → n ≤ countMax → q.Admissible n) ∧ q.Ranks q.rankCandidates ∧
        q.rankCandidates.best < fltMax ∧ q.rankCandidates.second < fltMax ∧
        ((init.ingestAll es : Pattern ℚ).ingestEdge edgeUs).1.estimate.confidence
          = separationConfidence q.rankCandidates := by
  constructor
  · rintro p ⟨n, m, hn, hm, hne⟩ herror
    exact ranks_rankCandidates hn hm hne herror
  · intro es edgeUs q h
    have hval := generated_values
    have hsize := (inferred_full h).1
    have hall : ∀ n, countMin ≤ n → n ≤ countMax → q.Admissible n :=
      fun n hlow hhigh => ⟨⟨hlow, hhigh⟩, by omega⟩
    have hranks : q.Ranks q.rankCandidates :=
      ranks_rankCandidates (hall countMin le_rfl (by decide)) (hall countMax (by decide) le_rfl)
        (by decide) fun n hn => inferred_error_lt h hn
    obtain ⟨n, hn, hbest⟩ := hranks.best.1
    obtain ⟨m, -, hm, hsecond⟩ := hranks.second.1
    refine ⟨hall, hranks, ?_, ?_, confidence_of_inferred h⟩
    · rw [hbest]
      exact inferred_error_lt h hn
    · rw [hsecond]
      exact inferred_error_lt h hm

/-- An edge that locks has called `infer_count`. -/
theorem exists_inferred_of_locks {edgeUs : UInt64} (hunlocked : p.estimate.countLocked = false)
    (hlocked : (p.ingestEdge edgeUs).1.estimate.countLocked = true) :
    ∃ q, p.inferred edgeUs = some q := by
  by_contra hnone
  have hkept : (p.ingestEdge edgeUs).1.estimate.countLocked = p.estimate.countLocked := by
    rcases ingestEdge_of_not_inferred (Option.eq_none_iff_forall_ne_some.mpr
      fun q hq => hnone ⟨q, hq⟩) with heq | heq | heq | heq <;> rw [heq] <;> rfl
  exact Bool.false_ne_true (hunlocked.symm.trans (hkept.symm.trans hlocked))

/-- The edge that locks the wheel of `unequalHalves` ranks all candidates. -/
theorem candidates_ranked_unequal : ∃ q : Pattern ℚ,
    (init.ingestAll unequalEdges).inferred (edgeAt 1 unequalHalves 192) = some q ∧
      q.Admissible countMin ∧ q.Admissible countMax ∧ q.Ranks q.rankCandidates := by
  have hlocked := unequalHalves_locked.1
  rw [← ingestEdge_unequal] at hlocked
  have hunlocked := unequalHalves_unlocked
  rw [← ingestAll_unequal] at hunlocked
  obtain ⟨q, hq⟩ := exists_inferred_of_locks hunlocked hlocked
  have hall := (candidates_ranked.2 unequalEdges _ q hq).1
  have hfirst := hall countMin le_rfl (by decide)
  have hlast := hall countMax (by decide) le_rfl
  refine ⟨q, hq, hfirst, hlast, candidates_ranked.1 q ⟨_, _, hfirst, hlast, by decide⟩ ?_⟩
  exact fun n hn => inferred_error_lt hq hn

end SpokeSensor.Pattern
