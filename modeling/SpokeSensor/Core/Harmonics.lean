import SpokeSensor.Core.Identification

/-!
# What a lock says about the other candidates

A wheel of 16 to 24 spokes repeats with twice its count as well. Both windows are
compared on the same history, and a lock needs a gap of 8 percent to the runner-up
(`ir_spoke_pattern.c:30–33`).

- `Inv.lock_event`: the call that locks has made an inference on a full ring, and its
  winner was accepted.
- `lock_beats_candidates`: so whatever the estimator locks on, every other candidate,
  a proper divisor in particular, has the larger error.
- `divisor_below_limit`: the gap is relative, so an error of a divisor that is tiny,
  but not zero, does not stand in the way. The wheel of `unequalHalves` is locked on
  32, although the candidate 16 is off by one microsecond a turn.
-/

namespace SpokeSensor.Pattern

open Function

variable {p : Pattern ℚ} {xs : List ℕ} {e : UInt64}

/-- The call that locks: inference on a full ring accepts its winner. -/
theorem Inv.lock_event (h : Inv p xs) (hunlocked : p.estimate.countLocked = false)
    (hlocked : (p.ingestEdge e).1.estimate.countLocked = true) :
    ∃ q : Pattern ℚ, accepts q.rankCandidates ∧ q.historySize = historyCapacity ∧
      (p.ingestEdge e).1.back = q.back ∧
      (p.ingestEdge e).1.estimate.spokeCount = q.rankCandidates.bestCount := by
  obtain ⟨h0, -, hr, heq⟩ := ingestEdge_of_locks hunlocked hlocked
  rw [heq] at hlocked ⊢
  have hinv := (h.withEdge h0).pushInterval h0 ((inRange_iff _).mp hr)
  have hpushed : ((p.withEdge e).pushInterval
      (ofRat (p.intervalTo e))).estimate.countLocked = false := hunlocked
  obtain ⟨hev, hacc, hlearn⟩ := learn_of_locks hpushed hlocked
  rw [hlearn]
  exact ⟨_, hacc, hinv.full_of_events hev, rfl, rfl⟩

/-- The error that inference computes depends on the ring alone. -/
theorem repetitionError_congr {p q : Pattern ℚ} (h : p.back = q.back) (n : ℕ) :
    p.repetitionError n = q.repetitionError n := by
  rw [repetitionError_eq, repetitionError_eq, h]

/-- The count that an edge locks on has, on the same history, an error that is smaller
by 8 percent than that of every other candidate. No other candidate repeats exactly, a
proper divisor of the count included. Only a full ring is looked at
(`Inv.lock_event`), so all candidates have been compared. -/
theorem lock_beats_candidates (es : List UInt64) (e : UInt64)
    (hunlocked : (init.ingestAll es : Pattern ℚ).estimate.countLocked = false)
    (hlocked : ((init.ingestAll es : Pattern ℚ).ingestEdge e).1.estimate.countLocked = true)
    {m : ℕ} (hm : countMin ≤ m ∧ m ≤ countMax)
    (hne : m ≠ ((init.ingestAll es : Pattern ℚ).ingestEdge e).1.estimate.spokeCount) :
    ((init.ingestAll es : Pattern ℚ).ingestEdge e).1.repetitionError
        ((init.ingestAll es : Pattern ℚ).ingestEdge e).1.estimate.spokeCount
      < 92 / 100 * ((init.ingestAll es : Pattern ℚ).ingestEdge e).1.repetitionError m ∧
    ¬ Repeats ((init.ingestAll es : Pattern ℚ).ingestEdge e).1.back m := by
  have hval := generated_values
  obtain ⟨q, hacc, hsize, hback, hcount⟩ := (inv_run es).lock_event hunlocked hlocked
  rw [hcount] at hne
  have hlt := (best_lt_of_accepts hacc).2 m hm.1 hm.2 (by omega) hne
  rw [hcount, repetitionError_congr hback, repetitionError_congr hback, repetitionError_eq,
    repetitionError_eq, hback]
  refine ⟨hlt, fun hrep => ?_⟩
  rw [windowError_eq_zero_iff.mpr hrep, mul_zero] at hlt
  exact absurd (windowError_nonneg _ _) (not_le.mpr hlt)

/-! ## A wheel whose halves differ by one microsecond

Thirty-two spokes, of which the second half repeats the first one but for one
microsecond. Sixteen is then nearly as good, and the lock is on 32: the separation is
relative to the runner-up, however small its error is.
-/

/-- Thirty-two spokes: two halves with one wide gap each, 2000 and 2001
microseconds. -/
def unequalHalves (i : ℕ) : ℕ :=
  if i % 32 = 0 then 2000 else if i % 32 = 16 then 2001 else 1000

theorem unequalHalves_accepted : Accepted unequalHalves := by
  intro i
  unfold unequalHalves
  split_ifs <;> decide

theorem unequalHalves_edge : ∀ k, k ≤ 192 → edgeAt 1 unequalHalves k ≠ 0 :=
  edgeAt_ne_zero unequalHalves_accepted (by decide) (by decide)

/-- The 192nd interval locks on 32. -/
theorem unequalHalves_locked :
    (wheelRun 1 unequalHalves 192).estimate.countLocked = true ∧
      (wheelRun 1 unequalHalves 192).estimate.spokeCount = 32 := by
  refine locked_of_period_ge unequalHalves_accepted unequalHalves_edge (by decide) (by decide)
    (fun i => ?_) (fun p h0 hp hper => ?_) fun m hge hlt => ?_
  · simp only [unequalHalves, Nat.add_mod_right]
  · have h := hper 0
    have hall : ∀ p < 32, 0 < p → unequalHalves (0 + p) ≠ unequalHalves 0 := by decide
    exact hall p hp h0 h
  · have hall : ∀ m < 32, countMin ≤ m → ¬ Repeats (fun i => unequalHalves (191 - i)) m := by
      decide
    exact hall m hlt hge

theorem unequalHalves_unlocked : (wheelRun 1 unequalHalves 191).estimate.countLocked = false :=
  unlocked_early unequalHalves_accepted unequalHalves_edge (by decide) (by decide)

/-- The 192 edges before the locking one. -/
def unequalEdges : List UInt64 := (List.range (191 + 1)).map (edgeAt 1 unequalHalves)

theorem ingestAll_unequal : init.ingestAll unequalEdges = wheelRun 1 unequalHalves 191 := rfl

theorem ingestEdge_unequal :
    ((init.ingestAll unequalEdges : Pattern ℚ).ingestEdge (edgeAt 1 unequalHalves 192)).1
      = wheelRun 1 unequalHalves 192 := by
  rw [ingestAll_unequal]
  exact (wheelRun_ingest 1 unequalHalves 191).symm

/-- The lock on 32 beats the divisor 16. -/
theorem lock_beats_sixteen :
    (wheelRun 1 unequalHalves 192).repetitionError 32
      < 92 / 100 * (wheelRun 1 unequalHalves 192).repetitionError 16 := by
  obtain ⟨hl, hcount⟩ := unequalHalves_locked
  rw [← ingestEdge_unequal] at hl hcount ⊢
  have h := (lock_beats_candidates unequalEdges _
    (by rw [ingestAll_unequal]; exact unequalHalves_unlocked) hl (m := 16) (by decide)
    (by rw [hcount]; decide)).1
  rwa [hcount] at h

/-- The error of the divisor 16 is one microsecond over a turn, far below the
acceptance limit, and the lock on 32 goes ahead. -/
theorem divisor_below_limit :
    (init.ingestAll unequalEdges : Pattern ℚ).estimate.countLocked = false ∧
    ((init.ingestAll unequalEdges : Pattern ℚ).ingestEdge
      (edgeAt 1 unequalHalves 192)).1.estimate.countLocked = true ∧
    ((init.ingestAll unequalEdges : Pattern ℚ).ingestEdge
      (edgeAt 1 unequalHalves 192)).1.estimate.spokeCount = 32 ∧ 16 ∣ 32 ∧
    ((init.ingestAll unequalEdges : Pattern ℚ).ingestEdge
      (edgeAt 1 unequalHalves 192)).1.repetitionError 16 < 35 / 1000 := by
  refine ⟨?_, ?_, ?_, by decide, ?_⟩
  · rw [ingestAll_unequal]
    exact unequalHalves_unlocked
  · rw [ingestEdge_unequal]
    exact unequalHalves_locked.1
  · rw [ingestEdge_unequal]
    exact unequalHalves_locked.2
  · rw [ingestEdge_unequal, repetitionError_eq,
      windowError_congr (g := fun i => (unequalHalves (191 - i) : ℚ)) fun i hi => ?_]
    · norm_num [windowError, Finset.sum_range_succ, unequalHalves]
    · exact (inv_wheelRun unequalHalves_accepted unequalHalves_edge le_rfl).back_latest
        (by omega) (lt_trans hi (by decide))

end SpokeSensor.Pattern
