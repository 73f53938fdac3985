import SpokeSensor.Core.TimedRun
import SpokeSensor.Lib.Periodic

/-!
# Which wheels the estimator identifies

The first inference is made at the 192nd accepted interval
(`ir_spoke_pattern.c:72–73`), on a full ring. A wheel whose intervals have the least
period `n` repeats with `n` there, and with no other candidate but the multiples of
`n` and the shorter candidates that the statement excludes.

- `lock_of_unique`, `unlocked_of_two`: a single repeating candidate is locked on at
  once, and two of them keep the estimator unlocked.
- `dvd_of_repeats`: a candidate above the least period repeats only if it is a
  multiple (`PeriodicSeq.dvd_of_repeats`).
- `locked_of_period_ge`: from 25 spokes on there is no multiple up to 48, so the scan
  locks on `n`.
- `unlocked_of_period_le`: up to 24 spokes the candidate `2 n` repeats as well. Both
  errors are exactly zero, the factor `1 + 0.001 n` (23) cannot tell them apart, the
  separation is zero, and the wheel is never identified.
- `spokeCount_identified_iff`: the two together; `sixteen_not_identified` is a wheel
  of the second kind.
-/

namespace SpokeSensor.Pattern

open Function

variable {t₀ : UInt64} {x : ℕ → ℕ} {n k : ℕ}

/-- Timestamps that fit 64 bits do not wrap. -/
theorem edgeAt_toNat (hx : Accepted x) (hfit : t₀.toNat + 15000 * n < 2 ^ 64) (hk : k ≤ n) :
    (edgeAt t₀ x k).toNat = t₀.toNat + ∑ i ∈ Finset.range k, x i := by
  have hsum : ∑ i ∈ Finset.range k, x i ≤ k * 15000 := by
    simpa using Finset.sum_le_card_nsmul (Finset.range k) x 15000 fun i _ => (hx i).2
  rw [edgeAt, UInt64.toNat_add, UInt64.toNat_ofNat_of_lt' (show _ < 2 ^ 64 by omega),
    Nat.mod_eq_of_lt (by omega)]

theorem edgeAt_ne_zero (hx : Accepted x) (h0 : t₀ ≠ 0) (hfit : t₀.toNat + 15000 * n < 2 ^ 64) :
    ∀ k, k ≤ n → edgeAt t₀ x k ≠ 0 := by
  intro k hk hzero
  have hnat := edgeAt_toNat hx hfit hk
  rw [hzero] at hnat
  have hpos : t₀.toNat ≠ 0 := fun h => h0 (UInt64.toNat_inj.mp h)
  exact hpos (Nat.eq_zero_of_add_eq_zero_right hnat.symm)

/-- The candidate `m` repeats in the ring iff it repeats in the wheel's intervals. -/
theorem repeats_beforeLearn (hx : Accepted x) (hedge : ∀ k, k ≤ n → edgeAt t₀ x k ≠ 0)
    (hk : k < n) (hfull : 2 * countMax ≤ k + 1) {m : ℕ} (hm : m ≤ countMax) :
    Repeats (beforeLearn t₀ x k).back m ↔ Repeats (fun i => x (k - i)) m := by
  have hval := generated_values
  have hback : ∀ i < 2 * countMax, (beforeLearn t₀ x k).back i = (x (k - i) : ℚ) :=
    fun i hi => back_beforeLearn hx hedge hk (by omega) (by omega)
  unfold Repeats
  refine forall₂_congr fun i hi => ?_
  rw [hback i (by omega), hback (i + m) (by omega)]
  exact Nat.cast_inj

/-- No inference is made before the 192nd interval. -/
theorem unlocked_early (hx : Accepted x) (hedge : ∀ k, k ≤ n → edgeAt t₀ x k ≠ 0) :
    ∀ {k : ℕ}, k ≤ n → k < confidenceEvents → (wheelRun t₀ x k).estimate.countLocked = false
  | 0, _, _ => by
    have h0 : t₀ ≠ 0 := by simpa using hedge 0 (Nat.zero_le n)
    rw [wheelRun_eq h0]
    rfl
  | k + 1, hk, hev => by
    have ih := unlocked_early hx hedge (Nat.le_of_succ_le hk) (by omega)
    have hevents := (inv_beforeLearn hx hedge hk).events
    rw [latest_length] at hevents
    have hwait : (beforeLearn t₀ x k).acceptedEvents.toNat < confidenceEvents := by
      rw [hevents, UInt32.toNat_ofNat_of_lt' (lt_trans hev (by decide))]
      exact hev
    have hunlocked : (beforeLearn t₀ x k).estimate.countLocked = false := ih
    rw [wheelRun_succ hx hedge hk]
    exact (congrArg (fun p => p.estimate.countLocked)
      (learn_waiting hunlocked hwait _)).trans hunlocked

/-- The ring is full from the 104th interval on. -/
theorem full_beforeLearn (hx : Accepted x) (hedge : ∀ k, k ≤ n → edgeAt t₀ x k ≠ 0)
    (hk : k < n) (hfull : historyCapacity ≤ k + 1) :
    2 * countMax ≤ (beforeLearn t₀ x k).historySize := by
  have hval := generated_values
  have hsize := (inv_beforeLearn hx hedge hk).historySize_eq
  rw [latest_length] at hsize
  omega

/-- At an inference, a single repeating candidate is locked on. -/
theorem lock_step (hx : Accepted x) (hedge : ∀ k, k ≤ n → edgeAt t₀ x k ≠ 0) (hk : k < n)
    (hev : confidenceEvents ≤ k + 1) (hlt : k + 1 < 2 ^ 32)
    (hunlocked : (wheelRun t₀ x k).estimate.countLocked = false) {m : ℕ}
    (hm : countMin ≤ m ∧ m ≤ countMax) (hrep : Repeats (fun i => x (k - i)) m)
    (huniq : ∀ j, countMin ≤ j → j ≤ countMax → Repeats (fun i => x (k - i)) j → j = m) :
    (wheelRun t₀ x (k + 1)).estimate.countLocked = true ∧
      (wheelRun t₀ x (k + 1)).estimate.spokeCount = m := by
  have hval := generated_values
  have hinv := inv_beforeLearn hx hedge hk
  have hunlocked' : (beforeLearn t₀ x k).estimate.countLocked = false := hunlocked
  have hevents : confidenceEvents ≤ (beforeLearn t₀ x k).acceptedEvents.toNat := by
    rw [hinv.events, latest_length, UInt32.toNat_ofNat_of_lt' hlt]
    exact hev
  have hrepeats : ∀ j, j ≤ countMax →
      (Repeats (beforeLearn t₀ x k).back j ↔ Repeats (fun i => x (k - i)) j) :=
    fun j hj => repeats_beforeLearn hx hedge hk (by omega) hj
  have hsize := full_beforeLearn hx hedge hk (by omega)
  obtain ⟨hacc, hbest⟩ := accepts_of_unique (g := fun i => x (k - i)) hsize
    (fun i hi => hinv.back_mem (by omega))
    (fun i hi => back_beforeLearn hx hedge hk (by omega) (by omega)) hm
    ((hrepeats m hm.2).mpr hrep)
    (fun j hge hle hj => huniq j hge hle ((hrepeats j hle).mp hj))
  have hlearn := learn_lock hunlocked' hevents hacc (ofRat (x k))
  rw [wheelRun_succ hx hedge hk]
  exact ⟨congrArg (fun p => p.estimate.countLocked) hlearn,
    (congrArg (fun p => p.estimate.spokeCount) hlearn).trans hbest⟩

/-- At the 192nd interval a single repeating candidate is locked on. -/
theorem lock_of_unique (hx : Accepted x) (hedge : ∀ k, k ≤ 192 → edgeAt t₀ x k ≠ 0) {m : ℕ}
    (hm : countMin ≤ m ∧ m ≤ countMax) (hrep : Repeats (fun i => x (191 - i)) m)
    (huniq : ∀ j, countMin ≤ j → j ≤ countMax → Repeats (fun i => x (191 - i)) j → j = m) :
    (wheelRun t₀ x 192).estimate.countLocked = true ∧
      (wheelRun t₀ x 192).estimate.spokeCount = m := by
  have hk : 191 < 192 := by decide
  have hearly := unlocked_early hx hedge hk.le hk
  have h := lock_step (k := 191) hx hedge hk (by decide) (by decide) hearly hm hrep huniq
  rwa [show 191 + 1 = 192 from rfl] at h

/-- Two repeating candidates at every inference keep the estimator unlocked. -/
theorem unlocked_of_two (hx : Accepted x) (hedge : ∀ k, k ≤ n → edgeAt t₀ x k ≠ 0)
    (htwo : ∀ k, confidenceEvents ≤ k + 1 → k < n → ∃ a b, a ≠ b ∧
      (countMin ≤ a ∧ a ≤ countMax) ∧ (countMin ≤ b ∧ b ≤ countMax) ∧
      Repeats (fun i => x (k - i)) a ∧ Repeats (fun i => x (k - i)) b) :
    ∀ {k : ℕ}, k ≤ n → (wheelRun t₀ x k).estimate.countLocked = false
  | 0, hk => unlocked_early hx hedge hk (by decide)
  | k + 1, hk => by
    rcases Nat.lt_or_ge (k + 1) confidenceEvents with hev | hev
    · exact unlocked_early hx hedge hk hev
    have hval := generated_values
    have ih := unlocked_of_two hx hedge htwo (Nat.le_of_succ_le hk)
    -- two errors of zero leave no separation, and the inference rejects
    obtain ⟨a, b, hne, ha, hb, hra, hrb⟩ := htwo k hev hk
    have hfull : historyCapacity ≤ k + 1 := le_trans (by decide) hev
    have hrej : ¬ accepts (beforeLearn t₀ x k).rankCandidates :=
      not_accepts_of_two (full_beforeLearn hx hedge hk hfull) ha hb hne
        ((repeats_beforeLearn hx hedge hk (by omega) ha.2).mpr hra)
        ((repeats_beforeLearn hx hedge hk (by omega) hb.2).mpr hrb)
    have hunlocked : (beforeLearn t₀ x k).estimate.countLocked = false := ih
    rw [wheelRun_succ hx hedge hk, ← Bool.not_eq_true]
    intro hlocked
    exact hrej (learn_of_locks hunlocked hlocked).2.1

/-! ## Periodic wheels

On a periodic wheel the candidates that repeat are the period and its multiples up to
48. The lock needs one that repeats and a runner-up that does not
(`ir_spoke_pattern.c:30–33`), and from 25 on there is no room for a second one.
-/

/-- A periodic wheel repeats with its period, at every event. -/
theorem repeats_of_periodic (hper : Periodic x n) (hk : 2 * n ≤ k + 1) :
    Repeats (fun i => x (k - i)) n := by
  intro i hi
  show x (k - i) = x (k - (i + n))
  rw [← hper (k - (i + n))]
  congr 1
  omega

/-- A candidate above the least period repeats only if it is a multiple. -/
theorem dvd_of_repeats (hper : Periodic x n) (hn : 0 < n)
    (hmin : ∀ p, 0 < p → p < n → ¬ Periodic x p) {m : ℕ} (hnm : n ≤ m) (hm : 2 * m ≤ k + 1)
    (hrep : Repeats (fun i => x (k - i)) m) : n ∣ m := by
  refine PeriodicSeq.dvd_of_repeats (s := k + 1 - 2 * m) hper hn hmin hnm fun i hi => ?_
  have : x (k - (m - 1 - i)) = x (k - (m - 1 - i + m)) := hrep (m - 1 - i) (by omega)
  -- the window read backwards from `k` is the stretch read forwards from `k + 1 - 2 m`
  rw [show k - (m - 1 - i) = k + 1 - 2 * m + (i + m) by omega,
    show k - (m - 1 - i + m) = k + 1 - 2 * m + i by omega] at this
  exact this.symm

/-- Wheels of period at most 24 are never locked on: twice the period repeats too. -/
theorem unlocked_of_period_le (hx : Accepted x) {N : ℕ}
    (hedge : ∀ k, k ≤ N → edgeAt t₀ x k ≠ 0) (hn : 0 < n) (hle : n ≤ 24)
    (hper : Periodic x n) {k : ℕ} (hk : k ≤ N) :
    (wheelRun t₀ x k).estimate.countLocked = false := by
  have hval := generated_values
  -- the least multiple of `n` in the candidate range, and the next one
  obtain ⟨c, hlo, hhi⟩ : ∃ c, countMin ≤ c * n ∧ (c + 1) * n ≤ countMax := by
    rcases Nat.lt_or_ge 16 n with hgt | hle
    · exact ⟨1, by omega, by omega⟩
    · refine ⟨(15 + n) / n, ?_, ?_⟩
      · have := Nat.lt_div_mul_add hn (a := 15 + n)
        omega
      · have := Nat.div_mul_le_self (15 + n) n
        rw [Nat.add_mul, Nat.one_mul]
        omega
  have hnext : c * n + n ≤ countMax := by rwa [Nat.add_mul, Nat.one_mul] at hhi
  refine unlocked_of_two hx hedge (fun k hev hkN => ?_) hk
  refine ⟨c * n, (c + 1) * n, ?_, ⟨hlo, by omega⟩, ⟨?_, hhi⟩, ?_, ?_⟩
  · rw [Nat.add_mul, Nat.one_mul]
    omega
  · rw [Nat.add_mul, Nat.one_mul]
    omega
  · exact repeats_of_periodic (hper.nat_mul c) (by omega)
  · exact repeats_of_periodic (hper.nat_mul (c + 1)) (by omega)

/-- From 25 spokes on, the 192nd interval locks on the least period. -/
theorem locked_of_period_ge (hx : Accepted x)
    (hedge : ∀ k, k ≤ 192 → edgeAt t₀ x k ≠ 0) (hn : 25 ≤ n) (hle : n ≤ countMax)
    (hper : Periodic x n) (hmin : ∀ p, 0 < p → p < n → ¬ Periodic x p)
    (hshort : ∀ m, countMin ≤ m → m < n → ¬ Repeats (fun i => x (191 - i)) m) :
    (wheelRun t₀ x 192).estimate.countLocked = true ∧
      (wheelRun t₀ x 192).estimate.spokeCount = n := by
  have hval := generated_values
  refine lock_of_unique hx hedge ⟨by omega, hle⟩ (repeats_of_periodic hper (by omega)) ?_
  intro j hge hj hrep
  rcases lt_trichotomy j n with hlt | heq | hgt
  · exact absurd hrep (hshort j hge hlt)
  · exact heq
  · -- a multiple of `n` above `n` is beyond the last candidate
    obtain ⟨c, rfl⟩ := dvd_of_repeats hper (by omega) hmin hgt.le (by omega) hrep
    have hc : 2 ≤ c := by
      by_contra hc
      have : c = 0 ∨ c = 1 := by omega
      rcases this with rfl | rfl <;> omega
    have := Nat.mul_le_mul hn hc
    omega

/-- Periodic wheels that no shorter candidate fits are identified at the 192nd
interval exactly from 25 spokes on. From there on no multiple of the period is a
candidate, so a single one repeats (`locked_of_period_ge`); below, twice the period
repeats as well, and two errors of zero leave no separation (`unlocked_of_period_le`). -/
theorem spokeCount_identified_iff (hn : countMin ≤ n ∧ n ≤ countMax) (hx : Accepted x)
    (hedge : ∀ k, k ≤ 192 → edgeAt t₀ x k ≠ 0) (hper : Periodic x n)
    (hmin : ∀ p, 0 < p → p < n → ¬ Periodic x p)
    (hshort : ∀ m, countMin ≤ m → m < n → ¬ Repeats (fun i => x (191 - i)) m) :
    ((wheelRun t₀ x 192).estimate.countLocked = true ∧
      (wheelRun t₀ x 192).estimate.spokeCount = n) ↔ 25 ≤ n := by
  have hval := generated_values
  constructor
  · -- up to 24 spokes the candidate `2 n` ties
    rintro ⟨hlocked, -⟩
    by_contra hlt
    have hnever := unlocked_of_period_le hx hedge (by omega) (by omega) hper le_rfl
    rw [hlocked] at hnever
    cases hnever
  · exact fun hge => locked_of_period_ge hx hedge hge hn.2 hper hmin hshort

/-! ## A wheel with one wide gap

All gaps are the same but one, so the period is the number of spokes and no smaller
one.
-/

/-- The intervals of a wheel with `n` spokes whose first gap takes `w` and whose
other gaps take 1000 microseconds. -/
def oneGap (n w : ℕ) (i : ℕ) : ℕ :=
  if i % n = 0 then w else 1000

theorem oneGap_accepted {w : ℕ} (n : ℕ) (hw : 70 ≤ w ∧ w ≤ 15000) : Accepted (oneGap n w) := by
  intro i
  unfold oneGap
  split
  · exact hw
  · decide

theorem oneGap_periodic (n w : ℕ) : Periodic (oneGap n w) n := by
  intro i
  simp only [oneGap, Nat.add_mod_right]

theorem oneGap_least {w p : ℕ} (hw : w ≠ 1000) (h0 : 0 < p) (hp : p < n) :
    ¬ Periodic (oneGap n w) p := by
  intro hper
  have h := hper 0
  rw [oneGap, oneGap, Nat.zero_add, Nat.mod_eq_of_lt hp, if_neg h0.ne', Nat.zero_mod,
    if_pos rfl] at h
  exact hw h.symm

/-- A run from timestamp one does not wrap. -/
theorem oneGap_edge {w N : ℕ} (hw : 70 ≤ w ∧ w ≤ 15000) (hN : 15000 * N < 2 ^ 63) :
    ∀ k, k ≤ N → edgeAt 1 (oneGap n w) k ≠ 0 :=
  edgeAt_ne_zero (oneGap_accepted n hw) (by decide) (by
    show 1 + 15000 * N < 2 ^ 64
    omega)

/-- Twenty-five spokes with one wide gap are identified. -/
theorem spokeCount_identified_twentyFive :
    ((wheelRun 1 (oneGap 25 2000) 192).estimate.countLocked = true ∧
      (wheelRun 1 (oneGap 25 2000) 192).estimate.spokeCount = 25) ↔ 25 ≤ 25 :=
  spokeCount_identified_iff (by decide) (oneGap_accepted 25 (by decide))
    (oneGap_edge (by decide) (by decide)) (oneGap_periodic 25 2000)
    (fun _ => oneGap_least (by decide)) fun m hge hlt => by
      have hall : ∀ m < 25, countMin ≤ m →
          ¬ Repeats (fun i => oneGap 25 2000 (191 - i)) m := by decide
      exact hall m hlt hge

/-- Sixteen spokes with one wide gap are not, although sixteen is a candidate and no
other one comes before it: 32 repeats as well. -/
theorem sixteen_not_identified :
    (countMin ≤ 16 ∧ 16 ≤ countMax) ∧ Accepted (oneGap 16 2000) ∧
      (∀ k, k ≤ 192 → edgeAt 1 (oneGap 16 2000) k ≠ 0) ∧
      Periodic (oneGap 16 2000) 16 ∧ (∀ p, 0 < p → p < 16 → ¬ Periodic (oneGap 16 2000) p) ∧
      (∀ m, countMin ≤ m → m < 16 → ¬ Repeats (fun i => oneGap 16 2000 (191 - i)) m) ∧
      ¬ ((wheelRun 1 (oneGap 16 2000) 192).estimate.countLocked = true ∧
        (wheelRun 1 (oneGap 16 2000) 192).estimate.spokeCount = 16) := by
  have hx : Accepted (oneGap 16 2000) := oneGap_accepted 16 (by decide)
  have hedge : ∀ k, k ≤ 192 → edgeAt 1 (oneGap 16 2000) k ≠ 0 :=
    oneGap_edge (by decide) (by decide)
  have hper := oneGap_periodic 16 2000
  refine ⟨by decide, hx, hedge, hper, fun _ => oneGap_least (by decide),
    fun m hge hlt => absurd hlt (not_lt.mpr hge), fun hlocked => ?_⟩
  have hnever := unlocked_of_period_le hx hedge (by decide) (by decide) hper le_rfl
  rw [hlocked.1] at hnever
  cases hnever

end SpokeSensor.Pattern
