import Mathlib.Algebra.Ring.Periodic
import Mathlib.Data.Nat.Periodic
import Mathlib.Data.List.PeriodicityLemma

/-!
# A repetition inside a periodic sequence

A sequence `x : ℕ → α` with period `n`, and a stretch of length `2 m`, `n ≤ m`, that
repeats with `m`.

- `periodic_gcd`: the sequence has the period `gcd n m` everywhere. The stretch is
  long enough for the periodicity lemma of Fine and Wilf, and it covers a whole
  period.
- `dvd_of_repeats`: if `n` is the least period, `m` is therefore a multiple of `n`.
-/

namespace PeriodicSeq

open Function

universe u

variable {α : Type u} {x : ℕ → α} {n m s : ℕ}

/-- The stretch of `x` of length `k` from `s`. -/
def stretch (x : ℕ → α) (s k : ℕ) : List α :=
  (List.range k).map fun i => x (s + i)

theorem stretch_length (x : ℕ → α) (s k : ℕ) : (stretch x s k).length = k := by
  simp [stretch]

theorem stretch_getElem? (x : ℕ → α) (s : ℕ) {k i : ℕ} (hi : i < k) :
    (stretch x s k)[i]? = some (x (s + i)) := by
  simp [stretch, hi]

/-- A stretch has period `p` iff entries `p` apart agree. -/
theorem stretch_hasPeriod_iff {k p : ℕ} :
    (stretch x s k).HasPeriod p ↔ ∀ i, i + p < k → x (s + i) = x (s + (i + p)) := by
  rw [List.hasPeriod_iff_getElem?, stretch_length]
  constructor
  · intro h i hi
    have := h i (by omega)
    rwa [stretch_getElem? x s (by omega), stretch_getElem? x s hi,
      Option.some.injEq] at this
  · intro h i hi
    rw [stretch_getElem? x s (by omega), stretch_getElem? x s (by omega), h i (by omega)]

/-- A periodic sequence returns to each of its values inside any full period. -/
theorem eq_in_window (hx : Periodic x n) (hn : 0 < n) (s i j : ℕ) :
    x (s + (i + s * (n - 1)) % n + j) = x (i + j) := by
  have hshift : Periodic (fun t => x (s + t + j)) n := by
    intro t
    show x (s + (t + n) + j) = x (s + t + j)
    rw [show s + (t + n) + j = s + t + j + n by omega]
    exact hx _
  have hmod : x (s + (i + s * (n - 1)) % n + j) = x (s + (i + s * (n - 1)) + j) :=
    hshift.map_mod_nat (i + s * (n - 1))
  have hback : s + (i + s * (n - 1)) + j = i + j + s * n := by
    obtain ⟨n, rfl⟩ := Nat.exists_eq_succ_of_ne_zero hn.ne'
    rw [Nat.succ_sub_one, Nat.mul_succ]
    omega
  rw [hmod, hback]
  exact hx.nat_mul s (i + j)

/-- The gcd of the period and of a long enough repetition is a period. -/
theorem periodic_gcd (hx : Periodic x n) (hn : 0 < n) (hnm : n ≤ m)
    (hrep : ∀ i < m, x (s + i) = x (s + (i + m))) : Periodic x (n.gcd m) := by
  have hn' : (stretch x s (2 * m)).HasPeriod n := by
    refine stretch_hasPeriod_iff.mpr fun i _ => ?_
    rw [← Nat.add_assoc]
    exact (hx _).symm
  have hm' : (stretch x s (2 * m)).HasPeriod m :=
    stretch_hasPeriod_iff.mpr fun i hi => hrep i (by omega)
  -- Fine and Wilf: a word with two periods that is long enough has their gcd
  have hgcd := hn'.gcd hm' (by rw [stretch_length]; omega)
  have hle : n.gcd m ≤ n := Nat.gcd_le_left m hn
  intro i
  have hr : (i + s * (n - 1)) % n < n := Nat.mod_lt _ hn
  have hwin := stretch_hasPeriod_iff.mp hgcd ((i + s * (n - 1)) % n) (by
    -- the first full period and one gcd more fit into the stretch
    rcases Nat.eq_or_lt_of_le hnm with rfl | hlt
    · rw [Nat.gcd_self]; omega
    · omega)
  calc x (i + n.gcd m)
      = x (s + (i + s * (n - 1)) % n + n.gcd m) := (eq_in_window hx hn s i _).symm
    _ = x (s + ((i + s * (n - 1)) % n + n.gcd m)) := by rw [Nat.add_assoc]
    _ = x (s + (i + s * (n - 1)) % n) := hwin.symm
    _ = x i := eq_in_window hx hn s i 0

/-- With `n` the least period, only its multiples repeat. -/
theorem dvd_of_repeats (hx : Periodic x n) (hn : 0 < n)
    (hmin : ∀ p, 0 < p → p < n → ¬ Periodic x p) (hnm : n ≤ m)
    (hrep : ∀ i < m, x (s + i) = x (s + (i + m))) : n ∣ m := by
  have hgcd := periodic_gcd hx hn hnm hrep
  have hpos : 0 < n.gcd m := Nat.gcd_pos_of_pos_left m hn
  have hle : n.gcd m ≤ n := Nat.gcd_le_left m hn
  rcases Nat.eq_or_lt_of_le hle with heq | hlt
  · rw [← heq]
    exact Nat.gcd_dvd_right n m
  · exact absurd hgcd (hmin _ hpos hlt)

end PeriodicSeq
