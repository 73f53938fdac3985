import SpokeSensor.Lib.Ieee
import SpokeSensor.Core.Generated

/-!
# The `float` of the target

`Binary32` instantiates `CFloat` with the format that the target uses for `float`:
every operation of the estimator rounds.

- `finite_le_ofRat_iff`, `ofRat_le_finite_iff`: comparing a converted decimal with a
  `float` is comparing the decimal with the midpoint next to it. The literals of
  `ir_spoke_config.c` are compared in this way.
- `ofRat_lt_natCast`, `natCast_lt_ofRat`: whole numbers below `2^24` are not rounded,
  so the comparisons of a converted counter with a small constant are exact
  (`ir_spoke_pattern.c:66`).
- `natCast_le_mul`: a product of two converted counters is rounded, and yet it stays
  on its side of a whole number below `2^24` (`ir_spoke_config.c:39`).
-/

namespace SpokeSensor

open Ieee Rounding

/-- C's `float`. -/
abbrev Binary32 : Type := Number binary32

instance : CFloat Binary32 where
  ofRat := Number.ofRat binary32
  fabsf := Number.abs
  fmaxf := Number.max
  fminf := Number.min
  fltMax := Number.largest binary32
  isfinite := Number.isFinite

namespace Binary32

/-- The conversion to `uint32_t`, which drops the fraction; C defines it only where
the result fits. -/
def toUInt32 : Binary32 → Option UInt32
  | .finite x => if -1 < x ∧ x < 2 ^ 32 then some ⌊x⌋.toNat.toUInt32 else none
  | _ => none

theorem ofRat_def (x : ℚ) : (ofRat x : Binary32) = Number.ofRat binary32 x := rfl

theorem lt_bound {x : ℚ} (h : x ≤ 2 ^ 32) : x < binary32.bound :=
  Format.lt_bound h (by decide)

/-- The `float` next to a rational between two powers of two, by its scaled integer. -/
theorem ofRat_eq_of_near {x : ℚ} {l k e : ℤ} (he : max (l - 23) (-149) = e)
    (hlo : (2 : ℚ) ^ l ≤ x) (hhi : x < 2 ^ (l + 1)) (hbelow : (k - 1 / 2 : ℚ) < x / 2 ^ e)
    (habove : x / 2 ^ e < (k + 1 / 2 : ℚ)) (hbound : |(k : ℚ) * 2 ^ e| ≤ 2 ^ 32) :
    (ofRat x : Binary32) = .finite (k * 2 ^ e) := by
  have hpos : 0 < x := (zpow_pos two_pos l).trans_le hlo
  have hlog : Int.log 2 |x| = l := by
    rw [abs_of_pos hpos]
    refine le_antisymm (Int.lt_add_one_iff.mp ?_) ?_
    · exact (Int.lt_zpow_iff_log_lt Nat.one_lt_two hpos).mp (by exact_mod_cast hhi)
    · exact (Int.zpow_le_iff_le_log Nat.one_lt_two hpos).mp (by exact_mod_cast hlo)
  have hspacing : binary32.grid.spacing x = 2 ^ e := by
    rw [Grid.spacing, Format.base_eq, hlog, Format.exponent_eq]
    norm_num [binary32, he]
  have hnear : nearestEven (x / 2 ^ e) = k :=
    le_antisymm (nearestEven_le_iff.mpr (.inl habove)) (le_nearestEven_iff.mpr (.inl hbelow))
  have hround : binary32.grid.round x = k * 2 ^ e := by rw [Grid.round, hspacing, hnear]
  rw [ofRat_def, Number.ofRat, hround, if_pos (lt_bound hbound)]

section

variable {x : ℚ} {l k e : ℤ} (he : max (l - 23) (-149) = e) (hle : e ≤ l)
  (hbound : |(k : ℚ) * 2 ^ e| ≤ 2 ^ 32)

include he hle hbound

/-- A conversion reaches a `float` iff its argument is past the midpoint below it. -/
theorem finite_le_ofRat_iff (hlo : (2 : ℚ) ^ l < k * 2 ^ e) (hhi : (k : ℚ) * 2 ^ e ≤ 2 ^ (l + 1)) :
    (.finite (k * 2 ^ e) : Binary32) ≤ ofRat x ↔
      (k - 1 / 2 : ℚ) < x / 2 ^ e ∨ (x / 2 ^ e = k - 1 / 2 ∧ k % 2 = 0) := by
  subst he
  rw [ofRat_def, Number.finite_le_ofRat (lt_bound hbound), ← le_nearestEven_iff]
  exact_mod_cast Grid.le_round_iff (g := binary32.grid) (l := l) hle (x := x)
    (by exact_mod_cast hlo) (by exact_mod_cast hhi)

/-- A conversion stays at or below a `float` iff its argument is not past the midpoint
above it. -/
theorem ofRat_le_finite_iff (hlo : (2 : ℚ) ^ l ≤ k * 2 ^ e) (hhi : (k : ℚ) * 2 ^ e < 2 ^ (l + 1)) :
    (ofRat x : Binary32) ≤ .finite (k * 2 ^ e) ↔
      x / 2 ^ e < (k + 1 / 2 : ℚ) ∨ (x / 2 ^ e = k + 1 / 2 ∧ k % 2 = 0) := by
  subst he
  rw [ofRat_def, Number.ofRat_le_finite (lt_bound hbound), ← nearestEven_le_iff]
  exact_mod_cast Grid.round_le_iff (g := binary32.grid) (l := l) hle (x := x)
    (by exact_mod_cast hlo) (by exact_mod_cast hhi)

end

/-- Whole numbers from `2^24` on are rounded, but not below it. -/
theorem le_round_natCast {n : ℕ} (h : 2 ^ 24 ≤ n) : (2 : ℚ) ^ 24 ≤ binary32.grid.round (n : ℚ) :=
  Format.zpow_le_round (l := 24) (by decide) (by exact_mod_cast h)

theorem ofRat_natCast {n : ℕ} (h : n < 2 ^ 24) : (ofRat (n : ℚ) : Binary32) = .finite n := by
  refine Number.ofRat_eq (Format.round_natCast h (by decide)) (lt_bound ?_)
  rw [Nat.abs_cast]
  exact_mod_cast h.le.trans (by norm_num)

variable {m n : ℕ}

theorem ofRat_lt_natCast (hm : m < 2 ^ 24) :
    (ofRat (n : ℚ) : Binary32) < ofRat (m : ℚ) ↔ n < m := by
  rcases lt_or_ge n (2 ^ 24) with hn | hn
  · rw [ofRat_natCast hm, ofRat_natCast hn, Number.finite_lt_finite, Nat.cast_lt]
  have hround := le_round_natCast hn
  have hlt : (m : ℚ) < 2 ^ 24 := by exact_mod_cast hm
  rw [ofRat_natCast hm, ofRat_def,
    Number.ofRat_lt_finite (lt_bound (by rw [Nat.abs_cast]; linarith))]
  exact iff_of_false (by linarith) (by omega)

theorem natCast_lt_ofRat (hm : m < 2 ^ 24) :
    (ofRat (m : ℚ) : Binary32) < ofRat (n : ℚ) ↔ m < n := by
  rcases lt_or_ge n (2 ^ 24) with hn | hn
  · rw [ofRat_natCast hm, ofRat_natCast hn, Number.finite_lt_finite, Nat.cast_lt]
  have hround := le_round_natCast hn
  have hlt : (m : ℚ) < 2 ^ 24 := by exact_mod_cast hm
  rw [ofRat_natCast hm, ofRat_def,
    Number.finite_lt_ofRat (lt_bound (by rw [Nat.abs_cast]; linarith))]
  exact iff_of_true (by linarith) (by omega)

theorem natCast_le_ofRat (hm : m < 2 ^ 24) :
    (ofRat (m : ℚ) : Binary32) ≤ ofRat (n : ℚ) ↔ m ≤ n := by
  rcases lt_or_ge n (2 ^ 24) with hn | hn
  · rw [ofRat_natCast hm, ofRat_natCast hn, Number.finite_le_finite, Nat.cast_le]
  have hround := le_round_natCast hn
  have hlt : (m : ℚ) < 2 ^ 24 := by exact_mod_cast hm
  rw [ofRat_natCast hm, ofRat_def,
    Number.finite_le_ofRat (lt_bound (by rw [Nat.abs_cast]; linarith))]
  exact iff_of_true (by linarith) (by omega)

/-- A converted `uint32_t` is finite, and exact or at least `2^24`. -/
theorem ofRat_natCast_cases (hn : n < 2 ^ 32) :
    (ofRat (n : ℚ) : Binary32) = .finite n ∨
      ∃ r : ℚ, (ofRat (n : ℚ) : Binary32) = .finite r ∧ 2 ^ 24 ≤ r ∧ 2 ^ 24 ≤ n := by
  rcases lt_or_ge n (2 ^ 24) with hsmall | hlarge
  · exact .inl (ofRat_natCast hsmall)
  refine .inr ⟨binary32.grid.round n, ?_, le_round_natCast hlarge, hlarge⟩
  have hle : binary32.grid.round (n : ℚ) ≤ 2 ^ 32 := by
    have h := Grid.round_le_zpow (g := binary32.grid) (l := 32) (x := (n : ℚ)) (by decide)
      (by rw [Format.base_eq]; exact_mod_cast hn)
    rw [Format.base_eq] at h
    exact_mod_cast h
  rw [ofRat_def, Number.ofRat, if_pos (lt_bound ?_)]
  rwa [abs_of_nonneg (Grid.round_nonneg n.cast_nonneg)]

/-- A whole number below `2^24` is compared exactly with the product of two converted
counters, though the product is rounded. -/
theorem natCast_le_mul {k : ℕ} (hk : k < 2 ^ 24) (hm : m < 2 ^ 32) (hpos : 0 < n)
    (hn : n < 2 ^ 24) :
    (ofRat (k : ℚ) : Binary32) ≤ ofRat (m : ℚ) * ofRat (n : ℚ) ↔ k ≤ m * n := by
  rcases ofRat_natCast_cases hm with hexact | ⟨r, hrounded, hr, hlarge⟩
  · rw [hexact, ofRat_natCast hn, Number.finite_mul_finite, ← Nat.cast_mul, ← ofRat_def]
    exact natCast_le_ofRat hk
  -- a rounded factor puts both products past `2^24`
  have hfactor : (1 : ℚ) ≤ n := by exact_mod_cast hpos
  have hproduct : (2 : ℚ) ^ (24 : ℤ) ≤ r * n :=
    hr.trans (le_mul_of_one_le_right (by linarith) hfactor)
  have hround := Format.zpow_le_round (f := binary32) (l := 24) (by decide) hproduct
  have hlt : (k : ℚ) < 2 ^ 24 := by exact_mod_cast hk
  rw [hrounded, ofRat_natCast hn, Number.finite_mul_finite, ofRat_natCast hk,
    Number.finite_le_ofRat (lt_bound (by rw [Nat.abs_cast]; linarith))]
  exact iff_of_true (hlt.le.trans hround)
    ((hk.le.trans hlarge).trans (Nat.le_mul_of_pos_right m hpos))

end Binary32

end SpokeSensor
