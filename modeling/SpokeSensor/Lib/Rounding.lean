import Mathlib.Algebra.Order.Field.Basic
import Mathlib.Data.Int.Log
import Mathlib.Data.Rat.Floor
import Mathlib.Tactic.Linarith
import Mathlib.Tactic.Ring
import Mathlib.Tactic.FieldSimp

/-!
# Rounding to nearest, ties to even

- `nearestEven`: the nearest integer, a tie going to the even one;
- `Grid`: a floating-point grid, given by the exponent of the spacing at every
  magnitude (`Grid.digits`: a fixed number of digits, `Grid.binary`: a binary format
  with gradual underflow);
- `Grid.round`: the nearest point of the grid.

A comparison of a rounded value with a point of the grid is a comparison of one
scaled integer (`Grid.le_round_iff`, `Grid.round_le_iff`): whatever the magnitude of
the argument, only the spacing at the point it is compared with matters.
-/

namespace Rounding

variable {K : Type*} [Field K] [LinearOrder K] [IsStrictOrderedRing K] [FloorRing K]

/-! ## Nearest integers

Rounding to the nearest integer with ties to even: monotone, odd, exact on integers,
and at most a half away. Grids are rounded by scaling to it.
-/

/-- The nearest integer, a tie going to the even one. -/
def nearestEven (x : K) : ℤ :=
  if x - ⌊x⌋ < ⌊x⌋ + 1 - x then ⌊x⌋
  else if ⌊x⌋ + 1 - x < x - ⌊x⌋ then ⌊x⌋ + 1
  else if ⌊x⌋ % 2 = 0 then ⌊x⌋ else ⌊x⌋ + 1

/-- What reaches `k` lies above the midpoint below `k`, or on it when `k` is even. -/
theorem le_nearestEven_iff {k : ℤ} {x : K} :
    k ≤ nearestEven x ↔ (k : K) - 1 / 2 < x ∨ (x = k - 1 / 2 ∧ k % 2 = 0) := by
  have hlo : (⌊x⌋ : K) ≤ x := Int.floor_le x
  have hhi : x < ⌊x⌋ + 1 := Int.lt_floor_add_one x
  -- the floor and its successor are the only candidates, so only `k` next to them is close
  rcases lt_trichotomy k (⌊x⌋ + 1) with hk | hk | hk
  · have hle : (k : K) ≤ ⌊x⌋ := by exact_mod_cast Int.lt_add_one_iff.mp hk
    have hfloor : ⌊x⌋ ≤ nearestEven x := by
      rw [nearestEven]
      split_ifs <;> omega
    exact iff_of_true (by omega) (.inl (by linarith))
  · have hcast : (k : K) = ⌊x⌋ + 1 := by exact_mod_cast congrArg (Int.cast (R := K)) hk
    rw [nearestEven, hcast]
    split_ifs with h1 h2 h3
    · exact iff_of_false (by omega) (by rintro (h | ⟨h, -⟩) <;> linarith)
    · exact iff_of_true (by omega) (.inl (by linarith))
    · refine iff_of_false (by omega) ?_
      rintro (h | ⟨-, h⟩)
      · linarith
      · omega
    · exact iff_of_true (by omega) (.inr ⟨by linarith, by omega⟩)
  · have hle : (⌊x⌋ : K) + 2 ≤ k := by exact_mod_cast (by omega : ⌊x⌋ + 2 ≤ k)
    have hfloor : nearestEven x ≤ ⌊x⌋ + 1 := by
      rw [nearestEven]
      split_ifs <;> omega
    exact iff_of_false (by omega) (by rintro (h | ⟨h, -⟩) <;> linarith)

/-- What stays at or below `k` lies below the midpoint above `k`, or on it when `k` is even. -/
theorem nearestEven_le_iff {k : ℤ} {x : K} :
    nearestEven x ≤ k ↔ x < (k : K) + 1 / 2 ∨ (x = k + 1 / 2 ∧ k % 2 = 0) := by
  have hpush : ((k + 1 : ℤ) : K) - 1 / 2 = k + 1 / 2 := by
    push_cast
    ring
  rw [← not_lt, ← Int.add_one_le_iff, le_nearestEven_iff, hpush]
  constructor
  · intro h
    rcases lt_trichotomy x ((k : K) + 1 / 2) with hx | hx | hx
    · exact .inl hx
    · exact .inr ⟨hx, by by_contra hodd; exact h (.inr ⟨hx, by omega⟩)⟩
    · exact absurd (.inl hx) h
  · rintro (h | ⟨h, heven⟩) (h' | ⟨h', hodd⟩)
    · exact absurd h' h.not_gt
    · exact absurd h' h.ne
    · exact absurd h h'.ne'
    · omega

@[simp] theorem nearestEven_intCast (n : ℤ) : nearestEven (n : K) = n := by
  rw [nearestEven, Int.floor_intCast, sub_self, if_pos (by norm_num)]

@[simp] theorem nearestEven_zero : nearestEven (0 : K) = 0 := by
  simpa using nearestEven_intCast (K := K) 0

theorem le_nearestEven {k : ℤ} {x : K} (h : (k : K) ≤ x) : k ≤ nearestEven x :=
  le_nearestEven_iff.mpr (.inl (by linarith))

theorem nearestEven_le {k : ℤ} {x : K} (h : x ≤ k) : nearestEven x ≤ k :=
  nearestEven_le_iff.mpr (.inl (by linarith))

/-- The nearest integer is no further away than one half. -/
theorem abs_nearestEven_sub_le (x : K) : |(nearestEven x : K) - x| ≤ 1 / 2 := by
  have hlow := le_nearestEven_iff.mp (le_refl (nearestEven x))
  have hhigh := nearestEven_le_iff.mp (le_refl (nearestEven x))
  rw [abs_le]
  constructor
  · rcases hhigh with h | ⟨h, -⟩ <;> linarith
  · rcases hlow with h | ⟨h, -⟩ <;> linarith

@[simp] theorem nearestEven_neg (x : K) : nearestEven (-x) = -nearestEven x := by
  refine le_antisymm ?_ ?_
  · rw [nearestEven_le_iff]
    rcases le_nearestEven_iff.mp (le_refl (nearestEven x)) with h | ⟨h, heven⟩ <;> push_cast
    · exact .inl (by linarith)
    · exact .inr ⟨by linarith, by omega⟩
  · rw [le_nearestEven_iff]
    rcases nearestEven_le_iff.mp (le_refl (nearestEven x)) with h | ⟨h, heven⟩ <;> push_cast
    · exact .inl (by linarith)
    · exact .inr ⟨by linarith, by omega⟩

/-- No integer is nearer. -/
theorem abs_nearestEven_sub_le_abs (x : K) (n : ℤ) : |(nearestEven x : K) - x| ≤ |(n : K) - x| := by
  by_contra hlt
  have hhalf := abs_nearestEven_sub_le x
  obtain ⟨hlow, hhigh⟩ := abs_lt.mp (not_le.mp hlt)
  obtain ⟨hlow', hhigh'⟩ := abs_le.mp hhalf
  -- both are within one half of `x`, so they are one
  have habove : n < nearestEven x + 1 := by
    have hcast : (n : K) < nearestEven x + 1 := by
      rcases abs_cases ((nearestEven x : K) - x) with ⟨h, -⟩ | ⟨h, -⟩ <;> linarith
    exact_mod_cast hcast
  have hbelow : nearestEven x < n + 1 := by
    have hcast : (nearestEven x : K) < n + 1 := by
      rcases abs_cases ((nearestEven x : K) - x) with ⟨h, -⟩ | ⟨h, -⟩ <;> linarith
    exact_mod_cast hcast
  have heq : n = nearestEven x := by omega
  rw [heq] at hlt
  exact hlt le_rfl

/-- The values that round to an integer. -/
theorem nearestEven_eq_iff {k : ℤ} {x : K} :
    nearestEven x = k ↔ |x - k| < 1 / 2 ∨ (|x - k| = 1 / 2 ∧ k % 2 = 0) := by
  rw [le_antisymm_iff, nearestEven_le_iff, le_nearestEven_iff]
  constructor
  · rintro ⟨hhigh | ⟨hhigh, heven⟩, hlow | ⟨hlow, heven'⟩⟩
    · exact .inl (abs_lt.mpr ⟨by linarith, by linarith⟩)
    · exact .inr ⟨by rw [hlow, abs_of_neg] <;> linarith, heven'⟩
    · exact .inr ⟨by rw [hhigh, abs_of_pos] <;> linarith, heven⟩
    · linarith
  · rintro (h | ⟨h, heven⟩)
    · obtain ⟨hlow, hhigh⟩ := abs_lt.mp h
      exact ⟨.inl (by linarith), .inl (by linarith)⟩
    · rcases abs_cases (x - k) with ⟨habs, -⟩ | ⟨habs, -⟩ <;> rw [habs] at h
      · exact ⟨.inr ⟨by linarith, heven⟩, .inl (by linarith)⟩
      · exact ⟨.inl (by linarith), .inr ⟨by linarith, heven⟩⟩

/-- A value that is rounded after a small error: the result is still next to the value
before the error, unless the error has carried it past a midpoint. -/
theorem abs_nearestEven_sub_le_half_iff {x y : K} (hclose : |y - x| < 1 / 2) :
    |(nearestEven y : K) - x| ≤ 1 / 2 ↔
      |y - nearestEven x| < 1 / 2 ∨ (|y - nearestEven x| = 1 / 2 ∧ nearestEven x % 2 = 0) ∨
        |x - nearestEven x| = 1 / 2 := by
  have hx := abs_nearestEven_sub_le x
  rw [abs_sub_comm] at hx
  constructor
  · intro hy
    rcases hx.lt_or_eq with hlt | htie
    · -- two integers that are both within one half of `x`, one of them strictly
      have heq : nearestEven y = nearestEven x := by
        obtain ⟨hlow, hhigh⟩ := abs_le.mp hy
        obtain ⟨hlow', hhigh'⟩ := abs_lt.mp hlt
        have habove : (nearestEven y : K) < nearestEven x + 1 := by linarith
        have hbelow : (nearestEven x : K) < nearestEven y + 1 := by linarith
        have habove' : nearestEven y < nearestEven x + 1 := by exact_mod_cast habove
        have hbelow' : nearestEven x < nearestEven y + 1 := by exact_mod_cast hbelow
        omega
      rcases nearestEven_eq_iff.mp heq with h | h
      · exact .inl h
      · exact .inr (.inl h)
    · exact .inr (.inr htie)
  · rintro (h | h | htie)
    · rw [nearestEven_eq_iff.mpr (.inl h), abs_sub_comm]
      exact hx
    · rw [nearestEven_eq_iff.mpr (.inr h), abs_sub_comm]
      exact hx
    · -- the neighbours of a midpoint are one apart, and the next integers are too far away
      obtain ⟨hlow, hhigh⟩ := abs_lt.mp hclose
      obtain ⟨hlow', hhigh'⟩ := abs_le.mp (abs_nearestEven_sub_le y)
      rcases abs_cases (x - nearestEven x) with ⟨habs, -⟩ | ⟨habs, -⟩ <;> rw [habs] at htie
      · have habove : (nearestEven y : K) < nearestEven x + 2 := by linarith
        have hbelow : (nearestEven x : K) < nearestEven y + 1 := by linarith
        have habove' : nearestEven y ≤ nearestEven x + 1 := by
          have hcast : nearestEven y < nearestEven x + 2 := by exact_mod_cast habove
          omega
        have hbelow' : nearestEven x ≤ nearestEven y := by
          have hcast : nearestEven x < nearestEven y + 1 := by exact_mod_cast hbelow
          omega
        have hup : (nearestEven y : K) ≤ nearestEven x + 1 := by exact_mod_cast habove'
        have hdown : (nearestEven x : K) ≤ nearestEven y := by exact_mod_cast hbelow'
        exact abs_le.mpr ⟨by linarith, by linarith⟩
      · have habove : (nearestEven y : K) < nearestEven x + 1 := by linarith
        have hbelow : (nearestEven x : K) < nearestEven y + 2 := by linarith
        have habove' : nearestEven y ≤ nearestEven x := by
          have hcast : nearestEven y < nearestEven x + 1 := by exact_mod_cast habove
          omega
        have hbelow' : nearestEven x ≤ nearestEven y + 1 := by
          have hcast : nearestEven x < nearestEven y + 2 := by exact_mod_cast hbelow
          omega
        have hup : (nearestEven y : K) ≤ nearestEven x := by exact_mod_cast habove'
        have hdown : (nearestEven x : K) ≤ nearestEven y + 1 := by exact_mod_cast hbelow'
        exact abs_le.mpr ⟨by linarith, by linarith⟩

/-! ## Grids

The spacing of a floating-point grid depends on the magnitude, so rounding is the
nearest integer of the scaled value. That it is monotone across a change of the
spacing is the one fact that needs the bound on the growth of `exponent`.
-/

/-- A floating-point grid: `exponent e` is the exponent of the spacing between
`base ^ e` and `base ^ (e + 1)`. It grows with the magnitude, by at most one a step. -/
structure Grid where
  base : ℕ
  one_lt : 1 < base
  exponent : ℤ → ℤ
  mono : ∀ ⦃d e : ℤ⦄, d ≤ e → exponent d ≤ exponent e
  slow : ∀ e, exponent (e + 1) ≤ exponent e + 1

namespace Grid

/-- `p` significant digits, at every magnitude. -/
def digits (b : ℕ) (hb : 1 < b) (p : ℕ) : Grid where
  base := b
  one_lt := hb
  exponent e := e - (p - 1)
  mono := fun _ _ h => by omega
  slow := fun _ => by omega

/-- `p` significant bits, fewer below the smallest spacing `2 ^ least`. -/
def binary (p : ℕ) (least : ℤ) : Grid where
  base := 2
  one_lt := Nat.one_lt_two
  exponent e := max (e - (p - 1)) least
  mono := fun _ _ h => by omega
  slow := fun _ => by omega

variable (g : Grid)

/-- The spacing of the grid around `x`. -/
def spacing (x : K) : K := (g.base : K) ^ g.exponent (Int.log g.base |x|)

/-- The nearest point of the grid. -/
def round (x : K) : K := nearestEven (x / g.spacing x) * g.spacing x

variable {g}

theorem base_pos : (0 : K) < g.base := by exact_mod_cast g.one_lt.trans' Nat.zero_lt_one

theorem one_lt_base : (1 : K) < g.base := by exact_mod_cast g.one_lt

/-- No grid is without spacing. -/
theorem spacing_pos (x : K) : 0 < g.spacing x := zpow_pos base_pos _

@[simp] theorem round_zero : g.round (0 : K) = 0 := by
  rw [round, zero_div, nearestEven_zero, Int.cast_zero, zero_mul]

/-- Rounding moves a value by half the spacing around it at most. -/
theorem abs_round_sub_le (x : K) : |g.round x - x| ≤ g.spacing x / 2 := by
  have hpos := spacing_pos (g := g) x
  have hsplit : g.round x - x
      = (nearestEven (x / g.spacing x) - x / g.spacing x) * g.spacing x := by
    rw [round, sub_mul, div_mul_cancel₀ _ hpos.ne']
  rw [hsplit, abs_mul, abs_of_pos hpos]
  calc |(nearestEven (x / g.spacing x) : K) - x / g.spacing x| * g.spacing x
      ≤ 1 / 2 * g.spacing x := mul_le_mul_of_nonneg_right (abs_nearestEven_sub_le _) hpos.le
    _ = g.spacing x / 2 := by ring

/-- A multiple of a coarser spacing is one of a finer spacing. -/
theorem exists_zpow_eq {d e : ℤ} (h : d ≤ e) (k : ℤ) :
    ∃ n : ℤ, (k : K) * (g.base : K) ^ e = n * (g.base : K) ^ d := by
  obtain ⟨j, rfl⟩ := Int.le.dest h
  refine ⟨k * g.base ^ j, ?_⟩
  rw [zpow_add₀ base_pos.ne', zpow_natCast]
  push_cast
  ring

/-- Rounding does not cross a multiple of a spacing that is coarse enough. -/
theorem le_round {k e : ℤ} {x : K} (he : g.exponent (Int.log g.base |x|) ≤ e)
    (h : (k : K) * (g.base : K) ^ e ≤ x) : (k : K) * (g.base : K) ^ e ≤ g.round x := by
  obtain ⟨n, hn⟩ := exists_zpow_eq (K := K) (g := g) he k
  rw [hn] at h ⊢
  refine mul_le_mul_of_nonneg_right ?_ (spacing_pos x).le
  exact_mod_cast le_nearestEven ((le_div_iff₀ (spacing_pos x)).mpr h)

theorem round_le {k e : ℤ} {x : K} (he : g.exponent (Int.log g.base |x|) ≤ e)
    (h : x ≤ (k : K) * (g.base : K) ^ e) : g.round x ≤ (k : K) * (g.base : K) ^ e := by
  obtain ⟨n, hn⟩ := exists_zpow_eq (K := K) (g := g) he k
  rw [hn] at h ⊢
  refine mul_le_mul_of_nonneg_right ?_ (spacing_pos x).le
  exact_mod_cast nearestEven_le ((div_le_iff₀ (spacing_pos x)).mpr h)

/-- A point of the grid is not rounded. -/
theorem round_eq {k e : ℤ} {x : K} (he : g.exponent (Int.log g.base |x|) ≤ e)
    (h : x = (k : K) * (g.base : K) ^ e) : g.round x = x :=
  le_antisymm ((round_le he h.le).trans_eq h.symm) (h.le.trans (le_round he h.ge))

theorem round_nonpos {x : K} (h : x ≤ 0) : g.round x ≤ 0 :=
  mul_nonpos_of_nonpos_of_nonneg
    (by exact_mod_cast nearestEven_le (by
      rw [Int.cast_zero]
      exact div_nonpos_of_nonpos_of_nonneg h (spacing_pos x).le))
    (spacing_pos x).le

/-- Rounding keeps the sign. -/
theorem round_nonneg {x : K} (h : 0 ≤ x) : 0 ≤ g.round x :=
  mul_nonneg
    (by exact_mod_cast le_nearestEven (by
      rw [Int.cast_zero]
      exact div_nonneg h (spacing_pos x).le))
    (spacing_pos x).le

omit [IsStrictOrderedRing K] in
@[simp] theorem spacing_neg (x : K) : g.spacing (-x) = g.spacing x := by
  rw [spacing, spacing, abs_neg]

@[simp] theorem round_neg (x : K) : g.round (-x) = -g.round x := by
  rw [round, round, spacing_neg, neg_div, nearestEven_neg]
  push_cast
  ring

theorem abs_round (x : K) : |g.round x| = g.round |x| := by
  rcases le_total 0 x with hx | hx
  · rw [abs_of_nonneg hx, abs_of_nonneg (round_nonneg hx)]
  · rw [abs_of_nonpos hx, round_neg, abs_of_nonpos (round_nonpos hx)]

/-- A rounded value as a multiple of its spacing. -/
theorem abs_round_sub_eq (x y : K) :
    |g.round x - y| = |(nearestEven (x / g.spacing x) : K) - y / g.spacing x| * g.spacing x := by
  have hpos := spacing_pos (g := g) x
  rw [round, ← abs_of_pos hpos, ← abs_mul, abs_of_pos hpos, sub_mul, div_mul_cancel₀ _ hpos.ne']

/-- No multiple of a spacing that is coarse enough is nearer. -/
theorem abs_round_sub_le_abs {e : ℤ} {x : K} (he : g.exponent (Int.log g.base |x|) ≤ e) (k : ℤ) :
    |g.round x - x| ≤ |(k : K) * (g.base : K) ^ e - x| := by
  have hpos := spacing_pos (g := g) x
  obtain ⟨n, hn⟩ := exists_zpow_eq (K := K) (g := g) he k
  have hscale : |(n : K) * g.spacing x - x| = |(n : K) - x / g.spacing x| * g.spacing x := by
    rw [← abs_of_pos hpos, ← abs_mul, abs_of_pos hpos, sub_mul, div_mul_cancel₀ _ hpos.ne']
  rw [abs_round_sub_eq, hn]
  show _ ≤ |(n : K) * g.spacing x - x|
  rw [hscale]
  exact mul_le_mul_of_nonneg_right (abs_nearestEven_sub_le_abs _ n) hpos.le

/-- Once a power of the base is a multiple of its own spacing, all larger ones are. -/
theorem exponent_le_of_le {l m : ℤ} (hl : g.exponent l ≤ l) (h : l ≤ m) : g.exponent m ≤ m := by
  induction m, h using Int.leInduction with
  | base => exact hl
  | succ m _ ih => exact (g.slow m).trans (by omega)

/-- Above a power of the base rounding stays above it. -/
theorem zpow_le_round {l : ℤ} {x : K} (hl : g.exponent l ≤ l) (h : (g.base : K) ^ l ≤ x) :
    (g.base : K) ^ l ≤ g.round x := by
  have hpos : 0 < x := (zpow_pos base_pos l).trans_le h
  have hlog : l ≤ Int.log g.base |x| := by
    rw [abs_of_pos hpos]
    exact (Int.zpow_le_iff_le_log g.one_lt hpos).mp h
  have hself : (g.base : K) ^ Int.log g.base |x| ≤ x := by
    simpa only [abs_of_pos hpos] using Int.zpow_log_le_self g.one_lt hpos
  calc (g.base : K) ^ l ≤ (g.base : K) ^ Int.log g.base |x| :=
        zpow_le_zpow_right₀ one_lt_base.le hlog
    _ ≤ g.round x := by
      simpa using le_round (k := 1) (exponent_le_of_le hl hlog) (by simpa using hself)

/-- Below a power of the base rounding stays at or below it. -/
theorem round_le_zpow {l : ℤ} {x : K} (hl : g.exponent l ≤ l) (h : x < (g.base : K) ^ l) :
    g.round x ≤ (g.base : K) ^ l := by
  rcases le_or_gt x 0 with hx | hx
  · exact (round_nonpos hx).trans (zpow_pos base_pos l).le
  have hlog : Int.log g.base |x| < l := by
    rw [abs_of_pos hx]
    exact (Int.lt_zpow_iff_log_lt g.one_lt hx).mp h
  simpa using round_le (k := 1) ((g.mono hlog.le).trans hl) (by simpa using h.le)

/-- The same for magnitudes. -/
theorem abs_round_le_zpow {l : ℤ} {x : K} (hl : g.exponent l ≤ l) (h : |x| < (g.base : K) ^ l) :
    |g.round x| ≤ (g.base : K) ^ l := by
  obtain ⟨hlow, hhigh⟩ := abs_lt.mp h
  rw [abs_le]
  refine ⟨?_, round_le_zpow hl hhigh⟩
  rcases eq_or_ne x 0 with rfl | hx
  · rw [round_zero]
    exact neg_nonpos.mpr (zpow_pos base_pos l).le
  have hlog : Int.log g.base |x| < l := (Int.lt_zpow_iff_log_lt g.one_lt (abs_pos.mpr hx)).mp h
  simpa using le_round (k := -1) ((g.mono hlog.le).trans hl) (by simpa using hlow.le)

/-- Where `x` lies relative to the binade of `l`. -/
theorem binade_cases (l : ℤ) (x : K) :
    x < (g.base : K) ^ l ∨ (0 < x ∧ Int.log g.base |x| = l) ∨ (g.base : K) ^ (l + 1) ≤ x := by
  rcases lt_or_ge x ((g.base : K) ^ l) with h | h
  · exact .inl h
  rcases le_or_gt ((g.base : K) ^ (l + 1)) x with h' | h'
  · exact .inr (.inr h')
  have hpos : 0 < x := (zpow_pos base_pos l).trans_le h
  refine .inr (.inl ⟨hpos, le_antisymm ?_ ?_⟩) <;> rw [abs_of_pos hpos]
  · exact Int.lt_add_one_iff.mp ((Int.lt_zpow_iff_log_lt g.one_lt hpos).mp h')
  · exact (Int.zpow_le_iff_le_log g.one_lt hpos).mp h

section

variable {l k : ℤ} (hl : g.exponent l ≤ l)

include hl

/-- The scaled integer of a value below the binade. -/
theorem nearestEven_le_of_lt {x : K} (h : x < (g.base : K) ^ l) :
    (nearestEven (x / (g.base : K) ^ g.exponent l) : K) * (g.base : K) ^ g.exponent l
      ≤ (g.base : K) ^ l := by
  obtain ⟨n, hn⟩ := exists_zpow_eq (K := K) (g := g) hl 1
  rw [Int.cast_one, one_mul] at hn
  have hpos : (0 : K) < (g.base : K) ^ g.exponent l := zpow_pos base_pos _
  rw [hn] at h ⊢
  refine mul_le_mul_of_nonneg_right ?_ hpos.le
  exact_mod_cast nearestEven_le ((div_le_iff₀ hpos).mpr h.le)

/-- The scaled integer of a value above the binade. -/
theorem le_nearestEven_of_le {x : K} (h : (g.base : K) ^ (l + 1) ≤ x) :
    (g.base : K) ^ (l + 1)
      ≤ (nearestEven (x / (g.base : K) ^ g.exponent l) : K) * (g.base : K) ^ g.exponent l := by
  obtain ⟨n, hn⟩ := exists_zpow_eq (K := K) (g := g) (hl.trans (by omega : l ≤ l + 1)) 1
  rw [Int.cast_one, one_mul] at hn
  have hpos : (0 : K) < (g.base : K) ^ g.exponent l := zpow_pos base_pos _
  rw [hn] at h ⊢
  refine mul_le_mul_of_nonneg_right ?_ hpos.le
  exact_mod_cast le_nearestEven ((le_div_iff₀ hpos).mpr h)

/-- A rounded value reaches a point of the grid iff the argument, scaled by the
spacing at that point, rounds up to it. -/
theorem le_round_iff {x : K} (hlo : (g.base : K) ^ l < k * (g.base : K) ^ g.exponent l)
    (hhi : k * (g.base : K) ^ g.exponent l ≤ (g.base : K) ^ (l + 1)) :
    k * (g.base : K) ^ g.exponent l ≤ g.round x
      ↔ k ≤ nearestEven (x / (g.base : K) ^ g.exponent l) := by
  have hpos : (0 : K) < (g.base : K) ^ g.exponent l := zpow_pos base_pos _
  have hscale : k ≤ nearestEven (x / (g.base : K) ^ g.exponent l) ↔
      (k : K) * (g.base : K) ^ g.exponent l
        ≤ nearestEven (x / (g.base : K) ^ g.exponent l) * (g.base : K) ^ g.exponent l := by
    rw [mul_le_mul_iff_left₀ hpos, Int.cast_le]
  rw [hscale]
  rcases binade_cases (g := g) l x with h | ⟨-, h⟩ | h
  · exact iff_of_false ((round_le_zpow hl h).trans_lt hlo).not_ge
      ((nearestEven_le_of_lt hl h).trans_lt hlo).not_ge
  · rw [round, spacing, h]
  · exact iff_of_true (hhi.trans (zpow_le_round (exponent_le_of_le hl (by omega)) h))
      (hhi.trans (le_nearestEven_of_le hl h))

/-- A rounded value stays at or below a point of the grid iff the argument, scaled by
the spacing at that point, does not round past it. -/
theorem round_le_iff {x : K} (hlo : (g.base : K) ^ l ≤ k * (g.base : K) ^ g.exponent l)
    (hhi : k * (g.base : K) ^ g.exponent l < (g.base : K) ^ (l + 1)) :
    g.round x ≤ k * (g.base : K) ^ g.exponent l
      ↔ nearestEven (x / (g.base : K) ^ g.exponent l) ≤ k := by
  have hpos : (0 : K) < (g.base : K) ^ g.exponent l := zpow_pos base_pos _
  have hscale : nearestEven (x / (g.base : K) ^ g.exponent l) ≤ k ↔
      (nearestEven (x / (g.base : K) ^ g.exponent l) : K) * (g.base : K) ^ g.exponent l
        ≤ k * (g.base : K) ^ g.exponent l := by
    rw [mul_le_mul_iff_left₀ hpos, Int.cast_le]
  rw [hscale]
  rcases binade_cases (g := g) l x with h | ⟨-, h⟩ | h
  · exact iff_of_true ((round_le_zpow hl h).trans hlo) ((nearestEven_le_of_lt hl h).trans hlo)
  · rw [round, spacing, h]
  · exact iff_of_false (hhi.trans_le (zpow_le_round (exponent_le_of_le hl (by omega)) h)).not_ge
      (hhi.trans_le (le_nearestEven_of_le hl h)).not_ge

/-- Nothing rounds into the gap below a point of the grid: to exceed a value in the gap
is to reach the point. -/
theorem lt_round_iff_of_gap {t x : K}
    (hbase : (g.base : K) ^ l ≤ (k - 1 : ℤ) * (g.base : K) ^ g.exponent l)
    (hhi : k * (g.base : K) ^ g.exponent l ≤ (g.base : K) ^ (l + 1))
    (hbelow : (k - 1 : ℤ) * (g.base : K) ^ g.exponent l ≤ t)
    (habove : t < k * (g.base : K) ^ g.exponent l) :
    t < g.round x ↔ k ≤ nearestEven (x / (g.base : K) ^ g.exponent l) := by
  have hlt : ((k - 1 : ℤ) : K) * (g.base : K) ^ g.exponent l < k * (g.base : K) ^ g.exponent l :=
    hbelow.trans_lt habove
  constructor
  · intro h
    by_contra hno
    have hle := (round_le_iff hl hbase (hlt.trans_le hhi) (x := x)).mpr (by omega)
    exact absurd (hle.trans hbelow) h.not_ge
  · intro h
    exact habove.trans_le ((le_round_iff hl (hbase.trans_lt hlt) hhi).mpr h)

/-- The same for a value in the gap that may be the point itself. -/
theorem le_round_iff_of_gap {t x : K}
    (hbase : (g.base : K) ^ l ≤ (k - 1 : ℤ) * (g.base : K) ^ g.exponent l)
    (hhi : k * (g.base : K) ^ g.exponent l ≤ (g.base : K) ^ (l + 1))
    (hbelow : (k - 1 : ℤ) * (g.base : K) ^ g.exponent l < t)
    (habove : t ≤ k * (g.base : K) ^ g.exponent l) :
    t ≤ g.round x ↔ k ≤ nearestEven (x / (g.base : K) ^ g.exponent l) := by
  have hlt : ((k - 1 : ℤ) : K) * (g.base : K) ^ g.exponent l < k * (g.base : K) ^ g.exponent l :=
    hbelow.trans_le habove
  constructor
  · intro h
    by_contra hno
    have hle := (round_le_iff hl hbase (hlt.trans_le hhi) (x := x)).mpr (by omega)
    exact absurd (hle.trans_lt hbelow) h.not_gt
  · intro h
    exact habove.trans ((le_round_iff hl (hbase.trans_lt hlt) hhi).mpr h)

end

/-! ## Rounding after a small error

A value that has been moved a little before it is rounded: when the result is still
within half a spacing of the value itself. The powers of the base need care, since the
spacing changes there.
-/

/-- The cost of rounding does not depend on the sign. -/
theorem abs_round_sub_abs (x : K) : |g.round x - x| = abs (g.round |x| - |x|) := by
  rcases le_total 0 x with hx | hx
  · rw [abs_of_nonneg hx]
  · rw [abs_of_nonpos hx, round_neg, ← abs_neg, neg_sub']

/-- Below a power of the base a value is no further from its rounding than from the power. -/
theorem abs_round_sub_le_of_lt {l : ℤ} {x : K} (hl : g.exponent l ≤ l)
    (h : |x| < (g.base : K) ^ l) : |g.round x - x| ≤ (g.base : K) ^ l - |x| := by
  rcases eq_or_ne x 0 with rfl | hx
  · rw [round_zero, sub_zero, abs_zero, sub_zero]
    exact (zpow_pos base_pos l).le
  have hlog : Int.log g.base |x| < l := (Int.lt_zpow_iff_log_lt g.one_lt (abs_pos.mpr hx)).mp h
  have hnear := abs_round_sub_le_abs (g := g) (x := |x|) (e := l)
    (by rw [abs_abs]; exact (g.mono hlog.le).trans hl) 1
  rw [Int.cast_one, one_mul, abs_of_pos (sub_pos.mpr h)] at hnear
  rw [abs_round_sub_abs]
  exact hnear

/-- Above a power of the base as well. -/
theorem abs_round_sub_le_of_le {l : ℤ} {x : K} (hl : g.exponent l ≤ l)
    (h : (g.base : K) ^ l ≤ |x|) : |g.round x - x| ≤ |x| - (g.base : K) ^ l := by
  have hpos : 0 < |x| := (zpow_pos base_pos l).trans_le h
  have hlog : l ≤ Int.log g.base |x| := (Int.zpow_le_iff_le_log g.one_lt hpos).mp h
  have hself : (g.base : K) ^ Int.log g.base |x| ≤ |x| := Int.zpow_log_le_self g.one_lt hpos
  have hnear := abs_round_sub_le_abs (g := g) (x := |x|) (e := Int.log g.base |x|)
    (by rw [abs_abs]; exact exponent_le_of_le hl hlog) 1
  rw [Int.cast_one, one_mul, abs_of_nonpos (sub_nonpos.mpr hself), neg_sub] at hnear
  have hpower : (g.base : K) ^ l ≤ (g.base : K) ^ Int.log g.base |x| :=
    zpow_le_zpow_right₀ one_lt_base.le hlog
  rw [abs_round_sub_abs]
  linarith

/-- With a finer spacing it is at most half as wide. -/
theorem two_mul_spacing_le {x y : K}
    (h : g.exponent (Int.log g.base |y|) < g.exponent (Int.log g.base |x|)) :
    2 * g.spacing y ≤ g.spacing x := by
  have hbase : (2 : K) ≤ g.base := by exact_mod_cast g.one_lt
  calc 2 * g.spacing y ≤ g.base * g.spacing y :=
        mul_le_mul_of_nonneg_right hbase (spacing_pos y).le
    _ = (g.base : K) ^ (g.exponent (Int.log g.base |y|) + 1) := by
      rw [zpow_add_one₀ base_pos.ne', spacing, mul_comm]
    _ ≤ g.spacing x := zpow_le_zpow_right₀ one_lt_base.le h

/-- Rounding a value that has been moved a little: the result is within half a spacing of
the value itself, unless the move has carried it past the end of its cell. The values for
which this makes a difference are those next to a midpoint of the grid. -/
theorem abs_round_sub_le_half_iff (hfine : ∀ l, g.exponent l ≤ l) {x y : K} (hx : x ≠ 0)
    (hclose : |y - x| ≤ g.spacing x / 8) :
    |g.round y - x| ≤ g.spacing x / 2 ↔
      |y - g.round x| < g.spacing x / 2 ∨
      (|y - g.round x| = g.spacing x / 2 ∧ nearestEven (x / g.spacing x) % 2 = 0) ∨
      |x - g.round x| = g.spacing x / 2 := by
  have hpos := spacing_pos (g := g) x
  have hxpos : 0 < |x| := abs_pos.mpr hx
  have hself : (g.base : K) ^ Int.log g.base |x| ≤ |x| := Int.zpow_log_le_self g.one_lt hxpos
  have hspacing : g.spacing x ≤ |x| :=
    (zpow_le_zpow_right₀ one_lt_base.le (hfine _)).trans hself
  have hdist : |(|y| - |x|)| ≤ |y - x| := abs_abs_sub_abs_le_abs_sub y x
  obtain ⟨hdown, hup⟩ := abs_le.mp hdist
  have hypos : 0 < |y| := by linarith
  -- a value across a power of the base is so near to it that both sides hold
  have hcross : |g.round x - x| ≤ |y - x| →
      |g.round y - y| ≤ g.spacing x / 4 → (|g.round y - x| ≤ g.spacing x / 2 ↔
        |y - g.round x| < g.spacing x / 2 ∨
        (|y - g.round x| = g.spacing x / 2 ∧ nearestEven (x / g.spacing x) % 2 = 0) ∨
        |x - g.round x| = g.spacing x / 2) := by
    intro hroundx hroundy
    have hleft := abs_sub_le (g.round y) y x
    have hright := abs_sub_le y x (g.round x)
    rw [abs_sub_comm x] at hright
    exact iff_of_true (by linarith) (.inl (by linarith))
  rcases lt_trichotomy (g.exponent (Int.log g.base |y|)) (g.exponent (Int.log g.base |x|)) with
    hlt | heq | hgt
  · have hlog : Int.log g.base |y| < Int.log g.base |x| :=
      lt_of_not_ge fun hle => hlt.not_ge (g.mono hle)
    have hbelow : |y| < (g.base : K) ^ Int.log g.base |x| :=
      (Int.lt_zpow_iff_log_lt g.one_lt hypos).mpr hlog
    have hroundx := abs_round_sub_le_of_le (hfine _) hself
    refine hcross (by linarith) ?_
    have hhalf := abs_round_sub_le (g := g) y
    have hfiner := two_mul_spacing_le hlt
    linarith
  · -- within one spacing the comparison is one of scaled integers
    have hsame : g.spacing y = g.spacing x := by rw [spacing, spacing, heq]
    have hscale : ∀ a b : K, |a - b| = |a / g.spacing x - b / g.spacing x| * g.spacing x := by
      intro a b
      rw [← sub_div, abs_div, abs_of_pos hpos, div_mul_cancel₀ _ hpos.ne']
    have hclose' : |y / g.spacing x - x / g.spacing x| < 1 / 2 := by
      rw [hscale y x] at hclose
      by_contra hfar
      have := mul_le_mul_of_nonneg_right (not_lt.mp hfar) hpos.le
      linarith
    have hround : g.round x / g.spacing x = nearestEven (x / g.spacing x) := by
      rw [round, mul_div_cancel_right₀ _ hpos.ne']
    have hhalf : g.spacing x / 2 = 1 / 2 * g.spacing x := by ring
    rw [abs_round_sub_eq, hsame, hscale y (g.round x), hscale x (g.round x), hround, hhalf,
      mul_le_mul_iff_left₀ hpos, mul_lt_mul_iff_left₀ hpos, mul_left_inj' hpos.ne',
      mul_left_inj' hpos.ne']
    exact abs_nearestEven_sub_le_half_iff hclose'
  · have hlog : Int.log g.base |x| < Int.log g.base |y| :=
      lt_of_not_ge fun hle => hgt.not_ge (g.mono hle)
    have hbelow : |x| < (g.base : K) ^ Int.log g.base |y| :=
      (Int.lt_zpow_iff_log_lt g.one_lt hxpos).mpr hlog
    have habove : (g.base : K) ^ Int.log g.base |y| ≤ |y| := Int.zpow_log_le_self g.one_lt hypos
    have hroundx := abs_round_sub_le_of_lt (hfine _) hbelow
    have hroundy := abs_round_sub_le_of_le (hfine _) habove
    exact hcross (by linarith) (by linarith)

end Grid

end Rounding
