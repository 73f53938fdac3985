import Mathlib.Data.Rat.Floor
import Mathlib.Tactic.NormNum

/-!
# Slots served in turn

`n` slots are served in turn: a step either serves the slot under the index and moves
the index on modulo `n`, or does nothing.

- `visits n i j bs`: how often the slot `j` is served along the steps `bs` from the
  index `i`.
- `visits_add_ahead_le`: the slot that is `ahead` steps away has waited for that long
  already, which carries the induction.
- `visits_le_ceil`: along `k` steps no slot is served more than `⌈k / n⌉` times,
  however the idle steps are placed.
-/

namespace RoundRobin

/-- How often the slot `j` is served from the index `i`; an idle step is `false`. -/
def visits (n i j : ℕ) : List Bool → ℕ
  | [] => 0
  | false :: bs => visits n i j bs
  | true :: bs => (if i = j then 1 else 0) + visits n ((i + 1) % n) j bs

/-- How many steps away the index is from the slot `j`. -/
def ahead (n i j : ℕ) : ℕ :=
  if i ≤ j then j - i else n - i + j

variable {n i j : ℕ}

theorem ahead_lt (hi : i < n) (hj : j < n) : ahead n i j < n := by
  unfold ahead
  split <;> omega

theorem ahead_self : ahead n i i = 0 := by
  simp [ahead]

/-- A served slot is a whole turn away, every other slot comes one closer. -/
theorem ahead_succ (hi : i < n) (hj : j < n) :
    ahead n ((i + 1) % n) j + 1 = if i = j then n else ahead n i j := by
  by_cases hwrap : i + 1 = n
  · rw [hwrap, Nat.mod_self]
    unfold ahead
    split_ifs <;> omega
  · rw [Nat.mod_eq_of_lt (by omega)]
    unfold ahead
    split_ifs <;> omega

/-- The slot that is `ahead` steps away has waited for that long already. -/
theorem visits_add_ahead_le (hi : i < n) (hj : j < n) (bs : List Bool) :
    n * visits n i j bs + ahead n i j ≤ bs.length + (n - 1) := by
  induction bs generalizing i with
  | nil =>
    have := ahead_lt hi hj
    simp only [visits, List.length_nil]
    omega
  | cons b bs ih =>
    cases b with
    | false =>
      have := ih hi
      simp only [visits, List.length_cons]
      omega
    | true =>
      have hnext := ih (i := (i + 1) % n) (Nat.mod_lt _ (by omega))
      have hstep := ahead_succ hi hj
      simp only [visits, List.length_cons]
      by_cases hij : i = j
      · rw [if_pos hij] at hstep ⊢
        rw [Nat.mul_add, Nat.mul_one, hij, ahead_self]
        rw [hij] at hnext hstep
        omega
      · rw [if_neg hij] at hstep ⊢
        rw [Nat.zero_add]
        omega

/-- Along `k` steps a slot is served at most `⌈k / n⌉` times. -/
theorem visits_le_ceil (hi : i < n) (hj : j < n) (bs : List Bool) :
    visits n i j bs ≤ ⌈(bs.length : ℚ) / n⌉₊ := by
  have hn : (0 : ℚ) < n := by exact_mod_cast (show 0 < n by omega)
  have hbound := visits_add_ahead_le hi hj bs
  cases hv : visits n i j bs with
  | zero => exact Nat.zero_le _
  | succ m =>
    rw [hv, Nat.mul_add, Nat.mul_one] at hbound
    rw [Nat.add_one_le_ceil_iff, lt_div_iff₀ hn]
    have hlt : m * n < bs.length := by
      rw [Nat.mul_comm]
      omega
    exact_mod_cast hlt

/-- A slot beyond the last one is never served. -/
theorem visits_eq_zero (hi : i < n) (hj : n ≤ j) (bs : List Bool) : visits n i j bs = 0 := by
  induction bs generalizing i with
  | nil => rfl
  | cons b bs ih =>
    cases b with
    | false => exact ih hi
    | true =>
      rw [visits, if_neg (by omega), ih (Nat.mod_lt _ (by omega))]

end RoundRobin
