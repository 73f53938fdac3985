import Mathlib.Algebra.GroupWithZero.Nat
import Mathlib.Data.Vector.Basic
import Mathlib.Data.List.Basic

/-!
# A ring buffer and the list it stands for

A buffer of `N` cells with a write position `head` and a fill count `size`; the write
position advances modulo `N` and the oldest entry is overwritten.

- `back buf head k`: the entry written `k` writes before the latest one.
- `Holds buf head size xs`: the buffer stands for the first `N` elements of the list
  `xs` of everything written, latest first.
- `Holds.push`: writing an entry puts it in front of the list.
-/

namespace Ring

universe u

variable {α : Type u} {N : ℕ} [NeZero N]

/-- The entry written `k` writes before the latest one. -/
def back (buf : Vector α N) (head k : ℕ) : α :=
  buf[Fin.ofNat N (head + N - 1 - k)]

/-- The buffer holds the first `N` elements of `xs`, latest first. -/
structure Holds (buf : Vector α N) (head size : ℕ) (xs : List α) : Prop where
  head_lt : head < N
  size_eq : size = min xs.length N
  back_eq : ∀ k < size, xs[k]? = some (back buf head k)

variable {buf : Vector α N} {head size : ℕ} {xs : List α}

theorem Holds.empty (buf : Vector α N) : Holds buf 0 0 [] where
  head_lt := Nat.pos_of_neZero N
  size_eq := by simp
  back_eq k hk := absurd hk (Nat.not_lt_zero k)

theorem Holds.size_le (h : Holds buf head size xs) : size ≤ N := by
  rw [h.size_eq]
  exact Nat.min_le_right _ _

omit [NeZero N] in
/-- Cell read by `back`, after the head has advanced. -/
theorem back_index (hhead : head < N) {k : ℕ} (hk : k < N) :
    ((head + 1) % N + N - 1 - k) % N = (head + (N - k)) % N := by
  -- the advanced head may have wrapped to zero
  by_cases hwrap : head + 1 = N
  · rw [hwrap, Nat.mod_self]
    have hright : head + (N - k) = 0 + N - 1 - k + N := by omega
    rw [hright, Nat.add_mod_right]
  · rw [Nat.mod_eq_of_lt (show head + 1 < N by omega)]
    congr 1
    omega

/-- The latest entry is the one just written. -/
theorem back_push_zero (hhead : head < N) (x : α) :
    back (buf.setIfInBounds head x) ((head + 1) % N) 0 = x := by
  have hidx : ((head + 1) % N + N - 1 - 0) % N = head := by
    rw [back_index hhead (Nat.pos_of_neZero N), Nat.sub_zero, Nat.add_mod_right,
      Nat.mod_eq_of_lt hhead]
  simp only [back, Fin.getElem_fin, Fin.val_ofNat, hidx]
  exact Vector.getElem_setIfInBounds_self ..

/-- The older entries move back by one. -/
theorem back_push_succ (hhead : head < N) (x : α) {k : ℕ} (hk : k + 1 < N) :
    back (buf.setIfInBounds head x) ((head + 1) % N) (k + 1) = back buf head k := by
  have hidx : ((head + 1) % N + N - 1 - (k + 1)) % N = (head + N - 1 - k) % N := by
    rw [back_index hhead hk]
    congr 1
    omega
  have hne : head ≠ (head + N - 1 - k) % N := by
    -- older entries are at most `N - 1` cells before the one just written
    intro heq
    by_cases hle : k + 1 ≤ head
    · have hsplit : head + N - 1 - k = head - 1 - k + N := by omega
      rw [hsplit, Nat.add_mod_right, Nat.mod_eq_of_lt (by omega)] at heq
      omega
    · rw [Nat.mod_eq_of_lt (by omega)] at heq
      omega
  simp only [back, Fin.getElem_fin, Fin.val_ofNat, hidx]
  exact Vector.getElem_setIfInBounds_ne _ hne

/-- Writing an entry puts it in front of the list. -/
theorem Holds.push (h : Holds buf head size xs) (x : α) :
    Holds (buf.setIfInBounds head x) ((head + 1) % N)
      (if size < N then size + 1 else size) (x :: xs) where
  head_lt := Nat.mod_lt _ (Nat.pos_of_neZero N)
  size_eq := by
    have := h.size_eq
    rw [List.length_cons]
    split <;> omega
  back_eq k hk := by
    have hsize := h.size_le
    cases k with
    | zero => simp [back_push_zero h.head_lt]
    | succ k =>
      have hkN : k + 1 < N := by split at hk <;> omega
      have hks : k < size := by split at hk <;> omega
      rw [List.getElem?_cons_succ, h.back_eq k hks, back_push_succ h.head_lt x hkN]

end Ring
