import Mathlib.Order.Lattice
import Mathlib.Order.Bounds.Basic
import Mathlib.Order.Defs.LinearOrder
import Mathlib.Data.List.Basic

/-!
# Running minimum and runner-up

A scan over keyed values that keeps the least value seen so far, the key it was first
seen at, and the least value among all the others (the *runner-up*, which equals the
minimum when that occurs twice). Both start at a sentinel `top`.

- `Ranked top l best key second`: what the three variables mean after the entries `l`.
- `nil`, `improve`, `replace`, `keep`: the start of the scan and its three branches.
-/

namespace RunnerUp

universe u v

/-- What holds of the entries seen and of one more. -/
theorem forall_mem_concat {β : Type u} {P : β → Prop} {l : List β} {b : β} :
    (∀ x ∈ l ++ [b], P x) ↔ (∀ x ∈ l, P x) ∧ P b := by
  rw [List.forall_mem_append, List.forall_mem_singleton]

variable {κ : Type u} {α : Type v} [LinearOrder κ] [LinearOrder α]

/-- The meaning of the scan variables after the entries `l`. -/
structure Ranked (top : α) (l : List (κ × α)) (best : α) (key : κ) (second : α) :
    Prop where
  best_le : ∀ x ∈ l, best ≤ x.2
  second_le : ∀ x ∈ l, x.1 ≠ key → second ≤ x.2
  best_le_second : best ≤ second
  second_le_top : second ≤ top
  best_mem : best < top → (key, best) ∈ l
  second_mem : second < top → ∃ x ∈ l, x.1 ≠ key ∧ x.2 = second
  first : best < top → ∀ x ∈ l, x.2 = best → key ≤ x.1

namespace Ranked

variable {top best second e : α} {l : List (κ × α)} {key k : κ}

theorem nil (top : α) (key : κ) : Ranked top [] top key top where
  best_le _ h := nomatch h
  second_le _ h := nomatch h
  best_le_second := le_rfl
  second_le_top := le_rfl
  best_mem h := absurd h (lt_irrefl _)
  second_mem h := absurd h (lt_irrefl _)
  first h := absurd h (lt_irrefl _)

theorem best_le_top (h : Ranked top l best key second) : best ≤ top :=
  h.best_le_second.trans h.second_le_top

/-- The key of a real entry is below every key still to come. -/
theorem key_lt (h : Ranked top l best key second) (hk : ∀ x ∈ l, x.1 < k)
    (hb : best < top) : key < k :=
  hk _ (h.best_mem hb)

/-- Branch `e < best`: the old minimum becomes the runner-up. -/
theorem improve (h : Ranked top l best key second) (hk : ∀ x ∈ l, x.1 < k)
    (he : e < best) : Ranked top (l ++ [(k, e)]) e k best where
  best_le := by
    rw [forall_mem_concat]
    constructor
    · exact fun x hx => he.le.trans (h.best_le x hx)
    · exact le_rfl
  second_le := by
    rw [forall_mem_concat]
    constructor
    · exact fun x hx _ => h.best_le x hx
    · exact fun hne => absurd rfl hne
  best_le_second := he.le
  second_le_top := h.best_le_top
  best_mem _ := by simp
  second_mem hb := by
    -- the old minimum was seen at an earlier key
    have hmem := h.best_mem hb
    exact ⟨_, List.mem_append_left _ hmem, (h.key_lt hk hb).ne, rfl⟩
  first _ := by
    rw [forall_mem_concat]
    constructor
    · rintro x hx rfl
      exact absurd (h.best_le x hx) (not_le.mpr he)
    · exact fun _ => le_rfl

/-- Branch `best ≤ e < second`: only the runner-up changes. -/
theorem replace (h : Ranked top l best key second) (hk : ∀ x ∈ l, x.1 < k)
    (hbe : ¬ e < best) (hes : e < second) : Ranked top (l ++ [(k, e)]) best key e where
  best_le := by
    rw [forall_mem_concat]
    constructor
    · exact h.best_le
    · exact not_lt.mp hbe
  second_le := by
    rw [forall_mem_concat]
    constructor
    · exact fun x hx hne => hes.le.trans (h.second_le x hx hne)
    · exact fun _ => le_rfl
  best_le_second := not_lt.mp hbe
  second_le_top := hes.le.trans h.second_le_top
  best_mem hb := List.mem_append_left _ (h.best_mem hb)
  second_mem _ := by
    -- the minimum is a real entry too, so its key is an earlier one
    have hb : best < top := (not_lt.mp hbe).trans_lt (hes.trans_le h.second_le_top)
    exact ⟨(k, e), by simp, (h.key_lt hk hb).ne', rfl⟩
  first hb := by
    rw [forall_mem_concat]
    constructor
    · exact h.first hb
    · exact fun _ => (h.key_lt hk hb).le

/-- Branch `second ≤ e`: nothing changes. -/
theorem keep (h : Ranked top l best key second) (hk : ∀ x ∈ l, x.1 < k)
    (hbe : ¬ e < best) (hes : ¬ e < second) :
    Ranked top (l ++ [(k, e)]) best key second where
  best_le := by
    rw [forall_mem_concat]
    constructor
    · exact h.best_le
    · exact not_lt.mp hbe
  second_le := by
    rw [forall_mem_concat]
    constructor
    · exact h.second_le
    · exact fun _ => not_lt.mp hes
  best_le_second := h.best_le_second
  second_le_top := h.second_le_top
  best_mem hb := List.mem_append_left _ (h.best_mem hb)
  second_mem hs := by
    obtain ⟨x, hx, hne, heq⟩ := h.second_mem hs
    exact ⟨x, List.mem_append_left _ hx, hne, heq⟩
  first hb := by
    rw [forall_mem_concat]
    constructor
    · exact h.first hb
    · exact fun _ => (h.key_lt hk hb).le

/-! ## Reading a finished scan -/

/-- With an entry below the sentinel, the minimum is an entry. -/
theorem best_mem_of_lt (h : Ranked top l best key second) {x : κ × α} (hx : x ∈ l)
    (hlt : x.2 < top) : (key, best) ∈ l :=
  h.best_mem ((h.best_le x hx).trans_lt hlt)

/-- A strict minimum is found at its own key. -/
theorem key_eq_of_strict (h : Ranked top l best key second) (hk : (k, e) ∈ l)
    (htop : e < top) (hmin : ∀ x ∈ l, x.1 ≠ k → e < x.2) : key = k := by
  have hmem := h.best_mem_of_lt hk htop
  by_contra hne
  exact absurd (h.best_le _ hk) (not_le.mpr (hmin _ hmem hne))

/-- With an entry below the sentinel, `best` is the least value. -/
theorem isLeast_best (h : Ranked top l best key second) {x : κ × α} (hx : x ∈ l)
    (hlt : x.2 < top) : IsLeast {e | ∃ k, (k, e) ∈ l} best := by
  constructor
  · exact ⟨key, h.best_mem_of_lt hx hlt⟩
  · rintro e ⟨k, hmem⟩
    exact h.best_le _ hmem

/-- Its key is the first one with that value. -/
theorem isLeast_key (h : Ranked top l best key second) {x : κ × α} (hx : x ∈ l)
    (hlt : x.2 < top) : IsLeast {k | (k, best) ∈ l} key := by
  constructor
  · exact h.best_mem_of_lt hx hlt
  · intro k hmem
    exact h.first ((h.best_le x hx).trans_lt hlt) _ hmem rfl

/-- With another entry below the sentinel, `second` is the least value at the other keys. -/
theorem isLeast_second (h : Ranked top l best key second) {x : κ × α} (hx : x ∈ l)
    (hne : x.1 ≠ key) (hlt : x.2 < top) :
    IsLeast {e | ∃ k, k ≠ key ∧ (k, e) ∈ l} second := by
  constructor
  · obtain ⟨⟨k, e⟩, hmem, hk, rfl⟩ := h.second_mem ((h.second_le x hx hne).trans_lt hlt)
    exact ⟨k, hk, hmem⟩
  · rintro e ⟨k, hk, hmem⟩
    exact h.second_le _ hmem hk

end Ranked

end RunnerUp
