import Mathlib.Algebra.BigOperators.Group.List.Basic
import Mathlib.Algebra.Order.BigOperators.Group.List
import Mathlib.Algebra.Order.Field.Rat
import Mathlib.Algebra.Order.Ring.Abs
import Mathlib.Data.List.Infix
import Mathlib.Tactic.Linarith
import Mathlib.Tactic.Ring

/-!
# Dating consecutive spans from their common end

Spans that follow each other without a gap and of which only the durations and the end
of the last one are known. Each starts at the end less its own duration and those
after it (`start`).

- `pairwise_start`: the spans do not overlap.
- `end_le`: none ends after the common end.
- `abs_total_sub_le`: durations that are each off by at most `ε` give a start that is
  off by at most `ε` for each span from its own on.
-/

namespace Backdating

universe u

variable {α : Type u} (d : α → ℕ)

/-- Each element of a list with those after it. -/
def withRest : List α → List (α × List α)
  | [] => []
  | a :: as => (a, as) :: withRest as

/-- What a list of spans lasts. -/
def total (as : List α) : ℕ := (as.map d).sum

@[simp] theorem total_nil : total d [] = 0 := rfl

@[simp] theorem total_cons (a : α) (as : List α) : total d (a :: as) = d a + total d as :=
  List.sum_cons

/-- The start of a span that is followed by others. -/
def start (fin : ℕ) (x : α × List α) : ℕ := fin - total d (x.1 :: x.2)

variable {d} {as bs : List α} {fin : ℕ} {x : α × List α}

theorem total_le_of_suffix (h : as <:+ bs) : total d as ≤ total d bs := by
  obtain ⟨cs, rfl⟩ := h
  rw [total, total, List.map_append, List.sum_append]
  exact Nat.le_add_left _ _

theorem suffix_of_mem_withRest (h : x ∈ withRest as) : x.1 :: x.2 <:+ as := by
  induction as with
  | nil => cases h
  | cons a as ih =>
    rcases List.mem_cons.mp h with rfl | h
    · exact List.suffix_refl _
    · exact (ih h).trans (List.suffix_cons a as)

/-- A later span is one of those after an earlier one. -/
theorem pairwise_withRest (as : List α) :
    (withRest as).Pairwise fun x y => y.1 :: y.2 <:+ x.2 := by
  induction as with
  | nil => exact List.Pairwise.nil
  | cons a as ih => exact ih.cons fun y hy => suffix_of_mem_withRest hy

theorem end_eq (h : total d as ≤ fin) (hx : x ∈ withRest as) :
    start d fin x + d x.1 = fin - total d x.2 := by
  have hle := (total_le_of_suffix (d := d) (suffix_of_mem_withRest hx)).trans h
  rw [total_cons] at hle
  rw [start, total_cons]
  omega

theorem end_le (h : total d as ≤ fin) (hx : x ∈ withRest as) :
    start d fin x + d x.1 ≤ fin := by
  rw [end_eq h hx]
  exact Nat.sub_le _ _

/-- No span starts before the end of an earlier one. -/
theorem pairwise_start (h : total d as ≤ fin) :
    (withRest as).Pairwise fun x y => start d fin x + d x.1 ≤ start d fin y := by
  refine (pairwise_withRest as).imp_of_mem fun hx _ hxy => ?_
  rw [end_eq h hx, start]
  exact Nat.sub_le_sub_left (total_le_of_suffix hxy) fin

/-- Errors add up, one for each span. -/
theorem abs_total_sub_le (as : List α) {e : α → ℚ} {ε : ℚ} (h : ∀ a ∈ as, |(d a : ℚ) - e a| ≤ ε) :
    |(total d as : ℚ) - (as.map e).sum| ≤ as.length * ε := by
  induction as with
  | nil => simp
  | cons a as ih =>
    have ha := h a List.mem_cons_self
    have has := ih fun b hb => h b (List.mem_cons_of_mem a hb)
    rw [total_cons, List.map_cons, List.sum_cons, List.length_cons]
    push_cast
    have hsplit : (d a : ℚ) + total d as - (e a + (as.map e).sum)
        = ((d a : ℚ) - e a) + ((total d as : ℚ) - (as.map e).sum) := by ring
    calc |(d a : ℚ) + total d as - (e a + (as.map e).sum)|
        ≤ |(d a : ℚ) - e a| + |(total d as : ℚ) - (as.map e).sum| := by
          rw [hsplit]
          exact abs_add_le _ _
      _ ≤ ε + as.length * ε := add_le_add ha has
      _ = (as.length + 1) * ε := by ring

end Backdating
