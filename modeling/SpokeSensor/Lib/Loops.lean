import Mathlib.Data.List.Basic

/-!
# Loops whose steps succeed

A monadic loop is the pure loop when every step that it takes is pure. The two lemmas
ask this of the elements of the list alone, so that bounds on a loop variable are at
hand where a step is shown to succeed.
-/

namespace Loops

universe u v w

variable {m : Type u → Type v} [Monad m] [LawfulMonad m] {α : Type w} {β : Type u}

/-- A loop with an accumulator. -/
theorem foldlM_eq_pure {f : β → α → m β} {g : β → α → β} {l : List α}
    (h : ∀ b, ∀ a ∈ l, f b a = pure (g b a)) (b : β) : l.foldlM f b = pure (l.foldl g b) := by
  induction l generalizing b with
  | nil => rfl
  | cons a l ih =>
    rw [List.foldlM_cons, h b a List.mem_cons_self, pure_bind]
    exact ih (fun b a ha => h b a (List.mem_cons_of_mem _ ha)) _

/-- A loop that collects its results. -/
theorem mapM_eq_pure {f : α → m β} {g : α → β} {l : List α} (h : ∀ a ∈ l, f a = pure (g a)) :
    l.mapM f = pure (l.map g) := by
  induction l with
  | nil => exact List.mapM_nil
  | cons a l ih =>
    rw [List.mapM_cons, h a List.mem_cons_self, pure_bind,
      ih fun b hb => h b (List.mem_cons_of_mem _ hb), pure_bind]
    rfl

end Loops
