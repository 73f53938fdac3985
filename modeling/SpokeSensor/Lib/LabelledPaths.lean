import Mathlib.Data.List.Basic

/-!
# Paths with labels

A labelled step relation, its paths with the labels they pass, and the question whether a
path can get from one set of vertices to another without a label of a given kind. When
every vertex belongs to one of the two sets, this is decided by single steps
(`every_path_crosses_iff`).
-/

namespace LabelledPaths

universe u v

variable {V : Type u} {L : Type v} {step : V → L → V → Prop} {a b : V} {l : L} {ls : List L}

/-- A path from the first vertex to the last, with the labels of its steps. -/
inductive Path (step : V → L → V → Prop) : V → List L → V → Prop where
  | nil (a : V) : Path step a [] a
  | cons {a b c : V} {l : L} {ls : List L} :
      step a l b → Path step b ls c → Path step a (l :: ls) c

theorem Path.single (h : step a l b) : Path step a [l] b := .cons h (.nil b)

/-- What every permitted step preserves holds at the end of a path of such steps. -/
theorem Path.invariant {P : V → Prop} {permitted : L → Prop}
    (hstep : ∀ a l b, permitted l → step a l b → P a → P b) (hpath : Path step a ls b)
    (hls : ∀ l ∈ ls, permitted l) (ha : P a) : P b := by
  induction hpath with
  | nil a => exact ha
  | cons h _ ih =>
    obtain ⟨hl, hls⟩ := List.forall_mem_cons.mp hls
    exact ih hls (hstep _ _ _ hl h ha)

/-- With every vertex in `A` or in `B`, all paths from `A` to `B` cross exactly when the two
sets are disjoint and every single step from `A` to `B` crosses. -/
theorem every_path_crosses_iff {A B : V → Prop} {crossing : L → Prop}
    (hvertex : ∀ a l b, step a l b → A b ∨ B b) :
    (∀ a b ls, A a → B b → Path step a ls b → ∃ l ∈ ls, crossing l) ↔
      (∀ a, A a → ¬ B a) ∧ ∀ a l b, step a l b → ¬ crossing l → A a → ¬ B b := by
  constructor
  · intro h
    constructor
    · intro a ha hb
      obtain ⟨l, hl, -⟩ := h a a [] ha hb (.nil a)
      exact absurd hl List.not_mem_nil
    · intro a l b hstep hno ha hb
      obtain ⟨l', hl', hcross⟩ := h a b [l] ha hb (.single hstep)
      rw [List.mem_singleton.mp hl'] at hcross
      exact hno hcross
  · rintro ⟨hdisjoint, hsteps⟩ a b ls ha hb hpath
    by_contra hno
    push Not at hno
    -- without a crossing the path never leaves `A`
    have hstay : ∀ a l b, ¬ crossing l → step a l b → A a → A b := fun a l b hl hstep ha =>
      (hvertex a l b hstep).resolve_right (hsteps a l b hstep hl ha)
    exact hdisjoint b (hpath.invariant hstay hno ha) hb

end LabelledPaths
