import Mathlib.Logic.Basic
import Mathlib.Tactic.ByContra

/-!
# Blocks with labels

A family of blocks of points. Some blocks are inspected.

- `Labelled`: each checked point lies in exactly one inspected block, whose label is
  the one wanted for it. This compares labels, not blocks.
- `Split`, `Mixed`: inspected blocks of one label may hold checked points apart, and
  blocks that are not inspected may hold points wanted differently together.
- `Labelled.together_iff`: but for these, two checked points share a block exactly
  when they are wanted alike.
-/

namespace LabelledBlocks

variable {ι α γ : Type*}

/-- Two points share a block. -/
def Together (mem : ι → α → Prop) (a b : α) : Prop := ∃ i, mem i a ∧ mem i b

/-- Every checked point lies in exactly one inspected block, and its label is wanted. -/
structure Labelled (mem : ι → α → Prop) (inspected : ι → Prop) (label : ι → γ)
    (checked : α → Prop) (wanted : α → γ) : Prop where
  cover : ∀ a, checked a → ∃ i, inspected i ∧ mem i a ∧ label i = wanted a
  unique : ∀ a i j, inspected i → inspected j → mem i a → mem j a → i = j

variable {mem : ι → α → Prop} {inspected : ι → Prop} {label : ι → γ} {checked : α → Prop}
  {wanted : α → γ}

/-- Two inspected blocks of one label that hold checked points apart. -/
def Split (mem : ι → α → Prop) (inspected : ι → Prop) (label : ι → γ) (checked : α → Prop) :
    Prop :=
  ∃ i j a b, inspected i ∧ inspected j ∧ i ≠ j ∧ label i = label j ∧ checked a ∧ checked b ∧
    mem i a ∧ mem j b ∧ ∀ k, ¬ inspected k → ¬ (mem k a ∧ mem k b)

/-- A block that is not inspected holds checked points that are wanted differently. -/
def Mixed (mem : ι → α → Prop) (inspected : ι → Prop) (checked : α → Prop) (wanted : α → γ) :
    Prop :=
  ∃ k a b, ¬ inspected k ∧ checked a ∧ checked b ∧ mem k a ∧ mem k b ∧ wanted a ≠ wanted b

/-- The label of the inspected block of a checked point. -/
theorem Labelled.label_eq (h : Labelled mem inspected label checked wanted) {i : ι} {a : α}
    (hi : inspected i) (ha : checked a) (hmem : mem i a) : label i = wanted a := by
  obtain ⟨j, hj, hmem', hlabel⟩ := h.cover a ha
  rw [h.unique a i j hi hj hmem hmem']
  exact hlabel

/-- Sharing a block is being wanted alike, unless labels are split or hidden blocks mixed. -/
theorem Labelled.together_iff (h : Labelled mem inspected label checked wanted) :
    (∀ a b, checked a → checked b → (Together mem a b ↔ wanted a = wanted b)) ↔
      ¬ Split mem inspected label checked ∧ ¬ Mixed mem inspected checked wanted := by
  constructor
  · intro hiff
    constructor
    · rintro ⟨i, j, a, b, hi, hj, hij, hlabel, ha, hb, hai, hbj, hapart⟩
      have hwanted : wanted a = wanted b := by
        rw [← h.label_eq hi ha hai, hlabel, h.label_eq hj hb hbj]
      obtain ⟨k, hak, hbk⟩ := (hiff a b ha hb).mpr hwanted
      by_cases hk : inspected k
      · exact hij ((h.unique a i k hi hk hai hak).trans (h.unique b k j hk hj hbk hbj))
      · exact hapart k hk ⟨hak, hbk⟩
    · rintro ⟨k, a, b, -, ha, hb, hak, hbk, hne⟩
      exact hne ((hiff a b ha hb).mp ⟨k, hak, hbk⟩)
  · rintro ⟨hsplit, hmixed⟩ a b ha hb
    constructor
    · rintro ⟨k, hak, hbk⟩
      by_cases hk : inspected k
      · rw [← h.label_eq hk ha hak, h.label_eq hk hb hbk]
      · by_contra hne
        exact hmixed ⟨k, a, b, hk, ha, hb, hak, hbk, hne⟩
    · intro hwanted
      obtain ⟨i, hi, hai, hlabeli⟩ := h.cover a ha
      obtain ⟨j, hj, hbj, hlabelj⟩ := h.cover b hb
      by_contra happart
      have hij : i ≠ j := by
        rintro rfl
        exact happart ⟨i, hai, hbj⟩
      have hlabel : label i = label j := by rw [hlabeli, hlabelj, hwanted]
      exact hsplit ⟨i, j, a, b, hi, hj, hij, hlabel, ha, hb, hai, hbj,
        fun k _ hk => happart ⟨k, hk⟩⟩

end LabelledBlocks
