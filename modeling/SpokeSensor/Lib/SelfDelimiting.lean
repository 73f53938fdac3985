import Mathlib.Data.List.Lex
import Mathlib.Data.List.Sort

/-!
# Self-delimiting blocks

A family of blocks is self-delimiting when a block can be told from whatever follows
it (`Delimits`).

- `Delimits.eq_of_intercalate_eq`: joining such blocks loses nothing, not even when
  the separator occurs inside a block.
- `Delimits.intercalate_sorted_iff`: blocks that are sorted and joined are determined
  up to their order, so a digest of the sorted blocks is one of the multiset.
-/

namespace SelfDelimiting

universe u

variable {α : Type u}

/-- `len` measures the block that a text starts with. -/
structure Delimits (len : List α → ℕ) (Block : List α → Prop) : Prop where
  length_eq : ∀ b v, Block b → len (b ++ v) = b.length
  ne_nil : ∀ b, Block b → b ≠ []

variable {len : List α → ℕ} {Block : List α → Prop}

/-- The first block of a text, and what follows it. -/
theorem Delimits.append_inj (h : Delimits len Block) {b c v w : List α} (hb : Block b)
    (hc : Block c) (heq : b ++ v = c ++ w) : b = c ∧ v = w := by
  have hlength : b.length = c.length := by
    rw [← h.length_eq b v hb, ← h.length_eq c w hc, heq]
  exact List.append_inj heq hlength

theorem intercalate_cons (sep b : List α) (bs : List (List α)) :
    sep.intercalate (b :: bs) = b ++ bs.flatMap (sep ++ ·) := by
  induction bs generalizing b with
  | nil => rw [List.intercalate_singleton, List.flatMap_nil, List.append_nil]
  | cons c bs ih => rw [List.intercalate_cons_cons, ih, List.flatMap_cons, List.append_assoc,
      List.append_assoc]

theorem Delimits.append_ne_nil (h : Delimits len Block) {u b v : List α} (hb : Block b) :
    u ++ b ++ v ≠ [] := by
  intro hnil
  rw [List.append_eq_nil_iff, List.append_eq_nil_iff] at hnil
  exact h.ne_nil b hb hnil.1.2

/-- Blocks, each behind the separator. -/
theorem Delimits.eq_of_flatMap_eq (h : Delimits len Block) {sep : List α} {bs cs : List (List α)}
    (hbs : ∀ b ∈ bs, Block b) (hcs : ∀ c ∈ cs, Block c)
    (heq : bs.flatMap (sep ++ ·) = cs.flatMap (sep ++ ·)) : bs = cs := by
  induction bs generalizing cs with
  | nil =>
    cases cs with
    | nil => rfl
    | cons c cs => exact absurd heq.symm (h.append_ne_nil (hcs c List.mem_cons_self))
  | cons b bs ih =>
    cases cs with
    | nil => exact absurd heq (h.append_ne_nil (hbs b List.mem_cons_self))
    | cons c cs =>
      rw [List.flatMap_cons, List.flatMap_cons, List.append_assoc, List.append_assoc] at heq
      obtain ⟨rfl, hrest⟩ := h.append_inj (hbs b List.mem_cons_self) (hcs c List.mem_cons_self)
        (List.append_cancel_left heq)
      rw [ih (fun d hd => hbs d (List.mem_cons_of_mem _ hd))
        (fun d hd => hcs d (List.mem_cons_of_mem _ hd)) hrest]

/-- Joining loses no boundary. -/
theorem Delimits.eq_of_intercalate_eq (h : Delimits len Block) {sep : List α}
    {bs cs : List (List α)} (hbs : ∀ b ∈ bs, Block b) (hcs : ∀ c ∈ cs, Block c)
    (heq : sep.intercalate bs = sep.intercalate cs) : bs = cs := by
  cases bs with
  | nil =>
    cases cs with
    | nil => rfl
    | cons c cs =>
      rw [intercalate_cons] at heq
      exact absurd heq.symm (h.append_ne_nil (u := []) (hcs c List.mem_cons_self))
  | cons b bs =>
    cases cs with
    | nil =>
      rw [intercalate_cons] at heq
      exact absurd heq (h.append_ne_nil (u := []) (hbs b List.mem_cons_self))
    | cons c cs =>
      rw [intercalate_cons, intercalate_cons] at heq
      obtain ⟨rfl, hrest⟩ :=
        h.append_inj (hbs b List.mem_cons_self) (hcs c List.mem_cons_self) heq
      rw [h.eq_of_flatMap_eq (fun d hd => hbs d (List.mem_cons_of_mem _ hd))
        (fun d hd => hcs d (List.mem_cons_of_mem _ hd)) hrest]

section

variable [LinearOrder α]

theorem insertionSort_eq_iff {bs cs : List (List α)} :
    bs.insertionSort (· ≤ ·) = cs.insertionSort (· ≤ ·) ↔ bs.Perm cs := by
  constructor
  · intro heq
    exact (List.perm_insertionSort _ bs).symm.trans (heq ▸ List.perm_insertionSort _ cs)
  · intro hperm
    have hsorted := (List.perm_insertionSort (· ≤ ·) bs).trans
      (hperm.trans (List.perm_insertionSort (· ≤ ·) cs).symm)
    exact hsorted.eq_of_sortedLE List.sortedLE_insertionSort List.sortedLE_insertionSort

/-- Blocks that are sorted and joined are determined up to their order. -/
theorem Delimits.intercalate_sorted_iff (h : Delimits len Block) {sep : List α}
    {bs cs : List (List α)} (hbs : ∀ b ∈ bs, Block b) (hcs : ∀ c ∈ cs, Block c) :
    sep.intercalate (bs.insertionSort (· ≤ ·)) = sep.intercalate (cs.insertionSort (· ≤ ·)) ↔
      bs.Perm cs := by
  rw [← insertionSort_eq_iff]
  constructor
  · exact h.eq_of_intercalate_eq (fun b hb => hbs b ((List.mem_insertionSort _).mp hb))
      (fun c hc => hcs c ((List.mem_insertionSort _).mp hc))
  · exact congrArg _

end

end SelfDelimiting
