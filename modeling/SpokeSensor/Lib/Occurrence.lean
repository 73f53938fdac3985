import Mathlib.Data.List.Infix

/-!
# Where a text occurs

- `occursIn`: the test `p in s` of texts.
- `infix_intercalate`: what contains no line end and occurs in lines that are joined
  by line ends occurs in one of them.
- `not_pair_flatten`: two neighbouring characters of a concatenation are neighbours in
  a piece or meet where two pieces do.
- `stamp_iff`: a header that only one line holds, with as many characters as that line
  has after it, occurs exactly if they are the same.
-/

namespace Occurrence

variable {α : Type*}

/-- `p in s` -/
def occursIn [DecidableEq α] (p : List α) : List α → Bool
  | [] => p.isPrefixOf []
  | c :: s => p.isPrefixOf (c :: s) || occursIn p s

theorem occursIn_iff [DecidableEq α] {p s : List α} : occursIn p s = true ↔ p <:+: s := by
  induction s with
  | nil => rw [occursIn, List.isPrefixOf_iff_prefix, List.prefix_nil, List.infix_nil]
  | cons c s ih =>
    rw [occursIn, Bool.or_eq_true, List.isPrefixOf_iff_prefix, ih, List.infix_cons_iff]

/-! ## Lines

A string without a line break occurs in a text exactly if it occurs in one of its
lines.
-/

/-- What does not contain the separator occurs on one side of it. -/
theorem infix_append_cons {p a b : List α} {c : α} (hc : c ∉ p) (h : p <:+: a ++ c :: b) :
    p <:+: a ∨ p <:+: b := by
  obtain ⟨x, y, hxy⟩ := h
  rw [List.append_assoc] at hxy
  rcases List.append_eq_append_iff.mp hxy with ⟨a', ha, hpy⟩ | ⟨x', -, hcb⟩
  · rcases List.append_eq_append_iff.mp hpy with ⟨a'', ha', -⟩ | ⟨p'', hp, hcb⟩
    · exact .inl ⟨x, a'', by rw [ha, ha', List.append_assoc]⟩
    · cases p'' with
      | nil => exact .inl ⟨x, [], by rw [ha, hp, List.append_nil, List.append_nil]⟩
      | cons d p'' =>
        have hmem : d ∈ p := hp ▸ List.mem_append_right _ (List.mem_cons_self ..)
        exact absurd ((List.cons.inj hcb).1 ▸ hmem) hc
  · cases x' with
    | nil =>
      cases p with
      | nil => exact .inl List.nil_infix
      | cons d p => exact absurd ((List.cons.inj hcb).1 ▸ List.mem_cons_self ..) hc
    | cons d x' => exact .inr ⟨x', y, by rw [(List.cons.inj hcb).2, List.append_assoc]; rfl⟩

theorem infix_intercalate {p : List α} {c : α} {lines : List (List α)} (hc : c ∉ p) (hp : p ≠ [])
    (h : p <:+: [c].intercalate lines) : ∃ line ∈ lines, p <:+: line := by
  induction lines with
  | nil => exact absurd (List.infix_nil.mp h) hp
  | cons line lines ih =>
    cases lines with
    | nil =>
      rw [List.intercalate_singleton] at h
      exact ⟨line, List.mem_singleton_self line, h⟩
    | cons next lines =>
      rw [List.intercalate_cons_cons, List.append_assoc, List.singleton_append] at h
      rcases infix_append_cons hc h with h | h
      · exact ⟨line, List.mem_cons_self .., h⟩
      · obtain ⟨found, hmem, hfound⟩ := ih h
        exact ⟨found, List.mem_cons_of_mem _ hmem, hfound⟩

theorem infix_intercalate_of_mem {p sep line : List α} {lines : List (List α)} (hmem : line ∈ lines)
    (h : p <:+: line) : p <:+: sep.intercalate lines := by
  induction lines with
  | nil => exact absurd hmem List.not_mem_nil
  | cons first lines ih =>
    cases lines with
    | nil =>
      rw [List.mem_singleton] at hmem
      rwa [List.intercalate_singleton, ← hmem]
    | cons next lines =>
      rw [List.intercalate_cons_cons, List.append_assoc]
      rcases List.mem_cons.mp hmem with rfl | hmem
      · exact h.trans (List.prefix_append _ _).isInfix
      · refine (ih hmem).trans (List.IsSuffix.isInfix ?_)
        exact (List.suffix_append ..).trans (List.suffix_append ..)

/-! ## Neighbours

Two neighbouring characters of a concatenation are neighbours in one of its pieces, or
meet at a border.
-/

/-- Neighbours in a concatenation. -/
theorem pair_append {a b : α} {l m : List α} (h : [a, b] <:+: l ++ m) :
    [a, b] <:+: l ∨ [a, b] <:+: m ∨ m.head? = some b := by
  obtain ⟨x, y, hxy⟩ := h
  rw [List.append_assoc] at hxy
  rcases List.append_eq_append_iff.mp hxy with ⟨l', hl, hm⟩ | ⟨x', -, hm⟩
  · match l' with
    | [] => exact .inr (.inl ⟨[], y, hm⟩)
    | [_] =>
      have hm : b :: y = m := (List.cons.inj hm).2
      exact .inr (.inr (by rw [← hm]; rfl))
    | _ :: _ :: l' =>
      obtain ⟨ha, hm⟩ := List.cons.inj hm
      exact .inl ⟨x, l', by rw [hl, ha, (List.cons.inj hm).1]; simp⟩
  · exact .inr (.inl ⟨x', y, by rw [hm, List.append_assoc]⟩)

/-- Two characters that are neighbours in no piece, where no piece begins with the second. -/
theorem not_pair_flatten {a b : α} {pieces : List (List α)}
    (hpair : ∀ p ∈ pieces, ¬ [a, b] <:+: p) (hhead : ∀ p ∈ pieces, p.head? ≠ some b) :
    ¬ [a, b] <:+: pieces.flatten ∧ pieces.flatten.head? ≠ some b := by
  induction pieces with
  | nil => exact ⟨by simp, by simp⟩
  | cons p pieces ih =>
    obtain ⟨hrest, hrestHead⟩ := ih (fun q hq => hpair q (List.mem_cons_of_mem _ hq))
      fun q hq => hhead q (List.mem_cons_of_mem _ hq)
    rw [List.flatten_cons]
    constructor
    · intro h
      rcases pair_append h with h | h | h
      · exact hpair p (List.mem_cons_self ..) h
      · exact hrest h
      · exact hrestHead h
    · cases p with
      | nil => exact hrestHead
      | cons c p => exact hhead (c :: p) (List.mem_cons_self ..)

theorem not_pair_of_notMem {a b : α} {l : List α} (h : b ∉ l) : ¬ [a, b] <:+: l :=
  fun hpair => h (hpair.subset (by simp))

/-! ## Headers

A header that occurs once tells what follows it.
-/

/-- A header that does not begin within `before` occurs in `before ++ header ++ d` at its
place only. -/
theorem stamp_unique {before header d d' : List α} {c : α} (hc : header.head? = some c)
    (hbefore : c ∉ before) (hlength : d'.length = d.length)
    (h : header ++ d' <:+: before ++ (header ++ d)) : d' = d := by
  obtain ⟨x, y, hxy⟩ := h
  have hsum : x.length + y.length = before.length := by
    have := congrArg List.length hxy
    simp only [List.length_append] at this
    omega
  obtain ⟨rest, rfl⟩ : ∃ rest, header = c :: rest := by
    cases header with
    | nil => cases hc
    | cons b rest => exact ⟨rest, by rw [Option.some.inj hc]⟩
  rw [List.append_assoc] at hxy
  rcases List.append_eq_append_iff.mp hxy with ⟨b', rfl, htail⟩ | ⟨x', rfl, htail⟩
  · cases b' with
    | nil =>
      simp only [List.append_nil, List.nil_append] at htail hsum
      have hy : y = [] := List.length_eq_zero_iff.mp (by omega)
      rw [hy, List.append_nil] at htail
      exact List.append_cancel_left htail
    | cons b b' =>
      obtain ⟨rfl, -⟩ := List.cons.inj htail
      exact absurd (List.mem_append_right _ (List.mem_cons_self ..)) hbefore
  · rw [List.length_append] at hsum
    have hx : x' = [] := List.length_eq_zero_iff.mp (by omega)
    have hy : y = [] := List.length_eq_zero_iff.mp (by omega)
    subst hx hy
    rw [List.nil_append, List.append_nil] at htail
    exact (List.append_cancel_left htail).symm

/-- Where only one line holds the header, a text with the header and as many characters as
that line has after it is that line's. -/
theorem stamp_iff {lines : List (List α)} {before header d d' : List α} {c sep : α}
    (hc : header.head? = some c) (hbefore : c ∉ before) (hsep : sep ∉ header ++ d')
    (hlength : d'.length = d.length) (hline : before ++ (header ++ d) ∈ lines)
    (hothers : ∀ line ∈ lines, line = before ++ (header ++ d) ∨ ¬ header <:+: line) :
    header ++ d' <:+: [sep].intercalate lines ↔ d' = d := by
  have hne : header ++ d' ≠ [] := by
    intro h
    rw [List.append_eq_nil_iff] at h
    rw [h.1] at hc
    cases hc
  constructor
  · intro h
    obtain ⟨line, hmem, hinfix⟩ := infix_intercalate hsep hne h
    rcases hothers line hmem with rfl | hno
    · exact stamp_unique hc hbefore hlength hinfix
    · exact absurd ((List.prefix_append ..).isInfix.trans hinfix) hno
  · rintro rfl
    exact infix_intercalate_of_mem hline (List.suffix_append ..).isInfix

end Occurrence
