import Mathlib.Data.List.Basic

/-!
# S-expressions as text

- `Node`, `Body`: an S-expression with the white space between its tokens, so that it
  is its text (`Node.render`). Atoms hold no blank, parenthesis or quote, and strings
  are quoted, with backslash escapes and without raw line breaks.
- `oneTab`: in a text that is laid out by tabs, a list opens a line of its own with
  exactly one tab where the text reads line break, tab, parenthesis.
- `Body.passed`: a search for an opening of this kind passes over everything that has
  none.
- `Body.name_iff`: what follows the parenthesis is the name of the list.
- `findFrom_list`: so the search at a list on a line of its own finds it by its name,
  and passes it when that is another.
-/

namespace SExpression

/-! ## Tokens

White space, the characters of an atom, and the items of a string. An escape is one
item, so a quote inside of a string cannot end it.
-/

/-- White space. -/
inductive Blank where
  | space
  | tab
  | newline
  | carriageReturn
  deriving DecidableEq

def Blank.char : Blank → Char
  | .space => ' '
  | .tab => '\t'
  | .newline => '\n'
  | .carriageReturn => '\r'

def whiteSpace : List Char := [' ', '\t', '\n', '\r']

/-- The characters of atoms. -/
def isAtomChar (c : Char) : Bool := c ∉ whiteSpace ++ ['(', ')', '"']

abbrev AtomChar := {c : Char // isAtomChar c}

/-- What a string is made of. -/
inductive StringItem where
  | plain (c : {c : Char // c ≠ '"' ∧ c ≠ '\\' ∧ c ≠ '\n'})
  | escape (c : {c : Char // c ≠ '\n'})

def StringItem.text : StringItem → List Char
  | .plain c => [c.val]
  | .escape c => ['\\', c.val]

/-- The text of white space. -/
def blanks (gap : List Blank) : List Char := gap.map Blank.char

theorem Blank.char_mem (b : Blank) : b.char ∈ whiteSpace := by
  cases b <;> decide

theorem Blank.not_isAtomChar (b : Blank) : isAtomChar b.char = false := by
  cases b <;> decide

theorem AtomChar.not_mem_whiteSpace (c : AtomChar) : c.val ∉ whiteSpace := fun h =>
  of_decide_eq_true c.property (List.mem_append_left _ h)

/-! ## Expressions

The trees with all their white space, so that `render` gives back the text character
by character.
-/

mutual

inductive Node where
  | atom (first : AtomChar) (rest : List AtomChar)
  | string (items : List StringItem)
  | list (body : Body)

/-- What follows the parenthesis that opens a list, to the one that closes it. -/
inductive Body where
  | close (gap : List Blank)
  | item (gap : List Blank) (node : Node) (rest : Body)

end

mutual

def Node.render : Node → List Char
  | .atom first rest => first.val :: rest.map Subtype.val
  | .string items => '"' :: (items.flatMap StringItem.text ++ ['"'])
  | .list body => '(' :: body.render

def Body.render : Body → List Char
  | .close gap => blanks gap ++ [')']
  | .item gap node rest => blanks gap ++ node.render ++ rest.render

end

/-- The white space that a body starts with. -/
def Body.gap : Body → List Blank
  | .close gap => gap
  | .item gap _ _ => gap

/-- The lists among the items of a body. -/
def Body.lists : Body → List Body
  | .close _ => []
  | .item _ (.list body) rest => body :: rest.lists
  | .item _ _ rest => rest.lists

/-- The name of a list: the atom that comes first. -/
def Body.name : Body → Option (List Char)
  | .item _ (.atom first rest) _ => some (first.val :: rest.map Subtype.val)
  | _ => none

/-! ## Layout

Where a tree puts its lines: which lists are on a line of their own after one tab, and
which are deeper. All of this is decided by recursion on the tree.
-/

/-- What follows the white space is on a line of its own, after exactly one tab. -/
def oneTab (gap : List Blank) : Prop := [.newline, .tab] <:+ gap

instance (gap : List Blank) : Decidable (oneTab gap) :=
  inferInstanceAs (Decidable (_ <:+ _))

def Node.isList : Node → Prop
  | .list _ => True
  | _ => False

def Node.isAtom : Node → Prop
  | .atom _ _ => True
  | _ => False

mutual

/-- No list below is on a line of its own after exactly one tab. -/
def Node.Deep : Node → Prop
  | .atom _ _ => True
  | .string _ => True
  | .list body => body.Deep

def Body.Deep : Body → Prop
  | .close _ => True
  | .item gap node rest => (node.isList → ¬ oneTab gap) ∧ node.Deep ∧ rest.Deep

end

/-- The next token is an atom, without white space before it. -/
def Body.touches : Body → Prop
  | .item [] (.atom _ _) _ => True
  | _ => False

mutual

/-- There is white space between two atoms. -/
def Node.Spaced : Node → Prop
  | .atom _ _ => True
  | .string _ => True
  | .list body => body.Spaced

def Body.Spaced : Body → Prop
  | .close _ => True
  | .item _ node rest => (node.isAtom → ¬ rest.touches) ∧ node.Spaced ∧ rest.Spaced

end

/-- The first line of a list ends with the name. -/
def Body.NameLine : Body → Prop
  | .close _ => False
  | .item gap _ rest => gap = [] ∧ rest.gap.head? = some .newline

/-- Every list among the items is on a line of its own after exactly one tab, and all that
is in it is deeper. The lists with one of the names have only the name on that line. -/
def Body.Lines (names : List (List Char)) : Body → Prop
  | .close _ => True
  | .item gap (.list body) rest =>
    oneTab gap ∧ body.Deep ∧ (∀ name ∈ names, body.name = some name → body.NameLine) ∧
      rest.Lines names
  | .item _ _ rest => rest.Lines names

instance : (node : Node) → Decidable node.isList
  | .atom _ _ => isFalse id
  | .string _ => isFalse id
  | .list _ => isTrue trivial

instance : (node : Node) → Decidable node.isAtom
  | .atom _ _ => isTrue trivial
  | .string _ => isFalse id
  | .list _ => isFalse id

instance : (body : Body) → Decidable body.touches
  | .item [] (.atom _ _) _ => isTrue trivial
  | .item [] (.string _) _ => isFalse id
  | .item [] (.list _) _ => isFalse id
  | .item (_ :: _) _ _ => isFalse id
  | .close _ => isFalse id

mutual

def Node.decideDeep : (node : Node) → Decidable node.Deep
  | .atom _ _ => isTrue trivial
  | .string _ => isTrue trivial
  | .list body => body.decideDeep

def Body.decideDeep : (body : Body) → Decidable body.Deep
  | .close _ => isTrue trivial
  | .item gap node rest =>
    have := node.decideDeep
    have := rest.decideDeep
    inferInstanceAs (Decidable ((node.isList → ¬ oneTab gap) ∧ node.Deep ∧ rest.Deep))

end

mutual

def Node.decideSpaced : (node : Node) → Decidable node.Spaced
  | .atom _ _ => isTrue trivial
  | .string _ => isTrue trivial
  | .list body => body.decideSpaced

def Body.decideSpaced : (body : Body) → Decidable body.Spaced
  | .close _ => isTrue trivial
  | .item _ node rest =>
    have := node.decideSpaced
    have := rest.decideSpaced
    inferInstanceAs (Decidable ((node.isAtom → ¬ rest.touches) ∧ node.Spaced ∧ rest.Spaced))

end

instance (body : Body) : Decidable body.Deep := body.decideDeep

instance (body : Body) : Decidable body.Spaced := body.decideSpaced

instance : (body : Body) → Decidable body.NameLine
  | .close _ => isFalse id
  | .item gap _ rest => inferInstanceAs (Decidable (gap = [] ∧ rest.gap.head? = some .newline))

def Body.decideLines (names : List (List Char)) : (body : Body) → Decidable (body.Lines names)
  | .close _ => isTrue trivial
  | .item gap (.list body) rest =>
    have := rest.decideLines names
    inferInstanceAs (Decidable (oneTab gap ∧ body.Deep ∧
      (∀ name ∈ names, body.name = some name → body.NameLine) ∧ rest.Lines names))
  | .item _ (.atom _ _) rest => rest.decideLines names
  | .item _ (.string _) rest => rest.decideLines names

instance (names : List (List Char)) (body : Body) : Decidable (body.Lines names) :=
  body.decideLines names

/-! ## Searching

The first occurrence of a string, and stretches in which none starts (`Passed`). They
compose, so a search over a rendered tree passes its parts one by one.
-/

/-- The place of the first occurrence of `p`, counted from `i`. -/
def findFrom (p : List Char) : List Char → ℕ → Option ℕ
  | [], i => if p = [] then some i else none
  | c :: s, i => if p <+: c :: s then some i else findFrom p s (i + 1)

/-- No occurrence of `p` starts in `u`, whatever follows. -/
def Passed (p u : List Char) : Prop :=
  ∀ v i, findFrom p (u ++ v) i = findFrom p v (i + u.length)

/-- What a list with this name, on a line of its own after one tab, opens with. -/
def opening (name : List Char) : List Char := '\n' :: '\t' :: '(' :: (name ++ ['\n'])

theorem findFrom_cons_of_not {p s : List Char} {c : Char} {i : ℕ} (h : ¬ p <+: c :: s) :
    findFrom p (c :: s) i = findFrom p s (i + 1) := if_neg h

/-- What is found is an occurrence. -/
theorem findFrom_eq_some {p s : List Char} {i k : ℕ} (h : findFrom p s i = some k) :
    ∃ u v, s = u ++ v ∧ p <+: v ∧ k = i + u.length := by
  induction s generalizing i with
  | nil =>
    rw [findFrom] at h
    split_ifs at h with hp
    exact ⟨[], [], rfl, hp ▸ List.prefix_rfl, (Option.some.inj h).symm⟩
  | cons c s ih =>
    rw [findFrom] at h
    split_ifs at h with hp
    · exact ⟨[], c :: s, rfl, hp, (Option.some.inj h).symm⟩
    · obtain ⟨u, v, rfl, hv, rfl⟩ := ih h
      exact ⟨c :: u, v, rfl, hv, by rw [List.length_cons]; omega⟩

theorem Passed.append {p u w : List Char} (hu : Passed p u) (hw : Passed p w) :
    Passed p (u ++ w) := by
  intro v i
  rw [List.append_assoc, hu, hw, List.length_append, Nat.add_assoc]

/-- No occurrence starts where its first character is missing. -/
theorem passed_of_forall_ne {a : Char} {q u : List Char} (h : ∀ c ∈ u, c ≠ a) :
    Passed (a :: q) u := by
  induction u with
  | nil => exact fun _ _ => rfl
  | cons c u ih =>
    intro v i
    have hc : ¬ a :: q <+: c :: (u ++ v) := fun hp =>
      h c List.mem_cons_self (List.cons_prefix_cons.mp hp).1.symm
    rw [List.cons_append, findFrom_cons_of_not hc,
      ih fun d hd => h d (List.mem_cons_of_mem _ hd), List.length_cons]
    congr 1
    omega

section

variable {q : List Char}

/-- In white space an occurrence starts with its last two characters, before a list. -/
theorem eq_of_prefix_blanks {b : Blank} {gap : List Blank} {c : Char} {w : List Char}
    (hc : c ∉ whiteSpace)
    (h : '\n' :: '\t' :: '(' :: q <+: blanks (b :: gap) ++ c :: w) :
    b :: gap = [.newline, .tab] ∧ c = '(' := by
  obtain ⟨hb, h⟩ := List.cons_prefix_cons.mp h
  have hnewline : b = .newline := by cases b <;> first | rfl | exact absurd hb (by decide)
  cases gap with
  | nil => exact absurd ((List.cons_prefix_cons.mp h).1 ▸ Blank.tab.char_mem) hc
  | cons b₂ gap =>
    obtain ⟨hb₂, h⟩ := List.cons_prefix_cons.mp h
    have htab : b₂ = .tab := by cases b₂ <;> first | rfl | exact absurd hb₂ (by decide)
    cases gap with
    | nil => exact ⟨by rw [hnewline, htab], (List.cons_prefix_cons.mp h).1.symm⟩
    | cons b₃ _ =>
      exact absurd ((List.cons_prefix_cons.mp h).1.symm ▸ b₃.char_mem) (by decide)

theorem not_oneTab_tail {b : Blank} {gap : List Blank} (h : ¬ oneTab (b :: gap)) :
    ¬ oneTab gap := fun hgap => h (hgap.trans (List.suffix_cons b gap))

/-- White space is passed unless a list follows on a line of its own after one tab. -/
theorem passed_blanks (gap : List Blank) {c : Char} (hc : c ∉ whiteSpace)
    (hgap : c = '(' → ¬ oneTab gap) : Passed ('\n' :: '\t' :: '(' :: q) (blanks gap ++ [c]) := by
  induction gap with
  | nil =>
    have hnewline : c ≠ '\n' := fun h => hc (h ▸ Blank.newline.char_mem)
    exact passed_of_forall_ne (List.forall_mem_singleton.mpr hnewline)
  | cons b gap ih =>
    intro v i
    have hnot : ¬ '\n' :: '\t' :: '(' :: q <+: b.char :: (blanks gap ++ [c] ++ v) := by
      intro hp
      rw [List.append_assoc] at hp
      obtain ⟨heq, hparen⟩ := eq_of_prefix_blanks hc hp
      exact hgap hparen (heq ▸ List.suffix_rfl)
    show findFrom _ (b.char :: (blanks gap ++ [c] ++ v)) i = _
    rw [findFrom_cons_of_not hnot, ih fun hparen => not_oneTab_tail (hgap hparen)]
    show _ = findFrom _ v (i + ((blanks gap ++ [c]).length + 1))
    congr 1
    omega

/-- The white space before a list on a line of its own after one tab. -/
theorem findFrom_blanks {gap : List Blank} {w : List Char} {i : ℕ} (hgap : oneTab gap) :
    findFrom ('\n' :: '\t' :: '(' :: q) (blanks gap ++ '(' :: w) i =
      if q <+: w then some (i + gap.length - 2)
      else findFrom ('\n' :: '\t' :: '(' :: q) w (i + gap.length + 1) := by
  induction gap generalizing i with
  | nil => exact absurd (List.suffix_nil.mp hgap) (List.cons_ne_nil _ _)
  | cons b gap ih =>
    rcases List.suffix_cons_iff.mp hgap with heq | hgap
    · obtain ⟨rfl, rfl⟩ := List.cons.inj heq
      show findFrom _ ('\n' :: (['\t', '('] ++ w)) i = _
      rw [findFrom]
      refine if_congr ?_ rfl (passed_of_forall_ne (by simp) w (i + 1))
      show _ <+: '\n' :: '\t' :: '(' :: w ↔ _
      simp only [List.cons_prefix_cons, true_and]
    · have hlength : 2 ≤ gap.length := hgap.length_le
      have hnot : ¬ '\n' :: '\t' :: '(' :: q <+: b.char :: (blanks gap ++ '(' :: w) := by
        intro hp
        have heq := (eq_of_prefix_blanks (by decide) hp).1
        rw [(List.cons.inj heq).2] at hlength
        exact absurd hlength (by decide)
      show findFrom _ (b.char :: (blanks gap ++ '(' :: w)) i = _
      rw [findFrom_cons_of_not hnot, ih hgap, List.length_cons]
      congr 2 <;> omega

theorem StringItem.ne_newline (items : List StringItem) :
    ∀ c ∈ items.flatMap StringItem.text, c ≠ '\n' := by
  intro c hc
  obtain ⟨item, -, hc⟩ := List.mem_flatMap.mp hc
  cases item with
  | plain d => exact List.mem_singleton.mp hc ▸ d.property.2.2
  | escape d =>
    rcases List.mem_cons.mp hc with rfl | hc
    · decide
    · exact List.mem_singleton.mp hc ▸ d.property

theorem AtomChar.ne_newline (cs : List AtomChar) :
    ∀ c ∈ cs.map Subtype.val, c ≠ '\n' := by
  intro c hc hnewline
  obtain ⟨d, -, rfl⟩ := List.mem_map.mp hc
  exact AtomChar.not_mem_whiteSpace d (hnewline ▸ Blank.newline.char_mem)

mutual

theorem Node.passed : ∀ (gap : List Blank) (node : Node), (node.isList → ¬ oneTab gap) →
    node.Deep → Passed ('\n' :: '\t' :: '(' :: q) (blanks gap ++ node.render)
  | gap, .atom first rest, _, _ => by
    have hparen : first.val ≠ '(' := fun h => absurd (h ▸ first.property) (by decide)
    have hfirst := passed_blanks (q := q) gap
      (AtomChar.not_mem_whiteSpace first) fun h => absurd h hparen
    have hrest := passed_of_forall_ne (q := '\t' :: '(' :: q) (AtomChar.ne_newline rest)
    simpa [Node.render] using hfirst.append hrest
  | gap, .string items, _, _ => by
    have hopen := passed_blanks (q := q) gap (c := '"') (by decide) nofun
    have hitems := (passed_of_forall_ne (q := '\t' :: '(' :: q)
      (StringItem.ne_newline items)).append (passed_of_forall_ne (u := ['"']) (by simp))
    simpa [Node.render] using hopen.append hitems
  | gap, .list body, hgap, hdeep => by
    have hopen := passed_blanks (q := q) gap (c := '(') (by decide) fun _ => hgap trivial
    simpa [Node.render] using hopen.append (body.passed hdeep)

/-- Nothing in a list is taken for the opening of a list that is not as deep. -/
theorem Body.passed : ∀ body : Body, body.Deep →
    Passed ('\n' :: '\t' :: '(' :: q) body.render
  | .close gap, _ => passed_blanks gap (by decide) nofun
  | .item gap node rest, ⟨hgap, hnode, hrest⟩ =>
    (node.passed gap hgap hnode).append (rest.passed hrest)

end

end

/-! ## Names

Two lists with the same text up to the end of the name have the same name: an atom
ends where a character comes that cannot be part of it.
-/

theorem takeWhile_of_head {c : Char} {s : List Char} (h : isAtomChar c = false) :
    (c :: s).takeWhile isAtomChar = [] := List.takeWhile_cons_of_neg (by rw [h]; exact nofun)

theorem takeWhile_blanks (b : Blank) (gap : List Blank) (v : List Char) :
    (blanks (b :: gap) ++ v).takeWhile isAtomChar = [] := takeWhile_of_head b.not_isAtomChar

/-- Characters of atoms at the start of a body belong to its first item. -/
theorem Body.takeWhile_of_not_touches : ∀ {body : Body} (v : List Char), ¬ body.touches →
    (body.render ++ v).takeWhile isAtomChar = []
  | .close [], _, _ => takeWhile_of_head rfl
  | .close (b :: gap), v, _ => by
    rw [Body.render, List.append_assoc]
    exact takeWhile_blanks b gap _
  | .item (b :: gap) node rest, v, _ => by
    rw [Body.render, List.append_assoc, List.append_assoc]
    exact takeWhile_blanks b gap _
  | .item [] (.atom _ _) _, _, h => absurd trivial h
  | .item [] (.string _) _, _, _ => takeWhile_of_head rfl
  | .item [] (.list _) _, _, _ => takeWhile_of_head rfl

/-- Where it starts with an atom, these characters are its name. -/
theorem Body.takeWhile_of_touches {body : Body} (v : List Char) (hspaced : body.Spaced)
    (h : body.touches) : some ((body.render ++ v).takeWhile isAtomChar) = body.name := by
  match body, hspaced, h with
  | .item [] (.atom first rest) tail, ⟨hatom, _, _⟩, _ =>
    have hfirst : ∀ c ∈ first.val :: rest.map Subtype.val, isAtomChar c := by
      simpa using ⟨first.property, fun c hc _ => hc⟩
    show some ((first.val :: rest.map Subtype.val ++ tail.render ++ v).takeWhile isAtomChar) = _
    rw [List.append_assoc, List.takeWhile_append_of_pos hfirst,
      tail.takeWhile_of_not_touches v (hatom trivial), List.append_nil]
    rfl

theorem Body.render_of_head_gap {body : Body} (h : body.gap.head? = some .newline) :
    ['\n'] <+: body.render := by
  cases body with
  | close gap =>
    obtain ⟨gap, rfl⟩ := List.head?_eq_some_iff.mp h
    exact ⟨_, rfl⟩
  | item gap node rest =>
    obtain ⟨gap, rfl⟩ := List.head?_eq_some_iff.mp h
    exact ⟨_, rfl⟩

/-- The name of a list can be read off its first line. -/
theorem Body.name_iff {body : Body} {name : List Char} (v : List Char)
    (hname : name ≠ [] ∧ name.all isAtomChar) (hspaced : body.Spaced)
    (hline : body.name = some name → body.NameLine) :
    name ++ ['\n'] <+: body.render ++ v ↔ body.name = some name := by
  constructor
  · rintro ⟨s, hs⟩
    have htake : (body.render ++ v).takeWhile isAtomChar = name := by
      rw [← hs, List.append_assoc, List.takeWhile_append_of_pos (List.all_eq_true.mp hname.2)]
      exact (congrArg (name ++ ·) (takeWhile_of_head rfl)).trans (List.append_nil name)
    by_cases htouches : body.touches
    · rw [← body.takeWhile_of_touches v hspaced htouches, htake]
    · exact absurd (htake ▸ body.takeWhile_of_not_touches v htouches) hname.1
  · intro h
    match body, h, hline h with
    | .item _ (.atom first rest) tail, h, ⟨rfl, hgap⟩ =>
      obtain ⟨s, hs⟩ := tail.render_of_head_gap hgap
      refine ⟨s ++ v, ?_⟩
      rw [← Option.some.inj h]
      simp [Body.render, Node.render, blanks, ← hs]

/-- The search at a list on a line of its own after one tab: it is found by its name, and
passed when that is another. -/
theorem findFrom_list (gap : List Blank) (body : Body) {name : List Char} (v : List Char) (i : ℕ)
    (hname : name ≠ [] ∧ name.all isAtomChar) (hgap : oneTab gap) (hdeep : body.Deep)
    (hspaced : body.Spaced) (hline : body.name = some name → body.NameLine) :
    findFrom (opening name) (blanks gap ++ (Node.list body).render ++ v) i =
      if body.name = some name then some (i + gap.length - 2)
      else findFrom (opening name) v (i + gap.length + (Node.list body).render.length) := by
  show findFrom _ (blanks gap ++ '(' :: body.render ++ v) i = _
  rw [List.append_assoc, opening]
  show findFrom _ (blanks gap ++ '(' :: (body.render ++ v)) i = _
  rw [findFrom_blanks hgap]
  refine if_congr (Body.name_iff v hname hspaced hline) rfl ?_
  rw [body.passed hdeep]
  congr 1
  show _ = i + gap.length + (body.render.length + 1)
  omega

end SExpression
