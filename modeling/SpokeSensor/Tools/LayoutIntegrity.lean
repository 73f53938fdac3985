import SpokeSensor.Lib.SExpression
import SpokeSensor.Lib.Loops
import SpokeSensor.Lib.SelfDelimiting
import SpokeSensor.Server.PyNumber
import Mathlib.Data.Char
import Mathlib.Data.List.Perm.Basic
import Mathlib.Data.Multiset.Defs
import Mathlib.Logic.Function.Basic

/-!
# The signature of the routing (`hardware/ir_spoke_link/layout_integrity.py:41–81`)

`route_text_signature` reads a board as text. It searches for the lines that open a
segment, via or arc (43–50), and a scanner with a depth and two flags finds where each
one ends (51–74). The blocks are sorted, joined and hashed (79–81).

- `find`, `scan`, `collect`: the search, the scanner, and the outer loop with its
  fuel; `exists_routeTextSignature` says that there is enough of it for every text.
- `scan_node`, `scan_body`: on an S-expression the scanner comes out as it went in,
  and stops at the end of the list that it has started with.
- `Board`: a board as text that is laid out by tabs, and `collectBlocks_text`: the
  blocks are its segments, vias and arcs, each once and verbatim.
- `signature_identifies_routes`: two boards have the same signature exactly when these
  agree as multisets, if no two byte strings have the same digest.

A string is the list of its characters. `sha256` stands for the hexadecimal digest
that `hashlib` gives.
-/

namespace SpokeSensor.LayoutIntegrity

open SExpression SelfDelimiting LocalServer

/-! ## The source

Three searches over the text, one for each kind of expression
(`layout_integrity.py:43–76`). `find` and the scan for the closing bracket are as in
the source; the loops take fuel, since each round starts behind the block of the last
one.
-/

/-- The expressions that are searched for, in this order. -/
def expressions : List (List Char) := ["segment".toList, "via".toList, "arc".toList]

/-- `f"\\n\\t({expression}\\n"` -/
def linePrefix (expression : List Char) : List Char :=
  ['\n', '\t', '('] ++ expression ++ ['\n']

/-- `text.find(p, cursor)`, where `-1` is `none` -/
def find (text p : List Char) (cursor : ℕ) : Option ℕ := findFrom p (text.drop cursor) cursor

/-- The inner loop (55–74), over the characters from `stop` on: where it leaves the
`end`. A quote opens and closes a string, a backslash inside it takes the next
character along, and the parentheses outside strings are counted. -/
def scan : List Char → (depth : ℤ) → (quoted escaped : Bool) → (stop : ℕ) → ℕ
  | [], _, _, _, stop => stop
  | character :: rest, depth, quoted, escaped, stop =>
    if quoted then
      if escaped then scan rest depth quoted false (stop + 1)
      else if character = '\\' then scan rest depth quoted true (stop + 1)
      else if character = '"' then scan rest depth false escaped (stop + 1)
      else scan rest depth quoted escaped (stop + 1)
    else if character = '"' then scan rest depth true escaped (stop + 1)
    else if character = '(' then scan rest (depth + 1) quoted escaped (stop + 1)
    else if character = ')' then
      if depth - 1 = 0 then stop + 1 else scan rest (depth - 1) quoted escaped (stop + 1)
    else scan rest depth quoted escaped (stop + 1)

/-- `text[start:stop]` -/
def slice (text : List Char) (start stop : ℕ) : List Char := (text.drop start).take (stop - start)

/-- The outer loop for one expression (43–76), from `cursor`: the blocks that it
appends. Without enough fuel there is no result. -/
def collect (text expression : List Char) : (fuel cursor : ℕ) → Option (List (List Char))
  | 0, _ => none
  | fuel + 1, cursor =>
    match find text (linePrefix expression) cursor with
    | none => some []
    | some found =>
      let start := found + 1
      let stop := scan (text.drop start) 0 false false start
      (collect text expression fuel stop).map (slice text start stop :: ·)

/-- `blocks` -/
def collectBlocks (fuel : ℕ) (text : List Char) : Option (List (List Char)) := do
  let blocks ← expressions.mapM fun expression => collect text expression fuel 0
  return blocks.flatten

/-- `hashlib.sha256("\n".join(sorted(blocks)).encode("utf-8")).hexdigest()` -/
def hexdigest {D : Type} (sha256 : ByteArray → D) (blocks : List (List Char)) : D :=
  sha256 (String.ofList (['\n'].intercalate (blocks.insertionSort (· ≤ ·)))).toUTF8

/-- What is made of the `blocks`. -/
def signBlocks {D : Type} (sha256 : ByteArray → D) (blocks : List (List Char)) :
    Except PyError D :=
  if blocks = [] then
    .error (.valueError "No routed segment, via or arc expressions found")
  else
    .ok (hexdigest sha256 blocks)

/-- `route_text_signature` (41–81) -/
def routeTextSignature {D : Type} (sha256 : ByteArray → D) (fuel : ℕ) (text : List Char) :
    Option (Except PyError D) :=
  (collectBlocks fuel text).map (signBlocks sha256)

/-! ## Termination

A round of `collect` moves the cursor on, since the scan passes at least the bracket
that it starts at. So fuel beyond the length of the text is enough, and more of it
changes nothing.
-/

/-- One character is read in every round. -/
theorem scan_cons (character : Char) (rest : List Char) (depth : ℤ) (quoted escaped : Bool)
    (stop : ℕ) :
    scan (character :: rest) depth quoted escaped stop = stop + 1 ∨
      ∃ depth' quoted' escaped', scan (character :: rest) depth quoted escaped stop =
        scan rest depth' quoted' escaped' (stop + 1) := by
  rw [scan]
  split_ifs <;> first | exact .inl rfl | exact .inr ⟨_, _, _, rfl⟩

/-- The scan ends within the text. -/
theorem scan_mem_Icc (text : List Char) (depth : ℤ) (quoted escaped : Bool) (stop : ℕ) :
    stop ≤ scan text depth quoted escaped stop ∧
      scan text depth quoted escaped stop ≤ stop + text.length := by
  induction text generalizing depth quoted escaped stop with
  | nil => exact ⟨le_rfl, le_rfl⟩
  | cons character rest ih =>
    rw [List.length_cons]
    rcases scan_cons character rest depth quoted escaped stop
      with h | ⟨depth', quoted', escaped', h⟩
    · omega
    · have := ih depth' quoted' escaped' (stop + 1)
      omega

/-- It passes at least one character. -/
theorem lt_scan {text : List Char} (htext : text ≠ []) (depth : ℤ) (quoted escaped : Bool)
    (stop : ℕ) : stop < scan text depth quoted escaped stop := by
  obtain ⟨character, rest, rfl⟩ := List.exists_cons_of_ne_nil htext
  rcases scan_cons character rest depth quoted escaped stop with h | ⟨depth', quoted', escaped', h⟩
  · omega
  · have := (scan_mem_Icc rest depth' quoted' escaped' (stop + 1)).1
    omega

/-- What is found is inside the text, and so is the character behind its line break. -/
theorem find_bounds {text expression : List Char} {cursor found : ℕ}
    (h : find text (linePrefix expression) cursor = some found) :
    cursor ≤ found ∧ found + 1 < text.length := by
  obtain ⟨u, v, htext, hv, rfl⟩ := findFrom_eq_some h
  have hdrop := congrArg List.length htext
  have hlength := hv.length_le
  simp only [linePrefix, List.length_append, List.length_cons, List.length_drop] at hdrop hlength
  omega

/-- With enough fuel the loop comes to an end, always with the same blocks. -/
theorem exists_collect (text expression : List Char) (cursor : ℕ) :
    ∃ blocks, ∀ fuel, text.length - cursor < fuel →
      collect text expression fuel cursor = some blocks := by
  -- the cursor moves on, so what is left of the text gets shorter
  induction hleft : text.length - cursor using Nat.strong_induction_on generalizing cursor with
  | _ left ih =>
    subst hleft
    cases hfind : find text (linePrefix expression) cursor with
    | none =>
      refine ⟨[], fun fuel hfuel => ?_⟩
      cases fuel with
      | zero => exact absurd hfuel (Nat.not_lt_zero _)
      | succ fuel => rw [collect, hfind]
    | some found =>
      have hfound := find_bounds hfind
      have hrest : text.drop (found + 1) ≠ [] := List.drop_eq_nil_iff.not.mpr (by omega)
      have hstop := lt_scan hrest 0 false false (found + 1)
      set stop := scan (text.drop (found + 1)) 0 false false (found + 1)
      obtain ⟨blocks, hblocks⟩ := ih (text.length - stop) (by omega) stop rfl
      refine ⟨slice text (found + 1) stop :: blocks, fun fuel hfuel => ?_⟩
      cases fuel with
      | zero => exact absurd hfuel (Nat.not_lt_zero _)
      | succ fuel =>
        rw [collect, hfind]
        show (collect text expression fuel stop).map _ = _
        rw [hblocks fuel (by omega)]
        rfl

theorem exists_collectBlocks (text : List Char) :
    ∃ blocks, ∀ fuel, text.length < fuel → collectBlocks fuel text = some blocks := by
  choose blocks hblocks using fun expression => exists_collect text expression 0
  refine ⟨(expressions.map blocks).flatten, fun fuel hfuel => ?_⟩
  rw [collectBlocks, Loops.mapM_eq_pure fun expression _ => hblocks expression fuel hfuel]
  rfl

theorem exists_routeTextSignature {D : Type} (sha256 : ByteArray → D) (text : List Char) :
    ∃ result, ∀ fuel, text.length < fuel →
      routeTextSignature sha256 fuel text = some result := by
  obtain ⟨blocks, hblocks⟩ := exists_collectBlocks text
  refine ⟨signBlocks sha256 blocks, fun fuel hfuel => ?_⟩
  rw [routeTextSignature, hblocks fuel hfuel]
  rfl

/-! ## The scanner and the grammar

The scanner counts brackets outside of strings. On the text of an expression
(`SExpression`) it stops exactly behind its closing bracket, whatever comes after it:
brackets in strings are passed over, and so are escaped quotes.
-/

/-- The characters that the scanner passes over outside a string. -/
theorem scan_plain {u : List Char} (hu : ∀ c ∈ u, c ≠ '"' ∧ c ≠ '(' ∧ c ≠ ')') (v : List Char)
    (depth : ℤ) (stop : ℕ) :
    scan (u ++ v) depth false false stop = scan v depth false false (stop + u.length) := by
  induction u generalizing stop with
  | nil => rfl
  | cons c u ih =>
    obtain ⟨hquote, hopen, hclose⟩ := hu c List.mem_cons_self
    rw [List.cons_append, scan, if_neg Bool.false_ne_true, if_neg hquote, if_neg hopen,
      if_neg hclose, ih fun d hd => hu d (List.mem_cons_of_mem _ hd), List.length_cons]
    congr 1
    omega

/-- A string is left by its own quote, and by none that is escaped. -/
theorem scan_string (items : List StringItem) (v : List Char) (depth : ℤ) (stop : ℕ) :
    scan (items.flatMap StringItem.text ++ '"' :: v) depth true false stop =
      scan v depth false false (stop + (items.flatMap StringItem.text).length + 1) := by
  induction items generalizing stop with
  | nil => rfl
  | cons item items ih =>
    cases item with
    | plain c =>
      show scan (c.val :: (items.flatMap StringItem.text ++ '"' :: v)) depth true false stop = _
      rw [scan, if_pos rfl, if_neg Bool.false_ne_true, if_neg c.property.2.1, if_neg c.property.1,
        ih]
      simp [StringItem.text]
      congr 1
      omega
    | escape c =>
      show scan ('\\' :: c.val :: (items.flatMap StringItem.text ++ '"' :: v)) depth true false stop
        = _
      rw [scan, if_pos rfl, if_neg Bool.false_ne_true, if_pos rfl, scan, if_pos rfl, if_pos rfl, ih]
      simp [StringItem.text]
      congr 1
      omega

theorem scan_quote (v : List Char) (depth : ℤ) (stop : ℕ) :
    scan ('"' :: v) depth false false stop = scan v depth true false (stop + 1) := rfl

theorem scan_open (v : List Char) (depth : ℤ) (stop : ℕ) :
    scan ('(' :: v) depth false false stop = scan v (depth + 1) false false (stop + 1) := rfl

theorem scan_close (v : List Char) (depth : ℤ) (stop : ℕ) :
    scan (')' :: v) depth false false stop =
      if depth - 1 = 0 then stop + 1 else scan v (depth - 1) false false (stop + 1) := rfl

theorem blanks_plain (gap : List Blank) : ∀ c ∈ blanks gap, c ≠ '"' ∧ c ≠ '(' ∧ c ≠ ')' := by
  intro c hc
  obtain ⟨b, -, rfl⟩ := List.mem_map.mp hc
  cases b <;> decide

theorem atom_plain (cs : List AtomChar) :
    ∀ c ∈ cs.map Subtype.val, c ≠ '"' ∧ c ≠ '(' ∧ c ≠ ')' := by
  intro c hc
  obtain ⟨d, -, rfl⟩ := List.mem_map.mp hc
  refine ⟨?_, ?_, ?_⟩ <;> exact fun h => absurd (h ▸ d.property) (by decide)

mutual

/-- Inside a list the scanner comes out of an expression as it went in: at the same
depth, outside a string. By induction on the expression, with one case for each kind
of token. -/
theorem scan_node : ∀ (node : Node) (v : List Char) {depth : ℤ} (stop : ℕ), 1 ≤ depth →
    scan (node.render ++ v) depth false false stop =
      scan v depth false false (stop + node.render.length)
  | .atom first rest, v, depth, stop, _ => scan_plain (atom_plain (first :: rest)) v depth stop
  | .string items, v, depth, stop, _ => by
    have hrender : (Node.string items).render ++ v =
        '"' :: (items.flatMap StringItem.text ++ '"' :: v) := by
      simp [Node.render]
    have hlength : (Node.string items).render.length =
        (items.flatMap StringItem.text).length + 2 := by
      simp [Node.render]
    rw [hrender, scan_quote, scan_string, hlength]
    congr 1
    omega
  | .list body, v, depth, stop, hdepth => by
    have hlength : (Node.list body).render.length = body.render.length + 1 := rfl
    show scan ('(' :: (body.render ++ v)) depth false false stop = _
    rw [scan_open, scan_body body v (stop + 1) (by omega), if_neg (by omega), hlength]
    congr 1 <;> omega

/-- The scanner goes from a body back to the depth outside the list, and stops at the end
of the list that it has started with. -/
theorem scan_body : ∀ (body : Body) (v : List Char) {depth : ℤ} (stop : ℕ), 1 ≤ depth →
    scan (body.render ++ v) depth false false stop =
      if depth - 1 = 0 then stop + body.render.length
      else scan v (depth - 1) false false (stop + body.render.length)
  | .close gap, v, depth, stop, hdepth => by
    rw [Body.render, List.append_assoc, scan_plain (blanks_plain gap), List.length_append]
    exact scan_close v depth (stop + (blanks gap).length)
  | .item gap node rest, v, depth, stop, hdepth => by
    rw [Body.render, List.append_assoc, List.append_assoc, scan_plain (blanks_plain gap),
      scan_node node _ _ hdepth, scan_body rest v _ hdepth, List.length_append, List.length_append]
    simp only [Nat.add_assoc]

end

/-! ## Boards

A board as KiCad writes it: one item of the root on a line after one tab. On such a
text the prefix that is searched for occurs exactly at the items of that name, so the
blocks are these items.
-/

/-- The text of a board that is laid out by tabs: each list among the items of the root is
on a line of its own after exactly one tab, those that are searched for have only their
name on that line, and no list below is on a line after exactly one tab. -/
structure Board where
  root : Body
  trailing : List Blank
  spaced : root.Spaced
  lines : root.Lines expressions

def Board.text (board : Board) : List Char := (Node.list board.root).render ++ blanks board.trailing

/-- The segments, vias and arcs of a board, in their order. -/
def Board.routes (board : Board) : List (List Char) :=
  (board.root.lists.filter fun child => child.name ∈ expressions.map some).map fun child =>
    (Node.list child).render

/-- The line of a list, without the line break, to the parenthesis that closes it. -/
def block (child : Body) : List Char := '\t' :: (Node.list child).render

/-- The scan of an item ends behind it. -/
theorem scan_block (child : Body) (v : List Char) (stop : ℕ) :
    scan (block child ++ v) 0 false false stop = stop + (block child).length := by
  have hlength : (block child).length = child.render.length + 2 := rfl
  show scan (['\t'] ++ '(' :: (child.render ++ v)) 0 false false stop = _
  rw [scan_plain (by simp), scan_open, zero_add, scan_body child v _ le_rfl,
    if_pos (sub_self 1), hlength]
  show stop + 1 + 1 + _ = _
  omega

theorem drop_add_length {text u v : List Char} {cursor : ℕ} (htext : text.drop cursor = u ++ v) :
    text.drop (cursor + u.length) = v := by
  rw [← List.drop_drop, htext, List.drop_left]

theorem slice_eq {text u v : List Char} {start : ℕ} (htext : text.drop start = u ++ v) :
    slice text start (start + u.length) = u := by
  rw [slice, htext, Nat.add_sub_cancel_left, List.take_left]

theorem collect_congr {text expression : List Char} {cursor cursor' : ℕ}
    (h : find text (linePrefix expression) cursor = find text (linePrefix expression) cursor') :
    ∀ fuel, collect text expression fuel cursor = collect text expression fuel cursor'
  | 0 => rfl
  | fuel + 1 => by rw [collect, collect, h]

/-- A stretch without the prefix is passed over. -/
theorem find_of_passed {text p u v : List Char} {cursor : ℕ} (hu : Passed p u)
    (htext : text.drop cursor = u ++ v) : find text p cursor = find text p (cursor + u.length) := by
  rw [find, find, htext, hu, drop_add_length htext]

theorem expressions_atoms :
    ∀ expression ∈ expressions, expression ≠ [] ∧ expression.all isAtomChar := by
  decide

/-- Nothing is found in white space. -/
theorem findFrom_blanks_eq_none (expression : List Char) (gap : List Blank) (i : ℕ) :
    findFrom (linePrefix expression) (blanks gap) i = none := by
  rw [Option.eq_none_iff_forall_ne_some]
  intro found h
  obtain ⟨u, v, hgap, hv, -⟩ := findFrom_eq_some h
  have hmem : '(' ∈ blanks gap := by
    rw [hgap]
    exact List.mem_append_right _ (hv.subset (by simp [linePrefix]))
  exact (blanks_plain gap _ hmem).2.1 rfl

section

variable {text expression : List Char} {trailing : List Blank}

/-- An item that is not a list does not move the search. -/
theorem collect_skip {gap : List Blank} (node : Node) {rest : Body} {cursor : ℕ}
    (hlist : ¬ node.isList) (hdeep : node.Deep)
    (htext : text.drop cursor = (Body.item gap node rest).render ++ blanks trailing) :
    ∃ cursor', text.drop cursor' = rest.render ++ blanks trailing ∧
      ∀ fuel, collect text expression fuel cursor = collect text expression fuel cursor' := by
  rw [Body.render, List.append_assoc] at htext
  have hpassed := node.passed (q := expression ++ ['\n']) gap (fun h => absurd h hlist) hdeep
  exact ⟨_, drop_add_length htext, collect_congr (find_of_passed hpassed htext)⟩

variable {gap : List Blank} {child rest : Body} {cursor : ℕ}

/-- Neither does a list with another name. -/
theorem collect_other (hexpression : expression ∈ expressions) (hgap : oneTab gap)
    (hdeep : child.Deep) (hspaced : child.Spaced) (hname : child.name ≠ some expression)
    (htext : text.drop cursor = (Body.item gap (.list child) rest).render ++ blanks trailing) :
    ∃ cursor', text.drop cursor' = rest.render ++ blanks trailing ∧
      ∀ fuel, collect text expression fuel cursor = collect text expression fuel cursor' := by
  rw [Body.render, List.append_assoc] at htext
  have hlength : cursor + (blanks gap ++ (Node.list child).render).length =
      cursor + gap.length + (Node.list child).render.length := by
    simp [blanks, Nat.add_assoc]
  have hfind := findFrom_list gap child (rest.render ++ blanks trailing) cursor
    (expressions_atoms expression hexpression) hgap hdeep hspaced fun h => absurd h hname
  rw [if_neg hname, ← hlength, ← htext, ← drop_add_length htext] at hfind
  exact ⟨_, drop_add_length htext, collect_congr hfind⟩

/-- A list with the name is a block, and the search goes on right behind it. -/
theorem collect_route (hexpression : expression ∈ expressions) (hgap : oneTab gap)
    (hdeep : child.Deep) (hspaced : child.Spaced) (hname : child.name = some expression)
    (hline : child.NameLine)
    (htext : text.drop cursor = (Body.item gap (.list child) rest).render ++ blanks trailing) :
    ∃ cursor', text.drop cursor' = rest.render ++ blanks trailing ∧
      ∀ fuel, collect text expression (fuel + 1) cursor =
        (collect text expression fuel cursor').map (block child :: ·) := by
  rw [Body.render, List.append_assoc] at htext
  have hfind := findFrom_list gap child (rest.render ++ blanks trailing) cursor
    (expressions_atoms expression hexpression) hgap hdeep hspaced fun _ => hline
  rw [if_pos hname, ← htext] at hfind
  obtain ⟨indent, rfl⟩ := hgap
  -- the block starts behind the last line break of the white space
  have hblock : text.drop cursor =
      blanks (indent ++ [.newline]) ++ (block child ++ (rest.render ++ blanks trailing)) := by
    rw [htext]
    simp [blanks, block, Blank.char]
  have hstart : cursor + (indent ++ [Blank.newline, .tab]).length - 2 + 1 =
      cursor + (blanks (indent ++ [.newline])).length := by
    simp [blanks]
    omega
  have hdrop := drop_add_length hblock
  refine ⟨_, drop_add_length hdrop, fun fuel => ?_⟩
  rw [collect]
  show (match findFrom (opening expression) (text.drop cursor) cursor with
    | none => some []
    | some found => _) = _
  rw [hfind]
  dsimp only
  rw [hstart, hdrop, scan_block, slice_eq hdrop]

/-- Behind the last item there is nothing to find. -/
theorem find_close
    (htext : text.drop cursor = (Body.close gap).render ++ blanks trailing) :
    find text (linePrefix expression) cursor = none := by
  rw [Body.render] at htext
  have hpassed : Passed (linePrefix expression) (blanks gap ++ [')']) :=
    passed_blanks gap (by decide) fun h => absurd h (by decide)
  rw [find_of_passed hpassed htext, find, drop_add_length htext]
  exact findFrom_blanks_eq_none expression trailing _

/-- The blocks that are collected behind a place of the root. -/
theorem collect_body (hexpression : expression ∈ expressions) : ∀ (body : Body) (cursor fuel : ℕ),
    body.Spaced → body.Lines expressions →
    text.drop cursor = body.render ++ blanks trailing → body.lists.length < fuel →
      collect text expression fuel cursor =
        some ((body.lists.filter fun child => child.name = some expression).map block)
  | .close gap => by
    intro cursor fuel _ _ htext hfuel
    obtain ⟨fuel, rfl⟩ := Nat.exists_eq_succ_of_ne_zero (Nat.ne_zero_of_lt hfuel)
    rw [collect, find_close htext]
    rfl
  | .item gap node rest => by
    intro cursor fuel hspaced hlines htext hfuel
    obtain ⟨-, hnode, hrest⟩ := hspaced
    cases node with
    | atom first others =>
      obtain ⟨cursor', htext', hcollect⟩ := collect_skip (.atom first others) id trivial htext
      rw [hcollect, collect_body hexpression rest cursor' fuel hrest hlines htext' hfuel]
      rfl
    | string items =>
      obtain ⟨cursor', htext', hcollect⟩ := collect_skip (.string items) id trivial htext
      rw [hcollect, collect_body hexpression rest cursor' fuel hrest hlines htext' hfuel]
      rfl
    | list child =>
      obtain ⟨hgap, hdeep, hline, hlines⟩ := hlines
      obtain ⟨fuel, rfl⟩ := Nat.exists_eq_succ_of_ne_zero (Nat.ne_zero_of_lt hfuel)
      have hlength : rest.lists.length < fuel := Nat.lt_of_succ_lt_succ hfuel
      by_cases hname : child.name = some expression
      · obtain ⟨cursor', htext', hcollect⟩ := collect_route hexpression hgap hdeep hnode hname
          (hline expression hexpression hname) htext
        rw [hcollect, collect_body hexpression rest cursor' fuel hrest hlines htext' hlength]
        simp [Body.lists, hname]
      · obtain ⟨cursor', htext', hcollect⟩ :=
          collect_other hexpression hgap hdeep hnode hname htext
        rw [hcollect, collect_body hexpression rest cursor' (fuel + 1) hrest hlines htext'
          (hlength.trans (Nat.lt_succ_self fuel))]
        simp [Body.lists, hname]

end

/-- Items that are filtered by one key after another. -/
theorem flatten_filter_perm {α κ : Type} [DecidableEq κ] (f : α → κ) (l : List α) {keys : List κ}
    (hkeys : keys.Nodup) : ((keys.map fun key => l.filter fun a => f a = key).flatten).Perm
      (l.filter fun a => f a ∈ keys) := by
  induction keys with
  | nil => simp
  | cons key keys ih =>
    obtain ⟨hkey, hkeys⟩ := List.nodup_cons.mp hkeys
    have hsplit := List.filter_append_perm (fun a => f a = key)
      (l.filter fun a => f a ∈ key :: keys)
    have hfirst : (l.filter fun a => f a ∈ key :: keys).filter (fun a => f a = key) =
        l.filter fun a => f a = key := by
      rw [List.filter_filter]
      exact List.filter_congr fun a _ => by grind
    have hothers : (l.filter fun a => f a ∈ key :: keys).filter (fun a => !(f a = key)) =
        l.filter fun a => f a ∈ keys := by
      rw [List.filter_filter]
      exact List.filter_congr fun a _ => by grind
    rw [hfirst, hothers] at hsplit
    exact ((ih hkeys).append_left _).trans hsplit

namespace Board

variable (board : Board)

/-- The search for one kind of expression finds the items of that name, in their
order. -/
theorem collect_text {expression : List Char} (hexpression : expression ∈ expressions) {fuel : ℕ}
    (hfuel : board.root.lists.length < fuel) : collect board.text expression fuel 0 =
      some ((board.root.lists.filter fun child => child.name = some expression).map block) := by
  have htext : board.text.drop 0 = ['('] ++ (board.root.render ++ blanks board.trailing) := rfl
  have hpassed : Passed (linePrefix expression) ['('] := passed_of_forall_ne (by simp)
  rw [collect_congr (find_of_passed hpassed htext)]
  exact collect_body hexpression board.root _ fuel board.spaced board.lines
    (drop_add_length htext) hfuel

/-- The children of the root that are searched for, by one name after another. -/
def routeChildren : List Body :=
  (expressions.map fun expression =>
    board.root.lists.filter fun child => child.name = some expression).flatten

/-- By kind, instead of in their order. -/
theorem routeChildren_perm :
    (board.routeChildren.map block).Perm (board.routes.map ('\t' :: ·)) := by
  have hnodup : (expressions.map some).Nodup := by decide
  rw [routes, List.map_map]
  convert (flatten_filter_perm Body.name board.root.lists hnodup).map block
  · rw [routeChildren, List.map_map]
    rfl
  · rfl

/-- The collected blocks are the children that are searched for. -/
theorem collectBlocks_text {fuel : ℕ} (hfuel : board.text.length < fuel) :
    collectBlocks fuel board.text = some (board.routeChildren.map block) := by
  obtain ⟨blocks, hblocks⟩ := exists_collectBlocks board.text
  -- with still more fuel, what is collected is known
  have hmore := hblocks (board.text.length + board.root.lists.length + 1) (by omega)
  rw [collectBlocks, Loops.mapM_eq_pure fun expression hexpression =>
    board.collect_text hexpression (by omega)] at hmore
  rw [hblocks fuel hfuel, ← Option.some.inj hmore, routeChildren, List.map_flatten, List.map_map]
  rfl

/-- What the signature is taken of. -/
theorem routeTextSignature_text {D : Type} (sha256 : ByteArray → D) {fuel : ℕ}
    (hfuel : board.text.length < fuel) : routeTextSignature sha256 fuel board.text =
      some (signBlocks sha256 (board.routeChildren.map block)) := by
  rw [routeTextSignature, board.collectBlocks_text hfuel]
  rfl

/-- A board has a signature unless there is nothing to sign. -/
theorem signBlocks_routeChildren {D : Type} (sha256 : ByteArray → D) (hroutes : board.routes ≠ []) :
    signBlocks sha256 (board.routeChildren.map block) =
      .ok (hexdigest sha256 (board.routeChildren.map block)) := by
  refine if_neg fun hnil => hroutes ?_
  have hperm := board.routeChildren_perm
  rw [hnil] at hperm
  exact List.map_eq_nil_iff.mp hperm.nil_eq.symm

end Board

/-- The scanner tells a block from what follows it. -/
theorem delimits_block :
    Delimits (fun text => scan text 0 false false 0) fun b => ∃ child, block child = b where
  length_eq := by
    rintro _ v ⟨child, rfl⟩
    exact (scan_block child v 0).trans (Nat.zero_add _)
  ne_nil := by
    rintro _ ⟨child, rfl⟩
    exact List.cons_ne_nil _ _

theorem block_of_mem {children : List Body} : ∀ b ∈ children.map block, ∃ child, block child = b :=
  fun _ hb => (List.mem_map.mp hb).imp fun _ h => h.2

/-- The scan ends on every text. On a board that has a segment, via or arc it collects each
of these children once, from its tab on and verbatim; and if no two byte strings have the
same digest, two such boards have the same signature exactly when they have the same
multiset of these children. -/
theorem signature_identifies_routes {D : Type} (sha256 : ByteArray → D) :
    (∀ text, ∃ result, ∀ fuel, text.length < fuel →
      routeTextSignature sha256 fuel text = some result) ∧
    (∀ board : Board, board.routes ≠ [] → ∃ blocks,
      (∀ fuel, board.text.length < fuel → collectBlocks fuel board.text = some blocks) ∧
        blocks.Perm (board.routes.map ('\t' :: ·))) ∧
    (Function.Injective sha256 → ∀ b c : Board, b.routes ≠ [] → c.routes ≠ [] →
      ∃ s t, (∀ fuel, b.text.length < fuel → routeTextSignature sha256 fuel b.text = some (.ok s)) ∧
        (∀ fuel, c.text.length < fuel → routeTextSignature sha256 fuel c.text = some (.ok t)) ∧
          (s = t ↔ (b.routes : Multiset (List Char)) = c.routes)) := by
  refine ⟨exists_routeTextSignature sha256, fun board _ => ?_, fun hsha256 b c hb hc => ?_⟩
  · exact ⟨_, fun fuel => board.collectBlocks_text, board.routeChildren_perm⟩
  · refine ⟨hexdigest sha256 (b.routeChildren.map block),
      hexdigest sha256 (c.routeChildren.map block), fun fuel hfuel => ?_, fun fuel hfuel => ?_, ?_⟩
    · rw [b.routeTextSignature_text sha256 hfuel, b.signBlocks_routeChildren sha256 hb]
    · rw [c.routeTextSignature_text sha256 hfuel, c.signBlocks_routeChildren sha256 hc]
    · -- the digest, the bytes, the joined text and the sorted blocks determine each other
      rw [hexdigest, hexdigest, hsha256.eq_iff, String.toUTF8, String.toUTF8,
        String.toByteArray_inj, String.ofList_inj,
        delimits_block.intercalate_sorted_iff block_of_mem block_of_mem, Multiset.coe_eq_coe,
        b.routeChildren_perm.congr_left, c.routeChildren_perm.congr_right]
      exact List.map_perm_map_iff List.cons_injective

/-! ### Two boards with the same routing

The second one has a title, with brackets and a quote in its string, and its items in
the other order.
-/

/-- An atom that is written out. -/
def word (first : AtomChar) (rest : String) (hrest : rest.toList.all isAtomChar) : Node :=
  .atom first (rest.toList.pmap Subtype.mk (List.all_eq_true.mp hrest))

/-- `")\"("` -/
def label : Node :=
  .string [.plain ⟨')', by decide⟩, .escape ⟨'"', by decide⟩, .plain ⟨'(', by decide⟩]

def segment : Body :=
  .item [] (word ⟨'s', by decide⟩ "egment" (by decide)) <|
    .item [.newline, .tab, .tab]
      (.list (.item [] (word ⟨'n', by decide⟩ "et" (by decide)) (.item [.space] label (.close []))))
      (.close [.newline, .tab])

def via : Body :=
  .item [] (word ⟨'v', by decide⟩ "ia" (by decide)) <|
    .item [.newline, .tab, .tab] (.list (.item [] (word ⟨'a', by decide⟩ "t" (by decide))
      (.item [.space] (word ⟨'1', by decide⟩ "" (by decide)) (.close []))))
      (.close [.newline, .tab])

def title : Body :=
  .item [] (word ⟨'t', by decide⟩ "itle" (by decide)) (.item [.space] label (.close []))

/-- A segment and a via. -/
def routed : Board where
  root := .item [] (word ⟨'k', by decide⟩ "icad_pcb" (by decide)) <|
    .item [.newline, .tab] (.list segment) <|
    .item [.newline, .tab] (.list via) (.close [.newline])
  trailing := [.newline]
  spaced := by decide
  lines := by decide

example : String.ofList routed.text =
    "(kicad_pcb\n\t(segment\n\t\t(net \")\\\"(\")\n\t)\n\t(via\n\t\t(at 1)\n\t)\n)\n" := by
  decide +kernel

/-- The same two in the other order, with a title. -/
def titled : Board where
  root := .item [] (word ⟨'k', by decide⟩ "icad_pcb" (by decide)) <|
    .item [.newline, .tab] (.list title) <|
    .item [.newline, .tab] (.list via) <|
    .item [.newline, .tab] (.list segment) (.close [.newline])
  trailing := [.newline]
  spaced := by decide
  lines := by decide

theorem signature_titled : ∃ s : ByteArray,
    (∀ fuel, routed.text.length < fuel → routeTextSignature id fuel routed.text = some (.ok s)) ∧
      (∀ fuel, titled.text.length < fuel →
        routeTextSignature id fuel titled.text = some (.ok s)) := by
  obtain ⟨s, t, hs, ht, hst⟩ := (signature_identifies_routes (D := ByteArray) id).2.2
    Function.injective_id routed titled (by decide) (by decide)
  have hroutes : (routed.routes : Multiset (List Char)) = titled.routes :=
    Multiset.coe_eq_coe.mpr (by decide)
  obtain rfl := hst.mpr hroutes
  exact ⟨s, hs, ht⟩

end SpokeSensor.LayoutIntegrity
