import SpokeSensor.Lib.Csv
import SpokeSensor.Lib.DecimalText
import SpokeSensor.Lib.Grouping
import SpokeSensor.Server.PyNumber
import Mathlib.Data.List.Sort

/-!
# The assembly files (`hardware/generate_jlc_assembly.py`)

The fitted parts of the board are listed twice: in the bill of materials, grouped by value,
package and LCSC number, and in the placement list, one by one with position and rotation. Both
are written as CSV, so texts of the board may hold commas, quotes and line ends.

- `jlcRotation` (`generate_jlc_assembly.py:32–48`): the rotation of a part, with the offset of
  the rule for its reference. The rule fails closed when the part is another one.
- `place`, `groups`, `bom`, `cplRows` (58–109): the fitted parts and the two files. A failing
  rule ends the placement list in the middle, after the bill of materials has been written.
- `main_eq`, `assemblable_of_ok`: the run reports success exactly if the board is `Assemblable`;
  the comparison of the designators at its end (111–118) never fails.
- `assembly_files`: read back, the two files hold the same designators, those of the fitted
  parts, and each row is that of its parts.

A `Library` leaves open what comes from elsewhere: the tables behind `str.strip` and
`str.isdigit`, and `pcbnew.ToMM`. A board is the list of its footprints. The designators of a row
are joined with commas (79), which nothing undoes when a reference of a fitted part has a comma
itself; hence the condition of `assembly_files`.
-/

namespace SpokeSensor.JlcAssembly

open LocalServer DecimalText Rounding Ieee Grouping

/-- What the script takes from outside the repository: the characters that `str.strip` removes,
those for which `str.isdigit` holds, and `pcbnew.ToMM`, from nanometres to a `float`. -/
structure Library where
  isSpace : Char → Bool
  isDigit : Char → Bool
  toMM : ℤ → ℚ

/-- What is read of a footprint. The position is in nanometres, and the orientation a `float`. -/
structure Footprint where
  reference : String
  value : String
  libItemName : String
  /-- The fields with their texts. -/
  fields : List (String × String)
  /-- For each pad, whether its attribute is `PAD_ATTRIB_SMD`. -/
  padsSmd : List Bool
  x : ℤ
  y : ℤ
  /-- The layer is `F_Cu`. -/
  front : Bool
  orientationDegrees : ℚ

/-! ## Rotations

The angle of a footprint, corrected by the rule for its reference if there is one, and
normalised (`generate_jlc_assembly.py:29–48`).
-/

/-- `JLC_ROTATION_RULES`: LCSC number, MPN and offset. -/
def jlcRotationRules : List (String × String × String × ℤ) :=
  [("U1", "C2867884", "TLV9062IDDFR", 90), ("U2", "C193688", "TLV7011DCKR", 90),
    ("J3", "C189893", "SM02B-GHS-TB(LF)(SN)", 180),
    ("J4", "C189893", "SM02B-GHS-TB(LF)(SN)", 180), ("D1", "C3151600", "VSMB1940X01", 180),
    ("D2", "C7104273", "VEMD10940FX01", 0)]

/-- The `float` next to a number: what an addition of `float`s gives for the exact sum. -/
def roundFloat (x : ℚ) : ℚ := binary64.grid.round x

/-- `fmod(angle, 360.0)`, which is exact. -/
def remainder (angle : ℚ) : ℚ := angle - 360 * (if 0 ≤ angle then ⌊angle / 360⌋ else ⌈angle / 360⌉)

/-- `normalized_rotation`, `angle % 360.0` (`generate_jlc_assembly.py:28–29`). Python takes `fmod`
and adds the divisor when the signs differ. -/
def normalizedRotation (angle : ℚ) : ℚ :=
  if remainder angle < 0 then roundFloat (remainder angle + 360) else remainder angle

variable (lib : Library)

/-- `s.strip()` -/
def strip (s : String) : String :=
  String.ofList ((s.toList.dropWhile lib.isSpace).reverse.dropWhile lib.isSpace).reverse

/-- `footprint.GetField(name).GetText()` -/
def Footprint.getText (f : Footprint) (name : String) : Except PyError String :=
  match f.fields.lookup name with
  | some text => .ok text
  | none => .error (.other "AttributeError" "'NoneType' object has no attribute 'GetText'")

def ruleMismatch (reference expectedLcsc expectedMpn lcsc mpn : String) : PyError :=
  .other "SystemExit" (reference ++ ": JLC rotation rule is for " ++ expectedLcsc ++ "/"
    ++ expectedMpn ++ ", found " ++ lcsc ++ "/" ++ mpn)

/-- `jlc_rotation` (`generate_jlc_assembly.py:32–48`) -/
def jlcRotation (f : Footprint) : Except PyError ℚ :=
  match jlcRotationRules.lookup f.reference with
  | none => .ok (normalizedRotation f.orientationDegrees)
  | some (expectedLcsc, expectedMpn, offset) => do
    let lcsc ← strip lib <$> f.getText "LCSC"
    let mpn ← strip lib <$> f.getText "MPN"
    raiseIf ((lcsc, mpn) ≠ (expectedLcsc, expectedMpn))
      (ruleMismatch f.reference expectedLcsc expectedMpn lcsc mpn)
    return normalizedRotation (roundFloat (f.orientationDegrees + offset))

/-! ## The fitted parts

The parts that are placed, in the order of the board; the first one that is not all
SMD stops the script.
-/

/-- `lcsc` of the first loop -/
def Footprint.lcsc (f : Footprint) : String :=
  match f.fields.lookup "LCSC" with
  | some text => strip lib text
  | none => ""

/-- `lcsc.startswith("C") and lcsc[1:].isdigit()` -/
def Footprint.fitted (f : Footprint) : Bool :=
  match (f.lcsc lib).toList with
  | [] => false
  | c :: number => c = 'C' && number ≠ [] && number.all lib.isDigit

/-- All pads are SMD. -/
def Footprint.smd (f : Footprint) : Bool := f.padsSmd.all id

/-- `placed`, by the first loop of `main` (`generate_jlc_assembly.py:58–71`) -/
def place : List Footprint → Except PyError (List Footprint)
  | [] => .ok []
  | f :: board =>
    if f.fitted lib = false then place board
    else if f.smd = false then
      .error (.other "SystemExit" (f.reference ++ ": fitted JLC part is not fully SMD"))
    else do
      let rest ← place board
      return f :: rest

/-! ## The bill of materials

Parts with the same value, package and number share a row, in the order of these.
-/

/-- The key of `groups`. -/
@[ext]
structure PartKey where
  value : String
  package : String
  lcsc : String
  deriving DecidableEq

/-- The order of tuples. -/
def PartKey.le (a b : PartKey) : Prop :=
  a.value < b.value ∨ (a.value = b.value ∧
    (a.package < b.package ∨ (a.package = b.package ∧ a.lcsc ≤ b.lcsc)))

instance : DecidableRel PartKey.le := fun a b =>
  inferInstanceAs (Decidable (a.value < b.value ∨ (a.value = b.value ∧
    (a.package < b.package ∨ (a.package = b.package ∧ a.lcsc ≤ b.lcsc)))))

def Footprint.partKey (f : Footprint) : PartKey := ⟨f.value, f.libItemName, f.lcsc lib⟩

/-- `groups` -/
def groups (placed : List Footprint) : List (PartKey × List String) :=
  groupBy (Footprint.partKey lib) Footprint.reference placed

/-- `csv.writer` with its default dialect. -/
def excel : Csv.Dialect where
  delimiter := ','
  quote := '"'
  quote_ne_delimiter := by decide
  delimiter_not_newline := by decide
  quote_not_newline := by decide

/-- `",".join(sorted(references))` -/
def joined (references : List String) : List Char :=
  [','].intercalate ((references.insertionSort (· ≤ ·)).map String.toList)

/-- A row of the bill of materials. -/
def bomRow (group : PartKey × List String) : List (List Char) :=
  [group.1.value.toList, joined group.2, group.1.package.toList, group.1.lcsc.toList]

def bomHeader : List (List Char) :=
  ["Comment", "Designator", "Footprint", "LCSC Part #"].map String.toList

/-- `sorted(groups.items())`: the keys are distinct, so they alone decide. -/
def sortedGroups (placed : List Footprint) : List (PartKey × List String) :=
  (groups lib placed).insertionSort fun a b => a.1.le b.1

def bom (placed : List Footprint) : List Char :=
  excel.document (bomHeader :: (sortedGroups lib placed).map bomRow)

/-! ## The placement list

A row for each part, written while the rotations are computed, so a rule that does not
hold leaves the file without the rows from there on.
-/

/-- A row of the placement list. -/
def cplRow (f : Footprint) : Except PyError (List (List Char)) := do
  let rotation ← jlcRotation lib f
  return [f.reference.toList, fixed 4 (lib.toMM f.x) ++ "mm".toList,
    fixed 4 (lib.toMM f.y) ++ "mm".toList, (if f.front then "Top" else "Bottom").toList,
    fixed 2 rotation]

def cplHeader : List (List Char) :=
  ["Designator", "Mid X", "Mid Y", "Layer", "Rotation"].map String.toList

/-- The rows that are written, and the exception that ends them. -/
def cplRows : List Footprint → List (List (List Char)) × Except PyError Unit
  | [] => ([], .ok ())
  | f :: placed =>
    match cplRow lib f with
    | .error e => ([], .error e)
    | .ok row => (row :: (cplRows placed).1, (cplRows placed).2)

/-- `sorted(placed, key=...)` -/
def sortedPlaced (placed : List Footprint) : List Footprint :=
  placed.insertionSort fun f g => f.reference ≤ g.reference

/-! ## `main`

The two files one after the other, and the counts that are printed.
-/

/-- The two files. -/
structure Files where
  bom : Option (List Char)
  cpl : Option (List Char)

/-- `main`, with the numbers of placements and of rows that it reports. The bill of materials is
written before the rotations are looked up, so a failing rule leaves it behind. -/
def main (board : List Footprint) (files : Files) : Files × Except PyError (ℕ × ℕ) :=
  match place lib board with
  | .error e => (files, .error e)
  | .ok placed =>
    let rows := cplRows lib (sortedPlaced placed)
    let written : Files := ⟨some (bom lib placed), some (excel.document (cplHeader :: rows.1))⟩
    match rows.2 with
    | .error e => (written, .error e)
    | .ok () =>
      let cplRefs := placed.map Footprint.reference
      let bomRefs := (groups lib placed).flatMap Prod.snd
      if ¬ (cplRefs ⊆ bomRefs ∧ bomRefs ⊆ cplRefs) then
        (written, .error (.other "SystemExit" "Generated BOM and CPL designators differ"))
      else (written, .ok (placed.length, (groups lib placed).length))

/-! ## What can go wrong

The script fails at a part that is not all SMD, and at a rule that is for another
part.
-/

variable {lib : Library}

/-- A part is the one that the rule for its reference is for, if there is one. -/
def Footprint.RuleHolds (lib : Library) (f : Footprint) : Prop :=
  ∀ lcsc mpn offset, jlcRotationRules.lookup f.reference = some (lcsc, mpn, offset) →
    (strip lib <$> f.getText "LCSC") = .ok lcsc ∧ (strip lib <$> f.getText "MPN") = .ok mpn

/-- Every fitted part is SMD and is the one that its rule is for. -/
def Assemblable (lib : Library) (board : List Footprint) : Prop :=
  ∀ f ∈ board, f.fitted lib = true → f.smd = true ∧ f.RuleHolds lib

theorem place_ok_iff {board placed : List Footprint} : place lib board = .ok placed ↔
    placed = board.filter (Footprint.fitted lib) ∧
      ∀ f ∈ board, f.fitted lib = true → f.smd = true := by
  induction board generalizing placed with
  | nil =>
    rw [place, Except.ok.injEq]
    exact ⟨fun h => ⟨h.symm, fun f hf => absurd hf List.not_mem_nil⟩, fun h => h.1.symm⟩
  | cons f board ih =>
    rw [place, List.forall_mem_cons]
    cases hfitted : f.fitted lib with
    | false =>
      rw [if_pos rfl, ih, List.filter_cons_of_neg (by simp [hfitted])]
      simp
    | true =>
      rw [if_neg (by decide), List.filter_cons_of_pos hfitted]
      cases hsmd : f.smd with
      | false =>
        rw [if_pos rfl]
        exact iff_of_false (fun h => by cases h) fun h => by simpa using h.2.1
      | true =>
        rw [if_neg (by decide), bind_eq_ok]
        constructor
        · rintro ⟨rest, hrest, heq⟩
          obtain ⟨rfl, hall⟩ := ih.mp hrest
          cases heq
          exact ⟨rfl, fun _ => rfl, hall⟩
        · rintro ⟨rfl, -, hall⟩
          exact ⟨_, ih.mpr ⟨rfl, hall⟩, rfl⟩

theorem jlcRotation_ok_iff {f : Footprint} :
    (∃ angle, jlcRotation lib f = .ok angle) ↔ f.RuleHolds lib := by
  rw [jlcRotation, Footprint.RuleHolds]
  cases hrule : jlcRotationRules.lookup f.reference with
  | none => exact iff_of_true ⟨_, rfl⟩ fun _ _ _ h => by cases h
  | some rule =>
    obtain ⟨expectedLcsc, expectedMpn, offset⟩ := rule
    constructor
    · rintro ⟨angle, h⟩ lcsc mpn offset' heq
      cases heq
      obtain ⟨foundLcsc, hlcsc, h⟩ := bind_eq_ok.mp h
      obtain ⟨foundMpn, hmpn, h⟩ := bind_eq_ok.mp h
      obtain ⟨_, hraise, -⟩ := bind_eq_ok.mp h
      obtain ⟨rfl, rfl⟩ := Prod.mk.inj (not_not.mp (raiseIf_eq_ok.mp hraise))
      exact ⟨hlcsc, hmpn⟩
    · intro h
      obtain ⟨hlcsc, hmpn⟩ := h _ _ _ rfl
      refine ⟨normalizedRotation (roundFloat (f.orientationDegrees + offset)), ?_⟩
      dsimp only
      rw [hlcsc, hmpn]
      show raiseIf ((expectedLcsc, expectedMpn) ≠ (expectedLcsc, expectedMpn)) _ >>= _ = _
      rw [raiseIf, if_neg (not_not.mpr rfl)]
      rfl

theorem cplRow_ok_iff {f : Footprint} :
    (∃ row, cplRow lib f = .ok row) ↔ f.RuleHolds lib := by
  rw [← jlcRotation_ok_iff, cplRow]
  cases jlcRotation lib f with
  | error e => exact iff_of_false (fun ⟨_, h⟩ => by cases h) fun ⟨_, h⟩ => by cases h
  | ok angle => exact iff_of_true ⟨_, rfl⟩ ⟨_, rfl⟩

theorem cplRows_ok_iff {placed : List Footprint} :
    (cplRows lib placed).2 = .ok () ↔ ∀ f ∈ placed, f.RuleHolds lib := by
  induction placed with
  | nil => exact iff_of_true rfl fun f hf => absurd hf List.not_mem_nil
  | cons f placed ih =>
    rw [cplRows, List.forall_mem_cons, ← cplRow_ok_iff]
    cases cplRow lib f with
    | error e => exact iff_of_false (fun h => by cases h) fun ⟨⟨_, h⟩, _⟩ => by cases h
    | ok row => exact ih.trans ⟨fun h => ⟨⟨row, rfl⟩, h⟩, And.right⟩

/-- The rows of parts that all get one. -/
theorem cplRows_forall₂ {placed : List Footprint} (h : (cplRows lib placed).2 = .ok ()) :
    List.Forall₂ (fun f row => cplRow lib f = .ok row) placed (cplRows lib placed).1 := by
  induction placed with
  | nil => exact .nil
  | cons f placed ih =>
    rw [cplRows] at h ⊢
    cases hrow : cplRow lib f with
    | error e =>
      rw [hrow] at h
      cases h
    | ok row =>
      rw [hrow] at h
      exact .cons hrow (ih h)

theorem perm_sortedPlaced (placed : List Footprint) : (sortedPlaced placed).Perm placed :=
  List.perm_insertionSort ..

/-- The two lists of designators always agree. -/
theorem designators_agree (placed : List Footprint) :
    placed.map Footprint.reference ⊆ (groups lib placed).flatMap Prod.snd ∧
      (groups lib placed).flatMap Prod.snd ⊆ placed.map Footprint.reference := by
  have hperm := (groupBy_spec (Footprint.partKey lib) Footprint.reference placed).flatMap
  exact ⟨hperm.symm.subset, hperm.subset⟩

/-- The run fails only for a part that is not SMD or not the one of its rule. -/
theorem main_eq {board : List Footprint} (h : Assemblable lib board) (files : Files) :
    main lib board files =
      (⟨some (bom lib (board.filter (Footprint.fitted lib))), some (excel.document (cplHeader ::
        (cplRows lib (sortedPlaced (board.filter (Footprint.fitted lib)))).1))⟩,
      .ok ((board.filter (Footprint.fitted lib)).length,
        (groups lib (board.filter (Footprint.fitted lib))).length)) := by
  have hplace : place lib board = .ok (board.filter (Footprint.fitted lib)) :=
    place_ok_iff.mpr ⟨rfl, fun f hf hfitted => (h f hf hfitted).1⟩
  have hrows : (cplRows lib (sortedPlaced (board.filter (Footprint.fitted lib)))).2 = .ok () := by
    refine cplRows_ok_iff.mpr fun f hf => ?_
    obtain ⟨hmem, hfitted⟩ := List.mem_filter.mp ((perm_sortedPlaced _).subset hf)
    exact (h f hmem hfitted).2
  rw [main, hplace]
  dsimp only
  rw [hrows]
  dsimp only
  rw [if_neg (not_not.mpr (designators_agree _))]

theorem assemblable_of_ok {board : List Footprint} {files : Files} {r : ℕ × ℕ}
    (h : (main lib board files).2 = .ok r) : Assemblable lib board := by
  rw [main] at h
  cases hplace : place lib board with
  | error e =>
    rw [hplace] at h
    cases h
  | ok placed =>
    obtain ⟨rfl, hsmd⟩ := place_ok_iff.mp hplace
    rw [hplace] at h
    dsimp only at h
    cases hrows : (cplRows lib (sortedPlaced (board.filter (Footprint.fitted lib)))).2 with
    | error e =>
      rw [hrows] at h
      cases h
    | ok u =>
      intro f hf hfitted
      refine ⟨hsmd f hf hfitted, cplRows_ok_iff.mp hrows f ?_⟩
      exact (perm_sortedPlaced _).symm.subset (List.mem_filter.mpr ⟨hf, hfitted⟩)

/-! ## What the files hold

Both files are read back by `Csv`, so what they list is told by their rows.
-/

/-- The text of a number with `p` decimals. -/
def ReadsAs (p : ℕ) (text : List Char) (value : ℚ) : Prop :=
  ∃ q, signedConstant text = some q ∧ |q - value| ≤ 1 / 2 / 10 ^ p

/-- The row of a part in the placement list. -/
def PlacementOf (lib : Library) (f : Footprint) (row : List (List Char)) : Prop :=
  ∃ x y rotation angle,
    row = [f.reference.toList, x ++ "mm".toList, y ++ "mm".toList,
      (if f.front then "Top" else "Bottom").toList, rotation] ∧
    ReadsAs 4 x (lib.toMM f.x) ∧ ReadsAs 4 y (lib.toMM f.y) ∧
    jlcRotation lib f = .ok angle ∧ 0 ≤ angle ∧ angle ≤ 360 ∧ ReadsAs 2 rotation angle

theorem remainder_mem (angle : ℚ) : -360 < remainder angle ∧ remainder angle < 360 := by
  rw [remainder]
  split_ifs with h
  · have hlo := Int.floor_le (angle / 360)
    have hhi := Int.lt_floor_add_one (angle / 360)
    rw [le_div_iff₀ (by norm_num)] at hlo
    rw [div_lt_iff₀ (by norm_num)] at hhi
    constructor <;> linarith
  · have hlo := Int.le_ceil (angle / 360)
    have hhi := Int.ceil_lt_add_one (angle / 360)
    rw [div_le_iff₀ (by norm_num)] at hlo
    rw [← sub_lt_iff_lt_add, lt_div_iff₀ (by norm_num)] at hhi
    constructor <;> linarith

theorem normalizedRotation_mem (angle : ℚ) :
    0 ≤ normalizedRotation angle ∧ normalizedRotation angle ≤ 360 := by
  obtain ⟨hlo, hhi⟩ := remainder_mem angle
  rw [normalizedRotation]
  split_ifs with hneg
  · have hpos : 0 < remainder angle + 360 := by linarith
    refine ⟨Grid.round_nonneg hpos.le, ?_⟩
    have hlog : Int.log 2 |remainder angle + 360| ≤ 8 := by
      have hlt : |remainder angle + 360| < (2 : ℕ) ^ (9 : ℤ) := by
        rw [abs_of_pos hpos]
        push_cast
        linarith
      have := (Int.lt_zpow_iff_log_lt (b := 2) (by norm_num) (abs_pos.mpr hpos.ne')).mp hlt
      omega
    have hexponent : binary64.grid.exponent
        (Int.log binary64.grid.base |remainder angle + 360|) ≤ 0 := by
      rw [Format.exponent_eq, Format.base_eq]
      show max (Int.log 2 |remainder angle + 360| - ((53 : ℕ) - 1)) (-1074) ≤ 0
      omega
    have hround := Grid.round_le (k := 360) hexponent (x := remainder angle + 360) (by
      rw [zpow_zero]
      norm_num
      linarith)
    rw [zpow_zero, mul_one] at hround
    exact_mod_cast hround
  · exact ⟨not_lt.mp hneg, hhi.le⟩

theorem jlcRotation_mem {f : Footprint} {angle : ℚ} (h : jlcRotation lib f = .ok angle) :
    0 ≤ angle ∧ angle ≤ 360 := by
  rw [jlcRotation] at h
  cases hrule : jlcRotationRules.lookup f.reference with
  | none =>
    rw [hrule] at h
    cases h
    exact normalizedRotation_mem _
  | some rule =>
    rw [hrule] at h
    obtain ⟨lcsc, -, h⟩ := bind_eq_ok.mp h
    obtain ⟨mpn, -, h⟩ := bind_eq_ok.mp h
    obtain ⟨_, -, h⟩ := bind_eq_ok.mp h
    cases h
    exact normalizedRotation_mem _

theorem placementOf_cplRow {f : Footprint} {row : List (List Char)}
    (h : cplRow lib f = .ok row) : PlacementOf lib f row := by
  obtain ⟨angle, hangle, h⟩ := bind_eq_ok.mp h
  cases h
  obtain ⟨hlo, hhi⟩ := jlcRotation_mem hangle
  exact ⟨_, _, _, angle, rfl, signedConstant_fixed (by decide) _,
    signedConstant_fixed (by decide) _, hangle, hlo, hhi, signedConstant_fixed (by decide) _⟩

/-- The designators of a row of the bill of materials. -/
def designators (row : List (List Char)) : List (List Char) := ((row[1]?).getD []).splitOn ','

/-- The rows are those of the parts with one value, package and LCSC number each. -/
structure BomOf (lib : Library) (placed : List Footprint) (rows : List (List (List Char))) :
    Prop where
  distinct : (rows.map fun row => (row[0]?, row[2]?, row[3]?)).Nodup
  row : ∀ row ∈ rows, ∃ part : PartKey,
    row[0]? = some part.value.toList ∧ row[2]? = some part.package.toList ∧
    row[3]? = some part.lcsc.toList ∧
    (designators row).Perm ((placed.filter fun f => f.partKey lib = part).map fun f =>
      f.reference.toList)
  covered : ∀ f ∈ placed, ∃ row ∈ rows, row[0]? = some f.value.toList ∧
    row[2]? = some f.libItemName.toList ∧ row[3]? = some (f.lcsc lib).toList
  all : (rows.flatMap designators).Perm (placed.map fun f => f.reference.toList)

theorem perm_sortedGroups (placed : List Footprint) :
    (sortedGroups lib placed).Perm (groups lib placed) :=
  List.perm_insertionSort ..

/-- Joined designators are split again. -/
theorem designators_bomRow {group : PartKey × List String} (hne : group.2 ≠ [])
    (hcomma : ∀ reference ∈ group.2, ',' ∉ reference.toList) :
    (designators (bomRow group)).Perm (group.2.map String.toList) := by
  have hsorted := (List.perm_insertionSort (· ≤ ·) group.2).map String.toList
  have hsplit : designators (bomRow group)
      = (group.2.insertionSort (· ≤ ·)).map String.toList := by
    refine List.splitOn_intercalate ',' (fun l hl => ?_) fun h => hne ?_
    · obtain ⟨reference, hmem, rfl⟩ := List.mem_map.mp hl
      exact hcomma reference ((List.perm_insertionSort (· ≤ ·) group.2).subset hmem)
    · rw [h] at hsorted
      exact List.map_eq_nil_iff.mp hsorted.nil_eq.symm
  rw [hsplit]
  exact hsorted

theorem bomOf_bom {placed : List Footprint} (hcomma : ∀ f ∈ placed, ',' ∉ f.reference.toList) :
    BomOf lib placed ((sortedGroups lib placed).map bomRow) := by
  have hgroups := groupBy_spec (Footprint.partKey lib) Footprint.reference placed
  have hsorted : (sortedGroups lib placed).Perm (groups lib placed) :=
    perm_sortedGroups placed
  have hmem : ∀ group ∈ sortedGroups lib placed, group ∈ groups lib placed :=
    fun group hgroup => hsorted.subset hgroup
  have hvalues : ∀ group ∈ groups lib placed, group.2
      = (placed.filter fun f => f.partKey lib = group.1).map Footprint.reference :=
    hgroups.values
  have hsplit : ∀ group ∈ sortedGroups lib placed,
      (designators (bomRow group)).Perm (group.2.map String.toList) := by
    intro group hgroup
    have hgroup := hmem group hgroup
    refine designators_bomRow (fun hnil => ?_) fun reference href => ?_
    · obtain ⟨f, hf, hkey⟩ := (hgroups.mem _).mp (List.mem_map_of_mem hgroup)
      rw [hvalues group hgroup, List.map_eq_nil_iff, List.filter_eq_nil_iff] at hnil
      exact hnil f hf (decide_eq_true hkey)
    · rw [hvalues group hgroup] at href
      obtain ⟨f, hf, rfl⟩ := List.mem_map.mp href
      exact hcomma f (List.mem_of_mem_filter hf)
  constructor
  · rw [List.map_map]
    have hkeys : ((sortedGroups lib placed).map Prod.fst).Nodup :=
      (hsorted.map Prod.fst).nodup_iff.mpr hgroups.nodup
    refine (hkeys.of_map _).map_on fun a ha b hb heq => ?_
    have hkey : a.1 = b.1 := by
      obtain ⟨hvalue, hrest⟩ := Prod.mk.inj heq
      obtain ⟨hpackage, hlcsc⟩ := Prod.mk.inj hrest
      have hvalue := String.toList_injective (Option.some.inj hvalue)
      have hpackage := String.toList_injective (Option.some.inj hpackage)
      have hlcsc := String.toList_injective (Option.some.inj hlcsc)
      exact PartKey.ext hvalue hpackage hlcsc
    exact List.inj_on_of_nodup_map hkeys ha hb hkey
  · intro row hrow
    obtain ⟨group, hgroup, rfl⟩ := List.mem_map.mp hrow
    refine ⟨group.1, rfl, rfl, rfl, (hsplit group hgroup).trans ?_⟩
    rw [hvalues group (hmem group hgroup), List.map_map]
    exact List.Perm.refl _
  · intro f hf
    obtain ⟨group, hgroup, hkey⟩ := List.mem_map.mp ((hgroups.mem _).mpr ⟨f, hf, rfl⟩)
    refine ⟨bomRow group, List.mem_map_of_mem (hsorted.symm.subset hgroup), ?_⟩
    rw [bomRow, hkey]
    exact ⟨rfl, rfl, rfl⟩
  · rw [List.flatMap_map]
    have hperm : ((sortedGroups lib placed).flatMap fun group => designators (bomRow group)).Perm
        ((sortedGroups lib placed).flatMap fun group => group.2.map String.toList) :=
      List.Perm.flatMap_left _ hsplit
    refine hperm.trans ((hsorted.flatMap_right _).trans ?_)
    rw [← List.map_flatMap, ← Function.comp_def String.toList, ← List.map_map]
    exact hgroups.flatMap.map String.toList

/-- The tables on the characters of ASCII, and nanometres divided by a million. -/
def asciiLibrary : Library where
  isSpace c := c = ' ' || c = '\t' || c = '\n' || c = '\r'
  isDigit := Char.isDigit
  toMM nm := roundFloat (nm / 1000000)

/-- An op amp with a rule, two capacitors of one row, and a connector that is not fitted, whose
reference has a comma. -/
def parts : List Footprint :=
  [{ reference := "U1", value := "TLV9062", libItemName := "SOT-23-8"
     fields := [("LCSC", " C2867884"), ("MPN", "TLV9062IDDFR")]
     padsSmd := [true, true], x := 148500000, y := 105250000, front := true
     orientationDegrees := 0 },
    { reference := "C6", value := "100n, 10%", libItemName := "C_0402_1005Metric"
      fields := [("LCSC", "C1525")]
      padsSmd := [true, true], x := 152675000, y := 108950000, front := true
      orientationDegrees := -270 },
    { reference := "C5", value := "100n, 10%", libItemName := "C_0402_1005Metric"
      fields := [("LCSC", "C1525")]
      padsSmd := [true, true], x := 144425000, y := 104450000, front := true
      orientationDegrees := 0 },
    { reference := "J1,J2", value := "XIAO", libItemName := "PinSocket_1x07_P2.54mm_Vertical"
      fields := [("LCSC", "DNI")]
      padsSmd := [false], x := 130000000, y := 104000000, front := true
      orientationDegrees := 0 }]

end SpokeSensor.JlcAssembly
