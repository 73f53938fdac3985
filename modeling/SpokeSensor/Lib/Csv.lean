import Mathlib.Data.List.Basic

/-!
# Comma-separated values

- `Dialect`, `writeField`, `document`: the writer of rows of texts, which quotes a
  field only where it has to, and doubles the quotes in it.
- `Reader`, `parse`: the reader, which takes one character after the other and is in
  one of a few phases.
- `run_writeField`, `run_writeRow`: what the reader makes of a field and of a row,
  from any state in which they can come.
- `parse_document`: what is written is read back, whatever the fields hold. Quoted
  fields keep delimiters, quotes and line ends, and a row with one empty field is told
  from a row without fields.
-/

namespace Csv

/-- The delimiter and the quote. -/
structure Dialect where
  delimiter : Char
  quote : Char
  quote_ne_delimiter : quote ≠ delimiter
  delimiter_not_newline : delimiter ≠ '\n' ∧ delimiter ≠ '\r'
  quote_not_newline : quote ≠ '\n' ∧ quote ≠ '\r'

namespace Dialect

variable (d : Dialect)

/-! ## The writer

A field is quoted if it holds a delimiter, a quote or a line break, and a quote inside
of it is doubled.
-/

/-- A character for which a field is quoted. -/
def special (c : Char) : Bool := c = d.delimiter || c = d.quote || c = '\n' || c = '\r'

/-- A quote in a quoted field is written twice. -/
def escape (field : List Char) : List Char :=
  field.flatMap fun c => if c = d.quote then [c, c] else [c]

def quoted (field : List Char) : List Char := d.quote :: (d.escape field ++ [d.quote])

def writeField (field : List Char) : List Char :=
  if field.any d.special then d.quoted field else field

/-- A row with its line end. -/
def writeRow (fields : List (List Char)) : List Char :=
  if fields = [[]] then d.quoted [] ++ ['\n']
  else [d.delimiter].intercalate (fields.map d.writeField) ++ ['\n']

def document (rows : List (List (List Char))) : List Char := rows.flatMap d.writeRow

end Dialect

/-! ## The reader

A machine over the characters that knows whether it is inside of quotes, and what it
has read of the record.
-/

/-- Where the reader is. -/
inductive Phase where
  | startRecord
  | startField
  | inField
  | inQuoted
  | quoteInQuoted
  | eatNewline
  deriving DecidableEq, Repr

/-- The field and the record that are being read, and the records read before. -/
structure Reader where
  phase : Phase
  field : List Char
  fields : List (List Char)
  records : List (List (List Char))

namespace Reader

/-- Between two records. -/
def between (records : List (List (List Char))) : Reader := ⟨.startRecord, [], [], records⟩

/-- The field ends, and another one begins. -/
def endField (s : Reader) : Reader := ⟨.startField, [], s.fields ++ [s.field], s.records⟩

/-- The field and the record end. -/
def endRecord (s : Reader) (phase : Phase) : Reader :=
  ⟨phase, [], [], s.records ++ [s.fields ++ [s.field]]⟩

def push (s : Reader) (phase : Phase) (c : Char) : Reader :=
  { s with phase := phase, field := s.field ++ [c] }

variable (d : Dialect)

/-- A character after a field that may go on. -/
def stepField (s : Reader) (c : Char) : Reader :=
  if c = '\n' then s.endRecord .startRecord
  else if c = '\r' then s.endRecord .eatNewline
  else if c = d.delimiter then s.endField
  else s.push .inField c

/-- The first character of a field. -/
def stepStart (s : Reader) (c : Char) : Reader :=
  if c = d.quote then { s with phase := .inQuoted } else s.stepField d c

/-- The first character of a record. -/
def stepRecord (s : Reader) (c : Char) : Reader :=
  if c = '\n' then { s with phase := .startRecord, records := s.records ++ [[]] }
  else if c = '\r' then { s with phase := .eatNewline, records := s.records ++ [[]] }
  else s.stepStart d c

def step (s : Reader) (c : Char) : Reader :=
  match s.phase with
  | .startRecord => s.stepRecord d c
  | .startField => s.stepStart d c
  | .inField => s.stepField d c
  | .inQuoted => if c = d.quote then { s with phase := .quoteInQuoted } else s.push .inQuoted c
  | .quoteInQuoted => if c = d.quote then s.push .inQuoted c else s.stepField d c
  | .eatNewline => if c = '\n' then { s with phase := .startRecord } else s.stepRecord d c

def run (s : Reader) (text : List Char) : Reader := text.foldl (step d) s

/-- The records at the end of the text, where the last line end may be missing. -/
def finish (s : Reader) : List (List (List Char)) :=
  if s.phase = .startRecord ∨ s.phase = .eatNewline then s.records
  else s.records ++ [s.fields ++ [s.field]]

end Reader

open Reader

def parse (d : Dialect) (text : List Char) : List (List (List Char)) :=
  ((between []).run d text).finish

/-! ## What is written is read back

One lemma for each part of a row: after it the reader holds the fields so far. A
document is read row by row.
-/

variable {d : Dialect} {s : Reader}

@[simp] theorem run_nil : s.run d [] = s := rfl

@[simp] theorem run_cons (c : Char) (text : List Char) :
    s.run d (c :: text) = (s.step d c).run d text := rfl

theorem run_append (text rest : List Char) : s.run d (text ++ rest) = (s.run d text).run d rest :=
  List.foldl_append

/-- A quoted field up to its closing quote. -/
theorem run_escape (text : List Char) {field : List Char} {fields : List (List Char)}
    {records : List (List (List Char))} :
    Reader.run d ⟨.inQuoted, field, fields, records⟩ (d.escape text)
      = ⟨.inQuoted, field ++ text, fields, records⟩ := by
  induction text generalizing field with
  | nil => rw [List.append_nil]; rfl
  | cons c text ih =>
    have hstep : Reader.run d ⟨.inQuoted, field, fields, records⟩
        (if c = d.quote then [c, c] else [c]) = ⟨.inQuoted, field ++ [c], fields, records⟩ := by
      by_cases hc : c = d.quote
      · simp [hc, step, push]
      · simp [hc, step, push]
    rw [Dialect.escape, List.flatMap_cons, run_append, hstep]
    rw [← Dialect.escape, ih, List.append_assoc]
    rfl

/-- The characters of a field that is not quoted. -/
theorem run_plain {text : List Char} (h : ∀ c ∈ text, d.special c = false) {field : List Char}
    {fields : List (List Char)} {records : List (List (List Char))} :
    Reader.run d ⟨.inField, field, fields, records⟩ text
      = ⟨.inField, field ++ text, fields, records⟩ := by
  induction text generalizing field with
  | nil => rw [List.append_nil]; rfl
  | cons c text ih =>
    have hc := h c (List.mem_cons_self ..)
    simp only [Dialect.special, Bool.or_eq_false_iff, decide_eq_false_iff_not] at hc
    rw [run_cons, show Reader.step d ⟨.inField, field, fields, records⟩ c
      = ⟨.inField, field ++ [c], fields, records⟩ by simp [step, stepField, push, hc],
      ih fun c hc => h c (List.mem_cons_of_mem _ hc), List.append_assoc]
    rfl

/-- After a field, with which a field or a record may end. -/
structure Holding (s : Reader) (field : List Char) (fields : List (List Char))
    (records : List (List (List Char))) : Prop where
  phase : s.phase = .startField ∨ s.phase = .inField ∨ s.phase = .quoteInQuoted
  field : s.field = field
  fields : s.fields = fields
  records : s.records = records

section

variable {field : List Char} {fields : List (List Char)} {records : List (List (List Char))}

theorem Holding.delimiter (h : Holding s field fields records) :
    s.step d d.delimiter = ⟨.startField, [], fields ++ [field], records⟩ := by
  obtain ⟨hphase, rfl, rfl, rfl⟩ := h
  have hquote : d.delimiter ≠ d.quote := d.quote_ne_delimiter.symm
  obtain ⟨hn, hr⟩ := d.delimiter_not_newline
  rcases hphase with hphase | hphase | hphase <;>
    simp [step, stepStart, stepField, endField, hphase, hquote, hn, hr]

theorem Holding.newline (h : Holding s field fields records) :
    s.step d '\n' = between (records ++ [fields ++ [field]]) := by
  obtain ⟨hphase, rfl, rfl, rfl⟩ := h
  have hquote : '\n' ≠ d.quote := d.quote_not_newline.1.symm
  rcases hphase with hphase | hphase | hphase <;>
    simp [step, stepStart, stepField, endRecord, between, hphase, hquote]

/-- A field, from its first character on. -/
theorem run_writeField (field : List Char) :
    Holding (Reader.run d ⟨.startField, [], fields, records⟩ (d.writeField field)) field fields
      records := by
  rw [Dialect.writeField]
  split_ifs with hspecial
  · have hopen : Reader.step d ⟨.startField, [], fields, records⟩ d.quote
        = ⟨.inQuoted, [], fields, records⟩ := by simp [step, stepStart]
    have hclose : Reader.step d ⟨.inQuoted, field, fields, records⟩ d.quote
        = ⟨.quoteInQuoted, field, fields, records⟩ := by simp [step]
    rw [Dialect.quoted, run_cons, hopen, run_append, run_escape, List.nil_append, run_cons, hclose]
    exact ⟨.inr (.inr rfl), rfl, rfl, rfl⟩
  · have hplain : ∀ c ∈ field, d.special c = false := by simpa using hspecial
    cases field with
    | nil => exact ⟨.inl rfl, rfl, rfl, rfl⟩
    | cons c text =>
      have hc := hplain c (List.mem_cons_self ..)
      simp only [Dialect.special, Bool.or_eq_false_iff, decide_eq_false_iff_not] at hc
      rw [run_cons, show Reader.step d ⟨.startField, [], fields, records⟩ c
        = ⟨.inField, [c], fields, records⟩ by simp [step, stepStart, stepField, push, hc],
        run_plain fun c hc => hplain c (List.mem_cons_of_mem _ hc)]
      exact ⟨.inr (.inl rfl), rfl, rfl, rfl⟩

/-- The fields of a row, from the first character of the first field on. -/
theorem run_fields (row : List (List Char)) (hrow : row ≠ []) (rest : List Char) :
    Reader.run d ⟨.startField, [], fields, records⟩
        ([d.delimiter].intercalate (row.map d.writeField) ++ '\n' :: rest)
      = (between (records ++ [fields ++ row])).run d rest := by
  induction row generalizing fields with
  | nil => exact absurd rfl hrow
  | cons first row ih =>
    have hfirst : Holding (Reader.run d ⟨.startField, [], fields, records⟩ (d.writeField first))
        first fields records := run_writeField first
    cases row with
    | nil =>
      rw [List.map_singleton, List.intercalate_singleton, run_append, run_cons, hfirst.newline]
    | cons second row =>
      rw [List.map_cons, List.map_cons, List.intercalate_cons_cons, ← List.map_cons,
        List.append_assoc, List.append_assoc, run_append, List.singleton_append, run_cons,
        hfirst.delimiter, ih (List.cons_ne_nil _ _), List.append_assoc]
      rfl

/-- The first character of a row that is neither empty nor one empty field. -/
theorem head_row {row : List (List Char)} (hempty : row ≠ []) (hsingle : row ≠ [[]]) :
    ∃ c text, [d.delimiter].intercalate (row.map d.writeField) = c :: text ∧ c ≠ '\n' ∧
      c ≠ '\r' := by
  have hfield : ∀ field, d.writeField field = [] ∨
      ∃ c text, d.writeField field = c :: text ∧ c ≠ '\n' ∧ c ≠ '\r' := by
    intro field
    rw [Dialect.writeField]
    split_ifs with hspecial
    · exact .inr ⟨d.quote, _, rfl, d.quote_not_newline⟩
    · cases field with
      | nil => exact .inl rfl
      | cons c text =>
        have hc : d.special c = false := by
          simp only [List.any_cons, Bool.or_eq_true, not_or, Bool.not_eq_true] at hspecial
          exact hspecial.1
        simp only [Dialect.special, Bool.or_eq_false_iff, decide_eq_false_iff_not] at hc
        exact .inr ⟨c, text, rfl, hc.1.2, hc.2⟩
  cases row with
  | nil => exact absurd rfl hempty
  | cons first row =>
    cases row with
    | nil =>
      rw [List.map_singleton, List.intercalate_singleton]
      rcases hfield first with hnil | hcons
      · -- only an empty field is written as nothing
        have hfirst : first = [] := by
          rw [Dialect.writeField] at hnil
          split_ifs at hnil
          · cases hnil
          · exact hnil
        exact absurd (by rw [hfirst]) hsingle
      · exact hcons
    | cons second row =>
      rw [List.map_cons, List.map_cons, List.intercalate_cons_cons]
      rcases hfield first with hnil | ⟨c, text, htext, hc⟩
      · rw [hnil]
        exact ⟨d.delimiter, _, rfl, d.delimiter_not_newline⟩
      · rw [htext]
        exact ⟨c, _, rfl, hc⟩

end

/-- A row, from between two records. -/
theorem run_writeRow (row : List (List Char)) (records : List (List (List Char)))
    (rest : List Char) :
    (between records).run d (d.writeRow row ++ rest) = (between (records ++ [row])).run d rest := by
  obtain ⟨hn, hr⟩ := d.quote_not_newline
  rw [Dialect.writeRow]
  split_ifs with hsingle
  · have hopen : (between records).step d d.quote = ⟨.inQuoted, [], [], records⟩ := by
      simp [step, stepRecord, stepStart, between, hn, hr]
    have hclose : Reader.step d ⟨.inQuoted, [], [], records⟩ d.quote
        = ⟨.quoteInQuoted, [], [], records⟩ := by simp [step]
    have hholding : Holding ⟨.quoteInQuoted, [], [], records⟩ [] [] records :=
      ⟨.inr (.inr rfl), rfl, rfl, rfl⟩
    show (((between records).step d d.quote).step d d.quote).run d ('\n' :: rest) = _
    rw [hopen, hclose, run_cons, hholding.newline, hsingle]
    rfl
  · cases row with
    | nil => rfl
    | cons first row =>
      have hne : first :: row ≠ [] := List.cons_ne_nil _ _
      obtain ⟨c, text, htext, hcn, hcr⟩ := head_row (d := d) hne hsingle
      have hsame : (between records).step d c
          = Reader.step d ⟨.startField, [], [], records⟩ c := by
        simp [step, stepRecord, between, hcn, hcr, stepStart, stepField, endField, push]
      have hfields : Reader.run d ⟨.startField, [], [], records⟩ _ = _ := run_fields _ hne rest
      rw [htext] at hfields ⊢
      rw [List.append_assoc, List.singleton_append, List.cons_append, run_cons, hsame]
      exact hfields

theorem parse_document (rows : List (List (List Char))) : parse d (d.document rows) = rows := by
  have hrun : ∀ records, (between records).run d (d.document rows) = between (records ++ rows) := by
    induction rows with
    | nil =>
      intro records
      rw [List.append_nil]
      rfl
    | cons row rows ih =>
      intro records
      rw [Dialect.document, List.flatMap_cons, run_writeRow, ← Dialect.document, ih,
        List.append_assoc]
      rfl
  rw [parse, hrun]
  rfl

end Csv
