import Mathlib.Data.List.Basic

/-!
# Comma-separated values

Rows of fields as a text, one line a row, with quotes around the fields that need them, and a reader
that takes such a text apart.

## Main definitions

* `writeField`, `writeRow`, `write`: the writer; a field is quoted if it holds a comma, a quote or
  an end of line
* `Reader`, `Reader.step`, `read`: the reader, character by character

## Main results

* `read_write`: what was written is read back
-/

namespace Csv

/-- The quote. -/
def quote : Char := Char.ofNat 34

/-! ## The writer -/

/-- The characters that a field without quotes does not hold. -/
def special (c : Char) : Bool := c = ',' || c = quote || c = '\r' || c = '\n'

theorem special_eq_false_iff {c : Char} :
    special c = false ↔ c ≠ ',' ∧ c ≠ quote ∧ c ≠ '\r' ∧ c ≠ '\n' := by
  simp [special, and_assoc]

/-- A character between quotes: a quote is doubled. -/
def double (c : Char) : List Char := if c = quote then [quote, quote] else [c]

def writeField (field : List Char) : List Char :=
  if field.any special then quote :: field.flatMap double ++ [quote] else field

/-- The fields of a row that follow its first one. -/
def writeRest (fields : List (List Char)) : List Char :=
  fields.flatMap fun field => ',' :: writeField field

/-- A row with the end of its line; a row with an empty field alone differs from one without
fields. -/
def writeRow : List (List Char) → List Char
  | [] => ['\r', '\n']
  | [[]] => [quote, quote, '\r', '\n']
  | field :: fields => writeField field ++ writeRest fields ++ ['\r', '\n']

theorem writeRow_cons {field : List Char} {fields : List (List Char)}
    (h : field :: fields ≠ [[]]) :
    writeRow (field :: fields) = writeField field ++ writeRest fields ++ ['\r', '\n'] := by
  rw [writeRow]
  rintro rfl rfl
  exact h rfl

/-- The text of rows. -/
def write (rows : List (List String)) : String :=
  String.ofList (rows.flatMap fun row => writeRow (row.map String.toList))

/-! ## The reader -/

/-- Where a reader stands: at the start of a row or of a further field, in a field without quotes,
between quotes, behind a quote that may be the closing one, or inside the end of a line. -/
inductive Mode where
  | row
  | field
  | plain
  | quoted
  | closing
  | lineEnd
deriving DecidableEq, Repr

/-- What a reader has read: the characters of the current field, the fields of the current row, and
the rows before it. -/
structure Reader where
  mode : Mode
  field : List Char
  fields : List (List Char)
  rows : List (List (List Char))
deriving DecidableEq, Repr

namespace Reader

/-- Nothing was read yet. -/
def start : Reader := ⟨.row, [], [], []⟩

/-- Read one more character; `none` is a text that no writer writes. -/
def step (s : Reader) (c : Char) : Option Reader :=
  match s.mode with
  | .quoted =>
    if c = quote then some { s with mode := .closing }
    else some { s with field := s.field ++ [c] }
  | .lineEnd => if c = '\n' then some { s with mode := .row } else none
  | .closing =>
    -- a doubled quote, or the end of the field
    if c = quote then some { s with mode := .quoted, field := s.field ++ [quote] }
    else if c = ',' then some ⟨.field, [], s.fields ++ [s.field], s.rows⟩
    else if c = '\r' then some ⟨.lineEnd, [], [], s.rows ++ [s.fields ++ [s.field]]⟩
    else none
  | .plain =>
    if c = ',' then some ⟨.field, [], s.fields ++ [s.field], s.rows⟩
    else if c = '\r' then some ⟨.lineEnd, [], [], s.rows ++ [s.fields ++ [s.field]]⟩
    else if special c then none
    else some { s with field := s.field ++ [c] }
  | .field | .row =>
    if c = quote then some { s with mode := .quoted }
    else if c = ',' then some ⟨.field, [], s.fields ++ [s.field], s.rows⟩
    else if c = '\r' then
      some ⟨.lineEnd, [], [], s.rows ++ [if s.mode = .row then [] else s.fields ++ [s.field]]⟩
    else if special c then none
    else some { s with mode := .plain, field := s.field ++ [c] }

/-- The reader stands behind a whole field. -/
def Behind (s : Reader) : Prop := s.mode = .field ∨ s.mode = .plain ∨ s.mode = .closing

variable {s : Reader}

theorem step_comma (h : s.mode = .row ∨ s.Behind) :
    s.step ',' = some ⟨.field, [], s.fields ++ [s.field], s.rows⟩ := by
  obtain ⟨mode, field, fields, rows⟩ := s
  rcases h with rfl | rfl | rfl | rfl <;> rfl

theorem step_return (h : s.Behind) :
    s.step '\r' = some ⟨.lineEnd, [], [], s.rows ++ [s.fields ++ [s.field]]⟩ := by
  obtain ⟨mode, field, fields, rows⟩ := s
  rcases h with rfl | rfl | rfl <;> rfl

/-- Between quotes, the doubled quotes are read as single ones. -/
theorem read_doubled (field before : List Char) (fields : List (List Char))
    (rows : List (List (List Char))) :
    (field.flatMap double).foldlM step ⟨.quoted, before, fields, rows⟩ =
      some ⟨.quoted, before ++ field, fields, rows⟩ := by
  induction field generalizing before with
  | nil => simp
  | cons c field ih =>
    rw [List.flatMap_cons, List.foldlM_append]
    by_cases hc : c = quote
    · subst hc
      have htwo : (double quote).foldlM step ⟨.quoted, before, fields, rows⟩ =
          some ⟨.quoted, before ++ [quote], fields, rows⟩ := by
        simp [double, step]
      rw [htwo]
      simpa using ih (before ++ [quote])
    · have hone : (double c).foldlM step ⟨.quoted, before, fields, rows⟩ =
          some ⟨.quoted, before ++ [c], fields, rows⟩ := by
        simp [double, step, hc]
      rw [hone]
      simpa using ih (before ++ [c])

/-- Characters that need no quotes are read as they are. -/
theorem read_plain (field before : List Char) (fields : List (List Char))
    (rows : List (List (List Char))) (h : ∀ c ∈ field, special c = false) :
    field.foldlM step ⟨.plain, before, fields, rows⟩ =
      some ⟨.plain, before ++ field, fields, rows⟩ := by
  induction field generalizing before with
  | nil => simp
  | cons c field ih =>
    obtain ⟨hc, hfield⟩ := List.forall_mem_cons.mp h
    have hstep : step ⟨.plain, before, fields, rows⟩ c =
        some ⟨.plain, before ++ [c], fields, rows⟩ := by
      obtain ⟨hcomma, -, hreturn, -⟩ := special_eq_false_iff.mp hc
      simp [step, hcomma, hreturn, hc]
    rw [List.foldlM_cons, hstep]
    simpa using ih (before ++ [c]) hfield

/-- A field that was written is read, from the start of a row or of a further field. Only an empty
field at the start of a row leaves the reader where it was. -/
theorem read_writeField (field : List Char) {mode : Mode} (hmode : mode = .row ∨ mode = .field)
    (fields : List (List Char)) (rows : List (List (List Char))) :
    ∃ after, (writeField field).foldlM step ⟨mode, [], fields, rows⟩ =
        some ⟨after, field, fields, rows⟩ ∧
      (Behind ⟨after, field, fields, rows⟩ ∨ after = .row ∧ mode = .row ∧ field = []) := by
  by_cases hspecial : field.any special = true
  · have hopen : step ⟨mode, [], fields, rows⟩ quote = some ⟨.quoted, [], fields, rows⟩ := by
      rcases hmode with rfl | rfl <;> rfl
    have hclose : step ⟨.quoted, field, fields, rows⟩ quote =
        some ⟨.closing, field, fields, rows⟩ :=
      rfl
    refine ⟨.closing, ?_, .inl (.inr (.inr rfl))⟩
    rw [writeField, if_pos hspecial, List.cons_append, List.foldlM_cons, hopen]
    simp [List.foldlM_append, read_doubled, hclose]
  · have hplain : ∀ c ∈ field, special c = false := by simpa using hspecial
    rw [writeField, if_neg hspecial]
    cases field with
    | nil =>
      refine ⟨mode, rfl, ?_⟩
      rcases hmode with rfl | rfl
      · exact .inr ⟨rfl, rfl, rfl⟩
      · exact .inl (.inl rfl)
    | cons c field =>
      obtain ⟨hc, hfield⟩ := List.forall_mem_cons.mp hplain
      obtain ⟨hcomma, hquote, hreturn, -⟩ := special_eq_false_iff.mp hc
      have hstep : step ⟨mode, [], fields, rows⟩ c = some ⟨.plain, [c], fields, rows⟩ := by
        rcases hmode with rfl | rfl <;> simp [step, hcomma, hquote, hreturn, hc]
      refine ⟨.plain, ?_, .inl (.inr (.inl rfl))⟩
      rw [List.foldlM_cons, hstep]
      simpa using read_plain field [c] fields rows hfield

/-- The further fields of a row are read one after another. -/
theorem read_writeRest (rest : List (List Char)) (s : Reader)
    (h : s.Behind ∨ s.mode = .row ∧ rest ≠ []) :
    ∃ after, (writeRest rest).foldlM step s = some after ∧ after.Behind ∧
      after.fields ++ [after.field] = s.fields ++ s.field :: rest ∧ after.rows = s.rows := by
  induction rest generalizing s with
  | nil =>
    rcases h with hbehind | ⟨-, hne⟩
    · exact ⟨s, rfl, hbehind, rfl, rfl⟩
    · exact absurd rfl hne
  | cons field rest ih =>
    obtain ⟨mode, hfield, hmode⟩ :=
      read_writeField field (.inr rfl) (s.fields ++ [s.field]) s.rows
    have hbehind : Behind ⟨mode, field, s.fields ++ [s.field], s.rows⟩ :=
      hmode.resolve_right fun h => by cases h.2.1
    obtain ⟨after, hafter, hend, hfields, hrows⟩ := ih _ (.inl hbehind)
    refine ⟨after, ?_, hend, by simpa using hfields, hrows⟩
    rw [writeRest, List.flatMap_cons, List.cons_append, List.foldlM_cons,
      step_comma (h.symm.imp_left And.left)]
    simp only [Option.bind_eq_bind, Option.bind_some, List.foldlM_append, hfield]
    exact hafter

/-- The end of a line ends the row. -/
theorem read_lineEnd {s : Reader} (h : s.Behind) :
    ['\r', '\n'].foldlM step s = some ⟨.row, [], [], s.rows ++ [s.fields ++ [s.field]]⟩ := by
  rw [List.foldlM_cons, step_return h]
  rfl

/-- A row that was written is read. -/
theorem read_writeRow (row : List (List Char)) (rows : List (List (List Char))) :
    (writeRow row).foldlM step ⟨.row, [], [], rows⟩ = some ⟨.row, [], [], rows ++ [row]⟩ := by
  by_cases hsingle : row = [] ∨ row = [[]]
  · rcases hsingle with rfl | rfl <;> rfl
  · obtain ⟨hnil, hempty⟩ := not_or.mp hsingle
    obtain ⟨field, rest, rfl⟩ := List.exists_cons_of_ne_nil hnil
    obtain ⟨mode, hfield, hmode⟩ := read_writeField field (.inl rfl) [] rows
    have hrest : Behind ⟨mode, field, [], rows⟩ ∨ mode = .row ∧ rest ≠ [] :=
      hmode.imp_right fun ⟨hrow, _, hfield⟩ => ⟨hrow, fun hrest => hempty (by rw [hfield, hrest])⟩
    obtain ⟨after, hafter, hbehind, hfields, hrows⟩ := read_writeRest rest _ hrest
    rw [writeRow_cons hempty, List.foldlM_append, List.foldlM_append, hfield]
    simp only [Option.bind_eq_bind, Option.bind_some, hafter]
    rw [read_lineEnd hbehind, hfields, hrows]
    rfl

/-- Rows that were written are read one after another. -/
theorem read_writeRows (more rows : List (List (List Char))) :
    (more.flatMap writeRow).foldlM step ⟨.row, [], [], rows⟩ =
      some ⟨.row, [], [], rows ++ more⟩ := by
  induction more generalizing rows with
  | nil => simp
  | cons row more ih =>
    rw [List.flatMap_cons, List.foldlM_append, read_writeRow]
    simpa using ih (rows ++ [row])

end Reader

/-- The rows of a text, all of whose lines are ended. -/
def read (text : String) : Option (List (List String)) :=
  match text.toList.foldlM Reader.step .start with
  | some ⟨.row, _, _, rows⟩ => some (rows.map (List.map String.ofList))
  | _ => none

/-- **What was written is read back.** -/
theorem read_write (rows : List (List String)) : read (write rows) = some rows := by
  have hread : (write rows).toList.foldlM Reader.step .start =
      some ⟨.row, [], [], rows.map (List.map String.toList)⟩ := by
    have h := Reader.read_writeRows (rows.map (List.map String.toList)) []
    rw [List.nil_append] at h
    rw [write, String.toList_ofList, ← h, List.flatMap_map]
    rfl
  rw [read, hread]
  simp [Function.comp_def]

end Csv
