import Mathlib.Algebra.GroupWithZero.Nat
import Mathlib.Data.List.Basic
import Mathlib.Data.List.Infix

/-!
# Comma-separated values

Tables of cells as text, after RFC 4180 with a delimiter and a line ending of one's own: a writer
that quotes the cells a rule picks, and a reader. The reader ends a cell that is not quoted at the
first delimiter or line ending, whether the writer meant it or not, and takes the line ending at the
very end of a text as the end of its last record. So a table is read back exactly when no cell that
stands unquoted holds one of the two, and the last record shows in the text (`parse_writeTable`).
-/

namespace Csv

abbrev Cell := List Char

/-- A delimiter and a line ending that a reader can tell from each other and from quotes. -/
structure IsDialect (d : Char) (le : List Char) : Prop where
  delimiter_ne : d ≠ '"'
  lineEnding_ne : le ≠ []
  quote_not_mem : '"' ∉ le
  delimiter_not_mem : d ∉ le

instance (d : Char) (le : List Char) : Decidable (IsDialect d le) :=
  decidable_of_iff (d ≠ '"' ∧ le ≠ [] ∧ '"' ∉ le ∧ d ∉ le)
    ⟨fun ⟨h₁, h₂, h₃, h₄⟩ => ⟨h₁, h₂, h₃, h₄⟩, fun ⟨h₁, h₂, h₃, h₄⟩ => ⟨h₁, h₂, h₃, h₄⟩⟩

/-! ## Writing -/

def doubled (T : Cell) : List Char := T.flatMap fun c => if c = '"' then ['"', '"'] else [c]

def writeField (quotes : Cell → Bool) (T : Cell) : List Char :=
  if quotes T then '"' :: (doubled T ++ ['"']) else T

/-- A record: its cells with a delimiter between them. -/
def writeRow (quotes : Cell → Bool) (d : Char) (row : List Cell) : List Char :=
  [d].intercalate (row.map (writeField quotes))

/-- A table: its records with a line ending between them. -/
def writeTable (quotes : Cell → Bool) (d : Char) (le : List Char) (table : List (List Cell)) :
    List Char :=
  le.intercalate (table.map (writeRow quotes d))

/-! ## Reading -/

inductive Stop
  | cell
  | record
  | file
  deriving DecidableEq, Repr

/-- The end of a cell, if the text starts with one, and the text after it. -/
def stop? (d : Char) (le : List Char) : List Char → Option (Stop × List Char)
  | [] => some (.file, [])
  | c :: s =>
    if le <+: c :: s then some (.record, (c :: s).drop le.length)
    else if c = d then some (.cell, s)
    else none

/-- A quoted cell from behind its first quote, and what follows its last one. -/
def readQuoted : List Char → Option (Cell × List Char)
  | [] => none
  | c :: s =>
    if c = '"' then
      match s with
      | [] => some ([], [])
      | c' :: s' =>
        if c' = '"' then (readQuoted s').map fun r => ('"' :: r.1, r.2) else some ([], c' :: s')
    else (readQuoted s).map fun r => (c :: r.1, r.2)

/-- A cell that is not quoted, and its end with what follows; there is no quote in it. -/
def readPlain (d : Char) (le : List Char) : List Char → Option (Cell × List Char)
  | [] => some ([], [])
  | c :: s =>
    if (stop? d le (c :: s)).isSome then some ([], c :: s)
    else if c = '"' then none
    else (readPlain d le s).map fun r => (c :: r.1, r.2)

def readField (d : Char) (le : List Char) : List Char → Option (Cell × List Char)
  | [] => readPlain d le []
  | c :: s => if c = '"' then readQuoted s else readPlain d le (c :: s)

/-- The records of a text, with `fuel` for as many cells. -/
def parseFrom (d : Char) (le : List Char) : ℕ → List Char → Option (List (List Cell))
  | 0, _ => none
  | fuel + 1, s =>
    match readField d le s with
    | none => none
    | some (T, s) =>
      match stop? d le s with
      | none => none
      | some (.file, _) => some [[T]]
      | some (.cell, s) =>
        match parseFrom d le fuel s with
        | some (row :: table) => some ((T :: row) :: table)
        | _ => none
      | some (.record, s) =>
        if s = [] then some [[T]] else (parseFrom d le fuel s).map fun table => [T] :: table

/-- The table that a text is: no record at all when it is empty. -/
def parse (d : Char) (le s : List Char) : Option (List (List Cell)) :=
  if s = [] then some [] else parseFrom d le (s.length + 1) s

/-! ## One cell -/

section Cells

variable {d : Char} {le w T T' s : List Char}

/-- No delimiter in a text that `after` follows, and no line ending that begins in it. -/
def Clear (d : Char) (le after : List Char) : Cell → Prop
  | [] => True
  | c :: T => c ≠ d ∧ ¬ le <+: c :: T ++ after ∧ Clear d le after T

/-- The text begins with the end of a cell, or is empty. -/
def AtStop (d : Char) (le w : List Char) : Prop := (stop? d le w).isSome

@[simp]
theorem atStop_nil : AtStop d le [] := rfl

@[simp]
theorem atStop_delimiter : AtStop d le (d :: s) := by
  simp only [AtStop, stop?]
  split <;> simp

theorem atStop_lineEnding (h : IsDialect d le) : AtStop d le (le ++ s) := by
  obtain ⟨e, le, rfl⟩ := List.exists_cons_of_ne_nil h.lineEnding_ne
  simp [AtStop, stop?]

theorem AtStop.head_ne_quote (h : IsDialect d le) (hw : AtStop d le w) : w.head? ≠ some '"' := by
  cases w with
  | nil => simp
  | cons c w =>
    rintro ⟨rfl⟩
    have hd : ¬ le <+: '"' :: w := by
      intro hle
      obtain ⟨e, le, rfl⟩ := List.exists_cons_of_ne_nil h.lineEnding_ne
      have he : e = '"' := (List.cons_prefix_cons.mp hle).1
      exact h.quote_not_mem (by simp [he])
    simp [AtStop, stop?, hd, h.delimiter_ne.symm] at hw

@[simp]
theorem readQuoted_quote_quote :
    readQuoted ('"' :: '"' :: s) = (readQuoted s).map fun r => ('"' :: r.1, r.2) := by
  rw [readQuoted]
  simp

@[simp]
theorem readQuoted_cons {c : Char} (hc : c ≠ '"') :
    readQuoted (c :: s) = (readQuoted s).map fun r => (c :: r.1, r.2) := by
  rw [readQuoted.eq_def]
  simp [hc]

theorem readQuoted_doubled (hw : w.head? ≠ some '"') :
    ∀ T, readQuoted (doubled T ++ '"' :: w) = some (T, w) := by
  intro T
  induction T with
  | nil =>
    cases w with
    | nil => simp [doubled, readQuoted]
    | cons c w =>
      have hc : c ≠ '"' := by simpa using hw
      simp [doubled, readQuoted, hc]
  | cons c T ih =>
    rw [show doubled (c :: T) = (if c = '"' then ['"', '"'] else [c]) ++ doubled T from rfl]
    by_cases hc : c = '"'
    · simp [hc, ih]
    · simp [hc, ih]

theorem prefix_of_readPlain (hw : AtStop d le w) :
    ∀ T, readPlain d le (T ++ w) = some (T', s) → T' <+: T := by
  intro T
  induction T generalizing T' s with
  | nil =>
    intro hread
    cases w with
    | nil => simp_all [readPlain]
    | cons c w =>
      have hstop : (stop? d le (c :: w)).isSome := hw
      simp_all [readPlain]
  | cons c T ih =>
    intro hread
    rw [List.cons_append, readPlain] at hread
    split at hread
    · simp only [Option.some.injEq, Prod.mk.injEq] at hread
      simp [← hread.1]
    split at hread
    · exact absurd hread (by simp)
    obtain ⟨⟨T'', s'⟩, hread', heq⟩ := Option.map_eq_some_iff.mp hread
    simp only [Prod.mk.injEq] at heq
    rw [← heq.1]
    exact List.cons_prefix_cons.mpr ⟨rfl, ih hread'⟩

/-- An unquoted text is read back exactly when it is clear. -/
theorem readPlain_append_iff (hw : AtStop d le w) :
    ∀ T, '"' ∉ T → (readPlain d le (T ++ w) = some (T, s) ↔ Clear d le w T ∧ s = w) := by
  intro T
  induction T with
  | nil =>
    intro _
    cases w with
    | nil => simp [readPlain, Clear, eq_comm]
    | cons c w =>
      have hstop : (stop? d le (c :: w)).isSome := hw
      simp [readPlain, Clear, hstop, eq_comm]
  | cons c T ih =>
    intro hquote
    obtain ⟨hc, hT⟩ : '"' ≠ c ∧ '"' ∉ T := by simpa using hquote
    rw [List.cons_append, readPlain, Clear, if_neg hc.symm]
    by_cases hstop : le <+: c :: (T ++ w)
    · simp [stop?, hstop]
    by_cases hd : c = d
    · simp [stop?, hd, show ¬ le <+: d :: (T ++ w) from hd ▸ hstop]
    · simp [stop?, hstop, hd, ← ih hT]

/-- The rule quotes every cell with a quote in it. -/
def Guards (quotes : Cell → Bool) : Prop := ∀ T, '"' ∈ T → quotes T

/-- The cell, as it is written before `after`, is read as itself. -/
def Reads (quotes : Cell → Bool) (d : Char) (le after : List Char) (T : Cell) : Prop :=
  quotes T ∨ Clear d le after T

variable {quotes : Cell → Bool}

theorem readField_of_ne {c : Char} (hc : c ≠ '"') :
    readField d le (c :: s) = readPlain d le (c :: s) :=
  if_neg hc

theorem readField_append (hT : '"' ∉ T) (hw : w.head? ≠ some '"') :
    readField d le (T ++ w) = readPlain d le (T ++ w) := by
  cases T with
  | nil =>
    cases w with
    | nil => rfl
    | cons c w => exact readField_of_ne (by simpa using hw)
  | cons c T => exact readField_of_ne (by rintro rfl; simp at hT)

theorem readField_writeField_iff (h : IsDialect d le) (hq : Guards quotes) (hw : AtStop d le w) :
    readField d le (writeField quotes T ++ w) = some (T, s) ↔ Reads quotes d le w T ∧ s = w := by
  by_cases hquotes : quotes T = true
  · have hread : readField d le ('"' :: (doubled T ++ '"' :: w)) = some (T, w) :=
      readQuoted_doubled (hw.head_ne_quote h) T
    simp [writeField, Reads, hquotes, hread, eq_comm]
  · have hT : '"' ∉ T := fun hT => hquotes (hq T hT)
    rw [writeField, if_neg hquotes, readField_append hT (hw.head_ne_quote h),
      readPlain_append_iff hw T hT]
    simp [Reads, hquotes]

theorem writeField_eq_nil : writeField quotes T = [] ↔ quotes T = false ∧ T = [] := by
  by_cases hquotes : quotes T = true
  · simp [writeField, hquotes]
  · simp [writeField, hquotes]

end Cells

/-! ## Records -/

section Records

variable {quotes : Cell → Bool} {d : Char} {le s : List Char} {T : Cell} {row : List Cell}
  {table : List (List Cell)}

theorem clear_delimiter (h : IsDialect d le) : Clear d le (d :: s) T ↔ Clear d le [] T := by
  induction T with
  | nil => rfl
  | cons c T ih =>
    have hreach : le <+: (c :: T) ++ d :: s ↔ le <+: c :: T := by
      refine ⟨fun hle => ?_, fun hle => hle.trans (List.prefix_append _ _)⟩
      by_contra hlong
      have hdelimiter : (c :: T) ++ [d] <+: (c :: T) ++ d :: s := ⟨s, by simp⟩
      rcases List.prefix_or_prefix_of_prefix hle hdelimiter with hshort | hmem
      · rcases List.prefix_concat_iff.mp hshort with rfl | hshort
        · exact h.delimiter_not_mem (by simp)
        · exact hlong hshort
      · exact h.delimiter_not_mem (hmem.subset (by simp))
    rw [Clear, Clear, hreach, ih, List.append_nil]

theorem clear_lineEnding : Clear d le (le ++ s) T ↔ Clear d le le T := by
  induction T with
  | nil => rfl
  | cons c T ih =>
    have hreach : le <+: (c :: T) ++ (le ++ s) ↔ le <+: (c :: T) ++ le := by
      rw [← List.append_assoc]
      refine ⟨fun hle => ?_, fun hle => hle.trans (List.prefix_append _ _)⟩
      exact List.prefix_of_prefix_length_le hle (List.prefix_append _ _) (by simp; omega)
    rw [Clear, Clear, hreach, ih]

theorem reads_delimiter (h : IsDialect d le) :
    Reads quotes d le (d :: s) T ↔ Reads quotes d le [] T := by
  rw [Reads, Reads, clear_delimiter h]

theorem reads_lineEnding : Reads quotes d le (le ++ s) T ↔ Reads quotes d le le T := by
  rw [Reads, Reads, clear_lineEnding]

theorem stop?_delimiter (h : IsDialect d le) : stop? d le (d :: s) = some (.cell, s) := by
  have hle : ¬ le <+: d :: s := by
    intro hle
    obtain ⟨e, le, rfl⟩ := List.exists_cons_of_ne_nil h.lineEnding_ne
    have he : e = d := (List.cons_prefix_cons.mp hle).1
    exact h.delimiter_not_mem (by simp [he])
  simp [stop?, hle]

theorem stop?_lineEnding (h : IsDialect d le) : stop? d le (le ++ s) = some (.record, s) := by
  obtain ⟨e, le, rfl⟩ := List.exists_cons_of_ne_nil h.lineEnding_ne
  simp [stop?]

theorem exists_of_parseFrom {fuel : ℕ} (hread : parseFrom d le fuel s = some table) :
    ∃ T row table', table = (T :: row) :: table' ∧ ∃ s', readField d le s = some (T, s') := by
  cases fuel with
  | zero => exact absurd hread (by simp [parseFrom])
  | succ fuel =>
    rw [parseFrom] at hread
    split at hread
    · exact absurd hread (by simp)
    rename_i T s' hfield
    split at hread
    · exact absurd hread (by simp)
    · exact ⟨T, [], [], by simpa using hread.symm, s', hfield⟩
    · split at hread
      · rename_i row table' _
        exact ⟨T, row, table', by simpa using hread.symm, s', hfield⟩
      · exact absurd hread (by simp)
    · split at hread
      · exact ⟨T, [], [], by simpa using hread.symm, s', hfield⟩
      · obtain ⟨table', -, rfl⟩ := Option.map_eq_some_iff.mp hread
        exact ⟨T, [], table', rfl, s', hfield⟩

theorem readField_of_parseFrom {fuel : ℕ}
    (hread : parseFrom d le fuel s = some ((T :: row) :: table)) :
    ∃ s', readField d le s = some (T, s') := by
  obtain ⟨T', row', table', heq, hfield⟩ := exists_of_parseFrom hread
  simp only [List.cons.injEq] at heq
  rwa [heq.1.1]

variable (h : IsDialect d le) (hq : Guards quotes) (fuel : ℕ)

include h hq

theorem parseFrom_cell :
    parseFrom d le (fuel + 1) (writeField quotes T ++ d :: s) = some ((T :: row) :: table) ↔
      Reads quotes d le [] T ∧ parseFrom d le fuel s = some (row :: table) := by
  have hstop : AtStop d le (d :: s) := atStop_delimiter
  have hspec := fun s' => readField_writeField_iff (T := T) (s := s') h hq hstop
  by_cases hreads : Reads quotes d le [] T
  · have hfield := (hspec _).mpr ⟨(reads_delimiter h).mpr hreads, rfl⟩
    simp only [parseFrom, hfield, stop?_delimiter h]
    cases parseFrom d le fuel s with
    | none => simp
    | some table' =>
      cases table' with
      | nil => simp
      | cons row' table' => simp [hreads]
  · refine iff_of_false (fun hread => hreads ?_) (fun hread => hreads hread.1)
    obtain ⟨s', hfield⟩ := readField_of_parseFrom hread
    exact (reads_delimiter h).mp ((hspec s').mp hfield).1

theorem parseFrom_record :
    parseFrom d le (fuel + 1) (writeField quotes T ++ (le ++ s)) = some ((T :: row) :: table) ↔
      Reads quotes d le le T ∧ row = [] ∧
        if s = [] then table = [] else parseFrom d le fuel s = some table := by
  have hspec := fun s' => readField_writeField_iff (T := T) (s := s') h hq
    (atStop_lineEnding (s := s) h)
  by_cases hreads : Reads quotes d le le T
  · have hfield := (hspec _).mpr ⟨reads_lineEnding.mpr hreads, rfl⟩
    simp only [parseFrom, hfield, stop?_lineEnding h]
    by_cases hs : s = []
    · simp [hs, hreads, eq_comm]
    · cases parseFrom d le fuel s with
      | none => simp [hs]
      | some table' => simp [hs, hreads, eq_comm]
  · refine iff_of_false (fun hread => hreads ?_) (fun hread => hreads hread.1)
    obtain ⟨s', hfield⟩ := readField_of_parseFrom hread
    exact reads_lineEnding.mp ((hspec s').mp hfield).1

theorem parseFrom_file :
    parseFrom d le (fuel + 1) (writeField quotes T) = some ((T :: row) :: table) ↔
      Reads quotes d le [] T ∧ row = [] ∧ table = [] := by
  have hstop : AtStop d le [] := atStop_nil
  have hspec := fun s' => readField_writeField_iff (T := T) (s := s') h hq hstop
  simp only [List.append_nil] at hspec
  by_cases hreads : Reads quotes d le [] T
  · have hfield := (hspec _).mpr ⟨hreads, rfl⟩
    rw [parseFrom, hfield]
    simp [stop?, hreads, eq_comm]
  · refine iff_of_false (fun hread => hreads ?_) (fun hread => hreads hread.1)
    obtain ⟨s', hfield⟩ := readField_of_parseFrom hread
    exact ((hspec s').mp hfield).1

end Records

/-! ## Tables -/

/-- Every cell of a record is read as itself when `after` follows the record. -/
def RowReads (quotes : Cell → Bool) (d : Char) (le after : List Char) : List Cell → Prop
  | [] => False
  | [T] => Reads quotes d le after T
  | T :: T' :: row => Reads quotes d le [] T ∧ RowReads quotes d le after (T' :: row)

/-- Every record of a table is read as itself, and the last one shows in the text. -/
def TableReads (quotes : Cell → Bool) (d : Char) (le : List Char) : List (List Cell) → Prop
  | [] => True
  | [row] => RowReads quotes d le [] row ∧ (row = [[]] → quotes [])
  | row :: row' :: table =>
    RowReads quotes d le le row ∧ TableReads quotes d le (row' :: table)

section Plain

variable {quotes : Cell → Bool} {d : Char} {le : List Char}

end Plain

section Tables

variable {quotes : Cell → Bool} {d : Char} {le s : List Char} {T T' : Cell} {row row' : List Cell}
  {table : List (List Cell)}

@[simp]
theorem writeRow_singleton : writeRow quotes d [T] = writeField quotes T := by
  simp [writeRow]

@[simp]
theorem writeRow_cons_cons :
    writeRow quotes d (T :: T' :: row) =
      writeField quotes T ++ d :: writeRow quotes d (T' :: row) := by
  simp [writeRow, List.intercalate]

@[simp]
theorem writeTable_singleton : writeTable quotes d le [row] = writeRow quotes d row := by
  simp [writeTable]

@[simp]
theorem writeTable_cons_cons :
    writeTable quotes d le (row :: row' :: table) =
      writeRow quotes d row ++ (le ++ writeTable quotes d le (row' :: table)) := by
  simp [writeTable, List.intercalate]

theorem writeRow_eq_nil_iff :
    writeRow quotes d row = [] ↔ row = [] ∨ row = [[]] ∧ quotes [] = false := by
  match row with
  | [] => simp [writeRow]
  | [T] =>
    rw [writeRow_singleton, writeField_eq_nil]
    refine ⟨fun ⟨hquotes, hT⟩ => .inr ⟨by rw [hT], hT ▸ hquotes⟩, ?_⟩
    rintro (hrow | ⟨hrow, hquotes⟩)
    · simp at hrow
    · simp_all
  | T :: T' :: row => simp

theorem ne_nil_of_tableReads (h : IsDialect d le)
    (hreads : TableReads quotes d le (row :: table)) :
    writeTable quotes d le (row :: table) ≠ [] := by
  cases table with
  | nil =>
    rw [writeTable_singleton, Ne, writeRow_eq_nil_iff]
    rintro (rfl | ⟨hrow, hquotes⟩)
    · exact hreads.1
    · simp [hreads.2 hrow] at hquotes
  | cons row' table => simp [h.lineEnding_ne]

variable (h : IsDialect d le) (hq : Guards quotes) (fuel : ℕ)

include h hq

theorem parseFrom_lastRow (row : List Cell) :
    parseFrom d le (fuel + row.length) (writeRow quotes d row) = some (row :: table) ↔
      RowReads quotes d le [] row ∧ table = [] := by
  induction row with
  | nil =>
    refine iff_of_false (fun hread => ?_) (fun hread => hread.1)
    obtain ⟨T, row, table', heq, -⟩ := exists_of_parseFrom hread
    simp at heq
  | cons T row ih =>
    cases row with
    | nil =>
      rw [writeRow_singleton]
      refine (parseFrom_file h hq fuel).trans ?_
      simp [RowReads]
    | cons T' row =>
      rw [writeRow_cons_cons]
      refine (parseFrom_cell h hq (fuel + (T' :: row).length)).trans ?_
      rw [ih, RowReads, and_assoc]

theorem parseFrom_row (row : List Cell) :
    parseFrom d le (fuel + row.length) (writeRow quotes d row ++ (le ++ s)) = some (row :: table) ↔
      RowReads quotes d le le row ∧
        if s = [] then table = [] else parseFrom d le fuel s = some table := by
  induction row with
  | nil =>
    refine iff_of_false (fun hread => ?_) (fun hread => hread.1)
    obtain ⟨T, row, table', heq, -⟩ := exists_of_parseFrom hread
    simp at heq
  | cons T row ih =>
    cases row with
    | nil =>
      rw [writeRow_singleton]
      refine (parseFrom_record h hq fuel).trans ?_
      simp [RowReads]
    | cons T' row =>
      rw [writeRow_cons_cons, List.append_assoc, List.cons_append]
      refine (parseFrom_cell h hq (fuel + (T' :: row).length)).trans ?_
      rw [ih, RowReads, and_assoc]

def size (table : List (List Cell)) : ℕ := (table.map List.length).sum

theorem parseFrom_writeTable (hne : writeTable quotes d le (row :: table) ≠ []) :
    parseFrom d le (fuel + size (row :: table)) (writeTable quotes d le (row :: table)) =
        some (row :: table) ↔
      TableReads quotes d le (row :: table) := by
  induction table generalizing row with
  | nil =>
    rw [writeTable_singleton, Ne, writeRow_eq_nil_iff, not_or] at hne
    rw [writeTable_singleton, size, List.map_singleton, List.sum_singleton,
      parseFrom_lastRow h hq]
    simp_all [TableReads]
  | cons row' table ih =>
    have hsize : size (row :: row' :: table) = size (row' :: table) + row.length := by
      simp [size]
      omega
    rw [writeTable_cons_cons, hsize, ← Nat.add_assoc, parseFrom_row h hq, TableReads]
    refine and_congr_right fun _ => ?_
    split
    · next hnil =>
      refine iff_of_false (by simp) fun hreads => ne_nil_of_tableReads h hreads hnil
    · next hne => exact ih hne

omit h hq in
theorem length_le_writeRow (quotes : Cell → Bool) (d : Char) (row : List Cell) :
    row.length ≤ (writeRow quotes d row).length + 1 := by
  induction row with
  | nil => simp
  | cons T row ih =>
    cases row with
    | nil => simp
    | cons T' row =>
      simp only [writeRow_cons_cons, List.length_append, List.length_cons] at ih ⊢
      omega

omit hq in
theorem size_le_writeTable (quotes : Cell → Bool) (table : List (List Cell)) :
    size table ≤ (writeTable quotes d le table).length + 1 := by
  have hle := List.length_pos_of_ne_nil h.lineEnding_ne
  induction table with
  | nil => simp [size]
  | cons row table ih =>
    have hrow := length_le_writeRow quotes d row
    cases table with
    | nil => simpa [size] using hrow
    | cons row' table =>
      have hsize : size (row :: row' :: table) = row.length + size (row' :: table) := by
        simp [size]
      simp only [writeTable_cons_cons, List.length_append]
      omega

/-- **Round trip.** A table is read back from its text exactly when every cell that stands
unquoted is clear and the last record shows. -/
theorem parse_writeTable :
    parse d le (writeTable quotes d le table) = some table ↔ TableReads quotes d le table := by
  cases table with
  | nil => simp [writeTable, parse, TableReads]
  | cons row table =>
    rw [parse]
    split
    · next hnil =>
      refine iff_of_false (by simp) fun hreads => ne_nil_of_tableReads h hreads hnil
    · next hne =>
      have hsize := size_le_writeTable h quotes (row :: table)
      rw [show (writeTable quotes d le (row :: table)).length + 1 =
        ((writeTable quotes d le (row :: table)).length + 1 - size (row :: table)) +
          size (row :: table) by omega]
      exact parseFrom_writeTable h hq _ hne

end Tables

/-! ## What stands before a table -/

section Before

variable {quotes : Cell → Bool} {d B : Char} {le s w : List Char} {T T' : Cell} {row : List Cell}
  {table : List (List Cell)} {fuel : ℕ}

theorem exists_tail (h : IsDialect d le) (quotes : Cell → Bool) (row : List Cell)
    (table : List (List Cell)) :
    ∃ w, writeTable quotes d le (row :: table) = writeRow quotes d row ++ w ∧ AtStop d le w ∧
      ∀ c ∉ le, w.head? ≠ some c := by
  cases table with
  | nil => exact ⟨[], by simp, by simp, by simp⟩
  | cons row' table =>
    refine ⟨_, writeTable_cons_cons, atStop_lineEnding h, ?_⟩
    rintro c hc hhead
    obtain ⟨e, le, rfl⟩ := List.exists_cons_of_ne_nil h.lineEnding_ne
    simp only [List.cons_append, List.head?_cons, Option.some.injEq] at hhead
    exact hc (by simp [hhead])

theorem parseFrom_lineEnding (h : IsDialect d le) :
    parseFrom d le (fuel + 1) (le ++ s) =
      if s = [] then some [[[]]] else (parseFrom d le fuel s).map fun table => [[]] :: table := by
  have hfield : readField d le (le ++ s) = some ([], le ++ s) := by
    have hstop : AtStop d le (le ++ s) := atStop_lineEnding h
    have hplain := (readPlain_append_iff (s := le ++ s) hstop [] (by simp)).mpr ⟨trivial, rfl⟩
    rw [← readField_append (by simp) (hstop.head_ne_quote h)] at hplain
    exact hplain
  simp only [parseFrom, hfield, stop?_lineEnding h]

/-- Behind a line ending only a table of lone empty cells is read back. -/
theorem parseFrom_lineEnding_writeTable (h : IsDialect d le) (hempty : quotes [] = false)
    (hfuel : table.length < fuel) :
    parseFrom d le fuel (le ++ writeTable quotes d le (row :: table)) = some (row :: table) ↔
      ∀ r ∈ row :: table, r = [[]] := by
  induction table generalizing row fuel with
  | nil =>
    obtain ⟨fuel, rfl⟩ := Nat.exists_eq_add_one.mpr hfuel
    rw [parseFrom_lineEnding h, writeTable_singleton]
    split
    · simp [eq_comm]
    · next hne =>
      refine iff_of_false (fun hread => ?_) (fun hrow => ?_)
      · obtain ⟨table, hread, heq⟩ := Option.map_eq_some_iff.mp hread
        obtain ⟨T, row', table', rfl, -⟩ := exists_of_parseFrom hread
        simp at heq
      · exact hne (writeRow_eq_nil_iff.mpr (.inr ⟨by simpa using hrow, hempty⟩))
  | cons row' table ih =>
    obtain ⟨fuel, rfl⟩ := Nat.exists_eq_add_one.mpr (Nat.zero_lt_of_lt hfuel)
    rw [parseFrom_lineEnding h, if_neg (by simp [h.lineEnding_ne]), List.forall_mem_cons]
    by_cases hrow : row = [[]]
    · subst hrow
      have hnil : writeRow quotes d [[]] = [] := writeRow_eq_nil_iff.mpr (.inr ⟨rfl, hempty⟩)
      have hrest : parseFrom d le fuel (le ++ writeTable quotes d le (row' :: table)) =
          some (row' :: table) ↔ ∀ r ∈ row' :: table, r = [[]] := ih (by simpa using hfuel)
      rw [writeTable_cons_cons, hnil, List.nil_append, ← hrest]
      simp
    · refine iff_of_false (fun hread => ?_) (fun hblank => hrow hblank.1)
      obtain ⟨table, -, heq⟩ := Option.map_eq_some_iff.mp hread
      simp only [List.cons.injEq] at heq
      exact hrow heq.1.symm

theorem parse_lineEnding_writeTable (h : IsDialect d le) (hempty : quotes [] = false) :
    parse d le (le ++ writeTable quotes d le (row :: table)) = some (row :: table) ↔
      ∀ r ∈ row :: table, r = [[]] := by
  rw [parse, if_neg (by simp [h.lineEnding_ne])]
  refine parseFrom_lineEnding_writeTable h hempty ?_
  have hlength : table.length ≤ (writeTable quotes d le (row :: table)).length := by
    have hle := List.length_pos_of_ne_nil h.lineEnding_ne
    induction table generalizing row with
    | nil => simp
    | cons row' table ih =>
      have hrest : table.length ≤ (writeTable quotes d le (row' :: table)).length := ih
      simp only [writeTable_cons_cons, List.length_append, List.length_cons]
      omega
  simp only [List.length_append]
  omega

theorem parseFrom_eq_cons_cons
    (hread : parseFrom d le fuel s = some ((T :: T' :: row) :: table)) :
    ∃ fuel' s', readField d le s = some (T, d :: s') ∧
      parseFrom d le fuel' s' = some ((T' :: row) :: table) := by
  cases fuel with
  | zero => exact absurd hread (by simp [parseFrom])
  | succ fuel =>
    rw [parseFrom] at hread
    split at hread
    · exact absurd hread (by simp)
    rename_i T₀ w hfield
    split at hread
    · exact absurd hread (by simp)
    · exact absurd hread (by simp)
    · rename_i s' hstop
      have hw : w = d :: s' := by
        cases w with
        | nil => simp [stop?] at hstop
        | cons c w =>
          rw [stop?] at hstop
          split at hstop
          · simp at hstop
          split at hstop
          · simp_all
          · simp at hstop
      split at hread
      · rename_i row' table' hrest
        simp only [Option.some.injEq, List.cons.injEq] at hread
        obtain ⟨⟨rfl, rfl⟩, rfl⟩ := hread
        exact ⟨fuel, s', by rw [hfield, hw], hrest⟩
      · exact absurd hread (by simp)
    · split at hread
      · exact absurd hread (by simp)
      · obtain ⟨table', -, heq⟩ := Option.map_eq_some_iff.mp hread
        simp at heq

theorem prefix_of_readField (h : IsDialect d le) (hw : AtStop d le w) (hT : '"' ∉ T)
    (hread : readField d le (T ++ w) = some (T', s)) : T' <+: T := by
  rw [readField_append hT (hw.head_ne_quote h)] at hread
  exact prefix_of_readPlain hw T hread

/-- A record is not read with one more empty cell in front of it. -/
theorem parseFrom_ne_of_emptyCell (h : IsDialect d le) (hq : Guards quotes)
    (hempty : quotes [] = false) (hw : AtStop d le w) (hhead : w.head? ≠ some d)
    (hne : row ≠ []) :
    parseFrom d le fuel (writeRow quotes d row ++ w) ≠ some (([] :: row) :: table) := by
  induction row generalizing fuel with
  | nil => exact absurd rfl hne
  | cons T row ih =>
    intro hread
    -- the text behind the first cell, where a cell ends too
    obtain ⟨v, hsplit, hv, hvrow⟩ : ∃ v,
        writeRow quotes d (T :: row) ++ w = writeField quotes T ++ v ∧ AtStop d le v ∧
          ∀ s', v = d :: s' → row ≠ [] ∧ s' = writeRow quotes d row ++ w := by
      cases row with
      | nil => exact ⟨w, by simp, hw, fun s' hs' => absurd (by simp [hs']) hhead⟩
      | cons T' row =>
        refine ⟨d :: (writeRow quotes d (T' :: row) ++ w), by simp, atStop_delimiter, ?_⟩
        rintro s' ⟨⟩
        exact ⟨by simp, rfl⟩
    rw [hsplit] at hread
    obtain ⟨fuel', s', hfield, hrest⟩ := parseFrom_eq_cons_cons hread
    by_cases hquotes : quotes T = true
    · have hself : readField d le (writeField quotes T ++ v) = some (T, v) :=
        (readField_writeField_iff h hq hv).mpr ⟨.inl hquotes, rfl⟩
      rw [hself, Option.some.injEq, Prod.mk.injEq] at hfield
      rw [hfield.1, hempty] at hquotes
      exact Bool.false_ne_true hquotes
    have hT : '"' ∉ T := fun hT => hquotes (hq T hT)
    rw [writeField, if_neg hquotes] at hfield
    cases T with
    | nil =>
      have hself : readField d le ([] ++ v) = some ([], v) := by
        rw [readField_append hT (hv.head_ne_quote h)]
        exact (readPlain_append_iff hv [] hT).mpr ⟨trivial, rfl⟩
      rw [hself, Option.some.injEq, Prod.mk.injEq] at hfield
      obtain ⟨hrow, rfl⟩ := hvrow s' hfield.2
      exact ih hrow hrest
    | cons c T =>
      rw [readField_append hT (hv.head_ne_quote h), List.cons_append, readPlain] at hfield
      split at hfield
      · -- the first cell begins with a delimiter, and the next one read is shorter than it
        simp only [Option.some.injEq, Prod.mk.injEq, List.cons.injEq] at hfield
        obtain ⟨-, rfl, rfl⟩ := hfield
        obtain ⟨s'', hnext⟩ := readField_of_parseFrom hrest
        have hprefix := prefix_of_readField h hv
          (fun hmem => hT (List.mem_cons_of_mem _ hmem)) hnext
        exact absurd hprefix.length_le (by simp)
      split at hfield
      · exact absurd hfield (by simp)
      · obtain ⟨r, -, heq⟩ := Option.map_eq_some_iff.mp hfield
        simp at heq

/-- A text that lost its first character is not read back, unless a line ending or a quote was
lost. -/
theorem parse_ne_of_cons (h : IsDialect d le) (hq : Guards quotes) (hempty : quotes [] = false)
    (hB : B ∉ le) (hquote : B ≠ '"')
    (htext : writeTable quotes d le (row :: table) = B :: s) :
    parse d le s ≠ some (row :: table) := by
  intro hread
  rw [parse] at hread
  split at hread
  · exact absurd hread (by simp)
  obtain ⟨w, hsplit, hw, hhead⟩ := exists_tail h quotes row table
  rw [hsplit] at htext
  cases row with
  | nil =>
    obtain ⟨T, row, table', heq, -⟩ := exists_of_parseFrom hread
    simp at heq
  | cons T row =>
    obtain ⟨s', hfield⟩ := readField_of_parseFrom hread
    obtain ⟨v, hsplit', hv⟩ : ∃ v, writeRow quotes d (T :: row) ++ w = writeField quotes T ++ v ∧
        AtStop d le v := by
      cases row with
      | nil => exact ⟨w, by simp, hw⟩
      | cons T' row =>
        exact ⟨d :: (writeRow quotes d (T' :: row) ++ w), by simp, atStop_delimiter⟩
    rw [hsplit'] at htext
    by_cases hquotes : quotes T = true
    · simp only [writeField, hquotes, if_true, List.cons_append, List.cons.injEq] at htext
      exact hquote htext.1.symm
    have hT : '"' ∉ T := fun hT => hquotes (hq T hT)
    rw [writeField, if_neg hquotes] at htext hsplit'
    cases T with
    | cons c T =>
      simp only [List.cons_append, List.cons.injEq] at htext
      obtain ⟨rfl, rfl⟩ := htext
      have hprefix := prefix_of_readField h hv (fun hmem => hT (List.mem_cons_of_mem _ hmem)) hfield
      exact absurd hprefix.length_le (by simp)
    | nil =>
      cases row with
      | nil =>
        simp only [writeRow_singleton, writeField, if_neg hquotes, List.nil_append] at hsplit'
        exact hhead B hB (by rw [hsplit', ← List.nil_append v, htext]; rfl)
      | cons T' row =>
        have hrow : writeRow quotes d ([] :: T' :: row) ++ w =
            d :: (writeRow quotes d (T' :: row) ++ w) := by
          simp [writeField, hempty]
        rw [hrow] at hsplit'
        rw [← hsplit', List.cons.injEq] at htext
        rw [← htext.2] at hread
        exact parseFrom_ne_of_emptyCell h hq hempty hw (hhead d h.delimiter_not_mem) (by simp) hread

/-- The text of a table begins with `B`: its first cell does so unquoted, or is empty and `B` is the
delimiter behind it. -/
def BeginsWith (quotes : Cell → Bool) (d B : Char) : List (List Cell) → Prop
  | (T :: row) :: _ => quotes T = false ∧ (T ++ if row = [] then [] else [d]).head? = some B
  | _ => False

theorem head?_writeTable_iff (h : IsDialect d le) (hB : B ∉ le) (hquote : B ≠ '"') :
    (writeTable quotes d le (row :: table)).head? = some B ↔
      BeginsWith quotes d B (row :: table) := by
  obtain ⟨w, hsplit, -, hhead⟩ := exists_tail h quotes row table
  have hw := hhead B hB
  rw [hsplit]
  cases row with
  | nil => simp [writeRow, BeginsWith, hw]
  | cons T row =>
    by_cases hquotes : quotes T = true
    · cases row with
      | nil => simp [writeField, BeginsWith, hquotes, hquote.symm]
      | cons T' row => simp [writeField, BeginsWith, hquotes, hquote.symm]
    · cases row with
      | nil => cases T <;> simp [writeField, BeginsWith, hquotes, hw]
      | cons T' row => cases T <;> simp [writeField, BeginsWith, hquotes]

end Before

end Csv
