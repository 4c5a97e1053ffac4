import StellarDonations.Text.Csv

/-!
# The CSV serializer

`utils/csvSerializer.js`: `escapeField` neutralizes what a spreadsheet would take for a formula and
quotes a cell with a comma, a quote or a line break in it, and `serialize` joins the cells of a
table of row objects. The rule for quotes does not know the `delimiter` and the `lineEnding` of the
options, and the byte-order mark is joined to the header row like one more record. What of the two
can be read back with the same options is `roundTrips_iff`.
-/

namespace CsvSerializer

open Csv

/-- A field of a row: `null` and `undefined`, an object with its `JSON.stringify`, or any other
value with its `String`. -/
inductive Value
  | absent
  | object (json : String)
  | primitive (text : String)
  deriving DecidableEq, Repr

def Value.text? : Value → Option Cell
  | .absent => none
  | .object json => some json.toList
  | .primitive text => some text.toList

/-! ## Cells -/

def formulaPrefixes : List Char := ['=', '+', '-', '@', '\t', '\r']

/-- `\d+`, and what follows. -/
def digits? (s : List Char) : Option (List Char) :=
  if s.head?.any Char.isDigit then some (s.dropWhile Char.isDigit) else none

/-- `(\.\d+)?`, and what follows. -/
def fraction : List Char → List Char
  | '.' :: s => (digits? s).getD ('.' :: s)
  | s => s

/-- `([eE][+-]?\d+)?`, and what follows. -/
def exponent : List Char → List Char
  | c :: s =>
    if c = 'e' ∨ c = 'E' then
      let unsigned := if s.head? = some '+' ∨ s.head? = some '-' then s.tail else s
      (digits? unsigned).getD (c :: s)
    else c :: s
  | [] => []

/-- `/^-\d+(\.\d+)?([eE][+-]?\d+)?$/`. -/
def isNegativeNumber : Cell → Bool
  | '-' :: s =>
    match digits? s with
    | some s => (exponent (fraction s)).isEmpty
    | none => false
  | _ => false

/-- The character at the front of a text is one that spreadsheets take for a formula. -/
def HasFormulaPrefix (T : Cell) : Prop := ∃ c ∈ formulaPrefixes, T.head? = some c

instance (T : Cell) : Decidable (HasFormulaPrefix T) :=
  List.decidableBEx (T.head? = some ·) formulaPrefixes

/-- The text of a field, with a quote mark before what would be a formula. -/
def neutralize (str : Cell) : Cell :=
  if HasFormulaPrefix str then
    if isNegativeNumber str then str else '\'' :: str
  else str

def hasSpecial (str : Cell) : Bool := '"' ∈ str || ',' ∈ str || '\n' ∈ str || '\r' ∈ str

def escapeField (value : Value) : List Char :=
  match value.text? with
  | none => []
  | some str =>
    let str := neutralize str
    if hasSpecial str then '"' :: (doubled str ++ ['"']) else str

/-- The text that a field stands for in the table. -/
def cellText (value : Value) : Cell :=
  match value.text? with
  | none => []
  | some str => neutralize str

theorem escapeField_eq (value : Value) :
    escapeField value = writeField hasSpecial (cellText value) := by
  unfold escapeField cellText
  split
  · rfl
  · rfl

/-! ## Tables -/

structure Options where
  bom : Bool := false
  delimiter : Char := ','
  lineEnding : List Char := ['\n']

abbrev Row := String → Value

def byteOrderMark : Char := '\uFEFF'

def serialize (headers : List String) (rows : List Row) (options : Options) : List Char :=
  let output := if options.bom then [[byteOrderMark]] else []
  let output := output ++
    [[options.delimiter].intercalate (headers.map fun h => escapeField (.primitive h))]
  let output := output ++ rows.map fun row =>
    [options.delimiter].intercalate (headers.map fun h => escapeField (row h))
  options.lineEnding.intercalate output

/-- The table that is written: the header row, and one record for each row. -/
def table (headers : List String) (rows : List Row) : List (List Cell) :=
  (headers.map fun h => cellText (.primitive h)) ::
    rows.map fun row => headers.map fun h => cellText (row h)

/-- A text without the byte-order mark at its front. -/
def skipBom : List Char → List Char
  | c :: s => if c = byteOrderMark then s else c :: s
  | [] => []

/-- The reader with the delimiter and the line ending of the options, where there is one. -/
def readBack (options : Options) (text : List Char) : Option (List (List Cell)) :=
  if IsDialect options.delimiter options.lineEnding ∧ byteOrderMark ∉ options.lineEnding then
    parse options.delimiter options.lineEnding (skipBom text)
  else none

/-- The text is read back as the table, and no cell of it is a formula. -/
def RoundTrips (headers : List String) (rows : List Row) (options : Options) : Prop :=
  ∃ result, readBack options (serialize headers rows options) = some result ∧
    result = table headers rows ∧
    ∀ record ∈ result, ∀ T ∈ record, HasFormulaPrefix T → isNegativeNumber T

/-- What the options ask of a table: behind a byte-order mark, that every record of it is one empty
cell; without one, that every cell is quoted or has neither the delimiter nor a line ending in it,
that the last record shows, and that the table does not begin with a byte-order mark of its own. -/
def Fits (headers : List String) (rows : List Row) (options : Options) : Prop :=
  (IsDialect options.delimiter options.lineEnding ∧ byteOrderMark ∉ options.lineEnding) ∧
    if options.bom then ∀ record ∈ table headers rows, record = [[]]
    else
      TableReads hasSpecial options.delimiter options.lineEnding (table headers rows) ∧
        ¬ BeginsWith hasSpecial options.delimiter byteOrderMark (table headers rows)

theorem guards_hasSpecial : Guards hasSpecial := fun T hT => by simp [hasSpecial, hT]

/-- No text that was neutralized is a formula. -/
theorem isNegativeNumber_of_hasFormulaPrefix (str : Cell) :
    HasFormulaPrefix (neutralize str) → isNegativeNumber (neutralize str) := by
  unfold neutralize
  split
  · next hprefix =>
    split
    · next hnumber => exact fun _ => hnumber
    · rintro ⟨c, hc, hhead⟩
      simp only [List.head?_cons, Option.some.injEq] at hhead
      rw [← hhead] at hc
      exact absurd hc (by decide)
  · next hprefix => exact fun hprefix' => absurd hprefix' hprefix

theorem isNegativeNumber_cellText (value : Value) :
    HasFormulaPrefix (cellText value) → isNegativeNumber (cellText value) := by
  unfold cellText
  split
  · rintro ⟨c, -, hhead⟩
    simp at hhead
  · exact isNegativeNumber_of_hasFormulaPrefix _

theorem isNegativeNumber_of_mem_table {headers : List String} {rows : List Row} :
    ∀ record ∈ table headers rows, ∀ T ∈ record, HasFormulaPrefix T → isNegativeNumber T := by
  intro record hrecord T hT
  simp only [table, List.mem_cons, List.mem_map] at hrecord
  rcases hrecord with rfl | ⟨row, -, rfl⟩
  · obtain ⟨h, -, rfl⟩ := List.mem_map.mp hT
    exact isNegativeNumber_cellText _
  · obtain ⟨h, -, rfl⟩ := List.mem_map.mp hT
    exact isNegativeNumber_cellText _

theorem serialize_eq (headers : List String) (rows : List Row) (options : Options) :
    serialize headers rows options =
      (if options.bom then byteOrderMark :: options.lineEnding else []) ++
        writeTable hasSpecial options.delimiter options.lineEnding (table headers rows) := by
  have hrow : ∀ row : Row,
      [options.delimiter].intercalate (headers.map fun h => escapeField (row h)) =
        writeRow hasSpecial options.delimiter (headers.map fun h => cellText (row h)) := by
    intro row
    simp [writeRow, escapeField_eq, Function.comp_def]
  have hrecords :
      [[options.delimiter].intercalate (headers.map fun h => escapeField (.primitive h))] ++
        rows.map (fun row =>
          [options.delimiter].intercalate (headers.map fun h => escapeField (row h))) =
        (table headers rows).map (writeRow hasSpecial options.delimiter) := by
    rw [hrow fun h => .primitive h]
    simp [table, hrow, Function.comp_def]
  rw [serialize, writeTable]
  simp only [List.append_assoc, hrecords]
  split
  · simp [table, List.intercalate]
  · simp

theorem skipBom_of_head? {s : List Char} (hs : s.head? ≠ some byteOrderMark) : skipBom s = s := by
  cases s with
  | nil => rfl
  | cons c s => exact if_neg (by simpa using hs)

theorem roundTrips_iff_readBack (headers : List String) (rows : List Row) (options : Options) :
    RoundTrips headers rows options ↔
      readBack options (serialize headers rows options) = some (table headers rows) := by
  constructor
  · rintro ⟨result, hread, rfl, -⟩
    exact hread
  · exact fun hread => ⟨_, hread, rfl, isNegativeNumber_of_mem_table⟩

theorem roundTrips_iff (headers : List String) (rows : List Row) (options : Options) :
    RoundTrips headers rows options ↔ Fits headers rows options := by
  rw [roundTrips_iff_readBack, readBack, Fits]
  split
  · next hoptions =>
    obtain ⟨hdialect, hmark⟩ := hoptions
    simp only [hdialect, hmark, not_false_eq_true, and_self, true_and]
    rw [serialize_eq]
    split
    · rw [List.cons_append, skipBom, if_pos rfl]
      exact parse_lineEnding_writeTable hdialect rfl
    · rw [List.nil_append]
      have hhead : (writeTable hasSpecial options.delimiter options.lineEnding
          (table headers rows)).head? = some byteOrderMark ↔
            BeginsWith hasSpecial options.delimiter byteOrderMark (table headers rows) :=
        head?_writeTable_iff hdialect hmark (by decide)
      by_cases hbegins : BeginsWith hasSpecial options.delimiter byteOrderMark (table headers rows)
      · -- the reader takes the first character of the table for the mark
        obtain ⟨s, htext⟩ := List.head?_eq_some_iff.mp (hhead.mpr hbegins)
        rw [htext, skipBom, if_pos rfl]
        refine iff_of_false ?_ fun hfits => hfits.2 hbegins
        exact parse_ne_of_cons hdialect guards_hasSpecial rfl hmark (by decide) htext
      · rw [skipBom_of_head? (mt hhead.mp hbegins), parse_writeTable hdialect guards_hasSpecial]
        exact (and_iff_left hbegins).symm
  · next hoptions => simp [hoptions]

/-- With a byte-order mark the header row comes behind an empty record, and a delimiter of one's own
in a cell ends it. -/
theorem not_roundTrips :
    ¬ RoundTrips ["id"] [] { bom := true } ∧
      ¬ RoundTrips ["name"] [fun _ => .primitive "x;y"] { delimiter := ';' } := by
  rw [roundTrips_iff_readBack, roundTrips_iff_readBack]
  decide +kernel

end CsvSerializer
