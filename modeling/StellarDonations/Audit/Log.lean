import StellarDonations.Control.Except
import StellarDonations.Paging.Cursors
import StellarDonations.Text.Json
import StellarDonations.Time.IsoInstants

/-!
# The audit log

`AuditLogService`: the rows that `_log` writes, their hash, and the queries that read them. The
details of a call are scrubbed and written as JSON; the hash is taken over that text and five other
columns. A query gives the rows back with their details parsed.

A stored row keeps the instant that its timestamp is the text of, so that no other text can stand
there.
-/

namespace StellarDonations.Audit

open Descending JsString Paging Timestamps

/-! ## Entries -/

/-- A row of `audit_logs`, or what a query makes of it. `δ` is what the details are. -/
structure AuditEntry (δ : Type) where
  id : ℕ
  timestamp : String
  category : String
  action : String
  severity : String
  result : String
  userId : Option String
  requestId : Option String
  ipAddress : Option String
  resource : Option String
  reason : Option String
  details : δ
  integrityHash : String

/-- A row of the table, whose details are a text. -/
abbrev Row : Type := AuditEntry (Option String)

/-- A row as it was written: its timestamp is what `toISOString` gave. -/
structure StoredRow where
  row : Row
  instant : IsoInstant
  timestamp_eq : row.timestamp = instant.text

/-- The columns `timestamp, id`, by which the queries order. -/
def StoredRow.columns (r : StoredRow) : String ×ₗ ℕ := toLex (r.row.timestamp, r.row.id)

/-! ## Scrubbing -/

variable {ν : Type}

/-- The functions of `sanitizer` and `dataMasker` on single texts and values. -/
structure Scrubber (ν : Type) where
  /-- `sanitizeText(data, { maxLength: 1000, allowNewlines: false, allowSpecialChars: true })`. -/
  sanitizeValue : String → String
  /-- `sanitizeText(key, { maxLength: 100, allowNewlines: false, allowSpecialChars: false })`. -/
  sanitizeKey : String → String
  isSensitiveKey : String → Bool
  maskStringValue : String → String
  /-- `maskValue(value, { showFirst: 4, showLast: 4 })`, which throws where `String(value)` does. -/
  maskValue : Json ν → Except AppError String

/-- `object[key] = value`, which sets no field of its own for `__proto__`. -/
def assign (fields : List (String × Json ν)) (field : String × Json ν) : List (String × Json ν) :=
  if field.1 = "__proto__" then fields
  else if fields.any (·.1 = field.1) then
    fields.map fun f ↦ if f.1 = field.1 then field else f
  else fields ++ [field]

def sanitizeForLogging (scrub : Scrubber ν) : Json ν → Json ν :=
  Json.fold
    { null := .null, bool := .bool, num := .num
      str s := .str (scrub.sanitizeValue s), arr := .arr
      obj fields := .obj ((fields.map fun f ↦ (scrub.sanitizeKey f.1, f.2)).foldl assign []) }

mutual

def maskSensitiveData (scrub : Scrubber ν) (depth : ℕ) : Json ν → Except AppError (Json ν)
  | .arr elems =>
    if 10 ≤ depth then .ok (.str "[MAX_DEPTH_REACHED]")
    else (maskElems scrub (depth + 1) elems).map .arr
  | .obj fields =>
    if 10 ≤ depth then .ok (.str "[MAX_DEPTH_REACHED]")
    else (maskFields scrub (depth + 1) fields).map fun masked ↦ .obj (masked.foldl assign [])
  | .str s => .ok (.str (if 10 ≤ depth then "[MAX_DEPTH_REACHED]" else scrub.maskStringValue s))
  | .null => .ok (if 10 ≤ depth then .str "[MAX_DEPTH_REACHED]" else .null)
  | .bool b => .ok (if 10 ≤ depth then .str "[MAX_DEPTH_REACHED]" else .bool b)
  | .num n => .ok (if 10 ≤ depth then .str "[MAX_DEPTH_REACHED]" else .num n)

def maskElems (scrub : Scrubber ν) (depth : ℕ) : List (Json ν) → Except AppError (List (Json ν))
  | [] => .ok []
  | v :: vs => do
    let masked ← maskSensitiveData scrub depth v
    let rest ← maskElems scrub depth vs
    return masked :: rest

/-- The fields of an object. Only the values that are objects or lists have a depth. -/
def maskFields (scrub : Scrubber ν) (depth : ℕ) :
    List (String × Json ν) → Except AppError (List (String × Json ν))
  | [] => .ok []
  | (k, v) :: fs => do
    let masked ←
      if scrub.isSensitiveKey k then (scrub.maskValue v).map .str
      else match v with
        | .arr elems => maskSensitiveData scrub depth (.arr elems)
        | .obj fields => maskSensitiveData scrub depth (.obj fields)
        | .str s => .ok (.str (scrub.maskStringValue s))
        | v => .ok v
    let rest ← maskFields scrub depth fs
    return (k, masked) :: rest

end

/-! ## Template literals -/

def columnText (value : Option String) : String := value.getD "null"

/-- `${value}` of a parsed value, and whether the value is `null`, which a list writes as nothing.
An object with a field `toString` cannot be converted. -/
def templateText (numbers : Json.NumberText ν) : Json ν → Bool × Except AppError String :=
  Json.fold
    { null := (true, .ok "null"), bool b := (false, .ok (if b then "true" else "false"))
      num n := (false, .ok (String.ofList (numbers.text n))), str s := (false, .ok s)
      arr elems := (false, do
        let texts ← elems.mapM fun e ↦ if e.1 then .ok "" else e.2
        return ",".intercalate texts)
      obj fields := (false,
        if fields.any (·.1 = "toString") then
          .error (.wrongType "Cannot convert object to primitive value")
        else .ok "[object Object]") }

/-! ## The service -/

/-- What the service is linked with. The parser reads the text of an object as an object. -/
structure Service (ν : Type) where
  numbers : Json.NumberText ν
  scrub : Scrubber ν
  /-- `crypto.createHash('sha256').update(data).digest('hex')`. -/
  sha256Hex : String → String
  parse : String → Except AppError (Json ν)
  parse_obj : ∀ fields, ∃ fields',
    parse (String.ofList (Json.stringify numbers (.obj fields))) = .ok (.obj fields')

/-- The text that is hashed; `details` is the text of the details. -/
def hashData {δ : Type} (entry : AuditEntry δ) (details : String) : String :=
  entry.timestamp ++ "|" ++ entry.category ++ "|" ++ entry.action ++ "|" ++ entry.result ++ "|" ++
    columnText entry.userId ++ "|" ++ details

structure LogParams (ν : Type) where
  category : Option String
  action : Option String
  severity : Option String
  result : Option String
  userId : Option String := none
  requestId : Option String := none
  ipAddress : Option String := none
  details : Json ν := .obj []
  resource : Option String := none
  reason : Option String := none

structure Filters where
  category : Option String := none
  action : Option String := none
  severity : Option String := none
  userId : Option String := none
  requestId : Option String := none
  startDate : Option String := none
  endDate : Option String := none

/-- `buildFilterQuery`. -/
def Filters.matching (f : Filters) (row : Row) : Bool :=
  (orNull f.category).all (· = row.category) && (orNull f.action).all (· = row.action) &&
    (orNull f.severity).all (· = row.severity) && (orNull f.userId).all (some · = row.userId) &&
    (orNull f.requestId).all (some · = row.requestId) &&
    (orNull f.startDate).all (· ≤ row.timestamp) && (orNull f.endDate).all (row.timestamp ≤ ·)

namespace Service

variable (svc : Service ν)

def generateHash {δ : Type} (entry : AuditEntry δ) (details : String) : String :=
  svc.sha256Hex (hashData entry details)

def verifyRow (row : Row) : Bool :=
  svc.generateHash row (columnText row.details) = row.integrityHash

/-- `verifyIntegrity` of an entry with parsed details. -/
def verifyEntry (entry : AuditEntry (Json ν)) : Except AppError Bool := do
  let details ← (templateText svc.numbers entry.details).2
  return svc.generateHash entry details = entry.integrityHash

def newRow (p : LogParams ν) (category action severity result : String) (details : Json ν)
    (now : IsoInstant) (id : ℕ) : StoredRow :=
  let entry : Row :=
    { id, category, action, severity, result
      timestamp := now.text
      userId := p.userId
      requestId := p.requestId
      ipAddress := p.ipAddress
      resource := p.resource
      reason := p.reason
      details := some (String.ofList (Json.stringify svc.numbers details))
      integrityHash := "" }
  { row := { entry with integrityHash := svc.generateHash entry (columnText entry.details) }
    instant := now
    timestamp_eq := rfl }

/-- `_log`, with the id that the table gives to the row. Nothing is stored when the details cannot
be scrubbed: that error is only logged. -/
def log (p : LogParams ν) (now : IsoInstant) (id : ℕ) : Except AppError (Option StoredRow) :=
  match orNull p.category, orNull p.action, orNull p.severity, orNull p.result with
  | some category, some action, some severity, some result =>
    match maskSensitiveData svc.scrub 0 (sanitizeForLogging svc.scrub p.details) with
    | .error _ => .ok none
    | .ok details => .ok (some (svc.newRow p category action severity result details now id))
  | _, _, _, _ => .error (.plain "Missing required audit log fields")

def parseRow (row : Row) : Except AppError (AuditEntry (Json ν)) := do
  let details ← svc.parse (orElse row.details "{}")
  return { row with details }

def parseRows (rows : List Row) : Except AppError (List (AuditEntry (Json ν))) :=
  rows.mapM svc.parseRow

def query (table : List StoredRow) (filters : Filters) (limit offset : ℕ) :
    Except AppError (List (AuditEntry (Json ν))) :=
  let rows := sortDesc StoredRow.columns
    (table.filter fun r ↦ filters.matching r.row)
  svc.parseRows (((rows.drop offset).take limit).map (·.row))

end Service

def cursorExists (table : List StoredRow) (filters : Filters) :
    Option (Cursor IsoInstant ℕ) → Bool
  | none => true
  | some c => table.any fun r ↦
    filters.matching r.row && (r.row.timestamp = c.timestamp.text && r.row.id = c.id)

/-- The rows of a page, and its `meta`. -/
structure QueriedPage (δ : Type) where
  data : List δ
  totalCount : ℕ
  pageMeta : FetchedMeta (Cursor IsoInstant ℕ)

/-- `queryPaginated`, up to the parsing of the details. -/
def queryRows (table : List StoredRow) (filters : Filters) (cursor : Option (Cursor IsoInstant ℕ))
    (limit : ℕ) (direction : Direction) (snapshotAt : Option IsoInstant) :
    Except AppError (QueriedPage StoredRow) :=
  let matching := table.filter fun r ↦ filters.matching r.row
  let total := (matching.filter fun r ↦ snapshotAt.all fun at_ ↦ r.row.timestamp ≤ at_.text).length
  if !cursorExists table filters cursor then .error invalidCursor
  else
    let selected := matching.filter fun r ↦
      cursorWhere (cursor.map fun c ↦ ⟨c.timestamp.text, c.id⟩) direction
        (snapshotAt.map (·.text)) r.row.timestamp r.row.id
    let ordered :=
      match direction with
      | .prev => sortAsc StoredRow.columns selected
      | .next => sortDesc StoredRow.columns selected
    let (pageRows, hasMore) := fetchPage ordered limit
    let normalizedRows := match direction with | .prev => pageRows.reverse | .next => pageRows
    .ok
      { data := normalizedRows
        totalCount := total
        pageMeta := buildCursorMeta (createCursorFromItem (·.instant) (·.row.id)) normalizedRows
          limit direction hasMore cursor.isSome none }

namespace Service

def parsePage (svc : Service ν) (page : QueriedPage StoredRow) :
    Except AppError (QueriedPage (AuditEntry (Json ν))) := do
  let data ← svc.parseRows (page.data.map (·.row))
  return { page with data }

def queryPaginated (svc : Service ν) (table : List StoredRow) (filters : Filters)
    (cursor : Option (Cursor IsoInstant ℕ)) (limit : ℕ) (direction : Direction)
    (snapshotAt : Option IsoInstant) : Except AppError (QueriedPage (AuditEntry (Json ν))) := do
  svc.parsePage (← queryRows table filters cursor limit direction snapshotAt)

end Service

/-! ## Parsing what was stored -/

section Parsing

variable {svc : Service ν}

theorem parseRow_id {row : Row} {e : AuditEntry (Json ν)} (h : svc.parseRow row = .ok e) :
    e.id = row.id := by
  obtain ⟨details, -, he⟩ := Except.bind_eq_ok.mp h
  rw [← Except.pure_eq_ok.mp he]

theorem parseRows_cons (row : Row) (rows : List Row) :
    svc.parseRows (row :: rows) =
      svc.parseRow row >>= fun e ↦ svc.parseRows rows >>= fun es ↦ pure (e :: es) :=
  List.mapM_cons

theorem parseRows_ids {rows : List Row} {es : List (AuditEntry (Json ν))}
    (h : svc.parseRows rows = .ok es) : es.map (·.id) = rows.map (·.id) := by
  induction rows generalizing es with
  | nil =>
    rw [← Except.pure_eq_ok.mp h]
    rfl
  | cons row rows ih =>
    rw [parseRows_cons] at h
    obtain ⟨e, he, h⟩ := Except.bind_eq_ok.mp h
    obtain ⟨es', hes, h⟩ := Except.bind_eq_ok.mp h
    rw [← Except.pure_eq_ok.mp h, List.map_cons, List.map_cons, parseRow_id he, ih hes]

theorem exists_of_mem_parseRows {rows : List Row} {es : List (AuditEntry (Json ν))}
    (h : svc.parseRows rows = .ok es) {e : AuditEntry (Json ν)} (he : e ∈ es) :
    ∃ row ∈ rows, svc.parseRow row = .ok e := by
  induction rows generalizing es with
  | nil =>
    rw [← Except.pure_eq_ok.mp h] at he
    cases he
  | cons row rows ih =>
    rw [parseRows_cons] at h
    obtain ⟨e', he', h⟩ := Except.bind_eq_ok.mp h
    obtain ⟨es', hes, h⟩ := Except.bind_eq_ok.mp h
    rw [← Except.pure_eq_ok.mp h] at he
    rcases List.mem_cons.mp he with rfl | he
    · exact ⟨row, List.mem_cons_self, he'⟩
    · obtain ⟨row', hrow', hparse⟩ := ih hes he
      exact ⟨row', List.mem_cons_of_mem _ hrow', hparse⟩

end Parsing

theorem parse_newRow (svc : Service ν) (p : LogParams ν) (category action severity result : String)
    (fields : List (String × Json ν)) (now : IsoInstant) (id : ℕ) :
    let row := (svc.newRow p category action severity result (.obj fields) now id).row
    ∃ fields', svc.parseRow row = .ok { row with details := .obj fields' } := by
  obtain ⟨fields', hparse⟩ := svc.parse_obj fields
  have hne : String.ofList (Json.stringify svc.numbers (.obj fields)) ≠ "" := by
    rw [Json.stringify_obj, ne_eq, String.ofList_eq]
    simp
  refine ⟨fields', ?_⟩
  rw [Service.parseRow]
  simp only [Service.newRow, orElse, if_neg hne, hparse]
  rfl

/-! ## A sample -/

/-- SHA-256 on the two texts that are hashed for the sample row, and something else on the rest. -/
def sampleHash (data : String) : String :=
  if data = "2024-01-02T03:04:05.006Z|FINANCIAL_OPERATION|DONATION_CREATED|SUCCESS|user-123|{}" then
    "113de3d33acdb4360294ceac708d50c8205ecac0ae44923442c26226d5da13ec"
  else if data = "2024-01-02T03:04:05.006Z|FINANCIAL_OPERATION|DONATION_CREATED|SUCCESS|" ++
      "user-123|[object Object]" then
    "16d6beb8f5fcd53647f98e14f756bfafc7477ffd4204de98936fef5834ff6a62"
  else "_" ++ data

/-- A service whose parser is right about empty objects. -/
def sampleService : Service ℕ where
  numbers := Json.natText
  scrub := ⟨id, id, fun _ ↦ false, id, fun _ ↦ .ok "[REDACTED]"⟩
  sha256Hex := sampleHash
  parse text :=
    if text.toList.head? = some '{' then .ok (.obj [])
    else .error ⟨.syntaxError, none, "Unexpected token in JSON"⟩
  parse_obj fields := ⟨[], by simp [Json.stringify_obj]⟩

theorem sampleInstant_valid : Civil.Valid 2024 1 2 3 4 5 := by decide

def sampleInstant (millisecond : Fin 1000) : IsoInstant where
  civil := Civil.of 2024 1 2 3 4 5 sampleInstant_valid
  millisecond := millisecond
  day_le := by decide

def sampleParams : LogParams ℕ where
  category := some "FINANCIAL_OPERATION"
  action := some "DONATION_CREATED"
  severity := some "HIGH"
  result := some "SUCCESS"
  userId := some "user-123"

def sampleRow (millisecond : Fin 1000) (id : ℕ) : StoredRow :=
  sampleService.newRow sampleParams "FINANCIAL_OPERATION" "DONATION_CREATED" "HIGH" "SUCCESS"
    (.obj []) (sampleInstant millisecond) id

end StellarDonations.Audit
