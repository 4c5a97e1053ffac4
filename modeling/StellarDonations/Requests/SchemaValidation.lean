import Mathlib.Algebra.Order.Ring.Rat
import StellarDonations.Text.Json

/-!
# Validating a request against its schema

The middleware `schemaValidation`: `validateSegment` checks the declared fields of a body, and
`stripUnknown` then takes what the handlers get to see. The two go down into a body in different
ways. An object inside the body is stripped but not checked, an array is checked, one level down,
but neither stripped nor checked as a whole, a text is changed after it was checked, and a `null`
that a field admits fails the check of its type, where there is a check, and passes where there is
none. So a body that is accepted conforms to its schema only as far as these parts do on their own
(`keeps_iff`).
-/

namespace StellarDonations.SchemaValidation

open JsString

/-! ## Rules -/

/-- A number in a body. JSON can write numbers too great to be finite. -/
inductive Number where
  | finite (q : ℚ)
  | infinite (negative : Bool)
  deriving DecidableEq

abbrev Value : Type := Json Number

/-- The names of types that `matchesType` knows; there is no value of any other. -/
inductive FieldType where
  | string
  | number
  | integer
  | boolean
  | object
  | array
  | integerString
  | numberString
  | dateString
  | other (name : String)
  deriving DecidableEq

inductive Sanitize where
  | unset
  | never
  | always
  | markup
  | memo
  | label
  | name
  | identifier
  | description
  deriving DecidableEq

structure FieldRules where
  /-- `rules.types`, or `rules.type` alone. -/
  types : List FieldType := [.string]
  required : Bool := false
  nullable : Bool := false
  enum : Option (List Value) := none
  trim : Bool := false
  minLength : Option ℕ := none
  maxLength : Option ℕ := none
  /-- `pattern.test`. -/
  pattern : Option (String → Bool) := none
  min : Option ℚ := none
  max : Option ℚ := none
  /-- Whether `rules.validate` returns `true`. -/
  validate : Option (Value → Bool) := none
  sanitize : Sanitize := .unset
  stripTags : Bool := false
  allowMarkup : Bool := false
  allowedTags : Option (List String) := none
  allowUnknown : Bool := false

inductive Rules where
  | mk (own : FieldRules) (items : Option Rules) (fields : Option (List (String × Rules)))

namespace Rules

/-- The rules but for those of the values inside. -/
def own : Rules → FieldRules
  | mk own _ _ => own

def items : Rules → Option Rules
  | mk _ items _ => items

def fields : Rules → Option (List (String × Rules))
  | mk _ _ fields => fields

end Rules

/-- The schema of a body, of the query or of the parameters. -/
structure Segment where
  fields : List (String × Rules)
  allowUnknown : Bool := false
  /-- Whether `segmentSchema.validate` finds an error. -/
  validate : Option (Value → Bool) := none
  nodup : (fields.map Prod.fst).Nodup

/-- What is not part of the middleware: the functions of the sanitizer, and the engine's parser of
dates. -/
structure Env where
  sanitizeMarkup : Option (List String) → String → String
  sanitizeMemo : String → String
  sanitizeLabel : String → String
  sanitizeName : String → String
  sanitizeIdentifier : String → String
  sanitizeDescription : (allowMarkup : Bool) → (maxLength : Option ℕ) → String → String
  stripHtmlTags : String → String
  isDate : String → Bool

structure FieldError where
  field : String
  code : String
  constraint : Option String
  deriving DecidableEq

/-! ## Checking a field -/

def isDigit (c : Char) : Bool := '0' ≤ c && c ≤ '9'

def isStrictIntegerString (value : String) : Bool :=
  match (trim value).toList with
  | [] => false
  | '-' :: rest => rest ≠ [] && rest.all isDigit
  | trimmed => trimmed.all isDigit

def numberLoop : (first : Bool) → (dotCount digitCount : ℕ) → List Char → Bool
  | _, _, digitCount, [] => 0 < digitCount
  | first, dotCount, digitCount, c :: rest =>
    if c = '-' then first && numberLoop false dotCount digitCount rest
    else if c = '.' then dotCount = 0 && numberLoop false (dotCount + 1) digitCount rest
    else isDigit c && numberLoop false dotCount (digitCount + 1) rest

def isStrictNumberString (value : String) : Bool := numberLoop true 0 0 (trim value).toList

def matchesType (env : Env) : Value → FieldType → Bool
  | .str _, .string => true
  | .num (.finite _), .number => true
  | .num (.finite q), .integer => q.den = 1
  | .bool _, .boolean => true
  | .obj _, .object => true
  | .arr _, .array => true
  | .str s, .integerString => isStrictIntegerString s
  | .str s, .numberString => isStrictNumberString s
  | .str s, .dateString => trim s ≠ "" && env.isDate s
  | _, _ => false

/-- `enum.includes(value)`; no array and no object of a body is identical to one of the schema. -/
def includes (enum : List Value) : Value → Bool
  | .null => enum.any fun | .null => true | _ => false
  | .bool b => enum.any fun | .bool b' => b = b' | _ => false
  | .num n => enum.any fun | .num n' => n = n' | _ => false
  | .str s => enum.any fun | .str s' => s = s' | _ => false
  | .arr _ | .obj _ => false

/-- `formatLengthError` and `formatRangeError`: one bound or both. -/
def boundConstraint {α : Type} (both low high : String) (min max : Option α) : String :=
  if min.isSome && max.isSome then both else if min.isSome then low else high

/-- The checks of `validateField` on a text. -/
def textError (rules : FieldRules) (fieldPath value : String) : Option FieldError :=
  let normalized := if rules.trim then trim value else value
  let length := (codeUnits normalized).length
  let lengthError : FieldError := ⟨fieldPath, "INVALID_LENGTH",
    boundConstraint "length" "minLength" "maxLength" rules.minLength rules.maxLength⟩
  if rules.minLength.any (length < ·) then some lengthError
  else if rules.maxLength.any (· < length) then some lengthError
  else if rules.pattern.any (fun test ↦ !test normalized) then
    some ⟨fieldPath, "INVALID_PATTERN", "pattern"⟩
  else none

/-- The checks of `validateField` on a number. -/
def numberError (rules : FieldRules) (fieldPath : String) : Number → Option FieldError
  | .finite q =>
    if rules.min.any (q < ·) || rules.max.any (· < q) then
      some ⟨fieldPath, "OUT_OF_RANGE",
        boundConstraint "range" "minimum" "maximum" rules.min rules.max⟩
    else none
  | .infinite _ => none

def validateField (env : Env) (value : Value) (rules : FieldRules) (fieldPath : String) :
    Option FieldError :=
  if !rules.types.any (matchesType env value) then some ⟨fieldPath, "INVALID_TYPE", "type"⟩
  else if rules.enum.any (fun enum ↦ !includes enum value) then
    some ⟨fieldPath, "INVALID_ENUM", "enum"⟩
  else
    let error := match value with
      | .str s => textError rules fieldPath s
      | .num n => numberError rules fieldPath n
      | _ => none
    error.or <|
      if rules.validate.any (fun validate ↦ !validate value) then
        some ⟨fieldPath, "VALIDATION_FAILED", "custom"⟩
      else none

/-! ## Stripping -/

/-- What `sanitizeFieldValue` makes of a text. -/
def sanitizeText (env : Env) (key value : String) (rules : FieldRules) : String :=
  let val := if rules.trim then trim value else value
  if rules.sanitize = .never then val
  else if rules.sanitize = .markup || rules.allowMarkup then
    env.sanitizeMarkup rules.allowedTags val
  else if rules.sanitize = .memo || key = "memo" then env.sanitizeMemo val
  else if rules.sanitize = .label || key = "label" then env.sanitizeLabel val
  else if rules.sanitize = .name || key = "ownerName" || key = "name" then env.sanitizeName val
  else if rules.sanitize = .identifier || key = "donor" || key = "recipient" then
    env.sanitizeIdentifier val
  else if rules.sanitize = .description || key = "description" then
    env.sanitizeDescription rules.allowMarkup rules.maxLength val
  else if rules.sanitize = .always || rules.stripTags then env.stripHtmlTags val
  else val

def sanitizeFieldValue (env : Env) (key : String) (value : Value) (rules : FieldRules) : Value :=
  match value with
  | .str s => .str (sanitizeText env key s rules)
  | value => value

mutual

/-- `stripUnknown`, on the fields of a schema or of a rule. -/
def stripUnknown (env : Env) (fields : List (String × Rules)) (allowUnknown : Bool) :
    Value → Value
  | .obj entries => .obj (stripEntries env fields allowUnknown entries)
  | value => value

/-- The loop of `stripUnknown`. -/
def stripEntries (env : Env) (fields : List (String × Rules)) (allowUnknown : Bool) :
    List (String × Value) → List (String × Value)
  | [] => []
  | (key, value) :: rest =>
    match fields.lookup key with
    | some (.mk own _ (some nested)) =>
      let stripped := match value with
        | .obj _ => stripUnknown env nested own.allowUnknown value
        | _ => sanitizeFieldValue env key value own
      (key, stripped) :: stripEntries env fields allowUnknown rest
    | some (.mk own _ none) =>
      (key, sanitizeFieldValue env key value own) :: stripEntries env fields allowUnknown rest
    | none =>
      if allowUnknown then (key, value) :: stripEntries env fields allowUnknown rest
      else stripEntries env fields allowUnknown rest

end

/-! ## Checking a body -/

/-- The errors of a value that is there: `null` is only let through to the check of its type. -/
def valueErrors (env : Env) (rules : FieldRules) (fieldPath : String) (value : Value) :
    List FieldError :=
  match value with
  | .null =>
    if rules.nullable then (validateField env .null rules fieldPath).toList
    else [⟨fieldPath, "NULL_NOT_ALLOWED", "notNull"⟩]
  | value => (validateField env value rules fieldPath).toList

def missingErrors (rules : FieldRules) (fieldPath : String) : List FieldError :=
  if rules.required then [⟨fieldPath, "REQUIRED", "required"⟩] else []

def validateNestedObject (env : Env) (fields : List (String × Rules)) (path : String)
    (entries : List (String × Value)) : List FieldError :=
  fields.flatMap fun field ↦
    let fieldPath := path ++ "." ++ field.1
    match entries.lookup field.1 with
    | none => missingErrors field.2.own fieldPath
    | some value => valueErrors env field.2.own fieldPath value

def itemErrors (env : Env) (items : Rules) (itemPath : String) (item : Value) : List FieldError :=
  match item, items.fields with
  | .obj entries, some fields => validateNestedObject env fields itemPath entries
  | item, _ => (validateField env item items.own itemPath).toList

/-- The loop of `validateSegment`, for one field. -/
def fieldErrors (env : Env) (segmentName : String) (entries : List (String × Value))
    (field : String × Rules) : List FieldError :=
  let fieldPath := segmentName ++ "." ++ field.1
  match entries.lookup field.1 with
  | none => missingErrors field.2.own fieldPath
  | some value =>
    match value, field.2.items with
    | .arr elems, some items => elems.zipIdx.flatMap fun item ↦
        itemErrors env items (fieldPath ++ "[" ++ toString item.2 ++ "]") item.1
    | value, _ => valueErrors env field.2.own fieldPath value

def validateSegment (env : Env) (data : Value) (segmentSchema : Segment) (segmentName : String) :
    List FieldError :=
  match data with
  | .obj entries =>
    segmentSchema.fields.flatMap (fieldErrors env segmentName entries) ++
      if segmentSchema.validate.any fun validate ↦ validate data then
        [⟨segmentName, "SEGMENT_ERROR", none⟩]
      else []
  | _ => [⟨segmentName, "SEGMENT_ERROR", none⟩]

/-! ## What a schema asks for -/

/-- The value satisfies the rules of a field, as far as they are about it alone. -/
def Satisfies (env : Env) (rules : FieldRules) (value : Value) : Prop :=
  validateField env value rules "" = none

mutual

/-- The value and everything inside it are as the rules have them. -/
def Conforms (env : Env) : Rules → Value → Prop
  | .mk own _ _, .null => own.nullable = true
  | .mk own items _, .arr elems => Satisfies env own (.arr elems) ∧
    match items with
    | some items => ElemsConform env items elems
    | none => True
  | .mk own _ fields, .obj entries => Satisfies env own (.obj entries) ∧
    match fields with
    | some fields => EntriesConform env fields own.allowUnknown entries
    | none => True
  | .mk own _ _, value => Satisfies env own value

/-- The items of an array; an item with declared fields need not have a declared type. -/
def ElemsConform (env : Env) : Rules → List Value → Prop
  | _, [] => True
  | .mk own items (some fields), .obj entries :: rest =>
    EntriesConform env fields own.allowUnknown entries ∧
      ElemsConform env (.mk own items (some fields)) rest
  | items, item :: rest => Conforms env items item ∧ ElemsConform env items rest

def EntriesConform (env : Env) : List (String × Rules) → (allowUnknown : Bool) →
    List (String × Value) → Prop
  | _, _, [] => True
  | fields, allowUnknown, (key, value) :: rest =>
    (match fields.lookup key with
      | some rules => Conforms env rules value
      | none => allowUnknown = true) ∧ EntriesConform env fields allowUnknown rest

end

/-- A body: an object of it has each key once. -/
abbrev Body : Type := { data : Value // data.Distinct }

/-- What is stripped of a body has declared fields only, at every depth, and each of its values
satisfies the rules of its field. -/
def ConformsTo (env : Env) (schema : Segment) : Value → Prop
  | .obj entries => EntriesConform env schema.fields schema.allowUnknown entries
  | _ => False

/-- How `validateSegment` comes to a value: as a field of the body, as an item of an array of the
body, as a field of such an item, or not at all. -/
inductive Level where
  | field
  | item
  | itemField
  | unseen
  deriving DecidableEq

def Level.ofItem : Level → Level
  | .field => .item
  | _ => .unseen

def Level.ofEntry : Level → Level
  | .item => .itemField
  | _ => .unseen

/-- A value of a body that has rules of its own, and where it stands. -/
structure Place where
  level : Level
  path : String
  rules : Rules
  value : Value

/-- The places of a body, at every depth. -/
inductive IsPlace (schema : Segment) (segmentName : String) (entries : List (String × Value)) :
    Place → Prop
  | field {field : String × Rules} {value : Value} (hfield : field ∈ schema.fields)
      (hvalue : entries.lookup field.1 = some value) :
      IsPlace schema segmentName entries ⟨.field, segmentName ++ "." ++ field.1, field.2, value⟩
  | item {p : Place} {elems : List Value} {items : Rules} {item : Value × ℕ}
      (hp : IsPlace schema segmentName entries p) (helems : p.value = .arr elems)
      (hitems : p.rules.items = some items) (hitem : item ∈ elems.zipIdx) :
      IsPlace schema segmentName entries
        ⟨p.level.ofItem, p.path ++ "[" ++ toString item.2 ++ "]", items, item.1⟩
  | entry {p : Place} {inner : List (String × Value)} {fields : List (String × Rules)}
      {field : String × Rules} {value : Value} (hp : IsPlace schema segmentName entries p)
      (hinner : p.value = .obj inner) (hfields : p.rules.fields = some fields)
      (hfield : field ∈ fields) (hvalue : inner.lookup field.1 = some value) :
      IsPlace schema segmentName entries
        ⟨p.level.ofEntry, p.path ++ "." ++ field.1, field.2, value⟩

/-- The errors of a place itself. An array with rules for its items, and an item with declared
fields, have none but those of the places inside. -/
def Place.errors (env : Env) (p : Place) : List FieldError :=
  match p.level with
  | .field =>
    match p.value, p.rules.items with
    | .arr _, some _ => []
    | value, _ => valueErrors env p.rules.own p.path value
  | .item =>
    match p.value, p.rules.fields with
    | .obj _, some _ => []
    | value, _ => (validateField env value p.rules.own p.path).toList
  | .itemField => valueErrors env p.rules.own p.path p.value
  | .unseen => []

/-- A body that is accepted conforms once it is stripped, and a `null`, wherever it stands, has no
error among those reported exactly when it is nullable there. -/
def Keeps (env : Env) (schema : Segment) (segmentName : String) (data : Value) : Prop :=
  (validateSegment env data schema segmentName = [] →
    ConformsTo env schema (stripUnknown env schema.fields schema.allowUnknown data)) ∧
  ∀ entries, data = .obj entries → ∀ p, IsPlace schema segmentName entries p →
    p.value = .null →
      ((∀ e ∈ p.errors env, e ∉ validateSegment env (.obj entries) schema segmentName) ↔
        p.rules.own.nullable = true)

/-! ## The parts that are left to themselves -/

/-- A value that is there is let through. -/
def Admitted (env : Env) (rules : FieldRules) (value : Value) : Prop :=
  value ≠ .null ∧ Satisfies env rules value

/-- The entries have all required fields, and each declared one is let through. -/
def EntriesAdmitted (env : Env) (fields : List (String × Rules)) (entries : List (String × Value)) :
    Prop :=
  ∀ field ∈ fields, match entries.lookup field.1 with
    | none => field.2.own.required = false
    | some value => Admitted env field.2.own value

/-- An item of an array is let through. -/
def ItemAdmitted (env : Env) (items : Rules) (item : Value) : Prop :=
  match item, items.fields with
  | .obj entries, some fields => EntriesAdmitted env fields entries
  | item, _ => Satisfies env items.own item

/-- A field of a body is let through: an array by its items alone. -/
def FieldAdmitted (env : Env) (entries : List (String × Value)) (field : String × Rules) : Prop :=
  match entries.lookup field.1 with
  | none => field.2.own.required = false
  | some value =>
    match value, field.2.items with
    | .arr elems, some items => ∀ item ∈ elems, ItemAdmitted env items item
    | value, _ => Admitted env field.2.own value

mutual

/-- The value is as the rules have it once it is stripped: each text after it has been sanitised,
each array as it is. -/
def Sound (env : Env) (key : String) : Rules → Value → Prop
  | .mk own _ _, .null => own.nullable = true
  | .mk own _ _, .str s => Satisfies env own (.str (sanitizeText env key s own))
  | .mk own items fields, .arr elems => Conforms env (.mk own items fields) (.arr elems)
  | .mk own _ (some fields), .obj entries =>
    Satisfies env own (.obj (stripEntries env fields own.allowUnknown entries)) ∧
      EntriesSound env fields entries
  | .mk own _ _, value => Satisfies env own value

def EntriesSound (env : Env) (fields : List (String × Rules)) : List (String × Value) → Prop
  | [] => True
  | (key, value) :: rest =>
    (match fields.lookup key with
      | some rules => Sound env key rules value
      | none => True) ∧ EntriesSound env fields rest

end

/-- What no check of `validateSegment` sees of a field: the text as it is after it has been
sanitised, an array as a whole and inside its items, and an object inside. -/
def Unseen (env : Env) (key : String) (rules : Rules) : Value → Prop
  | .str s => Satisfies env rules.own (.str (sanitizeText env key s rules.own))
  | .arr elems => rules.items.isSome → Conforms env rules (.arr elems)
  | .obj entries => rules.fields.isSome → Sound env key rules (.obj entries)
  | _ => True

/-- A body in which a `null` is nullable just where `validateSegment` does not come to it, and whose
unseen parts are sound if it is accepted. -/
def Regular (env : Env) (schema : Segment) (segmentName : String) : Value → Prop
  | .obj entries =>
    (∀ p, IsPlace schema segmentName entries p → p.value = .null →
      (p.level = .unseen ↔ p.rules.own.nullable = true)) ∧
    ((∀ field ∈ schema.fields, FieldAdmitted env entries field) →
      schema.validate.any (fun validate ↦ validate (.obj entries)) = false →
      ∀ field ∈ schema.fields, ∀ value, entries.lookup field.1 = some value →
        Unseen env field.1 field.2 value)
  | _ => True

/-! ## Errors -/

variable {env : Env} {rules : FieldRules} {value : Value}

theorem validateField_eq_none_iff (fieldPath : String) :
    validateField env value rules fieldPath = none ↔ Satisfies env rules value := by
  have htext : ∀ s, textError rules fieldPath s = none ↔ textError rules "" s = none := by
    intro s
    simp only [textError]
    split_ifs <;> simp
  have hnumber : ∀ n, numberError rules fieldPath n = none ↔ numberError rules "" n = none := by
    intro n
    cases n with
    | finite q =>
      simp only [numberError]
      split_ifs <;> simp
    | infinite negative => exact Iff.rfl
  unfold Satisfies validateField
  split_ifs with htype henum hcustom
  · simp
  · simp
  · simp
  · cases value with
    | str s => simpa only [Option.or_none] using htext s
    | num n => simpa only [Option.or_none] using hnumber n
    | null | bool b | arr elems | obj entries => exact Iff.rfl

theorem not_satisfies_null : ¬Satisfies env rules .null := by
  have hnone : rules.types.any (matchesType env .null) = false := by
    rw [List.any_eq_false]
    intro type _
    cases type <;> exact Bool.false_ne_true
  unfold Satisfies validateField
  rw [hnone]
  simp

theorem missingErrors_eq_nil_iff {fieldPath : String} :
    missingErrors rules fieldPath = [] ↔ rules.required = false := by
  rw [missingErrors]
  split_ifs with h
  · simp [h]
  · simp [Bool.eq_false_of_not_eq_true h]

theorem valueErrors_eq_nil_iff {fieldPath : String} :
    valueErrors env rules fieldPath value = [] ↔ Admitted env rules value := by
  cases value with
  | null =>
    have hnot : ¬Admitted env rules .null := fun h ↦ h.1 rfl
    refine iff_of_false ?_ hnot
    rw [valueErrors]
    by_cases hnullable : rules.nullable = true
    · rw [if_pos hnullable, Option.toList_eq_nil_iff, validateField_eq_none_iff]
      exact not_satisfies_null
    · rw [if_neg hnullable]
      exact List.cons_ne_nil _ _
  | bool b | num n | str s | arr elems | obj entries =>
    simp [valueErrors, Admitted, validateField_eq_none_iff]

theorem validateNestedObject_eq_nil_iff {fields : List (String × Rules)} {path : String}
    {entries : List (String × Value)} :
    validateNestedObject env fields path entries = [] ↔ EntriesAdmitted env fields entries := by
  rw [validateNestedObject, List.flatMap_eq_nil_iff, EntriesAdmitted]
  refine forall₂_congr fun field _ ↦ ?_
  cases entries.lookup field.1 with
  | none => exact missingErrors_eq_nil_iff
  | some value => exact valueErrors_eq_nil_iff

theorem itemErrors_eq_nil_iff {items : Rules} {itemPath : String} {item : Value} :
    itemErrors env items itemPath item = [] ↔ ItemAdmitted env items item := by
  unfold itemErrors ItemAdmitted
  split
  · exact validateNestedObject_eq_nil_iff
  · rw [Option.toList_eq_nil_iff, validateField_eq_none_iff]

theorem fieldErrors_eq_nil_iff {segmentName : String} {entries : List (String × Value)}
    {field : String × Rules} :
    fieldErrors env segmentName entries field = [] ↔ FieldAdmitted env entries field := by
  unfold fieldErrors FieldAdmitted
  cases entries.lookup field.1 with
  | none => exact missingErrors_eq_nil_iff
  | some value =>
    cases value with
    | arr elems =>
      cases field.2.items with
      | none => exact valueErrors_eq_nil_iff
      | some items =>
        rw [List.flatMap_eq_nil_iff]
        simp only [itemErrors_eq_nil_iff]
        constructor
        · intro h item hitem
          obtain ⟨i, hi, rfl⟩ := List.getElem_of_mem hitem
          exact h (elems[i], i) (List.mk_mem_zipIdx_iff_getElem?.mpr (List.getElem?_eq_getElem hi))
        · intro h item hitem
          exact h item.1 (List.fst_mem_of_mem_zipIdx hitem)
    | null | bool b | num n | str s | obj entries => exact valueErrors_eq_nil_iff

theorem validateSegment_eq_nil_iff {schema : Segment} {segmentName : String}
    {entries : List (String × Value)} :
    validateSegment env (.obj entries) schema segmentName = [] ↔
      (∀ field ∈ schema.fields, FieldAdmitted env entries field) ∧
        schema.validate.any (fun validate ↦ validate (.obj entries)) = false := by
  rw [validateSegment, List.append_eq_nil_iff, List.flatMap_eq_nil_iff]
  refine and_congr (forall₂_congr fun field _ ↦ fieldErrors_eq_nil_iff) ?_
  split_ifs with h
  · simp [h]
  · simp [Bool.eq_false_of_not_eq_true h]

/-! ## Places and errors -/

section Places

variable {schema : Segment} {segmentName : String} {entries : List (String × Value)} {p : Place}

theorem IsPlace.of_field (h : IsPlace schema segmentName entries p) (hlevel : p.level = .field) :
    ∃ field ∈ schema.fields, entries.lookup field.1 = some p.value ∧ p.rules = field.2 ∧
      p.path = segmentName ++ "." ++ field.1 := by
  cases h with
  | field hfield hvalue => exact ⟨_, hfield, hvalue, rfl, rfl⟩
  | @item q => cases hq : q.level <;> simp [hq, Level.ofItem] at hlevel
  | @entry q => cases hq : q.level <;> simp [hq, Level.ofEntry] at hlevel

theorem IsPlace.of_item (h : IsPlace schema segmentName entries p) (hlevel : p.level = .item) :
    ∃ field ∈ schema.fields, ∃ elems items, ∃ item ∈ elems.zipIdx,
      entries.lookup field.1 = some (.arr elems) ∧ field.2.items = some items ∧
        p.rules = items ∧ p.value = item.1 ∧
          p.path = segmentName ++ "." ++ field.1 ++ "[" ++ toString item.2 ++ "]" := by
  cases h with
  | field => cases hlevel
  | @item q elems items item hq helems hitems hitem =>
    have hq' : q.level = .field := by
      cases hq' : q.level <;> simp [hq', Level.ofItem] at hlevel ⊢
    obtain ⟨field, hfield, hvalue, hrules, hpath⟩ := hq.of_field hq'
    exact ⟨field, hfield, elems, items, item, hitem, helems ▸ hvalue, hrules ▸ hitems, rfl, rfl,
      by rw [hpath]⟩
  | @entry q => cases hq : q.level <;> simp [hq, Level.ofEntry] at hlevel

theorem IsPlace.of_itemField (h : IsPlace schema segmentName entries p)
    (hlevel : p.level = .itemField) :
    ∃ q inner fields field, IsPlace schema segmentName entries q ∧ q.level = .item ∧
      q.value = .obj inner ∧ q.rules.fields = some fields ∧ field ∈ fields ∧
        inner.lookup field.1 = some p.value ∧ p.rules = field.2 ∧
          p.path = q.path ++ "." ++ field.1 := by
  cases h with
  | field => cases hlevel
  | @item q => cases hq : q.level <;> simp [hq, Level.ofItem] at hlevel
  | @entry q inner fields field value hq hinner hfields hfield hvalue =>
    have hq' : q.level = .item := by
      cases hq' : q.level <;> simp [hq', Level.ofEntry] at hlevel ⊢
    exact ⟨q, inner, fields, field, hq, hq', hinner, hfields, hfield, hvalue, rfl, rfl⟩

theorem itemErrors_subset {field : String × Rules} {elems : List Value} {items : Rules}
    {item : Value × ℕ} (hfield : field ∈ schema.fields)
    (hvalue : entries.lookup field.1 = some (.arr elems)) (hitems : field.2.items = some items)
    (hitem : item ∈ elems.zipIdx) :
    itemErrors env items (segmentName ++ "." ++ field.1 ++ "[" ++ toString item.2 ++ "]") item.1 ⊆
      validateSegment env (.obj entries) schema segmentName := by
  intro e he
  refine List.mem_append_left _ (List.mem_flatMap.mpr ⟨field, hfield, ?_⟩)
  rw [fieldErrors, hvalue, hitems]
  exact List.mem_flatMap.mpr ⟨item, hitem, he⟩

theorem errors_field {path : String} {rules : Rules} :
    Place.errors env ⟨.field, path, rules, value⟩ =
      match value, rules.items with
      | .arr _, some _ => []
      | value, _ => valueErrors env rules.own path value := rfl

theorem errors_item {path : String} {rules : Rules} :
    Place.errors env ⟨.item, path, rules, value⟩ =
      match value, rules.fields with
      | .obj _, some _ => []
      | value, _ => (validateField env value rules.own path).toList := rfl

/-- **The errors of a place are reported.** -/
theorem IsPlace.errors_subset (h : IsPlace schema segmentName entries p) :
    p.errors env ⊆ validateSegment env (.obj entries) schema segmentName := by
  intro e he
  obtain ⟨level, path, rules, value⟩ := p
  cases level with
  | field =>
    obtain ⟨field, hfield, hvalue, hrules, hpath⟩ := h.of_field rfl
    dsimp only at hvalue hrules hpath
    subst hrules hpath
    refine List.mem_append_left _ (List.mem_flatMap.mpr ⟨field, hfield, ?_⟩)
    rw [fieldErrors, hvalue]
    rw [errors_field] at he
    dsimp only
    split at he
    · cases he
    · exact he
  | item =>
    obtain ⟨field, hfield, elems, items, item, hitem, hvalue, hitems, hrules, hitem', hpath⟩ :=
      h.of_item rfl
    dsimp only at hrules hitem' hpath
    subst hrules hitem' hpath
    refine itemErrors_subset hfield hvalue hitems hitem ?_
    rw [errors_item] at he
    unfold itemErrors
    split at he
    · cases he
    · exact he
  | itemField =>
    obtain ⟨q, inner, fields, field, hq, hlevel, hinner, hfields, hfield, hvalue, hrules, hpath⟩ :=
      h.of_itemField rfl
    obtain ⟨field', hfield', elems, items, item, hitem, hvalue', hitems, hrules', hitem', hpath'⟩ :=
      hq.of_item hlevel
    dsimp only at hvalue hrules hpath
    subst hrules hpath
    refine itemErrors_subset hfield' hvalue' hitems hitem ?_
    rw [← hpath', ← hitem', ← hrules', hinner]
    unfold itemErrors
    rw [hfields]
    refine List.mem_flatMap.mpr ⟨field, hfield, ?_⟩
    rw [hvalue]
    exact he
  | unseen => cases he

/-- **What is reported** is the error of a place, or that a value is missing, or that the body as a
whole is not as it should be. -/
theorem place_of_mem {e : FieldError}
    (he : e ∈ validateSegment env (.obj entries) schema segmentName) :
    (∃ p, IsPlace schema segmentName entries p ∧ e ∈ p.errors env) ∨ e.code = "REQUIRED" ∨
      e.code = "SEGMENT_ERROR" := by
  have hmissing : ∀ {rules : FieldRules} {path : String}, e ∈ missingErrors rules path →
      e.code = "REQUIRED" := by
    intro rules path h
    rw [missingErrors] at h
    split_ifs at h
    · rw [List.mem_singleton.mp h]
    · cases h
  rcases List.mem_append.mp he with he | he
  · obtain ⟨field, hfield, he⟩ := List.mem_flatMap.mp he
    rw [fieldErrors] at he
    cases hvalue : entries.lookup field.1 with
    | none =>
      rw [hvalue] at he
      exact .inr (.inl (hmissing he))
    | some value =>
      rw [hvalue] at he
      have hp : IsPlace schema segmentName entries
          ⟨.field, segmentName ++ "." ++ field.1, field.2, value⟩ := .field hfield hvalue
      dsimp only at he
      split at he
      case h_1 elems items hitems =>
        obtain ⟨item, hitem, he⟩ := List.mem_flatMap.mp he
        have hp' : IsPlace schema segmentName entries
            ⟨.item, segmentName ++ "." ++ field.1 ++ "[" ++ toString item.2 ++ "]", items,
              item.1⟩ :=
          hp.item rfl hitems hitem
        unfold itemErrors at he
        split at he
        case h_1 inner fields hinner hfields =>
          obtain ⟨field', hfield', he⟩ := List.mem_flatMap.mp he
          cases hvalue' : inner.lookup field'.1 with
          | none =>
            rw [hvalue'] at he
            exact .inr (.inl (hmissing he))
          | some value' =>
            rw [hvalue'] at he
            exact .inl ⟨_, hp'.entry hinner hfields hfield' hvalue', he⟩
        case h_2 hnot =>
          refine .inl ⟨_, hp', ?_⟩
          rw [errors_item]
          split
          case h_1 inner fields hinner hfields => exact absurd hfields (hnot inner fields hinner)
          · exact he
      case h_2 hnot =>
        refine .inl ⟨_, hp, ?_⟩
        rw [errors_field]
        split
        case h_1 elems items hitems => exact absurd hitems (hnot elems items rfl)
        · exact he
  · split_ifs at he
    · exact .inr (.inr (by rw [List.mem_singleton.mp he]))
    · cases he

/-- A `null` passes just where nothing is checked. -/
theorem errors_null_iff (hnull : p.value = .null) : p.errors env = [] ↔ p.level = .unseen := by
  obtain ⟨level, path, rules, value⟩ := p
  dsimp only at hnull
  subst hnull
  have hvalue : ∀ path, valueErrors env rules.own path .null ≠ [] :=
    fun path h ↦ (valueErrors_eq_nil_iff.mp h).1 rfl
  cases level with
  | field => exact iff_of_false (hvalue path) nofun
  | item =>
    refine iff_of_false (fun h ↦ ?_) nofun
    have hnone := Option.toList_eq_nil_iff.mp (errors_item.symm.trans h)
    exact not_satisfies_null ((validateField_eq_none_iff path).mp hnone)
  | itemField => exact iff_of_false (hvalue path) nofun
  | unseen => exact iff_of_true rfl rfl

theorem IsPlace.unreported_null_iff (h : IsPlace schema segmentName entries p)
    (hnull : p.value = .null) :
    (∀ e ∈ p.errors env, e ∉ validateSegment env (.obj entries) schema segmentName) ↔
      p.level = .unseen := by
  rw [← errors_null_iff hnull]
  constructor
  · intro hnone
    exact List.eq_nil_iff_forall_not_mem.mpr fun e he ↦ hnone e he (h.errors_subset he)
  · intro hnil e he
    rw [hnil] at he
    cases he

end Places

/-! ## Stripping keeps what is sound -/

/-- What `stripEntries` does to a declared value. -/
def stripField (env : Env) (key : String) : Rules → Value → Value
  | .mk own _ (some nested), .obj entries =>
    .obj (stripEntries env nested own.allowUnknown entries)
  | .mk own _ _, value => sanitizeFieldValue env key value own

theorem stripEntries_cons {fields : List (String × Rules)} {allowUnknown : Bool} {key : String}
    {rest : List (String × Value)} :
    stripEntries env fields allowUnknown ((key, value) :: rest) =
      match fields.lookup key with
      | some rules => (key, stripField env key rules value) ::
          stripEntries env fields allowUnknown rest
      | none => if allowUnknown then (key, value) :: stripEntries env fields allowUnknown rest
          else stripEntries env fields allowUnknown rest := by
  rw [stripEntries]
  cases fields.lookup key with
  | none => rfl
  | some rules =>
    obtain ⟨own, items, nested⟩ := rules
    cases nested with
    | none => rfl
    | some nested => cases value <;> rfl

theorem entriesConform_stripEntries_iff {fields : List (String × Rules)} {allowUnknown : Bool}
    {entries : List (String × Value)}
    (h : ∀ entry ∈ entries, ∀ key rules,
      Conforms env rules (stripField env key rules entry.2) ↔ Sound env key rules entry.2) :
    EntriesConform env fields allowUnknown (stripEntries env fields allowUnknown entries) ↔
      EntriesSound env fields entries := by
  induction entries with
  | nil => exact Iff.rfl
  | cons entry rest ih =>
    obtain ⟨key, value⟩ := entry
    have hrest := ih fun entry hentry ↦ h entry (List.mem_cons_of_mem _ hentry)
    have hvalue := h (key, value) List.mem_cons_self key
    rw [stripEntries_cons, EntriesSound]
    cases hlookup : fields.lookup key with
    | some rules =>
      rw [EntriesConform, hlookup, hrest]
      exact and_congr_left' (hvalue rules)
    | none =>
      by_cases hunknown : allowUnknown = true
      · rw [if_pos hunknown, EntriesConform, hlookup, hrest]
        exact and_congr_left' (iff_of_true hunknown trivial)
      · rw [if_neg hunknown, hrest]
        exact ⟨fun h ↦ ⟨trivial, h⟩, And.right⟩

theorem sound_obj_iff {key : String} {items : Option Rules} {entries : List (String × Value)} :
    Sound env key (.mk rules items none) (.obj entries) ↔ Satisfies env rules (.obj entries) := by
  rw [Sound] <;> simp

theorem conforms_stripField_iff (value : Value) (key : String) (rules : Rules) :
    Conforms env rules (stripField env key rules value) ↔ Sound env key rules value := by
  induction value using Json.induct generalizing key rules with
  | null | bool b | num n | str s | arr elems ih =>
    obtain ⟨own, items, fields⟩ := rules
    cases fields <;> exact Iff.rfl
  | obj entries ih =>
    obtain ⟨own, items, fields⟩ := rules
    cases fields with
    | none =>
      rw [sound_obj_iff]
      exact and_iff_left trivial
    | some fields =>
      rw [stripField, Conforms, Sound]
      exact and_congr_right fun _ ↦ entriesConform_stripEntries_iff ih

/-! ## When a schema is kept -/

/-- What is let through is sound but for what is not seen. -/
theorem sound_iff_unseen {key : String} {rules : Rules} {value : Value} (hnull : value ≠ .null)
    (hseen : (∀ elems, value = .arr elems → rules.items = none) → Satisfies env rules.own value) :
    Sound env key rules value ↔ Unseen env key rules value := by
  obtain ⟨own, items, fields⟩ := rules
  cases value with
  | null => exact absurd rfl hnull
  | str s => cases fields <;> exact Iff.rfl
  | bool b =>
    have hsatisfies := hseen fun _ h ↦ nomatch h
    cases fields <;> exact iff_of_true hsatisfies trivial
  | num n =>
    have hsatisfies := hseen fun _ h ↦ nomatch h
    cases fields <;> exact iff_of_true hsatisfies trivial
  | arr elems =>
    cases items with
    | none =>
      have hsatisfies := hseen fun _ _ ↦ rfl
      cases fields <;> exact iff_of_true ⟨hsatisfies, trivial⟩ fun h ↦ nomatch h
    | some items =>
      cases fields <;> exact ⟨fun h _ ↦ h, fun h ↦ h rfl⟩
  | obj entries =>
    cases fields with
    | none =>
      have hsatisfies := hseen fun _ h ↦ nomatch h
      exact iff_of_true (sound_obj_iff.mpr hsatisfies) fun h ↦ nomatch h
    | some fields => exact ⟨fun h _ ↦ h, fun h ↦ h rfl⟩

theorem seen_of_admitted {entries : List (String × Value)} {field : String × Rules}
    (h : FieldAdmitted env entries field) (hlookup : entries.lookup field.1 = some value) :
    value ≠ .null ∧ ((∀ elems, value = .arr elems → field.2.items = none) →
      Satisfies env field.2.own value) := by
  rw [FieldAdmitted, hlookup] at h
  cases value with
  | null => exact absurd rfl h.1
  | bool b | num n | str s | obj entries => exact ⟨h.1, fun _ ↦ h.2⟩
  | arr elems =>
    refine ⟨(fun h ↦ nomatch h), fun hitems ↦ ?_⟩
    rw [hitems elems rfl] at h
    exact h.2

theorem entriesSound_iff {fields : List (String × Rules)} {entries : List (String × Value)} :
    EntriesSound env fields entries ↔ ∀ entry ∈ entries, ∀ rules,
      fields.lookup entry.1 = some rules → Sound env entry.1 rules entry.2 := by
  induction entries with
  | nil => simp [EntriesSound]
  | cons entry rest ih =>
    obtain ⟨key, value⟩ := entry
    rw [EntriesSound, ih, List.forall_mem_cons]
    refine and_congr_left' ?_
    cases fields.lookup key with
    | none => exact iff_of_true trivial fun _ h ↦ nomatch h
    | some rules =>
      refine ⟨fun h rules' heq ↦ ?_, fun h ↦ h rules rfl⟩
      rwa [← Option.some.inj heq]

theorem lookup_eq_some_iff_mem {α : Type} {l : List (String × α)} (h : (l.map Prod.fst).Nodup)
    {key : String} {a : α} : l.lookup key = some a ↔ (key, a) ∈ l := by
  induction l with
  | nil => simp
  | cons entry rest ih =>
    obtain ⟨key', a'⟩ := entry
    obtain ⟨hkey, hrest⟩ := List.nodup_cons.mp h
    rw [List.lookup_cons, List.mem_cons, Prod.mk.injEq]
    by_cases heq : key = key'
    · subst heq
      have hnot : (key, a) ∉ rest := fun hmem ↦ hkey (List.mem_map.mpr ⟨_, hmem, rfl⟩)
      simp [hnot, eq_comm]
    · rw [beq_eq_false_iff_ne.mpr heq]
      simp only [heq, false_and, false_or]
      exact ih hrest

/-- **When the claim of a schema is kept.** A body conforms once it is stripped if it is accepted,
and its `null`s are accepted as its fields have it, just when it is regular. -/
theorem keeps_iff (env : Env) (schema : Segment) (segmentName : String) (body : Body) :
    Keeps env schema segmentName body.1 ↔ Regular env schema segmentName body.1 := by
  obtain ⟨data, hdata⟩ := body
  have hrejected : ∀ value : Value, (∀ entries, value ≠ .obj entries) →
      (Keeps env schema segmentName value ↔ Regular env schema segmentName value) := by
    intro value hvalue
    cases value with
    | obj entries => exact absurd rfl (hvalue entries)
    | null | bool b | num n | str s | arr elems =>
      exact iff_of_true ⟨(fun h ↦ nomatch h), fun _ h ↦ nomatch h⟩ trivial
  cases data with
  | null | bool b | num n | str s | arr elems => exact hrejected _ fun _ h ↦ nomatch h
  | obj entries =>
    have hkeys := (Json.distinct_obj.mp hdata).1
    have hsound : EntriesSound env schema.fields entries ↔ ∀ field ∈ schema.fields, ∀ value,
        entries.lookup field.1 = some value → Sound env field.1 field.2 value := by
      rw [entriesSound_iff]
      constructor
      · intro h field hfield value hvalue
        exact h (field.1, value) ((lookup_eq_some_iff_mem hkeys).mp hvalue) field.2
          ((lookup_eq_some_iff_mem schema.nodup).mpr hfield)
      · intro h entry hentry rules hrules
        exact h (entry.1, rules) ((lookup_eq_some_iff_mem schema.nodup).mp hrules) entry.2
          ((lookup_eq_some_iff_mem hkeys).mpr hentry)
    have hconforms : EntriesConform env schema.fields schema.allowUnknown
        (stripEntries env schema.fields schema.allowUnknown entries) ↔
          EntriesSound env schema.fields entries :=
      entriesConform_stripEntries_iff fun entry _ key rules ↦
        conforms_stripField_iff entry.2 key rules
    have hnulls : (∀ entries', Json.obj entries = .obj entries' → ∀ p,
        IsPlace schema segmentName entries' p → p.value = .null →
          ((∀ e ∈ p.errors env, e ∉ validateSegment env (.obj entries') schema segmentName) ↔
            p.rules.own.nullable = true)) ↔
        ∀ p, IsPlace schema segmentName entries p → p.value = .null →
          (p.level = .unseen ↔ p.rules.own.nullable = true) := by
      constructor
      · exact fun h p hp hnull ↦
          (hp.unreported_null_iff hnull).symm.trans (h entries rfl p hp hnull)
      · intro h entries' heq p hp hnull
        obtain rfl := Json.obj.inj heq
        exact (hp.unreported_null_iff hnull).trans (h p hp hnull)
    have hbody : Keeps env schema segmentName (.obj entries) ↔
        (validateSegment env (.obj entries) schema segmentName = [] →
          EntriesSound env schema.fields entries) ∧
        ∀ p, IsPlace schema segmentName entries p → p.value = .null →
          (p.level = .unseen ↔ p.rules.own.nullable = true) := by
      rw [← hconforms, ← hnulls]
      exact Iff.rfl
    rw [hbody, Regular, and_comm, validateSegment_eq_nil_iff, and_imp, hsound]
    refine and_congr_right fun _ ↦ imp_congr_right fun hadmitted ↦ imp_congr_right fun _ ↦ ?_
    refine forall₂_congr fun field hfield ↦ forall₂_congr fun value hlookup ↦ ?_
    obtain ⟨hnull, hseen⟩ := seen_of_admitted (hadmitted field hfield) hlookup
    exact sound_iff_unseen hnull hseen

/-! ## Two bodies -/

/-- A schema with a list of donations, and a note that may be `null`. -/
def donationsSchema : Segment where
  fields := [
    ("donations", .mk { types := [.array] }
      (some (.mk { types := [.object] } none
        (some [("amount", .mk { types := [.integer] } none none)])))
      none),
    ("note", .mk { nullable := true } none none)]
  nodup := by decide

/-- An engine in which nothing is sanitised and no text is a date. -/
def plainEnv : Env where
  sanitizeMarkup _ := id
  sanitizeMemo := id
  sanitizeLabel := id
  sanitizeName := id
  sanitizeIdentifier := id
  sanitizeDescription _ _ := id
  stripHtmlTags := id
  isDate _ := false

/-- A list of one donation, which has a field that is not declared. -/
def adminBody : Value :=
  .obj [("donations", .arr [.obj [("amount", .num (.finite 5)), ("role", .str "admin")]])]

def nullBody : Value := .obj [("note", .null)]

/-- The body is accepted, and what is stripped of it is the body itself; the `null` is rejected. -/
theorem bodies_not_kept :
    (validateSegment plainEnv adminBody donationsSchema "body" = [] ∧
      stripUnknown plainEnv donationsSchema.fields false adminBody = adminBody ∧
      ¬Keeps plainEnv donationsSchema "body" adminBody) ∧
    validateSegment plainEnv nullBody donationsSchema "body" =
        [⟨"body.note", "INVALID_TYPE", "type"⟩] ∧
      ¬Keeps plainEnv donationsSchema "body" nullBody := by
  have haccepted : validateSegment plainEnv adminBody donationsSchema "body" = [] := by decide
  have hsame : stripUnknown plainEnv donationsSchema.fields false adminBody = adminBody := rfl
  have hnull : validateSegment plainEnv nullBody donationsSchema "body" =
      [⟨"body.note", "INVALID_TYPE", "type"⟩] := by decide
  refine ⟨⟨haccepted, hsame, fun h ↦ ?_⟩, hnull, fun h ↦ ?_⟩
  · have hconforms := h.1 haccepted
    obtain ⟨⟨-, ⟨-, hrole, -⟩, -⟩, -⟩ := hconforms
    cases hrole
  · have herrors := (h.2 _ rfl _
      (.field (List.mem_cons_of_mem _ (List.mem_singleton_self _)) rfl) rfl).mpr rfl
    revert herrors
    decide

end StellarDonations.SchemaValidation
