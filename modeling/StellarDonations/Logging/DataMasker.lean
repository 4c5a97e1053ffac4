import Mathlib.Algebra.Ring.Int.Defs
import StellarDonations.Text.FixedPattern
import StellarDonations.Text.JsValue

/-!
# Masking what is logged

`maskSensitiveData` and `maskError`. Whatever the value and the options, no secret key of the
network is left in masked data: what replaces a value is too short or broken by mask characters, and
what replaces the keys inside a text has brackets around it. An error is masked in its stack and in
its additional properties, but its name, message and code are copied, so it holds no secret key
exactly if these hold none (`clean_iff`).
-/

namespace StellarDonations.DataMasker

open JsString FixedPattern

/-! ## Keys and values -/

def sensitivePatterns : List String :=
  ["password", "passwd", "pwd", "secret", "secretkey", "secret_key", "private", "privatekey",
    "private_key", "token", "accesstoken", "access_token", "refreshtoken", "refresh_token",
    "apikey", "api_key", "api-key", "authorization", "bearer", "sendersecret", "sender_secret",
    "sourcesecret", "source_secret", "destinationsecret", "destination_secret", "claimantsecret",
    "claimant_secret", "secretkey", "secret_key", "signingkey", "signing_key", "seedphrase",
    "seed_phrase", "mnemonic", "creditcard", "credit_card", "cardnumber", "card_number", "cvv",
    "ssn", "social_security", "socialsecurity", "taxid", "tax_id", "database_url", "databaseurl",
    "db_url", "connection_string", "connectionstring", "encryption_key", "cipher_key", "cipherkey",
    "authtag", "auth_tag", "initializationvector", "initialization_vector", "hsm_pin", "hsmpin",
    "hsm_slot_id", "hsmslotid", "hsm_slot", "hsmslot", "kms_key_id", "kmskeyid", "kms_key",
    "kmskey", "kms_provider", "kmsprovider", "sessionid", "session_id", "sessiontoken",
    "session_token", "cookie", "csrf", "xsrf", "x-api-key", "x_api_key", "memo_text", "memo_hash",
    "memotext", "memohash"]

/-- `key.toLowerCase().replace(/[-_\s]/g, '')`. -/
def normalizeKey (key : String) : List Char :=
  (toLowerCase key).toList.filter fun c ↦ !(c = '-' || c = '_' || isWhiteSpace c)

def isSensitiveKey (patterns : List String) (key : String) : Bool :=
  patterns.any fun pattern ↦ normalizeKey key = normalizeKey pattern

/-- The code unit is one of the class `[lo-hi]`. -/
def inRange (lo hi : Char) (u : ℕ) : Bool := lo.toNat ≤ u && u ≤ hi.toNat

/-- `[A-Z2-7]`. -/
def isBase32 (u : ℕ) : Bool := inRange 'A' 'Z' u || inRange '2' '7' u

def stellarSecretPattern : Pattern ℕ := (· = 'S'.toNat) :: List.replicate 55 isBase32

def stellarSecretRedacted : List ℕ := codeUnits "[STELLAR_SECRET_REDACTED]"

/-- `/^S[A-Z2-7]{55}$/.test(value)`. -/
def isStellarSecret (value : List ℕ) : Bool :=
  startsWith stellarSecretPattern value && value.length = stellarSecretPattern.length

/-- `[A-Za-z0-9_-]`. -/
def isBase64Url (u : ℕ) : Bool :=
  inRange 'A' 'Z' u || inRange 'a' 'z' u || inRange '0' '9' u || u = '_'.toNat || u = '-'.toNat

/-- `eyJ[A-Za-z0-9_-]+` and a dot at the start of a text; the rest behind the dot. -/
def jwtSegment (s : List ℕ) : Option (List ℕ) :=
  match s.dropPrefix? (codeUnits "eyJ") with
  | none => none
  | some rest =>
    if rest.takeWhile isBase64Url = [] then none
    else match rest.dropWhile isBase64Url with
      | u :: rest => if u = '.'.toNat then some rest else none
      | [] => none

/-- `/eyJ[A-Za-z0-9_-]+\.eyJ[A-Za-z0-9_-]+\.[A-Za-z0-9_-]+/.test(value)`. -/
def hasJwt (value : List ℕ) : Bool :=
  value.tails.any fun s ↦
    match (jwtSegment s).bind jwtSegment with
    | some (u :: _) => isBase64Url u
    | _ => false

def isSensitiveValue (value : List ℕ) : Bool := isStellarSecret value || hasJwt value

/-! ## Masking -/

structure MaskOptions where
  maskChar : List ℕ := codeUnits "*"
  showFirst : ℕ := 0
  showLast : ℕ := 0
  minLength : ℕ := 8

def maskStellarSecretsInString (str : List ℕ) : List ℕ :=
  replaceAll stellarSecretPattern stellarSecretRedacted str

def maskText (options : MaskOptions) (strValue : List ℕ) : List ℕ :=
  if strValue.length < options.minLength then codeUnits "[REDACTED]"
  else if 0 < options.showFirst ∨ 0 < options.showLast then
    let first := strValue.take options.showFirst
    let last := strValue.drop (strValue.length - options.showLast)
    let maskedLength := max 4 (strValue.length - options.showFirst - options.showLast)
    first ++ (List.replicate maskedLength options.maskChar).flatten ++ last
  else codeUnits "[REDACTED]"

variable {ν D : Type} (numberText : ν → List ℕ) (patterns : List String)

def maskValue (options : MaskOptions) : JsValue ν → List ℕ
  | .null | .undefined => codeUnits "[REDACTED]"
  | value => maskText options (value.toText numberText)

/-- `showPartial ? { showFirst: 4, showLast: 4 } : {}`. -/
def partialOptions (showPartial : Bool) : MaskOptions :=
  if showPartial then { showFirst := 4, showLast := 4 } else {}

def maskStringValue (showPartial : Bool) (value : List ℕ) : List ℕ :=
  if isSensitiveValue value && isStellarSecret value then
    if showPartial then maskText { showFirst := 4, showLast := 4 } value else stellarSecretRedacted
  else if isSensitiveValue value then maskText (partialOptions showPartial) value
  else maskStellarSecretsInString value

/-- The options of `maskSensitiveData`. -/
structure Options (D : Type) where
  maxDepth : D
  currentDepth : D
  showPartial : Bool

variable [Add D] [One D] [LE D] [DecidableLE D]

/-- `{ ...options, currentDepth: currentDepth + 1 }`. -/
def Options.deeper (options : Options D) : Options D :=
  { options with currentDepth := options.currentDepth + 1 }

mutual

/-- `maskSensitiveData`. What is neither a text nor made of values is not sensitive. -/
def maskSensitiveData (options : Options D) : JsValue ν → JsValue ν := fun data ↦
  if options.maxDepth ≤ options.currentDepth then .str (codeUnits "[MAX_DEPTH_REACHED]")
  else match data with
    | .str value => .str (maskStringValue options.showPartial value)
    | .arr items => .arr (maskItems options.deeper items)
    | .obj fields => .obj (maskFields options fields)
    | data => data

def maskItems (options : Options D) : List (JsValue ν) → List (JsValue ν)
  | [] => []
  | item :: items => maskSensitiveData options item :: maskItems options items

def maskFields (options : Options D) : List (String × JsValue ν) → List (String × JsValue ν)
  | [] => []
  | (key, value) :: fields =>
    let masked :=
      if isSensitiveKey patterns key then
        .str (maskValue numberText (partialOptions options.showPartial) value)
      else match value with
        | .arr _ | .obj _ => maskSensitiveData options.deeper value
        | .str value => .str (maskStringValue options.showPartial value)
        | value => value
    (key, masked) :: maskFields options fields

end

/-! ## Errors -/

/-- An error, with the properties that `Object.keys` lists. -/
structure ErrorObject (ν : Type) where
  name : JsValue ν
  message : JsValue ν
  code : JsValue ν
  stack : Option (List ℕ)
  properties : List (String × JsValue ν)

def defaultOptions : Options ℤ where
  maxDepth := 10
  currentDepth := 0
  showPartial := false

def maskStack (stack : List ℕ) : List ℕ :=
  (codeUnits "\n").intercalate ((stack.splitOn '\n'.toNat).map maskStellarSecretsInString)

def maskError (error : ErrorObject ν) : JsValue ν :=
  let masked := [("name", error.name), ("message", error.message), ("code", error.code)]
  let stack :=
    match error.stack with
    | some stack => if stack = [] then [] else [("stack", .str (maskStack stack))]
    | none => []
  let additionalProps :=
    error.properties.filter fun field ↦ field.1 ∉ ["name", "message", "code", "stack"]
  .obj (masked ++ stack ++ additionalProps.map fun field ↦
    (field.1, maskSensitiveData numberText patterns defaultOptions field.2))

/-! ## Texts without keys -/

/-- No text at any depth has a secret key in it. -/
def Clean (v : JsValue ν) : Prop := ∀ s ∈ v.strings, ¬Occurs stellarSecretPattern s

theorem stellarSecretPattern_ne_nil : stellarSecretPattern ≠ [] := List.cons_ne_nil _ _

theorem barrier {b : ℕ} (hb : isBase32 b = false) : Barrier stellarSecretPattern b := by
  intro c hc
  rcases List.mem_cons.mp hc with rfl | hc
  · refine decide_eq_false fun h ↦ ?_
    rw [h] at hb
    cases hb
  · rw [List.eq_of_mem_replicate hc]
    exact hb

theorem not_occurs_of_length {s : List ℕ} (h : s.length < 56) : ¬Occurs stellarSecretPattern s :=
  fun hoccurs ↦ absurd hoccurs.length_le (Nat.not_le.mpr h)

theorem maskStellarSecretsInString_clean (str : List ℕ) :
    ¬Occurs stellarSecretPattern (maskStellarSecretsInString str) := by
  have hredacted : stellarSecretRedacted =
      '['.toNat :: (codeUnits "STELLAR_SECRET_REDACTED" ++ [']'.toNat]) := by decide
  rw [maskStellarSecretsInString, hredacted]
  exact not_occurs_replaceAll stellarSecretPattern_ne_nil (barrier (by decide))
    (barrier (by decide))
    (not_occurs_of_length (by decide)) str

theorem redacted_clean : ¬Occurs stellarSecretPattern (codeUnits "[REDACTED]") :=
  not_occurs_of_length (by decide)

theorem maskText_clean (showPartial : Bool) (value : List ℕ) :
    ¬Occurs stellarSecretPattern (maskText (partialOptions showPartial) value) := by
  rw [maskText]
  split
  · exact redacted_clean
  · cases showPartial with
    | false => exact redacted_clean
    | true =>
      rw [if_pos (Or.inl (by decide))]
      have hmask : (partialOptions true).maskChar = ['*'.toNat] := rfl
      have hfirst : (value.take 4).length < 56 :=
        (List.length_take_le 4 value).trans_lt (by decide)
      have hlast : (value.drop (value.length - 4)).length < 56 := by
        rw [List.length_drop]
        omega
      obtain ⟨n, hn⟩ : ∃ n, max 4 (value.length - 4 - 4) = n + 1 :=
        ⟨max 4 (value.length - 4 - 4) - 1, by omega⟩
      have hstar : Barrier stellarSecretPattern '*'.toNat := barrier (by decide)
      change ¬Occurs stellarSecretPattern (value.take 4 ++
        (List.replicate (max 4 (value.length - 4 - 4)) ['*'.toNat]).flatten ++
          value.drop (value.length - 4))
      rw [List.flatten_replicate_singleton, hn, List.replicate_succ, List.append_assoc,
        List.cons_append]
      intro h
      rcases occurs_of_append stellarSecretPattern_ne_nil hstar h with h | h
      · exact not_occurs_of_length hfirst h
      · exact not_occurs_of_length hlast (occurs_of_replicate stellarSecretPattern_ne_nil hstar h)

theorem maskValue_clean (showPartial : Bool) (value : JsValue ν) :
    ¬Occurs stellarSecretPattern (maskValue numberText (partialOptions showPartial) value) := by
  cases value with
  | undefined | null => exact redacted_clean
  | bool b | num n | str s | arr items | obj fields => exact maskText_clean showPartial _

theorem maskStringValue_clean (showPartial : Bool) (value : List ℕ) :
    ¬Occurs stellarSecretPattern (maskStringValue showPartial value) := by
  rw [maskStringValue]
  split
  · split
    · exact maskText_clean true value
    · exact not_occurs_of_length (by decide)
  · split
    · exact maskText_clean showPartial value
    · exact maskStellarSecretsInString_clean value

theorem maskStack_clean (stack : List ℕ) : ¬Occurs stellarSecretPattern (maskStack stack) := by
  refine not_occurs_intercalate (b := '\n'.toNat) stellarSecretPattern_ne_nil (barrier (by decide))
    fun line hline ↦ ?_
  obtain ⟨s, -, rfl⟩ := List.mem_map.mp hline
  exact maskStellarSecretsInString_clean s

/-! ## Values without keys -/

theorem clean_str {s : List ℕ} : Clean (.str s : JsValue ν) ↔ ¬Occurs stellarSecretPattern s :=
  List.forall_mem_singleton

theorem clean_arr {items : List (JsValue ν)} : Clean (.arr items) ↔ ∀ v ∈ items, Clean v := by
  simp only [Clean, JsValue.strings, JsValue.itemStrings_eq_flatMap, List.forall_mem_flatMap]

theorem clean_obj {fields : List (String × JsValue ν)} :
    Clean (.obj fields) ↔ ∀ f ∈ fields, Clean f.2 := by
  simp only [Clean, JsValue.strings, JsValue.fieldStrings_eq_flatMap, List.forall_mem_flatMap]

theorem maskItems_eq_map (options : Options D) (items : List (JsValue ν)) :
    maskItems numberText patterns options items =
      items.map (maskSensitiveData numberText patterns options) := by
  induction items with
  | nil => rfl
  | cons item items ih => rw [maskItems, ih, List.map_cons]

theorem maskFields_clean (options : Options D) {fields : List (String × JsValue ν)}
    (h : ∀ f ∈ fields, ∀ options : Options D,
      Clean (maskSensitiveData numberText patterns options f.2)) :
    ∀ f ∈ maskFields numberText patterns options fields, Clean f.2 := by
  induction fields with
  | nil => exact List.forall_mem_nil _
  | cons field fields ih =>
    obtain ⟨key, value⟩ := field
    obtain ⟨hvalue, hfields⟩ := List.forall_mem_cons.mp h
    refine List.forall_mem_cons.mpr ⟨?_, ih hfields⟩
    change Clean (ite _ _ _)
    split
    · exact clean_str.mpr (maskValue_clean numberText _ _)
    · cases value with
      | arr items | obj fields => exact hvalue options.deeper
      | str s => exact clean_str.mpr (maskStringValue_clean _ s)
      | undefined | null | bool b | num n => exact List.forall_mem_nil _

theorem maskSensitiveData_clean (options : Options D) (data : JsValue ν) :
    Clean (maskSensitiveData numberText patterns options data) := by
  induction data generalizing options with
  | undefined | null | bool b | num n =>
    unfold maskSensitiveData
    split
    · exact clean_str.mpr (not_occurs_of_length (by decide))
    · exact List.forall_mem_nil _
  | str s =>
    unfold maskSensitiveData
    split
    · exact clean_str.mpr (not_occurs_of_length (by decide))
    · exact clean_str.mpr (maskStringValue_clean _ s)
  | arr items ih =>
    unfold maskSensitiveData
    split
    · exact clean_str.mpr (not_occurs_of_length (by decide))
    · refine clean_arr.mpr fun v hv ↦ ?_
      rw [maskItems_eq_map] at hv
      obtain ⟨item, hitem, rfl⟩ := List.mem_map.mp hv
      exact ih item hitem options.deeper
  | obj fields ih =>
    unfold maskSensitiveData
    split
    · exact clean_str.mpr (not_occurs_of_length (by decide))
    · exact clean_obj.mpr (maskFields_clean numberText patterns options ih)

/-- The name, the message and the code of an error are copied, and everything else is masked. -/
theorem maskError_clean_iff (error : ErrorObject ν) :
    Clean (maskError numberText patterns error) ↔
      Clean error.name ∧ Clean error.message ∧ Clean error.code := by
  rw [maskError, clean_obj]
  constructor
  · intro h
    refine ⟨h ("name", error.name) ?_, h ("message", error.message) ?_, h ("code", error.code) ?_⟩
    all_goals simp only [List.cons_append, List.mem_cons, true_or, or_true]
  · rintro ⟨hname, hmessage, hcode⟩ f hf
    rcases List.mem_append.mp hf with hf | hf
    · rcases List.mem_append.mp hf with hf | hf
      · simp only [List.mem_cons, List.not_mem_nil, or_false] at hf
        rcases hf with rfl | rfl | rfl
        · exact hname
        · exact hmessage
        · exact hcode
      · split at hf
        · split at hf
          · cases hf
          · obtain rfl := List.mem_singleton.mp hf
            exact clean_str.mpr (maskStack_clean _)
        · cases hf
    · obtain ⟨field, -, rfl⟩ := List.mem_map.mp hf
      exact maskSensitiveData_clean numberText patterns defaultOptions field.2

/-- No secret key is in masked data, and none is in a masked error exactly if none is in what is
copied from it. -/
theorem clean_iff (options : Options D) (data : JsValue ν) (error : ErrorObject ν) :
    Clean (maskSensitiveData numberText patterns options data) ∧
      (Clean (maskError numberText patterns error) ↔
        Clean error.name ∧ Clean error.message ∧ Clean error.code) :=
  ⟨maskSensitiveData_clean numberText patterns options data,
    maskError_clean_iff numberText patterns error⟩

def secretText : List ℕ := codeUnits "SBZVMB3SEPB2ENHQVEQ5MJQXB2QZUQPQQ6QQZQPQQ6QQZQPQQ6QQZQPQ"

def invalidSecretError : ErrorObject ℤ where
  name := .str (codeUnits "Error")
  message := .str (codeUnits "invalid secret: " ++ secretText)
  code := .undefined
  stack := none
  properties := []

theorem message_not_masked :
    ¬((∀ (options : Options ℤ) (data : JsValue ℤ),
        Clean (maskSensitiveData (fun _ ↦ []) sensitivePatterns options data)) ∧
      ∀ error : ErrorObject ℤ, Clean (maskError (fun _ ↦ []) sensitivePatterns error)) := by
  rintro ⟨-, h⟩
  have hmessage := ((maskError_clean_iff _ _ _).mp (h invalidSecretError)).2.1
  refine clean_str.mp hmessage ?_
  have hstart : startsWith stellarSecretPattern secretText = true := by decide
  obtain ⟨m, hm, hmatch⟩ := startsWith_iff.mp hstart
  exact ⟨m, hm.isInfix.trans (List.suffix_append _ _).isInfix, hmatch⟩

end StellarDonations.DataMasker
