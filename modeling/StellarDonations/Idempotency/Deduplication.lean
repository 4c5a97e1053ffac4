import Mathlib.Data.List.TakeWhile
import StellarDonations.Concurrency.Run
import StellarDonations.Containers.Slots
import StellarDonations.Text.JsonCanonical

/-!
# Deduplication by the hash of the body

`createDeduplicationMiddleware`: a mutating request without an idempotency key is answered from a
cache when its fingerprint is in there, and otherwise its handler runs, whose successful answer is
cached when it comes.

The fingerprint is made of the text of the API key, the method, the path and the normalised body,
and not of the query string. It tells these four apart (`payload_eq_iff`), because the normalised
body is in brackets and so cannot be a part of the path. Identical requests that overlap all run;
one that comes after the answer to another does not (`deduplicates`).

The middleware comes before the routes that read uploads, and before those that look at a bearer
token: requests with different uploads, and those of all callers without an API key, have one
fingerprint (`other_requests_deduplicated`). `deduplicates` is about requests with an API key and a
body that has been read.
-/

universe u v

namespace StellarDonations.Deduplication

open Concurrency JsString Json Slots

variable {ν : Type u} {ρ : Type v}

/-! ## Bodies -/

/-- A number of a body. The parser reads a number that is too great for a double as infinite. -/
inductive Number (ν : Type u) where
  | finite (n : ν)
  | infinite (negative : Bool)

/-- The value as it is written: `null` takes the place of a number that is not finite. -/
def finite : Json (Number ν) → Json ν :=
  Json.fold
    { null := .null
      bool := .bool
      num := fun
        | .finite n => .num n
        | .infinite _ => .null
      str := .str
      arr := .arr
      obj := .obj }

/-- What the parsers leave in `req.body`: nothing, an object or a list, without a key that an object
has twice. -/
def Parsed : Option (Json (Number ν)) → Prop
  | some v => IsContainer v ∧ Distinct v
  | none => True

structure Body (ν : Type u) where
  value : Option (Json (Number ν))
  parsed : Parsed value

inductive Sent (ν : Type u) where
  /-- Nothing, or of a type that `express.json` or `express.urlencoded` reads. -/
  | read (b : Body ν)
  /-- Of another type, such as the upload of a file, which is read later, by its route. -/
  | unread (contentType content : String)

def Sent.body : Sent ν → Body ν
  | .read b => b
  | .unread _ _ => ⟨some (.obj []), trivial, distinct_obj.mpr ⟨List.nodup_nil, nofun⟩⟩

def Sent.isRead : Sent ν → Bool
  | .read _ => true
  | .unread _ _ => false

/-- `localeCompare`, whose order depends on the locale. It may take different texts for equal. -/
structure Collation where
  le : String → String → Prop
  decidable : DecidableRel le
  total : Std.Total le
  trans : IsTrans String le

instance (col : Collation) : DecidableRel col.le := col.decidable

instance (col : Collation) : Std.Total col.le := col.total

instance (col : Collation) : IsTrans String col.le := col.trans

/-- The index of a list that a key stands for: it is the number in decimal. -/
def arrayIndex (k : String) : Option ℕ :=
  let n := Nat.ofDigitChars 10 k.toList 0
  if Nat.toDigits 10 n = k.toList ∧ n < 4294967295 then some n else none

/-- The fields of an object in the order in which they are enumerated: those whose keys are indices
come first. -/
def enumerate (fields : List (String × Json ν)) : List (String × Json ν) :=
  ((fields.filter fun f ↦ (arrayIndex f.1).isSome).insertionSort fun f g ↦
    (arrayIndex f.1).getD 0 ≤ (arrayIndex g.1).getD 0) ++
  fields.filter fun f ↦ !(arrayIndex f.1).isSome

/-- `sortedReplacer`. -/
def rearrange (col : Collation) (fields : List (String × Json ν)) : List (String × Json ν) :=
  enumerate (sortBy col.le fields)

def normaliseBody (col : Collation) (t : NumberText ν) : Option (Json (Number ν)) → String
  | none | some .null => ""
  | some (.str s) => s
  | some (.bool b) => if b then "true" else "false"
  | some (.num (.finite n)) => String.ofList (t.text n)
  | some (.num (.infinite negative)) => if negative then "-Infinity" else "Infinity"
  | some v => String.ofList (stringify t (mapFields (rearrange col) (finite v)))

/-! ## Requests -/

structure ApiKey where
  id : Option ℕ := none
  key : Option String := none
  deriving DecidableEq

/-- `req.apiKey.id || req.apiKey.key`. -/
def ApiKey.text (k : ApiKey) : Option String :=
  match k.id.filter (· ≠ 0) with
  | some id => some (toString id)
  | none => k.key

/-- What the middleware reads of a request, and the query string. -/
structure Request (ν : Type u) where
  method : String
  path : String
  query : String := ""
  /-- The header `idempotency-key`. -/
  idempotencyKey : Option String := none
  /-- The header `x-idempotency-key`. -/
  xIdempotencyKey : Option String := none
  apiKey : Option ApiKey := none
  /-- The header `x-api-key`. -/
  xApiKey : Option String := none
  sent : Sent ν

structure Config (ν : Type u) where
  /-- SHA-256, in hexadecimal. -/
  digest : String → String
  collation : Collation
  numbers : NumberText ν
  ttlMs : ℕ

def MUTABLE_METHODS : List String := ["POST", "PUT", "PATCH", "DELETE"]

namespace Request

variable (cfg : Config ν) (r : Request ν)

def body : Body ν := r.sent.body

/-- The middleware deals with the request. -/
def eligible : Bool :=
  r.method ∈ MUTABLE_METHODS && (orNull r.idempotencyKey).isNone &&
    (orNull r.xIdempotencyKey).isNone

/-- `apiKey`. -/
def apiKeyText : String := orElse (r.apiKey.bind ApiKey.text) (orElse r.xApiKey "anonymous")

/-- The `payload` of `computeHash`. -/
def payload : String :=
  r.apiKeyText ++ ":" ++ r.method ++ ":" ++ r.path ++ ":" ++
    normaliseBody cfg.collation cfg.numbers r.body.value

/-- `computeHash`. -/
def hash : String := cfg.digest (r.payload cfg)

end Request

/-! ## The middleware -/

structure Entry (ρ : Type v) where
  status : ℕ
  body : ρ
  expiresAt : ℕ
  deriving DecidableEq

inductive Answer (ρ : Type v) where
  /-- By `res.json`. -/
  | json (status : ℕ) (data : ρ)
  /-- In another way, or not at all. -/
  | other

/-- `statusCode >= 200 && statusCode < 300`. -/
def success (status : ℕ) : Bool := 200 ≤ status && status < 300

/-- A request whose handler has been called. -/
structure Call (ν : Type u) (ρ : Type v) where
  req : Request ν
  /-- The fingerprint, when the middleware deals with the request. -/
  hash : Option String
  begunAt : ℕ
  /-- The answer, and when it came. -/
  answer : Option (Answer ρ × ℕ) := none

/-- The cache, the handlers that have been called, and the clock. -/
structure State (ν : Type u) (ρ : Type v) where
  cache : String → Option (Entry ρ)
  calls : List (Call ν ρ)
  now : ℕ

inductive Action (ν : Type u) (ρ : Type v) where
  | tick (elapsed : ℕ)
  | request (r : Request ν)
  | answer (n : ℕ) (a : Answer ρ)

namespace State

variable (cfg : Config ν) (s : State ν ρ)

def start : State ν ρ := ⟨fun _ ↦ none, [], 0⟩

def evictExpired : String → Option (Entry ρ) :=
  fun hash ↦ (s.cache hash).filter fun entry ↦ s.now < entry.expiresAt

/-- The entry from which a request is answered. -/
def cached (r : Request ν) : Option (Entry ρ) :=
  (s.evictExpired (r.hash cfg)).filter fun entry ↦ s.now < entry.expiresAt

/-- `deduplicationMiddleware`. -/
def request (r : Request ν) : State ν ρ :=
  if r.eligible then
    match s.cached cfg r with
    | some _ => { s with cache := s.evictExpired }
    | none => { s with
        cache := s.evictExpired, calls := s.calls ++ [⟨r, some (r.hash cfg), s.now, none⟩] }
  else { s with calls := s.calls ++ [⟨r, none, s.now, none⟩] }

/-- What `interceptJson` caches. -/
def intercept (c : Call ν ρ) : Answer ρ → String → Option (Entry ρ)
  | .json status data =>
    match c.hash with
    | some hash =>
      if success status then
        Function.update s.cache hash (some ⟨status, data, s.now + cfg.ttlMs⟩)
      else s.cache
    | none => s.cache
  | .other => s.cache

def answer (n : ℕ) (a : Answer ρ) : State ν ρ :=
  match s.calls[n]? with
  | some c =>
    if c.answer.isNone then
      { s with
        cache := s.intercept cfg c a
        calls := s.calls.set n { c with answer := some (a, s.now) } }
    else s
  | none => s

end State

def step (cfg : Config ν) (s : State ν ρ) : Action ν ρ → State ν ρ
  | .tick elapsed => { s with now := s.now + elapsed }
  | .request r => s.request cfg r
  | .answer n a => s.answer cfg n a

/-! ## What is asked of it -/

/-- The API key of the request: the one that was looked up, or the header. -/
def Request.caller (r : Request ν) : Option (ApiKey ⊕ String) :=
  match r.apiKey.filter fun k ↦ (orNull k.text).isSome with
  | some k => some (.inl k)
  | none => (orNull r.xApiKey).map .inr

/-- The bodies are equal up to the order of keys. -/
def SameValue : Option (Json (Number ν)) → Option (Json (Number ν)) → Prop
  | some v, some w => Same v w
  | none, none => True
  | some _, none | none, some _ => False

def SameSent : Sent ν → Sent ν → Prop
  | .read b, .read b' => SameValue b.value b'.value
  | .unread contentType content, .unread contentType' content' =>
    contentType = contentType' ∧ content = content'
  | .read _, .unread _ _ | .unread _ _, .read _ => False

/-- The requests have the same API key, method, URL, and body up to the order of keys. -/
structure Identical (r r' : Request ν) : Prop where
  caller : ∃ k, r.caller = some k ∧ r'.caller = some k
  method : r.method = r'.method
  path : r.path = r'.path
  query : r.query = r'.query
  sent : SameSent r.sent r'.sent

/-- The request of the call was dealt with and answered in this way, which is a success. -/
def Call.Succeeded (c : Call ν ρ) (status : ℕ) (data : ρ) (time : ℕ) : Prop :=
  c.req.eligible = true ∧ c.answer = some (.json status data, time) ∧ success status = true

/-- A request is answered from the cache only with the answer to an identical one. -/
def Replays (cfg : Config ν) (s : State ν ρ) : Action ν ρ → Prop
  | .request r => r.eligible = true → ∀ e, s.cached cfg r = some e →
      ∃ c ∈ s.calls, Identical c.req r ∧ ∃ time, c.Succeeded e.status e.body time
  | .tick _ | .answer _ _ => True

/-- Of identical requests that succeed at most one has run within the window. -/
def RunOnce (cfg : Config ν) (s : State ν ρ) : Prop :=
  ∀ (m n : ℕ) (c d : Call ν ρ), m < n → s.calls[m]? = some c → s.calls[n]? = some d →
    Identical c.req d.req →
    ∀ status data time, c.Succeeded status data time →
    ∀ status' data' time', d.Succeeded status' data' time' → time + cfg.ttlMs ≤ d.begunAt

/-! ## What it does -/

/-- The bodies are equal up to the order of keys, where a number that is not finite counts as
`null`. -/
def SameText : Option (Json (Number ν)) → Option (Json (Number ν)) → Prop
  | some v, some w => Same (finite v) (finite w)
  | none, none => True
  | some _, none | none, some _ => False

/-- The requests have the same text of the API key, or are both without one, the same method and
path, and `req.body` up to the order of keys. -/
structure Alike (r r' : Request ν) : Prop where
  apiKeyText : r.apiKeyText = r'.apiKeyText
  method : r.method = r'.method
  path : r.path = r'.path
  body : SameText r.body.value r'.body.value

/-- No object of the body has two keys that `localeCompare` takes for equal. -/
def Told (col : Collation) : Option (Json (Number ν)) → Prop
  | some v => AllKeys (Separates col.le) (finite v)
  | none => True

def Request.Keyed (r : Request ν) : Prop := r.caller.isSome = true ∧ r.sent.isRead = true

/-- What a request has in common with the one whose answer it gets. -/
structure Answers (r r' : Request ν) : Prop where
  caller : r.caller.isSome = true
  apiKeyText : r.apiKeyText = r'.apiKeyText
  method : r.method = r'.method
  path : r.path = r'.path
  body : r.sent.isRead = true → SameText r.body.value r'.body.value

/-- The requests have the same API key, method, path, and body up to the order of keys. -/
structure Repeats (r r' : Request ν) : Prop where
  caller : ∃ k, r.caller = some k ∧ r'.caller = some k
  method : r.method = r'.method
  path : r.path = r'.path
  sent : r.sent.isRead = true ∧ r'.sent.isRead = true
  body : SameValue r.body.value r'.body.value

/-- A request is answered from the cache only with the answer to one that has this in common with
it. -/
def ReplaysAlike (cfg : Config ν) (s : State ν ρ) : Action ν ρ → Prop
  | .request r => r.eligible = true → r.Keyed → ∀ e, s.cached cfg r = some e →
      ∃ c ∈ s.calls, Answers c.req r ∧ ∃ time, c.Succeeded e.status e.body time
  | .tick _ | .answer _ _ => True

/-- A request runs only when no request that it repeats was answered with success within the window
before, as far as the bodies are the same or `localeCompare` tells their keys apart. -/
def RunsAfterWindow (cfg : Config ν) (s : State ν ρ) : Action ν ρ → Prop
  | .request r => r.eligible = true → s.cached cfg r = none → ∀ c ∈ s.calls, Repeats c.req r →
      (c.req.body.value = r.body.value ∨
        Told cfg.collation c.req.body.value ∧ Told cfg.collation r.body.value) →
      ∀ status data time, c.Succeeded status data time → time + cfg.ttlMs ≤ s.now
  | .tick _ | .answer _ _ => True

/-! ## Normalised bodies -/

theorem perm_enumerate (fields : List (String × Json ν)) : (enumerate fields).Perm fields := by
  have hsort := List.perm_insertionSort
    (fun f g : String × Json ν ↦ (arrayIndex f.1).getD 0 ≤ (arrayIndex g.1).getD 0)
    (fields.filter fun f ↦ (arrayIndex f.1).isSome)
  exact (hsort.append_right _).trans (List.filter_append_perm _ fields)

theorem perm_rearrange (col : Collation) (fields : List (String × Json ν)) :
    (rearrange col fields).Perm fields :=
  (perm_enumerate _).trans (perm_sortBy col.le fields)

theorem rearrange_eq_of_perm {col : Collation} {fields fields' : List (String × Json ν)}
    (h : fields.Perm fields') (hkeys : Separates col.le (fields.map Prod.fst)) :
    rearrange col fields = rearrange col fields' :=
  congrArg enumerate (sortBy_eq_of_perm h hkeys)

variable {col : Collation} {t : NumberText ν} {v w : Json (Number ν)}

theorem finite_arr (elems : List (Json (Number ν))) :
    finite (.arr elems) = .arr (elems.map finite) :=
  fold_arr _ elems

theorem finite_obj (fields : List (String × Json (Number ν))) :
    finite (.obj fields) = .obj (fields.map fun f ↦ (f.1, finite f.2)) :=
  fold_obj _ fields

theorem map_fst_map_finite (fields : List (String × Json (Number ν))) :
    (fields.map fun f ↦ (f.1, finite f.2)).map Prod.fst = fields.map Prod.fst := by
  rw [List.map_map]
  rfl

theorem distinct_finite (h : Distinct v) : Distinct (finite v) := by
  induction v with
  | null => trivial
  | bool b => trivial
  | num n => cases n <;> trivial
  | str s => trivial
  | arr elems ih =>
    rw [finite_arr, distinct_arr]
    exact List.forall_mem_map.mpr fun v hv ↦ ih v hv (distinct_arr.mp h v hv)
  | obj fields ih =>
    obtain ⟨hnodup, hfields⟩ := distinct_obj.mp h
    rw [finite_obj, distinct_obj, map_fst_map_finite]
    exact ⟨hnodup, List.forall_mem_map.mpr fun f hf ↦ ih f hf (hfields f hf)⟩

/-- The order of keys and what is written for a number have nothing to do with each other. -/
theorem sortKeys_finite (v : Json (Number ν)) : sortKeys (finite v) = finite (sortKeys v) := by
  induction v with
  | null => rfl
  | bool b => rfl
  | num n => cases n <;> rfl
  | str s => rfl
  | arr elems ih =>
    have hleft : sortKeys (finite (.arr elems)) = .arr ((elems.map finite).map sortKeys) := by
      rw [finite_arr, sortKeys, mapFields_arr]
    have hright : sortKeys (.arr elems) = .arr (elems.map sortKeys) :=
      mapFields_arr sortFields elems
    rw [hleft, hright, finite_arr, List.map_map, List.map_map]
    exact congrArg Json.arr (List.map_congr_left ih)
  | obj fields ih =>
    have hvalues : mapValues sortFields (fields.map fun f ↦ (f.1, finite f.2)) =
        (mapValues sortFields fields).map fun f ↦ (f.1, finite f.2) := by
      rw [mapValues, mapValues, List.map_map, List.map_map]
      exact List.map_congr_left fun f hf ↦ congrArg (f.1, ·) (ih f hf)
    have hsort : ∀ l : List (String × Json (Number ν)),
        sortFields (l.map fun f ↦ (f.1, finite f.2)) =
          (sortFields l).map fun f ↦ (f.1, finite f.2) := fun l ↦
      (List.map_insertionSort (fun f g : String × Json (Number ν) ↦ KeyLe f.1 g.1)
        (fun f g : String × Json ν ↦ KeyLe f.1 g.1) (fun f ↦ (f.1, finite f.2)) l
        fun _ _ _ _ ↦ Iff.rfl).symm
    have hright : sortKeys (.obj fields) = .obj (sortFields (mapValues sortFields fields)) :=
      mapFields_obj sortFields fields
    rw [finite_obj, sortKeys, mapFields_obj, hvalues, hsort, ← finite_obj, ← hright]

theorem normaliseBody_of_isContainer (h : IsContainer v) : normaliseBody col t (some v) =
    String.ofList (stringify t (mapFields (rearrange col) (finite v))) := by
  cases v with
  | arr elems => rfl
  | obj fields => rfl
  | _ => exact h.elim

theorem isContainer_normalised (h : IsContainer v) :
    IsContainer (mapFields (rearrange col) (finite v)) := by
  cases v with
  | arr elems =>
    rw [finite_arr, mapFields_arr]
    trivial
  | obj fields =>
    rw [finite_obj, mapFields_obj]
    trivial
  | _ => exact h.elim

/-- The normalised body is empty or in brackets. -/
theorem normaliseBody_bracketed (b : Body ν) : (normaliseBody col t b.value).toList = [] ∨
    Bracketed (normaliseBody col t b.value).toList := by
  obtain ⟨_ | v, hparsed⟩ := b
  · exact .inl rfl
  · rw [normaliseBody_of_isContainer hparsed.1, String.toList_ofList]
    exact .inr (isContainer_normalised hparsed.1).bracketed

/-- **The normalised text tells bodies apart** up to the order of keys. -/
theorem sameText_of_normaliseBody_eq {b b' : Body ν}
    (h : normaliseBody col t b.value = normaliseBody col t b'.value) :
    SameText b.value b'.value := by
  have hne : ∀ {v : Json (Number ν)}, Parsed (some v) → normaliseBody col t (some v) ≠ "" := by
    intro v hv hempty
    have hcontainer : IsContainer (mapFields (rearrange col) (finite v)) :=
      isContainer_normalised hv.1
    obtain ⟨mid, -, hmid | hmid⟩ : Bracketed (stringify t _) := hcontainer.bracketed
    all_goals
      rw [normaliseBody_of_isContainer hv.1, hmid] at hempty
      exact List.cons_ne_nil _ _ (String.ofList_injective hempty)
  obtain ⟨_ | v, hv⟩ := b <;> obtain ⟨_ | w, hw⟩ := b'
  · trivial
  · exact absurd h.symm (hne hw)
  · exact absurd h (hne hv)
  · rw [normaliseBody_of_isContainer hv.1, normaliseBody_of_isContainer hw.1] at h
    exact same_of_mapFields_eq (perm_rearrange col) (distinct_finite hv.2) (distinct_finite hw.2)
      (stringify_injective t (String.ofList_injective h))

/-- Where `localeCompare` tells the keys apart, bodies that are the same have one normalised
text. -/
theorem normaliseBody_eq_of_sameText {b b' : Body ν} (hv : Told col b.value)
    (hw : Told col b'.value) (h : SameText b.value b'.value) :
    normaliseBody col t b.value = normaliseBody col t b'.value := by
  obtain ⟨_ | v, hparsed⟩ := b <;> obtain ⟨_ | w, hparsed'⟩ := b'
  · rfl
  · exact h.elim
  · exact h.elim
  · rw [normaliseBody_of_isContainer hparsed.1, normaliseBody_of_isContainer hparsed'.1,
      mapFields_eq_of_same (fun _ _ hperm hkeys ↦ rearrange_eq_of_perm hperm hkeys) hv hw h]

/-! ## Fingerprints -/

variable {cfg : Config ν} {r r' : Request ν}

theorem toList_payload : (r.payload cfg).toList =
    r.apiKeyText.toList ++ ':' :: (r.method.toList ++ ':' :: (r.path.toList ++ ':' ::
      (normaliseBody cfg.collation cfg.numbers r.body.value).toList)) := by
  have hcolon : ":".toList = [':'] := rfl
  simp only [Request.payload, String.toList_append, hcolon, List.append_assoc,
    List.cons_append, List.nil_append]

theorem colon_notMem_method (h : r.eligible = true) : ':' ∉ r.method.toList := by
  have hmethods : ∀ m ∈ MUTABLE_METHODS, ':' ∉ m.toList := by decide
  simp only [Request.eligible, Bool.and_eq_true, decide_eq_true_iff] at h
  exact hmethods r.method h.1.1

/-- **The fingerprint tells requests apart** whose API keys have no colon. -/
theorem payload_eq_iff (hr : r.eligible = true) (hr' : r'.eligible = true)
    (hcolon : ':' ∉ r.apiKeyText.toList) (hcolon' : ':' ∉ r'.apiKeyText.toList) :
    r.payload cfg = r'.payload cfg ↔ r.apiKeyText = r'.apiKeyText ∧ r.method = r'.method ∧
      r.path = r'.path ∧ normaliseBody cfg.collation cfg.numbers r.body.value =
        normaliseBody cfg.collation cfg.numbers r'.body.value := by
  constructor
  · intro h
    have hlist := congrArg String.toList h
    rw [toList_payload, toList_payload] at hlist
    obtain ⟨hkey, hlist⟩ := append_colon_injective_of_notMem hcolon hcolon' hlist
    obtain ⟨hmethod, hlist⟩ := append_colon_injective_of_notMem (colon_notMem_method hr)
      (colon_notMem_method hr') hlist
    obtain ⟨hpath, hbody⟩ := append_colon_injective (normaliseBody_bracketed r.body)
      (normaliseBody_bracketed r'.body) hlist
    exact ⟨String.toList_inj.mp hkey, String.toList_inj.mp hmethod, String.toList_inj.mp hpath,
      String.toList_inj.mp hbody⟩
  · rintro ⟨hkey, hmethod, hpath, hbody⟩
    rw [Request.payload, Request.payload, hkey, hmethod, hpath, hbody]

theorem alike_of_payload_eq (hr : r.eligible = true) (hr' : r'.eligible = true)
    (hcolon : ':' ∉ r.apiKeyText.toList) (hcolon' : ':' ∉ r'.apiKeyText.toList)
    (h : r.payload cfg = r'.payload cfg) : Alike r r' := by
  obtain ⟨hkey, hmethod, hpath, hbody⟩ := (payload_eq_iff hr hr' hcolon hcolon').mp h
  exact ⟨hkey, hmethod, hpath, sameText_of_normaliseBody_eq hbody⟩

/-- Who has a colon in its API key, or one that reads `anonymous`, may be taken for another. -/
def Request.PlainKey (r : Request ν) : Prop :=
  r.caller.isSome = true → ':' ∉ r.apiKeyText.toList ∧ r.apiKeyText ≠ "anonymous"

theorem orElse_eq_getD_orNull (a : Option String) (b : String) :
    orElse a b = (orNull a).getD b := by
  cases a with
  | none => rfl
  | some text =>
    by_cases htext : text = "" <;> simp [orElse, orNull, Option.filter, htext]

def keyText : ApiKey ⊕ String → String
  | .inl k => k.text.getD ""
  | .inr header => header

theorem apiKeyText_eq (r : Request ν) : r.apiKeyText = (r.caller.map keyText).getD "anonymous" := by
  have hheader : orElse r.xApiKey "anonymous" =
      (((orNull r.xApiKey).map .inr).map keyText).getD "anonymous" := by
    rw [orElse_eq_getD_orNull, Option.map_map]
    cases orNull r.xApiKey <;> rfl
  rw [Request.apiKeyText, Request.caller, hheader]
  cases r.apiKey with
  | none => rfl
  | some k =>
    rw [orElse_eq_getD_orNull, Option.bind_some]
    cases htext : orNull k.text with
    | none =>
      have hnone : (some k).filter (fun k ↦ (orNull k.text).isSome) = none := by
        simp [Option.filter, htext]
      rw [hnone]
      rfl
    | some text =>
      have hsome : (some k).filter (fun k ↦ (orNull k.text).isSome) = some k := by
        simp [Option.filter, htext]
      have hkey : k.text = some text := (Option.filter_eq_some_iff.mp htext).1
      rw [hsome, Option.map_some, Option.getD_some, Option.getD_some, keyText, hkey]
      rfl

theorem apiKeyText_of_caller_eq_none (h : r.caller = none) : r.apiKeyText = "anonymous" := by
  rw [apiKeyText_eq, h]
  rfl

theorem SameValue.sameText {b b' : Option (Json (Number ν))} (h : SameValue b b') :
    SameText b b' := by
  obtain _ | v := b <;> obtain _ | w := b'
  · trivial
  · exact h.elim
  · exact h.elim
  · have hsame : sortKeys v = sortKeys w := h
    change sortKeys (finite v) = sortKeys (finite w)
    rw [sortKeys_finite, sortKeys_finite, hsame]

theorem Repeats.alike (h : Repeats r r') : Alike r r' := by
  obtain ⟨k, hk, hk'⟩ := h.caller
  refine ⟨?_, h.method, h.path, h.body.sameText⟩
  rw [apiKeyText_eq, apiKeyText_eq, hk, hk']

theorem Request.PlainKey.colon_notMem (h : r.PlainKey) : ':' ∉ r.apiKeyText.toList := by
  cases hcaller : r.caller with
  | none =>
    rw [apiKeyText_of_caller_eq_none hcaller]
    decide
  | some k => exact (h (by rw [hcaller]; rfl)).1

theorem Alike.answers (h : Alike r r') (hr' : r'.PlainKey) (hkeyed : r'.Keyed) : Answers r r' := by
  refine ⟨?_, h.apiKeyText, h.method, h.path, fun _ ↦ h.body⟩
  by_contra hnone
  have htext := apiKeyText_of_caller_eq_none (Option.not_isSome_iff_eq_none.mp hnone)
  exact (hr' hkeyed.1).2 (h.apiKeyText.symm.trans htext)

theorem Alike.hash_eq (h : Alike r r') (htold : r.body.value = r'.body.value ∨
      Told cfg.collation r.body.value ∧ Told cfg.collation r'.body.value) :
    r.hash cfg = r'.hash cfg := by
  have hbody : normaliseBody cfg.collation cfg.numbers r.body.value =
      normaliseBody cfg.collation cfg.numbers r'.body.value := by
    rcases htold with heq | ⟨hr, hr'⟩
    · rw [heq]
    · exact normaliseBody_eq_of_sameText hr hr' h.body
  rw [Request.hash, Request.hash, Request.payload, Request.payload, h.apiKeyText, h.method, h.path,
    hbody]

/-! ## The cache and the calls -/

variable {s : State ν ρ}

/-- Every entry of the cache is the answer of a call, and every success is cached until its window
is over. -/
structure Sound (cfg : Config ν) (s : State ν ρ) : Prop where
  hash : ∀ c ∈ s.calls, c.hash = if c.req.eligible then some (c.req.hash cfg) else none
  entry : ∀ h e, s.cache h = some e →
    ∃ c ∈ s.calls, c.hash = some h ∧ ∃ time, c.Succeeded e.status e.body time
  stored : ∀ c ∈ s.calls, ∀ status data time, c.Succeeded status data time → time ≤ s.now ∧
    (time + cfg.ttlMs ≤ s.now ∨
      ∃ e, s.cache (c.req.hash cfg) = some e ∧ time + cfg.ttlMs ≤ e.expiresAt)

theorem sound_start : Sound cfg (State.start : State ν ρ) where
  hash _ hc := nomatch hc
  entry _ _ he := nomatch he
  stored _ hc := nomatch hc

theorem Sound.tick (h : Sound cfg s) (elapsed : ℕ) :
    Sound cfg { s with now := s.now + elapsed } := by
  refine ⟨h.hash, h.entry, fun c hc status data time hsucc ↦ ?_⟩
  obtain ⟨htime, hstored⟩ := h.stored c hc status data time hsucc
  exact ⟨htime.trans (Nat.le_add_right _ _),
    hstored.imp_left fun hover ↦ hover.trans (Nat.le_add_right _ _)⟩

/-- What is evicted has outlived its window. -/
theorem Sound.evict (h : Sound cfg s) : Sound cfg { s with cache := s.evictExpired } := by
  refine ⟨h.hash, fun hash e he ↦ ?_, fun c hc status data time hsucc ↦ ?_⟩
  · exact h.entry hash e (Option.filter_eq_some_iff.mp he).1
  · obtain ⟨htime, hover | ⟨e, he, hexpires⟩⟩ := h.stored c hc status data time hsucc
    · exact ⟨htime, .inl hover⟩
    · by_cases hlive : s.now < e.expiresAt
      · exact ⟨htime, .inr ⟨e, Option.filter_eq_some_iff.mpr ⟨he, decide_eq_true hlive⟩, hexpires⟩⟩
      · exact ⟨htime, .inl (hexpires.trans (Nat.le_of_not_lt hlive))⟩

theorem Sound.append (h : Sound cfg s) (r : Request ν) :
    Sound cfg { s with calls := s.calls ++
      [⟨r, if r.eligible then some (r.hash cfg) else none, s.now, none⟩] } := by
  refine ⟨fun c hc ↦ ?_, fun hash e he ↦ ?_, fun c hc status data time hsucc ↦ ?_⟩
  · rcases List.mem_append.mp hc with hc | hc
    · exact h.hash c hc
    · rw [List.mem_singleton.mp hc]
  · obtain ⟨c, hc, hanswer⟩ := h.entry hash e he
    exact ⟨c, List.mem_append_left _ hc, hanswer⟩
  · rcases List.mem_append.mp hc with hc | hc
    · exact h.stored c hc status data time hsucc
    · obtain ⟨-, hanswer, -⟩ := hsucc
      rw [List.mem_singleton.mp hc] at hanswer
      cases hanswer

theorem Sound.request (h : Sound cfg s) (r : Request ν) : Sound cfg (s.request cfg r) := by
  rw [State.request]
  by_cases hr : r.eligible = true
  · rw [if_pos hr]
    cases s.cached cfg r with
    | some e => exact h.evict
    | none =>
      have happend := h.evict.append r
      rwa [if_pos hr] at happend
  · have happend := h.append r
    rw [if_neg hr] at happend
    rwa [if_neg hr]

/-- What the cache holds after an answer: the answer, when it is a success of a request that the
middleware deals with, and all else as before. -/
theorem intercept_cases (h : Sound cfg s) {c : Call ν ρ} (hc : c ∈ s.calls) (a : Answer ρ) :
    (∃ status data, c.req.eligible = true ∧ a = .json status data ∧ success status = true ∧
      s.intercept cfg c a = Function.update s.cache (c.req.hash cfg)
        (some ⟨status, data, s.now + cfg.ttlMs⟩)) ∨
    s.intercept cfg c a = s.cache ∧ ∀ status data, c.req.eligible = true → a = .json status data →
      success status = false := by
  have hhash := h.hash c hc
  cases a with
  | other => exact .inr ⟨rfl, fun _ _ _ ha ↦ nomatch ha⟩
  | json status data =>
    by_cases hr : c.req.eligible = true
    · rw [if_pos hr] at hhash
      by_cases hsucc : success status = true
      · refine .inl ⟨status, data, hr, rfl, hsucc, ?_⟩
        simp only [State.intercept, hhash, if_pos hsucc]
      · refine .inr ⟨?_, fun _ _ _ ha ↦ ?_⟩
        · simp only [State.intercept, hhash, if_neg hsucc]
        · cases ha
          exact Bool.eq_false_iff.mpr hsucc
    · rw [if_neg hr] at hhash
      refine .inr ⟨?_, fun _ _ hr' ↦ absurd hr' hr⟩
      simp only [State.intercept, hhash]

theorem Sound.answer (h : Sound cfg s) (n : ℕ) (a : Answer ρ) : Sound cfg (s.answer cfg n a) := by
  rw [State.answer]
  cases hget : s.calls[n]? with
  | none => exact h
  | some c =>
    simp only
    split_ifs with hnone
    · have hc : c ∈ s.calls := List.mem_of_getElem? hget
      have hunanswered : ∀ status data time, ¬c.Succeeded status data time := by
        rintro status data time ⟨-, hanswer, -⟩
        rw [hanswer] at hnone
        cases hnone
      -- the calls that have succeeded before are still there
      have hkeep : ∀ c₁ ∈ s.calls, ∀ status data time, c₁.Succeeded status data time →
          c₁ ∈ s.calls.set n { c with answer := some (a, s.now) } := by
        intro c₁ hc₁ status data time hsucc
        refine mem_set_of_ne hc₁ hget ?_
        rintro rfl
        exact hunanswered _ _ _ hsucc
      refine ⟨fun c₁ hc₁ ↦ ?_, fun hash e he ↦ ?_, fun c₁ hc₁ status data time hsucc ↦ ?_⟩
      · rcases List.mem_or_eq_of_mem_set hc₁ with hc₁ | rfl
        · exact h.hash c₁ hc₁
        · exact h.hash c hc
      · have hold : s.cache hash = some e →
            ∃ c₁ ∈ s.calls.set n { c with answer := some (a, s.now) }, c₁.hash = some hash ∧
              ∃ time, c₁.Succeeded e.status e.body time := by
          intro he
          obtain ⟨c₁, hc₁, hhash, time, hsucc⟩ := h.entry hash e he
          exact ⟨c₁, hkeep c₁ hc₁ _ _ _ hsucc, hhash, time, hsucc⟩
        rcases intercept_cases h hc a with ⟨status, data, hr, rfl, hsucc, hcache⟩ | ⟨hcache, -⟩
        · have hentry : s.intercept cfg c (.json status data) hash = some e := he
          rw [hcache, Function.update_apply] at hentry
          split_ifs at hentry with hself
          · cases hentry
            refine ⟨_, mem_set_self hget, ?_, s.now, hr, rfl, hsucc⟩
            rw [hself, h.hash c hc, if_pos hr]
          · exact hold hentry
        · have hentry : s.intercept cfg c a hash = some e := he
          rw [hcache] at hentry
          exact hold hentry
      · -- the entry for a fingerprint is never replaced by one that ends earlier
        have hlater : ∀ c₂ : Call ν ρ, ∀ time, time ≤ s.now →
            (time + cfg.ttlMs ≤ s.now ∨ ∃ e, s.cache (c₂.req.hash cfg) = some e ∧
              time + cfg.ttlMs ≤ e.expiresAt) →
            time + cfg.ttlMs ≤ s.now ∨ ∃ e, s.intercept cfg c a (c₂.req.hash cfg) = some e ∧
              time + cfg.ttlMs ≤ e.expiresAt := by
          intro c₂ time htime hstored
          rcases intercept_cases h hc a with ⟨status, data, -, -, -, hcache⟩ | ⟨hcache, -⟩
          · rw [hcache]
            by_cases hself : c₂.req.hash cfg = c.req.hash cfg
            · rw [hself, Function.update_self]
              exact .inr ⟨_, rfl, Nat.add_le_add_right htime _⟩
            · rwa [Function.update_of_ne hself]
          · rwa [hcache]
        rcases List.mem_or_eq_of_mem_set hc₁ with hc₁ | rfl
        · obtain ⟨htime, hstored⟩ := h.stored c₁ hc₁ status data time hsucc
          exact ⟨htime, hlater c₁ time htime hstored⟩
        · obtain ⟨hr, hanswer, hsucc⟩ := hsucc
          obtain ⟨rfl, rfl⟩ := Prod.mk.inj (Option.some.inj hanswer)
          refine ⟨le_rfl, .inr ?_⟩
          rcases intercept_cases h hc (.json status data) with
            ⟨status', data', -, ha, -, hcache⟩ | ⟨-, hfail⟩
          · refine ⟨⟨status', data', s.now + cfg.ttlMs⟩, ?_, le_rfl⟩
            exact (congrFun hcache _).trans (Function.update_self _ _ _)
          · rw [hfail status data hr rfl] at hsucc
            cases hsucc
    · exact h

theorem Sound.step (h : Sound cfg s) (a : Action ν ρ) : Sound cfg (step cfg s a) := by
  cases a with
  | tick elapsed => exact h.tick elapsed
  | request r => exact h.request r
  | answer n a => exact h.answer n a

/-! ## Deduplication -/

/-- The handlers that have been called are those of requests of the run. -/
def Arrived (as : List (Action ν ρ)) (s : State ν ρ) : Prop :=
  ∀ c ∈ s.calls, Action.request c.req ∈ as

theorem Arrived.append {as : List (Action ν ρ)} (h : Arrived as s) {c : Call ν ρ}
    (hc : Action.request c.req ∈ as) (cache : String → Option (Entry ρ)) :
    Arrived as { s with cache := cache, calls := s.calls ++ [c] } := by
  intro c' hc'
  rcases List.mem_append.mp hc' with hc' | hc'
  · exact h c' hc'
  · rwa [List.mem_singleton.mp hc']

theorem Arrived.step {as : List (Action ν ρ)} (h : Arrived as s) {a : Action ν ρ} (ha : a ∈ as) :
    Arrived as (step cfg s a) := by
  cases a with
  | tick elapsed => exact h
  | request r =>
    rw [Deduplication.step, State.request]
    split_ifs
    · cases s.cached cfg r with
      | some e => exact h
      | none => exact h.append ha _
    · exact h.append ha _
  | answer n a =>
    rw [Deduplication.step, State.answer]
    cases hget : s.calls[n]? with
    | none => exact h
    | some c =>
      simp only
      split_ifs
      · intro c' hc'
        rcases List.mem_or_eq_of_mem_set hc' with hc' | rfl
        · exact h c' hc'
        · exact h c (List.mem_of_getElem? hget)
      · exact h

theorem cache_of_cached {e : Entry ρ} (h : s.cached cfg r = some e) :
    s.cache (r.hash cfg) = some e :=
  (Option.filter_eq_some_iff.mp (Option.filter_eq_some_iff.mp h).1).1

/-- A request that is not answered has no entry that is still valid. -/
theorem expiresAt_le_of_cached_eq_none (h : s.cached cfg r = none) {e : Entry ρ}
    (he : s.cache (r.hash cfg) = some e) : e.expiresAt ≤ s.now := by
  by_contra hlive
  have hsome : s.cached cfg r = some e := by
    rw [State.cached, State.evictExpired, he]
    simp [Nat.lt_of_not_le hlive]
  rw [h] at hsome
  cases hsome

/-- **A request runs** only after the window of every success of a request like it. -/
theorem Sound.runsAfterWindow (h : Sound cfg s) (a : Action ν ρ) : RunsAfterWindow cfg s a := by
  cases a with
  | request r =>
    intro _ hnone c hc hrepeats htold status data time hsucc
    obtain ⟨-, hover | ⟨e, he, hexpires⟩⟩ := h.stored c hc status data time hsucc
    · exact hover
    · rw [hrepeats.alike.hash_eq htold] at he
      exact hexpires.trans (expiresAt_le_of_cached_eq_none hnone he)
  | _ => trivial

/-- **A request is answered** only with the success of a request like it. -/
theorem Sound.replaysAlike (h : Sound cfg s) {as : List (Action ν ρ)} (harrived : Arrived as s)
    (hplain : ∀ r, .request r ∈ as → r.PlainKey)
    (hdigest : ∀ r r', .request r ∈ as → .request r' ∈ as → r.hash cfg = r'.hash cfg →
      r.payload cfg = r'.payload cfg) {a : Action ν ρ} (ha : a ∈ as) : ReplaysAlike cfg s a := by
  cases a with
  | request r =>
    intro hr hkeyed e he
    obtain ⟨c, hc, hhash, time, hsucc⟩ := h.entry _ e (cache_of_cached he)
    have hcr : c.req.eligible = true := hsucc.1
    rw [h.hash c hc, if_pos hcr] at hhash
    have hpayload := hdigest c.req r (harrived c hc) ha (Option.some.inj hhash)
    have halike := alike_of_payload_eq hcr hr (hplain _ (harrived c hc)).colon_notMem
      (hplain r ha).colon_notMem hpayload
    exact ⟨c, hc, halike.answers (hplain r ha) hkeyed, time, hsucc⟩
  | _ => trivial

/-- **Deduplication.** In every run of requests with plain API keys, one that has an API key and a
body that has been read is answered from the cache only with the success of a request that has the
same text of the API key, method, path, and body up to the order of keys; and it runs only when the
window of every success of a request that it repeats is over. -/
theorem deduplicates (cfg : Config ν) (as : List (Action ν ρ))
    (hplain : ∀ r, .request r ∈ as → r.PlainKey)
    (hdigest : ∀ r r', .request r ∈ as → .request r' ∈ as → r.hash cfg = r'.hash cfg →
      r.payload cfg = r'.payload cfg) :
    Along (step cfg) (fun s a ↦ ReplaysAlike cfg s a ∧ RunsAfterWindow cfg s a) State.start as := by
  have hmem : Along (step cfg) (fun _ a ↦ a ∈ as) (State.start : State ν ρ) as :=
    along_of_forall_mem (fun _ ha _ ↦ ha) _
  have hstart : Sound cfg (State.start : State ν ρ) ∧ Arrived as (State.start : State ν ρ) :=
    ⟨sound_start, fun _ hc ↦ nomatch hc⟩
  have hsound : Always (step cfg) (fun s ↦ Sound cfg s ∧ Arrived as s) State.start as :=
    hmem.always (fun _ a hs ha ↦ ⟨hs.1.step a, hs.2.step ha⟩) hstart
  exact hmem.of_always (fun _ a hs ha ↦
    ⟨hs.1.replaysAlike hs.2 hplain hdigest ha, hs.1.runsAfterWindow a⟩) hsound

section Examples

def codeUnitOrder : Collation := ⟨KeyLe, inferInstance, inferInstance, inferInstance⟩

def donation (swapped : Bool) : Request ℕ where
  method := "POST"
  path := "/donations"
  apiKey := some ⟨some 7, none⟩
  sent := .read
    ⟨some (.obj (if swapped then [("memo", .str "rent"), ("amount", .num (.finite 5))]
        else [("amount", .num (.finite 5)), ("memo", .str "rent")])), by
      cases swapped <;>
        exact ⟨trivial, distinct_obj.mpr ⟨by decide, by simp [Distinct, fold]⟩⟩⟩

def digestOfDonation (payload : String) : String :=
  if payload = "7:POST:/donations:\x7b\"amount\":5,\"memo\":\"rent\"\x7d" then
    "69f9f48de9679c3f1296b839f013ce3d5034f6d49b17c2bf9e27c069ad020e3d"
  else payload

def sentAgain : List (Action ℕ String) :=
  [.request (donation false), .tick 40, .answer 0 (.json 201 "created"), .tick 900,
    .request (donation true)]

theorem deduplicates_at :
    Along (step ⟨digestOfDonation, codeUnitOrder, natText, 60000⟩)
      (fun s a ↦ ReplaysAlike ⟨digestOfDonation, codeUnitOrder, natText, 60000⟩ s a ∧
        RunsAfterWindow ⟨digestOfDonation, codeUnitOrder, natText, 60000⟩ s a)
      State.start sentAgain := by
  have hrequest : ∀ r, Action.request r ∈ sentAgain → ∃ swapped, r = donation swapped := by
    intro r hr
    simp only [sentAgain, List.mem_cons, List.not_mem_nil, or_false, reduceCtorEq, false_or,
      Action.request.injEq] at hr
    rcases hr with rfl | rfl
    · exact ⟨false, rfl⟩
    · exact ⟨true, rfl⟩
  refine deduplicates _ sentAgain (fun r hr ↦ ?_) fun r r' hr hr' _ ↦ ?_
  · obtain ⟨swapped, rfl⟩ := hrequest r hr
    cases swapped <;> exact fun _ ↦ ⟨by decide, by decide⟩
  · obtain ⟨swapped, rfl⟩ := hrequest r hr
    obtain ⟨swapped', rfl⟩ := hrequest r' hr'
    cases swapped <;> cases swapped' <;> decide

/-- A configuration whose digest is the payload itself. -/
def plain : Config ℕ := ⟨id, codeUnitOrder, natText, 60000⟩

def twoRequests (r r' : Request ℕ) : List (Action ℕ String) :=
  [.request r, .answer 0 (.json 200 "done"), .request r']

theorem not_replays_twoRequests {r r' : Request ℕ} {s : State ℕ String}
    (hs : s = run (step plain) State.start [.request r, .answer 0 (.json 200 "done")])
    (hr' : r'.eligible = true) {e : Entry String} (he : s.cached plain r' = some e)
    (hne : ∀ c ∈ s.calls, ¬Identical c.req r') :
    ¬Along (step plain) (Replays plain) State.start (twoRequests r r') := by
  rintro ⟨-, -, hreplays, -⟩
  subst hs
  obtain ⟨c, hc, hidentical, -⟩ := hreplays hr' e he
  exact hne c hc hidentical

def deletion (query : String) : Request ℕ where
  method := "DELETE"
  path := "/limits"
  query := query
  xApiKey := some "key"
  sent := .read ⟨none, trivial⟩

/-- A request of an API key, and one whose header is the number of the API key. -/
def keyed (apiKey : Option ApiKey) (xApiKey : Option String) : Request ℕ where
  method := "POST"
  path := "/wallets"
  apiKey := apiKey
  xApiKey := xApiKey
  sent := .read ⟨none, trivial⟩

/-- A request with a header and a path that may have colons. -/
def colons (xApiKey path : String) : Request ℕ where
  method := "POST"
  path := path
  xApiKey := some xApiKey
  sent := .read ⟨none, trivial⟩

def amount (v : Json (Number ℕ)) (hv : Distinct v) : Request ℕ where
  method := "POST"
  path := "/donations"
  xApiKey := some "key"
  sent := .read
    ⟨some (.obj [("amount", v)]), trivial, distinct_obj.mpr ⟨by simp, by simpa using hv⟩⟩

def upload (file : String) : Request ℕ where
  method := "POST"
  path := "/wallets/bulk-import"
  xApiKey := some "key"
  sent := .unread "multipart/form-data" file

def withoutKey : Request ℕ where
  method := "POST"
  path := "/auth/logout"
  sent := .read ⟨none, trivial⟩

def hasInfinite : Json (Number ℕ) → Bool :=
  Json.fold
    { null := false
      bool _ := false
      num := fun
        | .finite _ => false
        | .infinite _ => true
      str _ := false
      arr := fun bs ↦ bs.any id
      obj := fun fields ↦ fields.any (·.2) }

/-- Two requests for the same thing, one during the other. -/
def overlapping : List (Action ℕ String) :=
  [.request (deletion ""), .request (deletion ""), .answer 0 (.json 200 "deleted"),
    .answer 1 (.json 200 "deleted")]

/-- Requests are taken for identical whose query strings differ, one of which was sent without the
API key of the other, which put the colon in another place, one of which has `null` for a number
that is too great, which upload different files, or which have no API key; and identical requests
that overlap both run. -/
theorem other_requests_deduplicated :
    ¬Along (step plain) (Replays plain) State.start
      (twoRequests (deletion "?id=1") (deletion "?id=2")) ∧
    ¬Along (step plain) (Replays plain) State.start
      (twoRequests (keyed (some ⟨some 5, none⟩) none) (keyed none (some "5"))) ∧
    ¬Along (step plain) (Replays plain) State.start
      (twoRequests (colons "k" "/x:POST:/y") (colons "k:POST:/x" "/y")) ∧
    ¬Along (step plain) (Replays plain) State.start
      (twoRequests (amount (.num (.infinite false)) trivial) (amount .null trivial)) ∧
    ¬Along (step plain) (Replays plain) State.start
      (twoRequests (upload "GA7A,alice") (upload "GB3B,bob")) ∧
    ¬Along (step plain) (Replays plain) State.start (twoRequests withoutKey withoutKey) ∧
    ¬Always (step plain) (RunOnce plain) State.start overlapping := by
  refine ⟨?_, ?_, ?_, ?_, ?_, ?_, fun halways ↦ ?_⟩
  · have hquery : ∀ c ∈ (run (step plain) (State.start : State ℕ String)
        [.request (deletion "?id=1"), .answer 0 (.json 200 "done")]).calls,
        c.req.query ≠ (deletion "?id=2").query := by decide
    exact not_replays_twoRequests (e := ⟨200, "done", 60000⟩) rfl (by decide)
      (by decide) fun c hc hid ↦ hquery c hc hid.query
  · have hcaller : ∀ c ∈ (run (step plain) (State.start : State ℕ String)
        [.request (keyed (some ⟨some 5, none⟩) none), .answer 0 (.json 200 "done")]).calls,
        c.req.caller ≠ (keyed none (some "5")).caller := by decide
    refine not_replays_twoRequests (e := ⟨200, "done", 60000⟩) rfl (by decide)
      (by decide) fun c hc hid ↦ ?_
    obtain ⟨k, hk, hk'⟩ := hid.caller
    exact hcaller c hc (hk.trans hk'.symm)
  · have hpath : ∀ c ∈ (run (step plain) (State.start : State ℕ String)
        [.request (colons "k" "/x:POST:/y"), .answer 0 (.json 200 "done")]).calls,
        c.req.path ≠ (colons "k:POST:/x" "/y").path := by decide
    exact not_replays_twoRequests (e := ⟨200, "done", 60000⟩) rfl (by decide)
      (by decide) fun c hc hid ↦ hpath c hc hid.path
  · have hinfinite : ∀ c ∈ (run (step plain) (State.start : State ℕ String)
        [.request (amount (.num (.infinite false)) trivial), .answer 0 (.json 200 "done")]).calls,
        c.req.sent.isRead = true ∧
          c.req.body.value.any (fun v ↦ hasInfinite (sortKeys v)) = true := by decide
    refine not_replays_twoRequests (e := ⟨200, "done", 60000⟩) rfl (by decide)
      (by decide) fun c hc hid ↦ ?_
    obtain ⟨hread, hany⟩ := hinfinite c hc
    have hbody : SameValue c.req.body.value (some (.obj [("amount", .null)])) := by
      have hsent : SameSent c.req.sent (amount .null trivial).sent := hid.sent
      cases hsentValue : c.req.sent with
      | read b =>
        rw [hsentValue] at hsent
        rw [Request.body, hsentValue]
        exact hsent
      | unread contentType content =>
        rw [hsentValue] at hread
        cases hread
    cases hvalue : c.req.body.value with
    | none =>
      rw [hvalue] at hany
      cases hany
    | some v =>
      rw [hvalue] at hany hbody
      have hsame : sortKeys v = sortKeys (.obj [("amount", .null)]) := hbody
      rw [Option.any_some, hsame] at hany
      exact absurd hany (by decide)
  · have hcalls : ∀ c ∈ (run (step plain) (State.start : State ℕ String)
        [.request (upload "GA7A,alice"), .answer 0 (.json 200 "done")]).calls,
        c.req = upload "GA7A,alice" := fun c hc ↦ by rw [List.mem_singleton.mp hc]
    refine not_replays_twoRequests (e := ⟨200, "done", 60000⟩) rfl (by decide)
      (by decide) fun c hc hid ↦ ?_
    have hsent := hid.sent
    rw [hcalls c hc] at hsent
    exact absurd hsent.2 (by decide)
  · exact not_replays_twoRequests (e := ⟨200, "done", 60000⟩) rfl (by decide)
      (by decide) fun c _ hid ↦ by obtain ⟨k, -, hk⟩ := hid.caller; cases hk
  · have hlast := halways.last 0 1 _ _ (by decide) rfl rfl
      ⟨⟨_, rfl, rfl⟩, rfl, rfl, rfl, trivial⟩
      200 "deleted" 0 ⟨by decide, rfl, rfl⟩
      200 "deleted" 0 ⟨by decide, rfl, rfl⟩
    exact absurd hlast (by decide)

end Examples

end StellarDonations.Deduplication
