import Mathlib.Data.Bool.Basic
import StellarDonations.Errors
import StellarDonations.Text.JsString

/-!
# Idempotency records

`IdempotencyService` over the table `idempotency_keys`: responses stored under a key and the id of
an API key, for a day. The table is declared with `NOT NULL` on the hash of the request and with
`UNIQUE(apiKeyId, idempotencyKey)`, which never compares two rows without an API key.
-/

namespace StellarDonations.Idempotency

open JsString

variable {ρ : Type*}

inductive RecordStatus where
  | pending
  | completed
  deriving DecidableEq

/-- A row of `idempotency_keys`. The response is read from its text as a `ρ`; the empty text of a
reservation cannot be read. -/
structure Row (ρ : Type*) where
  apiKeyId : Option ℕ
  idempotencyKey : String
  requestHash : String
  response : Option ρ
  status : RecordStatus
  userId : Option ℕ
  createdAt : ℕ
  expiresAt : ℕ
  deriving DecidableEq

def defaultTtl : ℕ := 24 * 60 * 60 * 1000

/-- `datetime(expiresAt) > datetime('now')`, which compares whole seconds. -/
def Row.unexpired (now : ℕ) (r : Row ρ) : Bool := now / 1000 < r.expiresAt / 1000

/-- The two rows are not allowed together. A `NULL` is different from every value. -/
def Row.conflicts (r r' : Row ρ) : Bool :=
  r.apiKeyId.isSome && r.apiKeyId = r'.apiKeyId && r.idempotencyKey = r'.idempotencyKey

/-- What `get` returns. -/
structure Cached (ρ : Type*) where
  response : ρ
  requestHash : String
  createdAt : ℕ
  deriving DecidableEq

/-- `get`: the completed record of the key and of the API key, or of no API key. -/
def get (rows : List (Row ρ)) (idempotencyKey : String) (apiKeyId : Option ℕ) (now : ℕ) :
    Except AppError (Option (Cached ρ)) :=
  match rows.find? fun r ↦ r.idempotencyKey = idempotencyKey && r.status = .completed
      && r.unexpired now && r.apiKeyId = apiKeyId with
  | none => .ok none
  | some record =>
    match record.response with
    | none => .error ⟨.error, none, "Unexpected end of JSON input"⟩
    | some response => .ok (some ⟨response, record.requestHash, record.createdAt⟩)

def Row.isFor (idempotencyKey : String) (apiKeyId : Option ℕ) (r : Row ρ) : Bool :=
  r.idempotencyKey = idempotencyKey && r.apiKeyId = apiKeyId

/-- `reserve`: `INSERT OR IGNORE` of a pending record, and whether it was inserted. -/
def reserve (rows : List (Row ρ)) (idempotencyKey requestHash : String) (apiKeyId : Option ℕ)
    (expiresAt now : ℕ) : List (Row ρ) × Bool :=
  let row : Row ρ :=
    { apiKeyId, idempotencyKey, requestHash, response := none, status := .pending
      userId := none, createdAt := now, expiresAt }
  if rows.any row.conflicts then (rows, false) else (rows ++ [row], true)

def isPending (rows : List (Row ρ)) (idempotencyKey : String) (apiKeyId : Option ℕ) (now : ℕ) :
    Bool :=
  rows.any fun r ↦ r.isFor idempotencyKey apiKeyId && r.status = .pending && r.unexpired now

/-- `complete`: every record of the key and of the API key gets the response. -/
def complete (rows : List (Row ρ)) (idempotencyKey : String) (response : ρ)
    (apiKeyId userId : Option ℕ) : List (Row ρ) :=
  rows.map fun r ↦
    if r.isFor idempotencyKey apiKeyId then
      { r with response := some response, status := .completed, userId }
    else r

/-- What `findByHash` returns. -/
structure Duplicate (ρ : Type*) where
  idempotencyKey : String
  response : ρ
  createdAt : ℕ
  deriving DecidableEq

/-- `findByHash`: the completed record of another key with the hash. -/
def findByHash (rows : List (Row ρ)) (requestHash excludeKey : String) (apiKeyId : Option ℕ)
    (now : ℕ) : Except AppError (Option (Duplicate ρ)) :=
  match rows.find? fun r ↦ r.requestHash = requestHash && r.status = .completed
      && r.unexpired now && r.apiKeyId = apiKeyId
      && (excludeKey = "" || r.idempotencyKey ≠ excludeKey) with
  | none => .ok none
  | some record =>
    match record.response with
    | none => .error ⟨.error, none, "Unexpected end of JSON input"⟩
    | some response => .ok (some ⟨record.idempotencyKey, response, record.createdAt⟩)

def isKeyChar (c : Char) : Bool :=
  ('a' ≤ c && c ≤ 'z') || ('A' ≤ c && c ≤ 'Z') || ('0' ≤ c && c ≤ '9') || c = '-' || c = '_'

def validateKey (key : String) : Option String :=
  let length := (codeUnits key).length
  if key = "" then some "Idempotency key must be a non-empty string"
  else if length < 16 then some "Idempotency key must be at least 16 characters long"
  else if 255 < length then some "Idempotency key must not exceed 255 characters"
  else if !key.toList.all isKeyChar then
    some "Idempotency key must contain only alphanumeric characters and hyphens"
  else none

def cleanupExpired (rows : List (Row ρ)) (now : ℕ) : List (Row ρ) :=
  rows.filter (·.unexpired now)

/-- `store`: `INSERT OR REPLACE` of a completed record. A `NULL` in a `NOT NULL` column that has no
default is not replaced: the statement fails. -/
def store (rows : List (Row ρ)) (idempotencyKey : String) (requestHash : Option String)
    (response : ρ) (userId apiKeyId : Option ℕ) (now : ℕ) : Except AppError (List (Row ρ)) :=
  match requestHash with
  | none => .error ⟨.databaseError, some .databaseError, "Database operation failed"⟩
  | some requestHash =>
    let row : Row ρ :=
      { apiKeyId, idempotencyKey, requestHash, response := some response, status := .completed
        userId, createdAt := now, expiresAt := now + defaultTtl }
    .ok (rows.filter (!row.conflicts ·) ++ [row])

/-! ## What the statements find and leave -/

section Statements

variable {rows : List (Row ρ)} {k : String} {a : Option ℕ} {now : ℕ}

theorem Row.isFor_iff {r : Row ρ} : r.isFor k a = true ↔ r.idempotencyKey = k ∧ r.apiKeyId = a := by
  rw [Row.isFor, Bool.and_eq_true, decide_eq_true_iff, decide_eq_true_iff]

theorem Row.unexpired_of_le {r : Row ρ} {now' : ℕ} (hle : now ≤ now')
    (h : r.unexpired now' = true) : r.unexpired now = true := by
  rw [Row.unexpired, decide_eq_true_iff] at h ⊢
  exact Nat.lt_of_le_of_lt (Nat.div_le_div_right hle) h

theorem isPending_iff : isPending rows k a now = true ↔
    ∃ r ∈ rows, r.isFor k a = true ∧ r.status = .pending ∧ r.unexpired now = true := by
  simp only [isPending, List.any_eq_true, Bool.and_eq_true, decide_eq_true_iff, and_assoc]

/-- The record that `get` looks for. -/
def Row.answers (k : String) (a : Option ℕ) (now : ℕ) (r : Row ρ) : Bool :=
  r.isFor k a && r.status = .completed && r.unexpired now

theorem get_eq_find (rows : List (Row ρ)) (k : String) (a : Option ℕ) (now : ℕ) :
    get rows k a now =
      match rows.find? (·.answers k a now) with
      | none => .ok none
      | some record =>
        match record.response with
        | none => .error ⟨.error, none, "Unexpected end of JSON input"⟩
        | some response => .ok (some ⟨response, record.requestHash, record.createdAt⟩) := by
  have hpred : (fun r : Row ρ ↦ decide (r.idempotencyKey = k) && decide (r.status = .completed)
      && r.unexpired now && decide (r.apiKeyId = a)) = (·.answers k a now) := by
    funext r
    rw [Row.answers, Row.isFor, Bool.and_right_comm _ _ (decide (r.apiKeyId = a)),
      Bool.and_right_comm _ _ (decide (r.apiKeyId = a))]
  rw [get, hpred]

/-- `get` finds nothing exactly when there is no completed record that has not expired. -/
theorem get_eq_ok_none : get rows k a now = .ok none ↔ ∀ r ∈ rows, r.answers k a now = false := by
  rw [get_eq_find]
  cases hfind : rows.find? (·.answers k a now) with
  | none =>
    refine iff_of_true rfl fun r hr ↦ ?_
    exact Bool.eq_false_of_not_eq_true (List.find?_eq_none.mp hfind r hr)
  | some r =>
    refine iff_of_false (fun h ↦ ?_) fun h ↦ ?_
    · dsimp only at h
      split at h <;> cases h
    · have hr := List.find?_some hfind
      rw [h r (List.mem_of_find?_eq_some hfind)] at hr
      cases hr

theorem reserve_won {hash : String} {expiresAt : ℕ}
    (h : (reserve rows k hash a expiresAt now).2 = true) :
    (∀ r ∈ rows, a.isSome = true → r.isFor k a = false) ∧
      ∃ r, (reserve rows k hash a expiresAt now).1 = rows ++ [r] ∧ r.isFor k a = true ∧
        r.status = .pending ∧ r.expiresAt = expiresAt := by
  rw [reserve] at h ⊢
  split_ifs at h ⊢ with hany
  refine ⟨fun r hr ha ↦ ?_, _, rfl, Row.isFor_iff.mpr ⟨rfl, rfl⟩, rfl, rfl⟩
  refine Bool.eq_false_of_not_eq_true fun hfor ↦ hany (List.any_eq_true.mpr ⟨r, hr, ?_⟩)
  obtain ⟨rfl, rfl⟩ := Row.isFor_iff.mp hfor
  simp [Row.conflicts, ha]

end Statements

end StellarDonations.Idempotency
