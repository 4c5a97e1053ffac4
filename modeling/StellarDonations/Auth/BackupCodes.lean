import StellarDonations.Concurrency.Interleaving
import StellarDonations.Errors
import StellarDonations.Text.JsString

/-!
# Backup codes

`verifyBackupCode` and `disable` of `TOTPService`, as calls that are suspended on every SQL
statement. The hashes of the unused codes of a key are one value of a column. A call reads the
list, takes its code off, and writes the list back, whatever the column holds by then: two calls
that overlap both accept a code, and the one that writes last brings back the code of the other.

What keeps the codes single use is that the list a call writes back was read after all codes
accepted so far had been taken off it (`backup_codes_single_use_iff`).
-/

namespace StellarDonations.BackupCodes

open Concurrency JsString

/-! ## The table -/

/-- The column `totp_backup_codes`: without a text, with the list that its text stands for, or with
a text that cannot be parsed. -/
inductive CodesColumn where
  | empty
  | codes (hashes : List String)
  | unreadable
  deriving DecidableEq

/-- The columns of `api_keys` for the second factor. -/
structure KeyRow where
  id : ℕ
  totpSecret : Option String
  totpEnabled : Bool
  totpBackupCodes : CodesColumn
  deriving DecidableEq

/-- The table, and the codes that were accepted, as pairs of a key and a hash. -/
structure Shared where
  rows : List KeyRow
  accepted : List (ℕ × String)
  deriving DecidableEq

namespace Shared

def row? (sh : Shared) (keyId : ℕ) : Option KeyRow := sh.rows.find? (·.id = keyId)

/-- An `UPDATE` of the row of a key. -/
def update (sh : Shared) (keyId : ℕ) (f : KeyRow → KeyRow) : Shared :=
  { sh with rows := sh.rows.map fun r ↦ if r.id = keyId then f r else r }

/-- The `UPDATE` of `verifyBackupCode`, which then accepts the code. -/
def consume (sh : Shared) (keyId : ℕ) (hash : String) (codes : List String) : Shared :=
  { sh.update keyId fun r ↦ { r with totpBackupCodes := .codes (codes.erase hash) } with
    accepted := sh.accepted ++ [(keyId, hash)] }

/-- The `UPDATE` of `disable`. -/
def clear (sh : Shared) (keyId : ℕ) : Shared :=
  sh.update keyId fun r ↦ ⟨r.id, none, false, .empty⟩

end Shared

/-! ## Calls -/

structure Config where
  /-- The hash a code is stored under. -/
  sha256 : String → String
  /-- The code is that of the secret, in one of the windows around the time. -/
  totpMatches : String → String → ℕ → Bool

inductive Request where
  | verifyBackupCode (keyId : ℕ) (rawCode : String)
  | disable (keyId : ℕ) (code : String)
  deriving DecidableEq

/-- Who waits for `verifyBackupCode`. -/
inductive Caller where
  | client
  | disable
  deriving DecidableEq

/-- Where a call is suspended, or how it ended. The three statements of `ensureTotpColumns` are one,
since they concern none of the columns' values. -/
inductive Call where
  | waiting (r : Request)
  /-- `disable` reads the row. -/
  | disableRow (keyId : ℕ) (code : String)
  | verifyColumns (keyId : ℕ) (code : String) (timestampMs : ℕ)
  | verifySecret (keyId : ℕ) (code : String) (timestampMs : ℕ)
  | codeColumns (caller : Caller) (keyId : ℕ) (rawCode : String)
  | readCodes (caller : Caller) (keyId : ℕ) (rawCode : String)
  | writeCodes (caller : Caller) (keyId : ℕ) (hash : String) (codes : List String)
  | clear (keyId : ℕ)
  | verified (valid : Bool)
  /-- `disable` returns, with the reason if it has refused. -/
  | disabled (reason : Option String)
  | threw (e : AppError)
  deriving DecidableEq

structure Env where
  now : ℕ
  /-- The error of the statement, should it fail. -/
  dbError : Option AppError
  deriving DecidableEq

/-- `/^\d{6}$/`. -/
def isSixDigits (code : String) : Bool := code.length = 6 && code.toList.all (·.isDigit)

/-- What follows the return of `verifyBackupCode`. -/
def afterCode (keyId : ℕ) (valid : Bool) : Caller → Call
  | .client => .verified valid
  | .disable => if valid then .clear keyId else .disabled (some "Invalid code")

/-- `verifyBackupCode`, once the columns are there. -/
def afterColumns (caller : Caller) (keyId : ℕ) (rawCode : String) : Call :=
  if rawCode = "" then afterCode keyId false caller else .readCodes caller keyId rawCode

/-- What follows the return of `verify` in `disable`. -/
def afterVerify (keyId : ℕ) (code : String) (valid : Bool) : Call :=
  if valid then .clear keyId else .codeColumns .disable keyId code

/-- Resume a call: execute the statement it is suspended on. -/
def resume (cfg : Config) (sh : Shared) (c : Call) (env : Env) : Shared × Call :=
  match c, env.dbError with
  | .waiting (.verifyBackupCode keyId rawCode), none => (sh, afterColumns .client keyId rawCode)
  | .waiting (.disable keyId code), none => (sh, .disableRow keyId code)
  | .disableRow keyId code, none =>
    match sh.row? keyId with
    | none => (sh, .disabled (some "API key not found"))
    | some row =>
      if !row.totpEnabled then (sh, .disabled (some "TOTP is not enabled"))
      else (sh, .verifyColumns keyId code env.now)
  | .verifyColumns keyId code timestampMs, none =>
    if !isSixDigits code then (sh, afterVerify keyId code false)
    else (sh, .verifySecret keyId code timestampMs)
  | .verifySecret keyId code timestampMs, none =>
    match orNull ((sh.row? keyId).bind KeyRow.totpSecret) with
    | none => (sh, afterVerify keyId code false)
    | some secret => (sh, afterVerify keyId code (cfg.totpMatches secret code timestampMs))
  | .codeColumns caller keyId rawCode, none => (sh, afterColumns caller keyId rawCode)
  | .readCodes caller keyId rawCode, none =>
    match (sh.row? keyId).map KeyRow.totpBackupCodes with
    | none | some .empty | some .unreadable => (sh, afterCode keyId false caller)
    | some (.codes codes) =>
      let hash := cfg.sha256 (trim rawCode)
      if hash ∈ codes then (sh, .writeCodes caller keyId hash codes)
      else (sh, afterCode keyId false caller)
  | .writeCodes caller keyId hash codes, none =>
    (sh.consume keyId hash codes, afterCode keyId true caller)
  | .clear keyId, none => (sh.clear keyId, .disabled none)
  | .verified _, _ | .disabled _, _ | .threw _, _ => (sh, c)
  | _, some e => (sh, .threw e)

/-! ## What must hold -/

/-- Every code is accepted at most once, and an accepted one is not on the stored list. -/
def SingleUse (sh : Shared) : Prop :=
  ∀ keyId hash, sh.accepted.count (keyId, hash) ≤ 1 ∧
    ((keyId, hash) ∈ sh.accepted → ∀ row ∈ sh.rows, row.id = keyId →
      ∀ codes, row.totpBackupCodes = .codes codes → hash ∉ codes)

section Runs

variable {ι : Type*}

/-- The list that is written back had the code once, and none of the codes accepted so far. -/
def Fresh (s : Calls ι Shared Call) (a : ι × Env) : Prop :=
  match s.call a.1, a.2.dbError with
  | .writeCodes _ keyId hash codes, none =>
    hash ∉ codes.erase hash ∧ ∀ h ∈ codes, (keyId, h) ∉ s.shared.accepted
  | _, _ => True

/-- No code was accepted yet, and every call is still to be made. -/
def start (rows : List KeyRow) (req : ι → Request) : Calls ι Shared Call where
  shared := ⟨rows, []⟩
  call i := .waiting (req i)

end Runs

/-! ## What a step does -/

/-- A list that is about to be written back was read from the row of the key and has the code. -/
def Pending (sh : Shared) : Call → Prop
  | .writeCodes _ keyId hash codes => hash ∈ codes ∧ ∃ row ∈ sh.rows, row.id = keyId
  | _ => True

/-- The call writes a list back, and the statement does not fail. -/
def Writes (c : Call) (env : Env) : Prop :=
  ∃ caller keyId hash codes, c = .writeCodes caller keyId hash codes ∧ env.dbError = none

section Inversion

variable {cfg : Config} {sh : Shared} {c : Call} {env : Env}

theorem pending_afterCode (sh : Shared) (keyId : ℕ) (valid : Bool) (caller : Caller) :
    Pending sh (afterCode keyId valid caller) := by
  cases caller <;> cases valid <;> exact trivial

theorem pending_afterColumns (sh : Shared) (caller : Caller) (keyId : ℕ) (rawCode : String) :
    Pending sh (afterColumns caller keyId rawCode) := by
  rw [afterColumns]
  split_ifs
  · exact pending_afterCode sh keyId false caller
  · exact trivial

theorem pending_afterVerify (sh : Shared) (keyId : ℕ) (code : String) (valid : Bool) :
    Pending sh (afterVerify keyId code valid) := by
  cases valid <;> exact trivial

theorem exists_of_row? {keyId : ℕ} {row : KeyRow} (h : sh.row? keyId = some row) :
    row ∈ sh.rows ∧ row.id = keyId :=
  ⟨List.mem_of_find?_eq_some h, by simpa using List.find?_some h⟩

theorem mem_update {keyId : ℕ} {f : KeyRow → KeyRow} {row : KeyRow}
    (hrow : row ∈ (sh.update keyId f).rows) :
    (row.id ≠ keyId ∧ row ∈ sh.rows) ∨ ∃ r ∈ sh.rows, r.id = keyId ∧ row = f r := by
  obtain ⟨r, hr, rfl⟩ := List.mem_map.mp hrow
  split_ifs with h
  · exact .inr ⟨r, hr, h, rfl⟩
  · exact .inl ⟨h, hr⟩

theorem exists_update {keyId : ℕ} {f : KeyRow → KeyRow} (hf : ∀ r, (f r).id = r.id) {id : ℕ}
    (h : ∃ row ∈ sh.rows, row.id = id) : ∃ row ∈ (sh.update keyId f).rows, row.id = id := by
  obtain ⟨row, hrow, rfl⟩ := h
  refine ⟨_, List.mem_map_of_mem hrow, ?_⟩
  split_ifs
  · exact hf row
  · rfl

/-- A call that does not write a list back leaves the table alone, or clears the row of a key. -/
theorem shared_resume (cfg : Config) (sh : Shared) (hc : ¬Writes c env) :
    (resume cfg sh c env).1 = sh ∨ ∃ keyId, (resume cfg sh c env).1 = sh.clear keyId := by
  obtain ⟨now, dbError⟩ := env
  cases dbError with
  | some e =>
    refine .inl ?_
    cases c with
    | waiting r => cases r <;> rfl
    | _ => rfl
  | none =>
    cases c with
    | waiting r => cases r <;> exact .inl rfl
    | clear keyId => exact .inr ⟨keyId, rfl⟩
    | writeCodes caller keyId hash codes => exact absurd ⟨caller, keyId, hash, codes, rfl, rfl⟩ hc
    | _ =>
      refine .inl ?_
      simp only [resume]
      repeat' split
      all_goals rfl

theorem pending_resume (cfg : Config) (sh : Shared) (c : Call) (env : Env) :
    Pending sh (resume cfg sh c env).2 := by
  obtain ⟨now, dbError⟩ := env
  cases dbError with
  | some e =>
    cases c with
    | waiting r => cases r <;> exact trivial
    | _ => exact trivial
  | none =>
    cases c with
    | waiting r =>
      cases r with
      | verifyBackupCode keyId rawCode => exact pending_afterColumns sh _ keyId rawCode
      | disable keyId code => exact trivial
    | disableRow keyId code =>
      simp only [resume]
      split
      · exact trivial
      · split <;> exact trivial
    | verifyColumns keyId code timestampMs =>
      simp only [resume]
      split
      · exact pending_afterVerify sh keyId code false
      · exact trivial
    | verifySecret keyId code timestampMs =>
      simp only [resume]
      split
      · exact pending_afterVerify sh keyId code false
      · exact pending_afterVerify sh keyId code _
    | codeColumns caller keyId rawCode => exact pending_afterColumns sh caller keyId rawCode
    | readCodes caller keyId rawCode =>
      simp only [resume]
      split
      · exact pending_afterCode sh keyId false caller
      · exact pending_afterCode sh keyId false caller
      · exact pending_afterCode sh keyId false caller
      · next codes hcodes =>
        split_ifs with hmem
        · obtain ⟨row, hrow, -⟩ := Option.map_eq_some_iff.mp hcodes
          exact ⟨hmem, row, exists_of_row? hrow⟩
        · exact pending_afterCode sh keyId false caller
    | writeCodes caller keyId hash codes => exact pending_afterCode sh keyId true caller
    | clear | verified | disabled | threw => exact trivial

theorem Pending.resume {c' : Call} (h : Pending sh c') (c : Call) (env : Env) :
    Pending (resume cfg sh c env).1 c' := by
  cases c' with
  | writeCodes caller keyId hash codes =>
    obtain ⟨hmem, hrow⟩ := h
    refine ⟨hmem, ?_⟩
    by_cases hc : Writes c env
    · obtain ⟨caller', id, hash', codes', rfl, herror⟩ := hc
      simp only [BackupCodes.resume, herror]
      exact exists_update (f := fun r ↦ { r with totpBackupCodes := .codes (codes'.erase hash') })
        (fun _ ↦ rfl) hrow
    · rcases shared_resume cfg sh hc with heq | ⟨id, heq⟩ <;> rw [heq]
      · exact hrow
      · exact exists_update (f := fun r ↦ ⟨r.id, none, false, .empty⟩) (fun _ ↦ rfl) hrow
  | _ => exact trivial

end Inversion

/-! ## The condition -/

section Condition

variable {sh : Shared}

/-- Clearing a row brings no code back. -/
theorem SingleUse.clear (h : SingleUse sh) (keyId : ℕ) : SingleUse (sh.clear keyId) := by
  intro id hash
  refine ⟨(h id hash).1, fun haccepted row hrow hid codes hcodes ↦ ?_⟩
  rcases mem_update hrow with ⟨-, hrow⟩ | ⟨r, -, -, rfl⟩
  · exact (h id hash).2 haccepted row hrow hid codes hcodes
  · cases hcodes

/-- **Writing a list back** keeps the codes single use exactly when the list was fresh. -/
theorem singleUse_consume_iff (h : SingleUse sh) {keyId : ℕ} {hash : String} {codes : List String}
    (hmem : hash ∈ codes) (hrow : ∃ row ∈ sh.rows, row.id = keyId) :
    SingleUse (sh.consume keyId hash codes) ↔
      hash ∉ codes.erase hash ∧ ∀ h ∈ codes, (keyId, h) ∉ sh.accepted := by
  constructor
  · intro hafter
    obtain ⟨row, hrow, hid⟩ := hrow
    have hnew : ∀ h', (keyId, h') ∈ sh.accepted ++ [(keyId, hash)] → h' ∉ codes.erase hash := by
      intro h' haccepted
      refine (hafter keyId h').2 haccepted { row with totpBackupCodes := .codes (codes.erase hash) }
        (List.mem_map.mpr ⟨row, hrow, if_pos hid⟩) hid _ rfl
    refine ⟨hnew hash (by simp), fun h' hmem' haccepted ↦ ?_⟩
    by_cases heq : h' = hash
    · -- the code would be accepted a second time
      have hcount := (hafter keyId hash).1
      rw [Shared.consume, List.count_append, List.count_singleton_self] at hcount
      have hpos := List.count_pos_iff.mpr (heq ▸ haccepted)
      omega
    · have haccepted' := List.mem_append_left [(keyId, hash)] haccepted
      exact hnew h' haccepted' ((List.mem_erase_of_ne heq).mpr hmem')
  · rintro ⟨honce, hfresh⟩ id hash'
    constructor
    · rw [Shared.consume, List.count_append, List.count_singleton]
      split_ifs with heq
      · obtain ⟨rfl, rfl⟩ := Prod.mk.inj (beq_iff_eq.mp heq)
        rw [List.count_eq_zero_of_not_mem (hfresh _ hmem)]
      · exact (h id hash').1
    · intro haccepted row hrow' hid codes' hcodes'
      rcases mem_update hrow' with ⟨hne, hrow'⟩ | ⟨r, -, hr, rfl⟩
      · refine (h id hash').2 ?_ row hrow' hid codes' hcodes'
        rcases List.mem_append.mp haccepted with hold | hnew
        · exact hold
        · cases List.mem_singleton.mp hnew
          exact absurd hid hne
      · cases hcodes'
        obtain rfl : keyId = id := hr.symm.trans hid
        rcases List.mem_append.mp haccepted with hold | hnew
        · exact fun hback ↦ hfresh hash' (List.mem_of_mem_erase hback) hold
        · cases List.mem_singleton.mp hnew
          exact honce

end Condition

section Theorem

variable {ι : Type*} [DecidableEq ι] {cfg : Config}

omit [DecidableEq ι] in
theorem fresh_of_not_writes {s : Calls ι Shared Call} {i : ι} {env : Env}
    (h : ¬Writes (s.call i) env) : Fresh s (i, env) := by
  simp only [Fresh]
  split
  · next caller keyId hash codes hcall herror =>
    exact absurd ⟨caller, keyId, hash, codes, hcall, herror⟩ h
  · trivial

def Sound (s : Calls ι Shared Call) : Prop :=
  SingleUse s.shared ∧ ∀ i, Pending s.shared (s.call i)

theorem pending_step {s : Calls ι Shared Call} (h : ∀ i, Pending s.shared (s.call i)) (i : ι)
    (env : Env) : ∀ j, Pending (Calls.step (resume cfg) s (i, env)).shared
      ((Calls.step (resume cfg) s (i, env)).call j) :=
  Calls.forall_step h (Pending.resume (pending_resume cfg _ _ env) _ env)
    fun _ hc ↦ hc.resume _ env

theorem singleUse_step_iff {s : Calls ι Shared Call} (hs : Sound s) (a : ι × Env) :
    SingleUse (Calls.step (resume cfg) s a).shared ↔ Fresh s a := by
  obtain ⟨i, env⟩ := a
  obtain ⟨hsingle, hpending⟩ := hs
  rw [Calls.step_shared]
  by_cases hc : Writes (s.call i) env
  · obtain ⟨caller, keyId, hash, codes, hcall, herror⟩ := hc
    have hwrite := hpending i
    rw [hcall] at hwrite
    simp only [resume, Fresh, hcall, herror]
    exact singleUse_consume_iff hsingle hwrite.1 hwrite.2
  · refine iff_of_true ?_ (fresh_of_not_writes hc)
    rcases shared_resume cfg s.shared hc with heq | ⟨keyId, heq⟩ <;> rw [heq]
    · exact hsingle
    · exact hsingle.clear keyId

/-- **Backup codes are single use** in exactly the runs in which every list that is written back is
fresh. -/
theorem backup_codes_single_use_iff (cfg : Config) (rows : List KeyRow) (req : ι → Request)
    (as : List (ι × Env)) :
    Always (Calls.step (resume cfg)) (fun s ↦ SingleUse s.shared) (start rows req) as ↔
      Along (Calls.step (resume cfg)) Fresh (start rows req) as := by
  refine always_iff_along (I := Sound) (fun s hs ↦ hs.1) (fun s a hs hfresh ↦ ?_)
    (fun s a hs hstale h ↦ hstale ((singleUse_step_iff hs a).mp h)) ?_ as
  · exact ⟨(singleUse_step_iff hs a).mpr hfresh, pending_step hs.2 a.1 a.2⟩
  · exact ⟨fun _ _ ↦ ⟨Nat.zero_le 1, nofun⟩, fun _ ↦ trivial⟩

end Theorem

section Examples

/-- Codes are stored as they are, and no code of an authenticator is valid. -/
def plainConfig : Config := ⟨id, fun _ _ _ ↦ false⟩

def twoCodes : KeyRow := ⟨1, some "SECRET", true, .codes ["aaaaaaaaaa", "bbbbbbbbbb"]⟩

/-- The first call presents the first code, and the second one the code given. -/
def presented (second : Request) : Fin 2 → Request
  | 0 => .verifyBackupCode 1 "aaaaaaaaaa"
  | 1 => second

/-- Both calls have read the list, the second one after `n` steps, before one writes it back. -/
def bothRead (n : ℕ) : List (Fin 2 × Env) :=
  List.replicate 2 (0, ⟨0, none⟩) ++ List.replicate n (1, ⟨0, none⟩) ++
    [(0, ⟨0, none⟩), (1, ⟨0, none⟩)]

theorem accepted_bothRead :
    (run (Calls.step (resume plainConfig))
      (start [twoCodes] (presented (.disable 1 "aaaaaaaaaa"))) (bothRead 5)).shared.accepted =
      [(1, "aaaaaaaaaa"), (1, "aaaaaaaaaa")] := by
  decide

theorem shared_bothRead :
    (run (Calls.step (resume plainConfig))
      (start [twoCodes] (presented (.verifyBackupCode 1 "bbbbbbbbbb"))) (bothRead 2)).shared =
      ⟨[{ twoCodes with totpBackupCodes := .codes ["aaaaaaaaaa"] }],
        [(1, "aaaaaaaaaa"), (1, "bbbbbbbbbb")]⟩ := by
  decide

/-- Two calls that overlap both accept one code; and when their codes differ, the first code is
back on the list although it was accepted. -/
theorem backup_code_used_twice :
    ¬Always (Calls.step (resume plainConfig)) (fun s ↦ SingleUse s.shared)
        (start [twoCodes] (presented (.disable 1 "aaaaaaaaaa"))) (bothRead 5) ∧
      ¬Always (Calls.step (resume plainConfig)) (fun s ↦ SingleUse s.shared)
        (start [twoCodes] (presented (.verifyBackupCode 1 "bbbbbbbbbb"))) (bothRead 2) := by
  constructor
  · intro h
    have honce := (h.last 1 "aaaaaaaaaa").1
    rw [accepted_bothRead] at honce
    exact absurd honce (by decide)
  · intro h
    have hgone := (h.last 1 "aaaaaaaaaa").2
    rw [shared_bothRead] at hgone
    have hmem : "aaaaaaaaaa" ∉ ["aaaaaaaaaa"] :=
      hgone List.mem_cons_self _ List.mem_cons_self rfl _ rfl
    exact hmem List.mem_cons_self

end Examples

end StellarDonations.BackupCodes
