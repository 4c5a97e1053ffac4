import StellarDonations.Concurrency.Interleaving
import StellarDonations.Idempotency.RequestHash
import StellarDonations.Idempotency.Service

/-!
# The idempotency middleware

`requireIdempotency` and `conditionalIdempotency` in front of a handler, and
`storeIdempotencyResponse` at its end, as one call for each request. A call is suspended on every
statement, and on the handler. Between two suspensions the clock of the database moves on by what
the environment says.

A call remembers how its reservation went and when it reached the handler. Nothing reads these, they
are what the properties of a run are about.
-/

namespace StellarDonations.Idempotency

open Concurrency Json JsString

universe u v

variable {ν : Type u} {ρ : Type v} {ι : Type*}

/-! ## Requests -/

/-- The middleware in front of a route. -/
inductive Guard where
  | requireIdempotency
  /-- With the value of `REQUIRE_IDEMPOTENCY_KEY`. -/
  | conditionalIdempotency (required : Bool)
  deriving DecidableEq

structure Hashing (ν : Type u) where
  digest : String → String
  numbers : NumberText ν

structure Request (ν : Type u) where
  /-- The header `idempotency-key`. -/
  idempotencyKey : Option String := none
  /-- The header `x-idempotency-key`. -/
  xIdempotencyKey : Option String := none
  /-- `req.idempotency?.key`. -/
  assignedKey : Option String := none
  /-- `req.apiKey?.id`. -/
  apiKey : Option ℕ := none
  body : Json ν

def Request.key (r : Request ν) : String :=
  orElse r.idempotencyKey (orElse r.xIdempotencyKey (r.assignedKey.getD ""))

/-- `req.apiKey?.id || null`. -/
def Request.apiKeyId (r : Request ν) : Option ℕ := r.apiKey.filter (· ≠ 0)

def Request.Alike (r r' : Request ν) : Prop := r.key = r'.key ∧ r.apiKeyId = r'.apiKeyId

instance (r r' : Request ν) : Decidable (r.Alike r') := inferInstanceAs (Decidable (_ ∧ _))

theorem Request.Alike.symm {r r' : Request ν} (h : r.Alike r') : r'.Alike r := ⟨h.1.symm, h.2.symm⟩

def Request.owns (r : Request ν) (row : Row ρ) : Bool := row.isFor r.key r.apiKeyId

/-! ## Calls -/

/-- What a call is suspended on, or how it was answered. -/
inductive Point (ρ : Type v) where
  | waiting
  | get
  | isPending
  | reserve (hash : String) (expiresAt : ℕ)
  | recheckPending (hash : String)
  | recheckGet (hash : String)
  | findByHash (hash : String)
  | handling (hash : String) (warning : Option (Duplicate ρ))
  | completing (response : ρ)
  | replayed (cached : Cached ρ)
  | conflict
  | failed (e : AppError)
  | done
  deriving DecidableEq

structure Call (ν : Type u) (ρ : Type v) where
  req : Request ν
  point : Point ρ := .waiting
  /-- The end of the time to live of its reservation, once it has tried to make one. -/
  reservedUntil : Option ℕ := none
  /-- The reservation was made. -/
  won : Bool := false
  /-- When it reached the handler. -/
  enteredAt : Option ℕ := none
  /-- The response was stored. -/
  stored : Bool := false

/-- The table and the clock of the database. -/
structure Shared (ρ : Type v) where
  rows : List (Row ρ)
  now : ℕ

structure Env (ρ : Type v) where
  /-- The time since the last step. -/
  elapsed : ℕ
  /-- The error of the statement, should it fail. -/
  dbError : Option AppError
  /-- What the handler does. -/
  handler : Except AppError ρ
  userId : Option ℕ

/-- What happens when a request arrives, up to the first statement. -/
def begin (g : Guard) (req : Request ν) : Point ρ :=
  match g with
  | .requireIdempotency =>
    if req.key = "" then
      .failed (.validationWith (.other "IDEMPOTENCY_KEY_REQUIRED")
        "Idempotency-Key header is required for this operation")
    else match validateKey req.key with
      | some message => .failed (.validationWith (.other "INVALID_IDEMPOTENCY_KEY") message)
      | none => .get
  | .conditionalIdempotency required =>
    if req.key = "" then
      if required then
        .failed (.validationWith (.other "IDEMPOTENCY_KEY_REQUIRED")
          "An Idempotency-Key header is required for donation creation")
      else .handling "" none
    else if 128 < (codeUnits req.key).length then
      .failed (.validationWith (.other "INVALID_IDEMPOTENCY_KEY")
        "Idempotency-Key must be a non-empty string of 1–128 characters")
    else .get

/-- After a lookup found nothing: the next statement, or the handler. -/
def afterGet (g : Guard) (h : Hashing ν) (c : Call ν ρ) (now : ℕ) : Call ν ρ :=
  match g with
  | .requireIdempotency => { c with point := .isPending }
  | .conditionalIdempotency _ =>
    match generateRequestHash h.digest h.numbers c.req.body with
    | .error e => { c with point := .failed e }
    | .ok hash => { c with point := .handling hash none, enteredAt := some now }

/-- Resume a call: execute the statement it is suspended on, or its handler. -/
def resume (g : Guard) (h : Hashing ν) (sh : Shared ρ) (c : Call ν ρ) (env : Env ρ) :
    Shared ρ × Call ν ρ :=
  let now := sh.now + env.elapsed
  let sh : Shared ρ := { sh with now }
  match c.point, env.dbError with
  | .waiting, _ =>
    let point := begin g c.req
    (sh, { c with
      point
      enteredAt := if point matches .handling .. then some now else c.enteredAt })
  | .get, none =>
    match get sh.rows c.req.key c.req.apiKeyId now with
    | .error e => (sh, { c with point := .failed e })
    | .ok (some existing) => (sh, { c with point := .replayed existing })
    | .ok none => (sh, afterGet g h c now)
  | .isPending, none =>
    if isPending sh.rows c.req.key c.req.apiKeyId now then (sh, { c with point := .conflict })
    else match generateRequestHash h.digest h.numbers c.req.body with
      | .error e => (sh, { c with point := .failed e })
      | .ok hash => (sh, { c with point := .reserve hash (now + defaultTtl) })
  | .reserve hash expiresAt, none =>
    match reserve sh.rows c.req.key hash c.req.apiKeyId expiresAt now with
    | (rows, true) =>
      ({ sh with rows },
        { c with point := .findByHash hash, reservedUntil := some expiresAt, won := true })
    | (_, false) => (sh, { c with point := .recheckPending hash, reservedUntil := some expiresAt })
  | .recheckPending hash, none =>
    if isPending sh.rows c.req.key c.req.apiKeyId now then (sh, { c with point := .conflict })
    else (sh, { c with point := .recheckGet hash })
  | .recheckGet hash, none =>
    match get sh.rows c.req.key c.req.apiKeyId now with
    | .error e => (sh, { c with point := .failed e })
    | .ok (some completed) => (sh, { c with point := .replayed completed })
    -- neither pending nor completed: the lost reservation is ignored
    | .ok none => (sh, { c with point := .findByHash hash })
  | .findByHash hash, none =>
    match findByHash sh.rows hash c.req.key c.req.apiKeyId now with
    | .error e => (sh, { c with point := .failed e })
    | .ok warning => (sh, { c with point := .handling hash warning, enteredAt := some now })
  | .handling _ _, _ =>
    match env.handler with
    | .error e => (sh, { c with point := .failed e })
    | .ok response =>
      -- `storeIdempotencyResponse` returns at once for a request without a key
      if c.req.key = "" then (sh, { c with point := .done })
      else (sh, { c with point := .completing response })
  | .completing response, none =>
    ({ sh with rows := complete sh.rows c.req.key response c.req.apiKeyId env.userId },
      { c with point := .done, stored := true })
  -- the error is logged
  | .completing _, some _ => (sh, { c with point := .done })
  | .replayed _, _ | .conflict, _ | .failed _, _ | .done, _ => (sh, c)
  | _, some e => (sh, { c with point := .failed e })

/-! ## Runs -/

inductive Action (ι : Type*) (ρ : Type v) where
  /-- A request goes on. -/
  | resume (i : ι) (env : Env ρ)
  /-- `cleanupExpired` runs, some time after the last step. -/
  | cleanup (elapsed : ℕ)

def step [DecidableEq ι] (g : Guard) (h : Hashing ν) (s : Calls ι (Shared ρ) (Call ν ρ)) :
    Action ι ρ → Calls ι (Shared ρ) (Call ν ρ)
  | .resume i env => Calls.step (resume g h) s (i, env)
  | .cleanup elapsed =>
    let now := s.shared.now + elapsed
    { s with shared := ⟨cleanupExpired s.shared.rows now, now⟩ }

/-- The requests before they arrive, on a table at a time. -/
def start (rows : List (Row ρ)) (now : ℕ) (req : ι → Request ν) :
    Calls ι (Shared ρ) (Call ν ρ) where
  shared := ⟨rows, now⟩
  call i := { req := req i }

/-! ## What a step does -/

inductive Phase where
  | before
  | reserved
  /-- In the handler, or storing its response. -/
  | running
  /-- Answered without a reservation. -/
  | answered
  /-- The handler has answered, or something has failed. -/
  | closed
  deriving DecidableEq

def Point.phase : Point ρ → Phase
  | .waiting | .get | .isPending | .reserve _ _ | .recheckPending _ | .recheckGet _ => .before
  | .findByHash _ => .reserved
  | .handling _ _ | .completing _ => .running
  | .replayed _ | .conflict => .answered
  | .failed _ | .done => .closed

/-- The call is about to look for a reservation. -/
def Point.looks : Point ρ → Bool
  | .isPending | .recheckPending _ => true
  | _ => false

theorem Point.phase_of_looks {p : Point ρ} (h : p.looks = true) : p.phase = .before := by
  cases p <;> first | rfl | cases h

/-- What the call must have found in the table to be answered without the handler. -/
def Call.Finds (sh : Shared ρ) (now : ℕ) (c : Call ν ρ) : Point ρ → Prop
  | .conflict => c.point.looks = true ∧ isPending sh.rows c.req.key c.req.apiKeyId now = true
  | .replayed cached =>
    c.point.phase = .before ∧ get sh.rows c.req.key c.req.apiKeyId now = .ok (some cached)
  | _ => True

/-- What a step of `requireIdempotency` does to the table and to its call. -/
inductive Moves (sh : Shared ρ) (now : ℕ) (c : Call ν ρ) : List (Row ρ) → Call ν ρ → Prop where
  /-- Nothing is written, and the handler is not reached. -/
  | goOn (p : Point ρ)
      (phase : p.phase = c.point.phase ∨ p.phase = .closed ∨
        c.point.phase = .before ∧ p.phase = .answered)
      (found : p = c.point ∨ c.Finds sh now p) :
      Moves sh now c sh.rows { c with point := p }
  | win (hash : String) (expiresAt : ℕ) (r : Row ρ) (point : c.point = .reserve hash expiresAt)
      (free : ∀ r ∈ sh.rows, c.req.apiKeyId.isSome = true → c.req.owns r = false)
      (owns : c.req.owns r = true) (pending : r.status = .pending)
      (expires : r.expiresAt = expiresAt) :
      Moves sh now c (sh.rows ++ [r])
        { c with point := .findByHash hash, reservedUntil := some expiresAt, won := true }
  | lose (hash : String) (expiresAt : ℕ) (point : c.point = .reserve hash expiresAt) :
      Moves sh now c sh.rows
        { c with point := .recheckPending hash, reservedUntil := some expiresAt }
  | fallThrough (hash : String) (point : c.point = .recheckGet hash)
      (missed : ∀ r ∈ sh.rows, r.answers c.req.key c.req.apiKeyId now = false) :
      Moves sh now c sh.rows { c with point := .findByHash hash }
  | enter (hash : String) (warning : Option (Duplicate ρ)) (point : c.point = .findByHash hash) :
      Moves sh now c sh.rows { c with point := .handling hash warning, enteredAt := some now }
  | store (response : ρ) (userId : Option ℕ) (point : c.point = .completing response) :
      Moves sh now c (complete sh.rows c.req.key response c.req.apiKeyId userId)
        { c with point := .done, stored := true }

theorem begin_requireIdempotency (req : Request ν) :
    begin (ρ := ρ) .requireIdempotency req = .get ∨
      ∃ e, begin (ρ := ρ) .requireIdempotency req = .failed e := by
  simp only [begin]
  split_ifs
  · exact .inr ⟨_, rfl⟩
  · cases validateKey req.key with
    | none => exact .inl rfl
    | some message => exact .inr ⟨_, rfl⟩

section Inversion

variable {sh : Shared ρ} {now : ℕ} {c : Call ν ρ}

theorem Moves.plain (p : Point ρ) (hne : p.phase ≠ .answered)
    (hphase : p.phase = c.point.phase ∨ p.phase = .closed) :
    Moves sh now c sh.rows { c with point := p } := by
  refine .goOn p (hphase.imp_right .inl) (.inr ?_)
  cases p with
  | replayed | conflict => exact absurd rfl hne
  | _ => trivial

theorem Moves.fail (e : AppError) : Moves sh now c sh.rows { c with point := .failed e } :=
  .plain _ nofun (.inr rfl)

theorem resume_now (g : Guard) (h : Hashing ν) (sh : Shared ρ) (c : Call ν ρ) (env : Env ρ) :
    (resume g h sh c env).1.now = sh.now + env.elapsed := by
  simp only [resume]
  repeat' split
  all_goals rfl

/-- **The inversion of a step.** -/
theorem moves_resume (h : Hashing ν) (sh : Shared ρ) (c : Call ν ρ) (env : Env ρ) :
    Moves sh (sh.now + env.elapsed) c (resume .requireIdempotency h sh c env).1.rows
      (resume .requireIdempotency h sh c env).2 := by
  obtain ⟨req, point, reservedUntil, won, enteredAt, stored⟩ := c
  obtain ⟨elapsed, dbError, handler, userId⟩ := env
  cases point with
  | waiting =>
    rcases begin_requireIdempotency (ρ := ρ) req with hb | ⟨e, hb⟩
    · simp only [resume, hb]
      exact .plain .get nofun (.inl rfl)
    · simp only [resume, hb]
      exact .fail e
  | get =>
    cases dbError with
    | some e => exact .fail e
    | none =>
      simp only [resume]
      split
      · exact .fail _
      · next hget => exact .goOn _ (.inr (.inr ⟨rfl, rfl⟩)) (.inr ⟨rfl, hget⟩)
      · exact .plain .isPending nofun (.inl rfl)
  | isPending =>
    cases dbError with
    | some e => exact .fail e
    | none =>
      simp only [resume]
      split_ifs with hpending
      · exact .goOn .conflict (.inr (.inr ⟨rfl, rfl⟩)) (.inr ⟨rfl, hpending⟩)
      · split
        · exact .fail _
        · exact .plain (.reserve _ _) nofun (.inl rfl)
  | reserve hash expiresAt =>
    cases dbError with
    | some e => exact .fail e
    | none =>
      simp only [resume]
      split
      · next rows hres =>
        obtain ⟨hfree, r, hrows, howns, hstatus, hexpires⟩ := reserve_won (congrArg Prod.snd hres)
        obtain rfl : sh.rows ++ [r] = rows := hrows.symm.trans (congrArg Prod.fst hres)
        exact .win hash expiresAt r rfl hfree howns hstatus hexpires
      · exact .lose hash expiresAt rfl
  | recheckPending hash =>
    cases dbError with
    | some e => exact .fail e
    | none =>
      simp only [resume]
      split_ifs with hpending
      · exact .goOn .conflict (.inr (.inr ⟨rfl, rfl⟩)) (.inr ⟨rfl, hpending⟩)
      · exact .plain (.recheckGet hash) nofun (.inl rfl)
  | recheckGet hash =>
    cases dbError with
    | some e => exact .fail e
    | none =>
      simp only [resume]
      split
      · exact .fail _
      · next hget => exact .goOn _ (.inr (.inr ⟨rfl, rfl⟩)) (.inr ⟨rfl, hget⟩)
      · next hget => exact .fallThrough hash rfl (get_eq_ok_none.mp hget)
  | findByHash hash =>
    cases dbError with
    | some e => exact .fail e
    | none =>
      simp only [resume]
      split
      · exact .fail _
      · exact .enter hash _ rfl
  | handling hash warning =>
    simp only [resume]
    split
    · exact .fail _
    · split_ifs
      · exact .plain .done nofun (.inr rfl)
      · exact .plain (.completing _) nofun (.inl rfl)
  | completing response =>
    cases dbError with
    | some e => exact .plain .done nofun (.inr rfl)
    | none => exact .store response userId rfl
  | replayed cached => exact .goOn _ (.inl rfl) (.inl rfl)
  | conflict => exact .goOn .conflict (.inl rfl) (.inl rfl)
  | failed e => exact .fail e
  | done => exact .plain _ nofun (.inl rfl)

end Inversion

end StellarDonations.Idempotency
