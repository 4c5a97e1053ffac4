import StellarDonations.Idempotency.Middleware

/-!
# Replayed responses

What later requests with a key are answered, one request after the other. `conditionalIdempotency`
makes no reservation, and `storeIdempotencyResponse` only updates records that exist: behind it a
response is stored when the table happens to hold a record of the key. And a record answers every
request with its key, whatever the body: the hash that was stored with it is never compared.
-/

namespace StellarDonations.Idempotency

open Concurrency Json

universe u v

variable {ν : Type u} {ρ : Type v} {g : Guard} {h : Hashing ν}

/-! ## One request after the other -/

structure Visit (ν : Type u) (ρ : Type v) where
  req : Request ν
  /-- The time of the visit. -/
  now : ℕ
  response : ρ
  userId : Option ℕ

/-- All statements succeed, and so does the handler. -/
def Visit.env (v : Visit ν ρ) : Env ρ := ⟨0, none, .ok v.response, v.userId⟩

/-- A call that is not disturbed, after some steps. -/
def Visit.after (g : Guard) (h : Hashing ν) (rows : List (Row ρ)) (v : Visit ν ρ) (n : ℕ) :
    Shared ρ × Call ν ρ :=
  run (fun s env ↦ resume g h s.1 s.2 env) (⟨rows, v.now⟩, { req := v.req })
    (List.replicate n v.env)

/-- The table after a visit, and how it was answered. Behind `requireIdempotency` a call takes at
most nine steps. -/
def serve (g : Guard) (h : Hashing ν) (rows : List (Row ρ)) (v : Visit ν ρ) :
    List (Row ρ) × Point ρ :=
  let s := v.after g h rows 9
  (s.1.rows, s.2.point)

def tableAfter (g : Guard) (h : Hashing ν) (rows : List (Row ρ)) (vs : List (Visit ν ρ)) :
    List (Row ρ) :=
  vs.foldl (fun rows v ↦ (serve g h rows v).1) rows

def AnsweredWith (response : ρ) (p : Point ρ) : Prop :=
  ∃ cached, p = .replayed cached ∧ cached.response = response

theorem run_answered {sh : Shared ρ} {c : Call ν ρ} (v : Visit ν ρ)
    (hc : c.point.phase = .answered ∨ c.point.phase = .closed) (n : ℕ) :
    run (fun (s : Shared ρ × Call ν ρ) env ↦ resume g h s.1 s.2 env) (sh, c)
      (List.replicate n v.env) = (sh, c) := by
  induction n with
  | zero => rfl
  | succ n ih =>
    have hresume : resume g h sh c v.env = (sh, c) := by
      obtain ⟨rows, now⟩ := sh
      obtain ⟨req, point, reservedUntil, won, enteredAt, stored⟩ := c
      cases point with
      | replayed | conflict | failed | done => rfl
      | _ => rcases hc with hc | hc <;> cases hc
    rw [List.replicate_succ, run_cons, hresume, ih]

theorem serve_of_begin {v : Visit ν ρ} (hbegin : begin (ρ := ρ) g v.req = .get)
    (rows : List (Row ρ)) :
    serve g h rows v =
      let s := run (fun (s : Shared ρ × Call ν ρ) env ↦ resume g h s.1 s.2 env)
        (resume g h ⟨rows, v.now⟩ { req := v.req, point := .get } v.env) (List.replicate 7 v.env)
      (s.1.rows, s.2.point) := by
  have harrive : resume g h ⟨rows, v.now⟩ { req := v.req } v.env =
      (⟨rows, v.now⟩, { req := v.req, point := .get }) := by
    simp only [resume, hbegin]
    rfl
  rw [serve, Visit.after, List.replicate_succ, run_cons, harrive, List.replicate_succ, run_cons]

theorem serve_of_get {v : Visit ν ρ} (hbegin : begin (ρ := ρ) g v.req = .get)
    {rows : List (Row ρ)} {cached : Cached ρ}
    (hget : get rows v.req.key v.req.apiKeyId v.now = .ok (some cached)) :
    serve g h rows v = (rows, .replayed cached) := by
  have hresume : resume g h ⟨rows, v.now⟩ { req := v.req, point := .get } v.env =
      (⟨rows, v.now⟩, { req := v.req, point := .replayed cached }) := by
    simp only [resume, Visit.env, Nat.add_zero, hget]
  rw [serve_of_begin hbegin, hresume]
  dsimp only
  rw [run_answered v (.inl rfl)]

theorem serve_of_error {v : Visit ν ρ} (hbegin : begin (ρ := ρ) g v.req = .get)
    {rows : List (Row ρ)} {e : AppError}
    (hget : get rows v.req.key v.req.apiKeyId v.now = .error e) :
    serve g h rows v = (rows, .failed e) := by
  have hresume : resume g h ⟨rows, v.now⟩ { req := v.req, point := .get } v.env =
      (⟨rows, v.now⟩, { req := v.req, point := .failed e }) := by
    simp only [resume, Visit.env, Nat.add_zero, hget]
  rw [serve_of_begin hbegin, hresume]
  dsimp only
  rw [run_answered v (.inr rfl)]

/-! ## `conditionalIdempotency` -/

section Conditional

variable {required : Bool}

/-- What a visit behind `conditionalIdempotency` does, when its key is accepted. -/
inductive Served (h : Hashing ν) (rows : List (Row ρ)) (v : Visit ν ρ) :
    List (Row ρ) × Point ρ → Prop where
  | replay (cached : Cached ρ)
      (found : get rows v.req.key v.req.apiKeyId v.now = .ok (some cached)) :
      Served h rows v (rows, .replayed cached)
  | fail (e : AppError) : Served h rows v (rows, .failed e)
  | execute (missed : get rows v.req.key v.req.apiKeyId v.now = .ok none) :
      Served h rows v
        (complete rows v.req.key v.response v.req.apiKeyId v.userId, .done)

theorem served_of_begin {v : Visit ν ρ}
    (hbegin : begin (ρ := ρ) (.conditionalIdempotency required) v.req = .get)
    (rows : List (Row ρ)) :
    Served h rows v (serve (.conditionalIdempotency required) h rows v) := by
  have hkey : v.req.key ≠ "" := by
    intro hkey
    rw [begin, if_pos hkey] at hbegin
    split_ifs at hbegin
  cases hget : get rows v.req.key v.req.apiKeyId v.now with
  | error e =>
    rw [serve_of_error hbegin hget]
    exact .fail e
  | ok found =>
    cases found with
    | some cached =>
      rw [serve_of_get hbegin hget]
      exact .replay cached hget
    | none =>
      rw [serve_of_begin hbegin]
      cases hhash : generateRequestHash h.digest h.numbers v.req.body with
      | error e =>
        have hresume : resume (.conditionalIdempotency required) h ⟨rows, v.now⟩
            { req := v.req, point := .get } v.env =
              (⟨rows, v.now⟩, { req := v.req, point := .failed e }) := by
          simp only [resume, afterGet, Visit.env, Nat.add_zero, hget, hhash]
        rw [hresume]
        dsimp only
        rw [run_answered v (.inr rfl)]
        exact .fail e
      | ok hash =>
        have hresume : resume (.conditionalIdempotency required) h ⟨rows, v.now⟩
            { req := v.req, point := .get } v.env =
              (⟨rows, v.now⟩,
                { req := v.req, point := .handling hash none, enteredAt := some v.now }) := by
          simp only [resume, afterGet, Visit.env, Nat.add_zero, hget, hhash]
        have hhandle : resume (.conditionalIdempotency required) h ⟨rows, v.now⟩
            { req := v.req, point := .handling hash none, enteredAt := some v.now } v.env =
              (⟨rows, v.now⟩,
                { req := v.req, point := .completing v.response, enteredAt := some v.now }) := by
          simp only [resume, Visit.env, Nat.add_zero, if_neg hkey]
        rw [hresume, List.replicate_succ, run_cons, hhandle, List.replicate_succ, run_cons]
        dsimp only
        rw [run_answered v]
        · exact .execute hget
        · exact .inr rfl

/-- A request without a key goes to the handler and stores nothing. -/
theorem serve_of_keyless {v : Visit ν ρ} {hash : String}
    (hkey : v.req.key = "") (hbegin : begin (ρ := ρ) g v.req = .handling hash none)
    (rows : List (Row ρ)) : serve g h rows v = (rows, .done) := by
  have harrive : resume g h ⟨rows, v.now⟩ { req := v.req } v.env =
      (⟨rows, v.now⟩, { req := v.req, point := .handling hash none, enteredAt := some v.now }) := by
    simp only [resume, hbegin]
    rfl
  have hhandle : resume g h ⟨rows, v.now⟩
      { req := v.req, point := .handling hash none, enteredAt := some v.now } v.env =
        (⟨rows, v.now⟩, { req := v.req, point := .done, enteredAt := some v.now }) := by
    simp only [resume, Visit.env, Nat.add_zero, if_pos hkey]
  rw [serve, Visit.after, List.replicate_succ, run_cons, harrive, List.replicate_succ, run_cons,
    hhandle, run_answered v (.inr rfl)]

theorem serve_of_refused {v : Visit ν ρ} {e : AppError}
    (hbegin : begin (ρ := ρ) g v.req = .failed e) (rows : List (Row ρ)) :
    serve g h rows v = (rows, .failed e) := by
  have harrive : resume g h ⟨rows, v.now⟩ { req := v.req } v.env =
      (⟨rows, v.now⟩, { req := v.req, point := .failed e }) := by
    simp only [resume, hbegin]
    rfl
  rw [serve, Visit.after, List.replicate_succ, run_cons, harrive,
    run_answered v (.inr rfl)]

theorem begin_conditional (required : Bool) (req : Request ν) :
    begin (ρ := ρ) (.conditionalIdempotency required) req = .get ∨
      req.key = "" ∧ begin (ρ := ρ) (.conditionalIdempotency required) req = .handling "" none ∨
      ∃ e, begin (ρ := ρ) (.conditionalIdempotency required) req = .failed e := by
  simp only [begin]
  split_ifs with hkey hrequired hlong
  · exact .inr (.inr ⟨_, rfl⟩)
  · exact .inr (.inl ⟨hkey, rfl⟩)
  · exact .inr (.inr ⟨_, rfl⟩)
  · exact .inl rfl

theorem table_serve (required : Bool) (rows : List (Row ρ)) (v : Visit ν ρ) :
    (serve (.conditionalIdempotency required) h rows v).1 = rows ∨
      get rows v.req.key v.req.apiKeyId v.now = .ok none ∧
        (serve (.conditionalIdempotency required) h rows v).1 =
          complete rows v.req.key v.response v.req.apiKeyId v.userId := by
  rcases begin_conditional (ρ := ρ) required v.req with hget | ⟨hkey, hb⟩ | ⟨e, hb⟩
  · have hserved := served_of_begin (h := h) hget rows
    generalize serve (.conditionalIdempotency required) h rows v = out at hserved ⊢
    cases hserved with
    | replay => exact .inl rfl
    | fail => exact .inl rfl
    | execute hmissed => exact .inr ⟨hmissed, rfl⟩
  · rw [serve_of_keyless hkey hb]
    exact .inl rfl
  · rw [serve_of_refused hb]
    exact .inl rfl

/-- A visit that executed the handler, with a key, has stored its response in the records of its key
and API key that the table holds. -/
theorem serve_of_executed {rows : List (Row ρ)} {a : Visit ν ρ} (hkey : a.req.key ≠ "")
    (hdone : (serve (.conditionalIdempotency required) h rows a).2 = .done) :
    begin (ρ := ρ) (.conditionalIdempotency required) a.req = .get ∧
      (serve (.conditionalIdempotency required) h rows a).1 =
        complete rows a.req.key a.response a.req.apiKeyId a.userId := by
  rcases begin_conditional (ρ := ρ) required a.req with hget | ⟨hempty, -⟩ | ⟨e, hb⟩
  · refine ⟨hget, ?_⟩
    have hserved := served_of_begin (h := h) hget rows
    generalize serve (.conditionalIdempotency required) h rows a = out at hserved hdone ⊢
    cases hserved with
    | replay => cases hdone
    | fail => cases hdone
    | execute => rfl
  · exact absurd hempty hkey
  · rw [serve_of_refused hb] at hdone
    cases hdone

/-- Every record of the request that is live at a time holds the response. -/
def Holds (rows : List (Row ρ)) (req : Request ν) (response : ρ) (now : ℕ) : Prop :=
  ∀ r ∈ rows, req.owns r = true → r.unexpired now = true →
    r.status = .completed ∧ r.response = some response

/-- The table has a record of the request that is live at a time. -/
def HasRecord (rows : List (Row ρ)) (req : Request ν) (now : ℕ) : Prop :=
  ∃ r ∈ rows, req.owns r = true ∧ r.unexpired now = true

theorem holds_complete (rows : List (Row ρ)) (req : Request ν) (response : ρ) (userId : Option ℕ)
    (now : ℕ) : Holds (complete rows req.key response req.apiKeyId userId) req response now := by
  intro r hr howns _
  obtain ⟨r', -, rfl⟩ := List.mem_map.mp hr
  split_ifs at howns ⊢ with hfor
  · exact ⟨rfl, rfl⟩
  · exact absurd howns hfor

theorem hasRecord_complete {rows : List (Row ρ)} {req : Request ν} {now : ℕ} {k : String}
    {response : ρ} {a userId : Option ℕ} :
    HasRecord (complete rows k response a userId) req now ↔ HasRecord rows req now := by
  constructor
  · rintro ⟨r, hr, howns, hlive⟩
    obtain ⟨r', hr', rfl⟩ := List.mem_map.mp hr
    refine ⟨r', hr', ?_⟩
    split_ifs at howns hlive <;> exact ⟨howns, hlive⟩
  · rintro ⟨r, hr, howns, hlive⟩
    refine ⟨_, List.mem_map.mpr ⟨r, hr, rfl⟩, ?_⟩
    split_ifs <;> exact ⟨howns, hlive⟩

theorem hasRecord_serve {rows : List (Row ρ)} {req : Request ν} {now : ℕ} {v : Visit ν ρ} :
    HasRecord (serve (.conditionalIdempotency required) h rows v).1 req now ↔
      HasRecord rows req now := by
  rcases table_serve (h := h) required rows v with hsame | ⟨-, hcomplete⟩
  · rw [hsame]
  · rw [hcomplete, hasRecord_complete]

theorem hasRecord_tableAfter (required : Bool) (rows : List (Row ρ)) (req : Request ν) (now : ℕ)
    (vs : List (Visit ν ρ)) :
    HasRecord (tableAfter (.conditionalIdempotency required) h rows vs) req now ↔
      HasRecord rows req now := by
  induction vs generalizing rows with
  | nil => exact Iff.rfl
  | cons v vs ih => exact (ih _).trans hasRecord_serve

/-- As long as a record of the request is live, no later visit overwrites it. -/
theorem holds_serve {rows : List (Row ρ)} {req : Request ν} {response : ρ} {now : ℕ}
    {v : Visit ν ρ} (hle : v.now ≤ now) (hholds : Holds rows req response now) :
    Holds (serve (.conditionalIdempotency required) h rows v).1 req response now := by
  rcases table_serve (h := h) required rows v with hsame | ⟨hmissed, hcomplete⟩
  · rwa [hsame]
  rw [hcomplete]
  intro r hr howns hlive
  obtain ⟨r', hr', rfl⟩ := List.mem_map.mp hr
  split_ifs at howns hlive ⊢ with hfor
  · -- the lookup of the visit would have found the record
    obtain ⟨hstatus, -⟩ := hholds r' hr' howns hlive
    have hanswers : r'.answers v.req.key v.req.apiKeyId v.now = true := by
      rw [Row.answers, hfor, hstatus, r'.unexpired_of_le hle hlive]
      rfl
    rw [get_eq_ok_none.mp hmissed r' hr'] at hanswers
    cases hanswers
  · exact hholds r' hr' howns hlive

theorem holds_tableAfter (required : Bool) {rows : List (Row ρ)} {req : Request ν} {response : ρ}
    {now : ℕ} {vs : List (Visit ν ρ)} (hle : ∀ v ∈ vs, v.now ≤ now)
    (hholds : Holds rows req response now) :
    Holds (tableAfter (.conditionalIdempotency required) h rows vs) req response now := by
  induction vs generalizing rows with
  | nil => exact hholds
  | cons v vs ih =>
    refine ih (fun w hw ↦ hle w (List.mem_cons_of_mem v hw)) ?_
    exact holds_serve (hle v List.mem_cons_self) hholds

/-- How a request is received depends only on its key. -/
theorem Request.Alike.begin_eq {req req' : Request ν} (halike : req.Alike req') :
    begin (ρ := ρ) g req' = begin g req := by
  simp only [begin, halike.1]

theorem get_of_holds {rows : List (Row ρ)} {req : Request ν} {response : ρ} {now : ℕ}
    (hholds : Holds rows req response now) :
    (∃ cached, get rows req.key req.apiKeyId now = .ok (some cached) ∧
      cached.response = response) ∧ HasRecord rows req now ∨
    get rows req.key req.apiKeyId now = .ok none ∧ ¬HasRecord rows req now := by
  by_cases hrecord : HasRecord rows req now
  · refine .inl ⟨?_, hrecord⟩
    obtain ⟨r, hr, howns, hlive⟩ := hrecord
    obtain ⟨hstatus, -⟩ := hholds r hr howns hlive
    have hanswers : r.answers req.key req.apiKeyId now = true := by
      rw [Row.answers, ← Request.owns, howns, hstatus, hlive]
      rfl
    rw [get_eq_find]
    cases hfind : rows.find? (·.answers req.key req.apiKeyId now) with
    | none => exact absurd hanswers (List.find?_eq_none.mp hfind r hr)
    | some r' =>
      have hr' := List.find?_some hfind
      rw [Row.answers, Bool.and_eq_true, Bool.and_eq_true] at hr'
      obtain ⟨-, hresponse⟩ := hholds r' (List.mem_of_find?_eq_some hfind) hr'.1.1 hr'.2
      simp only [hresponse]
      exact ⟨_, rfl, rfl⟩
  · refine .inr ⟨get_eq_ok_none.mpr fun r hr ↦ ?_, hrecord⟩
    refine Bool.eq_false_of_not_eq_true fun hanswers ↦ hrecord ⟨r, hr, ?_⟩
    rw [Row.answers, Bool.and_eq_true, Bool.and_eq_true] at hanswers
    exact ⟨hanswers.1.1, hanswers.2⟩

/-- After a request was executed, a later one with its key and API key is answered with its response
exactly when the table held a live record of the key all along. -/
theorem answered_iff_hasRecord {rows : List (Row ρ)} {before between : List (Visit ν ρ)}
    {a b : Visit ν ρ} (hkey : a.req.key ≠ "") (halike : a.req.Alike b.req)
    (hle : ∀ v ∈ between, v.now ≤ b.now)
    (hdone : (serve (.conditionalIdempotency required) h
      (tableAfter (.conditionalIdempotency required) h rows before) a).2 = .done) :
    AnsweredWith a.response (serve (.conditionalIdempotency required) h
      (tableAfter (.conditionalIdempotency required) h rows (before ++ a :: between)) b).2 ↔
      HasRecord rows a.req b.now := by
  obtain ⟨hbegin, hcomplete⟩ := serve_of_executed hkey hdone
  have htable : tableAfter (.conditionalIdempotency required) h rows (before ++ a :: between) =
      tableAfter (.conditionalIdempotency required) h (serve (.conditionalIdempotency required) h
        (tableAfter (.conditionalIdempotency required) h rows before) a).1 between := by
    rw [tableAfter, List.foldl_append, List.foldl_cons]
    rfl
  have hholds := holds_tableAfter (h := h) required hle
    (hcomplete ▸ holds_complete _ a.req a.response a.userId b.now)
  rw [← htable] at hholds
  have hbegin' : begin (ρ := ρ) (.conditionalIdempotency required) b.req = .get := by
    rw [halike.begin_eq, hbegin]
  have hrecord := hasRecord_tableAfter (h := h) required rows a.req b.now (before ++ a :: between)
  rcases get_of_holds hholds with ⟨⟨cached, hget, hresponse⟩, hhas⟩ | ⟨hget, hnot⟩
  · rw [halike.1, halike.2] at hget
    rw [serve_of_get hbegin' hget]
    exact iff_of_true ⟨cached, rfl, hresponse⟩ (hrecord.mp hhas)
  · refine iff_of_false ?_ (mt hrecord.mpr hnot)
    rw [halike.1, halike.2] at hget
    have hserved := served_of_begin (h := h) hbegin' (tableAfter (.conditionalIdempotency required)
      h rows (before ++ a :: between))
    generalize serve _ h _ b = out at hserved ⊢
    cases hserved with
    | replay cached hfound => rw [hget] at hfound; cases hfound
    | fail => rintro ⟨_, ⟨⟩, -⟩
    | execute => rintro ⟨_, ⟨⟩, -⟩

/-- Every request after one that was executed, with the same key and API key and within its time to
live, is answered with its response. -/
def Replays (required : Bool) (h : Hashing ν) (rows : List (Row ρ))
    (vs : List (Visit ν ρ)) : Prop :=
  ∀ before a between b rest, vs = before ++ a :: (between ++ b :: rest) →
    a.req.key ≠ "" → a.req.Alike b.req → b.now / 1000 < (a.now + defaultTtl) / 1000 →
      (serve (.conditionalIdempotency required) h
        (tableAfter (.conditionalIdempotency required) h rows before) a).2 = .done →
        AnsweredWith a.response (serve (.conditionalIdempotency required) h
          (tableAfter (.conditionalIdempotency required) h rows (before ++ a :: between)) b).2

/-- **`conditionalIdempotency` replays what others have reserved.** It answers later requests from
the stored response exactly when, for each of them, the table held from the start a record of the
key that is still live. -/
theorem conditionalIdempotency_replays_iff (required : Bool) (rows : List (Row ρ))
    {vs : List (Visit ν ρ)} (hsorted : vs.Pairwise fun v w ↦ v.now ≤ w.now) :
    Replays required h rows vs ↔
      ∀ before a between b rest, vs = before ++ a :: (between ++ b :: rest) →
        a.req.key ≠ "" → a.req.Alike b.req → b.now / 1000 < (a.now + defaultTtl) / 1000 →
          (serve (.conditionalIdempotency required) h
            (tableAfter (.conditionalIdempotency required) h rows before) a).2 = .done →
            HasRecord rows a.req b.now := by
  refine forall₅_congr fun before a between b rest ↦ forall₄_congr fun hvs hkey halike _ ↦ ?_
  refine forall_congr' fun hdone ↦ answered_iff_hasRecord hkey halike (fun v hv ↦ ?_) hdone
  subst hvs
  have hafter := (List.pairwise_append.mp hsorted).2.1
  have hbetween := (List.pairwise_append.mp (List.pairwise_cons.mp hafter).2).2.2
  exact hbetween v hv b List.mem_cons_self

end Conditional

section Examples

/-- Bodies with natural numbers, and a digest that changes nothing. -/
def idHashing : Hashing ℕ := ⟨id, natText⟩

def donation (amount : ℕ) : Request ℕ where
  idempotencyKey := some "donation-key-001"
  apiKey := some 1
  body := .obj [("amount", .num amount)]

def visit (amount now : ℕ) : Visit ℕ String := ⟨donation amount, now, "created", none⟩

def reservation : Row String where
  apiKeyId := some 1
  idempotencyKey := "donation-key-001"
  requestHash := ""
  response := none
  status := .pending
  userId := none
  createdAt := 0
  expiresAt := defaultTtl

/-- On an empty table the second request is executed again. -/
theorem conditionalIdempotency_executes_again :
    ¬Replays false idHashing [] [visit 5 1000, visit 5 2000] := by
  intro h
  have hanswered := h [] (visit 5 1000) [] (visit 5 2000) [] rfl (by decide)
    (by decide) (by decide) (by decide)
  obtain ⟨cached, hpoint, -⟩ := hanswered
  have hdone : (serve (.conditionalIdempotency false) idHashing
      (tableAfter (.conditionalIdempotency false) idHashing [] [visit 5 1000])
      (visit 5 2000)).2 = .done := by decide
  cases hdone.symm.trans hpoint

/-- A reservation of the key is completed by the first request and answers the second. -/
theorem conditionalIdempotency_replays_at :
    Replays false idHashing [reservation] [visit 5 1000, visit 5 2000] := by
  refine (conditionalIdempotency_replays_iff false [reservation] (by decide)).mpr ?_
  intro before a between b rest hvs _ _ _ _
  have ha : a ∈ [visit 5 1000, visit 5 2000] := by
    rw [hvs]
    exact List.mem_append_right _ List.mem_cons_self
  have hb : b ∈ [visit 5 1000, visit 5 2000] := by
    rw [hvs]
    exact List.mem_append_right _ (List.mem_cons_of_mem _ (List.mem_append_right _
      List.mem_cons_self))
  refine ⟨reservation, List.mem_singleton.mpr rfl, ?_⟩
  simp only [List.mem_cons, List.not_mem_nil, or_false] at ha hb
  rcases ha with rfl | rfl <;> rcases hb with rfl | rfl <;> decide

end Examples

/-! ## A key with another body -/

/-- A call that has found no completed record so far, and would find none. -/
def Unanswered (now : ℕ) (s : Shared ρ × Call ν ρ) : Prop :=
  s.1.now = now ∧ (∀ cached, s.2.point ≠ .replayed cached) ∧
    (s.2.point.phase = .before → get s.1.rows s.2.req.key s.2.req.apiKeyId now = .ok none)

theorem unanswered_resume (v : Visit ν ρ) {now : ℕ} {s : Shared ρ × Call ν ρ}
    (hs : Unanswered now s) : Unanswered now (resume .requireIdempotency h s.1 s.2 v.env) := by
  obtain ⟨sh, c⟩ := s
  obtain ⟨rfl, hne, hmissed⟩ := hs
  refine ⟨resume_now _ _ _ _ _, ?_⟩
  have hmoves := moves_resume h sh c v.env
  generalize resume .requireIdempotency h sh c v.env = out at hmoves ⊢
  obtain ⟨⟨rows, time⟩, c'⟩ := out
  dsimp only at hmoves ⊢
  cases hmoves with
  | goOn p hphase hfound =>
    constructor
    · rintro cached rfl
      rcases hfound with hsame | ⟨hbefore, hget⟩
      · exact hne cached hsame.symm
      · cases (hmissed hbefore).symm.trans hget
    · intro hbefore
      rcases hphase with hsame | hclosed | ⟨-, hanswered⟩
      · exact hmissed (hsame.symm.trans hbefore)
      · cases hclosed.symm.trans hbefore
      · cases hanswered.symm.trans hbefore
  | win => exact ⟨nofun, nofun⟩
  | lose hash expiresAt hpoint => exact ⟨nofun, fun _ ↦ hmissed (by rw [hpoint]; rfl)⟩
  | fallThrough => exact ⟨nofun, nofun⟩
  | enter => exact ⟨nofun, nofun⟩
  | store => exact ⟨nofun, nofun⟩

theorem unanswered_run (v : Visit ν ρ) {now : ℕ} {s : Shared ρ × Call ν ρ} (hs : Unanswered now s)
    (n : ℕ) : Unanswered now (run
      (fun (s : Shared ρ × Call ν ρ) env ↦ resume .requireIdempotency h s.1 s.2 env) s
      (List.replicate n v.env)) := by
  induction n generalizing s with
  | zero => exact hs
  | succ n ih => exact ih (unanswered_resume v hs)

theorem begin_cases (g : Guard) (req : Request ν) :
    begin (ρ := ρ) g req = .get ∨
      req.key = "" ∧ begin (ρ := ρ) g req = .handling "" none ∨
      ∃ e, begin (ρ := ρ) g req = .failed e := by
  cases g with
  | requireIdempotency =>
    rcases begin_requireIdempotency (ρ := ρ) req with hget | hfailed
    · exact .inl hget
    · exact .inr (.inr hfailed)
  | conditionalIdempotency required => exact begin_conditional required req

/-- A visit that finds nothing is not answered from the table. -/
theorem not_answeredWith_of_missed {rows : List (Row ρ)} {v : Visit ν ρ} (response : ρ)
    (hmissed : get rows v.req.key v.req.apiKeyId v.now = .ok none) :
    ¬AnsweredWith response (serve g h rows v).2 := by
  rintro ⟨cached, hpoint, -⟩
  cases g with
  | requireIdempotency =>
    have hstart : Unanswered v.now ((⟨rows, v.now⟩, { req := v.req }) : Shared ρ × Call ν ρ) :=
      ⟨rfl, nofun, fun _ ↦ hmissed⟩
    exact (unanswered_run (h := h) v hstart 9).2.1 cached hpoint
  | conditionalIdempotency required =>
    rcases begin_conditional (ρ := ρ) required v.req with hget | ⟨hkey, hb⟩ | ⟨e, hb⟩
    · have hserved := served_of_begin (h := h) hget rows
      generalize serve _ h rows v = out at hserved hpoint
      cases hserved with
      | replay cached hfound => cases hmissed.symm.trans hfound
      | fail => cases hpoint
      | execute => cases hpoint
    · rw [serve_of_keyless hkey hb] at hpoint
      cases hpoint
    · rw [serve_of_refused hb] at hpoint
      cases hpoint

/-- Behind either middleware, once a response is stored, a request with the key and API key is
answered with it exactly when its key is accepted and a record of the key is still live. -/
theorem answeredWith_complete_iff (g : Guard) (rows : List (Row ρ)) {req : Request ν}
    {v : Visit ν ρ} (halike : req.Alike v.req) (response : ρ) (userId : Option ℕ) :
    AnsweredWith response
        (serve g h (complete rows req.key response req.apiKeyId userId) v).2 ↔
      begin (ρ := ρ) g v.req = .get ∧ HasRecord rows req v.now := by
  have hholds := holds_complete rows req response userId v.now
  rcases get_of_holds hholds with ⟨⟨cached, hget, hresponse⟩, hhas⟩ | ⟨hget, hnot⟩
  · rw [hasRecord_complete] at hhas
    have hfound : get (complete rows req.key response req.apiKeyId userId) v.req.key
        v.req.apiKeyId v.now = .ok (some cached) := by
      rw [← halike.1, ← halike.2]
      exact hget
    rcases begin_cases (ρ := ρ) g v.req with hb | ⟨hkey, hb⟩ | ⟨e, hb⟩
    · rw [serve_of_get hb hfound]
      exact iff_of_true ⟨cached, rfl, hresponse⟩ ⟨hb, hhas⟩
    · rw [serve_of_keyless hkey hb, hb]
      exact iff_of_false (by rintro ⟨_, ⟨⟩, -⟩) nofun
    · rw [serve_of_refused hb, hb]
      exact iff_of_false (by rintro ⟨_, ⟨⟩, -⟩) nofun
  · rw [hasRecord_complete] at hnot
    refine iff_of_false (not_answeredWith_of_missed response ?_) fun h ↦ hnot h.2
    rw [← halike.1, ← halike.2]
    exact hget

/-- **A key answers for every body.** Behind either middleware the response that was stored for a
request is not given to another one with its key and API key exactly when the key is refused or no
record of it is live any more; what the bodies are does not matter. And the hash that could tell
bodies apart tells a body from all others only when it has no object below its top level. -/
theorem key_reuse_iff (hdigest : Function.Injective h.digest) (g : Guard) (rows : List (Row ρ))
    {req : Request ν} {v : Visit ν ρ} (halike : req.Alike v.req) (response : ρ) (userId : Option ℕ)
    {body : Json ν} (hbody : Distinct body) :
    (¬AnsweredWith response
        (serve g h (complete rows req.key response req.apiKeyId userId) v).2 ↔
      (begin (ρ := ρ) g v.req = .get → ¬HasRecord rows req v.now)) ∧
    ((∀ w, Distinct w →
      (generateRequestHash h.digest h.numbers body = generateRequestHash h.digest h.numbers w ↔
        Same body w)) ↔ nested body = 0) := by
  refine ⟨?_, hash_exact_iff hdigest hbody⟩
  rw [answeredWith_complete_iff g rows halike response userId, not_and]

section Examples

def nestedBody (amount : ℕ) : Json ℕ := .obj [("donation", .obj [("amount", .num amount)])]

instance (response : String) (p : Point String) : Decidable (AnsweredWith response p) :=
  match p with
  | .replayed cached => decidable_of_iff (cached.response = response)
      ⟨fun h ↦ ⟨cached, rfl, h⟩, by rintro ⟨_, ⟨⟩, h⟩; exact h⟩
  | .waiting | .get | .isPending | .reserve _ _ | .recheckPending _ | .recheckGet _
  | .findByHash _ | .handling _ _ | .completing _ | .conflict | .failed _ | .done =>
    isFalse (by rintro ⟨_, ⟨⟩, -⟩)

theorem not_same_of_text {v w : Json ℕ}
    (hne : stringify natText (sortKeys v) ≠ stringify natText (sortKeys w)) : ¬Same v w :=
  fun h ↦ hne (congrArg (stringify natText) h)

/-- A donation of 6 is answered with the response to the donation of 5 that had its key; and what is
inside a nested object does not change the hash. -/
theorem key_reuse_undetected :
    (AnsweredWith "created" (serve .requireIdempotency idHashing
        (tableAfter .requireIdempotency idHashing [] [visit 5 1000]) (visit 6 2000)).2 ∧
      ¬Same (donation 5).body (donation 6).body) ∧
    generateRequestHash id natText (nestedBody 5) = generateRequestHash id natText (nestedBody 6) ∧
      ¬Same (nestedBody 5) (nestedBody 6) := by
  refine ⟨⟨by decide, not_same_of_text (by decide)⟩, ?_,
    not_same_of_text (by decide)⟩
  have htext : stringifyKeys natText ["donation"] (nestedBody 5) =
      stringifyKeys natText ["donation"] (nestedBody 6) := by decide
  exact congrArg Except.ok htext

/-- Two days later the key is free again. -/
theorem key_reuse_iff_at :
    ¬AnsweredWith "created" (serve .requireIdempotency idHashing
        (complete [reservation] (donation 5).key "created" (donation 5).apiKeyId none)
        (visit 6 (2 * defaultTtl))).2 ∧
      ∀ w, Distinct w → (generateRequestHash id natText (donation 5).body =
        generateRequestHash id natText w ↔ Same (donation 5).body w) := by
  have hbody : Distinct (donation 5).body :=
    distinct_obj.mpr ⟨by decide, by rintro f (_ | ⟨_, ⟨⟩⟩); trivial⟩
  have halike : (donation 5).Alike (visit 6 (2 * defaultTtl)).req := ⟨rfl, rfl⟩
  obtain ⟨hreplay, hhash⟩ := key_reuse_iff (h := idHashing) Function.injective_id
    .requireIdempotency [reservation] halike "created" none hbody
  refine ⟨hreplay.mpr fun _ ↦ ?_, hhash.mpr (by decide)⟩
  rintro ⟨r, hr, -, hlive⟩
  obtain rfl := List.mem_singleton.mp hr
  exact absurd hlive (by decide)

end Examples

end StellarDonations.Idempotency
