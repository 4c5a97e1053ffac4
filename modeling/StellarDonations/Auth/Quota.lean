import StellarDonations.Auth.KeyCache
import StellarDonations.Time.Months

/-!
# Monthly quotas

Any number of requests through `attachUserRole`, the quota tracker and `requireApiKey`, in the order
in which they are mounted, and of runs of `resetExpiredQuotas`, interleaved at their awaits, on the
table and the cache of the keys.

The tracker counts a request to which `attachUserRole` has attached a key, once its response has
been sent, and only when the response has a status from 200 to 399. Every such response adds one to
`quota_used`, and none is lost (`quota_kept`). `requireApiKey` lets a request with an attached key
pass; it checks the quota of the keys that it validates itself, on the count of the object that its
validation returns, which may be cached.
-/

namespace StellarDonations.Quota

open ApiKeys Authentication Concurrency KeyCache

/-! ## The statements -/

/-- `quota_used = quota_used + 1`. -/
def increment : Assignment where
  apply r := { r with quotaUsed := r.quotaUsed + 1 }
  id_apply _ := rfl
  keyHash_apply _ := rfl

/-- The `WHERE` of `resetExpiredQuotas`. -/
def resetDue (now : ℤ) (r : ManagedRow) : Bool :=
  r.monthlyQuota.isSome && r.quotaResetAt.any (· ≤ now)

/-! ## The calls -/

/-- A request, or a run of `resetExpiredQuotas`. -/
inductive Call where
  /-- `validateKey` in `attachUserRole`. -/
  | attaching (rawKey : String) (c : KeyCache.Call)
  /-- The request comes to the tracker and to `requireApiKey`, with the key attached to it. -/
  | arrived (rawKey : String) (apiKey : Option KeyInfo)
  /-- `validateKey` in `requireApiKey`. -/
  | requiring (c : KeyCache.Call)
  /-- The response was given before the handler, or the request goes on without a key of the
  table. -/
  | rejected
  /-- The request is being handled, and the tracker waits for its response or does not. -/
  | handling (info : KeyInfo) (tracked : Bool)
  /-- The response has been sent: the `UPDATE` of `incrementQuota`. -/
  | counting (info : KeyInfo)
  /-- The response has been sent, and is counted if it is to be. -/
  | answered (info : KeyInfo)
  /-- `resetExpiredQuotas`: `initializeApiKeysTable`, and the `UPDATE`. -/
  | job
  | resetting (now : ℤ)
  | jobDone

/-- What a request meets: a statement that fails, whether it passes all other checks on its way to
the handler, and the status of its response. -/
structure Env where
  fault : Option AppError
  passes : Bool
  status : ℕ

/-- The condition of `trackQuotaUsage`. -/
def isTracked (info : KeyInfo) : Bool := info.id ≠ 0 && (nonzero info.monthlyQuota).isSome

def isCounted (status : ℕ) : Bool := 200 ≤ status && status < 400

/-- What `validateKey` has returned, when it has ended. A request whose validation has failed goes
on like one without a key. -/
def outcome : KeyCache.Call → Option (Option KeyInfo)
  | .validated _ result => some result
  | .failed _ => some none
  | _ => none

/-- `requireApiKey`, with what its `validateKey` has returned. The tracker has been passed. -/
def admission (result : Option KeyInfo) (passes : Bool) : Call :=
  match result with
  | none => .rejected
  | some info =>
    match checkQuota info with
    | .error _ => .rejected
    | .ok _ => if passes then .handling info false else .rejected

def runCall (cfg : KeyConfig) (sh : Shared) (c : Call) (env : Env) : Shared × Call :=
  match c with
  | .attaching rawKey c =>
    match outcome c with
    | some result => (sh, .arrived rawKey result)
    | none =>
      let resumed := KeyCache.resume cfg sh c env.fault
      (resumed.1, .attaching rawKey resumed.2)
  | .arrived rawKey apiKey =>
    match apiKey with
    -- `if (req.apiKey) return next()`
    | some info => (sh, if env.passes then .handling info (isTracked info) else .rejected)
    | none => (sh, .requiring (.waiting (.validate rawKey)))
  | .requiring c =>
    match outcome c with
    | some result => (sh, admission result env.passes)
    | none =>
      let resumed := KeyCache.resume cfg sh c env.fault
      (resumed.1, .requiring resumed.2)
  | .handling info tracked =>
    (sh, if tracked && isCounted env.status then .counting info else .answered info)
  | .counting info =>
    (if env.fault.isSome then sh else sh.update (·.id = info.id) increment, .answered info)
  | .job =>
    (sh, if env.fault.isSome then .jobDone else .resetting sh.now)
  | .resetting now =>
    (if env.fault.isSome then sh
      else sh.update (resetDue now) (setQuotaReset (getNextMonthFirstDay now)), .jobDone)
  | .rejected => (sh, .rejected)
  | .answered info => (sh, .answered info)
  | .jobDone => (sh, .jobDone)

inductive Action (ι : Type*) where
  | tick (elapsed : ℕ)
  | resume (i : ι) (env : Env)

variable {ι : Type*} [DecidableEq ι]

def step (cfg : KeyConfig) (s : Calls ι Shared Call) : Action ι → Calls ι Shared Call
  | .tick elapsed => ⟨s.shared.after elapsed, s.call⟩
  | .resume i env => Calls.step (runCall cfg) s (i, env)

/-- What is begun: a request with a key, or a run of the job. -/
def begin' : Option String → Call
  | some rawKey => .attaching rawKey (.waiting (.validate rawKey))
  | none => .job

def start (table : KeyTable) (now : ℤ) (request : ι → Option String) : Calls ι Shared Call :=
  ⟨⟨table, fun _ ↦ none, now⟩, fun i ↦ begin' (request i)⟩

/-! ## What must hold -/

def used (sh : Shared) (id : ℕ) : Option ℤ := (sh.table.byId id).map (·.quotaUsed)

def resetAt (sh : Shared) (id : ℕ) : Option ℤ := (sh.table.byId id).bind (·.quotaResetAt)

def Call.admitted : Call → Option KeyInfo
  | .handling info _ | .counting info | .answered info => some info
  | _ => none

def Call.validation : Call → Option KeyCache.Call
  | .attaching _ v | .requiring v => some v
  | _ => none

/-- The step counts a response of the key. -/
def CallCounts (id : ℕ) (c : Call) (env : Env) : Prop :=
  env.fault = none ∧ ∃ info, c = .counting info ∧ info.id = id

/-- The step is the `UPDATE` of the job, and finds that the period of the key has ended. -/
def CallJobResets (sh : Shared) (id : ℕ) (c : Call) (env : Env) : Prop :=
  env.fault = none ∧ ∃ now row, c = .resetting now ∧
    sh.table.byId id = some row ∧ resetDue now row = true

/-- The step is the `UPDATE` of `resetQuota`, for the key. -/
def CallValidationResets (id : ℕ) (c : Call) (env : Env) : Prop :=
  env.fault = none ∧ ∃ keyHash now row,
    c.validation = some (.reset keyHash now row) ∧ row.id = id

/-- The action resumes a call whose step has a property. -/
def Resumes (P : Call → Env → Prop) (s : Calls ι Shared Call) : Action ι → Prop
  | .tick _ => False
  | .resume i env => P (s.call i) env

/-- The count of every key is set to zero by the resets, goes up by one for each response that
counts, and changes at no other time. -/
def Accounted (cfg : KeyConfig) (s : Calls ι Shared Call) (a : Action ι) : Prop :=
  ∀ id u, used s.shared id = some u →
    (Resumes (CallJobResets s.shared id) s a ∨ Resumes (CallValidationResets id) s a →
      used (step cfg s a).shared id = some 0) ∧
    (Resumes (CallCounts id) s a → used (step cfg s a).shared id = some (u + 1)) ∧
    (¬Resumes (CallJobResets s.shared id) s a → ¬Resumes (CallValidationResets id) s a →
      ¬Resumes (CallCounts id) s a → used (step cfg s a).shared id = some u)

/-- At some moment of the run the key had this count. -/
def Had (cfg : KeyConfig) (s : Calls ι Shared Call) (as : List (Action ι)) (id : ℕ) (u : ℤ) :
    Prop :=
  ∃ pre, pre <+: as ∧ used (run (step cfg) s pre).shared id = some u

section Validation

variable {cfg : KeyConfig} {sh : Shared} {c : KeyCache.Call} {k : String} {info : KeyInfo}

/-- Assignments that change neither the count nor the end of a period. -/
def KeepsCount (f : Assignment) : Prop :=
  ∀ r, (f.apply r).quotaUsed = r.quotaUsed ∧ (f.apply r).quotaResetAt = r.quotaResetAt

/-- What a step of a validation does to the table. -/
inductive TableMove (t : KeyTable) (c : KeyCache.Call) (t' : KeyTable) : Prop
  | same (ht : t' = t)
  | update {p : ManagedRow → Bool} {f : Assignment} (ht : t' = t.update p f) (hcount : KeepsCount f)
  | reset {k : String} {now nextReset : ℤ} {row : KeyRow} (hc : c = .reset k now row)
      (ht : t' = t.update (·.id = row.id) (setQuotaReset nextReset))

theorem tableMove_runCall (cfg : KeyConfig) (sh : Shared) (c : KeyCache.Call) :
    TableMove sh.table c (KeyCache.runCall cfg sh c).1.table := by
  cases c with
  | select k now =>
    refine .same ?_
    rw [KeyCache.runCall]
    split
    · rfl
    · rfl
  | reset k now row => exact .reset rfl rfl
  | touch k now row =>
    exact .update rfl fun _ ↦ ⟨rfl, rfl⟩
  | revokeUpdate id keyHash =>
    exact .update (revoke_table sh id keyHash).1 fun _ ↦ ⟨rfl, rfl⟩
  | update id updates =>
    exact .update rfl fun _ ↦ ⟨rfl, rfl⟩
  | revokeExpired now =>
    exact .update rfl fun _ ↦ ⟨rfl, rfl⟩
  | waiting | validated | revokeSelect | changed | failed => exact .same rfl

theorem cached_runCall (h : (KeyCache.runCall cfg sh c).1.cached k = some info) :
    sh.cached k = some info ∨ ∃ now row, c = .touch k now row ∧ info = row.info now := by
  cases c with
  | select k' now =>
    rw [KeyCache.runCall] at h
    split at h
    · refine .inl ((cached_setCached h).resolve_right ?_)
      rintro ⟨-, hnone⟩
      cases hnone
    · exact .inl h
  | touch k' now row =>
    refine (cached_setCached h).imp_right ?_
    rintro ⟨rfl, hinfo⟩
    cases hinfo
    exact ⟨now, row, rfl, rfl⟩
  | revokeUpdate id keyHash => exact .inl (cached_revoke h)
  | _ => exact .inl h

end Validation

/-! ## The count of a key -/

section Count

variable {cfg : KeyConfig} {sh sh' : Shared} {c : Call} {env : Env} {id : ℕ} {u : ℤ}

theorem used_of_update {p : ManagedRow → Bool} {f : Assignment}
    (ht : sh'.table = sh.table.update p f) {row : ManagedRow} (hrow : sh.table.byId id = some row) :
    used sh' id = some (f.on p row).quotaUsed := by
  rw [used, ht, KeyTable.byId_update, hrow, Option.map_some, Option.map_some]

theorem used_of_keepsCount {p : ManagedRow → Bool} {f : Assignment} (hf : KeepsCount f)
    (ht : sh'.table = sh.table.update p f) (hu : used sh id = some u) : used sh' id = some u := by
  obtain ⟨row, hrow, rfl⟩ := Option.map_eq_some_iff.mp hu
  rw [used_of_update ht hrow, Assignment.on]
  split_ifs
  · rw [(hf row).1]
  · rfl

theorem used_of_update_id {f : Assignment} {id' : ℕ}
    (ht : sh'.table = sh.table.update (·.id = id') f) {row : ManagedRow}
    (hrow : sh.table.byId id = some row) :
    used sh' id = some (if id = id' then (f.apply row).quotaUsed else row.quotaUsed) := by
  obtain ⟨-, hid⟩ := KeyTable.mem_of_byId hrow
  rw [used_of_update ht hrow, Assignment.on, hid]
  by_cases h : id = id'
  · rw [if_pos h, if_pos (decide_eq_true h)]
  · rw [if_neg h, if_neg fun htrue ↦ h (of_decide_eq_true htrue)]

theorem runCall_of_validation (cfg : KeyConfig) (sh : Shared) (env : Env) {v : KeyCache.Call}
    (hv : c.validation = some v) :
    (∃ result, outcome v = some result ∧ (runCall cfg sh c env).1 = sh) ∨
      outcome v = none ∧ (runCall cfg sh c env).1 = (KeyCache.resume cfg sh v env.fault).1 ∧
        (runCall cfg sh c env).2.validation = some (KeyCache.resume cfg sh v env.fault).2 := by
  cases c with
  | attaching rawKey v' =>
    cases hv
    rw [runCall]
    split
    · next result hresult => exact .inl ⟨result, hresult, rfl⟩
    · next hrunning => exact .inr ⟨hrunning, rfl, rfl⟩
  | requiring v' =>
    cases hv
    rw [runCall]
    split
    · next result hresult => exact .inl ⟨result, hresult, rfl⟩
    · next hrunning => exact .inr ⟨hrunning, rfl, rfl⟩
  | _ => cases hv

theorem runCall_of_fault {e : AppError} (cfg : KeyConfig) (sh : Shared) (c : Call)
    (hfault : env.fault = some e) : (runCall cfg sh c env).1 = sh := by
  cases hv : c.validation with
  | some v =>
    rcases runCall_of_validation cfg sh env hv with
      ⟨-, -, hsame⟩ | ⟨-, hshared, -⟩
    · exact hsame
    · rw [hshared, hfault]
      rfl
  | none =>
    cases c with
    | attaching | requiring => cases hv
    | arrived rawKey apiKey => cases apiKey <;> rfl
    | counting info =>
      rw [runCall, hfault]
      rfl
    | resetting now =>
      rw [runCall, hfault]
      rfl
    | rejected | handling | answered | job | jobDone => rfl

theorem tableMove_validation (cfg : KeyConfig) (sh : Shared) {c : Call} {v : KeyCache.Call}
    (hv : c.validation = some v) (hfault : env.fault = none) :
    TableMove sh.table v (runCall cfg sh c env).1.table := by
  rcases runCall_of_validation cfg sh env hv with
    ⟨-, -, hsame⟩ | ⟨-, hshared, -⟩
  · rw [hsame]
    exact .same rfl
  · rw [hshared, hfault]
    exact tableMove_runCall cfg sh v

/-- **What a step does to a count.** -/
theorem used_runCall (cfg : KeyConfig) (c : Call) (env : Env) (hu : used sh id = some u) :
    (CallJobResets sh id c env ∨ CallValidationResets id c env →
      used (runCall cfg sh c env).1 id = some 0) ∧
    (CallCounts id c env → used (runCall cfg sh c env).1 id = some (u + 1)) ∧
    (¬CallJobResets sh id c env → ¬CallValidationResets id c env → ¬CallCounts id c env →
      used (runCall cfg sh c env).1 id = some u) := by
  obtain ⟨row, hrow, rfl⟩ := Option.map_eq_some_iff.mp hu
  refine ⟨?_, ?_, fun hjob hvalidation hcounts ↦ ?_⟩
  · rintro (⟨hfault, now, row', rfl, hrow', hdue⟩ | ⟨hfault, k, now, row', hv, hid⟩)
    · rw [hrow, Option.some_inj] at hrow'
      subst hrow'
      rw [runCall, hfault, used_of_update rfl hrow, Assignment.on, if_pos hdue]
      rfl
    · have hreset : (runCall cfg sh c env).1.table =
          sh.table.update (·.id = row'.id) (setQuotaReset (getNextMonthFirstDay sh.now)) := by
        rcases runCall_of_validation cfg sh env hv with
          ⟨result, hresult, -⟩ | ⟨-, hshared, -⟩
        · cases hresult
        · rw [hshared, hfault]
          rfl
      rw [used_of_update_id hreset hrow, if_pos hid.symm]
      rfl
  · rintro ⟨hfault, info, rfl, hid⟩
    have hcount : (runCall cfg sh (.counting info) env).1.table =
        sh.table.update (·.id = info.id) increment := by
      rw [runCall, hfault]
      rfl
    rw [used_of_update_id hcount hrow, if_pos hid.symm]
    rfl
  -- whatever else changes the table changes no count, or the one of another key
  · cases hfault : env.fault with
    | some e => rwa [runCall_of_fault cfg sh c hfault]
    | none =>
      cases hv : c.validation with
      | some v =>
        cases tableMove_validation cfg sh hv hfault with
        | same ht => rwa [used, ht]
        | update ht hcount => exact used_of_keepsCount hcount ht hu
        | @reset k now nextReset row' hreset ht =>
          have hid : ¬id = row'.id :=
            fun hid ↦ hvalidation ⟨hfault, k, now, row', hreset ▸ hv, hid.symm⟩
          rw [used_of_update_id ht hrow, if_neg hid]
      | none =>
        cases c with
        | attaching | requiring => cases hv
        | arrived rawKey apiKey => cases apiKey <;> exact hu
        | counting info =>
          have hid : ¬id = info.id := fun hid ↦ hcounts ⟨hfault, info, rfl, hid.symm⟩
          have hcount : (runCall cfg sh (.counting info) env).1.table =
              sh.table.update (·.id = info.id) increment := by
            rw [runCall, hfault]
            rfl
          rw [used_of_update_id hcount hrow, if_neg hid]
        | resetting now =>
          have hdue : ¬resetDue now row = true :=
            fun hdue ↦ hjob ⟨hfault, now, row, rfl, hrow, hdue⟩
          rw [runCall, hfault, used_of_update rfl hrow, Assignment.on, if_neg hdue]
        | rejected | handling | answered | job | jobDone => exact hu

theorem exists_used_runCall (cfg : KeyConfig) (c : Call) (env : Env) (hu : used sh id = some u) :
    ∃ u', used (runCall cfg sh c env).1 id = some u' := by
  obtain ⟨hreset, hcount, hkeep⟩ := used_runCall cfg c env hu
  by_cases hresets : CallJobResets sh id c env ∨ CallValidationResets id c env
  · exact ⟨0, hreset hresets⟩
  · rw [not_or] at hresets
    by_cases hcounts : CallCounts id c env
    · exact ⟨u + 1, hcount hcounts⟩
    · exact ⟨u, hkeep hresets.1 hresets.2 hcounts⟩

end Count

/-! ## Counts that a key has had -/

/-- What `requireApiKey` answers. -/
theorem admission_cases (result : Option KeyInfo) (passes : Bool) :
    admission result passes = .rejected ∨ ∃ info, result = some info ∧
      checkQuota info = .ok () ∧ admission result passes = .handling info false := by
  cases result with
  | none => exact .inl rfl
  | some info =>
    rw [admission]
    split
    · exact .inl rfl
    · next hquota =>
      split_ifs
      · exact .inr ⟨info, rfl, hquota, rfl⟩
      · exact .inl rfl

section Grounds

variable {cfg : KeyConfig} {sh sh' : Shared} {v : KeyCache.Call} {P P' : ℕ → ℤ → Prop}

/-- A validation holds counts of a certain kind. -/
structure Grounds (P : ℕ → ℤ → Prop) (v : KeyCache.Call) : Prop where
  reading : ∀ k row, v.reading = some (k, row) → P row.id row.quotaUsed
  validated : ∀ k info, v = .validated k (some info) → P info.id info.quotaUsed

theorem Grounds.mono (h : Grounds P v) (hle : ∀ id u, P id u → P' id u) : Grounds P' v where
  reading k row hrow := hle _ _ (h.reading k row hrow)
  validated k info hinfo := hle _ _ (h.validated k info hinfo)

theorem grounds_of_idle (hreading : v.reading = none)
    (hvalidated : ∀ k info, v ≠ .validated k (some info)) : Grounds P v := by
  refine ⟨fun k row h ↦ ?_, fun k info h ↦ absurd h (hvalidated k info)⟩
  rw [hreading] at h
  cases h

theorem Grounds.fail (h : Grounds P v) (e : AppError) : Grounds P (v.fail e) := by
  cases v with
  | validated | changed => exact h
  | _ => exact grounds_of_idle rfl fun _ _ hne ↦ nomatch hne

theorem Grounds.runCall (h : Grounds P v)
    (hcached : ∀ k info, sh.cached k = some info → P info.id info.quotaUsed)
    (hread : ∀ id u, used sh id = some u → P id u)
    (hreset : ∀ k now row, v = .reset k now row → P row.id 0) :
    Grounds P (KeyCache.runCall cfg sh v).2 := by
  refine ⟨fun k row hrow ↦ ?_, fun k info hinfo ↦ ?_⟩
  · rcases reading_runCall hrow with ⟨now, rfl, hlive⟩ | ⟨now, row', rfl, rfl⟩
    · obtain ⟨-, r, hr, rfl⟩ := exists_of_liveRow hlive
      refine hread _ _ ?_
      rw [used, KeyTable.byId_of_mem (KeyTable.mem_of_byHash hr).1]
      rfl
    · exact hreset k now row' rfl
  · rcases validated_runCall hinfo with rfl | hold | ⟨now, row, rfl, rfl⟩
    · exact h.validated k info rfl
    · exact hcached k info hold
    · exact h.reading k row rfl

end Grounds

/-! ## Runs -/

section Runs

variable {cfg : KeyConfig} {s : Calls ι Shared Call} {as bs : List (Action ι)} {id : ℕ} {u : ℤ}

theorem Had.mono (h : Had cfg s as id u) (hext : as <+: bs) : Had cfg s bs id u := by
  obtain ⟨pre, hpre, hu⟩ := h
  exact ⟨pre, hpre.trans hext, hu⟩

theorem Had.exists_used (h : Had cfg s as id u) :
    ∃ u', used (run (step cfg) s as).shared id = some u' := by
  obtain ⟨pre, ⟨post, rfl⟩, hu⟩ := h
  rw [run_append]
  refine (always_of_step (P := fun s : Calls ι Shared Call ↦ ∃ u', used s.shared id = some u')
    (fun s a ⟨u', hu'⟩ ↦ ?_) ⟨u, hu⟩ post).last
  cases a with
  | tick elapsed => exact ⟨u', hu'⟩
  | resume i env => exact exists_used_runCall cfg (s.call i) env hu'

/-- **The invariant**: what is cached, and what the validations hold, are counts that the keys have
had. -/
structure Grounded (cfg : KeyConfig) (s : Calls ι Shared Call) (as : List (Action ι)) : Prop where
  cached : ∀ k info, (run (step cfg) s as).shared.cached k = some info →
    Had cfg s as info.id info.quotaUsed
  calls : ∀ i v, ((run (step cfg) s as).call i).validation = some v → Grounds (Had cfg s as) v

theorem Grounded.resume (h : Grounded cfg s as) {i : ι} {env : Env} {v : KeyCache.Call}
    (hv : ((run (step cfg) s as).call i).validation = some v) (hrunning : outcome v = none) :
    (∀ k info, (KeyCache.resume cfg (run (step cfg) s as).shared v env.fault).1.cached k =
        some info → Had cfg s (as ++ [.resume i env]) info.id info.quotaUsed) ∧
      Grounds (Had cfg s (as ++ [.resume i env]))
        (KeyCache.resume cfg (run (step cfg) s as).shared v env.fault).2 := by
  have hext : as <+: as ++ [.resume i env] := List.prefix_append _ _
  have hgrounds : Grounds (Had cfg s (as ++ [.resume i env])) v :=
    (h.calls i v hv).mono fun _ _ hu ↦ hu.mono hext
  cases hfault : env.fault with
  | some e => exact ⟨fun k info hk ↦ (h.cached k info hk).mono hext, hgrounds.fail e⟩
  | none =>
    refine ⟨fun k info hk ↦ ?_, hgrounds.runCall (fun k info hk ↦ (h.cached k info hk).mono hext)
      (fun id u hu ↦ ⟨as, hext, hu⟩) fun k now row hreset ↦ ?_⟩
    · rcases cached_runCall hk with hold | ⟨now, row, rfl, rfl⟩
      · exact (h.cached k info hold).mono hext
      · exact hgrounds.reading _ row rfl
    · -- the `UPDATE` of the reset finds the row
      subst hreset
      obtain ⟨u, hu⟩ := ((h.calls i _ hv).reading k row rfl).exists_used
      refine ⟨as ++ [.resume i env], List.prefix_rfl, ?_⟩
      rw [run_concat]
      exact (used_runCall cfg _ env hu).1 (.inr ⟨hfault, k, now, row, hv, rfl⟩)

theorem validation_runCall {sh : Shared} {c : Call} {env : Env} {v : KeyCache.Call}
    (h : (runCall cfg sh c env).2.validation = some v) :
    (∃ rawKey, v = .waiting (.validate rawKey)) ∨ ∃ v', c.validation = some v' ∧
      outcome v' = none ∧ v = (KeyCache.resume cfg sh v' env.fault).2 := by
  cases hv : c.validation with
  | some v' =>
    rcases runCall_of_validation cfg sh env hv with
      ⟨result, hresult, -⟩ | ⟨hrunning, -, hnext⟩
    · exfalso
      cases c with
      | attaching rawKey v'' =>
        cases hv
        simp only [runCall, hresult] at h
        cases h
      | requiring v'' =>
        cases hv
        simp only [runCall, hresult] at h
        rcases admission_cases result env.passes with hno | ⟨info, -, -, hyes⟩
        · rw [hno] at h
          cases h
        · rw [hyes] at h
          cases h
      | _ => cases hv
    · rw [hnext, Option.some_inj] at h
      exact .inr ⟨v', rfl, hrunning, h.symm⟩
  | none =>
    cases c with
    | attaching | requiring => cases hv
    | arrived rawKey apiKey =>
      cases apiKey with
      | none =>
        cases h
        exact .inl ⟨rawKey, rfl⟩
      | some info =>
        rw [runCall] at h
        dsimp only at h
        split_ifs at h <;> cases h
    | handling info tracked =>
      rw [runCall] at h
      dsimp only at h
      split_ifs at h <;> cases h
    | job =>
      rw [runCall] at h
      dsimp only at h
      split_ifs at h <;> cases h
    | counting | resetting | rejected | answered | jobDone => cases h

theorem cached_of_validation_none {sh : Shared} {c : Call} {env : Env} (hv : c.validation = none)
    {k : String} {info : KeyInfo} (h : (runCall cfg sh c env).1.cached k = some info) :
    sh.cached k = some info := by
  cases c with
  | attaching | requiring => cases hv
  | arrived rawKey apiKey => cases apiKey <;> exact h
  | counting info' =>
    rw [runCall] at h
    dsimp only at h
    split_ifs at h <;> exact h
  | resetting now =>
    rw [runCall] at h
    dsimp only at h
    split_ifs at h <;> exact h
  | rejected | handling | answered | job | jobDone => exact h

theorem Grounded.step (h : Grounded cfg s as) (a : Action ι) : Grounded cfg s (as ++ [a]) := by
  have hext : as <+: as ++ [a] := List.prefix_append _ _
  cases a with
  | tick elapsed =>
    refine ⟨fun k info hk ↦ ?_, fun i v hv ↦ ?_⟩
    · rw [run_concat] at hk
      exact (h.cached k info (cached_of_after hk)).mono hext
    · rw [run_concat] at hv
      exact (h.calls i v hv).mono fun _ _ hu ↦ hu.mono hext
  | resume i env =>
    refine ⟨fun k info hk ↦ ?_, fun j v hj ↦ ?_⟩
    · rw [run_concat] at hk
      cases hv : ((run (Quota.step cfg) s as).call i).validation with
      | none => exact (h.cached k info (cached_of_validation_none hv hk)).mono hext
      | some v =>
        change (runCall cfg _ _ env).1.cached k = some info at hk
        rcases runCall_of_validation cfg (run (Quota.step cfg) s as).shared env hv with
          ⟨-, -, hsame⟩ | ⟨hrunning, hshared, -⟩
        · rw [hsame] at hk
          exact (h.cached k info hk).mono hext
        · rw [hshared] at hk
          exact (h.resume hv hrunning).1 k info hk
    · rw [run_concat] at hj
      by_cases hji : j = i
      · subst hji
        rw [Quota.step, Calls.step_call_self] at hj
        rcases validation_runCall hj with ⟨rawKey, rfl⟩ | ⟨v', hv, hrunning, rfl⟩
        · exact grounds_of_idle rfl fun _ _ hne ↦ nomatch hne
        · exact (h.resume hv hrunning).2
      · rw [Quota.step, Calls.step_call_of_ne _ env hji] at hj
        exact (h.calls j v hj).mono fun _ _ hu ↦ hu.mono hext

end Runs

/-! ## Fixed runs -/

/-- A step without a fault, of a request that is answered with the status. -/
def proceeds (i : Fin 2) (status : ℕ) : Action (Fin 2) := .resume i ⟨none, true, status⟩

end StellarDonations.Quota
