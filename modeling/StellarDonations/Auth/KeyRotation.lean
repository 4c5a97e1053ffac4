import Mathlib.Data.Set.Basic
import Mathlib.Logic.Relation
import StellarDonations.Auth.Authentication
import StellarDonations.Auth.KeyTable
import StellarDonations.Auth.Permissions
import StellarDonations.Concurrency.Interleaving

/-!
# Rotation of keys

Any number of calls of `rotateApiKey`, interleaved at their awaits. A rotation reads the row of the
old key, creates the new key with `createApiKey`, and marks the old one as deprecated.

`createApiKey` is given the role and the scopes of the old key, and none of its other restrictions:
after one rotation or more the newest key has no expiry, no quota, no allowlist, and need not sign.
And since nothing is checked when the new key is inserted, two rotations of one key leave two active
successors.
-/

namespace StellarDonations.KeyRotation

open ApiKeys Authentication Concurrency IpAllowlist JsString Permissions RequestSigning

/-! ## What a key admits -/

/-- The columns of a row that restrict its requests. -/
structure Restrictions where
  role : String
  scopes : List String
  expiresAt : Option ℤ
  monthlyQuota : Option ℤ
  allowedIps : Option (List String)
  signingRequired : Bool
  deriving DecidableEq

def restrictions (row : KeyRow) : Restrictions :=
  ⟨row.role, row.scopes, nonzero row.expiresAt, nonzero row.monthlyQuota, row.allowedIps,
    row.signingRequired⟩

/-- What the checks read of a request: the permission that its route requires, its address and its
time, whether it is signed under the secret of the key it has, and the count of the period. -/
structure Attempt where
  permission : String
  ip : Option String
  now : ℤ
  signed : Bool
  quotaUsed : ℤ

/-- The checks of `validateApiKey`, `requireApiKey` and `checkPermission`. -/
structure Admits (roles : List Role) (r : Restrictions) (a : Attempt) : Prop where
  unexpired : r.expiresAt.any (· < a.now) = false
  quota : r.monthlyQuota.any (· - a.quotaUsed ≤ 0) = false
  ip : isIpAllowed a.ip r.allowedIps = .ok true
  signed : r.signingRequired = true → a.signed = true
  permitted : checkPermission roles r.role r.scopes a.permission = true

def authority (roles : List Role) (r : Restrictions) : Set Attempt := {a | Admits roles r a}

/-! ## `createApiKey` and `rotateApiKey` -/

structure CreateOptions where
  name : String
  role : String
  expiresInDays : Option ℤ
  createdBy : Option String
  metadata : String
  gracePeriodDays : ℤ
  signingRequired : Bool
  allowedIps : Option (List String)
  notificationEmail : Option String
  monthlyQuota : Option ℤ
  scopes : List String

def CreateOptions.defaults (name : String) : CreateOptions where
  name := name
  role := "user"
  expiresInDays := none
  createdBy := none
  metadata := "{}"
  gracePeriodDays := 30
  signingRequired := false
  allowedIps := none
  notificationEmail := none
  monthlyQuota := none
  scopes := []

/-- The row that `createApiKey` inserts. -/
def createRow (dg : Digests) (o : CreateOptions) (rawKey keySecret : String) (now : ℤ) :
    ManagedRow where
  id := 0
  keyHash := dg.sha256Hex rawKey
  keyPrefix := String.ofList (rawKey.toList.take 8)
  name := o.name
  role := o.role
  status := .active
  metadata := some o.metadata
  expiresAt := (nonzero o.expiresInDays).map fun days ↦ now + days * 24 * 60 * 60 * 1000
  lastUsedAt := none
  createdAt := now
  gracePeriodDays := o.gracePeriodDays
  signingRequired := o.signingRequired
  keySecret := some keySecret
  scopes := o.scopes
  allowedIps := o.allowedIps.filter (· ≠ [])
  notificationEmail := orNull o.notificationEmail
  monthlyQuota := o.monthlyQuota
  quotaUsed := 0
  quotaResetAt := (nonzero o.monthlyQuota).map fun _ ↦ getNextMonthFirstDay now
  rateLimitPerMinute := none
  createdBy := orNull o.createdBy
  deprecatedAt := none
  revokedAt := none
  rotatedToId := none

/-- The options with which `rotateApiKey` calls `createApiKey`. -/
def rotationOptions (oldRow : KeyRow) (createdBy : Option String) (gracePeriodDays : ℤ) :
    CreateOptions :=
  { CreateOptions.defaults (oldRow.name ++ " (rotated)") with
    role := oldRow.role
    createdBy := createdBy
    metadata := orElse oldRow.metadata "{}"
    scopes := oldRow.scopes
    gracePeriodDays := gracePeriodDays
    notificationEmail := orNull oldRow.notificationEmail }

/-- The `SET` of the old key. -/
def setRotated (now : ℤ) (newKeyId : ℕ) (gracePeriodDays : ℤ) : Assignment where
  apply r :=
    { r with
      status := .deprecated
      deprecatedAt := some now
      rotatedToId := some newKeyId
      gracePeriodDays := gracePeriodDays }
  id_apply _ := rfl
  keyHash_apply _ := rfl

/-- What a call of `rotateApiKey` is suspended on, or how it ended. -/
inductive Call where
  /-- The `SELECT`. -/
  | select (oldKeyId : ℕ) (gracePeriodDays : ℤ)
  /-- The `INSERT` of `createApiKey`. -/
  | create (oldKeyId : ℕ) (gracePeriodDays : ℤ) (oldRow : ManagedRow)
  /-- The `UPDATE` of the old key. -/
  | deprecateOld (oldKeyId : ℕ) (gracePeriodDays : ℤ) (newKeyId : ℕ)
  | rotated (oldKeyId newKeyId : ℕ)
  | notFound
  | failed (created : Option (ℕ × ℕ)) (e : AppError)

structure Shared where
  table : KeyTable
  now : ℤ

/-- What a call meets: time, the random bytes, and a statement that fails. -/
structure Env where
  elapsed : ℕ
  rawKey : String
  keySecret : String
  fault : Option AppError

/-- The old key and the new one, once the new one has been created. -/
def Call.created : Call → Option (ℕ × ℕ)
  | .deprecateOld oldKeyId _ newKeyId | .rotated oldKeyId newKeyId => some (oldKeyId, newKeyId)
  | .failed created _ => created
  | .select .. | .create .. | .notFound => none

def Call.fail (e : AppError) : Call → Call
  | .rotated oldKeyId newKeyId => .rotated oldKeyId newKeyId
  | .notFound => .notFound
  | .failed created e' => .failed created e'
  | c => .failed c.created e

/-- What a call does next, when its statement succeeds. -/
def runCall (dg : Digests) (t : KeyTable) (c : Call) (now : ℤ) (env : Env) : KeyTable × Call :=
  match c with
  | .select oldKeyId gracePeriodDays =>
    match t.byId oldKeyId with
    | none => (t, .notFound)
    | some oldRow =>
      (t, if oldRow.status = .revoked then .notFound else .create oldKeyId gracePeriodDays oldRow)
  | .create oldKeyId gracePeriodDays oldRow =>
    let options := rotationOptions oldRow.toKeyRow oldRow.createdBy gracePeriodDays
    match t.insert (createRow dg options env.rawKey env.keySecret now) with
    | none => (t, .failed none .uniqueViolation)
    | some t' => (t', .deprecateOld oldKeyId gracePeriodDays t.nextId)
  | .deprecateOld oldKeyId gracePeriodDays newKeyId =>
    (t.update (·.id = oldKeyId) (setRotated now newKeyId gracePeriodDays),
      .rotated oldKeyId newKeyId)
  | .rotated oldKeyId newKeyId => (t, .rotated oldKeyId newKeyId)
  | .notFound => (t, .notFound)
  | .failed created e => (t, .failed created e)

def resume (dg : Digests) (sh : Shared) (c : Call) (env : Env) : Shared × Call :=
  let now := sh.now + env.elapsed
  match env.fault with
  | some e => (⟨sh.table, now⟩, c.fail e)
  | none => (⟨(runCall dg sh.table c now env).1, now⟩, (runCall dg sh.table c now env).2)

variable {ι : Type*} [DecidableEq ι]

def step (dg : Digests) (s : Calls ι Shared Call) (a : ι × Env) : Calls ι Shared Call :=
  Calls.step (resume dg) s a

omit [DecidableEq ι] in
def start (table : KeyTable) (now : ℤ) (request : ι → ℕ × ℤ) : Calls ι Shared Call :=
  ⟨⟨table, now⟩, fun i ↦ .select (request i).1 (request i).2⟩

/-! ## What must hold -/

omit [DecidableEq ι] in
/-- A rotation of the key `k` has created the key `n`. -/
def Rotated (s : Calls ι Shared Call) (k n : ℕ) : Prop := ∃ i, (s.call i).created = some (k, n)

omit [DecidableEq ι] in
/-- One rotation or more lead from the key `k` to the key `n`. -/
def Descends (s : Calls ι Shared Call) (k n : ℕ) : Prop := Relation.TransGen (Rotated s) k n

omit [DecidableEq ι] in
/-- The call has created a key for `k` that is active. -/
def ActiveSuccessor (s : Calls ι Shared Call) (k : ℕ) (i : ι) : Prop :=
  ∃ n r, (s.call i).created = some (k, n) ∧ s.shared.table.byId n = some r ∧ r.status = .active

omit [DecidableEq ι] in
def OneActiveSuccessor (s : Calls ι Shared Call) : Prop :=
  ∀ k i j, ActiveSuccessor s k i → ActiveSuccessor s k j → i = j

omit [DecidableEq ι] in
/-- A new key is inserted only while the old one has no active successor. -/
def Exclusive (dg : Digests) (s : Calls ι Shared Call) (a : ι × Env) : Prop :=
  ∀ k g oldRow, s.call a.1 = .create k g oldRow → a.2.fault = none →
    dg.sha256Hex a.2.rawKey ∉ s.shared.table.rows.map (·.keyHash) → ∀ j, ¬ActiveSuccessor s k j

/-- A key that has none of the restrictions that a rotation drops. -/
structure Bare (r : Restrictions) : Prop where
  expiresAt : r.expiresAt = none
  monthlyQuota : r.monthlyQuota = none
  allowedIps : r.allowedIps = none ∨ r.allowedIps = some []
  signingRequired : r.signingRequired = false

/-! ## What a rotation drops -/

section Restrictions

variable {roles : List Role} {r : Restrictions} {a : Attempt}

/-- What a rotation leaves of the restrictions. -/
def dropped (r : Restrictions) : Restrictions :=
  { r with expiresAt := none, monthlyQuota := none, allowedIps := none, signingRequired := false }

theorem restrictions_createRow (dg : Digests) (row : KeyRow) (createdBy : Option String)
    (gracePeriodDays : ℤ) (rawKey keySecret : String) (now : ℤ) :
    restrictions (createRow dg (rotationOptions row createdBy gracePeriodDays) rawKey keySecret
      now).toKeyRow = dropped (restrictions row) := rfl

theorem bare_dropped (r : Restrictions) : Bare (dropped r) := ⟨rfl, rfl, .inl rfl, rfl⟩

theorem Bare.admits_iff (h : Bare r) :
    Admits roles r a ↔ checkPermission roles r.role r.scopes a.permission = true := by
  refine ⟨fun hadmits ↦ hadmits.permitted, fun hpermitted ↦ ⟨?_, ?_, ?_, ?_, hpermitted⟩⟩
  · rw [h.expiresAt, Option.any_none]
  · rw [h.monthlyQuota, Option.any_none]
  · exact isIpAllowed_empty h.allowedIps
  · intro hsigning
    rw [h.signingRequired] at hsigning
    cases hsigning

theorem bare_of_forall (permission : String)
    (h : ∀ a, a.permission = permission → Admits roles r a) : Bare r := by
  have hadmits : ∀ now quotaUsed, Admits roles r ⟨permission, none, now, false, quotaUsed⟩ :=
    fun now quotaUsed ↦ h _ rfl
  refine ⟨?_, ?_, isIpAllowed_unknown (hadmits 0 0).ip, ?_⟩
  · cases hexpires : r.expiresAt with
    | none => rfl
    | some expiresAt =>
      have hexpired := (hadmits (expiresAt + 1) 0).unexpired
      rw [hexpires, Option.any_some, decide_eq_false_iff_not] at hexpired
      dsimp only at hexpired
      omega
  · cases hquota : r.monthlyQuota with
    | none => rfl
    | some monthlyQuota =>
      have hused := (hadmits 0 monthlyQuota).quota
      rw [hquota, Option.any_some, decide_eq_false_iff_not] at hused
      dsimp only at hused
      omega
  · by_contra hsigning
    exact Bool.false_ne_true ((hadmits 0 0).signed (Bool.eq_true_of_not_eq_false hsigning))

/-- **What a rotation widens.** The rotated key admits no more than the old one exactly when the old
one was bare, or permitted nothing. -/
theorem authority_dropped_subset_iff (roles : List Role) (r : Restrictions) :
    authority roles (dropped r) ⊆ authority roles r ↔
      ((∃ permission, checkPermission roles r.role r.scopes permission = true) → Bare r) := by
  constructor
  · rintro h ⟨permission, hpermitted⟩
    refine bare_of_forall permission fun a ha ↦ h ?_
    refine (bare_dropped r).admits_iff.mpr ?_
    rw [ha]
    exact hpermitted
  · intro h a ha
    have hpermitted := (bare_dropped r).admits_iff.mp ha
    exact (h ⟨a.permission, hpermitted⟩).admits_iff.mpr hpermitted

end Restrictions

/-! ## What a step does -/

section Steps

variable {dg : Digests} {t t' : KeyTable} {c : Call} {env : Env}

/-- What a call that is resumed may have done. -/
inductive Moves (dg : Digests) (t : KeyTable) (c : Call) (env : Env) (t' : KeyTable) (c' : Call) :
    Prop
  | keeps (ht : t' = t) (hcreated : c'.created = c.created)
      (hc' : ∀ k g row, c' = .create k g row → c = .create k g row)
  | reads {k : ℕ} {g : ℤ} {row : ManagedRow} (ht : t' = t) (hrow : t.byId k = some row)
      (hcreated : c.created = none) (hc' : c' = .create k g row)
  | creates {k : ℕ} {g : ℤ} {row : ManagedRow} {now : ℤ} (hc : c = .create k g row)
      (hfault : env.fault = none) (hhash : dg.sha256Hex env.rawKey ∉ t.rows.map (·.keyHash))
      (ht : t.insert (createRow dg (rotationOptions row.toKeyRow row.createdBy g) env.rawKey
        env.keySecret now) = some t') (hc' : c' = .deprecateOld k g t.nextId)
  | marks {k n : ℕ} {g now : ℤ} (ht : t' = t.update (·.id = k) (setRotated now n g))
      (hc : c = .deprecateOld k g n) (hc' : c' = .rotated k n)

/-- **What a step does.** -/
theorem moves_resume (dg : Digests) (sh : Shared) (c : Call) (env : Env) :
    Moves dg sh.table c env (resume dg sh c env).1.table (resume dg sh c env).2 := by
  rw [resume]
  cases hfault : env.fault with
  | some e =>
    refine .keeps rfl ?_ ?_
    · cases c <;> rfl
    · intro k g row hc'
      cases c <;> cases hc'
  | none =>
    dsimp only
    cases c with
    | select k g =>
      rw [runCall]
      cases hrow : sh.table.byId k with
      | none => exact .keeps rfl rfl fun _ _ _ hc' ↦ nomatch hc'
      | some row =>
        dsimp only
        split_ifs
        · exact .keeps rfl rfl fun _ _ _ hc' ↦ nomatch hc'
        · exact .reads rfl hrow rfl rfl
    | create k g row =>
      rw [runCall]
      cases hinsert : sh.table.insert (createRow dg (rotationOptions row.toKeyRow row.createdBy g)
          env.rawKey env.keySecret (sh.now + env.elapsed)) with
      | none => exact .keeps rfl rfl fun _ _ _ hc' ↦ nomatch hc'
      | some t' =>
        exact .creates rfl hfault (KeyTable.insert_eq_some hinsert) hinsert rfl
    | deprecateOld k g n => exact .marks rfl rfl rfl
    | rotated | notFound | failed => exact .keeps rfl rfl fun _ _ _ hc' ↦ nomatch hc'

end Steps

/-! ## The restrictions of the keys in a run -/

section Chains

variable {dg : Digests} {t t' : KeyTable} {c : Call} {s : Calls ι Shared Call}

def restrictionsOf (t : KeyTable) (id : ℕ) : Option Restrictions :=
  (t.byId id).map fun row ↦ restrictions row.toKeyRow

def Keeps (t t' : KeyTable) : Prop :=
  ∀ id r, restrictionsOf t id = some r → restrictionsOf t' id = some r

/-- What a call has read has the restrictions that the table has, and what it has created has what a
rotation leaves of them. -/
structure CallOk (t : KeyTable) (c : Call) : Prop where
  read : ∀ k g row, c = .create k g row →
    restrictionsOf t k = some (restrictions row.toKeyRow)
  created : ∀ k n, c.created = some (k, n) →
    ∃ r, restrictionsOf t k = some r ∧ restrictionsOf t n = some (dropped r)

theorem CallOk.mono (h : CallOk t c) (ht : Keeps t t') : CallOk t' c := by
  refine ⟨fun k g row hc ↦ ht k _ (h.read k g row hc), fun k n hc ↦ ?_⟩
  obtain ⟨r, hk, hn⟩ := h.created k n hc
  exact ⟨r, ht k r hk, ht n _ hn⟩

theorem keeps_update (t : KeyTable) (p : ManagedRow → Bool) (now : ℤ) (n : ℕ) (g : ℤ) :
    Keeps t (t.update p (setRotated now n g)) := by
  intro id r hr
  rw [restrictionsOf, KeyTable.byId_update, Option.map_map]
  rw [← hr, restrictionsOf]
  congr 1
  funext row
  rw [Function.comp_apply, Assignment.on]
  split_ifs <;> rfl

theorem keeps_insert {row : ManagedRow} (h : t.insert row = some t') : Keeps t t' := by
  intro id r hr
  obtain ⟨row', hrow', hr'⟩ := Option.map_eq_some_iff.mp hr
  rw [restrictionsOf, KeyTable.byId_insert h, hrow', Option.some_or, Option.map_some, hr']

theorem byId_nextId_insert {row : ManagedRow} (h : t.insert row = some t') :
    t'.byId t.nextId = some (t.stored row) := by
  have hnone : t.byId t.nextId = none := by
    cases hfound : t.byId t.nextId with
    | none => rfl
    | some row' =>
      obtain ⟨hmem, hid⟩ := KeyTable.mem_of_byId hfound
      have hlt := t.lt_nextId row'.id (List.mem_map_of_mem hmem)
      omega
  rw [KeyTable.byId_insert h, hnone, Option.none_or, if_pos rfl]

theorem Moves.keeps_table {env : Env} {c' : Call} (h : Moves dg t c env t' c') : Keeps t t' := by
  cases h with
  | keeps ht | reads ht =>
    subst ht
    exact fun _ _ hr ↦ hr
  | creates hc hfault hhash ht => exact keeps_insert ht
  | marks ht =>
    subst ht
    exact keeps_update t _ _ _ _

/-- **One step** of a call. -/
theorem CallOk.moves {env : Env} {c' : Call} (h : CallOk t c) (hmoves : Moves dg t c env t' c') :
    CallOk t' c' := by
  cases hmoves with
  | keeps ht hcreated hc' =>
    subst ht
    refine ⟨fun k g row hc ↦ h.read k g row (hc' k g row hc), fun k n hc ↦ ?_⟩
    rw [hcreated] at hc
    exact h.created k n hc
  | reads ht hrow hcreated hc' =>
    subst ht hc'
    refine ⟨fun k g row hc ↦ ?_, fun k n hc ↦ ?_⟩
    · cases hc
      rw [restrictionsOf, hrow, Option.map_some]
    · cases hc
  | @creates k₀ g₀ row₀ now hc hfault hhash ht hc' =>
    subst hc hc'
    refine ⟨fun k g row hc ↦ ?_, fun k n hc ↦ ?_⟩
    · cases hc
    · cases hc
      refine ⟨_, keeps_insert ht _ _ (h.read _ _ _ rfl), ?_⟩
      rw [restrictionsOf, byId_nextId_insert ht, Option.map_some]
      exact congrArg some (restrictions_createRow dg row₀.toKeyRow row₀.createdBy g₀ env.rawKey
        env.keySecret now)
  | marks ht hc hc' =>
    subst ht hc hc'
    refine ⟨fun k g row hc ↦ ?_, fun k n hc ↦ ?_⟩
    · cases hc
    · cases hc
      exact (h.mono (keeps_update t _ _ _ _)).created _ _ rfl

def Sound (s : Calls ι Shared Call) : Prop := ∀ i, CallOk s.shared.table (s.call i)

theorem Sound.step (h : Sound s) (a : ι × Env) : Sound (step dg s a) := by
  obtain ⟨i, env⟩ := a
  have hmoves := moves_resume dg s.shared (s.call i) env
  exact Calls.forall_step (P := fun (sh : Shared) c ↦ CallOk sh.table c) h ((h i).moves hmoves)
    fun _ hc ↦ hc.mono hmoves.keeps_table

omit [DecidableEq ι] in
/-- A chain of rotations leaves no more than the first one. -/
theorem Sound.descends (h : Sound s) {k n : ℕ} (hchain : Descends s k n) :
    ∃ r, restrictionsOf s.shared.table k = some r ∧
      restrictionsOf s.shared.table n = some (dropped r) := by
  induction hchain with
  | single hrotated =>
    obtain ⟨i, hi⟩ := hrotated
    exact (h i).created _ _ hi
  | tail _ hrotated ih =>
    obtain ⟨i, hi⟩ := hrotated
    obtain ⟨r, hk, hn⟩ := ih
    obtain ⟨r', hk', hn'⟩ := (h i).created _ _ hi
    rw [hn, Option.some_inj] at hk'
    subst hk'
    exact ⟨r, hk, hn'⟩

end Chains

/-! ## Active successors -/

section Successors

variable {dg : Digests} {s : Calls ι Shared Call} {a : ι × Env} {k : ℕ} {i j : ι}

theorem moves_step (dg : Digests) (s : Calls ι Shared Call) (a : ι × Env) :
    Moves dg s.shared.table (s.call a.1) a.2 (step dg s a).shared.table
      ((step dg s a).call a.1) := by
  obtain ⟨i, env⟩ := a
  rw [step, Calls.step_call_self]
  exact moves_resume dg s.shared (s.call i) env

theorem step_call_of_ne (dg : Digests) (s : Calls ι Shared Call) (a : ι × Env) (h : j ≠ a.1) :
    (step dg s a).call j = s.call j := Calls.step_call_of_ne s a.2 h

theorem active_of_update {t : KeyTable} {p : ManagedRow → Bool} {now g : ℤ} {m n : ℕ}
    {r : ManagedRow} (h : (t.update p (setRotated now m g)).byId n = some r)
    (hactive : r.status = .active) : ∃ r', t.byId n = some r' ∧ r'.status = .active := by
  rw [KeyTable.byId_update] at h
  obtain ⟨r', hr', hr⟩ := Option.map_eq_some_iff.mp h
  rw [Assignment.on] at hr
  split_ifs at hr
  · subst hr
    cases hactive
  · subst hr
    exact ⟨r', hr', hactive⟩

theorem activeSuccessor_step (hsound : Sound s) (h : ActiveSuccessor (step dg s a) k j) :
    ActiveSuccessor s k j ∨ j = a.1 ∧ ∃ g row, s.call j = .create k g row ∧ a.2.fault = none ∧
      dg.sha256Hex a.2.rawKey ∉ s.shared.table.rows.map (·.keyHash) := by
  obtain ⟨n, r, hcreated, hr, hactive⟩ := h
  have hcall : j ≠ a.1 → (s.call j).created = some (k, n) := by
    intro hj
    rw [step_call_of_ne dg s a hj] at hcreated
    exact hcreated
  cases moves_step dg s a with
  | keeps ht hsame =>
    refine .inl ⟨n, r, ?_, ht ▸ hr, hactive⟩
    by_cases hj : j = a.1
    · subst hj
      exact hsame ▸ hcreated
    · exact hcall hj
  | reads ht hrow hnone hc' =>
    refine .inl ⟨n, r, hcall ?_, ht ▸ hr, hactive⟩
    rintro rfl
    rw [hc'] at hcreated
    cases hcreated
  | creates hc hfault hhash ht hc' =>
    by_cases hj : j = a.1
    · subst hj
      rw [hc'] at hcreated
      cases hcreated
      exact .inr ⟨rfl, _, _, hc, hfault, hhash⟩
    -- the key of another call is an older row, which the `INSERT` keeps
    · refine .inl ⟨n, r, hcall hj, ?_, hactive⟩
      obtain ⟨r', -, hn⟩ := (hsound j).created k n (hcall hj)
      obtain ⟨row, hrow, -⟩ := Option.map_eq_some_iff.mp hn
      rw [KeyTable.byId_insert ht, hrow, Option.some_or] at hr
      exact hrow.trans hr
  | marks ht hc hc' =>
    rw [ht] at hr
    obtain ⟨r', hr', hactive'⟩ := active_of_update hr hactive
    refine .inl ⟨n, r', ?_, hr', hactive'⟩
    by_cases hj : j = a.1
    · subst hj
      rw [hc'] at hcreated
      rw [hc]
      exact hcreated
    · exact hcall hj

theorem OneActiveSuccessor.step (h : OneActiveSuccessor s) (hsound : Sound s)
    (hexclusive : Exclusive dg s a) : OneActiveSuccessor (step dg s a) := by
  intro k i j hi hj
  rcases activeSuccessor_step hsound hi with hi | ⟨rfl, g, row, hc, hfault, hhash⟩
  · rcases activeSuccessor_step hsound hj with hj | ⟨rfl, g, row, hc, hfault, hhash⟩
    · exact h k i j hi hj
    · exact absurd hi (hexclusive k g row hc hfault hhash i)
  · rcases activeSuccessor_step hsound hj with hj | ⟨rfl, -⟩
    · exact absurd hj (hexclusive k g row hc hfault hhash j)
    · rfl

/-- A new key beside an active successor is a second one. -/
theorem not_oneActiveSuccessor (hexclusive : ¬Exclusive dg s a) :
    ¬OneActiveSuccessor (step dg s a) := by
  intro h
  apply hexclusive
  intro k g row hc hfault hhash j hj
  obtain ⟨i, env⟩ := a
  dsimp only at hc hfault hhash
  obtain ⟨n, r, hcreated, hr, hactive⟩ := hj
  have hji : j ≠ i := by
    rintro rfl
    rw [hc] at hcreated
    cases hcreated
  obtain ⟨new, hnew⟩ : ∃ new, createRow dg (rotationOptions row.toKeyRow row.createdBy g) env.rawKey
    env.keySecret (s.shared.now + env.elapsed) = new := ⟨_, rfl⟩
  have hnewHash : new.keyHash ∉ s.shared.table.rows.map (·.keyHash) := by
    rw [← hnew]
    exact hhash
  have hnewActive : new.status = .active := by
    rw [← hnew]
    rfl
  obtain ⟨t', ht⟩ := KeyTable.exists_insert hnewHash
  have hresume : resume dg s.shared (s.call i) env =
      (⟨t', s.shared.now + env.elapsed⟩, .deprecateOld k g s.shared.table.nextId) := by
    rw [hc, resume, hfault]
    dsimp only
    rw [runCall, hnew, ht]
  have hstep : (step dg s (i, env)).shared.table = t' := by
    rw [step, Calls.step_shared, hresume]
  have hcall : (step dg s (i, env)).call i = .deprecateOld k g s.shared.table.nextId := by
    rw [step, Calls.step_call_self, hresume]
  -- both calls have created a key, and both keys are active
  refine hji (h k j i ⟨n, r, ?_, ?_, hactive⟩
    ⟨s.shared.table.nextId, s.shared.table.stored new, ?_, ?_, hnewActive⟩)
  · rw [step_call_of_ne dg s (i, env) hji]
    exact hcreated
  · rw [hstep, KeyTable.byId_insert ht, hr, Option.some_or]
  · rw [hcall]
    rfl
  · rw [hstep]
    exact byId_nextId_insert ht

end Successors

/-! ## Runs -/

omit [DecidableEq ι] in
theorem sound_start (table : KeyTable) (now : ℤ) (request : ι → ℕ × ℤ) :
    Sound (start table now request) := by
  intro i
  refine ⟨fun k g row hc ↦ ?_, fun k n hc ↦ ?_⟩
  · cases hc
  · cases hc

/-- **What rotations widen.** In every run of interleaved rotations, the newest key of a chain of
rotations admits no more than the first one exactly when the first one has no expiry, no quota, no
allowlist and no signing, or permits nothing; and every key has at most one active successor exactly
when no new key is ever inserted while the old one has an active successor. -/
theorem rotation_authority (dg : Digests) (roles : List Role) (table : KeyTable) (now : ℤ)
    (request : ι → ℕ × ℤ) (as : List (ι × Env)) :
    (∀ k n first newest, Descends (run (step dg) (start table now request) as) k n →
      (run (step dg) (start table now request) as).shared.table.byId k = some first →
      (run (step dg) (start table now request) as).shared.table.byId n = some newest →
      (authority roles (restrictions newest.toKeyRow) ⊆
          authority roles (restrictions first.toKeyRow) ↔
        ((∃ permission, checkPermission roles first.role first.scopes permission = true) →
          Bare (restrictions first.toKeyRow)))) ∧
      (Always (step dg) OneActiveSuccessor (start table now request) as ↔
        Along (step dg) (Exclusive dg) (start table now request) as) := by
  have hstart := sound_start table now request
  constructor
  · intro k n first newest hchain hfirst hnewest
    have hsound : Always (step dg) Sound (start table now request) as :=
      always_of_step (fun _ a hs ↦ hs.step a) hstart as
    obtain ⟨r, hk, hn⟩ := hsound.last.descends hchain
    rw [restrictionsOf, hfirst, Option.map_some, Option.some_inj] at hk
    rw [restrictionsOf, hnewest, Option.map_some, Option.some_inj] at hn
    rw [hn, ← hk]
    exact authority_dropped_subset_iff roles _
  · refine always_iff_along (I := fun s ↦ OneActiveSuccessor s ∧ Sound s) (fun _ h ↦ h.1)
      (fun _ a h ha ↦ ⟨h.1.step h.2 ha, h.2.step a⟩) (fun _ _ _ ha ↦ not_oneActiveSuccessor ha)
      ⟨fun k i j hi ↦ ?_, hstart⟩ as
    obtain ⟨n, r, hcreated, -⟩ := hi
    cases hcreated

/-! ## Fixed runs -/

def managed (row : KeyRow) : ManagedRow := ⟨row, none, none, none, none⟩

def plainDigests : Digests := ⟨id, fun _ text ↦ text⟩

/-- A statement that succeeds, with the random bytes of the key that is created. -/
def succeeds (rawKey : String) : Env := ⟨0, rawKey, "00", none⟩

/-- Two rotations of the key with every restriction. Each reads its row, and creates a new key. -/
def twoRotations : List (Fin 2 × Env) :=
  [(0, succeeds "a"), (1, succeeds "b"), (0, succeeds "a"), (1, succeeds "b")]

/-- The new key admits an unsigned request of an unknown client, which the old one does not, and
the old key has two active successors. -/
theorem rotated_key_admits_more :
    (∃ first newest,
      Descends (run (step plainDigests) (start (.single (managed restrictedRow)) 0 fun _ ↦ (1, 30))
        twoRotations) 1 2 ∧
      (run (step plainDigests) (start (.single (managed restrictedRow)) 0 fun _ ↦ (1, 30))
        twoRotations).shared.table.byId 1 = some first ∧
      (run (step plainDigests) (start (.single (managed restrictedRow)) 0 fun _ ↦ (1, 30))
        twoRotations).shared.table.byId 2 = some newest ∧
      ¬authority rolesConfig (restrictions newest.toKeyRow) ⊆
        authority rolesConfig (restrictions first.toKeyRow)) ∧
    ¬Always (step plainDigests) OneActiveSuccessor
      (start (.single (managed restrictedRow)) 0 fun _ ↦ (1, 30)) twoRotations := by
  constructor
  · refine ⟨_, _, .single ⟨0, rfl⟩, rfl, rfl, fun h ↦ ?_⟩
    have hadmits : Admits rolesConfig (dropped (restrictions restrictedRow))
        ⟨"donations:read", none, 0, false, 0⟩ :=
      (bare_dropped _).admits_iff.mpr (by decide)
    exact Bool.false_ne_true ((h hadmits).signed rfl)
  · intro h
    have hone := h.last 1 0 1 ⟨2, _, rfl, rfl, rfl⟩ ⟨3, _, rfl, rfl, rfl⟩
    exact absurd hone (by decide)

/-- One rotation of a key without restrictions. -/
theorem rotation_authority_at :
    (∃ first newest,
      (run (step plainDigests) (start (.single (managed openRow)) 0 fun _ ↦ (1, 30))
        (List.replicate 3 ((0 : Fin 1), succeeds "a"))).shared.table.byId 1 = some first ∧
      (run (step plainDigests) (start (.single (managed openRow)) 0 fun _ ↦ (1, 30))
        (List.replicate 3 ((0 : Fin 1), succeeds "a"))).shared.table.byId 2 = some newest ∧
      authority rolesConfig (restrictions newest.toKeyRow) ⊆
        authority rolesConfig (restrictions first.toKeyRow)) ∧
    Always (step plainDigests) OneActiveSuccessor
      (start (.single (managed openRow)) 0 fun _ ↦ (1, 30))
      (List.replicate 3 ((0 : Fin 1), succeeds "a")) := by
  have hauthority := rotation_authority plainDigests rolesConfig (.single (managed openRow)) 0
    (fun _ ↦ (1, 30)) (List.replicate 3 ((0 : Fin 1), succeeds "a"))
  constructor
  · refine ⟨_, _, rfl, rfl, (hauthority.1 1 2 _ _ (.single ⟨0, rfl⟩) rfl rfl).mpr fun _ ↦ ?_⟩
    exact ⟨rfl, rfl, .inl rfl, rfl⟩
  · refine hauthority.2.mpr ⟨?_, ?_, ?_, trivial⟩
    · intro k g row hc
      cases hc
    · rintro k g row - - - j ⟨n, r, hcreated, -⟩
      obtain rfl : j = 0 := Subsingleton.elim j 0
      cases hcreated
    · intro k g row hc
      cases hc

end StellarDonations.KeyRotation
