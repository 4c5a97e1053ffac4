import Mathlib.Data.List.Chain
import StellarDonations.Sequences.PromiseLock

/-!
# The sequence manager

`withAccountLock` and `getSequenceNumber` together: the tasks that run under the lock ask for
sequence numbers, which come from the cache or from Horizon. A number from the cache is read and
replaced by the next one in one go, so the numbers given out between two answers of Horizon follow
one another.

`manager_correct` collects what holds in every state of a run whose tasks reject with no thenable:
what the lock promises, and the numbers given out for each account. A task that rejects with a
promise blocks its account for as long as that promise is pending.
-/

namespace StellarDonations.SequenceManager

open Concurrency PromiseLock

variable {α ε : Type*}

structure CacheEntry where
  sequenceNumber : ℕ
  cachedAt : ℕ
  deriving DecidableEq

/-- The fields of an account of Horizon that are read. -/
structure Account where
  sequenceNumber : Option ℕ
  sequence_number : Option ℕ
  deriving DecidableEq

/-- A number `getSequenceNumber` has returned, and whether it is from Horizon. -/
structure Served where
  value : ℕ
  fetched : Bool
  deriving DecidableEq

/-- The manager. `loading` has the accounts whose `loadAccount` is pending. The numbers that were
returned are kept for each account, in order; nothing reads them. -/
structure Manager (α ε : Type*) where
  lock : Lock α ε
  sequenceCache : String → Option CacheEntry
  now : ℕ
  cacheHits : ℕ
  cacheMisses : ℕ
  loading : List String
  served : String → List Served

inductive Event (α ε : Type*) where
  | lock (e : PromiseLock.Event α ε)
  /-- The task of a call asks for the sequence number of its account. -/
  | getSequenceNumber (n : ℕ)
  /-- Horizon answers one of the pending requests. -/
  | loadAccount (i : ℕ) (response : Except ε Account)
  | invalidateCache (account : String)
  | wait (elapsed : ℕ)

namespace Manager

variable (s : Manager α ε)

/-- `account.sequenceNumber || account.sequence_number || '0'`. -/
def sequenceNumberOf (a : Account) : ℕ := (a.sequenceNumber <|> a.sequence_number).getD 0

def isCacheValid (cacheTtlMs : ℕ) (e : CacheEntry) : Bool := s.now - e.cachedAt < cacheTtlMs

/-- Return a number, and keep the next one. -/
def give (account : String) (number : ℕ) (fetched : Bool) : Manager α ε :=
  { s with
    sequenceCache := Function.update s.sequenceCache account (some ⟨number + 1, s.now⟩)
    served := Function.update s.served account (s.served account ++ [⟨number, fetched⟩]) }

def getSequenceNumber (cacheTtlMs : ℕ) (account : String) : Manager α ε :=
  match (s.sequenceCache account).filter (s.isCacheValid cacheTtlMs) with
  | some cached =>
    { s.give account cached.sequenceNumber false with cacheHits := s.cacheHits + 1 }
  | none => { s with cacheMisses := s.cacheMisses + 1, loading := s.loading ++ [account] }

def step (isThenable : ε → Bool) (cacheTtlMs : ℕ) (s : Manager α ε) : Event α ε → Manager α ε
  | .lock e => { s with lock := s.lock.step isThenable e }
  | .getSequenceNumber n =>
    match s.lock.calls[n]? with
    | some c =>
      if c.started = true ∧ c.outcome.isNone then s.getSequenceNumber cacheTtlMs c.account else s
    | none => s
  | .loadAccount i response =>
    match s.loading[i]? with
    | some account =>
      let s' : Manager α ε := { s with loading := s.loading.eraseIdx i }
      match response with
      | .ok a => s'.give account (sequenceNumberOf a) true
      -- the call of `getSequenceNumber` rejects
      | .error _ => s'
    | none => s
  | .invalidateCache account =>
    { s with sequenceCache := Function.update s.sequenceCache account none }
  | .wait elapsed => { s with now := s.now + elapsed }

/-- `createSequenceManager`. -/
def initial (now : ℕ) : Manager α ε := ⟨.empty, fun _ ↦ none, now, 0, 0, [], fun _ ↦ []⟩

end Manager

/-! ## The numbers -/

/-- The numbers returned from one answer of Horizon up to the next follow one another. -/
def Consecutive (log : List Served) : Prop :=
  ∀ seg, seg <:+: log → (∀ x ∈ seg.tail, x.fetched = false) →
    (∃ first, seg.map (·.value) = List.range' first seg.length) ∧ (seg.map (·.value)).Nodup

/-- A number is from Horizon, or one more than the number before. -/
def Follows (x y : Served) : Prop := y.fetched = true ∨ y.value = x.value + 1

theorem map_value_eq_range' {x : Served} {xs : List Served} (h : List.IsChain Follows (x :: xs))
    (hxs : ∀ y ∈ xs, y.fetched = false) :
    (x :: xs).map (·.value) = List.range' x.value (xs.length + 1) := by
  induction xs generalizing x with
  | nil => rfl
  | cons y ys ih =>
    rw [List.isChain_cons_cons] at h
    have hy : y.value = x.value + 1 := by
      refine h.1.resolve_left fun hfetched ↦ ?_
      rw [hxs y List.mem_cons_self] at hfetched
      cases hfetched
    rw [List.map_cons, ih h.2 fun z hz ↦ hxs z (List.mem_cons_of_mem y hz), hy]
    rfl

theorem consecutive_of_isChain {log : List Served} (h : List.IsChain Follows log) :
    Consecutive log := by
  intro seg hseg htail
  have hchain := h.infix hseg
  have hrange : ∃ first, seg.map (·.value) = List.range' first seg.length := by
    cases seg with
    | nil => exact ⟨0, rfl⟩
    | cons x xs => exact ⟨x.value, map_value_eq_range' hchain htail⟩
  obtain ⟨first, hfirst⟩ := hrange
  refine ⟨⟨first, hfirst⟩, ?_⟩
  rw [hfirst]
  exact List.nodup_range'

/-- What was returned follows one another, and what is kept comes next. -/
def Kept (s : Manager α ε) : Prop :=
  ∀ account, List.IsChain Follows (s.served account) ∧
    ∀ e, s.sequenceCache account = some e →
      ∃ x, (s.served account).getLast? = some x ∧ e.sequenceNumber = x.value + 1

namespace Kept

variable {s : Manager α ε}

theorem give (h : Kept s) {account : String} {number : ℕ} {fetched : Bool}
    (hnext : ∀ x, (s.served account).getLast? = some x → Follows x ⟨number, fetched⟩) :
    Kept (s.give account number fetched) := by
  intro account'
  rw [Manager.give]
  dsimp only
  by_cases haccount : account' = account
  · subst haccount
    rw [Function.update_self, Function.update_self]
    constructor
    · refine List.isChain_append.mpr ⟨(h account').1, List.isChain_singleton _, ?_⟩
      intro x hx y hy
      rw [List.head?_cons, Option.mem_some_iff] at hy
      rw [← hy]
      exact hnext x hx
    · intro e he
      rw [Option.some.injEq] at he
      refine ⟨⟨number, fetched⟩, List.getLast?_concat, ?_⟩
      rw [← he]
  · rw [Function.update_of_ne haccount, Function.update_of_ne haccount]
    exact h account'

theorem getSequenceNumber (h : Kept s) (cacheTtlMs : ℕ) (account : String) :
    Kept (s.getSequenceNumber cacheTtlMs account) := by
  rw [Manager.getSequenceNumber]
  cases hcached : (s.sequenceCache account).filter (s.isCacheValid cacheTtlMs) with
  | none => exact h
  | some cached =>
    have hentry := (Option.filter_eq_some_iff.mp hcached).1
    refine h.give fun x hx ↦ .inr ?_
    obtain ⟨y, hy, hnumber⟩ := (h account).2 cached hentry
    rw [hx, Option.some.injEq] at hy
    rw [hnumber, hy]

theorem step (h : Kept s) (isThenable : ε → Bool) (cacheTtlMs : ℕ) (e : Event α ε) :
    Kept (s.step isThenable cacheTtlMs e) := by
  cases e with
  | lock e => exact h
  | getSequenceNumber n =>
    rw [Manager.step]
    cases s.lock.calls[n]? with
    | none => exact h
    | some c =>
      dsimp only
      split_ifs
      · exact h.getSequenceNumber cacheTtlMs c.account
      · exact h
  | loadAccount i response =>
    rw [Manager.step]
    cases s.loading[i]? with
    | none => exact h
    | some account =>
      cases response with
      | ok a =>
        exact Kept.give (s := { s with loading := s.loading.eraseIdx i }) h fun _ _ ↦ .inl rfl
      | error e => exact h
  | invalidateCache account =>
    intro account'
    rw [Manager.step]
    dsimp only
    refine ⟨(h account').1, fun e he ↦ ?_⟩
    by_cases haccount : account' = account
    · rw [haccount, Function.update_self] at he
      cases he
    · rw [Function.update_of_ne haccount] at he
      exact (h account').2 e he
  | wait elapsed => exact h

end Kept

/-! ## Runs -/

/-- In this step no task rejects with a thenable. -/
def Event.Plain (isThenable : ε → Bool) : Event α ε → Prop
  | .lock e => e.Plain isThenable
  | _ => True

/-- What is asked of the manager in every state. -/
structure Correct (isThenable : ε → Bool) (s : Manager α ε) : Prop where
  exclusive : s.lock.Exclusive
  inCallOrder : s.lock.InCallOrder
  ownResult : s.lock.OwnResult
  /-- The microtasks that are due come to an end, and then every caller has what its task has come
  to, only running tasks are waited for, and no gate is left of an account whose tasks are over. -/
  comesToRest :
    (∃ es, Along (Lock.step isThenable) Lock.Due s.lock es ∧
      (run (Lock.step isThenable) s.lock es).AtRest) ∧
    ∀ es, Along (Lock.step isThenable) Lock.Due s.lock es → es.length ≤ s.lock.work
  atRest : s.lock.AtRest → s.lock.Delivered ∧ s.lock.WaitsForRunning ∧ s.lock.NoGateLeft
  consecutive : ∀ account, Consecutive (s.served account)

structure Serial (isThenable : ε → Bool) (s : Manager α ε) : Prop where
  chained : Chained s.lock
  plain : Plain isThenable s.lock
  kept : Kept s

theorem Serial.correct {isThenable : ε → Bool} {s : Manager α ε} (h : Serial isThenable s) :
    Correct isThenable s where
  exclusive := h.chained.exclusive
  inCallOrder := h.chained.inCallOrder h.plain
  ownResult := h.chained.ownResult h.plain
  comesToRest := ⟨s.lock.exists_atRest isThenable, fun _ ↦ Lock.length_le_work⟩
  atRest := fun hrest ↦ ⟨h.chained.delivered h.plain hrest,
    h.chained.waitsForRunning h.plain hrest, h.chained.noGateLeft h.plain hrest⟩
  consecutive := fun account ↦ consecutive_of_isChain (h.kept account).1

theorem lock_getSequenceNumber (s : Manager α ε) (cacheTtlMs : ℕ) (account : String) :
    (s.getSequenceNumber cacheTtlMs account).lock = s.lock := by
  rw [Manager.getSequenceNumber]
  cases (s.sequenceCache account).filter (s.isCacheValid cacheTtlMs) <;> rfl

theorem lock_step (s : Manager α ε) (isThenable : ε → Bool) (cacheTtlMs : ℕ) (e : Event α ε) :
    (s.step isThenable cacheTtlMs e).lock = s.lock ∨
      ∃ e', e = .lock e' ∧ (s.step isThenable cacheTtlMs e).lock = s.lock.step isThenable e' := by
  cases e with
  | lock e => exact .inr ⟨e, rfl, rfl⟩
  | getSequenceNumber n =>
    refine .inl ?_
    rw [Manager.step]
    cases s.lock.calls[n]? with
    | none => rfl
    | some c =>
      dsimp only
      split_ifs
      · exact lock_getSequenceNumber s cacheTtlMs c.account
      · rfl
  | loadAccount i response =>
    refine .inl ?_
    rw [Manager.step]
    cases s.loading[i]? with
    | none => rfl
    | some account => cases response <;> rfl
  | invalidateCache account => exact .inl rfl
  | wait elapsed => exact .inl rfl

theorem Serial.step {isThenable : ε → Bool} {s : Manager α ε} (h : Serial isThenable s)
    (cacheTtlMs : ℕ) {e : Event α ε} (he : e.Plain isThenable) :
    Serial isThenable (s.step isThenable cacheTtlMs e) := by
  have hkept := h.kept.step isThenable cacheTtlMs e
  rcases lock_step s isThenable cacheTtlMs e with hlock | ⟨e', rfl, hlock⟩
  · exact ⟨hlock ▸ h.chained, hlock ▸ h.plain, hkept⟩
  · exact ⟨hlock ▸ h.chained.step isThenable e', hlock ▸ h.plain.step h.chained he, hkept⟩

theorem serial_initial (isThenable : ε → Bool) (now : ℕ) :
    Serial isThenable (Manager.initial now : Manager α ε) where
  chained := Chained.empty
  plain := nofun
  kept := fun _ ↦ ⟨List.isChain_nil, nofun⟩

/-- **The sequence manager is correct** in every state of a run in which no task rejects with a
thenable, whenever the calls are made, the tasks settle and the microtasks are run. -/
theorem manager_correct (isThenable : ε → Bool) (cacheTtlMs now : ℕ) {events : List (Event α ε)}
    (hplain : ∀ e ∈ events, e.Plain isThenable) :
    Always (Manager.step isThenable cacheTtlMs) (Correct isThenable) (Manager.initial now)
      events := by
  have halong : Along (Manager.step isThenable cacheTtlMs) (fun _ e ↦ e.Plain isThenable)
      (Manager.initial now) events := along_of_forall_mem (fun e he _ ↦ hplain e he) _
  exact (halong.always (fun s e h he ↦ h.step cacheTtlMs he)
    (serial_initial isThenable now)).mono fun _ h ↦ h.correct

/-- Tasks of one account never overlap, and its numbers follow one another, whatever the tasks
reject with. -/
theorem exclusive_consecutive (isThenable : ε → Bool) (cacheTtlMs now : ℕ)
    (events : List (Event α ε)) :
    Always (Manager.step isThenable cacheTtlMs)
      (fun s ↦ s.lock.Exclusive ∧ ∀ account, Consecutive (s.served account))
      (Manager.initial now) events := by
  have hstart : Chained (Manager.initial now : Manager α ε).lock ∧
      Kept (Manager.initial now : Manager α ε) :=
    ⟨Chained.empty, fun _ ↦ ⟨List.isChain_nil, nofun⟩⟩
  refine (always_of_step (P := fun s ↦ Chained s.lock ∧ Kept s) (fun s e h ↦ ?_) hstart
    events).mono fun s h ↦ ⟨h.1.exclusive, fun account ↦ consecutive_of_isChain (h.2 account).1⟩
  refine ⟨?_, h.2.step isThenable cacheTtlMs e⟩
  rcases lock_step s isThenable cacheTtlMs e with hlock | ⟨e', -, hlock⟩
  · exact hlock ▸ h.1
  · exact hlock ▸ h.1.step isThenable e'

section Examples

inductive Reason where
  | error (message : String)
  | promise
  deriving DecidableEq

def Reason.isThenable (r : Reason) : Bool := r = .promise

def rejecting (r : Reason) : List (Event ℕ Reason) :=
  [.lock (.withAccountLock "G"), .lock (.withAccountLock "G"), .lock (.start 0),
    .lock (.finish 0 (.error r)), .lock (.settle 0), .lock (.release 0), .lock (.start 1)]

theorem manager_correct_at :
    Always (Manager.step Reason.isThenable 30000) (Correct Reason.isThenable) (Manager.initial 0)
        (rejecting (.error "boom")) ∧
      ((run (Manager.step Reason.isThenable 30000) (Manager.initial 0)
        (rejecting (.error "boom"))).lock.calls.map (·.started)) = [true, true] := by
  refine ⟨manager_correct Reason.isThenable 30000 0 ?_, by decide⟩
  intro e he
  simp only [rejecting, List.mem_cons, List.not_mem_nil, or_false] at he
  rcases he with rfl | rfl | rfl | rfl | rfl | rfl | rfl <;> trivial

/-- The first task has rejected with a promise. Nothing is left to do, no task runs, and the second
one has not been started. -/
theorem account_blocked :
    ¬Always (Manager.step Reason.isThenable 30000) (Correct Reason.isThenable)
      (Manager.initial 0) (rejecting .promise) := by
  intro h
  generalize hlast : (run (Manager.step Reason.isThenable 30000) (Manager.initial 0)
    (rejecting .promise) : Manager ℕ Reason).lock = l
  have hcalls : l.calls =
      [⟨"G", none, true, some (.error .promise), some (.error .promise), true, none, false⟩,
        ⟨"G", some 0, false, none, none, false, none, false⟩] := by
    rw [← hlast]
    decide
  have hhas : ∀ {n c}, l.Has n c → c ∈ l.calls := fun hc ↦ List.mem_of_getElem? hc
  simp only [hcalls, List.mem_cons, List.not_mem_nil, or_false] at hhas
  have hrest : l.AtRest := by
    intro e he
    cases e with
    | withAccountLock | finish | adopt => exact he
    | start n =>
      obtain ⟨c, hc, hstarted, -, hcurrent⟩ := he
      rcases hhas hc with rfl | rfl
      · cases hstarted
      · rw [Lock.current, hcalls] at hcurrent
        cases hcurrent
    | settle n =>
      obtain ⟨c, hc, houtcome, hresult⟩ := he
      rcases hhas hc with rfl | rfl
      · cases hresult
      · cases houtcome
    | release n =>
      obtain ⟨c, hc, hresult, hreleased⟩ := he
      rcases hhas hc with rfl | rfl
      · cases hreleased
      · cases hresult
    | cleanUp n =>
      obtain ⟨c, hc, hgate, -⟩ := he
      rcases hhas hc with rfl | rfl <;> cases hgate
  have hcorrect := h.last.atRest
  rw [hlast] at hcorrect
  obtain ⟨-, hwaits, -⟩ := hcorrect hrest
  -- the second task waits for none that runs
  obtain ⟨m, -, d, hd, -, hrunning⟩ :=
    hwaits 1 ⟨"G", some 0, false, none, none, false, none, false⟩ (by rw [Lock.Has, hcalls]; rfl)
      rfl
  rcases hhas hd with rfl | rfl
  · cases hrunning.2
  · cases hrunning.1

end Examples

end StellarDonations.SequenceManager
