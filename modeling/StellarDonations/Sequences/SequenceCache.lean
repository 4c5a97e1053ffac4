import StellarDonations.Concurrency.Interleaving
import StellarDonations.Errors

/-!
# The sequence cache

`SequenceCacheService`: the sequence number of an account is loaded from Horizon and kept for a
while, raised by one for each transaction that is sent. `incrementSequence` raises the cached number
and counts the increments; `_getOptimisticSequence` adds the two, so after `k` increments of `s` the
cache answers `s + 2 * k` (`getOptimisticSequence_eq`). `getSequenceNumber` with `forceRefresh` goes
past the cache only to look into it again in `_fetchAndCacheSequence`, one microtask later.

Any number of operations run interleaved. Which load an entry comes from, and how often it has been
incremented since, is kept beside the cache; no operation reads it. The answers are right in exactly
the runs in which no incremented entry is served, and no forced call finds a fresh entry it did not
see loaded (`answers_lawful_iff`).
-/

namespace StellarDonations.SequenceCache

open Concurrency

structure Config where
  cacheStalenessThresholdMs : ℕ
  maxRetryCount : ℕ
  maxRetryCount_pos : 0 < maxRetryCount

structure CacheEntry where
  sequence : ℕ
  lastFamilyCount : ℕ
  fetchedAt : ℕ
  deriving DecidableEq

/-- Where an entry comes from: which request to Horizon, what it was answered, and how often the
account has been incremented since. -/
structure Origin where
  request : ℕ
  sequence : ℕ
  increments : ℕ
  deriving DecidableEq

/-- The cache, the time, the number of requests sent to Horizon, and the origins of the entries. -/
structure Shared where
  cache : String → Option CacheEntry
  now : ℕ
  requests : ℕ
  origin : String → Origin

/-- The methods that answer with a sequence number. -/
inductive Method where
  | getSequenceNumber (forceRefresh : Bool)
  | refreshOnTxBadSeq
  deriving DecidableEq

/-- What a call is asked for. `evict` stands for `invalidateAccount`, and for what `clearCache` and
`cleanupStaleEntries` do to one entry. -/
inductive Operation where
  | sequenceNumber (accountAddress : String) (method : Method)
  | incrementSequence (accountAddress : String)
  | evict (accountAddress : String)
  deriving DecidableEq

/-- A call that answers, and how many requests had been sent when it was made. -/
structure Request where
  accountAddress : String
  method : Method
  started : ℕ
  deriving DecidableEq

/-- What a call has returned, and where it is from. -/
structure Answer where
  value : ℕ
  origin : Origin
  deriving DecidableEq

inductive Call where
  | waiting (op : Operation)
  /-- `lockPromise` is resolved; what follows it runs in a microtask of its own. -/
  | locked (r : Request)
  | loading (r : Request) (attempt request : ℕ)
  | sleeping (r : Request) (attempt : ℕ)
  | answered (r : Request) (a : Answer)
  | threw (e : AppError)
  | done
  deriving DecidableEq

/-- The time that passes before a step, and what Horizon answers if the step awaits it. -/
structure Env where
  elapsed : ℕ
  loadAccount : Except AppError ℕ

/-! ## The steps -/

def getOptimisticSequence (e : CacheEntry) : ℕ := e.sequence + e.lastFamilyCount

/-- `incrementSequence` on an entry. -/
def increment (e : CacheEntry) : CacheEntry :=
  { e with sequence := e.sequence + 1, lastFamilyCount := e.lastFamilyCount + 1 }

/-- The entry of an account, while it is not stale. -/
def Shared.fresh (config : Config) (sh : Shared) (account : String) : Option CacheEntry :=
  (sh.cache account).filter fun e ↦ sh.now - e.fetchedAt < config.cacheStalenessThresholdMs

def Shared.serve (sh : Shared) (r : Request) (e : CacheEntry) : Call :=
  .answered r ⟨getOptimisticSequence e, sh.origin r.accountAddress⟩

def Shared.incrementSequence (sh : Shared) (account : String) : Shared :=
  match sh.cache account with
  | none => sh
  | some e =>
    { sh with
      cache := Function.update sh.cache account (some (increment e))
      origin := Function.update sh.origin account
        { sh.origin account with increments := (sh.origin account).increments + 1 } }

def Shared.evict (sh : Shared) (account : String) : Shared :=
  { sh with cache := Function.update sh.cache account none }

def Shared.store (sh : Shared) (account : String) (request sequence : ℕ) : Shared :=
  { sh with
    cache := Function.update sh.cache account (some ⟨sequence, 0, sh.now⟩)
    origin := Function.update sh.origin account ⟨request, sequence, 0⟩ }

def Shared.load (sh : Shared) (r : Request) (attempt : ℕ) : Shared × Call :=
  ({ sh with requests := sh.requests + 1 }, .loading r attempt sh.requests)

/-- Run a call up to its next suspension point. -/
def execute (config : Config) (sh : Shared) (c : Call) (loadAccount : Except AppError ℕ) :
    Shared × Call :=
  match c with
  | .waiting (.sequenceNumber account (.getSequenceNumber forceRefresh)) =>
    let r : Request := ⟨account, .getSequenceNumber forceRefresh, sh.requests⟩
    match sh.fresh config account with
    | some e => if forceRefresh then (sh, .locked r) else (sh, sh.serve r e)
    | none => (sh, .locked r)
  | .waiting (.sequenceNumber account .refreshOnTxBadSeq) =>
    (sh.evict account, .locked ⟨account, .refreshOnTxBadSeq, sh.requests⟩)
  | .waiting (.incrementSequence account) => (sh.incrementSequence account, .done)
  | .waiting (.evict account) => (sh.evict account, .done)
  | .locked r =>
    match sh.fresh config r.accountAddress with
    | some e => (sh, sh.serve r e)
    | none => sh.load r 1
  | .loading r attempt request =>
    match loadAccount with
    | .ok sequence =>
      (sh.store r.accountAddress request sequence, .answered r ⟨sequence, ⟨request, sequence, 0⟩⟩)
    | .error e =>
      if attempt < config.maxRetryCount then (sh, .sleeping r attempt) else (sh, .threw e)
  | .sleeping r attempt => sh.load r (attempt + 1)
  | .answered _ _ | .threw _ | .done => (sh, c)

def Shared.wait (sh : Shared) (elapsed : ℕ) : Shared := { sh with now := sh.now + elapsed }

def resume (config : Config) (sh : Shared) (c : Call) (env : Env) : Shared × Call :=
  execute config (sh.wait env.elapsed) c env.loadAccount

/-! ## What must hold -/

/-- A plain call is answered the number that was loaded and one more for each increment since. A
forced one is answered what was loaded by a request sent after the call was made. -/
def Answer.Lawful (r : Request) (a : Answer) : Prop :=
  match r.method with
  | .getSequenceNumber false => a.value = a.origin.sequence + a.origin.increments
  | .getSequenceNumber true => a.value = a.origin.sequence ∧ r.started ≤ a.origin.request
  | .refreshOnTxBadSeq => True

instance : ∀ (r : Request) (a : Answer), Decidable (a.Lawful r)
  | ⟨_, .getSequenceNumber false, _⟩, _ => inferInstanceAs (Decidable (_ = _))
  | ⟨_, .getSequenceNumber true, _⟩, _ => inferInstanceAs (Decidable (_ ∧ _))
  | ⟨_, .refreshOnTxBadSeq, _⟩, _ => inferInstanceAs (Decidable True)

/-- What the call has been answered, if it has, is right. -/
def Call.Lawful (c : Call) : Prop := ∀ r a, c = .answered r a → a.Lawful r

/-- All that has been answered is right. -/
def Lawful {ι : Type*} (s : Calls ι Shared Call) : Prop := ∀ i, (s.call i).Lawful

/-- The entry of an account may be served to a call: it has not been incremented, and if the call is
forced the entry was loaded by a request sent after the call was made. -/
def MayServe (sh : Shared) (e : CacheEntry) (r : Request) : Prop :=
  match r.method with
  | .getSequenceNumber false => e.lastFamilyCount = 0
  | .getSequenceNumber true =>
    e.lastFamilyCount = 0 ∧ r.started ≤ (sh.origin r.accountAddress).request
  | .refreshOnTxBadSeq => True

/-- A call that is about to look into the cache finds nothing fresh there, or what it may be served.
A forced call that starts does not look. -/
def Call.Guarded (config : Config) (sh : Shared) : Call → Prop
  | .waiting (.sequenceNumber account (.getSequenceNumber false)) =>
    ∀ e ∈ sh.fresh config account,
      MayServe sh e ⟨account, .getSequenceNumber false, sh.requests⟩
  | .locked r => ∀ e ∈ sh.fresh config r.accountAddress, MayServe sh e r
  | _ => True

/-- A call looks into the cache at the end of the time that passes. -/
def Guarded {ι : Type*} (config : Config) (s : Calls ι Shared Call) (a : ι × Env) : Prop :=
  (s.call a.1).Guarded config (s.shared.wait a.2.elapsed)

/-! ## What an entry has been through -/

/-- An entry holds the number that was loaded and one more for each increment since, and counts
these. -/
def Tracked (sh : Shared) : Prop :=
  ∀ account e, sh.cache account = some e →
    e.sequence = (sh.origin account).sequence + (sh.origin account).increments ∧
      e.lastFamilyCount = (sh.origin account).increments

section Tracked

variable {sh : Shared} {account : String} {e : CacheEntry}

/-- The increments since the load are added twice. -/
theorem getOptimisticSequence_eq (h : Tracked sh) (he : sh.cache account = some e) :
    getOptimisticSequence e =
      (sh.origin account).sequence + 2 * (sh.origin account).increments := by
  obtain ⟨hsequence, hcount⟩ := h account e he
  rw [getOptimisticSequence, hsequence, hcount]
  omega

theorem Tracked.incrementSequence (h : Tracked sh) (account : String) :
    Tracked (sh.incrementSequence account) := by
  rw [Shared.incrementSequence]
  cases he : sh.cache account with
  | none => exact h
  | some e =>
    intro account' e' he'
    by_cases haccount : account' = account
    · subst haccount
      obtain ⟨hsequence, hcount⟩ := h account' e he
      dsimp only at he' ⊢
      rw [Function.update_self, Option.some.injEq] at he'
      rw [Function.update_self, ← he', increment, hsequence, hcount]
      exact ⟨add_assoc _ _ 1, rfl⟩
    · dsimp only at he' ⊢
      rw [Function.update_of_ne haccount] at he'
      rw [Function.update_of_ne haccount]
      exact h account' e' he'

theorem Tracked.evict (h : Tracked sh) (account : String) : Tracked (sh.evict account) := by
  intro account' e' he'
  rw [Shared.evict] at he'
  dsimp only at he'
  by_cases haccount : account' = account
  · rw [haccount, Function.update_self] at he'
    cases he'
  · rw [Function.update_of_ne haccount] at he'
    exact h account' e' he'

theorem Tracked.store (h : Tracked sh) (account : String) (request sequence : ℕ) :
    Tracked (sh.store account request sequence) := by
  intro account' e' he'
  rw [Shared.store] at he' ⊢
  dsimp only at he' ⊢
  by_cases haccount : account' = account
  · rw [haccount, Function.update_self, Option.some.injEq] at he'
    rw [haccount, Function.update_self, ← he']
    exact ⟨rfl, rfl⟩
  · rw [Function.update_of_ne haccount] at he'
    rw [Function.update_of_ne haccount]
    exact h account' e' he'

theorem cache_of_fresh {config : Config} (h : sh.fresh config account = some e) :
    sh.cache account = some e :=
  (Option.filter_eq_some_iff.mp h).1

/-- An entry may be served exactly when what it answers is right. -/
theorem serve_lawful_iff (h : Tracked sh) (r : Request)
    (he : sh.cache r.accountAddress = some e) : (sh.serve r e).Lawful ↔ MayServe sh e r := by
  have hvalue := getOptimisticSequence_eq h he
  obtain ⟨-, hcount⟩ := h _ e he
  have hserve : (sh.serve r e).Lawful ↔
      Answer.Lawful r ⟨getOptimisticSequence e, sh.origin r.accountAddress⟩ := by
    refine ⟨fun hlawful ↦ hlawful r _ rfl, fun hlawful r' a' heq ↦ ?_⟩
    rw [Shared.serve, Call.answered.injEq] at heq
    obtain ⟨rfl, rfl⟩ := heq
    exact hlawful
  rw [hserve]
  unfold Answer.Lawful MayServe
  split
  · dsimp only
    omega
  · dsimp only
    refine and_congr_left' ?_
    omega
  · exact Iff.rfl

end Tracked

/-! ## The steps of a run -/

section Steps

variable {config : Config} {sh : Shared} {c : Call} {loadAccount : Except AppError ℕ}

theorem tracked_execute (h : Tracked sh) : Tracked (execute config sh c loadAccount).1 := by
  cases c with
  | waiting op =>
    cases op with
    | sequenceNumber account method =>
      cases method with
      | getSequenceNumber forceRefresh =>
        rw [execute]
        cases sh.fresh config account with
        | none => exact h
        | some e => cases forceRefresh <;> exact h
      | refreshOnTxBadSeq => exact h.evict account
    | incrementSequence account => exact h.incrementSequence account
    | evict account => exact h.evict account
  | locked r =>
    rw [execute]
    cases sh.fresh config r.accountAddress <;> exact h
  | loading r attempt request =>
    cases loadAccount with
    | ok sequence => exact h.store r.accountAddress request sequence
    | error e =>
      rw [execute]
      split_ifs <;> exact h
  | sleeping r attempt => exact h
  | answered r a => exact h
  | threw e => exact h
  | done => exact h

theorem Call.lawful_of_ne {c : Call} (h : ∀ r a, c ≠ .answered r a) : c.Lawful :=
  fun r a heq ↦ absurd heq (h r a)

theorem lawful_loaded (r : Request) {request : ℕ} (hstarted : r.started ≤ request) (sequence : ℕ) :
    (Call.answered r ⟨sequence, ⟨request, sequence, 0⟩⟩).Lawful := by
  intro r' a' heq
  rw [Call.answered.injEq] at heq
  obtain ⟨rfl, rfl⟩ := heq
  unfold Answer.Lawful
  split
  · rfl
  · exact ⟨rfl, hstarted⟩
  · trivial

/-- A call was made before the request it has sent, and both before the next request. -/
def Call.Numbered (requests : ℕ) : Call → Prop
  | .locked r | .sleeping r _ => r.started ≤ requests
  | .loading r _ request => r.started ≤ request ∧ request < requests
  | _ => True

theorem Call.Numbered.mono {m n : ℕ} (h : m ≤ n) {c : Call} (hc : c.Numbered m) :
    c.Numbered n := by
  cases c with
  | locked r => exact le_trans hc h
  | sleeping r attempt => exact le_trans hc h
  | loading r attempt request => exact ⟨hc.1, hc.2.trans_le h⟩
  | waiting op => trivial
  | answered r a => trivial
  | threw e => trivial
  | done => trivial

theorem requests_incrementSequence (sh : Shared) (account : String) :
    (sh.incrementSequence account).requests = sh.requests := by
  rw [Shared.incrementSequence]
  cases sh.cache account <;> rfl

theorem requests_le_execute : sh.requests ≤ (execute config sh c loadAccount).1.requests := by
  cases c with
  | waiting op =>
    cases op with
    | sequenceNumber account method =>
      cases method with
      | getSequenceNumber forceRefresh =>
        rw [execute]
        cases sh.fresh config account with
        | none => exact le_rfl
        | some e => cases forceRefresh <;> exact le_rfl
      | refreshOnTxBadSeq => exact le_rfl
    | incrementSequence account => exact (requests_incrementSequence sh account).ge
    | evict account => exact le_rfl
  | locked r =>
    rw [execute]
    cases sh.fresh config r.accountAddress with
    | none => exact Nat.le_succ _
    | some e => exact le_rfl
  | loading r attempt request =>
    cases loadAccount with
    | ok sequence => exact le_rfl
    | error e =>
      rw [execute]
      split_ifs <;> exact le_rfl
  | sleeping r attempt => exact Nat.le_succ _
  | answered r a => exact le_rfl
  | threw e => exact le_rfl
  | done => exact le_rfl

theorem numbered_execute (h : c.Numbered sh.requests) :
    (execute config sh c loadAccount).2.Numbered
      (execute config sh c loadAccount).1.requests := by
  cases c with
  | waiting op =>
    cases op with
    | sequenceNumber account method =>
      cases method with
      | getSequenceNumber forceRefresh =>
        rw [execute]
        cases sh.fresh config account with
        | none => exact le_refl sh.requests
        | some e =>
          cases forceRefresh with
          | true => exact le_refl sh.requests
          | false => trivial
      | refreshOnTxBadSeq => exact le_refl sh.requests
    | incrementSequence account => trivial
    | evict account => trivial
  | locked r =>
    rw [execute]
    cases sh.fresh config r.accountAddress with
    | none => exact ⟨h, Nat.lt_succ_self _⟩
    | some e => trivial
  | loading r attempt request =>
    cases loadAccount with
    | ok sequence => trivial
    | error e =>
      rw [execute]
      split_ifs
      · exact h.1.trans h.2.le
      · trivial
  | sleeping r attempt => exact ⟨h, Nat.lt_succ_self _⟩
  | answered r a => trivial
  | threw e => trivial
  | done => trivial

theorem forall_mem_some {α : Type*} {a : α} {p : α → Prop} : (∀ b ∈ some a, p b) ↔ p a := by
  simp only [Option.mem_def, Option.some.injEq, forall_eq']

/-- **One step** answers right exactly when what it finds in the cache may be served. -/
theorem lawful_execute_iff (htracked : Tracked sh) (hnumbered : c.Numbered sh.requests)
    (hlawful : c.Lawful) :
    (execute config sh c loadAccount).2.Lawful ↔ c.Guarded config sh := by
  cases c with
  | waiting op =>
    cases op with
    | sequenceNumber account method =>
      cases method with
      | getSequenceNumber forceRefresh =>
        cases forceRefresh with
        | true =>
          -- a forced call does not look into the cache yet
          refine iff_of_true ?_ trivial
          rw [execute]
          cases sh.fresh config account with
          | none => exact Call.lawful_of_ne nofun
          | some e => exact Call.lawful_of_ne nofun
        | false =>
          rw [execute, Call.Guarded]
          cases hfresh : sh.fresh config account with
          | none => exact iff_of_true (Call.lawful_of_ne nofun) nofun
          | some e =>
            rw [forall_mem_some]
            exact serve_lawful_iff htracked ⟨account, _, _⟩ (cache_of_fresh hfresh)
      | refreshOnTxBadSeq => exact iff_of_true (Call.lawful_of_ne nofun) trivial
    | incrementSequence account => exact iff_of_true (Call.lawful_of_ne nofun) trivial
    | evict account => exact iff_of_true (Call.lawful_of_ne nofun) trivial
  | locked r =>
    rw [execute, Call.Guarded]
    cases hfresh : sh.fresh config r.accountAddress with
    | none => exact iff_of_true (Call.lawful_of_ne nofun) nofun
    | some e =>
      rw [forall_mem_some]
      exact serve_lawful_iff htracked r (cache_of_fresh hfresh)
  | loading r attempt request =>
    refine iff_of_true ?_ trivial
    cases loadAccount with
    | ok sequence => exact lawful_loaded r hnumbered.1 sequence
    | error e =>
      rw [execute]
      split_ifs
      · exact Call.lawful_of_ne nofun
      · exact Call.lawful_of_ne nofun
  | sleeping r attempt => exact iff_of_true (Call.lawful_of_ne nofun) trivial
  | answered r a => exact iff_of_true hlawful trivial
  | threw e => exact iff_of_true hlawful trivial
  | done => exact iff_of_true hlawful trivial

end Steps

/-! ## Runs -/

section Runs

variable {ι : Type*}

/-- What the states of a run have in common while the answers are right. -/
structure Invariant (s : Calls ι Shared Call) : Prop where
  tracked : Tracked s.shared
  numbered : ∀ i, (s.call i).Numbered s.shared.requests
  lawful : Lawful s

variable [DecidableEq ι] {config : Config} {s : Calls ι Shared Call}

theorem Tracked.step (h : Tracked s.shared) (a : ι × Env) :
    Tracked (Calls.step (resume config) s a).shared :=
  have hwait : Tracked (s.shared.wait a.2.elapsed) := h
  tracked_execute hwait

theorem numbered_step (h : ∀ i, (s.call i).Numbered s.shared.requests) (a : ι × Env) (j : ι) :
    ((Calls.step (resume config) s a).call j).Numbered
      (Calls.step (resume config) s a).shared.requests := by
  have hwait : (s.call a.1).Numbered (s.shared.wait a.2.elapsed).requests := h a.1
  have hself : (resume config s.shared (s.call a.1) a.2).2.Numbered
      (resume config s.shared (s.call a.1) a.2).1.requests := numbered_execute hwait
  have hle : s.shared.requests ≤ (resume config s.shared (s.call a.1) a.2).1.requests :=
    (requests_le_execute : (s.shared.wait a.2.elapsed).requests ≤ _)
  exact Calls.forall_step (P := fun (sh : Shared) (c : Call) ↦ c.Numbered sh.requests) h
    hself (fun _ hc ↦ hc.mono hle) j

/-- The step of a call changes what that call has been answered, and nothing else. -/
theorem lawful_step_iff (h : Invariant s) (a : ι × Env) :
    Lawful (Calls.step (resume config) s a) ↔ Guarded config s a := by
  have htracked : Tracked (s.shared.wait a.2.elapsed) := h.tracked
  have hself : (resume config s.shared (s.call a.1) a.2).2.Lawful ↔ Guarded config s a :=
    lawful_execute_iff htracked (h.numbered a.1) (h.lawful a.1)
  rw [← hself]
  constructor
  · intro hlawful
    have hcall := hlawful a.1
    rwa [Calls.step_call_self] at hcall
  · intro hcall j
    by_cases hj : j = a.1
    · rw [hj, Calls.step_call_self]
      exact hcall
    · rw [Calls.step_call_of_ne s a.2 hj]
      exact h.lawful j

/-- The service, with nothing in the cache. -/
def initial (now : ℕ) (op : ι → Operation) : Calls ι Shared Call :=
  ⟨⟨fun _ ↦ none, now, 0, fun _ ↦ ⟨0, 0, 0⟩⟩, fun i ↦ .waiting (op i)⟩

omit [DecidableEq ι] in
theorem invariant_initial (now : ℕ) (op : ι → Operation) : Invariant (initial now op) where
  tracked := fun _ _ he ↦ nomatch he
  numbered := fun _ ↦ trivial
  lawful := fun _ ↦ Call.lawful_of_ne nofun

/-- **The answers are right** in a run exactly when every call that looks into the cache finds
nothing fresh there, or an entry that has not been incremented and, if the call is forced, was
loaded by a request sent after the call was made. -/
theorem answers_lawful_iff (config : Config) (now : ℕ) (op : ι → Operation) (as : List (ι × Env)) :
    Always (Calls.step (resume config)) Lawful (initial now op) as ↔
      Along (Calls.step (resume config)) (Guarded config) (initial now op) as := by
  refine always_iff_along (I := Invariant) (fun s h ↦ h.lawful) (fun s a h hguarded ↦ ?_)
    (fun s a h hguarded hlawful ↦ ?_) (invariant_initial now op) as
  · exact ⟨h.tracked.step a, numbered_step h.numbered a, (lawful_step_iff h a).mpr hguarded⟩
  · exact hguarded ((lawful_step_iff h a).mp hlawful)

end Runs

section Examples

def defaultConfig : Config := ⟨300000, 3, by decide⟩

/-- A step at once, in which Horizon answers `100` if it is asked. -/
def atOnce (i : Fin 3) : Fin 3 × Env := (i, ⟨0, .ok 100⟩)

/-- A number is read, the account is incremented, and the number is read again. -/
def readAgain : Fin 3 → Operation
  | 0 => .sequenceNumber "G" (.getSequenceNumber false)
  | 1 => .incrementSequence "G"
  | 2 => .sequenceNumber "G" (.getSequenceNumber false)

def readForced : Fin 2 → Operation
  | 0 => .sequenceNumber "G" (.getSequenceNumber false)
  | 1 => .sequenceNumber "G" (.getSequenceNumber true)

/-- After one increment of `100` the cache answers `102`. A forced call is answered from the cache,
and sends no request. -/
theorem answers_wrong :
    ¬Always (Calls.step (resume defaultConfig)) Lawful (initial 0 readAgain)
        [atOnce 0, atOnce 0, atOnce 0, atOnce 1, atOnce 2] ∧
      ¬Always (Calls.step (resume defaultConfig)) Lawful (initial 0 readForced)
        [(0, ⟨0, .ok 100⟩), (0, ⟨0, .ok 100⟩), (0, ⟨0, .ok 100⟩), (1, ⟨0, .ok 100⟩),
          (1, ⟨0, .ok 100⟩)] := by
  constructor
  · intro h
    have hlawful := h.last 2 ⟨"G", .getSequenceNumber false, 1⟩ ⟨102, ⟨0, 100, 1⟩⟩ (by decide)
    exact absurd hlawful (by decide)
  · intro h
    have hlawful := h.last 1 ⟨"G", .getSequenceNumber true, 1⟩ ⟨100, ⟨0, 100, 0⟩⟩ (by decide)
    exact absurd hlawful (by decide)

end Examples

end StellarDonations.SequenceCache
