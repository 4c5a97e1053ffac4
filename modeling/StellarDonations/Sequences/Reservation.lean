import Mathlib.Tactic.IntervalCases
import StellarDonations.Sequences.AccountLock
import StellarDonations.Text.JsNumber

/-!
# Reserving sequence numbers

`reserve`, `commit`, `release` and `cleanupExpiredReservations` of `SequenceManager`, called one
after the other by any number of instances. Sequence numbers are kept as text.

`reserve` allocates the number after the committed one that is largest as a text. In that order `9`
comes after `10`. And a released number stays in the table, where the pair of account and number is
unique. So the next reservation works as it should while nothing has been released and at most nine
numbers have been committed, and never again afterwards (`reserve_isNext_iff`).
-/

namespace StellarDonations.SequenceManager

open AccountLock

/-! ## The tables -/

inductive AllocationState where
  | reserved
  | committed
  | released
  deriving DecidableEq

/-- A row of `sequence_allocations`. -/
structure Allocation where
  accountAddress : String
  sequenceNumber : String
  state : AllocationState
  instanceId : String
  reservedAt : ℕ
  committedAt : Option ℕ
  releasedAt : Option ℕ
  transactionHash : Option String
  errorReason : Option String
  deriving DecidableEq

/-- The tables, and the local cache of each instance. -/
structure State where
  allocations : List Allocation
  locks : Locks
  cache : String → String → Option String

structure Config where
  lockTimeoutMs : ℕ
  reservationExpiryMs : ℕ

/-- What `reserve` returns. -/
structure Reservation where
  sequence : String
  reservationId : String
  deriving DecidableEq

/-! ## Reserving -/

/-- `_acquireLock`, when no other call comes in between. -/
def acquireLock (lockTimeoutMs : ℕ) (locks : Locks) (a : Args) (now : ℕ) : Locks × Bool :=
  if (locks a.accountAddress).any fun row ↦ now < row.expiresAt then (locks, false)
  else (Function.update locks a.accountAddress (some (lockRow lockTimeoutMs a now)), true)

def releaseLock (locks : Locks) (accountAddress : String) : Locks :=
  Function.update locks accountAddress none

def laterText (best : Option String) (text : String) : Option String :=
  if best.all (· < text) then some text else best

def committedNumbers (allocations : List Allocation) (accountAddress : String) : List String :=
  (allocations.filter fun r ↦ r.accountAddress = accountAddress && r.state = .committed).map
    (·.sequenceNumber)

/-- `_getLastCommittedSequence`: `ORDER BY sequence_number DESC LIMIT 1` on a `TEXT` column. -/
def getLastCommittedSequence (allocations : List Allocation) (accountAddress : String) : String :=
  ((committedNumbers allocations accountAddress).foldl laterText none).getD "0"

/-- `onChainSequence`: the answer of Horizon, when there is a client, and the cache when it
fails. -/
def onChainSequence (st : State) (a : Args) (horizon : Option (Except AppError String)) : String :=
  match horizon with
  | none => getLastCommittedSequence st.allocations a.accountAddress
  | some (.ok sequence) => sequence
  | some (.error _) => (st.cache a.instanceId a.accountAddress).getD "0"

def newAllocation (a : Args) (sequence : String) (now : ℕ) : Allocation where
  accountAddress := a.accountAddress
  sequenceNumber := sequence
  state := .reserved
  instanceId := a.instanceId
  reservedAt := now
  committedAt := none
  releasedAt := none
  transactionHash := none
  errorReason := none

/-- The `INSERT` of a reservation, where the account and the number are unique. -/
def insertAllocation (allocations : List Allocation) (row : Allocation) :
    Except AppError (List Allocation) :=
  if allocations.any fun r ↦ r.accountAddress = row.accountAddress &&
      r.sequenceNumber = row.sequenceNumber then .error .uniqueViolation
  else .ok (allocations ++ [row])

/-- The part of `reserve` that runs with the lock. -/
def allocate (st : State) (a : Args) (horizon : Option (Except AppError String)) (now : ℕ) :
    Except AppError (List Allocation × Reservation) :=
  match JsNumber.bigInt (onChainSequence st a horizon) with
  | none => .error (.notBigInt (onChainSequence st a horizon))
  | some onChain => do
    let nextSequence := toString (onChain + 1)
    let allocations ← insertAllocation st.allocations (newAllocation a nextSequence now)
    return (allocations, ⟨nextSequence,
      a.accountAddress ++ ":" ++ nextSequence ++ ":" ++ a.instanceId⟩)

/-- `reserve`. The clock shows `lockedAt` when the lock is taken, and `now` at the `INSERT`. -/
def reserve (cfg : Config) (st : State) (a : Args) (horizon : Option (Except AppError String))
    (lockedAt now : ℕ) : State × Except AppError Reservation :=
  match acquireLock cfg.lockTimeoutMs st.locks a lockedAt with
  | (locks, false) => ({ st with locks := locks },
      .error (.plain ("Could not acquire lock for account " ++ a.accountAddress)))
  | (locks, true) =>
    let locks := releaseLock locks a.accountAddress
    match allocate st a horizon now with
    | .error e => ({ st with locks := locks }, .error e)
    | .ok (allocations, reservation) =>
      ({ st with allocations := allocations, locks := locks }, .ok reservation)

/-! ## Committing and releasing -/

/-- `const [accountAddress, sequence] = reservationId.split(':')`. -/
def splitReservation (reservationId : String) : String × Option String :=
  match (reservationId.toList.splitOn ':').map String.ofList with
  | account :: sequence :: _ => (account, some sequence)
  | [account] => (account, none)
  | [] => ("", none)

def Allocation.isReservation (r : Allocation) (reservationId : String) : Bool :=
  let (account, sequence) := splitReservation reservationId
  r.accountAddress = account && some r.sequenceNumber = sequence && r.state = .reserved

/-- `SET state = 'committed', committed_at = ?, transaction_hash = ?`. -/
def Allocation.markCommitted (r : Allocation) (transactionHash : Option String) (now : ℕ) :
    Allocation :=
  { r with state := .committed, committedAt := some now, transactionHash := transactionHash }

def Allocation.markReleased (r : Allocation) (now : ℕ) : Allocation :=
  { r with state := .released, releasedAt := some now }

def commit (st : State) (instanceId reservationId : String) (transactionHash : Option String)
    (now : ℕ) : State × Except AppError Unit :=
  if st.allocations.any (·.isReservation reservationId) then
    let (account, sequence) := splitReservation reservationId
    ({ st with
        allocations := st.allocations.map fun r ↦
          if r.isReservation reservationId then r.markCommitted transactionHash now else r
        cache := Function.update st.cache instanceId
          (Function.update (st.cache instanceId) account sequence) }, .ok ())
  else (st, .error (.plain ("Reservation not found or already processed: " ++ reservationId)))

def release (st : State) (reservationId : String) (reason : Option String) (now : ℕ) : State :=
  { st with
    allocations := st.allocations.map fun r ↦ if r.isReservation reservationId then
      { r.markReleased now with errorReason := reason } else r }

def Allocation.isExpired (cfg : Config) (now : ℕ) (r : Allocation) : Bool :=
  r.state = .reserved && r.reservedAt + cfg.reservationExpiryMs < now

def cleanupExpiredReservations (cfg : Config) (st : State) (now : ℕ) : State × ℕ :=
  ({ st with
      allocations := st.allocations.map fun r ↦
        if r.isExpired cfg now then r.markReleased now else r },
    st.allocations.countP (·.isExpired cfg now))

/-! ## Runs -/

/-- A call of some instance, when no Horizon client is supplied. -/
inductive Op where
  | reserve (a : Args) (lockedAt now : ℕ)
  | commit (instanceId reservationId : String) (transactionHash : Option String) (now : ℕ)
  | release (reservationId : String) (reason : Option String) (now : ℕ)
  | cleanupExpiredReservations (now : ℕ)

def step (cfg : Config) (st : State) : Op → State
  | .reserve a lockedAt now => (reserve cfg st a none lockedAt now).1
  | .commit instanceId reservationId hash now =>
    (SequenceManager.commit st instanceId reservationId hash now).1
  | .release reservationId reason now => SequenceManager.release st reservationId reason now
  | .cleanupExpiredReservations now =>
    (SequenceManager.cleanupExpiredReservations cfg st now).1

def empty : State := ⟨[], fun _ ↦ none, fun _ _ ↦ none⟩

def NoneOutstanding (st : State) (account : String) : Prop :=
  ∀ r ∈ st.allocations, r.accountAddress = account → r.state ≠ .reserved

def NoneReleased (st : State) (account : String) : Prop :=
  ∀ r ∈ st.allocations, r.accountAddress = account → r.state ≠ .released

/-- The numerically largest committed number of the account, zero when none is committed. -/
def largestCommitted (st : State) (account : String) : ℤ :=
  ((committedNumbers st.allocations account).filterMap JsNumber.bigInt).foldl max 0

instance (st : State) (account : String) : Decidable (NoneOutstanding st account) :=
  inferInstanceAs (Decidable (∀ r ∈ st.allocations, _))

instance (st : State) (account : String) : Decidable (NoneReleased st account) :=
  inferInstanceAs (Decidable (∀ r ∈ st.allocations, _))

/-- The next `reserve` succeeds, and returns the number after the largest committed one. -/
def ReservesNext (cfg : Config) (st : State) (account : String) : Prop :=
  ∀ instanceId lockedAt now, (reserve cfg st ⟨instanceId, account⟩ none lockedAt now).2.map
    (·.sequence) = .ok (toString (largestCommitted st account + 1))

/-! ## The allocations of one account -/

/-- The numbers of an account, each with its state, in the order they were allocated. -/
def entries (allocations : List Allocation) (account : String) : List (String × AllocationState) :=
  (allocations.filter (·.accountAddress = account)).map fun r ↦ (r.sequenceNumber, r.state)

/-- The first `k` numbers, all of them committed. -/
def committedUpTo (k : ℕ) : List (String × AllocationState) :=
  (List.range k).map fun n ↦ (toString (n + 1), .committed)

/-- The first `k` numbers are committed, ten at most; the next one may have been allocated and is
outstanding or released. -/
structure Shape (l : List (String × AllocationState)) (k : ℕ) (last : Option AllocationState) :
    Prop where
  eq : l = committedUpTo k ++ last.toList.map fun s ↦ (toString (k + 1), s)
  le : k ≤ 10
  room : last ≠ none → k ≤ 9
  open_ : last ≠ some .committed

theorem committedNumbers_eq (allocations : List Allocation) (account : String) :
    committedNumbers allocations account =
      ((entries allocations account).filter fun e ↦ e.2 = .committed).map (·.1) := by
  rw [committedNumbers, entries, List.filter_map, List.map_map, List.filter_filter]
  congr 1
  refine List.filter_congr fun r _ ↦ ?_
  rw [Bool.and_comm]
  rfl

section Shape

variable {allocations : List Allocation} {account : String} {k : ℕ} {last : Option AllocationState}

theorem Shape.committedNumbers (h : Shape (entries allocations account) k last) :
    committedNumbers allocations account = (List.range k).map fun n ↦ toString (n + 1) := by
  have hlast : ((last.toList.map fun s ↦ (toString (k + 1), s)).filter
      fun e ↦ decide (e.2 = .committed)) = [] := by
    refine List.filter_eq_nil_iff.mpr fun e he ↦ ?_
    obtain ⟨s, hs, rfl⟩ := List.mem_map.mp he
    rw [decide_eq_true_iff]
    rintro rfl
    exact h.open_ (Option.mem_toList.mp hs)
  rw [committedNumbers_eq, h.eq, List.filter_append, hlast, List.append_nil, committedUpTo,
    List.filter_map, List.map_map]
  congr 1
  exact List.filter_eq_self.mpr fun _ _ ↦ rfl

/-- The texts of at most ten numbers: the number after the one that is largest as a text. After
`9` this is `10`, and it stays `10`. -/
theorem nextSequence_upTo : ∀ k < 11,
    (JsNumber.bigInt ((((List.range k).map fun n ↦ toString (n + 1)).foldl laterText none).getD
      "0")).map (fun n ↦ toString (n + 1)) = some (toString (min (k + 1) 10)) := by
  decide

theorem largest_upTo : ∀ k < 11,
    ((((List.range k).map fun n ↦ toString (n + 1)).filterMap JsNumber.bigInt).foldl max 0)
      = (k : ℤ) := by
  decide

theorem next_mem_committedUpTo : ∀ k < 11,
    toString (min (k + 1) 10) ∈ (committedUpTo k).map (·.1) ↔ k = 10 := by
  decide

theorem Shape.mem_iff (h : Shape (entries allocations account) k last) :
    (allocations.any fun r ↦ r.accountAddress = account &&
        r.sequenceNumber = toString (min (k + 1) 10)) = true ↔ last ≠ none ∨ k = 10 := by
  have hmem : (allocations.any fun r ↦ r.accountAddress = account &&
      r.sequenceNumber = toString (min (k + 1) 10)) = true ↔
      toString (min (k + 1) 10) ∈ (entries allocations account).map (·.1) := by
    rw [entries, List.map_map, List.mem_map, List.any_eq_true]
    refine exists_congr fun r ↦ ?_
    rw [List.mem_filter, Bool.and_eq_true, decide_eq_true_iff, decide_eq_true_iff, and_assoc]
    rfl
  rw [hmem, h.eq, List.map_append, List.mem_append,
    next_mem_committedUpTo k (Nat.lt_succ_of_le h.le), or_comm]
  cases last with
  | none => simp
  | some s => simp [min_eq_left (Nat.succ_le_succ (h.room (by simp)))]

/-- **Allocating** works while there is no other allocation and at most nine are committed. -/
theorem Shape.insertAllocation (h : Shape (entries allocations account) k last)
    (instanceId : String) (now : ℕ) :
    insertAllocation allocations
        (newAllocation ⟨instanceId, account⟩ (toString (min (k + 1) 10)) now) =
      if last = none ∧ k ≤ 9 then
        .ok (allocations ++ [newAllocation ⟨instanceId, account⟩ (toString (k + 1)) now])
      else .error .uniqueViolation := by
  have hle := h.le
  rw [SequenceManager.insertAllocation]
  by_cases hfree : last = none ∧ k ≤ 9
  · rw [if_pos hfree, if_neg, min_eq_left (Nat.succ_le_succ hfree.2)]
    rintro hany
    rcases h.mem_iff.mp hany with hlast | hten
    · exact hlast hfree.1
    · omega
  · rw [if_neg hfree, if_pos]
    refine h.mem_iff.mpr ?_
    by_cases hlast : last = none
    · right
      have := mt (And.intro hlast) hfree
      omega
    · exact .inl hlast

theorem Shape.allocate {st : State} (h : Shape (entries st.allocations account) k last)
    (instanceId : String) (now : ℕ) :
    allocate st ⟨instanceId, account⟩ none now =
      if last = none ∧ k ≤ 9 then
        .ok (st.allocations ++ [newAllocation ⟨instanceId, account⟩ (toString (k + 1)) now],
          ⟨toString (k + 1), account ++ ":" ++ toString (k + 1) ++ ":" ++ instanceId⟩)
      else .error .uniqueViolation := by
  obtain ⟨n, hn, hnext⟩ := Option.map_eq_some_iff.mp
    (nextSequence_upTo k (Nat.lt_succ_of_le h.le))
  have hchain : JsNumber.bigInt (onChainSequence st ⟨instanceId, account⟩ none) = some n := by
    rw [onChainSequence, getLastCommittedSequence, h.committedNumbers]
    exact hn
  rw [SequenceManager.allocate, hchain]
  simp only [hnext, h.insertAllocation]
  split_ifs with hfree
  · rw [min_eq_left (Nat.succ_le_succ hfree.2)]
    rfl
  · rfl

end Shape

/-! ## What the calls keep -/

/-- No account is locked between two calls, and the allocations of each have the shape. -/
structure Sound (st : State) : Prop where
  unlocked : ∀ account, st.locks account = none
  shape : ∀ account, ∃ k last, Shape (entries st.allocations account) k last

theorem sound_empty : Sound empty :=
  ⟨fun _ ↦ rfl, fun _ ↦ ⟨0, none, rfl, Nat.zero_le _, fun h ↦ absurd rfl h, nofun⟩⟩

theorem entries_append (allocations : List Allocation) (row : Allocation) (account : String) :
    entries (allocations ++ [row]) account = entries allocations account ++
      if row.accountAddress = account then [(row.sequenceNumber, row.state)] else [] := by
  rw [entries, List.filter_append, List.map_append, ← entries, List.filter_singleton]
  by_cases h : row.accountAddress = account
  · simp [h]
  · simp [h]

theorem Sound.reserve_eq (cfg : Config) {st : State} (h : Sound st) (a : Args)
    (lockedAt now : ℕ) :
    reserve cfg st a none lockedAt now = match allocate st a none now with
      | .error e => (st, .error e)
      | .ok (allocations, reservation) =>
        ({ st with allocations := allocations }, .ok reservation) := by
  have hlocks : releaseLock (Function.update st.locks a.accountAddress
      (some (lockRow cfg.lockTimeoutMs a lockedAt))) a.accountAddress = st.locks := by
    rw [releaseLock, Function.update_idem, ← h.unlocked a.accountAddress, Function.update_eq_self]
  rw [reserve, acquireLock, h.unlocked]
  simp only [Option.any_none, Bool.false_eq_true, if_false, hlocks]

theorem Sound.reserve {st : State} (h : Sound st) (cfg : Config) (a : Args) (lockedAt now : ℕ) :
    Sound (reserve cfg st a none lockedAt now).1 := by
  obtain ⟨k, last, hshape⟩ := h.shape a.accountAddress
  rw [h.reserve_eq, hshape.allocate]
  split_ifs with hfree
  · refine ⟨h.unlocked, fun account ↦ ?_⟩
    simp only [entries_append]
    by_cases haccount : a.accountAddress = account
    · subst haccount
      refine ⟨k, some .reserved, ?_, hshape.le, fun _ ↦ hfree.2, nofun⟩
      rw [hshape.eq, hfree.1]
      simp [newAllocation]
    · rw [if_neg (by exact haccount), List.append_nil]
      exact h.shape account
  · exact h

/-- A row is changed only if it is a reservation, and then only in its state and in what goes with
it. -/
structure Settles (f : Allocation → Allocation) (settled : AllocationState) : Prop where
  account : ∀ r, (f r).accountAddress = r.accountAddress
  number : ∀ r, (f r).sequenceNumber = r.sequenceNumber
  state : ∀ r, f r = r ∨ r.state = .reserved ∧ (f r).state = settled

/-- **Settling** reservations, by committing or releasing them. -/
theorem Shape.settle {allocations : List Allocation} {account : String} {k : ℕ}
    {last : Option AllocationState} (h : Shape (entries allocations account) k last)
    {f : Allocation → Allocation} {settled : AllocationState} (hf : Settles f settled)
    (hsettled : settled ≠ .reserved) :
    ∃ k' last', Shape (entries (allocations.map f) account) k' last' := by
  have hentries : entries (allocations.map f) account =
      ((allocations.filter (·.accountAddress = account)).map f).map fun r ↦
        (r.sequenceNumber, r.state) := by
    rw [entries, List.filter_map]
    congr 2
    refine List.filter_congr fun r _ ↦ ?_
    exact decide_eq_decide.mpr (by rw [hf.account r])
  obtain ⟨before, rest, hrows, hbefore, hrest⟩ := List.map_eq_append_iff.mp h.eq
  -- the committed rows stay as they are
  have hkept : before.map f = before := by
    refine (List.map_congr_left fun r hr ↦ ?_).trans (List.map_id before)
    refine (hf.state r).resolve_right fun hchange ↦ ?_
    have hmem : (r.sequenceNumber, r.state) ∈ committedUpTo k :=
      hbefore ▸ List.mem_map_of_mem hr
    obtain ⟨n, -, heq⟩ := List.mem_map.mp hmem
    have hreserved : AllocationState.committed = .reserved :=
      (congrArg Prod.snd heq).trans hchange.1
    cases hreserved
  rw [hentries, hrows, List.map_append, List.map_append, hkept, hbefore]
  cases last with
  | none =>
    obtain rfl := List.map_eq_nil_iff.mp hrest
    exact ⟨k, none, rfl, h.le, fun h ↦ absurd rfl h, nofun⟩
  | some s =>
    obtain ⟨r, rfl, hr⟩ := List.map_eq_singleton_iff.mp hrest
    rcases hf.state r with hsame | ⟨hreserved, hstate⟩
    · rw [List.map_singleton, hsame]
      exact ⟨k, some s, congrArg (committedUpTo k ++ ·) hrest, h.le, h.room, h.open_⟩
    · have hnumber : (f r).sequenceNumber = toString (k + 1) :=
        (hf.number r).trans (congrArg Prod.fst hr)
      rw [List.map_singleton, List.map_singleton, hnumber, hstate]
      have hroom := h.room (Option.some_ne_none s)
      cases settled with
      | reserved => exact absurd rfl hsettled
      | released => exact ⟨k, some .released, rfl, h.le, fun _ ↦ hroom, nofun⟩
      | committed =>
        refine ⟨k + 1, none, ?_, Nat.succ_le_succ hroom, fun h ↦ absurd rfl h, nofun⟩
        rw [committedUpTo, committedUpTo, List.range_succ, List.map_append]
        exact (List.append_nil _).symm

theorem Sound.settle {st st' : State} (h : Sound st) {f : Allocation → Allocation}
    {settled : AllocationState} (hf : Settles f settled) (hsettled : settled ≠ .reserved)
    (hallocations : st'.allocations = st.allocations.map f) (hlocks : st'.locks = st.locks) :
    Sound st' := by
  refine ⟨fun account ↦ hlocks ▸ h.unlocked account, fun account ↦ ?_⟩
  obtain ⟨k, last, hshape⟩ := h.shape account
  rw [hallocations]
  exact hshape.settle hf hsettled

theorem isReservation_state {r : Allocation} {reservationId : String}
    (h : r.isReservation reservationId = true) : r.state = .reserved :=
  of_decide_eq_true (Bool.and_eq_true_iff.mp h).2

theorem isExpired_state {cfg : Config} {now : ℕ} {r : Allocation}
    (h : r.isExpired cfg now = true) : r.state = .reserved :=
  of_decide_eq_true (Bool.and_eq_true_iff.mp h).1

theorem settles_of_forall (p : Allocation → Bool) (g : Allocation → Allocation)
    (settled : AllocationState) (hp : ∀ r, p r = true → r.state = .reserved)
    (haccount : ∀ r, (g r).accountAddress = r.accountAddress)
    (hnumber : ∀ r, (g r).sequenceNumber = r.sequenceNumber) (hstate : ∀ r, (g r).state = settled) :
    Settles (fun r ↦ if p r then g r else r) settled := by
  refine ⟨fun r ↦ ?_, fun r ↦ ?_, fun r ↦ ?_⟩
  · split_ifs
    · exact haccount r
    · rfl
  · split_ifs
    · exact hnumber r
    · rfl
  · split_ifs with h
    · exact .inr ⟨hp r h, hstate r⟩
    · exact .inl rfl

/-- **Every call keeps the shape.** -/
theorem Sound.step {cfg : Config} {st : State} (h : Sound st) (op : Op) :
    Sound (step cfg st op) := by
  cases op with
  | reserve a lockedAt now => exact h.reserve cfg a lockedAt now
  | commit instanceId reservationId hash now =>
    rw [SequenceManager.step, SequenceManager.commit]
    split_ifs
    · have hsettles := settles_of_forall (·.isReservation reservationId) (·.markCommitted hash now)
        .committed (fun r ↦ isReservation_state) (fun _ ↦ rfl) (fun _ ↦ rfl) fun _ ↦ rfl
      exact h.settle hsettles (by decide) rfl rfl
    · exact h
  | release reservationId reason now =>
    have hsettles := settles_of_forall (·.isReservation reservationId)
      (fun r ↦ { r.markReleased now with errorReason := reason }) .released
      (fun r ↦ isReservation_state) (fun _ ↦ rfl) (fun _ ↦ rfl) fun _ ↦ rfl
    exact h.settle hsettles (by decide) rfl rfl
  | cleanupExpiredReservations now =>
    have hsettles := settles_of_forall (·.isExpired cfg now) (·.markReleased now) .released
      (fun r ↦ isExpired_state) (fun _ ↦ rfl) (fun _ ↦ rfl) fun _ ↦ rfl
    exact h.settle hsettles (by decide) rfl rfl

theorem sound_run (cfg : Config) (ops : List Op) :
    Sound (Concurrency.run (step cfg) empty ops) :=
  (Concurrency.always_of_step (fun _ op h ↦ h.step op) sound_empty ops).last

/-! ## The next reservation -/

theorem mem_entries {allocations : List Allocation} {account : String} {s : AllocationState} :
    s ∈ (entries allocations account).map (·.2) ↔
      ∃ r ∈ allocations, r.accountAddress = account ∧ r.state = s := by
  rw [entries, List.map_map, List.mem_map]
  refine exists_congr fun r ↦ ?_
  rw [List.mem_filter, decide_eq_true_iff, and_assoc]
  rfl

/-- An allocation that is not committed is the last one. -/
theorem Shape.mem_state_iff {allocations : List Allocation} {account : String} {k : ℕ}
    {last : Option AllocationState} (h : Shape (entries allocations account) k last)
    {s : AllocationState} (hs : s ≠ .committed) :
    (∃ r ∈ allocations, r.accountAddress = account ∧ r.state = s) ↔ last = some s := by
  have hcommitted : s ∉ (committedUpTo k).map (·.2) := by
    intro hmem
    obtain ⟨e, he, rfl⟩ := List.mem_map.mp hmem
    obtain ⟨n, -, rfl⟩ := List.mem_map.mp he
    exact hs rfl
  rw [← mem_entries, h.eq, List.map_append, List.mem_append, or_iff_right hcommitted,
    List.map_map]
  cases last with
  | none => simp
  | some s' => simp [eq_comm]

/-- **The exact condition.** In every run, when no reservation of the account is outstanding, the
next one works as it should exactly when none has been released and at most nine numbers have been
committed. -/
theorem reserve_isNext_iff (cfg : Config) (ops : List Op) {account : String}
    (hnone : NoneOutstanding (Concurrency.run (step cfg) empty ops) account) :
    ReservesNext cfg (Concurrency.run (step cfg) empty ops) account ↔
      NoneReleased (Concurrency.run (step cfg) empty ops) account ∧
        (committedNumbers (Concurrency.run (step cfg) empty ops).allocations account).length
          ≤ 9 := by
  have hsound := sound_run cfg ops
  generalize Concurrency.run (step cfg) empty ops = st at hnone hsound ⊢
  obtain ⟨k, last, hshape⟩ := hsound.shape account
  have hreleased : NoneReleased st account ↔ last ≠ some .released := by
    rw [ne_eq, ← hshape.mem_state_iff (s := .released) (by decide)]
    simp [NoneReleased]
  have hlast : last ≠ some .released ↔ last = none := by
    cases last with
    | none => simp
    | some s =>
      cases s with
      | reserved =>
        obtain ⟨r, hr, haccount, hstate⟩ := (hshape.mem_state_iff (by decide)).mpr rfl
        exact absurd hstate (hnone r hr haccount)
      | committed => exact absurd rfl hshape.open_
      | released => simp
  have hlargest : largestCommitted st account = k := by
    rw [largestCommitted, hshape.committedNumbers, largest_upTo k (Nat.lt_succ_of_le hshape.le)]
  rw [hreleased, hlast, hshape.committedNumbers, List.length_map, List.length_range,
    ReservesNext]
  simp only [hsound.reserve_eq, hshape.allocate, hlargest]
  by_cases hfree : last = none ∧ k ≤ 9
  · refine iff_of_true (fun instanceId lockedAt now ↦ ?_) hfree
    rw [if_pos hfree]
    rfl
  · refine iff_of_false (fun h ↦ ?_) hfree
    have herror := h "" 0 0
    rw [if_neg hfree] at herror
    cases herror

section Examples

def defaultConfig : Config := ⟨30000, 300000⟩

/-- Reserve a number for the account `G`, and commit it. -/
def reserveAndCommit (n : ℕ) : List Op :=
  [.reserve ⟨"A", "G"⟩ n n, .commit "A" ("G:" ++ toString (n + 1) ++ ":A") none n]

/-- After one release, and likewise after ten commits, the next reservation fails. -/
theorem reserve_stuck :
    (NoneOutstanding (Concurrency.run (step defaultConfig) empty
        [.reserve ⟨"A", "G"⟩ 0 0, .release "G:1:A" none 1]) "G" ∧
      ¬ReservesNext defaultConfig (Concurrency.run (step defaultConfig) empty
        [.reserve ⟨"A", "G"⟩ 0 0, .release "G:1:A" none 1]) "G") ∧
    (NoneOutstanding (Concurrency.run (step defaultConfig) empty
        ((List.range 10).flatMap reserveAndCommit)) "G" ∧
      ¬ReservesNext defaultConfig (Concurrency.run (step defaultConfig) empty
        ((List.range 10).flatMap reserveAndCommit)) "G") := by
  refine ⟨⟨by decide, fun h ↦ ?_⟩, ⟨by decide, fun h ↦ ?_⟩⟩
  · exact absurd (h "B" 2 2) (by decide)
  · exact absurd (h "B" 10 10) (by decide)

/-- After nine commits it works. -/
theorem reserve_isNext_iff_at :
    ReservesNext defaultConfig (Concurrency.run (step defaultConfig) empty
      ((List.range 9).flatMap reserveAndCommit)) "G" :=
  (reserve_isNext_iff defaultConfig ((List.range 9).flatMap reserveAndCommit)
    (by decide)).mpr (by decide)

end Examples

end StellarDonations.SequenceManager
