import StellarDonations.Concurrency.Interleaving
import StellarDonations.Concurrency.Leases

/-!
# The connection pool

`acquireConnection`, `releaseConnection`, `drainWaitQueue` and `_checkIdleConnections` of
`Database`, as calls that run from one callback or microtask to the next. A step is what a call does
between two `await`s.

`createConnectionRecord` appends the new record to the pool as idle, and its creator marks the
record as in use one microtask later. In between everyone who looks for an idle connection finds it.
And a connection that is removed from the pool while somebody holds it is still passed on to the
next waiter when it is given back.
-/

namespace StellarDonations.Pool

open Concurrency

universe u

variable {ι : Type u}

/-! ## The pool -/

/-- A record of `state.connections`. -/
structure Connection where
  id : ℕ
  inUse : Bool
  deriving DecidableEq

/-- `poolState`, with the leases that have not been released. -/
structure Shared (ι : Type u) where
  connections : List Connection
  /-- The calls whose waiters are queued. -/
  waitQueue : List ι
  nextConnectionId : ℕ
  pendingCreations : ℕ
  queueDrainInProgress : Bool
  leases : List (Lease ι ℕ)
  /-- The leases whose connection was not in the pool any more when they were created. -/
  strays : List (Lease ι ℕ)

namespace Shared

def findIdleConnection (sh : Shared ι) : Option Connection := sh.connections.find? (!·.inUse)

def canCreateConnection (poolSize : ℕ) (sh : Shared ι) : Prop :=
  sh.connections.length + sh.pendingCreations < poolSize

instance (poolSize : ℕ) (sh : Shared ι) : Decidable (sh.canCreateConnection poolSize) :=
  inferInstanceAs (Decidable (_ < _))

/-- `connection.inUse = …`. -/
def setInUse (sh : Shared ι) (id : ℕ) (inUse : Bool) : Shared ι :=
  { sh with
    connections := sh.connections.map fun c ↦ if c.id = id then { c with inUse := inUse } else c }

def createLease (sh : Shared ι) (i : ι) (id : ℕ) : Shared ι :=
  { sh with
    leases := sh.leases ++ [⟨i, id⟩]
    strays := if id ∈ sh.connections.map (·.id) then sh.strays else sh.strays ++ [⟨i, id⟩] }

/-- The start of `createConnectionRecord`. -/
def beginCreation (sh : Shared ι) : Shared ι :=
  { sh with pendingCreations := sh.pendingCreations + 1 }

/-- `createConnectionRecord` has failed. -/
def failCreation (sh : Shared ι) : Shared ι :=
  { sh with pendingCreations := sh.pendingCreations - 1 }

/-- The end of `createConnectionRecord`: the record is appended, as idle. -/
def endCreation (sh : Shared ι) : Shared ι :=
  { sh with
    connections := sh.connections ++ [⟨sh.nextConnectionId, false⟩]
    nextConnectionId := sh.nextConnectionId + 1
    pendingCreations := sh.pendingCreations - 1 }

def handConnectionToNextWaiter (sh : Shared ι) (id : ℕ) : Shared ι :=
  match sh.waitQueue with
  | [] => sh
  | waiter :: rest => ({ sh with waitQueue := rest }.setInUse id true).createLease waiter id

/-- `state.connections.splice(index, 1)`, for the record with the id. -/
def removeConnection (sh : Shared ι) (id : ℕ) : Shared ι :=
  { sh with connections := sh.connections.eraseP (·.id = id) }

end Shared

/-! ## Calls -/

inductive Point where
  /-- `acquireConnection`, the pool being initialized. -/
  | acquire
  /-- `acquireConnection` waits for a new connection. -/
  | creating
  /-- The record has been appended, and `acquireConnection` goes on next. -/
  | created (id : ℕ)
  | waiting
  | leased (id : ℕ)
  /-- A lease was released with `retire`, and its connection is being closed. -/
  | retiring
  /-- `drainWaitQueue` waits for a new connection. -/
  | drainCreating
  | drainCreated (id : ℕ)
  /-- `_checkIdleConnections`. -/
  | check
  /-- A connection is pinged, and others come after it. -/
  | ping (id : ℕ) (rest : List ℕ)
  /-- A stale connection is being closed. -/
  | replacing (rest : List ℕ)
  /-- `_checkIdleConnections` waits for a new connection. -/
  | refreshing (rest : List ℕ)
  | refreshed (id : ℕ) (rest : List ℕ)
  | settled
  | failed
  deriving DecidableEq

structure Env where
  /-- The awaited callback brings no error. -/
  ok : Bool
  /-- The option with which a lease is released. -/
  retire : Bool

/-- The loop of `drainWaitQueue`; the list is the wait queue. -/
def drainLoop (poolSize : ℕ) : List ι → Shared ι → Shared ι × Point
  | [], sh => ({ sh with queueDrainInProgress := false }, .settled)
  | _ :: rest, sh =>
    match sh.findIdleConnection with
    | some idle => drainLoop poolSize rest (sh.handConnectionToNextWaiter idle.id)
    | none =>
      if sh.canCreateConnection poolSize then (sh.beginCreation, .drainCreating)
      else ({ sh with queueDrainInProgress := false }, .settled)

def drainWaitQueue (poolSize : ℕ) (sh : Shared ι) : Shared ι × Point :=
  if sh.queueDrainInProgress then (sh, .settled)
  else drainLoop poolSize sh.waitQueue { sh with queueDrainInProgress := true }

/-- The next round of the loop of `_checkIdleConnections`. -/
def nextPing : List ℕ → Point
  | [] => .settled
  | id :: rest => .ping id rest

section Steps

variable [DecidableEq ι]

def resume (poolSize : ℕ) (i : ι) (sh : Shared ι) (p : Point) (env : Env) : Shared ι × Point :=
  match p with
  | .acquire =>
    match sh.waitQueue, sh.findIdleConnection with
    | [], some idle => ((sh.setInUse idle.id true).createLease i idle.id, .leased idle.id)
    | [], none =>
      if sh.canCreateConnection poolSize then (sh.beginCreation, .creating)
      else ({ sh with waitQueue := [i] }, .waiting)
    | queue, _ => ({ sh with waitQueue := queue ++ [i] }, .waiting)
  | .creating =>
    if env.ok then (sh.endCreation, .created sh.nextConnectionId) else (sh.failCreation, .failed)
  | .created id => ((sh.setInUse id true).createLease i id, .leased id)
  | .waiting =>
    match sh.leases.find? (·.holder = i) with
    | some lease => (sh, .leased lease.resource)
    -- the timer fires; the timer of a waiter with a lease has been cleared
    | none => ({ sh with waitQueue := sh.waitQueue.erase i }, .failed)
  | .leased id =>
    let sh := { sh with leases := Lease.giveBack sh.leases ⟨i, id⟩ }
    if env.retire then (sh.removeConnection id, .retiring)
    else ((sh.setInUse id false).handConnectionToNextWaiter id, .settled)
  -- a failure to close the connection does not matter
  | .retiring => drainWaitQueue poolSize sh
  | .drainCreating =>
    if env.ok then (sh.endCreation, .drainCreated sh.nextConnectionId)
    else ({ sh.failCreation with queueDrainInProgress := false }, .failed)
  | .drainCreated id =>
    match sh.waitQueue with
    | [] => ({ sh.setInUse id false with queueDrainInProgress := false }, .settled)
    | _ :: rest => drainLoop poolSize rest (sh.handConnectionToNextWaiter id)
  | .check => (sh, nextPing ((sh.connections.filter (!·.inUse)).map (·.id)))
  | .ping id rest =>
    if env.ok then (sh, nextPing rest) else (sh.removeConnection id, .replacing rest)
  | .replacing rest =>
    if sh.canCreateConnection poolSize then (sh.beginCreation, .refreshing rest)
    else (sh, nextPing rest)
  | .refreshing rest =>
    if env.ok then (sh.endCreation, .refreshed sh.nextConnectionId rest)
    else (sh.failCreation, nextPing rest)
  | .refreshed id rest => (sh.setInUse id false, nextPing rest)
  | .settled | .failed => (sh, p)

def step (poolSize : ℕ) (s : Calls ι (Shared ι) Point) (a : ι × Env) :
    Calls ι (Shared ι) Point := Calls.step (resume poolSize a.1) s a

end Steps

/-! ## What must hold -/

/-- The call is between the start and the end of `createConnectionRecord`. -/
def Point.isCreating : Point → Bool
  | .creating | .drainCreating | .refreshing _ => true
  | _ => false

/-- The record that was appended for the call, while the call has not gone on. -/
def Point.fresh : Point → Option ℕ
  | .created id | .drainCreated id | .refreshed id _ => some id
  | _ => none

/-- The connections of the pool and the creations on their way never exceed the size of the pool. -/
def Bounded (poolSize : ℕ) (s : Calls ι (Shared ι) Point) : Prop :=
  ∀ creations : Finset ι, (∀ i ∈ creations, (s.call i).isCreating = true) →
    s.shared.connections.length + creations.card ≤ poolSize

/-- Every connection is leased at most once, no lease was created for a connection that had left the
pool, and the pool is bounded. -/
structure Disciplined (poolSize : ℕ) (s : Calls ι (Shared ι) Point) : Prop where
  exclusive : Lease.Exclusive s.shared.leases
  pooled : s.shared.strays = []
  bounded : Bounded poolSize s

/-- The steps that keep the leases apart. Nobody looks for an idle connection, and no ping of the
record fails, while a new record waits for its creator; and a connection that is passed on to a
waiter is still in the pool. -/
def Guarded (s : Calls ι (Shared ι) Point) (a : ι × Env) : Prop :=
  match s.call a.1 with
  | .acquire => s.shared.waitQueue = [] → ∀ j, j ≠ a.1 → (s.call j).fresh = none
  | .retiring =>
    s.shared.queueDrainInProgress = false → s.shared.waitQueue ≠ [] →
      ∀ j, j ≠ a.1 → (s.call j).fresh = none
  | .drainCreated _ =>
    s.shared.waitQueue.tail ≠ [] → ∀ j, j ≠ a.1 → (s.call j).fresh = none
  | .leased id =>
    a.2.retire = false → s.shared.waitQueue ≠ [] → id ∈ s.shared.connections.map (·.id)
  | .ping id _ => a.2.ok = false → ∀ j, (s.call j).fresh ≠ some id
  | _ => True

/-! ## The table -/

/-- What holds of the pool when the records `F` wait for their creators. -/
structure Ok (F : ℕ → Prop) (sh : Shared ι) : Prop where
  ids : (sh.connections.map (·.id)).Nodup
  lt : ∀ c ∈ sh.connections, c.id < sh.nextConnectionId
  leases_lt : ∀ l ∈ sh.leases, l.resource < sh.nextConnectionId
  exclusive : Lease.Exclusive sh.leases
  idle : ∀ c ∈ sh.connections, c.inUse = false → ¬Lease.Held sh.leases c.id
  fresh_mem : ∀ id, F id → id ∈ sh.connections.map (·.id)
  fresh_free : ∀ id, F id → ¬Lease.Held sh.leases id
  pooled : sh.strays = []

section Table

variable {F F' : ℕ → Prop} {sh : Shared ι} {id : ℕ}

theorem Ok.mono (h : Ok F sh) (hF : ∀ id, F' id → F id) : Ok F' sh :=
  { h with
    fresh_mem := fun id hid ↦ h.fresh_mem id (hF id hid)
    fresh_free := fun id hid ↦ h.fresh_free id (hF id hid) }

theorem Ok.frame (h : Ok F sh) (waitQueue : List ι) (pendingCreations : ℕ) (inProgress : Bool) :
    Ok F { sh with
      waitQueue := waitQueue
      pendingCreations := pendingCreations
      queueDrainInProgress := inProgress } := { h with }

@[simp] theorem setInUse_ids (sh : Shared ι) (id : ℕ) (b : Bool) :
    (sh.setInUse id b).connections.map (·.id) = sh.connections.map (·.id) := by
  simp only [Shared.setInUse, List.map_map]
  refine List.map_congr_left fun c _ ↦ ?_
  simp only [Function.comp]
  split_ifs <;> rfl

theorem mem_setInUse {b : Bool} {c : Connection} (hc : c ∈ (sh.setInUse id b).connections) :
    (c.id = id ∧ c.inUse = b) ∨ c.id ≠ id ∧ c ∈ sh.connections := by
  obtain ⟨c', hc', rfl⟩ := List.mem_map.mp hc
  split_ifs with h
  · exact .inl ⟨h, rfl⟩
  · exact .inr ⟨h, hc'⟩

theorem exists_of_mem_setInUse {b : Bool} {c : Connection}
    (hc : c ∈ (sh.setInUse id b).connections) : ∃ c' ∈ sh.connections, c'.id = c.id := by
  have hmem : c.id ∈ (sh.setInUse id b).connections.map (·.id) := List.mem_map_of_mem hc
  rw [setInUse_ids] at hmem
  exact List.mem_map.mp hmem

theorem Ok.setInUse (h : Ok F sh) {b : Bool} (hb : b = false → ¬Lease.Held sh.leases id) :
    Ok F (sh.setInUse id b) := by
  refine { h with ids := ?_, lt := ?_, idle := ?_, fresh_mem := ?_ }
  · rw [setInUse_ids]
    exact h.ids
  · intro c hc
    obtain ⟨c', hc', hid⟩ := exists_of_mem_setInUse hc
    exact hid ▸ h.lt c' hc'
  · intro c hc hidle
    rcases mem_setInUse hc with ⟨hid, hb'⟩ | ⟨-, hc'⟩
    · exact hid ▸ hb (hb'.symm.trans hidle)
    · exact h.idle c hc' hidle
  · rw [setInUse_ids]
    exact h.fresh_mem

theorem Ok.lend (h : Ok F sh) (i : ι) (hmem : id ∈ sh.connections.map (·.id))
    (hfree : ¬Lease.Held sh.leases id) (hid : ¬F id) :
    Ok F ((sh.setInUse id true).createLease i id) := by
  have hset : Ok F (sh.setInUse id true) := h.setInUse nofun
  refine { hset with leases_lt := ?_, exclusive := ?_, idle := ?_, fresh_free := ?_, pooled := ?_ }
  · intro l hl
    rcases List.mem_append.mp hl with hl | hl
    · exact h.leases_lt l hl
    · obtain rfl := List.mem_singleton.mp hl
      obtain ⟨c, hc, rfl⟩ := List.mem_map.mp hmem
      exact h.lt c hc
  · exact h.exclusive.grant i hfree
  · intro c hc hidle hheld
    rcases Lease.held_grant.mp hheld with hheld | heq
    · exact hset.idle c hc hidle hheld
    · -- the connection that is leased has just been marked as in use
      rcases mem_setInUse hc with ⟨-, hb⟩ | ⟨hne, -⟩
      · exact absurd (hb.symm.trans hidle) (by decide)
      · exact hne heq.symm
  · intro x hx hheld
    rcases Lease.held_grant.mp hheld with hheld | rfl
    · exact h.fresh_free x hx hheld
    · exact hid hx
  · have hmem' : id ∈ (sh.setInUse id true).connections.map (·.id) := by rwa [setInUse_ids]
    rw [Shared.createLease, if_pos hmem']
    exact h.pooled

theorem Ok.handConnectionToNextWaiter (h : Ok F sh)
    (hmem : sh.waitQueue ≠ [] → id ∈ sh.connections.map (·.id))
    (hfree : ¬Lease.Held sh.leases id) (hid : ¬F id) :
    Ok F (sh.handConnectionToNextWaiter id) := by
  rw [Shared.handConnectionToNextWaiter]
  split
  · exact h
  · next waiter rest hqueue =>
    have hne : sh.waitQueue ≠ [] := hqueue ▸ List.cons_ne_nil _ _
    have hframe := h.frame rest sh.pendingCreations sh.queueDrainInProgress
    exact hframe.lend waiter (hmem hne) hfree hid

theorem Ok.removeConnection (h : Ok F sh) (hid : ¬F id) : Ok F (sh.removeConnection id) := by
  have hsub : List.Sublist (sh.connections.eraseP (·.id = id)) sh.connections :=
    List.eraseP_sublist
  refine { h with ids := ?_, lt := ?_, idle := ?_, fresh_mem := ?_ }
  · exact h.ids.sublist (hsub.map _)
  · exact fun c hc ↦ h.lt c (hsub.subset hc)
  · exact fun c hc ↦ h.idle c (hsub.subset hc)
  · intro x hx
    obtain ⟨c, hc, rfl⟩ := List.mem_map.mp (h.fresh_mem x hx)
    have hne : ¬(decide (c.id = id) = true) := by
      rw [decide_eq_true_iff]
      rintro rfl
      exact hid hx
    have hkept := (List.mem_eraseP_of_neg (p := fun c : Connection ↦ c.id = id) hne).mpr hc
    exact List.mem_map_of_mem hkept

theorem Ok.giveBack [DecidableEq ι] (h : Ok F sh) (l : Lease ι ℕ) :
    Ok F { sh with leases := Lease.giveBack sh.leases l } :=
  { h with
    leases_lt := fun l' hl' ↦ h.leases_lt l' (Lease.mem_giveBack.mp hl').1
    exclusive := h.exclusive.giveBack l
    idle := fun c hc hidle hheld ↦ h.idle c hc hidle hheld.of_giveBack
    fresh_free := fun id hid hheld ↦ h.fresh_free id hid hheld.of_giveBack }

theorem Ok.endCreation (h : Ok F sh) :
    Ok (fun id ↦ F id ∨ id = sh.nextConnectionId) sh.endCreation := by
  -- ids are not used twice, so nobody can hold the new connection
  have hnew : ¬Lease.Held sh.leases sh.nextConnectionId := by
    rintro ⟨l, hl, hid⟩
    exact absurd hid (h.leases_lt l hl).ne
  have hids : sh.endCreation.connections.map (·.id) =
      sh.connections.map (·.id) ++ [sh.nextConnectionId] := List.map_append
  refine { h with ids := ?_, lt := ?_, leases_lt := ?_, idle := ?_, fresh_mem := ?_,
                  fresh_free := ?_ }
  · rw [hids]
    refine h.ids.append (List.nodup_singleton _) fun id hid hid' ↦ ?_
    obtain ⟨c, hc, rfl⟩ := List.mem_map.mp hid
    exact absurd (List.mem_singleton.mp hid') (h.lt c hc).ne
  · intro c hc
    rcases List.mem_append.mp hc with hc | hc
    · exact (h.lt c hc).trans (Nat.lt_succ_self _)
    · rw [List.mem_singleton.mp hc]
      exact Nat.lt_succ_self _
  · exact fun l hl ↦ (h.leases_lt l hl).trans (Nat.lt_succ_self _)
  · intro c hc hidle
    rcases List.mem_append.mp hc with hc | hc
    · exact h.idle c hc hidle
    · rw [List.mem_singleton.mp hc]
      exact hnew
  · rintro id (hid | rfl)
    · exact hids ▸ List.mem_append_left _ (h.fresh_mem id hid)
    · exact hids ▸ List.mem_append_right _ (List.mem_singleton.mpr rfl)
  · rintro id (hid | rfl)
    · exact h.fresh_free id hid
    · exact hnew

end Table

/-! ## One call -/

/-- The pool and a call, beside the records `F` that wait for the other calls. -/
structure Fits (F : ℕ → Prop) (sh : Shared ι) (p : Point) : Prop where
  ok : Ok (fun id ↦ F id ∨ id ∈ p.fresh) sh
  alone : ∀ id ∈ p.fresh, ¬F id

section OneCall

variable {F : ℕ → Prop} {sh : Shared ι} {p : Point} {poolSize : ℕ}

theorem fits_of_none (h : Ok F sh) (hp : p.fresh = none) : Fits F sh p := by
  constructor
  · refine h.mono fun id hid ↦ hid.resolve_right fun hfresh ↦ ?_
    cases hp.symm.trans hfresh
  · intro id hid
    cases hp.symm.trans hid

theorem fits_endCreation (h : Ok F sh) (hp : p.fresh = some sh.nextConnectionId) :
    Fits F sh.endCreation p := by
  constructor
  · refine h.endCreation.mono fun id hid ↦ hid.imp_right fun hfresh ↦ ?_
    exact (Option.some.inj (hp.symm.trans hfresh)).symm
  · intro id hid hF
    obtain rfl := Option.some.inj (hp.symm.trans hid)
    obtain ⟨c, hc, hid⟩ := List.mem_map.mp (h.fresh_mem _ hF)
    exact absurd hid (h.lt c hc).ne

theorem mem_of_findIdleConnection {idle : Connection} (h : sh.findIdleConnection = some idle) :
    idle ∈ sh.connections ∧ idle.inUse = false := by
  refine ⟨List.mem_of_find?_eq_some h, ?_⟩
  simpa using List.find?_some h

theorem nextPing_fresh (ids : List ℕ) : (nextPing ids).fresh = none := by
  cases ids <;> rfl

theorem fits_drainLoop (queue : List ι) (h : Ok F sh) (hclear : queue ≠ [] → ∀ id, ¬F id) :
    Fits F (drainLoop poolSize queue sh).1 (drainLoop poolSize queue sh).2 := by
  induction queue generalizing sh with
  | nil => exact fits_of_none (h.frame _ _ false) rfl
  | cons waiter rest ih =>
    have hclear := hclear (List.cons_ne_nil _ _)
    rw [drainLoop]
    cases hidle : sh.findIdleConnection with
    | some idle =>
      -- no record waits for its creator, so an idle one is free
      obtain ⟨hmem, hunused⟩ := mem_of_findIdleConnection hidle
      refine ih (h.handConnectionToNextWaiter (fun _ ↦ ?_) ?_ (hclear _)) fun _ ↦ hclear
      · exact List.mem_map_of_mem hmem
      · exact h.idle idle hmem hunused
    | none =>
      simp only []
      split_ifs
      · exact fits_of_none (h.frame _ (sh.pendingCreations + 1) _) rfl
      · exact fits_of_none (h.frame _ _ false) rfl

variable [DecidableEq ι] {i : ι} {env : Env}

/-- What a call relies on, beside the records `F` that wait for the other calls. -/
def Point.Relies (F : ℕ → Prop) (sh : Shared ι) (i : ι) (env : Env) : Point → Prop
  | .acquire => sh.waitQueue = [] → ∀ id, ¬F id
  | .retiring => sh.queueDrainInProgress = false → sh.waitQueue ≠ [] → ∀ id, ¬F id
  | .drainCreated _ => sh.waitQueue.tail ≠ [] → ∀ id, ¬F id
  | .leased id => ⟨i, id⟩ ∈ sh.leases ∧
      (env.retire = false → sh.waitQueue ≠ [] → id ∈ sh.connections.map (·.id))
  | .ping id _ => env.ok = false → ¬F id
  | _ => True

theorem Fits.acquire (h : Ok F sh) (hclear : sh.waitQueue = [] → ∀ id, ¬F id) :
    Fits F (resume poolSize i sh .acquire env).1 (resume poolSize i sh .acquire env).2 := by
  have hqueue (queue : List ι) : Ok F { sh with waitQueue := queue } := h.frame queue _ _
  rw [resume]
  cases hwait : sh.waitQueue with
  | cons waiter rest => exact fits_of_none (hqueue _) rfl
  | nil =>
    cases hidle : sh.findIdleConnection with
    | some idle =>
      obtain ⟨hmem, hunused⟩ := mem_of_findIdleConnection hidle
      have hlend := h.lend i (List.mem_map_of_mem hmem) (h.idle idle hmem hunused) (hclear hwait _)
      exact fits_of_none hlend rfl
    | none =>
      simp only []
      split_ifs
      · exact fits_of_none (h.frame _ (sh.pendingCreations + 1) _) rfl
      · exact fits_of_none (hqueue _) rfl

theorem Fits.leased {id : ℕ} (h : Ok F sh) (hheld : ⟨i, id⟩ ∈ sh.leases)
    (hpooled : env.retire = false → sh.waitQueue ≠ [] → id ∈ sh.connections.map (·.id)) :
    Fits F (resume poolSize i sh (.leased id) env).1
      (resume poolSize i sh (.leased id) env).2 := by
  have hback := h.giveBack ⟨i, id⟩
  have hfree := h.exclusive.not_held_giveBack hheld
  -- a record that waits for its creator is not leased
  have hid : ¬F id := fun hF ↦ h.fresh_free id hF ⟨_, hheld, rfl⟩
  simp only [resume]
  split_ifs with hretire
  · exact fits_of_none (hback.removeConnection hid) rfl
  · refine fits_of_none ((hback.setInUse fun _ ↦ hfree).handConnectionToNextWaiter
      (fun hwait ↦ ?_) hfree hid) rfl
    rw [setInUse_ids]
    exact hpooled (Bool.eq_false_of_not_eq_true hretire) hwait

theorem Fits.drainCreated {id : ℕ} (h : Fits F sh (.drainCreated id))
    (hclear : sh.waitQueue.tail ≠ [] → ∀ id, ¬F id) :
    Fits F (resume poolSize i sh (.drainCreated id) env).1
      (resume poolSize i sh (.drainCreated id) env).2 := by
  have hok : Ok F sh := h.ok.mono fun _ ↦ .inl
  have hfree := h.ok.fresh_free id (.inr rfl)
  rw [resume]
  cases hwait : sh.waitQueue with
  | nil => exact fits_of_none ((hok.setInUse fun _ ↦ hfree).frame _ _ false) rfl
  | cons waiter rest =>
    refine fits_drainLoop rest (hok.handConnectionToNextWaiter (fun _ ↦ ?_) hfree
      (h.alone id rfl)) fun hrest ↦ hclear (hwait ▸ hrest)
    exact h.ok.fresh_mem id (.inr rfl)

/-- A call that finds what it relies on keeps the pool in order. -/
theorem Fits.resume (h : Fits F sh p) (hrelies : p.Relies F sh i env) :
    Fits F (resume poolSize i sh p env).1 (resume poolSize i sh p env).2 := by
  have hok : Ok F sh := h.ok.mono fun _ ↦ .inl
  cases p with
  | acquire => exact Fits.acquire hok hrelies
  | creating =>
    rw [Pool.resume]
    split_ifs
    · exact fits_endCreation hok rfl
    · exact fits_of_none (hok.frame _ (sh.pendingCreations - 1) _) rfl
  | created id =>
    refine fits_of_none (hok.lend i ?_ ?_ (h.alone id rfl)) rfl
    · exact h.ok.fresh_mem id (.inr rfl)
    · exact h.ok.fresh_free id (.inr rfl)
  | waiting =>
    rw [Pool.resume]
    split
    · exact fits_of_none hok rfl
    · exact fits_of_none (hok.frame (sh.waitQueue.erase i) _ _) rfl
  | leased id => exact Fits.leased hok hrelies.1 hrelies.2
  | retiring =>
    rw [Pool.resume, drainWaitQueue]
    split_ifs with hdrain
    · exact fits_of_none hok rfl
    · exact fits_drainLoop _ (hok.frame _ _ true)
        (hrelies (Bool.eq_false_of_not_eq_true hdrain))
  | drainCreating =>
    rw [Pool.resume]
    split_ifs
    · exact fits_endCreation hok rfl
    · exact fits_of_none (hok.frame _ (sh.pendingCreations - 1) false) rfl
  | drainCreated id => exact h.drainCreated hrelies
  | check => exact fits_of_none hok (nextPing_fresh _)
  | ping id rest =>
    rw [Pool.resume]
    split_ifs with hping
    · exact fits_of_none hok (nextPing_fresh _)
    · exact fits_of_none (hok.removeConnection (hrelies (Bool.eq_false_of_not_eq_true hping))) rfl
  | replacing rest =>
    rw [Pool.resume]
    split_ifs
    · exact fits_of_none (hok.frame _ (sh.pendingCreations + 1) _) rfl
    · exact fits_of_none hok (nextPing_fresh _)
  | refreshing rest =>
    rw [Pool.resume]
    split_ifs
    · exact fits_endCreation hok rfl
    · exact fits_of_none (hok.frame _ (sh.pendingCreations - 1) _) (nextPing_fresh _)
  | refreshed id rest =>
    refine fits_of_none (hok.setInUse fun _ ↦ ?_) (nextPing_fresh _)
    exact h.ok.fresh_free id (.inr rfl)
  | settled => exact fits_of_none hok rfl
  | failed => exact fits_of_none hok rfl

end OneCall

/-! ### Leases of the others -/

section Held

variable {sh : Shared ι} {poolSize : ℕ} {l : Lease ι ℕ}

theorem mem_handConnectionToNextWaiter (id : ℕ) (h : l ∈ sh.leases) :
    l ∈ (sh.handConnectionToNextWaiter id).leases := by
  rw [Shared.handConnectionToNextWaiter]
  split
  · exact h
  · exact List.mem_append_left _ h

theorem mem_drainLoop (queue : List ι) (h : l ∈ sh.leases) :
    l ∈ (drainLoop poolSize queue sh).1.leases := by
  induction queue generalizing sh with
  | nil => exact h
  | cons waiter rest ih =>
    rw [drainLoop]
    split
    · exact ih (mem_handConnectionToNextWaiter _ h)
    · split_ifs
      · exact h
      · exact h

theorem drainLoop_ne_leased (queue : List ι) (sh : Shared ι) (id : ℕ) :
    (drainLoop poolSize queue sh).2 ≠ .leased id := by
  induction queue generalizing sh with
  | nil => exact nofun
  | cons waiter rest ih =>
    rw [drainLoop]
    split
    · exact ih _
    · split_ifs <;> exact nofun

theorem nextPing_ne_leased (ids : List ℕ) (id : ℕ) : nextPing ids ≠ .leased id := by
  cases ids <;> exact nofun

variable [DecidableEq ι] {i : ι} {env : Env}

theorem mem_resume {p : Point} (h : l ∈ sh.leases) (hl : l.holder ≠ i) :
    l ∈ (resume poolSize i sh p env).1.leases := by
  cases p with
  | acquire =>
    rw [resume]
    split
    · exact List.mem_append_left _ h
    · split_ifs
      · exact h
      · exact h
    · exact h
  | created => exact List.mem_append_left _ h
  | leased id =>
    have hback : l ∈ Lease.giveBack sh.leases ⟨i, id⟩ := by
      refine Lease.mem_giveBack.mpr ⟨h, ?_⟩
      rintro rfl
      exact hl rfl
    simp only [resume]
    split_ifs
    · exact hback
    · exact mem_handConnectionToNextWaiter id hback
  | retiring =>
    rw [resume, drainWaitQueue]
    split_ifs
    · exact h
    · exact mem_drainLoop _ h
  | drainCreated id =>
    rw [resume]
    split
    · exact h
    · exact mem_drainLoop _ (mem_handConnectionToNextWaiter id h)
  | waiting =>
    rw [resume]
    split
    · exact h
    · exact h
  | creating | drainCreating | ping | replacing | refreshing =>
    rw [resume]
    split_ifs
    · exact h
    · exact h
  | check | refreshed | settled | failed => exact h

theorem mem_of_resume_eq_leased {p : Point} {id : ℕ}
    (h : (resume poolSize i sh p env).2 = .leased id) :
    ⟨i, id⟩ ∈ (resume poolSize i sh p env).1.leases := by
  cases p with
  | acquire =>
    rw [resume] at h ⊢
    split at h
    · cases h
      exact List.mem_append_right _ (List.mem_singleton.mpr rfl)
    · split_ifs at h
    · cases h
  | created =>
    cases h
    exact List.mem_append_right _ (List.mem_singleton.mpr rfl)
  | waiting =>
    rw [resume] at h ⊢
    split at h
    · next lease hfind =>
      cases h
      obtain rfl : lease.holder = i := by simpa using List.find?_some hfind
      exact List.mem_of_find?_eq_some hfind
    · cases h
  | retiring =>
    rw [resume, drainWaitQueue] at h
    split_ifs at h
    exact absurd h (drainLoop_ne_leased _ _ id)
  | drainCreated =>
    rw [resume] at h
    split at h
    · cases h
    · exact absurd h (drainLoop_ne_leased _ _ id)
  | check => exact absurd h (nextPing_ne_leased _ id)
  | refreshed => exact absurd h (nextPing_ne_leased _ id)
  | leased | creating | drainCreating =>
    simp only [resume] at h
    split_ifs at h
  | ping | replacing | refreshing =>
    simp only [resume] at h
    split_ifs at h
    all_goals exact absurd h (nextPing_ne_leased _ id)
  | settled | failed => cases h

end Held

/-! ### The size of the pool -/

/-- Connections and creations before and after a step of a call. -/
structure Counts (poolSize : ℕ) (sh : Shared ι) (p : Point) (sh' : Shared ι) (p' : Point) :
    Prop where
  bounded : sh'.connections.length + sh'.pendingCreations ≤ poolSize
  pending : sh'.pendingCreations + p.isCreating.toNat =
    sh.pendingCreations + p'.isCreating.toNat

section Size

variable {sh : Shared ι} {poolSize : ℕ}

theorem setInUse_length (sh : Shared ι) (id : ℕ) (b : Bool) :
    (sh.setInUse id b).connections.length = sh.connections.length := List.length_map _

theorem handConnectionToNextWaiter_length (id : ℕ) :
    (sh.handConnectionToNextWaiter id).connections.length = sh.connections.length := by
  rw [Shared.handConnectionToNextWaiter]
  split
  · rfl
  · exact setInUse_length _ _ _

theorem handConnectionToNextWaiter_pending (id : ℕ) :
    (sh.handConnectionToNextWaiter id).pendingCreations = sh.pendingCreations := by
  rw [Shared.handConnectionToNextWaiter]
  split <;> rfl

theorem counts_beginCreation {p p' : Point} (hp : p.isCreating = false)
    (hp' : p'.isCreating = true) (h : sh.canCreateConnection poolSize) :
    Counts poolSize sh p sh.beginCreation p' := by
  constructor
  · exact h
  · rw [hp, hp']
    rfl

theorem counts_of_le {sh' : Shared ι} {p p' : Point} (hp : p.isCreating = false)
    (hp' : p'.isCreating = false) (h : sh.connections.length + sh.pendingCreations ≤ poolSize)
    (hlength : sh'.connections.length ≤ sh.connections.length)
    (hpending : sh'.pendingCreations = sh.pendingCreations) : Counts poolSize sh p sh' p' := by
  constructor
  · rw [hpending]
    exact (Nat.add_le_add_right hlength _).trans h
  · rw [hp, hp', hpending]

theorem counts_failCreation {sh' : Shared ι} {p p' : Point} (hp : p.isCreating = true)
    (hp' : p'.isCreating = false) (h : sh.connections.length + sh.pendingCreations ≤ poolSize)
    (hpos : 0 < sh.pendingCreations) (hlength : sh'.connections = sh.connections)
    (hpending : sh'.pendingCreations = sh.pendingCreations - 1) :
    Counts poolSize sh p sh' p' := by
  constructor
  · rw [hlength, hpending]
    omega
  · rw [hp, hp', hpending]
    exact Nat.sub_add_cancel hpos

theorem counts_endCreation {p p' : Point} (hp : p.isCreating = true)
    (hp' : p'.isCreating = false) (h : sh.connections.length + sh.pendingCreations ≤ poolSize)
    (hpos : 0 < sh.pendingCreations) : Counts poolSize sh p sh.endCreation p' := by
  constructor
  · simp only [Shared.endCreation, List.length_append, List.length_singleton]
    omega
  · rw [hp, hp']
    exact Nat.sub_add_cancel hpos

theorem nextPing_isCreating (ids : List ℕ) : (nextPing ids).isCreating = false := by
  cases ids <;> rfl

theorem counts_drainLoop {sh₀ : Shared ι} {p : Point} (hp : p.isCreating = false)
    (queue : List ι) (h : sh₀.connections.length + sh₀.pendingCreations ≤ poolSize)
    (hlength : sh.connections.length = sh₀.connections.length)
    (hpending : sh.pendingCreations = sh₀.pendingCreations) :
    Counts poolSize sh₀ p (drainLoop poolSize queue sh).1 (drainLoop poolSize queue sh).2 := by
  induction queue generalizing sh with
  | nil => exact counts_of_le hp rfl h hlength.le hpending
  | cons waiter rest ih =>
    rw [drainLoop]
    split
    · exact ih ((handConnectionToNextWaiter_length _).trans hlength)
        ((handConnectionToNextWaiter_pending _).trans hpending)
    · split_ifs with hcreate
      · constructor
        · exact hcreate
        · rw [hp, Shared.beginCreation, hpending]
          rfl
      · exact counts_of_le hp rfl h hlength.le hpending

theorem counts_resume [DecidableEq ι] {i : ι} {env : Env} (p : Point)
    (h : sh.connections.length + sh.pendingCreations ≤ poolSize)
    (hpos : p.isCreating = true → 0 < sh.pendingCreations) :
    Counts poolSize sh p (resume poolSize i sh p env).1 (resume poolSize i sh p env).2 := by
  cases p with
  | acquire =>
    rw [resume]
    split
    · exact counts_of_le rfl rfl h (setInUse_length _ _ _).le rfl
    · split_ifs with hcreate
      · exact counts_beginCreation rfl rfl hcreate
      · exact counts_of_le rfl rfl h le_rfl rfl
    · exact counts_of_le rfl rfl h le_rfl rfl
  | creating =>
    rw [resume]
    split_ifs
    · exact counts_endCreation rfl rfl h (hpos rfl)
    · exact counts_failCreation rfl rfl h (hpos rfl) rfl rfl
  | created id => exact counts_of_le rfl rfl h (setInUse_length _ _ _).le rfl
  | waiting =>
    rw [resume]
    split
    · exact counts_of_le rfl rfl h le_rfl rfl
    · exact counts_of_le rfl rfl h le_rfl rfl
  | leased id =>
    simp only [resume]
    split_ifs
    · exact counts_of_le rfl rfl h List.eraseP_sublist.length_le rfl
    · refine counts_of_le rfl rfl h ?_ (handConnectionToNextWaiter_pending _)
      rw [handConnectionToNextWaiter_length]
      exact (setInUse_length _ _ _).le
  | retiring =>
    rw [resume, drainWaitQueue]
    split_ifs
    · exact counts_of_le rfl rfl h le_rfl rfl
    · exact counts_drainLoop rfl _ h rfl rfl
  | drainCreating =>
    rw [resume]
    split_ifs
    · exact counts_endCreation rfl rfl h (hpos rfl)
    · exact counts_failCreation rfl rfl h (hpos rfl) rfl rfl
  | drainCreated id =>
    rw [resume]
    split
    · exact counts_of_le rfl rfl h (setInUse_length _ _ _).le rfl
    · exact counts_drainLoop rfl _ h (handConnectionToNextWaiter_length id)
        (handConnectionToNextWaiter_pending id)
  | check => exact counts_of_le rfl (nextPing_isCreating _) h le_rfl rfl
  | ping id rest =>
    rw [resume]
    split_ifs
    · exact counts_of_le rfl (nextPing_isCreating _) h le_rfl rfl
    · exact counts_of_le rfl rfl h List.eraseP_sublist.length_le rfl
  | replacing rest =>
    rw [resume]
    split_ifs with hcreate
    · exact counts_beginCreation rfl rfl hcreate
    · exact counts_of_le rfl (nextPing_isCreating _) h le_rfl rfl
  | refreshing rest =>
    rw [resume]
    split_ifs
    · exact counts_endCreation rfl rfl h (hpos rfl)
    · exact counts_failCreation rfl (nextPing_isCreating _) h (hpos rfl) rfl rfl
  | refreshed id rest =>
    exact counts_of_le rfl (nextPing_isCreating _) h (setInUse_length _ _ _).le rfl
  | settled | failed => exact counts_of_le rfl rfl h le_rfl rfl

end Size

/-! ## All calls -/

structure Sound (poolSize : ℕ) (s : Calls ι (Shared ι) Point) : Prop where
  ok : Ok (fun id ↦ ∃ j, id ∈ (s.call j).fresh) s.shared
  alone : ∀ i j, i ≠ j → ∀ id ∈ (s.call i).fresh, id ∉ (s.call j).fresh
  held : ∀ i id, s.call i = .leased id → ⟨i, id⟩ ∈ s.shared.leases
  counted : ∃ creators : Finset ι, (∀ i, i ∈ creators ↔ (s.call i).isCreating = true) ∧
    creators.card = s.shared.pendingCreations
  bounded : s.shared.connections.length + s.shared.pendingCreations ≤ poolSize

/-- The pool after `initialize`, and calls that acquire a connection or check the idle ones. -/
def start (acquires : ι → Bool) : Calls ι (Shared ι) Point where
  shared :=
    { connections := [⟨1, false⟩]
      waitQueue := []
      nextConnectionId := 2
      pendingCreations := 0
      queueDrainInProgress := false
      leases := []
      strays := [] }
  call i := if acquires i then .acquire else .check

section Runs

variable {s : Calls ι (Shared ι) Point} {poolSize : ℕ}

theorem Sound.disciplined (hs : Sound poolSize s) : Disciplined poolSize s := by
  refine ⟨hs.ok.exclusive, hs.ok.pooled, fun creations hcreations ↦ ?_⟩
  obtain ⟨creators, hcreators, hcard⟩ := hs.counted
  have hsub : creations ⊆ creators := fun i hi ↦ (hcreators i).mpr (hcreations i hi)
  have hle := Finset.card_le_card hsub
  have hbounded := hs.bounded
  omega

/-- The records of the other calls, seen from one call. -/
def Others (s : Calls ι (Shared ι) Point) (i : ι) (id : ℕ) : Prop :=
  ∃ j, j ≠ i ∧ id ∈ (s.call j).fresh

theorem Sound.fits (hs : Sound poolSize s) (i : ι) :
    Fits (Others s i) s.shared (s.call i) := by
  constructor
  · refine hs.ok.mono fun id hid ↦ ?_
    rcases hid with ⟨j, -, hj⟩ | hi
    · exact ⟨j, hj⟩
    · exact ⟨i, hi⟩
  · rintro id hid ⟨j, hne, hj⟩
    exact hs.alone i j hne.symm id hid hj

variable {i : ι} {env : Env}

theorem Sound.relies (hs : Sound poolSize s) (hguard : Guarded s (i, env)) :
    (s.call i).Relies (Others s i) s.shared i env := by
  have hclear (h : ∀ j, j ≠ i → (s.call j).fresh = none) (id : ℕ) : ¬Others s i id := by
    rintro ⟨j, hne, hj⟩
    cases (h j hne).symm.trans hj
  have hheld := hs.held i
  rw [Guarded] at hguard
  generalize s.call i = p at hguard hheld ⊢
  cases p with
  | acquire => exact fun hwait ↦ hclear (hguard hwait)
  | retiring => exact fun hdrain hwait ↦ hclear (hguard hdrain hwait)
  | drainCreated => exact fun hrest ↦ hclear (hguard hrest)
  | leased id => exact ⟨hheld id rfl, hguard⟩
  | ping id rest => exact fun hping ⟨j, _, hj⟩ ↦ hguard hping j hj
  | creating | created | waiting | drainCreating | check | replacing | refreshing | refreshed
  | settled | failed => trivial

theorem sound_start (acquires : ι → Bool) (hpool : 0 < poolSize) :
    Sound poolSize (start acquires) := by
  have hfresh : ∀ i, ((start acquires).call i).fresh = none := by
    intro i
    simp only [start]
    split_ifs <;> rfl
  have hcreating : ∀ i, ((start acquires).call i).isCreating = false := by
    intro i
    simp only [start]
    split_ifs <;> rfl
  constructor
  case ok =>
    refine ⟨List.nodup_singleton _, ?_, nofun, Lease.exclusive_nil, fun _ _ _ ↦ Lease.not_held_nil,
      ?_, fun _ _ ↦ Lease.not_held_nil, rfl⟩
    · intro c hc
      rw [List.mem_singleton.mp hc]
      exact Nat.lt_succ_self _
    · rintro id ⟨j, hj⟩
      cases (hfresh j).symm.trans hj
  case alone =>
    intro i j _ id hid
    cases (hfresh i).symm.trans hid
  case held =>
    intro i id hi
    simp only [start] at hi
    split_ifs at hi
  case counted =>
    refine ⟨∅, fun i ↦ ?_, rfl⟩
    simp only [Finset.notMem_empty, hcreating i, Bool.false_eq_true]
  case bounded => exact hpool

variable [DecidableEq ι]

theorem Sound.counted_step (hs : Sound poolSize s)
    (hcounts : Counts poolSize s.shared (s.call i) (step poolSize s (i, env)).shared
      ((step poolSize s (i, env)).call i)) :
    ∃ creators : Finset ι,
      (∀ j, j ∈ creators ↔ ((step poolSize s (i, env)).call j).isCreating = true) ∧
        creators.card = (step poolSize s (i, env)).shared.pendingCreations := by
  obtain ⟨creators, hmem, hcard⟩ := hs.counted
  have hpending := hcounts.pending
  have hothers : ∀ j, j ≠ i → (step poolSize s (i, env)).call j = s.call j :=
    fun j hj ↦ Calls.step_call_of_ne s env hj
  -- whether the call belongs to them after the step decides which set it is
  cases hafter : ((step poolSize s (i, env)).call i).isCreating with
  | true =>
    refine ⟨insert i creators, fun j ↦ ?_, ?_⟩
    · by_cases hj : j = i
      · simp only [hj, Finset.mem_insert_self, hafter]
      · simp only [Finset.mem_insert, hj, false_or, hmem, hothers j hj]
    · cases hbefore : (s.call i).isCreating with
      | true =>
        rw [Finset.insert_eq_of_mem ((hmem i).mpr hbefore), hcard]
        rw [hbefore, hafter] at hpending
        exact (Nat.add_right_cancel hpending).symm
      | false =>
        have hi : i ∉ creators := fun hi ↦ absurd ((hmem i).mp hi) (by rw [hbefore]; decide)
        rw [Finset.card_insert_of_notMem hi, hcard]
        rw [hbefore, hafter] at hpending
        exact hpending.symm
  | false =>
    refine ⟨creators.erase i, fun j ↦ ?_, ?_⟩
    · by_cases hj : j = i
      · simp only [hj, Finset.notMem_erase, hafter, Bool.false_eq_true]
      · simp only [Finset.mem_erase, ne_eq, hj, not_false_eq_true, true_and, hmem, hothers j hj]
    · cases hbefore : (s.call i).isCreating with
      | true =>
        have hi : i ∈ creators := (hmem i).mpr hbefore
        rw [Finset.card_erase_of_mem hi, hcard]
        rw [hbefore, hafter] at hpending
        simp only [Bool.toNat_true, Bool.toNat_false] at hpending
        omega
      | false =>
        have hi : i ∉ creators := fun hi ↦ absurd ((hmem i).mp hi) (by rw [hbefore]; decide)
        rw [Finset.erase_eq_of_notMem hi, hcard]
        rw [hbefore, hafter] at hpending
        exact (Nat.add_right_cancel hpending).symm

theorem Sound.step (hs : Sound poolSize s) (hguard : Guarded s (i, env)) :
    Sound poolSize (Pool.step poolSize s (i, env)) := by
  have hfits : Fits (Others s i) (Pool.step poolSize s (i, env)).shared
      ((Pool.step poolSize s (i, env)).call i) := by
    rw [Pool.step, Calls.step_shared, Calls.step_call_self]
    exact (hs.fits i).resume (hs.relies hguard)
  have hcounts : Counts poolSize s.shared (s.call i) (Pool.step poolSize s (i, env)).shared
      ((Pool.step poolSize s (i, env)).call i) := by
    rw [Pool.step, Calls.step_shared, Calls.step_call_self]
    refine counts_resume (s.call i) hs.bounded fun hcreating ↦ ?_
    obtain ⟨creators, hmem, hcard⟩ := hs.counted
    exact hcard ▸ Finset.card_pos.mpr ⟨i, (hmem i).mpr hcreating⟩
  have hothers : ∀ j, j ≠ i → (Pool.step poolSize s (i, env)).call j = s.call j :=
    fun j hj ↦ Calls.step_call_of_ne s env hj
  constructor
  case ok =>
    refine hfits.ok.mono fun id ⟨j, hj⟩ ↦ ?_
    by_cases hji : j = i
    · exact .inr (hji ▸ hj)
    · exact .inl ⟨j, hji, hothers j hji ▸ hj⟩
  case alone =>
    refine Calls.forall_ne_step (R := fun (p p' : Point) ↦ ∀ id ∈ p.fresh, id ∉ p'.fresh)
      (fun _ _ h id hid hid' ↦ h id hid' hid) hs.alone fun j hji id hid hid' ↦ ?_
    refine hfits.alone id ?_ ⟨j, hji, hid'⟩
    rwa [Pool.step, Calls.step_call_self]
  case held =>
    intro j id hj
    by_cases hji : j = i
    · subst hji
      rw [Pool.step, Calls.step_call_self] at hj
      exact mem_of_resume_eq_leased hj
    · rw [hothers j hji] at hj
      exact mem_resume (hs.held j id hj) hji
  case counted => exact hs.counted_step hcounts
  case bounded => exact hcounts.bounded

/-- **The pool.** In every run whose steps find what they rely on, no connection is leased twice, no
lease is created for a connection that has left the pool, and the pool stays within its size. -/
theorem pool_disciplined (poolSize : ℕ) (hpool : 0 < poolSize) (acquires : ι → Bool)
    (as : List (ι × Env)) (hguard : Along (Pool.step poolSize) Guarded (start acquires) as) :
    Always (Pool.step poolSize) (Disciplined poolSize) (start acquires) as := by
  refine (hguard.always (P := Sound poolSize) (fun s ⟨i, env⟩ hs hg ↦ hs.step hg) ?_).mono
    fun s hs ↦ hs.disciplined
  exact sound_start acquires hpool

end Runs

section Examples

/-- Everything goes well, and leases are given back plainly. -/
def okEnv : Env := ⟨true, false⟩

def errorEnv : Env := ⟨false, false⟩

/-- Two calls take the connections of the pool; the third acquires while the record appended for the
second waits for its creator. -/
def overtaken : List (Fin 3 × Env) :=
  [(0, okEnv), (1, okEnv), (1, okEnv), (2, okEnv), (1, okEnv)]

/-- A connection is leased while it is pinged, the ping fails, and the connection is given back to a
pool in which somebody waits. -/
def staleLease : List (Fin 3 × Env) :=
  [(0, okEnv), (1, okEnv), (2, okEnv), (0, errorEnv), (1, okEnv)]

/-- With two connections, two calls get the same lease; and with one connection, a waiter gets a
connection that has been removed and closed. -/
theorem pool_not_disciplined :
    ¬Always (Pool.step 2) (Disciplined 2) (start fun _ : Fin 3 ↦ true) overtaken ∧
      ¬Always (Pool.step 1) (Disciplined 1) (start fun i : Fin 3 ↦ i != 0) staleLease := by
  constructor
  · intro h
    exact absurd h.last.exclusive (by decide)
  · intro h
    exact absurd h.last.pooled (by decide)

instance (s : Calls (Fin 3) (Shared (Fin 3)) Point) (a : Fin 3 × Env) :
    Decidable (Guarded s a) := by
  unfold Guarded
  split <;> infer_instance

/-- A connection of a pool of one is passed on, and retired while somebody waits. -/
theorem pool_disciplined_at :
    Always (Pool.step 1) (Disciplined 1) (start fun _ : Fin 3 ↦ true)
      [(0, okEnv), (1, okEnv), (2, okEnv), (0, okEnv), (1, okEnv), (1, ⟨true, true⟩), (1, okEnv),
        (1, okEnv), (1, okEnv), (2, okEnv)] :=
  pool_disciplined 1 (by decide) _ _ (by decide)

end Examples

end StellarDonations.Pool
