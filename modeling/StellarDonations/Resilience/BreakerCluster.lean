import StellarDonations.Resilience.CircuitBreaker

/-!
# Circuit breakers that share a row

Every process has its own `CircuitBreaker`, and all of them share the row of `circuit_breaker_state`
under its name. A breaker writes the row without waiting for it, and reads it every few seconds.

An instance that reads that another one holds the probe waits until the row says something else. So
the row has to change again: the holder must still run its probe, or have its outcome to store. When
the holder crashes, when the statement that stores the outcome fails, or when the statement that
names the holder is executed after it, the row stays as it is, and the instances that have read it
admit nothing any more (`Stuck.not_canRecover`). In the runs where this does not happen nobody is
blocked for ever (`nobody_stuck`).
-/

namespace StellarDonations.BreakerCluster

open CircuitBreaker Concurrency

/-! ## The row -/

/-- A row of `circuit_breaker_state`. -/
structure Row where
  state : BreakerState
  failureCount : ℕ
  lastFailureAt : Option ℤ
  openedAt : Option ℤ
  probeHolder : Option String
  deriving DecidableEq

/-- The `WHERE` of `_writeProbeHolder`. -/
def Row.claimable (row : Row) (instanceId : String) : Bool :=
  (row.state = .opened || row.state = .halfOpen) &&
    (row.probeHolder = none || row.probeHolder = some instanceId)

def executeWrite (row : Option Row) : Write → Option Row
  | .probeHolder instanceId => row.map fun row ↦
      if row.claimable instanceId then
        { row with probeHolder := some instanceId, state := .halfOpen }
      else row
  | .persist state failureCount lastFailureAt openedAt clearProbeHolder =>
    some ⟨state, failureCount, some lastFailureAt, openedAt,
      if clearProbeHolder then none else row.bind (·.probeHolder)⟩

def loadState (cfg : Config) (b : Breaker) (row : Option Row) (now : ℤ) : Breaker :=
  match row with
  | none => b
  | some row =>
    let openedAt := row.openedAt.filter (· ≠ 0)
    let b := { b with openedAt := openedAt }
    if row.state = .opened && openedAt.any (now - · < cfg.cooldownMs) then
      { b with state := .opened }
    else b

/-- The row names another instance as the holder of the probe. -/
def Row.heldByOther (row : Row) (instanceId : String) : Bool :=
  row.probeHolder.any fun holder ↦ holder ≠ "" && holder ≠ instanceId

def syncFromDb (b : Breaker) (instanceId : String) (row : Row) : Breaker :=
  if row.state = .opened && b.state ≠ .opened then
    { b with state := .opened, openedAt := row.openedAt, probeInFlight := false }
  else if row.state = .halfOpen && b.state = .opened then
    { b with
      state := .halfOpen
      openedAt := row.openedAt
      probeInFlight := row.heldByOther instanceId || b.probeInFlight }
  else if row.state = .closed && b.state ≠ .closed then new
  else b

/-! ## The instances -/

inductive Operation where
  | operation
  | probe
  deriving DecidableEq

/-- An instance: its breaker, the operations in flight, the statements it has sent, and the rows
that its polls have read. -/
structure Instance where
  alive : Bool
  breaker : Breaker
  operations : List Operation
  pending : List Write
  reads : List Row

/-- The clock, the row, and the instances by their `_instanceId`. -/
structure Cluster where
  now : ℤ
  row : Option Row
  inst : String → Instance

inductive Event where
  | tick (elapsed : ℕ)
  /-- A process starts, with `loadState`. -/
  | boot (id : String)
  | execute (id : String)
  /-- An operation in flight ends. -/
  | settle (id : String) (n : ℕ) (ok : Bool)
  /-- A statement that was sent is executed, or fails. -/
  | statement (id : String) (n : ℕ) (ok : Bool)
  /-- The `SELECT` of `_syncFromDb`. -/
  | poll (id : String)
  /-- The rest of `_syncFromDb`. -/
  | sync (id : String) (n : ℕ)
  | crash (id : String)

def Instance.dead : Instance := ⟨false, new, [], [], []⟩

namespace Instance

variable (cfg : Config) (id : String) (now : ℤ) (x : Instance)

def execute : Instance :=
  match x.breaker.execute cfg now with
  | (b, .refused _) => { x with breaker := b }
  | (b, .operation) => { x with breaker := b, operations := x.operations ++ [.operation] }
  | (b, .probe) =>
    { x with
      breaker := b
      operations := x.operations ++ [.probe]
      pending := x.pending ++ [.probeHolder id] }

def outcome (b : Breaker) (ok : Bool) : Operation → Breaker × List Write
  | .operation => if ok then (b, []) else b.recordFailure cfg now
  | .probe => if ok then Breaker.onSuccess now else b.onProbeFailure now

def settle (n : ℕ) (ok : Bool) : Instance :=
  match x.operations[n]? with
  | none => x
  | some op =>
    { x with
      breaker := (outcome cfg now x.breaker ok op).1
      operations := x.operations.eraseIdx n
      pending := x.pending ++ (outcome cfg now x.breaker ok op).2 }

def sync (n : ℕ) : Instance :=
  match x.reads[n]? with
  | none => x
  | some row =>
    { x with breaker := syncFromDb x.breaker id row, reads := x.reads.eraseIdx n }

end Instance

def Cluster.set (s : Cluster) (id : String) (x : Instance) : Cluster :=
  { s with inst := Function.update s.inst id x }

def step (cfg : Config) (s : Cluster) : Event → Cluster
  | .tick elapsed => { s with now := s.now + elapsed }
  | .boot id =>
    if (s.inst id).alive then s
    else s.set id { Instance.dead with alive := true, breaker := loadState cfg new s.row s.now }
  | .execute id =>
    if (s.inst id).alive then s.set id ((s.inst id).execute cfg id s.now) else s
  | .settle id n ok => s.set id ((s.inst id).settle cfg s.now n ok)
  | .statement id n ok =>
    match (s.inst id).pending[n]? with
    | none => s
    | some w =>
      { s.set id { s.inst id with pending := (s.inst id).pending.eraseIdx n } with
        row := if ok then executeWrite s.row w else s.row }
  | .poll id =>
    if (s.inst id).alive then
      s.set id { s.inst id with reads := (s.inst id).reads ++ s.row.toList }
    else s
  | .sync id n => s.set id ((s.inst id).sync id n)
  | .crash id => s.set id .dead

/-! ## What must hold -/

/-- An operation would be admitted now. -/
def Admits (cfg : Config) (s : Cluster) (id : String) : Prop :=
  (s.inst id).alive = true ∧ ∀ e, ((s.inst id).breaker.execute cfg s.now).2 ≠ .refused e

/-- The clock advances, a poll, and statements in flight that are executed. -/
def Event.recovers : Event → Bool
  | .tick _ | .poll _ | .sync _ _ | .statement _ _ true => true
  | .boot _ | .execute _ | .settle _ _ _ | .statement _ _ false | .crash _ => false

/-- The instance can come to admit an operation. -/
def CanRecover (cfg : Config) (s : Cluster) (id : String) : Prop :=
  ∃ es : List Event, (∀ e ∈ es, e.recovers = true) ∧ Admits cfg (run (step cfg) s es) id

/-- While no probe is running anywhere, every live instance can come to admit an operation. -/
def Unblocked (cfg : Config) (s : Cluster) : Prop :=
  (∀ id, Operation.probe ∉ (s.inst id).operations) →
    ∀ id, (s.inst id).alive = true → CanRecover cfg s id

/-! ## The condition -/

/-- The row is half-open in the name of an instance. -/
def HeldBy (row : Option Row) (id : String) : Prop :=
  ∃ r, row = some r ∧ r.state = .halfOpen ∧ r.probeHolder = some id

/-- The statement stores the state of a breaker. -/
def IsPersist (w : Write) : Prop := ∀ id, w ≠ .probeHolder id

/-- The instance runs a probe, or has sent a statement that will store a state. -/
def Answers (operations : List Operation) (pending : List Write) : Prop :=
  .probe ∈ operations ∨ ∃ w ∈ pending, IsPersist w

/-- An event leaves the row half-open in the name of an instance only if that instance will still
store an outcome: the holder does not crash, and none of its statements that would leave its name
there fails, or is executed, when nothing of it follows. -/
def Orderly (s : Cluster) : Event → Prop
  | .crash id => ¬HeldBy s.row id
  | .statement id n ok => ∀ w, (s.inst id).pending[n]? = some w →
      HeldBy (if ok then executeWrite s.row w else s.row) id →
        Answers (s.inst id).operations ((s.inst id).pending.eraseIdx n)
  | _ => True

/-! ## Breakers and rows that are in order -/

section Local

variable {cfg : Config} {b : Breaker} {now : ℤ} {r : Row}

/-- An open breaker knows since when, and only a half-open one has a probe in flight. -/
structure BreakerOk (b : Breaker) : Prop where
  opened : b.state = .opened → b.openedAt.isSome = true
  flag : b.state ≠ .halfOpen → b.probeInFlight = false

theorem breakerOk_of_opened (hopenedAt : b.openedAt.isSome = true)
    (hflag : b.probeInFlight = false) : BreakerOk b :=
  ⟨fun _ ↦ hopenedAt, fun _ ↦ hflag⟩

theorem breakerOk_of_halfOpen (hstate : b.state = .halfOpen) : BreakerOk b := by
  refine ⟨fun hopened ↦ ?_, fun hne ↦ absurd hstate hne⟩
  cases hstate.symm.trans hopened

theorem breakerOk_of_closed (hstate : b.state = .closed) (hflag : b.probeInFlight = false) :
    BreakerOk b := by
  refine ⟨fun hopened ↦ ?_, fun _ ↦ hflag⟩
  cases hstate.symm.trans hopened

theorem breakerOk_new : BreakerOk new := breakerOk_of_closed rfl rfl

theorem breakerOk_open (b : Breaker) (now : ℤ) : BreakerOk (b.open' now).1 :=
  breakerOk_of_opened rfl rfl

theorem BreakerOk.transition (h : BreakerOk b) (cfg : Config) (now : ℤ) :
    BreakerOk (b.maybeTransitionToHalfOpen cfg now) := by
  rw [Breaker.maybeTransitionToHalfOpen]
  split_ifs
  · exact breakerOk_of_halfOpen rfl
  · exact h

theorem BreakerOk.execute (h : BreakerOk b) (cfg : Config) (now : ℤ) :
    BreakerOk (b.execute cfg now).1 := by
  have htransition := h.transition cfg now
  rw [Breaker.execute]
  split
  · exact htransition
  · next hhalf =>
    split_ifs
    · exact htransition
    · exact breakerOk_of_halfOpen hhalf
  · exact htransition

theorem BreakerOk.recordFailure (h : BreakerOk b) (cfg : Config) (now : ℤ) :
    BreakerOk (b.recordFailure cfg now).1 := by
  rw [Breaker.recordFailure]
  split_ifs
  · exact breakerOk_open _ now
  · exact ⟨h.opened, h.flag⟩

theorem breakerOk_loadState (cfg : Config) (row : Option Row) (now : ℤ) :
    BreakerOk (loadState cfg new row now) := by
  cases row with
  | none => exact breakerOk_new
  | some row =>
    rw [loadState]
    split_ifs with hopen
    · obtain ⟨t, ht, -⟩ := (Option.any_eq_true _ _).mp (Bool.and_eq_true_iff.mp hopen).2
      exact breakerOk_of_opened (Option.isSome_iff_exists.mpr ⟨t, ht⟩) rfl
    · exact breakerOk_of_closed rfl rfl

theorem not_probing_loadState (cfg : Config) (row : Option Row) (now : ℤ) :
    ¬Probing (loadState cfg new row now) := by
  intro h
  have hflag : (loadState cfg new row now).probeInFlight = false := by
    cases row with
    | none => rfl
    | some row =>
      rw [loadState]
      split_ifs
      · rfl
      · rfl
  exact absurd (h.flag.symm.trans hflag) (by decide)

def Row.Dated (r : Row) : Prop := r.state = .opened → r.openedAt.isSome = true

theorem BreakerOk.syncFromDb (h : BreakerOk b) (id : String) (hr : r.Dated) :
    BreakerOk (syncFromDb b id r) := by
  rw [BreakerCluster.syncFromDb]
  split_ifs with hopened
  · have hdated := hr (of_decide_eq_true (Bool.and_eq_true_iff.mp hopened).1)
    exact breakerOk_of_opened hdated rfl
  · exact breakerOk_of_halfOpen rfl
  · exact breakerOk_new
  · exact h

theorem probing_execute (h : Probing (b.execute cfg now).1) :
    (b.execute cfg now).2 = .probe ∨ Probing b := by
  by_cases hprobing : Probing b
  · exact .inr hprobing
  · refine .inl ?_
    have htransition : ¬Probing (b.maybeTransitionToHalfOpen cfg now) := by
      rw [Breaker.maybeTransitionToHalfOpen]
      split_ifs
      · exact fun hafter ↦ absurd hafter.flag Bool.false_ne_true
      · exact hprobing
    rw [Breaker.execute] at h ⊢
    split at h
    · exact absurd h htransition
    · split_ifs at h with hflag
      · exact absurd h htransition
      · rw [if_neg hflag]
    · exact absurd h htransition

theorem probing_recordFailure (h : Probing (b.recordFailure cfg now).1) : Probing b := by
  rw [Breaker.recordFailure] at h
  split_ifs at h
  · exact absurd h.flag Bool.false_ne_true
  · exact ⟨h.state, h.flag⟩

theorem not_probing_syncFromDb {id : String} (hr : r.state ≠ .halfOpen) :
    ¬Probing (syncFromDb b id r) := by
  intro h
  rw [BreakerCluster.syncFromDb] at h
  split_ifs at h with hopened hhalf hclosed
  · exact absurd h.flag Bool.false_ne_true
  · exact hr (of_decide_eq_true (Bool.and_eq_true_iff.mp hhalf).1)
  · exact absurd h.flag Bool.false_ne_true
  · -- the breaker is half-open, so a row that is not would have changed it
    cases hstate : r.state with
    | opened => exact hopened (by rw [hstate, h.state]; decide)
    | halfOpen => exact hr hstate
    | closed => exact hclosed (by rw [hstate, h.state]; decide)

/-- A statement stores the state of a breaker that is not half-open. -/
def Settled (w : Write) : Prop :=
  ∀ row r, IsPersist w → executeWrite row w = some r → r.state ≠ .halfOpen ∧ r.Dated

theorem settled_probeHolder (id : String) : Settled (.probeHolder id) :=
  fun _ _ hw ↦ absurd rfl (hw id)

theorem settled_persistState (hb : BreakerOk b) (hstate : b.state ≠ .halfOpen) (now : ℤ)
    (clear : Bool) : Settled (b.persistState now clear) := by
  intro row r _ hr
  cases hr
  exact ⟨hstate, hb.opened⟩

theorem isPersist_of_mem_outcome {op : Operation} {ok : Bool} {w : Write}
    (hw : w ∈ (Instance.outcome cfg now b ok op).2) : IsPersist w := by
  have hpersist : ∀ (b : Breaker) clear, IsPersist (b.persistState now clear) :=
    fun _ _ _ hne ↦ nomatch hne
  cases op with
  | operation =>
    cases ok with
    | true => cases hw
    | false =>
      rw [Instance.outcome, if_neg Bool.false_ne_true, Breaker.recordFailure] at hw
      split_ifs at hw
      · exact List.mem_singleton.mp hw ▸ hpersist _ _
      · cases hw
  | probe =>
    cases ok with
    | true => exact List.mem_singleton.mp hw ▸ hpersist _ _
    | false => exact List.mem_singleton.mp hw ▸ hpersist _ _

theorem settled_of_mem_outcome {op : Operation} {ok : Bool} {w : Write}
    (hw : w ∈ (Instance.outcome cfg now b ok op).2) : Settled w := by
  have hopen : ∀ (b : Breaker) w, w ∈ (b.open' now).2 → Settled w := by
    intro b w hw
    rw [Breaker.open', List.mem_singleton] at hw
    subst hw
    refine settled_persistState (breakerOk_open b now) ?_ now false
    rintro ⟨⟩
  cases op with
  | operation =>
    cases ok with
    | true => cases hw
    | false =>
      rw [Instance.outcome, if_neg Bool.false_ne_true, Breaker.recordFailure] at hw
      split_ifs at hw
      · exact hopen _ w hw
      · cases hw
  | probe =>
    cases ok with
    | true =>
      rw [Instance.outcome, if_pos rfl, Breaker.onSuccess, List.mem_singleton] at hw
      subst hw
      exact settled_persistState breakerOk_new (by decide) now true
    | false => exact hopen _ w hw

theorem BreakerOk.outcome (h : BreakerOk b) (cfg : Config) (now : ℤ) (op : Operation) (ok : Bool) :
    BreakerOk (Instance.outcome cfg now b ok op).1 := by
  cases op with
  | operation =>
    cases ok with
    | true => exact h
    | false => exact h.recordFailure cfg now
  | probe =>
    cases ok with
    | true => exact breakerOk_new
    | false => exact breakerOk_open b now

theorem probing_outcome {op : Operation} {ok : Bool}
    (h : Probing (Instance.outcome cfg now b ok op).1) : op = .operation ∧ Probing b := by
  cases op with
  | operation =>
    cases ok with
    | true => exact ⟨rfl, h⟩
    | false => exact ⟨rfl, probing_recordFailure h⟩
  | probe =>
    cases ok with
    | true => exact absurd h.flag Bool.false_ne_true
    | false => exact absurd h.flag Bool.false_ne_true

end Local

/-! ## The invariant -/

section Invariant

variable {cfg : Config} {s : Cluster} {row : Option Row} {x : Instance} {id : String} {now : ℤ}

/-- What holds of one instance. A breaker with a probe in flight that runs none has seen a row. -/
structure Instance.Ok (row : Option Row) (id : String) (x : Instance) : Prop where
  breaker : BreakerOk x.breaker
  gone : x.alive = false → x = .dead
  waits : Probing x.breaker → .probe ∈ x.operations ∨ row.isSome = true
  pending : ∀ w ∈ x.pending, Settled w ∧ (IsPersist w ∨ w = .probeHolder id)
  reads : ∀ r ∈ x.reads, r.Dated ∧ row.isSome = true

theorem Instance.ok_dead (row : Option Row) (id : String) : Instance.dead.Ok row id where
  breaker := breakerOk_new
  gone _ := rfl
  waits h := absurd h.flag Bool.false_ne_true
  pending _ hw := absurd hw List.not_mem_nil
  reads _ hr := absurd hr List.not_mem_nil

theorem Instance.Ok.row_mono {row' : Option Row} (h : x.Ok row id)
    (hrow : row.isSome = true → row'.isSome = true) : x.Ok row' id where
  breaker := h.breaker
  gone := h.gone
  waits hprobing := (h.waits hprobing).imp_right hrow
  pending := h.pending
  reads r hr := ⟨(h.reads r hr).1, hrow (h.reads r hr).2⟩

theorem Instance.Ok.execute (h : x.Ok row id) (halive : x.alive = true) (cfg : Config)
    (now : ℤ) : (x.execute cfg id now).Ok row id := by
  have hbreaker := h.breaker.execute cfg now
  have hgone : x.alive ≠ false := fun hdead ↦ Bool.false_ne_true (hdead.symm.trans halive)
  have hprobing : Probing (x.breaker.execute cfg now).1 →
      (x.breaker.execute cfg now).2 = .probe ∨ Probing x.breaker := probing_execute
  rw [Instance.execute]
  rcases hexecute : x.breaker.execute cfg now with ⟨b, admission⟩
  rw [hexecute] at hbreaker hprobing
  cases admission with
  | refused e =>
    refine ⟨hbreaker, fun hdead ↦ absurd hdead hgone, fun hb ↦ ?_, h.pending, h.reads⟩
    exact h.waits ((hprobing hb).resolve_left fun hne ↦ nomatch hne)
  | operation =>
    refine ⟨hbreaker, fun hdead ↦ absurd hdead hgone, fun hb ↦ ?_, h.pending, h.reads⟩
    refine (h.waits ((hprobing hb).resolve_left fun hne ↦ nomatch hne)).imp_left fun hmem ↦ ?_
    exact List.mem_append_left _ hmem
  | probe =>
    refine ⟨hbreaker, fun hdead ↦ absurd hdead hgone, fun _ ↦ .inl ?_, fun w hw ↦ ?_, h.reads⟩
    · exact List.mem_append_right _ (List.mem_singleton_self _)
    · rcases List.mem_append.mp hw with hw | hw
      · exact h.pending w hw
      · rw [List.mem_singleton.mp hw]
        exact ⟨settled_probeHolder id, .inr rfl⟩

theorem Instance.Ok.settle (h : x.Ok row id) (cfg : Config) (now : ℤ) (n : ℕ) (ok : Bool) :
    (x.settle cfg now n ok).Ok row id := by
  rw [Instance.settle]
  cases hop : x.operations[n]? with
  | none => exact h
  | some op =>
    refine ⟨h.breaker.outcome cfg now op ok, fun hdead ↦ ?_, fun hprobing ↦ ?_, fun w hw ↦ ?_,
      h.reads⟩
    · rw [h.gone hdead] at hop
      cases hop
    · obtain ⟨rfl, hb⟩ := probing_outcome hprobing
      refine (h.waits hb).imp_left fun hmem ↦ ?_
      obtain ⟨m, hm⟩ := List.mem_iff_getElem?.mp hmem
      refine List.mem_eraseIdx_iff_getElem?.mpr ⟨m, ?_, hm⟩
      rintro rfl
      cases hop.symm.trans hm
    · rcases List.mem_append.mp hw with hw | hw
      · exact h.pending w hw
      · exact ⟨settled_of_mem_outcome hw, .inl (isPersist_of_mem_outcome hw)⟩

theorem Instance.Ok.sync (h : x.Ok row id) (n : ℕ) : (x.sync id n).Ok row id := by
  rw [Instance.sync]
  cases hr : x.reads[n]? with
  | none => exact h
  | some r =>
    obtain ⟨hdated, hrow⟩ := h.reads r (List.mem_of_getElem? hr)
    refine ⟨h.breaker.syncFromDb id hdated, fun hdead ↦ ?_, fun _ ↦ .inr hrow, h.pending,
      fun r' hr' ↦ h.reads r' (List.mem_of_mem_eraseIdx hr')⟩
    rw [h.gone hdead] at hr
    cases hr

structure Row.Ok (r : Row) : Prop where
  dated : r.Dated
  held : r.state = .halfOpen → r.probeHolder.isSome = true

/-- **The invariant.** The instance in whose name the row is half-open will answer. -/
structure Sound (s : Cluster) : Prop where
  row : ∀ r, s.row = some r → r.Ok
  inst : ∀ id, (s.inst id).Ok s.row id
  answers : ∀ id, HeldBy s.row id → Answers (s.inst id).operations (s.inst id).pending

@[simp] theorem set_row (s : Cluster) (id : String) (x : Instance) : (s.set id x).row = s.row := rfl

@[simp] theorem set_now (s : Cluster) (id : String) (x : Instance) : (s.set id x).now = s.now := rfl

@[simp] theorem set_inst_self (s : Cluster) (id : String) (x : Instance) :
    (s.set id x).inst id = x := by
  dsimp only [Cluster.set]
  rw [Function.update_self]

theorem set_inst_of_ne (s : Cluster) {id id' : String} (x : Instance) (h : id' ≠ id) :
    (s.set id x).inst id' = s.inst id' := by
  dsimp only [Cluster.set]
  rw [Function.update_of_ne h]

theorem Sound.set (h : Sound s) (hx : x.Ok s.row id)
    (hanswers : HeldBy s.row id → Answers x.operations x.pending) : Sound (s.set id x) where
  row := h.row
  inst id' := by
    by_cases hid : id' = id
    · subst hid
      rw [set_inst_self]
      exact hx
    · rw [set_inst_of_ne s x hid]
      exact h.inst id'
  answers id' := by
    by_cases hid : id' = id
    · subst hid
      rw [set_inst_self]
      exact hanswers
    · rw [set_inst_of_ne s x hid]
      exact h.answers id'

theorem Answers.mono {ops ops' : List Operation} {ws ws' : List Write} (h : Answers ops ws)
    (hops : .probe ∈ ops → .probe ∈ ops' ∨ ∃ w ∈ ws', IsPersist w) (hws : ∀ w ∈ ws, w ∈ ws') :
    Answers ops' ws' := by
  rcases h with hprobe | ⟨w, hw, hpersist⟩
  · exact hops hprobe
  · exact .inr ⟨w, hws w hw, hpersist⟩

theorem Answers.execute (h : Answers x.operations x.pending) (cfg : Config) (id : String)
    (now : ℤ) : Answers (x.execute cfg id now).operations (x.execute cfg id now).pending := by
  rw [Instance.execute]
  rcases x.breaker.execute cfg now with ⟨b, admission⟩
  cases admission with
  | refused e => exact h
  | operation => exact h.mono (fun hop ↦ .inl (List.mem_append_left _ hop)) fun w hw ↦ hw
  | probe =>
    refine h.mono (fun hop ↦ .inl (List.mem_append_left _ hop)) fun w hw ↦ ?_
    exact List.mem_append_left _ hw

/-- The end of a probe sends a statement that stores a state. -/
theorem exists_isPersist_outcome (cfg : Config) (now : ℤ) (b : Breaker) (ok : Bool) :
    ∃ w ∈ (Instance.outcome cfg now b ok .probe).2, IsPersist w := by
  cases ok with
  | true => exact ⟨_, List.mem_singleton_self _, fun id hw ↦ nomatch hw⟩
  | false => exact ⟨_, List.mem_singleton_self _, fun id hw ↦ nomatch hw⟩

theorem Answers.settle (h : Answers x.operations x.pending) (cfg : Config) (now : ℤ) (n : ℕ)
    (ok : Bool) : Answers (x.settle cfg now n ok).operations (x.settle cfg now n ok).pending := by
  rw [Instance.settle]
  cases hop : x.operations[n]? with
  | none => exact h
  | some op =>
    refine h.mono (fun hmem ↦ ?_) fun w hw ↦ List.mem_append_left _ hw
    cases op with
    | operation =>
      obtain ⟨m, hm⟩ := List.mem_iff_getElem?.mp hmem
      refine .inl (List.mem_eraseIdx_iff_getElem?.mpr ⟨m, ?_, hm⟩)
      rintro rfl
      cases hop.symm.trans hm
    | probe =>
      obtain ⟨w, hw, hpersist⟩ := exists_isPersist_outcome cfg now x.breaker ok
      exact .inr ⟨w, List.mem_append_right _ hw, hpersist⟩

theorem answers_sync (h : Answers x.operations x.pending) (id : String) (n : ℕ) :
    Answers (x.sync id n).operations (x.sync id n).pending := by
  rw [Instance.sync]
  split
  · exact h
  · exact h

theorem Row.Ok.executeWrite (h : ∀ r, row = some r → r.Ok) {w : Write} (hw : Settled w)
    {r : Row} (hr : executeWrite row w = some r) : r.Ok := by
  cases w with
  | persist state failureCount lastFailureAt openedAt clear =>
    obtain ⟨hstate, hdated⟩ := hw row r (fun _ hne ↦ nomatch hne) hr
    exact ⟨hdated, fun hhalf ↦ absurd hhalf hstate⟩
  | probeHolder id =>
    obtain ⟨r₀, hr₀, rfl⟩ := Option.map_eq_some_iff.mp hr
    split_ifs
    · constructor
      · intro hopened
        cases hopened
      · exact fun _ ↦ rfl
    · exact h r₀ hr₀

theorem isSome_executeWrite (h : row.isSome = true) (w : Write) :
    (executeWrite row w).isSome = true := by
  cases w with
  | persist => rfl
  | probeHolder id => rw [executeWrite, Option.isSome_map, h]

/-- Only the statement that names an instance makes the row half-open in its name. -/
theorem heldBy_executeWrite {w : Write} (hw : Settled w) (h : HeldBy (executeWrite row w) id) :
    HeldBy row id ∨ w = .probeHolder id := by
  obtain ⟨r, hr, hstate, hholder⟩ := h
  cases w with
  | persist state failureCount lastFailureAt openedAt clear =>
    exact absurd hstate (hw row r (fun _ hne ↦ nomatch hne) hr).1
  | probeHolder id' =>
    obtain ⟨r₀, hr₀, hupdated⟩ := Option.map_eq_some_iff.mp hr
    split_ifs at hupdated
    · rw [← hupdated] at hholder
      exact .inr (congrArg _ (Option.some.inj hholder))
    · rw [hupdated] at hr₀
      exact .inl ⟨r, hr₀, hstate, hholder⟩

theorem Sound.statement (h : Sound s) {n : ℕ} {ok : Bool}
    (horderly : Orderly s (.statement id n ok)) :
    Sound (step cfg s (.statement id n ok)) := by
  rw [step]
  cases hn : (s.inst id).pending[n]? with
  | none => exact h
  | some w =>
    have hmem := List.mem_of_getElem? hn
    obtain ⟨hsettled, hown⟩ := (h.inst id).pending w hmem
    have hrow : ∀ {row'}, row' = (if ok then executeWrite s.row w else s.row) →
        s.row.isSome = true → row'.isSome = true := by
      rintro _ rfl hsome
      split_ifs
      · exact isSome_executeWrite hsome w
      · exact hsome
    have halive : (s.inst id).alive ≠ false := by
      intro hdead
      rw [(h.inst id).gone hdead] at hmem
      exact absurd hmem List.not_mem_nil
    refine ⟨fun r hr ↦ ?_, fun id' ↦ ?_, fun id' hheld ↦ ?_⟩
    · dsimp only at hr
      split_ifs at hr
      · exact Row.Ok.executeWrite h.row hsettled hr
      · exact h.row r hr
    · suffices hinst : Instance.Ok s.row id' _ from hinst.row_mono (hrow rfl)
      by_cases hid : id' = id
      · subst hid
        have hinst := h.inst id'
        dsimp only
        rw [set_inst_self]
        exact ⟨hinst.breaker, fun hdead ↦ absurd hdead halive, hinst.waits,
          fun w hw ↦ hinst.pending w (List.mem_of_mem_eraseIdx hw), hinst.reads⟩
      · dsimp only
        rw [set_inst_of_ne s _ hid]
        exact h.inst id'
    · dsimp only at hheld ⊢
      by_cases hid : id' = id
      · subst hid
        rw [set_inst_self]
        exact horderly w hn hheld
      · rw [set_inst_of_ne s _ hid]
        -- only the holder itself writes its name into the row
        refine h.answers id' ?_
        split_ifs at hheld
        · refine (heldBy_executeWrite hsettled hheld).resolve_right fun hw ↦ ?_
          rcases hown with hpersist | hown
          · exact hpersist id' hw
          · exact hid (Write.probeHolder.inj (hw.symm.trans hown))
        · exact hheld

/-- **One event** that leaves the row to somebody. -/
theorem Sound.step (h : Sound s) {e : Event} (horderly : Orderly s e) :
    Sound (step cfg s e) := by
  cases e with
  | tick elapsed => exact ⟨h.row, h.inst, h.answers⟩
  | boot id =>
    rw [BreakerCluster.step]
    split_ifs with halive
    · exact h
    · have hdead := (h.inst id).gone (Bool.eq_false_iff.mpr halive)
      apply h.set
      · refine ⟨breakerOk_loadState cfg s.row s.now, fun hgone ↦ ?_, ?_, ?_, ?_⟩
        · cases hgone
        · exact fun hprobing ↦ absurd hprobing (not_probing_loadState cfg s.row s.now)
        · exact fun w hw ↦ absurd hw List.not_mem_nil
        · exact fun r hr ↦ absurd hr List.not_mem_nil
      -- a dead instance has nothing to say, so the row is not half-open in its name
      · intro hheld
        have hanswers := h.answers id hheld
        rw [hdead] at hanswers
        exact hanswers
  | execute id =>
    rw [BreakerCluster.step]
    split_ifs with halive
    · exact h.set ((h.inst id).execute halive cfg s.now) fun hheld ↦
        (h.answers id hheld).execute cfg id s.now
    · exact h
  | settle id n ok =>
    exact h.set ((h.inst id).settle cfg s.now n ok) fun hheld ↦
      (h.answers id hheld).settle cfg s.now n ok
  | statement id n ok => exact h.statement horderly
  | poll id =>
    rw [BreakerCluster.step]
    split_ifs with halive
    · have hinst := h.inst id
      refine h.set ⟨hinst.breaker, fun hdead ↦ absurd (halive.symm.trans hdead) (by decide),
        hinst.waits, hinst.pending, fun r hr ↦ ?_⟩ (h.answers id)
      rcases List.mem_append.mp hr with hr | hr
      · exact hinst.reads r hr
      · have hrow := Option.mem_toList.mp hr
        exact ⟨(h.row r hrow).dated, Option.isSome_iff_exists.mpr ⟨r, hrow⟩⟩
    · exact h
  | sync id n =>
    exact h.set ((h.inst id).sync n) fun hheld ↦ answers_sync (h.answers id hheld) id n
  | crash id => exact h.set (Instance.ok_dead s.row id) fun hheld ↦ absurd hheld horderly

end Invariant

/-! ## Recovery -/

section Recovery

variable {cfg : Config} {s : Cluster} {id : String}

theorem canRecover_of_admits (h : Admits cfg s id) : CanRecover cfg s id :=
  ⟨[], fun _ he ↦ absurd he List.not_mem_nil, h⟩

theorem canRecover_of_step {e : Event} (he : e.recovers = true)
    (h : CanRecover cfg (step cfg s e) id) : CanRecover cfg s id := by
  obtain ⟨es, hes, hadmits⟩ := h
  refine ⟨e :: es, fun e' he' ↦ ?_, hadmits⟩
  rcases List.mem_cons.mp he' with rfl | he'
  · exact he
  · exact hes e' he'

/-- A breaker that waits for no probe admits an operation, an open one after its cooldown. -/
theorem canRecover_of_not_probing (halive : (s.inst id).alive = true)
    (hok : BreakerOk (s.inst id).breaker) (h : ¬Probing (s.inst id).breaker) :
    CanRecover cfg s id := by
  cases hstate : (s.inst id).breaker.state with
  | closed =>
    refine canRecover_of_admits ⟨halive, fun e he ↦ ?_⟩
    rw [Breaker.execute, maybeTransitionToHalfOpen_of_ne cfg s.now (by rw [hstate]; decide),
      hstate] at he
    cases he
  | halfOpen =>
    have hflag : (s.inst id).breaker.probeInFlight = false :=
      Bool.eq_false_iff.mpr fun hflag ↦ h ⟨hstate, hflag⟩
    refine canRecover_of_admits ⟨halive, fun e he ↦ ?_⟩
    rw [Breaker.execute, maybeTransitionToHalfOpen_of_ne cfg s.now (by rw [hstate]; decide),
      hstate] at he
    dsimp only at he
    rw [if_neg (Bool.eq_false_iff.mp hflag)] at he
    cases he
  | opened =>
    obtain ⟨openedAt, hopenedAt⟩ := Option.isSome_iff_exists.mp (hok.opened hstate)
    -- the time that is left of the cooldown
    apply canRecover_of_step (e := .tick (cfg.cooldownMs - (s.now - openedAt)).toNat) rfl
    refine canRecover_of_admits ⟨halive, fun e he ↦ ?_⟩
    have hcooled : (s.inst id).breaker.cooledDown cfg
        (s.now + (cfg.cooldownMs - (s.now - openedAt)).toNat) = true := by
      rw [Breaker.cooledDown, hopenedAt, Option.any_some]
      refine Bool.and_eq_true_iff.mpr ⟨decide_eq_true hstate, decide_eq_true ?_⟩
      omega
    rw [step] at he
    dsimp only at he
    rw [Breaker.execute, Breaker.maybeTransitionToHalfOpen, if_pos hcooled] at he
    cases he

theorem canRecover_of_row (halive : (s.inst id).alive = true)
    (hok : BreakerOk (s.inst id).breaker) {r : Row} (hrow : s.row = some r) (hdated : r.Dated)
    (hstate : r.state ≠ .halfOpen) : CanRecover cfg s id := by
  apply canRecover_of_step (e := .poll id) rfl
  apply canRecover_of_step (e := .sync id (s.inst id).reads.length) rfl
  have hpoll : step cfg s (.poll id) =
      s.set id { s.inst id with reads := (s.inst id).reads ++ [r] } := by
    rw [step, if_pos halive, hrow, Option.toList_some]
  have hsync : (step cfg (step cfg s (.poll id)) (.sync id (s.inst id).reads.length)).inst id =
      { s.inst id with
        breaker := syncFromDb (s.inst id).breaker id r
        reads := ((s.inst id).reads ++ [r]).eraseIdx (s.inst id).reads.length } := by
    rw [hpoll, step, set_inst_self, set_inst_self, Instance.sync]
    dsimp only
    rw [List.getElem?_concat_length]
  apply canRecover_of_not_probing
  · rw [hsync]
    exact halive
  · rw [hsync]
    exact hok.syncFromDb id hdated
  · rw [hsync]
    exact not_probing_syncFromDb hstate

theorem statement_inst (cfg : Config) (s : Cluster) (id id' : String) (n : ℕ) (ok : Bool) :
    ((step cfg s (.statement id n ok)).inst id').alive = (s.inst id').alive ∧
      ((step cfg s (.statement id n ok)).inst id').breaker = (s.inst id').breaker := by
  rw [step]
  split
  · exact ⟨rfl, rfl⟩
  · dsimp only
    by_cases hid : id' = id
    · subst hid
      rw [set_inst_self]
      exact ⟨rfl, rfl⟩
    · rw [set_inst_of_ne s _ hid]
      exact ⟨rfl, rfl⟩

/-- In a sound state nobody is blocked for ever. -/
theorem Sound.unblocked (h : Sound s) : Unblocked cfg s := by
  intro hnone id halive
  have hok := (h.inst id).breaker
  by_cases hprobing : Probing (s.inst id).breaker
  · have hsome := ((h.inst id).waits hprobing).resolve_left (hnone id)
    obtain ⟨r, hrow⟩ := Option.isSome_iff_exists.mp hsome
    by_cases hstate : r.state = .halfOpen
    · -- the holder of the probe has sent its outcome
      obtain ⟨holder, hholder⟩ := Option.isSome_iff_exists.mp ((h.row r hrow).held hstate)
      have hanswers := h.answers holder ⟨r, hrow, hstate, hholder⟩
      obtain ⟨w, hw, hpersist⟩ := hanswers.resolve_left (hnone holder)
      obtain ⟨n, hn⟩ := List.mem_iff_getElem?.mp hw
      have hrow' : (BreakerCluster.step cfg s (.statement holder n true)).row =
          executeWrite s.row w := by
        rw [BreakerCluster.step, hn]
        rfl
      obtain ⟨r', hr'⟩ := Option.isSome_iff_exists.mp (isSome_executeWrite hsome w)
      obtain ⟨hstate', hdated'⟩ := ((h.inst holder).pending w hw).1 s.row r' hpersist hr'
      obtain ⟨halive', hbreaker'⟩ := statement_inst cfg s holder id n true
      apply canRecover_of_step (e := .statement holder n true) rfl
      exact canRecover_of_row (halive'.trans halive) (hbreaker' ▸ hok) (hrow'.trans hr') hdated'
        hstate'
    · exact canRecover_of_row halive hok hrow (h.row r hrow).dated hstate
  · exact canRecover_of_not_probing halive hok hprobing

/-- **Nobody is blocked for ever.** In every run of any number of instances, from any row that is
not half-open, in which no holder of the probe crashes and no statement that leaves its name in the
row is the last one it has to say, whenever no probe is running every live instance can come to
admit an operation by waiting, by polling, and by the statements in flight. -/
theorem nobody_stuck (cfg : Config) (now : ℤ) (row : Option Row) (es : List Event)
    (hrow : ∀ r, row = some r → r.state ≠ .halfOpen ∧ r.Dated)
    (h : Along (step cfg) Orderly ⟨now, row, fun _ ↦ .dead⟩ es) :
    Always (step cfg) (Unblocked cfg) ⟨now, row, fun _ ↦ .dead⟩ es := by
  have hstart : Sound ⟨now, row, fun _ ↦ .dead⟩ := by
    refine ⟨fun r hr ↦ ⟨(hrow r hr).2, fun hhalf ↦ absurd hhalf (hrow r hr).1⟩,
      Instance.ok_dead row, fun id hheld ↦ ?_⟩
    obtain ⟨r, hr, hhalf, -⟩ := hheld
    exact absurd hhalf (hrow r hr).1
  exact (h.always (fun _ _ hs ↦ hs.step) hstart).mono fun _ hs ↦ hs.unblocked

/-- The row is half-open, the instance waits for whoever holds the probe, and no statement in flight
will store a state. -/
structure Stuck (s : Cluster) (id : String) : Prop where
  row : ∀ r, s.row = some r → r.state = .halfOpen
  waits : Probing (s.inst id).breaker
  reads : ∀ r ∈ (s.inst id).reads, r.state = .halfOpen
  pending : ∀ id', ∀ w ∈ (s.inst id').pending, ¬IsPersist w

theorem syncFromDb_of_halfOpen {b : Breaker} {r : Row} (hb : b.state = .halfOpen)
    (hr : r.state = .halfOpen) : syncFromDb b id r = b := by
  rw [syncFromDb, hb, hr]
  rfl

theorem Stuck.set (h : Stuck s id) {id' : String} {x : Instance}
    (hx : id' = id → Probing x.breaker ∧ ∀ r ∈ x.reads, r.state = .halfOpen)
    (hpending : ∀ w ∈ x.pending, ¬IsPersist w) : Stuck (s.set id' x) id := by
  by_cases hid : id = id'
  · subst hid
    obtain ⟨hwaits, hreads⟩ := hx rfl
    refine ⟨h.row, ?_, ?_, fun j ↦ ?_⟩
    · rwa [set_inst_self]
    · rwa [set_inst_self]
    · by_cases hj : j = id
      · subst hj
        rwa [set_inst_self]
      · rw [set_inst_of_ne s x hj]
        exact h.pending j
  · refine ⟨h.row, ?_, ?_, fun j ↦ ?_⟩
    · rw [set_inst_of_ne s x hid]
      exact h.waits
    · rw [set_inst_of_ne s x hid]
      exact h.reads
    · by_cases hj : j = id'
      · subst hj
        rwa [set_inst_self]
      · rw [set_inst_of_ne s x hj]
        exact h.pending j

/-- Waiting, polling and the statements in flight do not help. -/
theorem Stuck.step (h : Stuck s id) {e : Event} (he : e.recovers = true) :
    Stuck (step cfg s e) id := by
  cases e with
  | tick elapsed => exact ⟨h.row, h.waits, h.reads, h.pending⟩
  | poll id' =>
    rw [BreakerCluster.step]
    split_ifs
    · refine h.set (fun hid ↦ ?_) (h.pending id')
      subst hid
      refine ⟨h.waits, fun r hr ↦ ?_⟩
      rcases List.mem_append.mp hr with hr | hr
      · exact h.reads r hr
      · exact h.row r (Option.mem_toList.mp hr)
    · exact h
  | sync id' n =>
    rw [BreakerCluster.step]
    have hpending : ((s.inst id').sync id' n).pending = (s.inst id').pending := by
      rw [Instance.sync]
      split <;> rfl
    refine h.set (fun hid ↦ ?_) (hpending ▸ h.pending id')
    subst hid
    rw [Instance.sync]
    split
    · exact ⟨h.waits, h.reads⟩
    · next r hr =>
      dsimp only
      rw [syncFromDb_of_halfOpen h.waits.state (h.reads r (List.mem_of_getElem? hr))]
      exact ⟨h.waits, fun r' hr' ↦ h.reads r' (List.mem_of_mem_eraseIdx hr')⟩
  | statement id' n ok =>
    cases ok with
    | false => cases he
    | true =>
      rw [BreakerCluster.step]
      cases hn : (s.inst id').pending[n]? with
      | none => exact h
      | some w =>
        have hnot := h.pending id' w (List.mem_of_getElem? hn)
        have hset : Stuck (s.set id'
            { s.inst id' with pending := (s.inst id').pending.eraseIdx n }) id := by
          refine h.set (fun hid ↦ ?_) fun w hw ↦ h.pending id' w (List.mem_of_mem_eraseIdx hw)
          subst hid
          exact ⟨h.waits, h.reads⟩
        refine ⟨fun r hr ↦ ?_, hset.waits, hset.reads, hset.pending⟩
        cases w with
        | persist => exact absurd (fun _ hne ↦ nomatch hne) hnot
        | probeHolder holder =>
          obtain ⟨r₀, hr₀, rfl⟩ := Option.map_eq_some_iff.mp hr
          split_ifs
          · rfl
          · exact h.row r₀ hr₀
  | boot | execute | settle | crash => cases he

/-- **An instance that is stuck** cannot come to admit an operation. -/
theorem Stuck.not_canRecover (h : Stuck s id) : ¬CanRecover cfg s id := by
  rintro ⟨es, hes, -, hadmits⟩
  have hstuck : Stuck (run (BreakerCluster.step cfg) s es) id := by
    induction es generalizing s with
    | nil => exact h
    | cons e es ih =>
      refine ih (h.step (hes e List.mem_cons_self)) (fun e' he' ↦ ?_) hadmits
      exact hes e' (List.mem_cons_of_mem e he')
  obtain ⟨e, he⟩ := hstuck.waits.execute cfg (run (BreakerCluster.step cfg) s es).now
  exact hadmits e (congrArg Prod.snd he)

end Recovery

/-! ## Fixed runs -/

def Event.instance? : Event → Option String
  | .tick _ => none
  | .boot id | .execute id | .settle id _ _ | .statement id _ _ | .poll id | .sync id _
  | .crash id => some id

theorem step_inst_of_ne (cfg : Config) (s : Cluster) {e : Event} {id : String}
    (h : e.instance? ≠ some id) : (step cfg s e).inst id = s.inst id := by
  have hset : ∀ {id'} (x : Instance), Event.instance? e = some id' →
      (s.set id' x).inst id = s.inst id := by
    intro id' x he
    refine set_inst_of_ne s x fun hid ↦ h ?_
    rw [he, hid]
  cases e with
  | tick elapsed => rfl
  | settle | sync | crash => exact hset _ rfl
  | boot =>
    rw [step]
    split_ifs
    · rfl
    · exact hset _ rfl
  | execute | poll =>
    rw [step]
    split_ifs
    · exact hset _ rfl
    · rfl
  | statement id' n ok =>
    rw [step]
    split
    · rfl
    · exact hset _ rfl

theorem run_inst_of_ne (cfg : Config) {es : List Event} {id : String}
    (h : ∀ e ∈ es, Event.instance? e ≠ some id) (s : Cluster) :
    (run (step cfg) s es).inst id = s.inst id := by
  induction es generalizing s with
  | nil => rfl
  | cons e es ih =>
    have hrest := ih (fun e' he' ↦ h e' (List.mem_cons_of_mem e he')) (step cfg s e)
    exact hrest.trans (step_inst_of_ne cfg s (h e List.mem_cons_self))

/-- A breaker that has just opened, and nobody running. -/
def openedRow : Cluster := ⟨1000, some ⟨.opened, 5, some 1000, some 1000, none⟩, fun _ ↦ .dead⟩

/-- Two instances start, and after the cooldown one of them begins a probe and is named in the
row. -/
def probeBegun : List Event :=
  [.boot "a", .boot "b", .tick 30000, .execute "a", .statement "a" 0 true]

/-- The other one polls, and the holder crashes. -/
theorem stuck_by_crash :
    ¬Always (step defaultConfig) (Unblocked defaultConfig) openedRow
      (probeBegun ++ [.poll "b", .sync "b" 0, .crash "a"]) := by
  intro h
  have hother : ∀ id, id ≠ "a" → id ≠ "b" → (run (step defaultConfig) openedRow
      (probeBegun ++ [.poll "b", .sync "b" 0, .crash "a"])).inst id = .dead := by
    intro id ha hb
    refine run_inst_of_ne defaultConfig (fun e he hid ↦ ?_) openedRow
    simp only [probeBegun, List.mem_append, List.mem_cons, List.not_mem_nil, or_false] at he
    rcases he with (rfl | rfl | rfl | rfl | rfl) | rfl | rfl | rfl <;>
      first | exact ha (Option.some.inj hid).symm | exact hb (Option.some.inj hid).symm | cases hid
  have hnone : ∀ id, Operation.probe ∉ ((run (step defaultConfig) openedRow
      (probeBegun ++ [.poll "b", .sync "b" 0, .crash "a"])).inst id).operations := by
    intro id
    by_cases ha : id = "a"
    · subst ha
      decide
    · by_cases hb : id = "b"
      · subst hb
        decide
      · rw [hother id ha hb]
        exact List.not_mem_nil
  have hstuck : Stuck (run (step defaultConfig) openedRow
      (probeBegun ++ [.poll "b", .sync "b" 0, .crash "a"])) "b" := by
    refine ⟨fun r hr ↦ ?_, ⟨by decide, by decide⟩, by decide, fun id ↦ ?_⟩
    · cases hr
      decide
    · by_cases ha : id = "a"
      · subst ha
        exact fun w hw ↦ absurd hw List.not_mem_nil
      · by_cases hb : id = "b"
        · subst hb
          exact fun w hw ↦ absurd hw List.not_mem_nil
        · rw [hother id ha hb]
          exact fun w hw ↦ absurd hw List.not_mem_nil
  exact hstuck.not_canRecover (h.last hnone "b" (by decide))

/-- The probe ends well instead, and its outcome is stored. -/
theorem nobody_stuck_at :
    (∀ r, openedRow.row = some r → r.state ≠ .halfOpen ∧ r.Dated) ∧
      Always (step defaultConfig) (Unblocked defaultConfig) openedRow
        (probeBegun ++ [.poll "b", .settle "a" 0 true, .statement "a" 0 true, .sync "b" 0]) := by
  have hrow : ∀ r, openedRow.row = some r → r.state ≠ .halfOpen ∧ r.Dated := by
    intro r hr
    cases hr
    exact ⟨by decide, fun _ ↦ rfl⟩
  refine ⟨hrow, nobody_stuck defaultConfig _ _ _ hrow
    ⟨trivial, trivial, trivial, trivial, ?_, trivial, trivial, ?_, trivial, trivial⟩⟩
  · exact fun _ _ _ ↦ .inl (by decide)
  · intro w hw hheld
    cases hw
    obtain ⟨r, hr, hstate, -⟩ := hheld
    cases hr
    cases hstate

end StellarDonations.BreakerCluster
