import StellarDonations.Transactions.OncePerKey

/-!
# Payment streams

`PaymentStreamService`: the network streams the payments of a wallet from a cursor on, and for each
of them the service moves the cursor, issues an `UPDATE` of the stored cursor and creates a record
with the payment's id as its key. The stored cursor is where the streams are resumed after a restart
of the process.

The `UPDATE` and the `INSERT` of the record are both statements that nobody waits for. While the
process runs this does no harm: the record is in memory before the `UPDATE` is issued, and its key
keeps redelivered payments from getting a second one. A restart leaves what the two statements have
left. What a cursor stands for is `Covered`: every payment delivered before it is recorded. All
cursors in circulation are covered in every run in which no restart comes between the two
statements.
-/

namespace StellarDonations.Streams

open Concurrency JsString Transactions

/-! ## Payments and the network -/

/-- What the network says about a payment. -/
structure Payment where
  id : Option String := none
  transactionId : Option String := none
  pagingToken : Option String := none
  amount : Amount
  memo : Option String := none

namespace Payment

/-- `payment.id || payment.transactionId`. -/
def key (p : Payment) : Option String := (orNull p.id).or p.transactionId

/-- `payment.paging_token || payment.id || payment.transactionId`, when it is truthy. -/
def cursor (p : Payment) : Option String := (orNull p.pagingToken).or (orNull p.key)

/-- What `_handlePayment` gives to `Transaction.create`. -/
def transactionData (p : Payment) : NewTransaction :=
  { amount := p.amount
    donor := none
    recipient := none
    memo := orElse p.memo ""
    idempotencyKey := p.key
    stellarTxId := p.key
    status := some "completed" }

end Payment

/-- The payments of each wallet in the order of the network, and how many of them are at or before
a cursor. -/
structure Ledger where
  payment : String → ℕ → Payment
  upTo : String → String → ℕ
  identified : ∀ w n, ∃ k, orNull (payment w n).key = some k
  upTo_cursor : ∀ w n c, (payment w n).cursor = some c → upTo w c = n + 1

/-! ## The service -/

structure LiveOptions where
  webhookUrl : Option String := none
  cursor : Option String := none

/-- A stream that was opened: the subscription's `liveOptions`, and the next payment that the
network delivers on it. -/
structure Handler where
  publicKey : String
  options : LiveOptions
  next : ℕ
  stopped : Bool := false

/-- An entry of `activeStreams`. `stop` and `options` belong to the handler of this number. -/
structure Entry where
  stop : Option ℕ
  reconnectTimer : Option ℕ := none
  reconnectAttempt : ℕ := 0
  options : ℕ

/-- A timer of `_reconnect`, with what its callback holds. -/
structure Timer where
  id : ℕ
  publicKey : String
  options : ℕ

/-- The statements of the three helpers for the table. -/
inductive Statement where
  /-- `_persistStream`. -/
  | persist (publicKey : String) (webhookUrl cursor : Option String)
  /-- `_removePersistedStream`. -/
  | remove (publicKey : String)
  | updateCursor (publicKey cursor : String)

/-- A row of `payment_streams`, but for its `public_key`. -/
structure StreamRow where
  webhookUrl : Option String := none
  cursor : Option String := none

/-- The service, the store, the table `payment_streams`, and what the network has done. -/
structure State where
  memory : Memory
  /-- The streams opened by this process. -/
  handlers : List Handler := []
  activeStreams : AList (fun _ : String ↦ Entry) := ∅
  timers : List Timer := []
  /-- The number of timers started. -/
  started : ℕ := 0
  /-- The statements under way. -/
  statements : List Statement := []
  rows : AList fun _ : String ↦ StreamRow
  /-- What `loadPersistedStreams` has read. -/
  persisted : Option (List (Sigma fun _ : String ↦ StreamRow)) := none
  /-- The number of payments of each wallet so far. -/
  happened : String → ℕ
  /-- The payments delivered to a subscription. -/
  delivered : List (String × ℕ) := []

def maxReconnectAttempts : ℕ := 10

namespace State

def optionsAt (s : State) (i : ℕ) : LiveOptions := (s.handlers[i]?.map (·.options)).getD {}

def unsubscribe (s : State) (publicKey : String) : State :=
  match s.activeStreams.lookup publicKey with
  | none => s
  | some entry =>
    { s with
      timers := s.timers.filter fun t ↦ some t.id ≠ entry.reconnectTimer
      handlers := match entry.stop with
        | some i => s.handlers.modify i fun h ↦ { h with stopped := true }
        | none => s.handlers
      activeStreams := s.activeStreams.erase publicKey
      statements := s.statements ++ [.remove publicKey] }

/-- Where a stream begins that is opened with a cursor: after the payments up to it, or `'now'`. -/
def startOf (ledger : Ledger) (s : State) (publicKey : String) (cursor : Option String) : ℕ :=
  match orNull cursor with
  | some c => ledger.upTo publicKey c
  | none => s.happened publicKey

def subscribe (ledger : Ledger) (s : State) (publicKey : String) (options : LiveOptions) : State :=
  let s := s.unsubscribe publicKey
  let i := s.handlers.length
  { s with
    handlers := s.handlers ++
      [{ publicKey, options, next := s.startOf ledger publicKey options.cursor }]
    activeStreams := s.activeStreams.insert publicKey { stop := some i, options := i }
    statements := s.statements ++
      [.persist publicKey (orNull options.webhookUrl) (orNull options.cursor)] }

def reconnect (s : State) (publicKey : String) (options attempt : ℕ) : State :=
  let entry := s.activeStreams.lookup publicKey
  let timers := s.timers.filter fun t ↦ some t.id ≠ entry.bind (·.reconnectTimer)
  if maxReconnectAttempts ≤ attempt then
    { s with
      timers
      activeStreams := s.activeStreams.erase publicKey }
  else
    { s with
      timers := timers ++ [⟨s.started, publicKey, options⟩]
      started := s.started + 1
      activeStreams := s.activeStreams.insert publicKey
        { stop := entry.bind (·.stop)
          reconnectTimer := some s.started
          reconnectAttempt := attempt
          options := (entry.map (·.options)).getD options } }

def onError (s : State) (i : ℕ) (h : Handler) : State :=
  let attempt := ((s.activeStreams.lookup h.publicKey).map (·.reconnectAttempt)).getD 0
  s.reconnect h.publicKey i (attempt + 1)

def onTimeout (ledger : Ledger) (s : State) (t : Timer) : State :=
  let options := ((s.activeStreams.lookup t.publicKey).map (·.options)).getD t.options
  s.subscribe ledger t.publicKey (s.optionsAt options)

/-- `_handlePayment`, up to the webhook: an error of `create` is only logged. -/
def handlePayment (s : State) (i : ℕ) (publicKey : String) (p : Payment) (uuid : String)
    (now : ℕ) : State :=
  let s : State := match p.cursor with
    | some c =>
      { s with
        handlers := s.handlers.modify i fun h ↦
          { h with options := { h.options with cursor := some c } }
        statements := s.statements ++ [.updateCursor publicKey c] }
    | none => s
  { s with memory := s.memory.step (.call now (.create p.transactionData uuid)) }

/-- The network delivers payment `n` of the wallet on a stream: the next one, or one that it has
delivered before. -/
def deliver (ledger : Ledger) (s : State) (i n : ℕ) (h : Handler) (uuid : String) (now : ℕ) :
    State :=
  let s : State := { s with
    handlers := s.handlers.modify i fun h ↦ { h with next := max h.next (n + 1) }
    delivered := s.delivered ++ [(h.publicKey, n)] }
  s.handlePayment i h.publicKey (ledger.payment h.publicKey n) uuid now

def applyStatement (rows : AList fun _ : String ↦ StreamRow) :
    Statement → AList fun _ : String ↦ StreamRow
  | .persist publicKey webhookUrl cursor => rows.insert publicKey
      { webhookUrl
        cursor := cursor.or ((rows.lookup publicKey).bind (·.cursor)) }
  | .remove publicKey => rows.erase publicKey
  | .updateCursor publicKey cursor =>
    match rows.lookup publicKey with
    | some row => rows.insert publicKey { row with cursor := some cursor }
    | none => rows

/-- The loop of `loadPersistedStreams`. -/
def resumeStreams (ledger : Ledger) (s : State) (rows : List (Sigma fun _ : String ↦ StreamRow)) :
    State :=
  rows.foldl (fun s row ↦ s.subscribe ledger row.1
    { webhookUrl := orNull row.2.webhookUrl
      cursor := orNull row.2.cursor }) s

/-- The process starts again: what is left is in the tables. -/
def restart (s : State) : State :=
  { memory := Memory.starting s.memory.rows
    rows := s.rows
    happened := s.happened
    delivered := s.delivered }

/-- The start of the run, with what an earlier process has left. -/
def initial (donations : List ObjectRow) (streams : AList fun _ : String ↦ StreamRow)
    (happened : String → ℕ) : State :=
  { memory := Memory.starting donations
    rows := streams
    happened }

end State

/-! ## Runs -/

inductive Action where
  /-- A payment of the wallet happens. -/
  | happen (publicKey : String)
  | subscribe (publicKey : String) (options : LiveOptions)
  | unsubscribe (publicKey : String)
  | deliver (i n : ℕ) (uuid : String) (now : ℕ)
  | streamError (i : ℕ)
  /-- A timer goes off. -/
  | timeout (n : ℕ)
  /-- The database executes a statement of the service; it may fail. -/
  | execute (n : ℕ) (failure : Bool)
  /-- Something happens to the store that is not about streams. -/
  | store (a : Transactions.Action)
  /-- The `SELECT` of `loadPersistedStreams`. -/
  | readStreams
  | resumeStreams
  | restart

def State.step (ledger : Ledger) (s : State) : Action → State
  | .happen w => { s with happened := Function.update s.happened w (s.happened w + 1) }
  | .subscribe w options => s.subscribe ledger w options
  | .unsubscribe w => s.unsubscribe w
  | .deliver i n uuid now =>
    match s.handlers[i]? with
    | some h =>
      if !h.stopped && n ≤ h.next && n < s.happened h.publicKey then
        s.deliver ledger i n h uuid now
      else s
    | none => s
  | .streamError i =>
    match s.handlers[i]? with
    | some h => if h.stopped then s else s.onError i h
    | none => s
  | .timeout n =>
    match s.timers[n]? with
    | some t => State.onTimeout ledger { s with timers := s.timers.eraseIdx n } t
    | none => s
  | .execute n failure =>
    match s.statements[n]? with
    | some st =>
      { s with
        statements := s.statements.eraseIdx n
        rows := if failure then s.rows else State.applyStatement s.rows st }
    | none => s
  | .store a => { s with memory := s.memory.step a }
  | .readStreams => { s with persisted := some s.rows.entries }
  | .resumeStreams =>
    match s.persisted with
    | some rows => State.resumeStreams ledger { s with persisted := none } rows
    | none => s
  | .restart => s.restart

/-! ## The checkpoint -/

def RecordedAs (m : Memory) (p : Payment) (id : String) : Prop :=
  ∃ k, orNull p.key = some k ∧ m.Holds k id

/-- The table `donations_store` has a record of the payment. -/
def InTable (m : Memory) (p : Payment) : Prop :=
  ∃ k id, orNull p.key = some k ∧ m.InTable k id

/-- Every payment that was delivered, and is at or before the persisted cursor of its wallet, has
exactly one record. -/
def Checkpointed (ledger : Ledger) (s : State) : Prop :=
  ∀ d ∈ s.delivered, ∀ row ∈ s.rows.lookup d.1, ∀ c, row.cursor = some c →
    d.2 < ledger.upTo d.1 c → ∃! id, RecordedAs s.memory (ledger.payment d.1 d.2) id

/-- The payments delivered among the first `n` of a wallet are recorded. -/
def Covered (ledger : Ledger) (s : State) (w : String) (n : ℕ) : Prop :=
  ∀ d ∈ s.delivered, d.1 = w → d.2 < n → ∃ id, RecordedAs s.memory (ledger.payment d.1 d.2) id

/-- The condition on a step. The process stops, and the store is reloaded, only when the records
that matter have reached the table; a stream is opened from a cursor of the caller, or from now on,
only when what was delivered before is recorded; and the store is not disturbed by ids that are in
use, by failed loads, or by payments that are redelivered while it is still loading them. -/
def Action.Guarded (ledger : Ledger) (s : State) : Action → Prop
  | subscribe w options => Covered ledger s w (s.startOf ledger w options.cursor)
  | deliver i n uuid _ => ∀ h ∈ s.handlers[i]?, (Operation.create
      (ledger.payment h.publicKey n).transactionData uuid).CreatesFresh s.memory
  | timeout n => ∀ t ∈ s.timers[n]?,
      orNull (s.optionsAt (((s.activeStreams.lookup t.publicKey).map (·.options)).getD
        t.options)).cursor = none → Covered ledger s t.publicKey (s.happened t.publicKey)
  | store a => a.KeepsFresh s.memory ∧
      (a = .beginReload → ∀ d ∈ s.delivered, InTable s.memory (ledger.payment d.1 d.2))
  | resumeStreams => ∀ rows ∈ s.persisted, ∀ row ∈ rows, orNull row.2.cursor = none →
      Covered ledger s row.1 (s.happened row.1)
  | restart => ∀ d ∈ s.delivered, ∀ row ∈ s.rows.lookup d.1, ∀ c, row.cursor = some c →
      d.2 < ledger.upTo d.1 c → InTable s.memory (ledger.payment d.1 d.2)
  | happen _ | unsubscribe _ | streamError _ | execute .. | readStreams => True

/-! ## Cursors in circulation -/

def Statement.cursor : Statement → Option (String × String)
  | persist w _ cursor => cursor.map fun c ↦ (w, c)
  | updateCursor w c => some (w, c)
  | remove _ => none

/-- The places from which a cursor may become the persisted one, or the start of a stream. -/
inductive Circulates (s : State) (w c : String) : Prop where
  | stored {row : StreamRow} (hrow : s.rows.lookup w = some row) (hc : row.cursor = some c)
  | issued {st : Statement} (hst : st ∈ s.statements) (hc : st.cursor = some (w, c))
  | read {rows : List (Sigma fun _ : String ↦ StreamRow)} {row : StreamRow}
      (hrows : s.persisted = some rows) (hrow : ⟨w, row⟩ ∈ rows) (hc : row.cursor = some c)
  | live {h : Handler} (hh : h ∈ s.handlers) (hw : h.publicKey = w)
      (hc : orNull h.options.cursor = some c)

/-- The number leads to the options of a stream of the wallet. -/
def State.Refers (s : State) (i : ℕ) (w : String) : Prop :=
  ∃ h, s.handlers[i]? = some h ∧ h.publicKey = w

structure Sound (ledger : Ledger) (s : State) : Prop where
  onePerKey : s.memory.OnePerKey
  cursors : ∀ {w c}, Circulates s w c → Covered ledger s w (ledger.upTo w c)
  streams : ∀ h ∈ s.handlers, Covered ledger s h.publicKey h.next
  active : ∀ {w entry}, s.activeStreams.lookup w = some entry → s.Refers entry.options w
  timers : ∀ t ∈ s.timers, s.Refers t.options t.publicKey

section Checkpoint

variable {ledger : Ledger} {s s' : State} {w : String} {n : ℕ}

theorem Covered.mono (h : Covered ledger s w n) (hdelivered : s'.delivered = s.delivered)
    (hholds : ∀ k id, s.memory.Holds k id → s'.memory.Holds k id) : Covered ledger s' w n := by
  intro d hd hw hn
  obtain ⟨id, k, hk, hid⟩ := h d (hdelivered ▸ hd) hw hn
  exact ⟨id, k, hk, hholds k id hid⟩

theorem Circulates.of_eq {c : String} (h : Circulates s' w c) (hrows : s'.rows = s.rows)
    (hstatements : s'.statements = s.statements) (hpersisted : s'.persisted = s.persisted)
    (hhandlers : s'.handlers = s.handlers) : Circulates s w c := by
  cases h with
  | stored hrow hc => exact .stored (hrows ▸ hrow) hc
  | issued hst hc => exact .issued (hstatements ▸ hst) hc
  | read hread hrow hc => exact .read (hpersisted ▸ hread) hrow hc
  | live hh hw hc => exact .live (hhandlers ▸ hh) hw hc

/-- **A payment that is covered has exactly one record.** -/
theorem Sound.checkpointed (h : Sound ledger s) : Checkpointed ledger s := by
  intro d hd row hrow c hc hlt
  obtain ⟨id, k, hk, hid⟩ := h.cursors (.stored hrow hc) d hd rfl hlt
  refine ⟨id, ⟨k, hk, hid⟩, ?_⟩
  rintro id' ⟨k', hk', hid'⟩
  cases hk.symm.trans hk'
  exact h.onePerKey.holds_unique hid' hid

/-- A step of the service that leaves the store alone: cursors and streams are old ones, or covered,
and every number leads to the options it led to. -/
theorem Sound.frame (h : Sound ledger s) (hmemory : s'.memory = s.memory)
    (hdelivered : s'.delivered = s.delivered)
    (hcursors : ∀ {w c}, Circulates s' w c →
      Circulates s w c ∨ Covered ledger s w (ledger.upTo w c))
    (hstreams : ∀ h ∈ s'.handlers, (∃ h' ∈ s.handlers, h'.publicKey = h.publicKey ∧
      h'.next = h.next) ∨ Covered ledger s h.publicKey h.next)
    (hactive : ∀ {w entry}, s'.activeStreams.lookup w = some entry → s'.Refers entry.options w)
    (htimers : ∀ t ∈ s'.timers, s'.Refers t.options t.publicKey) : Sound ledger s' where
  onePerKey := hmemory ▸ h.onePerKey
  cursors := by
    intro w c hc
    refine Covered.mono ?_ hdelivered fun k id hid ↦ hmemory ▸ hid
    exact (hcursors hc).elim h.cursors fun hcovered ↦ hcovered
  streams := by
    intro h' hh'
    refine Covered.mono ?_ hdelivered fun k id hid ↦ hmemory ▸ hid
    rcases hstreams h' hh' with ⟨old, hold, hw, hn⟩ | hcovered
    · rw [← hw, ← hn]
      exact h.streams old hold
    · exact hcovered
  active := hactive
  timers := htimers

theorem State.Refers.modify {i : ℕ} (h : s.Refers i w) {j : ℕ} {f : Handler → Handler}
    (hf : ∀ h, (f h).publicKey = h.publicKey) (hs' : s'.handlers = s.handlers.modify j f) :
    s'.Refers i w := by
  obtain ⟨handler, hi, hw⟩ := h
  rw [Refers, hs', List.getElem?_modify, hi]
  refine ⟨_, rfl, ?_⟩
  split_ifs
  · exact (hf handler).trans hw
  · exact hw

/-! ### Opening and closing streams -/

theorem mem_modify {f : Handler → Handler} {hs : List Handler} {i : ℕ} {h : Handler}
    (hh : h ∈ hs.modify i f) : h ∈ hs ∨ ∃ h', hs[i]? = some h' ∧ h = f h' := by
  obtain ⟨j, hj⟩ := List.mem_iff_getElem?.mp hh
  rw [List.getElem?_modify] at hj
  obtain ⟨h', hh', heq⟩ := Option.map_eq_some_iff.mp hj
  split_ifs at heq with hij
  · subst hij
    exact .inr ⟨h', hh', heq.symm⟩
  · subst heq
    exact .inl (List.mem_of_getElem? hh')

theorem State.unsubscribe_handlers (s : State) (w : String) :
    ∃ i f, (∀ h, (f h).publicKey = h.publicKey ∧ (f h).options = h.options ∧
      (f h).next = h.next) ∧ (s.unsubscribe w).handlers = s.handlers.modify i f := by
  have hid : s.handlers = s.handlers.modify 0 fun h ↦ h := (List.modify_id 0 s.handlers).symm
  rw [unsubscribe]
  cases s.activeStreams.lookup w with
  | none => exact ⟨0, fun h ↦ h, fun h ↦ ⟨rfl, rfl, rfl⟩, hid⟩
  | some entry =>
    cases hstop : entry.stop with
    | none =>
      refine ⟨0, fun h ↦ h, fun h ↦ ⟨rfl, rfl, rfl⟩, ?_⟩
      dsimp only
      rw [hstop]
      exact hid
    | some i =>
      refine ⟨i, fun h ↦ { h with stopped := true }, fun h ↦ ⟨rfl, rfl, rfl⟩, ?_⟩
      dsimp only
      rw [hstop]

theorem State.unsubscribe_frame (s : State) (w : String) :
    (s.unsubscribe w).memory = s.memory ∧ (s.unsubscribe w).delivered = s.delivered ∧
      (s.unsubscribe w).rows = s.rows ∧ (s.unsubscribe w).persisted = s.persisted ∧
      (s.unsubscribe w).happened = s.happened := by
  rw [unsubscribe]
  split <;> exact ⟨rfl, rfl, rfl, rfl, rfl⟩

theorem State.mem_statements_unsubscribe {st : Statement}
    (hst : st ∈ (s.unsubscribe w).statements) : st ∈ s.statements ∨ st = .remove w := by
  rw [unsubscribe] at hst
  split at hst
  · exact .inl hst
  · exact (List.mem_append.mp hst).imp_right List.mem_singleton.mp

theorem State.mem_timers_unsubscribe {t : Timer} (ht : t ∈ (s.unsubscribe w).timers) :
    t ∈ s.timers := by
  rw [unsubscribe] at ht
  split at ht
  · exact ht
  · exact List.mem_of_mem_filter ht

theorem State.lookup_unsubscribe {w' : String} {entry : Entry}
    (h : (s.unsubscribe w).activeStreams.lookup w' = some entry) :
    s.activeStreams.lookup w' = some entry := by
  rw [unsubscribe] at h
  split at h
  · exact h
  · exact (Memory.lookup_erase_eq_some h).2

theorem Sound.unsubscribe (h : Sound ledger s) (w : String) : Sound ledger (s.unsubscribe w) := by
  obtain ⟨i, f, hf, hhandlers⟩ := s.unsubscribe_handlers w
  obtain ⟨hmemory, hdelivered, hrows, hpersisted, -⟩ := s.unsubscribe_frame w
  have hrefers : ∀ {j w'}, s.Refers j w' → (s.unsubscribe w).Refers j w' :=
    fun hrefers ↦ hrefers.modify (fun h ↦ (hf h).1) hhandlers
  have hold : ∀ handler ∈ (s.unsubscribe w).handlers, ∃ old ∈ s.handlers,
      old.publicKey = handler.publicKey ∧ old.options = handler.options ∧
        old.next = handler.next := by
    intro handler hh
    rw [hhandlers] at hh
    rcases mem_modify hh with hold | ⟨old, hold, rfl⟩
    · exact ⟨handler, hold, rfl, rfl, rfl⟩
    · obtain ⟨hw, hoptions, hnext⟩ := hf old
      exact ⟨old, List.mem_of_getElem? hold, hw.symm, hoptions.symm, hnext.symm⟩
  refine h.frame hmemory hdelivered (fun {w' c} hc ↦ .inl ?_) (fun handler hh ↦ .inl ?_)
    (fun he ↦ hrefers (h.active (State.lookup_unsubscribe he)))
    fun t ht ↦ hrefers (h.timers t (State.mem_timers_unsubscribe ht))
  · cases hc with
    | stored hrow hc => exact .stored (hrows ▸ hrow) hc
    | issued hst hc =>
      rcases State.mem_statements_unsubscribe hst with hst | rfl
      · exact .issued hst hc
      · cases hc
    | read hread hrow hc => exact .read (hpersisted ▸ hread) hrow hc
    | live hh hw hc =>
      obtain ⟨old, hmem, hw', hoptions, -⟩ := hold _ hh
      exact .live hmem (hw'.trans hw) (hoptions ▸ hc)
  · obtain ⟨old, hmem, hw, -, hnext⟩ := hold handler hh
    exact ⟨old, hmem, hw, hnext⟩

theorem State.refers_insert {active : AList fun _ : String ↦ Entry} {w w' : String}
    {new entry : Entry} (hnew : s.Refers new.options w)
    (hold : ∀ {w entry}, active.lookup w = some entry → s.Refers entry.options w)
    (hentry : (active.insert w new).lookup w' = some entry) : s.Refers entry.options w' := by
  by_cases hw : w' = w
  · subst hw
    rw [AList.lookup_insert] at hentry
    cases hentry
    exact hnew
  · rw [AList.lookup_insert_ne hw] at hentry
    exact hold hentry

/-- **A stream is opened where everything before is recorded.** -/
theorem Sound.subscribe (h : Sound ledger s) {options : LiveOptions}
    (hcovered : Covered ledger s w (s.startOf ledger w options.cursor)) :
    Sound ledger (s.subscribe ledger w options) := by
  obtain ⟨hmemory, hdelivered, -, -, hhappened⟩ := s.unsubscribe_frame w
  replace hcovered : Covered ledger (s.unsubscribe w) w
      ((s.unsubscribe w).startOf ledger w options.cursor) := by
    rw [State.startOf, hhappened]
    exact hcovered.mono hdelivered fun k id hid ↦ hmemory ▸ hid
  have hcursor : ∀ c, orNull options.cursor = some c →
      Covered ledger (s.unsubscribe w) w (ledger.upTo w c) := by
    intro c hc
    rw [State.startOf, hc] at hcovered
    exact hcovered
  have hs := h.unsubscribe w
  rw [State.subscribe]
  generalize s.unsubscribe w = s at hs hcovered hcursor
  have hlast : ∀ {handler} {l : List Handler},
      (l ++ [handler])[l.length]? = some handler := by simp
  have hrefers : ∀ {j w'} {s' : State} {new : Handler}, s'.handlers = s.handlers ++ [new] →
      s.Refers j w' → s'.Refers j w' := by
    rintro j w' s' new hs' ⟨handler, hj, hw⟩
    refine ⟨handler, ?_, hw⟩
    rw [hs', List.getElem?_append_left (List.getElem?_eq_some_iff.mp hj).1, hj]
  refine hs.frame rfl rfl (fun {w' c} hc ↦ ?_) (fun handler hh ↦ ?_) (fun he ↦ ?_)
    fun t ht ↦ hrefers rfl (hs.timers t ht)
  · cases hc with
    | stored hrow hc => exact .inl (.stored hrow hc)
    | issued hst hc =>
      rcases List.mem_append.mp hst with hst | hst
      · exact .inl (.issued hst hc)
      · rw [List.mem_singleton.mp hst] at hc
        obtain ⟨c', hc', heq⟩ := Option.map_eq_some_iff.mp hc
        cases heq
        exact .inr (hcursor c hc')
    | read hread hrow hc => exact .inl (.read hread hrow hc)
    | live hh hw hc =>
      rcases List.mem_append.mp hh with hh | hh
      · exact .inl (.live hh hw hc)
      · rw [List.mem_singleton.mp hh] at hw hc
        subst hw
        exact .inr (hcursor c hc)
  · rcases List.mem_append.mp hh with hh | hh
    · exact .inl ⟨handler, hh, rfl, rfl⟩
    · rw [List.mem_singleton.mp hh]
      exact .inr hcovered
  · refine State.refers_insert (w := w) ?_ (fun he ↦ hrefers rfl (hs.active he)) he
    exact ⟨_, hlast, rfl⟩

theorem Sound.resumeStreams {rows : List (Sigma fun _ : String ↦ StreamRow)}
    (h : Sound ledger s)
    (hrows : ∀ row ∈ rows, Covered ledger s row.1 (s.startOf ledger row.1 (orNull row.2.cursor))) :
    Sound ledger (s.resumeStreams ledger rows) := by
  induction rows generalizing s with
  | nil => exact h
  | cons row rows ih =>
    refine ih (h.subscribe (hrows row List.mem_cons_self)) fun row' hrow' ↦ ?_
    obtain ⟨hmemory, hdelivered, -, -, hhappened⟩ := s.unsubscribe_frame row.1
    have hcovered := hrows row' (List.mem_cons_of_mem _ hrow')
    rw [State.startOf] at hcovered ⊢
    rw [show (s.subscribe ledger row.1 _).happened = s.happened from hhappened]
    exact hcovered.mono hdelivered fun k id hid ↦ hmemory ▸ hid

theorem Sound.reconnect (h : Sound ledger s) {i : ℕ} (hi : s.Refers i w) (attempt : ℕ) :
    Sound ledger (s.reconnect w i attempt) := by
  rw [State.reconnect]
  split_ifs
  · refine h.frame rfl rfl (fun hc ↦ .inl (hc.of_eq rfl rfl rfl rfl))
      (fun handler hh ↦ .inl ⟨handler, hh, rfl, rfl⟩) (fun he ↦ ?_)
      fun t ht ↦ h.timers t (List.mem_of_mem_filter ht)
    exact h.active (Memory.lookup_erase_eq_some he).2
  · refine h.frame rfl rfl (fun hc ↦ .inl (hc.of_eq rfl rfl rfl rfl))
      (fun handler hh ↦ .inl ⟨handler, hh, rfl, rfl⟩) (fun he ↦ ?_) fun t ht ↦ ?_
    · refine State.refers_insert (s := s) ?_ h.active he
      cases hentry : s.activeStreams.lookup w with
      | none => exact hi
      | some entry =>
        have hrefers : s.Refers entry.options w := h.active hentry
        exact hrefers
    · rcases List.mem_append.mp ht with ht | ht
      · exact h.timers t (List.mem_of_mem_filter ht)
      · rw [List.mem_singleton.mp ht]
        exact hi

/-! ### Payments -/

theorem Payment.isValidState_status (p : Payment) :
    isValidState (normalizeState p.transactionData.status) = true := by
  have hstatus : normalizeState (some "completed") = TransactionState.confirmed.name := by
    decide
  have hvalid : isValidState (normalizeState (some "completed")) = true := by
    rw [hstatus]
    exact isValidState_name .confirmed
  exact hvalid

structure Delivered (ledger : Ledger) (s s' : State) (i n : ℕ) (w : String) (uuid : String)
    (now : ℕ) : Prop where
  memory : s'.memory =
    s.memory.step (.call now (.create (ledger.payment w n).transactionData uuid))
  delivered : s'.delivered = s.delivered ++ [(w, n)]
  rows : s'.rows = s.rows
  persisted : s'.persisted = s.persisted
  active : s'.activeStreams = s.activeStreams
  timers : s'.timers = s.timers
  statements : ∀ st ∈ s'.statements, st ∈ s.statements ∨
    ∃ c, (ledger.payment w n).cursor = some c ∧ st = .updateCursor w c
  handlers : ∃ f, s'.handlers = s.handlers.modify i f ∧ ∀ h : Handler,
    (f h).publicKey = h.publicKey ∧ (f h).next = max h.next (n + 1) ∧
      ((f h).options.cursor = h.options.cursor ∨
        ∃ c, (ledger.payment w n).cursor = some c ∧ (f h).options.cursor = some c)

theorem State.delivered_deliver (s : State) (i n : ℕ) (h : Handler) (uuid : String) (now : ℕ) :
    Delivered ledger s (s.deliver ledger i n h uuid now) i n h.publicKey uuid now := by
  rw [deliver, handlePayment]
  cases hcursor : (ledger.payment h.publicKey n).cursor with
  | none =>
    refine ⟨by dsimp only, rfl, rfl, rfl, rfl, rfl, fun st hst ↦ .inl hst, ?_⟩
    exact ⟨_, rfl, fun h' ↦ ⟨rfl, rfl, .inl rfl⟩⟩
  | some c =>
    refine ⟨by dsimp only, rfl, rfl, rfl, rfl, rfl, fun st hst ↦ ?_, ?_⟩
    · refine (List.mem_append.mp hst).imp_right fun hst ↦ ⟨c, hcursor, ?_⟩
      exact List.mem_singleton.mp hst
    · refine ⟨_, List.modify_modify_eq _ _ _ _, fun h' ↦ ?_⟩
      exact ⟨rfl, rfl, .inr ⟨c, hcursor, rfl⟩⟩

/-- **A payment is delivered.** It is recorded when the statement with its cursor is issued. -/
theorem Sound.deliver (h : Sound ledger s) {i : ℕ} {handler : Handler}
    (hi : s.handlers[i]? = some handler) (hn : n ≤ handler.next) {uuid : String} {now : ℕ}
    (hs' : Delivered ledger s s' i n handler.publicKey uuid now)
    (hfresh : (Operation.create (ledger.payment handler.publicKey n).transactionData
      uuid).CreatesFresh s.memory) : Sound ledger s' := by
  obtain ⟨f, hhandlers, hf⟩ := hs'.handlers
  set w := handler.publicKey with hw
  have hkeeps : (Transactions.Action.call now
      (.create (ledger.payment w n).transactionData uuid)).KeepsFresh s.memory := hfresh
  obtain ⟨k, hk⟩ := ledger.identified w n
  -- `create` leaves a record with the key of the payment, a new one or the one there is
  have hrecorded : ∃ id, RecordedAs s'.memory (ledger.payment w n) id := by
    obtain ⟨id, hid⟩ := h.onePerKey.holds_create uuid now
      (ledger.payment w n).isValidState_status hk
    exact ⟨id, k, hk, hs'.memory ▸ hid⟩
  have hheld : ∀ {d : String × ℕ}, (∃ id, RecordedAs s.memory (ledger.payment d.1 d.2) id) →
      ∃ id, RecordedAs s'.memory (ledger.payment d.1 d.2) id := by
    rintro d ⟨id, k, hk, hid⟩
    exact ⟨id, k, hk, hs'.memory ▸ h.onePerKey.holds_step hkeeps hid nofun⟩
  have hcovered : ∀ {w' n'}, Covered ledger s w' n' → Covered ledger s' w' n' := by
    intro w' n' hcovered d hd hw' hlt
    rw [hs'.delivered] at hd
    rcases List.mem_append.mp hd with hd | hd
    · exact hheld (hcovered d hd hw' hlt)
    · rw [List.mem_singleton.mp hd]
      exact hrecorded
  -- the stream has skipped no payment, so all up to this one are recorded
  have hnext : Covered ledger s' w (n + 1) := by
    intro d hd hdw hlt
    rcases Nat.lt_succ_iff_lt_or_eq.mp hlt with hlt | heq
    · exact (hcovered (h.streams handler (List.mem_of_getElem? hi))) d hd hdw (by omega)
    · rw [hdw, heq]
      exact hrecorded
  have hrefers : ∀ {j w'}, s.Refers j w' → s'.Refers j w' :=
    fun hrefers ↦ hrefers.modify (fun h ↦ (hf h).1) hhandlers
  have hnew : ∀ {c}, (ledger.payment w n).cursor = some c →
      Covered ledger s' w (ledger.upTo w c) := by
    intro c hc
    rw [ledger.upTo_cursor w n c hc]
    exact hnext
  refine ⟨hs'.memory ▸ Memory.onePerKey_step h.onePerKey hkeeps, fun {w' c} hc ↦ ?_,
    fun h' hh ↦ ?_, fun he ↦ hrefers (h.active (hs'.active ▸ he)),
    fun t ht ↦ hrefers (h.timers t (hs'.timers ▸ ht))⟩
  · cases hc with
    | stored hrow hc => exact hcovered (h.cursors (.stored (hs'.rows ▸ hrow) hc))
    | issued hst hc =>
      rcases hs'.statements _ hst with hst | ⟨c', hc', rfl⟩
      · exact hcovered (h.cursors (.issued hst hc))
      · cases hc
        exact hnew hc'
    | read hread hrow hc => exact hcovered (h.cursors (.read (hs'.persisted ▸ hread) hrow hc))
    | live hh hw' hc =>
      rw [hhandlers] at hh
      rcases mem_modify hh with hh | ⟨old, hold, rfl⟩
      · exact hcovered (h.cursors (.live hh hw' hc))
      · cases hi.symm.trans hold
        obtain ⟨hpk, -, hcursor | ⟨c', hc', hcursor⟩⟩ := hf handler
        · rw [hcursor] at hc
          exact hcovered (h.cursors (.live (List.mem_of_getElem? hi) (hpk.symm.trans hw') hc))
        · rw [hcursor] at hc
          rw [← hw', hpk]
          exact hnew (hc'.trans (Option.filter_eq_some_iff.mp hc).1)
  · rw [hhandlers] at hh
    rcases mem_modify hh with hh | ⟨old, hold, rfl⟩
    · exact hcovered (h.streams h' hh)
    · cases hi.symm.trans hold
      obtain ⟨hpk, hmax, -⟩ := hf handler
      rw [hpk, hmax]
      rcases max_choice handler.next (n + 1) with heq | heq
      · rw [heq]
        exact hcovered (h.streams handler (List.mem_of_getElem? hi))
      · rw [heq]
        exact hnext

/-! ### Statements, the store and restarts -/

/-- A row has its cursor from the statement that was executed, or from the row before. -/
theorem State.cursor_applyStatement {rows : AList fun _ : String ↦ StreamRow} {st : Statement}
    {row : StreamRow} {c : String} (hrow : (applyStatement rows st).lookup w = some row)
    (hc : row.cursor = some c) :
    st.cursor = some (w, c) ∨ ∃ old, rows.lookup w = some old ∧ old.cursor = some c := by
  cases st with
  | persist w' webhookUrl cursor =>
    rw [applyStatement] at hrow
    by_cases hw : w = w'
    · subst hw
      rw [AList.lookup_insert] at hrow
      cases hrow
      rcases Option.or_eq_some_iff.mp hc with hcursor | ⟨-, hcursor⟩
      · subst hcursor
        exact .inl rfl
      · obtain ⟨old, hold, hc⟩ := Option.bind_eq_some_iff.mp hcursor
        exact .inr ⟨old, hold, hc⟩
    · rw [AList.lookup_insert_ne hw] at hrow
      exact .inr ⟨row, hrow, hc⟩
  | remove w' =>
    rw [applyStatement] at hrow
    exact .inr ⟨row, (Memory.lookup_erase_eq_some hrow).2, hc⟩
  | updateCursor w' cursor =>
    rw [applyStatement] at hrow
    split at hrow
    · by_cases hw : w = w'
      · subst hw
        rw [AList.lookup_insert] at hrow
        cases hrow
        cases hc
        exact .inl rfl
      · rw [AList.lookup_insert_ne hw] at hrow
        exact .inr ⟨row, hrow, hc⟩
    · exact .inr ⟨row, hrow, hc⟩

theorem Sound.execute (h : Sound ledger s) {m : ℕ} {st : Statement}
    (hst : s.statements[m]? = some st) (failure : Bool) :
    Sound ledger { s with
      statements := s.statements.eraseIdx m
      rows := if failure then s.rows else State.applyStatement s.rows st } := by
  refine h.frame rfl rfl (fun {w c} hc ↦ .inl ?_) (fun handler hh ↦ .inl ⟨handler, hh, rfl, rfl⟩)
    h.active h.timers
  cases hc with
  | stored hrow hc =>
    replace hrow : (if failure then s.rows else State.applyStatement s.rows st).lookup w =
      some _ := hrow
    split_ifs at hrow
    · exact .stored hrow hc
    · rcases State.cursor_applyStatement hrow hc with hcursor | ⟨old, hold, hc⟩
      · exact .issued (List.mem_of_getElem? hst) hcursor
      · exact .stored hold hc
  | issued hst hc => exact .issued (List.mem_of_mem_eraseIdx hst) hc
  | read hread hrow hc => exact .read hread hrow hc
  | live hh hw hc => exact .live hh hw hc

theorem Sound.store (h : Sound ledger s) {a : Transactions.Action}
    (hkeeps : a.KeepsFresh s.memory)
    (hreload : a = .beginReload → ∀ d ∈ s.delivered, InTable s.memory (ledger.payment d.1 d.2)) :
    Sound ledger { s with memory := s.memory.step a } := by
  have hcovered : ∀ {w n}, Covered ledger s w n →
      Covered ledger { s with memory := s.memory.step a } w n := by
    intro w n hcovered d hd hw hlt
    obtain ⟨id, k, hk, hid⟩ := hcovered d hd hw hlt
    by_cases ha : a = .beginReload
    · obtain ⟨k', id', hk', hrow⟩ := hreload ha d hd
      cases hk.symm.trans hk'
      cases h.onePerKey.id_eq hid.known (.inr hrow.logged)
      exact ⟨id, k, hk, h.onePerKey.holds_step hkeeps hid fun _ ↦ hrow⟩
    · exact ⟨id, k, hk, h.onePerKey.holds_step hkeeps hid fun hreload ↦ absurd hreload ha⟩
  refine ⟨Memory.onePerKey_step h.onePerKey hkeeps, fun hc ↦ hcovered (h.cursors ?_),
    fun handler hh ↦ hcovered (h.streams handler hh), h.active, h.timers⟩
  exact hc.of_eq rfl rfl rfl rfl

/-- **The process starts again**, when the records of the payments before the persisted cursors have
reached the table. -/
theorem Sound.restart (h : Sound ledger s) (hguarded : Action.restart.Guarded ledger s) :
    Sound ledger s.restart := by
  refine ⟨h.onePerKey.restart, fun {w c} hc ↦ ?_, by rintro handler ⟨⟩, ?_, by rintro t ⟨⟩⟩
  · cases hc with
    | stored hrow hc =>
      rintro d hd rfl hlt
      obtain ⟨k, id, hk, hrow⟩ := hguarded d hd _ hrow c hc hlt
      exact ⟨id, k, hk, .inr ⟨rfl, hrow⟩⟩
    | issued hst => cases hst
    | read hread => cases hread
    | live hh => cases hh
  · intro w entry he
    cases he

/-- **One step** keeps every cursor in circulation covered. -/
theorem sound_step {a : Action} (h : Sound ledger s) (hguarded : a.Guarded ledger s) :
    Sound ledger (s.step ledger a) := by
  cases a with
  | happen w =>
    refine h.frame rfl rfl (fun hc ↦ .inl (hc.of_eq rfl rfl rfl rfl))
      (fun handler hh ↦ .inl ⟨handler, hh, rfl, rfl⟩) h.active h.timers
  | subscribe w options => exact h.subscribe hguarded
  | unsubscribe w => exact h.unsubscribe w
  | deliver i n uuid now =>
    rw [State.step]
    cases hi : s.handlers[i]? with
    | none => exact h
    | some handler =>
      dsimp only
      split_ifs with hallowed
      · rw [Bool.and_eq_true, Bool.and_eq_true, decide_eq_true_eq] at hallowed
        exact h.deliver hi hallowed.1.2 (s.delivered_deliver i n handler uuid now)
          (hguarded handler hi)
      · exact h
  | streamError i =>
    rw [State.step]
    cases hi : s.handlers[i]? with
    | none => exact h
    | some handler =>
      dsimp only
      split_ifs
      · exact h
      · exact h.reconnect ⟨handler, hi, rfl⟩ _
  | timeout n =>
    rw [State.step]
    cases hn : s.timers[n]? with
    | none => exact h
    | some t =>
      have herased : Sound ledger { s with timers := s.timers.eraseIdx n } :=
        h.frame rfl rfl (fun hc ↦ .inl (hc.of_eq rfl rfl rfl rfl))
          (fun handler hh ↦ .inl ⟨handler, hh, rfl, rfl⟩) h.active
          fun t ht ↦ h.timers t (List.mem_of_mem_eraseIdx ht)
      refine herased.subscribe ?_
      set i := ((s.activeStreams.lookup t.publicKey).map (·.options)).getD t.options with hi
      -- a reconnect goes on with the options of a stream of the same wallet
      have hrefers : s.Refers i t.publicKey := by
        cases hentry : s.activeStreams.lookup t.publicKey with
        | none =>
          rw [hi, hentry]
          exact h.timers t (List.mem_of_getElem? hn)
        | some entry =>
          rw [hi, hentry]
          exact h.active hentry
      obtain ⟨handler, hhandler, hw⟩ := hrefers
      have hoptions : s.optionsAt i = handler.options := by
        rw [State.optionsAt, hhandler]
        rfl
      show Covered ledger s t.publicKey (s.startOf ledger t.publicKey (s.optionsAt i).cursor)
      rw [State.startOf]
      cases hcursor : orNull (s.optionsAt i).cursor with
      | none => exact hguarded t hn hcursor
      | some c =>
        rw [hoptions] at hcursor
        exact h.cursors (.live (List.mem_of_getElem? hhandler) hw hcursor)
  | execute n failure =>
    rw [State.step]
    cases hst : s.statements[n]? with
    | none => exact h
    | some st => exact h.execute hst failure
  | store a => exact h.store hguarded.1 hguarded.2
  | readStreams =>
    refine h.frame rfl rfl (fun {w c} hc ↦ .inl ?_)
      (fun handler hh ↦ .inl ⟨handler, hh, rfl, rfl⟩) h.active h.timers
    cases hc with
    | stored hrow hc => exact .stored hrow hc
    | issued hst hc => exact .issued hst hc
    | read hread hrow hc =>
      cases hread
      exact .stored (AList.mem_lookup_iff.mpr hrow) hc
    | live hh hw hc => exact .live hh hw hc
  | resumeStreams =>
    rw [State.step]
    cases hrows : s.persisted with
    | none => exact h
    | some rows =>
      have hread : Sound ledger { s with persisted := none } := by
        refine h.frame rfl rfl (fun {w c} hc ↦ .inl ?_)
          (fun handler hh ↦ .inl ⟨handler, hh, rfl, rfl⟩) h.active h.timers
        cases hc with
        | stored hrow hc => exact .stored hrow hc
        | issued hst hc => exact .issued hst hc
        | read hread hrow hc => cases hread
        | live hh hw hc => exact .live hh hw hc
      refine hread.resumeStreams fun row hrow ↦ ?_
      show Covered ledger s row.1 (s.startOf ledger row.1 (orNull row.2.cursor))
      rw [State.startOf]
      cases hcursor : orNull (orNull row.2.cursor) with
      | none =>
        refine hguarded rows hrows row hrow ?_
        rwa [orNull_orNull] at hcursor
      | some c =>
        rw [orNull_orNull] at hcursor
        exact h.cursors (.read hrows hrow (Option.filter_eq_some_iff.mp hcursor).1)
  | restart => exact h.restart hguarded

/-- **The checkpoint law.** In every run that starts from tables as their constraints leave them and
in which every step is guarded, each payment that was delivered and is at or before the persisted
cursor of its wallet has exactly one record, at every point of the run. -/
theorem always_checkpointed (ledger : Ledger) (donations : { rows // TableValid rows })
    (streams : AList fun _ : String ↦ StreamRow) (happened : String → ℕ) (as : List Action)
    (hguarded : Along (State.step ledger) (fun s a ↦ a.Guarded ledger s)
      (State.initial donations streams happened) as) :
    Always (State.step ledger) (Checkpointed ledger) (State.initial donations streams happened)
      as := by
  have hinitial : Sound ledger (State.initial donations streams happened) := by
    refine ⟨Memory.onePerKey_starting donations.2, fun hc ↦ ?_, by rintro handler ⟨⟩, ?_,
      by rintro t ⟨⟩⟩
    · rintro d ⟨⟩
    · intro w entry he
      cases he
  have hsound : Always (State.step ledger) (Sound ledger) _ as :=
    hguarded.always (fun s a h hC ↦ sound_step h hC) hinitial
  exact hsound.mono fun s h ↦ h.checkpointed

end Checkpoint

/-! ## Fixed runs -/

section StreamExamples

theorem key_replicate (n : ℕ) :
    orNull (Payment.key { id := some (String.ofList (List.replicate (n + 1) 'p')), amount := 1 }) =
      some (String.ofList (List.replicate (n + 1) 'p')) := by
  have hne : String.ofList (List.replicate (n + 1) 'p') ≠ "" := by
    intro h
    have hlength := congrArg String.length h
    simp at hlength
  rw [Payment.key, orNull_eq_some.mpr ⟨rfl, hne⟩]
  exact orNull_eq_some.mpr ⟨rfl, hne⟩

def unitPayments : Ledger where
  payment _ n := { id := some (String.ofList (List.replicate (n + 1) 'p')), amount := 1 }
  upTo _ c := c.length
  identified _ n := ⟨_, key_replicate n⟩
  upTo_cursor _ n c hc := by
    rw [Payment.cursor, orNull_none, Option.none_or, key_replicate] at hc
    cases hc
    simp

/-- The store is loaded, a wallet is subscribed to, a payment is delivered, and the statements of
the service are executed. -/
def firstPayment : List Action :=
  [.store (.select false), .store .finishLoad, .subscribe "w" {}, .happen "w",
    .deliver 0 0 "tx1" 0, .execute 0 false, .execute 0 false]

/-- The process stops between the two statements: the payment is before the persisted cursor, and
has no record. -/
theorem cursor_outlives_record :
    ¬Always (State.step unitPayments) (Checkpointed unitPayments)
      (State.initial [] ∅ fun _ ↦ 0) (firstPayment ++ [.restart]) := by
  intro h
  let s := run (State.step unitPayments) (State.initial [] ∅ fun _ ↦ 0) (firstPayment ++ [.restart])
  have hchecked : Checkpointed unitPayments s := h.last
  have hmemory : s.memory = Memory.starting [] := rfl
  obtain ⟨id, ⟨k, -, hholds⟩, -⟩ := hchecked ("w", 0) (by decide) { cursor := some "p" }
    rfl "p" rfl (by decide)
  rw [hmemory] at hholds
  rcases hholds with hkey | ⟨-, row, hrow, -⟩
  · cases hkey
  · cases hrow

/-- When the record has reached the table too, the stream is resumed after it. -/
theorem always_checkpointed_restart :
    Always (State.step unitPayments) (Checkpointed unitPayments)
      (State.initial [] ∅ fun _ ↦ 0)
      (firstPayment ++ [.store (.execute 0 false), .restart, .readStreams, .resumeStreams]) := by
  refine always_checkpointed unitPayments
    ⟨[], by rintro row ⟨⟩, by rintro row ⟨⟩, by rintro row ⟨⟩, by rintro row ⟨⟩⟩ ∅ (fun _ ↦ 0) _
    ⟨⟨rfl, nofun⟩, ⟨trivial, nofun⟩, by rintro d ⟨⟩, trivial, ?_, trivial, trivial,
      ⟨trivial, nofun⟩, ?_, trivial, ?_, trivial⟩
  · rintro h ⟨⟩
    decide
  · intro d hd row hrow c hc hlt
    cases List.mem_singleton.mp hd
    exact ⟨"p", "tx1", by decide, _, List.mem_singleton_self _, by decide,
      by decide⟩
  · rintro rows ⟨⟩ row hrow hcursor
    cases List.mem_singleton.mp hrow
    cases hcursor

end StreamExamples

end StellarDonations.Streams
