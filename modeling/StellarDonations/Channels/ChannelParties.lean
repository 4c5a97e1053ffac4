import StellarDonations.Channels.PaymentChannel

/-!
# Who can move a payment channel

The operations on a channel are handed secret keys, and the row holds public keys. A signature is
verified against the secret that comes with it, and `closeChannel` looks at its secret only to see
that there is one: no operation relates a secret to the keys of the row. So whether a call takes
effect is decided by the row's status, its numbers and the clock (`TakesEffect`), and a caller who
knows neither party's secret is kept out only where a party would be.
-/

namespace StellarDonations.Channels

open Concurrency

/-! ## One call after another -/

/-- A call, with what the environment answers at each of its suspension points. -/
structure Request where
  op : Op
  env : ℕ → Env

def alone (pf : Platform) (x : Db × Call) (env : Env) : Db × Call := resume pf x.1 x.2 env

/-- Serve a call from its start to its end. No operation suspends more than four times. -/
def serve (pf : Platform) (db : Db) (q : Request) : Db :=
  (run (alone pf) (db, .start q.op) [q.env 0, q.env 1, q.env 2, q.env 3]).1

/-! ## What must hold -/

/-- The channels' balances, sequence numbers and statuses are as they were, and nothing was paid. -/
def Unmoved (db db' : Db) : Prop :=
  ∀ id, ((db'.channels id).map fun r ↦ (r.balance, r.sequence, r.status))
      = (db.channels id).map (fun r ↦ (r.balance, r.sequence, r.status)) ∧
    db'.payouts id = db.payouts id

/-- The channel a call is about, and the secrets it supplies. -/
def Op.credentials : Op → String × List String
  | .updateChannel a => (a.channelId, a.senderSecret.toList ++ a.receiverSecret.toList)
  | .closeChannel id secret => (id, secret.toList)
  | .disputeChannel a => (a.channelId, a.senderSecret.toList ++ a.receiverSecret.toList)
  | .forceCloseChannel id secret => (id, secret.toList)

/-- The caller supplies no secret of a party: none is the secret key of a public key of the
channel. -/
def Outsider (secretOf : String → String) (db : Db) (op : Op) : Prop :=
  ∀ r ∈ db.channels op.credentials.1, ∀ secret ∈ op.credentials.2,
    secret ≠ secretOf r.senderKey ∧ secret ≠ secretOf r.receiverKey

/-- Served to an outsider, a call moves no channel. -/
def OnlyPartiesMove (pf : Platform) (secretOf : String → String) (db : Db) (q : Request) : Prop :=
  Outsider secretOf db q.op → Unmoved db (serve pf db q)

/-! ## When a call takes effect -/

/-- A positive balance is paid, or the row of another one is written. -/
def Pays (r : Channel) (env : Env) : Prop :=
  if 0 < r.balance then env.answer.isOk = true else env.dbError = none

/-- The call passes its checks, and the environment lets it write or pay. -/
def TakesEffect (pf : Platform) (db : Db) (q : Request) : Prop :=
  match q.op with
  | .updateChannel a =>
    a.channelId ≠ "" ∧ 0 < a.amount ∧ (q.env 0).dbError = none ∧ (q.env 1).offChain = .ok true ∧
      (q.env 2).dbError = none ∧ ∃ r ∈ db.channels a.channelId, r.status = .open ∧
        r.balance + a.amount ≤ r.capacity ∧
        SelfSigned pf (buildStateMessage pf a.channelId (r.sequence + 1) (r.balance + a.amount))
          a.senderSig a.senderSecret ∧
        SelfSigned pf (buildStateMessage pf a.channelId (r.sequence + 1) (r.balance + a.amount))
          a.receiverSig a.receiverSecret
  | .closeChannel id secret =>
    id ≠ "" ∧ (∃ s ∈ secret, s ≠ "") ∧ (q.env 0).dbError = none ∧
      ∃ r ∈ db.channels id, (r.status = .open ∨ r.status = .disputed) ∧
        Pays r (q.env 1)
  | .disputeChannel a =>
    a.channelId ≠ "" ∧ (q.env 0).dbError = none ∧ (q.env 1).dbError = none ∧
      ∃ r ∈ db.channels a.channelId, (r.status = .open ∨ r.status = .settled) ∧
        r.sequence < a.sequence ∧ (q.env 0).now - r.updatedAt ≤ disputeWindowMs ∧
        SelfSigned pf (buildStateMessage pf a.channelId a.sequence a.balance) a.senderSig
          a.senderSecret ∧
        SelfSigned pf (buildStateMessage pf a.channelId a.sequence a.balance) a.receiverSig
          a.receiverSecret
  | .forceCloseChannel id secret =>
    id ≠ "" ∧ (∃ s ∈ secret, s ≠ "") ∧ (q.env 0).dbError = none ∧
      ∃ r ∈ db.channels id, r.status ≠ .closed ∧
        (r.status = .open → channelTimeoutMs < (q.env 0).now - r.updatedAt) ∧
        Pays r (q.env 1)

/-! ## The rest of a call -/

section Serve

variable {pf : Platform} {db : Db}

/-- A call that only has its last read to make, or none. -/
def Call.Idle : Call → Prop
  | .readBack _ | .done _ | .failed _ => True
  | _ => False

theorem run_idle (pf : Platform) (db : Db) {c : Call} (h : c.Idle) (envs : List Env) :
    (run (alone pf) (db, c) envs).1 = db := by
  induction envs generalizing c with
  | nil => rfl
  | cons env envs ih =>
    obtain ⟨c', hstep, hidle⟩ : ∃ c', alone pf (db, c) env = (db, c') ∧ c'.Idle := by
      rw [alone]
      cases c with
      | readBack id =>
        rw [resume]
        split <;> exact ⟨_, rfl, trivial⟩
      | done | failed => exact ⟨_, rfl, trivial⟩
      | start | offChainUpdate | writeUpdate | settlePayment | writeSettled | writeDisputed
      | closePayment | writeClosed => exact h.elim
    rw [run_cons, hstep]
    exact ih hidle

theorem run_failed (pf : Platform) (db : Db) (e : AppError) (envs : List Env) :
    (run (alone pf) (db, .failed e) envs).1 = db :=
  run_idle pf db (show (Call.failed e).Idle from trivial) envs

theorem run_write (pf : Platform) (id : String) (f : Channel → Channel) (env : Env)
    (envs : List Env) :
    (run (alone pf) (write db id f env) envs).1
      = if env.dbError = none then db.update id f else db := by
  rw [write]
  cases env.dbError with
  | some e => exact run_failed pf db e envs
  | none => exact run_idle pf (db.update id f) (show (Call.readBack id).Idle from trivial) envs

theorem Unmoved.refl (db : Db) : Unmoved db db := fun _ ↦ ⟨rfl, rfl⟩

theorem not_unmoved_update {id : String} {f : Channel → Channel} {r : Channel}
    (hr : db.channels id = some r) (hne : (f r).sequence ≠ r.sequence ∨ (f r).status ≠ r.status) :
    ¬Unmoved db (db.update id f) := by
  intro h
  have hrow := (h id).1
  rw [Db.update] at hrow
  dsimp only at hrow
  rw [Function.update_self, hr, Option.map_some, Option.map_some, Option.map_some] at hrow
  obtain ⟨-, hpair⟩ := Prod.mk.inj (Option.some.inj hrow)
  obtain ⟨hseq, hstatus⟩ := Prod.mk.inj hpair
  exact hne.elim (fun h ↦ h hseq) fun h ↦ h hstatus

theorem not_unmoved_payOut {id : String} {p : Payout} {db' : Db}
    (h : db'.payouts = (db.payOut id p).payouts) : ¬Unmoved db db' := by
  intro hsame
  have hpaid := (hsame id).2
  rw [h, Db.payOut] at hpaid
  dsimp only at hpaid
  rw [Function.update_self] at hpaid
  exact List.cons_ne_self _ _ hpaid

theorem serve_of_begin {q : Request} {c : Call} (h : begin pf db (q.env 0) q.op = .ok c) :
    serve pf db q = (run (alone pf) (db, c) [q.env 1, q.env 2, q.env 3]).1 := by
  rw [serve, run_cons, alone, resume, h]

theorem serve_of_begin_error {q : Request} {e : AppError}
    (h : begin pf db (q.env 0) q.op = .error e) : serve pf db q = db := by
  rw [serve, run_cons, alone, resume, h]
  exact run_failed pf db e _

theorem run_pay (pf : Platform) {id : String} {p : Payout} {env : Env}
    {next : Option String → Call} (envs : List Env)
    (hnext : ∀ txId db, ((run (alone pf) (db, next txId) envs).1).payouts = db.payouts) :
    Unmoved db (run (alone pf) (pay db id p env next) envs).1 ↔ ¬env.answer.isOk := by
  rw [pay]
  cases hanswer : env.answer with
  | error e =>
    dsimp only
    rw [run_failed]
    exact iff_of_true (.refl db) Bool.false_ne_true
  | ok txId => exact iff_of_false (not_unmoved_payOut (hnext _ _)) (not_not_intro rfl)

theorem payouts_run_write (pf : Platform) {id : String} {f : Env → Channel → Channel} {c : Call}
    (hc : ∀ db env, resume pf db c env = write db id (f env) env) (db : Db) (env : Env)
    (envs : List Env) : (run (alone pf) (db, c) (env :: envs)).1.payouts = db.payouts := by
  rw [run_cons, alone, hc, run_write]
  split_ifs <;> rfl

/-- The last step of a closing, a payment or a write that changes the status, moves its channel
exactly when the environment lets it. -/
theorem unmoved_pays_iff {id : String} {r : Channel} (hr : db.channels id = some r)
    {paying : 0 < r.balance → Call} {writing : Call} {f : Channel → Channel} {env : Env}
    {envs : List Env}
    (hpay : ∀ pos, Unmoved db (run (alone pf) (db, paying pos) (env :: envs)).1 ↔ ¬env.answer.isOk)
    (hwrite : (run (alone pf) (db, writing) (env :: envs)).1 =
      if env.dbError = none then db.update id f else db)
    (hstatus : (f r).status ≠ r.status) :
    Unmoved db (run (alone pf)
      (db, if pos : 0 < r.balance then paying pos else writing) (env :: envs)).1 ↔ ¬Pays r env := by
  by_cases hpos : 0 < r.balance
  · rw [dif_pos hpos, Pays, if_pos hpos]
    exact hpay hpos
  · rw [dif_neg hpos, Pays, if_neg hpos, hwrite]
    split_ifs with hdb
    · exact iff_of_false (not_unmoved_update hr (.inr hstatus)) (not_not_intro hdb)
    · exact iff_of_true (.refl db) hdb

/-- A call that takes effect has passed its checks. -/
theorem exists_begin_of_takesEffect {q : Request} (h : TakesEffect pf db q) :
    ∃ c, begin pf db (q.env 0) q.op = .ok c := by
  rw [TakesEffect] at h
  cases hop : q.op with
  | updateChannel a =>
    rw [hop] at h
    obtain ⟨hid, hamount, herr, -, -, r, hr, hopen, hcap, hs, hs'⟩ := h
    exact ⟨_, begin_updateChannel.mpr ⟨r, hid, hamount, herr, hr, hopen, hcap, hs, hs', rfl⟩⟩
  | closeChannel id secret =>
    rw [hop] at h
    obtain ⟨hid, hsecret, herr, r, hr, hopen, -⟩ := h
    exact ⟨_, begin_closeChannel.mpr ⟨r, hid, hsecret, herr, hr, hopen, rfl⟩⟩
  | disputeChannel a =>
    rw [hop] at h
    obtain ⟨hid, herr, -, r, hr, hstatus, hseq, hwindow, hs, hs'⟩ := h
    exact ⟨_, begin_disputeChannel.mpr ⟨r, hid, herr, hr, hstatus, hseq, hwindow, hs, hs', rfl⟩⟩
  | forceCloseChannel id secret =>
    rw [hop] at h
    obtain ⟨hid, hsecret, herr, r, hr, hclosed, htime, -⟩ := h
    exact ⟨_, begin_forceCloseChannel.mpr ⟨r, hid, hsecret, herr, hr, hclosed, htime, rfl⟩⟩

theorem run_offChainUpdate_of_ne (pf : Platform) (u : NewState) {env : Env}
    (h : env.offChain ≠ .ok true) (envs : List Env) :
    (run (alone pf) (db, .offChainUpdate u) (env :: envs)).1 = db := by
  rw [run_cons, alone, resume]
  split
  · next hok => exact absurd hok h
  · exact run_failed pf db _ envs
  · exact run_failed pf db _ envs

/-- **A call moves a channel exactly when it takes effect.** -/
theorem unmoved_serve_iff (pf : Platform) (db : Db) (q : Request) :
    Unmoved db (serve pf db q) ↔ ¬TakesEffect pf db q := by
  cases hbegin : begin pf db (q.env 0) q.op with
  | error e =>
    rw [serve_of_begin_error hbegin]
    refine iff_of_true (.refl db) fun heffect ↦ ?_
    obtain ⟨c, hc⟩ := exists_begin_of_takesEffect heffect
    rw [hbegin] at hc
    cases hc
  | ok c =>
    rw [serve_of_begin hbegin, TakesEffect]
    cases hop : q.op with
    | updateChannel a =>
      rw [hop] at hbegin
      obtain ⟨r, hid, hamount, herr, hr, hopen, hcap, hs, hs', rfl⟩ :=
        begin_updateChannel.mp hbegin
      dsimp only
      by_cases hoff : (q.env 1).offChain = .ok true
      · rw [run_cons, alone, resume, hoff]
        dsimp only
        rw [run_cons, alone, resume, run_write]
        split_ifs with hdb
        · refine iff_of_false (not_unmoved_update hr (.inl ?_)) (not_not_intro ?_)
          · exact (lt_add_one r.sequence).ne'
          · exact ⟨hid, hamount, herr, rfl, hdb, r, hr, hopen, hcap, hs, hs'⟩
        · exact iff_of_true (.refl db) fun h ↦ hdb h.2.2.2.2.1
      · rw [run_offChainUpdate_of_ne pf _ hoff]
        exact iff_of_true (.refl db) fun h ↦ hoff h.2.2.2.1
    | closeChannel id secret =>
      rw [hop] at hbegin
      obtain ⟨r, hid, hsecret, herr, hr, hopen, rfl⟩ := begin_closeChannel.mp hbegin
      dsimp only
      have hrow : ∀ r' ∈ db.channels id, r' = r := fun r' hr' ↦ Option.some.inj (hr'.symm.trans hr)
      refine (unmoved_pays_iff hr (fun pos ↦ ?_) (run_write pf id _ (q.env 1) _) ?_).trans
        (not_congr ⟨fun hok ↦ ⟨hid, hsecret, herr, r, hr, hopen, hok⟩, fun h ↦ ?_⟩)
      · exact run_pay pf _ fun txId db' ↦ payouts_run_write pf (fun _ _ ↦ rfl) db' _ _
      · intro h
        rcases hopen with hopen | hopen <;> rw [hopen] at h <;> cases h
      · obtain ⟨-, -, -, r', hr', -, hok⟩ := h
        rwa [hrow r' hr'] at hok
    | disputeChannel a =>
      rw [hop] at hbegin
      obtain ⟨r, hid, herr, hr, hstatus, hseq, hwindow, hs, hs', rfl⟩ :=
        begin_disputeChannel.mp hbegin
      dsimp only
      rw [run_cons, alone, resume, run_write]
      split_ifs with hdb
      · refine iff_of_false (not_unmoved_update hr (.inl hseq.ne')) (not_not_intro ?_)
        exact ⟨hid, herr, hdb, r, hr, hstatus, hseq, hwindow, hs, hs'⟩
      · exact iff_of_true (.refl db) fun h ↦ hdb h.2.2.1
    | forceCloseChannel id secret =>
      rw [hop] at hbegin
      obtain ⟨r, hid, hsecret, herr, hr, hclosed, htime, rfl⟩ :=
        begin_forceCloseChannel.mp hbegin
      dsimp only
      have hrow : ∀ r' ∈ db.channels id, r' = r := fun r' hr' ↦ Option.some.inj (hr'.symm.trans hr)
      refine (unmoved_pays_iff hr (fun pos ↦ ?_) (run_write pf id _ (q.env 1) _) ?_).trans
        (not_congr ⟨fun hok ↦ ⟨hid, hsecret, herr, r, hr, hclosed, htime, hok⟩, fun h ↦ ?_⟩)
      · exact run_pay pf _ fun txId db' ↦ payouts_run_write pf (fun _ _ ↦ rfl) db' _ _
      · exact fun h ↦ hclosed h.symm
      · obtain ⟨-, -, -, r', hr', -, -, hok⟩ := h
        rwa [hrow r' hr'] at hok

end Serve

/-! ## Runs -/

section Runs

/-- **Only the parties move a channel** in a run of calls exactly when none of its calls by an
outsider takes effect, and whether it does is decided without a look at the channel's keys. -/
theorem only_parties_move_iff (pf : Platform) (secretOf : String → String) (db : Db)
    (qs : List Request) :
    Along (serve pf) (OnlyPartiesMove pf secretOf) db qs ↔
      Along (serve pf) (fun db q ↦ Outsider secretOf db q.op → ¬TakesEffect pf db q) db qs := by
  refine along_congr (I := fun _ ↦ True) (fun db q _ ↦ ?_) (fun _ _ _ _ ↦ trivial) trivial qs
  exact forall_congr' fun _ ↦ unmoved_serve_iff pf db q

end Runs

/-! ## What an outsider can have paid -/

section Drain

variable {pf : Platform} {id secret : String} {env : Env}

/-- A state signed twice with a secret of the caller's own. -/
def selfSignedDispute (pf : Platform) (id secret : String) (sequence balance : ℚ) :
    DisputeArgs where
  channelId := id
  sequence := sequence
  balance := balance
  senderSig := some (pf.hmacHex secret (buildStateMessage pf id sequence balance))
  receiverSig := some (pf.hmacHex secret (buildStateMessage pf id sequence balance))
  senderSecret := some secret
  receiverSecret := some secret

/-- For each amount, a dispute that makes it the balance and a close that pays it. -/
def drain (pf : Platform) (id secret : String) (env : Env) : ℚ → List ℚ → List Request
  | _, [] => []
  | n, amount :: amounts =>
    ⟨.disputeChannel (selfSignedDispute pf id secret (n + 1) amount), fun _ ↦ env⟩ ::
      ⟨.closeChannel id (some secret), fun _ ↦ env⟩ :: drain pf id secret env (n + 1) amounts

/-- The row can be disputed with the next sequence number, and the keys are the given ones. -/
structure Disputable (db : Db) (id : String) (now : ℤ) (senderKey receiverKey : String) (n : ℚ) :
    Prop where
  exists_row : ∃ r, db.channels id = some r ∧ (r.status = .open ∨ r.status = .settled) ∧
    r.sequence = n ∧ now - r.updatedAt ≤ disputeWindowMs ∧ r.senderKey = senderKey ∧
    r.receiverKey = receiverKey

theorem requests_drain (pf : Platform) (id secret : String) (env : Env) (amounts : List ℚ) (n : ℚ) :
    ∀ q ∈ drain pf id secret env n amounts, q.env = (fun _ ↦ env) ∧ q.op.credentials.1 = id ∧
      ∀ s ∈ q.op.credentials.2, s = secret := by
  induction amounts generalizing n with
  | nil => exact fun q hq ↦ absurd hq List.not_mem_nil
  | cons amount amounts ih =>
    intro q hq
    rcases List.mem_cons.mp hq with rfl | hq
    · exact ⟨rfl, rfl, by simp [Op.credentials, selfSignedDispute]⟩
    rcases List.mem_cons.mp hq with rfl | hq
    · exact ⟨rfl, rfl, by simp [Op.credentials]⟩
    · exact ih (n + 1) q hq

theorem serve_selfSignedDispute {db : Db} {r : Channel} {n amount : ℚ} (hid : id ≠ "")
    (herr : env.dbError = none) (hr : db.channels id = some r)
    (hstatus : r.status = .open ∨ r.status = .settled) (hseq : r.sequence < n)
    (hwindow : env.now - r.updatedAt ≤ disputeWindowMs) :
    serve pf db ⟨.disputeChannel (selfSignedDispute pf id secret n amount), fun _ ↦ env⟩
      = db.update id fun r ↦ { r with
          status := .disputed, disputedAt := some env.now, disputeSeq := some n
          balance := amount, sequence := n, updatedAt := env.now } := by
  have hsigned : SelfSigned pf (buildStateMessage pf id n amount)
      (some (pf.hmacHex secret (buildStateMessage pf id n amount))) (some secret) :=
    ⟨secret, rfl, pf.hmacHex secret (buildStateMessage pf id n amount), rfl, rfl⟩
  have hbegin : begin pf db env (.disputeChannel (selfSignedDispute pf id secret n amount))
      = .ok (.writeDisputed (selfSignedDispute pf id secret n amount)) :=
    begin_disputeChannel.mpr ⟨r, hid, herr, hr, hstatus, hseq, hwindow, hsigned, hsigned, rfl⟩
  rw [serve_of_begin hbegin, run_cons, alone, resume, run_write, if_pos herr]
  rfl

/-- A close of a disputed channel pays whatever balance the row has. -/
theorem serve_close {db : Db} {r : Channel} {txId : Option String} (hid : id ≠ "")
    (hsecret : secret ≠ "") (herr : env.dbError = none) (hanswer : env.answer = .ok txId)
    (hr : db.channels id = some r) (hstatus : r.status = .disputed) (hpos : 0 < r.balance) :
    serve pf db ⟨.closeChannel id (some secret), fun _ ↦ env⟩
      = (db.payOut id ⟨r.sequence, r.balance, settleSource r⟩).update id fun r ↦ { r with
          status := .settled, settledAt := some env.now, updatedAt := env.now
          stellarTxId := JsString.orNull txId } := by
  rw [serve_of_begin (begin_closeChannel.mpr
    ⟨r, hid, ⟨secret, rfl, hsecret⟩, herr, hr, .inr hstatus, rfl⟩), dif_pos hpos]
  rw [run_cons, alone, resume, pay, hanswer]
  dsimp only
  rw [run_cons, alone, resume, run_write, if_pos herr]

/-- One dispute and one close: the amount is paid, and the channel can be disputed again. -/
theorem serve_dispute_close {db : Db} {senderKey receiverKey : String} {txId : Option String}
    {n amount : ℚ} (h : Disputable db id env.now senderKey receiverKey n) (hid : id ≠ "")
    (hsecret : secret ≠ "") (herr : env.dbError = none) (hanswer : env.answer = .ok txId)
    (hpos : 0 < amount) {db₁ db₂ : Db}
    (h₁ : serve pf db
      ⟨.disputeChannel (selfSignedDispute pf id secret (n + 1) amount), fun _ ↦ env⟩ = db₁)
    (h₂ : serve pf db₁ ⟨.closeChannel id (some secret), fun _ ↦ env⟩ = db₂) :
    (∀ r ∈ db₁.channels id, r.senderKey = senderKey ∧ r.receiverKey = receiverKey) ∧
      Disputable db₂ id env.now senderKey receiverKey (n + 1) ∧
      (db₂.payouts id).map (·.balance) = amount :: (db.payouts id).map (·.balance) := by
  obtain ⟨r, hr, hstatus, rfl, hwindow, rfl, rfl⟩ := h.exists_row
  rw [serve_selfSignedDispute hid herr hr hstatus (lt_add_one r.sequence) hwindow] at h₁
  subst h₁
  have hrow : (db.update id fun r' ↦ { r' with
      status := .disputed, disputedAt := some env.now, disputeSeq := some (r.sequence + 1)
      balance := amount, sequence := r.sequence + 1, updatedAt := env.now }).channels id
      = some { r with
        status := .disputed, disputedAt := some env.now, disputeSeq := some (r.sequence + 1)
        balance := amount, sequence := r.sequence + 1, updatedAt := env.now } := by
    rw [Db.update]
    dsimp only
    rw [Function.update_self, hr, Option.map_some]
  rw [serve_close hid hsecret herr hanswer hrow rfl hpos] at h₂
  subst h₂
  refine ⟨fun r' hr' ↦ ?_, ⟨⟨?settled, ?found, ?next⟩⟩, ?_⟩
  · obtain rfl := Option.some.inj (hrow.symm.trans hr')
    exact ⟨rfl, rfl⟩
  case found =>
    rw [Db.update, Db.payOut]
    dsimp only
    rw [Function.update_self, hrow, Option.map_some]
  case next =>
    refine ⟨.inr rfl, rfl, ?_, rfl, rfl⟩
    dsimp only
    rw [sub_self]
    decide
  · rw [Db.update, Db.payOut]
    dsimp only
    rw [Function.update_self, List.map_cons]
    rfl

/-- **An outsider can have any amounts paid.** On a channel that is open or settled and was updated
within the dispute window, a caller who supplies nothing but a string that is neither party's secret
has any positive amounts paid out, one after the other, as long as the database and the network
answer: neither the capacity nor an earlier settlement stands in the way. -/
theorem outsider_pays_any (pf : Platform) {secretOf : String → String} {db : Db} {r : Channel}
    {txId : Option String} (hid : id ≠ "") (hsecret : secret ≠ "") (herr : env.dbError = none)
    (hanswer : env.answer = .ok txId) (hr : db.channels id = some r)
    (hstatus : r.status = .open ∨ r.status = .settled)
    (hwindow : env.now - r.updatedAt ≤ disputeWindowMs)
    (hout : secret ≠ secretOf r.senderKey ∧ secret ≠ secretOf r.receiverKey) (amounts : List ℚ)
    (hpos : ∀ amount ∈ amounts, 0 < amount) :
    ∃ qs : List Request, (∀ q ∈ qs, q.env = (fun _ ↦ env) ∧ ∀ s ∈ q.op.credentials.2, s = secret) ∧
      Along (serve pf) (fun db q ↦ Outsider secretOf db q.op) db qs ∧
      ((run (serve pf) db qs).payouts id).map (·.balance)
        = amounts.reverse ++ (db.payouts id).map (·.balance) := by
  refine ⟨drain pf id secret env r.sequence amounts, fun q hq ↦ ?_, ?_⟩
  · obtain ⟨henv, -, hcred⟩ := requests_drain pf id secret env amounts r.sequence q hq
    exact ⟨henv, hcred⟩
  -- the keys stay the same, so the caller stays an outsider
  have houtsider : ∀ (db : Db) (n : ℚ), (∀ r' ∈ db.channels id,
      r'.senderKey = r.senderKey ∧ r'.receiverKey = r.receiverKey) → ∀ amounts,
      ∀ q ∈ drain pf id secret env n amounts, Outsider secretOf db q.op := by
    intro db n hkeys amounts q hq r' hr' s hs
    obtain ⟨-, hchannel, hcred⟩ := requests_drain pf id secret env amounts n q hq
    rw [hchannel] at hr'
    rw [hcred s hs, (hkeys r' hr').1, (hkeys r' hr').2]
    exact hout
  suffices h : ∀ (db : Db) (n : ℚ), Disputable db id env.now r.senderKey r.receiverKey n →
      Along (serve pf) (fun db q ↦ Outsider secretOf db q.op) db
          (drain pf id secret env n amounts) ∧
        ((run (serve pf) db (drain pf id secret env n amounts)).payouts id).map (·.balance)
          = amounts.reverse ++ (db.payouts id).map (·.balance) from
    h db r.sequence ⟨r, hr, hstatus, rfl, hwindow, rfl, rfl⟩
  induction amounts with
  | nil => exact fun db n _ ↦ ⟨trivial, rfl⟩
  | cons amount amounts ih =>
    intro db n hdisputable
    obtain ⟨hkeys₁, hagain, hpaid⟩ := serve_dispute_close hdisputable hid hsecret herr hanswer
      (hpos amount List.mem_cons_self) rfl rfl
    obtain ⟨halong, hpayouts⟩ := ih (fun b hb ↦ hpos b (List.mem_cons_of_mem _ hb)) _ _ hagain
    have hkeys : ∀ r' ∈ db.channels id,
        r'.senderKey = r.senderKey ∧ r'.receiverKey = r.receiverKey := by
      intro r' hr'
      obtain ⟨r₀, hr₀, -, -, -, hsender, hreceiver⟩ := hdisputable.exists_row
      obtain rfl : r' = r₀ := Option.some.inj (hr'.symm.trans hr₀)
      exact ⟨hsender, hreceiver⟩
    refine ⟨⟨?_, ?_, halong⟩, ?_⟩
    · exact houtsider db n hkeys (amount :: amounts) _ List.mem_cons_self
    · exact houtsider _ n hkeys₁ (amount :: amounts) _
        (List.mem_cons_of_mem _ List.mem_cons_self)
    · rw [drain, run_cons, run_cons, hpayouts, hpaid, List.reverse_cons, List.append_assoc]
      rfl

/-- The whole capacity twice, under a secret that belongs to nobody. -/
theorem outsider_pays_capacity_twice :
    ∃ qs : List Request,
      (∀ q ∈ qs, q.env = (fun _ ↦ okEnv) ∧ ∀ s ∈ q.op.credentials.2, s = "SFORGED") ∧
      Along (serve fixedPlatform) (fun db q ↦ Outsider (fun key ↦ "secret of " ++ key) db q.op)
        tenXlmDb qs ∧
      ((run (serve fixedPlatform) tenXlmDb qs).payouts "ch1").map (·.balance)
        = [10, 10].reverse ++ (tenXlmDb.payouts "ch1").map (·.balance) :=
  outsider_pays_any fixedPlatform (r := tenXlmChannel) (by decide) (by decide) rfl rfl rfl
    (.inl rfl)
    (by decide) (by decide) [10, 10] (by decide)

end Drain

section Examples

/-- The digests of the whole capacity under a secret that belongs to nobody. -/
def forgedPlatform : Platform where
  hmacHex key message :=
    if (key, message) = ("SFORGED", "channel:ch1:seq:1:balance:10") then
      "4468cbde51ba2f3535e9b8f9d3ce507941b8015b7c348c1ad63dee1f6397a8c7"
    else ""
  showNumber x := toString x.num

/-- The whole capacity, signed twice with the forged secret. -/
def forgedUpdate : Request where
  op := .updateChannel
    { channelId := "ch1", amount := 10
      senderSecret := some "SFORGED", receiverSecret := some "SFORGED"
      senderSig := some "4468cbde51ba2f3535e9b8f9d3ce507941b8015b7c348c1ad63dee1f6397a8c7"
      receiverSig := some "4468cbde51ba2f3535e9b8f9d3ce507941b8015b7c348c1ad63dee1f6397a8c7" }
  env _ := okEnv

def forgedClose : Request where
  op := .closeChannel "ch1" (some "SFORGED")
  env _ := okEnv

def partySecret (publicKey : String) : String :=
  if publicKey = "GSENDER" then "SSENDER" else "SRECEIVER"

/-- An outsider moves the whole capacity, and then has it paid out of the escrow account. -/
theorem outsider_moves_channel : Opened tenXlmDb ∧
    ¬Along (serve forgedPlatform) (OnlyPartiesMove forgedPlatform partySecret) tenXlmDb
      [forgedUpdate, forgedClose] ∧
    (run (serve forgedPlatform) tenXlmDb [forgedUpdate, forgedClose]).payouts "ch1"
      = [⟨1, 10, .escrow "SESCROW"⟩] := by
  refine ⟨opened_tenXlmDb, fun h ↦ ?_, by decide +kernel⟩
  have hout : Outsider partySecret tenXlmDb forgedUpdate.op := by
    intro r hr secret hsecret
    obtain rfl : tenXlmChannel = r := Option.some.inj hr
    obtain rfl : secret = "SFORGED" := by
      simpa [forgedUpdate, Op.credentials] using hsecret
    decide
  have hstate := (h.1 hout "ch1").1
  revert hstate
  decide +kernel

end Examples

end StellarDonations.Channels
