import StellarDonations.Concurrency.PayOnce
import StellarDonations.Donations.Custodial

/-!
# Replays of custodial donations

Calls of `sendCustodialDonation` with the same idempotency key, interleaved at their `await`s. The
lookup for the key, the payment and the insertion of the row that carries the key are three
separate steps, so the calls follow the look-up, act, record protocol: `abstraction` maps a state
of the calls to a state of the protocol, and every step that meets `Orderly` is a step of the
protocol or two (`once_step`).

That all calls return the id of the same row needs no condition: the row is found by its key, and
the key is unique in the table.
-/

namespace StellarDonations.Custodial

open Concurrency JsString Stellar Transactions

variable {ι : Type*} [DecidableEq ι] {svc : Services}

def step (svc : Services) : Calls ι Shared Call → ι × Env → Calls ι Shared Call :=
  Calls.step (resume svc)

/-! ## What must hold -/

/-- Payments submitted for a key that the network has not rejected. -/
def live (sh : Shared) (key : String) : ℤ :=
  sh.submitted.count (some key) - sh.rejected.count (some key)

/-- For every key, at most one payment is submitted beyond those the network rejected. -/
def PaidOnce (s : Calls ι Shared Call) : Prop := ∀ key, live s.shared key ≤ 1

/-- The key and the row id a call has returned. -/
def Call.answered : Call → Option (Option String × ℕ)
  | .returned a res => some (a.idempotencyKey, res.id)
  | _ => none

/-- All calls with one key that return, return the id of the same row. -/
def SameRow (s : Calls ι Shared Call) : Prop :=
  ∀ i j key x y, (s.call i).answered = some (some key, x) →
    (s.call j).answered = some (some key, y) → x = y

/-! ## The protocol behind the calls -/

def recorded (sh : Shared) (key : String) : Prop :=
  ∃ row ∈ sh.transactions, row.idempotencyKey = some key

/-- The phase of a call with a key; calls without one take no part. -/
def Call.phase : Call → PayOnce.Phase String
  | .reserve a _ _ => a.idempotencyKey.elim .outside .looked
  | .sendDonation a _ | .insert a _ _ => a.idempotencyKey.elim .outside .acted
  | _ => .outside

def abstraction (s : Calls ι Shared Call) : PayOnce.State ι String where
  recorded := recorded s.shared
  live := live s.shared
  phase i := (s.call i).phase

/-- The condition on a step of call `i`. A lookup that finds nothing happens while no other call
with the key is between its own lookup and its row, and an empty key, which is not looked up at all,
has no row yet. The insertion for a paid call succeeds. -/
def Call.Orderly (s : Calls ι Shared Call) (i : ι) (env : Env) : Call → Prop
  | .lookup args _ => ∀ key ∈ args.idempotencyKey,
      (orNull args.idempotencyKey).bind s.shared.selectByKey = none →
      Alone (PayOnce.Phase.Inside key) (fun j ↦ (s.call j).phase) i ∧
        (key = "" → ¬recorded s.shared key)
  | .insert args _ result => args.idempotencyKey.isSome →
      env.insertError = none ∧
        ∀ row ∈ s.shared.transactions, row.stellarTxId ≠ some result.transactionId
  | _ => True

/-- The condition on a step: the resumed call is `Orderly`. -/
def Orderly (s : Calls ι Shared Call) (a : ι × Env) : Prop := (s.call a.1).Orderly s a.1 a.2

theorem count_cons_key (l : List (Option String)) (key k : String) :
    ((some key :: l).count (some k) : ℤ) = l.count (some k) + if k = key then 1 else 0 := by
  rcases eq_or_ne k key with rfl | hk
  · rw [List.count_cons_self, if_pos rfl]
    push_cast
    rfl
  · rw [List.count_cons_of_ne (fun h ↦ hk (Option.some.inj h).symm), if_neg hk, add_zero]

theorem live_submit (sh : Shared) (key : String) :
    live { sh with submitted := some key :: sh.submitted }
      = Function.update (live sh) key (live sh key + 1) := by
  funext k
  rw [Function.update_apply, live, count_cons_key]
  split_ifs with hk
  · rw [hk, live]
    ring
  · rw [live, add_zero]

theorem live_reject (sh : Shared) (key : String) :
    live { sh with rejected := some key :: sh.rejected }
      = Function.update (live sh) key (live sh key - 1) := by
  funext k
  rw [Function.update_apply, live, count_cons_key]
  split_ifs with hk
  · rw [hk, live]
    ring
  · rw [live, add_zero]

theorem live_submit_none (sh : Shared) :
    live { sh with submitted := none :: sh.submitted } = live sh := by
  funext k
  rw [live, live, List.count_cons_of_ne (Option.some_ne_none k).symm]

theorem live_reject_none (sh : Shared) :
    live { sh with rejected := none :: sh.rejected } = live sh := by
  funext k
  rw [live, live, List.count_cons_of_ne (Option.some_ne_none k).symm]

theorem abstraction_step (s : Calls ι Shared Call) (i : ι) (env : Env) :
    abstraction (step svc s (i, env)) =
      { recorded := recorded (resume svc s.shared (s.call i) env).1
        live := live (resume svc s.shared (s.call i) env).1
        phase := Function.update (abstraction s).phase i
          (resume svc s.shared (s.call i) env).2.phase } := by
  rw [abstraction, step, Calls.step_shared, Calls.step_call]
  congr 1
  exact Function.comp_update Call.phase s.call i _

/-- The calls that are neither at the lookup nor inside. -/
def Call.plain : Call → Bool
  | .lookup .. | .reserve .. | .sendDonation .. | .insert .. => false
  | _ => true

theorem resume_plain (svc : Services) (sh : Shared) {c : Call} (hc : c.plain = true) (env : Env) :
    (resume svc sh c env).1.transactions = sh.transactions ∧
      (resume svc sh c env).1.submitted = sh.submitted ∧
      (resume svc sh c env).1.rejected = sh.rejected ∧
      (resume svc sh c env).2.phase = .outside := by
  cases c with
  | getSender | checkLimits | checkVelocity | replayLimits | limits =>
    rw [resume]
    split <;> exact ⟨rfl, rfl, rfl, rfl⟩
  | getReceiver a sender =>
    rw [resume]
    split
    · exact ⟨rfl, rfl, rfl, rfl⟩
    · split <;> exact ⟨rfl, rfl, rfl, rfl⟩
  | matching a p result dbId =>
    rw [resume, recordDonation_throws]
    exact ⟨rfl, rfl, rfl, rfl⟩
  | campaign | returned | threw => exact ⟨rfl, rfl, rfl, rfl⟩
  | lookup | reserve | sendDonation | insert => cases hc

/-! ## Every orderly step is a step of the protocol -/

section Steps

variable {s : Calls ι Shared Call} {i : ι} {env : Env}

theorem once_leave (h : PayOnce.Once (abstraction s))
    (hphase : ∀ k, (s.call i).phase ≠ .acted k)
    (hrec : recorded (resume svc s.shared (s.call i) env).1 = recorded s.shared)
    (hlive : live (resume svc s.shared (s.call i) env).1 = live s.shared)
    (hout : (resume svc s.shared (s.call i) env).2.phase = .outside) :
    PayOnce.Once (abstraction (step svc s (i, env))) := by
  rw [abstraction_step, hrec, hlive, hout]
  exact h.step (PayOnce.Step.leave hphase)

theorem once_step_plain (h : PayOnce.Once (abstraction s)) (hc : (s.call i).plain = true) :
    PayOnce.Once (abstraction (step svc s (i, env))) := by
  obtain ⟨hrows, hsub, hrej, hout⟩ := resume_plain svc s.shared hc env
  refine once_leave h (fun k hk ↦ ?_) ?_ ?_ hout
  · cases hcall : s.call i <;> rw [hcall] at hk hc <;> cases hc <;> cases hk
  · funext k
    rw [recorded, recorded, hrows]
  · funext k
    rw [live, live, hsub, hrej]

theorem not_recorded_of_miss {sh : Shared} {key : String} (h : sh.selectByKey key = none) :
    ¬recorded sh key := by
  rintro ⟨row, hrow, hrowkey⟩
  have := List.find?_eq_none.mp h row hrow
  simp [hrowkey] at this

theorem look_of_miss {a : Args} {p : Parties} {key : String} (hcall : s.call i = .lookup a p)
    (hkey : a.idempotencyKey = some key)
    (hmiss : (orNull a.idempotencyKey).bind s.shared.selectByKey = none)
    (hord : Orderly s (i, env)) :
    PayOnce.Step i (abstraction s)
      { abstraction s with phase := Function.update (abstraction s).phase i (.looked key) } := by
  simp only [Orderly, Call.Orderly, hcall] at hord
  obtain ⟨halone, hempty⟩ := hord key hkey hmiss
  refine PayOnce.Step.look key ?_ halone ?_
  · by_cases hk : key = ""
    · exact hempty hk
    · rw [orNull_eq_some.mpr ⟨hkey, hk⟩] at hmiss
      exact not_recorded_of_miss hmiss
  · simp only [abstraction, hcall]
    rfl

theorem once_step_lookup {a : Args} {p : Parties} (h : PayOnce.Once (abstraction s))
    (hcall : s.call i = .lookup a p) (hord : Orderly s (i, env)) :
    PayOnce.Once (abstraction (step svc s (i, env))) := by
  have hphase : ∀ k, (s.call i).phase ≠ .acted k := by
    rw [hcall]
    exact fun k hk ↦ (by cases hk)
  cases hsel : (orNull a.idempotencyKey).bind s.shared.selectByKey with
  | some existing =>
    have hresume : resume svc s.shared (s.call i) env = (s.shared, .replayLimits a p existing) := by
      rw [hcall, resume, hsel]
    exact once_leave h hphase (by rw [hresume]) (by rw [hresume]) (by rw [hresume]; rfl)
  | none =>
    have hresume : resume svc s.shared (s.call i) env = afterLookup svc s.shared a p := by
      rw [hcall, resume, hsel]
    rw [afterLookup] at hresume
    cases hdec : svc.decrypt (p.sender.encryptedSecret.getD "") with
    | error e =>
      rw [hdec] at hresume
      exact once_leave h hphase (by rw [hresume]) (by rw [hresume]) (by rw [hresume]; rfl)
    | ok secret =>
      rw [hdec] at hresume
      dsimp only at hresume
      by_cases hasset : a.asset.all (·.isNative) = true
      · rw [if_pos hasset] at hresume
        cases hkey : a.idempotencyKey with
        | none =>
          refine once_leave h hphase (by rw [hresume]) (by rw [hresume]) ?_
          rw [hresume, Call.phase, hkey]
          rfl
        | some key =>
          have hlook := h.step (look_of_miss hcall hkey hsel hord)
          rw [abstraction_step, hresume, Call.phase, hkey]
          exact hlook
      · rw [if_neg hasset] at hresume
        cases hkey : a.idempotencyKey with
        | none =>
          rw [hkey] at hresume
          refine once_leave h hphase (by rw [hresume]; rfl) (by rw [hresume, live_submit_none]) ?_
          rw [hresume, Call.phase, hkey]
          rfl
        | some key =>
          rw [hkey] at hresume
          -- the payment follows the lookup at once: two steps of the protocol
          have hlook := h.step (look_of_miss hcall hkey hsel hord)
          have hact := hlook.step (PayOnce.Step.act key (Function.update_self i _ _))
          rw [abstraction_step, hresume, Call.phase, hkey, live_submit]
          simp only [Function.update_idem] at hact
          exact hact

theorem once_step_reserve {a : Args} {p : Parties} {secret : String}
    (h : PayOnce.Once (abstraction s)) (hcall : s.call i = .reserve a p secret) :
    PayOnce.Once (abstraction (step svc s (i, env))) := by
  have hphase : ∀ k, (s.call i).phase ≠ .acted k := by
    intro k hk
    rw [hcall, Call.phase] at hk
    cases hkey : a.idempotencyKey <;> rw [hkey] at hk <;> cases hk
  by_cases hreserve : ∃ message, env.reserve = .ok ⟨false, message⟩
  · obtain ⟨message, hm⟩ := hreserve
    have hresume : resume svc s.shared (s.call i) env
        = (s.shared, .threw a (.businessLogic .insufficientBalanceAfterReserve message)) := by
      rw [hcall, resume, hm]
    exact once_leave h hphase (by rw [hresume]) (by rw [hresume]) (by rw [hresume]; rfl)
  · have hresume : resume svc s.shared (s.call i) env
        = ({ s.shared with submitted := a.idempotencyKey :: s.shared.submitted },
          .sendDonation a p) := by
      rw [hcall, resume]
      split
      · exact absurd ⟨_, ‹_›⟩ hreserve
      · rfl
    cases hkey : a.idempotencyKey with
    | none =>
      rw [hkey] at hresume
      refine once_leave h hphase (by rw [hresume]; rfl) (by rw [hresume, live_submit_none]) ?_
      rw [hresume, Call.phase, hkey]
      rfl
    | some key =>
      rw [hkey] at hresume
      have hlooked : (abstraction s).phase i = .looked key := by
        simp only [abstraction, hcall, Call.phase, hkey]
        rfl
      rw [abstraction_step, hresume, Call.phase, hkey, live_submit]
      exact h.step (PayOnce.Step.act key hlooked)

theorem once_step_sendDonation {a : Args} {p : Parties} (h : PayOnce.Once (abstraction s))
    (hcall : s.call i = .sendDonation a p) : PayOnce.Once (abstraction (step svc s (i, env))) := by
  cases hanswer : env.answer with
  | ok result =>
    have hresume : resume svc s.shared (s.call i) env = ({ s.shared with
        accepted := (a.idempotencyKey, result) :: s.shared.accepted }, .insert a p result) := by
      rw [hcall, resume, hanswer]
    have hsame : Function.update (abstraction s).phase i (Call.insert a p result).phase
        = (abstraction s).phase := by
      refine Function.update_eq_self_iff.mpr ?_
      simp only [abstraction, hcall]
      rfl
    rw [abstraction_step, hresume, hsame]
    exact h
  | error e =>
    have hresume : resume svc s.shared (s.call i) env = ({ s.shared with
        rejected := a.idempotencyKey :: s.shared.rejected }, .threw a e) := by
      rw [hcall, resume, hanswer]
    cases hkey : a.idempotencyKey with
    | none =>
      rw [hkey] at hresume
      refine once_leave h (fun k hk ↦ ?_) (by rw [hresume]; rfl) (by rw [hresume, live_reject_none])
        (by rw [hresume]; rfl)
      rw [hcall, Call.phase, hkey] at hk
      cases hk
    | some key =>
      rw [hkey] at hresume
      have hacted : (abstraction s).phase i = .acted key := by
        simp only [abstraction, hcall, Call.phase, hkey]
        rfl
      rw [abstraction_step, hresume, live_reject]
      exact h.step (PayOnce.Step.undo key hacted)

theorem recorded_append (sh : Shared) (row : TransactionRow) (a : Args) :
    recorded (({ sh with transactions := sh.transactions ++ [row] } : Shared).incrementTotal
      a.receiverId (amountStroops a)) = fun k ↦ row.idempotencyKey = some k ∨ recorded sh k := by
  funext k
  simp only [recorded, Shared.incrementTotal, List.mem_append, List.mem_singleton, or_and_right,
    exists_or, exists_eq_left]
  exact propext or_comm

omit [DecidableEq ι] in
/-- In the protocol's invariant the insertion of a paid call meets no row with its key. -/
theorem commit_of_once {a : Args} {p : Parties} {result : PaymentResult} {key : String}
    (h : PayOnce.Once (abstraction s)) (hcall : s.call i = .insert a p result)
    (hkey : a.idempotencyKey = some key) (hord : Orderly s (i, env)) :
    ∃ out, commit svc s.shared a result env = .ok out := by
  simp only [Orderly, Call.Orderly, hcall] at hord
  obtain ⟨hinsert, htx⟩ := hord (by rw [hkey]; rfl)
  have hrec : ¬recorded s.shared key := by
    intro hrec
    refine h.settled key hrec i ?_
    simp only [abstraction, hcall, Call.phase, hkey]
    exact rfl
  have hunique : s.shared.violatesUnique (transactionRow svc s.shared a result env.now)
      = false := by
    refine Bool.eq_false_of_not_eq_true fun hviol ↦ ?_
    obtain ⟨row, hrow, hcol⟩ := List.any_eq_true.mp hviol
    rcases Bool.or_eq_true_iff.mp hcol with hcol | hcol
    · have heq := of_decide_eq_true (Bool.and_eq_true_iff.mp hcol).2
      exact hrec ⟨row, hrow, heq.symm.trans hkey⟩
    · have heq := of_decide_eq_true (Bool.and_eq_true_iff.mp hcol).2
      exact htx row hrow heq.symm
  exact ⟨_, commit_of_unique hinsert hunique⟩

theorem once_step_insert {a : Args} {p : Parties} {result : PaymentResult}
    (h : PayOnce.Once (abstraction s)) (hcall : s.call i = .insert a p result)
    (hord : Orderly s (i, env)) : PayOnce.Once (abstraction (step svc s (i, env))) := by
  cases hcommit : commit svc s.shared a result env with
  | error e =>
    have hresume : resume svc s.shared (s.call i) env = (s.shared, .threw a e) := by
      rw [hcall, resume, hcommit]
    cases hkey : a.idempotencyKey with
    | some key =>
      obtain ⟨out, hout⟩ := commit_of_once h hcall hkey hord
      rw [hcommit] at hout
      cases hout
    | none =>
      refine once_leave h (fun k hk ↦ ?_) (by rw [hresume]) (by rw [hresume]) (by rw [hresume]; rfl)
      rw [hcall, Call.phase, hkey] at hk
      cases hk
  | ok out =>
    obtain ⟨sh', dbId⟩ := out
    obtain ⟨-, -, -, hsh⟩ := commit_eq_ok hcommit
    have hshared : (resume svc s.shared (s.call i) env).1 = sh' := by
      rw [hcall, resume, hcommit]
      dsimp only
      split_ifs <;> rfl
    have hphase : (resume svc s.shared (s.call i) env).2.phase = .outside := by
      rw [hcall, resume, hcommit]
      dsimp only
      split_ifs <;> rfl
    have hrec : recorded sh' = fun k ↦ a.idempotencyKey = some k ∨ recorded s.shared k := by
      rw [hsh, recorded_append]
      rfl
    have hlive : live sh' = live s.shared := by
      rw [hsh]
      rfl
    cases hkey : a.idempotencyKey with
    | none =>
      refine once_leave h (fun k hk ↦ ?_) ?_ (by rw [hshared, hlive]) hphase
      · rw [hcall, Call.phase, hkey] at hk
        cases hk
      · rw [hshared, hrec, hkey]
        funext k
        simp
    | some key =>
      have hacted : (abstraction s).phase i = .acted key := by
        simp only [abstraction, hcall, Call.phase, hkey]
        rfl
      have hrec' : recorded sh' = fun k ↦ k = key ∨ recorded s.shared k := by
        rw [hrec, hkey]
        funext k
        rw [Option.some.injEq, @eq_comm _ key k]
      rw [abstraction_step, hshared, hphase, hrec', hlive]
      exact h.step (PayOnce.Step.record key hacted)

theorem once_step (s : Calls ι Shared Call) (a : ι × Env) (h : PayOnce.Once (abstraction s))
    (hord : Orderly s a) : PayOnce.Once (abstraction (step svc s a)) := by
  obtain ⟨i, env⟩ := a
  cases hcall : s.call i with
  | lookup a p => exact once_step_lookup h hcall hord
  | reserve a p secret => exact once_step_reserve h hcall
  | sendDonation a p => exact once_step_sendDonation h hcall
  | insert a p result => exact once_step_insert h hcall hord
  | getSender | getReceiver | checkLimits | checkVelocity | replayLimits | campaign | matching
  | limits | returned | threw => exact once_step_plain h (by rw [hcall]; rfl)

end Steps

/-! ## One row per key -/

def UniqueKeys (sh : Shared) : Prop :=
  ∀ r ∈ sh.transactions, ∀ r' ∈ sh.transactions, ∀ key, r.idempotencyKey = some key →
    r'.idempotencyKey = some key → r.id = r'.id

/-- The row a call has found or inserted for its key. -/
def Call.holds : Call → Option (Option String × ℕ)
  | .replayLimits a _ existing => some (a.idempotencyKey, existing.id)
  | .campaign a _ _ dbId | .matching a _ _ dbId | .limits a _ _ dbId _ =>
    some (a.idempotencyKey, dbId)
  | .returned a res => some (a.idempotencyKey, res.id)
  | _ => none

/-- The row a call holds is in the table, under the call's key. -/
def Filed (sh : Shared) (c : Call) : Prop :=
  ∀ key id, c.holds = some (some key, id) →
    ∃ row ∈ sh.transactions, row.idempotencyKey = some key ∧ row.id = id

theorem afterLookup_transactions (svc : Services) (sh : Shared) (a : Args) (p : Parties) :
    (afterLookup svc sh a p).1.transactions = sh.transactions ∧
      (afterLookup svc sh a p).2.holds = none := by
  rw [afterLookup]
  split
  · exact ⟨rfl, rfl⟩
  · split_ifs <;> exact ⟨rfl, rfl⟩

/-- Only a committed insertion changes the table: it appends a row with the call's key. -/
theorem resume_transactions (svc : Services) (sh : Shared) (c : Call) (env : Env) :
    (resume svc sh c env).1.transactions = sh.transactions ∨
      ∃ a p result, c = .insert a p result ∧
        sh.violatesUnique (transactionRow svc sh a result env.now) = false ∧
        (resume svc sh c env).1.transactions
          = sh.transactions ++ [transactionRow svc sh a result env.now] := by
  cases c with
  | lookup a p =>
    left
    rw [resume]
    split
    · rfl
    · exact (afterLookup_transactions svc sh a p).1
  | reserve | sendDonation =>
    left
    rw [resume]
    split <;> rfl
  | insert a p result =>
    cases hcommit : commit svc sh a result env with
    | error e =>
      left
      rw [resume, hcommit]
    | ok out =>
      obtain ⟨sh', dbId⟩ := out
      obtain ⟨-, hunique, -, rfl⟩ := commit_eq_ok hcommit
      refine .inr ⟨a, p, result, rfl, hunique, ?_⟩
      rw [resume, hcommit]
      dsimp only
      split_ifs <;> rfl
  | getSender | getReceiver | checkLimits | checkVelocity | replayLimits | campaign | matching
  | limits | returned | threw => exact .inl (resume_plain svc sh rfl env).1

theorem mem_transactions_resume {sh : Shared} (c : Call) (env : Env) {row : TransactionRow}
    (h : row ∈ sh.transactions) : row ∈ (resume svc sh c env).1.transactions := by
  rcases resume_transactions svc sh c env with heq | ⟨a, p, result, -, -, heq⟩
  · rwa [heq]
  · rw [heq]
    exact List.mem_append_left _ h

theorem resume_holds (sh : Shared) (c : Call) (env : Env) {key : String} {id : ℕ}
    (h : (resume svc sh c env).2.holds = some (some key, id)) :
    c.holds = some (some key, id) ∨
      ∃ row ∈ (resume svc sh c env).1.transactions,
        row.idempotencyKey = some key ∧ row.id = id := by
  cases c with
  | lookup a p =>
    cases hsel : (orNull a.idempotencyKey).bind sh.selectByKey with
    | none =>
      rw [resume, hsel] at h
      dsimp only at h
      rw [(afterLookup_transactions svc sh a p).2] at h
      cases h
    | some existing =>
      rw [resume, hsel] at h
      obtain ⟨hkey, rfl⟩ := Prod.mk.inj (Option.some.inj h)
      obtain ⟨k, hk, hfind⟩ := Option.bind_eq_some_iff.mp hsel
      have hrow : existing.idempotencyKey = some k := by simpa using List.find?_some hfind
      refine .inr ⟨existing, mem_transactions_resume _ env (List.mem_of_find?_eq_some hfind), ?_,
        rfl⟩
      rw [hrow, ← hkey]
      exact (orNull_eq_some.mp hk).1.symm
  | insert a p result =>
    cases hcommit : commit svc sh a result env with
    | error e =>
      rw [resume, hcommit] at h
      cases h
    | ok out =>
      obtain ⟨sh', dbId⟩ := out
      obtain ⟨-, -, rfl, rfl⟩ := commit_eq_ok hcommit
      rw [resume, hcommit] at h ⊢
      dsimp only at h ⊢
      refine .inr ⟨transactionRow svc sh a result env.now, ?_, ?_⟩
      · split_ifs <;> exact List.mem_append_right _ (List.mem_singleton_self _)
      · split_ifs at h <;> exact Prod.mk.inj (Option.some.inj h)
  | replayLimits | limits =>
    rw [resume] at h
    split at h
    · cases h
    · exact .inl h
  | campaign | returned => exact .inl h
  | matching a p result dbId =>
    rw [resume, recordDonation_throws] at h
    cases h
  | threw a e => cases h
  | getSender | checkLimits | checkVelocity | reserve | sendDonation =>
    rw [resume] at h
    split at h <;> cases h
  | getReceiver a sender =>
    rw [resume] at h
    split at h
    · cases h
    · split at h <;> cases h

theorem ne_key_of_unique {sh : Shared} {row r : TransactionRow} (h : sh.violatesUnique row = false)
    (hr : r ∈ sh.transactions) {key : String} (hkey : row.idempotencyKey = some key) :
    r.idempotencyKey ≠ some key := by
  intro hr'
  have hany := List.any_eq_false.mp h r hr
  simp [collides, hkey, hr'] at hany

theorem uniqueKeys_resume {sh : Shared} (c : Call) (env : Env) (h : UniqueKeys sh) :
    UniqueKeys (resume svc sh c env).1 := by
  rcases resume_transactions svc sh c env with heq | ⟨a, p, result, -, hunique, heq⟩
  · rw [UniqueKeys, heq]
    exact h
  · rw [UniqueKeys, heq]
    intro r hr r' hr' key hkey hkey'
    rcases List.mem_append.mp hr with hr | hr <;> rcases List.mem_append.mp hr' with hr' | hr'
    · exact h r hr r' hr' key hkey hkey'
    · rw [List.mem_singleton.mp hr'] at hkey'
      exact absurd hkey (ne_key_of_unique hunique hr hkey')
    · rw [List.mem_singleton.mp hr] at hkey
      exact absurd hkey' (ne_key_of_unique hunique hr' hkey)
    · rw [List.mem_singleton.mp hr, List.mem_singleton.mp hr']

theorem filed_step (s : Calls ι Shared Call) (a : ι × Env)
    (h : UniqueKeys s.shared ∧ ∀ i, Filed s.shared (s.call i)) :
    UniqueKeys (step svc s a).shared ∧
      ∀ i, Filed (step svc s a).shared ((step svc s a).call i) := by
  obtain ⟨i, env⟩ := a
  refine ⟨uniqueKeys_resume _ env h.1, Calls.forall_step h.2 ?_ ?_⟩
  · intro key id hkey
    rcases resume_holds s.shared (s.call i) env hkey with hold | hrow
    · obtain ⟨row, hrow, hrest⟩ := h.2 i key id hold
      exact ⟨row, mem_transactions_resume _ env hrow, hrest⟩
    · exact hrow
  · intro c hc key id hkey
    obtain ⟨row, hrow, hrest⟩ := hc key id hkey
    exact ⟨row, mem_transactions_resume _ env hrow, hrest⟩

omit [DecidableEq ι] in
theorem sameRow_of_filed {s : Calls ι Shared Call} (hunique : UniqueKeys s.shared)
    (hfiled : ∀ i, Filed s.shared (s.call i)) : SameRow s := by
  have hheld : ∀ (c : Call) key x,
      c.answered = some (some key, x) → c.holds = some (some key, x) := by
    intro c key x hc
    cases c <;> first | exact hc | cases hc
  intro i j key x y hx hy
  obtain ⟨row, hrow, hkey, rfl⟩ := hfiled i key x (hheld _ key x hx)
  obtain ⟨row', hrow', hkey', rfl⟩ := hfiled j key y (hheld _ key y hy)
  exact hunique row hrow row' hrow' key hkey hkey'

/-! ## Runs -/

def initial (sh : Shared) (args : ι → Args) : Calls ι Shared Call :=
  ⟨sh, fun i ↦ .getSender (args i)⟩

/-- **One payment and one row per key.** In every interleaving all calls with one key that return,
return the id of the same row. In every interleaving of orderly steps at most one payment is
submitted for each key beyond those the network rejected. -/
theorem custodial_once_per_key {sh : Shared} (hunique : UniqueKeys sh) (hsub : sh.submitted = [])
    (hrej : sh.rejected = []) (args : ι → Args) (as : List (ι × Env)) :
    Always (step svc) SameRow (initial sh args) as ∧
      (Along (step svc) Orderly (initial sh args) as →
        Always (step svc) PaidOnce (initial sh args) as) := by
  refine ⟨?_, fun hrun ↦ ?_⟩
  · have hstart : UniqueKeys (initial sh args).shared ∧
        ∀ i, Filed (initial sh args).shared ((initial sh args).call i) :=
      ⟨hunique, fun i key id h ↦ (by cases h)⟩
    exact (always_of_step filed_step hstart as).mono fun s h ↦ sameRow_of_filed h.1 h.2
  · have hstart : PayOnce.Once (abstraction (initial sh args)) := by
      refine PayOnce.once_initial (fun i ↦ rfl) fun k ↦ ?_
      simp [abstraction, initial, live, hsub, hrej]
    exact (hrun.always once_step hstart).mono fun s h ↦ h.le_one

/-! ## Two calls that overlap -/

section Examples

/-- Both calls look the key up before either inserts its row. -/
def overlappingRun : List (Fin 2 × Env) :=
  (List.replicate 5 (0, okEnv "t1") ++ List.replicate 5 (1, okEnv "t2")) ++
    (List.replicate 2 (0, okEnv "t1") ++ List.replicate 2 (1, okEnv "t2"))

theorem custodial_overlap_pays_twice :
    ¬Always (step plainServices) (fun s ↦ PaidOnce s ∧ SameRow s)
      (initial twoUsers fun _ : Fin 2 ↦ fiveXlm) overlappingRun := by
  intro h
  have htwice : live (run (step plainServices) (initial twoUsers fun _ : Fin 2 ↦ fiveXlm)
      overlappingRun).shared "k1" = 2 := by decide
  have honce := h.last.1 "k1"
  omega

instance decidableRecorded (sh : Shared) (key : String) : Decidable (recorded sh key) :=
  inferInstanceAs (Decidable (∃ row ∈ sh.transactions, row.idempotencyKey = some key))

instance decidableOrderlyCall [Fintype ι] (s : Calls ι Shared Call) (i : ι) (env : Env) :
    DecidablePred (Call.Orderly s i env)
  | .lookup args _ => inferInstanceAs (Decidable (∀ key ∈ args.idempotencyKey,
      (orNull args.idempotencyKey).bind s.shared.selectByKey = none →
      Alone (PayOnce.Phase.Inside key) (fun j ↦ (s.call j).phase) i ∧
        (key = "" → ¬recorded s.shared key)))
  | .insert args _ result => inferInstanceAs (Decidable (args.idempotencyKey.isSome →
      env.insertError = none ∧
        ∀ row ∈ s.shared.transactions, row.stellarTxId ≠ some result.transactionId))
  | .getSender .. | .getReceiver .. | .checkLimits .. | .checkVelocity .. | .replayLimits ..
  | .reserve .. | .sendDonation .. | .campaign .. | .matching .. | .limits .. | .returned ..
  | .threw .. => inferInstanceAs (Decidable True)

instance decidableOrderly [Fintype ι] (s : Calls ι Shared Call) (a : ι × Env) :
    Decidable (Orderly s a) :=
  inferInstanceAs (Decidable ((s.call a.1).Orderly s a.1 a.2))

/-- The second call starts after the first has inserted its row: it replays. -/
theorem custodial_sequential_pays_once :
    Always (step plainServices) PaidOnce (initial twoUsers fun _ : Fin 2 ↦ fiveXlm)
      (List.replicate 9 (0, okEnv "t1") ++ List.replicate 6 (1, okEnv "t2")) :=
  (custodial_once_per_key (fun _ h ↦ absurd h List.not_mem_nil) rfl rfl _ _).2 (by decide)

end Examples

end StellarDonations.Custodial
