import Mathlib.Data.Rat.Cast.Order
import Mathlib.Tactic.Linarith
import StellarDonations.Channels.PaymentChannel

/-!
# The state of a payment channel

A channel's row holds the latest state the parties agreed on: a sequence number and a balance. An
update writes the state that follows the one it read, with the balance increased by its amount; a
dispute writes the state it is handed. Both decide on the row as they read it, and overwrite the row
as it is later, whatever it holds by then.

A run is tracked together with what was written since each call read its row. A call is
`Undisturbed` when none of these writes reaches the sequence number it is about to write, and a
dispute presents a balance the channel can have. Exactly then every accepted call increases the
sequence number, the balance stays within the capacity, and without a dispute it is the sum of the
accepted amounts (`channel_state_iff`): the row was below the number when the call read it
(`behind_begin`), and whatever it has become since is in the list. What makes the sum come out is
that an undisputed row with an unchanged sequence number is unchanged (`RowStep`).
-/

namespace StellarDonations.Channels

open Concurrency

/-! ## Accepted calls -/

section Accepted

variable {ι : Type*}

def Call.Overwrites (id : String) : Call → Prop
  | .writeUpdate u => u.channelId = id
  | .writeDisputed a => a.channelId = id
  | _ => False

instance decidableOverwrites (id : String) : DecidablePred (Call.Overwrites id)
  | .writeUpdate u => inferInstanceAs (Decidable (u.channelId = id))
  | .writeDisputed a => inferInstanceAs (Decidable (a.channelId = id))
  | .start _ | .offChainUpdate _ | .settlePayment .. | .writeSettled .. | .closePayment ..
  | .writeClosed .. | .readBack _ | .done _ | .failed _ => inferInstanceAs (Decidable False)

/-- The service accepts an update or a dispute of the channel: the row is overwritten. -/
def Accepts (id : String) (s : Calls ι Db Call) (a : ι × Env) : Prop :=
  (s.call a.1).Overwrites id ∧ a.2.dbError = none

/-- The step executes the `UPDATE` of an `updateChannel`. -/
def acceptsUpdate (s : Calls ι Db Call) (a : ι × Env) : Bool :=
  match s.call a.1 with
  | .writeUpdate _ => a.2.dbError.isNone
  | _ => false

/-- The channel and the sequence number a call holds and may still write. -/
def Call.holds : Call → Option (String × ℚ)
  | .offChainUpdate u | .writeUpdate u => some (u.channelId, u.newSequence)
  | .writeDisputed a => some (a.channelId, a.sequence)
  | _ => none

/-- The channel and the sequence number a call writes in its next step. -/
def Call.written (env : Env) : Call → Option (String × ℚ)
  | .writeUpdate u => if env.dbError = none then some (u.channelId, u.newSequence) else none
  | .writeDisputed a => if env.dbError = none then some (a.channelId, a.sequence) else none
  | _ => none

/-- What a call has missed after a step that writes: nothing, as long as it has not read its row. -/
def Call.missed (written : Option (String × ℚ)) (since : List (String × ℚ)) :
    Call → List (String × ℚ)
  | .start _ => []
  | _ => written.toList ++ since

/-- An interleaving, with the updates accepted so far and, for each call, what was written since it
read its row. -/
structure Tracked (ι : Type*) where
  calls : Calls ι Db Call
  accepted : List ι
  since : ι → List (String × ℚ)

def Tracked.step [DecidableEq ι] (pf : Platform) (t : Tracked ι) (a : ι × Env) : Tracked ι where
  calls := Channels.step pf t.calls a
  accepted := if acceptsUpdate t.calls a then a.1 :: t.accepted else t.accepted
  since j := (t.calls.call j).missed ((t.calls.call a.1).written a.2) (t.since j)

/-- The amount an operation adds to a channel. -/
def Op.amountFor (id : String) : Op → ℚ
  | .updateChannel a => if a.channelId = id then a.amount else 0
  | _ => 0

/-- The sum of the amounts of the accepted updates of a channel. -/
def Tracked.total (t : Tracked ι) (op : ι → Op) (id : String) : ℚ :=
  (t.accepted.map fun i ↦ (op i).amountFor id).sum

def Tracked.initial (db : Db) (op : ι → Op) : Tracked ι :=
  ⟨Channels.initial db op, [], fun _ ↦ []⟩

end Accepted

/-! ## What must hold -/

section Properties

variable {ι : Type*} [DecidableEq ι]

/-- No step takes a sequence number back, and an accepted call increases it. -/
def Increasing (pf : Platform) (t : Tracked ι) (a : ι × Env) : Prop :=
  ∀ id r r', t.calls.shared.channels id = some r →
    (t.step pf a).calls.shared.channels id = some r' →
      r.sequence ≤ r'.sequence ∧ (Accepts id t.calls a → r.sequence < r'.sequence)

omit [DecidableEq ι] in
/-- Every balance is within the capacity, and that of a channel never disputed is the sum of the
accepted amounts. -/
def Intact (op : ι → Op) (t : Tracked ι) : Prop :=
  ∀ id r, t.calls.shared.channels id = some r →
    (0 ≤ r.balance ∧ r.balance ≤ r.capacity) ∧ (r.disputeSeq = none → r.balance = t.total op id)

end Properties

/-- The condition on a call: no state written since it read its row reaches the sequence number it
writes, and a dispute presents a balance between zero and the capacity. -/
def Call.Undisturbed (db : Db) (since : List (String × ℚ)) (env : Env) : Call → Prop
  | .writeUpdate u =>
    env.dbError = none → ∀ w ∈ since, w.1 = u.channelId → w.2 < u.newSequence
  | .writeDisputed a =>
    env.dbError = none → (∀ w ∈ since, w.1 = a.channelId → w.2 < a.sequence) ∧
      ∀ r ∈ db.channels a.channelId, 0 ≤ a.balance ∧ a.balance ≤ r.capacity
  | _ => True

instance decidableCallUndisturbed (db : Db) (since : List (String × ℚ)) (env : Env) :
    DecidablePred (Call.Undisturbed db since env)
  | .writeUpdate u => inferInstanceAs
      (Decidable (env.dbError = none → ∀ w ∈ since, w.1 = u.channelId → w.2 < u.newSequence))
  | .writeDisputed a => inferInstanceAs
      (Decidable (env.dbError = none → (∀ w ∈ since, w.1 = a.channelId → w.2 < a.sequence) ∧
        ∀ r ∈ db.channels a.channelId, 0 ≤ a.balance ∧ a.balance ≤ r.capacity))
  | .start _ | .offChainUpdate _ | .settlePayment .. | .writeSettled .. | .closePayment ..
  | .writeClosed .. | .readBack _ | .done _ | .failed _ => inferInstanceAs (Decidable True)

/-- The condition on a step: the resumed call is `Undisturbed`. -/
def Undisturbed {ι : Type*} (t : Tracked ι) (a : ι × Env) : Prop :=
  (t.calls.call a.1).Undisturbed t.calls.shared (t.since a.1) a.2

instance decidableUndisturbed {ι : Type*} (t : Tracked ι) (a : ι × Env) :
    Decidable (Undisturbed t a) :=
  decidableCallUndisturbed t.calls.shared (t.since a.1) a.2 (t.calls.call a.1)

/-- What the condition comes to at the write: the row is still below the number. -/
def Call.UpToDate (db : Db) (env : Env) : Call → Prop
  | .writeUpdate u => env.dbError = none → ∀ r ∈ db.channels u.channelId, r.sequence < u.newSequence
  | .writeDisputed a => env.dbError = none → ∀ r ∈ db.channels a.channelId,
      r.sequence < a.sequence ∧ 0 ≤ a.balance ∧ a.balance ≤ r.capacity
  | _ => True

def UpToDate {ι : Type*} (t : Tracked ι) (a : ι × Env) : Prop :=
  (t.calls.call a.1).UpToDate t.calls.shared a.2

/-! ## Rows -/

/-- What a step makes of a row. As long as it is not disputed, its state is the same or a later one
with a whole sequence number. -/
structure RowStep (r r' : Channel) : Prop where
  capacity : r'.capacity = r.capacity
  undisputed : r'.disputeSeq = none → r.disputeSeq = none ∧
    ((r'.sequence = r.sequence ∧ r'.balance = r.balance) ∨
      r.sequence < r'.sequence ∧ ∃ n : ℤ, r'.sequence = n)

theorem RowStep.refl (r : Channel) : RowStep r r := ⟨rfl, fun h ↦ ⟨h, .inl ⟨rfl, rfl⟩⟩⟩

/-- What an update is about to write, as seen from the row. The amount is added to the balance the
row has, unless the row has moved on. -/
structure Pending (db : Db) (op : Op) (u : NewState) : Prop where
  exists_op : ∃ a, op = .updateChannel a ∧ a.channelId = u.channelId
  range : ∀ r, db.channels u.channelId = some r → 0 ≤ u.newBalance ∧ u.newBalance ≤ r.capacity
  state : ∀ r, db.channels u.channelId = some r → r.disputeSeq = none →
    (∃ n : ℤ, u.newSequence = n) ∧ u.newSequence - 1 ≤ r.sequence ∧
      (r.sequence < u.newSequence → u.newBalance = r.balance + op.amountFor u.channelId)

/-- What a call holds of its operation and the row. -/
def Call.Consistent (db : Db) (op : Op) : Call → Prop
  | .start op' => op' = op
  | .offChainUpdate u | .writeUpdate u => Pending db op u
  | _ => True

section Frame

variable {db db' : Db} {op : Op} {u : NewState}

/-- A row that moves on is out of reach of the updates that have read it. -/
theorem Pending.frame (h : Pending db op u)
    (hrows : ∀ r', db'.channels u.channelId = some r' →
      ∃ r, db.channels u.channelId = some r ∧ RowStep r r') : Pending db' op u := by
  refine ⟨h.exists_op, fun r' hr' ↦ ?_, fun r' hr' hclean ↦ ?_⟩
  · obtain ⟨r, hr, hstep⟩ := hrows r' hr'
    rw [hstep.capacity]
    exact h.range r hr
  · obtain ⟨r, hr, hstep⟩ := hrows r' hr'
    obtain ⟨hclean', hmoved⟩ := hstep.undisputed hclean
    obtain ⟨⟨n, hn⟩, hbelow, hbalance⟩ := h.state r hr hclean'
    rcases hmoved with ⟨hseq, hbal⟩ | ⟨hlt, m, hm⟩
    · rw [hseq, hbal]
      exact ⟨⟨n, hn⟩, hbelow, hbalance⟩
    · refine ⟨⟨n, hn⟩, hbelow.trans hlt.le, fun hlate ↦ ?_⟩
      -- two whole numbers cannot lie within one of each other
      have hle : n - 1 < m := by
        have : ((n - 1 : ℤ) : ℚ) < m := by
          push_cast
          rw [← hn, ← hm]
          exact hbelow.trans_lt hlt
        exact_mod_cast this
      have hlt' : m < n := by
        rw [hm, hn] at hlate
        exact_mod_cast hlate
      omega

theorem Call.Consistent.frame {c : Call} (h : c.Consistent db op)
    (hrows : ∀ id r', db'.channels id = some r' → ∃ r, db.channels id = some r ∧ RowStep r r') :
    c.Consistent db' op := by
  cases c with
  | offChainUpdate u => exact Pending.frame h (hrows u.channelId)
  | writeUpdate u => exact Pending.frame h (hrows u.channelId)
  | start op' => exact h
  | settlePayment | writeSettled | writeDisputed | closePayment | writeClosed | readBack | done
  | failed => trivial

end Frame

/-! ## The invariant -/

section Invariant

variable {ι : Type*} [DecidableEq ι] {pf : Platform} {op : ι → Op} {t : Tracked ι}

omit [DecidableEq ι] in
structure Sound (op : ι → Op) (t : Tracked ι) : Prop where
  intact : Intact op t
  whole : ∀ id r, t.calls.shared.channels id = some r → r.disputeSeq = none →
    ∃ n : ℤ, r.sequence = n
  call : ∀ i, (t.calls.call i).Consistent t.calls.shared (op i)
  behind : ∀ i id n, (t.calls.call i).holds = some (id, n) →
    ∃ r, t.calls.shared.channels id = some r ∧ (r.sequence < n ∨ (id, r.sequence) ∈ t.since i)
  reached : ∀ i, ∀ w ∈ t.since i, ∀ r, t.calls.shared.channels w.1 = some r → w.2 ≤ r.sequence

theorem consistent_begin {db : Db} {env : Env} {o : Op} {c : Call}
    (h : begin pf db env o = .ok c)
    (hrange : ∀ id r, db.channels id = some r → 0 ≤ r.balance)
    (hwhole : ∀ id r, db.channels id = some r → r.disputeSeq = none → ∃ n : ℤ, r.sequence = n) :
    c.Consistent db o := by
  cases o with
  | updateChannel a =>
    obtain ⟨channel, -, hpos, -, hread, -, hcap, -, -, rfl⟩ := begin_updateChannel.mp h
    have hrow : ∀ r, db.channels a.channelId = some r → r = channel := fun r hr ↦
      Option.some.inj (hr.symm.trans hread)
    refine ⟨⟨a, rfl, rfl⟩, fun r hr ↦ ?_, fun r hr hclean ↦ ?_⟩
    · rw [hrow r hr]
      have hbalance := hrange _ _ hread
      exact ⟨by linarith, hcap⟩
    · rw [hrow r hr] at hclean ⊢
      obtain ⟨n, hn⟩ := hwhole _ _ hread hclean
      refine ⟨⟨n + 1, by rw [hn]; push_cast; rfl⟩, by linarith, fun _ ↦ ?_⟩
      rw [Op.amountFor, if_pos rfl]
  | closeChannel id secret =>
    obtain ⟨r, -, -, -, -, -, rfl⟩ := begin_closeChannel.mp h
    split_ifs <;> trivial
  | disputeChannel a =>
    obtain ⟨r, -, -, -, -, -, -, -, -, rfl⟩ := begin_disputeChannel.mp h
    trivial
  | forceCloseChannel id secret =>
    obtain ⟨r, -, -, -, -, -, -, rfl⟩ := begin_forceCloseChannel.mp h
    split_ifs <;> trivial

/-- **What the checks are for**: an operation that has read the row goes on with a sequence number
above the row's. -/
theorem behind_begin {db : Db} {env : Env} {o : Op} {c : Call} {id : String} {n : ℚ}
    (h : begin pf db env o = .ok c) (hholds : c.holds = some (id, n)) :
    ∃ r, db.channels id = some r ∧ r.sequence < n := by
  cases o with
  | updateChannel a =>
    obtain ⟨r, -, -, -, hr, -, -, -, -, rfl⟩ := begin_updateChannel.mp h
    obtain ⟨rfl, rfl⟩ := Prod.mk.inj (Option.some.inj hholds)
    exact ⟨r, hr, lt_add_one r.sequence⟩
  | closeChannel id' secret =>
    obtain ⟨r, -, -, -, -, -, rfl⟩ := begin_closeChannel.mp h
    split_ifs at hholds <;> cases hholds
  | disputeChannel a =>
    obtain ⟨r, -, -, hr, -, hseq, -, -, -, rfl⟩ := begin_disputeChannel.mp h
    obtain ⟨rfl, rfl⟩ := Prod.mk.inj (Option.some.inj hholds)
    exact ⟨r, hr, hseq⟩
  | forceCloseChannel id' secret =>
    obtain ⟨r, -, -, -, -, -, -, rfl⟩ := begin_forceCloseChannel.mp h
    split_ifs at hholds <;> cases hholds

theorem holds_resume {db : Db} {env : Env} {c : Call} {id : String} {n : ℚ}
    (h : (resume pf db c env).2.holds = some (id, n)) :
    (c.holds = some (id, n) ∧ ∀ o, c ≠ .start o) ∨
      ∃ r, db.channels id = some r ∧ r.sequence < n := by
  cases c with
  | start o =>
    rw [resume] at h
    cases hbegin : begin pf db env o with
    | ok c =>
      rw [hbegin] at h
      exact .inr (behind_begin hbegin h)
    | error e =>
      rw [hbegin] at h
      cases h
  | offChainUpdate u =>
    rw [resume] at h
    split at h
    · exact .inl ⟨h, fun _ ho ↦ by cases ho⟩
    · cases h
    · cases h
  | writeUpdate | writeSettled | writeDisputed | writeClosed =>
    rw [resume, write] at h
    split at h <;> cases h
  | settlePayment | closePayment =>
    rw [resume, pay] at h
    split at h <;> cases h
  | readBack id =>
    rw [resume] at h
    split at h <;> cases h
  | done | failed => cases h

theorem consistent_resume {db : Db} {env : Env} {o : Op} {c : Call} (h : c.Consistent db o)
    (hrange : ∀ id r, db.channels id = some r → 0 ≤ r.balance)
    (hwhole : ∀ id r, db.channels id = some r → r.disputeSeq = none → ∃ n : ℤ, r.sequence = n) :
    (resume pf db c env).2.Consistent db o := by
  cases c with
  | start o' =>
    obtain rfl : o' = o := h
    rw [resume]
    cases hbegin : begin pf db env o' with
    | ok c => exact consistent_begin hbegin hrange hwhole
    | error e => trivial
  | offChainUpdate u =>
    rw [resume]
    split
    · exact h
    · trivial
    · trivial
  | writeUpdate | writeSettled | writeDisputed | writeClosed =>
    rw [resume, write]
    split <;> trivial
  | settlePayment | closePayment =>
    rw [resume, pay]
    split <;> trivial
  | readBack id =>
    rw [resume]
    split <;> trivial
  | done | failed => trivial

def Channel.state (r : Channel) : ℚ × ℚ × ℚ × Option ℚ :=
  (r.capacity, r.balance, r.sequence, r.disputeSeq)

def SameStates (db db' : Db) : Prop :=
  ∀ id, (db'.channels id).map Channel.state = (db.channels id).map Channel.state

theorem sameStates_update {db : Db} {id : String} {f : Channel → Channel}
    (hf : ∀ r, (f r).state = r.state) : SameStates db (db.update id f) := by
  intro id'
  rw [Db.update]
  dsimp only
  rcases eq_or_ne id' id with rfl | hne
  · rw [Function.update_self, Option.map_map]
    exact congrArg (Option.map · _) (funext hf)
  · rw [Function.update_of_ne hne]

theorem SameStates.exists_row {db db' : Db} (h : SameStates db db') {id : String} {r' : Channel}
    (hr' : db'.channels id = some r') :
    ∃ r, db.channels id = some r ∧ r'.capacity = r.capacity ∧ r'.balance = r.balance ∧
      r'.sequence = r.sequence ∧ r'.disputeSeq = r.disputeSeq := by
  have hstate := h id
  rw [hr', Option.map_some] at hstate
  obtain ⟨r, hr, hstate⟩ := Option.map_eq_some_iff.mp hstate.symm
  obtain ⟨hcap, hrest⟩ := Prod.mk.inj hstate
  obtain ⟨hbal, hrest⟩ := Prod.mk.inj hrest
  obtain ⟨hseq, hdisp⟩ := Prod.mk.inj hrest
  exact ⟨r, hr, hcap.symm, hbal.symm, hseq.symm, hdisp.symm⟩

theorem SameStates.symm {db db' : Db} (h : SameStates db db') : SameStates db' db :=
  fun id ↦ (h id).symm

/-- What a step does to the rows: it accepts an update or a dispute, or it changes no state. -/
theorem rows_resume (pf : Platform) (db : Db) (c : Call) (env : Env) :
    (∃ u, c = .writeUpdate u ∧ env.dbError = none ∧
      (resume pf db c env).1 = db.update u.channelId fun r ↦ { r with
        balance := u.newBalance, sequence := u.newSequence, signatures := u.signatures
        updatedAt := env.now }) ∨
    (∃ a, c = .writeDisputed a ∧ env.dbError = none ∧
      (resume pf db c env).1 = db.update a.channelId fun r ↦ { r with
        status := .disputed, disputedAt := some env.now, disputeSeq := some a.sequence
        balance := a.balance, sequence := a.sequence, updatedAt := env.now }) ∨
    ((∀ id, ¬(c.Overwrites id ∧ env.dbError = none)) ∧ SameStates db (resume pf db c env).1) := by
  have hsame : SameStates db db := fun _ ↦ rfl
  cases c with
  | start o =>
    refine .inr (.inr ⟨fun _ h ↦ h.1, ?_⟩)
    rw [resume]
    split <;> exact hsame
  | offChainUpdate u =>
    refine .inr (.inr ⟨fun _ h ↦ h.1, ?_⟩)
    rw [resume]
    split <;> exact hsame
  | writeUpdate u =>
    rw [resume, write]
    split
    · next e herr =>
      refine .inr (.inr ⟨fun _ h ↦ ?_, hsame⟩)
      rw [herr] at h
      cases h.2
    · next herr => exact .inl ⟨u, rfl, herr, rfl⟩
  | writeDisputed a =>
    rw [resume, write]
    split
    · next e herr =>
      refine .inr (.inr ⟨fun _ h ↦ ?_, hsame⟩)
      rw [herr] at h
      cases h.2
    · next herr => exact .inr (.inl ⟨a, rfl, herr, rfl⟩)
  | settlePayment | closePayment =>
    refine .inr (.inr ⟨fun _ h ↦ h.1, ?_⟩)
    rw [resume, pay]
    split <;> exact hsame
  | writeSettled | writeClosed =>
    refine .inr (.inr ⟨fun _ h ↦ h.1, ?_⟩)
    rw [resume, write]
    split
    · exact hsame
    · exact sameStates_update fun _ ↦ rfl
  | readBack id =>
    refine .inr (.inr ⟨fun _ h ↦ h.1, ?_⟩)
    rw [resume]
    split <;> exact hsame
  | done | failed => exact .inr (.inr ⟨fun _ h ↦ h.1, hsame⟩)

omit [DecidableEq ι] in
theorem overwrites_of_written {c : Call} {env : Env} {id : String} {n : ℚ}
    (h : c.written env = some (id, n)) : c.Overwrites id ∧ env.dbError = none := by
  cases c with
  | writeUpdate | writeDisputed =>
    rw [Call.written] at h
    split_ifs at h with herr
    exact ⟨(Prod.mk.inj (Option.some.inj h)).1, herr⟩
  | _ => cases h

theorem sequence_update {c : Call} {env : Env} {db : Db} {id id' : String} {n : ℚ}
    {f : Channel → Channel} {r : Channel} (hnumber : c.written env = some (id', n))
    (hf : ∀ r, (f r).sequence = n) (hr : db.channels id = some r) :
    ∃ r', (db.update id' f).channels id = some r' ∧
      (c.written env = some (id, r'.sequence) ∨
        (∀ n, c.written env ≠ some (id, n)) ∧ r'.sequence = r.sequence) := by
  rw [Db.update]
  dsimp only
  rcases eq_or_ne id id' with rfl | hne
  · rw [Function.update_self, hr]
    exact ⟨f r, rfl, .inl (by rw [hnumber, hf])⟩
  · rw [Function.update_of_ne hne]
    refine ⟨r, hr, .inr ⟨fun m hm ↦ ?_, rfl⟩⟩
    rw [hnumber] at hm
    exact hne (Prod.mk.inj (Option.some.inj hm)).1.symm

theorem sequence_resume (pf : Platform) (c : Call) (env : Env) {db : Db} {id : String} {r : Channel}
    (hr : db.channels id = some r) :
    ∃ r', (resume pf db c env).1.channels id = some r' ∧
      (c.written env = some (id, r'.sequence) ∨
        (∀ n, c.written env ≠ some (id, n)) ∧ r'.sequence = r.sequence) := by
  obtain ⟨u, rfl, herr, hdb⟩ | ⟨a, rfl, herr, hdb⟩ | ⟨hnone, hsame⟩ := rows_resume pf db c env
  · rw [hdb]
    exact sequence_update (if_pos herr) (fun _ ↦ rfl) hr
  · rw [hdb]
    exact sequence_update (if_pos herr) (fun _ ↦ rfl) hr
  · obtain ⟨r', hr', -, -, hseq, -⟩ := hsame.symm.exists_row hr
    exact ⟨r', hr', .inr ⟨fun n hn ↦ hnone id (overwrites_of_written hn), hseq.symm⟩⟩

/-! ### One step -/

theorem total_step (pf : Platform) (t : Tracked ι) (op : ι → Op) (a : ι × Env) (id : String) :
    (t.step pf a).total op id
      = t.total op id + if acceptsUpdate t.calls a then (op a.1).amountFor id else 0 := by
  rw [Tracked.total, Tracked.total, Tracked.step]
  dsimp only
  split_ifs
  · rw [List.map_cons, List.sum_cons, add_comm]
  · rw [add_zero]

omit [DecidableEq ι] in
theorem overwrites_of_acceptsUpdate {s : Calls ι Db Call} {a : ι × Env}
    (h : acceptsUpdate s a = true) : ∃ id, (s.call a.1).Overwrites id ∧ a.2.dbError = none := by
  rw [acceptsUpdate] at h
  split at h
  · next u hcall => exact ⟨u.channelId, by rw [hcall]; rfl, Option.isNone_iff_eq_none.mp h⟩
  · cases h

theorem since_step {j : ι} {a : ι × Env} (h : ∀ o, t.calls.call j ≠ .start o) :
    (t.step pf a).since j = ((t.calls.call a.1).written a.2).toList ++ t.since j := by
  rw [Tracked.step]
  dsimp only
  cases hcall : t.calls.call j with
  | start o => exact absurd hcall (h o)
  | _ => rfl

theorem mem_since_step {j : ι} {a : ι × Env} {w : String × ℚ} (h : w ∈ (t.step pf a).since j) :
    (t.calls.call a.1).written a.2 = some w ∨ w ∈ t.since j := by
  by_cases hstart : ∃ o, t.calls.call j = .start o
  · obtain ⟨o, hcall⟩ := hstart
    rw [Tracked.step] at h
    dsimp only at h
    rw [hcall] at h
    cases h
  · rw [since_step fun o ho ↦ hstart ⟨o, ho⟩, List.mem_append, Option.mem_toList] at h
    exact h

/-- A row that is no longer below what a call holds was written since the call read it, also after a
step. -/
theorem Sound.behind_step (h : Sound op t) (a : ι × Env) (j : ι) {id : String} {n : ℚ}
    (hholds : ((t.step pf a).calls.call j).holds = some (id, n)) :
    ∃ r, (t.step pf a).calls.shared.channels id = some r ∧
      (r.sequence < n ∨ (id, r.sequence) ∈ (t.step pf a).since j) := by
  -- a call that held the number before the step
  have hheld : (t.calls.call j).holds = some (id, n) → (∀ o, t.calls.call j ≠ .start o) →
      ∃ r, (t.step pf a).calls.shared.channels id = some r ∧
        (r.sequence < n ∨ (id, r.sequence) ∈ (t.step pf a).since j) := by
    intro hbefore hstart
    rw [since_step hstart]
    obtain ⟨r, hr, hbehind⟩ := h.behind j id n hbefore
    obtain ⟨r', hr', hwritten | ⟨-, hseq⟩⟩ := sequence_resume pf (t.calls.call a.1) a.2 hr
    · exact ⟨r', hr', .inr (List.mem_append_left _ (Option.mem_toList.mpr hwritten))⟩
    · refine ⟨r', hr', ?_⟩
      rw [hseq]
      exact hbehind.imp_right (List.mem_append_right _)
  rcases eq_or_ne j a.1 with rfl | hj
  · have hcall : (t.step pf a).calls.call a.1
        = (resume pf t.calls.shared (t.calls.call a.1) a.2).2 := Calls.step_call_self ..
    rw [hcall] at hholds
    rcases holds_resume hholds with ⟨hbefore, hstart⟩ | ⟨r, hr, hlt⟩
    · exact hheld hbefore hstart
    · -- the step that reads the row writes none
      obtain ⟨r', hr', hwritten | ⟨-, hseq⟩⟩ := sequence_resume pf (t.calls.call a.1) a.2 hr
      · have hover := overwrites_of_written hwritten
        cases hc : t.calls.call a.1 <;> rw [hc] at hholds hover <;> try exact hover.1.elim
        all_goals
          rw [resume, write, hover.2] at hholds
          cases hholds
      · exact ⟨r', hr', .inl (hseq.trans_lt hlt)⟩
  · have hcall : (t.step pf a).calls.call j = t.calls.call j := Calls.step_call_of_ne _ _ hj
    rw [hcall] at hholds
    exact hheld hholds fun o ho ↦ by rw [ho] at hholds; cases hholds

theorem Sound.reached_step (h : Sound op t) {a : ι × Env} (hinc : Increasing pf t a) (j : ι)
    {w : String × ℚ} (hw : w ∈ (t.step pf a).since j) {r' : Channel}
    (hr' : (t.step pf a).calls.shared.channels w.1 = some r')
    (hrow : ∃ r, t.calls.shared.channels w.1 = some r) : w.2 ≤ r'.sequence := by
  obtain ⟨r, hr⟩ := hrow
  rcases mem_since_step hw with hwritten | hbefore
  · obtain ⟨r'', hr'', hnumber | ⟨hnone, -⟩⟩ := sequence_resume pf (t.calls.call a.1) a.2 hr
    · obtain rfl : r' = r'' := Option.some.inj (hr'.symm.trans hr'')
      rw [hwritten] at hnumber
      exact (congrArg Prod.snd (Option.some.inj hnumber)).le
    · exact absurd hwritten (hnone w.2)
  · exact (h.reached j w hbefore r hr).trans (hinc w.1 r r' hr hr').1

theorem Sound.of_rows (h : Sound op t) {a : ι × Env}
    (hrows : ∀ id r', (t.step pf a).calls.shared.channels id = some r' →
      ∃ r, t.calls.shared.channels id = some r ∧ RowStep r r')
    (hinc : Increasing pf t a) (hintact : Intact op (t.step pf a)) : Sound op (t.step pf a) := by
  have hrange : ∀ id r, t.calls.shared.channels id = some r → 0 ≤ r.balance :=
    fun id r hr ↦ (h.intact id r hr).1.1
  refine ⟨hintact, fun id r' hr' hclean ↦ ?_, fun j ↦ ?_, fun j id n ↦ h.behind_step a j,
    fun j w hw r' hr' ↦ h.reached_step hinc j hw hr' ?_⟩
  · obtain ⟨r, hr, hstep⟩ := hrows id r' hr'
    obtain ⟨hclean', ⟨hseq, -⟩ | ⟨-, hwhole⟩⟩ := hstep.undisputed hclean
    · rw [hseq]
      exact h.whole id r hr hclean'
    · exact hwhole
  · rcases eq_or_ne j a.1 with rfl | hj
    · have hresumed : (resume pf t.calls.shared (t.calls.call a.1) a.2).2.Consistent
          t.calls.shared (op a.1) := consistent_resume (h.call a.1) hrange h.whole
      have hself := hresumed.frame hrows
      have hcall : (t.step pf a).calls.call a.1
          = (resume pf t.calls.shared (t.calls.call a.1) a.2).2 := Calls.step_call_self ..
      rwa [hcall]
    · have hcall : (t.step pf a).calls.call j = t.calls.call j := Calls.step_call_of_ne _ _ hj
      rw [hcall]
      exact (h.call j).frame hrows
  · obtain ⟨r, hr, -⟩ := hrows w.1 r' hr'
    exact ⟨r, hr⟩

theorem increasing_of_update {a : ι × Env} {channelId : String} {f : Channel → Channel}
    (hdb : (t.step pf a).calls.shared = t.calls.shared.update channelId f)
    (hover : ∀ id, (t.calls.call a.1).Overwrites id → channelId = id)
    (hlt : ∀ r, t.calls.shared.channels channelId = some r → r.sequence < (f r).sequence) :
    Increasing pf t a := by
  intro id r r' hr hr'
  rw [hdb] at hr'
  rcases update_channels hr' with ⟨rfl, r₀, hr₀, rfl⟩ | ⟨hne, hr'⟩
  · obtain rfl : r = r₀ := Option.some.inj (hr.symm.trans hr₀)
    exact ⟨(hlt r hr).le, fun _ ↦ hlt r hr⟩
  · obtain rfl : r = r' := Option.some.inj (hr.symm.trans hr')
    exact ⟨le_rfl, fun hacc ↦ absurd (hover id hacc.1).symm hne⟩

omit [DecidableEq ι] in
/-- A call that nobody disturbed since it read its row is up to date at its write. -/
theorem Sound.upToDate (h : Sound op t) {a : ι × Env} (hcond : Undisturbed t a) : UpToDate t a := by
  obtain ⟨i, env⟩ := a
  rw [Undisturbed] at hcond
  rw [UpToDate]
  dsimp only at hcond ⊢
  have hbehind := h.behind i
  cases hcall : t.calls.call i with
  | writeUpdate u =>
    rw [hcall] at hcond hbehind
    intro herr r hr
    obtain ⟨r', hr', hlt⟩ := hbehind u.channelId u.newSequence rfl
    obtain rfl : r = r' := Option.some.inj (hr.symm.trans hr')
    exact hlt.elim id fun hmem ↦ hcond herr _ hmem rfl
  | writeDisputed d =>
    rw [hcall] at hcond hbehind
    intro herr r hr
    obtain ⟨r', hr', hlt⟩ := hbehind d.channelId d.sequence rfl
    obtain rfl : r = r' := Option.some.inj (hr.symm.trans hr')
    obtain ⟨hbelow, hbalance⟩ := hcond herr
    exact ⟨hlt.elim id fun hmem ↦ hbelow _ hmem rfl, hbalance r hr⟩
  | start | offChainUpdate | settlePayment | writeSettled | closePayment | writeClosed | readBack
  | done | failed => trivial

omit [DecidableEq ι] in
/-- A call that is up to date at its write was not disturbed: the row has all that was written. -/
theorem Sound.undisturbed (h : Sound op t) {a : ι × Env} (hcond : UpToDate t a) :
    Undisturbed t a := by
  obtain ⟨i, env⟩ := a
  rw [UpToDate] at hcond
  rw [Undisturbed]
  dsimp only at hcond ⊢
  have hbehind := h.behind i
  cases hcall : t.calls.call i with
  | writeUpdate u =>
    rw [hcall] at hcond hbehind
    intro herr w hw hid
    obtain ⟨r, hr, -⟩ := hbehind u.channelId u.newSequence rfl
    exact (h.reached i w hw r (hid ▸ hr)).trans_lt (hcond herr r hr)
  | writeDisputed d =>
    rw [hcall] at hcond hbehind
    intro herr
    refine ⟨fun w hw hid ↦ ?_, fun r hr ↦ (hcond herr r hr).2⟩
    obtain ⟨r, hr, -⟩ := hbehind d.channelId d.sequence rfl
    exact (h.reached i w hw r (hid ▸ hr)).trans_lt (hcond herr r hr).1
  | start | offChainUpdate | settlePayment | writeSettled | closePayment | writeClosed | readBack
  | done | failed => trivial

/-- **One step.** A step that finds the rows up to date keeps the invariant and takes no sequence
number back. -/
theorem Sound.step (h : Sound op t) {a : ι × Env} (hcond : UpToDate t a) :
    Sound op (t.step pf a) ∧ Increasing pf t a := by
  obtain ⟨i, env⟩ := a
  have hcons := h.call i
  rw [UpToDate] at hcond
  dsimp only at hcond
  have hshared : (t.step pf (i, env)).calls.shared
      = (resume pf t.calls.shared (t.calls.call i) env).1 := rfl
  obtain ⟨u, hcall, herr, hdb⟩ | ⟨a, hcall, herr, hdb⟩ | ⟨hnone, hsame⟩ :=
    rows_resume pf t.calls.shared (t.calls.call i) env
  · -- an accepted update
    rw [hcall] at hcons hcond
    have hlt := hcond herr
    have haccepts : acceptsUpdate t.calls (i, env) = true := by
      rw [acceptsUpdate, hcall]
      exact Option.isNone_iff_eq_none.mpr herr
    obtain ⟨a, ha, haid⟩ := hcons.exists_op
    have hinc : Increasing pf t (i, env) :=
      increasing_of_update (hshared.trans hdb) (fun id hover ↦ by rwa [hcall] at hover) hlt
    refine ⟨h.of_rows (fun id r' hr' ↦ ?_) hinc fun id r' hr' ↦ ?_, hinc⟩
    · rw [hshared, hdb] at hr'
      rcases update_channels hr' with ⟨rfl, r, hr, rfl⟩ | ⟨-, hr⟩
      · exact ⟨r, hr, rfl, fun hclean ↦
          ⟨hclean, .inr ⟨hlt r hr, (hcons.state r hr hclean).1⟩⟩⟩
      · exact ⟨r', hr, .refl r'⟩
    · rw [hshared, hdb] at hr'
      rw [total_step, haccepts, if_pos rfl]
      rcases update_channels hr' with ⟨rfl, r, hr, rfl⟩ | ⟨hne, hr⟩
      · refine ⟨hcons.range r hr, fun hclean ↦ ?_⟩
        rw [← (h.intact _ r hr).2 hclean]
        exact (hcons.state r hr hclean).2.2 (hlt r hr)
      · obtain ⟨hrange, htotal⟩ := h.intact id r' hr
        refine ⟨hrange, fun hclean ↦ ?_⟩
        rw [ha, Op.amountFor, if_neg (haid.trans_ne hne.symm), add_zero]
        exact htotal hclean
  · -- an accepted dispute
    rw [hcall] at hcond
    have hpresented := hcond herr
    have hnone : acceptsUpdate t.calls (i, env) = false := by rw [acceptsUpdate, hcall]
    have hinc : Increasing pf t (i, env) :=
      increasing_of_update (hshared.trans hdb) (fun id hover ↦ by rwa [hcall] at hover)
        fun r hr ↦ (hpresented r hr).1
    refine ⟨h.of_rows (fun id r' hr' ↦ ?_) hinc fun id r' hr' ↦ ?_, hinc⟩
    · rw [hshared, hdb] at hr'
      rcases update_channels hr' with ⟨rfl, r, hr, rfl⟩ | ⟨-, hr⟩
      · exact ⟨r, hr, rfl, fun hclean ↦ absurd hclean (Option.some_ne_none _)⟩
      · exact ⟨r', hr, .refl r'⟩
    · rw [hshared, hdb] at hr'
      rw [total_step, hnone, if_neg Bool.false_ne_true, add_zero]
      rcases update_channels hr' with ⟨rfl, r, hr, rfl⟩ | ⟨-, hr⟩
      · exact ⟨(hpresented r hr).2, fun hclean ↦ absurd hclean (Option.some_ne_none _)⟩
      · exact h.intact id r' hr
  · -- no state is written
    have hupdate : acceptsUpdate t.calls (i, env) = false := by
      refine Bool.eq_false_of_not_eq_true fun hacc ↦ ?_
      obtain ⟨id, hover⟩ := overwrites_of_acceptsUpdate hacc
      exact hnone id hover
    have hinc : Increasing pf t (i, env) := by
      intro id r r' hr hr'
      obtain ⟨r₀, hr₀, -, -, hseq, -⟩ := hsame.exists_row hr'
      obtain rfl : r = r₀ := Option.some.inj (hr.symm.trans hr₀)
      exact ⟨hseq.ge, fun hacc ↦ absurd hacc (hnone id)⟩
    refine ⟨h.of_rows (fun id r' hr' ↦ ?_) hinc fun id r' hr' ↦ ?_, hinc⟩
    · obtain ⟨r, hr, hcap, hbal, hseq, hdisp⟩ := hsame.exists_row hr'
      exact ⟨r, hr, hcap, fun hclean ↦ ⟨hdisp ▸ hclean, .inl ⟨hseq, hbal⟩⟩⟩
    · obtain ⟨r, hr, hcap, hbal, hseq, hdisp⟩ := hsame.exists_row hr'
      rw [total_step, hupdate, if_neg Bool.false_ne_true, add_zero, hcap, hbal, hdisp]
      exact h.intact id r hr

theorem upToDate_of_increasing {a : ι × Env} (hinc : Increasing pf t a)
    (hintact : Intact op (t.step pf a)) : UpToDate t a := by
  obtain ⟨i, env⟩ := a
  have hshared : (t.step pf (i, env)).calls.shared
      = (resume pf t.calls.shared (t.calls.call i) env).1 := rfl
  rw [UpToDate]
  dsimp only
  cases hcall : t.calls.call i with
  | writeUpdate u =>
    intro herr r hr
    have hdb : (t.step pf (i, env)).calls.shared.channels u.channelId = some { r with
        balance := u.newBalance, sequence := u.newSequence, signatures := u.signatures
        updatedAt := env.now } := by
      rw [hshared, hcall, resume, write, herr]
      dsimp only [Db.update]
      rw [Function.update_self, Option.mem_def.mp hr, Option.map_some]
    exact (hinc u.channelId r _ hr hdb).2 ⟨by rw [hcall]; rfl, herr⟩
  | writeDisputed a =>
    intro herr r hr
    have hdb : (t.step pf (i, env)).calls.shared.channels a.channelId = some { r with
        status := .disputed, disputedAt := some env.now, disputeSeq := some a.sequence
        balance := a.balance, sequence := a.sequence, updatedAt := env.now } := by
      rw [hshared, hcall, resume, write, herr]
      dsimp only [Db.update]
      rw [Function.update_self, Option.mem_def.mp hr, Option.map_some]
    exact ⟨(hinc a.channelId r _ hr hdb).2 ⟨by rw [hcall]; rfl, herr⟩, (hintact _ _ hdb).1⟩
  | start | offChainUpdate | settlePayment | writeSettled | closePayment | writeClosed | readBack
  | done | failed => trivial

end Invariant

/-! ## Runs -/

section Runs

variable {ι : Type*} [DecidableEq ι]

omit [DecidableEq ι] in
theorem sound_initial {db : Db} (hdb : Opened db) (op : ι → Op) :
    Sound op (Tracked.initial db op) := by
  refine ⟨fun id channel hchannel ↦ ?_, fun id channel hchannel _ ↦ ?_, fun i ↦ rfl,
    fun _ _ _ h ↦ absurd h (by rintro ⟨⟩), fun _ _ hw ↦ absurd hw List.not_mem_nil⟩
  · obtain ⟨a, escrow, now, hopen⟩ := hdb.made id channel hchannel
    obtain ⟨hzero, hpos, -⟩ := openChannel_eq_ok hopen
    rw [hzero]
    exact ⟨⟨le_rfl, hpos.le⟩, fun _ ↦ rfl⟩
  · obtain ⟨a, escrow, now, hopen⟩ := hdb.made id channel hchannel
    exact ⟨0, by rw [(openChannel_eq_ok hopen).2.2]; rfl⟩

/-- **Channel state integrity.** In every interleaving of operations on channels as they were
opened, each accepted call increases the channel's sequence number and none is ever taken back, each
balance stays between zero and the capacity, and that of an undisputed channel is the sum of the
accepted amounts: exactly in the runs in which nothing written between an accepted call's read and
its `UPDATE` reaches the sequence number it writes, and disputes present balances within the
capacity. -/
theorem channel_state_iff (pf : Platform) {db : Db} (hdb : Opened db) (op : ι → Op)
    (as : List (ι × Env)) :
    Along (Tracked.step pf) (Increasing pf) (Tracked.initial db op) as ∧
        Always (Tracked.step pf) (Intact op) (Tracked.initial db op) as ↔
      Along (Tracked.step pf) Undisturbed (Tracked.initial db op) as := by
  have hinitial := sound_initial hdb op
  rw [always_iff_along_next, and_left_comm, ← along_and]
  rw [and_iff_right hinitial.intact]
  refine (along_congr (fun t a h ↦ ?_) (fun t a h hcond ↦ (h.step (h.upToDate hcond)).1) hinitial
    as).symm
  constructor
  · intro hcond
    obtain ⟨hsound, hinc⟩ : Sound op (t.step pf a) ∧ Increasing pf t a :=
      h.step (h.upToDate hcond)
    exact ⟨hinc, hsound.intact⟩
  · intro hkept
    exact h.undisturbed (upToDate_of_increasing hkept.1 hkept.2)

end Runs

section Examples

def twoUpdates (_ : Fin 2) : Op := fiveXlmUpdate

def disputePlatform : Platform where
  hmacHex key message :=
    if (key, message) = ("SSENDER", "channel:ch1:seq:1:balance:50") then
      "e6fd70f8eba42407a4eb859898f78bc90ac1162ab2a20ce038f5432ef5966005"
    else if (key, message) = ("SRECEIVER", "channel:ch1:seq:1:balance:50") then
      "b13b51b77e2528b4ff0a6be56461b402e863598e83f71a5002985ff4a5f2da21"
    else ""
  showNumber x := toString x.num

/-- A state beyond the capacity, signed by both parties. -/
def fiftyXlmDispute (_ : Fin 1) : Op := .disputeChannel
  { channelId := "ch1", sequence := 1, balance := 50
    senderSig := some "e6fd70f8eba42407a4eb859898f78bc90ac1162ab2a20ce038f5432ef5966005"
    receiverSig := some "b13b51b77e2528b4ff0a6be56461b402e863598e83f71a5002985ff4a5f2da21"
    senderSecret := some "SSENDER", receiverSecret := some "SRECEIVER" }

/-- Both calls read the row before either of them writes. -/
def updatesOverlap : List (Fin 2 × Env) :=
  [(0, okEnv), (1, okEnv), (0, okEnv), (1, okEnv), (0, okEnv), (1, okEnv)]

theorem run_updatesOverlap :
    ((run (Tracked.step fixedPlatform) (Tracked.initial tenXlmDb twoUpdates)
        updatesOverlap).calls.shared.channels "ch1").map
          (fun r ↦ (r.sequence, r.balance, r.disputeSeq)) = some (1, 5, none) ∧
      (run (Tracked.step fixedPlatform) (Tracked.initial tenXlmDb twoUpdates)
        updatesOverlap).total twoUpdates "ch1" = 10 := by
  decide +kernel

/-- Two updates that overlap leave a balance of 5 for accepted amounts of 10, and the second does
not increase the sequence number; a dispute brings a channel of 10 XLM to a balance of 50. -/
theorem channel_state_lost : Opened tenXlmDb ∧
    ¬Along (Tracked.step fixedPlatform) (Increasing fixedPlatform)
      (Tracked.initial tenXlmDb twoUpdates) updatesOverlap ∧
    ¬Always (Tracked.step fixedPlatform) (Intact twoUpdates)
      (Tracked.initial tenXlmDb twoUpdates) updatesOverlap ∧
    ¬Always (Tracked.step disputePlatform) (Intact fiftyXlmDispute)
      (Tracked.initial tenXlmDb fiftyXlmDispute) [(0, okEnv), (0, okEnv)] := by
  obtain ⟨r₁, hr₁, hstate⟩ := Option.map_eq_some_iff.mp run_updatesOverlap.1
  obtain ⟨hseq₁, hstate⟩ := Prod.mk.inj hstate
  obtain ⟨hbalance₁, hclean₁⟩ := Prod.mk.inj hstate
  refine ⟨opened_tenXlmDb, fun h ↦ ?_, fun h ↦ ?_, fun h ↦ ?_⟩
  · obtain ⟨r, hr, hseq⟩ : ∃ r, (run (Tracked.step fixedPlatform)
        (Tracked.initial tenXlmDb twoUpdates) (updatesOverlap.take 5)).calls.shared.channels "ch1"
          = some r ∧ r.sequence = 1 :=
      Option.map_eq_some_iff.mp (by decide +kernel)
    have hlt := (h.2.2.2.2.2.1 "ch1" r r₁ hr hr₁).2 ⟨by decide +kernel, rfl⟩
    rw [hseq, hseq₁] at hlt
    exact lt_irrefl _ hlt
  · have hsum := (h.last "ch1" r₁ hr₁).2 hclean₁
    rw [hbalance₁, run_updatesOverlap.2] at hsum
    exact absurd hsum (by decide +kernel)
  · obtain ⟨r, hr, hstate⟩ : ∃ r, (run (Tracked.step disputePlatform)
        (Tracked.initial tenXlmDb fiftyXlmDispute) [(0, okEnv), (0, okEnv)]).calls.shared.channels
          "ch1" = some r ∧ (r.balance, r.capacity) = (50, 10) :=
      Option.map_eq_some_iff.mp (by decide +kernel)
    obtain ⟨hbalance, hcapacity⟩ := Prod.mk.inj hstate
    have hrange := (h.last "ch1" r hr).1.2
    rw [hbalance, hcapacity] at hrange
    exact absurd hrange (by decide +kernel)

/-- One update on its own keeps the state. -/
theorem channel_state_iff_at :
    Along (Tracked.step fixedPlatform) (Increasing fixedPlatform)
        (Tracked.initial tenXlmDb twoUpdates) (List.replicate 4 (0, okEnv)) ∧
      Always (Tracked.step fixedPlatform) (Intact twoUpdates)
        (Tracked.initial tenXlmDb twoUpdates) (List.replicate 4 (0, okEnv)) :=
  (channel_state_iff fixedPlatform opened_tenXlmDb twoUpdates _).mpr (by decide +kernel)

end Examples

end StellarDonations.Channels
