import StellarDonations.Transactions.Memory

/-!
# The life of a record's status

Every operation of the model that changes a status goes through the state machine, except the
reconciliation service: `resolveDiscrepancy` writes the status it is given into the object, without
a check and without a new `statusUpdatedAt`. And `create` does not look whether the id it is given
is in use. Apart from these two the status of a record is a declared state in every run, and changes
along the transitions only, each time with a later `statusUpdatedAt` (`lawful_step`).
-/

namespace StellarDonations.Transactions

open Concurrency JsString

/-! ## What must hold -/

/-- Every stored status is a declared state. -/
def Memory.Declared (m : Memory) : Prop :=
  ∀ id tx, m.find id = some tx → isValidState tx.status = true

/-- A status that differs between two memories has changed along a transition, and at a later
time. -/
def StatusesAdvance (m m' : Memory) : Prop :=
  ∀ id old new, m.find id = some old → m'.find id = some new → old.status ≠ new.status →
    ∃ s t : TransactionState, s.name = old.status ∧ t.name = new.status ∧
      t ∈ validTransitions s ∧ old.statusUpdatedAt < new.statusUpdatedAt

def StateMachineKept (m : Memory) (as : List Action) : Prop :=
  Always Memory.step Memory.Declared m as ∧
    Along Memory.step (fun m a ↦ StatusesAdvance m (m.step a)) m as

def Action.loads : Action → Bool
  | beginReload | select _ | finishLoad => true
  | _ => false

/-- The condition on an operation: a discrepancy is resolved with the status that the record has,
and a record is not created under an id that is in use. -/
def Operation.Lawful (m : Memory) : Operation → Prop
  | .resolveDiscrepancy id newStatus => ∀ tx ∈ m.find id, tx.status = newStatus
  | .create data uuid => (orNull data.idempotencyKey).bind m.index.lookup = none →
      m.find (orElse data.id uuid) = none
  | _ => True

/-- The condition on a step: an operation is `Lawful`. -/
def Action.Lawful (m : Memory) : Action → Prop
  | call _ op => op.Lawful m
  | _ => True

section Decidable

variable (m : Memory)

instance decidableOperationLawful : DecidablePred (Operation.Lawful m)
  | .resolveDiscrepancy id newStatus =>
    inferInstanceAs (Decidable (∀ tx ∈ m.find id, tx.status = newStatus))
  | .create data uuid =>
    inferInstanceAs (Decidable ((orNull data.idempotencyKey).bind m.index.lookup = none →
      m.find (orElse data.id uuid) = none))
  | .updateStatus .. | .updateFeeBumpData .. | .updateApprovals .. | .updateMatchedDonationId ..
  | .updateNftData .. | .flagDiscrepancy .. => inferInstanceAs (Decidable True)

instance decidableActionLawful : DecidablePred (Action.Lawful m)
  | .call _ op => decidableOperationLawful m op
  | .edit .. | .execute .. | .beginReload | .select _ | .finishLoad =>
    inferInstanceAs (Decidable True)

end Decidable

/-! ## One step -/

theorem normalizeState_name (s : TransactionState) : normalizeState (some s.name) = s.name := by
  cases s <;> decide

theorem Edit.status_apply (e : Edit) (tx : Object) : (e.apply tx).status = tx.status := by
  cases e <;> rfl

namespace Memory

variable {m : Memory}

theorem find_modify_eq_some {r : ℕ} {f : Object → Object} {id : String}
    {new : Object} (h : (m.modify r f).find id = some new) :
    ∃ old, m.find id = some old ∧ (new = old ∨ m.store.lookup id = some r ∧ new = f old) := by
  rw [find_modify] at h
  split_ifs at h with hr
  · obtain ⟨old, hold, rfl⟩ := Option.map_eq_some_iff.mp h
    exact ⟨old, hold, .inr ⟨hr, rfl⟩⟩
  · exact ⟨new, h, .inl rfl⟩

/-- It is enough that every record found afterwards is as before, has advanced, or is new. -/
theorem statusesAdvance_of_found {m' : Memory} (hdeclared : m.Declared)
    (hfound : ∀ id new, m'.find id = some new →
      (∃ old, m.find id = some old ∧ Advances old new) ∨
        m.find id = none ∧ isValidState new.status = true) :
    m'.Declared ∧ StatusesAdvance m m' := by
  refine ⟨fun id new hnew ↦ ?_, fun id old new hfind hnew hne ↦ ?_⟩
  · rcases hfound id new hnew with ⟨old, hfind, hsame | ⟨s, t, -, ht, -, -⟩⟩ | ⟨-, hvalid⟩
    · rw [hsame]
      exact hdeclared id old hfind
    · rw [← ht]
      exact isValidState_name t
    · exact hvalid
  · rcases hfound id new hnew with ⟨old', hfind', hadvances⟩ | ⟨hnone, -⟩
    · rw [hfind] at hfind'
      cases hfind'
      rcases hadvances with hsame | ⟨s, t, hs, ht, htransition, hlater⟩
      · exact absurd hsame.symm hne
      · obtain ⟨s', hs'⟩ := isValidState_iff.mp (hdeclared id old hfind)
        rw [← hs', normalizeState_name] at hs
        obtain rfl := TransactionState.name_injective hs
        refine ⟨s, t, hs', ht, ?_, hlater⟩
        rcases Bool.or_eq_true_iff.mp htransition with heq | hmem
        · rw [← of_decide_eq_true heq, hs'] at ht
          exact absurd ht hne
        · exact of_decide_eq_true hmem
    · rw [hfind] at hnone
      cases hnone

/-- **One step.** A lawful step leaves every stored status declared, and changes statuses along the
transitions only. -/
theorem lawful_step (hm : WellFormed m) (hdeclared : m.Declared) {a : Action}
    (hload : a.loads = false) (hlawful : a.Lawful m) :
    (m.step a).Declared ∧ StatusesAdvance m (m.step a) := by
  cases a with
  | call now op =>
    have heffect := effect_step m now op
    generalize m.step (.call now op) = m' at heffect ⊢
    refine statusesAdvance_of_found hdeclared fun id new hnew ↦ ?_
    cases heffect with
    | unchanged => exact .inl ⟨new, hnew, .inl rfl⟩
    | created status hop hkey =>
      subst hop
      rw [find_insertNew hm] at hnew
      split_ifs at hnew with hid
      · cases hnew
        right
        rw [hid]
        exact ⟨hlawful hkey, isValidState_name status⟩
      · exact .inl ⟨new, hnew, .inl rfl⟩
    | @saved old new' hop hfind hid hkey hstatus =>
      rw [find_save hm] at hnew
      split_ifs at hnew with heq
      · cases hnew
        rw [heq]
        exact .inl ⟨old, hfind, hstatus⟩
      · exact .inl ⟨new, hnew, .inl rfl⟩
    | modified hop hstore hid hkey hstatus =>
      obtain ⟨old, hold, rfl | ⟨hr, rfl⟩⟩ := find_modify_eq_some hnew
      · exact .inl ⟨new, hold, .inl rfl⟩
      · refine .inl ⟨old, hold, .inl ?_⟩
        rcases hstatus old with hsame | ⟨newStatus, hop', hnewStatus⟩
        · exact hsame
        · -- the object is the one that the discrepancy was resolved for
          have hid' : id = op.id := by
            obtain ⟨tx, hobj, htx⟩ := hm.stored _ _ hr
            obtain ⟨tx', hobj', htx'⟩ := hm.stored _ _ hstore
            rw [hobj] at hobj'
            cases hobj'
            exact htx.symm.trans htx'
          rw [hid'] at hold
          have hcondition : op.Lawful m := hlawful
          rw [hop'] at hcondition
          exact hnewStatus.trans (hcondition old hold).symm
  | edit r e =>
    refine statusesAdvance_of_found hdeclared fun id new hnew ↦ ?_
    obtain ⟨old, hold, rfl | ⟨-, rfl⟩⟩ := find_modify_eq_some hnew
    · exact .inl ⟨new, hold, .inl rfl⟩
    · exact .inl ⟨old, hold, .inl (e.status_apply old)⟩
  | execute n failure =>
    rw [step]
    exact statusesAdvance_of_found hdeclared fun id new hnew ↦
      .inl ⟨new, find_execute m n failure ▸ hnew, .inl rfl⟩
  | beginReload | select | finishLoad => cases hload

end Memory

/-! ## Runs -/

/-- **Statuses follow the state machine.** In every run of operations, changes in place and writes,
with any failures, in which discrepancies are resolved with the status that the record has and
records are created under ids that are not in use, every stored status is a declared state, and each
change of a status is a transition with a later `statusUpdatedAt`. -/
theorem statuses_follow_state_machine {m : Memory} (hm : m.WellFormed) (hdeclared : m.Declared)
    (as : List Action)
    (hlawful : Along Memory.step (fun m a ↦ a.loads = false ∧ a.Lawful m) m as) :
    StateMachineKept m as := by
  have hinv : Always Memory.step (fun m ↦ m.WellFormed ∧ m.Declared) m as := by
    refine hlawful.always (fun m a h hC ↦ ?_) ⟨hm, hdeclared⟩
    exact ⟨Memory.wellFormed_step m a h.1, (Memory.lawful_step h.1 h.2 hC.1 hC.2).1⟩
  refine ⟨hinv.mono fun m h ↦ h.2, hlawful.of_always (fun m a h hC ↦ ?_) hinv⟩
  exact (Memory.lawful_step h.1 h.2 hC.1 hC.2).2

/-! ## Fixed runs -/

section LifecycleExamples

def Memory.empty : Memory := { Memory.starting [] with load := .idle }

def plainDonation : NewTransaction := { amount := 10, donor := some "GDONOR", recipient := none }

def failedDonation : List Action :=
  [.call 0 (.create plainDonation "tx1"), .call 1 (.updateStatus "tx1" "failed" {})]

/-- Resolving a discrepancy takes a failed record to `confirmed`, and keeps its time. -/
theorem resolveDiscrepancy_leaves_failed :
    ¬StateMachineKept Memory.empty
      (failedDonation ++ [.call 2 (.resolveDiscrepancy "tx1" "confirmed")]) := by
  rintro ⟨-, -, -, hadvance, -⟩
  have hbefore : ((run Memory.step Memory.empty failedDonation).find "tx1").map
      (fun tx ↦ (tx.status, tx.statusUpdatedAt)) = some ("failed", 1) := by
    decide
  have hafter : ((run Memory.step Memory.empty (failedDonation
      ++ [.call 2 (.resolveDiscrepancy "tx1" "confirmed")])).find "tx1").map
        (fun tx ↦ (tx.status, tx.statusUpdatedAt)) = some ("confirmed", 1) := by
    decide
  obtain ⟨old, hold, hold'⟩ := Option.map_eq_some_iff.mp hbefore
  obtain ⟨new, hnew, hnew'⟩ := Option.map_eq_some_iff.mp hafter
  obtain ⟨hfailed, htime⟩ := Prod.mk.inj hold'
  obtain ⟨hconfirmed, htime'⟩ := Prod.mk.inj hnew'
  obtain ⟨-, -, -, -, -, hlater⟩ := hadvance "tx1" old new hold hnew
    (by rw [hfailed, hconfirmed]; decide)
  rw [htime, htime'] at hlater
  exact absurd hlater (by decide)

/-- A donation that is confirmed, and then updated without a change of its status. -/
theorem statuses_follow_state_machine_confirmed :
    StateMachineKept Memory.empty
      [.call 0 (.create plainDonation "tx1"),
        .call 1 (.updateStatus "tx1" "confirmed" { transactionId := some "hash" }),
        .call 2 (.flagDiscrepancy "tx1" "amount"),
        .call 3 (.resolveDiscrepancy "tx1" "confirmed")] :=
  statuses_follow_state_machine ⟨fun _ _ ↦ rfl, by rintro id r ⟨⟩, by rintro k r ⟨⟩⟩
    (by rintro id tx ⟨⟩) _ (by decide)

end LifecycleExamples

end StellarDonations.Transactions
