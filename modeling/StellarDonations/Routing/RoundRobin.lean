import Mathlib.Data.Int.CardIntervalMod
import Mathlib.Data.Nat.Periodic
import StellarDonations.Concurrency.Interleaving
import StellarDonations.Errors

/-!
# Round-robin routing

`route` with the strategy `round-robin`, on one pool. A call stops at `listMembers`, at the
`SELECT` of the index, at the statement that writes the next one, and at the decision it records.
Whatever the index is, a call selects a member of the pool it has loaded (`always_sound`). The
members take turns as long as each call writes while the index is still the one it has read; two
calls that read the same index select the same member (`fair_unless_overlapping`).
-/

namespace StellarDonations.RoundRobin

open Concurrency Finset

/-! ## The calls -/

/-- Where a call is suspended, or how it has ended. A change of the members ends with a `reset`. -/
inductive Call where
  | resetting
  | reset
  /-- On `listMembers`. -/
  | listing
  /-- On the `SELECT` of `getIndex`. -/
  | reading (pool : List String)
  /-- On the `INSERT … ON CONFLICT` of `incrementAndWrap`. -/
  | writing (pool : List String) (current : ℕ)
  /-- On `routingDecisionRepo.create`. -/
  | recording (pool : List String) (selectedId : String)
  | routed (pool : List String) (recipientId : String)
  | failed (error : AppError)
  deriving DecidableEq

/-- The errors of a pool that is not there and of one without members. -/
def notFound (poolName : String) : AppError :=
  .notFound (.other "POOL_NOT_FOUND") ("Pool '" ++ poolName ++ "' not found")

@[inherit_doc notFound]
def empty (poolName : String) : AppError :=
  .businessLogic (.other "POOL_EMPTY")
    ("Pool '" ++ poolName ++ "' is empty — no recipients available for routing")

def select (pool : List String) (currentIndex : ℕ) : Except AppError String :=
  let safeIndex := if currentIndex ≥ pool.length then 0 else currentIndex
  match pool[safeIndex]? with
  | some recipientId => .ok recipientId
  | none => .error (.wrongType "Cannot read properties of undefined (reading 'id')")

/-- The state of the pool's row of `round_robin_state`: its `next_index`, if there is a row. -/
abbrev Stored : Type := Option ℕ

def getIndex (stored : Stored) : ℕ := stored.getD 0

/-- Resume a call. The answer is what `listMembers` finds; `none` when there is no pool. -/
def resume (poolName : String) (stored : Stored) (call : Call) (members : Option (List String)) :
    Stored × Call :=
  match call with
  | .resetting => (some 0, .reset)
  | .listing =>
    match members with
    | none => (stored, .failed (notFound poolName))
    | some [] => (stored, .failed (empty poolName))
    | some pool => (stored, .reading pool)
  | .reading pool => (stored, .writing pool (getIndex stored))
  | .writing pool current =>
    let used := current % pool.length
    let next := (used + 1) % pool.length
    match select pool used with
    | .ok selectedId => (some next, .recording pool selectedId)
    | .error e => (some next, .failed e)
  | .recording pool selectedId => (stored, .routed pool selectedId)
  | .reset | .routed _ _ | .failed _ => (stored, call)

variable {ι : Type} [DecidableEq ι] {poolName : String} {pool : List String} {id : String}

/-- The system of calls, each step resuming one of them. -/
abbrev step (poolName : String) : Calls ι Stored Call → ι × Option (List String) →
    Calls ι Stored Call := Calls.step (resume poolName)

/-! ## Every call selects a member -/

theorem select_of_lt {i : ℕ} (hi : i < pool.length) : select pool i = .ok (pool.get ⟨i, hi⟩) := by
  rw [select, if_neg (not_le.mpr hi), List.getElem?_eq_getElem hi]
  rfl

theorem select_mod (hpool : pool ≠ []) (i : ℕ) :
    ∃ h : i % pool.length < pool.length,
      select pool (i % pool.length) = .ok (pool.get ⟨i % pool.length, h⟩) :=
  have h := Nat.mod_lt i (List.length_pos_iff.mpr hpool)
  ⟨h, select_of_lt h⟩

/-- A call that has selected something has selected a member of the pool it has loaded; one that
has failed had nothing to select from. -/
def Call.Sound (poolName : String) : Call → Prop
  | .reading pool | .writing pool _ => pool ≠ []
  | .recording pool id | .routed pool id => id ∈ pool
  | .failed e => e = notFound poolName ∨ e = empty poolName
  | .resetting | .reset | .listing => True

theorem sound_resume {stored : Stored} {call : Call} {members : Option (List String)}
    (h : call.Sound poolName) : (resume poolName stored call members).2.Sound poolName := by
  cases call with
  | listing =>
    rcases members with _ | _ | ⟨id, pool⟩
    · exact .inl rfl
    · exact .inr rfl
    · exact List.cons_ne_nil id pool
  | writing pool current =>
    obtain ⟨hlt, hselect⟩ := select_mod h current
    rw [resume, hselect]
    exact List.get_mem pool _
  | resetting | reset => exact trivial
  | reading pool | recording pool id | routed pool id | failed e => exact h

/-- Every call selects a member of the pool it has loaded, however the members and the index change
between its statements. -/
theorem always_sound {s : Calls ι Stored Call} (hs : ∀ i, (s.call i).Sound poolName)
    (as : List (ι × Option (List String))) :
    Always (step poolName) (fun s ↦ ∀ i, (s.call i).Sound poolName) s as := by
  refine always_of_step (fun s a h ↦ ?_) hs as
  exact Calls.forall_step (P := fun _ ↦ Call.Sound poolName) h (sound_resume (h a.1)) fun _ hx ↦ hx

/-! ## Taking turns -/

def Call.selectedId : Call → Option String
  | .recording _ id | .routed _ id => some id
  | _ => none

/-- The members do not change: they are what every `listMembers` finds, and no `reset` is run. -/
def Fixed (pool : List String) (s : Calls ι Stored Call) (a : ι × Option (List String)) : Prop :=
  s.call a.1 ≠ .resetting ∧ (s.call a.1 = .listing → a.2 = some pool)

/-- A call that writes the next index finds the index that it has read. -/
def Undisturbed (s : Calls ι Stored Call) (a : ι × Option (List String)) : Prop :=
  match s.call a.1 with
  | .writing _ current => current = getIndex s.shared
  | _ => True

instance (pool : List String) (s : Calls ι Stored Call) (a : ι × Option (List String)) :
    Decidable (Fixed pool s a) :=
  inferInstanceAs (Decidable (_ ∧ _))

instance (s : Calls ι Stored Call) (a : ι × Option (List String)) :
    Decidable (Undisturbed s a) := by
  unfold Undisturbed
  split <;> infer_instance

variable [Fintype ι]

/-- How many calls have selected something that `P` holds of. -/
def selections (P : String → Prop) [DecidablePred P] (s : Calls ι Stored Call) : ℕ :=
  ∑ i, if (s.call i).selectedId.any P then 1 else 0

/-- Whenever the number of selections is a multiple of the number of members, every member has been
selected by as many calls as any other. -/
def Fair (pool : List String) (s : Calls ι Stored Call) : Prop :=
  ∀ k, selections (fun _ ↦ True) s = k * pool.length → ∀ id ∈ pool, selections (· = id) s = k

def Call.Over (pool : List String) : Call → Prop
  | .reading p | .writing p _ | .recording p _ | .routed p _ => p = pool
  | .resetting | .reset | .listing => True
  | .failed _ => False

/-- The selections are those of as many turns, the first of them being `start`. -/
structure Rotating (pool : List String) (start : ℕ) (s : Calls ι Stored Call) : Prop where
  members : ∀ i, (s.call i).Over pool
  index : getIndex s.shared % pool.length =
    (start + selections (fun _ ↦ True) s) % pool.length
  turns : ∀ id, selections (· = id) s =
    #{t ∈ Ico start (start + selections (fun _ ↦ True) s) | pool[t % pool.length]? = some id}

theorem selections_step (poolName : String) (P : String → Prop) [DecidablePred P]
    (s : Calls ι Stored Call) (a : ι × Option (List String)) :
    selections P (step poolName s a) + (if (s.call a.1).selectedId.any P then 1 else 0) =
      selections P s + if (resume poolName s.shared (s.call a.1) a.2).2.selectedId.any P then 1
        else 0 :=
  sum_update_add (fun call : Call ↦ if call.selectedId.any P then 1 else 0) s.call a.1 _

theorem Rotating.of_idle {start : ℕ} {s : Calls ι Stored Call} {a : ι × Option (List String)}
    (h : Rotating pool start s)
    (hover : (resume poolName s.shared (s.call a.1) a.2).2.Over pool)
    (hshared : (resume poolName s.shared (s.call a.1) a.2).1 = s.shared)
    (hselected : (resume poolName s.shared (s.call a.1) a.2).2.selectedId =
      (s.call a.1).selectedId) : Rotating pool start (step poolName s a) := by
  have hsame : ∀ (P : String → Prop) [DecidablePred P],
      selections P (step poolName s a) = selections P s := by
    intro P _
    have hstep := selections_step poolName P s a
    rw [hselected] at hstep
    exact Nat.add_right_cancel hstep
  refine ⟨?_, ?_, fun id ↦ ?_⟩
  · exact Calls.forall_step (P := fun _ ↦ Call.Over pool) h.members hover fun _ hx ↦ hx
  · rw [hsame, Calls.step_shared, hshared]
    exact h.index
  · rw [hsame, hsame]
    exact h.turns id

theorem Rotating.of_writing {start current : ℕ} {s : Calls ι Stored Call}
    {a : ι × Option (List String)} (hpool : pool ≠ []) (h : Rotating pool start s)
    (hcall : s.call a.1 = .writing pool current) (hcurrent : current = getIndex s.shared) :
    Rotating pool start (step poolName s a) := by
  obtain ⟨hlt, hselect⟩ := select_mod hpool current
  set selectedId := pool.get ⟨current % pool.length, hlt⟩ with hid
  have hresume : resume poolName s.shared (s.call a.1) a.2 =
      (some ((current % pool.length + 1) % pool.length), .recording pool selectedId) := by
    rw [hcall, resume, hselect]
  have hadded : ∀ (P : String → Prop) [DecidablePred P], selections P (step poolName s a) =
      selections P s + if P selectedId then 1 else 0 := by
    intro P _
    have hstep := selections_step poolName P s a
    rw [hresume, hcall] at hstep
    simpa [Call.selectedId] using hstep
  have hturn : ∀ id, pool[(start + selections (fun _ ↦ True) s) % pool.length]? = some id ↔
      selectedId = id := by
    intro id
    rw [← h.index, ← hcurrent, List.getElem?_eq_getElem hlt, Option.some_inj, hid]
    rfl
  refine ⟨?_, ?_, fun id ↦ ?_⟩
  · refine Calls.forall_step (P := fun _ ↦ Call.Over pool) h.members ?_ fun _ hx ↦ hx
    rw [hresume]
    rfl
  · rw [hadded, Calls.step_shared, hresume, if_pos trivial, ← add_assoc]
    rw [Nat.add_mod (start + _) 1, ← h.index, hcurrent]
    simp [getIndex]
  · rw [hadded (fun _ ↦ True), hadded (· = id), if_pos trivial, h.turns id, ← add_assoc,
      Nat.Ico_succ_right_eq_insert_Ico (Nat.le_add_right _ _), filter_insert]
    simp only [hturn]
    by_cases hselected : selectedId = id
    · rw [if_pos hselected, if_pos hselected, card_insert_of_notMem (by simp)]
    · rw [if_neg hselected, if_neg hselected, add_zero]

theorem Rotating.step {start : ℕ} {s : Calls ι Stored Call} {a : ι × Option (List String)}
    (hpool : pool ≠ []) (h : Rotating pool start s) (hfixed : Fixed pool s a)
    (hundisturbed : Undisturbed s a) : Rotating pool start (step poolName s a) := by
  obtain ⟨hresetting, hlisting⟩ := hfixed
  have hover := h.members a.1
  cases hcall : s.call a.1 with
  | resetting => exact absurd hcall hresetting
  | failed e => rw [hcall] at hover; exact hover.elim
  | writing p current =>
    rw [Undisturbed, hcall] at hundisturbed
    obtain rfl : p = pool := by rwa [hcall] at hover
    exact h.of_writing hpool hcall hundisturbed
  | listing =>
    obtain ⟨id, rest, rfl⟩ := List.exists_cons_of_ne_nil hpool
    apply h.of_idle <;> rw [hcall, hlisting hcall] <;> rfl
  | reset | routed p id | reading p | recording p id =>
    apply h.of_idle <;> rw [hcall]
    · rwa [hcall] at hover
    all_goals rfl

/-- As many turns as `k` times the members give every member `k` of them. -/
theorem card_turns (hnodup : pool.Nodup) (hid : id ∈ pool) (start k : ℕ) :
    #{t ∈ Ico start (start + k * pool.length) | pool[t % pool.length]? = some id} = k := by
  obtain ⟨i, hi, rfl⟩ := List.getElem_of_mem hid
  have hperiodic : Function.Periodic (fun t ↦ pool[t % pool.length]? = some pool[i])
      (k * pool.length) := by
    intro t
    simp only [Nat.add_mul_mod_self_right]
  rw [Nat.filter_Ico_card_eq_of_periodic _ _ _ hperiodic]
  have hcongr : ∀ t, pool[t % pool.length]? = some pool[i] ↔ t ≡ i [MOD pool.length] := by
    intro t
    have hlt : t % pool.length < pool.length := Nat.mod_lt _ (Nat.zero_lt_of_lt hi)
    rw [List.getElem?_eq_getElem hlt, Option.some_inj, hnodup.getElem_inj_iff, Nat.ModEq,
      Nat.mod_eq_of_lt hi]
  simp only [hcongr]
  rw [Nat.count_modEq_card _ (Nat.zero_lt_of_lt hi), Nat.mul_mod_left,
    Nat.mul_div_cancel _ (Nat.zero_lt_of_lt hi), if_neg (Nat.not_lt_zero _), add_zero]

omit [DecidableEq ι] in
theorem Rotating.fair {start : ℕ} {s : Calls ι Stored Call} (hnodup : pool.Nodup)
    (h : Rotating pool start s) : Fair pool s := by
  intro k hk id hid
  rw [h.turns id, hk]
  exact card_turns hnodup hid start k

/-- Every call selects a member of the pool it has loaded. While the members stay the same and
every call that writes finds the index it has read, they take turns, whatever the first index. -/
theorem fair_unless_overlapping {s : Calls ι Stored Call}
    (hs : ∀ i, s.call i = .listing ∨ s.call i = .resetting) (as : List (ι × Option (List String))) :
    Always (step poolName) (fun s ↦ ∀ i, (s.call i).Sound poolName) s as ∧
      ∀ pool : List String, pool ≠ [] → pool.Nodup → Along (step poolName) (Fixed pool) s as →
        Along (step poolName) Undisturbed s as → Always (step poolName) (Fair pool) s as := by
  constructor
  · refine always_sound (fun i ↦ ?_) as
    rcases hs i with h | h <;> rw [h] <;> exact trivial
  · intro pool hpool hnodup hfixed hundisturbed
    have hstart : Rotating pool (getIndex s.shared) s := by
      have hnone : ∀ i, (s.call i).selectedId = none := by
        intro i
        rcases hs i with h | h <;> rw [h] <;> rfl
      have hzero : ∀ (P : String → Prop) [DecidablePred P], selections P s = 0 := by
        intro P _
        simp [selections, hnone]
      refine ⟨fun i ↦ ?_, ?_, fun id ↦ ?_⟩
      · rcases hs i with h | h <;> rw [h] <;> exact trivial
      · rw [hzero, add_zero]
      · rw [hzero, hzero, add_zero, Ico_self, filter_empty, card_empty]
    have hrotating : Always (step poolName) (Rotating pool (getIndex s.shared)) s as :=
      Along.always (fun _ _ h hC ↦ h.step hpool hC.1 hC.2) (hfixed.and hundisturbed) hstart
    exact hrotating.mono fun _ h ↦ h.fair hnodup

/-! ## Two calls -/

def twoCalls : Calls (Fin 2) Stored Call := ⟨none, fun _ ↦ .listing⟩

/-- The steps of these calls, on the pool of two members. -/
def resumed (calls : List (Fin 2)) : List (Fin 2 × Option (List String)) :=
  calls.map fun i ↦ (i, some ["a", "b"])

theorem fair_one_after_the_other :
    Always (step "pool") (Fair ["a", "b"]) twoCalls (resumed [0, 0, 0, 0, 1, 1, 1, 1]) :=
  (fair_unless_overlapping (fun _ ↦ .inl rfl) _).2 ["a", "b"] (by decide) (by decide) (by decide)
    (by decide)

/-- Both calls read the index before either of them writes: they select the same member. -/
theorem overlapping_calls_select_one_member :
    Along (step "pool") (Fixed ["a", "b"]) twoCalls (resumed [0, 1, 0, 1, 0, 1, 0, 1]) ∧
      (∀ i, (run (step "pool") twoCalls (resumed [0, 1, 0, 1, 0, 1, 0, 1])).call i =
        .routed ["a", "b"] "a") ∧
      ¬ Always (step "pool") (Fair ["a", "b"]) twoCalls (resumed [0, 1, 0, 1, 0, 1, 0, 1]) := by
  refine ⟨by decide, by decide, fun h ↦ ?_⟩
  have hturns := h.last 1 (by decide) "b" (by decide)
  exact absurd hturns (by decide)

end StellarDonations.RoundRobin
