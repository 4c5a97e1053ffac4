import Mathlib.Algebra.Order.BigOperators.Group.List
import Mathlib.Data.List.Sigma
import StellarDonations.Donations.BatchEffects

/-!
# Runs of a batch

Every donation of the batch is in one place: it is an entry of its group, or it has a result. What a
group may say about an entry (`Entry.Holds`) is changed by the group alone, since what other groups
accept, pay and report has other indices. From this the results and the payments of a whole run are
right, provided that every step is guarded.
-/

namespace StellarDonations.Batch

open Concurrency Donations JsString Stellar Transactions

variable {sys : System}

/-! ## Places -/

/-- The key of the group of a donation. -/
def System.owner (sys : System) (i : ℕ) : Option String := sys.donations[i]?.map groupKey

def Shared.resultCount (sh : Shared) (i : ℕ) : ℕ := (sh.results.map (·.1)).count i

/-- What an entry of a group says about the shared state. -/
def Entry.Holds (sys : System) (sh : Shared) (key : String) : Entry → Prop
  | waiting index d => groupKey d = key ∧ ∀ q ∈ sh.accepted, q.index ≠ index
  | unpaid p => p ∈ sh.accepted ∧ p.sanitizedDonor = sys.svc.sanitizeIdentifier key ∧
      ∀ q ∈ sh.payments, q.index ≠ p.index
  | settled p => p ∈ sh.accepted ∧
      (p ∈ sh.payments ∨ hasSecret sys.svc p.sanitizedDonor = false)

def Entry.Reports (sys : System) : Entry → Outcome → Prop
  | waiting .., o => o.isSuccess = false
  | unpaid p, o => o.isSuccess = false ∧ hasSecret sys.svc p.sanitizedDonor = true
  | settled _, o => o.isSuccess = true

/-- The donations of a group are its entries, or have a result. -/
structure Placed (sys : System) (sh : Shared) (key : String) (entries : List Entry) : Prop where
  owned : ∀ i ∈ entries.map (·.index), sys.owner i = some key
  count_eq : ∀ i, sys.owner i = some key →
    (entries.map (·.index)).count i + sh.resultCount i = 1
  holds : ∀ e ∈ entries, e.Holds sys sh key

/-- What the shared state says of the donations. -/
structure Recorded (sys : System) (sh : Shared) : Prop where
  /-- Results are about donations of the batch. -/
  known : ∀ r ∈ sh.results, sys.owner r.1 ≠ none
  plain : ∀ p ∈ sh.accepted, IsPlain p.xlmAmount
  accepted_nodup : (sh.accepted.map (·.index)).Nodup
  payments_nodup : (sh.payments.map (·.index)).Nodup
  /-- Only accepted donations of donors with a secret are paid. -/
  paid : ∀ p ∈ sh.payments, p ∈ sh.accepted ∧ hasSecret sys.svc p.sanitizedDonor = true
  reported : ∀ r ∈ sh.results, r.2.isSuccess = true ↔
    (∃ p ∈ sh.payments, p.index = r.1) ∨
      ∃ p ∈ sh.accepted, p.index = r.1 ∧ hasSecret sys.svc p.sanitizedDonor = false
  fits : ∀ p ∈ sh.accepted, Named p.sanitizedDonor → hasSecret sys.svc p.sanitizedDonor = true →
    sys.svc.config.maxDailyPerDonor ≠ 0 →
    sys.earlier p.sanitizedDonor + amountOf sh.accepted p.sanitizedDonor ≤
      sys.svc.config.maxDailyPerDonor

structure Sound (sys : System) (s : State) : Prop where
  alive : ∀ key e, s.call key ≠ .rejected e
  placed : ∀ key, Placed sys s.shared key (s.call key).entries
  paying : ∀ key, ∀ p ∈ (s.call key).paying, hasSecret sys.svc p.sanitizedDonor = true
  recorded : Recorded sys s.shared

section Places

variable {sh sh' : Shared} {key : String} {entries before after : List Entry}

theorem Placed.nodup (h : Placed sys sh key entries) : (entries.map (·.index)).Nodup := by
  refine List.nodup_iff_count_le_one.mpr fun i ↦ ?_
  by_cases hi : i ∈ entries.map (·.index)
  · have hcount := h.count_eq i (h.owned i hi)
    omega
  · rw [List.count_eq_zero.mpr hi]
    exact Nat.zero_le 1

theorem Placed.resultCount_eq_zero (h : Placed sys sh key entries) {i : ℕ}
    (hi : i ∈ entries.map (·.index)) : sh.resultCount i = 0 := by
  have hcount := h.count_eq i (h.owned i hi)
  have hpos := List.count_pos_iff.mpr hi
  omega

theorem ne_of_resultCount_eq_zero {i : ℕ} (h : sh.resultCount i = 0) {r : ℕ × Outcome}
    (hr : r ∈ sh.results) : r.1 ≠ i := by
  rintro rfl
  exact List.count_eq_zero.mp h (List.mem_map_of_mem hr)

theorem Placed.perm (h : Placed sys sh key before) (hperm : after.Perm before) :
    Placed sys sh key after where
  owned i hi := h.owned i ((hperm.map _).subset hi)
  count_eq i hi := by
    rw [(hperm.map _).count_eq]
    exact h.count_eq i hi
  holds e he := h.holds e (hperm.subset he)

theorem Entry.Holds.mono {e : Entry} (h : e.Holds sys sh key)
    (haccepted : ∃ ps, sh'.accepted = sh.accepted ++ ps ∧ ∀ p ∈ ps, p.index ≠ e.index)
    (hpayments : ∃ ps, sh'.payments = sh.payments ++ ps ∧ ∀ p ∈ ps, p.index ≠ e.index) :
    e.Holds sys sh' key := by
  obtain ⟨as, haccepted, has⟩ := haccepted
  obtain ⟨ps, hpayments, hps⟩ := hpayments
  cases e with
  | waiting index d =>
    refine ⟨h.1, fun q hq ↦ ?_⟩
    rw [haccepted] at hq
    exact (List.mem_append.mp hq).elim (h.2 q) (has q)
  | unpaid p =>
    refine ⟨haccepted ▸ List.mem_append_left as h.1, h.2.1, fun q hq ↦ ?_⟩
    rw [hpayments] at hq
    exact (List.mem_append.mp hq).elim (h.2.2 q) (hps q)
  | settled p =>
    refine ⟨haccepted ▸ List.mem_append_left as h.1, h.2.imp_left fun hp ↦ ?_⟩
    exact hpayments ▸ List.mem_append_left ps hp

/-- What a step adds has the indices of the entries of its group. -/
theorem Effect.adds (h : Effect sys sh before sh' after) :
    (∃ rs, sh'.results = sh.results ++ rs ∧ ∀ r ∈ rs, r.1 ∈ before.map (·.index)) ∧
      (∃ ps, sh'.accepted = sh.accepted ++ ps ∧ ∀ p ∈ ps, p.index ∈ before.map (·.index)) ∧
      ∃ ps, sh'.payments = sh.payments ++ ps ∧ ∀ p ∈ ps, p.index ∈ before.map (·.index) := by
  have hnil : ∀ {α : Type} {l l' : List α} (P : α → Prop), l' = l →
      ∃ as, l' = l ++ as ∧ ∀ a ∈ as, P a :=
    fun P heq ↦ ⟨[], by rw [heq, List.append_nil], nofun⟩
  have hone : ∀ {α : Type} {l l' : List α} {a : α} (P : α → Prop), l' = l ++ [a] → P a →
      ∃ as, l' = l ++ as ∧ ∀ a ∈ as, P a := by
    intro α l l' a P heq ha
    refine ⟨[a], heq, fun a' ha' ↦ ?_⟩
    rw [List.mem_singleton.mp ha']
    exact ha
  have hmem : ∀ {e : Entry} {rest : List Entry}, before.Perm (e :: rest) →
      e.index ∈ before.map (·.index) :=
    fun hperm ↦ List.mem_map_of_mem (hperm.symm.subset List.mem_cons_self)
  cases h with
  | quiet _ hresults haccepted hpayments =>
    exact ⟨hnil _ hresults, hnil _ haccepted, hnil _ hpayments⟩
  | accept hbefore _ hindex _ _ _ hresults haccepted hpayments =>
    exact ⟨hnil _ hresults, hone _ haccepted (hindex ▸ hmem hbefore), hnil _ hpayments⟩
  | refuse hbefore _ _ hresults haccepted hpayments =>
    exact ⟨hone _ hresults (hmem hbefore), hnil _ haccepted, hnil _ hpayments⟩
  | pay hbefore _ _ hresults haccepted hpayments =>
    refine ⟨hnil _ hresults, hnil _ haccepted, _, hpayments, fun p hp ↦ ?_⟩
    have hentry : Entry.unpaid p ∈ before :=
      hbefore.symm.subset (List.mem_append_left _ (List.mem_map_of_mem hp))
    exact List.mem_map_of_mem (f := (·.index)) hentry
  | waive _ _ _ hresults haccepted hpayments =>
    exact ⟨hnil _ hresults, hnil _ haccepted, hnil _ hpayments⟩
  | succeed hbefore _ _ hresults haccepted hpayments =>
    exact ⟨hone _ hresults (hmem hbefore), hnil _ haccepted, hnil _ hpayments⟩
  | fail hbefore _ _ _ hresults haccepted hpayments =>
    exact ⟨hone _ hresults (hmem hbefore), hnil _ haccepted, hnil _ hpayments⟩

/-- **The other groups do not notice the step.** -/
theorem Placed.other {key' : String} (h : Placed sys sh key' entries)
    (hstep : Placed sys sh key before) (heffect : Effect sys sh before sh' after)
    (hne : key' ≠ key) : Placed sys sh' key' entries := by
  obtain ⟨⟨rs, hresults, hrs⟩, ⟨as, haccepted, has⟩, ps, hpayments, hps⟩ := heffect.adds
  have hother : ∀ {i j}, sys.owner i = some key' → j ∈ before.map (·.index) → j ≠ i := by
    rintro i j hi hj rfl
    rw [hstep.owned j hj] at hi
    exact hne (Option.some.inj hi).symm
  refine ⟨h.owned, fun i hi ↦ ?_, fun e he ↦ ?_⟩
  · have hnone : (rs.map (·.1)).count i = 0 := by
      rw [List.count_eq_zero, List.mem_map]
      rintro ⟨r, hr, heq⟩
      exact hother hi (hrs r hr) heq
    have hcount := h.count_eq i hi
    rw [Shared.resultCount] at hcount ⊢
    rw [hresults, List.map_append, List.count_append, hnone, Nat.add_zero]
    exact hcount
  · have howned := h.owned e.index (List.mem_map_of_mem he)
    exact (h.holds e he).mono ⟨as, haccepted, fun p hp ↦ hother howned (has p hp)⟩
      ⟨ps, hpayments, fun p hp ↦ hother howned (hps p hp)⟩

/-- Entries of the group are replaced, reported on, accepted or paid. The rest of the group does not
notice. -/
theorem Placed.replace (old new : List Entry) (rs : List (ℕ × Outcome)) {rest : List Entry}
    {as ps : List Prepared} (h : Placed sys sh key (old ++ rest))
    (hindices : (new.map (·.index) ++ rs.map (·.1)).Perm (old.map (·.index)))
    (hnew : ∀ e ∈ new, e.Holds sys sh' key) (hresults : sh'.results = sh.results ++ rs)
    (haccepted : sh'.accepted = sh.accepted ++ as) (has : ∀ p ∈ as, p.index ∈ old.map (·.index))
    (hpayments : sh'.payments = sh.payments ++ ps) (hps : ∀ p ∈ ps, p.index ∈ old.map (·.index)) :
    Placed sys sh' key (new ++ rest) := by
  have hnodup := h.nodup
  rw [List.map_append] at hnodup
  have hrest : ∀ {i : ℕ} {e : Entry}, i ∈ old.map (·.index) → e ∈ rest → i ≠ e.index :=
    fun hi he ↦ (List.nodup_append.mp hnodup).2.2 _ hi _ (List.mem_map_of_mem he)
  refine ⟨fun i hi ↦ ?_, fun i hi ↦ ?_, fun e he ↦ ?_⟩
  · refine h.owned i ?_
    rw [List.map_append, List.mem_append] at hi ⊢
    exact hi.imp_left fun hi ↦ hindices.subset (List.mem_append_left _ hi)
  · have hcount := h.count_eq i hi
    have hreplaced := hindices.count_eq i
    rw [Shared.resultCount] at hcount ⊢
    rw [hresults]
    simp only [List.map_append, List.count_append] at hcount hreplaced ⊢
    omega
  · rcases List.mem_append.mp he with he | he
    · exact hnew e he
    · exact (h.holds e (List.mem_append_right _ he)).mono
        ⟨as, haccepted, fun p hp ↦ hrest (has p hp) he⟩
        ⟨ps, hpayments, fun p hp ↦ hrest (hps p hp) he⟩

/-- **The group keeps its donations in their places.** -/
theorem Placed.self (h : Placed sys sh key before) (hrecorded : Recorded sys sh)
    (heffect : Effect sys sh before sh' after) : Placed sys sh' key after := by
  have hnil : ∀ {α : Type} {l l' : List α}, l' = l → l' = l ++ [] :=
    fun heq ↦ heq.trans (List.append_nil _).symm
  have hnone : ∀ {α : Type} {P : α → Prop}, ∀ a ∈ ([] : List α), P a := List.forall_mem_nil _
  cases heffect with
  | quiet hentries hresults haccepted hpayments =>
    exact (h.perm hentries).replace [] [] [] (.refl _) hnone (hnil hresults)
      (hnil haccepted) hnone (hnil hpayments) hnone
  | @accept index d p rest hbefore hafter hindex hdonor hplain hfits hresults haccepted hpayments =>
    have hplaced := h.perm hbefore.symm
    obtain ⟨hkey, hwaiting⟩ := hplaced.holds _ List.mem_cons_self
    refine Placed.perm (hplaced.replace [.waiting index d] [.unpaid p] []
      ?_ (fun e he ↦ ?_) (hnil hresults) haccepted (fun q hq ↦ ?_) (hnil hpayments) hnone) hafter
    · rw [← hindex]
      exact .refl _
    · rw [List.mem_singleton.mp he]
      refine ⟨?_, ?_, fun q hq ↦ ?_⟩
      · rw [haccepted]
        exact List.mem_append_right _ List.mem_cons_self
      · rw [hdonor, sanitizedDonor_eq, hkey]
      -- what is paid was accepted, and nothing accepted had the index
      · rw [hpayments] at hq
        rw [hindex]
        exact hwaiting q (hrecorded.paid q hq).1
    · rw [List.mem_singleton.mp hq, hindex]
      exact List.mem_cons_self
  | @refuse index d o rest hbefore hafter ho hresults haccepted hpayments =>
    exact Placed.perm ((h.perm hbefore.symm).replace [.waiting index d] [] [(index, o)]
      (.refl _) hnone hresults (hnil haccepted) hnone (hnil hpayments) hnone) hafter
  | @pay ps rest hbefore hafter hsecret hresults haccepted hpayments =>
    have hplaced := h.perm hbefore.symm
    have hindices : ps.map (·.index) = (ps.map Entry.unpaid).map (·.index) := by
      rw [List.map_map]
      rfl
    refine Placed.perm (hplaced.replace (ps.map .unpaid) (ps.map .settled) []
      ?_ (fun e he ↦ ?_) (hnil hresults) (hnil haccepted) hnone hpayments (fun p hp ↦ ?_)) hafter
    · rw [List.map_nil, List.append_nil, List.map_map, List.map_map]
      exact .refl _
    · obtain ⟨p, hp, rfl⟩ := List.mem_map.mp he
      have hunpaid := hplaced.holds _ (List.mem_append_left _ (List.mem_map_of_mem hp))
      exact ⟨haccepted ▸ hunpaid.1, .inl (hpayments ▸ List.mem_append_right _ hp)⟩
    · rw [← hindices]
      exact List.mem_map_of_mem hp
  | @waive p rest hbefore hafter hsecret hresults haccepted hpayments =>
    have hplaced := h.perm hbefore.symm
    have hunpaid := hplaced.holds _ List.mem_cons_self
    refine Placed.perm (hplaced.replace [.unpaid p] [.settled p] []
      (.refl _) (fun e he ↦ ?_) (hnil hresults) (hnil haccepted) hnone (hnil hpayments) hnone)
      hafter
    rw [List.mem_singleton.mp he]
    exact ⟨haccepted ▸ hunpaid.1, .inr hsecret⟩
  | @succeed p o rest hbefore hafter ho hresults haccepted hpayments =>
    exact Placed.perm ((h.perm hbefore.symm).replace [.settled p] [] [(p.index, o)]
      (.refl _) hnone hresults (hnil haccepted) hnone (hnil hpayments) hnone) hafter
  | @fail p o rest hbefore hafter ho hsecret hresults haccepted hpayments =>
    exact Placed.perm ((h.perm hbefore.symm).replace [.unpaid p] [] [(p.index, o)]
      (.refl _) hnone hresults (hnil haccepted) hnone (hnil hpayments) hnone) hafter

end Places

/-! ## What is recorded -/

section Records

variable {sh sh' : Shared} {key : String} {before after : List Entry}

theorem amountOf_append (ps qs : List Prepared) (donor : String) :
    amountOf (ps ++ qs) donor = amountOf ps donor + amountOf qs donor := by
  rw [amountOf, List.filter_append, List.map_append, List.sum_append]
  rfl

theorem amountOf_singleton (p : Prepared) (donor : String) :
    amountOf [p] donor = if p.sanitizedDonor = donor then p.xlmAmount else 0 := by
  rw [amountOf]
  split_ifs with h
  · simp [h]
  · simp [h]

theorem Effect.accepted_eq (h : Effect sys sh before sh' after) :
    sh'.accepted = sh.accepted ∨ ∃ index d p, .waiting index d ∈ before ∧ p.index = index ∧
      IsPlain p.xlmAmount ∧ Fits sys sh p ∧ sh'.accepted = sh.accepted ++ [p] := by
  cases h with
  | accept hbefore _ hindex _ hplain hfits _ haccepted =>
    exact .inr ⟨_, _, _, hbefore.symm.subset List.mem_cons_self, hindex, hplain, hfits, haccepted⟩
  | quiet | refuse | pay | waive | succeed | fail => exact .inl ‹_›

theorem Effect.payments_eq (h : Effect sys sh before sh' after) :
    sh'.payments = sh.payments ∨ ∃ ps rest, before.Perm (ps.map .unpaid ++ rest) ∧
      (∀ p ∈ ps, hasSecret sys.svc p.sanitizedDonor = true) ∧
      sh'.payments = sh.payments ++ ps := by
  cases h with
  | pay hbefore _ hsecret _ _ hpayments => exact .inr ⟨_, _, hbefore, hsecret, hpayments⟩
  | quiet | accept | refuse | waive | succeed | fail => exact .inl ‹_›

theorem Effect.results_eq (h : Effect sys sh before sh' after) :
    sh'.results = sh.results ∨ ∃ e o, e ∈ before ∧ sh'.results = sh.results ++ [(e.index, o)] ∧
      sh'.accepted = sh.accepted ∧ sh'.payments = sh.payments ∧ e.Reports sys o := by
  cases h with
  | refuse hbefore _ ho hresults haccepted hpayments =>
    exact .inr ⟨_, _, hbefore.symm.subset List.mem_cons_self, hresults, haccepted, hpayments, ho⟩
  | succeed hbefore _ ho hresults haccepted hpayments =>
    exact .inr ⟨_, _, hbefore.symm.subset List.mem_cons_self, hresults, haccepted, hpayments, ho⟩
  | fail hbefore _ ho hsecret hresults haccepted hpayments =>
    exact .inr ⟨_, _, hbefore.symm.subset List.mem_cons_self, hresults, haccepted, hpayments, ho,
      hsecret⟩
  | quiet | accept | pay | waive => exact .inl ‹_›

theorem Recorded.eq_of_index_eq (h : Recorded sys sh) {p q : Prepared} (hp : p ∈ sh.accepted)
    (hq : q ∈ sh.accepted) (heq : p.index = q.index) : p = q :=
  List.inj_on_of_nodup_map h.accepted_nodup hp hq heq

/-- Success is reported of the donations that are paid or need no payment. -/
def Shared.Rightly (sys : System) (sh : Shared) (r : ℕ × Outcome) : Prop :=
  r.2.isSuccess = true ↔ (∃ p ∈ sh.payments, p.index = r.1) ∨
    ∃ p ∈ sh.accepted, p.index = r.1 ∧ hasSecret sys.svc p.sanitizedDonor = false

theorem Recorded.rightly (h : Recorded sys sh) {e : Entry} {o : Outcome}
    (hentry : e.Holds sys sh key) (ho : e.Reports sys o) : sh.Rightly sys (e.index, o) := by
  cases e with
  | waiting index d =>
    refine iff_of_false (ho.trans_ne Bool.false_ne_true) ?_
    rintro (⟨q, hq, hindex⟩ | ⟨q, hq, hindex, -⟩)
    · exact hentry.2 q (h.paid q hq).1 hindex
    · exact hentry.2 q hq hindex
  | unpaid p =>
    refine iff_of_false (ho.1.trans_ne Bool.false_ne_true) ?_
    rintro (⟨q, hq, hindex⟩ | ⟨q, hq, hindex, hsecret⟩)
    · exact hentry.2.2 q hq hindex
    · rw [h.eq_of_index_eq hq hentry.1 hindex, ho.2] at hsecret
      cases hsecret
  | settled p =>
    refine iff_of_true ho ?_
    exact hentry.2.imp (fun hp ↦ ⟨p, hp, rfl⟩) fun hsecret ↦ ⟨p, hentry.1, rfl, hsecret⟩

theorem Shared.Rightly.mono {r : ℕ × Outcome} (h : sh.Rightly sys r)
    (haccepted : ∃ ps, sh'.accepted = sh.accepted ++ ps ∧ ∀ p ∈ ps, p.index ≠ r.1)
    (hpayments : ∃ ps, sh'.payments = sh.payments ++ ps ∧ ∀ p ∈ ps, p.index ≠ r.1) :
    sh'.Rightly sys r := by
  obtain ⟨as, haccepted, has⟩ := haccepted
  obtain ⟨ps, hpayments, hps⟩ := hpayments
  refine h.trans (or_congr ?_ ?_)
  · rw [hpayments]
    refine ⟨fun ⟨p, hp, hindex⟩ ↦ ⟨p, List.mem_append_left _ hp, hindex⟩, fun ⟨p, hp, hindex⟩ ↦ ?_⟩
    rcases List.mem_append.mp hp with hp | hp
    · exact ⟨p, hp, hindex⟩
    · exact absurd hindex (hps p hp)
  · rw [haccepted]
    refine ⟨fun ⟨p, hp, hindex⟩ ↦ ⟨p, List.mem_append_left _ hp, hindex⟩, fun ⟨p, hp, hindex⟩ ↦ ?_⟩
    rcases List.mem_append.mp hp with hp | hp
    · exact ⟨p, hp, hindex⟩
    · exact absurd hindex.1 (has p hp)

/-- **What is recorded stays right.** -/
theorem Recorded.step (h : Recorded sys sh) (hplaced : Placed sys sh key before)
    (heffect : Effect sys sh before sh' after) : Recorded sys sh' := by
  obtain ⟨⟨rs, hresults, hrs⟩, hacceptedAdds, hpaymentsAdds⟩ := heffect.adds
  have haccepted := heffect.accepted_eq
  have hpayments := heffect.payments_eq
  refine ⟨?known, ?plain, ?accepted_nodup, ?payments_nodup, ?paid, ?reported, ?fits⟩
  case known =>
    intro r hr
    rw [hresults] at hr
    rcases List.mem_append.mp hr with hr | hr
    · exact h.known r hr
    · rw [hplaced.owned r.1 (hrs r hr)]
      exact Option.some_ne_none key
  case plain =>
    intro q hq
    rcases haccepted with heq | ⟨index, d, p, -, -, hplain, -, heq⟩
    · exact h.plain q (heq ▸ hq)
    · rw [heq, List.mem_append, List.mem_singleton] at hq
      rcases hq with hq | rfl
      · exact h.plain q hq
      · exact hplain
  case accepted_nodup =>
    rcases haccepted with heq | ⟨index, d, p, hentry, hindex, -, -, heq⟩
    · rw [heq]
      exact h.accepted_nodup
    · rw [heq, List.map_append]
      refine h.accepted_nodup.append (List.nodup_singleton _) ?_
      intro i hi hi'
      obtain ⟨q, hq, rfl⟩ := List.mem_map.mp hi
      have heq : q.index = index := (List.mem_singleton.mp hi').trans hindex
      exact (hplaced.holds _ hentry).2 q hq heq
  case payments_nodup =>
    rcases hpayments with heq | ⟨ps, rest, hperm, -, heq⟩
    · rw [heq]
      exact h.payments_nodup
    -- the donations that are paid were unpaid entries of one group
    · have hpaid := hplaced.perm hperm.symm
      have hnodup : (ps.map (·.index)).Nodup := by
        have hnodup := hpaid.nodup
        rw [List.map_append, List.map_map] at hnodup
        exact (List.nodup_append.mp hnodup).1
      rw [heq, List.map_append]
      refine h.payments_nodup.append hnodup fun i hi hi' ↦ ?_
      obtain ⟨q, hq, rfl⟩ := List.mem_map.mp hi
      obtain ⟨p, hp, hindex⟩ := List.mem_map.mp hi'
      have hunpaid := hpaid.holds _ (List.mem_append_left _ (List.mem_map_of_mem hp))
      exact hunpaid.2.2 q hq hindex.symm
  case paid =>
    obtain ⟨as, hacceptedEq, -⟩ := hacceptedAdds
    intro q hq
    rw [hacceptedEq]
    rcases hpayments with heq | ⟨ps, rest, hperm, hsecret, heq⟩
    · rw [heq] at hq
      exact (h.paid q hq).imp_left (List.mem_append_left as)
    · rw [heq] at hq
      rcases List.mem_append.mp hq with hq | hq
      · exact (h.paid q hq).imp_left (List.mem_append_left as)
      · have hentry := hperm.symm.subset (List.mem_append_left _ (List.mem_map_of_mem hq))
        exact ⟨List.mem_append_left as (hplaced.holds _ hentry).1, hsecret q hq⟩
  case reported =>
    intro r hr
    rw [hresults] at hr
    rcases List.mem_append.mp hr with hr | hr
    · -- the indices of the entries have no result yet
      have hne : ∀ i ∈ before.map (·.index), i ≠ r.1 := fun i hi ↦
        (ne_of_resultCount_eq_zero (hplaced.resultCount_eq_zero hi) hr).symm
      obtain ⟨as, hacceptedEq, has⟩ := hacceptedAdds
      obtain ⟨ps, hpaymentsEq, hps⟩ := hpaymentsAdds
      exact Shared.Rightly.mono (h.reported r hr) ⟨as, hacceptedEq, fun p hp ↦ hne _ (has p hp)⟩
        ⟨ps, hpaymentsEq, fun p hp ↦ hne _ (hps p hp)⟩
    · rcases heffect.results_eq with heq | ⟨e, o, he, heq, hacceptedEq, hpaymentsEq, ho⟩
      · rw [heq] at hresults
        rw [List.self_eq_append_right.mp hresults] at hr
        cases hr
      · rw [heq] at hresults
        rw [← List.append_cancel_left hresults] at hr
        rw [List.mem_singleton.mp hr, hacceptedEq, hpaymentsEq]
        exact h.rightly (hplaced.holds e he) ho
  case fits =>
    intro q hq hnamed hsecret hlimit
    rcases haccepted with heq | ⟨index, d, p, -, -, -, hfits, heq⟩
    · rw [heq] at hq ⊢
      exact h.fits q hq hnamed hsecret hlimit
    · rw [heq] at hq ⊢
      -- what the donor has given grows by the donation that fits
      rw [amountOf_append, amountOf_singleton]
      split_ifs with hdonor
      · rw [← hdonor] at hnamed hsecret ⊢
        exact hfits hnamed hsecret hlimit
      · rw [add_zero]
        rcases List.mem_append.mp hq with hq | hq
        · exact h.fits q hq hnamed hsecret hlimit
        · exact absurd (List.mem_singleton.mp hq ▸ rfl) hdonor

end Records

/-! ## The invariant of a run -/

section Invariant

variable {s : State}

theorem Sound.of_effect (h : Sound sys s) {s' : State} (key : String)
    (heffect : Effect sys s.shared (s.call key).entries s'.shared (s'.call key).entries)
    (hothers : ∀ key', key' ≠ key → s'.call key' = s.call key')
    (halive : ∀ e, s'.call key ≠ .rejected e)
    (hpaying : ∀ p ∈ (s'.call key).paying, hasSecret sys.svc p.sanitizedDonor = true) :
    Sound sys s' := by
  refine ⟨fun key' e ↦ ?_, fun key' ↦ ?_, fun key' ↦ ?_, ?_⟩
  · by_cases hkey : key' = key
    · rw [hkey]
      exact halive e
    · rw [hothers key' hkey]
      exact h.alive key' e
  · by_cases hkey : key' = key
    · rw [hkey]
      exact (h.placed key).self h.recorded heffect
    · rw [hothers key' hkey]
      exact (h.placed key').other (h.placed key) heffect hkey
  · by_cases hkey : key' = key
    · rw [hkey]
      exact hpaying
    · rw [hothers key' hkey]
      exact h.paying key'
  · exact h.recorded.step (h.placed key) heffect

theorem Sound.step (h : Sound sys s) {a : Action} (hguarded : a.Guarded sys s) :
    Sound sys (step sys s a) := by
  cases a with
  | resume key env =>
    have hholds := (h.placed key).holds
    obtain ⟨sh', g', hresume, heffect, halive, hpaying⟩ :=
      effect_resume (sys.svc.sanitizeIdentifier key)
        (fun p hp ↦ h.recorded.plain p <|
          hp.elim (fun hp ↦ (hholds _ hp).1) fun hp ↦ (hholds _ hp).1)
        (fun p hp ↦ (hholds _ hp).2.1) (h.paying key) (h.alive key) hguarded
    have hself : ((Batch.step sys s (.resume key env)).call key) = g' := by
      rw [Batch.step, Calls.step_call_self, hresume]
    refine h.of_effect key ?_ (fun key' hkey ↦ Calls.step_call_of_ne s env hkey) ?_ ?_
    · rw [hself, Batch.step, Calls.step_shared, hresume]
      exact heffect
    · rw [hself]
      exact halive
    · rw [hself]
      exact hpaying
  | others store =>
    exact h.of_effect "" (.quiet (.refl _) rfl rfl rfl) (fun _ _ ↦ rfl) (h.alive "")
      (h.paying "")

theorem System.mem_group {key : String} {i : ℕ} {d : Donation} :
    (i, d) ∈ sys.group key ↔ sys.donations[i]? = some d ∧ groupKey d = key := by
  rw [System.group, List.mem_map]
  constructor
  · rintro ⟨⟨d', i'⟩, hmem, heq⟩
    cases heq
    obtain ⟨hmem, hkey⟩ := List.mem_filter.mp hmem
    exact ⟨List.mk_mem_zipIdx_iff_getElem?.mp hmem, of_decide_eq_true hkey⟩
  · rintro ⟨hget, hkey⟩
    exact ⟨(d, i), List.mem_filter.mpr ⟨List.mk_mem_zipIdx_iff_getElem?.mpr hget,
      decide_eq_true hkey⟩, rfl⟩

theorem System.nodup_group (sys : System) (key : String) :
    ((sys.group key).map (·.1)).Nodup := by
  rw [System.group, List.map_map]
  exact ((List.filter_sublist).map _).nodup (List.nodup_zipIdx_map_snd sys.donations)

theorem System.owner_eq_some {key : String} {i : ℕ} :
    sys.owner i = some key ↔ i ∈ (sys.group key).map (·.1) := by
  rw [System.owner, Option.map_eq_some_iff, List.mem_map]
  constructor
  · rintro ⟨d, hd⟩
    exact ⟨(i, d), System.mem_group.mpr hd, rfl⟩
  · rintro ⟨⟨i, d⟩, hd, rfl⟩
    exact ⟨d, System.mem_group.mp hd⟩

theorem sound_start (sys : System) : Sound sys sys.start := by
  refine ⟨fun key ↦ (afterChecks_spec [] (sys.group key)).2.2, fun key ↦ ?_, fun key p hp ↦ ?_, ?_⟩
  · have hentries : (sys.start.call key).entries = (sys.group key).map fun d ↦ .waiting d.1 d.2 :=
      (afterChecks_spec [] (sys.group key)).1
    have hindices : (sys.start.call key).entries.map (·.index) = (sys.group key).map (·.1) := by
      rw [hentries, List.map_map]
      rfl
    refine ⟨fun i hi ↦ ?_, fun i hi ↦ ?_, fun e he ↦ ?_⟩
    · rw [hindices] at hi
      exact System.owner_eq_some.mpr hi
    · rw [hindices]
      exact List.count_eq_one_of_mem (sys.nodup_group key) (System.owner_eq_some.mp hi)
    · rw [hentries] at he
      obtain ⟨⟨i, d⟩, hd, rfl⟩ := List.mem_map.mp he
      exact ⟨(System.mem_group.mp hd).2, List.forall_mem_nil _⟩
  · rw [show (sys.start.call key).paying = [] from (afterChecks_spec [] (sys.group key)).2.1] at hp
    cases hp
  · exact ⟨List.forall_mem_nil _, List.forall_mem_nil _, List.nodup_nil, List.nodup_nil,
      List.forall_mem_nil _, List.forall_mem_nil _, List.forall_mem_nil _⟩

end Invariant

end StellarDonations.Batch
