import Mathlib.Data.Int.Notation
import Mathlib.Logic.Function.Basic
import StellarDonations.Concurrency.Run

/-!
# The pool of Horizon servers

`HorizonPool` hands out the servers of one endpoint in turn. A server that fails leaves the rotation
for a cooldown; an endpoint with enough consecutive failures is left for a fallback, whose servers
replace all members.

The counter of an endpoint goes back to zero only when one of *its* members is re-admitted, and the
members of the primary are gone once a fallback is active. The counter that caused the failover
therefore stays (`Held`), and the way back to the primary, which wants it to be zero, is never taken
while a fallback is active (`getServer_active_of_due`).
-/

namespace StellarDonations.HorizonPool

open Concurrency

/-! ## The constructor -/

structure Options where
  fallbackUrls : Option (List String) := none
  failoverThreshold : Option ℤ := none
  recoveryCooldownMs : Option ℤ := none
  size : Option ℤ := none
  cooldownMs : Option ℤ := none

/-- `parseInt(option || fallback, 10)`, for an option that is a whole number. -/
def optionOr (option : Option ℤ) (fallback : ℤ) : ℤ :=
  match option with
  | none | some 0 => fallback
  | some n => n

/-- The fields of a pool that no method writes. -/
structure Config where
  primaryUrl : String
  fallbackUrls : List String
  failoverThreshold : ℤ
  recoveryCooldownMs : ℤ
  size : ℕ
  cooldownMs : ℤ
  size_pos : 0 < size

/-- The constants of the constructor, the size between one and `MAX_POOL_SIZE`. -/
def config (horizonUrl : String) (opts : Options) : Config where
  primaryUrl := horizonUrl
  fallbackUrls := opts.fallbackUrls.getD []
  failoverThreshold := optionOr opts.failoverThreshold 3
  recoveryCooldownMs := optionOr opts.recoveryCooldownMs 60000
  size := (min (max 1 (optionOr opts.size 3)) 10).toNat
  cooldownMs := optionOr opts.cooldownMs 30000
  size_pos := by omega

namespace Config

variable (cfg : Config)

def allEndpoints : List String := cfg.primaryUrl :: cfg.fallbackUrls

abbrev Endpoint : Type := Fin (cfg.fallbackUrls.length + 1)

def url (k : cfg.Endpoint) : String := cfg.allEndpoints.get k

def isPrimary (k : cfg.Endpoint) : Bool := cfg.url k = cfg.primaryUrl

@[simp] theorem url_zero : cfg.url 0 = cfg.primaryUrl := rfl

end Config

/-! ## The pool -/

/-- A member of the pool. Servers are told apart by the order in which they were made. -/
structure Member where
  server : ℕ
  healthy : Bool
  unhealthyAt : Option ℤ
  url : String

structure EndpointHealth where
  consecutiveFailures : ℕ
  lastFailureAt : Option ℤ
  lastSuccessAt : Option ℤ

/-- The fields that change. A pool is never empty, and its members belong to the active endpoint. -/
structure Pool (cfg : Config) where
  activeEndpointIndex : cfg.Endpoint
  members : List Member
  index : ℕ
  endpointHealth : cfg.Endpoint → EndpointHealth
  nextServer : ℕ
  members_ne_nil : members ≠ []
  url_of_mem : ∀ m ∈ members, m.url = cfg.url activeEndpointIndex

def newMembers (url : String) (nextServer size : ℕ) : List Member :=
  (List.range size).map fun i ↦ ⟨nextServer + i, true, none, url⟩

theorem newMembers_ne_nil (url : String) (nextServer : ℕ) {size : ℕ} (hsize : 0 < size) :
    newMembers url nextServer size ≠ [] := by
  simp [newMembers, Nat.pos_iff_ne_zero.mp hsize]

theorem mem_newMembers {url : String} {nextServer size : ℕ} {m : Member}
    (hm : m ∈ newMembers url nextServer size) : m.healthy = true ∧ m.url = url := by
  obtain ⟨i, -, rfl⟩ := List.mem_map.mp hm
  exact ⟨rfl, rfl⟩

/-- The pool that the constructor leaves. -/
def new (cfg : Config) : Pool cfg where
  activeEndpointIndex := 0
  members := newMembers cfg.primaryUrl 0 cfg.size
  index := 0
  endpointHealth := fun _ ↦ ⟨0, none, none⟩
  nextServer := cfg.size
  members_ne_nil := newMembers_ne_nil _ _ cfg.size_pos
  url_of_mem := fun _ hm ↦ (mem_newMembers hm).2

theorem map_url_modify (ms : List Member) (i : ℕ) {f : Member → Member}
    (hf : ∀ m, (f m).url = m.url) : (ms.modify i f).map (·.url) = ms.map (·.url) := by
  refine List.ext_getElem (by simp) fun j hj hj' ↦ ?_
  simp only [List.getElem_map, List.getElem_modify]
  split
  · exact hf _
  · rfl

namespace Pool

variable {cfg : Config} (p : Pool cfg) (now : ℤ)

def activeUrl : String := cfg.url p.activeEndpointIndex

def activeHealth : EndpointHealth := p.endpointHealth p.activeEndpointIndex

def healthyMembers : List Member := p.members.filter (·.healthy)

/-- The members are rewritten, and none of them moves to another endpoint. -/
def setMembers (ms : List Member) (hms : ms.map (·.url) = p.members.map (·.url)) : Pool cfg :=
  { p with
    members := ms
    members_ne_nil := fun hnil ↦ p.members_ne_nil (by simpa [hnil] using hms.symm)
    url_of_mem := fun m hm ↦ by
      have hurl : m.url ∈ p.members.map (·.url) := hms ▸ List.mem_map_of_mem hm
      obtain ⟨m', hm', heq⟩ := List.mem_map.mp hurl
      rw [← heq, p.url_of_mem m' hm'] }

/-- The entry of the active endpoint is rewritten. -/
def modifyHealth (f : EndpointHealth → EndpointHealth) : Pool cfg :=
  { p with
    endpointHealth := Function.update p.endpointHealth p.activeEndpointIndex (f p.activeHealth) }

/-! ## Re-admission -/

def cooledDown (cfg : Config) (now : ℤ) (m : Member) : Bool :=
  !m.healthy && m.unhealthyAt.any fun at_ ↦ cfg.cooldownMs ≤ now - at_

/-- The member after the pass of `_tryRecover` over it. -/
def readmit (cfg : Config) (now : ℤ) (m : Member) : Member :=
  if cooledDown cfg now m then { m with healthy := true, unhealthyAt := none } else m

theorem url_readmit (m : Member) : ( readmit cfg now m).url = m.url := by
  unfold readmit
  split <;> rfl

theorem healthy_readmit {m : Member} (hm : m.healthy = true) :
    ( readmit cfg now m).healthy = true := by
  unfold readmit
  split
  · rfl
  · exact hm

/-- `_tryRecover`. Every member that is re-admitted resets the counter of the active endpoint. The
health check it starts is not awaited: its failure is a later call of `markUnhealthy`. -/
def tryRecover : Pool cfg :=
  let recovered := p.setMembers (p.members.map ( readmit cfg now)) (by simp [ url_readmit])
  if p.members.any (cooledDown cfg now) then
    recovered.modifyHealth fun h ↦ { h with consecutiveFailures := 0, lastSuccessAt := some now }
  else recovered

/-! ## Failover -/

def switchToEndpoint (k : cfg.Endpoint) : Pool cfg :=
  if p.activeUrl = cfg.url k then p
  else
    { p with
      activeEndpointIndex := k
      members := newMembers (cfg.url k) p.nextServer cfg.size
      index := 0
      nextServer := p.nextServer + cfg.size
      members_ne_nil := newMembers_ne_nil _ _ cfg.size_pos
      url_of_mem := fun _ hm ↦ (mem_newMembers hm).2 }

def FailoverDue : Prop := cfg.failoverThreshold ≤ p.activeHealth.consecutiveFailures

instance : Decidable p.FailoverDue := inferInstanceAs (Decidable (_ ≤ _))

/-- A date that JavaScript takes for true: neither `null` nor the start of the epoch. -/
def truthyDate (at_ : Option ℤ) : Option ℤ := at_.filter (· ≠ 0)

/-- The failover passes over an endpoint that failed within the cooldown. -/
def skipped (k : cfg.Endpoint) : Bool :=
  0 < (p.endpointHealth k).consecutiveFailures &&
    (truthyDate (p.endpointHealth k).lastFailureAt).any fun at_ ↦ now - at_ < cfg.cooldownMs

/-- The endpoints behind the active one, in the order in which the failover tries them. -/
def others : List cfg.Endpoint :=
  (List.range' 1 cfg.fallbackUrls.length).map fun i ↦
    ⟨(p.activeEndpointIndex + i) % cfg.allEndpoints.length, Nat.mod_lt _ (Nat.succ_pos _)⟩

/-- The primary may be taken up again: its counter is zero and its last failure is long past. -/
def primaryRecovered : Bool :=
  (p.endpointHealth 0).consecutiveFailures = 0 &&
    (truthyDate (p.endpointHealth 0).lastFailureAt).all fun at_ ↦
      cfg.recoveryCooldownMs ≤ now - at_

/-- The last part of `_checkFailover`: back to the primary. -/
def checkFailback : Pool cfg :=
  if cfg.isPrimary p.activeEndpointIndex then p
  else if p.primaryRecovered now then p.switchToEndpoint 0 else p

def checkFailover : Pool cfg :=
  if cfg.fallbackUrls.length = 0 then p
  else if p.FailoverDue then
    match p.others.find? fun k ↦ !p.skipped now k with
    | some k => p.switchToEndpoint k
    | none => p.checkFailback now
  else p.checkFailback now

/-! ## The calls -/

def getServer : Pool cfg × ℕ :=
  let q := (p.tryRecover now).checkFailover now
  if hne : q.healthyMembers = [] then (q, (q.members.head q.members_ne_nil).server)
  else
    let index := (q.index + 1) % q.healthyMembers.length
    have hlt : index % q.healthyMembers.length < q.healthyMembers.length :=
      Nat.mod_lt _ (List.length_pos_iff.mpr hne)
    ({ q with index }, (q.healthyMembers.get ⟨index % q.healthyMembers.length, hlt⟩).server)

/-- `markUnhealthy`. A server that is not a member any more, or is unhealthy already, is let be. -/
def markUnhealthy (server : ℕ) : Pool cfg :=
  match p.members.findIdx? (·.server = server) with
  | none => p
  | some i =>
    if (p.members[i]?.any (·.healthy)) then
      (p.setMembers
        (p.members.modify i fun m ↦ { m with healthy := false, unhealthyAt := some now })
        (map_url_modify _ _ fun _ ↦ rfl)).modifyHealth fun h ↦
          { h with consecutiveFailures := h.consecutiveFailures + 1, lastFailureAt := some now }
    else p

/-! ## The endpoint a call leaves active -/

@[simp] theorem setMembers_activeEndpointIndex (ms : List Member)
    (hms : ms.map (·.url) = p.members.map (·.url)) :
    (p.setMembers ms hms).activeEndpointIndex = p.activeEndpointIndex := rfl

@[simp] theorem modifyHealth_activeEndpointIndex (f : EndpointHealth → EndpointHealth) :
    (p.modifyHealth f).activeEndpointIndex = p.activeEndpointIndex := rfl

@[simp] theorem tryRecover_activeEndpointIndex :
    (p.tryRecover now).activeEndpointIndex = p.activeEndpointIndex := by
  unfold tryRecover
  split <;> rfl

@[simp] theorem markUnhealthy_activeEndpointIndex (server : ℕ) :
    (p.markUnhealthy now server).activeEndpointIndex = p.activeEndpointIndex := by
  unfold markUnhealthy
  split
  · rfl
  · split <;> rfl

theorem switchToEndpoint_activeEndpointIndex (k : cfg.Endpoint) :
    (p.switchToEndpoint k).activeEndpointIndex = p.activeEndpointIndex ∨
      (p.switchToEndpoint k).activeEndpointIndex = k := by
  unfold switchToEndpoint
  split
  · exact .inl rfl
  · exact .inr rfl

theorem getServer_fst : ∃ index,
    (p.getServer now).1 = { (p.tryRecover now).checkFailover now with index } := by
  unfold getServer
  dsimp only
  split
  · exact ⟨_, rfl⟩
  · exact ⟨_, rfl⟩

/-! ## The counters -/

theorem modifyHealth_of_ne (f : EndpointHealth → EndpointHealth) {k : cfg.Endpoint}
    (hk : k ≠ p.activeEndpointIndex) : (p.modifyHealth f).endpointHealth k = p.endpointHealth k :=
  Function.update_of_ne hk _ _

theorem tryRecover_endpointHealth {k : cfg.Endpoint} (hk : k ≠ p.activeEndpointIndex) :
    (p.tryRecover now).endpointHealth k = p.endpointHealth k := by
  unfold tryRecover
  split
  · exact modifyHealth_of_ne _ _ hk
  · rfl

theorem markUnhealthy_endpointHealth (server : ℕ) {k : cfg.Endpoint}
    (hk : k ≠ p.activeEndpointIndex) :
    (p.markUnhealthy now server).endpointHealth k = p.endpointHealth k := by
  unfold markUnhealthy
  split
  · rfl
  · split
    · exact modifyHealth_of_ne _ _ hk
    · rfl

@[simp] theorem switchToEndpoint_endpointHealth (k : cfg.Endpoint) :
    (p.switchToEndpoint k).endpointHealth = p.endpointHealth := by
  unfold switchToEndpoint
  split <;> rfl

/-- What `_checkFailover` does: nothing, or the way back to the primary, or, when the active
endpoint has reached the threshold, a switch. -/
theorem checkFailover_cases :
    p.checkFailover now = p ∨
      (p.checkFailover now = p.switchToEndpoint 0 ∧ p.primaryRecovered now = true) ∨
      (p.FailoverDue ∧ ∃ k, p.checkFailover now = p.switchToEndpoint k) := by
  have hback : p.checkFailback now = p ∨
      (p.checkFailback now = p.switchToEndpoint 0 ∧ p.primaryRecovered now = true) := by
    unfold checkFailback
    split_ifs with hprimary hrec
    · exact .inl rfl
    · exact .inr ⟨rfl, hrec⟩
    · exact .inl rfl
  unfold checkFailover
  split_ifs with hnone hdue
  · exact .inl rfl
  · split
    · exact .inr (.inr ⟨hdue, _, rfl⟩)
    · exact hback.imp id .inl
  · exact hback.imp id .inl

/-- Without a failover due, the only change is the way back to the primary. -/
theorem checkFailover_of_not_due (hdue : ¬p.FailoverDue) (hrec : p.primaryRecovered now = false) :
    p.checkFailover now = p := by
  rcases p.checkFailover_cases now with h | ⟨-, h⟩ | ⟨h, -⟩
  · exact h
  · rw [hrec] at h
    cases h
  · exact absurd h hdue

/-- While a fallback is active, the counter that made the pool leave the primary stays. -/
def Held : Prop :=
  p.activeEndpointIndex ≠ 0 → cfg.failoverThreshold ≤ (p.endpointHealth 0).consecutiveFailures

variable {p}

theorem Held.tryRecover (hp : p.Held) : (p.tryRecover now).Held := by
  intro hne
  rw [tryRecover_activeEndpointIndex] at hne
  rw [tryRecover_endpointHealth _ _ hne.symm]
  exact hp hne

theorem Held.markUnhealthy (hp : p.Held) (server : ℕ) : (p.markUnhealthy now server).Held := by
  intro hne
  rw [markUnhealthy_activeEndpointIndex] at hne
  rw [markUnhealthy_endpointHealth _ _ _ hne.symm]
  exact hp hne

theorem Held.checkFailover (hp : p.Held) : (p.checkFailover now).Held := by
  rcases p.checkFailover_cases now with h | ⟨h, -⟩ | ⟨hdue, k, h⟩
  · rw [h]
    exact hp
  · rw [h]
    intro hne
    rcases p.switchToEndpoint_activeEndpointIndex 0 with hidx | hidx
    · rw [switchToEndpoint_endpointHealth]
      exact hp (hidx ▸ hne)
    · exact absurd hidx hne
  · rw [h]
    intro _
    rw [switchToEndpoint_endpointHealth]
    -- the endpoint that is left is the primary, or was active already
    by_cases hzero : p.activeEndpointIndex = 0
    · rw [FailoverDue, activeHealth, hzero] at hdue
      exact hdue
    · exact hp hzero

theorem Held.getServer (hp : p.Held) : (p.getServer now).1.Held := by
  obtain ⟨index, h⟩ := p.getServer_fst now
  rw [h]
  exact (hp.tryRecover now).checkFailover now

end Pool

theorem held_new (cfg : Config) : (new cfg).Held := fun hne ↦ absurd rfl hne

/-! ## Failback -/

namespace Pool

variable {cfg : Config} (p : Pool cfg) (now : ℤ)

/-- The call of `getServer` has to go back to the primary: a fallback is active, the cooldown has
passed since the last failure of the primary, and no failover is due once the members that have
cooled down are re-admitted. -/
def FailbackDue : Prop :=
  p.activeUrl ≠ cfg.primaryUrl ∧
    (∀ at_, (p.endpointHealth 0).lastFailureAt = some at_ → cfg.recoveryCooldownMs ≤ now - at_) ∧
    ¬(p.tryRecover now).FailoverDue

variable {p now}

/-- **No failback.** When it is due, the pool stays at the fallback. -/
theorem getServer_active_of_due (hp : p.Held) (hdue : p.FailbackDue now) :
    (p.getServer now).1.activeEndpointIndex = p.activeEndpointIndex := by
  obtain ⟨hfallback, -, hover⟩ := hdue
  have hne : (p.tryRecover now).activeEndpointIndex ≠ 0 := by
    rw [tryRecover_activeEndpointIndex]
    rintro hzero
    exact hfallback (by rw [activeUrl, hzero, Config.url_zero])
  have hheld := hp.tryRecover now hne
  -- the threshold is above a counter, so it is positive, and the counter of the primary with it
  have hpos : 0 < ((p.tryRecover now).endpointHealth 0).consecutiveFailures := by
    simp only [FailoverDue] at hover
    omega
  have hrec : (p.tryRecover now).primaryRecovered now = false := by
    simp [primaryRecovered, Nat.pos_iff_ne_zero.mp hpos]
  obtain ⟨index, h⟩ := p.getServer_fst now
  rw [h, checkFailover_of_not_due _ _ hover hrec, tryRecover_activeEndpointIndex]

variable (p now)

/-! ## Healthy members -/

theorem healthyMembers_tryRecover (h : p.healthyMembers ≠ []) :
    (p.tryRecover now).healthyMembers ≠ [] := by
  obtain ⟨m, hm⟩ := List.exists_mem_of_ne_nil _ h
  obtain ⟨hin, hhealthy⟩ := List.mem_filter.mp hm
  have hmembers : (p.tryRecover now).members = p.members.map ( readmit cfg now) := by
    unfold tryRecover
    split <;> rfl
  have hmem : readmit cfg now m ∈ (p.tryRecover now).members := by
    rw [hmembers]
    exact List.mem_map_of_mem hin
  exact List.ne_nil_of_mem (List.mem_filter.mpr ⟨hmem, healthy_readmit now hhealthy⟩)

theorem healthyMembers_switchToEndpoint (h : p.healthyMembers ≠ []) (k : cfg.Endpoint) :
    (p.switchToEndpoint k).healthyMembers ≠ [] := by
  unfold switchToEndpoint
  split
  · exact h
  · obtain ⟨m, hm⟩ := List.exists_mem_of_ne_nil _
      (newMembers_ne_nil (cfg.url k) p.nextServer cfg.size_pos)
    exact List.ne_nil_of_mem (List.mem_filter.mpr ⟨hm, (mem_newMembers hm).1⟩)

/-- A member in rotation before the call leaves one after it: re-admissions add to the rotation, and
a switch makes new members. -/
theorem healthyMembers_getServer (h : p.healthyMembers ≠ []) :
    (p.getServer now).1.healthyMembers ≠ [] := by
  obtain ⟨index, heq⟩ := p.getServer_fst now
  rw [heq]
  have hrec := p.healthyMembers_tryRecover now h
  show ((p.tryRecover now).checkFailover now).healthyMembers ≠ []
  rcases (p.tryRecover now).checkFailover_cases now with hsame | ⟨hback, -⟩ | ⟨-, k, hover⟩
  · rw [hsame]
    exact hrec
  · rw [hback]
    exact healthyMembers_switchToEndpoint _ hrec 0
  · rw [hover]
    exact healthyMembers_switchToEndpoint _ hrec k

/-- The server that `getServer` returns is a healthy member of the active endpoint, when the pool
has a healthy member before the call or after it. -/
def ServesHealthy : Prop :=
  p.healthyMembers ≠ [] ∨ (p.getServer now).1.healthyMembers ≠ [] →
    ∃ m ∈ (p.getServer now).1.members, m.server = (p.getServer now).2 ∧ m.healthy = true ∧
      m.url = (p.getServer now).1.activeUrl

theorem servesHealthy : p.ServesHealthy now := by
  intro hor
  have hafter := hor.elim (p.healthyMembers_getServer now) id
  revert hafter
  unfold getServer
  dsimp only
  split_ifs with hne
  · exact fun h ↦ absurd hne h
  · intro _
    set q := (p.tryRecover now).checkFailover now
    have hmem := q.healthyMembers.get_mem ⟨(q.index + 1) % q.healthyMembers.length %
      q.healthyMembers.length, Nat.mod_lt _ (List.length_pos_iff.mpr hne)⟩
    obtain ⟨hin, hhealthy⟩ := List.mem_filter.mp hmem
    exact ⟨_, hin, rfl, hhealthy, q.url_of_mem _ hin⟩

end Pool

/-! ## Runs -/

/-- The calls on a pool, each with the time at which it is made. -/
inductive Op where
  | getServer (now : ℤ)
  | markUnhealthy (now : ℤ) (server : ℕ)
  deriving DecidableEq, Repr

def Op.now : Op → ℤ
  | .getServer now => now
  | .markUnhealthy now _ => now

def step {cfg : Config} (p : Pool cfg) : Op → Pool cfg
  | .getServer now => (p.getServer now).1
  | .markUnhealthy now server => p.markUnhealthy now server

/-- A call of `getServer` goes back to the primary when it has to, and serves a healthy member. -/
def Lawful {cfg : Config} (p : Pool cfg) : Op → Prop
  | .getServer now =>
    (p.FailbackDue now → (p.getServer now).1.activeUrl = cfg.primaryUrl) ∧ p.ServesHealthy now
  | .markUnhealthy .. => True

/-- The call is not one that has to go back to the primary. -/
def NoFailback {cfg : Config} (p : Pool cfg) : Op → Prop
  | .getServer now => ¬p.FailbackDue now
  | .markUnhealthy .. => True

theorem held_step {cfg : Config} {p : Pool cfg} (hp : p.Held) (op : Op) : (step p op).Held := by
  cases op with
  | getServer now => exact hp.getServer now
  | markUnhealthy now server => exact hp.markUnhealthy now server

theorem lawful_iff {cfg : Config} {p : Pool cfg} (hp : p.Held) (op : Op) :
    Lawful p op ↔ NoFailback p op := by
  cases op with
  | getServer now =>
    constructor
    · rintro ⟨hlaw, -⟩ hdue
      refine hdue.1 ?_
      rw [Pool.activeUrl, ← Pool.getServer_active_of_due hp hdue]
      exact hlaw hdue
    · exact fun hno ↦ ⟨fun hdue ↦ absurd hdue hno, p.servesHealthy now⟩
  | markUnhealthy now server => exact Iff.rfl

/-- **Failback.** In a run of calls on a new pool every call is lawful exactly when none of them has
to go back to the primary: a healthy member is always served, and the way back is never taken. -/
theorem along_lawful_iff (horizonUrl : String) (opts : Options) (ops : List Op) :
    Along step Lawful (new (config horizonUrl opts)) ops ↔
      Along step NoFailback (new (config horizonUrl opts)) ops :=
  along_congr (I := Pool.Held) (fun _ op hp ↦ lawful_iff hp op)
    (fun _ op hp _ ↦ held_step hp op) (held_new _) ops

/-- One failure takes a pool of one server to its fallback, and an hour later it is still there. -/
theorem not_lawful_after_failover :
    let ops : List Op := [.markUnhealthy 1000 0, .getServer 1001, .getServer 3600000]
    let cfg := config "https://horizon.stellar.org"
      { fallbackUrls := some ["https://fallback"], failoverThreshold := some 1, size := some 1 }
    ops.IsChain (·.now ≤ ·.now) ∧ ¬Along step Lawful (new cfg) ops := by
  refine ⟨by decide, fun h ↦ ?_⟩
  obtain ⟨-, -, ⟨hlaw, -⟩, -⟩ := h
  refine absurd (hlaw ⟨by decide, fun at_ hat ↦ ?_, by decide⟩) (by decide)
  obtain rfl : at_ = 1000 := (Option.some.inj hat).symm
  decide

end StellarDonations.HorizonPool
