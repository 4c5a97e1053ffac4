import Mathlib.Algebra.Order.Group.Nat
import StellarDonations.Concurrency.Run
import StellarDonations.Containers.SlidingWindow

/-!
# Rate limit stores

`incrementAndCheck` of the two stores behind the rate limit of an API key. The store in memory keeps
the times of the calls it has allowed; the one in Redis counts calls in a key that expires one
window after the first of them.

A store keeps its contract when no interval of the length of the window holds more allowed calls
than the limit, and a rejected call would be allowed at its `resetAt`. The store in memory does.
The counter forgets the calls it has allowed when its key expires, although the last of them are not
a window old, and keeps the contract exactly when the limit would have had room for those
(`stores_keep_contract_iff`).
-/

namespace StellarDonations.RateLimitStore

open Concurrency SlidingWindow

/-- The answer of `incrementAndCheck`. Times are in milliseconds. -/
structure Result where
  allowed : Bool
  count : ℕ
  remaining : ℕ
  resetAt : ℕ
  deriving DecidableEq

/-- What `incrementAndCheck` is called with. -/
structure Args where
  key : String
  limit : ℕ
  windowSeconds : ℕ
  deriving DecidableEq

def Args.windowMs (a : Args) : ℕ := a.windowSeconds * 1000

structure Store (σ : Type*) where
  empty : σ
  incrementAndCheck : σ → Args → (now : ℕ) → Result × σ

/-! ## The store in memory -/

/-- `MemoryRateLimitStore`, where a key that is not in the map has no times. -/
def memory : Store (String → List ℕ) where
  empty _ := []
  incrementAndCheck windows a now :=
    -- `t > cutoff`
    let ts := (windows a.key).filter (now < · + a.windowMs)
    let resetAt := ts.head?.getD now + a.windowMs
    if a.limit ≤ ts.length then
      (⟨false, ts.length, 0, resetAt⟩, Function.update windows a.key ts)
    else
      (⟨true, ts.length + 1, a.limit - (ts.length + 1), resetAt⟩,
        Function.update windows a.key (ts ++ [now]))

/-! ## The store in Redis -/

/-- A key that holds a number and has a timeout. -/
structure Counter where
  value : ℕ
  expireAt : ℕ
  deriving DecidableEq

abbrev Database := String → Option Counter

/-- A key is there until its timeout has passed. -/
def Database.get (db : Database) (key : String) (now : ℕ) : Option Counter :=
  (db key).filter (now < ·.expireAt)

/-- The counter after `INCR`, and after `EXPIRE` when the key is new. -/
def increment (db : Database) (a : Args) (now : ℕ) : Counter :=
  match db.get a.key now with
  | none => ⟨1, now + a.windowMs⟩
  | some c => ⟨c.value + 1, c.expireAt⟩

/-- The script. It replies with the number and `PTTL`. -/
def script (db : Database) (a : Args) (now : ℕ) : (ℕ × ℤ) × Database :=
  let c := increment db a now
  ((c.value, c.expireAt - now), Function.update db a.key (some c))

/-- What is made of the reply, if Redis gives one. -/
def ofReply (failOpen : Bool) (a : Args) (now : ℕ) : Option (ℕ × ℤ) → Result
  | some (count, ttl) => ⟨count ≤ a.limit, count, a.limit - count, now + (max ttl 0).toNat⟩
  | none =>
    if failOpen then ⟨true, 0, a.limit, now + a.windowMs⟩
    else ⟨false, a.limit, 0, now + a.windowMs⟩

/-- `RedisRateLimitStore`, while Redis is available and its clock is the caller's. -/
def redis (failOpen : Bool) : Store Database where
  empty _ := none
  incrementAndCheck db a now :=
    let (reply, db) := script db a now
    (ofReply failOpen a now (some reply), db)

/-! ## Calls on one key -/

/-- A store after some calls, the times of those that were allowed, and the last answer. -/
structure History (σ : Type*) where
  now : ℕ
  store : σ
  allowed : List ℕ
  last : Option Result

namespace Store

variable {σ : Type*} (S : Store σ) (a : Args)

def start (now : ℕ) : History σ := ⟨now, S.empty, [], none⟩

def step (s : History σ) (delay : ℕ) : History σ :=
  let now := s.now + delay
  let (r, store) := S.incrementAndCheck s.store a now
  ⟨now, store, if r.allowed then s.allowed ++ [now] else s.allowed, some r⟩

/-- The contract of a store: at most `limit` calls are allowed in an interval of the length of the
window, and a call that was just rejected would be allowed at its `resetAt`. -/
structure Keeps (s : History σ) : Prop where
  sparse : Sparse a.limit a.windowMs s.allowed
  retry : ∀ r ∈ s.last, r.allowed = false →
    s.now ≤ r.resetAt ∧ (S.incrementAndCheck s.store a r.resetAt).1.allowed = true

end Store

variable {a : Args} {failOpen : Bool}

/-! ## The store in memory keeps the contract -/

section Memory

/-- Of the calls that were allowed, the store has those that are not a window old. -/
structure Kept (a : Args) (s : History (String → List ℕ)) : Prop where
  keeps : memory.Keeps a s
  past : ∀ t ∈ s.allowed, t ≤ s.now
  stored : ∀ now, s.now ≤ now →
    (s.store a.key).filter (now < · + a.windowMs) = s.allowed.filter (now < · + a.windowMs)

theorem length_filter_recent (now : ℕ) (ts : List ℕ) (W : ℕ) :
    (ts.filter (now < · + W)).length = recent W now ts :=
  List.countP_eq_length_filter.symm

/-- What is dropped now would be dropped later. -/
theorem filter_filter_recent {now now' : ℕ} (h : now ≤ now') (ts : List ℕ) (W : ℕ) :
    (ts.filter (now < · + W)).filter (now' < · + W) = ts.filter (now' < · + W) := by
  rw [List.filter_filter]
  refine List.filter_congr fun t _ ↦ ?_
  by_cases hnew : now' < t + W
  · rw [decide_eq_true hnew, decide_eq_true (h.trans_lt hnew)]
    rfl
  · rw [decide_eq_false hnew]
    rfl

theorem retry_memory {windows : String → List ℕ} {t : ℕ} {ts : List ℕ}
    (hstored : windows a.key = t :: ts) (hle : ts.length < a.limit) :
    (memory.incrementAndCheck windows a (t + a.windowMs)).1.allowed = true := by
  have hlen : ((windows a.key).filter (t + a.windowMs < · + a.windowMs)).length < a.limit := by
    rw [hstored, List.filter_cons_of_neg (by simp)]
    exact (List.length_filter_le _ ts).trans_lt hle
  simp only [memory, hlen.not_ge, if_false]

theorem memory_step_of_full {s : History (String → List ℕ)} {delay : ℕ} {ts : List ℕ}
    (hts : (s.store a.key).filter (s.now + delay < · + a.windowMs) = ts)
    (hfull : a.limit ≤ ts.length) :
    memory.step a s delay = ⟨s.now + delay, Function.update s.store a.key ts, s.allowed,
      some ⟨false, ts.length, 0, ts.head?.getD (s.now + delay) + a.windowMs⟩⟩ := by
  simp only [Store.step, memory, hts, if_pos hfull, Bool.false_eq_true, if_false]

theorem memory_step_of_room {s : History (String → List ℕ)} {delay : ℕ} {ts : List ℕ}
    (hts : (s.store a.key).filter (s.now + delay < · + a.windowMs) = ts)
    (hroom : ts.length < a.limit) :
    memory.step a s delay = ⟨s.now + delay,
      Function.update s.store a.key (ts ++ [s.now + delay]), s.allowed ++ [s.now + delay],
      some ⟨true, ts.length + 1, a.limit - (ts.length + 1),
        ts.head?.getD (s.now + delay) + a.windowMs⟩⟩ := by
  simp only [Store.step, memory, hts, if_neg hroom.not_ge, if_true]

theorem Kept.step (h0 : 0 < a.limit) {s : History (String → List ℕ)} (h : Kept a s) (delay : ℕ) :
    Kept a (memory.step a s delay) := by
  have hnow : s.now ≤ s.now + delay := Nat.le_add_right _ _
  have hpast : ∀ t ∈ s.allowed, t ≤ s.now + delay := fun t ht ↦ (h.past t ht).trans hnow
  have hts := h.stored (s.now + delay) hnow
  rcases le_or_gt a.limit (recent a.windowMs (s.now + delay) s.allowed) with hfull | hroom
  · -- rejected: the times that are a window old are dropped
    rw [← length_filter_recent] at hfull
    rw [memory_step_of_full hts hfull]
    refine ⟨⟨h.keeps.sparse, ?_⟩, hpast, fun now hle ↦ ?_⟩
    · rintro r hr -
      obtain rfl := Option.some.inj hr
      rcases hcons : s.allowed.filter (s.now + delay < · + a.windowMs) with - | ⟨t, ts⟩
      · rw [hcons] at hfull
        exact absurd hfull h0.not_ge
      · have ht : t ∈ s.allowed.filter (s.now + delay < · + a.windowMs) := by simp [hcons]
        have hlen := h.keeps.sparse.recent_le hpast
        rw [← length_filter_recent, hcons, List.length_cons] at hlen
        refine ⟨le_of_lt (by simpa using (List.mem_filter.mp ht).2), ?_⟩
        exact retry_memory (Function.update_self ..) hlen
    · simp only [Function.update_self]
      exact filter_filter_recent hle ..
  · have hlen := hroom
    rw [← length_filter_recent] at hlen
    rw [memory_step_of_room hts hlen]
    refine ⟨⟨h.keeps.sparse.concat hroom, ?_⟩, ?_, fun now hle ↦ ?_⟩
    · rintro r hr hrejected
      obtain rfl := Option.some.inj hr
      cases hrejected
    · intro t ht
      rcases List.mem_append.mp ht with ht | ht
      · exact hpast t ht
      · exact (List.mem_singleton.mp ht).le
    · simp only [Function.update_self, List.filter_append]
      rw [filter_filter_recent hle]

/-- The store in memory keeps its contract. -/
theorem memory_keeps (h0 : 0 < a.limit) (now : ℕ) (delays : List ℕ) :
    Always (memory.step a) (memory.Keeps a) (memory.start now) delays := by
  refine (always_of_step (fun s delay h ↦ Kept.step h0 h delay) ?_ delays).mono fun s h ↦ h.keeps
  exact ⟨⟨sparse_nil, nofun⟩, nofun, fun _ _ ↦ rfl⟩

end Memory

/-! ## The counter -/

section Redis

/-- The value of the counter, while its key is there. -/
def live (a : Args) (db : Database) (now : ℕ) : ℕ := ((db.get a.key now).map (·.value)).getD 0

/-- The allowed calls that are not a window old, although the counter does not count them: they
came before its key was new. -/
def forgotten (a : Args) (s : History Database) (now : ℕ) : ℕ :=
  s.allowed.countP fun t ↦
    now < t + a.windowMs ∧ ∀ c ∈ s.store.get a.key now, t + a.windowMs < c.expireAt

/-- There is a limit, and a call that the counter has room for finds room together with the calls
that are forgotten. -/
def Room (a : Args) (s : History Database) (delay : ℕ) : Prop :=
  0 < a.limit ∧ (live a s.store (s.now + delay) < a.limit →
    live a s.store (s.now + delay) + forgotten a s (s.now + delay) < a.limit)

instance (a : Args) : ∀ s delay, Decidable (Room a s delay) :=
  fun _ _ ↦ inferInstanceAs (Decidable (_ ∧ _))

/-- The key counts the allowed calls of the window it was opened for. -/
def Counts (a : Args) (s : History Database) : Option Counter → Prop
  | none => s.allowed = []
  | some c => c.expireAt ≤ s.now + a.windowMs ∧ (0 < a.windowMs →
      (∀ t ∈ s.allowed, t < c.expireAt) ∧
      min c.value a.limit = s.allowed.countP (c.expireAt ≤ · + a.windowMs))

structure Counted (a : Args) (failOpen : Bool) (s : History Database) : Prop where
  keeps : (redis failOpen).Keeps a s
  past : ∀ t ∈ s.allowed, t ≤ s.now
  counts : Counts a s (s.store a.key)

theorem resetAt_eq {now expireAt : ℕ} (h : now ≤ expireAt) :
    now + (max (expireAt - now : ℤ) 0).toNat = expireAt := by
  omega

theorem redis_step_of_le {s : History Database} {delay : ℕ} {c : Counter}
    (hc : increment s.store a (s.now + delay) = c) (hexpire : s.now + delay ≤ c.expireAt)
    (hle : c.value ≤ a.limit) :
    (redis failOpen).step a s delay = ⟨s.now + delay, Function.update s.store a.key (some c),
      s.allowed ++ [s.now + delay], some ⟨true, c.value, a.limit - c.value, c.expireAt⟩⟩ := by
  simp only [Store.step, redis, script, ofReply, hc, resetAt_eq hexpire, decide_eq_true hle,
    if_true]

theorem redis_step_of_lt {s : History Database} {delay : ℕ} {c : Counter}
    (hc : increment s.store a (s.now + delay) = c) (hexpire : s.now + delay ≤ c.expireAt)
    (hlt : a.limit < c.value) :
    (redis failOpen).step a s delay = ⟨s.now + delay, Function.update s.store a.key (some c),
      s.allowed, some ⟨false, c.value, a.limit - c.value, c.expireAt⟩⟩ := by
  simp only [Store.step, redis, script, ofReply, hc, resetAt_eq hexpire,
    decide_eq_false hlt.not_ge, Bool.false_eq_true, if_false]

theorem get_of_expired {db : Database} {now : ℕ} (h : ∀ c ∈ db a.key, c.expireAt ≤ now) :
    db.get a.key now = none := by
  rw [Database.get, Option.filter_eq_none_iff]
  exact fun c hc ↦ by simpa using h c hc

/-- Once its key has expired, the counter starts again. -/
theorem retry_redis {db : Database} {now : ℕ} (h0 : 0 < a.limit)
    (h : ∀ c ∈ db a.key, c.expireAt ≤ now) :
    ((redis failOpen).incrementAndCheck db a now).1.allowed = true := by
  simp only [redis, script, ofReply, increment, get_of_expired h]
  exact decide_eq_true h0

theorem get_eq_some_iff {db : Database} {now : ℕ} {c : Counter} :
    db.get a.key now = some c ↔ db a.key = some c ∧ now < c.expireAt := by
  rw [Database.get, Option.filter_eq_some_iff, decide_eq_true_eq]

theorem Counted.of_live {s : History Database} (h : Counted a failOpen s) {now : ℕ} {c : Counter}
    (hnow : s.now ≤ now) (hget : s.store.get a.key now = some c) :
    c.expireAt ≤ s.now + a.windowMs ∧
      (∀ t ∈ s.allowed, t < c.expireAt) ∧
      min c.value a.limit = s.allowed.countP (c.expireAt ≤ · + a.windowMs) := by
  obtain ⟨hstored, hlive⟩ := get_eq_some_iff.mp hget
  obtain ⟨hle, hcounts⟩ : Counts a s (some c) := hstored ▸ h.counts
  exact ⟨hle, hcounts (by omega)⟩

/-- Where the counter has room, the calls that are not a window old are those it counts and those
that are forgotten. -/
theorem Counted.recent_eq {s : History Database} (h : Counted a failOpen s) (delay : ℕ)
    (hlive : live a s.store (s.now + delay) < a.limit) :
    recent a.windowMs (s.now + delay) s.allowed =
      live a s.store (s.now + delay) + forgotten a s (s.now + delay) := by
  rw [live] at hlive ⊢
  rw [forgotten, recent]
  cases hget : s.store.get a.key (s.now + delay) with
  | none => simp
  | some c =>
    have hnow := (get_eq_some_iff.mp hget).2
    obtain ⟨-, -, hcounts⟩ := h.of_live (Nat.le_add_right _ _) hget
    replace hlive : c.value < a.limit := by rwa [hget] at hlive
    rw [min_eq_left hlive.le] at hcounts
    rw [List.countP_eq_countP_filter_add _ _ (c.expireAt ≤ · + a.windowMs), List.countP_filter,
      List.countP_filter, Option.map_some, Option.getD_some, hcounts]
    congr 1 <;> refine List.countP_congr fun t _ ↦ ?_
    · simp only [Bool.and_eq_true, decide_eq_true_eq]
      omega
    · simp

theorem increment_of_none {db : Database} {now : ℕ} (h : db.get a.key now = none) :
    increment db a now = ⟨1, now + a.windowMs⟩ := by
  rw [increment, h]

theorem increment_of_some {db : Database} {now : ℕ} {c : Counter}
    (h : db.get a.key now = some c) : increment db a now = ⟨c.value + 1, c.expireAt⟩ := by
  rw [increment, h]

theorem Counted.admit {s : History Database} (h : Counted a failOpen s) {delay : ℕ} {c : Counter}
    (hroom : recent a.windowMs (s.now + delay) s.allowed < a.limit)
    (hc : increment s.store a (s.now + delay) = c) (hle : c.value ≤ a.limit)
    (hfrom : s.now + delay ≤ c.expireAt) (hto : c.expireAt ≤ s.now + delay + a.windowMs)
    (hcounts : 0 < a.windowMs → (∀ t ∈ s.allowed, t < c.expireAt) ∧ s.now + delay < c.expireAt ∧
      c.value = s.allowed.countP (c.expireAt ≤ · + a.windowMs) + 1) :
    Counted a failOpen ((redis failOpen).step a s delay) := by
  rw [redis_step_of_le hc hfrom hle]
  refine ⟨⟨h.keeps.sparse.concat hroom, ?_⟩, fun t ht ↦ ?_, ?_⟩
  · rintro r hr hrejected
    obtain rfl := Option.some.inj hr
    cases hrejected
  · rcases List.mem_append.mp ht with ht | ht
    · exact (h.past t ht).trans (Nat.le_add_right _ _)
    · exact (List.mem_singleton.mp ht).le
  · simp only [Function.update_self]
    refine ⟨hto, fun hW ↦ ?_⟩
    obtain ⟨hbefore, hnow, hvalue⟩ := hcounts hW
    refine ⟨fun t ht ↦ ?_, ?_⟩
    · rcases List.mem_append.mp ht with ht | ht
      · exact hbefore t ht
      · rwa [List.mem_singleton.mp ht]
    · rw [min_eq_left hle, List.countP_append, List.countP_singleton, hvalue,
        if_pos (decide_eq_true hto)]

theorem Counted.countP_of_expired {s : History Database} (h : Counted a failOpen s) {now : ℕ}
    (hget : s.store.get a.key now = none) (hW : 0 < a.windowMs) :
    s.allowed.countP (now + a.windowMs ≤ · + a.windowMs) = 0 := by
  have hcounts := h.counts
  refine List.countP_eq_zero.mpr fun t ht hge ↦ ?_
  rw [decide_eq_true_eq, add_le_add_iff_right] at hge
  cases hstored : s.store a.key with
  | none =>
    rw [hstored] at hcounts
    rw [hcounts] at ht
    cases ht
  | some c =>
    rw [hstored] at hcounts
    rw [Database.get, Option.filter_eq_none_iff] at hget
    have hexpired := hget c hstored
    rw [decide_eq_true_eq, not_lt] at hexpired
    exact absurd ((hcounts.2 hW).1 t ht) (hexpired.trans hge).not_gt

/-- A call that the counter has room for, when this is room together with the calls that are
forgotten. -/
theorem Counted.allow {s : History Database} (h : Counted a failOpen s) {delay : ℕ}
    (h0 : 0 < a.limit) (hlive : live a s.store (s.now + delay) < a.limit)
    (hroom : live a s.store (s.now + delay) + forgotten a s (s.now + delay) < a.limit) :
    Counted a failOpen ((redis failOpen).step a s delay) := by
  rw [← h.recent_eq delay hlive] at hroom
  cases hget : s.store.get a.key (s.now + delay) with
  | none =>
    refine h.admit hroom (increment_of_none hget) h0 (Nat.le_add_right _ _) le_rfl fun hW ↦ ?_
    refine ⟨fun t ht ↦ ?_, Nat.lt_add_of_pos_right hW, ?_⟩
    · exact (h.past t ht).trans_lt (by dsimp only; omega)
    · rw [h.countP_of_expired hget hW]
  | some c =>
    have hnow := (get_eq_some_iff.mp hget).2
    obtain ⟨hto, hbefore, hcounts⟩ := h.of_live (Nat.le_add_right _ _) hget
    have hlt : c.value < a.limit := by rwa [live, hget] at hlive
    rw [min_eq_left hlt.le] at hcounts
    refine h.admit hroom (increment_of_some hget) hlt hnow.le ?_ fun _ ↦ ⟨hbefore, hnow, ?_⟩
    · exact hto.trans (by omega)
    · exact congrArg (· + 1) hcounts

theorem Counted.reject {s : History Database} (h : Counted a failOpen s) {delay : ℕ}
    (h0 : 0 < a.limit) (hfull : a.limit ≤ live a s.store (s.now + delay)) :
    Counted a failOpen ((redis failOpen).step a s delay) := by
  cases hget : s.store.get a.key (s.now + delay) with
  | none =>
    rw [live, hget] at hfull
    exact absurd hfull h0.not_ge
  | some c =>
    have hnow := (get_eq_some_iff.mp hget).2
    obtain ⟨hto, hbefore, hcounts⟩ := h.of_live (Nat.le_add_right _ _) hget
    replace hfull : a.limit ≤ c.value := by rwa [live, hget] at hfull
    rw [redis_step_of_lt (increment_of_some hget) hnow.le (Nat.lt_succ_of_le hfull)]
    refine ⟨⟨h.keeps.sparse, ?_⟩, ?_, ?_⟩
    · rintro r hr -
      obtain rfl := Option.some.inj hr
      refine ⟨hnow.le, retry_redis h0 fun c' hc' ↦ ?_⟩
      simp only [Function.update_self] at hc'
      rw [← Option.some.inj hc']
    · exact fun t ht ↦ (h.past t ht).trans (Nat.le_add_right _ _)
    · simp only [Function.update_self]
      refine ⟨hto.trans (by dsimp only; omega), fun _ ↦ ⟨hbefore, ?_⟩⟩
      rw [min_eq_right hfull] at hcounts
      rw [min_eq_right (hfull.trans (Nat.le_succ _)), hcounts]

theorem value_increment (db : Database) (a : Args) (now : ℕ) :
    (increment db a now).value = live a db now + 1 := by
  rw [increment, live]
  cases db.get a.key now <;> rfl

theorem allowed_redis (db : Database) (a : Args) (now : ℕ) :
    ((redis failOpen).incrementAndCheck db a now).1.allowed = true ↔ live a db now < a.limit := by
  simp only [redis, script, ofReply, value_increment, decide_eq_true_eq, Nat.succ_le_iff]

/-- Without a limit, a call is rejected for ever. -/
theorem not_keeps_of_limit_eq_zero (h0 : a.limit = 0) (s : History Database) (delay : ℕ) :
    ¬(redis failOpen).Keeps a ((redis failOpen).step a s delay) := by
  intro h
  have hrejected : ∀ db now, ¬((redis failOpen).incrementAndCheck db a now).1.allowed = true := by
    intro db now
    rw [allowed_redis, h0]
    exact Nat.not_lt_zero _
  exact hrejected _ _ (h.retry _ rfl (Bool.eq_false_of_not_eq_true (hrejected _ _))).2

/-- A call that was allowed has found room among all calls that are not a window old. -/
theorem Counted.room_of_keeps {s : History Database} (h : Counted a failOpen s) {delay : ℕ}
    (hkeeps : (redis failOpen).Keeps a ((redis failOpen).step a s delay))
    (hlive : live a s.store (s.now + delay) < a.limit) :
    live a s.store (s.now + delay) + forgotten a s (s.now + delay) < a.limit := by
  have hsparse := hkeeps.sparse
  simp only [Store.step, if_pos ((allowed_redis ..).mpr hlive)] at hsparse
  have hpast : ∀ t ∈ s.allowed, t ≤ s.now + delay :=
    fun t ht ↦ (h.past t ht).trans (Nat.le_add_right _ _)
  rw [← h.recent_eq delay hlive]
  rcases Nat.eq_zero_or_pos a.windowMs with hW | hW
  · -- a window without length
    have hnone : recent a.windowMs (s.now + delay) s.allowed = 0 := by
      refine List.countP_eq_zero.mpr fun t ht hnew ↦ ?_
      rw [hW, decide_eq_true_eq] at hnew
      exact absurd (hpast t ht) hnew.not_ge
    rw [hnone]
    exact Nat.zero_lt_of_lt hlive
  · exact hsparse.recent_lt hpast (Nat.lt_add_of_pos_right hW)

theorem counted_start (now : ℕ) : Counted a failOpen ((redis failOpen).start now) :=
  ⟨⟨sparse_nil, nofun⟩, nofun, rfl⟩

/-- The store in Redis keeps its contract exactly along the runs that have room for the calls it
has forgotten. -/
theorem redis_keeps_iff (now : ℕ) (delays : List ℕ) :
    Always ((redis failOpen).step a) ((redis failOpen).Keeps a) ((redis failOpen).start now)
        delays ↔
      Along ((redis failOpen).step a) (Room a) ((redis failOpen).start now) delays := by
  refine always_iff_along (I := Counted a failOpen) (fun s h ↦ h.keeps) (fun s delay h hroom ↦ ?_)
    (fun s delay h hno hkeeps ↦ ?_) (counted_start now) delays
  · rcases lt_or_ge (live a s.store (s.now + delay)) a.limit with hlive | hfull
    · exact h.allow hroom.1 hlive (hroom.2 hlive)
    · exact h.reject hroom.1 hfull
  · rcases Nat.eq_zero_or_pos a.limit with h0 | h0
    · exact not_keeps_of_limit_eq_zero h0 s delay hkeeps
    · exact hno ⟨h0, h.room_of_keeps hkeeps⟩

end Redis

/-- **The contract of the two stores.** On a sequence of calls both stores keep it exactly when
every call that the counter has room for finds room together with the calls it has forgotten. -/
theorem stores_keep_contract_iff (failOpen : Bool) (a : Args) (now : ℕ) (delays : List ℕ) :
    (Always (memory.step a) (memory.Keeps a) (memory.start now) delays ∧
      Always ((redis failOpen).step a) ((redis failOpen).Keeps a) ((redis failOpen).start now)
        delays) ↔
      Along ((redis failOpen).step a) (Room a) ((redis failOpen).start now) delays := by
  rw [redis_keeps_iff, and_iff_right_iff_imp]
  intro h
  cases delays with
  | nil => exact ⟨sparse_nil, nofun⟩
  | cons delay delays => exact memory_keeps h.1.1 now (delay :: delays)

/-- With a limit of two, a call at once, a second one in the last millisecond of the window, and two
more in the next one: the last three are allowed within a millisecond. -/
theorem three_allowed_at_boundary :
    ¬(Always (memory.step ⟨"key", 2, 60⟩) (memory.Keeps ⟨"key", 2, 60⟩) (memory.start 0)
        [0, 59999, 1, 0] ∧
      Always ((redis true).step ⟨"key", 2, 60⟩) ((redis true).Keeps ⟨"key", 2, 60⟩)
        ((redis true).start 0) [0, 59999, 1, 0]) := by
  rintro ⟨-, h⟩
  exact absurd (h.last.sparse 59999) (by decide)

end StellarDonations.RateLimitStore
