import StellarDonations.Idempotency.Middleware

/-!
# Reservations

Two properties of the runs of `requireIdempotency`. While the record of a key lives, one request
with it reaches the handler; and a request is answered with a conflict only while another one is in
progress.

The first fails for requests without an API key, whose reservations never collide, and when the
record of the key has expired but is still in the table: then no reservation is ever made, and the
middleware lets everyone through who lost one. The second fails after any failure behind the
reservation, because nothing takes the pending record back.
-/

namespace StellarDonations.Idempotency

open Concurrency

universe u v

variable {ν : Type u} {ρ : Type v} {ι : Type*} {h : Hashing ν}

/-! ## Records that last -/

/-- The record of the request that expires at `expiresAt` is in the table, or its time is up. -/
def Lasts (rows : List (Row ρ)) (now : ℕ) (req : Request ν) (expiresAt : ℕ) : Prop :=
  expiresAt / 1000 ≤ now / 1000 ∨ ∃ r ∈ rows, req.owns r = true ∧ r.expiresAt = expiresAt

/-- Every record that has not expired is still there, whatever its response. -/
def Keeps (rows rows' : List (Row ρ)) (now : ℕ) : Prop :=
  ∀ r ∈ rows, r.unexpired now = true → ∃ r' ∈ rows', r'.idempotencyKey = r.idempotencyKey ∧
    r'.apiKeyId = r.apiKeyId ∧ r'.expiresAt = r.expiresAt

theorem keeps_refl (rows : List (Row ρ)) (now : ℕ) : Keeps rows rows now :=
  fun r hr _ ↦ ⟨r, hr, rfl, rfl, rfl⟩

theorem keeps_append (rows : List (Row ρ)) (r : Row ρ) (now : ℕ) : Keeps rows (rows ++ [r]) now :=
  fun r hr _ ↦ ⟨r, List.mem_append_left _ hr, rfl, rfl, rfl⟩

theorem keeps_complete (rows : List (Row ρ)) (k : String) (response : ρ) (a userId : Option ℕ)
    (now : ℕ) : Keeps rows (complete rows k response a userId) now := by
  intro r hr _
  refine ⟨_, List.mem_map.mpr ⟨r, hr, rfl⟩, ?_⟩
  split_ifs
  · exact ⟨rfl, rfl, rfl⟩
  · exact ⟨rfl, rfl, rfl⟩

theorem keeps_cleanup (rows : List (Row ρ)) (now : ℕ) : Keeps rows (cleanupExpired rows now) now :=
  fun r hr hlive ↦ ⟨r, List.mem_filter.mpr ⟨hr, hlive⟩, rfl, rfl, rfl⟩

theorem Lasts.mono {rows rows' : List (Row ρ)} {now now' : ℕ} {req : Request ν} {expiresAt : ℕ}
    (hlasts : Lasts rows now req expiresAt) (hle : now ≤ now') (hkeeps : Keeps rows rows' now') :
    Lasts rows' now' req expiresAt := by
  rcases le_or_gt (expiresAt / 1000) (now' / 1000) with hpast | hlive
  · exact .inl hpast
  · rcases hlasts with hpast | ⟨r, hr, howns, rfl⟩
    · exact .inl (hpast.trans (Nat.div_le_div_right hle))
    · obtain ⟨r', hr', hkey, hscope, hexpires⟩ := hkeeps r hr (decide_eq_true hlive)
      obtain ⟨hk, ha⟩ := Row.isFor_iff.mp howns
      exact .inr ⟨r', hr', Row.isFor_iff.mpr ⟨hkey.trans hk, hscope.trans ha⟩, hexpires⟩

/-! ## At most one request reaches the handler -/

/-- Of two requests with the same key and API key, the later one reaches the handler when the time
to live of the earlier one's reservation is over. -/
def Exclusive (s : Calls ι (Shared ρ) (Call ν ρ)) : Prop :=
  ∀ i j, i ≠ j → (s.call i).req.Alike (s.call j).req →
    ∀ ei ∈ (s.call i).enteredAt, ∀ ej ∈ (s.call j).enteredAt, ei ≤ ej →
      ∀ u ∈ (s.call i).reservedUntil, u / 1000 ≤ ej / 1000

/-- The steps of a call, at a time, that keep requests apart. A reservation with an API key meets no
expired record of its key, one without an API key meets no live record; a request that lost its
reservation finds the completed record of the other one; and a reservation lives until its request
is in the handler. -/
def Call.Guarded (rows : List (Row ρ)) (now : ℕ) (c : Call ν ρ) : Prop :=
  match c.point with
  | .reserve _ _ => ∀ r ∈ rows, c.req.owns r = true →
      (r.unexpired now = true ↔ c.req.apiKeyId.isSome = true)
  | .recheckGet _ => ∃ r ∈ rows, r.answers c.req.key c.req.apiKeyId now = true
  | .findByHash _ => ∀ u ∈ c.reservedUntil, now / 1000 < u / 1000
  | _ => True

/-- The steps of the system that keep requests apart. -/
def Guarded (s : Calls ι (Shared ρ) (Call ν ρ)) : Action ι ρ → Prop
  | .resume i env => (s.call i).Guarded s.shared.rows (s.shared.now + env.elapsed)
  | .cleanup _ => True

structure Call.Sound (rows : List (Row ρ)) (now : ℕ) (c : Call ν ρ) : Prop where
  fresh : c.point.phase = .before → c.won = false
  reserved : c.point.phase = .reserved → c.won = true ∧ c.enteredAt = none
  entered : c.won = false → c.enteredAt = none
  lasts : c.won = true → ∃ u, c.reservedUntil = some u ∧ Lasts rows now c.req u
  inTime : ∀ u ∈ c.reservedUntil, ∀ e ∈ c.enteredAt, e / 1000 < u / 1000

/-- By the time `c` reached the handler, or by now, the time `u` was over. -/
def Past (now u : ℕ) (c : Call ν ρ) : Prop := u / 1000 ≤ c.enteredAt.getD now / 1000

/-- Of two reservations one was over before the other request reached the handler. -/
def Apart (now : ℕ) (c c' : Call ν ρ) : Prop :=
  c.won = true → c'.won = true → ∀ u ∈ c.reservedUntil, ∀ u' ∈ c'.reservedUntil,
    Past now u c' ∨ Past now u' c

structure Separate (s : Calls ι (Shared ρ) (Call ν ρ)) : Prop where
  sound : ∀ i, (s.call i).Sound s.shared.rows s.shared.now
  apart : ∀ i j, i ≠ j → (s.call i).req.Alike (s.call j).req →
    Apart s.shared.now (s.call i) (s.call j)

theorem Past.mono {now now' u : ℕ} {c : Call ν ρ} (hpast : Past now u c) (hle : now ≤ now') :
    Past now' u c := by
  rw [Past] at hpast ⊢
  cases hc : c.enteredAt with
  | none =>
    rw [hc] at hpast
    exact hpast.trans (Nat.div_le_div_right hle)
  | some e =>
    rw [hc] at hpast
    exact hpast

theorem Apart.symm {now : ℕ} {c c' : Call ν ρ} (h : Apart now c c') : Apart now c' c :=
  fun hc' hc u' hu' u hu ↦ (h hc hc' u hu u' hu').symm

theorem Apart.mono {now now' : ℕ} {c c' : Call ν ρ} (h : Apart now c c') (hle : now ≤ now') :
    Apart now' c c' :=
  fun hc hc' u hu u' hu' ↦ (h hc hc' u hu u' hu').imp (·.mono hle) (·.mono hle)

theorem Call.Sound.mono {rows rows' : List (Row ρ)} {now now' : ℕ} {c : Call ν ρ}
    (hc : c.Sound rows now) (hle : now ≤ now') (hkeeps : Keeps rows rows' now') :
    c.Sound rows' now' where
  fresh := hc.fresh
  reserved := hc.reserved
  entered := hc.entered
  lasts hwon :=
    have ⟨u, hu, hlasts⟩ := hc.lasts hwon
    ⟨u, hu, hlasts.mono hle hkeeps⟩
  inTime := hc.inTime

theorem Separate.exclusive {s : Calls ι (Shared ρ) (Call ν ρ)} (hs : Separate s) : Exclusive s := by
  intro i j hne halike ei hei ej hej hle u hu
  have hwon : ∀ k, ∀ e ∈ (s.call k).enteredAt, (s.call k).won = true := by
    intro k e he
    refine Bool.eq_true_of_not_eq_false fun hwon ↦ ?_
    rw [(hs.sound k).entered hwon] at he
    cases he
  obtain ⟨u', hu', -⟩ := (hs.sound j).lasts (hwon j ej hej)
  rcases hs.apart i j hne halike (hwon i ei hei) (hwon j ej hej) u hu u' hu' with hpast | hpast
  · rwa [Past, Option.mem_def.mp hej] at hpast
  · -- the later one would have come after the end of its own reservation
    rw [Past, Option.mem_def.mp hei] at hpast
    have hlate := (hs.sound j).inTime u' hu' ej hej
    have hmono := Nat.div_le_div_right (c := 1000) hle
    simp only [Option.getD_some] at hpast
    omega

/-! ### One step -/

section Moves

variable {sh : Shared ρ} {now : ℕ} {c c' : Call ν ρ} {rows : List (Row ρ)}

theorem Moves.keeps (hmoves : Moves sh now c rows c') : Keeps sh.rows rows now := by
  cases hmoves with
  | goOn | lose | fallThrough | enter => exact keeps_refl _ _
  | win => exact keeps_append _ _ _
  | store => exact keeps_complete _ _ _ _ _ _

theorem Moves.req_eq (hmoves : Moves sh now c rows c') : c'.req = c.req := by
  cases hmoves <;> rfl

theorem Moves.sound (hmoves : Moves sh now c rows c') (hle : sh.now ≤ now)
    (hc : c.Sound sh.rows sh.now) (hguard : c.Guarded sh.rows now) : c'.Sound rows now := by
  have hkeeps := hmoves.keeps
  have hc := hc.mono hle hkeeps
  cases hmoves with
  | goOn p hphase =>
    refine ⟨fun hp ↦ ?_, fun hp ↦ ?_, hc.entered, hc.lasts, hc.inTime⟩
    · rcases hphase with hsame | hclosed | ⟨-, hanswered⟩
      · exact hc.fresh (hsame.symm.trans hp)
      · exact absurd (hclosed.symm.trans hp) (by decide)
      · exact absurd (hanswered.symm.trans hp) (by decide)
    · rcases hphase with hsame | hclosed | ⟨-, hanswered⟩
      · exact hc.reserved (hsame.symm.trans hp)
      · exact absurd (hclosed.symm.trans hp) (by decide)
      · exact absurd (hanswered.symm.trans hp) (by decide)
  | win hash expiresAt r hpoint hfree howns hpending hexpires =>
    have hfresh : c.enteredAt = none := hc.entered (hc.fresh (by rw [hpoint]; rfl))
    refine ⟨nofun, fun _ ↦ ⟨rfl, hfresh⟩, nofun, fun _ ↦ ⟨expiresAt, rfl, ?_⟩, ?_⟩
    · exact .inr ⟨r, List.mem_append_right _ (List.mem_singleton.mpr rfl), howns, hexpires⟩
    · intro u _ e he
      rw [hfresh] at he
      cases he
  | lose hash expiresAt hpoint =>
    have hwon : c.won = false := hc.fresh (by rw [hpoint]; rfl)
    refine ⟨fun _ ↦ hwon, nofun, hc.entered, fun h ↦ absurd (hwon.symm.trans h) (by decide), ?_⟩
    intro u _ e he
    rw [hc.entered hwon] at he
    cases he
  | fallThrough hash hpoint hmissed =>
    rw [Call.Guarded, hpoint] at hguard
    obtain ⟨r, hr, hanswers⟩ := hguard
    rw [hmissed r hr] at hanswers
    cases hanswers
  | enter hash warning hpoint =>
    rw [Call.Guarded, hpoint] at hguard
    obtain ⟨hwon, -⟩ := hc.reserved (by rw [hpoint]; rfl)
    refine ⟨nofun, nofun, fun h ↦ absurd (hwon.symm.trans h) (by decide), hc.lasts, ?_⟩
    rintro u hu e ⟨⟩
    exact hguard u hu
  | store response userId hpoint => exact ⟨nofun, nofun, hc.entered, hc.lasts, hc.inTime⟩

theorem Moves.apart (hmoves : Moves sh now c rows c') (hle : sh.now ≤ now)
    (hc : c.Sound sh.rows sh.now) (hguard : c.Guarded sh.rows now) {d : Call ν ρ}
    (hd : d.Sound sh.rows sh.now) (halike : c.req.Alike d.req) (h : Apart sh.now c d) :
    Apart now c' d := by
  have h := h.mono hle
  cases hmoves with
  | goOn | store => exact h
  | win hash expiresAt r hpoint hfree howns hpending hexpires =>
    rw [Call.Guarded, hpoint] at hguard
    intro _ hdwon u hu u' hu'
    obtain ⟨v, hv, hlasts⟩ := hd.lasts hdwon
    obtain rfl : v = u' := Option.some.inj (hv.symm.trans hu')
    have hfresh : c.enteredAt = none := hc.entered (hc.fresh (by rw [hpoint]; rfl))
    have hpast : v / 1000 ≤ now / 1000 := by
      rcases hlasts with hpast | ⟨r', hr', hdowns, rfl⟩
      · exact hpast.trans (Nat.div_le_div_right hle)
      -- the record of the other one is one of this request, so it has expired
      · have hcowns : c.req.owns r' = true := by
          rwa [Request.owns, halike.1, halike.2]
        cases hscope : c.req.apiKeyId with
        | some a =>
          rw [hfree r' hr' (by rw [hscope]; rfl)] at hcowns
          cases hcowns
        | none =>
          have hdead : ¬r'.unexpired now = true := by
            rw [hguard r' hr' hcowns, hscope]
            exact Bool.false_ne_true
          rw [Row.unexpired, decide_eq_true_iff, not_lt] at hdead
          exact hdead
    refine .inr ?_
    rw [Past, hfresh]
    exact hpast
  | lose hash expiresAt hpoint =>
    intro hwon
    exact absurd ((hc.fresh (by rw [hpoint]; rfl)).symm.trans hwon) (by decide)
  | fallThrough => exact h
  | enter hash warning hpoint =>
    obtain ⟨-, hnone⟩ := hc.reserved (by rw [hpoint]; rfl)
    intro hwon hdwon u hu u' hu'
    refine (h hwon hdwon u hu u' hu').imp_right fun hpast ↦ ?_
    rwa [Past, hnone] at hpast

end Moves

section Steps

variable [DecidableEq ι]

theorem Separate.step (s : Calls ι (Shared ρ) (Call ν ρ)) (a : Action ι ρ) (hs : Separate s)
    (hguard : Guarded s a) : Separate (step .requireIdempotency h s a) := by
  cases a with
  | cleanup elapsed =>
    have hle : s.shared.now ≤ s.shared.now + elapsed := Nat.le_add_right _ _
    refine ⟨fun i ↦ ?_, fun i j hne halike ↦ ?_⟩
    · exact (hs.sound i).mono hle (keeps_cleanup _ _)
    · exact (hs.apart i j hne halike).mono hle
  | resume i env =>
    have hle : s.shared.now ≤ s.shared.now + env.elapsed := Nat.le_add_right _ _
    have hmoves := moves_resume h s.shared (s.call i) env
    have hnow := resume_now .requireIdempotency h s.shared (s.call i) env
    constructor
    · refine Calls.forall_step
        (P := fun (sh : Shared ρ) (c : Call ν ρ) ↦ c.Sound sh.rows sh.now) hs.sound ?_
        fun x hx ↦ ?_
      · rw [hnow]
        exact hmoves.sound hle (hs.sound i) hguard
      · rw [hnow]
        exact hx.mono hle hmoves.keeps
    · rw [Idempotency.step, Calls.step_shared, hnow]
      refine Calls.forall_ne_step
        (R := fun c d : Call ν ρ ↦ c.req.Alike d.req → Apart (s.shared.now + env.elapsed) c d)
        (fun c d hcd halike ↦ (hcd halike.symm).symm)
        (fun j k hne halike ↦ (hs.apart j k hne halike).mono hle) fun j hne halike ↦ ?_
      rw [hmoves.req_eq] at halike
      exact hmoves.apart hle (hs.sound i) hguard (hs.sound j) halike (hs.apart i j hne.symm halike)

/-- **Mutual exclusion.** In a run whose steps are all guarded, two requests with the same key and
API key never reach the handler within the time to live of a record, whatever the table holds at
the start. -/
theorem requireIdempotency_exclusive (rows : List (Row ρ)) (now : ℕ) (req : ι → Request ν)
    (as : List (Action ι ρ))
    (hguard : Along (step .requireIdempotency h) Guarded (start rows now req) as) :
    Always (step .requireIdempotency h) Exclusive (start rows now req) as := by
  refine (hguard.always (P := Separate) Separate.step ?_).mono fun s hs ↦ hs.exclusive
  constructor
  · intro i
    exact ⟨fun _ ↦ rfl, nofun, fun _ ↦ rfl, nofun, nofun⟩
  · intro i j _ _ hwon
    cases hwon

end Steps

section Examples

/-- Bodies with natural numbers, and a digest that changes nothing. -/
def plainHashing : Hashing ℕ := ⟨id, Json.natText⟩

def keyed (apiKey : Option ℕ) : Request ℕ where
  idempotencyKey := some "donation-key-001"
  apiKey := apiKey
  body := .obj [("amount", .num 5)]

/-- Statements and handler succeed, a second after the last step. -/
def okEnv : Env String := ⟨1000, none, .ok "created", none⟩

def steps (is : List (Fin 2)) : List (Action (Fin 2) String) := is.map (.resume · okEnv)

/-- The record of the API key 1 that expired at the start. -/
def expiredRow : Row String where
  apiKeyId := some 1
  idempotencyKey := "donation-key-001"
  requestHash := ""
  response := some "old"
  status := .completed
  userId := none
  createdAt := 0
  expiresAt := defaultTtl

theorem not_exclusive_of_entered {s : Calls (Fin 2) (Shared String) (Call ℕ String)}
    (e e' u : ℕ) (halike : (s.call 0).req.Alike (s.call 1).req) (he : (s.call 0).enteredAt = some e)
    (he' : (s.call 1).enteredAt = some e') (hle : e ≤ e') (hu : (s.call 0).reservedUntil = some u)
    (hlt : e' / 1000 < u / 1000) : ¬Exclusive s :=
  fun h ↦ hlt.not_ge (h 0 1 (by decide) halike e he e' he' hle u hu)

/-- Without an API key two requests reserve side by side. With one, and an expired record in the
table, two requests reach the handler even one after the other. -/
theorem both_reach_handler :
    ¬Always (step .requireIdempotency plainHashing) Exclusive (start [] 0 fun _ ↦ keyed none)
        (steps [0, 0, 0, 1, 1, 1, 0, 1, 0, 1]) ∧
      ¬Always (step .requireIdempotency plainHashing) Exclusive
        (start [expiredRow] (defaultTtl + 1000) fun _ ↦ keyed (some 1))
        (steps (List.replicate 9 0 ++ List.replicate 7 1)) := by
  constructor
  · intro h
    exact not_exclusive_of_entered 9000 10000 (defaultTtl + 3000) (by decide)
      (by decide) (by decide) (by decide) (by decide) (by decide) h.last
  · intro h
    exact not_exclusive_of_entered (defaultTtl + 8000) (defaultTtl + 17000)
      (defaultTtl + 4000 + defaultTtl) (by decide) (by decide) (by decide)
      (by decide) (by decide) (by decide) h.last

instance (rows : List (Row String)) (now : ℕ) (c : Call ℕ String) :
    Decidable (c.Guarded rows now) := by
  unfold Call.Guarded
  split <;> infer_instance

instance (s : Calls (Fin 2) (Shared String) (Call ℕ String)) (a : Action (Fin 2) String) :
    Decidable (Guarded s a) := by
  unfold Guarded
  split <;> infer_instance

/-- With an API key, and nothing in the table, the second request is refused. -/
theorem requireIdempotency_exclusive_at :
    Always (step .requireIdempotency plainHashing) Exclusive (start [] 0 fun _ ↦ keyed (some 1))
      (steps [0, 0, 0, 1, 1, 1, 0, 1, 0, 1]) :=
  requireIdempotency_exclusive [] 0 _ _ (by decide)

end Examples

/-! ## Conflicts -/

/-- The call is past its reservation and has not been answered. -/
def Call.InProgress (c : Call ν ρ) : Prop := c.point.phase = .reserved ∨ c.point.phase = .running

/-- The call has ended and has left its reservation behind: something failed after it. -/
def Call.Abandoned (c : Call ν ρ) : Prop :=
  c.won = true ∧ c.point.phase = .closed ∧ c.stored = false

def Call.Reserves (now : ℕ) (c : Call ν ρ) (r : Row ρ) : Prop :=
  c.req.owns r = true ∧ r.status = .pending ∧ r.unexpired now = true ∧
    c.reservedUntil = some r.expiresAt

/-- A step that answers a request with a conflict is taken while another request with the same key
and API key is in progress. -/
def ConflictsInProgress (h : Hashing ν) [DecidableEq ι] (s : Calls ι (Shared ρ) (Call ν ρ)) :
    Action ι ρ → Prop
  | .resume i env =>
    ((step .requireIdempotency h s (.resume i env)).call i).point = .conflict →
      (s.call i).point ≠ .conflict →
        ∃ j, j ≠ i ∧ (s.call i).req.Alike (s.call j).req ∧ (s.call j).InProgress
  | .cleanup _ => True

/-- The request looks for a reservation when no request with the same key and API key has left a
live one behind. -/
def NothingLeft (s : Calls ι (Shared ρ) (Call ν ρ)) : Action ι ρ → Prop
  | .resume i env =>
    (s.call i).point.looks = true → ∀ j, (s.call j).Abandoned →
      (s.call i).req.Alike (s.call j).req →
        ∀ r ∈ s.shared.rows, ¬(s.call j).Reserves (s.shared.now + env.elapsed) r
  | .cleanup _ => True

structure Call.Proper (c : Call ν ρ) : Prop where
  fresh : c.point.phase = .before → c.won = false
  stored : c.stored = true → c.point.phase = .closed

/-- The call made the reservation, and is in progress or has left it behind. -/
structure Call.Accounts (c : Call ν ρ) (r : Row ρ) : Prop where
  owns : c.req.owns r = true
  expires : c.reservedUntil = some r.expiresAt
  won : c.won = true
  phase : c.InProgress ∨ c.Abandoned

structure Accounted (s : Calls ι (Shared ρ) (Call ν ρ)) : Prop where
  proper : ∀ i, (s.call i).Proper
  reserved : ∀ r ∈ s.shared.rows, r.status = .pending → r.unexpired s.shared.now = true →
    ∃ j, (s.call j).Accounts r

section Moves

variable {sh : Shared ρ} {now : ℕ} {c c' : Call ν ρ} {rows : List (Row ρ)}

theorem Moves.proper (hmoves : Moves sh now c rows c') (hc : c.Proper) : c'.Proper := by
  -- a call that has not ended has stored nothing
  have hstored {p : Phase} (hp : c.point.phase = p) (hne : p ≠ .closed) : c.stored ≠ true :=
    fun h ↦ hne (hp.symm.trans (hc.stored h))
  cases hmoves with
  | goOn p hphase =>
    refine ⟨fun hp ↦ ?_, fun hst ↦ ?_⟩
    · rcases hphase with hsame | hclosed | ⟨-, hanswered⟩
      · exact hc.fresh (hsame.symm.trans hp)
      · exact absurd (hclosed.symm.trans hp) (by decide)
      · exact absurd (hanswered.symm.trans hp) (by decide)
    · have hclosed := hc.stored hst
      rcases hphase with hsame | hp | ⟨hbefore, -⟩
      · exact hsame.trans hclosed
      · exact hp
      · exact absurd (hbefore.symm.trans hclosed) (by decide)
  | win hash expiresAt r hpoint =>
    have hbefore : c.point.phase = .before := by rw [hpoint]; rfl
    exact ⟨nofun, fun h ↦ absurd h (hstored hbefore (by decide))⟩
  | lose hash expiresAt hpoint =>
    have hbefore : c.point.phase = .before := by rw [hpoint]; rfl
    exact ⟨fun _ ↦ hc.fresh hbefore, fun h ↦ absurd h (hstored hbefore (by decide))⟩
  | fallThrough hash hpoint =>
    have hbefore : c.point.phase = .before := by rw [hpoint]; rfl
    exact ⟨nofun, fun h ↦ absurd h (hstored hbefore (by decide))⟩
  | enter hash warning hpoint =>
    have hreserved : c.point.phase = .reserved := by rw [hpoint]; rfl
    exact ⟨nofun, fun h ↦ absurd h (hstored hreserved (by decide))⟩
  | store => exact ⟨nofun, fun _ ↦ rfl⟩

/-- A reservation in the table after the step was there before, and is still accounted for if its
call has moved, or it is the reservation just made. -/
theorem Moves.accounts (hmoves : Moves sh now c rows c') (hc : c.Proper) {r : Row ρ}
    (hr : r ∈ rows) (hpending : r.status = .pending) :
    r ∈ sh.rows ∧ (c.Accounts r → c'.Accounts r) ∨ c'.Accounts r := by
  have hfresh (hbefore : c.point.phase = .before) : ¬c.Accounts r := fun hacc ↦
    absurd ((hc.fresh hbefore).symm.trans hacc.won) (by decide)
  cases hmoves with
  | goOn p hphase =>
    refine .inl ⟨hr, fun hacc ↦ ⟨hacc.owns, hacc.expires, hacc.won, ?_⟩⟩
    rcases hacc.phase with hprogress | ⟨hwon, hclosed, hstored⟩
    · rcases hphase with hsame | hp | ⟨hbefore, -⟩
      · exact .inl (hprogress.imp hsame.trans hsame.trans)
      · refine .inr ⟨hacc.won, hp, Bool.eq_false_of_not_eq_true fun hst ↦ ?_⟩
        rcases hprogress with h | h <;> exact absurd (h.symm.trans (hc.stored hst)) (by decide)
      · exact absurd hacc (hfresh hbefore)
    · rcases hphase with hsame | hp | ⟨hbefore, -⟩
      · exact .inr ⟨hwon, hsame.trans hclosed, hstored⟩
      · exact .inr ⟨hwon, hp, hstored⟩
      · exact absurd hacc (hfresh hbefore)
  | win hash expiresAt r' hpoint hfree howns hstatus hexpires =>
    rcases List.mem_append.mp hr with hr | hr
    · exact .inl ⟨hr, fun hacc ↦ absurd hacc (hfresh (by rw [hpoint]; rfl))⟩
    · obtain rfl := List.mem_singleton.mp hr
      exact .inr ⟨howns, congrArg some hexpires.symm, rfl, .inl (.inl rfl)⟩
  | lose hash expiresAt hpoint =>
    exact .inl ⟨hr, fun hacc ↦ absurd hacc (hfresh (by rw [hpoint]; rfl))⟩
  | fallThrough hash hpoint =>
    exact .inl ⟨hr, fun hacc ↦ absurd hacc (hfresh (by rw [hpoint]; rfl))⟩
  | enter => exact .inl ⟨hr, fun hacc ↦ ⟨hacc.owns, hacc.expires, hacc.won, .inl (.inr rfl)⟩⟩
  | store response userId hpoint =>
    -- of the records of the key and the API key none is pending any more
    obtain ⟨r', hr', rfl⟩ := List.mem_map.mp hr
    split_ifs at hpending ⊢ with hfor
    exact .inl ⟨hr', fun hacc ↦ absurd hacc.owns hfor⟩

theorem Moves.conflict (hmoves : Moves sh now c rows c') (hconflict : c'.point = .conflict)
    (hne : c.point ≠ .conflict) :
    c.point.looks = true ∧ ∃ r ∈ sh.rows, c.req.owns r = true ∧ r.status = .pending ∧
      r.unexpired now = true := by
  cases hmoves with
  | goOn p hphase hfound =>
    obtain rfl : p = .conflict := hconflict
    obtain ⟨hlooks, hpending⟩ := hfound.resolve_left fun h ↦ hne h.symm
    exact ⟨hlooks, isPending_iff.mp hpending⟩
  | win | lose | fallThrough | enter | store => cases hconflict

end Moves

section Steps

variable [DecidableEq ι]

/-- Every step keeps reservations accounted for. -/
theorem Accounted.step (s : Calls ι (Shared ρ) (Call ν ρ)) (a : Action ι ρ) (hs : Accounted s) :
    Accounted (step .requireIdempotency h s a) := by
  cases a with
  | cleanup elapsed =>
    refine ⟨hs.proper, fun r hr hpending hlive ↦ ?_⟩
    exact hs.reserved r (List.mem_of_mem_filter hr) hpending
      (r.unexpired_of_le (Nat.le_add_right _ _) hlive)
  | resume i env =>
    have hmoves := moves_resume h s.shared (s.call i) env
    refine ⟨Calls.forall_step (P := fun (_ : Shared ρ) (c : Call ν ρ) ↦ c.Proper) hs.proper
      (hmoves.proper (hs.proper i)) fun _ hx ↦ hx, fun r hr hpending hlive ↦ ?_⟩
    rw [Idempotency.step, Calls.step_shared] at hr hlive
    rw [resume_now] at hlive
    rcases hmoves.accounts (hs.proper i) hr hpending with ⟨hr, hself⟩ | hself
    · obtain ⟨j, hj⟩ := hs.reserved r hr hpending (r.unexpired_of_le (Nat.le_add_right _ _) hlive)
      refine ⟨j, ?_⟩
      by_cases hji : j = i
      · subst hji
        rw [Idempotency.step, Calls.step_call_self]
        exact hself hj
      · rw [Idempotency.step, Calls.step_call_of_ne s env hji]
        exact hj
    · refine ⟨i, ?_⟩
      rw [Idempotency.step, Calls.step_call_self]
      exact hself

/-- A conflict is found with the reservation of a call that is still in progress, when no other one
has been left behind. -/
theorem Accounted.conflictsInProgress (s : Calls ι (Shared ρ) (Call ν ρ)) (a : Action ι ρ)
    (hs : Accounted s) (hleft : NothingLeft s a) : ConflictsInProgress h s a := by
  cases a with
  | cleanup elapsed => trivial
  | resume i env =>
    intro hconflict hne
    rw [Idempotency.step, Calls.step_call_self] at hconflict
    obtain ⟨hlooks, r, hr, howns, hpending, hlive⟩ :=
      (moves_resume h s.shared (s.call i) env).conflict hconflict hne
    obtain ⟨j, hj⟩ := hs.reserved r hr hpending (r.unexpired_of_le (Nat.le_add_right _ _) hlive)
    obtain ⟨hk, ha⟩ := Row.isFor_iff.mp howns
    obtain ⟨hk', ha'⟩ := Row.isFor_iff.mp hj.owns
    have halike : (s.call i).req.Alike (s.call j).req := ⟨hk.symm.trans hk', ha.symm.trans ha'⟩
    have hprogress : (s.call j).InProgress := by
      refine hj.phase.resolve_right fun habandoned ↦ ?_
      exact hleft hlooks j habandoned halike r hr ⟨hj.owns, hpending, hlive, hj.expires⟩
    refine ⟨j, ?_, halike, hprogress⟩
    rintro rfl
    -- a call that looks for a reservation has not got one
    have hbefore := Point.phase_of_looks hlooks
    rcases hprogress with h | h <;> exact absurd (h.symm.trans hbefore) (by decide)

/-- **No wedged key.** From a table without live reservations, in a run in which no request looks
for a reservation that was left behind, a request is answered with a conflict only while another
one with its key and API key is in progress. -/
theorem conflicts_in_progress (rows : List (Row ρ)) (now : ℕ) (req : ι → Request ν)
    (hrows : ∀ r ∈ rows, r.status = .pending → r.unexpired now = false) (as : List (Action ι ρ))
    (hleft : Along (step .requireIdempotency h) NothingLeft (start rows now req) as) :
    Along (step .requireIdempotency h) (ConflictsInProgress h) (start rows now req) as := by
  refine hleft.of_always (fun s a hs hC ↦ hs.conflictsInProgress s a hC)
    (always_of_step (P := Accounted) Accounted.step ?_ as)
  refine ⟨fun i ↦ ⟨fun _ ↦ rfl, nofun⟩, fun r hr hpending hlive ↦ ?_⟩
  exact absurd ((hrows r hr hpending).symm.trans hlive) (by decide)

end Steps

section Examples

def failingEnv : Env String := { okEnv with handler := .error (.plain "Horizon is unreachable") }

def failedOnce : List (Action (Fin 2) String) :=
  List.replicate 6 (.resume 0 failingEnv) ++ List.replicate 3 (.resume 1 okEnv)

instance (c : Call ℕ String) : Decidable c.InProgress := inferInstanceAs (Decidable (_ ∨ _))

instance (c : Call ℕ String) : Decidable c.Abandoned := inferInstanceAs (Decidable (_ ∧ _))

instance (now : ℕ) (c : Call ℕ String) (r : Row String) : Decidable (c.Reserves now r) :=
  inferInstanceAs (Decidable (_ ∧ _))

instance (s : Calls (Fin 2) (Shared String) (Call ℕ String)) (a : Action (Fin 2) String) :
    Decidable (ConflictsInProgress plainHashing s a) := by
  unfold ConflictsInProgress
  split <;> infer_instance

instance (s : Calls (Fin 2) (Shared String) (Call ℕ String)) (a : Action (Fin 2) String) :
    Decidable (NothingLeft s a) := by
  unfold NothingLeft
  split <;> infer_instance

/-- The retry is answered with a conflict, although nobody else is there. -/
theorem retry_conflicts :
    ¬Along (step .requireIdempotency plainHashing) (ConflictsInProgress plainHashing)
      (start [] 0 fun _ ↦ keyed (some 1)) failedOnce := by
  decide

/-- The retry of a request that has succeeded is answered from its record. -/
theorem conflicts_in_progress_at :
    Along (step .requireIdempotency plainHashing) (ConflictsInProgress plainHashing)
      (start [] 0 fun _ ↦ keyed (some 1)) (steps (List.replicate 7 0 ++ List.replicate 3 1)) :=
  conflicts_in_progress [] 0 _ nofun _ (by decide)

end Examples

end StellarDonations.Idempotency
