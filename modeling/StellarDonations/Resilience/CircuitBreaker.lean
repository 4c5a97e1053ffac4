import Mathlib.Data.Int.Notation
import StellarDonations.Concurrency.Interleaving
import StellarDonations.Errors

/-!
# The circuit breaker

One `CircuitBreaker` and any number of overlapping calls of `execute`. The breaker opens after
enough failures, refuses everything for a cooldown, and then lets a single operation through as a
probe, whose outcome closes or reopens it.

An operation that was admitted while the breaker was closed may fail at any later time, also while a
probe is in flight. If that failure reaches the threshold it reopens the breaker and forgets the
probe: after the next cooldown a second one is admitted beside it. Whether or not this happens, only
a probe that succeeds closes the breaker.
-/

namespace StellarDonations.CircuitBreaker

open Concurrency

/-! ## The breaker -/

/-- `STATES`. -/
inductive BreakerState where
  | closed
  | opened
  | halfOpen
  deriving DecidableEq, Repr

structure Config where
  failureThreshold : ℕ
  windowMs : ℤ
  cooldownMs : ℤ
  name : String

structure Breaker where
  state : BreakerState
  failures : List ℤ
  openedAt : Option ℤ
  probeInFlight : Bool
  deriving DecidableEq

def new : Breaker := ⟨.closed, [], none, false⟩

/-- A statement on the row of the breaker, which is sent and not awaited. -/
inductive Write where
  /-- `_writeProbeHolder`. -/
  | probeHolder (instanceId : String)
  /-- `_persistState`. -/
  | persist (state : BreakerState) (failureCount : ℕ) (lastFailureAt : ℤ) (openedAt : Option ℤ)
      (clearProbeHolder : Bool)
  deriving DecidableEq

structure CircuitOpenError where
  message : String
  status : ℕ
  circuitOpen : Bool
  deriving DecidableEq

/-- What `execute` does with an operation. -/
inductive Admission where
  | refused (e : CircuitOpenError)
  | operation
  | probe
  deriving DecidableEq

namespace Breaker

variable (cfg : Config) (b : Breaker) (now : ℤ)

def pruneWindow : Breaker := { b with failures := b.failures.filter (now - cfg.windowMs < ·) }

/-- The cooldown of an open breaker has passed. -/
def cooledDown : Bool :=
  b.state = .opened && b.openedAt.any fun openedAt ↦ cfg.cooldownMs ≤ now - openedAt

def maybeTransitionToHalfOpen : Breaker :=
  if b.cooledDown cfg now then { b with state := .halfOpen, probeInFlight := false } else b

def persistState (clearProbeHolder : Bool) : Write :=
  .persist b.state b.failures.length now b.openedAt clearProbeHolder

def open' : Breaker × List Write :=
  let b := { b with state := .opened, openedAt := some now, probeInFlight := false }
  (b, [b.persistState now false])

def withFailure : Breaker := pruneWindow cfg { b with failures := b.failures ++ [now] } now

def recordFailure : Breaker × List Write :=
  let b := b.withFailure cfg now
  if cfg.failureThreshold ≤ b.failures.length then b.open' now else (b, [])

def onSuccess : Breaker × List Write :=
  (new, [new.persistState now true])

def onProbeFailure : Breaker × List Write := b.open' now

/-- `execute`, up to the call of the operation. -/
def execute : Breaker × Admission :=
  let b := b.maybeTransitionToHalfOpen cfg now
  match b.state with
  | .opened => (b, .refused ⟨"Circuit breaker open: " ++ cfg.name ++ " is unavailable", 503, true⟩)
  | .halfOpen =>
    if b.probeInFlight then
      (b, .refused ⟨"Circuit breaker half-open: " ++ cfg.name ++ " probe in progress", 503, true⟩)
    else ({ b with probeInFlight := true }, .probe)
  | .closed => (b, .operation)

end Breaker

/-! ## Calls of `execute` -/

structure Shared where
  breaker : Breaker
  now : ℤ

/-- Where a call of `execute` is suspended, or how it ended. -/
inductive Call where
  | waiting
  /-- `_runOperation`. -/
  | operating
  /-- `_runProbe`. -/
  | probing
  | returned
  | threw (e : AppError)
  | refused (e : CircuitOpenError)
  deriving DecidableEq

/-- The time that passes before a step, and how the operation ends when it ends. -/
structure Env where
  elapsed : ℕ
  outcome : Except AppError Unit

/-- The call after `execute` has decided. -/
def Admission.call : Admission → Call
  | .refused e => .refused e
  | .operation => .operating
  | .probe => .probing

def runCall (cfg : Config) (b : Breaker) (c : Call) (now : ℤ) (outcome : Except AppError Unit) :
    Breaker × Call :=
  match c, outcome with
  | .waiting, _ => ((b.execute cfg now).1, (b.execute cfg now).2.call)
  | .operating, .ok _ => (b, .returned)
  | .operating, .error e => ((b.recordFailure cfg now).1, .threw e)
  | .probing, .ok _ => ((Breaker.onSuccess now).1, .returned)
  | .probing, .error e => ((b.onProbeFailure now).1, .threw e)
  | .returned, _ | .threw _, _ | .refused _, _ => (b, c)

def resume (cfg : Config) (sh : Shared) (c : Call) (env : Env) : Shared × Call :=
  let now := sh.now + env.elapsed
  let (b, c') := runCall cfg sh.breaker c now env.outcome
  (⟨b, now⟩, c')

variable {ι : Type*}

def step [DecidableEq ι] (cfg : Config) (s : Calls ι Shared Call) (a : ι × Env) :
    Calls ι Shared Call :=
  Calls.step (resume cfg) s a

/-- At most one operation that was admitted as a probe is in flight. -/
def OneProbe (s : Calls ι Shared Call) : Prop := AtMostOne (· = .probing) s.call

def ClosedByProbe [DecidableEq ι] (cfg : Config) (s : Calls ι Shared Call) (a : ι × Env) : Prop :=
  s.shared.breaker.state ≠ .closed → (step cfg s a).shared.breaker.state = .closed →
    s.call a.1 = .probing ∧ a.2.outcome.isOk = true

/-- The step is the failure of an operation admitted while the breaker was closed, and it reaches
the threshold. -/
def Reopens (cfg : Config) (s : Calls ι Shared Call) (a : ι × Env) : Prop :=
  s.call a.1 = .operating ∧ a.2.outcome.isOk = false ∧ cfg.failureThreshold ≤
    (s.shared.breaker.withFailure cfg (s.shared.now + a.2.elapsed)).failures.length

/-- Such a failure does not come while a probe is in flight. -/
def ProbeUndisturbed (cfg : Config) (s : Calls ι Shared Call) (a : ι × Env) : Prop :=
  Reopens cfg s a → ∀ i, s.call i ≠ .probing

/-! ## One step -/

section Steps

variable {cfg : Config} {b : Breaker} {now : ℤ}

structure Probing (b : Breaker) : Prop where
  state : b.state = .halfOpen
  flag : b.probeInFlight = true

theorem maybeTransitionToHalfOpen_of_ne (cfg : Config) (now : ℤ) (h : b.state ≠ .opened) :
    b.maybeTransitionToHalfOpen cfg now = b := by
  rw [Breaker.maybeTransitionToHalfOpen, Breaker.cooledDown, decide_eq_false h, Bool.false_and]
  exact if_neg Bool.false_ne_true

/-- `execute` does not close the breaker. -/
theorem state_execute_ne_closed (h : b.state ≠ .closed) :
    (b.execute cfg now).1.state ≠ .closed := by
  have htransition : (b.maybeTransitionToHalfOpen cfg now).state ≠ .closed := by
    rw [Breaker.maybeTransitionToHalfOpen]
    split_ifs
    · exact fun hclosed ↦ nomatch hclosed
    · exact h
  rw [Breaker.execute]
  split
  · exact htransition
  · split_ifs
    · exact htransition
    · exact htransition
  · next hclosed => exact absurd hclosed htransition

theorem Probing.execute (h : Probing b) (cfg : Config) (now : ℤ) :
    ∃ e, b.execute cfg now = (b, .refused e) := by
  have hsame := maybeTransitionToHalfOpen_of_ne cfg now
    (show b.state ≠ .opened by rw [h.state]; decide)
  exact ⟨_, by rw [Breaker.execute, hsame, h.state, if_pos h.flag]⟩

theorem probing_of_execute (h : (b.execute cfg now).2 = .probe) :
    Probing (b.execute cfg now).1 := by
  rw [Breaker.execute] at h ⊢
  split at h
  · cases h
  · next hhalf =>
    split_ifs at h with hflag
    rw [if_neg hflag]
    exact ⟨hhalf, rfl⟩
  · cases h

theorem opened_recordFailure
    (h : cfg.failureThreshold ≤ (b.withFailure cfg now).failures.length) :
    (b.recordFailure cfg now).1.state = .opened := by
  rw [Breaker.recordFailure, if_pos h]
  rfl

theorem recordFailure_of_lt (h : ¬cfg.failureThreshold ≤ (b.withFailure cfg now).failures.length) :
    (b.recordFailure cfg now).1 = b.withFailure cfg now := by
  rw [Breaker.recordFailure, if_neg h]

/-- What a call that is resumed may have done: it has started a probe, or it has ended one or
reopened the breaker, or it has left the breaker in its state and the probe in flight. -/
inductive Moves (cfg : Config) (b : Breaker) (c : Call) (now : ℤ) (ok : Bool) (b' : Breaker)
    (c' : Call) : Prop
  | starts (hc : c = .waiting) (hc' : c' = .probing) (hbefore : ¬Probing b) (hafter : Probing b')
  | ends (hc : c = .probing) (hc' : c' ≠ .probing) (hclosed : b'.state = .closed → ok = true)
  | reopens (hc : c = .operating) (hok : ok = false) (hc' : c' ≠ .probing)
      (hreached : cfg.failureThreshold ≤ (b.withFailure cfg now).failures.length)
      (hopened : b'.state = .opened)
  | keeps (hc : c ≠ .probing) (hc' : c' ≠ .probing) (hprobing : Probing b → Probing b')
      (hclosed : b'.state = .closed → b.state = .closed)

/-- **What a step does.** -/
theorem moves_runCall (cfg : Config) (b : Breaker) (c : Call) (now : ℤ)
    (outcome : Except AppError Unit) :
    Moves cfg b c now outcome.isOk (runCall cfg b c now outcome).1
      (runCall cfg b c now outcome).2 := by
  cases c with
  | waiting =>
    have hclosed : (b.execute cfg now).1.state = .closed → b.state = .closed :=
      fun h ↦ by_contra fun hne ↦ state_execute_ne_closed hne h
    by_cases hprobe : (b.execute cfg now).2 = .probe
    · refine .starts rfl (by rw [runCall, hprobe]; rfl) (fun h ↦ ?_) (probing_of_execute hprobe)
      obtain ⟨e, he⟩ := h.execute cfg now
      rw [he] at hprobe
      cases hprobe
    · refine .keeps (fun h ↦ nomatch h) ?_ (fun h ↦ ?_) hclosed
      · rw [runCall]
        cases hadmission : (b.execute cfg now).2 with
        | probe => exact absurd hadmission hprobe
        | refused | operation => exact fun h ↦ nomatch h
      · obtain ⟨e, he⟩ := h.execute cfg now
        rw [runCall, he]
        exact h
  | operating =>
    cases outcome with
    | ok => exact .keeps (fun h ↦ nomatch h) (fun h ↦ nomatch h) id id
    | error e =>
      -- a failure that reaches the threshold reopens the breaker, whatever its state is
      by_cases hreached : cfg.failureThreshold ≤ (b.withFailure cfg now).failures.length
      · exact .reopens rfl rfl (fun h ↦ nomatch h) hreached (opened_recordFailure hreached)
      · rw [runCall, recordFailure_of_lt hreached]
        exact .keeps (fun h ↦ nomatch h) (fun h ↦ nomatch h) (fun h ↦ ⟨h.state, h.flag⟩) id
  | probing =>
    cases outcome with
    | ok => exact .ends rfl (fun h ↦ nomatch h) fun _ ↦ rfl
    | error e => exact .ends rfl (fun h ↦ nomatch h) fun h ↦ nomatch h
  | returned | threw | refused =>
    exact .keeps (fun h ↦ nomatch h) (fun h ↦ nomatch h) id id

end Steps

/-! ## Runs -/

section Runs

variable {cfg : Config} {s : Calls ι Shared Call}

structure Sound (s : Calls ι Shared Call) : Prop where
  one : OneProbe s
  known : ∀ i, s.call i = .probing → Probing s.shared.breaker

variable [DecidableEq ι] {a : ι × Env}

theorem moves_step (cfg : Config) (s : Calls ι Shared Call) (a : ι × Env) :
    Moves cfg s.shared.breaker (s.call a.1) (s.shared.now + a.2.elapsed) a.2.outcome.isOk
      (step cfg s a).shared.breaker ((step cfg s a).call a.1) := by
  obtain ⟨i, env⟩ := a
  rw [step, Calls.step_call_self]
  exact moves_runCall cfg s.shared.breaker (s.call i) (s.shared.now + env.elapsed) env.outcome

/-- **One step** in which no probe in flight is forgotten. -/
theorem Sound.step (h : Sound s) (hundisturbed : ProbeUndisturbed cfg s a) :
    Sound (step cfg s a) := by
  obtain ⟨i, env⟩ := a
  have hother : ∀ j, j ≠ i → (CircuitBreaker.step cfg s (i, env)).call j = s.call j :=
    fun j hj ↦ Calls.step_call_of_ne s env hj
  have hself : (CircuitBreaker.step cfg s (i, env)).call i =
      (resume cfg s.shared (s.call i) env).2 := Calls.step_call_self s i env
  have hmoves := moves_step cfg s (i, env)
  rw [hself] at hmoves
  cases hmoves with
  | starts hc hc' hbefore hafter =>
    -- every probe in flight has set the flag, and this one found it clear
    have hnone : ∀ j, s.call j ≠ .probing := fun j hj ↦ hbefore (h.known j hj)
    refine ⟨h.one.update fun _ ↦ .inr fun j _ ↦ hnone j, fun j _ ↦ hafter⟩
  | ends hc hc' hclosed =>
    refine ⟨h.one.update fun hx ↦ absurd hx hc', fun j hj ↦ ?_⟩
    by_cases hji : j = i
    · subst hji
      exact absurd (hself.symm.trans hj) hc'
    · rw [hother j hji] at hj
      exact absurd (h.one j i hj hc) hji
  | reopens hc hok hc' hreached hopened =>
    have hnone := hundisturbed ⟨hc, hok, hreached⟩
    refine ⟨h.one.update fun hx ↦ absurd hx hc', fun j hj ↦ ?_⟩
    by_cases hji : j = i
    · subst hji
      exact absurd (hself.symm.trans hj) hc'
    · rw [hother j hji] at hj
      exact absurd hj (hnone j)
  | keeps hc hc' hprobing hclosed =>
    refine ⟨h.one.update fun hx ↦ absurd hx hc', fun j hj ↦ ?_⟩
    by_cases hji : j = i
    · subst hji
      exact absurd (hself.symm.trans hj) hc'
    · rw [hother j hji] at hj
      exact hprobing (h.known j hj)

/-- Every step that closes the breaker is the success of a probe. -/
theorem closedByProbe (cfg : Config) (s : Calls ι Shared Call) (a : ι × Env) :
    ClosedByProbe cfg s a := by
  intro hbefore hafter
  cases moves_step cfg s a with
  | starts hc hc' hprobing hprobing' => exact absurd (hafter.symm.trans hprobing'.state) (by decide)
  | ends hc hc' hclosed => exact ⟨hc, hclosed hafter⟩
  | reopens hc hok hc' hreached hopened => exact absurd (hafter.symm.trans hopened) (by decide)
  | keeps hc hc' hprobing hclosed => exact absurd (hclosed hafter) hbefore

def start (b : Breaker) (now : ℤ) : Calls ι Shared Call := ⟨⟨b, now⟩, fun _ ↦ .waiting⟩

/-- **Probes are exclusive.** In every run of overlapping calls in which no failure of an operation
that was admitted while the breaker was closed reopens it while a probe is in flight, there is never
more than one probe in flight, and the breaker is closed by successful probes only. -/
theorem probes_exclusive (cfg : Config) (b : Breaker) (now : ℤ) (as : List (ι × Env))
    (h : Along (step cfg) (ProbeUndisturbed cfg) (start b now) as) :
    Always (step cfg) OneProbe (start b now) as ∧
      Along (step cfg) (ClosedByProbe cfg) (start b now) as := by
  have hstart : Sound (start b now : Calls ι Shared Call) := by
    constructor
    · intro i j hi
      cases hi
    · intro i hi
      cases hi
  refine ⟨(h.always (fun _ _ hs ↦ hs.step) hstart).mono fun _ hs ↦ hs.one, ?_⟩
  exact along_of_forall_mem (fun a _ s ↦ closedByProbe cfg s a) _

/-- A failure that reopens the breaker beside a probe is followed by a second probe, if an operation
comes after the cooldown. -/
theorem not_oneProbe_of_reopens {i j : ι} (h : Reopens cfg s a) (hi : s.call i = .probing)
    (hj : s.call j = .waiting) {elapsed : ℕ} (helapsed : cfg.cooldownMs ≤ elapsed)
    (outcome : Except AppError Unit) :
    ¬OneProbe (step cfg (step cfg s a) (j, ⟨elapsed, outcome⟩)) := by
  obtain ⟨k, env⟩ := a
  obtain ⟨hk, hfailed, hreached⟩ := h
  dsimp only at hk hreached
  have hik : i ≠ k := by
    rintro rfl
    cases hi.symm.trans hk
  have hjk : j ≠ k := by
    rintro rfl
    cases hj.symm.trans hk
  have hij : i ≠ j := by
    rintro rfl
    cases hi.symm.trans hj
  -- `_open` clears the flag of the probe that is still in flight
  have hopened : (step cfg s (k, env)).shared.breaker =
      ((s.shared.breaker.withFailure cfg (s.shared.now + env.elapsed)).open'
        (s.shared.now + env.elapsed)).1 := by
    obtain ⟨elapsed', outcome'⟩ := env
    cases outcome' with
    | ok => cases hfailed
    | error e =>
      rw [step, Calls.step_shared, resume, hk, runCall, Breaker.recordFailure, if_pos hreached]
  have hj' : (step cfg s (k, env)).call j = .waiting := (Calls.step_call_of_ne s env hjk).trans hj
  have hi' : (step cfg s (k, env)).call i = .probing := (Calls.step_call_of_ne s env hik).trans hi
  intro hone
  refine hij (hone i j ?_ ?_)
  · rw [step, Calls.step_call_of_ne _ _ hij, hi']
  · have hcooled : (step cfg s (k, env)).shared.breaker.cooledDown cfg
        ((step cfg s (k, env)).shared.now + elapsed) = true := by
      have hnow : (step cfg s (k, env)).shared.now = s.shared.now + env.elapsed := rfl
      rw [hopened, hnow, Breaker.open', Breaker.cooledDown, Option.any_some]
      refine Bool.and_eq_true_iff.mpr ⟨rfl, decide_eq_true ?_⟩
      rwa [add_sub_cancel_left]
    rw [step, Calls.step_call_self, hj', resume, runCall, Breaker.execute,
      Breaker.maybeTransitionToHalfOpen, if_pos hcooled]
    rfl

end Runs

/-! ## Fixed runs -/

instance (cfg : Config) (s : Calls ι Shared Call) (a : ι × Env) : Decidable (Reopens cfg s a) :=
  inferInstanceAs (Decidable (_ ∧ _ ∧ _))

instance [Fintype ι] (cfg : Config) (s : Calls ι Shared Call) (a : ι × Env) :
    Decidable (ProbeUndisturbed cfg s a) :=
  inferInstanceAs (Decidable (_ → ∀ _, _ ≠ _))

def defaultConfig : Config := ⟨5, 60000, 30000, "horizon"⟩

def proceeds (i : ℕ) (elapsed : ℕ) : ℕ × Env := (i, ⟨elapsed, .ok ()⟩)

def fails (i : ℕ) : ℕ × Env := (i, ⟨0, .error (.plain "timeout")⟩)

/-- Six operations are admitted and five of them fail. A probe begins after the cooldown, the sixth
operation fails, and after another cooldown a second probe begins. -/
theorem two_probes :
    ¬Always (step defaultConfig) OneProbe (start new 0)
      ((List.range 6).map (proceeds · 0) ++ (List.range 5).map fails ++
        [proceeds 6 30000, fails 5, proceeds 7 30000]) := by
  intro h
  have hone := h.last 6 7 (by decide) (by decide)
  exact absurd hone (by decide)

/-- A breaker that opens after one failure, and a probe that closes it. -/
theorem probes_exclusive_at :
    Always (step ⟨1, 60000, 30000, "horizon"⟩) OneProbe (start new 0)
        [((0 : Fin 2), ⟨0, .ok ()⟩), (0, ⟨0, .error (.plain "timeout")⟩), (1, ⟨30000, .ok ()⟩),
          (1, ⟨0, .ok ()⟩)] ∧
      Along (step ⟨1, 60000, 30000, "horizon"⟩) (ClosedByProbe ⟨1, 60000, 30000, "horizon"⟩)
        (start new 0)
        [((0 : Fin 2), ⟨0, .ok ()⟩), (0, ⟨0, .error (.plain "timeout")⟩), (1, ⟨30000, .ok ()⟩),
          (1, ⟨0, .ok ()⟩)] :=
  probes_exclusive _ _ _ _ (by decide)

end StellarDonations.CircuitBreaker
