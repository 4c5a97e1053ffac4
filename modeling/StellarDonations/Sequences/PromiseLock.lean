import Mathlib.Data.List.Basic
import Mathlib.Logic.Function.Basic
import StellarDonations.Concurrency.Run

/-!
# The promise lock

`withAccountLock` of the sequence manager. Each call hangs its task behind the gate of the call that
was made before it for the same account, and leaves its own gate in `lockMap`. When the task has
settled, so does the promise the caller got, then `resolveGate` is called, and once the gate has
settled it is taken out of `lockMap` if it is still there.

What follows a promise runs in a microtask of its own, so each of these is a step of its own, and
other calls may be made between any two of them. `Chained` says how the calls of an account hang
together in every state: a task starts when the gates of all earlier calls of its account have
settled, so tasks never overlap.

`resolveGate` is handed what `result` has settled to, the reason of a rejection included, and a
promise that is resolved with a thenable settles as the thenable does, if it ever does. `Plain` says
that no task has rejected with one. Then every gate is resolved, and at rest, when no microtask is
left to run, only running tasks are waited for, and an account whose tasks are all over is not in
`lockMap`.
-/

namespace StellarDonations.PromiseLock

open Concurrency

variable {α ε : Type*}

/-- A call of `withAccountLock`, as far as it has come. `behind` is the call whose gate `current`
is, or nothing for a promise that is resolved from the start. -/
structure Call (α ε : Type*) where
  account : String
  behind : Option ℕ
  /-- `fn` has been called. -/
  started : Bool
  /-- What the promise of `fn` has settled to. -/
  outcome : Option (Except ε α)
  /-- What `result` has settled to. -/
  result : Option (Except ε α)
  /-- `resolveGate` has been called. -/
  released : Bool
  /-- What `gate` has settled to. -/
  gate : Option (Except ε Unit)
  /-- The `finally` of `gate` has run. -/
  cleaned : Bool
  deriving DecidableEq

/-- The calls in the order they were made, and `lockMap`, where a gate goes by the number of its
call. -/
structure Lock (α ε : Type*) where
  calls : List (Call α ε)
  lockMap : String → Option ℕ
  lockWaits : ℕ

/-- What happens next. All but the first three are microtasks. -/
inductive Event (α ε : Type*) where
  | withAccountLock (account : String)
  /-- The task of a call settles. -/
  | finish (n : ℕ) (outcome : Except ε α)
  /-- The thenable that the gate of a call was resolved with settles. -/
  | adopt (n : ℕ) (settled : Except ε Unit)
  | start (n : ℕ)
  | settle (n : ℕ)
  | release (n : ℕ)
  | cleanUp (n : ℕ)

namespace Lock

variable (l : Lock α ε)

/-- What the promise a call hangs behind has settled to. -/
def current : Option ℕ → Option (Except ε Unit)
  | none => some (.ok ())
  | some m => (l.calls[m]?).bind (·.gate)

/-- Change a call, if it is there and this is its time. -/
def modify (n : ℕ) (due : Call α ε → Prop) [DecidablePred due] (f : Call α ε → Call α ε) :
    Lock α ε :=
  match l.calls[n]? with
  | some c => if due c then { l with calls := l.calls.set n (f c) } else l
  | none => l

/-- `withAccountLock`, up to where it returns `result`. -/
def withAccountLock (account : String) : Lock α ε :=
  { l with
    calls := l.calls ++ [⟨account, l.lockMap account, false, none, none, false, none, false⟩]
    lockMap := Function.update l.lockMap account (some l.calls.length) }

/-- What follows `current`: the task is started. Where `current` has rejected, `result` rejects
with it, and the task is never started. -/
def start (n : ℕ) : Lock α ε :=
  match l.calls[n]? with
  | some c =>
    if c.started = false ∧ c.result.isNone then
      match l.current c.behind with
      | some (.ok _) =>
        { l with
          calls := l.calls.set n { c with started := true }
          lockWaits := if l.lockMap c.account ≠ some n then l.lockWaits + 1 else l.lockWaits }
      | some (.error e) => { l with calls := l.calls.set n { c with result := some (.error e) } }
      | none => l
    else l
  | none => l

def finish (n : ℕ) (outcome : Except ε α) : Lock α ε :=
  l.modify n (fun c ↦ c.started = true ∧ c.outcome.isNone) fun c ↦
    { c with outcome := some outcome }

/-- `result` settles to what the promise of the task has settled to. -/
def settle (n : ℕ) : Lock α ε :=
  l.modify n (fun c ↦ c.outcome.isSome ∧ c.result.isNone) fun c ↦ { c with result := c.outcome }

/-- A promise that is resolved with what `result` has settled to. A promise is never fulfilled with
a thenable, but it may be rejected with one. -/
def resolved (isThenable : ε → Bool) : Option (Except ε α) → Option (Except ε Unit)
  | some (.error e) => if isThenable e then none else some (.ok ())
  | _ => some (.ok ())

/-- What follows `result`, whatever it has settled to: `resolveGate`. -/
def release (isThenable : ε → Bool) (n : ℕ) : Lock α ε :=
  l.modify n (fun c ↦ c.result.isSome ∧ c.released = false) fun c ↦
    { c with released := true, gate := resolved isThenable c.result }

/-- The gate settles as the thenable it was resolved with. -/
def adopt (n : ℕ) (settled : Except ε Unit) : Lock α ε :=
  l.modify n (fun c ↦ c.released = true ∧ c.gate.isNone) fun c ↦ { c with gate := some settled }

/-- What follows `gate`: its entry is removed, if it is still its own. -/
def cleanUp (n : ℕ) : Lock α ε :=
  match l.calls[n]? with
  | some c =>
    if c.gate.isSome ∧ c.cleaned = false then
      { l with
        calls := l.calls.set n { c with cleaned := true }
        lockMap :=
          if l.lockMap c.account = some n then Function.update l.lockMap c.account none
          else l.lockMap }
    else l
  | none => l

/-- Take a step. A microtask that is not due does nothing. -/
def step (isThenable : ε → Bool) (l : Lock α ε) : Event α ε → Lock α ε
  | .withAccountLock account => l.withAccountLock account
  | .finish n outcome => l.finish n outcome
  | .adopt n settled => l.adopt n settled
  | .start n => l.start n
  | .settle n => l.settle n
  | .release n => l.release isThenable n
  | .cleanUp n => l.cleanUp n

def empty : Lock α ε := ⟨[], fun _ ↦ none, 0⟩

/-- The call is `c`. -/
def Has (n : ℕ) (c : Call α ε) : Prop := l.calls[n]? = some c

end Lock

/-! ## How the calls hang together -/

/-- A call comes to each of its steps after the one before. -/
structure Call.Ordered (c : Call α ε) : Prop where
  started : c.outcome.isSome → c.started = true
  /-- A call without a task may have a result that is not its own. -/
  outcome : ∀ r, c.result = some r → c.started = true → c.outcome = some r
  result : c.released = true → c.result.isSome
  released : c.gate.isSome → c.released = true
  gate : c.cleaned = true → c.gate.isSome

/-- The calls of an account hang behind one another. -/
structure Chained (l : Lock α ε) : Prop where
  ordered : ∀ n c, l.Has n c → c.Ordered
  /-- A call that hangs behind no other came when all gates had settled. -/
  first : ∀ n c, l.Has n c → c.behind = none →
    ∀ m < n, ∀ d, l.Has m d → d.account = c.account → d.gate.isSome
  /-- A call hangs behind the last one before it. -/
  behind : ∀ n c m, l.Has n c → c.behind = some m → m < n ∧
    (∃ d, l.Has m d ∧ d.account = c.account) ∧
    ∀ k, m < k → k < n → ∀ d, l.Has k d → d.account ≠ c.account
  begun : ∀ n c, l.Has n c → c.started = true ∨ c.result.isSome → (l.current c.behind).isSome
  /-- The gate in `lockMap` is that of the last call. -/
  held : ∀ account m, l.lockMap account = some m →
    (∃ d, l.Has m d ∧ d.account = account ∧ d.cleaned = false) ∧
    ∀ k, m < k → ∀ d, l.Has k d → d.account ≠ account
  free : ∀ account, l.lockMap account = none →
    ∀ m d, l.Has m d → d.account = account → d.gate.isSome

/-- The call has come further, with its account and its place. -/
structure Call.Advance (c c' : Call α ε) : Prop where
  account : c'.account = c.account
  behind : c'.behind = c.behind
  gate : c.gate.isSome → c'.gate.isSome

theorem Call.Advance.refl (c : Call α ε) : c.Advance c := ⟨rfl, rfl, id⟩

namespace Lock

variable {l : Lock α ε} {n k : ℕ} {c c' d : Call α ε}

theorem Has.unique (h : l.Has n c) (h' : l.Has n d) : c = d := by
  rw [Has] at h h'
  rw [h, Option.some.injEq] at h'
  exact h'

theorem Has.lt (h : l.Has n c) : n < l.calls.length :=
  (List.getElem?_eq_some_iff.mp h).1

theorem current_eq_some_iff {m : ℕ} {r : Except ε Unit} :
    l.current (some m) = some r ↔ ∃ d, l.Has m d ∧ d.gate = some r :=
  Option.bind_eq_some_iff

theorem isSome_current_iff {m : ℕ} :
    (l.current (some m)).isSome ↔ ∃ d, l.Has m d ∧ d.gate.isSome := by
  simp only [Option.isSome_iff_exists, current_eq_some_iff]
  exact ⟨fun ⟨r, d, hd, hr⟩ ↦ ⟨d, hd, r, hr⟩, fun ⟨d, hd, r, hr⟩ ↦ ⟨r, d, hd, hr⟩⟩

theorem has_set_iff (h : l.Has n c) {lockMap : String → Option ℕ} {lockWaits : ℕ} :
    Has ⟨l.calls.set n c', lockMap, lockWaits⟩ k d ↔
      (k = n ∧ d = c') ∨ (k ≠ n ∧ l.Has k d) := by
  rw [Has, Has, List.getElem?_set]
  by_cases hk : n = k
  · subst hk
    rw [if_pos rfl, if_pos h.lt, Option.some.injEq]
    exact ⟨fun heq ↦ .inl ⟨rfl, heq.symm⟩, fun hor ↦ (hor.resolve_right fun hne ↦ hne.1 rfl).2.symm⟩
  · rw [if_neg hk]
    exact ⟨fun hd ↦ .inr ⟨fun heq ↦ hk heq.symm, hd⟩,
      fun hor ↦ (hor.resolve_left fun heq ↦ hk heq.1.symm).2⟩

theorem exists_of_has_set (h : l.Has n c) (hadvance : c.Advance c') {lockMap : String → Option ℕ}
    {lockWaits : ℕ} (hd : Has ⟨l.calls.set n c', lockMap, lockWaits⟩ k d) :
    ∃ d₀, l.Has k d₀ ∧ d₀.Advance d := by
  rcases (has_set_iff h).mp hd with ⟨rfl, rfl⟩ | ⟨-, hd⟩
  · exact ⟨c, h, hadvance⟩
  · exact ⟨d, hd, .refl d⟩

theorem exists_has_set (h : l.Has n c) (hadvance : c.Advance c') {lockMap : String → Option ℕ}
    {lockWaits : ℕ} (hd : l.Has k d) :
    ∃ d', Has ⟨l.calls.set n c', lockMap, lockWaits⟩ k d' ∧ d.Advance d' := by
  by_cases hk : k = n
  · subst hk
    obtain rfl := h.unique hd
    exact ⟨c', (has_set_iff h).mpr (.inl ⟨rfl, rfl⟩), hadvance⟩
  · exact ⟨d, (has_set_iff h).mpr (.inr ⟨hk, hd⟩), .refl d⟩

theorem isSome_current_set (h : l.Has n c) (hadvance : c.Advance c') {lockMap : String → Option ℕ}
    {lockWaits : ℕ} : ∀ {behind : Option ℕ}, (l.current behind).isSome →
      (current ⟨l.calls.set n c', lockMap, lockWaits⟩ behind).isSome
  | none, _ => rfl
  | some m, hcurrent => by
    obtain ⟨d, hd, hgate⟩ := isSome_current_iff.mp hcurrent
    obtain ⟨d', hd', hd''⟩ := exists_has_set h hadvance hd
    exact isSome_current_iff.mpr ⟨d', hd', hd''.gate hgate⟩

theorem has_concat_iff {calls : List (Call α ε)} {lockMap : String → Option ℕ} {lockWaits : ℕ} :
    Has ⟨calls ++ [c], lockMap, lockWaits⟩ k d ↔
      calls[k]? = some d ∨ (k = calls.length ∧ d = c) := by
  rw [Has, List.getElem?_append]
  split_ifs with hk
  · exact ⟨.inl, fun hor ↦ hor.resolve_right fun h ↦ absurd h.1 hk.ne⟩
  · have hnone : calls[k]? = none := List.getElem?_eq_none (not_lt.mp hk)
    rw [hnone, List.getElem?_singleton]
    split_ifs with hlast
    · simp only [Option.some.injEq, false_or]
      exact ⟨fun heq ↦ ⟨by omega, heq.symm⟩, fun h ↦ h.2.symm⟩
    · simp only [false_or, false_iff]
      omega

end Lock

namespace Chained

open Lock

variable {l : Lock α ε} {n : ℕ} {c c' : Call α ε}

/-- **All earlier gates have settled** when something has followed `current`. -/
theorem settled_of_begun (h : Chained l) (hc : l.Has n c)
    (hbegun : c.started = true ∨ c.result.isSome) :
    ∀ m < n, ∀ d, l.Has m d → d.account = c.account → d.gate.isSome := by
  induction n using Nat.strong_induction_on generalizing c with
  | _ n ih =>
    intro m hm d hd haccount
    cases hbehind : c.behind with
    | none => exact h.first n c hc hbehind m hm d hd haccount
    | some b =>
      obtain ⟨hb, ⟨e, he, heaccount⟩, hbetween⟩ := h.behind n c b hc hbehind
      have hcurrent := h.begun n c hc hbegun
      rw [hbehind] at hcurrent
      obtain ⟨e', he', hgate⟩ := isSome_current_iff.mp hcurrent
      obtain rfl := he.unique he'
      -- the gate it hangs behind has settled, so that call has a result
      have hordered := h.ordered b e he
      have hresult := hordered.result (hordered.released hgate)
      rcases lt_trichotomy m b with hlt | rfl | hgt
      · exact ih b hb he (.inr hresult) m hlt d hd (haccount.trans heaccount.symm)
      · obtain rfl := he.unique hd
        exact hgate
      · exact absurd haccount (hbetween m hgt hm d hd)

theorem set (h : Chained l) (hc : l.Has n c) (hadvance : c.Advance c') (hordered : c'.Ordered)
    (hbegun : c'.started = true ∨ c'.result.isSome → (l.current c.behind).isSome)
    {lockMap : String → Option ℕ} {lockWaits : ℕ}
    (hheld : ∀ account m, lockMap account = some m →
      l.lockMap account = some m ∧ (m = n → c'.cleaned = false))
    (hfree : ∀ account, lockMap account = none →
      ∀ m d, l.Has m d → d.account = account → d.gate.isSome) :
    Chained ⟨l.calls.set n c', lockMap, lockWaits⟩ := by
  refine ⟨fun k d hd ↦ ?_, fun k d hd hbehind m hm e he haccount ↦ ?_, fun k d m hd hbehind ↦ ?_,
    fun k d hd hd' ↦ ?_, fun account m hm ↦ ?_, fun account hnone m d hd haccount ↦ ?_⟩
  · rcases (has_set_iff hc).mp hd with ⟨-, rfl⟩ | ⟨-, hd⟩
    · exact hordered
    · exact h.ordered k d hd
  · obtain ⟨d₀, hd₀, hd₀d⟩ := exists_of_has_set hc hadvance hd
    obtain ⟨e₀, he₀, he₀e⟩ := exists_of_has_set hc hadvance he
    refine he₀e.gate (h.first k d₀ hd₀ (hd₀d.behind.symm.trans hbehind) m hm e₀ he₀ ?_)
    rw [← he₀e.account, ← hd₀d.account, haccount]
  · obtain ⟨d₀, hd₀, hd₀d⟩ := exists_of_has_set hc hadvance hd
    obtain ⟨hm, ⟨e, he, heaccount⟩, hbetween⟩ :=
      h.behind k d₀ m hd₀ (hd₀d.behind.symm.trans hbehind)
    obtain ⟨e', he', hee'⟩ := exists_has_set hc hadvance he
    refine ⟨hm, ⟨e', he', ?_⟩, fun i hi hik f hf ↦ ?_⟩
    · rw [hee'.account, heaccount, hd₀d.account]
    · obtain ⟨f₀, hf₀, hf₀f⟩ := exists_of_has_set hc hadvance hf
      rw [hf₀f.account, hd₀d.account]
      exact hbetween i hi hik f₀ hf₀
  · rcases (has_set_iff hc).mp hd with ⟨-, rfl⟩ | ⟨-, hd⟩
    · rw [hadvance.behind]
      exact isSome_current_set hc hadvance (hbegun hd')
    · exact isSome_current_set hc hadvance (h.begun k d hd hd')
  · obtain ⟨hmap, hcleaned⟩ := hheld account m hm
    obtain ⟨⟨d, hd, haccount, hd'⟩, hlast⟩ := h.held account m hmap
    constructor
    · by_cases hmn : m = n
      · subst hmn
        obtain rfl := hd.unique hc
        exact ⟨c', (has_set_iff hc).mpr (.inl ⟨rfl, rfl⟩), hadvance.account.trans haccount,
          hcleaned rfl⟩
      · exact ⟨d, (has_set_iff hc).mpr (.inr ⟨hmn, hd⟩), haccount, hd'⟩
    · intro k hk e he
      obtain ⟨e₀, he₀, he₀e⟩ := exists_of_has_set hc hadvance he
      rw [he₀e.account]
      exact hlast k hk e₀ he₀
  · obtain ⟨d₀, hd₀, hd₀d⟩ := exists_of_has_set hc hadvance hd
    exact hd₀d.gate (hfree account hnone m d₀ hd₀ (hd₀d.account.symm.trans haccount))

theorem advance (h : Chained l) (hc : l.Has n c) (hadvance : c.Advance c') (hordered : c'.Ordered)
    (hbegun : c'.started = true ∨ c'.result.isSome → (l.current c.behind).isSome)
    (hcleaned : c'.cleaned = c.cleaned) {lockWaits : ℕ} :
    Chained ⟨l.calls.set n c', l.lockMap, lockWaits⟩ := by
  refine h.set hc hadvance hordered hbegun (fun account m hm ↦ ⟨hm, fun hmn ↦ ?_⟩) h.free
  obtain ⟨⟨d, hd, -, hd'⟩, -⟩ := h.held account m hm
  rw [hmn] at hd
  obtain rfl := hd.unique hc
  rw [hcleaned, hd']

theorem modify (h : Chained l) {due : Call α ε → Prop} [DecidablePred due]
    {f : Call α ε → Call α ε}
    (hf : ∀ c, due c → c.Ordered → c.Advance (f c) ∧ (f c).Ordered ∧
      ((f c).started = true ∨ (f c).result.isSome → c.started = true ∨ c.result.isSome) ∧
      (f c).cleaned = c.cleaned) : Chained (l.modify n due f) := by
  rw [Lock.modify]
  cases hc : l.calls[n]? with
  | none => exact h
  | some c =>
    dsimp only
    split_ifs with hdue
    · obtain ⟨hadvance, hordered, hbegun, hcleaned⟩ := hf c hdue (h.ordered n c hc)
      exact h.advance hc hadvance hordered (fun hs ↦ h.begun n c hc (hbegun hs)) hcleaned
    · exact h

theorem withAccountLock (h : Chained l) (account : String) :
    Chained (l.withAccountLock account) := by
  have hold : ∀ k d, l.Has k d → (l.withAccountLock account).Has k d :=
    fun k d hd ↦ has_concat_iff.mpr (.inl hd)
  -- the other calls are as they were, and so is what they hang behind
  refine ⟨fun k d hd ↦ ?_, fun k d hd hbehind m hm e he haccount ↦ ?_, fun k d m hd hbehind ↦ ?_,
    fun k d hd hd' ↦ ?_, fun account' m hm ↦ ?_, fun account' hnone m d hd haccount ↦ ?_⟩
  · rcases has_concat_iff.mp hd with hd | ⟨-, rfl⟩
    · exact h.ordered k d hd
    · exact ⟨nofun, nofun, nofun, nofun, nofun⟩
  · rcases has_concat_iff.mp he with he | ⟨rfl, -⟩
    · rcases has_concat_iff.mp hd with hd | ⟨-, rfl⟩
      · exact h.first k d hd hbehind m hm e he haccount
      · exact h.free account hbehind m e he haccount
    · rcases has_concat_iff.mp hd with hd | ⟨rfl, -⟩
      · exact absurd (Has.lt hd) (by omega)
      · omega
  · rcases has_concat_iff.mp hd with hd | ⟨rfl, rfl⟩
    · obtain ⟨hm, ⟨e, he, heaccount⟩, hbetween⟩ := h.behind k d m hd hbehind
      refine ⟨hm, ⟨e, hold m e he, heaccount⟩, fun i hi hik f hf ↦ ?_⟩
      rcases has_concat_iff.mp hf with hf | ⟨rfl, -⟩
      · exact hbetween i hi hik f hf
      · exact absurd (Has.lt hd) (by omega)
    · obtain ⟨⟨e, he, heaccount, -⟩, hlast⟩ := h.held account m hbehind
      refine ⟨he.lt, ⟨e, hold m e he, heaccount⟩, fun i hi hik f hf ↦ ?_⟩
      rcases has_concat_iff.mp hf with hf | ⟨rfl, -⟩
      · exact hlast i hi f hf
      · omega
  · rcases has_concat_iff.mp hd with hd | ⟨-, rfl⟩
    · have hcurrent := h.begun k d hd hd'
      cases hbehind : d.behind with
      | none => rfl
      | some m =>
        rw [hbehind] at hcurrent
        obtain ⟨e, he, hgate⟩ := isSome_current_iff.mp hcurrent
        exact isSome_current_iff.mpr ⟨e, hold m e he, hgate⟩
    · rcases hd' with hd' | hd' <;> cases hd'
  · rw [Lock.withAccountLock] at hm
    dsimp only at hm
    by_cases haccount : account' = account
    · rw [haccount, Function.update_self, Option.some.injEq] at hm
      subst hm
      refine ⟨⟨_, has_concat_iff.mpr (.inr ⟨rfl, rfl⟩), haccount.symm, rfl⟩, fun k hk d hd ↦ ?_⟩
      rcases has_concat_iff.mp hd with hd | ⟨rfl, -⟩
      · exact absurd (Has.lt hd) (by omega)
      · omega
    · rw [Function.update_of_ne haccount] at hm
      obtain ⟨⟨d, hd, hdaccount, hcleaned⟩, hlast⟩ := h.held account' m hm
      refine ⟨⟨d, hold m d hd, hdaccount, hcleaned⟩, fun k hk e he ↦ ?_⟩
      rcases has_concat_iff.mp he with he | ⟨-, rfl⟩
      · exact hlast k hk e he
      · exact fun heq ↦ haccount heq.symm
  · rw [Lock.withAccountLock] at hnone
    dsimp only at hnone
    by_cases haccount' : account' = account
    · rw [haccount', Function.update_self] at hnone
      cases hnone
    · rw [Function.update_of_ne haccount'] at hnone
      rcases has_concat_iff.mp hd with hd | ⟨-, rfl⟩
      · exact h.free account' hnone m d hd haccount
      · exact absurd haccount.symm haccount'

theorem start (h : Chained l) (n : ℕ) : Chained (l.start n) := by
  rw [Lock.start]
  cases hc : l.calls[n]? with
  | none => exact h
  | some c =>
    dsimp only
    by_cases hdue : c.started = false ∧ c.result.isNone
    · have hordered := h.ordered n c hc
      have hnone := Option.isNone_iff_eq_none.mp hdue.2
      rw [if_pos hdue]
      cases hcurrent : l.current c.behind with
      | none => exact h
      | some r =>
        have hbegun : ∀ d : Call α ε, d.started = true ∨ d.result.isSome →
            (l.current c.behind).isSome := fun _ _ ↦ by rw [hcurrent]; rfl
        cases r with
        | ok _ =>
          have hadvance : c.Advance { c with started := true } := ⟨rfl, rfl, id⟩
          refine h.advance hc hadvance ⟨fun _ ↦ rfl, fun r hr ↦ ?_, hordered.result,
            hordered.released, hordered.gate⟩ (hbegun _) rfl
          cases hnone.symm.trans hr
        | error e =>
          have hadvance : c.Advance { c with result := some (.error e) } := ⟨rfl, rfl, id⟩
          refine h.advance hc hadvance ⟨hordered.started, fun r _ hstarted ↦ ?_,
            fun _ ↦ rfl, hordered.released, hordered.gate⟩ (hbegun _) rfl
          cases hdue.1.symm.trans hstarted
    · rw [if_neg hdue]
      exact h

theorem finish (h : Chained l) (n : ℕ) (outcome : Except ε α) : Chained (l.finish n outcome) := by
  refine h.modify fun c hdue hordered ↦ ⟨⟨rfl, rfl, id⟩, ⟨fun _ ↦ hdue.1, fun r hr _ ↦ ?_,
    hordered.result, hordered.released, hordered.gate⟩, id, rfl⟩
  -- nothing has settled before the task
  have hnone := hdue.2
  rw [hordered.outcome r hr hdue.1] at hnone
  cases hnone

theorem settle (h : Chained l) (n : ℕ) : Chained (l.settle n) :=
  h.modify fun _ hdue hordered ↦ ⟨⟨rfl, rfl, id⟩, ⟨hordered.started, fun _ hr _ ↦ hr,
    fun _ ↦ hdue.1, hordered.released, hordered.gate⟩, fun _ ↦ .inl (hordered.started hdue.1), rfl⟩

theorem release (h : Chained l) (isThenable : ε → Bool) (n : ℕ) :
    Chained (l.release isThenable n) := by
  refine h.modify fun c hdue hordered ↦ ⟨⟨rfl, rfl, fun hgate ↦ ?_⟩, ⟨hordered.started,
    hordered.outcome, fun _ ↦ hdue.1, fun _ ↦ rfl, fun hcleaned ↦ ?_⟩, id, rfl⟩
  · cases hdue.2.symm.trans (hordered.released hgate)
  · cases hdue.2.symm.trans (hordered.released (hordered.gate hcleaned))

theorem adopt (h : Chained l) (n : ℕ) (settled : Except ε Unit) : Chained (l.adopt n settled) :=
  h.modify fun _ hdue hordered ↦ ⟨⟨rfl, rfl, fun _ ↦ rfl⟩, ⟨hordered.started, hordered.outcome,
    hordered.result, fun _ ↦ hdue.1, fun _ ↦ rfl⟩, id, rfl⟩

theorem cleanUp (h : Chained l) (n : ℕ) : Chained (l.cleanUp n) := by
  rw [Lock.cleanUp]
  cases hc : l.calls[n]? with
  | none => exact h
  | some c =>
    dsimp only
    by_cases hdue : c.gate.isSome ∧ c.cleaned = false
    · have hordered := h.ordered n c hc
      have hadvance : c.Advance { c with cleaned := true } := ⟨rfl, rfl, id⟩
      rw [if_pos hdue]
      refine h.set hc hadvance
        ⟨hordered.started, hordered.outcome, hordered.result, hordered.released, fun _ ↦ hdue.1⟩
        (h.begun n c hc) (fun account m hm ↦ ?_) (fun account hnone m d hd haccount ↦ ?_)
      · -- what is still in the map is the gate of another call
        by_cases hown : l.lockMap c.account = some n
        · rw [if_pos hown] at hm
          have hne : account ≠ c.account := by
            rintro rfl
            rw [Function.update_self] at hm
            cases hm
          rw [Function.update_of_ne hne] at hm
          refine ⟨hm, ?_⟩
          rintro rfl
          obtain ⟨⟨d, hd, haccount, -⟩, -⟩ := h.held account m hm
          obtain rfl := hd.unique hc
          exact absurd haccount.symm hne
        · rw [if_neg hown] at hm
          refine ⟨hm, ?_⟩
          rintro rfl
          obtain ⟨⟨d, hd, haccount, -⟩, -⟩ := h.held account m hm
          obtain rfl := hd.unique hc
          rw [haccount] at hown
          exact absurd hm hown
      · -- what is removed is the gate of the last call, and all gates before it have settled
        by_cases hown : l.lockMap c.account = some n
        · rw [if_pos hown] at hnone
          by_cases heq : account = c.account
          · have hresult := hordered.result (hordered.released hdue.1)
            rcases lt_trichotomy m n with hlt | rfl | hgt
            · exact h.settled_of_begun hc (.inr hresult) m hlt d hd (haccount.trans heq)
            · obtain rfl := hd.unique hc
              exact hdue.1
            · exact absurd (haccount.trans heq) ((h.held c.account n hown).2 m hgt d hd)
          · rw [Function.update_of_ne heq] at hnone
            exact h.free account hnone m d hd haccount
        · rw [if_neg hown] at hnone
          exact h.free account hnone m d hd haccount
    · rw [if_neg hdue]
      exact h

/-- **Every step** leaves the calls hanging together. -/
theorem step (h : Chained l) (isThenable : ε → Bool) (e : Event α ε) :
    Chained (l.step isThenable e) := by
  cases e with
  | withAccountLock account => exact h.withAccountLock account
  | finish n outcome => exact h.finish n outcome
  | adopt n settled => exact h.adopt n settled
  | start n => exact h.start n
  | settle n => exact h.settle n
  | release n => exact h.release isThenable n
  | cleanUp n => exact h.cleanUp n

theorem empty : Chained (empty : Lock α ε) where
  ordered := nofun
  first := nofun
  behind := nofun
  begun := nofun
  held := nofun
  free := nofun

end Chained

/-! ## Reasons that are no thenables -/

/-- No task has rejected with a thenable, and so every gate is resolved by its call. -/
structure Call.Plain (isThenable : ε → Bool) (c : Call α ε) : Prop where
  reason : ∀ e, c.outcome = some (.error e) → isThenable e = false
  started : c.result.isSome → c.started = true
  gate : c.released = true → c.gate = some (.ok ())

/-- In this step no task rejects with a thenable. -/
def Event.Plain (isThenable : ε → Bool) : Event α ε → Prop
  | .finish _ (.error e) => isThenable e = false
  | _ => True

def Plain (isThenable : ε → Bool) (l : Lock α ε) : Prop := ∀ n c, l.Has n c → c.Plain isThenable

namespace Plain

open Lock

variable {isThenable : ε → Bool} {l : Lock α ε} {n : ℕ} {c c' : Call α ε}

theorem set (h : Plain isThenable l) (hc : l.Has n c) (hplain : c'.Plain isThenable)
    {lockMap : String → Option ℕ} {lockWaits : ℕ} :
    Plain isThenable ⟨l.calls.set n c', lockMap, lockWaits⟩ := by
  intro k d hd
  rcases (has_set_iff hc).mp hd with ⟨-, rfl⟩ | ⟨-, hd⟩
  · exact hplain
  · exact h k d hd

theorem modify (h : Plain isThenable l) {due : Call α ε → Prop} [DecidablePred due]
    {f : Call α ε → Call α ε}
    (hf : ∀ c, l.Has n c → due c → c.Plain isThenable → (f c).Plain isThenable) :
    Plain isThenable (l.modify n due f) := by
  rw [Lock.modify]
  cases hc : l.calls[n]? with
  | none => exact h
  | some c =>
    dsimp only
    split_ifs with hdue
    · exact h.set hc (hf c hc hdue (h n c hc))
    · exact h

/-- The gate of a plain call only ever is resolved. -/
theorem eq_ok_of_current (h : Plain isThenable l) (hchained : Chained l) {behind : Option ℕ}
    {r : Except ε Unit} (hcurrent : l.current behind = some r) : r = .ok () := by
  cases behind with
  | none => exact (Option.some.inj hcurrent).symm
  | some m =>
    obtain ⟨d, hd, hgate⟩ := current_eq_some_iff.mp hcurrent
    have hreleased := (hchained.ordered m d hd).released (by rw [hgate]; rfl)
    exact Option.some.inj (hgate.symm.trans ((h m d hd).gate hreleased))

/-- **A step in which no task rejects with a thenable** leaves every call plain. -/
theorem step (h : Plain isThenable l) (hchained : Chained l) {e : Event α ε}
    (he : e.Plain isThenable) : Plain isThenable (l.step isThenable e) := by
  cases e with
  | withAccountLock account =>
    intro k d hd
    rcases has_concat_iff.mp hd with hd | ⟨-, rfl⟩
    · exact h k d hd
    · exact ⟨nofun, nofun, nofun⟩
  | finish n outcome =>
    refine h.modify fun c _ _ hc ↦ ⟨fun e houtcome ↦ ?_, hc.started, hc.gate⟩
    obtain rfl := Option.some.inj houtcome
    exact he
  | adopt n settled =>
    -- no gate waits for a thenable
    refine h.modify fun c _ hdue hc ↦ ⟨hc.reason, hc.started, fun hreleased ↦ ?_⟩
    have hnone := hdue.2
    rw [hc.gate hreleased] at hnone
    cases hnone
  | start n =>
    rw [Lock.step, Lock.start]
    cases hc : l.calls[n]? with
    | none => exact h
    | some c =>
      dsimp only
      by_cases hdue : c.started = false ∧ c.result.isNone
      · rw [if_pos hdue]
        cases hcurrent : l.current c.behind with
        | none => exact h
        | some r =>
          obtain rfl := h.eq_ok_of_current hchained hcurrent
          have hstarted : Call.Plain isThenable { c with started := true } :=
            ⟨(h n c hc).reason, fun _ ↦ rfl, (h n c hc).gate⟩
          exact h.set hc hstarted
      · rw [if_neg hdue]
        exact h
  | settle n =>
    refine h.modify fun c hhas hdue hc ↦ ⟨hc.reason, fun _ ↦ ?_, hc.gate⟩
    exact (hchained.ordered n c hhas).started hdue.1
  | release n =>
    refine h.modify fun c hhas hdue hc ↦ ⟨hc.reason, hc.started, fun _ ↦ ?_⟩
    obtain ⟨r, hr⟩ := Option.isSome_iff_exists.mp hdue.1
    have houtcome := (hchained.ordered n c hhas).outcome r hr (hc.started hdue.1)
    dsimp only
    rw [hr]
    cases r with
    | ok a => rfl
    | error e => exact if_neg (by rw [hc.reason e houtcome]; exact Bool.false_ne_true)
  | cleanUp n =>
    rw [Lock.step, Lock.cleanUp]
    cases hc : l.calls[n]? with
    | none => exact h
    | some c =>
      dsimp only
      have hcleaned : Call.Plain isThenable { c with cleaned := true } :=
        ⟨(h n c hc).reason, (h n c hc).started, (h n c hc).gate⟩
      by_cases hdue : c.gate.isSome ∧ c.cleaned = false
      · rw [if_pos hdue]
        exact h.set hc hcleaned
      · rw [if_neg hdue]
        exact h

end Plain

/-! ## What the lock promises -/

namespace Lock

def Running (c : Call α ε) : Prop := c.started = true ∧ c.outcome = none

/-- Tasks of one account do not overlap. -/
def Exclusive (l : Lock α ε) : Prop :=
  ∀ m n c d, l.Has m c → l.Has n d → c.account = d.account → Running c → Running d → m = n

/-- The tasks of an account run in the order of the calls: one is started when those before it are
over. -/
def InCallOrder (l : Lock α ε) : Prop :=
  ∀ m n c d, m < n → l.Has m c → l.Has n d → c.account = d.account → d.started = true →
    c.outcome.isSome

/-- What a caller gets is what its own task has come to. -/
def OwnResult (l : Lock α ε) : Prop := ∀ n c r, l.Has n c → c.result = some r → c.outcome = some r

def Due (l : Lock α ε) : Event α ε → Prop
  | .withAccountLock _ | .finish _ _ | .adopt _ _ => False
  | .start n => ∃ c, l.Has n c ∧ c.started = false ∧ c.result.isNone ∧
      (l.current c.behind).isSome
  | .settle n => ∃ c, l.Has n c ∧ c.outcome.isSome ∧ c.result.isNone
  | .release n => ∃ c, l.Has n c ∧ c.result.isSome ∧ c.released = false
  | .cleanUp n => ∃ c, l.Has n c ∧ c.gate.isSome ∧ c.cleaned = false

def AtRest (l : Lock α ε) : Prop := ∀ e, ¬l.Due e

/-- At rest every caller has got what its task has come to, unless the task is not over. -/
def Delivered (l : Lock α ε) : Prop := ∀ n c, l.Has n c → c.result = c.outcome

/-- At rest a task that has not been started waits for one before it that runs. -/
def WaitsForRunning (l : Lock α ε) : Prop :=
  ∀ n c, l.Has n c → c.started = false →
    ∃ m < n, ∃ d, l.Has m d ∧ d.account = c.account ∧ Running d

/-- There is no gate for an account whose tasks are over. -/
def NoGateLeft (l : Lock α ε) : Prop :=
  ∀ account, (∀ n c, l.Has n c → c.account = account → c.outcome.isSome) →
    l.lockMap account = none

end Lock

namespace Chained

open Lock

variable {isThenable : ε → Bool} {l : Lock α ε}

theorem isSome_outcome {n : ℕ} {c : Call α ε} (h : Chained l) (hc : l.Has n c)
    (hgate : c.gate.isSome) (hstarted : c.started = true) : c.outcome.isSome := by
  have hordered := h.ordered n c hc
  obtain ⟨r, hr⟩ := Option.isSome_iff_exists.mp (hordered.result (hordered.released hgate))
  rw [hordered.outcome r hr hstarted]
  rfl

/-- Tasks of one account do not overlap, whatever they reject with. -/
theorem exclusive (h : Chained l) : Exclusive l := by
  have hover : ∀ m n c d, m < n → l.Has m c → l.Has n d → c.account = d.account → Running d →
      ¬Running c := by
    intro m n c d hmn hc hd haccount hd' hc'
    have hgate := h.settled_of_begun hd (.inl hd'.1) m hmn c hc haccount
    have hsome := h.isSome_outcome hc hgate hc'.1
    rw [hc'.2] at hsome
    cases hsome
  intro m n c d hc hd haccount hrunning hrunning'
  rcases lt_trichotomy m n with hlt | heq | hgt
  · exact absurd hrunning (hover m n c d hlt hc hd haccount hrunning')
  · exact heq
  · exact absurd hrunning' (hover n m d c hgt hd hc haccount.symm hrunning)

theorem inCallOrder (h : Chained l) (hplain : Plain isThenable l) : InCallOrder l := by
  intro m n c d hmn hc hd haccount hstarted
  have hgate := h.settled_of_begun hd (.inl hstarted) m hmn c hc haccount
  have hordered := h.ordered m c hc
  exact h.isSome_outcome hc hgate
    ((hplain m c hc).started (hordered.result (hordered.released hgate)))

theorem ownResult (h : Chained l) (hplain : Plain isThenable l) : OwnResult l := by
  intro n c r hc hr
  exact (h.ordered n c hc).outcome r hr ((hplain n c hc).started (by rw [hr]; rfl))

theorem delivered (h : Chained l) (hplain : Plain isThenable l) (hrest : AtRest l) :
    Delivered l := by
  intro n c hc
  cases hresult : c.result with
  | some r => exact (h.ownResult hplain n c r hc hresult).symm
  | none =>
    cases houtcome : c.outcome with
    | none => rfl
    | some r =>
      refine absurd ⟨c, hc, ?_, ?_⟩ (hrest (.settle n))
      · rw [houtcome]
        rfl
      · rw [hresult]
        rfl

theorem gate_of_isSome (h : Chained l) (hplain : Plain isThenable l) (hrest : AtRest l) {n : ℕ}
    {c : Call α ε} (hc : l.Has n c) (houtcome : c.outcome.isSome) : c.gate = some (.ok ()) := by
  have hresult : c.result.isSome := by rwa [h.delivered hplain hrest n c hc]
  refine (hplain n c hc).gate ?_
  by_contra hreleased
  exact hrest (.release n) ⟨c, hc, hresult, Bool.eq_false_iff.mpr hreleased⟩

theorem waitsForRunning (h : Chained l) (hplain : Plain isThenable l) (hrest : AtRest l) :
    WaitsForRunning l := by
  intro n
  induction n using Nat.strong_induction_on with
  | _ n ih =>
    intro c hc hstarted
    have hresult : c.result.isNone := by
      cases hr : c.result with
      | none => rfl
      | some r => cases hstarted.symm.trans ((hplain n c hc).started (by rw [hr]; rfl))
    have hblocked : ¬(l.current c.behind).isSome :=
      fun hcurrent ↦ hrest (.start n) ⟨c, hc, hstarted, hresult, hcurrent⟩
    cases hbehind : c.behind with
    | none =>
      rw [hbehind] at hblocked
      exact absurd rfl hblocked
    | some b =>
      rw [hbehind, isSome_current_iff] at hblocked
      obtain ⟨hb, ⟨d, hd, haccount⟩, -⟩ := h.behind n c b hc hbehind
      have houtcome : d.outcome = none := by
        by_contra hsome
        refine hblocked ⟨d, hd, ?_⟩
        rw [h.gate_of_isSome hplain hrest hd (Option.isSome_iff_ne_none.mpr hsome)]
        rfl
      cases hdstarted : d.started with
      | true => exact ⟨b, hb, d, hd, haccount, hdstarted, houtcome⟩
      | false =>
        -- the call in front waits as well, for one further ahead
        obtain ⟨m, hm, e, he, heaccount, hrunning⟩ := ih b hb d hd hdstarted
        exact ⟨m, hm.trans hb, e, he, heaccount.trans haccount, hrunning⟩

theorem noGateLeft (h : Chained l) (hplain : Plain isThenable l) (hrest : AtRest l) :
    NoGateLeft l := by
  intro account hover
  cases hmap : l.lockMap account with
  | none => rfl
  | some m =>
    obtain ⟨⟨d, hd, haccount, hcleaned⟩, -⟩ := h.held account m hmap
    have hgate := h.gate_of_isSome hplain hrest hd (hover m d hd haccount)
    exact absurd ⟨d, hd, by rw [hgate]; rfl, hcleaned⟩ (hrest (.cleanUp m))

end Chained

/-! ## Coming to rest -/

/-- The microtasks a call still has before it. -/
def Call.work (c : Call α ε) : ℕ :=
  (if c.result.isSome then 0 else if c.started then 1 else 2) + (if c.released then 0 else 1) +
    if c.cleaned then 0 else 1

namespace Lock

/-- The microtasks all calls have before them. -/
def work (l : Lock α ε) : ℕ := (l.calls.map Call.work).sum

theorem sum_map_set_lt {β : Type*} (f : β → ℕ) {xs : List β} {n : ℕ} {x y : β}
    (hx : xs[n]? = some x) (hlt : f y < f x) : ((xs.set n y).map f).sum < (xs.map f).sum := by
  induction xs generalizing n with
  | nil => cases hx
  | cons z zs ih =>
    cases n with
    | zero =>
      rw [List.getElem?_cons_zero, Option.some.injEq] at hx
      rw [List.set_cons_zero, List.map_cons, List.map_cons, List.sum_cons, List.sum_cons, hx]
      omega
    | succ n =>
      rw [List.getElem?_cons_succ] at hx
      rw [List.set_cons_succ, List.map_cons, List.map_cons, List.sum_cons, List.sum_cons]
      exact Nat.add_lt_add_left (ih hx) (f z)

variable {l : Lock α ε}

theorem work_step_lt (isThenable : ε → Bool) {e : Event α ε} (h : l.Due e) :
    (l.step isThenable e).work < l.work := by
  cases e with
  | withAccountLock account => exact h.elim
  | finish n outcome => exact h.elim
  | adopt n settled => exact h.elim
  | start n =>
    obtain ⟨c, hc, hstarted, hresult, hcurrent⟩ := h
    obtain ⟨r, hr⟩ := Option.isSome_iff_exists.mp hcurrent
    rw [Has] at hc
    rw [step, start, hc]
    dsimp only
    rw [if_pos ⟨hstarted, hresult⟩, hr]
    cases r with
    | ok _ =>
      refine sum_map_set_lt Call.work hc ?_
      simp [Call.work, hstarted, Option.isNone_iff_eq_none.mp hresult]
    | error e =>
      refine sum_map_set_lt Call.work hc ?_
      simp [Call.work, hstarted, Option.isNone_iff_eq_none.mp hresult]
  | settle n =>
    obtain ⟨c, hc, hdue⟩ := h
    rw [Has] at hc
    rw [step, settle, modify, hc]
    dsimp only
    rw [if_pos hdue]
    refine sum_map_set_lt Call.work hc ?_
    rw [Call.work, Call.work]
    simp only [hdue.1, Option.isNone_iff_eq_none.mp hdue.2, Option.isSome_none,
      Bool.false_eq_true, if_true, if_false]
    split_ifs <;> omega
  | release n =>
    obtain ⟨c, hc, hdue⟩ := h
    rw [Has] at hc
    rw [step, release, modify, hc]
    dsimp only
    rw [if_pos hdue]
    refine sum_map_set_lt Call.work hc ?_
    simp [Call.work, hdue.2]
  | cleanUp n =>
    obtain ⟨c, hc, hdue⟩ := h
    rw [Has] at hc
    rw [step, cleanUp, hc]
    dsimp only
    rw [if_pos hdue]
    refine sum_map_set_lt Call.work hc ?_
    simp [Call.work, hdue.2]

/-- **The microtasks come to an end**: there are never more than the work that is left. -/
theorem length_le_work {isThenable : ε → Bool} {l : Lock α ε} {es : List (Event α ε)}
    (h : Along (step isThenable) Due l es) : es.length ≤ l.work := by
  induction es generalizing l with
  | nil => exact Nat.zero_le _
  | cons e es ih =>
    have hlt := work_step_lt isThenable h.1
    have hle := ih h.2
    rw [List.length_cons]
    omega

/-- From every state the microtasks that are due lead to rest. -/
theorem exists_atRest (isThenable : ε → Bool) (l : Lock α ε) :
    ∃ es, Along (step isThenable) Due l es ∧ AtRest (run (step isThenable) l es) := by
  induction hwork : l.work using Nat.strong_induction_on generalizing l with
  | _ n ih =>
    by_cases hrest : AtRest l
    · exact ⟨[], trivial, hrest⟩
    · obtain ⟨e, he⟩ := not_forall.mp hrest
      have hdue := not_not.mp he
      obtain ⟨es, hes, hes'⟩ := ih _ (hwork ▸ work_step_lt isThenable hdue)
        (l.step isThenable e) rfl
      exact ⟨e :: es, ⟨hdue, hes⟩, hes'⟩

end Lock

end StellarDonations.PromiseLock
