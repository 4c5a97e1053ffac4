import Mathlib.Data.List.Nodup
import StellarDonations.Auth.Authentication
import StellarDonations.Concurrency.Run
import StellarDonations.Containers.Recent

/-!
# Replayed requests

The part of `requireApiKey` that checks signatures, over any sequence of requests. A request that
was accepted is told from its replay by the nonce alone, and the signature does not cover the nonce:
who repeats a request with another nonce is accepted again. The nonce itself is forgotten five
minutes after it was stored, or when enough others have been stored, while a signature with a
timestamp in the future is valid for longer than that.

Every signature is accepted at most once in exactly those runs where each valid repetition comes
with a nonce that is still remembered (`always_once_iff`).
-/

namespace StellarDonations.SignatureReplay

open ApiKeys Authentication Concurrency JsString RequestSigning

/-! ## The nonces that are remembered -/

def cleanup (nonces : Nonces) (now : ℤ) : Nonces := nonces.filter fun entry ↦ now < entry.2

/-- The nonces with the times they were stored at, in order. -/
abbrev Stored := List (String × ℤ)

/-- One of the last nonces that were stored is this one, and it is less than five minutes old. -/
def remembered (maxSize : ℕ) (stored : Stored) (nonce : String) (now : ℤ) : Bool :=
  (stored.rtake maxSize).any fun e ↦ e.1 = nonce && now < e.2 + signatureMaxAgeMs

def entry (e : String × ℤ) : String × ℤ := (e.1, e.2 + signatureMaxAgeMs)

def live (nonces : Nonces) (now : ℤ) : Nonces := nonces.filter fun e ↦ now < e.2

/-- The store agrees with what was stored: an entry that has not expired is in it exactly when it is
one of the last. -/
structure Retains (maxSize : ℕ) (nonces : Nonces) (stored : Stored) (now : ℤ) : Prop where
  distinct : (nonces.map (·.1)).Nodup
  ordered : nonces.Pairwise (·.2 ≤ ·.2)
  storedOrdered : stored.Pairwise (·.2 ≤ ·.2)
  past : ∀ e ∈ stored, e.2 ≤ now
  due : ∀ e ∈ nonces, e.2 ≤ now + signatureMaxAgeMs
  kept : ∀ later, now ≤ later →
    live nonces later = (live (stored.map entry) later).rtake maxSize

variable {maxSize : ℕ} {nonces : Nonces} {stored : Stored} {now later : ℤ} {nonce : String}

theorem retains_nil (maxSize : ℕ) (now : ℤ) : Retains maxSize [] [] now := by
  refine ⟨List.nodup_nil, List.Pairwise.nil, List.Pairwise.nil, ?_, ?_, fun later _ ↦ ?_⟩
  · exact fun e he ↦ absurd he List.not_mem_nil
  · exact fun e he ↦ absurd he List.not_mem_nil
  · exact (List.rtake_nil maxSize).symm

theorem Retains.mono (h : Retains maxSize nonces stored now) (hle : now ≤ later) :
    Retains maxSize nonces stored later where
  distinct := h.distinct
  ordered := h.ordered
  storedOrdered := h.storedOrdered
  past e he := (h.past e he).trans hle
  due e he := (h.due e he).trans (by omega)
  kept t ht := h.kept t (hle.trans ht)

theorem live_append (l l' : Nonces) (t : ℤ) : live (l ++ l') t = live l t ++ live l' t :=
  List.filter_append ..

/-- In a list ordered by time the entries that have not expired are the last ones. -/
theorem lasting_of_ordered {l : Nonces} (h : l.Pairwise (·.2 ≤ ·.2)) (t : ℤ) :
    Recent.Lasting (fun e : String × ℤ ↦ decide (t < e.2)) l := by
  refine h.imp fun hle hlt ↦ ?_
  exact decide_eq_true ((of_decide_eq_true hlt).trans_le hle)

theorem entries_ordered (h : stored.Pairwise (·.2 ≤ ·.2)) :
    (stored.map entry).Pairwise (·.2 ≤ ·.2) := by
  refine List.pairwise_map.mpr (h.imp fun hle ↦ ?_)
  simp only [entry]
  omega

theorem seen_iff (hdistinct : (nonces.map (·.1)).Nodup) :
    seen nonces nonce now = true ↔ ∃ e ∈ live nonces now, e.1 = nonce := by
  rw [seen]
  cases hfind : nonces.find? (·.1 = nonce) with
  | none =>
    rw [Option.any_none]
    refine iff_of_false Bool.false_ne_true ?_
    rintro ⟨e, he, hname⟩
    exact List.find?_eq_none.mp hfind e (List.mem_of_mem_filter he) (decide_eq_true hname)
  | some e =>
    have hmem := List.mem_of_find?_eq_some hfind
    have hname : e.1 = nonce := by simpa using List.find?_some hfind
    rw [Option.any_some, decide_eq_true_iff]
    constructor
    · intro hlt
      exact ⟨e, List.mem_filter.mpr ⟨hmem, decide_eq_true hlt⟩, hname⟩
    · rintro ⟨e', he', hname'⟩
      obtain ⟨hmem', hlt⟩ := List.mem_filter.mp he'
      obtain rfl := List.inj_on_of_nodup_map hdistinct hmem' hmem (hname'.trans hname.symm)
      exact of_decide_eq_true hlt

/-- **The store remembers** the last nonces, for five minutes. -/
theorem Retains.seen_eq (h : Retains maxSize nonces stored now) (nonce : String) :
    seen nonces nonce now = remembered maxSize stored nonce now := by
  refine Bool.eq_iff_iff.mpr ?_
  rw [seen_iff h.distinct, h.kept now le_rfl, remembered, List.any_eq_true, live,
    ← Recent.filter_rtake (lasting_of_ordered (entries_ordered h.storedOrdered) now),
    List.rtake, List.length_map, ← List.map_drop, ← List.rtake]
  constructor
  · rintro ⟨e, he, hname⟩
    obtain ⟨hmem, hlt⟩ := List.mem_filter.mp he
    obtain ⟨e', hmem', rfl⟩ := List.mem_map.mp hmem
    exact ⟨e', hmem', Bool.and_eq_true_iff.mpr ⟨decide_eq_true hname, hlt⟩⟩
  · rintro ⟨e, hmem, hboth⟩
    obtain ⟨hname, hlt⟩ := Bool.and_eq_true_iff.mp hboth
    exact ⟨entry e, List.mem_filter.mpr ⟨List.mem_map_of_mem hmem, hlt⟩, of_decide_eq_true hname⟩

theorem Retains.cleanup (h : Retains maxSize nonces stored now) :
    Retains maxSize (cleanup nonces now) stored now where
  distinct := h.distinct.sublist (List.filter_sublist.map _)
  ordered := h.ordered.sublist List.filter_sublist
  storedOrdered := h.storedOrdered
  past := h.past
  due e he := h.due e (List.mem_of_mem_filter he)
  kept later hle := by
    rw [← h.kept later hle, live, SignatureReplay.cleanup, live, List.filter_filter]
    refine List.filter_congr fun e _ ↦ ?_
    refine Bool.and_eq_left_iff_imp.mpr fun hlt ↦ ?_
    exact decide_eq_true (hle.trans_lt (of_decide_eq_true hlt))

theorem live_filter_ne (hseen : ¬seen nonces nonce now = true)
    (hdistinct : (nonces.map (·.1)).Nodup) (hle : now ≤ later) :
    live (nonces.filter (·.1 ≠ nonce)) later = live nonces later := by
  rw [live, live, List.filter_filter]
  refine List.filter_congr fun e he ↦ ?_
  refine Bool.and_eq_left_iff_imp.mpr fun hlt ↦ decide_eq_true fun hname ↦ hseen ?_
  refine (seen_iff hdistinct).mpr ⟨e, ?_, hname⟩
  exact List.mem_filter.mpr ⟨he, decide_eq_true (hle.trans_lt (of_decide_eq_true hlt))⟩

theorem Retains.store (h : Retains maxSize nonces stored now)
    (hseen : ¬seen nonces nonce now = true) :
    Retains maxSize (store nonces maxSize nonce now) (stored ++ [(nonce, now)]) now := by
  have hnames : ((nonces.filter (·.1 ≠ nonce) ++ [entry (nonce, now)]).map (·.1)).Nodup := by
    rw [List.map_append, List.map_singleton]
    refine List.nodup_append.mpr ⟨h.distinct.sublist (List.filter_sublist.map _),
      List.pairwise_singleton .., fun name hname name' hname' ↦ ?_⟩
    obtain ⟨e, he, rfl⟩ := List.mem_map.mp hname
    rw [List.mem_singleton.mp hname']
    exact of_decide_eq_true (List.mem_filter.mp he).2
  have hordered : (nonces.filter (·.1 ≠ nonce) ++ [entry (nonce, now)]).Pairwise (·.2 ≤ ·.2) := by
    refine List.pairwise_append.mpr ⟨h.ordered.sublist List.filter_sublist,
      List.pairwise_singleton .., fun e he e' he' ↦ ?_⟩
    rw [List.mem_singleton.mp he']
    exact h.due e (List.mem_of_mem_filter he)
  have hsub : (RequestSigning.store nonces maxSize nonce now).Sublist
      (nonces.filter (·.1 ≠ nonce) ++ [entry (nonce, now)]) := List.drop_sublist ..
  refine ⟨hnames.sublist (hsub.map _), hordered.sublist hsub, ?_, fun e he ↦ ?_, fun e he ↦ ?_,
    fun later hle ↦ ?_⟩
  · refine List.pairwise_append.mpr ⟨h.storedOrdered, List.pairwise_singleton .., ?_⟩
    intro e he e' he'
    rw [List.mem_singleton.mp he']
    exact h.past e he
  · rcases List.mem_append.mp he with hold | hnew
    · exact h.past e hold
    · rw [List.mem_singleton.mp hnew]
  · rcases List.mem_append.mp (hsub.subset he) with hold | hnew
    · exact h.due e (List.mem_of_mem_filter hold)
    · rw [List.mem_singleton.mp hnew]
      exact le_rfl
  · have hlast : live [entry (nonce, now)] later = [entry (nonce, now)] ∨
        live [entry (nonce, now)] later = [] := by
      rw [live, List.filter_singleton, Bool.cond_eq_ite]
      split_ifs
      · exact .inl rfl
      · exact .inr rfl
    calc live (RequestSigning.store nonces maxSize nonce now) later
        = (live (nonces.filter (·.1 ≠ nonce) ++ [entry (nonce, now)]) later).rtake maxSize :=
          Recent.filter_rtake (lasting_of_ordered hordered later) maxSize
      _ = ((live (stored.map entry) later).rtake maxSize ++
            live [entry (nonce, now)] later).rtake maxSize := by
          rw [live_append, live_filter_ne hseen h.distinct hle, h.kept later hle]
      _ = (live (stored.map entry) later ++ live [entry (nonce, now)] later).rtake maxSize := by
          rcases hlast with hone | hnone
          · rw [hone, Recent.rtake_rtake_concat]
          · rw [hnone, List.append_nil, List.append_nil, Recent.rtake_rtake, min_self]
      _ = (live ((stored ++ [(nonce, now)]).map entry) later).rtake maxSize := by
          rw [List.map_append, List.map_singleton, live_append]

/-! ## Requests -/

/-- What requests share, and the clock. For the property: the nonces that were stored, and the
signatures that were accepted. -/
structure World where
  st : Authentication.State
  now : ℤ
  stored : Stored
  accepted : List String

/-- What happens after some time has passed. -/
inductive Event where
  /-- A request comes to the part of `requireApiKey` that follows its lookup. -/
  | request (req : Request) (ctx : Context) (lookup : LookupEnv)
  /-- The middleware for signed requests shares the nonce store. -/
  | check (nonce : String)
  | cleanup
  /-- Whatever else changes the keys. -/
  | keys (f : KeyStore → KeyStore)

/-- The digest that the signature of a request is compared with. -/
def signatureOf (cfg : Config) (req : Request) (k : KeyInfo) : String :=
  cfg.hmacHex (k.keySecret.getD "") (buildCanonicalString req.method req.originalUrl
    (req.xTimestamp.getD "") (cfg.sha256Hex (orElse req.rawBody "")))

/-- The signature that `requireApiKey` has accepted, and the nonce it came with. -/
def acceptance (cfg : Config) (req : Request) (ctx : Context) :
    Except Rejection Context → Option (String × String)
  | .error _ => none
  | .ok ctx' =>
    if ctx.apiKey.isSome then none
    else match ctx'.apiKey with
    | some (.database k) =>
      if k.signingRequired then some (signatureOf cfg req k, req.xNonce.getD "") else none
    | _ => none

def step (cfg : Config) (w : World) (e : ℕ × Event) : World :=
  let now := w.now + e.1
  match e.2 with
  | .request req ctx lookup =>
    let result := requireApiKey cfg w.st req ctx ⟨lookup, now⟩
    match acceptance cfg req ctx result.2 with
    | none => ⟨result.1, now, w.stored, w.accepted⟩
    | some (signature, nonce) =>
      ⟨result.1, now, w.stored ++ [(nonce, now)], w.accepted ++ [signature]⟩
  | .check nonce =>
    if seen w.st.nonces nonce now then { w with now := now }
    else ⟨{ w.st with nonces := store w.st.nonces cfg.nonceMaxSize nonce now }, now,
      w.stored ++ [(nonce, now)], w.accepted⟩
  | .cleanup => { w with st := { w.st with nonces := cleanup w.st.nonces now }, now := now }
  | .keys f => { w with st := { w.st with keys := f w.st.keys }, now := now }

/-- The signature and the nonce of a request, if all that comes before the check of the nonce lets
it pass. -/
def presented (cfg : Config) (keys : KeyStore) (req : Request) (ctx : Context)
    (lookup : LookupEnv) (now : ℤ) : Option (String × String) :=
  if ctx.apiKey.isSome || (bearerToken req.authorization).isSome ||
      (ctx.user.bind (·.claims)).isSome then none
  else match orNull req.xApiKey with
  | none => none
  | some apiKey =>
    match (validateApiKey cfg.toKeyConfig keys apiKey lookup).2 with
    | .ok (some k) =>
      if k.signingRequired && checkQuota k = .ok () && checkIp req k = .ok () &&
          checkSignature cfg req k now = .ok () then
        (orNull req.xNonce).map ((signatureOf cfg req k, ·))
      else none
    | _ => none

/-! ## What a request does -/

variable {cfg : Config} {w : World} {req : Request} {ctx : Context} {lookup : LookupEnv}

/-- The checks of a key that requires signatures: either something before the nonce stops the
request, or the nonce decides. -/
theorem checkGates_signing (cfg : Config) {k : KeyInfo} (hk : k.signingRequired = true)
    (nonces : Nonces) (req : Request) (now : ℤ) :
    (∃ halt, checkGates cfg nonces req k now = .error halt ∧
        ¬(checkQuota k = .ok () ∧ checkIp req k = .ok () ∧ checkSignature cfg req k now = .ok ())) ∨
      checkGates cfg nonces req k now = checkNonce cfg nonces req now ∧
        checkQuota k = .ok () ∧ checkIp req k = .ok () ∧ checkSignature cfg req k now = .ok () := by
  rw [checkGates]
  cases hquota : checkQuota k with
  | error e => exact .inl ⟨e, rfl, by simp⟩
  | ok u =>
    cases hip : checkIp req k with
    | error e => exact .inl ⟨e, rfl, by simp⟩
    | ok u =>
      cases hsignature : checkSignature cfg req k now with
      | error e =>
        refine .inl ⟨e, ?_, by simp⟩
        simp only [hk, if_true]
        rfl
      | ok u =>
        refine .inr ⟨?_, rfl, rfl, rfl⟩
        simp only [hk, if_true]
        rfl

/-- The acceptance of a request and the nonces afterwards: a signature is accepted if it is
presented with a nonce that is not seen, and then the nonce is stored. -/
def outcome (maxSize : ℕ) (nonces : Nonces) (now : ℤ) (presented : Option (String × String)) :
    Option (String × String) × Nonces :=
  match presented.filter fun p ↦ !seen nonces p.2 now with
  | none => (none, nonces)
  | some p => (some p, store nonces maxSize p.2 now)

theorem outcome_none (maxSize : ℕ) (nonces : Nonces) (now : ℤ) :
    outcome maxSize nonces now none = (none, nonces) := rfl

theorem outcome_some (maxSize : ℕ) (nonces : Nonces) (now : ℤ) (p : String × String) :
    outcome maxSize nonces now (some p) = if seen nonces p.2 now then (none, nonces)
      else (some p, store nonces maxSize p.2 now) := by
  rw [outcome, Option.filter_some]
  by_cases hseen : seen nonces p.2 now = true
  · simp [hseen]
  · simp [hseen]

theorem acceptance_legacyFallback (cfg : Config) (req : Request) (ctx : Context) (apiKey : String)
    (r : Rejection) : acceptance cfg req ctx (legacyFallback cfg apiKey ctx r) = none := by
  rw [legacyFallback]
  split_ifs
  · simp [acceptance]
  · rfl

theorem requireLookup_halt {st : Authentication.State} {apiKey : String} {now : ℤ} {k : KeyInfo}
    {halt : Halt} (hfound : (validateApiKey cfg.toKeyConfig st.keys apiKey lookup).2 = .ok (some k))
    (hgates : checkGates cfg st.nonces req k now = .error halt) :
    (acceptance cfg req ctx (requireLookup cfg st req ctx apiKey ⟨lookup, now⟩).2,
        (requireLookup cfg st req ctx apiKey ⟨lookup, now⟩).1.nonces) = (none, st.nonces) := by
  rw [requireLookup]
  simp only [hfound, hgates]
  cases halt with
  | respond r => rfl
  | threw e => rw [acceptance_legacyFallback]

theorem requireLookup_outcome {st : Authentication.State} {apiKey : String} {now : ℤ}
    {k : KeyInfo} (hctx : ctx.apiKey.isSome = false)
    (hfound : (validateApiKey cfg.toKeyConfig st.keys apiKey lookup).2 = .ok (some k)) :
    (acceptance cfg req ctx (requireLookup cfg st req ctx apiKey ⟨lookup, now⟩).2,
        (requireLookup cfg st req ctx apiKey ⟨lookup, now⟩).1.nonces) =
      outcome cfg.nonceMaxSize st.nonces now
        (if k.signingRequired && checkQuota k = .ok () && checkIp req k = .ok () &&
            checkSignature cfg req k now = .ok () then
          (orNull req.xNonce).map ((signatureOf cfg req k, ·)) else none) := by
  by_cases hsigning : k.signingRequired = true
  · rcases checkGates_signing cfg hsigning st.nonces req now with
      ⟨halt, hgates, hstop⟩ | ⟨hgates, hquota, hip, hsignature⟩
    · rw [if_neg (by simpa [hsigning] using hstop), outcome_none]
      exact requireLookup_halt hfound hgates
    · rw [if_pos (by simp [hsigning, hquota, hip, hsignature]), requireLookup]
      simp only [hfound, hgates, checkNonce]
      cases hnonce : orNull req.xNonce with
      | none => rfl
      | some nonce =>
        obtain ⟨hreq, -⟩ := orNull_eq_some.mp hnonce
        rw [Option.map_some, outcome_some]
        by_cases hseen : seen st.nonces nonce now = true
        · simp [hseen, acceptance]
        · simp [hseen, acceptance, hctx, hsigning, hreq]
  · rw [if_neg (by simp [hsigning]), outcome_none]
    cases hgates : checkGates cfg st.nonces req k now with
    | error halt => exact requireLookup_halt hfound hgates
    | ok nonces =>
      -- without a signature the nonces are not touched
      have hsame : nonces = st.nonces := by
        rw [checkGates] at hgates
        obtain ⟨-, hgates⟩ := Except.bind_const_eq_ok.mp hgates
        obtain ⟨-, hgates⟩ := Except.bind_const_eq_ok.mp hgates
        rw [if_neg hsigning] at hgates
        exact (Except.ok.inj hgates).symm
      rw [requireLookup]
      simp only [hfound, hgates]
      simp [acceptance, hctx, hsigning, hsame]

/-- **What a request does** with its signature and its nonce. -/
theorem requireApiKey_outcome (cfg : Config) (st : Authentication.State) (req : Request)
    (ctx : Context) (lookup : LookupEnv) (now : ℤ) :
    (acceptance cfg req ctx (requireApiKey cfg st req ctx ⟨lookup, now⟩).2,
        (requireApiKey cfg st req ctx ⟨lookup, now⟩).1.nonces) =
      outcome cfg.nonceMaxSize st.nonces now (presented cfg st.keys req ctx lookup now) := by
  rw [requireApiKey, presented]
  by_cases hctx : ctx.apiKey.isSome = true
  · simp [hctx, acceptance, outcome_none]
  · have hunset : ctx.apiKey.isSome = false := Bool.eq_false_of_not_eq_true hctx
    have hnone : ctx.apiKey = none := Option.not_isSome_iff_eq_none.mp hctx
    rw [if_neg hctx]
    cases hbearer : bearerToken req.authorization with
    | some token =>
      simp only [hunset, Option.isSome_some, Bool.or_true, Bool.true_or, if_true, outcome_none]
      split
      · simp [acceptance, hnone]
      · rfl
    | none =>
      by_cases hclaims : (ctx.user.bind (·.claims)).isSome = true
      · simp [hclaims, acceptance, outcome_none, hnone]
      · simp only [hunset, hclaims, Option.isSome_none, Bool.or_false, Bool.false_eq_true, if_false]
        cases hkey : orNull req.xApiKey with
        | none => rfl
        | some apiKey =>
          dsimp only
          cases hfound : (validateApiKey cfg.toKeyConfig st.keys apiKey lookup).2 with
          | error e =>
            rw [requireLookup]
            simp only [hfound]
            rw [acceptance_legacyFallback, outcome_none]
          | ok found =>
            cases found with
            | none =>
              rw [requireLookup]
              simp only [hfound]
              rw [acceptance_legacyFallback, outcome_none]
            | some k => exact requireLookup_outcome hunset hfound

/-! ## Runs -/

def start (keys : KeyStore) (now : ℤ) : World := ⟨⟨keys, []⟩, now, [], []⟩

/-- No signature has been accepted twice. -/
def Once (w : World) : Prop := w.accepted.Nodup

instance (w : World) : Decidable (Once w) := inferInstanceAs (Decidable w.accepted.Nodup)

/-- A valid request that repeats an accepted signature comes with a nonce that is remembered. -/
def repeatsRemembered (cfg : Config) (w : World) (e : ℕ × Event) : Bool :=
  match e.2 with
  | .request req ctx lookup => (presented cfg w.st.keys req ctx lookup (w.now + e.1)).all fun p ↦
      decide (p.1 ∉ w.accepted) || remembered cfg.nonceMaxSize w.stored p.2 (w.now + e.1)
  | _ => true

def Agrees (cfg : Config) (w : World) : Prop :=
  Retains cfg.nonceMaxSize w.st.nonces w.stored w.now

theorem step_request (cfg : Config) (w : World) (elapsed : ℕ) (req : Request) (ctx : Context)
    (lookup : LookupEnv) :
    ∃ st, step cfg w (elapsed, .request req ctx lookup) =
      match (outcome cfg.nonceMaxSize w.st.nonces (w.now + elapsed)
          (presented cfg w.st.keys req ctx lookup (w.now + elapsed))) with
      | (none, nonces) => ⟨⟨st, nonces⟩, w.now + elapsed, w.stored, w.accepted⟩
      | (some p, nonces) => ⟨⟨st, nonces⟩, w.now + elapsed, w.stored ++ [(p.2, w.now + elapsed)],
          w.accepted ++ [p.1]⟩ := by
  rw [← requireApiKey_outcome, step]
  refine ⟨(requireApiKey cfg w.st req ctx ⟨lookup, w.now + elapsed⟩).1.keys, ?_⟩
  dsimp only
  split <;> rename_i hacceptance
  · rw [hacceptance]
  · rw [hacceptance]

theorem step_presented (cfg : Config) (w : World) (elapsed : ℕ) {p : String × String}
    (hp : presented cfg w.st.keys req ctx lookup (w.now + elapsed) = some p) :
    ∃ st, step cfg w (elapsed, .request req ctx lookup) =
      if seen w.st.nonces p.2 (w.now + elapsed) then
        ⟨⟨st, w.st.nonces⟩, w.now + elapsed, w.stored, w.accepted⟩
      else ⟨⟨st, store w.st.nonces cfg.nonceMaxSize p.2 (w.now + elapsed)⟩, w.now + elapsed,
        w.stored ++ [(p.2, w.now + elapsed)], w.accepted ++ [p.1]⟩ := by
  obtain ⟨st, hstep⟩ := step_request cfg w elapsed req ctx lookup
  refine ⟨st, hstep.trans ?_⟩
  rw [hp, outcome_some]
  split_ifs <;> rfl

/-- Every event keeps the store in agreement, and only a request that presents a signature with a
nonce not remembered has it accepted. -/
theorem Agrees.step (h : Agrees cfg w) (e : ℕ × Event) :
    Agrees cfg (step cfg w e) ∧
      ((step cfg w e).accepted = w.accepted ∨ ∃ req ctx lookup p, e.2 = .request req ctx lookup ∧
        presented cfg w.st.keys req ctx lookup (w.now + e.1) = some p ∧
        remembered cfg.nonceMaxSize w.stored p.2 (w.now + e.1) = false ∧
        (step cfg w e).accepted = w.accepted ++ [p.1]) := by
  obtain ⟨elapsed, event⟩ := e
  have hlater : Retains cfg.nonceMaxSize w.st.nonces w.stored (w.now + elapsed) :=
    Retains.mono h (by omega)
  cases event with
  | request req ctx lookup =>
    cases hp : presented cfg w.st.keys req ctx lookup (w.now + elapsed) with
    | none =>
      obtain ⟨st, hstep⟩ := step_request cfg w elapsed req ctx lookup
      rw [hp, outcome_none] at hstep
      rw [hstep]
      exact ⟨hlater, .inl rfl⟩
    | some p =>
      obtain ⟨st, hstep⟩ := step_presented cfg w elapsed hp
      by_cases hseen : seen w.st.nonces p.2 (w.now + elapsed) = true
      · rw [hstep, if_pos hseen]
        exact ⟨hlater, .inl rfl⟩
      · rw [hstep, if_neg hseen]
        refine ⟨hlater.store hseen, .inr ⟨req, ctx, lookup, p, rfl, hp, ?_, rfl⟩⟩
        rw [← hlater.seen_eq]
        exact Bool.eq_false_of_not_eq_true hseen
  | check nonce =>
    rw [SignatureReplay.step]
    dsimp only
    split_ifs with hseen
    · exact ⟨hlater, .inl rfl⟩
    · exact ⟨hlater.store hseen, .inl rfl⟩
  | cleanup => exact ⟨hlater.cleanup, .inl rfl⟩
  | keys f => exact ⟨hlater, .inl rfl⟩

/-- **The exact condition.** Whatever requests arrive, every signature is accepted at most once
exactly when each valid request that repeats an accepted signature comes with a nonce that was
stored less than five minutes ago and is one of the last. -/
theorem always_once_iff (cfg : Config) (keys : KeyStore) (now : ℤ) (events : List (ℕ × Event)) :
    Always (step cfg) Once (start keys now) events ↔
      Along (step cfg) (fun w e ↦ repeatsRemembered cfg w e = true) (start keys now) events := by
  have hstart : Agrees cfg (start keys now) ∧ Once (start keys now) :=
    ⟨retains_nil _ _, List.nodup_nil⟩
  refine always_iff_along (I := fun w ↦ Agrees cfg w ∧ Once w) (fun w h ↦ h.2)
    (fun w e h he ↦ ?_) (fun w e h he hafter ↦ ?_) hstart events
  · obtain ⟨hagrees, hcase⟩ := h.1.step e
    refine ⟨hagrees, ?_⟩
    rw [Once]
    rcases hcase with hsame | ⟨req, ctx, lookup, p, hevent, hp, hnew, haccepted⟩
    · rw [hsame]
      exact h.2
    · rw [haccepted]
      refine List.nodup_append.mpr ⟨h.2, List.pairwise_singleton .., ?_⟩
      rw [repeatsRemembered, hevent] at he
      simp only [hp, Option.all_some, hnew, Bool.or_false, decide_eq_true_iff] at he
      rintro signature hmem signature' hmem' rfl
      rw [List.mem_singleton.mp hmem'] at hmem
      exact he hmem
  · obtain ⟨elapsed, event⟩ := e
    rw [repeatsRemembered] at he
    cases event with
    | request req ctx lookup =>
      cases hp : presented cfg w.st.keys req ctx lookup (w.now + elapsed) with
      | none => simp [hp] at he
      | some p =>
        simp only [hp, Option.all_some, Bool.or_eq_true, decide_eq_true_iff, not_or, not_not] at he
        obtain ⟨hmem, hnot⟩ := he
        obtain ⟨st, hstep⟩ := step_presented cfg w elapsed hp
        have hlater := Retains.mono h.1 (show w.now ≤ w.now + elapsed by omega)
        rw [← hlater.seen_eq] at hnot
        rw [hstep, if_neg hnot] at hafter
        exact (List.nodup_append.mp hafter).2.2 p.1 hmem p.1 (List.mem_singleton_self _) rfl
    | check nonce => exact he rfl
    | cleanup => exact he rfl
    | keys f => exact he rfl

section Examples

def signingKeys : KeyStore := ⟨[{ openRow with signingRequired := true }], fun _ ↦ none⟩

/-- What the holder of the key has signed, at the time `1767225600`. -/
def signedRequest (nonce : String) : Request :=
  { bareRequest sampleKey with
    method := "POST"
    originalUrl := "/donations"
    rawBody := some "{}"
    xTimestamp := some "1767225600"
    xSignature := some (buildCanonicalString "POST" "/donations" "1767225600"
      (sampleConfig.sha256Hex "{}"))
    xNonce := some nonce }

def arrives (nonce : String) : Event :=
  .request (signedRequest nonce) ⟨none, none⟩ ⟨1767225600000, none⟩

/-- The same request with another nonce is accepted again. And when the clock of the client is
30 seconds ahead, the same request with the same nonce is accepted again after five minutes. -/
theorem accepted_twice :
    ¬Always (step sampleConfig) Once (start signingKeys 1767225600000)
      [(0, arrives "first"), (0, arrives "second")] ∧
    ¬Always (step sampleConfig) Once (start signingKeys 1767225570000)
      [(0, arrives "first"), (300000, arrives "first")] := by
  refine ⟨fun h ↦ ?_, fun h ↦ ?_⟩
  · exact absurd h.last (by decide +kernel)
  · exact absurd h.last (by decide +kernel)

end Examples

end StellarDonations.SignatureReplay
