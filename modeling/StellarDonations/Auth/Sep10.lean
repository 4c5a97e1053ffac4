import StellarDonations.Auth.IpAllowlist
import StellarDonations.Concurrency.Interleaving

/-!
# Web authentication

The challenges of `SEP10Service`. `generateChallenge` builds a transaction whose memo holds the home
domain, an id of 32 hexadecimal digits and the expiry, signs it, and stores the id in two tables;
`verifyChallenge` checks a signed challenge and marks its id as used, in statements that the calls
interleave at. The library for transactions and keys is a parameter.

A text memo of a transaction has at most 28 bytes, so no challenge is ever built
(`challenge_never_authenticates`).
-/

namespace StellarDonations.Sep10

open Concurrency JsString

/-! ## Transactions -/

inductive Memo where
  | none
  | text (value : String)
  | other
  deriving DecidableEq

inductive Operation where
  | manageData (name : String) (value : Option String)
  | other
  deriving DecidableEq

/-- What the signatures of a transaction are about. -/
structure Envelope where
  source : String
  sequence : ℕ
  memo : Memo
  operations : List Operation
  deriving DecidableEq

structure Transaction extends Envelope where
  signatures : List String
  deriving DecidableEq

structure Sdk where
  isValidEd25519PublicKey : String → Bool
  /-- `Keypair.fromSecret(secret).publicKey()`. -/
  publicKey : String → Except AppError String
  /-- `Memo.text`. -/
  memoText : String → Except AppError Memo
  manageData : String → String → Except AppError Operation
  /-- The signature of the hash of a transaction, by a secret. -/
  sign : String → Envelope → String
  /-- `verify(hash, signature)`, for a public key. -/
  verify : String → Envelope → String → Bool
  toXDR : Transaction → String
  fromXDR : String → Except AppError Transaction

/-- Text memos longer than 28 bytes are refused. -/
def Sdk.LimitsMemos (sdk : Sdk) : Prop :=
  ∀ text, 28 < text.utf8ByteSize → ∃ e, sdk.memoText text = .error e

/-- `transaction.sign`. -/
def Sdk.addSignature (sdk : Sdk) (secret : String) (tx : Transaction) : Transaction :=
  { tx with signatures := tx.signatures ++ [sdk.sign secret tx.toEnvelope] }

/-! ## The tables -/

structure ChallengeRow where
  challengeId : String
  account : String
  expiresAt : ℕ
  issuedAt : ℕ
  used : Bool
  usedAt : Option ℕ
  deriving DecidableEq

/-- A row of `nonce_store`, with its times in milliseconds. -/
structure NonceRow where
  nonce : String
  usedAt : Option ℕ
  expiresAt : ℕ
  deriving DecidableEq

structure Tables where
  challenges : List ChallengeRow
  nonces : List NonceRow
  deriving DecidableEq

namespace Tables

/-- `_cleanupExpiredChallenges`. -/
def cleanupExpired (sh : Tables) (now : ℕ) : Tables :=
  { sh with challenges := sh.challenges.filter fun r ↦ !(r.expiresAt ≤ now) }

/-- The `INSERT` of `_storeNonce`. It leaves out `usedAt`, whose default is `CURRENT_TIMESTAMP`. -/
def storeNonce (sh : Tables) (nonce : String) (expiresAtMs now : ℕ) : Tables :=
  if sh.nonces.any (·.nonce = nonce) then sh
  else { sh with nonces := sh.nonces ++ [⟨nonce, some now, expiresAtMs / 1000 * 1000⟩] }

def markChallengeUsed (sh : Tables) (challengeId : String) (now : ℕ) : Tables :=
  { sh with
    challenges := sh.challenges.map fun r ↦
      if r.challengeId = challengeId then { r with used := true, usedAt := some now } else r }

def consumeNonce (sh : Tables) (nonce : String) (now : ℕ) : Tables :=
  { sh with
    nonces := sh.nonces.map fun r ↦ if r.nonce = nonce then { r with usedAt := some now } else r }

end Tables

/-! ## Challenges -/

structure Config where
  challengePrefix : String
  /-- In milliseconds. -/
  challengeExpiresIn : ℕ
  serverSigningKey : String
  homeDomain : String

def generateChallengeString (randomBytes : Vector UInt8 16) : String := toHex randomBytes.toList

def challengeMemo (cfg : Config) (challengeId : String) (expiresAtMs : ℕ) : String :=
  cfg.homeDomain ++ " auth " ++ challengeId ++ " " ++ Nat.repr (expiresAtMs / 1000)

def invalid (message : String) : AppError := .validationWith .invalidRequest message

/-- What the environment answers to `generateChallenge`. -/
structure ChallengeEnv where
  /-- The error of the `DELETE`, should it fail. -/
  cleanupError : Option AppError
  /-- The clock at the `DELETE`. -/
  cleanupAt : ℕ
  /-- `loadAccount`: the sequence number of the server's account. -/
  account : Except AppError ℕ
  randomBytes : Vector UInt8 16
  now : ℕ
  /-- The error of the `INSERT` of the challenge, should it fail. -/
  registerError : Option AppError
  /-- The `INSERT` of the nonce has failed. -/
  nonceFails : Bool

/-- The transaction of a challenge, signed by the server. -/
def buildChallenge (sdk : Sdk) (cfg : Config) (clientAccount serverAccount challengeId : String)
    (sequence expiresAtMs : ℕ) : Except AppError Transaction :=
  match sdk.manageData (cfg.challengePrefix ++ challengeId) clientAccount with
  | .error e => .error e
  | .ok operation =>
    match sdk.memoText (challengeMemo cfg challengeId expiresAtMs) with
    | .error e => .error e
    | .ok memo =>
      .ok (sdk.addSignature cfg.serverSigningKey
        ⟨⟨serverAccount, sequence + 1, memo, [operation]⟩, []⟩)

def generateChallenge (sdk : Sdk) (cfg : Config) (sh : Tables) (clientAccount : String)
    (env : ChallengeEnv) : Except AppError String × Tables :=
  if !sdk.isValidEd25519PublicKey clientAccount then
    (.error (invalid "Invalid Stellar public key format"), sh)
  else match env.cleanupError with
    | some e => (.error e, sh)
    | none =>
      let sh := sh.cleanupExpired env.cleanupAt
      match sdk.publicKey cfg.serverSigningKey, env.account with
      | .error e, _ | .ok _, .error e => (.error e, sh)
      | .ok serverAccount, .ok sequence =>
        let challengeId := generateChallengeString env.randomBytes
        let expiresAtMs := env.now + cfg.challengeExpiresIn
        match buildChallenge sdk cfg clientAccount serverAccount challengeId sequence
          expiresAtMs with
        | .error e => (.error e, sh)
        | .ok transaction =>
          match env.registerError with
          | some e => (.error e, sh)
          | none =>
            if sh.challenges.any (·.challengeId = challengeId) then
              (.error .uniqueViolation, sh)
            else
              let sh := { sh with challenges := sh.challenges ++
                [⟨challengeId, clientAccount, expiresAtMs, env.now, false, none⟩] }
              (.ok (sdk.toXDR transaction),
                if env.nonceFails then sh else sh.storeNonce challengeId expiresAtMs env.now)

/-! ## Verification -/

def verifyTransactionMemo (cfg : Config) (tx : Transaction) (now : ℕ) : Except AppError String :=
  match tx.memo with
  | .text memoText =>
    match memoText.toList.splitOn ' ' with
    | [homeDomain, auth, challengeId, expiry] =>
      if homeDomain ≠ cfg.homeDomain.toList || auth ≠ "auth".toList then
        .error (invalid "Invalid challenge transaction: malformed memo")
      else match challengeId, IpAllowlist.parseInt expiry with
        | [], _ | _, none => .error (invalid "Invalid challenge transaction: malformed memo")
        | _, some expiresAt =>
          if expiresAt * 1000 < now then .error (invalid "Challenge transaction has expired")
          else .ok (String.ofList challengeId)
    | _ => .error (invalid "Invalid challenge transaction: malformed memo")
  | .none | .other => .error (invalid "Invalid challenge transaction: missing or invalid memo")

/-- `_extractChallengeIdFromOperation`. -/
def extractChallengeId (cfg : Config) (name : String) : Option String :=
  if name = "" then none
  else if cfg.challengePrefix.toList <+: name.toList then
    some (String.ofList (name.toList.drop cfg.challengePrefix.length))
  else none

/-- `_verifyChallengeStructure`: the client's account and the id of the challenge. -/
def verifyChallengeStructure (sdk : Sdk) (cfg : Config) (tx : Transaction) :
    Except AppError (String × String) :=
  match tx.operations with
  | [.manageData name (some clientAccount)] =>
    if !sdk.isValidEd25519PublicKey clientAccount then
      .error (invalid
        "Invalid challenge transaction: manageData value must be a valid Stellar public key")
    else match (extractChallengeId cfg name).filter (· ≠ "") with
      | some challengeId => .ok (clientAccount, challengeId)
      | none => .error (invalid "Invalid challenge transaction: unexpected operation name")
  | [.manageData _ none] =>
    .error ⟨.typeError, none, "Cannot read properties of undefined (reading 'toString')"⟩
  | [.other] => .error (invalid "Invalid challenge transaction: must be a manageData operation")
  | _ => .error (invalid "Invalid challenge transaction: must have exactly one operation")

/-- The checks of `verifyChallenge` before its first statement. -/
def readChallenge (sdk : Sdk) (cfg : Config) (xdr : String) (now : ℕ) :
    Except AppError (Transaction × String × String) :=
  match sdk.fromXDR xdr with
  | .error e => .error e
  | .ok tx =>
    match verifyTransactionMemo cfg tx now with
    | .error e => .error e
    | .ok memoChallengeId =>
      match verifyChallengeStructure sdk cfg tx with
      | .error e => .error e
      | .ok (clientAccount, challengeId) =>
        if memoChallengeId ≠ challengeId then
          .error (invalid "Challenge transaction metadata mismatch")
        else .ok (tx, clientAccount, challengeId)

def verifySignatures (sdk : Sdk) (cfg : Config) (tx : Transaction) (clientAccount : String) :
    Except AppError Unit :=
  match sdk.publicKey cfg.serverSigningKey with
  | .error e => .error e
  | .ok serverAccount =>
    if !tx.signatures.any (sdk.verify serverAccount tx.toEnvelope) then
      .error (invalid "Challenge transaction missing or invalid server signature")
    else if !tx.signatures.any (sdk.verify clientAccount tx.toEnvelope) then
      .error (invalid "Challenge transaction not signed by claimed account")
    else .ok ()

def checkEntry (sh : Tables) (challengeId clientAccount : String) : Except AppError Unit :=
  match sh.challenges.find? (·.challengeId = challengeId) with
  | none =>
    .error (invalid "Challenge transaction has expired or was not issued by this server")
  | some entry =>
    if entry.used then .error (invalid "Challenge transaction has already been used")
    else if entry.account ≠ clientAccount then
      .error (invalid "Challenge transaction account mismatch")
    else .ok ()

/-- Where a `verifyChallenge` is suspended, or how it ended. -/
inductive Call where
  | waiting (xdr : String)
  | checkNonce (tx : Transaction) (clientAccount challengeId : String)
  | cleanup (clientAccount challengeId : String)
  | getEntry (clientAccount challengeId : String)
  | markUsed (clientAccount challengeId : String)
  | consumeNonce (clientAccount challengeId : String)
  | returned (clientAccount challengeId : String)
  | threw (e : AppError)
  deriving DecidableEq

structure Env where
  now : ℕ
  /-- The error of the statement, should it fail. -/
  dbError : Option AppError

/-- The nonce is stored with a time of use. -/
def Tables.isConsumed (sh : Tables) (nonce : String) : Bool :=
  (sh.nonces.find? (·.nonce = nonce)).any (·.usedAt.isSome)

/-- Resume a call: execute the statement it is suspended on. -/
def resume (sdk : Sdk) (cfg : Config) (sh : Tables) (c : Call) (env : Env) : Tables × Call :=
  match c with
  | .waiting xdr =>
    match readChallenge sdk cfg xdr env.now with
    | .error e => (sh, .threw e)
    | .ok (tx, clientAccount, challengeId) => (sh, .checkNonce tx clientAccount challengeId)
  | .checkNonce tx clientAccount challengeId =>
    -- a failed lookup counts as one that has found nothing
    if env.dbError = none ∧ sh.isConsumed challengeId then
      (sh, .threw (.validationWith (.other "SEP10_REPLAY_DETECTED")
        "Challenge nonce has already been consumed"))
    else match verifySignatures sdk cfg tx clientAccount with
      | .error e => (sh, .threw e)
      | .ok () => (sh, .cleanup clientAccount challengeId)
  | .cleanup clientAccount challengeId =>
    match env.dbError with
    | some e => (sh, .threw e)
    | none => (sh.cleanupExpired env.now, .getEntry clientAccount challengeId)
  | .getEntry clientAccount challengeId =>
    match env.dbError, checkEntry sh challengeId clientAccount with
    | some e, _ | none, .error e => (sh, .threw e)
    | none, .ok () => (sh, .markUsed clientAccount challengeId)
  | .markUsed clientAccount challengeId =>
    match env.dbError with
    | some e => (sh, .threw e)
    | none =>
      (sh.markChallengeUsed challengeId env.now, .consumeNonce clientAccount challengeId)
  | .consumeNonce clientAccount challengeId =>
    match env.dbError with
    | some _ => (sh, .returned clientAccount challengeId)
    | none => (sh.consumeNonce challengeId env.now, .returned clientAccount challengeId)
  | .returned _ _ | .threw _ => (sh, c)

/-- Only calls of `verifyChallenge`, all with the same challenge. -/
def start (sh : Tables) (xdr : String) : Calls ℕ Tables Call := ⟨sh, fun _ ↦ .waiting xdr⟩

/-- A call with no other one on its way. -/
def verifyAlone (sdk : Sdk) (cfg : Config) (sh : Tables) (xdr : String) (now : ℕ) : Call :=
  ((fun s : Tables × Call ↦ resume sdk cfg s.1 s.2 ⟨now, none⟩)^[6] (sh, .waiting xdr)).2

/-! ## What must hold -/

def Call.HasReturned (account : String) : Call → Prop
  | .returned clientAccount _ => clientAccount = account
  | _ => False

/-- A challenge for the account is returned. Signed with the secret of the account it is verified,
and of any verifications of it at most one returns the account. -/
def AuthenticatesOnce (sdk : Sdk) (cfg : Config) (sh : Tables) (account secret : String)
    (env : ChallengeEnv) (now : ℕ) : Prop :=
  ∃ xdr sh', generateChallenge sdk cfg sh account env = (.ok xdr, sh') ∧
    ∃ tx, sdk.fromXDR xdr = .ok tx ∧
      (verifyAlone sdk cfg sh' (sdk.toXDR (sdk.addSignature secret tx)) now).HasReturned account ∧
      ∀ as : List (ℕ × Env), AtMostOne (Call.HasReturned account)
        (run (Calls.step (resume sdk cfg)) (start sh' (sdk.toXDR (sdk.addSignature secret tx)))
          as).call

/-! ## The length of the memo -/

theorem length_generateChallengeString (randomBytes : Vector UInt8 16) :
    32 ≤ (generateChallengeString randomBytes).utf8ByteSize := by
  refine le_trans (le_of_eq ?_) (length_le_utf8ByteSize _)
  rw [generateChallengeString, length_toHex, Vector.length_toList]

/-- The id alone does not fit into a memo. -/
theorem memo_too_long (cfg : Config) (randomBytes : Vector UInt8 16) (expiresAtMs : ℕ) :
    28 < (challengeMemo cfg (generateChallengeString randomBytes) expiresAtMs).utf8ByteSize := by
  have hid := length_generateChallengeString randomBytes
  rw [challengeMemo]
  simp only [String.utf8ByteSize_append]
  omega

section Generation

variable {sdk : Sdk}

theorem buildChallenge_fails (hsdk : sdk.LimitsMemos) (cfg : Config)
    (clientAccount serverAccount : String) (randomBytes : Vector UInt8 16)
    (sequence expiresAtMs : ℕ) :
    ∃ e, buildChallenge sdk cfg clientAccount serverAccount (generateChallengeString randomBytes)
      sequence expiresAtMs = .error e := by
  rw [buildChallenge]
  split
  · exact ⟨_, rfl⟩
  · obtain ⟨e, he⟩ := hsdk _ (memo_too_long cfg randomBytes expiresAtMs)
    rw [he]
    exact ⟨e, rfl⟩

theorem generateChallenge_throws (hsdk : sdk.LimitsMemos) (cfg : Config) (sh : Tables)
    (clientAccount : String) (env : ChallengeEnv) :
    ∃ e sh', generateChallenge sdk cfg sh clientAccount env = (.error e, sh') := by
  rw [generateChallenge]
  split
  · exact ⟨_, _, rfl⟩
  · split
    · exact ⟨_, _, rfl⟩
    · dsimp only
      split
      · exact ⟨_, _, rfl⟩
      · exact ⟨_, _, rfl⟩
      · next serverAccount sequence _ _ =>
        obtain ⟨e, he⟩ := buildChallenge_fails hsdk cfg clientAccount serverAccount env.randomBytes
          sequence (env.now + cfg.challengeExpiresIn)
        rw [he]
        exact ⟨e, _, rfl⟩

/-- **No challenge ever authenticates an account**, for none is ever returned. -/
theorem challenge_never_authenticates (hsdk : sdk.LimitsMemos) (cfg : Config) (sh : Tables)
    (account secret : String) (env : ChallengeEnv) (now : ℕ) :
    ¬AuthenticatesOnce sdk cfg sh account secret env now := by
  rintro ⟨xdr, sh', hok, -⟩
  obtain ⟨e, sh'', herror⟩ := generateChallenge_throws hsdk cfg sh account env
  cases hok.symm.trans herror

end Generation

section Examples

/-- A library that keeps transactions as they are written out, for one client account. Secrets are
public keys with an `S` in front, and a signature is the secret. -/
def plainSdk (limit : ℕ) : Sdk where
  isValidEd25519PublicKey account := account = "GCLIENT"
  publicKey secret := .ok (String.ofList (secret.toList.drop 1))
  memoText text :=
    if text.utf8ByteSize ≤ limit then .ok (.text text)
    else .error (.plain ("Expects string, array or buffer, max " ++ Nat.repr limit ++ " bytes"))
  manageData name value := .ok (.manageData name (some value))
  sign secret _ := secret
  verify account _ signature := signature = "S" ++ account
  toXDR tx :=
    match tx.memo, tx.operations with
    | .text memo, [.manageData name (some account)] =>
      "\n".intercalate ([memo, name, account] ++ tx.signatures)
    | _, _ => ""
  fromXDR xdr :=
    match (xdr.toList.splitOn '\n').map String.ofList with
    | memo :: name :: account :: signatures =>
      .ok ⟨⟨"GSERVER", 1, .text memo, [.manageData name (some account)]⟩, signatures⟩
    | _ => .error (.plain "Invalid XDR")

def plainConfig : Config := ⟨"web_auth_", 300000, "SGSERVER", "localhost"⟩

def plainEnv : ChallengeEnv := ⟨none, 1000, .ok 0, .replicate 16 0, 1000, none, false⟩

def generated (limit : ℕ) : Except AppError String × Tables :=
  generateChallenge (plainSdk limit) plainConfig ⟨[], []⟩ "GCLIENT" plainEnv

theorem limitsMemos_plainSdk : (plainSdk 28).LimitsMemos := by
  intro text hlong
  exact ⟨_, if_neg (Nat.not_le_of_lt hlong)⟩

/-- For the client of the example and the default settings, generation throws. -/
theorem no_challenge_for_client :
    ¬AuthenticatesOnce (plainSdk 28) plainConfig ⟨[], []⟩ "GCLIENT" "SGCLIENT" plainEnv 2000 := by
  rintro ⟨xdr, sh', hok, -⟩
  have herror : (generated 28).1 =
      .error (.plain "Expects string, array or buffer, max 28 bytes") := by
    decide
  rw [generated, hok] at herror
  cases herror

theorem challenge_never_authenticates_at :
    ¬AuthenticatesOnce (plainSdk 28) plainConfig ⟨[], []⟩ "GCLIENT" "SGCLIENT" plainEnv 2000 :=
  challenge_never_authenticates limitsMemos_plainSdk plainConfig ⟨[], []⟩ "GCLIENT" "SGCLIENT"
    plainEnv 2000

end Examples

end StellarDonations.Sep10
