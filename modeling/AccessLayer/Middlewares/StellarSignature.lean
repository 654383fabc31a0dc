import AccessLayer.Governance.Proposals
import AccessLayer.Library.Json
import AccessLayer.Library.Numerals
import AccessLayer.Nonce.WalletNonce
import Mathlib.Logic.Function.Basic

/-
  Requests that are signed by a Stellar wallet
  (`src/middlewares/stellar-signature.middleware.ts`).

  The signature is over the body and the timestamp.  A nonce may
  be carried by a header, which is not signed, or by the body; it
  is consumed by a call that interleaves with those of the other
  requests of the wallet.  Logs are left out.

  Main result: `signed_request_not_reused`
-/

-- Nonces of a Request
----

namespace AccessLayer

namespace Middlewares

open Nonce

section

open Doubles

inductive HeaderValue where
  | single (value : String)
  | many (values : List String)

structure StellarSignedRequest where
  method : String
  path : String
  headers : String → Option HeaderValue
  body : Option Json

/- What is left of the first value without its blanks. -/
def StellarSignedRequest.readHeader (req : StellarSignedRequest) (name : String) : Option String :=
  let value :=
    (req.headers name).bind fun
      | .single value => some value
      | .many values => values.head?
  (value.map Governance.trim).filter (· ≠ "")

def radixDigit (radix : ℕ) (c : Char) : Option ℕ := (Hex.value c.toLower).filter (· < radix)

/- What digits stand for, if there are any. -/
def radixNumber (radix : ℕ) (text : List Char) : Option ℚ :=
  if text = [] then none
  else
    (text.mapM (radixDigit radix)).map fun digits =>
      toNumber (digits.foldl (fun n d => radix * n + d) 0 : ℕ)

/- The exponent of a number, if nothing comes after it. -/
def exponentOf : List Char → Option ℤ
  | [] => some 0
  | c :: rest =>
    if c = 'e' ∨ c = 'E' then
      let digits :=
        match rest with
        | '+' :: digits => digits
        | '-' :: digits => digits
        | digits => digits
      if digits.all Char.isDigit then
        parseInt (fun _ => false) rest
      else none
    else none

def decimalNumber (text : List Char) : Option ℚ :=
  let whole := text.takeWhile Char.isDigit
  let rest := text.dropWhile Char.isDigit
  let fraction :=
    match rest with
    | '.' :: rest => rest.takeWhile Char.isDigit
    | _ => []
  let rest :=
    match rest with
    | '.' :: rest => rest.dropWhile Char.isDigit
    | rest => rest
  match digitsValue (whole ++ fraction), exponentOf rest with
  | some n, some exponent => some (toNumber (n * 10 ^ (exponent - fraction.length)))
  | _, _ => none

/- The number that is written by the whole of a text. -/
def stringToNumber (text : String) : Option ℚ :=
  match Governance.trimChars text.toList with
  | [] => some 0
  | '0' :: 'x' :: rest | '0' :: 'X' :: rest => radixNumber 16 rest
  | '0' :: 'o' :: rest | '0' :: 'O' :: rest => radixNumber 8 rest
  | '0' :: 'b' :: rest | '0' :: 'B' :: rest => radixNumber 2 rest
  | '-' :: rest => (decimalNumber rest).map fun q => -q
  | '+' :: rest => decimalNumber rest
  | rest => decimalNumber rest

mutual

def itemText : Json → List Char
  | .null => []
  | .bool value => (toString value).toList
  | .number mantissa exponent => numberText (toNumber (mantissa * 10 ^ exponent))
  | .string value => value.toList
  | .array items => itemsText items
  | .object _ => "[object Object]".toList

def itemsText : List Json → List Char
  | [] => []
  | [item] => itemText item
  | item :: next :: rest => itemText item ++ ',' :: itemsText (next :: rest)

end

def jsonToNumber : Json → Option ℚ
  | .null => some 0
  | .bool value => some (if value then 1 else 0)
  | .number mantissa exponent => some (toNumber (mantissa * 10 ^ exponent))
  | .string value => stringToNumber value
  | .array items => stringToNumber (String.ofList (itemsText items))
  | .object _ => none

def integerNonce (value : Json) : Option ℕ :=
  ((jsonToNumber value).filter fun q =>
    isFiniteNumber q ∧ q.den = 1 ∧ 0 ≤ q).map fun q => q.num.toNat

def isPresent : Json → Bool
  | .null => false
  | .string value => value ≠ ""
  | _ => true

/- The header counts where there is one. -/
def carriedNonce (request : StellarSignedRequest) : Option Json :=
  let nonceHeader : Option Json :=
    match request.readHeader "x-nonce" with
    | some text => some (.string text)
    | none => request.body.bind (·.get? "nonce")
  nonceHeader.filter isPresent

-- Middleware
----

/- A hash function, and a verification that may throw. -/
structure SignatureEnv where
  sha256 : List UInt8 → List UInt8
  verify : String → List UInt8 → List UInt8 → Option Bool

inductive SignatureError where
  | missingHeaders
  | invalidAddress (issues : List String)
  | invalidTimestamp
  | expiredTimestamp
  | invalidFormat
  | invalidSignature
  | invalidNonce
  | refusedNonce (error : NonceError)
  | internal

namespace SignatureError

def status : SignatureError → ℕ
  | missingHeaders | expiredTimestamp => 401
  | invalidAddress _ | invalidTimestamp | invalidFormat
  | invalidNonce => 400
  | invalidSignature => 403
  | refusedNonce error => error.status
  | internal => 500

def code : SignatureError → String
  | missingHeaders | expiredTimestamp => "UNAUTHORIZED"
  | invalidAddress _ | invalidTimestamp | invalidFormat
  | invalidNonce => "BAD_REQUEST"
  | invalidSignature => "FORBIDDEN"
  | refusedNonce (.nonceAlreadyConsumed _ _) => "CONFLICT"
  | refusedNonce (.nonceMismatch _ _ _) => "BAD_REQUEST"
  | internal => "INTERNAL_ERROR"

def message : SignatureError → String
  | missingHeaders =>
    "Missing required signature headers: x-wallet-address, " ++ "x-wallet-signature, x-timestamp"
  | invalidAddress _ => "Invalid Stellar wallet address format"
  | invalidTimestamp => "Invalid timestamp format — must be Unix milliseconds"
  | expiredTimestamp => "Signature timestamp is invalid or expired (must be " ++ "within 5 minutes)"
  | invalidFormat => "Invalid signature format — Ed25519 signatures must be " ++ "64 bytes"
  | invalidSignature =>
    "Invalid signature — the request body was tampered with " ++ "or signed by the wrong key"
  | invalidNonce => "Invalid nonce format — must be a non-negative integer"
  | refusedNonce error => error.message
  | internal => "Signature verification failed due to an internal error"

/- A field, and what is wrong with it. -/
def details : SignatureError → List (String × String)
  | invalidAddress issues => issues.map fun issue => ("x-wallet-address", issue)
  | _ => []

end SignatureError

def SIGNATURE_TIMESTAMP_TOLERANCE_MS : ℚ := 5 * 60 * 1000

def isBase32 (c : Char) : Bool := ('A' ≤ c ∧ c ≤ 'Z') ∨ ('2' ≤ c ∧ c ≤ '7')

/- What `StellarAddressSchema` finds wrong with an address. -/
def addressIssues (address : String) : List String :=
  let chars := address.toList
  (if chars.length = 56 then [] else
    ["Stellar address must be exactly 56 characters long"]) ++
  (if chars.head? = some 'G' ∧ chars.tail.length = 55 ∧ chars.tail.all isBase32 then [] else
    ["Invalid Stellar public key format (must start with G " ++ "and use Base32 characters)"])

def timestampNumber (timestamp : String) : Option ℚ :=
  (parseInt Governance.isWhiteSpace timestamp.toList).map fun value : ℤ => toNumber value

def isFresh (now : ℕ) (timestamp : ℚ) : Bool :=
  0 ≤ now - timestamp ∧ now - timestamp ≤ SIGNATURE_TIMESTAMP_TOLERANCE_MS

def bodyJson (request : StellarSignedRequest) : List Char :=
  match request.body with
  | some body => body.stringify
  | none => "undefined".toList

/- What the client must sign. -/
def buildCanonicalMessage (env : SignatureEnv) (request : StellarSignedRequest)
    (timestamp : String) : List UInt8 :=
  env.sha256 (Utf8.encode (bodyJson request ++ timestamp.toList))

/- The wallet, and the nonce that is left to be consumed. -/
def requireStellarSignature (env : SignatureEnv) (request : StellarSignedRequest)
    (now : ℕ) : Except SignatureError (String × Option ℕ) :=
  match request.readHeader "x-wallet-address", request.readHeader "x-wallet-signature",
    request.readHeader "x-timestamp" with
  | some address, some signature, some timestamp =>
    if addressIssues address ≠ [] then
      .error (.invalidAddress (addressIssues address))
    else
      match timestampNumber timestamp with
      | none => .error .invalidTimestamp
      | some ts =>
        if isFresh now ts = false then
          .error .expiredTimestamp
        else
          let message := buildCanonicalMessage env request timestamp
          let signatureBuffer := Base64.decode signature.toList
          if signatureBuffer.length ≠ 64 then
            .error .invalidFormat
          else
            match env.verify address message signatureBuffer with
            | none => .error .internal
            | some false => .error .invalidSignature
            | some true =>
              match carriedNonce request with
              | none => .ok (address, none)
              | some value =>
                match integerNonce value with
                | none => .error .invalidNonce
                | some nonce => .ok (address, some nonce)
  | _, _, _ => .error .missingHeaders

end

-- Runs
----

section

/- What has become of a request when it was received. -/
inductive SignedOutcome where
  | refused (error : SignatureError)
  | passed
  | consuming (walletAddress : String) (i nonce : ℕ)

structure HandledSigned where
  request : StellarSignedRequest
  outcome : SignedOutcome

/- The nonces of every wallet, and the requests. -/
structure SignatureWorld where
  nonces : String → NonceWorld
  requests : List HandledSigned

def SignatureWorld.start (contract : String → Option ℕ) : SignatureWorld where
  nonces walletAddress := .start (contract walletAddress)
  requests := []

/- Other routes consume nonces of a wallet, too. -/
inductive SignatureMove where
  | receive (request : StellarSignedRequest) (now : ℕ)
  | nonces (walletAddress : String) (move : NonceMove)

namespace SignatureWorld

variable (world : SignatureWorld)

def record (handled : HandledSigned) : SignatureWorld :=
  { world with requests := world.requests ++ [handled] }

def receive (env : SignatureEnv) (request : StellarSignedRequest)
    (now : ℕ) : Option SignatureWorld :=
  match requireStellarSignature env request now with
  | .error error => some (world.record { request, outcome := .refused error })
  | .ok (_, none) => some (world.record { request, outcome := .passed })
  | .ok (address, some nonce) =>
    ((world.nonces address).step address (.arrive nonce)).map fun nonces =>
      { nonces := Function.update world.nonces address nonces
        requests :=
          world.requests ++
            [{ request
               outcome := .consuming address (world.nonces address).calls.length nonce }] }

def step (env : SignatureEnv) (world : SignatureWorld) : SignatureMove → Option SignatureWorld
  | .receive request now => world.receive env request now
  | .nonces walletAddress move =>
    ((world.nonces walletAddress).step walletAddress move).map fun nonces => { world with
          nonces := Function.update world.nonces walletAddress nonces }

/- What the request has been answered, if it has been. -/
def answer : SignedOutcome → Option (Except SignatureError Unit)
  | .refused error => some (.error error)
  | .passed => some (.ok ())
  | .consuming walletAddress i _ =>
    match (world.nonces walletAddress).calls[i]? with
    | some call =>
      match call.stage with
      | .accepted _ => some (.ok ())
      | .rejected error => some (.error (.refusedNonce error))
      | _ => none
    | none => none

def isAccepted (handled : HandledSigned) : Bool :=
  match world.answer handled.outcome with
  | some (.ok ()) => true
  | _ => false

end SignatureWorld

/- The nonce that is consumed for a request. -/
def HandledSigned.nonce (handled : HandledSigned) : Option ℕ :=
  match handled.outcome with
  | .consuming _ _ nonce => some nonce
  | _ => none

def HandledSigned.isCall (walletAddress : String) (i : ℕ) (handled : HandledSigned) : Bool :=
  match handled.outcome with
  | .consuming wallet j _ => wallet = walletAddress ∧ j = i
  | _ => false

/- What may be sent again: the body counts as it is signed. -/
def signedParts (request : StellarSignedRequest) :
    Option String × Option String × Option String × List Char :=
  (request.readHeader "x-wallet-address", request.readHeader "x-wallet-signature",
    request.readHeader "x-timestamp", bodyJson request)

def isStale (now : ℕ) (request : StellarSignedRequest) : Bool :=
  match (request.readHeader "x-timestamp").bind timestampNumber with
  | some ts => isFresh now ts = false
  | none => true

def SignatureWorld.consumers (world : SignatureWorld)
    (request : StellarSignedRequest) : List HandledSigned :=
  world.requests.filter fun first => signedParts first.request = signedParts request ∧
    first.nonce ≠ none ∧ world.isAccepted first

/-
  A request whose signed parts have consumed a nonce is stale or
  carries a nonce, and if that is the wallet's current one, it
  is the one that was consumed.
-/
def Guarded (world : SignatureWorld) : SignatureMove → Prop
  | .receive request now =>
    world.consumers request ≠ [] → isStale now request = true ∨ (carriedNonce request).isSome = true
  | .nonces walletAddress move =>
    Undisturbed (world.nonces walletAddress) move ∧
      match move with
      | .resume i _ =>
        ∀ call ∈ (world.nonces walletAddress).calls[i]?, call.stage = .compare call.nonce →
          ∀ later ∈ world.requests, later.isCall walletAddress i = true →
            ∀ first ∈ world.consumers later.request, first.nonce = some call.nonce
      | _ => True

instance (world : SignatureWorld) (move : SignatureMove) : Decidable (Guarded world move) :=
  match move with
  | .receive _ _ => inferInstanceAs (Decidable (_ ≠ [] → _))
  | .nonces _ (.resume _ _) => inferInstanceAs (Decidable (_ ∧ ∀ call ∈ (_ : Option _), _ → _))
  | .nonces _ (.arrive _) | .nonces _ .lapseCurrent
  | .nonces _ (.lapseConsumed _) | .nonces _ (.contract _) => inferInstanceAs (Decidable (_ ∧ True))

end

-- Calls of Requests
----

section

open Transactional

variable {env : SignatureEnv} {wallet : String}

theorem nonce_step_call {nonces nonces' : NonceWorld} {move : NonceMove} {i : ℕ}
    {call : ConsumeCall} (hStep : nonces.step wallet move = some nonces')
    (hCall : nonces.calls[i]? = some call) :
    ∃ call', nonces'.calls[i]? = some call' ∧ call'.nonce = call.nonce ∧
      (call.stage.isAccepted = true → call' = call) ∧ (call'.stage.isRecorded = true →
        call.stage.isRecorded = true ∨ call.stage = .compare call.nonce ∧
          ∃ served, move = .resume i served) := by
  have hKept : nonces'.calls[i]? = some call → ∃ call', nonces'.calls[i]? = some call' ∧
      call'.nonce = call.nonce ∧ (call.stage.isAccepted = true → call' = call) ∧
      (call'.stage.isRecorded = true → call.stage.isRecorded = true ∨
        call.stage = .compare call.nonce ∧ ∃ served, move = .resume i served) :=
    fun hSame => ⟨call, hSame, rfl, fun _ => rfl, Or.inl⟩
  cases move with
  | arrive nonce =>
    cases hStep
    exact hKept (getElem?_extended (List.prefix_append _ _) hCall)
  | resume j served =>
    simp only [NonceWorld.step] at hStep
    cases hOther : nonces.calls[j]? with
    | none => simp [hOther] at hStep
    | some other =>
      simp only [hOther] at hStep
      cases hResume : Nonce.resume wallet served nonces.store other.nonce other.stage with
      | none => simp [hResume] at hStep
      | some result =>
        simp only [hResume, Option.some.injEq] at hStep
        subst hStep
        by_cases hSame : j = i
        · subst hSame
          rw [hOther] at hCall
          cases hCall
          refine ⟨{ call with stage := result.2 }, ?_, rfl, ?_, ?_⟩
          · have hLength := (List.getElem?_eq_some_iff.mp hOther).1
            exact List.getElem?_set_self hLength
          · intro hAccepted
            cases hStage : call.stage with
            | accepted nextNonce =>
              rw [hStage] at hResume
              cases hResume
            | _ => simp [hStage, Stage.isAccepted] at hAccepted
          · intro hRecorded
            rcases resume_cases hResume with ⟨-, hNot, -⟩ | ⟨n, -, hNext, -⟩ |
              ⟨hStage, -, -⟩ | ⟨hStage, -, -⟩ | ⟨hStage, -, -⟩ | ⟨hStage, -, -⟩
            · exact absurd hRecorded (by simp [hNot])
            · rw [hNext] at hRecorded
              cases hRecorded
            · exact Or.inr ⟨hStage, served, rfl⟩
            · exact Or.inl (by rw [hStage]; rfl)
            · exact Or.inl (by rw [hStage]; rfl)
            · exact Or.inl (by rw [hStage]; rfl)
        · apply hKept
          rw [List.getElem?_set_ne hSame]
          exact hCall
  | lapseCurrent =>
    cases hStep
    exact hKept hCall
  | lapseConsumed nonce =>
    cases hStep
    exact hKept hCall
  | contract answer =>
    cases hStep
    exact hKept hCall

/- What is known of a request that passed its checks. -/
theorem requireStellarSignature_ok {request : StellarSignedRequest} {now : ℕ} {address : String}
    {nonce : Option ℕ} (hOk : requireStellarSignature env request now = .ok (address, nonce)) :
    request.readHeader "x-wallet-address" = some address ∧ isStale now request = false ∧
      (nonce = none → carriedNonce request = none) := by
  unfold requireStellarSignature at hOk
  split at hOk
  · rename_i wallet signature timestamp hWallet _ hTimestamp
    split at hOk
    · cases hOk
    · split at hOk
      · cases hOk
      · rename_i ts hTs
        split at hOk
        · cases hOk
        · rename_i hFresh
          have hNotStale : isStale now request = false := by
            unfold isStale
            rw [hTimestamp, Option.bind_some, hTs]
            simpa using hFresh
          simp only at hOk
          split at hOk
          · cases hOk
          · split at hOk
            · cases hOk
            · cases hOk
            · split at hOk
              · rename_i hNone
                cases hOk
                exact ⟨hWallet, hNotStale, fun _ => hNone⟩
              · split at hOk
                · cases hOk
                · cases hOk
                  exact ⟨hWallet, hNotStale, nofun⟩
  · cases hOk

end

-- Requests That Are Sent Again
----

open Transactional

variable {env : SignatureEnv} {world world' : SignatureWorld} {move : SignatureMove}
variable {wallet : String}

def SignedOutcome.isCall : SignedOutcome → Bool
  | .consuming _ _ _ => true
  | _ => false

theorem SignatureWorld.step_cases (hStep : world.step env move = some world') :
    (∃ request now outcome, move = .receive request now ∧ outcome.isCall = false ∧
      (outcome = .passed → ∃ address, requireStellarSignature env request now =
        .ok (address, none)) ∧ world' = world.record { request, outcome }) ∨
    (∃ request now address nonce nonces, move = .receive request now ∧
      requireStellarSignature env request now = .ok (address, some nonce) ∧
      (world.nonces address).step address (.arrive nonce) = some nonces ∧ world' =
        { nonces := Function.update world.nonces address nonces
          requests :=
            world.requests ++
              [{ request
                 outcome := .consuming address (world.nonces address).calls.length nonce }] }) ∨
    ∃ wallet nonceMove nonces, move = .nonces wallet nonceMove ∧
      (world.nonces wallet).step wallet nonceMove = some nonces ∧ world' = { world with
          nonces := Function.update world.nonces wallet nonces } := by
  cases move with
  | receive request now =>
    simp only [step, receive] at hStep
    split at hStep
    · rename_i error _
      cases hStep
      exact Or.inl ⟨request, now, .refused error, rfl, rfl, nofun, rfl⟩
    · rename_i address hOk
      cases hStep
      exact Or.inl ⟨request, now, .passed, rfl, rfl, fun _ => ⟨address, hOk⟩, rfl⟩
    · rename_i address nonce hOk
      rcases Option.map_eq_some_iff.mp hStep with ⟨nonces, hArrive, rfl⟩
      exact Or.inr (Or.inl ⟨request, now, address, nonce, nonces, rfl, hOk, hArrive, rfl⟩)
  | nonces wallet nonceMove =>
    rcases Option.map_eq_some_iff.mp hStep with ⟨nonces, hNonces, rfl⟩
    exact Or.inr (Or.inr ⟨wallet, nonceMove, nonces, rfl, hNonces, rfl⟩)

/- What is recorded of a request stays as it is. -/
theorem SignatureWorld.requests_step (hStep : world.step env move = some world') :
    world.requests <+: world'.requests := by
  rcases step_cases hStep with ⟨_, _, _, -, -, -, rfl⟩ | ⟨_, _, _, _, _, -, -, -, rfl⟩ |
    ⟨_, _, _, -, -, rfl⟩
  · exact List.prefix_append _ _
  · exact List.prefix_append _ _
  · exact List.prefix_refl _

theorem SignatureWorld.step_call {i : ℕ} {call : ConsumeCall}
    (hStep : world.step env move = some world')
    (hCall : (world.nonces wallet).calls[i]? = some call) :
    ∃ call', (world'.nonces wallet).calls[i]? = some call' ∧ call'.nonce = call.nonce ∧
      (call.stage.isAccepted = true → call' = call) ∧ (call'.stage.isRecorded = true →
        call.stage.isRecorded = true ∨ call.stage = .compare call.nonce ∧
          ∃ served, move = .nonces wallet (.resume i served)) := by
  have hKept : (world'.nonces wallet).calls[i]? = some call → ∃ call',
      (world'.nonces wallet).calls[i]? = some call' ∧ call'.nonce = call.nonce ∧
      (call.stage.isAccepted = true → call' = call) ∧ (call'.stage.isRecorded = true →
        call.stage.isRecorded = true ∨ call.stage = .compare call.nonce ∧ ∃ served,
          move = .nonces wallet (.resume i served)) :=
    fun hSame => ⟨call, hSame, rfl, fun _ => rfl, Or.inl⟩
  rcases step_cases hStep with ⟨_, _, _, -, -, -, rfl⟩ |
    ⟨_, _, address, _, nonces, -, -, hArrive, rfl⟩ | ⟨other, nonceMove, nonces, rfl, hNonces, rfl⟩
  · exact hKept hCall
  · by_cases hSame : wallet = address
    · subst hSame
      rcases nonce_step_call hArrive hCall with ⟨call', hCall', hNonce, hAccepted, hRecorded⟩
      refine ⟨call', ?_, hNonce, hAccepted, ?_⟩
      · simp only [Function.update_self]
        exact hCall'
      · intro hNow
        rcases hRecorded hNow with hOld | ⟨-, served, hMove⟩
        · exact Or.inl hOld
        · cases hMove
    · apply hKept
      simp only [Function.update_of_ne hSame]
      exact hCall
  · by_cases hSame : wallet = other
    · subst hSame
      rcases nonce_step_call hNonces hCall with ⟨call', hCall', hNonce, hAccepted, hRecorded⟩
      refine ⟨call', ?_, hNonce, hAccepted, ?_⟩
      · simp only [Function.update_self]
        exact hCall'
      · intro hNow
        rcases hRecorded hNow with hOld | ⟨hStage, served, rfl⟩
        · exact Or.inl hOld
        · exact Or.inr ⟨hStage, served, rfl⟩
    · apply hKept
      simp only [Function.update_of_ne hSame]
      exact hCall

/- Each request that consumes a nonce has a call of its wallet. -/
structure Linked (world : SignatureWorld) : Prop where
  coherent : ∀ wallet, (world.nonces wallet).Coherent
  calls :
    ∀ handled ∈ world.requests, ∀ wallet i nonce, handled.outcome = .consuming wallet i nonce →
      handled.request.readHeader "x-wallet-address" = some wallet ∧ ∃ call,
        (world.nonces wallet).calls[i]? = some call ∧ call.nonce = nonce

theorem linked_start (contract : String → Option ℕ) : Linked (.start contract) where
  coherent wallet := coherent_start (contract wallet)
  calls _ h := nomatch h

theorem linked_step (hLinked : Linked world) (hGuarded : Guarded world move)
    (hStep : world.step env move = some world') :
    Linked world' := by
  have hOld :
      ∀ handled ∈ world.requests, ∀ wallet i nonce, handled.outcome = .consuming wallet i nonce →
        handled.request.readHeader "x-wallet-address" = some wallet ∧ ∃ call,
          (world'.nonces wallet).calls[i]? = some call ∧ call.nonce = nonce := by
    intro handled hHandled wallet i nonce hOutcome
    rcases hLinked.calls handled hHandled wallet i nonce hOutcome with
      ⟨hWallet, call, hCall, hNonce⟩
    rcases SignatureWorld.step_call hStep hCall with ⟨call', hCall', hNonce', -⟩
    exact ⟨hWallet, call', hCall', hNonce'.trans hNonce⟩
  rcases SignatureWorld.step_cases hStep with ⟨request, now, outcome, -, hNoCall, -, rfl⟩ |
    ⟨request, now, address, nonce, nonces, -, hOk, hArrive, rfl⟩ |
    ⟨wallet, nonceMove, nonces, rfl, hNonces, rfl⟩
  · refine ⟨hLinked.coherent, ?_⟩
    intro handled hHandled wallet i nonce hOutcome
    rcases List.mem_append.mp hHandled with hMem | hNew
    · exact hOld handled hMem wallet i nonce hOutcome
    · rw [List.mem_singleton.mp hNew] at hOutcome
      simp only at hOutcome
      rw [hOutcome] at hNoCall
      cases hNoCall
  · constructor
    · intro wallet
      by_cases hSame : wallet = address
      · subst hSame
        have hUndisturbed : Undisturbed (world.nonces wallet) (.arrive nonce) := trivial
        simp only [Function.update_self]
        exact (coherent_step (hLinked.coherent wallet) hUndisturbed hArrive).1
      · simp only [Function.update_of_ne hSame]
        exact hLinked.coherent wallet
    · intro handled hHandled wallet i n hOutcome
      rcases List.mem_append.mp hHandled with hMem | hNew
      · exact hOld handled hMem wallet i n hOutcome
      · rw [List.mem_singleton.mp hNew] at hOutcome ⊢
        cases hOutcome
        refine ⟨(requireStellarSignature_ok hOk).1, ?_⟩
        cases hArrive
        simp only [Function.update_self]
        refine ⟨_, List.getElem?_concat_length, ?_⟩
        rfl
  · refine ⟨?_, hOld⟩
    intro other
    by_cases hSame : other = wallet
    · subst hSame
      simp only [Function.update_self]
      exact (coherent_step (hLinked.coherent other) hGuarded.1 hNonces).1
    · simp only [Function.update_of_ne hSame]
      exact hLinked.coherent other

theorem SignatureWorld.isAccepted_iff (handled : HandledSigned) :
    world.isAccepted handled = true ↔ handled.outcome = .passed ∨ ∃ wallet i nonce call,
      handled.outcome = .consuming wallet i nonce ∧
      (world.nonces wallet).calls[i]? = some call ∧
      call.stage.isAccepted = true := by
  unfold isAccepted answer
  cases hOutcome : handled.outcome with
  | refused error => simp
  | passed => simp
  | consuming wallet i nonce =>
    cases hCall : (world.nonces wallet).calls[i]? with
    | none => simp [hCall]
    | some call => cases hStage : call.stage <;> simp [hCall, hStage, Stage.isAccepted]

variable {handled : HandledSigned}

theorem SignatureWorld.isAccepted_step (hAccepted : world.isAccepted handled = true)
    (hStep : world.step env move = some world') :
    world'.isAccepted handled = true := by
  rw [isAccepted_iff] at hAccepted ⊢
  rcases hAccepted with hPassed | ⟨wallet, i, nonce, call, hOutcome, hCall, hStage⟩
  · exact Or.inl hPassed
  · rcases step_call hStep hCall with ⟨call', hCall', -, hKept, -⟩
    rw [hKept hStage] at hCall'
    exact Or.inr ⟨wallet, i, nonce, call, hOutcome, hCall', hStage⟩

variable {first : HandledSigned}

theorem mem_consumed_of_accepted {nonce : ℕ} (hLinked : Linked world)
    (hFirst : first ∈ world.requests) (hAccepted : world.isAccepted first = true)
    (hNonce : first.nonce = some nonce)
    (hWallet : first.request.readHeader "x-wallet-address" = some wallet) :
    nonce ∈ (world.nonces wallet).store.inMemoryConsumedNonces := by
  rcases (SignatureWorld.isAccepted_iff first).mp hAccepted with
    hPassed | ⟨other, i, n, call, hOutcome, hCall, hStage⟩
  · unfold HandledSigned.nonce at hNonce
    rw [hPassed] at hNonce
    cases hNonce
  · rcases hLinked.calls first hFirst other i n hOutcome with ⟨hOther, call', hCall', rfl⟩
    have hSame : other = wallet := Option.some.inj (hOther.symm.trans hWallet)
    subst hSame
    rw [hCall] at hCall'
    cases hCall'
    unfold HandledSigned.nonce at hNonce
    rw [hOutcome] at hNonce
    cases hNonce
    exact ((hLinked.coherent other).calls call (List.mem_of_getElem? hCall)).recorded
      (isRecorded_of_isAccepted hStage)

/- The request has not passed, and its call does not record. -/
structure IsBarred (world : SignatureWorld) (handled : HandledSigned) : Prop where
  notPassed : handled.outcome ≠ .passed
  notRecorded : ∀ wallet i nonce, handled.outcome = .consuming wallet i nonce →
    ∀ call, (world.nonces wallet).calls[i]? = some call → call.stage.isRecorded = false

/- A request that reuses what has consumed a nonce. -/
structure Reused (first : HandledSigned) (second : StellarSignedRequest) (k : ℕ)
    (world : SignatureWorld) : Prop where
  linked : Linked world
  consumer : first ∈ world.consumers second
  barred :
    ∃ handled, world.requests[k]? = some handled ∧ handled.request = second ∧ IsBarred world handled

variable {request : StellarSignedRequest}

theorem SignatureWorld.mem_consumers :
    first ∈ world.consumers request ↔ first ∈ world.requests ∧
      signedParts first.request = signedParts request ∧
      first.nonce ≠ none ∧ world.isAccepted first = true := by
  unfold consumers
  rw [List.mem_filter, decide_eq_true_iff]

theorem SignatureWorld.consumers_step (hFirst : first ∈ world.consumers request)
    (hStep : world.step env move = some world') :
    first ∈ world'.consumers request := by
  rw [mem_consumers] at hFirst ⊢
  rcases hFirst with ⟨hMem, hSame, hNonce, hAccepted⟩
  exact ⟨(requests_step hStep).subset hMem, hSame, hNonce, isAccepted_step hAccepted hStep⟩

variable {k : ℕ}

theorem SignatureWorld.getElem?_requests_step (hHandled : world.requests[k]? = some handled)
    (hStep : world.step env move = some world') :
    world'.requests[k]? = some handled := by
  rcases requests_step hStep with ⟨rest, hRest⟩
  rw [← hRest, List.getElem?_append_left]
  · exact hHandled
  · exact (List.getElem?_eq_some_iff.mp hHandled).1

variable {second : StellarSignedRequest}

/-
  A call that records the wallet's current nonce would record one
  that the earlier request has consumed.
-/
theorem reused_step (hReused : Reused first second k world) (hGuarded : Guarded world move)
    (hStep : world.step env move = some world') :
    Reused first second k world' := by
  rcases hReused with ⟨hLinked, hFirst, handled, hHandled, rfl, hBarred⟩
  refine ⟨linked_step hLinked hGuarded hStep, SignatureWorld.consumers_step hFirst hStep, handled,
    SignatureWorld.getElem?_requests_step hHandled hStep, rfl, hBarred.notPassed, ?_⟩
  intro wallet i nonce hOutcome call' hCall'
  have hMem := List.mem_of_getElem? hHandled
  rcases hLinked.calls handled hMem wallet i nonce hOutcome with ⟨hWallet, call, hCall, rfl⟩
  rcases SignatureWorld.step_call hStep hCall with ⟨call'', hCall'', -, -, hRecorded⟩
  rw [hCall'] at hCall''
  cases hCall''
  rw [← Bool.not_eq_true]
  intro hNow
  rcases hRecorded hNow with hOld | ⟨hStage, served, rfl⟩
  · rw [hBarred.notRecorded wallet i _ hOutcome call hCall] at hOld
    cases hOld
  · rcases hGuarded with ⟨hUndisturbed, hSameNonce⟩
    have hIsCall : handled.isCall wallet i = true := by
      unfold HandledSigned.isCall
      rw [hOutcome]
      simp
    have hNonce := hSameNonce call hCall hStage handled hMem hIsCall first hFirst
    rcases SignatureWorld.mem_consumers.mp hFirst with ⟨hFirstMem, hSame, -, hAccepted⟩
    have hFirstWallet : first.request.readHeader "x-wallet-address" = some wallet := by
      have hParts : first.request.readHeader "x-wallet-address" =
          handled.request.readHeader "x-wallet-address" :=
        congrArg Prod.fst hSame
      rw [hParts]
      exact hWallet
    have hConsumed := mem_consumed_of_accepted hLinked hFirstMem hAccepted hNonce hFirstWallet
    have hFresh := hUndisturbed call hCall
    rw [hStage] at hFresh
    exact hFresh rfl hConsumed

/- The new call has only begun. -/
theorem reused_receive {now : ℕ} (hLinked : Linked world) (hFirst : first ∈ world.consumers second)
    (hGuarded : Guarded world (.receive second now))
    (hStep : world.step env (.receive second now) = some world') :
    Reused first second world.requests.length world' := by
  have hSome : world.consumers second ≠ [] := List.ne_nil_of_mem hFirst
  refine ⟨linked_step hLinked hGuarded hStep, SignatureWorld.consumers_step hFirst hStep, ?_⟩
  rcases SignatureWorld.step_cases hStep with
    ⟨request, time, outcome, hMove, hNoCall, hPassed, rfl⟩ |
      ⟨request, time, address, nonce, nonces, hMove, -, hArrive, rfl⟩ | ⟨_, _, _, hMove, -, -⟩
  · cases hMove
    refine ⟨_, List.getElem?_concat_length, rfl, ?_, ?_⟩
    · intro hOutcome
      rcases hPassed hOutcome with ⟨address, hOk⟩
      rcases requireStellarSignature_ok hOk with ⟨-, hFresh, hNone⟩
      rcases hGuarded hSome with hStale | hCarried
      · rw [hFresh] at hStale
        cases hStale
      · rw [hNone rfl] at hCarried
        cases hCarried
    · intro wallet i nonce hOutcome
      simp only at hOutcome
      rw [hOutcome] at hNoCall
      cases hNoCall
  · cases hMove
    cases hArrive
    refine ⟨_, List.getElem?_concat_length, rfl, nofun, ?_⟩
    intro wallet i n hOutcome call hCall
    cases hOutcome
    simp only [Function.update_self, List.getElem?_concat_length] at hCall
    cases hCall
    unfold consumeWalletNonce
    split
    · rfl
    · rfl
  · cases hMove

/-
  In every guarded run no request is accepted whose address,
  signature, timestamp and body were those of a request that was
  accepted with a nonce before.
-/
theorem signed_request_not_reused {contract : String → Option ℕ} {moves later : List SignatureMove}
    {arrived : SignatureWorld} {first : HandledSigned} {second : StellarSignedRequest} {now : ℕ}
    (hRun : RunsTo (SignatureWorld.step env) Guarded (.start contract) moves world)
    (hFirst : first ∈ world.requests) (hAccepted : world.isAccepted first = true)
    (hNonce : first.nonce ≠ none) (hSame : signedParts first.request = signedParts second)
    (hGuarded : Guarded world (.receive second now))
    (hReceive : world.step env (.receive second now) = some arrived)
    (hLater : RunsTo (SignatureWorld.step env) Guarded arrived later world') :
    ∃ handled, world'.requests[world.requests.length]? = some handled ∧ handled.request = second ∧
      world'.isAccepted handled = false := by
  have hLinked : Linked world :=
    hRun.invariant (linked_start contract) fun _ _ _ hs hAllowed hStep =>
      linked_step hs hAllowed hStep
  have hConsumer : first ∈ world.consumers second :=
    SignatureWorld.mem_consumers.mpr ⟨hFirst, hSame, hNonce, hAccepted⟩
  have hReused : Reused first second world.requests.length world' :=
    hLater.invariant (reused_receive hLinked hConsumer hGuarded hReceive)
      fun _ _ _ hs hAllowed hStep => reused_step hs hAllowed hStep
  rcases hReused.barred with ⟨handled, hHandled, hRequest, hBarred⟩
  refine ⟨handled, hHandled, hRequest, ?_⟩
  rw [← Bool.not_eq_true, SignatureWorld.isAccepted_iff]
  rintro (hPassed | ⟨wallet, i, nonce, call, hOutcome, hCall, hStage⟩)
  · exact hBarred.notPassed hPassed
  · have hNot := hBarred.notRecorded wallet i nonce hOutcome call hCall
    rw [isRecorded_of_isAccepted hStage] at hNot
    cases hNot

def sampleAddress : String := "GAWHLNSLZAC7IT6XLXX4L2SJZXCTZUUWEUGS4DLOXQTZTBTQHD5K7OTX"

def sampleDigest : List UInt8 :=
  [22, 175, 88, 69, 6, 35, 104, 227, 141, 21, 79, 202, 182, 45,
    227, 151, 24, 53, 99, 133, 163, 94, 4, 194, 39, 62, 104, 18, 225, 13, 215, 245]

def sampleSignature : String :=
  "0LFSzFd/uECOH0KjHCYXgWpsYoSqXtV4yJIMHblfF942ujzN5HvXiAse/bbm" ++ "ECKiiEWjTdVSCfD8PwAXW8JpCQ=="

/- The digest and the signature of one message. -/
def sampleSignatureEnv : SignatureEnv where
  sha256 data :=
    if data = Utf8.encode "\x7b\"displayName\":\"Ada\"\x7d1700000000000".toList
    then sampleDigest
    else []
  verify address message signature :=
    some (address = sampleAddress ∧ message = sampleDigest ∧
      signature = Base64.decode sampleSignature.toList)

def sampleSigned (path : String) (nonce : Option String) : StellarSignedRequest where
  method := "PUT"
  path
  headers name :=
    match name with
    | "x-wallet-address" => some (.single sampleAddress)
    | "x-wallet-signature" => some (.single sampleSignature)
    | "x-timestamp" => some (.single "1700000000000")
    | "x-nonce" => nonce.map .single
    | _ => none
  body := some (.object [("displayName", .string "Ada")])

/- A request whose header carries the first nonce. -/
def sampleSignedMoves : List SignatureMove :=
  .receive (sampleSigned "/creators/1" (some "0")) 1700000000100 ::
    (resumes 0 9).map (.nonces sampleAddress)

theorem signed_request_not_reused_sample :
    ∃ world arrived, RunsTo (SignatureWorld.step sampleSignatureEnv) Guarded
      (.start fun _ => none) sampleSignedMoves world ∧ world.step sampleSignatureEnv
        (.receive (sampleSigned "/creators/2" (some "0")) 1700000001000) = some arrived ∧
      ∃ handled, arrived.requests[world.requests.length]? = some handled ∧ handled.request =
        sampleSigned "/creators/2" (some "0") ∧
        arrived.isAccepted handled = false := by
  let second := sampleSigned "/creators/2" (some "0")
  have hChecked : (runAllowed (SignatureWorld.step sampleSignatureEnv) Guarded
      (.start fun _ => none) sampleSignedMoves).any
      (fun world =>
        decide ((world.consumers second ≠ [] ∧ Guarded world (.receive second 1700000001000)) ∧
          (world.step sampleSignatureEnv (.receive second 1700000001000)).isSome)) =
      true := by decide +kernel
  rcases (Option.any_eq_true _ _).mp hChecked with ⟨world, hWorld, hCheck⟩
  rcases of_decide_eq_true hCheck with ⟨⟨hConsumers, hGuarded⟩, hReceives⟩
  rcases Option.isSome_iff_exists.mp hReceives with ⟨arrived, hReceive⟩
  rcases List.exists_mem_of_ne_nil _ hConsumers with ⟨first, hFirst⟩
  rcases SignatureWorld.mem_consumers.mp hFirst with ⟨hMem, hSame, hNonce, hAccepted⟩
  have hRun := runsTo_of_runAllowed hWorld
  exact ⟨world, arrived, hRun, hReceive, signed_request_not_reused hRun hMem hAccepted hNonce hSame
    hGuarded hReceive .start⟩

/- The same body and signature, sent to another path without the header. -/
theorem signed_request_reused_without_header :
    ∃ world arrived first handled, RunsTo (SignatureWorld.step sampleSignatureEnv)
      (fun _ _ => True) (.start fun _ => none) sampleSignedMoves world ∧ first ∈ world.requests ∧
      world.isAccepted first = true ∧ first.nonce ≠ none ∧ signedParts first.request =
        signedParts (sampleSigned "/creators/2" none) ∧ world.step sampleSignatureEnv
          (.receive (sampleSigned "/creators/2" none) 1700000001000) = some arrived ∧
      arrived.requests[world.requests.length]? = some handled ∧
      arrived.isAccepted handled = true := by
  let second := sampleSigned "/creators/2" none
  have hChecked : (runLabels (SignatureWorld.step sampleSignatureEnv)
      (.start fun _ => none) sampleSignedMoves).any
      (fun world =>
        decide (world.consumers second ≠ [] ∧ (world.step sampleSignatureEnv
          (.receive second 1700000001000)).any fun arrived =>
            arrived.requests[world.requests.length]?.any arrived.isAccepted)) =
      true := by decide +kernel
  rcases (Option.any_eq_true _ _).mp hChecked with ⟨world, hWorld, hCheck⟩
  rcases of_decide_eq_true hCheck with ⟨hConsumers, hArrives⟩
  rcases (Option.any_eq_true _ _).mp hArrives with ⟨arrived, hReceive, hLast⟩
  rcases (Option.any_eq_true _ _).mp hLast with ⟨handled, hHandled, hIsAccepted⟩
  rcases List.exists_mem_of_ne_nil _ hConsumers with ⟨first, hFirst⟩
  rcases SignatureWorld.mem_consumers.mp hFirst with ⟨hMem, hSame, hNonce, hAccepted⟩
  exact ⟨world, arrived, first, handled, runsTo_of_runLabels hWorld,
    hMem, hAccepted, hNonce, hSame, hReceive, hHandled, hIsAccepted⟩

end Middlewares

end AccessLayer
