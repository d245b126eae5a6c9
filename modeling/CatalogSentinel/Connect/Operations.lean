import CatalogSentinel.Concurrent.Each
import CatalogSentinel.Connect.Sessions

/-!
The operations of a registry of sessions and what they answer. The two registries draw their
own tokens and number their work in their own way; an answer of the one is compared with an
answer of the other up to these.
-/

namespace CatalogSentinel.Connect

open CatalogSentinel.Concurrent

/-- A claim that is passed to an operation carries, for its token, the number of the operation
that gave it out. So does the work of a revoked consent. -/
inductive Operation
  | put (connectId : ℕ) (session : DurableConnectSession)
  | restoreCancellation (connectId : ℕ) (session : DurableConnectSession)
  | claim (connectId : ℕ) (principal : ConnectSessionPrincipal) (action : ConnectSessionAction)
      (visibilityTimeoutMs : Option ℚ) (confirmation : Option ConnectConfirmationWork)
  | claimForSystem (connectId : ℕ) (tenantId : String) (action : ConnectSessionAction)
      (visibilityTimeoutMs : Option ℚ) (confirmation : Option ConnectConfirmationWork)
  | ack (claim : ConnectSessionClaim)
  | defer (claim : ConnectSessionClaim)
  | renew (claim : ConnectSessionClaim) (visibilityTimeoutMs : Option ℚ)
  | claimState (claim : ConnectSessionClaim)
  | markConsentRevoked (consentId tenantId : String) (ttlMs : ℤ)
  | claimByConsent (consentId tenantId : String) (visibilityTimeoutMs : Option ℚ) (batchLimit : ℚ)
  | claimDueConsentRevocations (workLimit sessionBatchLimit : ℚ) (visibilityTimeoutMs : Option ℚ)
  | settleConsentRevocation (operation : ℕ) (tenantId consentId : String)
  | claimExpired (limit : ℚ) (visibilityTimeoutMs : Option ℚ)
  deriving DecidableEq, Repr

/-- What `id('claim')` and `id('revoke-claim')` draw in an operation, for a session and for
the work of a consent. No token of a session is drawn twice. -/
structure Tokens where
  claim : ℕ → ℕ → ℕ
  work : ℕ → String → ℕ
  distinct : Function.Injective2 claim

/-- The claim with the token that this registry has drawn for it. -/
def ConnectSessionClaim.drawn (tokens : Tokens) (claim : ConnectSessionClaim) : ConnectSessionClaim :=
  { claim with token := tokens.claim claim.token claim.connectId }

/-- What a request asks for; the encryptor decrypts what it has encrypted. -/
def claimRequest (connectId : ℕ) (tenantId : String) (action : ConnectSessionAction)
    (visibilityTimeoutMs : Option ℚ) (confirmation : Option ConnectConfirmationWork)
    (principal : Option ConnectSessionPrincipal) : ClaimRequest :=
  ⟨connectId, tenantId, action, visibilityTimeoutMs, confirmation, principal, true⟩

/-- The claims on the sessions of a revoked consent, with the work, as a registry has it. -/
structure ConsentConnectClaims (ω : Type) where
  claims : List ConnectSessionClaim
  pending : ℕ
  work : Option ω
  deriving DecidableEq, Repr

/-- What an operation answers; `failed` is an error that is thrown. -/
inductive Answer (ω : Type)
  | done
  | failed (message : String)
  | claimed (result : ConnectSessionClaimResult)
  | whether (success : Bool)
  | state (state : ConnectClaimState)
  | claims (claims : List ConnectSessionClaim)
  | consent (claims : ConsentConnectClaims ω)
  | consents (batches : List (ConsentConnectClaims ω))
  deriving DecidableEq, Repr

/-- What a loop over claims answers, when it is through or has failed. -/
def Answer.ofExcept {ω α : Type} (answer : α → Answer ω) : Except String α → Answer ω
  | .ok x => answer x
  | .error message => .failed message

def ConnectSessionClaimResult.claim? : ConnectSessionClaimResult → Option ConnectSessionClaim
  | .claimed claim => some claim
  | _ => none

/-- `claims.push` for what was claimed, and `pending += 1` for what is busy. -/
def gathered {ω : Type} (work : ω) (results : List ConnectSessionClaimResult) : ConsentConnectClaims ω :=
  ⟨results.filterMap ConnectSessionClaimResult.claim?, results.count .busy, some work⟩

/-- `Math.max(1, Math.min(500, Math.floor(batchLimit)))` -/
def pageSize (batchLimit : ℚ) : ℕ := (max 1 (min 500 ⌊batchLimit⌋)).toNat

/-! ### Answers that are the same -/

section Same

variable (memory redis : Tokens)

/-- One claim, under the token that each registry has drawn for it. -/
def SameClaim (c d : ConnectSessionClaim) : Prop :=
  ∃ claim : ConnectSessionClaim, c = claim.drawn memory ∧ d = claim.drawn redis

inductive SameResult : ConnectSessionClaimResult → ConnectSessionClaimResult → Prop
  | claimed {c d : ConnectSessionClaim} : SameClaim memory redis c d → SameResult (.claimed c) (.claimed d)
  | busy : SameResult .busy .busy
  | notFound : SameResult .notFound .notFound
  | ownershipMismatch : SameResult .ownershipMismatch .ownershipMismatch
  | failed (message : String) : SameResult (.failed message) (.failed message)

variable {ω ω' : Type} (sameWork : ω → ω' → Prop)

structure SameClaims (x : ConsentConnectClaims ω) (y : ConsentConnectClaims ω') : Prop where
  claims : UpToOrder (SameClaim memory redis) x.claims y.claims
  pending : x.pending = y.pending
  work : Option.Rel sameWork x.work y.work

inductive SameAnswer : Answer ω → Answer ω' → Prop
  | done : SameAnswer .done .done
  | failed (message : String) : SameAnswer (.failed message) (.failed message)
  | claimed {x y : ConnectSessionClaimResult} : SameResult memory redis x y → SameAnswer (.claimed x) (.claimed y)
  | whether (success : Bool) : SameAnswer (.whether success) (.whether success)
  | state (state : ConnectClaimState) : SameAnswer (.state state) (.state state)
  | claims {xs ys : List ConnectSessionClaim} : UpToOrder (SameClaim memory redis) xs ys →
      SameAnswer (.claims xs) (.claims ys)
  | consent {x : ConsentConnectClaims ω} {y : ConsentConnectClaims ω'} :
      SameClaims memory redis sameWork x y → SameAnswer (.consent x) (.consent y)
  | consents {xs : List (ConsentConnectClaims ω)} {ys : List (ConsentConnectClaims ω')} :
      UpToOrder (SameClaims memory redis sameWork) xs ys → SameAnswer (.consents xs) (.consents ys)

end Same

end CatalogSentinel.Connect
