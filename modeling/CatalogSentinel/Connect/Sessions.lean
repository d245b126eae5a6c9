import CatalogSentinel.Concurrent.Steps
import Mathlib.Algebra.Order.Floor.Ring
import Mathlib.Data.Rat.Floor

/-!
The sessions of attended logins, as their registry hands them out: a session that was
put there is claimed to be confirmed or cancelled, the claim is renewed, given back or
acknowledged by its token, and a claim whose holder is gone is given out again.
-/

namespace CatalogSentinel.Connect

open CatalogSentinel.Concurrent

/-- A session; `expiresAt` is the moment that `Date.parse` reads from its text. -/
structure DurableConnectSession where
  tenantId : String
  ownerUserId : String
  artists : List String
  steelSessionId : String
  consentId : Option String
  artistWorkspaceId : String
  expiresAt : Option ℤ
  deriving DecidableEq, Repr

inductive ConnectSessionAction
  | confirm
  | cancel
  deriving DecidableEq, Repr

inductive ConnectClaimState
  | active
  | cancelled
  | lost
  deriving DecidableEq, Repr

structure ConnectConfirmationWork where
  searchId : String
  createdAt : String
  deriving DecidableEq, Repr

structure ConnectSessionClaim where
  connectId : ℕ
  token : ℕ
  action : ConnectSessionAction
  session : DurableConnectSession
  confirmation : Option ConnectConfirmationWork
  deriving DecidableEq, Repr

/-- What a claim is answered; `failed` is an error that is thrown. -/
inductive ConnectSessionClaimResult
  | claimed (claim : ConnectSessionClaim)
  | busy
  | notFound
  | ownershipMismatch
  | failed (message : String)
  deriving DecidableEq, Repr

structure ConnectSessionPrincipal where
  tenantId : String
  actorUserId : String
  allowTenantAdmin : Bool
  deriving DecidableEq, Repr

/-- The arguments of `claimAuthorized`. A timeout that is no finite number is `none`, and
`decrypts` tells whether the stored session can be decrypted in this call. -/
structure ClaimRequest where
  connectId : ℕ
  tenantId : String
  action : ConnectSessionAction
  visibilityTimeoutMs : Option ℚ
  confirmation : Option ConnectConfirmationWork
  principal : Option ConnectSessionPrincipal
  decrypts : Bool
  deriving DecidableEq, Repr

def positiveVisibility (value : Option ℚ) : ℤ :=
  match value with
  | some value => max 1000 (min (5 * 60000) ⌊value⌋)
  | none => 60000

/-- `Date.parse(session.expiresAt) <= now` -/
def DurableConnectSession.expired (session : DurableConnectSession) (now : ℤ) : Bool :=
  session.expiresAt.any fun t => t ≤ now

/-- What a registry has done: a claim was given out, or a hand-off was acknowledged. -/
inductive Entry
  | granted (claim : ConnectSessionClaim)
  | handedOff (connectId : ℕ)
  deriving DecidableEq, Repr

/-- The tokens that are still unused, the connect ids that were put, and what was done. -/
structure Past where
  fresh : ℕ
  used : List ℕ
  log : List Entry
  deriving DecidableEq, Repr

def Past.grant (past : Past) (claim : ConnectSessionClaim) : Past :=
  { past with fresh := past.fresh + 1, log := .granted claim :: past.log }

/-- What a registry has on a session beside the session itself. -/
structure Life where
  holder : Option (ℕ × ConnectSessionAction)
  searchId : Option String
  cancelRequested : Bool
  handedOff : Bool
  deriving DecidableEq, Repr

/-- The port. `claimAuthorized` is behind `claim` and `claimForSystem`; `claimExpired` is one
sweep, over what `ι` selects; `expire` is a session that the store drops on its own. -/
structure ConnectSessionRegistry (σ ι : Type) where
  put : σ → (now : ℤ) → (connectId : ℕ) → DurableConnectSession → σ
  claimAuthorized : σ → (now : ℤ) → ClaimRequest → σ × ConnectSessionClaimResult
  ack : σ → (now : ℤ) → ConnectSessionClaim → σ × Bool
  defer : σ → (now : ℤ) → ConnectSessionClaim → σ × Bool
  renew : σ → (now : ℤ) → ConnectSessionClaim → Option ℚ → σ × ConnectClaimState
  claimState : σ → ConnectSessionClaim → ConnectClaimState
  claimExpired : σ → (now : ℤ) → ι → Option ℚ → σ × List ConnectSessionClaim
  markConsentRevoked : σ → (now : ℤ) → (consentId tenantId : String) → (ttlMs : ℤ) → σ
  expire : σ → (now : ℤ) → (connectId : ℕ) → σ
  past : σ → Past
  session : σ → ℕ → Option DurableConnectSession
  life : σ → ℕ → Option Life

inductive Call (ι : Type)
  | put (now : ℤ) (connectId : ℕ) (session : DurableConnectSession)
  | claim (now : ℤ) (principal : ConnectSessionPrincipal) (request : ClaimRequest)
  | claimForSystem (now : ℤ) (request : ClaimRequest)
  | ack (now : ℤ) (claim : ConnectSessionClaim)
  | defer (now : ℤ) (claim : ConnectSessionClaim)
  | renew (now : ℤ) (claim : ConnectSessionClaim) (visibilityTimeoutMs : Option ℚ)
  | claimState (claim : ConnectSessionClaim)
  | claimExpired (now : ℤ) (sweep : ι) (visibilityTimeoutMs : Option ℚ)
  | markConsentRevoked (now : ℤ) (consentId tenantId : String) (ttlMs : ℤ)
  | expire (now : ℤ) (connectId : ℕ)

/-- What `claim` passes on for a principal. -/
def ClaimRequest.byPrincipal (request : ClaimRequest) (principal : ConnectSessionPrincipal) :
    ClaimRequest :=
  { request with tenantId := principal.tenantId, principal := some principal }

/-- What `claimForSystem` passes on. -/
def ClaimRequest.bySystem (request : ClaimRequest) : ClaimRequest :=
  { request with principal := none }

variable {σ ι : Type} (registry : ConnectSessionRegistry σ ι)

/-- The claim was given out. -/
def Granted (s : σ) (claim : ConnectSessionClaim) : Prop :=
  Entry.granted claim ∈ (registry.past s).log

instance (s : σ) (claim : ConnectSessionClaim) : Decidable (Granted registry s claim) := by
  unfold Granted
  infer_instance

/-- A call on the registry: a connect id is put once, and a claim that is carried was given
out before. -/
def step (s : σ) : Call ι → Option σ
  | .put now connectId session =>
    if connectId ∈ (registry.past s).used then none else some (registry.put s now connectId session)
  | .claim now principal request =>
    some (registry.claimAuthorized s now (request.byPrincipal principal)).1
  | .claimForSystem now request => some (registry.claimAuthorized s now request.bySystem).1
  | .ack now claim => if Granted registry s claim then some (registry.ack s now claim).1 else none
  | .defer now claim => if Granted registry s claim then some (registry.defer s now claim).1 else none
  | .renew now claim visibilityTimeoutMs =>
    if Granted registry s claim then some (registry.renew s now claim visibilityTimeoutMs).1 else none
  | .claimState claim => if Granted registry s claim then some s else none
  | .claimExpired now sweep visibilityTimeoutMs =>
    some (registry.claimExpired s now sweep visibilityTimeoutMs).1
  | .markConsentRevoked now consentId tenantId ttlMs =>
    some (registry.markConsentRevoked s now consentId tenantId ttlMs)
  | .expire now connectId => some (registry.expire s now connectId)

end CatalogSentinel.Connect
