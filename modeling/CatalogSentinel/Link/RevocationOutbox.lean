import CatalogSentinel.Checkpoint.Sanitize
import CatalogSentinel.Concurrent.Leases

/-!
The outbox of consent revocations, in the repository kept in memory and in the one on
PostgreSQL: a consent is revoked together with the intent to clean up after it, and the
intent is leased, completed or put off by whoever has its token.
-/

namespace CatalogSentinel.Link

open CatalogSentinel.Checkpoint CatalogSentinel.Concurrent.Leases CatalogSentinel.Data

structure LinkConsent where
  id : String
  tenantId : String
  grantedByUserId : Option String
  revokedAt : Option String
  deriving DecidableEq, Repr

/-- An intent, whose moments are texts in memory and timestamps in the database. -/
structure ConsentRevocationIntent (τ : Type) where
  id : ℕ
  tenantId : String
  consentId : String
  attempts : ℕ
  availableAt : τ
  leaseToken : Option ℕ
  leaseExpiresAt : Option τ
  lastError : Option String
  completedAt : Option τ
  createdAt : τ
  updatedAt : τ
  deriving DecidableEq, Repr

structure ConsentRevocationActor where
  actorUserId : String
  allowTenantAdmin : Bool
  deriving DecidableEq, Repr

structure ClaimConsentRevocationOptions where
  now : String
  leaseMs : ℚ
  limit : ℚ
  intentId : Option ℕ
  deriving DecidableEq, Repr

/-- The store; `fresh` stands for the random ids that are still unused, and `held` for what
the workers were given. -/
structure State (τ : Type) where
  consents : List LinkConsent
  intents : List (ConsentRevocationIntent τ)
  fresh : ℕ
  held : List (Lease String)
  deriving DecidableEq

variable {τ : Type}

abbrev State.getConsent (s : State τ) (id : String) : Option LinkConsent :=
  get? LinkConsent.id id s.consents

abbrev State.getIntent (s : State τ) (id : ℕ) : Option (ConsentRevocationIntent τ) :=
  get? ConsentRevocationIntent.id id s.intents

/-- `PrismaTenantStore.get` and its namesake: the consent, under its own tenant. -/
def State.tenantConsent (s : State τ) (tenantId consentId : String) : Option LinkConsent :=
  (s.getConsent consentId).filter fun consent => consent.tenantId = tenantId

def ConsentRevocationActor.mayRevoke (actor : ConsentRevocationActor) (consent : LinkConsent) : Bool :=
  actor.allowTenantAdmin || consent.grantedByUserId = some actor.actorUserId

def LinkConsent.isOf (intent : ConsentRevocationIntent τ) (tenantId consentId : String) : Bool :=
  intent.tenantId = tenantId && intent.consentId = consentId

def newIntent (id : ℕ) (tenantId consentId : String) (now : τ) : ConsentRevocationIntent τ :=
  { id, tenantId, consentId, attempts := 0, availableAt := now, leaseToken := none,
    leaseExpiresAt := none, lastError := none, completedAt := none, createdAt := now,
    updatedAt := now }

/-- The port. `moment` is what the store's own clock reads in the call, and `locked` are the
intents that other statements have locked. `isSet` tells a moment that counts as set. -/
structure DistributorLinkRepository (τ : Type) where
  isSet : τ → Bool
  revokeConsentAndCreateIntent : State τ → (tenantId consentId revokedAt : String) →
    ConsentRevocationActor → (moment : ℚ) → State τ
  claimConsentRevocationIntents : State τ → (worker : String) → ClaimConsentRevocationOptions →
    (moment : ℚ) → (locked : List ℕ) → State τ
  completeConsentRevocationIntent : State τ → (intentId leaseToken : ℕ) → (completedAt : String) →
    (moment : ℚ) → State τ × Bool
  retryConsentRevocationIntent : State τ → (intentId leaseToken : ℕ) → (retryAfterMs : ℚ) →
    (lastError : String) → (moment : ℚ) → State τ × Bool

namespace InMemory

/-- `new Date(ms).toISOString()`, which drops the fraction of a millisecond. -/
def isoOf (P : Platform) (ms : ℚ) : String := P.toISOString (ms.num.tdiv ms.den)

/-- What counts as set: `''` does not. -/
def truthy (value : String) : Bool := value ≠ ""

variable (P : Platform) (localeCompare : ℕ → ℕ → Bool)

def revokeConsentAndCreateIntent (s : State String) (tenantId consentId revokedAt : String)
    (actor : ConsentRevocationActor) (_moment : ℚ) : State String :=
  match s.tenantConsent tenantId consentId with
  | none => s
  | some consent =>
    if !actor.mayRevoke consent then s
    else
      let revoked := { consent with revokedAt := consent.revokedAt <|> some revokedAt }
      let s := { s with consents := put LinkConsent.id revoked s.consents }
      match s.intents.find? fun intent => LinkConsent.isOf intent tenantId consentId with
      | some _ => s
      | none =>
        let intent := newIntent s.fresh tenantId consentId revokedAt
        { s with
          intents := put ConsentRevocationIntent.id intent s.intents
          fresh := s.fresh + 1 }

/-- `Date.parse(value) <= nowMs`, which no unreadable date is. -/
def notAfter (value : String) (nowMs : ℤ) : Bool := (P.dateParse value).any fun t => t ≤ nowMs

def isDue (options : ClaimConsentRevocationOptions) (nowMs : ℤ)
    (intent : ConsentRevocationIntent String) : Bool :=
  !(intent.completedAt.any truthy) && notAfter P intent.availableAt nowMs &&
    !((intent.leaseExpiresAt.filter truthy).any fun t => !notAfter P t nowMs) &&
    options.intentId.all fun id => intent.id = id

/-- By `availableAt`, and where that is the same by id. -/
def inOrder (a b : ConsentRevocationIntent String) : Bool :=
  match P.dateParse a.availableAt, P.dateParse b.availableAt with
  | some x, some y => x < y || (x = y && localeCompare a.id b.id)
  | _, _ => localeCompare a.id b.id

def lease (worker : String) (options : ClaimConsentRevocationOptions) (nowMs : ℤ)
    (s : State String) (intent : ConsentRevocationIntent String) : State String :=
  let intent := { intent with
    leaseToken := some s.fresh
    leaseExpiresAt := some (isoOf P (nowMs + max 1 options.leaseMs))
    attempts := intent.attempts + 1
    updatedAt := options.now }
  { s with
    intents := put ConsentRevocationIntent.id intent s.intents
    fresh := s.fresh + 1
    held := ⟨worker, intent.id, s.fresh⟩ :: s.held }

def due (s : State String) (options : ClaimConsentRevocationOptions) (nowMs : ℤ) :
    List (ConsentRevocationIntent String) :=
  ((s.intents.filter (isDue P options nowMs)).mergeSort (inOrder P localeCompare)).take
    ⌊options.limit⌋.toNat

def claimConsentRevocationIntents (s : State String) (worker : String)
    (options : ClaimConsentRevocationOptions) (_moment : ℚ) (_locked : List ℕ) : State String :=
  match P.dateParse options.now with
  | none => s
  | some nowMs => (due P localeCompare s options nowMs).foldl (lease P worker options nowMs) s

/-- The intent that the token opens. -/
def opened (s : State String) (intentId leaseToken : ℕ) : Option (ConsentRevocationIntent String) :=
  (s.getIntent intentId).filter fun intent =>
    !(intent.completedAt.any truthy) && intent.leaseToken = some leaseToken

def completeConsentRevocationIntent (s : State String) (intentId leaseToken : ℕ)
    (completedAt : String) (_moment : ℚ) : State String × Bool :=
  match opened s intentId leaseToken with
  | none => (s, false)
  | some intent =>
    let intent := { intent with
      completedAt := some completedAt
      leaseToken := none
      leaseExpiresAt := none
      lastError := none
      updatedAt := completedAt }
    ({ s with intents := put ConsentRevocationIntent.id intent s.intents }, true)

def retryConsentRevocationIntent (s : State String) (intentId leaseToken : ℕ) (retryAfterMs : ℚ)
    (lastError : String) (moment : ℚ) : State String × Bool :=
  match opened s intentId leaseToken with
  | none => (s, false)
  | some intent =>
    let intent := { intent with
      availableAt := isoOf P (moment + max 0 retryAfterMs)
      leaseToken := none
      leaseExpiresAt := none
      lastError := some lastError
      updatedAt := isoOf P moment }
    ({ s with intents := put ConsentRevocationIntent.id intent s.intents }, true)

def repository : DistributorLinkRepository String where
  isSet := truthy
  revokeConsentAndCreateIntent := revokeConsentAndCreateIntent
  claimConsentRevocationIntents := claimConsentRevocationIntents P localeCompare
  completeConsentRevocationIntent := completeConsentRevocationIntent
  retryConsentRevocationIntent := retryConsentRevocationIntent P

end InMemory

namespace Prisma

variable (textOrder : ℕ → ℕ → Bool)

/-- One statement: the consent is revoked where it may be, and its intent is there then. -/
def revokeConsentAndCreateIntent (s : State ℚ) (tenantId consentId revokedAt : String)
    (actor : ConsentRevocationActor) (moment : ℚ) : State ℚ :=
  let intentId := s.fresh
  let s := { s with fresh := s.fresh + 1 }
  match (s.tenantConsent tenantId consentId).filter actor.mayRevoke with
  | none => s
  | some consent =>
    let revoked := { consent with
      revokedAt := if consent.revokedAt.any (· ≠ "") then consent.revokedAt else some revokedAt }
    let s := { s with consents := put LinkConsent.id revoked s.consents }
    if s.intents.any fun intent => LinkConsent.isOf intent tenantId consentId then
      { s with
        intents := s.intents.map fun intent =>
          if LinkConsent.isOf intent tenantId consentId then { intent with updatedAt := moment }
          else intent }
    else
      { s with
        intents := put ConsentRevocationIntent.id (newIntent intentId tenantId consentId moment) s.intents }

def isDue (options : ClaimConsentRevocationOptions) (moment : ℚ)
    (intent : ConsentRevocationIntent ℚ) : Bool :=
  intent.completedAt.isNone && intent.availableAt ≤ moment &&
    intent.leaseExpiresAt.all (fun t => t ≤ moment) &&
    options.intentId.all fun id => intent.id = id

/-- `ORDER BY "availableAt" ASC, "createdAt" ASC, "id" ASC` -/
def inOrder (a b : ConsentRevocationIntent ℚ) : Bool :=
  a.availableAt < b.availableAt || (a.availableAt = b.availableAt &&
    (a.createdAt < b.createdAt || (a.createdAt = b.createdAt && textOrder a.id b.id)))

/-- `FOR UPDATE SKIP LOCKED LIMIT $1` -/
def due (s : State ℚ) (options : ClaimConsentRevocationOptions) (moment : ℚ) (locked : List ℕ) :
    List ℕ :=
  ((((s.intents.filter (isDue options moment)).mergeSort (inOrder textOrder)).filter
    fun intent => intent.id ∉ locked).take ⌊options.limit⌋.toNat).map ConsentRevocationIntent.id

def claimConsentRevocationIntents (s : State ℚ) (worker : String)
    (options : ClaimConsentRevocationOptions) (moment : ℚ) (locked : List ℕ) : State ℚ :=
  let leaseToken := s.fresh
  let ids := due textOrder s options moment locked
  { s with
    intents := s.intents.map fun intent =>
      if intent.id ∈ ids then
        { intent with
          leaseToken := some leaseToken
          leaseExpiresAt := some (moment + max 1 options.leaseMs)
          attempts := intent.attempts + 1
          updatedAt := moment }
      else intent
    fresh := s.fresh + 1
    held := ids.map (fun id => ⟨worker, id, leaseToken⟩) ++ s.held }

/-- `WHERE "id" = $1 AND "leaseToken" = $2 AND "completedAt" IS NULL` -/
def opens (intentId leaseToken : ℕ) (intent : ConsentRevocationIntent ℚ) : Bool :=
  intent.id = intentId && intent.leaseToken = some leaseToken && intent.completedAt.isNone

/-- `UPDATE "ConsentRevocationIntent" SET … WHERE …`, and whether one row was changed. -/
def updateWhere (s : State ℚ) (cond : ConsentRevocationIntent ℚ → Bool)
    (set : ConsentRevocationIntent ℚ → ConsentRevocationIntent ℚ) : State ℚ × Bool :=
  ({ s with intents := s.intents.map fun intent => if cond intent then set intent else intent },
    (s.intents.filter cond).length = 1)

def completeConsentRevocationIntent (s : State ℚ) (intentId leaseToken : ℕ) (_completedAt : String)
    (moment : ℚ) : State ℚ × Bool :=
  updateWhere s (opens intentId leaseToken) fun intent =>
    { intent with
      completedAt := some moment
      leaseToken := none
      leaseExpiresAt := none
      lastError := none
      updatedAt := moment }

def retryConsentRevocationIntent (s : State ℚ) (intentId leaseToken : ℕ) (retryAfterMs : ℚ)
    (lastError : String) (moment : ℚ) : State ℚ × Bool :=
  updateWhere s (opens intentId leaseToken) fun intent =>
    { intent with
      availableAt := moment + max 0 retryAfterMs
      leaseToken := none
      leaseExpiresAt := none
      lastError := some (lastError.take 2048).toString
      updatedAt := moment }

def repository : DistributorLinkRepository ℚ where
  isSet := fun _ => true
  revokeConsentAndCreateIntent := revokeConsentAndCreateIntent
  claimConsentRevocationIntents := claimConsentRevocationIntents textOrder
  completeConsentRevocationIntent := completeConsentRevocationIntent
  retryConsentRevocationIntent := retryConsentRevocationIntent

end Prisma

inductive Call
  | revoke (tenantId consentId revokedAt : String) (actor : ConsentRevocationActor) (moment : ℚ)
  | claim (worker : String) (options : ClaimConsentRevocationOptions) (moment : ℚ) (locked : List ℕ)
  | complete (intentId leaseToken : ℕ) (completedAt : String) (moment : ℚ)
  | retry (intentId leaseToken : ℕ) (retryAfterMs : ℚ) (lastError : String) (moment : ℚ)

variable (repo : DistributorLinkRepository τ)

def step (s : State τ) : Call → State τ
  | .revoke tenantId consentId revokedAt actor moment =>
    repo.revokeConsentAndCreateIntent s tenantId consentId revokedAt actor moment
  | .claim worker options moment locked =>
    repo.claimConsentRevocationIntents s worker options moment locked
  | .complete intentId leaseToken completedAt moment =>
    (repo.completeConsentRevocationIntent s intentId leaseToken completedAt moment).1
  | .retry intentId leaseToken retryAfterMs lastError moment =>
    (repo.retryConsentRevocationIntent s intentId leaseToken retryAfterMs lastError moment).1

/-- The calls of any number of workers, one after the other. -/
def run (s : State τ) (calls : List Call) : State τ := calls.foldl (step repo) s

/-- Consents that were granted, and no intent yet. -/
def granted (consents : List LinkConsent) : State τ := ⟨consents, [], 0, []⟩

end CatalogSentinel.Link
