import CatalogSentinel.Connect.Handoffs
import CatalogSentinel.Connect.MemoryBatches

/-!
The registry in memory and the registry on Redis under the same operations, at the same times:
which operations both are made for, and where the two go different ways.
-/

namespace CatalogSentinel.Connect

open CatalogSentinel.Concurrent CatalogSentinel.Data

/-! ### Operations that both registries are made for -/

/-- No session is past its end, and no tombstone. -/
structure InMemory.Memory.Live (m : InMemory.Memory) (now : ℤ) : Prop where
  sessions : ∀ record ∈ m.sessions.records, record.session.expired now = false
  tombstones : ∀ tombstone ∈ m.sessions.revokedConsents, now < tombstone.2

section Scope

variable (sha256 : String → String) (scan : Redis.SetScan) (texts : Set String) (m : InMemory.Memory) (r : Redis.State)
  (now : ℤ)

/-- What is hashed of a session. -/
structure Hashed (session : DurableConnectSession) : Prop where
  owner : ownerText session.tenantId session.ownerUserId ∈ texts
  consent : ∀ consentId ∈ session.consentId, InMemory.consentKey session.tenantId consentId ∈ texts

/-- The limit covers the sessions of the consent that the work is of: on Redis a page lists them all. -/
def Covers (batchLimit : ℚ) (work : InMemory.RevocationWork) : Prop :=
  (m.sessions.bound work.tenantId work.consentId).length ≤ pageSize batchLimit ∧
    scan.ListsAll (r.members (Redis.consentDigest sha256 work.tenantId work.consentId)) (pageSize batchLimit)

/-- Batch limits cover all members, and nothing is put that is past its end at once. What is
hashed is in `texts`. -/
def InScope : Operation → Prop
  | .put _ session | .restoreCancellation _ session =>
    (∀ deadline ∈ session.expiresAt, now < deadline) ∧ Hashed texts session
  | .claim _ principal .. => ownerText principal.tenantId principal.actorUserId ∈ texts
  | .claimForSystem .. | .ack .. | .defer .. | .renew .. | .claimState .. => True
  | .markConsentRevoked consentId tenantId ttlMs => InMemory.consentKey tenantId consentId ∈ texts ∧ 0 < ttlMs
  | .claimByConsent consentId tenantId _ batchLimit =>
    InMemory.consentKey tenantId consentId ∈ texts ∧
      ∀ work ∈ m.work? (InMemory.consentKey tenantId consentId), Covers sha256 scan m r batchLimit work
  | .claimDueConsentRevocations workLimit sessionBatchLimit _ =>
    (m.dueWork now).length ≤ ⌊workLimit⌋.toNat ∧
      (r.due.filter fun entry => entry.2 ≤ now).length ≤ (max 0 (min 100 ⌊workLimit⌋)).toNat ∧
      ∀ work ∈ m.revocationWork, work.dueAt ≤ now → Covers sha256 scan m r sessionBatchLimit work
  | .settleConsentRevocation _ tenantId consentId => InMemory.consentKey tenantId consentId ∈ texts
  | .claimExpired limit _ =>
    (m.sessions.over now).length ≤ ⌊limit⌋.toNat ∧
      (r.claims.filter fun entry => entry.2 ≤ now).length ≤ (max 0 (min 500 ⌊limit⌋)).toNat

end Scope

/-! ### Where the registries go different ways -/

section Divide

variable (sha256 : String → String) (warm : Bool) (m : InMemory.Memory) (r : Redis.State) (now : ℤ)

/-- The claim would take the search that it brings. -/
def InMemory.Record.takesSearch (record : InMemory.Record) (request : ClaimRequest) : Bool :=
  record.session.tenantId = request.tenantId && mayClaim record request && request.action = .confirm &&
    !record.cancelRequested && (!record.handedOff || warm) &&
    !(record.claim.any fun held => held.leaseUntil.any fun t => now < t) &&
    (record.handedOff || record.confirmation.isNone)

/-- The claim would give the session out, were it not for the search that it may have to bring. -/
def InMemory.Record.grants (record : InMemory.Record) (request : ClaimRequest) : Bool :=
  record.session.tenantId = request.tenantId && mayClaim record request &&
    !(record.handedOff && request.action = .confirm && (!warm || record.cancelRequested)) &&
    !(record.claim.any fun held => held.leaseUntil.any fun t => now < t)

/-- A search that is named. A claim without a search fails on both, and in memory a session that
was handed off is not handed off any more. -/
def InMemory.Record.brings (record : InMemory.Record) : Option ConnectConfirmationWork → Bool
  | some work => work.searchId ≠ "" && work.createdAt ≠ ""
  | none => !record.handedOff

/-- A search that a claim would take is named, and a session that it would give out can be read back. -/
def Named (request : ClaimRequest) : Prop :=
  ∀ record ∈ m.sessions.record? request.connectId,
    (record.takesSearch warm now request = true → record.brings request.confirmation = true) ∧
      (record.grants warm now request = true → record.session.Readable)

/-- Of the sessions of its tenant, the index of a consent has those that are bound to the consent,
and these can be read back. -/
def Indexed (tenantId consentId : String) : Prop :=
  ∀ binding ∈ m.sessions.bindings, binding.2.tenantId = tenantId →
    (binding.1 ∈ r.members (Redis.consentDigest sha256 tenantId consentId) ↔ binding.2.consentId = some consentId) ∧
      (binding.2.consentId = some consentId → binding.2.Readable)

/-- The condition under which an operation is answered alike. -/
def Met : Operation → Prop
  | .put _ session | .restoreCancellation _ session => session.expiresAt.isSome = true
  | .claim connectId principal action visibilityTimeoutMs confirmation =>
    Named warm m now
      (claimRequest connectId principal.tenantId action visibilityTimeoutMs confirmation (some principal))
  | .claimForSystem connectId tenantId action visibilityTimeoutMs confirmation =>
    Named warm m now (claimRequest connectId tenantId action visibilityTimeoutMs confirmation none)
  | .ack .. | .defer .. | .renew .. | .claimState .. | .markConsentRevoked .. => True
  | .claimByConsent consentId tenantId .. =>
    ∀ work ∈ m.work? (InMemory.consentKey tenantId consentId),
      work.dueAt ≤ now ∧ now < work.expiresAt ∧ Indexed sha256 m r work.tenantId work.consentId
  | .claimDueConsentRevocations .. =>
    ∀ work ∈ m.revocationWork, work.dueAt ≤ now →
      now < work.expiresAt ∧ Indexed sha256 m r work.tenantId work.consentId
  | .settleConsentRevocation _ tenantId consentId =>
    ∀ work ∈ m.work? (InMemory.consentKey tenantId consentId),
      work.tenantId = tenantId ∧ work.consentId = consentId ∧
        (r.members (Redis.consentDigest sha256 tenantId consentId) = [] ↔ m.sessions.bound tenantId consentId = [])
  | .claimExpired .. => ∀ record ∈ m.sessions.over now, record.session.Readable

end Divide

/-! ### Runs -/

/-- One consent's work, under the name that each registry has for it, each with its own token.
A scan is at its start. -/
structure SameWork (sha256 : String → String) (w : InMemory.ConsentRevocationWorkClaim)
    (w' : Redis.ConsentRevocationWorkClaim) : Prop where
  digest : w'.digest = sha256 w.digest
  tenantId : w.tenantId = w'.tenantId
  consentId : w.consentId = w'.consentId
  cursor : w.cursor = none ∧ w'.cursor = 0

/-- Both registries, with how many operations they have performed and what was answered. -/
structure Registries where
  memory : InMemory.Memory
  redis : Redis.State
  clock : ℤ
  performed : ℕ
  answers : List (Answer InMemory.ConsentRevocationWorkClaim × Answer Redis.ConsentRevocationWorkClaim)

def Registries.start (clock : ℤ) : Registries := ⟨.start, Redis.empty, clock, 0, []⟩

section Operate

variable (sha256 : String → String) (warm : Bool) (scan : Redis.SetScan) (memory redis : Tokens)

/-- An operation at its moment, on both. -/
def Registries.perform (x : Registries) (event : ℤ × Operation) : Option Registries :=
  let (now, operation) := event
  if x.clock ≤ now then
    let inMemory := InMemory.operate warm memory x.performed x.memory now operation
    let onRedis := Redis.operate sha256 warm scan redis x.performed (x.redis.evict now) now operation
    some ⟨inMemory.1, onRedis.1, now, x.performed + 1, x.answers ++ [(inMemory.2, onRedis.2)]⟩
  else none

/-- The times are times since the epoch, no session or tombstone is past its end, and the
operation is in scope. -/
def Registries.Proper (texts : Set String) (x : Registries) (event : ℤ × Operation) : Prop :=
  0 ≤ event.1 ∧ x.memory.Live event.1 ∧ InScope sha256 scan texts x.memory (x.redis.evict event.1) event.1 event.2

/-- The operation does not come to where the registries go different ways. -/
def Registries.Met (x : Registries) (event : ℤ × Operation) : Prop :=
  CatalogSentinel.Connect.Met sha256 warm x.memory (x.redis.evict event.1) event.1 event.2

/-- Every answer so far is the same, up to token values and member order. -/
def Registries.AnswerAlike (x : Registries) : Prop :=
  ∀ answers ∈ x.answers, SameAnswer memory redis (SameWork sha256) answers.1 answers.2

end Operate

end CatalogSentinel.Connect
