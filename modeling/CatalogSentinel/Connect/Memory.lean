import CatalogSentinel.Connect.InMemory
import CatalogSentinel.Connect.Operations
import Mathlib.Data.List.Sort

/-!
The registry in memory as its callers see it: the work of revoked consents beside the
sessions, and every operation of the port with what it answers.
-/

namespace CatalogSentinel.Connect.InMemory

open CatalogSentinel.Concurrent CatalogSentinel.Data

/-- What is still to be done for a revoked consent. The cursor is the last session of a page,
or none. -/
structure RevocationWork where
  key : String
  tenantId : String
  consentId : String
  cursor : Option ℕ
  dueAt : ℤ
  expiresAt : ℤ
  token : Option ℕ
  claimUntil : Option ℤ
  deriving DecidableEq, Repr

structure ConsentRevocationWorkClaim where
  digest : String
  token : ℕ
  tenantId : String
  consentId : String
  cursor : Option ℕ
  deriving DecidableEq, Repr

structure Memory where
  sessions : State
  revocationWork : List RevocationWork
  deriving DecidableEq

abbrev Memory.work? (m : Memory) (key : String) : Option RevocationWork :=
  get? RevocationWork.key key m.revocationWork

def Memory.keepWork (m : Memory) (work : RevocationWork) : Memory :=
  { m with revocationWork := put RevocationWork.key work m.revocationWork }

def Memory.start : Memory := ⟨empty, []⟩

/-- The next token that is drawn. -/
def State.draw (s : State) (token : ℕ) : State := { s with past := { s.past with fresh := token } }

def consentRevoked (s : State) (now : ℤ) (tenantId consentId : String) : Bool :=
  now < ((get? Prod.fst (consentKey tenantId consentId) s.revokedConsents).map Prod.snd).getD 0

def putAnswer (s : State) (now : ℤ) (session : DurableConnectSession) : Answer ConsentRevocationWorkClaim :=
  match session.consentId.filter fun consentId => consentId ≠ "" with
  | some consentId =>
    if consentRevoked s now session.tenantId consentId then
      .failed "consent was revoked while the Steel session was being created"
    else .done
  | none => .done

def restoreCancellation (s : State) (now : ℤ) (connectId : ℕ) (session : DurableConnectSession) : State :=
  s.write ⟨connectId, session, some ⟨s.past.fresh, .cancel, some now⟩, none, true, false⟩

def beginRevocation (m : Memory) (now : ℤ) (consentId tenantId : String) (ttlMs : ℤ) : Memory :=
  let key := consentKey tenantId consentId
  let m := { m with sessions := markConsentRevoked m.sessions now consentId tenantId ttlMs }
  if (m.work? key).isSome then m
  else m.keepWork ⟨key, tenantId, consentId, none, now, now + ttlMs, none, none⟩

/-- The work is there to be claimed. -/
def RevocationWork.claimable (work : RevocationWork) (now : ℤ) : Bool :=
  !(work.expiresAt ≤ now || now < work.dueAt || (work.token.isSome && now < work.claimUntil.getD 0))

def claimRevocationWork (m : Memory) (now : ℤ) (key : String) (visibilityTimeoutMs : Option ℚ)
    (token : ℕ) : Memory × Option ConsentRevocationWorkClaim :=
  match m.work? key with
  | none => (m, none)
  | some work =>
    if !work.claimable now then (m, none)
    else
      let claimUntil := now + positiveVisibility visibilityTimeoutMs
      (m.keepWork { work with token := some token, claimUntil := some claimUntil, dueAt := claimUntil },
        some ⟨key, token, work.tenantId, work.consentId, work.cursor⟩)

variable (reuseWarmSessions : Bool)

/-- `this.claimForSystem(connectId, claim.tenantId, 'cancel', visibilityTimeoutMs)` -/
def claimMember (now : ℤ) (tenantId : String) (visibilityTimeoutMs : Option ℚ) (draw : ℕ → ℕ)
    (s : State) (connectId : ℕ) : State × Except String ConnectSessionClaimResult :=
  match claimAuthorized reuseWarmSessions (s.draw (draw connectId)) now
      (claimRequest connectId tenantId .cancel visibilityTimeoutMs none none) with
  | (s, .failed message) => (s, .error message)
  | (s, result) => (s, .ok result)

/-- The sessions that are bound to the consent. -/
def State.bound (s : State) (tenantId consentId : String) : List ℕ :=
  (s.records.filter fun record =>
    record.session.tenantId = tenantId ∧ record.session.consentId = some consentId).map Record.connectId

/-- The sessions that a scan has still to go through, in their order. -/
def State.afterCursor (s : State) (claim : ConsentRevocationWorkClaim) : List ℕ :=
  let all := (s.bound claim.tenantId claim.consentId).insertionSort (· ≤ ·)
  match claim.cursor with
  | none => all
  | some cursor => all.filter fun connectId => cursor < connectId

/-- The work when a page of it is scanned: it goes on at once where there is more. -/
def RevocationWork.scanned (work : RevocationWork) (now : ℤ) (visibilityTimeoutMs : Option ℚ)
    (afterCursor page : List ℕ) : RevocationWork :=
  let hasMore : Bool := 0 < page.length && page.length < afterCursor.length
  { work with
    cursor := if hasMore then page.getLast? else none
    dueAt := if hasMore then now else now + positiveVisibility visibilityTimeoutMs
    token := none
    claimUntil := none }

def scanRevocationWork (m : Memory) (now : ℤ) (claim : ConsentRevocationWorkClaim)
    (visibilityTimeoutMs : Option ℚ) (batchLimit : ℚ) (draw : ℕ → ℕ) :
    Memory × Except String (ConsentConnectClaims ConsentRevocationWorkClaim) :=
  match (m.work? claim.digest).filter fun work => work.token = some claim.token with
  | none => (m, .ok ⟨[], 1, none⟩)
  | some work =>
    let afterCursor := m.sessions.afterCursor claim
    let page := afterCursor.take (pageSize batchLimit)
    match each (claimMember reuseWarmSessions now claim.tenantId visibilityTimeoutMs draw) m.sessions page with
    | (sessions, .error message) => ({ m with sessions }, .error message)
    | (sessions, .ok results) =>
      ({ m with sessions }.keepWork (work.scanned now visibilityTimeoutMs afterCursor page),
        .ok (gathered claim results))

/-- Work is claimed and a page of it is scanned; `none` where there is no work to be claimed. -/
def scanClaimed (now : ℤ) (visibilityTimeoutMs : Option ℚ) (batchLimit : ℚ) (draw : ℕ → ℕ)
    (workToken : String → ℕ) (m : Memory) (key : String) :
    Memory × Except String (Option (ConsentConnectClaims ConsentRevocationWorkClaim)) :=
  match claimRevocationWork m now key visibilityTimeoutMs (workToken key) with
  | (m, none) => (m, .ok none)
  | (m, some work) =>
    let scanned := scanRevocationWork reuseWarmSessions m now work visibilityTimeoutMs batchLimit draw
    (scanned.1, scanned.2.map some)

def claimByConsent (m : Memory) (now : ℤ) (consentId tenantId : String) (visibilityTimeoutMs : Option ℚ)
    (batchLimit : ℚ) (draw : ℕ → ℕ) (workToken : String → ℕ) :
    Memory × Except String (ConsentConnectClaims ConsentRevocationWorkClaim) :=
  let scanned := scanClaimed reuseWarmSessions now visibilityTimeoutMs batchLimit draw workToken m
    (consentKey tenantId consentId)
  (scanned.1, scanned.2.map fun claims => claims.getD ⟨[], 1, none⟩)

/-- The work that is due. -/
def Memory.dueWork (m : Memory) (now : ℤ) : List RevocationWork :=
  m.revocationWork.filter fun work => now < work.expiresAt ∧ work.dueAt ≤ now

def claimDueConsentRevocations (m : Memory) (now : ℤ) (workLimit sessionBatchLimit : ℚ)
    (visibilityTimeoutMs : Option ℚ) (draw : ℕ → ℕ) (workToken : String → ℕ) :
    Memory × Except String (List (ConsentConnectClaims ConsentRevocationWorkClaim)) :=
  let due := (m.dueWork now).take ⌊workLimit⌋.toNat
  let scanned := each (scanClaimed reuseWarmSessions now visibilityTimeoutMs sessionBatchLimit draw workToken)
    m (due.map RevocationWork.key)
  (scanned.1, scanned.2.map List.reduceOption)

def settleConsentRevocation (m : Memory) (now : ℤ) (work : ConsentRevocationWorkClaim) : Memory × Bool :=
  match m.work? work.digest with
  | none => (m, true)
  | some current =>
    if current.tenantId ≠ work.tenantId ∨ current.consentId ≠ work.consentId then (m, true)
    else if m.sessions.bound work.tenantId work.consentId = [] then
      ({ m with revocationWork := erase RevocationWork.key work.digest m.revocationWork }, true)
    else (m.keepWork { current with dueAt := now }, false)

/-- A claim whose lease is over is given out again, under a token that is drawn for it. -/
def reclaimDrawn (now : ℤ) (visibilityTimeoutMs : Option ℚ) (draw : ℕ → ℕ) (s : State) (connectId : ℕ) :
    State × Except String (List ConnectSessionClaim) :=
  let done := reclaim now visibilityTimeoutMs (s.draw (draw connectId), []) connectId
  (done.1, .ok done.2)

/-- The claims whose lease is over. -/
def State.over (s : State) (now : ℤ) : List Record :=
  s.records.filter fun record => record.claim.any fun held => held.leaseUntil.any fun t => t ≤ now

def claimExpiredDrawn (s : State) (now : ℤ) (limit : ℚ) (visibilityTimeoutMs : Option ℚ) (draw : ℕ → ℕ) :
    State × Except String (List ConnectSessionClaim) :=
  let claimed := each (reclaimDrawn now visibilityTimeoutMs draw) s
    (((s.over now).take ⌊limit⌋.toNat).map Record.connectId)
  (claimed.1, claimed.2.map List.flatten)

/-- The operation that has this number, at its moment. -/
def operate (tokens : Tokens) (number : ℕ) (m : Memory) (now : ℤ) :
    Operation → Memory × Answer ConsentRevocationWorkClaim
  | .put connectId session =>
    ({ m with sessions := putSession m.sessions now connectId session }, putAnswer m.sessions now session)
  | .restoreCancellation connectId session =>
    ({ m with sessions :=
        restoreCancellation (m.sessions.draw (tokens.claim number connectId)) now connectId session }, .done)
  | .claim connectId principal action visibilityTimeoutMs confirmation =>
    let (sessions, result) := claimAuthorized reuseWarmSessions
      (m.sessions.draw (tokens.claim number connectId)) now
      (claimRequest connectId principal.tenantId action visibilityTimeoutMs confirmation (some principal))
    ({ m with sessions }, .claimed result)
  | .claimForSystem connectId tenantId action visibilityTimeoutMs confirmation =>
    let (sessions, result) := claimAuthorized reuseWarmSessions
      (m.sessions.draw (tokens.claim number connectId)) now
      (claimRequest connectId tenantId action visibilityTimeoutMs confirmation none)
    ({ m with sessions }, .claimed result)
  | .ack claim =>
    let (sessions, success) := ack m.sessions now (claim.drawn tokens)
    ({ m with sessions }, .whether success)
  | .defer claim =>
    let (sessions, success) := defer m.sessions now (claim.drawn tokens)
    ({ m with sessions }, .whether success)
  | .renew claim visibilityTimeoutMs =>
    let (sessions, state) := renew m.sessions now (claim.drawn tokens) visibilityTimeoutMs
    ({ m with sessions }, .state state)
  | .claimState claim => (m, .state (claimState m.sessions (claim.drawn tokens)))
  | .markConsentRevoked consentId tenantId ttlMs => (beginRevocation m now consentId tenantId ttlMs, .done)
  | .claimByConsent consentId tenantId visibilityTimeoutMs batchLimit =>
    let (m, claims) := claimByConsent reuseWarmSessions m now consentId tenantId visibilityTimeoutMs batchLimit
      (tokens.claim number) (tokens.work number)
    (m, .ofExcept .consent claims)
  | .claimDueConsentRevocations workLimit sessionBatchLimit visibilityTimeoutMs =>
    let (m, batches) := claimDueConsentRevocations reuseWarmSessions m now workLimit sessionBatchLimit
      visibilityTimeoutMs (tokens.claim number) (tokens.work number)
    (m, .ofExcept .consents batches)
  | .settleConsentRevocation operation tenantId consentId =>
    let key := consentKey tenantId consentId
    let (m, success) := settleConsentRevocation m now ⟨key, tokens.work operation key, tenantId, consentId, none⟩
    (m, .whether success)
  | .claimExpired limit visibilityTimeoutMs =>
    let (sessions, claims) := claimExpiredDrawn m.sessions now limit visibilityTimeoutMs (tokens.claim number)
    ({ m with sessions }, .ofExcept .claims claims)

end CatalogSentinel.Connect.InMemory
