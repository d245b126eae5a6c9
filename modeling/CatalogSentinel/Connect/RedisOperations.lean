import CatalogSentinel.Connect.Operations
import CatalogSentinel.Connect.Revocation
import Mathlib.Data.List.Sort
import Mathlib.Data.Prod.Lex
import Mathlib.Data.String.Basic

/-!
The registry on Redis as its callers see it: every operation of the port, as the commands and
scripts that it sends, with what it answers. A key is there until its deadline.
-/

namespace CatalogSentinel.Connect.Redis

open CatalogSentinel.Concurrent CatalogSentinel.Data

/-- `SSCAN`, to which a count is a hint. -/
structure SetScan where
  sscan : (members : List ℕ) → (cursor count : ℕ) → ℕ × List ℕ

/-- One page lists the set, in some order, and is the last. -/
def SetScan.ListsAll (scan : SetScan) (members : List ℕ) (count : ℕ) : Prop :=
  (scan.sscan members 0 count).1 = 0 ∧ (scan.sscan members 0 count).2.Perm members

/-- `ZRANGEBYSCORE key -inf now LIMIT 0 limit`: by score, and by member where scores are equal. -/
def zrangebyscore {α : Type} [LinearOrder α] (entries : List (α × ℤ)) (now : ℤ) (limit : ℕ) : List α :=
  let due := entries.filter fun entry => entry.2 ≤ now
  ((due.insertionSort fun a b => toLex (a.2, a.1) ≤ toLex (b.2, b.1)).take limit).map Prod.fst

/-- The keys that are past their deadline are gone. -/
def State.evict (s : State) (now : ℤ) : State :=
  { s with
    sessions := s.sessions.filter fun key => now < key.deadline
    indexes := s.indexes.filter fun key => now < key.deadline
    tombstones := s.tombstones.filter fun key => now < key.2
    work := s.work.filter fun key => now < key.deadline }

/-- The next token that is drawn. -/
def State.draw (s : State) (token : ℕ) : State := { s with past := { s.past with fresh := token } }

variable (sha256 : String → String)

def putAnswer (s : State) (now : ℤ) (session : DurableConnectSession) : Answer ConsentRevocationWorkClaim :=
  if session.expiresAt.all fun expiresAt => expiresAt - now ≤ 0 then
    .failed "connect session expiry must be in the future"
  else
    match boundConsent session with
    | some consentId =>
      if (get? Prod.fst (consentDigest sha256 session.tenantId consentId) s.tombstones).isSome then
        .failed "consent was revoked while the Steel session was being created"
      else .done
    | none => .done

/-- `RESTORE_CANCEL_CONNECT_SESSION_LUA` -/
def restoreScript (s : State) (connectId : ℕ) (value : Value) (token : ℕ) (now deadline : ℤ) : State :=
  let value := { value with
    cancelRequested := true
    claimToken := some token
    claimAction := some .cancel
    claimUntil := some now }
  { s with sessions := put SessionKey.connectId ⟨connectId, value, deadline⟩ s.sessions }.zadd now connectId

def restoreCancellation (s : State) (now : ℤ) (connectId : ℕ) (session : DurableConnectSession) :
    State × Answer ConsentRevocationWorkClaim :=
  match session.expiresAt.filter fun expiresAt => 0 < expiresAt - now with
  | none => (s, .failed "connect session expiry must be in the future")
  | some expiresAt =>
    (restoreScript s connectId (newValue sha256 session) s.past.fresh now expiresAt, .done)

variable (reuseWarmSessions : Bool)

/-- One session of a page is claimed to be cancelled. One that is not found is taken from the index. -/
def claimMember (now : ℤ) (work : ConsentRevocationWorkClaim) (visibilityTimeoutMs : Option ℚ)
    (draw : ℕ → ℕ) (s : State) (connectId : ℕ) : State × Except String ConnectSessionClaimResult :=
  match claimAuthorized sha256 reuseWarmSessions (s.draw (draw connectId)) now
      (claimRequest connectId work.tenantId .cancel visibilityTimeoutMs none none) with
  | (s, .failed message) => (s, .error message)
  | (s, .notFound) => (s.srem (consentDigest sha256 work.tenantId work.consentId) connectId, .ok .notFound)
  | (s, result) => (s, .ok result)

variable (scan : SetScan)

def scanConsentRevocationWork (s : State) (now : ℤ) (work : ConsentRevocationWorkClaim) (batchLimit : ℕ)
    (visibilityTimeoutMs : Option ℚ) (draw : ℕ → ℕ) :
    State × Except String (ConsentConnectClaims ConsentRevocationWorkClaim) :=
  let (nextCursor, connectIds) :=
    scan.sscan (s.members (consentDigest sha256 work.tenantId work.consentId)) work.cursor batchLimit
  match each (claimMember sha256 reuseWarmSessions now work visibilityTimeoutMs draw) s connectIds with
  | (s, .error message) => (s, .error message)
  | (s, .ok results) =>
    let dueAt := if nextCursor = 0 then now + positiveVisibility visibilityTimeoutMs else now
    let advanced : Bool := ((s.work? work.digest).bind fun key => key.value.workToken) = some work.token
    let claims := gathered work results
    (advanceScript s work.digest work.token nextCursor dueAt,
      .ok (if advanced then claims else { claims with pending := claims.pending + 1 }))

/-- Work is claimed and a page of it is scanned; `none` where there is no work to be claimed. -/
def scanClaimed (now : ℤ) (visibilityTimeoutMs : Option ℚ) (batchLimit : ℕ) (draw : ℕ → ℕ)
    (workToken : String → ℕ) (s : State) (digest : String) :
    State × Except String (Option (ConsentConnectClaims ConsentRevocationWorkClaim)) :=
  match claimWorkScript s digest now (workToken digest) (now + positiveVisibility visibilityTimeoutMs) with
  | (s, none) => (s, .ok none)
  | (s, some value) =>
    match parseConsentRevocationWork sha256 true digest (workToken digest) value with
    | none => (s, .error "consent revocation work digest mismatch")
    | some work =>
      let scanned := scanConsentRevocationWork sha256 reuseWarmSessions scan s now work batchLimit
        visibilityTimeoutMs draw
      (scanned.1, scanned.2.map some)

def claimByConsent (s : State) (now : ℤ) (consentId tenantId : String) (visibilityTimeoutMs : Option ℚ)
    (batchLimit : ℚ) (draw : ℕ → ℕ) (workToken : String → ℕ) :
    State × Except String (ConsentConnectClaims ConsentRevocationWorkClaim) :=
  let scanned := scanClaimed sha256 reuseWarmSessions scan now visibilityTimeoutMs (pageSize batchLimit) draw
    workToken s (consentDigest sha256 tenantId consentId)
  (scanned.1, scanned.2.map fun claims => claims.getD ⟨[], 1, none⟩)

def claimDueConsentRevocations (s : State) (now : ℤ) (workLimit sessionLimit : ℚ)
    (visibilityTimeoutMs : Option ℚ) (draw : ℕ → ℕ) (workToken : String → ℕ) :
    State × Except String (List (ConsentConnectClaims ConsentRevocationWorkClaim)) :=
  let digests := zrangebyscore s.due now (max 0 (min 100 ⌊workLimit⌋)).toNat
  let scanned := each (scanClaimed sha256 reuseWarmSessions scan now visibilityTimeoutMs (pageSize sessionLimit)
    draw workToken) s digests
  (scanned.1, scanned.2.map List.reduceOption)

/-- A claim whose lease is over is given out again, under a token that is drawn for it. A
session that cannot be read is an error. -/
def reclaimDrawn (now : ℤ) (visibilityTimeoutMs : Option ℚ) (draw : ℕ → ℕ) (s : State) (connectId : ℕ) :
    State × Except String (List ConnectSessionClaim) :=
  match reclaimScript s connectId now (draw connectId) (now + positiveVisibility visibilityTimeoutMs) with
  | (s, none) => (s, .ok [])
  | (s, some value) =>
    match parseStoredSession sha256 true value with
    | none => (s, .error "encrypted connect session authorization binding mismatch")
    | some session => (s, .ok (storedClaim connectId session value).toList)

def claimExpiredDrawn (s : State) (now : ℤ) (limit : ℚ) (visibilityTimeoutMs : Option ℚ) (draw : ℕ → ℕ) :
    State × Except String (List ConnectSessionClaim) :=
  let claimed := each (reclaimDrawn sha256 now visibilityTimeoutMs draw) s
    (zrangebyscore s.claims now (max 0 (min 500 ⌊limit⌋)).toNat)
  (claimed.1, claimed.2.map List.flatten)

/-- The operation that has this number, at its moment. -/
def operate (tokens : Tokens) (number : ℕ) (s : State) (now : ℤ) :
    Operation → State × Answer ConsentRevocationWorkClaim
  | .put connectId session => (putSession sha256 s now connectId session, putAnswer sha256 s now session)
  | .restoreCancellation connectId session =>
    restoreCancellation sha256 (s.draw (tokens.claim number connectId)) now connectId session
  | .claim connectId principal action visibilityTimeoutMs confirmation =>
    let (s, result) := claimAuthorized sha256 reuseWarmSessions (s.draw (tokens.claim number connectId)) now
      (claimRequest connectId principal.tenantId action visibilityTimeoutMs confirmation (some principal))
    (s, .claimed result)
  | .claimForSystem connectId tenantId action visibilityTimeoutMs confirmation =>
    let (s, result) := claimAuthorized sha256 reuseWarmSessions (s.draw (tokens.claim number connectId)) now
      (claimRequest connectId tenantId action visibilityTimeoutMs confirmation none)
    (s, .claimed result)
  | .ack claim =>
    let (s, success) := ack sha256 s now (claim.drawn tokens)
    (s, .whether success)
  | .defer claim =>
    let (s, success) := defer s now (claim.drawn tokens)
    (s, .whether success)
  | .renew claim visibilityTimeoutMs =>
    let (s, state) := renew s now (claim.drawn tokens) visibilityTimeoutMs
    (s, .state state)
  | .claimState claim => (s, .state (claimState s (claim.drawn tokens)))
  | .markConsentRevoked consentId tenantId ttlMs =>
    (markConsentRevoked sha256 s now consentId tenantId ttlMs,
      if ttlMs ≤ 0 then .failed "invalid expire time" else .done)
  | .claimByConsent consentId tenantId visibilityTimeoutMs batchLimit =>
    let (s, claims) := claimByConsent sha256 reuseWarmSessions scan s now consentId tenantId visibilityTimeoutMs
      batchLimit (tokens.claim number) (tokens.work number)
    (s, .ofExcept .consent claims)
  | .claimDueConsentRevocations workLimit sessionBatchLimit visibilityTimeoutMs =>
    let (s, batches) := claimDueConsentRevocations sha256 reuseWarmSessions scan s now workLimit sessionBatchLimit
      visibilityTimeoutMs (tokens.claim number) (tokens.work number)
    (s, .ofExcept .consents batches)
  | .settleConsentRevocation operation tenantId consentId =>
    let digest := consentDigest sha256 tenantId consentId
    let (s, success) := settleConsentRevocation sha256 s now
      ⟨digest, tokens.work operation digest, tenantId, consentId, 0⟩
    (s, .whether success)
  | .claimExpired limit visibilityTimeoutMs =>
    let (s, claims) := claimExpiredDrawn sha256 s now limit visibilityTimeoutMs (tokens.claim number)
    (s, .ofExcept .claims claims)

end CatalogSentinel.Connect.Redis
