import CatalogSentinel.Connect.Redis

/-!
How a revoked consent reaches its sessions on Redis. The work of a revocation is claimed,
a page of the reverse index is read, each session on it is claimed to be cancelled, who is
not found is taken from the index, and the work goes on to the next page, or is settled
when the index is empty.
-/

namespace CatalogSentinel.Connect.Redis

open CatalogSentinel.Concurrent CatalogSentinel.Data

structure ConsentRevocationWorkClaim where
  digest : String
  token : ℕ
  tenantId : String
  consentId : String
  cursor : ℕ
  deriving DecidableEq, Repr

def State.zaddDue (s : State) (score : ℤ) (digest : String) : State :=
  { s with due := put Prod.fst (digest, score) s.due }

def State.zremDue (s : State) (digest : String) : State := { s with due := erase Prod.fst digest s.due }

def State.keepWork (s : State) (key : WorkKey) (value : WorkValue) : State :=
  { s with work := put WorkKey.digest { key with value } s.work }

/-- `CLAIM_CONSENT_REVOCATION_LUA` -/
def claimWorkScript (s : State) (digest : String) (now : ℤ) (token : ℕ) (workUntil : ℤ) :
    State × Option WorkValue :=
  match s.work? digest with
  | none => (s.zremDue digest, none)
  | some key =>
    if key.value.workToken.isSome ∧ now < key.value.workUntil.getD 0 then (s, none)
    else
      let value := { key.value with workToken := some token, workUntil := some workUntil }
      ((s.keepWork key value).zaddDue workUntil digest, some value)

/-- `ADVANCE_CONSENT_REVOCATION_LUA` -/
def advanceScript (s : State) (digest : String) (token cursor : ℕ) (dueAt : ℤ) : State :=
  match s.work? digest with
  | none => s
  | some key =>
    if key.value.workToken ≠ some token then s
    else
      (s.keepWork key { key.value with cursor, workToken := none, workUntil := none }).zaddDue dueAt digest

/-- `SETTLE_CONSENT_REVOCATION_LUA`, and whether the work is done. -/
def settleScript (s : State) (indexDigest digest : String) (now : ℤ) : State × Bool :=
  if ((s.index? indexDigest).map IndexKey.members).getD [] = [] then
    ({ s with work := erase WorkKey.digest digest s.work }.zremDue digest, true)
  else
    match s.work? digest with
    | none => (s.zremDue digest, true)
    | some key =>
      if key.value.workToken.isNone ∨ key.value.workUntil.getD 0 ≤ now then (s.zaddDue now digest, false)
      else (s, false)

variable (sha256 : String → String)

/-- It is an error when the consent cannot be decrypted, or is not the one of the work. -/
def parseConsentRevocationWork (decrypts : Bool) (digest : String) (token : ℕ) (value : WorkValue) :
    Option ConsentRevocationWorkClaim :=
  if decrypts && consentDigest sha256 value.tenantId value.encryptedConsentId = digest then
    some ⟨digest, token, value.tenantId, value.encryptedConsentId, value.cursor⟩
  else none

def claimConsentRevocationWork (s : State) (now : ℤ) (digest : String)
    (visibilityTimeoutMs : Option ℚ) (decrypts : Bool) : State × Option ConsentRevocationWorkClaim :=
  match claimWorkScript s digest now s.past.fresh (now + positiveVisibility visibilityTimeoutMs) with
  | (t, none) => (t, none)
  | (t, some value) =>
    (t.giveOut none, parseConsentRevocationWork sha256 decrypts digest s.past.fresh value)

def settleConsentRevocation (s : State) (now : ℤ) (work : ConsentRevocationWorkClaim) : State × Bool :=
  settleScript s (consentDigest sha256 work.tenantId work.consentId) work.digest now

/-- A scan between two commands: the members of its page that are still to be claimed, once
it has read it, and the one that was not found and is to be taken from the index. -/
structure Scan where
  work : ConsentRevocationWorkClaim
  page : Option (List ℕ)
  missing : Option ℕ
  nextCursor : ℕ
  deriving DecidableEq, Repr

/-- The registry with the scans under way, and the work that was claimed so far. -/
structure System where
  redis : State
  clock : ℤ
  scans : List Scan
  claimed : List ConsentRevocationWorkClaim
  deriving DecidableEq

inductive Event
  | call (call : Call Sweep)
  | claimWork (now : ℤ) (digest : String) (visibilityTimeoutMs : Option ℚ) (decrypts : Bool)
  | readPage (scan : ℕ) (page : List ℕ) (nextCursor : ℕ)
  | claimNext (now : ℤ) (scan : ℕ) (visibilityTimeoutMs : Option ℚ) (decrypts : Bool)
  | remove (scan : ℕ)
  | advance (now : ℤ) (scan : ℕ) (visibilityTimeoutMs : Option ℚ)
  | settle (now : ℤ) (work : ConsentRevocationWorkClaim)
  | crash (scan : ℕ)
  | expireIndex (now : ℤ) (digest : String)
  | expireTombstone (now : ℤ) (digest : String)
  | expireWork (now : ℤ) (digest : String)

/-- What the clock reads in the event, if it is read. -/
def Event.now? : Event → Option ℤ
  | .call (.put now ..) | .call (.claim now ..) | .call (.claimForSystem now ..) | .call (.ack now ..)
  | .call (.defer now ..) | .call (.renew now ..) | .call (.claimExpired now ..)
  | .call (.markConsentRevoked now ..) | .call (.expire now ..) => some now
  | .claimWork now .. | .claimNext now .. | .advance now .. | .settle now .. | .expireIndex now ..
  | .expireTombstone now .. | .expireWork now .. => some now
  | .call (.claimState ..) | .readPage .. | .remove .. | .crash .. => none

def cancelRequest (work : ConsentRevocationWorkClaim) (connectId : ℕ) (visibilityTimeoutMs : Option ℚ)
    (decrypts : Bool) : ClaimRequest :=
  ⟨connectId, work.tenantId, .cancel, visibilityTimeoutMs, none, none, decrypts⟩

variable (reuseWarmSessions : Bool)

/-- The members of the index that a page can hold. -/
def State.members (s : State) (digest : String) : List ℕ :=
  ((s.index? digest).map IndexKey.members).getD []

/-- The scan claims the next member of its page. An error ends the scan. -/
def claimNext (sys : System) (now : ℤ) (i : ℕ) (visibilityTimeoutMs : Option ℚ) (decrypts : Bool) :
    Option System := do
  let scan ← sys.scans[i]?
  match scan.page, scan.missing with
  | some (connectId :: page), none =>
    let (redis, result) := claimAuthorized sha256 reuseWarmSessions sys.redis now
      (cancelRequest scan.work connectId visibilityTimeoutMs decrypts)
    match result with
    | .failed _ => some { sys with redis, scans := sys.scans.eraseIdx i }
    | .notFound =>
      some { sys with
        redis, scans := sys.scans.set i { scan with page := some page, missing := some connectId } }
    | _ => some { sys with redis, scans := sys.scans.set i { scan with page := some page } }
  | _, _ => none

/-- An event at its moment. A key is dropped no sooner than at its deadline. -/
def perform (sys : System) : Event → Option System
  | .call call => (step (registry sha256 reuseWarmSessions) sys.redis call).map fun redis =>
    { sys with redis }
  | .claimWork now digest visibilityTimeoutMs decrypts =>
    let (redis, work) :=
      claimConsentRevocationWork sha256 sys.redis now digest visibilityTimeoutMs decrypts
    some { sys with
      redis
      scans := sys.scans ++ (work.map fun work => ⟨work, none, none, 0⟩).toList
      claimed := sys.claimed ++ work.toList }
  | .readPage i page nextCursor => do
    let scan ← sys.scans[i]?
    if scan.page = none ∧ ∀ connectId ∈ page,
        connectId ∈ sys.redis.members (consentDigest sha256 scan.work.tenantId scan.work.consentId) then
      some { sys with scans := sys.scans.set i { scan with page := some page, nextCursor } }
    else none
  | .claimNext now i visibilityTimeoutMs decrypts =>
    claimNext sha256 reuseWarmSessions sys now i visibilityTimeoutMs decrypts
  | .remove i => do
    let scan ← sys.scans[i]?
    let connectId ← scan.missing
    some { sys with
      redis := sys.redis.srem (consentDigest sha256 scan.work.tenantId scan.work.consentId) connectId
      scans := sys.scans.set i { scan with missing := none } }
  | .advance now i visibilityTimeoutMs => do
    let scan ← sys.scans[i]?
    if scan.page = some [] ∧ scan.missing = none then
      let dueAt := if scan.nextCursor = 0 then now + positiveVisibility visibilityTimeoutMs else now
      some { sys with
        redis := advanceScript sys.redis scan.work.digest scan.work.token scan.nextCursor dueAt
        scans := sys.scans.eraseIdx i }
    else none
  | .settle now work =>
    if work ∈ sys.claimed then
      some { sys with redis := (settleConsentRevocation sha256 sys.redis now work).1 }
    else none
  | .crash i => some { sys with scans := sys.scans.eraseIdx i }
  | .expireIndex now digest => do
    let index ← sys.redis.index? digest
    if index.deadline ≤ now then
      some { sys with
        redis := { sys.redis with indexes := erase IndexKey.digest digest sys.redis.indexes } }
    else none
  | .expireTombstone now digest => do
    let tombstone ← get? Prod.fst digest sys.redis.tombstones
    if tombstone.2 ≤ now then
      some { sys with
        redis := { sys.redis with tombstones := erase Prod.fst digest sys.redis.tombstones } }
    else none
  | .expireWork now digest => do
    let key ← sys.redis.work? digest
    if key.deadline ≤ now then
      some { sys with redis := { sys.redis with work := erase WorkKey.digest digest sys.redis.work } }
    else none

/-- Events happen under a clock that does not go back. -/
def happen (sys : System) (e : Event) : Option System :=
  if e.now?.all fun now => sys.clock ≤ now then
    (perform sha256 reuseWarmSessions sys e).map fun t => { t with clock := e.now?.getD sys.clock }
  else none

def start (clock : ℤ) : System := ⟨empty, clock, [], []⟩

/-- The session is bound to the consent. -/
def BoundTo (tenantId consentId : String) (key : SessionKey) : Prop :=
  key.value.encryptedSession.tenantId = tenantId ∧
    boundConsent key.value.encryptedSession = some consentId

end CatalogSentinel.Connect.Redis
