import CatalogSentinel.Connect.Lifecycle
import CatalogSentinel.Data.Assoc

/-!
The registry of sessions on Redis: the keys it keeps and the scripts that run on them,
each in one step. A key with a lifetime is there until the store drops it, at some moment
from its deadline on.
-/

namespace CatalogSentinel.Connect.Redis

open CatalogSentinel.Data

/-- The record of a session. What is encrypted is the session itself. -/
structure Value where
  tenantId : String
  ownerDigest : String
  encryptedSession : DurableConnectSession
  cancelRequested : Bool
  handedOff : Bool
  claimToken : Option ℕ
  claimAction : Option ConnectSessionAction
  claimUntil : Option ℤ
  confirmSearchId : Option String
  confirmCreatedAt : Option String
  deriving DecidableEq, Repr

structure SessionKey where
  connectId : ℕ
  value : Value
  deadline : ℤ
  deriving DecidableEq, Repr

/-- The reverse index of a consent: the sessions that are bound to it. -/
structure IndexKey where
  digest : String
  members : List ℕ
  deadline : ℤ
  deriving DecidableEq, Repr

structure WorkValue where
  tenantId : String
  encryptedConsentId : String
  cursor : ℕ
  workToken : Option ℕ
  workUntil : Option ℤ
  deriving DecidableEq, Repr

structure WorkKey where
  digest : String
  value : WorkValue
  deadline : ℤ
  deriving DecidableEq, Repr

/-- The keys: the sessions and the sorted set of their claims, and of revoked consents the
indexes, the tombstones, the work and the sorted set of what is due. -/
structure State where
  sessions : List SessionKey
  claims : List (ℕ × ℤ)
  indexes : List IndexKey
  tombstones : List (String × ℤ)
  work : List WorkKey
  due : List (String × ℤ)
  past : Past
  deriving DecidableEq

abbrev State.session? (s : State) (connectId : ℕ) : Option SessionKey :=
  get? SessionKey.connectId connectId s.sessions

abbrev State.index? (s : State) (digest : String) : Option IndexKey :=
  get? IndexKey.digest digest s.indexes

abbrev State.work? (s : State) (digest : String) : Option WorkKey := get? WorkKey.digest digest s.work

/-- `SET key value KEEPTTL` -/
def State.keep (s : State) (key : SessionKey) (value : Value) : State :=
  { s with sessions := put SessionKey.connectId { key with value } s.sessions }

def State.del (s : State) (connectId : ℕ) : State :=
  { s with sessions := erase SessionKey.connectId connectId s.sessions }

/-- `ZADD claims` -/
def State.zadd (s : State) (score : ℤ) (connectId : ℕ) : State :=
  { s with claims := put Prod.fst (connectId, score) s.claims }

/-- `ZREM claims` -/
def State.zrem (s : State) (connectId : ℕ) : State :=
  { s with claims := erase Prod.fst connectId s.claims }

/-- `SREM`, which drops the index with its last member. -/
def State.srem (s : State) (digest : String) (connectId : ℕ) : State :=
  match s.index? digest with
  | none => s
  | some index =>
    let members := index.members.filter fun member => member ≠ connectId
    { s with
      indexes := if members = [] then erase IndexKey.digest digest s.indexes
        else put IndexKey.digest { index with members } s.indexes }

/-- `SADD`, and `PEXPIRE` where the index would be gone before `deadline`. -/
def State.sadd (s : State) (digest : String) (connectId : ℕ) (deadline : ℤ) : State :=
  let index := match s.index? digest with
    | none => ⟨digest, [connectId], deadline⟩
    | some index => { index with
        members := if connectId ∈ index.members then index.members else index.members ++ [connectId]
        deadline := max index.deadline deadline }
  { s with indexes := put IndexKey.digest index s.indexes }

variable (sha256 : String → String)

def consentDigest (tenantId consentId : String) : String := sha256 (tenantId ++ "\x00" ++ consentId)

def ownerDigest (tenantId ownerUserId : String) : String := sha256 (tenantId ++ "\x00" ++ ownerUserId)

def newValue (session : DurableConnectSession) : Value :=
  { tenantId := session.tenantId
    ownerDigest := ownerDigest sha256 session.tenantId session.ownerUserId
    encryptedSession := session
    cancelRequested := false
    handedOff := false
    claimToken := none
    claimAction := none
    claimUntil := none
    confirmSearchId := none
    confirmCreatedAt := none }

/-- The consent that a session is bound to. -/
def boundConsent (session : DurableConnectSession) : Option String :=
  session.consentId.filter fun consentId => consentId ≠ ""

def State.register (s : State) (connectId : ℕ) (value : Value) (deadline : ℤ) : State :=
  { s with
    sessions := put SessionKey.connectId ⟨connectId, value, deadline⟩ s.sessions
    past := { s.past with used := connectId :: s.past.used } }

/-- `PUT_INDEXED_CONNECT_SESSION_LUA` -/
def putIndexed (s : State) (connectId : ℕ) (value : Value) (digest : String) (deadline : ℤ) : State :=
  if (get? Prod.fst digest s.tombstones).isSome then s
  else (s.register connectId value deadline).sadd digest connectId deadline

def putSession (s : State) (now : ℤ) (connectId : ℕ) (session : DurableConnectSession) : State :=
  match session.expiresAt with
  | none => s
  | some expiresAt =>
    if expiresAt - now ≤ 0 then s
    else
      let value := newValue sha256 session
      match boundConsent session with
      | some consentId =>
        putIndexed s connectId value (consentDigest sha256 session.tenantId consentId) expiresAt
      | none => s.register connectId value expiresAt

inductive ClaimReply
  | missing
  | ownershipMismatch
  | handedOff
  | busy
  | missingConfirmationWork
  | encoded (value : Value)
  deriving DecidableEq, Repr

structure ClaimScript where
  connectId : ℕ
  tenantId : String
  action : ConnectSessionAction
  token : ℕ
  now : ℤ
  leaseUntil : ℤ
  confirmSearchId : String
  confirmCreatedAt : String
  ownerDigest : String
  allowTenantAdmin : Bool
  isSystem : Bool
  reuseWarmSessions : Bool
  deriving DecidableEq, Repr

def ClaimScript.mayClaim (a : ClaimScript) (value : Value) : Bool :=
  a.isSystem || value.ownerDigest = a.ownerDigest || (a.action = .cancel && a.allowTenantAdmin)

/-- `if ARGV[2] == 'cancel' then value.cancelRequested = true end` -/
def Value.requested (value : Value) (action : ConnectSessionAction) : Value :=
  if action = .cancel then { value with cancelRequested := true } else value

/-- A session that was handed off is confirmed again: its hand-off and its search are cleared. -/
def Value.rewarmed (value : Value) (action : ConnectSessionAction) : Value :=
  if value.handedOff ∧ action = .confirm then
    { value with handedOff := false, confirmSearchId := none, confirmCreatedAt := none }
  else value

/-- The search of the first claim that confirms is the search of the session. -/
def Value.adopted (value : Value) (action : ConnectSessionAction) (a : ClaimScript) : Value :=
  if action = .confirm ∧ value.confirmSearchId = none then
    { value with
      confirmSearchId := some a.confirmSearchId
      confirmCreatedAt := some a.confirmCreatedAt }
  else value

/-- `CLAIM_CONNECT_SESSION_LUA` -/
def claimScript (s : State) (a : ClaimScript) : State × ClaimReply :=
  match s.session? a.connectId with
  | none => (s, .missing)
  | some key =>
    if key.value.tenantId ≠ a.tenantId then (s, .ownershipMismatch)
    else if !a.mayClaim key.value then (s, .ownershipMismatch)
    else
      let value := key.value.requested a.action
      if value.handedOff ∧ a.action = .confirm ∧ (!a.reuseWarmSessions || value.cancelRequested) then
        (s, .handedOff)
      else
        let value := value.rewarmed a.action
        if value.claimToken.isSome ∧ a.now < value.claimUntil.getD 0 then (s.keep key value, .busy)
        else
          let action := if value.cancelRequested then .cancel else a.action
          if action = .confirm ∧ value.confirmSearchId = none ∧
              (a.confirmSearchId = "" ∨ a.confirmCreatedAt = "") then
            (s, .missingConfirmationWork)
          else
            let value := { value.adopted action a with
              claimToken := some a.token
              claimAction := some action
              claimUntil := some a.leaseUntil }
            ((s.keep key value).zadd a.leaseUntil a.connectId, .encoded value)

/-- The session that is stored. It is an error when it cannot be decrypted, or is not the one
that was bound. -/
def parseStoredSession (decrypts : Bool) (value : Value) : Option DurableConnectSession :=
  let session := value.encryptedSession
  if decrypts && session.ownerUserId ≠ "" && session.artistWorkspaceId ≠ "" &&
      session.tenantId = value.tenantId &&
      ownerDigest sha256 session.tenantId session.ownerUserId = value.ownerDigest then
    some session
  else none

/-- The claim that a script has stored on the session. -/
def storedClaim (connectId : ℕ) (session : DurableConnectSession) (value : Value) :
    Option ConnectSessionClaim := do
  let token ← value.claimToken
  let action ← value.claimAction
  some ⟨connectId, token, action, session,
    match value.confirmSearchId, value.confirmCreatedAt with
    | some searchId, some createdAt => some ⟨searchId, createdAt⟩
    | _, _ => none⟩

/-- The token that the script has stored is used up, and who called has the claim. -/
def State.giveOut (s : State) (claim : Option ConnectSessionClaim) : State :=
  { s with
    past := match claim with
      | some claim => s.past.grant claim
      | none => { s.past with fresh := s.past.fresh + 1 } }

variable (reuseWarmSessions : Bool)

def ClaimRequest.script (s : State) (now : ℤ) (request : ClaimRequest) : ClaimScript :=
  { connectId := request.connectId
    tenantId := request.tenantId
    action := request.action
    token := s.past.fresh
    now
    leaseUntil := now + positiveVisibility request.visibilityTimeoutMs
    confirmSearchId := (request.confirmation.map ConnectConfirmationWork.searchId).getD ""
    confirmCreatedAt := (request.confirmation.map ConnectConfirmationWork.createdAt).getD ""
    ownerDigest := match request.principal with
      | some principal => ownerDigest sha256 principal.tenantId principal.actorUserId
      | none => ""
    allowTenantAdmin := request.principal.any ConnectSessionPrincipal.allowTenantAdmin
    isSystem := request.principal.isNone
    reuseWarmSessions }

def claimAuthorized (s : State) (now : ℤ) (request : ClaimRequest) :
    State × ConnectSessionClaimResult :=
  match claimScript s (ClaimRequest.script sha256 reuseWarmSessions s now request) with
  | (s, .missing) => (s, .notFound)
  | (s, .ownershipMismatch) => (s, .ownershipMismatch)
  | (s, .handedOff) => (s, .notFound)
  | (s, .busy) => (s, .busy)
  | (s, .missingConfirmationWork) => (s, .failed "confirmation claim requires stable search work")
  | (s, .encoded value) =>
    match parseStoredSession sha256 request.decrypts value with
    | none => (s.giveOut none, .failed "the stored session cannot be read")
    | some session =>
      match storedClaim request.connectId session value with
      | some claim => (s.giveOut (some claim), .claimed claim)
      | none => (s.giveOut none, .notFound)

/-- The record, where it is of this tenant and carries this token. -/
def owned (s : State) (claim : ConnectSessionClaim) : Option SessionKey :=
  (s.session? claim.connectId).filter fun key =>
    key.value.tenantId = claim.session.tenantId && key.value.claimToken = some claim.token

/-- `ACK_CONNECT_SESSION_LUA` -/
def ack (s : State) (now : ℤ) (claim : ConnectSessionClaim) : State × Bool :=
  if (s.session? claim.connectId).isNone then (s.zrem claim.connectId, false)
  else
    match owned s claim with
    | none => (s, false)
    | some key =>
      match claim.action with
      | .confirm =>
        let value := { key.value with handedOff := true }
        let s := { s with past := { s.past with log := .handedOff key.connectId :: s.past.log } }
        if value.cancelRequested then
          ((s.keep key { value with
            claimAction := some .cancel, claimUntil := some now }).zadd now claim.connectId, true)
        else
          ((s.keep key { value with
            claimToken := none, claimAction := none, claimUntil := none }).zrem claim.connectId, true)
      | .cancel =>
        let s := (s.del claim.connectId).zrem claim.connectId
        match boundConsent claim.session with
        | some consentId =>
          (s.srem (consentDigest sha256 claim.session.tenantId consentId) claim.connectId, true)
        | none => (s, true)

/-- `DEFER_CONNECT_SESSION_LUA` -/
def defer (s : State) (now : ℤ) (claim : ConnectSessionClaim) : State × Bool :=
  if (s.session? claim.connectId).isNone then (s.zrem claim.connectId, false)
  else
    match owned s claim with
    | none => (s, false)
    | some key =>
      ((s.keep key { key.value with claimUntil := some now }).zadd now claim.connectId, true)

/-- `RENEW_CONNECT_SESSION_LUA` -/
def renew (s : State) (now : ℤ) (claim : ConnectSessionClaim) (visibilityTimeoutMs : Option ℚ) :
    State × ConnectClaimState :=
  match owned s claim with
  | none => (s, .lost)
  | some key =>
    let leaseUntil := now + positiveVisibility visibilityTimeoutMs
    ((s.keep key { key.value with claimUntil := some leaseUntil }).zadd leaseUntil claim.connectId,
      if key.value.cancelRequested ∧ claim.action = .confirm then .cancelled else .active)

/-- `CHECK_CONNECT_CLAIM_STATE_LUA` -/
def claimState (s : State) (claim : ConnectSessionClaim) : ConnectClaimState :=
  match (s.session? claim.connectId).filter fun key =>
      key.value.tenantId = claim.session.tenantId with
  | none => .lost
  | some key =>
    if key.value.cancelRequested then .cancelled
    else if key.value.claimToken = some claim.token then .active
    else .lost

/-- `if value.cancelRequested then value.claimAction = 'cancel' end` -/
def Value.turned (value : Value) : Value :=
  if value.cancelRequested then { value with claimAction := some .cancel } else value

/-- `RECLAIM_EXPIRED_CONNECT_SESSION_LUA` -/
def reclaimScript (s : State) (connectId : ℕ) (now : ℤ) (token : ℕ) (leaseUntil : ℤ) :
    State × Option Value :=
  match s.session? connectId with
  | none => (s.zrem connectId, none)
  | some key =>
    if key.value.claimToken.isNone then (s.zrem connectId, none)
    else if now < key.value.claimUntil.getD 0 then (s, none)
    else if key.value.turned.claimAction.isNone then (s.zrem connectId, none)
    else
      let value := { key.value.turned with claimToken := some token, claimUntil := some leaseUntil }
      ((s.keep key value).zadd leaseUntil connectId, some value)

/-- One claim that a sweep has found in the sorted set, and whether it can be decrypted. -/
structure Sweep where
  connectId : ℕ
  decrypts : Bool
  deriving DecidableEq, Repr

def claimExpired (s : State) (now : ℤ) (sweep : Sweep) (visibilityTimeoutMs : Option ℚ) :
    State × List ConnectSessionClaim :=
  match reclaimScript s sweep.connectId now s.past.fresh
      (now + positiveVisibility visibilityTimeoutMs) with
  | (s, none) => (s, [])
  | (s, some value) =>
    let claim := (parseStoredSession sha256 sweep.decrypts value).bind fun session =>
      storedClaim sweep.connectId session value
    (s.giveOut claim, claim.toList)

/-- `BEGIN_CONSENT_REVOCATION_LUA`, for a consent that is encrypted as it is. A lifetime that
is none fails the script at its first command. -/
def markConsentRevoked (s : State) (now : ℤ) (consentId tenantId : String) (ttlMs : ℤ) : State :=
  if ttlMs ≤ 0 then s
  else
    let digest := consentDigest sha256 tenantId consentId
    let deadline := now + ttlMs
    let work := match s.work? digest with
      | none => ⟨digest, ⟨tenantId, consentId, 0, none, none⟩, deadline⟩
      | some work => { work with deadline := max work.deadline deadline }
    { s with
      tombstones := put Prod.fst (digest, deadline) s.tombstones
      work := put WorkKey.digest work s.work
      due := if (get? Prod.fst digest s.due).isSome then s.due else put Prod.fst (digest, now) s.due }

/-- The session is dropped, no sooner than at its deadline. -/
def expire (s : State) (now : ℤ) (connectId : ℕ) : State :=
  match s.session? connectId with
  | none => s
  | some key => if key.deadline ≤ now then s.del connectId else s

def Value.life (value : Value) : Life :=
  ⟨do some (← value.claimToken, ← value.claimAction), value.confirmSearchId, value.cancelRequested,
    value.handedOff⟩

def registry : ConnectSessionRegistry State Sweep where
  put := putSession sha256
  claimAuthorized := claimAuthorized sha256 reuseWarmSessions
  ack := ack sha256
  defer := defer
  renew := renew
  claimState := claimState
  claimExpired := claimExpired sha256
  markConsentRevoked := markConsentRevoked sha256
  expire := expire
  past := State.past
  session := fun s connectId => (s.session? connectId).map fun key => key.value.encryptedSession
  life := fun s connectId => (s.session? connectId).map fun key => key.value.life

def empty : State := ⟨[], [], [], [], [], [], ⟨0, [], []⟩⟩

section Lives

variable {sha256 : String → String} {warm : Bool} {s t : State} {key : SessionKey} {value w : Value}
  {mayGo : ℕ → Prop} {id : ℕ} {now : ℤ}

def lives (s : State) : View := ⟨fun id => (s.session? id).map fun key => key.value.life, s.past⟩

/-- The scripts write the fields of a claim together, and those of a confirmation. -/
structure Value.Paired (value : Value) : Prop where
  claim : value.claimToken.isSome = value.claimAction.isSome
  confirmation : value.confirmSearchId.isSome = value.confirmCreatedAt.isSome

/-- What no script writes over. -/
def Value.origin (value : Value) : String × String × DurableConnectSession :=
  (value.tenantId, value.ownerDigest, value.encryptedSession)

/-- A record is bound to the session that was put, and is there until that expires. -/
structure SessionKey.Sound (sha256 : String → String) (key : SessionKey) : Prop where
  paired : key.value.Paired
  bound : key.value.origin = (newValue sha256 key.value.encryptedSession).origin ∧
    key.value.encryptedSession.expiresAt = some key.deadline

def State.WellFormed (sha256 : String → String) (s : State) : Prop :=
  ∀ id key, s.session? id = some key → key.Sound sha256

/-- What a script does to the lives of the sessions. -/
structure Goes (sha256 : String → String) (mayGo : ℕ → Prop) (s t : State) : Prop where
  wellFormed : t.WellFormed sha256
  moves : Moves mayGo (lives s) (lives t)

theorem bound_of {deadline : ℤ} (h : w.origin = value.origin)
    (hbound : value.origin = (newValue sha256 value.encryptedSession).origin ∧
      value.encryptedSession.expiresAt = some deadline) :
    w.origin = (newValue sha256 w.encryptedSession).origin ∧
      w.encryptedSession.expiresAt = some deadline := by
  have hsession : w.encryptedSession = value.encryptedSession :=
    congrArg (fun origin : String × String × DurableConnectSession => origin.2.2) h
  rw [h, hsession]
  exact hbound

theorem Goes.trans {u : State} (hst : Goes sha256 mayGo s t) (htu : Goes sha256 mayGo t u) : Goes sha256 mayGo s u :=
  ⟨htu.wellFormed, hst.moves.trans htu.moves⟩

theorem goes_same (hs : s.WellFormed sha256) (hsessions : t.sessions = s.sessions) (hpast : t.past = s.past) :
    Goes sha256 mayGo s t := by
  have hget : ∀ id, t.session? id = s.session? id := fun id => by rw [State.session?, hsessions]
  refine ⟨fun id key h => hs id key ((hget id).symm.trans h), .single (.same (funext fun id => ?_) hpast)⟩
  exact congrArg (Option.map fun key : SessionKey => key.value.life) (hget id)

theorem writes (key : SessionKey) (h : t.sessions = put SessionKey.connectId key s.sessions) :
    (lives s).Writes (lives t) key.connectId (some key.value.life) := by
  have hget : ∀ j, t.session? j = get? SessionKey.connectId j (put SessionKey.connectId key s.sessions) :=
    fun j => by rw [State.session?, h]
  refine ⟨?_, fun j hj => ?_⟩
  · exact congrArg (Option.map fun key : SessionKey => key.value.life)
      ((hget _).trans (get?_put_self key s.sessions))
  · exact congrArg (Option.map fun key : SessionKey => key.value.life)
      ((hget j).trans (get?_put_of_ne (Ne.symm hj) s.sessions))

/-- A session is written, and that is one thing that may happen to it. -/
theorem goes_write (hs : s.WellFormed sha256) (key : SessionKey) (hkey : key.Sound sha256)
    (h : t.sessions = put SessionKey.connectId key s.sessions)
    (hmove : (lives s).Writes (lives t) key.connectId (some key.value.life) →
      Move mayGo (lives s) (lives t)) : Goes sha256 mayGo s t := by
  refine ⟨fun id key' hkey' => ?_, .single (hmove (writes key h))⟩
  rw [State.session?, h, get?_put] at hkey'
  split at hkey'
  · obtain rfl := Option.some.inj hkey'
    exact hkey
  · exact hs id key' hkey'

theorem life_of (hkey : s.session? id = some key) : (lives s).life id = some key.value.life :=
  congrArg (Option.map fun key : SessionKey => key.value.life) hkey

theorem session?_keep : (s.keep key value).session? key.connectId = some { key with value } :=
  get?_put_self { key with value } s.sessions

theorem keep_keep : (s.keep key value).keep { key with value } w = s.keep key w := by
  simp only [State.keep]
  rw [put_put (by rfl)]

/-- The value is written over by one with the same life. -/
theorem goes_kept (hs : s.WellFormed sha256) (hkey : s.session? key.connectId = some key)
    (value : Value) (hlife : value.life = key.value.life) (hsound : SessionKey.Sound sha256 { key with value })
    (ht : t.sessions = (s.keep key value).sessions) (hpast : t.past = s.past) : Goes sha256 mayGo s t := by
  refine goes_write hs { key with value } hsound ht fun hwrites => .same (funext fun j => ?_) hpast
  by_cases hj : j = key.connectId
  · rw [hj, hwrites.1, hlife, life_of hkey]
  · exact hwrites.2 j hj

theorem goes_requested (hs : s.WellFormed sha256) (hkey : s.session? key.connectId = some key)
    (action : ConnectSessionAction) : Goes sha256 mayGo s (s.keep key (key.value.requested action)) := by
  obtain ⟨hpaired, hbound⟩ := hs _ _ hkey
  unfold Value.requested
  split
  · exact goes_write hs { key with value := { key.value with cancelRequested := true } }
      ⟨⟨hpaired.claim, hpaired.confirmation⟩, hbound⟩ rfl fun hwrites =>
        .requested key.connectId key.value.life (life_of hkey) hwrites rfl
  · exact goes_kept hs hkey key.value rfl ⟨hpaired, hbound⟩ rfl rfl

theorem goes_rewarmed (hs : s.WellFormed sha256) (key : SessionKey)
    (hkey : s.session? key.connectId = some key)
    (action : ConnectSessionAction)
    (h : key.value.handedOff = true → action = .confirm → key.value.cancelRequested = false) :
    Goes sha256 mayGo s (s.keep key (key.value.rewarmed action)) := by
  obtain ⟨hpaired, hbound⟩ := hs _ _ hkey
  unfold Value.rewarmed
  split
  · rename_i hrewarmed
    exact goes_write hs { key with value := { key.value with
        handedOff := false, confirmSearchId := none, confirmCreatedAt := none } }
      ⟨⟨hpaired.claim, rfl⟩, hbound⟩ rfl fun hwrites => .rewarmed key.connectId key.value.life (life_of hkey)
        hrewarmed.1 (h hrewarmed.1 hrewarmed.2) hwrites rfl
  · exact goes_kept hs hkey key.value rfl ⟨hpaired, hbound⟩ rfl rfl

theorem rewarmed_handedOff {action : ConnectSessionAction} (h : action = .confirm) :
    (value.rewarmed action).handedOff = false := by
  unfold Value.rewarmed
  split
  · rfl
  · rename_i hnot
    exact Bool.eq_false_iff.2 fun hoff => hnot ⟨hoff, h⟩

theorem prepared_cancelRequested {action : ConnectSessionAction} (h : action = .cancel) :
    ((value.requested action).rewarmed action).cancelRequested = true := by
  subst h
  have hnot : ¬ ((value.requested .cancel).handedOff ∧ ConnectSessionAction.cancel = .confirm) := by simp
  rw [Value.rewarmed, if_neg hnot]
  rfl

/-- The value goes through a cancellation and a new hand-off, as in the script. -/
theorem goes_prepared (hs : s.WellFormed sha256) (hkey : s.session? key.connectId = some key)
    (action : ConnectSessionAction)
    (h : (key.value.requested action).handedOff = true → action = .confirm →
      (key.value.requested action).cancelRequested = false) :
    Goes sha256 mayGo s (s.keep key ((key.value.requested action).rewarmed action)) := by
  have hrequested : Goes sha256 mayGo s (s.keep key (key.value.requested action)) :=
    goes_requested hs hkey action
  have hrewarmed : Goes sha256 mayGo (s.keep key (key.value.requested action)) _ := goes_rewarmed
    hrequested.wellFormed { key with value := key.value.requested action } session?_keep action h
  rw [keep_keep] at hrewarmed
  exact hrequested.trans hrewarmed

/-- The claim that is given out on the session, when its value has the fields of a claim. -/
theorem storedClaim_eq {connectId token : ℕ} {session : DurableConnectSession}
    {action : ConnectSessionAction} (htoken : value.claimToken = some token)
    (haction : value.claimAction = some action) (hpaired : value.Paired) :
    ∃ claim, storedClaim connectId session value = some claim ∧ claim.connectId = connectId ∧
      claim.token = token ∧ claim.action = action ∧ claim.searchId = value.confirmSearchId := by
  have hconfirmation := hpaired.confirmation
  refine ⟨_, by simp only [storedClaim, htoken, haction]; rfl, rfl, rfl, rfl, ?_⟩
  cases hsearch : value.confirmSearchId <;> cases hcreated : value.confirmCreatedAt <;>
    simp_all [ConnectSessionClaim.searchId]

/-- The session is leased under a new token, and the claim is given out or is lost. -/
theorem goes_leased (hs : s.WellFormed sha256) (key : SessionKey)
    (hkey : s.session? key.connectId = some key) (w : Value) {action : ConnectSessionAction}
    (hsound : SessionKey.Sound sha256 { key with value := w }) (htoken : w.claimToken = some s.past.fresh)
    (haction : w.claimAction = some action) (hrequested : w.cancelRequested = key.value.cancelRequested)
    (hoff : w.handedOff = key.value.handedOff)
    (hsearch : key.value.confirmSearchId = none ∨ w.confirmSearchId = key.value.confirmSearchId)
    (hconfirm : action = .confirm → ∀ claim : ConnectSessionClaim,
      claim.searchId = w.confirmSearchId → Confirmable key.value.life claim)
    (hcancel : action = .cancel →
      key.value.cancelRequested = true ∨ ∃ t, key.value.life.holder = some (t, .cancel))
    (session : DurableConnectSession) (given : Bool)
    (ht : t.sessions = (s.keep key w).sessions)
    (hpast : t.past = (s.giveOut
      (if given then storedClaim key.connectId session w else none)).past) : Goes sha256 mayGo s t := by
  obtain ⟨claim, hclaim, hid, htoken', haction', hsearch'⟩ :
      ∃ claim, storedClaim key.connectId session w = some claim ∧ claim.connectId = key.connectId ∧
        claim.token = s.past.fresh ∧ claim.action = action ∧ claim.searchId = w.confirmSearchId :=
    storedClaim_eq htoken haction hsound.paired
  have hpast' : (lives t).past = _ := hpast
  refine goes_write hs { key with value := w } hsound ht fun hwrites =>
    .granted key.connectId key.value.life claim (life_of hkey) hid htoken' ?_ ?_ ?_ ?_ ?_ ?_ ?_
  · rw [hsearch']
    exact hsearch
  · rw [haction']
    exact fun h => hconfirm h claim hsearch'
  · rw [haction']
    exact hcancel
  · have hlife : w.life = { key.value.life with
        holder := some (claim.token, claim.action), searchId := claim.searchId } := by
      simp only [Value.life, htoken, haction, hrequested, hoff, htoken', haction', hsearch']
      rfl
    rw [← hlife]
    exact hwrites
  · rw [hpast']
    cases given <;> simp [State.giveOut, hclaim, Past.grant, lives]
  · rw [hpast']
    cases given <;> simp [State.giveOut, hclaim, Past.grant, lives]
  · rw [hpast']
    cases given <;> simp [State.giveOut, hclaim, Past.grant, lives]

theorem adopted_paired (hpaired : value.Paired) (action : ConnectSessionAction) (a : ClaimScript) :
    (value.adopted action a).confirmSearchId.isSome = (value.adopted action a).confirmCreatedAt.isSome := by
  unfold Value.adopted
  split
  · rfl
  · exact hpaired.confirmation

/-- A claim that confirms is for a search: the one of the session, or one that is adopted. -/
theorem adopted_search (action : ConnectSessionAction) (a : ClaimScript) :
    (value.confirmSearchId = none ∨
      (value.adopted action a).confirmSearchId = value.confirmSearchId) ∧
    (action = .confirm → (value.adopted action a).confirmSearchId.isSome) := by
  unfold Value.adopted
  split
  · rename_i h
    exact ⟨.inl h.2, fun _ => rfl⟩
  · rename_i h
    refine ⟨.inr rfl, fun haction => ?_⟩
    exact Option.isSome_iff_ne_none.2 fun hnone => h ⟨haction, hnone⟩

theorem adopted_same (action : ConnectSessionAction) (a : ClaimScript) :
    (value.adopted action a).cancelRequested = value.cancelRequested ∧
      (value.adopted action a).handedOff = value.handedOff ∧
      (value.adopted action a).origin = value.origin := by
  unfold Value.adopted
  split <;> exact ⟨rfl, rfl, rfl⟩

/-- The script gives out a claim for the caller to have or to lose, or it gives out none. -/
def Gives (sha256 : String → String) (mayGo : ℕ → Prop) (s : State) (connectId : ℕ) (out : State × Option Value) : Prop :=
  match out.2 with
  | some w => ∀ session, ∀ given : Bool,
    Goes sha256 mayGo s (out.1.giveOut (if given then storedClaim connectId session w else none))
  | none => Goes sha256 mayGo s out.1

def ClaimReply.value? : ClaimReply → Option Value
  | .encoded value => some value
  | _ => none

theorem gives_claimScript (hs : s.WellFormed sha256) (a : ClaimScript) (htoken : a.token = s.past.fresh) :
    Gives sha256 mayGo s a.connectId (Prod.map (fun t => t) ClaimReply.value? (claimScript s a)) := by
  have hrefl : Goes sha256 mayGo s s := ⟨hs, .refl⟩
  unfold claimScript
  split
  · exact hrefl
  rename_i key hkey
  obtain hid := key_of_get? hkey
  have hkey' : s.session? key.connectId = some key := hid ▸ hkey
  split
  · exact hrefl
  split
  · exact hrefl
  dsimp only
  split
  · exact hrefl
  rename_i hwarm
  have hprepared : Goes sha256 mayGo s (s.keep key ((key.value.requested a.action).rewarmed a.action)) := by
    refine goes_prepared hs hkey' a.action fun hoff haction => ?_
    by_contra hrequested
    rw [Bool.not_eq_false] at hrequested
    exact hwarm ⟨hoff, haction, by rw [hrequested, Bool.or_true]⟩
  have hoff : a.action = .confirm →
      ((key.value.requested a.action).rewarmed a.action).handedOff = false := rewarmed_handedOff
  have hcancel : a.action = .cancel →
      ((key.value.requested a.action).rewarmed a.action).cancelRequested = true := prepared_cancelRequested
  generalize (key.value.requested a.action).rewarmed a.action = value at hprepared hoff hcancel
  split
  · exact hprepared
  have hconfirm : (if value.cancelRequested then ConnectSessionAction.cancel else a.action) = .confirm →
      value.cancelRequested = false ∧ value.handedOff = false := by
    intro haction
    split at haction
    · cases haction
    · rename_i hrequested
      exact ⟨Bool.eq_false_iff.2 hrequested, hoff haction⟩
  have hcancel' : (if value.cancelRequested then ConnectSessionAction.cancel else a.action) = .cancel →
      value.cancelRequested = true := by
    intro haction
    split at haction
    · assumption
    · exact hcancel haction
  generalize (if value.cancelRequested then ConnectSessionAction.cancel else a.action) = action
    at hconfirm hcancel'
  split
  · exact hrefl
  intro session given
  obtain ⟨hpaired, hbound⟩ : SessionKey.Sound sha256 { key with value } :=
    hprepared.wellFormed _ _ session?_keep
  obtain ⟨hsearch, hsome⟩ : _ ∧ (action = .confirm → (value.adopted action a).confirmSearchId.isSome) :=
    adopted_search action a
  obtain ⟨hrequested', hoff', horigin⟩ :
    (value.adopted action a).cancelRequested = value.cancelRequested ∧ _ := adopted_same action a
  refine hprepared.trans (goes_leased hprepared.wellFormed { key with value } session?_keep
    { value.adopted action a with
      claimToken := some a.token, claimAction := some action, claimUntil := some a.leaseUntil }
    ⟨⟨rfl, adopted_paired hpaired action a⟩, bound_of horigin hbound⟩ (congrArg some htoken) rfl hrequested' hoff' hsearch
    (fun haction claim hclaim => ?_) (fun haction => .inl (hcancel' haction)) session given ?_ ?_)
  · refine ⟨(hconfirm haction).1, .inr (hconfirm haction).2, .inl ?_⟩
    rw [hclaim]
    exact hsome haction
  · rw [keep_keep]
    rfl
  · rw [← hid]
    rfl

theorem goes_claimAuthorized (hs : s.WellFormed sha256) (request : ClaimRequest) :
    Goes sha256 mayGo s (claimAuthorized sha256 warm s now request).1 := by
  have hgives : Gives sha256 mayGo s request.connectId (Prod.map (fun t => t) ClaimReply.value?
      (claimScript s (ClaimRequest.script sha256 warm s now request))) := gives_claimScript hs _ rfl
  unfold claimAuthorized
  generalize claimScript s (ClaimRequest.script sha256 warm s now request) = out at hgives
  obtain ⟨s', reply⟩ := out
  cases reply with
  | missing | ownershipMismatch | handedOff | busy | missingConfirmationWork => exact hgives
  | encoded w =>
    dsimp only
    split
    · exact hgives w.encryptedSession false
    · rename_i session _
      split
      · rename_i claim hclaim
        have hgoes := hgives session true
        rw [if_pos rfl, hclaim] at hgoes
        exact hgoes
      · exact hgives session false

theorem owned_some {claim : ConnectSessionClaim} (h : owned s claim = some key) :
    s.session? claim.connectId = some key ∧ key.value.claimToken = some claim.token := by
  obtain ⟨hkey, hcond⟩ := Option.filter_eq_some_iff.1 h
  simp only [Bool.and_eq_true, decide_eq_true_eq] at hcond
  exact ⟨hkey, hcond.2⟩

theorem holder_of (hpaired : value.Paired) {token : ℕ} (h : value.claimToken = some token) :
    ∃ action, value.life.holder = some (token, action) := by
  have hsome := hpaired.claim
  rw [h] at hsome
  obtain ⟨action, haction⟩ := Option.isSome_iff_exists.1 hsome.symm
  exact ⟨action, by simp only [Value.life, h, haction]; rfl⟩

theorem goes_del (hs : s.WellFormed sha256) (hkey : s.session? id = some key) (hgo : mayGo id)
    (ht : t.sessions = (s.del id).sessions) (hpast : t.past = s.past) : Goes sha256 mayGo s t := by
  have hget : ∀ j, t.session? j = (s.del id).session? j := fun j => by
    rw [State.session?, ht]
  have hself : (s.del id).session? id = none := get?_erase_self id s.sessions
  have hother : ∀ j, j ≠ id → (s.del id).session? j = s.session? j := fun j hj =>
    get?_erase_of_ne hj s.sessions
  refine ⟨fun j key' hkey' => ?_, .single (.gone id key.value.life hgo (life_of hkey)
    ⟨?_, fun j hj => ?_⟩ hpast)⟩
  · rw [hget] at hkey'
    by_cases hj : j = id
    · rw [hj, hself] at hkey'
      cases hkey'
    · exact hs j key' ((hother j hj).symm.trans hkey')
  · exact congrArg (Option.map fun key : SessionKey => key.value.life) ((hget id).trans hself)
  · exact congrArg (Option.map fun key : SessionKey => key.value.life) ((hget j).trans (hother j hj))

theorem srem_sessions (digest : String) (connectId : ℕ) :
    (s.srem digest connectId).sessions = s.sessions ∧ (s.srem digest connectId).past = s.past := by
  unfold State.srem
  split <;> exact ⟨rfl, rfl⟩

theorem goes_ack (hs : s.WellFormed sha256) (claim : ConnectSessionClaim) :
    Goes sha256 (fun j => claim.connectId = j ∧ claim.action = .cancel) s (ack sha256 s now claim).1 := by
  unfold ack
  split
  · exact goes_same hs rfl rfl
  split
  · exact ⟨hs, .refl⟩
  rename_i key howned
  obtain ⟨hkey, htoken⟩ := owned_some howned
  obtain hid := key_of_get? hkey
  have hkey' : s.session? key.connectId = some key := hid ▸ hkey
  obtain ⟨hpaired, hbound⟩ := hs _ _ hkey
  obtain ⟨action, hholder⟩ := holder_of hpaired htoken
  split
  · dsimp only
    split
    · rename_i hrequested
      refine goes_write hs { key with value := { key.value with
          handedOff := true, claimAction := some .cancel, claimUntil := some now } }
        ⟨⟨by simp only [htoken, Option.isSome_some], hpaired.confirmation⟩, hbound⟩ rfl fun hwrites =>
          .acked key.connectId key.value.life claim.token action (life_of hkey') hholder ?_ rfl
      have hlife : ({ key.value with
          handedOff := true, claimAction := some .cancel, claimUntil := some now } : Value).life =
          { key.value.life with
            handedOff := true
            holder := if key.value.life.cancelRequested then some (claim.token, .cancel) else none } := by
        simp only [Value.life, htoken, hrequested]
        rfl
      rw [← hlife]
      exact hwrites
    · rename_i hrequested
      refine goes_write hs { key with value := { key.value with
          handedOff := true, claimToken := none, claimAction := none, claimUntil := none } }
        ⟨⟨rfl, hpaired.confirmation⟩, hbound⟩ rfl fun hwrites =>
          .acked key.connectId key.value.life claim.token action (life_of hkey') hholder ?_ rfl
      have hlife : ({ key.value with
          handedOff := true, claimToken := none, claimAction := none, claimUntil := none } : Value).life =
          { key.value.life with
            handedOff := true
            holder := if key.value.life.cancelRequested then some (claim.token, .cancel) else none } := by
        simp only [Value.life, hrequested]
        rfl
      rw [← hlife]
      exact hwrites
  · rename_i haction
    split
    · rename_i consentId _
      obtain ⟨hsessions, hpast⟩ := srem_sessions
        (s := (s.del claim.connectId).zrem claim.connectId)
        (consentDigest sha256 claim.session.tenantId consentId) claim.connectId
      exact goes_del hs hkey ⟨rfl, haction⟩ hsessions hpast
    · exact goes_del hs hkey ⟨rfl, haction⟩ rfl rfl

/-- Only the lease of the session is another one. -/
theorem goes_claimUntil (hs : s.WellFormed sha256) (hkey : s.session? id = some key) (claimUntil : ℤ)
    (ht : t.sessions = (s.keep key { key.value with claimUntil := some claimUntil }).sessions)
    (hpast : t.past = s.past) : Goes sha256 mayGo s t := by
  obtain hid := key_of_get? hkey
  obtain ⟨hpaired, hbound⟩ := hs _ _ hkey
  exact goes_kept hs (hid ▸ hkey) { key.value with claimUntil := some claimUntil } rfl
    ⟨⟨hpaired.claim, hpaired.confirmation⟩, hbound⟩ ht hpast

theorem goes_defer (hs : s.WellFormed sha256) (claim : ConnectSessionClaim) :
    Goes sha256 mayGo s (defer s now claim).1 := by
  unfold defer
  split
  · exact goes_same hs rfl rfl
  split
  · exact ⟨hs, .refl⟩
  · rename_i key howned
    exact goes_claimUntil hs (owned_some howned).1 now rfl rfl

theorem goes_renew (hs : s.WellFormed sha256) (claim : ConnectSessionClaim) (visibilityTimeoutMs : Option ℚ) :
    Goes sha256 mayGo s (renew s now claim visibilityTimeoutMs).1 := by
  unfold renew
  split
  · exact ⟨hs, .refl⟩
  · rename_i key howned
    exact goes_claimUntil hs (owned_some howned).1 _ rfl rfl

theorem turned_same : value.turned.cancelRequested = value.cancelRequested ∧
    value.turned.handedOff = value.handedOff ∧
    value.turned.confirmSearchId = value.confirmSearchId ∧
    value.turned.confirmCreatedAt = value.confirmCreatedAt ∧
    value.turned.origin = value.origin := by
  unfold Value.turned
  split <;> exact ⟨rfl, rfl, rfl, rfl, rfl⟩

theorem turned_confirm (h : value.turned.claimAction = some .confirm) :
    value.cancelRequested = false ∧ value.claimAction = some .confirm := by
  unfold Value.turned at h
  split at h
  · cases h
  · rename_i hrequested
    exact ⟨Bool.eq_false_iff.2 hrequested, h⟩

theorem turned_cancel (h : value.turned.claimAction = some .cancel) :
    value.cancelRequested = true ∨ value.claimAction = some .cancel := by
  unfold Value.turned at h
  split at h
  · exact .inl (by assumption)
  · exact .inr h

theorem gives_reclaimScript (hs : s.WellFormed sha256) (connectId : ℕ) (leaseUntil : ℤ) :
    Gives sha256 mayGo s connectId (reclaimScript s connectId now s.past.fresh leaseUntil) := by
  have hzrem : Goes sha256 mayGo s (s.zrem connectId) := goes_same hs rfl rfl
  unfold reclaimScript
  split
  · exact hzrem
  rename_i key hkey
  obtain rfl := key_of_get? hkey
  obtain ⟨hpaired, hbound⟩ := hs _ _ hkey
  split
  · exact hzrem
  rename_i htoken
  split
  · exact ⟨hs, .refl⟩
  split
  · exact hzrem
  rename_i haction
  rw [Option.isNone_iff_eq_none, ← ne_eq, Option.ne_none_iff_exists'] at htoken haction
  obtain ⟨token, htoken⟩ := htoken
  obtain ⟨action, haction⟩ := haction
  obtain ⟨hrequested, hoff, hsearch, hcreated, horigin⟩ :
    key.value.turned.cancelRequested = _ ∧ _ := turned_same
  intro session given
  refine goes_leased hs key hkey
    { key.value.turned with claimToken := some s.past.fresh, claimUntil := some leaseUntil }
    ⟨⟨?_, ?_⟩, bound_of horigin hbound⟩ rfl haction hrequested hoff (.inr hsearch)
    (fun hconfirm claim hclaim => ?_) (fun hcancel => ?_) session given rfl rfl
  · show true = key.value.turned.claimAction.isSome
    rw [haction]
    rfl
  · show key.value.turned.confirmSearchId.isSome = key.value.turned.confirmCreatedAt.isSome
    rw [hsearch, hcreated, hpaired.confirmation]
  · obtain ⟨hnot, hconfirm⟩ := turned_confirm (hconfirm ▸ haction)
    have hholder : key.value.life.holder = some (token, .confirm) := by
      simp only [Value.life, htoken, hconfirm, Option.bind_eq_bind, Option.bind_some]
    exact ⟨hnot, .inl ⟨token, hholder⟩, .inr ⟨hclaim.trans hsearch, token, hholder⟩⟩
  · rcases turned_cancel (hcancel ▸ haction) with hnot | hheld
    · exact .inl hnot
    · refine .inr ⟨token, ?_⟩
      simp only [Value.life, htoken, hheld, Option.bind_eq_bind, Option.bind_some]

theorem goes_claimExpired (hs : s.WellFormed sha256) (sweep : Sweep) (visibilityTimeoutMs : Option ℚ) :
    Goes sha256 mayGo s (claimExpired sha256 s now sweep visibilityTimeoutMs).1 := by
  have hgives : Gives sha256 mayGo s sweep.connectId (reclaimScript s sweep.connectId now s.past.fresh
      (now + positiveVisibility visibilityTimeoutMs)) := gives_reclaimScript hs _ _
  unfold claimExpired
  generalize reclaimScript s sweep.connectId now s.past.fresh
    (now + positiveVisibility visibilityTimeoutMs) = out at hgives
  obtain ⟨t, reply⟩ := out
  cases reply with
  | none => exact hgives
  | some w =>
    dsimp only
    cases hsession : parseStoredSession sha256 sweep.decrypts w with
    | none => exact hgives w.encryptedSession false
    | some session => exact hgives session true

theorem goes_register (hs : s.WellFormed sha256) {connectId : ℕ} (hnew : connectId ∉ s.past.used)
    {session : DurableConnectSession} {deadline : ℤ} (hdeadline : session.expiresAt = some deadline)
    (ht : t.sessions = (s.register connectId (newValue sha256 session) deadline).sessions)
    (hpast : t.past = (s.register connectId (newValue sha256 session) deadline).past) :
    Goes sha256 mayGo s t :=
  goes_write hs ⟨connectId, newValue sha256 session, deadline⟩ ⟨⟨rfl, rfl⟩, rfl, hdeadline⟩ ht
    fun hwrites => .opened connectId hnew hwrites hpast

theorem goes_putSession (hs : s.WellFormed sha256) {connectId : ℕ} (hnew : connectId ∉ s.past.used)
    (session : DurableConnectSession) : Goes sha256 mayGo s (putSession sha256 s now connectId session) := by
  unfold putSession
  split
  · exact ⟨hs, .refl⟩
  rename_i deadline hdeadline
  split
  · exact ⟨hs, .refl⟩
  dsimp only
  split
  · unfold putIndexed
    split
    · exact ⟨hs, .refl⟩
    · exact goes_register hs hnew hdeadline rfl rfl
  · exact goes_register hs hnew hdeadline rfl rfl

theorem goes_expire (hs : s.WellFormed sha256) (connectId : ℕ) :
    Goes sha256 (fun j => ∃ session, (registry sha256 warm).session s j = some session ∧
      session.expired now = true) s (expire s now connectId) := by
  unfold expire
  split
  · exact ⟨hs, .refl⟩
  rename_i key hkey
  split
  · rename_i hdeadline
    refine goes_del hs hkey ⟨key.value.encryptedSession, ?_, ?_⟩ rfl rfl
    · exact congrArg (Option.map fun key : SessionKey => key.value.encryptedSession) hkey
    · rw [DurableConnectSession.expired, (hs _ _ hkey).bound.2, Option.any_some]
      exact decide_eq_true hdeadline
  · exact ⟨hs, .refl⟩

theorem markConsentRevoked_same (sha256 : String → String) (s : State) (now : ℤ)
    (consentId tenantId : String) (ttlMs : ℤ) :
    (markConsentRevoked sha256 s now consentId tenantId ttlMs).sessions = s.sessions ∧
      (markConsentRevoked sha256 s now consentId tenantId ttlMs).indexes = s.indexes ∧
      (markConsentRevoked sha256 s now consentId tenantId ttlMs).past = s.past := by
  unfold markConsentRevoked
  split <;> exact ⟨rfl, rfl, rfl⟩

theorem wellFormed_empty : State.WellFormed sha256 empty := by
  intro id key h
  simp only [State.session?, empty] at h
  cases h

theorem lawful : Lawful (registry sha256 warm) empty (State.WellFormed sha256) where
  empty := ⟨wellFormed_empty, rfl, fun _ => rfl⟩
  moves s call s' hs hs' := by
    have hgoes : Goes sha256 (LeavesBy (registry sha256 warm) s call) s s' := by
      cases call with
      | put now connectId session =>
        simp only [step] at hs'
        split at hs'
        · cases hs'
        · rename_i hnew
          obtain rfl := Option.some.inj hs'
          exact goes_putSession hs hnew session
      | claim now principal request =>
        obtain rfl := Option.some.inj hs'
        exact goes_claimAuthorized hs _
      | claimForSystem now request =>
        obtain rfl := Option.some.inj hs'
        exact goes_claimAuthorized hs _
      | ack now claim =>
        obtain ⟨-, rfl⟩ := Option.ite_some_none_eq_some.1 hs'
        exact goes_ack hs claim
      | defer now claim =>
        obtain ⟨-, rfl⟩ := Option.ite_some_none_eq_some.1 hs'
        exact goes_defer hs claim
      | renew now claim visibilityTimeoutMs =>
        obtain ⟨-, rfl⟩ := Option.ite_some_none_eq_some.1 hs'
        exact goes_renew hs claim _
      | claimState claim =>
        obtain ⟨-, rfl⟩ := Option.ite_some_none_eq_some.1 hs'
        exact ⟨hs, .refl⟩
      | claimExpired now sweep visibilityTimeoutMs =>
        obtain rfl := Option.some.inj hs'
        exact goes_claimExpired hs sweep _
      | markConsentRevoked now consentId tenantId ttlMs =>
        obtain rfl := Option.some.inj hs'
        have hsame := markConsentRevoked_same sha256 s now consentId tenantId ttlMs
        exact goes_same hs hsame.1 hsame.2.2
      | expire now connectId =>
        obtain rfl := Option.some.inj hs'
        exact goes_expire hs connectId
    exact ⟨hgoes.wellFormed, hgoes.moves⟩

end Lives

end CatalogSentinel.Connect.Redis
