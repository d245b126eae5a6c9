import CatalogSentinel.Connect.Memory
import CatalogSentinel.Connect.RedisOperations

/-!
A session as both registries keep it. In memory a lease ends with the session at the latest,
and on Redis it does not, which is the same while the session is there. Each operation on a
session answers the same on both, and leaves the same session on both.
-/

namespace CatalogSentinel.Connect

open CatalogSentinel.Data

/-- A lease, by the operation that gave it out. -/
structure Lease where
  operation : ℕ
  action : ConnectSessionAction
  leaseUntil : ℤ
  deriving DecidableEq

/-- A session that can be read back from Redis. -/
def DurableConnectSession.Readable (session : DurableConnectSession) : Prop :=
  session.ownerUserId ≠ "" ∧ session.artistWorkspaceId ≠ ""

instance (session : DurableConnectSession) : Decidable session.Readable := inferInstanceAs (Decidable (_ ∧ _))

/-- A session that is there until its deadline. -/
structure Handoff where
  session : DurableConnectSession
  deadline : ℤ
  lease : Option Lease
  confirmation : Option ConnectConfirmationWork
  cancelRequested : Bool
  handedOff : Bool
  expires : session.expiresAt = some deadline

namespace Handoff

section Views

variable (sha256 : String → String) (tokens : Tokens) (connectId : ℕ) (h : Handoff)

def held (lease : Lease) : InMemory.HeldClaim :=
  ⟨tokens.claim lease.operation connectId, lease.action, some (min h.deadline lease.leaseUntil)⟩

def record : InMemory.Record :=
  ⟨connectId, h.session, h.lease.map (h.held tokens connectId), h.confirmation, h.cancelRequested, h.handedOff⟩

def value : Redis.Value :=
  { Redis.newValue sha256 h.session with
    cancelRequested := h.cancelRequested
    handedOff := h.handedOff
    claimToken := h.lease.map fun lease => tokens.claim lease.operation connectId
    claimAction := h.lease.map Lease.action
    claimUntil := h.lease.map Lease.leaseUntil
    confirmSearchId := h.confirmation.map ConnectConfirmationWork.searchId
    confirmCreatedAt := h.confirmation.map ConnectConfirmationWork.createdAt }

def key : Redis.SessionKey := ⟨connectId, h.value sha256 tokens connectId, h.deadline⟩

/-- The claim that the lease is of, under the number of its operation. -/
def claim (lease : Lease) : ConnectSessionClaim :=
  ⟨connectId, lease.operation, lease.action, h.session, h.confirmation⟩

end Views

/-- `if (action === 'cancel') record.cancelRequested = true` -/
def requested (h : Handoff) (action : ConnectSessionAction) : Handoff :=
  if action = .cancel then { h with cancelRequested := true } else h

def rewarmed (h : Handoff) (action : ConnectSessionAction) : Handoff :=
  if h.handedOff ∧ action = .confirm then { h with handedOff := false, confirmation := none } else h

variable {sha256 : String → String} {tokens : Tokens} {connectId : ℕ} (h : Handoff)

theorem record_requested (action : ConnectSessionAction) :
    (h.record tokens connectId).requested action = (h.requested action).record tokens connectId := by
  unfold InMemory.Record.requested requested
  split <;> rfl

theorem value_requested (action : ConnectSessionAction) :
    (h.value sha256 tokens connectId).requested action =
      (h.requested action).value sha256 tokens connectId := by
  unfold Redis.Value.requested requested
  split <;> rfl

theorem record_rewarmed (action : ConnectSessionAction) :
    (h.record tokens connectId).rewarmed action = (h.rewarmed action).record tokens connectId := by
  unfold InMemory.Record.rewarmed rewarmed
  have hoff : (h.record tokens connectId).handedOff = h.handedOff := rfl
  rw [hoff]
  split <;> rfl

theorem value_rewarmed (action : ConnectSessionAction) :
    (h.value sha256 tokens connectId).rewarmed action =
      (h.rewarmed action).value sha256 tokens connectId := by
  unfold Redis.Value.rewarmed rewarmed
  have hoff : (h.value sha256 tokens connectId).handedOff = h.handedOff := rfl
  rw [hoff]
  split <;> rfl

@[simp] theorem requested_session (action : ConnectSessionAction) :
    (h.requested action).session = h.session := by
  unfold requested
  split <;> rfl

@[simp] theorem requested_deadline (action : ConnectSessionAction) :
    (h.requested action).deadline = h.deadline := by
  unfold requested
  split <;> rfl

@[simp] theorem requested_lease (action : ConnectSessionAction) : (h.requested action).lease = h.lease := by
  unfold requested
  split <;> rfl

@[simp] theorem rewarmed_session (action : ConnectSessionAction) :
    (h.rewarmed action).session = h.session := by
  unfold rewarmed
  split <;> rfl

@[simp] theorem rewarmed_deadline (action : ConnectSessionAction) :
    (h.rewarmed action).deadline = h.deadline := by
  unfold rewarmed
  split <;> rfl

@[simp] theorem rewarmed_lease (action : ConnectSessionAction) : (h.rewarmed action).lease = h.lease := by
  unfold rewarmed
  split <;> rfl

/-- The clamped lease is over when the lease is, as long as the session is there. -/
theorem over_iff {now : ℤ} (hlive : now < h.deadline) (lease : Lease) :
    min h.deadline lease.leaseUntil ≤ now ↔ lease.leaseUntil ≤ now := by
  omega

theorem parse_value (hread : h.session.Readable) :
    Redis.parseStoredSession sha256 true (h.value sha256 tokens connectId) = some h.session := by
  simp [Redis.parseStoredSession, value, Redis.newValue, hread.1, hread.2]

theorem storedClaim_value {lease : Lease} (hlease : h.lease = some lease) :
    Redis.storedClaim connectId h.session (h.value sha256 tokens connectId) =
      some ((h.claim connectId lease).drawn tokens) := by
  cases hconfirmation : h.confirmation <;>
    simp [Redis.storedClaim, value, hlease, hconfirmation, claim, ConnectSessionClaim.drawn]

end Handoff

/-! ### Claims -/

variable {sha256 : String → String} {memory redis : Tokens} {texts : Set String} {warm : Bool}

def ownerText (tenantId ownerUserId : String) : String := tenantId ++ "\x00" ++ ownerUserId

def ConnectSessionClaimResult.drawn (tokens : Tokens) : ConnectSessionClaimResult → ConnectSessionClaimResult
  | .claimed claim => .claimed (claim.drawn tokens)
  | result => result

theorem sameResult_drawn (result : ConnectSessionClaimResult) :
    SameResult memory redis (result.drawn memory) (result.drawn redis) := by
  cases result with
  | claimed claim => exact .claimed ⟨claim, rfl, rfl⟩
  | busy => exact .busy
  | notFound => exact .notFound
  | ownershipMismatch => exact .ownershipMismatch
  | failed message => exact .failed message

theorem ownerDigest_eq_iff (hsha : Set.InjOn sha256 texts) {tenantId a b : String}
    (ha : ownerText tenantId a ∈ texts) (hb : ownerText tenantId b ∈ texts) :
    Redis.ownerDigest sha256 tenantId a = Redis.ownerDigest sha256 tenantId b ↔ a = b := by
  constructor
  · intro h
    have happend := congrArg String.toList (hsha ha hb h)
    simp only [ownerText, String.toList_append] at happend
    exact String.toList_inj.1 (List.append_cancel_left happend)
  · rintro rfl
    rfl

namespace Handoff

section Fields

variable {tokens : Tokens} {connectId : ℕ} (h : Handoff)

@[simp] theorem record_session : (h.record tokens connectId).session = h.session := rfl
@[simp] theorem record_confirmation : (h.record tokens connectId).confirmation = h.confirmation := rfl
@[simp] theorem record_cancelRequested : (h.record tokens connectId).cancelRequested = h.cancelRequested := rfl
@[simp] theorem record_handedOff : (h.record tokens connectId).handedOff = h.handedOff := rfl
@[simp] theorem key_value : (h.key sha256 tokens connectId).value = h.value sha256 tokens connectId := rfl
@[simp] theorem value_tenantId : (h.value sha256 tokens connectId).tenantId = h.session.tenantId := rfl
@[simp] theorem value_cancelRequested : (h.value sha256 tokens connectId).cancelRequested = h.cancelRequested := rfl
@[simp] theorem value_handedOff : (h.value sha256 tokens connectId).handedOff = h.handedOff := rfl
@[simp] theorem value_confirmSearchId : (h.value sha256 tokens connectId).confirmSearchId =
    h.confirmation.map ConnectConfirmationWork.searchId := rfl

end Fields

/-- A principal confirms what it owns, and cancels what it owns or what is in its tenant. -/
def mayClaim (h : Handoff) (request : ClaimRequest) : Bool :=
  request.principal.all fun principal =>
    h.session.ownerUserId = principal.actorUserId || (request.action = .cancel && principal.allowTenantAdmin)

def leasedAt (h : Handoff) (now : ℤ) : Bool := h.lease.any fun lease => now < lease.leaseUntil

def granted (h : Handoff) (lease : Lease) (connectId : ℕ) : Handoff × ConnectSessionClaimResult :=
  ({ h with lease := some lease }, .claimed (h.claim connectId lease))

/-- A claim, as both registries have it. -/
def claimed (h : Handoff) (warm : Bool) (number : ℕ) (now : ℤ) (request : ClaimRequest) :
    Handoff × ConnectSessionClaimResult :=
  if h.session.tenantId ≠ request.tenantId then (h, .ownershipMismatch)
  else if !h.mayClaim request then (h, .ownershipMismatch)
  else
    let g := h.requested request.action
    if g.handedOff ∧ request.action = .confirm ∧ (!warm || g.cancelRequested) then (h, .notFound)
    else
      let g := g.rewarmed request.action
      if g.leasedAt now then (g, .busy)
      else
        let action := if g.cancelRequested then .cancel else request.action
        let lease := ⟨number, action, now + positiveVisibility request.visibilityTimeoutMs⟩
        if action = .confirm ∧ g.confirmation = none then
          match request.confirmation with
          | none => (h, .failed "confirmation claim requires stable search work")
          | some work => granted { g with confirmation := some work } lease request.connectId
        else granted g lease request.connectId

/-- A claim is on the same session. -/
theorem claimed_session (h : Handoff) (number : ℕ) (now : ℤ) (request : ClaimRequest) :
    (h.claimed warm number now request).1.session = h.session := by
  unfold claimed
  split
  · rfl
  split
  · rfl
  dsimp only
  split
  · rfl
  split
  · simp
  generalize (if ((h.requested request.action).rewarmed request.action).cancelRequested = true then
    ConnectSessionAction.cancel else request.action) = action
  split
  · cases request.confirmation <;> simp [granted]
  · simp [granted]

variable (h : Handoff) {tokens : Tokens} (connectId : ℕ) {now : ℤ} {request : ClaimRequest}

theorem mayClaim_record :
    InMemory.mayClaim (h.record tokens connectId) request = h.mayClaim request := by
  cases hp : request.principal with
  | none => simp [InMemory.mayClaim, mayClaim, hp]
  | some p =>
    rw [Bool.eq_iff_iff]
    cases haction : request.action <;>
      simp only [InMemory.mayClaim, mayClaim, hp, haction, Option.all_some, Bool.or_eq_true, Bool.and_eq_true,
        decide_eq_true_eq] <;>
      simp

theorem mayClaim_value (hsha : Set.InjOn sha256 texts)
    (howner : ownerText h.session.tenantId h.session.ownerUserId ∈ texts)
    (htenant : h.session.tenantId = request.tenantId)
    (hprincipal : ∀ p ∈ request.principal, p.tenantId = request.tenantId ∧
      ownerText p.tenantId p.actorUserId ∈ texts) (r : Redis.State) :
    (Redis.ClaimRequest.script sha256 warm r now request).mayClaim (h.value sha256 redis connectId) =
      h.mayClaim request := by
  cases hp : request.principal with
  | none => simp [Redis.ClaimScript.mayClaim, Redis.ClaimRequest.script, mayClaim, hp]
  | some p =>
    obtain ⟨hsame, hactor⟩ := hprincipal p hp
    have hdigest : Redis.ownerDigest sha256 h.session.tenantId h.session.ownerUserId =
        Redis.ownerDigest sha256 p.tenantId p.actorUserId ↔ h.session.ownerUserId = p.actorUserId := by
      rw [htenant, ← hsame] at howner ⊢
      exact ownerDigest_eq_iff hsha howner hactor
    rw [Bool.eq_iff_iff]
    simp [mayClaim, Redis.ClaimScript.mayClaim, Redis.ClaimRequest.script, hp, hdigest, value, Redis.newValue]

theorem busy_record (hlive : now < h.deadline) :
    ((h.record tokens connectId).claim.any fun held => held.leaseUntil.any fun t => now < t) = h.leasedAt now := by
  cases hlease : h.lease with
  | none => simp [record, leasedAt, hlease]
  | some lease => simp [record, leasedAt, held, hlease, hlive]

theorem busy_value :
    ((h.value sha256 tokens connectId).claimToken.isSome = true ∧
      now < (h.value sha256 tokens connectId).claimUntil.getD 0) ↔ h.leasedAt now = true := by
  cases hlease : h.lease <;> simp [value, leasedAt, hlease]

/-- The claim would take the search that it brings: it confirms a session that it may claim,
and that is not leased, cancelled, handed off for good, or confirmed for a search already. -/
def takesSearch (h : Handoff) (warm : Bool) (now : ℤ) (request : ClaimRequest) : Bool :=
  h.session.tenantId = request.tenantId && h.mayClaim request && request.action = .confirm &&
    !h.cancelRequested && (!h.handedOff || warm) && !h.leasedAt now && (h.handedOff || h.confirmation.isNone)

/-- The claim would give the session out, were it not for the search that it may have to bring. -/
def grants (h : Handoff) (warm : Bool) (now : ℤ) (request : ClaimRequest) : Bool :=
  h.session.tenantId = request.tenantId && h.mayClaim request &&
    !(h.handedOff && request.action = .confirm && (!warm || h.cancelRequested)) && !h.leasedAt now

/-- A search that is named, or none for a session that was not handed off. -/
def brings (h : Handoff) : Option ConnectConfirmationWork → Bool
  | some work => work.searchId ≠ "" && work.createdAt ≠ ""
  | none => !h.handedOff

theorem confirms_of {g : Handoff} {asked : ConnectSessionAction}
    (h : (if g.cancelRequested = true then ConnectSessionAction.cancel else asked) = .confirm) :
    g.cancelRequested = false ∧ asked = .confirm := by
  split at h
  · cases h
  · rename_i hrequested
    exact ⟨Bool.eq_false_iff.2 hrequested, h⟩

@[simp] theorem requested_confirm : h.requested .confirm = h := rfl

/-- Where a claim has come to take a search, it takes it. -/
theorem takesSearch_of (htenant : ¬ h.session.tenantId ≠ request.tenantId) (hmay : ¬ (!h.mayClaim request) = true)
    (hoff : ¬ ((h.requested request.action).handedOff = true ∧ request.action = .confirm ∧
      (!warm || (h.requested request.action).cancelRequested) = true))
    {g : Handoff} (hg : (h.requested request.action).rewarmed request.action = g)
    (hbusy : ¬ g.leasedAt now = true) {action : ConnectSessionAction}
    (haction : (if g.cancelRequested = true then ConnectSessionAction.cancel else request.action) = action)
    (hnew : action = .confirm ∧ g.confirmation = none) :
    h.takesSearch warm now request = true ∧ (h.handedOff = false → g = h) := by
  obtain ⟨hrequested, hconfirm⟩ := confirms_of (haction.trans hnew.1)
  rw [hconfirm, requested_confirm] at hg hoff
  subst hg
  rw [rewarmed] at hrequested hbusy hnew ⊢
  cases hhanded : h.handedOff <;> simp_all [takesSearch, leasedAt]

/-- Where a claim has come past a lease, it gives the session out. -/
theorem grants_of (htenant : ¬ h.session.tenantId ≠ request.tenantId) (hmay : ¬ (!h.mayClaim request) = true)
    (hoff : ¬ ((h.requested request.action).handedOff = true ∧ request.action = .confirm ∧
      (!warm || (h.requested request.action).cancelRequested) = true))
    {g : Handoff} (hlease : g.lease = h.lease) (hbusy : ¬ g.leasedAt now = true) :
    h.grants warm now request = true := by
  have hbusy' : h.leasedAt now = false := by simpa [leasedAt, hlease] using hbusy
  have hkept : (h.handedOff && request.action = .confirm && (!warm || h.cancelRequested)) = false := by
    by_contra hkept
    simp only [Bool.not_eq_false, Bool.and_eq_true, decide_eq_true_eq] at hkept
    obtain ⟨⟨hhanded, hconfirm⟩, hcold⟩ := hkept
    rw [hconfirm, requested_confirm] at hoff
    exact hoff ⟨hhanded, rfl, hcold⟩
  simp only [ne_eq, not_not, Bool.not_eq_true', Bool.not_eq_false] at htenant hmay
  simp [grants, htenant, hmay, hbusy', hkept]

/-- In memory a lease is written with the record. -/
theorem lease_record (tokens : Tokens) (now : ℤ) (n : ℕ) (s : InMemory.State)
    (visibilityTimeoutMs : Option ℚ) (action : ConnectSessionAction) :
    let lease : Lease := ⟨n, action, now + positiveVisibility visibilityTimeoutMs⟩
    let given := InMemory.lease (s.draw (tokens.claim n connectId)) now visibilityTimeoutMs
      (h.record tokens connectId) action
    given.1.records = put InMemory.Record.connectId ((h.granted lease connectId).1.record tokens connectId)
      s.records ∧ given.2 = (h.claim connectId lease).drawn tokens := by
  intro lease given
  have hheld : InMemory.HeldClaim.mk (tokens.claim n connectId) action
      (InMemory.leaseOf h.session now visibilityTimeoutMs) = h.held tokens connectId lease := by
    simp [InMemory.leaseOf, h.expires, held, lease]
  have hgiven : given = InMemory.lease (s.draw (tokens.claim n connectId)) now visibilityTimeoutMs
      (h.record tokens connectId) action := rfl
  rw [InMemory.lease] at hgiven
  simp only [record_session] at hgiven
  have hfresh : (s.draw (tokens.claim n connectId)).past.fresh = tokens.claim n connectId := rfl
  rw [hfresh, hheld] at hgiven
  rw [hgiven]
  exact ⟨rfl, rfl⟩

end Handoff

variable {s : InMemory.State} {r : Redis.State} {now : ℤ} {h : Handoff}

/-- What a claim in memory does to a session that is there. -/
theorem InMemory.claimAuthorized_handoff (number : ℕ) (request : ClaimRequest)
    (hc : s.record? request.connectId = some (h.record memory request.connectId)) (hlive : now < h.deadline)
    (hbrings : h.takesSearch warm now request = true → h.brings request.confirmation = true) :
    let out := claimAuthorized warm (s.draw (memory.claim number request.connectId)) now request
    let done := h.claimed warm number now request
    out.1.records = put Record.connectId (done.1.record memory request.connectId) s.records ∧
      out.2 = done.2.drawn memory := by
  intro out done
  have hsame : put Record.connectId (h.record memory request.connectId) s.records = s.records := put_of_get? hc
  have hrecord : ((s.draw (memory.claim number request.connectId)).record? request.connectId).filter
      (fun record => !record.session.expired now) = some (h.record memory request.connectId) := by
    have hdrawn : (s.draw (memory.claim number request.connectId)).record? request.connectId =
      some (h.record memory request.connectId) := hc
    simp [hdrawn, DurableConnectSession.expired, h.expires, hlive]
  have hout : out = claimAuthorized warm (s.draw (memory.claim number request.connectId)) now request := rfl
  have hdone : done = h.claimed warm number now request := rfl
  rw [claimAuthorized, hrecord] at hout
  rw [Handoff.claimed] at hdone
  simp only [Handoff.record_session, h.mayClaim_record, h.record_requested, Handoff.record_rewarmed,
    Handoff.record_handedOff, Handoff.record_cancelRequested, Handoff.record_confirmation] at hout
  split at hout
  · rename_i htenant
    rw [if_pos htenant] at hdone
    rw [hout, hdone]
    exact ⟨hsame.symm, rfl⟩
  rename_i htenant
  rw [if_neg htenant] at hdone
  split at hout
  · rename_i hmay
    rw [if_pos hmay] at hdone
    rw [hout, hdone]
    exact ⟨hsame.symm, rfl⟩
  rename_i hmay
  rw [if_neg hmay] at hdone
  dsimp only at hout hdone
  split at hout
  · rename_i hoff
    rw [if_pos hoff] at hdone
    rw [hout, hdone]
    exact ⟨hsame.symm, rfl⟩
  rename_i hoff
  rw [if_neg hoff] at hdone
  have hlive' : now < ((h.requested request.action).rewarmed request.action).deadline := by simpa using hlive
  generalize hg : (h.requested request.action).rewarmed request.action = g at hout hdone hlive'
  rw [g.busy_record request.connectId hlive'] at hout
  split at hout
  · rename_i hbusy
    rw [if_pos hbusy] at hdone
    rw [hout, hdone]
    exact ⟨rfl, rfl⟩
  rename_i hbusy
  rw [if_neg hbusy] at hdone
  generalize haction : (if g.cancelRequested = true then ConnectSessionAction.cancel else request.action) = action
    at hout hdone
  split at hout
  · rename_i hnew
    rw [if_pos hnew] at hdone
    cases hconfirmation : request.confirmation with
    | none =>
      obtain ⟨htakes, hsame'⟩ := h.takesSearch_of htenant hmay hoff hg hbusy haction hnew
      have hcold : h.handedOff = false := by simpa [hconfirmation, Handoff.brings] using hbrings htakes
      rw [hconfirmation] at hout hdone
      rw [hout, hdone, hsame' hcold]
      exact ⟨rfl, rfl⟩
    | some work =>
      rw [hconfirmation] at hout hdone
      obtain ⟨hrecords, hclaim⟩ := Handoff.lease_record { g with confirmation := some work } request.connectId
        memory now number s request.visibilityTimeoutMs action
      rw [hout, hdone]
      exact ⟨hrecords, congrArg ConnectSessionClaimResult.claimed hclaim⟩
  · rename_i hold
    rw [if_neg hold] at hdone
    obtain ⟨hrecords, hclaim⟩ := g.lease_record request.connectId memory now number s
      request.visibilityTimeoutMs action
    rw [hout, hdone]
    exact ⟨hrecords, congrArg ConnectSessionClaimResult.claimed hclaim⟩

/-- A session is written on Redis over the one that is there. -/
theorem Redis.keep_sessions {c : ℕ} {g : Handoff} (hdeadline : g.deadline = h.deadline) :
    (r.keep (h.key sha256 redis c) (g.value sha256 redis c)).sessions =
      put SessionKey.connectId (g.key sha256 redis c) r.sessions := by
  show put _ _ _ = put _ _ _
  rw [Handoff.key, Handoff.key, ← hdeadline]

/-- What a claim on Redis does to a session that is there. -/
theorem Redis.claimAuthorized_handoff (hsha : Set.InjOn sha256 texts) (number : ℕ) (request : ClaimRequest)
    (hdecrypts : request.decrypts = true)
    (hprincipal : ∀ p ∈ request.principal, p.tenantId = request.tenantId ∧
      ownerText p.tenantId p.actorUserId ∈ texts)
    (hkey : r.session? request.connectId = some (h.key sha256 redis request.connectId))
    (howner : ownerText h.session.tenantId h.session.ownerUserId ∈ texts)
    (hbrings : h.takesSearch warm now request = true → h.brings request.confirmation = true)
    (hreads : h.grants warm now request = true → h.session.Readable) :
    let out := claimAuthorized sha256 warm (r.draw (redis.claim number request.connectId)) now request
    let done := h.claimed warm number now request
    out.1.sessions = put SessionKey.connectId (done.1.key sha256 redis request.connectId) r.sessions ∧
      out.2 = done.2.drawn redis ∧
      ((out.1.claims = r.claims ∧ done.1.lease = h.lease) ∨ ∃ lease, done.1.lease = some lease ∧
        out.1.claims = put Prod.fst (request.connectId, lease.leaseUntil) r.claims) := by
  intro out done
  have hsame : put SessionKey.connectId (h.key sha256 redis request.connectId) r.sessions = r.sessions :=
    put_of_get? hkey
  obtain ⟨a, ha⟩ : ∃ a, ClaimRequest.script sha256 warm (r.draw (redis.claim number request.connectId)) now
    request = a := ⟨_, rfl⟩
  have hkey' : (r.draw (redis.claim number request.connectId)).session? a.connectId =
      some (h.key sha256 redis request.connectId) := by
    rw [← ha]
    exact hkey
  have htenantId : a.tenantId = request.tenantId := ha ▸ rfl
  have haction : a.action = request.action := ha ▸ rfl
  have hreuse : a.reuseWarmSessions = warm := ha ▸ rfl
  have hnow : a.now = now := ha ▸ rfl
  have hout : out = claimAuthorized sha256 warm (r.draw (redis.claim number request.connectId)) now request := rfl
  have hdone : done = h.claimed warm number now request := rfl
  rw [claimAuthorized, ha, claimScript, hkey'] at hout
  rw [Handoff.claimed] at hdone
  simp only [Handoff.key_value, Handoff.value_tenantId, htenantId, haction, hreuse, hnow, h.value_requested,
    Handoff.value_rewarmed, Handoff.value_handedOff, Handoff.value_cancelRequested] at hout
  by_cases htenant : h.session.tenantId ≠ request.tenantId
  · simp only [if_pos htenant] at hout hdone
    rw [hout, hdone]
    exact ⟨hsame.symm, rfl, .inl ⟨rfl, rfl⟩⟩
  simp only [if_neg htenant] at hout hdone
  have hmayClaim : a.mayClaim (h.value sha256 redis request.connectId) = h.mayClaim request := by
    rw [← ha]
    exact h.mayClaim_value request.connectId hsha howner (not_not.1 htenant) hprincipal _
  rw [hmayClaim] at hout
  by_cases hmay : (!h.mayClaim request) = true
  · simp only [if_pos hmay] at hout hdone
    rw [hout, hdone]
    exact ⟨hsame.symm, rfl, .inl ⟨rfl, rfl⟩⟩
  simp only [if_neg hmay] at hout hdone
  by_cases hoff : (h.requested request.action).handedOff = true ∧ request.action = .confirm ∧
      (!warm || (h.requested request.action).cancelRequested) = true
  · simp only [if_pos hoff] at hout hdone
    rw [hout, hdone]
    exact ⟨hsame.symm, rfl, .inl ⟨rfl, rfl⟩⟩
  simp only [if_neg hoff] at hout hdone
  have hdeadline : ((h.requested request.action).rewarmed request.action).deadline = h.deadline := by simp
  have hlease : ((h.requested request.action).rewarmed request.action).lease = h.lease := by simp
  have hsession : ((h.requested request.action).rewarmed request.action).session = h.session := by simp
  generalize hg : (h.requested request.action).rewarmed request.action = g at hout hdone hdeadline hlease hsession
  rw [if_congr (g.busy_value request.connectId) rfl rfl] at hout
  by_cases hbusy : g.leasedAt now = true
  · simp only [if_pos hbusy] at hout hdone
    rw [hout, hdone]
    exact ⟨keep_sessions hdeadline, rfl, .inl ⟨rfl, hlease⟩⟩
  simp only [if_neg hbusy] at hout hdone
  have hread : g.session.Readable := by
    rw [hsession]
    exact hreads (h.grants_of htenant hmay hoff hlease hbusy)
  generalize hturned : (if g.cancelRequested = true then ConnectSessionAction.cancel else request.action) = action
    at hout hdone
  by_cases hnew : action = .confirm ∧ g.confirmation = none
  · rw [if_pos hnew] at hdone
    obtain ⟨htakes, -⟩ := h.takesSearch_of htenant hmay hoff hg hbusy hturned hnew
    have hbring := hbrings htakes
    have hsearch : (g.value sha256 redis request.connectId).confirmSearchId = none := by simp [hnew.2]
    cases hconfirmation : request.confirmation with
    | none =>
      have hmissing : action = .confirm ∧ (g.value sha256 redis request.connectId).confirmSearchId = none ∧
          (a.confirmSearchId = "" ∨ a.confirmCreatedAt = "") := by
        refine ⟨hnew.1, hsearch, .inl ?_⟩
        simp [← ha, ClaimRequest.script, hconfirmation]
      simp only [if_pos hmissing] at hout
      rw [hconfirmation] at hdone
      rw [hout, hdone]
      exact ⟨hsame.symm, rfl, .inl ⟨rfl, rfl⟩⟩
    | some work =>
      have hnamed : ¬ (action = .confirm ∧ (g.value sha256 redis request.connectId).confirmSearchId = none ∧
          (a.confirmSearchId = "" ∨ a.confirmCreatedAt = "")) := by
        rintro ⟨-, -, hempty⟩
        simp only [hconfirmation, Handoff.brings, Bool.and_eq_true, decide_eq_true_eq, ne_eq] at hbring
        simp [← ha, ClaimRequest.script, hconfirmation, hbring] at hempty
      simp only [if_neg hnamed] at hout
      rw [hconfirmation] at hdone
      have hvalue : { (g.value sha256 redis request.connectId).adopted action a with
          claimToken := some a.token
          claimAction := some action
          claimUntil := some a.leaseUntil } = (Handoff.granted { g with confirmation := some work }
            ⟨number, action, now + positiveVisibility request.visibilityTimeoutMs⟩ request.connectId).1.value sha256
              redis request.connectId := by
        rw [Value.adopted, if_pos ⟨hnew.1, hsearch⟩]
        simp [← ha, ClaimRequest.script, hconfirmation, Handoff.value, Handoff.granted]
        rfl
      rw [hvalue, hdecrypts, Handoff.parse_value (Handoff.granted { g with confirmation := some work }
        ⟨number, action, now + positiveVisibility request.visibilityTimeoutMs⟩ request.connectId).1 hread] at hout
      dsimp only at hout
      rw [Handoff.storedClaim_value _ rfl] at hout
      rw [hout, hdone, ← ha]
      exact ⟨keep_sessions hdeadline, rfl, .inr ⟨_, rfl, rfl⟩⟩
  · rw [if_neg hnew] at hdone
    have hold : ¬ (action = .confirm ∧ (g.value sha256 redis request.connectId).confirmSearchId = none) := by
      simpa using hnew
    have hnamed : ¬ (action = .confirm ∧ (g.value sha256 redis request.connectId).confirmSearchId = none ∧
        (a.confirmSearchId = "" ∨ a.confirmCreatedAt = "")) := fun hno => hold ⟨hno.1, hno.2.1⟩
    simp only [if_neg hnamed] at hout
    have hvalue : { (g.value sha256 redis request.connectId).adopted action a with
        claimToken := some a.token
        claimAction := some action
        claimUntil := some a.leaseUntil } = (g.granted
          ⟨number, action, now + positiveVisibility request.visibilityTimeoutMs⟩ request.connectId).1.value sha256
            redis request.connectId := by
      rw [Value.adopted, if_neg hold, ← ha]
      rfl
    rw [hvalue, hdecrypts, Handoff.parse_value (g.granted
      ⟨number, action, now + positiveVisibility request.visibilityTimeoutMs⟩ request.connectId).1 hread] at hout
    dsimp only at hout
    rw [Handoff.storedClaim_value _ rfl] at hout
    rw [hout, hdone, ← ha]
    exact ⟨keep_sessions hdeadline, rfl, .inr ⟨_, rfl, rfl⟩⟩

end CatalogSentinel.Connect
