import CatalogSentinel.Connect.Handoffs

/-!
What the registry in memory and the registry on Redis have in common: each session is one
hand-off, and a session that is leased is in the sorted set of claims until its lease is over.
Every operation on a session answers the same on both and keeps this.
-/

namespace CatalogSentinel.Connect

open CatalogSentinel.Data

variable {sha256 : String → String} {memory redis : Tokens} {texts : Set String} {warm : Bool}

variable (sha256 memory redis texts) in
/-- What is kept of a session in memory, on Redis, and in the sorted set of claims there. -/
def AlikeAt (connectId : ℕ) (record? : Option InMemory.Record) (key? : Option Redis.SessionKey)
    (score? : Option (ℕ × ℤ)) : Prop :=
  ∃ handoff? : Option Handoff,
    record? = handoff?.map (Handoff.record memory connectId) ∧
    key? = handoff?.map (Handoff.key sha256 redis connectId) ∧
    ∀ h ∈ handoff?, ownerText h.session.tenantId h.session.ownerUserId ∈ texts ∧
      ∀ lease ∈ h.lease, score? = some (connectId, lease.leaseUntil)

variable (sha256 memory redis texts) in
structure SessionsAlike (s : InMemory.State) (r : Redis.State) : Prop where
  alike : ∀ c, AlikeAt sha256 memory redis texts c (s.record? c) (r.session? c) (get? Prod.fst c r.claims)
  records : (s.records.map InMemory.Record.connectId).Nodup
  sessions : (r.sessions.map Redis.SessionKey.connectId).Nodup
  claims : (r.claims.map Prod.fst).Nodup

/-- What no operation on a session touches. -/
def Redis.State.rest (r : Redis.State) : List Redis.IndexKey × List (String × ℤ) × List Redis.WorkKey × List (String × ℤ) :=
  (r.indexes, r.tombstones, r.work, r.due)

namespace SessionsAlike

variable {s s' : InMemory.State} {r r' : Redis.State} {c : ℕ} {h : Handoff}

theorem same (hs : SessionsAlike sha256 memory redis texts s r) (hrecords : s'.records = s.records)
    (hsessions : r'.sessions = r.sessions) (hclaims : r'.claims = r.claims) :
    SessionsAlike sha256 memory redis texts s' r' := by
  refine ⟨fun c => ?_, ?_, ?_, ?_⟩
  · simpa only [InMemory.State.record?, Redis.State.session?, hrecords, hsessions, hclaims] using hs.alike c
  · simpa only [hrecords] using hs.records
  · simpa only [hsessions] using hs.sessions
  · simpa only [hclaims] using hs.claims

/-- The records in another order. -/
theorem records_same (hs : SessionsAlike sha256 memory redis texts s r) (hrecord : s'.record? = s.record?)
    (hnodup : (s'.records.map InMemory.Record.connectId).Nodup) (hsessions : r'.sessions = r.sessions)
    (hclaims : r'.claims = r.claims) : SessionsAlike sha256 memory redis texts s' r' := by
  refine ⟨fun c => ?_, hnodup, ?_, ?_⟩
  · rw [hrecord, Redis.State.session?, hsessions, hclaims]
    exact hs.alike c
  · rw [hsessions]
    exact hs.sessions
  · rw [hclaims]
    exact hs.claims

theorem session?_none (hs : SessionsAlike sha256 memory redis texts s r) (hc : s.record? c = none) :
    r.session? c = none := by
  obtain ⟨handoff?, hrecord, hkey, -⟩ := hs.alike c
  rw [hc] at hrecord
  rw [hkey, Option.map_eq_none_iff.1 hrecord.symm, Option.map_none]

/-- The hand-off that a session is on both. -/
theorem handoff (hs : SessionsAlike sha256 memory redis texts s r) {record : InMemory.Record}
    (hc : s.record? c = some record) : ∃ h : Handoff, record = h.record memory c ∧
      r.session? c = some (h.key sha256 redis c) ∧
      ownerText h.session.tenantId h.session.ownerUserId ∈ texts ∧
      ∀ lease ∈ h.lease, get? Prod.fst c r.claims = some (c, lease.leaseUntil) := by
  obtain ⟨handoff?, hrecord, hkey, hrest⟩ := hs.alike c
  rw [hc] at hrecord
  obtain ⟨h, rfl, hh⟩ := Option.map_eq_some_iff.1 hrecord.symm
  exact ⟨h, hh.symm, hkey, hrest h rfl⟩

/-- A session is written on both, with the claims that `r'` has. -/
theorem write (hs : SessionsAlike sha256 memory redis texts s r) (h : Handoff)
    (howner : ownerText h.session.tenantId h.session.ownerUserId ∈ texts)
    (hrecords : s'.records = put InMemory.Record.connectId (h.record memory c) s.records)
    (hsessions : r'.sessions = put Redis.SessionKey.connectId (h.key sha256 redis c) r.sessions)
    (hclaims : (r'.claims.map Prod.fst).Nodup)
    (hscore : ∀ j, j ≠ c → get? Prod.fst j r'.claims = get? Prod.fst j r.claims)
    (hlease : ∀ lease ∈ h.lease, get? Prod.fst c r'.claims = some (c, lease.leaseUntil)) :
    SessionsAlike sha256 memory redis texts s' r' := by
  refine ⟨fun j => ?_, ?_, ?_, hclaims⟩
  · rw [InMemory.State.record?, Redis.State.session?, hrecords, hsessions]
    by_cases hj : j = c
    · subst hj
      refine ⟨some h, get?_put_self (h.record memory j) s.records,
        get?_put_self (h.key sha256 redis j) r.sessions, ?_⟩
      rintro x ⟨rfl⟩
      exact ⟨howner, hlease⟩
    · rw [get?_put_of_ne (Ne.symm hj), get?_put_of_ne (Ne.symm hj), hscore j hj]
      exact hs.alike j
  · rw [hrecords]
    exact nodup_put hs.records
  · rw [hsessions]
    exact nodup_put hs.sessions

/-- A session is written on both, and its lease with it. -/
theorem lease (hs : SessionsAlike sha256 memory redis texts s r) (h : Handoff) {lease : Lease}
    (hlease : h.lease = some lease) (howner : ownerText h.session.tenantId h.session.ownerUserId ∈ texts)
    (hrecords : s'.records = put InMemory.Record.connectId (h.record memory c) s.records)
    (hsessions : r'.sessions = put Redis.SessionKey.connectId (h.key sha256 redis c) r.sessions)
    (hclaims : r'.claims = put Prod.fst (c, lease.leaseUntil) r.claims) :
    SessionsAlike sha256 memory redis texts s' r' := by
  refine hs.write h howner hrecords hsessions ?_ (fun j hj => ?_) ?_
  · rw [hclaims]
    exact nodup_put hs.claims
  · rw [hclaims, get?_put_of_ne (Ne.symm hj)]
  · rw [hlease, hclaims]
    rintro x ⟨rfl⟩
    exact get?_put_self (c, lease.leaseUntil) r.claims

/-- A session is written on both, and its lease is as it was. -/
theorem keep (hs : SessionsAlike sha256 memory redis texts s r) (h : Handoff)
    (hlease : ∀ lease ∈ h.lease, get? Prod.fst c r.claims = some (c, lease.leaseUntil))
    (howner : ownerText h.session.tenantId h.session.ownerUserId ∈ texts)
    (hrecords : s'.records = put InMemory.Record.connectId (h.record memory c) s.records)
    (hsessions : r'.sessions = put Redis.SessionKey.connectId (h.key sha256 redis c) r.sessions)
    (hclaims : r'.claims = r.claims) : SessionsAlike sha256 memory redis texts s' r' := by
  refine hs.write h howner hrecords hsessions ?_ (fun j _ => ?_) ?_
  · rw [hclaims]
    exact hs.claims
  · rw [hclaims]
  · rw [hclaims]
    exact hlease

/-- A session is written on both that is not leased. -/
theorem release (hs : SessionsAlike sha256 memory redis texts s r) (h : Handoff) (hlease : h.lease = none)
    (howner : ownerText h.session.tenantId h.session.ownerUserId ∈ texts)
    (hrecords : s'.records = put InMemory.Record.connectId (h.record memory c) s.records)
    (hsessions : r'.sessions = put Redis.SessionKey.connectId (h.key sha256 redis c) r.sessions)
    (hclaims : r'.claims = erase Prod.fst c r.claims) : SessionsAlike sha256 memory redis texts s' r' := by
  refine hs.write h howner hrecords hsessions ?_ (fun j hj => ?_) ?_
  · rw [hclaims]
    exact nodup_erase hs.claims
  · rw [hclaims, get?_erase_of_ne hj]
  · simp [hlease]

/-- A session is gone on both. -/
theorem remove (hs : SessionsAlike sha256 memory redis texts s r)
    (hrecords : s'.records = erase InMemory.Record.connectId c s.records)
    (hsessions : r'.sessions = erase Redis.SessionKey.connectId c r.sessions)
    (hclaims : r'.claims = erase Prod.fst c r.claims) : SessionsAlike sha256 memory redis texts s' r' := by
  refine ⟨fun j => ?_, ?_, ?_, ?_⟩
  · rw [InMemory.State.record?, Redis.State.session?, hrecords, hsessions, hclaims]
    by_cases hj : j = c
    · subst hj
      exact ⟨none, get?_erase_self j s.records, get?_erase_self j r.sessions, by simp⟩
    · rw [get?_erase_of_ne hj, get?_erase_of_ne hj, get?_erase_of_ne hj]
      exact hs.alike j
  · rw [hrecords]
    exact nodup_erase hs.records
  · rw [hsessions]
    exact nodup_erase hs.sessions
  · rw [hclaims]
    exact nodup_erase hs.claims

/-- What is not there on either, is taken from the claims. -/
theorem zrem (hs : SessionsAlike sha256 memory redis texts s r) (hc : s.record? c = none ∨
      ∃ record, s.record? c = some record ∧ record.claim = none) :
    SessionsAlike sha256 memory redis texts s (r.zrem c) := by
  refine ⟨fun j => ?_, hs.records, hs.sessions, nodup_erase hs.claims⟩
  by_cases hj : j = c
  · subst hj
    obtain ⟨handoff?, hrecord, hkey, howner⟩ := hs.alike j
    refine ⟨handoff?, hrecord, hkey, fun h hh => ⟨(howner h hh).1, fun lease hlease => ?_⟩⟩
    rw [hrecord, Option.mem_def.1 hh, Option.map_some] at hc
    rcases hc with hc | ⟨record, hrecord', hclaim⟩
    · cases hc
    · obtain rfl := Option.some.inj hrecord'
      rw [Option.map_eq_none_iff.1 hclaim] at hlease
      cases hlease
  · have hscore : get? Prod.fst j (r.zrem c).claims = get? Prod.fst j r.claims := get?_erase_of_ne hj r.claims
    rw [hscore]
    exact hs.alike j

end SessionsAlike

variable {s : InMemory.State} {r : Redis.State} {now : ℤ}

theorem Handoff.live_of {h : Handoff} {tokens : Tokens} {c : ℕ}
    (hlive : (h.record tokens c).session.expired now = false) : now < h.deadline := by
  simpa [DurableConnectSession.expired, h.expires] using hlive

variable (warm) in
theorem claimAuthorized_alike (hsha : Set.InjOn sha256 texts)
    (hs : SessionsAlike sha256 memory redis texts s r) (number : ℕ) (request : ClaimRequest)
    (hdecrypts : request.decrypts = true)
    (hprincipal : ∀ p ∈ request.principal, p.tenantId = request.tenantId ∧
      ownerText p.tenantId p.actorUserId ∈ texts)
    (hlive : ∀ record, s.record? request.connectId = some record → record.session.expired now = false)
    (hbrings : ∀ h : Handoff, s.record? request.connectId = some (h.record memory request.connectId) →
      h.takesSearch warm now request = true → h.brings request.confirmation = true)
    (hreads : ∀ h : Handoff, s.record? request.connectId = some (h.record memory request.connectId) →
      h.grants warm now request = true → h.session.Readable) :
    SessionsAlike sha256 memory redis texts
        (InMemory.claimAuthorized warm (s.draw (memory.claim number request.connectId)) now request).1
        (Redis.claimAuthorized sha256 warm (r.draw (redis.claim number request.connectId)) now request).1 ∧
      SameResult memory redis
        (InMemory.claimAuthorized warm (s.draw (memory.claim number request.connectId)) now request).2
        (Redis.claimAuthorized sha256 warm (r.draw (redis.claim number request.connectId)) now request).2 := by
  cases hc : s.record? request.connectId with
  | none =>
    have hgone : (s.draw (memory.claim number request.connectId)).record? request.connectId = none := hc
    have hkey : (r.draw (redis.claim number request.connectId)).session? (Redis.ClaimRequest.script sha256 warm
        (r.draw (redis.claim number request.connectId)) now request).connectId = none := hs.session?_none hc
    rw [InMemory.claimAuthorized, hgone, Redis.claimAuthorized, Redis.claimScript, hkey]
    exact ⟨hs.same (erase_of_get?_none hc) rfl rfl, .notFound⟩
  | some record =>
    obtain ⟨h, rfl, hkey, howner, hscore⟩ := hs.handoff hc
    have hbring := hbrings h hc
    obtain ⟨hrecords, hmemory⟩ := InMemory.claimAuthorized_handoff number request hc (Handoff.live_of (hlive _ hc)) hbring
    obtain ⟨hsessions, hredis, hclaims⟩ := Redis.claimAuthorized_handoff hsha number request hdecrypts hprincipal
      hkey howner hbring (hreads h hc)
    have howner' : ownerText (h.claimed warm number now request).1.session.tenantId
        (h.claimed warm number now request).1.session.ownerUserId ∈ texts := by
      rw [h.claimed_session]
      exact howner
    rw [hmemory, hredis]
    refine ⟨?_, sameResult_drawn _⟩
    rcases hclaims with ⟨hclaims, hlease⟩ | ⟨lease, hlease, hclaims⟩
    · exact hs.keep _ (hlease ▸ hscore) howner' hrecords hsessions hclaims
    · exact hs.lease _ hlease howner' hrecords hsessions hclaims

/-! ### Claims that are passed back -/

/-- The lease that a claim is for. -/
def Handoff.owned (h : Handoff) (claim : ConnectSessionClaim) : Option Lease :=
  if h.session.tenantId = claim.session.tenantId then h.lease.filter fun lease => lease.operation = claim.token
  else none

theorem Handoff.lease_of_owned {h : Handoff} {claim : ConnectSessionClaim} {lease : Lease}
    (howned : h.owned claim = some lease) : h.lease = some lease := by
  unfold Handoff.owned at howned
  split at howned
  · exact (Option.filter_eq_some_iff.1 howned).1
  · cases howned

theorem Tokens.claim_inj (tokens : Tokens) (c m n : ℕ) : tokens.claim m c = tokens.claim n c ↔ m = n :=
  ⟨fun h => (tokens.distinct h).1, fun h => h ▸ rfl⟩

theorem InMemory.owned_handoff {h : Handoff} {claim : ConnectSessionClaim}
    (hc : s.record? claim.connectId = some (h.record memory claim.connectId)) :
    owned s (claim.drawn memory) = (h.owned claim).map fun lease =>
      (h.record memory claim.connectId, h.held memory claim.connectId lease) := by
  have hc' : s.record? (claim.drawn memory).connectId = some (h.record memory claim.connectId) := hc
  rw [owned, hc']
  cases hlease : h.lease with
  | none => simp [Handoff.owned, Handoff.record, hlease]
  | some lease =>
    by_cases htenant : h.session.tenantId = claim.session.tenantId
    · by_cases hnumber : lease.operation = claim.token <;>
        simp [Handoff.owned, Handoff.record, Handoff.held, hlease, htenant, hnumber, ConnectSessionClaim.drawn,
          memory.claim_inj]
    · simp [Handoff.owned, Handoff.record, hlease, htenant, ConnectSessionClaim.drawn]

theorem Redis.owned_handoff {h : Handoff} {claim : ConnectSessionClaim}
    (hkey : r.session? claim.connectId = some (h.key sha256 redis claim.connectId)) :
    owned r (claim.drawn redis) = (h.owned claim).map fun _ => h.key sha256 redis claim.connectId := by
  have hkey' : r.session? (claim.drawn redis).connectId = some (h.key sha256 redis claim.connectId) := hkey
  rw [owned, hkey']
  cases hlease : h.lease with
  | none => simp [Handoff.owned, Handoff.value, hlease, Option.filter_some]
  | some lease =>
    by_cases htenant : h.session.tenantId = claim.session.tenantId
    · by_cases hnumber : lease.operation = claim.token <;>
        simp [Handoff.owned, Handoff.value, hlease, htenant, hnumber, ConnectSessionClaim.drawn, redis.claim_inj,
          Option.filter_some, newValue]
    · simp [Handoff.owned, htenant, ConnectSessionClaim.drawn, Option.filter_some]

/-- Where there is no session, there is no claim. -/
theorem InMemory.owned_of_absent {claim : ConnectSessionClaim} (hc : s.record? claim.connectId = none) :
    owned s (claim.drawn memory) = none := by
  have hc' : s.record? (claim.drawn memory).connectId = none := hc
  rw [owned, hc']
  rfl

/-- A member that is taken from an index touches nothing else. -/
theorem Redis.srem_kept (r : Redis.State) (digest : String) (c : ℕ) :
    (r.srem digest c).sessions = r.sessions ∧ (r.srem digest c).claims = r.claims ∧
      (r.srem digest c).tombstones = r.tombstones ∧ (r.srem digest c).work = r.work ∧
      (r.srem digest c).due = r.due := by
  unfold Redis.State.srem
  split <;> exact ⟨rfl, rfl, rfl, rfl, rfl⟩

/-- A claim that is passed back, to a session that is not there or to the one that is. -/
theorem SessionsAlike.passed (hs : SessionsAlike sha256 memory redis texts s r) (claim : ConnectSessionClaim) :
    (s.record? claim.connectId = none ∧ InMemory.owned s (claim.drawn memory) = none ∧
      (r.session? claim.connectId).isNone = true ∧ Redis.owned r (claim.drawn redis) = none) ∨
    ∃ h : Handoff, s.record? claim.connectId = some (h.record memory claim.connectId) ∧
      (r.session? claim.connectId).isNone = false ∧
      ownerText h.session.tenantId h.session.ownerUserId ∈ texts ∧
      InMemory.owned s (claim.drawn memory) = (h.owned claim).map (fun lease =>
        (h.record memory claim.connectId, h.held memory claim.connectId lease)) ∧
      Redis.owned r (claim.drawn redis) = (h.owned claim).map fun _ => h.key sha256 redis claim.connectId := by
  cases hc : s.record? claim.connectId with
  | none =>
    have hkey : r.session? (claim.drawn redis).connectId = none := hs.session?_none hc
    refine .inl ⟨rfl, InMemory.owned_of_absent hc, Option.isNone_iff_eq_none.2 hkey, ?_⟩
    rw [Redis.owned, hkey, Option.filter_none]
  | some record =>
    obtain ⟨h, rfl, hkey, howner, -⟩ := hs.handoff hc
    exact .inr ⟨h, rfl, by rw [hkey, Option.isNone_some], howner, InMemory.owned_handoff hc, Redis.owned_handoff hkey⟩

/-- The session is leased anew on both, and nothing else. -/
theorem SessionsAlike.release_at (hs : SessionsAlike sha256 memory redis texts s r) {h : Handoff} {c : ℕ}
    (howner : ownerText h.session.tenantId h.session.ownerUserId ∈ texts) {lease : Lease}
    (hlease : h.lease = some lease) (leaseUntil : ℤ) :
    SessionsAlike sha256 memory redis texts
      (s.write { h.record memory c with
        claim := some { h.held memory c lease with leaseUntil := some (min h.deadline leaseUntil) } })
      ((r.keep (h.key sha256 redis c) { (h.key sha256 redis c).value with claimUntil := some leaseUntil }).zadd
        leaseUntil c) := by
  have hvalue : { (h.key sha256 redis c).value with claimUntil := some leaseUntil } =
      Handoff.value sha256 redis c { h with lease := some { lease with leaseUntil } } := by
    simp [Handoff.value, hlease]
  rw [hvalue]
  exact hs.lease { h with lease := some { lease with leaseUntil } } rfl howner rfl (Redis.keep_sessions rfl) rfl

section Passed

variable (hs : SessionsAlike sha256 memory redis texts s r) (claim : ConnectSessionClaim)
  (hlive : ∀ record, s.record? claim.connectId = some record → record.session.expired now = false)

include hs

theorem claimState_alike : InMemory.claimState s (claim.drawn memory) = Redis.claimState r (claim.drawn redis) := by
  obtain ⟨handoff?, hrecord, hkey, -⟩ := hs.alike claim.connectId
  have hrecord' : s.record? (claim.drawn memory).connectId = handoff?.map (Handoff.record memory claim.connectId) :=
    hrecord
  have hkey' : r.session? (claim.drawn redis).connectId = handoff?.map (Handoff.key sha256 redis claim.connectId) :=
    hkey
  rw [InMemory.claimState, Redis.claimState, hrecord', hkey']
  cases handoff? with
  | none => rfl
  | some h =>
    by_cases htenant : h.session.tenantId = claim.session.tenantId
    · cases hlease : h.lease <;>
        simp [Option.filter_some, htenant, ConnectSessionClaim.drawn, Handoff.record, Handoff.held, Handoff.value,
          Redis.newValue, hlease, memory.claim_inj, redis.claim_inj]
    · simp [Option.filter_some, htenant, ConnectSessionClaim.drawn]

theorem renew_alike (visibilityTimeoutMs : Option ℚ) :
    SessionsAlike sha256 memory redis texts (InMemory.renew s now (claim.drawn memory) visibilityTimeoutMs).1
        (Redis.renew r now (claim.drawn redis) visibilityTimeoutMs).1 ∧
      (InMemory.renew s now (claim.drawn memory) visibilityTimeoutMs).2 =
        (Redis.renew r now (claim.drawn redis) visibilityTimeoutMs).2 := by
  rw [InMemory.renew, Redis.renew]
  rcases hs.passed claim with ⟨-, hmemory, -, hredis⟩ | ⟨h, -, -, howner, hmemory, hredis⟩
  · rw [hmemory, hredis]
    exact ⟨hs, rfl⟩
  · rw [hmemory, hredis]
    cases howned : h.owned claim with
    | none => exact ⟨hs, rfl⟩
    | some lease =>
      have hwritten := hs.release_at (c := claim.connectId) howner (Handoff.lease_of_owned howned)
        (now + positiveVisibility visibilityTimeoutMs)
      have hleaseOf : InMemory.leaseOf (h.record memory claim.connectId).session now visibilityTimeoutMs =
          some (min h.deadline (now + positiveVisibility visibilityTimeoutMs)) := by
        simp [InMemory.leaseOf, h.expires]
      rw [Option.map_some, Option.map_some]
      dsimp only
      rw [hleaseOf]
      exact ⟨hwritten, rfl⟩

include hlive

theorem defer_alike :
    SessionsAlike sha256 memory redis texts (InMemory.defer s now (claim.drawn memory)).1
        (Redis.defer r now (claim.drawn redis)).1 ∧
      (InMemory.defer s now (claim.drawn memory)).2 = (Redis.defer r now (claim.drawn redis)).2 := by
  have hsession : r.session? (claim.drawn redis).connectId = r.session? claim.connectId := rfl
  rw [InMemory.defer, Redis.defer, hsession]
  rcases hs.passed claim with ⟨hc, hmemory, hnone, -⟩ | ⟨h, hc, hsome, howner, hmemory, hredis⟩
  · rw [hmemory, if_pos hnone]
    exact ⟨hs.zrem (.inl hc), rfl⟩
  · rw [hmemory, hredis, if_neg (by simp [hsome])]
    cases howned : h.owned claim with
    | none => exact ⟨hs, rfl⟩
    | some lease =>
      have hwritten := hs.release_at (c := claim.connectId) howner (Handoff.lease_of_owned howned) now
      rw [min_eq_right (Handoff.live_of (hlive _ hc)).le] at hwritten
      exact ⟨hwritten, rfl⟩

theorem ack_alike :
    SessionsAlike sha256 memory redis texts (InMemory.ack s now (claim.drawn memory)).1
        (Redis.ack sha256 r now (claim.drawn redis)).1 ∧
      (InMemory.ack s now (claim.drawn memory)).2 = (Redis.ack sha256 r now (claim.drawn redis)).2 := by
  have hsession : r.session? (claim.drawn redis).connectId = r.session? claim.connectId := rfl
  have haction : (claim.drawn memory).action = claim.action := rfl
  have haction' : (claim.drawn redis).action = claim.action := rfl
  rw [InMemory.ack, Redis.ack, hsession, haction, haction']
  rcases hs.passed claim with ⟨hc, hmemory, hnone, -⟩ | ⟨h, hc, hsome, howner, hmemory, hredis⟩
  · rw [hmemory, if_pos hnone]
    exact ⟨hs.zrem (.inl hc), rfl⟩
  rw [hmemory, hredis, if_neg (by simp [hsome])]
  cases howned : h.owned claim with
  | none => exact ⟨hs, rfl⟩
  | some lease =>
    have hdeadline := Handoff.live_of (hlive _ hc)
    have hlease := Handoff.lease_of_owned howned
    rw [Option.map_some, Option.map_some]
    cases claim.action with
    | confirm =>
      dsimp only
      split
      · rename_i hrequested
        have hrequested : h.cancelRequested = true := hrequested
        have hacknowledged : (h.record memory claim.connectId).acknowledged (h.held memory claim.connectId lease) now =
            Handoff.record memory claim.connectId
              { h with handedOff := true, lease := some ⟨lease.operation, .cancel, now⟩ } := by
          simp [InMemory.Record.acknowledged, Handoff.record, Handoff.held, hrequested, hdeadline.le]
        have hvalue : { (h.key sha256 redis claim.connectId).value with
            handedOff := true
            claimAction := some .cancel
            claimUntil := some now } = Handoff.value sha256 redis claim.connectId
              { h with handedOff := true, lease := some ⟨lease.operation, .cancel, now⟩ } := by
          simp [Handoff.value, hlease]
        rw [hacknowledged, hvalue]
        exact ⟨hs.lease { h with handedOff := true, lease := some ⟨lease.operation, .cancel, now⟩ } rfl howner rfl
          (Redis.keep_sessions rfl) rfl, rfl⟩
      · rename_i hrequested
        have hrequested : ¬ h.cancelRequested = true := hrequested
        have hacknowledged : (h.record memory claim.connectId).acknowledged (h.held memory claim.connectId lease) now =
            Handoff.record memory claim.connectId { h with handedOff := true, lease := none } := by
          simp [InMemory.Record.acknowledged, Handoff.record, hrequested]
        rw [hacknowledged]
        exact ⟨hs.release { h with handedOff := true, lease := none } rfl howner rfl rfl rfl, rfl⟩
    | cancel =>
      cases Redis.boundConsent (claim.drawn redis).session with
      | none => exact ⟨hs.remove rfl rfl rfl, rfl⟩
      | some consentId =>
        have hkept := Redis.srem_kept ((r.del claim.connectId).zrem claim.connectId)
          (Redis.consentDigest sha256 claim.session.tenantId consentId) claim.connectId
        exact ⟨hs.remove rfl hkept.1 hkept.2.1, rfl⟩

end Passed

/-! ### Sessions that are put -/

section Put

/-- The session as it is put. -/
def Handoff.opened (h : Handoff) : Handoff :=
  { h with lease := none, confirmation := none, cancelRequested := false, handedOff := false }

variable (hs : SessionsAlike sha256 memory redis texts s r) (c : ℕ) (h : Handoff) (hfuture : now < h.deadline)
  (howner : ownerText h.session.tenantId h.session.ownerUserId ∈ texts)

include hs howner

theorem register_alike (revokedConsents : List (String × ℤ)) :
    SessionsAlike sha256 memory redis texts (InMemory.register { s with revokedConsents } c h.session)
      (r.register c (Redis.newValue sha256 h.session) h.deadline) :=
  hs.keep h.opened (by simp [Handoff.opened]) howner rfl rfl rfl

include hfuture

theorem restoreCancellation_alike (number : ℕ) :
    SessionsAlike sha256 memory redis texts
        (InMemory.restoreCancellation (s.draw (memory.claim number c)) now c h.session)
        (Redis.restoreCancellation sha256 (r.draw (redis.claim number c)) now c h.session).1 ∧
      (Redis.restoreCancellation sha256 (r.draw (redis.claim number c)) now c h.session).2 = .done := by
  have hfilter : h.session.expiresAt.filter (fun expiresAt => 0 < expiresAt - now) = some h.deadline := by
    simp [h.expires, hfuture]
  have hrecords : (InMemory.restoreCancellation (s.draw (memory.claim number c)) now c h.session).records =
      put InMemory.Record.connectId (Handoff.record memory c
        { h.opened with cancelRequested := true, lease := some ⟨number, .cancel, now⟩ }) s.records := by
    simp [Handoff.record, Handoff.held, Handoff.opened, hfuture.le]
    rfl
  rw [Redis.restoreCancellation, hfilter]
  exact ⟨hs.lease { h.opened with cancelRequested := true, lease := some ⟨number, .cancel, now⟩ } rfl howner hrecords
    rfl rfl, rfl⟩

/-- A session is put on both, or its consent is revoked on both. -/
theorem putSession_alike
    (hrevoked : ∀ consentId, Redis.boundConsent h.session = some consentId →
      (InMemory.consentRevoked s now h.session.tenantId consentId = true ↔
        (get? Prod.fst (Redis.consentDigest sha256 h.session.tenantId consentId) r.tombstones).isSome)) :
    SessionsAlike sha256 memory redis texts (InMemory.putSession s now c h.session)
        (Redis.putSession sha256 r now c h.session) ∧
      ((InMemory.putAnswer s now h.session = .done ∧ Redis.putAnswer sha256 r now h.session = .done) ∨
        InMemory.putAnswer s now h.session =
            .failed "consent was revoked while the Steel session was being created" ∧
          Redis.putAnswer sha256 r now h.session =
            .failed "consent was revoked while the Steel session was being created") := by
  have hfuture' : ¬ h.deadline - now ≤ 0 := by omega
  have hregister := register_alike hs c h howner
  have hbound : h.session.consentId.filter (fun consentId => consentId ≠ "") = Redis.boundConsent h.session := rfl
  have hput : ¬ (h.session.expiresAt.all fun expiresAt => expiresAt - now ≤ 0) = true := by
    simp [h.expires, hfuture]
  rw [InMemory.putSession, InMemory.putAnswer, Redis.putSession, Redis.putAnswer, if_neg hput, hbound, h.expires]
  dsimp only
  rw [if_neg hfuture']
  cases hconsent : Redis.boundConsent h.session with
  | none => exact ⟨hregister s.revokedConsents, .inl ⟨rfl, rfl⟩⟩
  | some consentId =>
    have hiff := hrevoked consentId hconsent
    dsimp only
    rw [Redis.putIndexed]
    by_cases htombstone : (get? Prod.fst (Redis.consentDigest sha256 h.session.tenantId consentId) r.tombstones).isSome
    · have hmemory := hiff.2 htombstone
      have hlater : now < ((get? Prod.fst (InMemory.consentKey h.session.tenantId consentId) s.revokedConsents).map
        Prod.snd).getD 0 := of_decide_eq_true hmemory
      rw [if_pos htombstone, if_pos htombstone, if_pos hmemory, if_neg (not_le.2 hlater)]
      exact ⟨hs, .inr ⟨rfl, rfl⟩⟩
    · have hmemory : ¬ InMemory.consentRevoked s now h.session.tenantId consentId = true := mt hiff.1 htombstone
      have hlater : ((get? Prod.fst (InMemory.consentKey h.session.tenantId consentId) s.revokedConsents).map
        Prod.snd).getD 0 ≤ now := not_lt.1 fun hlt => hmemory (decide_eq_true hlt)
      rw [if_neg htombstone, if_neg htombstone, if_neg hmemory, if_pos hlater]
      exact ⟨(hregister _).same rfl rfl rfl, .inl ⟨rfl, rfl⟩⟩

end Put

/-! ### Claims that are over -/

/-- A claim whose lease is over on Redis is given out again on both, or there is none. -/
theorem reclaim_alike (hs : SessionsAlike sha256 memory redis texts s r) (number c : ℕ)
    (hover : ∀ entry, get? Prod.fst c r.claims = some entry → entry.2 ≤ now)
    (hreads : ∀ record, s.record? c = some record → record.claim ≠ none → record.session.Readable)
    (visibilityTimeoutMs : Option ℚ) :
    ∃ xs ys, (InMemory.reclaimDrawn now visibilityTimeoutMs (memory.claim number) s c).2 = .ok xs ∧
      (Redis.reclaimDrawn sha256 now visibilityTimeoutMs (redis.claim number) r c).2 = .ok ys ∧
      List.Forall₂ (SameClaim memory redis) xs ys ∧
      SessionsAlike sha256 memory redis texts
        (InMemory.reclaimDrawn now visibilityTimeoutMs (memory.claim number) s c).1
        (Redis.reclaimDrawn sha256 now visibilityTimeoutMs (redis.claim number) r c).1 := by
  have hdrawn : (s.draw (memory.claim number c)).record? c = s.record? c := rfl
  rw [InMemory.reclaimDrawn, InMemory.reclaim, Redis.reclaimDrawn, Redis.reclaimScript]
  dsimp only
  rw [hdrawn]
  cases hc : s.record? c with
  | none =>
    rw [hs.session?_none hc]
    exact ⟨[], [], rfl, rfl, .nil, (hs.zrem (.inl hc)).same rfl rfl rfl⟩
  | some record =>
    obtain ⟨h, rfl, hkey, howner, hscore⟩ := hs.handoff hc
    rw [hkey]
    cases hlease : h.lease with
    | none =>
      have hclaim : (h.record memory c).claim = none := by simp [Handoff.record, hlease]
      have htoken : (h.key sha256 redis c).value.claimToken.isNone = true := by simp [Handoff.value, hlease]
      dsimp only
      rw [hclaim, if_pos htoken]
      exact ⟨[], [], rfl, rfl, .nil, (hs.zrem (.inr ⟨_, hc, hclaim⟩)).same rfl rfl rfl⟩
    | some lease =>
      have hclaim : (h.record memory c).claim = some (h.held memory c lease) := by simp [Handoff.record, hlease]
      have htoken : ¬ (h.key sha256 redis c).value.claimToken.isNone = true := by simp [Handoff.value, hlease]
      have huntil : ¬ now < (h.key sha256 redis c).value.claimUntil.getD 0 := by
        have hdue := hover _ (hscore lease hlease)
        simpa [Handoff.value, hlease] using hdue
      have hturned : ¬ (h.key sha256 redis c).value.turned.claimAction.isNone = true := by
        unfold Redis.Value.turned
        split <;> simp [Handoff.value, hlease]
      dsimp only
      rw [hclaim, if_neg htoken, if_neg huntil, if_neg hturned]
      dsimp only
      generalize haction : (if (h.record memory c).cancelRequested = true then ConnectSessionAction.cancel
        else (h.held memory c lease).action) = action
      obtain ⟨hrecords, hgiven⟩ := h.lease_record c memory now number s visibilityTimeoutMs action
      have hvalue : { (h.key sha256 redis c).value.turned with
          claimToken := some (redis.claim number c)
          claimUntil := some (now + positiveVisibility visibilityTimeoutMs) } =
            (h.granted ⟨number, action, now + positiveVisibility visibilityTimeoutMs⟩ c).1.value sha256 redis c := by
        by_cases hrequested : h.cancelRequested = true
        · rw [Handoff.record_cancelRequested, if_pos hrequested] at haction
          rw [Redis.Value.turned, if_pos (by exact hrequested), ← haction]
          rfl
        · rw [Handoff.record_cancelRequested, if_neg hrequested] at haction
          rw [Redis.Value.turned, if_neg (by exact hrequested), ← haction]
          simp [Handoff.value, Handoff.granted, Handoff.held, hlease]
      have hread : h.session.Readable := hreads _ hc (by simp [hclaim])
      rw [hvalue, Handoff.parse_value
        (h.granted ⟨number, action, now + positiveVisibility visibilityTimeoutMs⟩ c).1 hread]
      dsimp only
      rw [Handoff.storedClaim_value _ rfl]
      refine ⟨_, _, rfl, rfl, ?_, ?_⟩
      · rw [List.nil_append, hgiven]
        exact .cons ⟨_, rfl, rfl⟩ .nil
      · exact hs.lease (h.granted ⟨number, action, now + positiveVisibility visibilityTimeoutMs⟩ c).1 rfl howner hrecords
          (Redis.keep_sessions rfl) rfl

end CatalogSentinel.Connect
