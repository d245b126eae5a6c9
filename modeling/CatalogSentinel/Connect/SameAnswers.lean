import CatalogSentinel.Connect.OperationsAlike
import Mathlib.Data.Nat.Pairing

/-!
The registry in memory stands for the one on Redis: as long as no operation comes to where the
two registries go different ways, each is answered alike on both.
-/

namespace CatalogSentinel.Connect

open CatalogSentinel.Concurrent CatalogSentinel.Data

/-! ### One operation -/

section Step

variable {sha256 : String → String} {memory redis : Tokens} {texts : Set String} {warm : Bool} {now : ℤ}
  {m : InMemory.Memory} {r : Redis.State}

theorem Handoff.takesSearch_record {h : Handoff} {connectId : ℕ} (hlive : now < h.deadline) (request : ClaimRequest) :
    (h.record memory connectId).takesSearch warm now request = h.takesSearch warm now request := by
  rw [InMemory.Record.takesSearch, h.mayClaim_record, h.busy_record connectId hlive]
  rfl

theorem Handoff.grants_record {h : Handoff} {connectId : ℕ} (hlive : now < h.deadline) (request : ClaimRequest) :
    (h.record memory connectId).grants warm now request = h.grants warm now request := by
  rw [InMemory.Record.grants, h.mayClaim_record, h.busy_record connectId hlive]
  rfl

/-- The session as it is put. -/
def Handoff.put (session : DurableConnectSession) (deadline : ℤ) (expires : session.expiresAt = some deadline) : Handoff :=
  ⟨session, deadline, none, none, false, false, expires⟩

/-- The tombstones are the same, and so a consent is revoked on both or on neither. -/
theorem revoked_iff (h : RegistriesAlike sha256 memory redis texts m r) (hlive : m.Live now) (hnow : 0 ≤ now)
    {tenantId consentId : String} (ht : InMemory.consentKey tenantId consentId ∈ texts) :
    InMemory.consentRevoked m.sessions now tenantId consentId = true ↔
      (get? Prod.fst (Redis.consentDigest sha256 tenantId consentId) r.tombstones).isSome := by
  have hrevoked := h.revocations.revoked (InMemory.consentKey tenantId consentId) ht
  have hdigest : Redis.consentDigest sha256 tenantId consentId =
    sha256 (InMemory.consentKey tenantId consentId) := rfl
  rw [hdigest, ← Option.isSome_map, hrevoked, InMemory.consentRevoked, decide_eq_true_iff]
  cases hget : get? Prod.fst (InMemory.consentKey tenantId consentId) m.sessions.revokedConsents with
  | none => simpa using hnow
  | some tombstone => simpa using hlive.tombstones tombstone (mem_of_get? hget)

/-- No tombstone is dropped that is there. -/
theorem InMemory.putSession_revokedConsents (hlive : m.Live now) (c : ℕ) (session : DurableConnectSession) :
    (putSession m.sessions now c session).revokedConsents = m.sessions.revokedConsents := by
  unfold putSession
  split
  · rfl
  rename_i consentId _
  dsimp only
  split
  · rename_i hpast
    cases hget : get? Prod.fst (consentKey session.tenantId consentId) m.sessions.revokedConsents with
    | none => exact erase_of_get?_none hget
    | some tombstone =>
      have hlater := hlive.tombstones tombstone (mem_of_get? hget)
      rw [hget] at hpast
      exact absurd hpast (not_le.2 hlater)
  · rfl

section Kept

variable (s : InMemory.State) (claim : ConnectSessionClaim)

theorem InMemory.ack_revokedConsents : (ack s now claim).1.revokedConsents = s.revokedConsents := by
  unfold ack
  split
  · rfl
  · split <;> rfl

theorem InMemory.defer_revokedConsents : (defer s now claim).1.revokedConsents = s.revokedConsents := by
  unfold defer
  split <;> rfl

theorem InMemory.renew_revokedConsents (visibilityTimeoutMs : Option ℚ) :
    (renew s now claim visibilityTimeoutMs).1.revokedConsents = s.revokedConsents := by
  unfold renew
  split <;> rfl

end Kept

theorem InMemory.Memory.Live.bindings (hlive : m.Live now) :
    ∀ binding ∈ m.sessions.bindings, binding.2.expired now = false := by
  intro binding hbinding
  obtain ⟨record, hrecord, rfl⟩ := List.mem_map.1 hbinding
  exact hlive.sessions record hrecord

/-- The limit covers the work of a consent, and its sessions are found on both. -/
theorem scannable (h : RegistriesAlike sha256 memory redis texts m r) {scan : Redis.SetScan} {text : String}
    {work : InMemory.RevocationWork} (hwork : m.work? text = some work) {batchLimit : ℚ}
    (hcovers : Covers sha256 scan m r batchLimit work) (hindexed : Indexed sha256 m r work.tenantId work.consentId) :
    Scannable scan (pageSize batchLimit) m.sessions (r.members (sha256 text)) work.tenantId work.consentId := by
  obtain ⟨-, v, rfl, rfl, -⟩ := h.revocations.text_of_work hwork
  exact ⟨hcovers.2, hcovers.1, hindexed⟩

theorem SameAnswer.of_eq {ω ω' : Type} {sameWork : ω → ω' → Prop} {x a : Answer ω} {y b : Answer ω'} (hx : x = a)
    (hy : y = b) (h : SameAnswer memory redis sameWork a b) : SameAnswer memory redis sameWork x y := by
  rw [hx, hy]
  exact h

variable (sha256 memory redis texts) in
/-- What both answer is the same, and both are alike after it. -/
structure Agree (x : InMemory.Memory × Answer InMemory.ConsentRevocationWorkClaim)
    (y : Redis.State × Answer Redis.ConsentRevocationWorkClaim) : Prop where
  answer : SameAnswer memory redis (SameWork sha256) x.2 y.2
  alike : RegistriesAlike sha256 memory redis texts x.1 y.1

section Operations

variable (hsha : Set.InjOn sha256 texts) (h : RegistriesAlike sha256 memory redis texts m r) (hlive : m.Live now)
  (number : ℕ)

include h hlive

theorem agree_put (hnow : 0 ≤ now) {connectId : ℕ} {session : DurableConnectSession} (scan : Redis.SetScan)
    (hscope : InScope sha256 scan texts m r now (.put connectId session))
    (hmet : Met sha256 warm m r now (.put connectId session)) :
    Agree sha256 memory redis texts (InMemory.operate warm memory number m now (.put connectId session))
      (Redis.operate sha256 warm scan redis number r now (.put connectId session)) := by
  obtain ⟨hlater, hhashed⟩ := hscope
  obtain ⟨deadline, hexpires⟩ := Option.isSome_iff_exists.1 hmet
  have hfuture := hlater deadline hexpires
  obtain ⟨hsessions, hanswer⟩ := putSession_alike h.sessions connectId (Handoff.put session deadline hexpires) hfuture
    hhashed.owner fun consentId hbound =>
      revoked_iff h hlive hnow (hhashed.consent consentId (Option.filter_eq_some_iff.1 hbound).1)
  refine ⟨?_, h.session hsessions (InMemory.putSession_revokedConsents hlive connectId session)
    (Redis.beside_putSession connectId session)⟩
  rcases hanswer with ⟨hmemory, hredis⟩ | ⟨hmemory, hredis⟩
  · exact .of_eq hmemory hredis .done
  · exact .of_eq hmemory hredis (.failed _)

omit hlive in
theorem agree_restoreCancellation {connectId : ℕ} {session : DurableConnectSession} (scan : Redis.SetScan)
    (hscope : InScope sha256 scan texts m r now (.restoreCancellation connectId session))
    (hmet : Met sha256 warm m r now (.restoreCancellation connectId session)) :
    Agree sha256 memory redis texts (InMemory.operate warm memory number m now (.restoreCancellation connectId session))
      (Redis.operate sha256 warm scan redis number r now (.restoreCancellation connectId session)) := by
  obtain ⟨hlater, hhashed⟩ := hscope
  obtain ⟨deadline, hexpires⟩ := Option.isSome_iff_exists.1 hmet
  have hfuture := hlater deadline hexpires
  obtain ⟨hsessions, hanswer⟩ := restoreCancellation_alike h.sessions connectId
    (Handoff.put session deadline hexpires) hfuture hhashed.owner number
  exact ⟨.of_eq rfl hanswer .done,
    h.session hsessions rfl (Redis.beside_of_rest (Redis.rest_restoreCancellation connectId session))⟩

include hsha

theorem agree_claimAuthorized (request : ClaimRequest) (hdecrypts : request.decrypts = true)
    (hprincipal : ∀ p ∈ request.principal, p.tenantId = request.tenantId ∧
      ownerText p.tenantId p.actorUserId ∈ texts) (hmet : Named warm m now request) :
    Agree sha256 memory redis texts
      ({ m with sessions := (InMemory.claimAuthorized warm
          (m.sessions.draw (memory.claim number request.connectId)) now request).1 },
        .claimed (InMemory.claimAuthorized warm
          (m.sessions.draw (memory.claim number request.connectId)) now request).2)
      ((Redis.claimAuthorized sha256 warm (r.draw (redis.claim number request.connectId)) now request).1,
        .claimed (Redis.claimAuthorized sha256 warm (r.draw (redis.claim number request.connectId)) now request).2) := by
  have hnamed : ∀ handoff : Handoff, m.sessions.record? request.connectId =
      some (handoff.record memory request.connectId) → handoff.takesSearch warm now request = true →
        handoff.brings request.confirmation = true := by
    intro handoff hrecord htakes
    have hdeadline := Handoff.live_of (hlive.sessions _ (mem_of_get? hrecord))
    have hbrings := (hmet _ hrecord).1 ((Handoff.takesSearch_record hdeadline request).trans htakes)
    cases hconfirmation : request.confirmation <;> rw [hconfirmation] at hbrings <;> exact hbrings
  obtain ⟨hsessions, hresult⟩ := claimAuthorized_alike warm hsha h.sessions number request hdecrypts hprincipal
    (fun record hrecord => hlive.sessions record (mem_of_get? hrecord)) hnamed fun handoff hrecord hgrants =>
      have hdeadline := Handoff.live_of (hlive.sessions _ (mem_of_get? hrecord))
      (hmet _ hrecord).2 ((Handoff.grants_record hdeadline request).trans hgrants)
  exact ⟨.claimed hresult, h.session hsessions InMemory.claimAuthorized_revokedConsents
    (Redis.beside_of_rest (Redis.rest_claimAuthorized request))⟩

omit hsha in
theorem agree_ack (claim : ConnectSessionClaim) (scan : Redis.SetScan) :
    Agree sha256 memory redis texts (InMemory.operate warm memory number m now (.ack claim))
      (Redis.operate sha256 warm scan redis number r now (.ack claim)) := by
  obtain ⟨hsessions, hsuccess⟩ := ack_alike h.sessions claim
    fun record hrecord => hlive.sessions record (mem_of_get? hrecord)
  exact ⟨.of_eq (congrArg Answer.whether hsuccess) rfl (.whether _),
    h.session hsessions (InMemory.ack_revokedConsents _ _) (Redis.beside_ack _)⟩

omit hsha in
theorem agree_defer (claim : ConnectSessionClaim) (scan : Redis.SetScan) :
    Agree sha256 memory redis texts (InMemory.operate warm memory number m now (.defer claim))
      (Redis.operate sha256 warm scan redis number r now (.defer claim)) := by
  obtain ⟨hsessions, hsuccess⟩ := defer_alike h.sessions claim
    fun record hrecord => hlive.sessions record (mem_of_get? hrecord)
  exact ⟨.of_eq (congrArg Answer.whether hsuccess) rfl (.whether _),
    h.session hsessions (InMemory.defer_revokedConsents _ _) (Redis.beside_of_rest (Redis.rest_defer _))⟩

omit hsha hlive in
theorem agree_renew (claim : ConnectSessionClaim) (visibilityTimeoutMs : Option ℚ) (scan : Redis.SetScan) :
    Agree sha256 memory redis texts (InMemory.operate warm memory number m now (.renew claim visibilityTimeoutMs))
      (Redis.operate sha256 warm scan redis number r now (.renew claim visibilityTimeoutMs)) := by
  obtain ⟨hsessions, hstate⟩ := renew_alike h.sessions claim visibilityTimeoutMs
  exact ⟨.of_eq (congrArg Answer.state hstate) rfl (.state _),
    h.session hsessions (InMemory.renew_revokedConsents _ _ _) (Redis.beside_of_rest (Redis.rest_renew _ _))⟩

omit hsha in
theorem agree_claimExpired {limit : ℚ} {visibilityTimeoutMs : Option ℚ} (scan : Redis.SetScan)
    (hscope : InScope sha256 scan texts m r now (.claimExpired limit visibilityTimeoutMs))
    (hmet : Met sha256 warm m r now (.claimExpired limit visibilityTimeoutMs)) :
    Agree sha256 memory redis texts
      (InMemory.operate warm memory number m now (.claimExpired limit visibilityTimeoutMs))
      (Redis.operate sha256 warm scan redis number r now (.claimExpired limit visibilityTimeoutMs)) := by
  obtain ⟨xs, ys, hxs, hys, hsame, hsessions, hrevoked, hrest⟩ :=
    claimExpired_alike visibilityTimeoutMs number h.sessions hlive.sessions hscope.1 hscope.2 hmet
  exact ⟨.of_eq (congrArg (Answer.ofExcept Answer.claims) hxs) (congrArg (Answer.ofExcept Answer.claims) hys)
    (.claims hsame), h.session hsessions hrevoked (Redis.beside_of_rest hrest)⟩

theorem agree_claimByConsent {consentId tenantId : String} {visibilityTimeoutMs : Option ℚ} {batchLimit : ℚ}
    (scan : Redis.SetScan)
    (hscope : InScope sha256 scan texts m r now (.claimByConsent consentId tenantId visibilityTimeoutMs batchLimit))
    (hmet : Met sha256 warm m r now (.claimByConsent consentId tenantId visibilityTimeoutMs batchLimit)) :
    Agree sha256 memory redis texts
      (InMemory.operate warm memory number m now (.claimByConsent consentId tenantId visibilityTimeoutMs batchLimit))
      (Redis.operate sha256 warm scan redis number r now
        (.claimByConsent consentId tenantId visibilityTimeoutMs batchLimit)) := by
  obtain ⟨x, y, hx, hy, hsame, halike⟩ := claimByConsent_alike warm visibilityTimeoutMs number hsha h hscope.1
    hlive.bindings scan fun work hwork =>
      have hdue := hmet work hwork
      ⟨hdue.1, hdue.2.1, scannable h hwork (hscope.2 work hwork) hdue.2.2⟩
  exact ⟨.of_eq (congrArg (Answer.ofExcept Answer.consent) hx) (congrArg (Answer.ofExcept Answer.consent) hy)
    (.consent hsame), halike⟩

theorem agree_claimDueConsentRevocations {workLimit sessionBatchLimit : ℚ} {visibilityTimeoutMs : Option ℚ}
    (scan : Redis.SetScan)
    (hscope : InScope sha256 scan texts m r now
      (.claimDueConsentRevocations workLimit sessionBatchLimit visibilityTimeoutMs))
    (hmet : Met sha256 warm m r now (.claimDueConsentRevocations workLimit sessionBatchLimit visibilityTimeoutMs)) :
    Agree sha256 memory redis texts
      (InMemory.operate warm memory number m now
        (.claimDueConsentRevocations workLimit sessionBatchLimit visibilityTimeoutMs))
      (Redis.operate sha256 warm scan redis number r now
        (.claimDueConsentRevocations workLimit sessionBatchLimit visibilityTimeoutMs)) := by
  have hdue : ∀ work ∈ m.revocationWork, work.dueAt ≤ now → now < work.expiresAt ∧
      Scannable scan (pageSize sessionBatchLimit) m.sessions (r.members (sha256 work.key)) work.tenantId work.consentId := by
    intro work hwork hle
    obtain ⟨hrunning, hindexed⟩ := hmet work hwork hle
    exact ⟨hrunning, scannable h (get?_of_mem h.revocations.keys hwork) (hscope.2.2 work hwork hle) hindexed⟩
  obtain ⟨xs, ys, hxs, hys, hsame, halike⟩ := claimDueConsentRevocations_alike warm visibilityTimeoutMs number hsha h
    hlive.bindings scan hdue hscope.1 hscope.2.1
  exact ⟨.of_eq (congrArg (Answer.ofExcept Answer.consents) hxs) (congrArg (Answer.ofExcept Answer.consents) hys)
    (.consents hsame), halike⟩

/-- Every operation. -/
theorem operate_alike (hnow : 0 ≤ now) (operation : Operation) (scan : Redis.SetScan)
    (hscope : InScope sha256 scan texts m r now operation) (hmet : Met sha256 warm m r now operation) :
    Agree sha256 memory redis texts (InMemory.operate warm memory number m now operation)
      (Redis.operate sha256 warm scan redis number r now operation) := by
  cases operation with
  | put connectId session => exact agree_put h hlive number hnow scan hscope hmet
  | restoreCancellation connectId session => exact agree_restoreCancellation h number scan hscope hmet
  | claim connectId principal action visibilityTimeoutMs confirmation =>
    exact agree_claimAuthorized hsha h hlive number
      (claimRequest connectId principal.tenantId action visibilityTimeoutMs confirmation (some principal)) rfl
      (fun p hp => Option.some.inj hp ▸ ⟨rfl, hscope⟩) hmet
  | claimForSystem connectId tenantId action visibilityTimeoutMs confirmation =>
    exact agree_claimAuthorized hsha h hlive number
      (claimRequest connectId tenantId action visibilityTimeoutMs confirmation none) rfl (by simp [claimRequest]) hmet
  | ack claim => exact agree_ack h hlive number claim scan
  | defer claim => exact agree_defer h hlive number claim scan
  | renew claim visibilityTimeoutMs => exact agree_renew h number claim visibilityTimeoutMs scan
  | claimState claim =>
    exact ⟨.of_eq (congrArg Answer.state (claimState_alike h.sessions claim)) rfl (.state _), h⟩
  | markConsentRevoked consentId tenantId ttlMs =>
    refine ⟨.of_eq rfl ?_ .done, markConsentRevoked_alike hsha h hscope.1 hscope.2⟩
    exact if_neg (not_le.2 hscope.2)
  | claimByConsent consentId tenantId visibilityTimeoutMs batchLimit =>
    exact agree_claimByConsent hsha h hlive number scan hscope hmet
  | claimDueConsentRevocations workLimit sessionBatchLimit visibilityTimeoutMs =>
    exact agree_claimDueConsentRevocations hsha h hlive number scan hscope hmet
  | settleConsentRevocation operation tenantId consentId =>
    obtain ⟨hsuccess, halike⟩ := settleConsentRevocation_alike now hsha h hscope
      (memory.work operation (InMemory.consentKey tenantId consentId))
      (redis.work operation (Redis.consentDigest sha256 tenantId consentId)) hmet
    exact ⟨.of_eq (congrArg Answer.whether hsuccess) rfl (.whether _), halike⟩
  | claimExpired limit visibilityTimeoutMs => exact agree_claimExpired h hlive number scan hscope hmet

end Operations

/-! ### A whole run -/

/-- Two empty registries are alike. -/
theorem alike_start (clock : ℤ) : RegistriesAlike sha256 memory redis texts (Registries.start clock).memory
    (Registries.start clock).redis where
  sessions :=
    { alike := fun c => ⟨none, rfl, rfl, by simp⟩
      records := List.nodup_nil
      sessions := List.nodup_nil
      claims := List.nodup_nil }
  revocations :=
    { alike := fun text _ => ⟨none, rfl, rfl, rfl, by simp⟩
      revoked := fun text _ => rfl
      keys := List.nodup_nil
      known := fun text h => Bool.noConfusion h
      work := List.nodup_nil
      tombstones := List.nodup_nil
      due := List.nodup_nil
      dueKnown := fun entry h => (List.not_mem_nil h).elim }
  indexes := fun index h => (List.not_mem_nil h).elim

theorem perform_alike (hsha : Set.InjOn sha256 texts) (scan : Redis.SetScan) {x y : Registries} {event : ℤ × Operation}
    (h : RegistriesAlike sha256 memory redis texts x.memory x.redis ∧ x.AnswerAlike sha256 memory redis)
    (hcondition : x.Proper sha256 scan texts event ∧ x.Met sha256 warm event)
    (hperform : x.perform sha256 warm scan memory redis event = some y) :
    RegistriesAlike sha256 memory redis texts y.memory y.redis ∧ y.AnswerAlike sha256 memory redis := by
  obtain ⟨halike, hanswers⟩ := h
  obtain ⟨⟨hnow, hlive, hscope⟩, hmet⟩ := hcondition
  have hagree := operate_alike hsha (halike.evict hlive) hlive x.performed hnow event.2 scan hscope hmet
  rw [Registries.perform] at hperform
  dsimp only at hperform
  split at hperform
  · obtain rfl := Option.some.inj hperform
    refine ⟨hagree.alike, fun answers hmem => ?_⟩
    rcases List.mem_append.1 hmem with hmem | hmem
    · exact hanswers answers hmem
    · rw [List.mem_singleton.1 hmem]
      exact hagree.answer
  · cases hperform

/-- Under operations that do not come to where the registries go different ways, every answer
is the same on both. -/
theorem registries_alike (hsha : Set.InjOn sha256 texts) (warm : Bool) (scan : Redis.SetScan) (memory redis : Tokens)
    (clock : ℤ) (events : List (ℤ × Operation))
    (hmet : Steps.Along (Registries.perform sha256 warm scan memory redis)
      (fun x event => x.Proper sha256 scan texts event ∧ x.Met sha256 warm event) (.start clock) events) :
    Steps.Throughout (Registries.perform sha256 warm scan memory redis) (Registries.AnswerAlike sha256 memory redis)
      (.start clock) events := by
  have halike := Steps.throughout_of_along
    (P := fun x => RegistriesAlike sha256 memory redis texts x.memory x.redis ∧ x.AnswerAlike sha256 memory redis)
    ⟨alike_start clock, fun answers h => (List.not_mem_nil h).elim⟩ hmet
    fun x event y h hcondition hperform => perform_alike hsha scan h hcondition hperform
  exact halike.mono fun x h => h.2

end Step

/-! ### Runs that are and are not alike -/

section Runs

/-- SHA-256 of the texts that are hashed below. -/
def digestOf (text : String) : String :=
  if text = "tenant\x00owner" then "27c31adf5c711c0d20f4e61d4716d66bcf09ac2bab0c1ad361feca98ef4f975a"
  else if text = "tenant\x00consent" then "f0876d82a0be48526e5e32c35a4ea66144fdafda212a76f0914fd088aad359fb"
  else if text = "tenant\x00" then "27ef642eb8bcb9080449bbc642cc0bf7a5efc05bd9758db945c12c91344e4f54"
  else if text = "a\x00b\x00c" then "8badde10c760e9b702defb4b5e225de79c515b1d2a5cfb000e140f3c6fbb5629"
  else text

def hashedTexts : Set String := {text | text ∈ ["tenant\x00owner", "tenant\x00consent", "tenant\x00", "a\x00b\x00c"]}

/-- A set that is small is listed at once. -/
def listed : Redis.SetScan := ⟨fun members _ _ => (0, members)⟩

def tokensInMemory : Tokens :=
  ⟨fun n c => 2 * Nat.pair n c, fun n _ => n, fun _ _ _ _ h => by simpa using h⟩

def tokensOnRedis : Tokens :=
  ⟨fun n c => 2 * Nat.pair n c + 1, fun n _ => n, fun _ _ _ _ h => by simpa using h⟩

instance decidableHashed (texts : Set String) [DecidablePred (· ∈ texts)] (session : DurableConnectSession) :
    Decidable (Hashed texts session) :=
  decidable_of_iff (ownerText session.tenantId session.ownerUserId ∈ texts ∧
      ∀ consentId ∈ session.consentId, InMemory.consentKey session.tenantId consentId ∈ texts)
    ⟨fun h => ⟨h.1, h.2⟩, fun h => ⟨h.1, h.2⟩⟩

instance decidableLive (m : InMemory.Memory) (now : ℤ) : Decidable (m.Live now) :=
  decidable_of_iff ((∀ record ∈ m.sessions.records, record.session.expired now = false) ∧
      ∀ tombstone ∈ m.sessions.revokedConsents, now < tombstone.2)
    ⟨fun h => ⟨h.1, h.2⟩, fun h => ⟨h.1, h.2⟩⟩

instance decidableCovers (sha256 : String → String) (scan : Redis.SetScan) (m : InMemory.Memory) (r : Redis.State)
    (batchLimit : ℚ) (work : InMemory.RevocationWork) : Decidable (Covers sha256 scan m r batchLimit work) :=
  inferInstanceAs (Decidable (_ ∧ _ ∧ _))

instance decidableIndexed (sha256 : String → String) (m : InMemory.Memory) (r : Redis.State)
    (tenantId consentId : String) : Decidable (Indexed sha256 m r tenantId consentId) :=
  inferInstanceAs (Decidable (∀ binding ∈ m.sessions.bindings, _))

instance decidableNamed (warm : Bool) (m : InMemory.Memory) (now : ℤ) (request : ClaimRequest) :
    Decidable (Named warm m now request) :=
  inferInstanceAs (Decidable (∀ record ∈ m.sessions.record? request.connectId, _))

instance decidableInScope (sha256 : String → String) (scan : Redis.SetScan) (texts : Set String) [DecidablePred (· ∈ texts)]
    (m : InMemory.Memory) (r : Redis.State) (now : ℤ) :
    (operation : Operation) → Decidable (InScope sha256 scan texts m r now operation)
  | .put .. | .restoreCancellation .. => inferInstanceAs (Decidable ((∀ deadline ∈ _, _) ∧ _))
  | .claim .. | .settleConsentRevocation .. => inferInstanceAs (Decidable (_ ∈ texts))
  | .claimForSystem .. | .ack .. | .defer .. | .renew .. | .claimState .. => .isTrue trivial
  | .markConsentRevoked .. => inferInstanceAs (Decidable (_ ∧ _))
  | .claimByConsent .. => inferInstanceAs (Decidable (_ ∧ ∀ work ∈ m.work? _, _))
  | .claimDueConsentRevocations .. => inferInstanceAs (Decidable (_ ∧ _ ∧ ∀ work ∈ m.revocationWork, _))
  | .claimExpired .. => inferInstanceAs (Decidable (_ ∧ _))

instance decidableMet (sha256 : String → String) (warm : Bool) (m : InMemory.Memory) (r : Redis.State) (now : ℤ) :
    (operation : Operation) → Decidable (Met sha256 warm m r now operation)
  | .put .. | .restoreCancellation .. => inferInstanceAs (Decidable (_ = true))
  | .claim .. | .claimForSystem .. => inferInstanceAs (Decidable (Named _ _ _ _))
  | .ack .. | .defer .. | .renew .. | .claimState .. | .markConsentRevoked .. => .isTrue trivial
  | .claimByConsent .. | .settleConsentRevocation .. => inferInstanceAs (Decidable (∀ work ∈ m.work? _, _))
  | .claimDueConsentRevocations .. => inferInstanceAs (Decidable (∀ work ∈ m.revocationWork, _))
  | .claimExpired .. => inferInstanceAs (Decidable (∀ record ∈ m.sessions.over now, _))

instance decidableProper (sha256 : String → String) (scan : Redis.SetScan) (texts : Set String)
    [DecidablePred (· ∈ texts)] (x : Registries)
    (event : ℤ × Operation) : Decidable (x.Proper sha256 scan texts event) :=
  inferInstanceAs (Decidable (_ ∧ _ ∧ InScope _ _ _ _ _ _ _))

instance decidableRegistriesMet (sha256 : String → String) (warm : Bool) (x : Registries) (event : ℤ × Operation) :
    Decidable (x.Met sha256 warm event) :=
  decidableMet ..

instance decidableHashedTexts : DecidablePred (· ∈ hashedTexts) := fun text =>
  inferInstanceAs (Decidable (text ∈ ["tenant\x00owner", "tenant\x00consent", "tenant\x00", "a\x00b\x00c"]))

def attendedSession : DurableConnectSession :=
  ⟨"tenant", "owner", ["artist"], "steel", some "consent", "workspace", some 1000000⟩

/-- A session is claimed to be confirmed, its consent is revoked meanwhile, and it is cancelled. -/
def revokedWhileConfirmed : List (ℤ × Operation) :=
  [(0, .put 7 attendedSession),
   (1, .claim 7 ⟨"tenant", "owner", false⟩ .confirm (some 60000) (some ⟨"search", "created"⟩)),
   (2, .markConsentRevoked "consent" "tenant" 900000),
   (2, .claimByConsent "consent" "tenant" (some 60000) 100),
   (3, .put 8 attendedSession),
   (4, .renew ⟨7, 1, .confirm, attendedSession, some ⟨"search", "created"⟩⟩ (some 60000)),
   (5, .ack ⟨7, 1, .confirm, attendedSession, some ⟨"search", "created"⟩⟩),
   (6, .settleConsentRevocation 3 "tenant" "consent"),
   (7, .claimDueConsentRevocations 10 100 (some 60000)),
   (8, .ack ⟨7, 8, .cancel, attendedSession, some ⟨"search", "created"⟩⟩),
   (9, .settleConsentRevocation 8 "tenant" "consent")]

theorem digestOf_injOn : Set.InjOn digestOf hashedTexts := by
  have hall : ∀ a ∈ ["tenant\x00owner", "tenant\x00consent", "tenant\x00", "a\x00b\x00c"],
      ∀ b ∈ ["tenant\x00owner", "tenant\x00consent", "tenant\x00", "a\x00b\x00c"], digestOf a = digestOf b → a = b := by
    decide +kernel
  exact fun a ha b hb => hall a ha b hb

theorem registries_alike_revokedWhileConfirmed : ∃ x,
    Steps.run (Registries.perform digestOf false listed tokensInMemory tokensOnRedis) (.start 0) revokedWhileConfirmed =
      some x ∧ x.AnswerAlike digestOf tokensInMemory tokensOnRedis := by
  have hsome : (Steps.run (Registries.perform digestOf false listed tokensInMemory tokensOnRedis) (.start 0)
      revokedWhileConfirmed).isSome := by decide +kernel
  obtain ⟨x, hx⟩ := Option.isSome_iff_exists.1 hsome
  exact ⟨x, hx, (registries_alike digestOf_injOn false listed tokensInMemory tokensOnRedis 0 revokedWhileConfirmed
    (by decide +kernel)).last hx⟩

/-- How many claims an answer gives, and how many are pending. -/
def Answer.extent {ω : Type} : Answer ω → ℕ × ℕ
  | .done | .failed _ | .state _ => (0, 0)
  | .claimed result => (result.claim?.toList.length, if result = .busy then 1 else 0)
  | .whether success => (success.toNat, 0)
  | .claims given => (given.length, 0)
  | .consent given => (given.claims.length, given.pending)
  | .consents batches => (batches.length, 0)

theorem SameAnswer.extent {memory redis : Tokens} {ω ω' : Type} {sameWork : ω → ω' → Prop} {x : Answer ω}
    {y : Answer ω'} (h : SameAnswer memory redis sameWork x y) : x.extent = y.extent := by
  cases h with
  | done | failed | whether | state => rfl
  | claimed hresult => cases hresult <;> simp [Answer.extent, ConnectSessionClaimResult.claim?]
  | claims hclaims =>
    obtain ⟨all, hperm, hall⟩ := hclaims
    exact congrArg (fun n => (n, 0)) (hperm.length_eq.trans hall.length_eq)
  | consent hclaims =>
    obtain ⟨⟨all, hperm, hall⟩, hpending, -⟩ := hclaims
    exact Prod.ext (hperm.length_eq.trans hall.length_eq) hpending
  | consents hbatches =>
    obtain ⟨all, hperm, hall⟩ := hbatches
    exact congrArg (fun n => (n, 0)) (hperm.length_eq.trans hall.length_eq)

/-- The sessions of a consent are claimed again before its work is due. -/
def claimedTwice : List (ℤ × Operation) :=
  [(0, .markConsentRevoked "consent" "tenant" 900000),
   (0, .claimByConsent "consent" "tenant" (some 60000) 100),
   (1, .claimByConsent "consent" "tenant" (some 60000) 100)]

/-- The tombstone is kept for longer than the work was begun for. -/
def revokedForLonger : List (ℤ × Operation) :=
  [(0, .markConsentRevoked "consent" "tenant" 1000),
   (500, .markConsentRevoked "consent" "tenant" 900000),
   (2000, .claimByConsent "consent" "tenant" (some 60000) 100)]

/-- A session that is restored is bound to its consent and is not in the index. -/
def restoredAndRevoked : List (ℤ × Operation) :=
  [(0, .restoreCancellation 7 attendedSession),
   (1, .markConsentRevoked "consent" "tenant" 900000),
   (2, .claimDueConsentRevocations 10 100 (some 60000)),
   (3, .claimByConsent "consent" "tenant" (some 60000) 100)]

/-- A session that was put under a consent is put again under none. -/
def putUnderNone : List (ℤ × Operation) :=
  [(0, .put 7 attendedSession),
   (1, .put 7 { attendedSession with consentId := none }),
   (2, .markConsentRevoked "consent" "tenant" 900000),
   (3, .settleConsentRevocation 2 "tenant" "consent")]

def confirmedForNothing : List (ℤ × Operation) :=
  [(0, .put 7 attendedSession),
   (1, .claimForSystem 7 "tenant" .confirm (some 60000) (some ⟨"", ""⟩))]

/-- A session that was handed off is confirmed again without a search, and then cancelled. -/
def confirmedAgain : List (ℤ × Operation) :=
  [(0, .put 7 attendedSession),
   (1, .claimForSystem 7 "tenant" .confirm (some 1000) (some ⟨"search", "created"⟩)),
   (2, .ack ⟨7, 1, .confirm, attendedSession, some ⟨"search", "created"⟩⟩),
   (3, .claimForSystem 7 "tenant" .confirm (some 1000) none),
   (4, .claimForSystem 7 "tenant" .cancel (some 1000) none),
   (2000, .claimForSystem 7 "tenant" .confirm (some 1000) none)]

def putForEver : List (ℤ × Operation) :=
  [(0, .put 7 { attendedSession with expiresAt := none }), (1, .claimForSystem 7 "tenant" .cancel (some 1000) none)]

def putForNoOne : List (ℤ × Operation) :=
  [(0, .put 7 { attendedSession with ownerUserId := "" }), (1, .claimForSystem 7 "tenant" .cancel (some 1000) none)]

/-- The work of one consent is settled under the name of another whose text is the same. -/
def settledForAnother : List (ℤ × Operation) :=
  [(0, .markConsentRevoked "c" "a\x00b" 900000),
   (1, .settleConsentRevocation 0 "a" "b\x00c"),
   (2, .claimByConsent "c" "a\x00b" (some 60000) 100)]

/-- The two registries answer differently. -/
theorem registries_differ : [claimedTwice, revokedForLonger, restoredAndRevoked, putUnderNone,
    settledForAnother, confirmedForNothing, confirmedAgain, putForEver, putForNoOne].Forall fun events =>
      ∃ x, Steps.run (Registries.perform digestOf true listed tokensInMemory tokensOnRedis) (.start 0) events =
          some x ∧
        Steps.Along (Registries.perform digestOf true listed tokensInMemory tokensOnRedis)
          (Registries.Proper digestOf listed hashedTexts) (.start 0) events ∧
        ¬ x.AnswerAlike digestOf tokensInMemory tokensOnRedis := by
  have hruns : ∀ events ∈ [claimedTwice, revokedForLonger, restoredAndRevoked, putUnderNone,
      settledForAnother, confirmedForNothing, confirmedAgain, putForEver, putForNoOne],
      ∃ x ∈ Steps.run (Registries.perform digestOf true listed tokensInMemory tokensOnRedis) (.start 0) events,
        Steps.Along (Registries.perform digestOf true listed tokensInMemory tokensOnRedis)
          (Registries.Proper digestOf listed hashedTexts) (.start 0) events ∧
        ∃ answers ∈ x.answers, answers.1.extent ≠ answers.2.extent := by
    decide +kernel
  rw [List.forall_iff_forall_mem]
  intro events hevents
  obtain ⟨x, hx, hproper, answers, hmem, hne⟩ := hruns events hevents
  exact ⟨x, hx, hproper, fun halike => hne (halike answers hmem).extent⟩

end Runs

end CatalogSentinel.Connect
