import CatalogSentinel.Connect.ConsentIndex
import CatalogSentinel.Connect.Revocation

/-!
How the revocation of a consent comes to every session that is bound to it, while calls,
scans and lifetimes go on. What a scan did not find is gone for good, so that taking it
from the index loses nothing; while the tombstone of a consent stands no session is put
that is bound to it.
-/

namespace CatalogSentinel.Connect.Redis

open CatalogSentinel.Concurrent CatalogSentinel.Data

variable {sha256 : String → String} {warm : Bool} {s t : State} {sys next : System} {e : Event}
  {id : ℕ} {now clock : ℤ} {digest : String}

abbrev State.tombstone? (s : State) (digest : String) : Option (String × ℤ) :=
  get? Prod.fst digest s.tombstones

/-- Sessions and indexes are as they were. -/
structure Untouched (s t : State) : Prop where
  sessions : t.sessions = s.sessions
  indexes : t.indexes = s.indexes
  used : t.past.used = s.past.used

/-- What an event does to the keys of sessions and consents, by the time of `clock`. -/
inductive Change (sha256 : String → String) (e : Event) (clock : ℤ) (s t : State) : Prop
  | frame (h : Frame s t)
  | removed (digest : String) (id : ℕ) (h : Removes s t digest id)
  | put (id : ℕ) (session : DurableConnectSession) (hnew : id ∉ s.past.used)
      (h : Puts sha256 s t id session)
  | marked (digest : String) (deadline : ℤ) (h : Untouched s t)
      (htombstones : t.tombstones = put Prod.fst (digest, deadline) s.tombstones)
  | indexDropped (index : IndexKey) (hindex : s.index? index.digest = some index)
      (hdeadline : index.deadline ≤ clock)
      (h : t = { s with indexes := erase IndexKey.digest index.digest s.indexes })
  | tombstoneDropped (digest : String) (deadline : ℤ)
      (he : e = .expireTombstone clock digest) (htombstone : s.tombstone? digest = some (digest, deadline))
      (hdeadline : deadline ≤ clock)
      (h : t = { s with tombstones := erase Prod.fst digest s.tombstones })

/-- The page of a scan holds sessions that were put, and who it did not find is gone. -/
structure Scan.Sound (s : State) (scan : Scan) : Prop where
  page : ∀ page, scan.page = some page → ∀ id ∈ page, id ∈ s.past.used
  missing : ∀ id, scan.missing = some id → id ∈ s.past.used ∧ s.session? id = none

structure System.Sound (sha256 : String → String) (sys : System) : Prop where
  wellFormed : sys.redis.WellFormed sha256
  indexed : Indexed sha256 sys.redis sys.clock
  scans : ∀ scan ∈ sys.scans, scan.Sound sys.redis
  claimed : ∀ work ∈ sys.claimed, work.digest = consentDigest sha256 work.tenantId work.consentId

theorem Untouched.fromBefore (h : Untouched s t) : FromBefore s t := .of_sessions h.sessions

theorem Puts.fromBefore {session : DurableConnectSession} (h : Puts sha256 s t id session) :
    (∀ j ∈ s.past.used, j ∈ t.past.used) ∧ ∀ j, j ≠ id → t.session? j = s.session? j := by
  have hregistered : ∀ deadline,
      t.sessions = (s.register id (newValue sha256 session) deadline).sessions →
      t.past.used = id :: s.past.used →
      (∀ j ∈ s.past.used, j ∈ t.past.used) ∧ ∀ j, j ≠ id → t.session? j = s.session? j := by
    intro deadline hsessions hused
    refine ⟨fun j hj => ?_, fun j hj => ?_⟩
    · rw [hused]
      exact List.mem_cons_of_mem id hj
    · rw [session?_register hsessions, if_neg (Ne.symm hj)]
  cases h with
  | refused h =>
    subst h
    exact ⟨fun _ hj => hj, fun _ _ => rfl⟩
  | unbound deadline hbound h =>
    subst h
    exact hregistered deadline rfl rfl
  | bound deadline consentId hbound hnone h =>
    subst h
    exact hregistered deadline rfl rfl

/-- Ids that were put stay so, and who was gone does not come back. -/
theorem Change.gone (h : Change sha256 e clock s t) : (∀ id ∈ s.past.used, id ∈ t.past.used) ∧
    ∀ id ∈ s.past.used, s.session? id = none → t.session? id = none := by
  have hbefore : t.past.used = s.past.used → FromBefore s t →
      (∀ id ∈ s.past.used, id ∈ t.past.used) ∧
        ∀ id ∈ s.past.used, s.session? id = none → t.session? id = none :=
    fun hused hfrom => ⟨fun id hid => hused ▸ hid, fun id _ hnone => hfrom.none hnone⟩
  cases h with
  | frame h => exact hbefore h.used h.sessions
  | removed digest id h => exact hbefore h.used h.sessions
  | put id session hnew h =>
    obtain ⟨hused, hsame⟩ := h.fromBefore
    refine ⟨hused, fun j hj hnone => ?_⟩
    rw [hsame j fun heq => hnew (heq ▸ hj)]
    exact hnone
  | marked digest deadline h htombstones => exact hbefore h.used h.fromBefore
  | indexDropped index hindex hdeadline h =>
    subst h
    exact hbefore rfl (.of_sessions rfl)
  | tombstoneDropped digest deadline he htombstone hdeadline h =>
    subst h
    exact hbefore rfl (.of_sessions rfl)

theorem Change.scan {scan : Scan} (h : Change sha256 e clock s t) (hscan : scan.Sound s) : scan.Sound t := by
  obtain ⟨hused, hgone⟩ := h.gone
  refine ⟨fun page hpage id hid => hused id (hscan.page page hpage id hid), fun id hid => ?_⟩
  obtain ⟨hmem, hnone⟩ := hscan.missing id hid
  exact ⟨hused id hmem, hgone id hmem hnone⟩

theorem Change.indexed (h : Change sha256 e clock s t) (hs : Indexed sha256 s clock) :
    Indexed sha256 t clock := by
  cases h with
  | frame h => exact hs.carried h.sessions h.indexes h.used
  | removed digest id h => exact hs.removed h
  | put id session hnew h => exact hs.put h
  | marked digest deadline h htombstones => exact hs.carried h.fromBefore h.indexes h.used
  | indexDropped index hindex hdeadline h =>
    subst h
    exact hs.dropped hindex hdeadline rfl rfl rfl
  | tombstoneDropped digest deadline he htombstone hdeadline h =>
    subst h
    exact hs.carried (.of_sessions rfl) rfl rfl

theorem markConsentRevoked_cases (s : State) (now : ℤ) (consentId tenantId : String) (ttlMs : ℤ) :
    markConsentRevoked sha256 s now consentId tenantId ttlMs = s ∨
      Untouched s (markConsentRevoked sha256 s now consentId tenantId ttlMs) ∧
        (markConsentRevoked sha256 s now consentId tenantId ttlMs).tombstones =
          put Prod.fst (consentDigest sha256 tenantId consentId, now + ttlMs) s.tombstones := by
  unfold markConsentRevoked
  split
  · exact .inl rfl
  · exact .inr ⟨⟨rfl, rfl, rfl⟩, rfl⟩

/-- A call on the registry is one of the changes. -/
theorem change_of_step {call : Call Sweep} (h : step (registry sha256 warm) s call = some t) :
    Change sha256 (.call call) clock s t := by
  cases call with
  | put now id session =>
    simp only [step] at h
    split at h
    · cases h
    · rename_i hnew
      obtain rfl := Option.some.inj h
      exact .put id session hnew (putSession_cases s now id session)
  | claim now principal request =>
    obtain rfl := Option.some.inj h
    exact .frame (frame_claimAuthorized _)
  | claimForSystem now request =>
    obtain rfl := Option.some.inj h
    exact .frame (frame_claimAuthorized _)
  | ack now claim =>
    obtain ⟨-, rfl⟩ := Option.ite_some_none_eq_some.1 h
    have hack : Frame s (ack sha256 s now claim).1 ∨ _ := ack_cases claim
    rcases hack with hack | ⟨digest, hack⟩
    · exact .frame hack
    · exact .removed digest _ hack
  | defer now claim =>
    obtain ⟨-, rfl⟩ := Option.ite_some_none_eq_some.1 h
    exact .frame (frame_defer claim)
  | renew now claim visibilityTimeoutMs =>
    obtain ⟨-, rfl⟩ := Option.ite_some_none_eq_some.1 h
    exact .frame (frame_renew claim visibilityTimeoutMs)
  | claimState claim =>
    obtain ⟨-, rfl⟩ := Option.ite_some_none_eq_some.1 h
    exact .frame (.refl s)
  | claimExpired now sweep visibilityTimeoutMs =>
    obtain rfl := Option.some.inj h
    exact .frame (frame_claimExpired sweep visibilityTimeoutMs)
  | markConsentRevoked now consentId tenantId ttlMs =>
    obtain rfl := Option.some.inj h
    have hmark : markConsentRevoked sha256 s now consentId tenantId ttlMs = s ∨ _ :=
      markConsentRevoked_cases s now consentId tenantId ttlMs
    rcases hmark with hmark | ⟨hsame, htombstones⟩
    · refine .frame ?_
      show Frame s (markConsentRevoked sha256 s now consentId tenantId ttlMs)
      rw [hmark]
      exact .refl s
    · exact .marked _ _ hsame htombstones
  | expire now connectId =>
    obtain rfl := Option.some.inj h
    exact .frame (frame_expire connectId)

/-- What a reply of the script tells of the session. -/
def Tells (a : ClaimScript) : State × ClaimReply → Prop
  | (t, .missing) => t.session? a.connectId = none
  | (_, .handedOff) => a.action = .confirm
  | (_, .encoded value) => value.claimToken.isSome ∧ value.claimAction.isSome
  | (_, _) => True

theorem tells_claimScript (a : ClaimScript) : Tells a (claimScript s a) := by
  unfold claimScript
  split
  · assumption
  split
  · trivial
  split
  · trivial
  dsimp only
  split
  · rename_i hoff
    exact hoff.2.1
  generalize (if ((Value.requested _ a.action).rewarmed a.action).cancelRequested = true then _ else _) = action
  split
  · trivial
  split
  · trivial
  · exact ⟨rfl, rfl⟩

/-- A session that is not found when it is to be cancelled is not there. -/
theorem claimAuthorized_notFound {request : ClaimRequest} (haction : request.action = .cancel)
    (h : (claimAuthorized sha256 warm s now request).2 = .notFound) :
    (claimAuthorized sha256 warm s now request).1.session? request.connectId = none := by
  have htells := tells_claimScript (s := s) (ClaimRequest.script sha256 warm s now request)
  unfold claimAuthorized at h ⊢
  generalize claimScript s (ClaimRequest.script sha256 warm s now request) = out at h htells ⊢
  obtain ⟨t, reply⟩ := out
  cases reply with
  | missing => exact htells
  | handedOff =>
    have hconfirm : request.action = .confirm := htells
    rw [haction] at hconfirm
    cases hconfirm
  | ownershipMismatch | busy | missingConfirmationWork => cases h
  | encoded value =>
    obtain ⟨htoken, hstored⟩ : value.claimToken.isSome ∧ value.claimAction.isSome := htells
    obtain ⟨token, htoken⟩ := Option.isSome_iff_exists.1 htoken
    obtain ⟨action, hstored⟩ := Option.isSome_iff_exists.1 hstored
    exfalso
    dsimp only at h
    split at h
    · cases h
    · simp only [storedClaim, htoken, hstored, Option.bind_eq_bind, Option.bind_some] at h
      cases h

/-- A scan that claims the next of its page drops no session; who it does not find is gone. -/
structure ClaimsNext (sha256 : String → String) (sys next : System) : Prop where
  frame : Frame sys.redis next.redis
  wellFormed : sys.redis.WellFormed sha256 → next.redis.WellFormed sha256
  stays : sys.redis.WellFormed sha256 → ∀ id, (sys.redis.session? id).isSome → (next.redis.session? id).isSome
  claimed : next.claimed = sys.claimed
  clock : next.clock = sys.clock
  scans : (∀ scan ∈ sys.scans, scan.Sound sys.redis) → ∀ scan ∈ next.scans, scan.Sound next.redis

theorem lives_isSome : ((lives s).life id).isSome = (s.session? id).isSome := by
  rw [lives, Option.isSome_map]

theorem goes_stays (h : Goes sha256 (fun _ => False) s t) (hsome : (s.session? id).isSome) :
    (t.session? id).isSome := by
  cases hnone : t.session? id with
  | some key => rfl
  | none =>
    have hlife : (lives t).life id = none := congrArg (Option.map fun key : SessionKey => key.value.life) hnone
    exact (h.moves.gone_of (lives_isSome.trans hsome) hlife).elim

theorem claimsNext {i : ℕ} {visibilityTimeoutMs : Option ℚ} {decrypts : Bool}
    (h : claimNext sha256 warm sys now i visibilityTimeoutMs decrypts = some next) :
    ClaimsNext sha256 sys next := by
  unfold claimNext at h
  obtain ⟨scan, hscan, h⟩ := Option.bind_eq_some_iff.1 h
  have hmem : scan ∈ sys.scans := List.mem_of_getElem? hscan
  split at h
  swap
  · cases h
  rename_i connectId page hpage hmissing
  obtain ⟨request, hrequest⟩ :
    ∃ request, cancelRequest scan.work connectId visibilityTimeoutMs decrypts = request := ⟨_, rfl⟩
  have haction : request.action = .cancel := hrequest ▸ rfl
  have hid : request.connectId = connectId := hrequest ▸ rfl
  rw [hrequest] at h
  have hframe : Frame sys.redis (claimAuthorized sha256 warm sys.redis now request).1 :=
    frame_claimAuthorized request
  have hnone : (claimAuthorized sha256 warm sys.redis now request).2 = .notFound →
      (claimAuthorized sha256 warm sys.redis now request).1.session? request.connectId = none :=
    claimAuthorized_notFound haction
  have hgoes : sys.redis.WellFormed sha256 →
      Goes sha256 (fun _ => False) sys.redis (claimAuthorized sha256 warm sys.redis now request).1 :=
    fun hs => goes_claimAuthorized hs request
  generalize claimAuthorized sha256 warm sys.redis now request = out at h hframe hnone hgoes
  obtain ⟨t, result⟩ := out
  have hchange : Change sha256 (.crash i) now sys.redis t := .frame hframe
  have hsound : (∀ scan ∈ sys.scans, scan.Sound sys.redis) → ∀ scan ∈ sys.scans, scan.Sound t :=
    fun hs scan hscan => hchange.scan (hs scan hscan)
  have hclaims : ∀ scans, (∀ scan' ∈ scans, scan' ∈ sys.scans ∨ (scan.Sound t → scan'.Sound t)) →
      ClaimsNext sha256 sys { sys with redis := t, scans } := fun scans hscans =>
    ⟨hframe, fun hs => (hgoes hs).wellFormed, fun hs id => goes_stays (hgoes hs), rfl, rfl,
      fun hs scan' hscan' => (hscans scan' hscan').elim (hsound hs scan') fun h => h (hsound hs scan hmem)⟩
  cases result with
  | failed message =>
    obtain rfl := Option.some.inj h
    exact hclaims _ fun scan' hscan' => .inl (List.mem_of_mem_eraseIdx hscan')
  | notFound =>
    obtain rfl := Option.some.inj h
    refine hclaims _ fun scan' hscan' => (List.mem_or_eq_of_mem_set hscan').imp_right ?_
    rintro rfl hs
    have hused : connectId ∈ t.past.used := hs.page _ hpage connectId List.mem_cons_self
    refine ⟨fun page' hpage' j hj => ?_, fun j hj => ?_⟩
    · obtain rfl := Option.some.inj hpage'
      exact hs.page _ hpage j (List.mem_cons_of_mem connectId hj)
    · obtain rfl := Option.some.inj hj
      exact ⟨hused, hid ▸ hnone rfl⟩
  | claimed claim | busy | ownershipMismatch =>
    obtain rfl := Option.some.inj h
    refine hclaims _ fun scan' hscan' => (List.mem_or_eq_of_mem_set hscan').imp_right ?_
    rintro rfl hs
    refine ⟨fun page' hpage' j hj => ?_, hs.missing⟩
    obtain rfl := Option.some.inj hpage'
    exact hs.page _ hpage j (List.mem_cons_of_mem connectId hj)

/-- The event acknowledges a claim to cancel the session. -/
def Released (e : Event) (id : ℕ) : Prop :=
  ∃ now claim, e = .call (.ack now claim) ∧ claim.connectId = id ∧ claim.action = .cancel

/-- One event of a run. -/
structure Follows (sha256 : String → String) (sys : System) (e : Event) (next : System) : Prop where
  change : Change sha256 e next.clock sys.redis next.redis
  sound : next.Sound sha256
  leaves : ∀ id key, sys.redis.session? id = some key →
    (next.redis.session? id).isSome ∨ Released e id ∨ key.deadline ≤ next.clock

theorem follows_of_sessions (hs : sys.Sound sha256) (hclock : sys.clock ≤ next.clock)
    (hchange : Change sha256 e next.clock sys.redis next.redis)
    (hsessions : next.redis.sessions = sys.redis.sessions)
    (hscans : ∀ scan ∈ next.scans, scan ∈ sys.scans ∨ scan.Sound next.redis)
    (hclaimed : ∀ work ∈ next.claimed, work ∈ sys.claimed ∨
      work.digest = consentDigest sha256 work.tenantId work.consentId) : Follows sha256 sys e next := by
  have hget : ∀ id, next.redis.session? id = sys.redis.session? id := fun id => by
    rw [State.session?, hsessions]
  refine ⟨hchange, ⟨fun id key hkey => ?_, hchange.indexed (hs.indexed.later hclock),
    fun scan hscan => ?_, fun work hwork => ?_⟩, fun id key hkey => .inl ?_⟩
  · exact hs.wellFormed id key ((hget id).symm.trans hkey)
  · exact (hscans scan hscan).elim (fun h => hchange.scan (hs.scans scan h)) fun h => h
  · exact (hclaimed work hwork).elim (hs.claimed work) fun h => h
  · rw [hget, hkey]
    rfl

theorem follows_call {call : Call Sweep} (hs : sys.Sound sha256) (hclock : sys.clock ≤ clock)
    (hnow : ∀ now, (Event.call call).now? = some now → now = clock)
    (h : step (registry sha256 warm) sys.redis call = some t) :
    Follows sha256 sys (.call call) { sys with redis := t, clock } := by
  obtain ⟨hwellFormed, hmoves⟩ := lawful.moves sys.redis call t hs.wellFormed h
  have hchange : Change sha256 (.call call) clock sys.redis t := change_of_step h
  refine ⟨hchange, ⟨hwellFormed, hchange.indexed (hs.indexed.later hclock),
    fun scan hscan => hchange.scan (hs.scans scan hscan), hs.claimed⟩, fun id key hkey => ?_⟩
  cases hnone : t.session? id with
  | some key' => exact .inl rfl
  | none =>
    have hlife : (lives t).life id = none := congrArg (Option.map fun key : SessionKey => key.value.life) hnone
    have hleaves : LeavesBy (registry sha256 warm) sys.redis call id :=
      hmoves.gone_of (lives_isSome.trans (by rw [hkey]; rfl)) hlife
    have hexpired : ∀ now, (Event.call call).now? = some now → (∃ session,
        (registry sha256 warm).session sys.redis id = some session ∧ session.expired now = true) →
        key.deadline ≤ clock := by
      rintro now hnow' ⟨session, hsession, hexpired⟩
      have hsession' : (sys.redis.session? id).map (fun key => key.value.encryptedSession) = some session :=
        hsession
      rw [hkey] at hsession'
      obtain rfl := Option.some.inj hsession'
      rw [DurableConnectSession.expired, (hs.wellFormed id key hkey).bound.2] at hexpired
      rw [← hnow now hnow']
      exact of_decide_eq_true hexpired
    right
    cases call with
    | ack now claim => exact .inl ⟨now, claim, rfl, hleaves⟩
    | claim now principal request => exact .inr (hexpired now rfl hleaves)
    | claimForSystem now request => exact .inr (hexpired now rfl hleaves)
    | expire now connectId => exact .inr (hexpired now rfl hleaves)
    | put | defer | renew | claimState | claimExpired | markConsentRevoked => exact hleaves.elim

/-- Work and tokens are of no account to sessions and indexes. -/
structure Aside (s t : State) : Prop extends Untouched s t where
  tombstones : t.tombstones = s.tombstones

theorem Aside.frame (h : Aside s t) : Frame s t := ⟨h.fromBefore, h.indexes, h.tombstones, h.used⟩

theorem aside_claimWorkScript (s : State) (digest : String) (now : ℤ) (token : ℕ) (workUntil : ℤ) :
    Aside s (claimWorkScript s digest now token workUntil).1 := by
  unfold claimWorkScript
  split
  · exact ⟨⟨rfl, rfl, rfl⟩, rfl⟩
  · split <;> exact ⟨⟨rfl, rfl, rfl⟩, rfl⟩

theorem aside_advanceScript (token cursor : ℕ) (dueAt : ℤ) :
    Aside s (advanceScript s digest token cursor dueAt) := by
  unfold advanceScript
  split
  · exact ⟨⟨rfl, rfl, rfl⟩, rfl⟩
  · split <;> exact ⟨⟨rfl, rfl, rfl⟩, rfl⟩

theorem aside_settleScript (s : State) (indexDigest digest : String) (now : ℤ) :
    Aside s (settleScript s indexDigest digest now).1 := by
  unfold settleScript
  split
  · exact ⟨⟨rfl, rfl, rfl⟩, rfl⟩
  split
  · exact ⟨⟨rfl, rfl, rfl⟩, rfl⟩
  · split <;> exact ⟨⟨rfl, rfl, rfl⟩, rfl⟩

theorem parse_digest {token : ℕ} {decrypts : Bool} {value : WorkValue} {work : ConsentRevocationWorkClaim}
    (h : parseConsentRevocationWork sha256 decrypts digest token value = some work) :
    work.digest = consentDigest sha256 work.tenantId work.consentId := by
  unfold parseConsentRevocationWork at h
  split at h
  · rename_i hcond
    obtain rfl := Option.some.inj h
    simp only [Bool.and_eq_true, decide_eq_true_eq] at hcond
    exact hcond.2.symm
  · cases h

theorem aside_claimWork (s : State) (now : ℤ) (digest : String) (visibilityTimeoutMs : Option ℚ)
    (decrypts : Bool) :
    Aside s (claimConsentRevocationWork sha256 s now digest visibilityTimeoutMs decrypts).1 ∧
      ∀ work ∈ (claimConsentRevocationWork sha256 s now digest visibilityTimeoutMs decrypts).2,
        work.digest = consentDigest sha256 work.tenantId work.consentId := by
  have haside := aside_claimWorkScript s digest now s.past.fresh
    (now + positiveVisibility visibilityTimeoutMs)
  unfold claimConsentRevocationWork
  generalize claimWorkScript s digest now s.past.fresh (now + positiveVisibility visibilityTimeoutMs) = out
    at haside
  obtain ⟨t, value⟩ := out
  cases value with
  | none => exact ⟨haside, nofun⟩
  | some value =>
    exact ⟨⟨⟨haside.sessions, haside.indexes, haside.used⟩, haside.tombstones⟩, fun work hwork =>
      parse_digest hwork⟩

theorem perform_of_happen (hhappen : happen sha256 warm sys e = some next) :
    ∃ u, perform sha256 warm sys e = some u ∧ next = { u with clock := e.now?.getD sys.clock } ∧
      sys.clock ≤ e.now?.getD sys.clock := by
  unfold happen at hhappen
  split at hhappen
  swap
  · cases hhappen
  rename_i hguard
  obtain ⟨u, h, rfl⟩ := Option.map_eq_some_iff.1 hhappen
  refine ⟨u, h, rfl, ?_⟩
  cases hnow : e.now? with
  | none => exact le_refl _
  | some now =>
    rw [hnow] at hguard
    exact of_decide_eq_true hguard

theorem follows (hs : sys.Sound sha256) (hhappen : happen sha256 warm sys e = some next) :
    Follows sha256 sys e next := by
  obtain ⟨u, h, rfl, hclock⟩ := perform_of_happen hhappen
  have haside : ∀ t scans claimed, Aside sys.redis t →
      (∀ scan ∈ scans, scan ∈ sys.scans ∨ scan.Sound t) →
      (∀ work ∈ claimed, work ∈ sys.claimed ∨
        work.digest = consentDigest sha256 work.tenantId work.consentId) →
      Follows sha256 sys e ⟨t, e.now?.getD sys.clock, scans, claimed⟩ :=
    fun t scans claimed ht hscans hclaimed =>
      follows_of_sessions hs hclock (.frame ht.frame) ht.sessions hscans hclaimed
  cases e with
  | call call =>
    obtain ⟨t, ht, rfl⟩ := Option.map_eq_some_iff.1 h
    exact follows_call hs hclock (fun now hnow => by rw [hnow]; rfl) ht
  | claimWork now digest visibilityTimeoutMs decrypts =>
    obtain rfl := Option.some.inj h
    obtain ⟨hwork, hdigest⟩ : Aside sys.redis
        (claimConsentRevocationWork sha256 sys.redis now digest visibilityTimeoutMs decrypts).1 ∧ _ :=
      aside_claimWork sys.redis now digest visibilityTimeoutMs decrypts
    refine haside _ _ _ hwork (fun scan hscan => ?_) fun work hwork' => ?_
    · refine (List.mem_append.1 hscan).imp_right fun hscan => ?_
      obtain ⟨work, -, rfl⟩ := Option.map_eq_some_iff.1 (Option.mem_toList.1 hscan)
      constructor <;> rintro _ ⟨⟩
    · exact (List.mem_append.1 hwork').imp_right fun hwork' => hdigest work (Option.mem_toList.1 hwork')
  | readPage i page nextCursor =>
    obtain ⟨scan, hscan, h⟩ := Option.bind_eq_some_iff.1 h
    obtain ⟨⟨-, hpage⟩, h⟩ := Option.ite_none_right_eq_some.1 h
    obtain rfl := Option.some.inj h
    have hmem : scan ∈ sys.scans := List.mem_of_getElem? hscan
    refine haside _ _ _ ⟨⟨rfl, rfl, rfl⟩, rfl⟩ (fun scan' hscan' => ?_) fun work hwork => .inl hwork
    refine (List.mem_or_eq_of_mem_set hscan').imp_right ?_
    rintro rfl
    refine ⟨fun page' hpage' id hid => ?_, (hs.scans scan hmem).missing⟩
    obtain rfl := Option.some.inj hpage'
    have hin := hpage id hid
    unfold State.members at hin
    cases hindex : sys.redis.index? (consentDigest sha256 scan.work.tenantId scan.work.consentId) with
    | none =>
      rw [hindex] at hin
      cases hin
    | some index =>
      rw [hindex] at hin
      exact hs.indexed.used _ index hindex id hin
  | claimNext now i visibilityTimeoutMs decrypts =>
    have hclaims : ClaimsNext sha256 sys u := claimsNext h
    have hchange : Change sha256 (.claimNext now i visibilityTimeoutMs decrypts) now sys.redis u.redis :=
      .frame hclaims.frame
    refine ⟨hchange, ⟨hclaims.wellFormed hs.wellFormed, hchange.indexed (hs.indexed.later hclock),
      hclaims.scans hs.scans, fun work hwork => hs.claimed work (hclaims.claimed ▸ hwork)⟩,
      fun id key hkey => .inl ?_⟩
    exact hclaims.stays hs.wellFormed id (by rw [hkey]; rfl)
  | remove i =>
    obtain ⟨scan, hscan, h⟩ := Option.bind_eq_some_iff.1 h
    obtain ⟨id, hid, h⟩ := Option.bind_eq_some_iff.1 h
    obtain rfl := Option.some.inj h
    have hmem : scan ∈ sys.scans := List.mem_of_getElem? hscan
    obtain ⟨htombstones, hsessions, hpast⟩ : _ ∧ _ ∧ _ := srem_same (s := sys.redis)
      (consentDigest sha256 scan.work.tenantId scan.work.consentId) id
    have hgone : sys.redis.session? id = none := ((hs.scans scan hmem).missing id hid).2
    have hremoves : Removes sys.redis
        (sys.redis.srem (consentDigest sha256 scan.work.tenantId scan.work.consentId) id) _ id :=
      ⟨.of_sessions hsessions, by rw [State.session?, hsessions]; exact hgone, rfl, htombstones,
        congrArg Past.used hpast⟩
    have hchange : Change sha256 (.remove i) sys.clock sys.redis _ := .removed _ id hremoves
    refine follows_of_sessions hs hclock hchange hsessions (fun scan' hscan' => ?_) fun work hwork => .inl hwork
    refine (List.mem_or_eq_of_mem_set hscan').imp_right ?_
    rintro rfl
    have hscan' := hchange.scan (hs.scans scan hmem)
    refine ⟨hscan'.page, ?_⟩
    rintro _ ⟨⟩
  | advance now i visibilityTimeoutMs =>
    obtain ⟨scan, hscan, h⟩ := Option.bind_eq_some_iff.1 h
    obtain ⟨-, rfl⟩ := Option.ite_some_none_eq_some.1 h
    exact haside _ _ _ (aside_advanceScript _ _ _) (fun scan' hscan' => .inl (List.mem_of_mem_eraseIdx hscan'))
      fun work hwork => .inl hwork
  | settle now work =>
    obtain ⟨-, rfl⟩ := Option.ite_some_none_eq_some.1 h
    exact haside _ _ _ (aside_settleScript _ _ _ _) (fun scan hscan => .inl hscan) fun work hwork => .inl hwork
  | crash i =>
    obtain rfl := Option.some.inj h
    exact haside _ _ _ ⟨⟨rfl, rfl, rfl⟩, rfl⟩ (fun scan hscan => .inl (List.mem_of_mem_eraseIdx hscan))
      fun work hwork => .inl hwork
  | expireIndex now digest =>
    obtain ⟨index, hindex, h⟩ := Option.bind_eq_some_iff.1 h
    obtain ⟨hdeadline, rfl⟩ := Option.ite_some_none_eq_some.1 h
    obtain rfl := key_of_get? hindex
    exact follows_of_sessions hs hclock (.indexDropped index hindex hdeadline rfl) rfl
      (fun scan hscan => .inl hscan) fun work hwork => .inl hwork
  | expireTombstone now digest =>
    obtain ⟨tombstone, htombstone, h⟩ := Option.bind_eq_some_iff.1 h
    obtain ⟨hdeadline, rfl⟩ := Option.ite_some_none_eq_some.1 h
    obtain ⟨digest', deadline⟩ := tombstone
    obtain rfl := key_of_get? htombstone
    exact follows_of_sessions hs hclock (.tombstoneDropped _ deadline rfl htombstone hdeadline rfl) rfl
      (fun scan hscan => .inl hscan) fun work hwork => .inl hwork
  | expireWork now digest =>
    obtain ⟨key, -, h⟩ := Option.bind_eq_some_iff.1 h
    obtain ⟨-, rfl⟩ := Option.ite_some_none_eq_some.1 h
    exact haside _ _ _ ⟨⟨rfl, rfl, rfl⟩, rfl⟩ (fun scan hscan => .inl hscan) fun work hwork => .inl hwork

theorem sound_start (clock : ℤ) : (start clock).Sound sha256 := by
  have hsession : ∀ id, (start clock).redis.session? id = none := fun _ => rfl
  have hindex : ∀ digest, (start clock).redis.index? digest = none := fun _ => rfl
  refine ⟨fun id key hkey => ?_, ⟨fun digest index hdigest => ?_, fun id key hkey => ?_,
    fun id key consentId hkey => ?_⟩, fun scan hscan => ?_, fun work hwork => ?_⟩
  · rw [hsession] at hkey
    cases hkey
  · rw [hindex] at hdigest
    cases hdigest
  · rw [hsession] at hkey
    cases hkey
  · rw [hsession] at hkey
    cases hkey
  · cases hscan
  · cases hwork

theorem sound_run {events : List Event} (hs : sys.Sound sha256)
    (h : Steps.run (happen sha256 warm) sys events = some next) : next.Sound sha256 :=
  (Steps.throughout_of_step events hs fun _ _ _ hsound he => (follows hsound he).sound).last h

theorem Puts.tombstones {session : DurableConnectSession} (h : Puts sha256 s t id session) :
    t.tombstones = s.tombstones := by
  cases h with
  | refused h | unbound _ _ h | bound _ _ _ _ h =>
    subst h
    rfl

/-- A tombstone goes only when it is over. -/
theorem Change.tombstone {deadline : ℤ} (h : Change sha256 e clock s t)
    (hstands : s.tombstone? digest = some (digest, deadline)) :
    (t.tombstone? digest).isSome ∨ (e = .expireTombstone clock digest ∧ deadline ≤ clock) := by
  have hsome : (get? Prod.fst digest s.tombstones).isSome := by
    rw [show get? Prod.fst digest s.tombstones = some (digest, deadline) from hstands]
    rfl
  have hsame : t.tombstones = s.tombstones → (t.tombstone? digest).isSome := fun h => by
    rw [State.tombstone?, h]
    exact hsome
  cases h with
  | frame h => exact .inl (hsame h.tombstones)
  | removed digest' id h => exact .inl (hsame h.tombstones)
  | put id session hnew h => exact .inl (hsame h.tombstones)
  | marked digest' deadline' h htombstones =>
    left
    rw [State.tombstone?, htombstones, get?_put]
    split
    · rfl
    · exact hsome
  | indexDropped index hindex hdeadline h =>
    subst h
    exact .inl (hsame rfl)
  | tombstoneDropped digest' deadline' he htombstone hdeadline h =>
    subst h
    by_cases hd : digest = digest'
    · subst hd
      obtain ⟨-, rfl⟩ := Prod.mk.inj (Option.some.inj (hstands.symm.trans htombstone))
      exact .inr ⟨he, hdeadline⟩
    · left
      show (get? Prod.fst digest (erase Prod.fst digest' s.tombstones)).isSome
      rw [get?_erase_of_ne hd]
      exact hsome

/-- While its tombstone stands no session comes that is bound to the consent. -/
theorem Change.refused {key : SessionKey} {tenantId consentId : String} (h : Change sha256 e clock s t)
    (hstands : (s.tombstone? (consentDigest sha256 tenantId consentId)).isSome)
    (hkey : t.session? id = some key) (hbound : BoundTo tenantId consentId key) :
    ∃ key₀, s.session? id = some key₀ ∧ key₀.deadline = key.deadline ∧
      key₀.value.encryptedSession = key.value.encryptedSession := by
  cases h with
  | frame h => exact h.sessions id key hkey
  | removed digest id' h => exact h.sessions id key hkey
  | put id' session hnew h =>
    have hregistered : ∀ deadline, t.sessions = (s.register id' (newValue sha256 session) deadline).sessions →
        (session.tenantId = tenantId → boundConsent session = some consentId → False) →
        ∃ key₀, s.session? id = some key₀ ∧ key₀.deadline = key.deadline ∧
          key₀.value.encryptedSession = key.value.encryptedSession := by
      intro deadline hsessions hnot
      rw [session?_register hsessions] at hkey
      split at hkey
      · obtain rfl := Option.some.inj hkey
        exact (hnot hbound.1 hbound.2).elim
      · exact ⟨key, hkey, rfl, rfl⟩
    cases h with
    | refused h =>
      subst h
      exact ⟨key, hkey, rfl, rfl⟩
    | unbound deadline hnone h =>
      subst h
      refine hregistered deadline rfl fun _ hconsent => ?_
      rw [hnone] at hconsent
      cases hconsent
    | bound deadline consentId' hconsent' hnone h =>
      subst h
      refine hregistered deadline rfl fun htenant hconsent => ?_
      obtain rfl := Option.some.inj (hconsent'.symm.trans hconsent)
      rw [← htenant, State.tombstone?, hnone] at hstands
      cases hstands
  | marked digest deadline h htombstones => exact h.fromBefore id key hkey
  | indexDropped index hindex hdeadline h =>
    subst h
    exact ⟨key, hkey, rfl, rfl⟩
  | tombstoneDropped digest deadline he htombstone hdeadline h =>
    subst h
    exact ⟨key, hkey, rfl, rfl⟩

theorem refused_run {tenantId consentId : String} {key : SessionKey} {events : List Event}
    (hs : sys.Sound sha256)
    (hstands : (sys.redis.tombstone? (consentDigest sha256 tenantId consentId)).isSome)
    (h : Steps.run (happen sha256 warm) sys events = some next)
    (hnot : ∀ now, .expireTombstone now (consentDigest sha256 tenantId consentId) ∉ events)
    (hkey : next.redis.session? id = some key) (hbound : BoundTo tenantId consentId key) :
    ∃ key₀, sys.redis.session? id = some key₀ ∧ key₀.deadline = key.deadline ∧
      key₀.value.encryptedSession = key.value.encryptedSession := by
  induction events generalizing sys with
  | nil =>
    obtain rfl : sys = next := Option.some.inj h
    exact ⟨key, hkey, rfl, rfl⟩
  | cons e events ih =>
    obtain ⟨mid, hmid, hrest⟩ := Option.bind_eq_some_iff.1 h
    obtain ⟨hchange, hsound, -⟩ := follows hs hmid
    obtain ⟨⟨digest, deadline⟩, htombstone⟩ := Option.isSome_iff_exists.1 hstands
    obtain rfl : digest = _ := key_of_get? htombstone
    have hstands' : (mid.redis.tombstone? (consentDigest sha256 tenantId consentId)).isSome := by
      rcases hchange.tombstone htombstone with hstands' | ⟨rfl, -⟩
      · exact hstands'
      · exact absurd List.mem_cons_self (hnot _)
    obtain ⟨key₁, hkey₁, hdeadline, hsession⟩ := ih hsound hstands' hrest
      fun now hmem => hnot now (List.mem_cons_of_mem e hmem)
    have hbound₁ : BoundTo tenantId consentId key₁ := by
      rw [BoundTo, hsession]
      exact hbound
    obtain ⟨key₀, hkey₀, hdeadline₀, hsession₀⟩ := hchange.refused hstands hkey₁ hbound₁
    exact ⟨key₀, hkey₀, hdeadline₀.trans hdeadline, hsession₀.trans hsession⟩

/-- Work that is settled away is of a consent with no one on its index. -/
theorem settleScript_removes {indexDigest : String} (hsome : s.work? digest ≠ none)
    (hnone : (settleScript s indexDigest digest now).1.work? digest = none) :
    s.members indexDigest = [] := by
  unfold settleScript at hnone
  split at hnone
  · assumption
  cases hwork : s.work? digest with
  | none => exact absurd hwork hsome
  | some key =>
    rw [hwork] at hnone
    dsimp only at hnone
    split at hnone <;> exact absurd hnone hsome

/-- What a revocation can rely on, in a state and over whatever is done next. -/
structure RevocationReaches (sha256 : String → String) (warm : Bool) (sys : System) : Prop where
  indexed : ∀ id key consentId, sys.redis.session? id = some key → sys.clock < key.deadline →
    boundConsent key.value.encryptedSession = some consentId →
    id ∈ sys.redis.members (consentDigest sha256 key.value.encryptedSession.tenantId consentId)
  leaves : ∀ e next id key, happen sha256 warm sys e = some next → sys.redis.session? id = some key →
    (∃ key', next.redis.session? id = some key' ∧ key'.deadline = key.deadline ∧
      key'.value.encryptedSession = key.value.encryptedSession) ∨
    Released e id ∨ key.deadline ≤ next.clock
  settled : ∀ now work next, happen sha256 warm sys (.settle now work) = some next →
    sys.redis.work? work.digest ≠ none → next.redis.work? work.digest = none →
    ∀ tenantId consentId id key, consentDigest sha256 tenantId consentId = work.digest →
      next.redis.session? id = some key → BoundTo tenantId consentId key → key.deadline ≤ next.clock
  marked : ∀ now consentId tenantId ttlMs next,
    happen sha256 warm sys (.call (.markConsentRevoked now consentId tenantId ttlMs)) = some next →
    0 < ttlMs → next.redis.tombstone? (consentDigest sha256 tenantId consentId) =
      some (consentDigest sha256 tenantId consentId, now + ttlMs)
  stands : ∀ e next digest deadline, happen sha256 warm sys e = some next →
    sys.redis.tombstone? digest = some (digest, deadline) →
    (next.redis.tombstone? digest).isSome ∨
      (e = .expireTombstone next.clock digest ∧ deadline ≤ next.clock)
  refused : ∀ tenantId consentId events next,
    (sys.redis.tombstone? (consentDigest sha256 tenantId consentId)).isSome →
    Steps.run (happen sha256 warm) sys events = some next →
    (∀ now, .expireTombstone now (consentDigest sha256 tenantId consentId) ∉ events) →
    ∀ id key, next.redis.session? id = some key → BoundTo tenantId consentId key →
      ∃ key₀, sys.redis.session? id = some key₀ ∧ key₀.deadline = key.deadline ∧
        key₀.value.encryptedSession = key.value.encryptedSession

/-- A session that was there and is there still is the session it was. -/
theorem Change.same {key key' : SessionKey} (h : Change sha256 e clock s t)
    (hs : ∀ id key, s.session? id = some key → id ∈ s.past.used)
    (hkey : s.session? id = some key) (hkey' : t.session? id = some key') :
    key'.deadline = key.deadline ∧ key'.value.encryptedSession = key.value.encryptedSession := by
  have hfrom : FromBefore s t →
      key'.deadline = key.deadline ∧ key'.value.encryptedSession = key.value.encryptedSession := by
    intro hfrom
    obtain ⟨key₀, hkey₀, hdeadline, hsession⟩ := hfrom id key' hkey'
    obtain rfl := Option.some.inj (hkey.symm.trans hkey₀)
    exact ⟨hdeadline.symm, hsession.symm⟩
  cases h with
  | frame h => exact hfrom h.sessions
  | removed digest id h => exact hfrom h.sessions
  | put id' session hnew h =>
    have hne : id ≠ id' := fun heq => hnew (heq ▸ hs id key hkey)
    rw [h.fromBefore.2 id hne, hkey] at hkey'
    obtain rfl := Option.some.inj hkey'
    exact ⟨rfl, rfl⟩
  | marked digest deadline h htombstones => exact hfrom h.fromBefore
  | indexDropped index hindex hdeadline h =>
    subst h
    exact hfrom (.of_sessions rfl)
  | tombstoneDropped digest deadline he htombstone hdeadline h =>
    subst h
    exact hfrom (.of_sessions rfl)

theorem settled_of_happen {work : ConsentRevocationWorkClaim} (hs : sys.Sound sha256)
    (hhappen : happen sha256 warm sys (.settle now work) = some next)
    (hsome : sys.redis.work? work.digest ≠ none) (hnone : next.redis.work? work.digest = none)
    {tenantId consentId : String} {key : SessionKey}
    (hdigest : consentDigest sha256 tenantId consentId = work.digest)
    (hkey : next.redis.session? id = some key) (hbound : BoundTo tenantId consentId key) :
    key.deadline ≤ next.clock := by
  obtain ⟨-, hsound, -⟩ := follows hs hhappen
  by_contra hlive
  obtain ⟨index, hindex, hm, -⟩ := hsound.indexed.live id key consentId hkey (not_le.1 hlive) hbound.2
  rw [hbound.1, hdigest] at hindex
  obtain ⟨u, h, rfl, -⟩ := perform_of_happen hhappen
  obtain ⟨hclaimed, rfl⟩ := Option.ite_some_none_eq_some.1 h
  have hmembers : sys.redis.members (consentDigest sha256 work.tenantId work.consentId) = [] :=
    settleScript_removes hsome hnone
  have hindexes : (settleConsentRevocation sha256 sys.redis now work).1.indexes = sys.redis.indexes :=
    (aside_settleScript sys.redis _ work.digest now).indexes
  have hindex' : sys.redis.index? work.digest = some index := by
    rw [State.index?, ← hindexes]
    exact hindex
  rw [← hs.claimed work hclaimed, State.members, hindex'] at hmembers
  have hnil : index.members = [] := hmembers
  rw [hnil] at hm
  cases hm

theorem marked_of_happen {consentId tenantId : String} {ttlMs : ℤ}
    (hhappen : happen sha256 warm sys (.call (.markConsentRevoked now consentId tenantId ttlMs)) = some next)
    (hlasts : 0 < ttlMs) : next.redis.tombstone? (consentDigest sha256 tenantId consentId) =
      some (consentDigest sha256 tenantId consentId, now + ttlMs) := by
  obtain ⟨u, h, rfl, -⟩ := perform_of_happen hhappen
  obtain rfl := Option.some.inj h
  show (markConsentRevoked sha256 sys.redis now consentId tenantId ttlMs).tombstone? _ = _
  rw [markConsentRevoked, if_neg (not_le.2 hlasts)]
  exact get?_put_self (consentDigest sha256 tenantId consentId, now + ttlMs) sys.redis.tombstones

theorem reaches_of_sound (hs : sys.Sound sha256) : RevocationReaches sha256 warm sys where
  indexed id key consentId hkey hlive hconsent := by
    obtain ⟨index, hindex, hm, -⟩ := hs.indexed.live id key consentId hkey hlive hconsent
    rw [State.members, hindex]
    exact hm
  leaves e next id key h hkey := by
    obtain ⟨hchange, -, hleaves⟩ := follows hs h
    rcases hleaves id key hkey with hsome | hleaves
    · obtain ⟨key', hkey'⟩ := Option.isSome_iff_exists.1 hsome
      exact .inl ⟨key', hkey', hchange.same hs.indexed.session_used hkey hkey'⟩
    · exact .inr hleaves
  settled now work next h hsome hnone tenantId consentId id key hdigest hkey hbound :=
    settled_of_happen hs h hsome hnone hdigest hkey hbound
  marked now consentId tenantId ttlMs next h hlasts := marked_of_happen h hlasts
  stands e next digest deadline h hstands := (follows hs h).change.tombstone hstands
  refused tenantId consentId events next hstands h hnot id key hkey hbound :=
    refused_run hs hstands h hnot hkey hbound

/-- Whatever is called, scanned and dropped: in every state reached, a revoked consent gets no
new session, its sessions are on its index until they are cancelled or over, and its work is
settled when none is left. -/
theorem revocation_reaches {events : List Event}
    (h : Steps.run (happen sha256 warm) (start clock) events = some sys) :
    RevocationReaches sha256 warm sys :=
  reaches_of_sound (sound_run (sound_start clock) h)

section

def underConsent : DurableConnectSession :=
  ⟨"tenant", "owner", ["artist"], "steel", some "consent", "owner", some 100000⟩

def revokedWork : ConsentRevocationWorkClaim := ⟨"tenant\x00consent", 1, "tenant", "consent", 0⟩

/-- One of two sessions is being cancelled when their consent is revoked, and is gone before the
scan comes to it; a third one is refused. -/
def revokedMeanwhile : List Event :=
  [.call (.put 0 0 underConsent),
   .call (.put 0 1 underConsent),
   .call (.claim 5 ⟨"tenant", "owner", false⟩ ⟨1, "tenant", .cancel, some 1000, none, none, true⟩),
   .call (.markConsentRevoked 10 "consent" "tenant" 50000),
   .call (.put 20 2 underConsent),
   .claimWork 30 "tenant\x00consent" (some 1000) true,
   .readPage 0 [0, 1] 0,
   .call (.ack 40 ⟨1, 0, .cancel, underConsent, none⟩),
   .claimNext 50 0 (some 1000) true,
   .claimNext 60 0 (some 1000) true,
   .remove 0,
   .advance 70 0 (some 1000),
   .call (.ack 80 ⟨0, 2, .cancel, underConsent, none⟩),
   .settle 90 revokedWork]

theorem revocation_reaches_revokedMeanwhile : ∃ sys,
    Steps.run (happen (fun text => text) false) (start 0) revokedMeanwhile = some sys ∧
      RevocationReaches (fun text => text) false sys := by
  have hsome : (Steps.run (happen (fun text => text) false) (start 0) revokedMeanwhile).isSome := by
    decide +kernel
  obtain ⟨sys, hsys⟩ := Option.isSome_iff_exists.1 hsome
  exact ⟨sys, hsys, revocation_reaches hsys⟩

-- The scan missed no session, and the work is settled.
example : (Steps.run (happen (fun text => text) false) (start 0) revokedMeanwhile).map
    (fun sys => (sys.redis.sessions, sys.redis.work)) = some ([], []) := by
  decide +kernel

end

end CatalogSentinel.Connect.Redis
