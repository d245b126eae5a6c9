import CatalogSentinel.Connect.RegistriesAlike

/-!
The work of a revoked consent, gone through on both registries. On Redis the sessions are found
in the index of the consent, and in memory by the consent that they are bound to.
-/

namespace CatalogSentinel.Connect

open CatalogSentinel.Concurrent CatalogSentinel.Data

variable {sha256 : String → String} {memory redis : Tokens} {texts : Set String} {warm : Bool} {now : ℤ}
  {s : InMemory.State} {m : InMemory.Memory} {r u : Redis.State} {bindings : List (ℕ × DurableConnectSession)}
  {visibilityTimeoutMs : Option ℚ} {number : ℕ}

/-- A scan of one consent leaves the indexes of the others as they were. -/
structure Redis.Scanned (digest : String) (r u : Redis.State) : Prop extends Redis.Beside r u where
  others : ∀ d, d ≠ digest → u.index? d = r.index? d

namespace Redis

theorem scanned_of_rest {digest : String} (h : u.rest = r.rest) : Scanned digest r u := by
  refine ⟨beside_of_rest h, fun d _ => ?_⟩
  simp only [State.rest, Prod.mk.injEq] at h
  rw [State.index?, h.1]

theorem Scanned.trans {digest : String} {v : State} (h : Scanned digest r u) (h' : Scanned digest u v) :
    Scanned digest r v :=
  ⟨h.toBeside.trans h'.toBeside, fun d hd => (h'.others d hd).trans (h.others d hd)⟩

theorem scanned_srem (r : State) (digest : String) (c : ℕ) : Scanned digest r (r.srem digest c) := by
  refine ⟨beside_srem r digest c, fun d hd => ?_⟩
  unfold State.srem
  cases hindex : r.index? digest with
  | none => rfl
  | some index =>
    have hdigest : index.digest = digest := key_of_get? hindex
    dsimp only
    split
    · exact get?_erase_of_ne hd r.indexes
    · exact get?_put_of_ne (by exact fun h => hd (h.symm.trans hdigest)) r.indexes

end Redis

variable (warm visibilityTimeoutMs number) in
theorem claimMember_alike (hsha : Set.InjOn sha256 texts) (hs : SessionsAlike sha256 memory redis texts s r)
    (hlive : ∀ binding ∈ s.bindings, binding.2.expired now = false) (work : Redis.ConsentRevocationWorkClaim) (c : ℕ)
    (hreads : ∀ binding ∈ s.bindings, binding.1 = c → binding.2.tenantId = work.tenantId → binding.2.Readable) :
    let claimed := InMemory.claimMember warm now work.tenantId visibilityTimeoutMs (memory.claim number) s c
    let claimed' := Redis.claimMember sha256 warm now work visibilityTimeoutMs (redis.claim number) r c
    ∃ x y, claimed.2 = .ok x ∧ claimed'.2 = .ok y ∧ SameResult memory redis x y ∧
      SessionsAlike sha256 memory redis texts claimed.1 claimed'.1 ∧
      Redis.Scanned (Redis.consentDigest sha256 work.tenantId work.consentId) r claimed'.1 := by
  intro claimed claimed'
  let request := claimRequest c work.tenantId .cancel visibilityTimeoutMs none none
  obtain ⟨hsessions, hresult⟩ := claimAuthorized_alike warm hsha hs number request rfl
    (by simp [request, claimRequest]) (fun record hc => InMemory.live_of_bindings hlive rfl hc)
    (by simp [Handoff.takesSearch, request, claimRequest]) fun h hc hgrants => by
      simp only [Handoff.grants, Bool.and_eq_true, decide_eq_true_eq] at hgrants
      exact hreads (c, h.session) (List.mem_map_of_mem (mem_of_get? hc)) rfl hgrants.1.1.1
  have hrest : (Redis.claimAuthorized sha256 warm (r.draw (redis.claim number c)) now request).1.rest = r.rest :=
    Redis.rest_claimAuthorized request
  have hdone : ∀ message, (InMemory.claimAuthorized warm (s.draw (memory.claim number c)) now request).2 ≠
    .failed message := InMemory.claimAuthorized_cancel rfl
  have hclaimed : claimed = ((InMemory.claimAuthorized warm (s.draw (memory.claim number c)) now request).1,
      .ok (InMemory.claimAuthorized warm (s.draw (memory.claim number c)) now request).2) :=
    InMemory.claimMember_eq s c
  rw [hclaimed]
  have hclaimed' : claimed' = Redis.claimMember sha256 warm now work visibilityTimeoutMs (redis.claim number) r c := rfl
  rw [Redis.claimMember] at hclaimed'
  have hdraw : request.connectId = c := rfl
  rw [hdraw] at hsessions hresult
  rcases hout : Redis.claimAuthorized sha256 warm (r.draw (redis.claim number c)) now request with ⟨t, reply⟩
  rw [hout] at hsessions hresult hrest hclaimed'
  have hscanned : Redis.Scanned (Redis.consentDigest sha256 work.tenantId work.consentId) r t :=
    Redis.scanned_of_rest hrest
  cases reply with
  | failed message =>
    generalize (InMemory.claimAuthorized warm (s.draw (memory.claim number c)) now request).2 = result at hresult hdone
    cases hresult
    exact absurd rfl (hdone message)
  | notFound =>
    have hkept := Redis.srem_kept t (Redis.consentDigest sha256 work.tenantId work.consentId) c
    rw [hclaimed']
    exact ⟨_, _, rfl, rfl, hresult, hsessions.same rfl hkept.1 hkept.2.1,
      hscanned.trans (Redis.scanned_srem t _ c)⟩
  | claimed | busy | ownershipMismatch =>
    rw [hclaimed']
    exact ⟨_, _, rfl, rfl, hresult, hsessions, hscanned⟩

/-! ### A page of sessions -/

variable (warm visibilityTimeoutMs) in
/-- A claim to cancel what is not there, or is of another tenant, is no claim. -/
theorem InMemory.claimMember_idle {tenantId : String} (draw : ℕ → ℕ) {c : ℕ}
    (hidle : ∀ record, s.record? c = some record → record.session.tenantId ≠ tenantId)
    (hlive : ∀ binding ∈ s.bindings, binding.2.expired now = false) :
    (∃ x, (claimMember warm now tenantId visibilityTimeoutMs draw s c).2 = .ok x ∧ x.claim? = none ∧ x ≠ .busy) ∧
      (claimMember warm now tenantId visibilityTimeoutMs draw s c).1.record? c = s.record? c := by
  have hdrawn : (s.draw (draw c)).record? c = s.record? c := rfl
  rw [claimMember_eq, claimAuthorized]
  have hid : (claimRequest c tenantId .cancel visibilityTimeoutMs none none).connectId = c := rfl
  rw [hid, hdrawn]
  cases hc : s.record? c with
  | none => exact ⟨⟨_, rfl, rfl, by simp⟩, get?_erase_self c s.records⟩
  | some record =>
    rw [Option.filter_some, if_pos (by simp [live_of_bindings hlive rfl hc])]
    have hother : record.session.tenantId ≠
      (claimRequest c tenantId .cancel visibilityTimeoutMs none none).tenantId := hidle record hc
    dsimp only
    rw [if_pos hother]
    exact ⟨⟨_, rfl, rfl, by simp⟩, hc⟩

theorem SameResult.claim? {x y : ConnectSessionClaimResult} (h : SameResult memory redis x y) :
    Option.Rel (SameClaim memory redis) x.claim? y.claim? := by
  cases h with
  | claimed hclaim => exact .some hclaim
  | busy | notFound | ownershipMismatch | failed => exact .none

theorem SameResult.busy_iff {x y : ConnectSessionClaimResult} (h : SameResult memory redis x y) :
    x = .busy ↔ y = .busy := by
  cases h <;> simp

theorem count_busy {xs ys : List ConnectSessionClaimResult} (h : List.Forall₂ (SameResult memory redis) xs ys) :
    xs.count .busy = ys.count .busy := by
  induction h with
  | nil => rfl
  | cons hxy _ ih => simp only [List.count_cons, beq_iff_eq, hxy.busy_iff, ih]

/-- Results that are the same, up to some that claim nothing on one side. -/
theorem sameClaims_gathered {ω ω' : Type} {sameWork : ω → ω' → Prop} {work : ω} {work' : ω'}
    (hwork : sameWork work work') {xs idle all ys : List ConnectSessionClaimResult} (hperm : (xs ++ idle).Perm all)
    (hidle : ∀ x ∈ idle, x.claim? = none ∧ x ≠ .busy) (hall : List.Forall₂ (SameResult memory redis) all ys) :
    SameClaims memory redis sameWork (gathered work xs) (gathered work' ys) := by
  refine ⟨⟨all.filterMap ConnectSessionClaimResult.claim?, ?_, ?_⟩, ?_, .some hwork⟩
  · have hnone : idle.filterMap ConnectSessionClaimResult.claim? = [] :=
      List.filterMap_eq_nil_iff.2 fun x hx => (hidle x hx).1
    have hfilter := hperm.filterMap ConnectSessionClaimResult.claim?
    rwa [List.filterMap_append, hnone, List.append_nil] at hfilter
  · exact List.rel_filterMap (fun _ _ h => h.claim?) hall
  · have hnone : idle.count ConnectSessionClaimResult.busy = 0 :=
      List.count_eq_zero.2 fun hbusy => (hidle _ hbusy).2 rfl
    have hcount := hperm.count_eq ConnectSessionClaimResult.busy
    rw [List.count_append, hnone, Nat.add_zero] at hcount
    exact hcount.trans (count_busy hall)

variable (warm visibilityTimeoutMs number) in
/-- The same sessions are claimed on both, one after the other. -/
theorem page_alike (hsha : Set.InjOn sha256 texts) (hs : SessionsAlike sha256 memory redis texts s r)
    (hlive : ∀ binding ∈ s.bindings, binding.2.expired now = false) (work : Redis.ConsentRevocationWorkClaim)
    {page : List ℕ} (hnodup : page.Nodup)
    (hreads : ∀ binding ∈ s.bindings, binding.1 ∈ page → binding.2.tenantId = work.tenantId → binding.2.Readable) :
    let claimed := each (InMemory.claimMember warm now work.tenantId visibilityTimeoutMs (memory.claim number)) s page
    let claimed' := each (Redis.claimMember sha256 warm now work visibilityTimeoutMs (redis.claim number)) r page
    ∃ xs ys, claimed.2 = .ok xs ∧ claimed'.2 = .ok ys ∧ List.Forall₂ (SameResult memory redis) xs ys ∧
      SessionsAlike sha256 memory redis texts claimed.1 claimed'.1 ∧
      Redis.Scanned (Redis.consentDigest sha256 work.tenantId work.consentId) r claimed'.1 := by
  intro claimed claimed'
  have heach := each_alike (e := id) (Q := fun c _ _ => c ∈ page)
    (f := InMemory.claimMember warm now work.tenantId visibilityTimeoutMs (memory.claim number))
    (g := Redis.claimMember sha256 warm now work visibilityTimeoutMs (redis.claim number))
    (R := fun t u => SessionsAlike sha256 memory redis texts t u ∧ t.bindings = s.bindings ∧
      Redis.Scanned (Redis.consentDigest sha256 work.tenantId work.consentId) r u)
    (S := SameResult memory redis) (fun c t u h hc => ?_) hnodup
    ⟨hs, rfl, Redis.scanned_of_rest rfl⟩ fun _ hc => hc
  · obtain ⟨xs, ys, hxs, hys, hsame, hsessions, -, hscanned⟩ := heach
    rw [List.map_id] at hys hsessions hscanned
    exact ⟨xs, ys, hxs, hys, hsame, hsessions, hscanned⟩
  · obtain ⟨hsessions, hbindings, hscanned⟩ := h
    have hlive' : ∀ binding ∈ t.bindings, binding.2.expired now = false := hbindings ▸ hlive
    obtain ⟨x, y, hx, hy, hsame, hnext, hnext'⟩ := claimMember_alike warm
      visibilityTimeoutMs number hsha hsessions hlive' work c fun binding hbinding hsame =>
        hreads binding (hbindings ▸ hbinding) (hsame ▸ hc)
    have hrewrites := InMemory.rewrites_claimMember warm work.tenantId
      visibilityTimeoutMs (memory.claim number) hlive' rfl c
    exact ⟨x, y, hx, hy, hsame, ⟨hnext, hrewrites.bindings.trans hbindings, hscanned.trans hnext'⟩, fun _ _ hc => hc⟩

/-! ### The work of a consent -/

namespace Revocation

/-- The work when a scan of it is through. -/
def later (v : Revocation) (dueAt : ℤ) : Revocation := { v with dueAt }

def claimOnRedis (v : Revocation) (sha256 : String → String) (token : ℕ) : Redis.ConsentRevocationWorkClaim :=
  ⟨sha256 v.text, token, v.tenantId, v.consentId, 0⟩

end Revocation

namespace Redis

/-- Work that is claimed, until it is scanned. -/
def State.taken (r : State) (v : Revocation) (sha256 : String → String) (token : ℕ) (workUntil : ℤ) : State :=
  (r.keepWork (v.key sha256) { (v.key sha256).value with workToken := some token, workUntil := some workUntil }).zaddDue
    workUntil (sha256 v.text)

variable {v : Revocation} {scan : SetScan} {batchLimit : ℕ} {draw : ℕ → ℕ} {workToken : String → ℕ}

/-- The work is claimed, each session of its index, and the work is given back. -/
theorem scanClaimed_some (hkey : r.work? (sha256 v.text) = some (v.key sha256)) {page : List ℕ}
    (hpage : scan.sscan (r.members (sha256 v.text)) 0 batchLimit = (0, page)) :
    let work := v.claimOnRedis sha256 (workToken (sha256 v.text))
    let dueAt := now + positiveVisibility visibilityTimeoutMs
    let taken := r.taken v sha256 (workToken (sha256 v.text)) dueAt
    let claimed := each (claimMember sha256 warm now work visibilityTimeoutMs draw) taken page
    ∀ results, claimed.2 = .ok results → Beside taken claimed.1 →
      ∃ t, scanClaimed sha256 warm scan now visibilityTimeoutMs batchLimit draw workToken r (sha256 v.text) =
          (t, .ok (some (gathered work results))) ∧
        t.sessions = claimed.1.sessions ∧ t.claims = claimed.1.claims ∧ t.indexes = claimed.1.indexes ∧
        t.tombstones = r.tombstones ∧ t.work = put WorkKey.digest ((v.later dueAt).key sha256) r.work ∧
        t.due = put Prod.fst ((v.later dueAt).due sha256) r.due := by
  intro work dueAt taken claimed results hresults hbeside
  let value : WorkValue := { (v.key sha256).value with
    workToken := some (workToken (sha256 v.text)), workUntil := some dueAt }
  have hscript : claimWorkScript r (sha256 v.text) now (workToken (sha256 v.text)) dueAt = (taken, some value) := by
    rw [claimWorkScript, hkey]
    rfl
  have hparse : parseConsentRevocationWork sha256 true (sha256 v.text) (workToken (sha256 v.text)) value =
      some work := by
    have hdigest : consentDigest sha256 value.tenantId value.encryptedConsentId = sha256 v.text := rfl
    rw [parseConsentRevocationWork, hdigest, Bool.true_and, if_pos (decide_eq_true rfl)]
    rfl
  have hwork : claimed.1.work? (sha256 v.text) = some ⟨sha256 v.text, value, v.deadline⟩ := by
    rw [State.work?, hbeside.kept.2.1]
    exact get?_put_self (⟨sha256 v.text, value, v.deadline⟩ : WorkKey) r.work
  have hmembers : taken.members (consentDigest sha256 work.tenantId work.consentId) = r.members (sha256 v.text) := rfl
  have hclaimed : each (claimMember sha256 warm now work visibilityTimeoutMs draw) taken page =
      (claimed.1, .ok results) := Prod.ext rfl hresults
  have hadvanced : advanceScript claimed.1 (sha256 v.text) (workToken (sha256 v.text)) 0 dueAt =
      (claimed.1.keepWork ⟨sha256 v.text, value, v.deadline⟩
        { value with cursor := 0, workToken := none, workUntil := none }).zaddDue dueAt (sha256 v.text) := by
    rw [advanceScript, hwork]
    dsimp only
    rw [if_neg (by simp [value])]
  have hcursor : work.cursor = 0 := rfl
  have htoken : ((claimed.1.work? (sha256 v.text)).bind fun key => key.value.workToken) = some work.token := by
    rw [hwork]
    rfl
  refine ⟨advanceScript claimed.1 (sha256 v.text) (workToken (sha256 v.text)) 0 dueAt, ?_, ?_⟩
  · rw [scanClaimed, hscript]
    dsimp only
    rw [hparse]
    dsimp only
    rw [scanConsentRevocationWork, hmembers, hcursor, hpage]
    dsimp only
    rw [hclaimed]
    dsimp only
    have hdigest : work.digest = sha256 v.text := rfl
    rw [hdigest, htoken, if_pos rfl, decide_eq_true rfl, if_pos rfl]
    rfl
  · rw [hadvanced]
    refine ⟨rfl, rfl, rfl, hbeside.kept.1, ?_, ?_⟩
    · exact (congrArg _ hbeside.kept.2.1).trans (put_put (by rfl) r.work)
    · exact (congrArg _ hbeside.kept.2.2).trans (put_put (by rfl) r.due)

end Redis

/-- There is no work to be claimed. -/
theorem Redis.scanClaimed_none {scan : SetScan} {batchLimit : ℕ} {draw : ℕ → ℕ} {workToken : String → ℕ}
    {digest : String} (hkey : r.work? digest = none) (hdue : get? Prod.fst digest r.due = none) :
    scanClaimed sha256 warm scan now visibilityTimeoutMs batchLimit draw workToken r digest = (r, .ok none) := by
  have hzrem : r.zremDue digest = r := congrArg (fun due => { r with due }) (erase_of_get?_none hdue)
  rw [scanClaimed, claimWorkScript, hkey]
  dsimp only
  rw [hzrem]

/-- The limit of a batch covers the sessions of a consent, and of the sessions of its tenant the
index has those that are bound to the consent, which can be read back. -/
structure Scannable (scan : Redis.SetScan) (batchLimit : ℕ) (s : InMemory.State) (members : List ℕ)
    (tenantId consentId : String) : Prop where
  listed : scan.ListsAll members batchLimit
  bound : (s.bound tenantId consentId).length ≤ batchLimit
  indexed : ∀ binding ∈ s.bindings, binding.2.tenantId = tenantId →
    (binding.1 ∈ members ↔ binding.2.consentId = some consentId) ∧
      (binding.2.consentId = some consentId → binding.2.Readable)

theorem Scannable.same {scan : Redis.SetScan} {batchLimit : ℕ} {t : InMemory.State} {members : List ℕ}
    {tenantId consentId : String} (h : Scannable scan batchLimit s members tenantId consentId)
    (hbindings : t.bindings = s.bindings) : Scannable scan batchLimit t members tenantId consentId := by
  refine ⟨h.listed, ?_, hbindings ▸ h.indexed⟩
  rw [InMemory.bound_eq, hbindings, ← InMemory.bound_eq]
  exact h.bound

theorem InMemory.mem_bound {c : ℕ} {tenantId consentId : String} : c ∈ s.bound tenantId consentId ↔
    ∃ record ∈ s.records, (record.session.tenantId = tenantId ∧ record.session.consentId = some consentId) ∧
      record.connectId = c := by
  simp only [State.bound, List.mem_map, List.mem_filter, decide_eq_true_eq, and_assoc]

theorem nodup_members (h : ∀ index ∈ r.indexes, index.members.Nodup) (digest : String) : (r.members digest).Nodup := by
  rw [Redis.State.members]
  cases hindex : r.index? digest with
  | none => exact List.nodup_nil
  | some index => exact h index (mem_of_get? hindex)

/-- The work of a revocation in memory, at the start of a scan that goes through all of it. -/
theorem InMemory.page_work {v : Revocation} (workToken : String → ℕ) {batchLimit : ℚ}
    (hcover : (s.bound v.tenantId v.consentId).length ≤ pageSize batchLimit) :
    v.work.page s workToken batchLimit = s.afterCursor (v.work.claimOf workToken) ∧
      (s.afterCursor (v.work.claimOf workToken)).Perm (s.bound v.tenantId v.consentId) := by
  have hperm : (s.afterCursor (v.work.claimOf workToken)).Perm (s.bound v.tenantId v.consentId) :=
    List.perm_insertionSort _ _
  exact ⟨List.take_of_length_le (hperm.length_eq ▸ hcover), hperm⟩

theorem InMemory.scanned_all (v : Revocation) (all : List ℕ) :
    v.work.scanned now visibilityTimeoutMs all all = (v.later (now + positiveVisibility visibilityTimeoutMs)).work := by
  simp [RevocationWork.scanned, Revocation.work, Revocation.later, Revocation.text]

theorem InMemory.nodup_bindings : (s.bindings.map Prod.fst).Nodup ↔ (s.records.map Record.connectId).Nodup := by
  rw [State.bindings, List.map_map]
  rfl

variable (warm visibilityTimeoutMs number) in
theorem scan_alike (hsha : Set.InjOn sha256 texts) (h : RegistriesAlike sha256 memory redis texts m r)
    (hlive : ∀ binding ∈ m.sessions.bindings, binding.2.expired now = false) {text : String} (ht : text ∈ texts)
    (scan : Redis.SetScan) {batchLimit : ℚ} (hscan : ∀ work, m.work? text = some work → work.dueAt ≤ now ∧
      now < work.expiresAt ∧
        Scannable scan (pageSize batchLimit) m.sessions (r.members (sha256 text)) work.tenantId work.consentId) :
    let scanned := InMemory.scanClaimed warm now visibilityTimeoutMs batchLimit (memory.claim number)
      (memory.work number) m text
    let scanned' := Redis.scanClaimed sha256 warm scan now visibilityTimeoutMs (pageSize batchLimit) (redis.claim number)
      (redis.work number) r (sha256 text)
    ∃ x y, scanned.2 = .ok x ∧ scanned'.2 = .ok y ∧
      Option.Rel (SameClaims memory redis (SameWork sha256)) x y ∧
      RegistriesAlike sha256 memory redis texts scanned.1 scanned'.1 ∧
      ∀ d, d ≠ sha256 text → scanned'.1.index? d = r.index? d := by
  intro scanned scanned'
  rcases h.revocations.revocation ht with ⟨hwork, hkey, hdue⟩ | ⟨v, hwork, hkey, hdue, rfl, tombstone, htombstone, hdeadline⟩
  · have hmemory : scanned = (m, .ok none) :=
      InMemory.scanClaimed_none warm visibilityTimeoutMs batchLimit _ _ fun work hsome => by simp [hwork] at hsome
    have hredis : scanned' = (r, .ok none) := Redis.scanClaimed_none hkey hdue
    rw [hmemory, hredis]
    exact ⟨none, none, rfl, rfl, .none, h, fun _ _ => rfl⟩
  obtain ⟨hdueAt, hexpires, hcover⟩ := hscan v.work hwork
  have hclaimable : v.work.claimable now = true := by
    have hdueAt' : ¬ now < v.dueAt := not_lt.2 hdueAt
    have hexpires' : ¬ v.expiresAt ≤ now := not_le.2 hexpires
    simp [InMemory.RevocationWork.claimable, Revocation.work, hdueAt', hexpires']
  -- On Redis the page is the index, in some order; in memory it is what is bound to the consent.
  obtain ⟨hcursor, hpage⟩ := hcover.listed
  generalize hmembers : (scan.sscan (r.members (sha256 v.text)) 0 (pageSize batchLimit)).2 = page at hpage
  have hnodup : page.Nodup := hpage.nodup_iff.2 (nodup_members h.indexes _)
  have htaken : SessionsAlike sha256 memory redis texts m.sessions (r.taken v sha256 (redis.work number (sha256 v.text))
    (now + positiveVisibility visibilityTimeoutMs)) := h.sessions.same rfl rfl rfl
  obtain ⟨all, ys, hall, hys, hsame, hsessions, hscanned⟩ := page_alike warm visibilityTimeoutMs number hsha htaken hlive
    (v.claimOnRedis sha256 (redis.work number (sha256 v.text))) hnodup fun binding hbinding hmem htenant =>
      have hindexed := hcover.indexed binding hbinding htenant
      hindexed.2 (hindexed.1.1 (hpage.mem_iff.1 hmem))
  obtain ⟨t, hredis, htsessions, htclaims, htindexes, httombstones, htwork, htdue⟩ :=
    Redis.scanClaimed_some hkey (Prod.ext hcursor hmembers) ys hys hscanned.toBeside
  have hbindings := InMemory.nodup_bindings.2 h.sessions.records
  obtain ⟨hpart, hbound⟩ := InMemory.page_work (memory.work number) hcover.bound
  have hmem : ∀ c, c ∈ v.work.page m.sessions (memory.work number) batchLimit ↔
      c ∈ m.sessions.bound v.tenantId v.consentId := fun c => hpart ▸ hbound.mem_iff
  have hsub : v.work.page m.sessions (memory.work number) batchLimit ⊆ page := by
    intro c hc
    obtain ⟨record, hrecord, ⟨htenant, hconsent⟩, rfl⟩ := InMemory.mem_bound.1 ((hmem c).1 hc)
    exact hpage.mem_iff.2 ((hcover.indexed _ (List.mem_map_of_mem hrecord) htenant).1.2 hconsent)
  -- What else is on the index is not there any more, or not of the tenant.
  have hother : ∀ c ∈ page, c ∉ v.work.page m.sessions (memory.work number) batchLimit →
      ∀ record, m.sessions.record? c = some record → record.session.tenantId ≠ v.tenantId := by
    intro c hc hcpart record hrecord htenant
    obtain rfl := key_of_get? hrecord
    have hconsent := (hcover.indexed _ (List.mem_map_of_mem (mem_of_get? hrecord)) htenant).1.1 (hpage.mem_iff.1 hc)
    exact hcpart ((hmem _).2 (InMemory.mem_bound.2 ⟨record, mem_of_get? hrecord, ⟨htenant, hconsent⟩, rfl⟩))
  have hidle := fun c hc hcpart => InMemory.claimMember_idle warm visibilityTimeoutMs (memory.claim number)
    (hother c hc hcpart) hlive
  obtain ⟨xs, idle, all', hxs, hall', hperm, hidles, hkept, hlook⟩ := (InMemory.local_claimMember warm v.tenantId
    visibilityTimeoutMs (memory.claim number) hlive).each_part (InMemory.nodup_page hbindings v.work) hnodup hsub
    (pairwise_apart hnodup) rfl (by rintro c hc hcpart i rfl; exact (hidle i hc hcpart).2)
  obtain rfl : all = all' := Except.ok.inj (hall.symm.trans hall')
  have hmemory := InMemory.scanClaimed_eq warm visibilityTimeoutMs batchLimit (memory.claim number) (memory.work number)
    hwork hclaimable hxs
  rw [hpart] at hxs hkept hlook hmemory
  rw [InMemory.scanned_all] at hmemory
  dsimp only [scanned, scanned']
  rw [hmemory, hredis]
  have hrevoked := each_keeps (f := InMemory.claimMember warm now v.tenantId visibilityTimeoutMs (memory.claim number))
    (P := fun s => s.revokedConsents = m.sessions.revokedConsents)
    (fun s c hs => (InMemory.claimMember_revokedConsents s c).trans hs) rfl
    (m.sessions.afterCursor (v.work.claimOf (memory.work number)))
  refine ⟨some _, some _, rfl, rfl, .some (sameClaims_gathered ⟨rfl, rfl, rfl, rfl, rfl⟩ hperm ?_ hsame),
    ⟨?_, ?_, ?_⟩, fun d hd => ?_⟩
  · intro x hx
    obtain ⟨c, hc, hcpart, hx⟩ := hidles x hx
    obtain ⟨⟨x', hx', hclaim⟩, -⟩ := hidle c hc hcpart
    exact Except.ok.inj (hx'.symm.trans hx) ▸ hclaim
  · exact hsessions.records_same hlook (InMemory.nodup_bindings.1 (hkept ▸ hbindings)) htsessions htclaims
  · exact h.revocations.write (v := v.later (now + positiveVisibility visibilityTimeoutMs)) hsha ht rfl htwork htdue
      (h.revocations.tombstones_same hrevoked httombstones) (fun _ _ _ => by rw [httombstones])
      ⟨tombstone, by rw [httombstones]; exact htombstone, hdeadline⟩
  · rw [htindexes]
    exact hscanned.indexes h.indexes
  · rw [Redis.State.index?, htindexes]
    exact hscanned.others d hd

/-! ### The work that is due -/

section Due

variable (warm visibilityTimeoutMs number) in
/-- The work of these consents, gone through in one order on both. -/
theorem scans_alike (hsha : Set.InjOn sha256 texts) (h : RegistriesAlike sha256 memory redis texts m r)
    (hlive : ∀ binding ∈ m.sessions.bindings, binding.2.expired now = false) (scan : Redis.SetScan) {batchLimit : ℚ}
    {due : List String} (hnodup : due.Nodup) (hdue : ∀ text ∈ due, text ∈ texts ∧ ∀ work, m.work? text = some work →
      work.dueAt ≤ now ∧ now < work.expiresAt ∧
      Scannable scan (pageSize batchLimit) m.sessions (r.members (sha256 text)) work.tenantId work.consentId) :
    let scanned := each (InMemory.scanClaimed warm now visibilityTimeoutMs batchLimit (memory.claim number)
      (memory.work number)) m due
    let scanned' := each (Redis.scanClaimed sha256 warm scan now visibilityTimeoutMs (pageSize batchLimit)
      (redis.claim number) (redis.work number)) r (due.map sha256)
    ∃ xs ys, scanned.2 = .ok xs ∧ scanned'.2 = .ok ys ∧
      List.Forall₂ (Option.Rel (SameClaims memory redis (SameWork sha256))) xs ys ∧
      RegistriesAlike sha256 memory redis texts scanned.1 scanned'.1 := by
  intro scanned scanned'
  have heach := each_alike (e := sha256)
    (Q := fun text m' r' => text ∈ texts ∧ ∀ work, m'.work? text = some work → work.dueAt ≤ now ∧
      now < work.expiresAt ∧
      Scannable scan (pageSize batchLimit) m'.sessions (r'.members (sha256 text)) work.tenantId work.consentId)
    (f := InMemory.scanClaimed warm now visibilityTimeoutMs batchLimit (memory.claim number) (memory.work number))
    (g := Redis.scanClaimed sha256 warm scan now visibilityTimeoutMs (pageSize batchLimit) (redis.claim number)
      (redis.work number))
    (R := fun m' r' => RegistriesAlike sha256 memory redis texts m' r' ∧ m'.sessions.bindings = m.sessions.bindings)
    (S := Option.Rel (SameClaims memory redis (SameWork sha256))) (fun text m' r' hR hQ => ?_) hnodup ⟨h, rfl⟩ hdue
  · obtain ⟨xs, ys, hxs, hys, hsame, halike, -⟩ := heach
    exact ⟨xs, ys, hxs, hys, hsame, halike⟩
  · obtain ⟨halike, hbindings⟩ := hR
    have hlive' : ∀ binding ∈ m'.sessions.bindings, binding.2.expired now = false := hbindings ▸ hlive
    have hlocal := InMemory.local_scanClaimed warm visibilityTimeoutMs batchLimit (memory.claim number)
      (memory.work number) m'.sessions.revokedConsents m'.whose hlive' (InMemory.nodup_bindings.2 halike.sessions.records)
    obtain ⟨x, y, hx, hy, hsame, hnext, hothers⟩ :=
      scan_alike warm visibilityTimeoutMs number hsha halike hlive' hQ.1 scan hQ.2
    have hsettled := InMemory.Memory.settled halike.revocations.keys
    have hkept := (hlocal.keeps m' text hsettled).bindings
    refine ⟨x, y, hx, hy, hsame, ⟨hnext, hkept.trans hbindings⟩, fun other hne hother => ⟨hother.1, fun work hwork => ?_⟩⟩
    -- A scan of one consent leaves the work of the others, and their indexes.
    have hsame' := congrArg Prod.snd (hlocal.frame m' text (.inr other) hsettled hne)
    obtain ⟨hdueAt, hexpires, hscan⟩ := hother.2 work (hsame'.symm.trans hwork)
    have hmembers := hothers (sha256 other) fun hdigest => hne (hsha hother.1 hQ.1 hdigest)
    refine ⟨hdueAt, hexpires, ?_⟩
    rw [Redis.State.members, hmembers]
    exact hscan.same hkept

/-- `ZRANGEBYSCORE` with a limit that covers what is due. -/
theorem Redis.zrangebyscore_perm {α : Type} [LinearOrder α] {entries : List (α × ℤ)} {limit : ℕ}
    (hcover : (entries.filter fun entry => entry.2 ≤ now).length ≤ limit) :
    (zrangebyscore entries now limit).Perm ((entries.filter fun entry => entry.2 ≤ now).map Prod.fst) := by
  have hperm := List.perm_insertionSort (fun a b : α × ℤ => toLex (a.2, a.1) ≤ toLex (b.2, b.1))
    (entries.filter fun entry => entry.2 ≤ now)
  rw [zrangebyscore, List.take_of_length_le (hperm.length_eq ▸ hcover)]
  exact hperm.map Prod.fst

/-- The consents that the digests are of. -/
theorem exists_texts {digests : List String} (h : ∀ digest ∈ digests, ∃ text ∈ texts, sha256 text = digest) :
    ∃ due : List String, due.map sha256 = digests ∧ ∀ text ∈ due, text ∈ texts := by
  induction digests with
  | nil => exact ⟨[], rfl, by simp⟩
  | cons digest digests ih =>
    obtain ⟨due, hdue, htexts⟩ := ih fun d hd => h d (List.mem_cons_of_mem digest hd)
    obtain ⟨text, ht, hsha⟩ := h digest List.mem_cons_self
    refine ⟨text :: due, by rw [List.map_cons, hsha, hdue], fun t htext => ?_⟩
    rcases List.mem_cons.1 htext with rfl | htext
    · exact ht
    · exact htexts t htext

theorem RevocationsAlike.text_of_work (h : RevocationsAlike sha256 texts m r) {text : String}
    {work : InMemory.RevocationWork} (hwork : m.work? text = some work) : text ∈ texts ∧
      ∃ v : Revocation, work = v.work ∧ v.text = text ∧ get? Prod.fst (sha256 text) r.due = some (v.due sha256) := by
  have ht := h.known text (Option.isSome_iff_exists.2 ⟨work, hwork⟩)
  rcases h.revocation ht with ⟨hnone, -, -⟩ | ⟨v, hsome, -, hdue, htext, -⟩
  · simp [hnone] at hwork
  · exact ⟨ht, v, Option.some.inj (hwork.symm.trans hsome), htext, hdue⟩

/-- Two consents have no session in common. -/
theorem apart_of_ne (h : RevocationsAlike sha256 texts m r) (hnodup : (m.sessions.bindings.map Prod.fst).Nodup)
    {text other : String} (hne : text ≠ other) :
    Apart (InMemory.reach m.sessions.bindings m.whose) text other := by
  have hwhose : ∀ {key : String} {consent : String × String}, m.whose key = some consent →
      InMemory.consentKey consent.1 consent.2 = key := by
    intro key consent hkey
    obtain ⟨work, hwork, rfl⟩ := Option.map_eq_some_iff.1 hkey
    obtain ⟨-, v, rfl, htext, -⟩ := h.text_of_work hwork
    exact htext
  intro i hi hi'
  cases i with
  | inl c =>
    obtain ⟨consent, hconsent, hc⟩ := hi
    obtain ⟨consent', hconsent', hc'⟩ := hi'
    obtain ⟨binding, hmem, rfl⟩ := List.mem_map.1 hc
    obtain ⟨binding', hmem', hsame⟩ := List.mem_map.1 hc'
    rw [List.mem_filter, decide_eq_true_eq] at hmem hmem'
    obtain rfl := List.inj_on_of_nodup_map hnodup hmem'.1 hmem.1 hsame
    have hconsentId : consent.2 = consent'.2 := Option.some.inj (hmem.2.2.symm.trans hmem'.2.2)
    rw [← hwhose hconsent, ← hwhose hconsent', ← hmem.2.1, ← hmem'.2.1, hconsentId] at hne
    exact hne rfl
  | inr key => exact hne (Eq.trans (Eq.symm hi) hi')

/-- The sessions and the work in another order. -/
theorem RegistriesAlike.look_same {n : InMemory.Memory} (h : RegistriesAlike sha256 memory redis texts m r)
    (hlook : n.look = m.look) (hsessions : (n.sessions.bindings.map Prod.fst).Nodup)
    (hwork : (n.revocationWork.map InMemory.RevocationWork.key).Nodup)
    (hrevoked : n.sessions.revokedConsents = m.sessions.revokedConsents) :
    RegistriesAlike sha256 memory redis texts n r := by
  have hrecord : n.sessions.record? = m.sessions.record? := funext fun c => congrArg Prod.fst (congrFun hlook (.inl c))
  have hwork? : n.work? = m.work? := funext fun key => congrArg Prod.snd (congrFun hlook (.inr key))
  exact ⟨h.sessions.records_same hrecord (InMemory.nodup_bindings.1 hsessions) rfl rfl,
    h.revocations.same hwork? hwork hrevoked ⟨rfl, rfl, rfl⟩, h.indexes⟩

/-- The work that is due is due on both. -/
theorem due_alike (hsha : Set.InjOn sha256 texts) (h : RevocationsAlike sha256 texts m r)
    (hrunning : ∀ work ∈ m.revocationWork, work.dueAt ≤ now → now < work.expiresAt) {limit : ℕ}
    (hcover : (r.due.filter fun entry => entry.2 ≤ now).length ≤ limit) :
    ∃ due : List String, due.map sha256 = Redis.zrangebyscore r.due now limit ∧ due.Nodup ∧
      due.Perm ((m.dueWork now).map InMemory.RevocationWork.key) ∧ ∀ text ∈ due, text ∈ texts := by
  have hperm := Redis.zrangebyscore_perm hcover
  have hdigests : ∀ digest ∈ Redis.zrangebyscore r.due now limit, ∃ text ∈ texts, sha256 text = digest := by
    intro digest hdigest
    obtain ⟨entry, hentry, rfl⟩ := List.mem_map.1 (hperm.mem_iff.1 hdigest)
    exact h.dueKnown entry (List.mem_of_mem_filter hentry)
  obtain ⟨due, hdue, htexts⟩ := exists_texts hdigests
  have hnodup : due.Nodup := by
    apply List.Nodup.of_map sha256
    rw [hdue, hperm.nodup_iff]
    exact h.due.sublist (List.filter_sublist.map _)
  have hkeys : ((m.dueWork now).map InMemory.RevocationWork.key).Nodup := h.keys.sublist (List.filter_sublist.map _)
  refine ⟨due, hdue, hnodup, (List.perm_ext_iff_of_nodup hnodup hkeys).2 fun text => ?_, htexts⟩
  have hmem : text ∈ due ↔ text ∈ texts ∧ ∃ entry ∈ r.due, entry.2 ≤ now ∧ entry.1 = sha256 text := by
    constructor
    · intro htext
      have hdigest := List.mem_map_of_mem (f := sha256) htext
      rw [hdue, hperm.mem_iff] at hdigest
      obtain ⟨entry, hentry, hsame⟩ := List.mem_map.1 hdigest
      rw [List.mem_filter, decide_eq_true_eq] at hentry
      exact ⟨htexts text htext, entry, hentry.1, hentry.2, hsame⟩
    · rintro ⟨ht, entry, hentry, hle, hdigest⟩
      have hmem : sha256 text ∈ due.map sha256 := by
        rw [hdue, hperm.mem_iff, ← hdigest]
        exact List.mem_map_of_mem (List.mem_filter.2 ⟨hentry, decide_eq_true hle⟩)
      obtain ⟨other, hother, hsame⟩ := List.mem_map.1 hmem
      exact hsha (htexts other hother) ht hsame ▸ hother
  rw [hmem]
  constructor
  · rintro ⟨ht, entry, hentry, hle, hdigest⟩
    have hget := get?_of_mem h.due hentry
    rw [hdigest] at hget
    rcases h.revocation ht with ⟨-, -, hnone⟩ | ⟨v, hwork, -, hdue', htext, -⟩
    · simp [hget] at hnone
    · obtain rfl := Option.some.inj (hget.symm.trans hdue')
      have hwork' := mem_of_get? hwork
      exact List.mem_map.2 ⟨v.work, List.mem_filter.2 ⟨hwork', decide_eq_true ⟨hrunning _ hwork' hle, hle⟩⟩, htext⟩
  · intro hkey
    obtain ⟨work, hwork, rfl⟩ := List.mem_map.1 hkey
    rw [InMemory.Memory.dueWork, List.mem_filter, decide_eq_true_eq] at hwork
    obtain ⟨ht, v, rfl, htext, hdue'⟩ := h.text_of_work (get?_of_mem h.keys hwork.1)
    exact ⟨ht, v.due sha256, mem_of_get? hdue', hwork.2.2, rfl⟩

theorem upToOrder_reduceOption {α β : Type} {S : α → β → Prop} {xs all : List (Option α)} {ys : List (Option β)}
    (hperm : all.Perm xs) (hall : List.Forall₂ (Option.Rel S) all ys) :
    UpToOrder S xs.reduceOption ys.reduceOption :=
  ⟨all.reduceOption, hperm.symm.filterMap id, List.rel_filterMap (fun _ _ h => h) hall⟩

variable (warm visibilityTimeoutMs number) in
/-- The work that is due is gone through on both. -/
theorem claimDueConsentRevocations_alike (hsha : Set.InjOn sha256 texts)
    (h : RegistriesAlike sha256 memory redis texts m r)
    (hlive : ∀ binding ∈ m.sessions.bindings, binding.2.expired now = false) (scan : Redis.SetScan)
    {workLimit sessionBatchLimit : ℚ} (hdue : ∀ work ∈ m.revocationWork, work.dueAt ≤ now → now < work.expiresAt ∧
      Scannable scan (pageSize sessionBatchLimit) m.sessions (r.members (sha256 work.key)) work.tenantId work.consentId)
    (hcover : (m.dueWork now).length ≤ ⌊workLimit⌋.toNat)
    (hcover' : (r.due.filter fun entry => entry.2 ≤ now).length ≤ (max 0 (min 100 ⌊workLimit⌋)).toNat) :
    let claimed := InMemory.claimDueConsentRevocations warm m now workLimit sessionBatchLimit visibilityTimeoutMs
      (memory.claim number) (memory.work number)
    let claimed' := Redis.claimDueConsentRevocations sha256 warm scan r now workLimit sessionBatchLimit
      visibilityTimeoutMs (redis.claim number) (redis.work number)
    ∃ xs ys, claimed.2 = .ok xs ∧ claimed'.2 = .ok ys ∧
      UpToOrder (SameClaims memory redis (SameWork sha256)) xs ys ∧
      RegistriesAlike sha256 memory redis texts claimed.1 claimed'.1 := by
  intro claimed claimed'
  obtain ⟨due, hdigests, hnodup, hperm, htexts⟩ :=
    due_alike hsha h.revocations (fun work hw hle => (hdue work hw hle).1) hcover'
  have hsessions := InMemory.nodup_bindings.2 h.sessions.records
  have hscan : ∀ text ∈ due, text ∈ texts ∧ ∀ work, m.work? text = some work → work.dueAt ≤ now ∧
      now < work.expiresAt ∧
      Scannable scan (pageSize sessionBatchLimit) m.sessions (r.members (sha256 text)) work.tenantId work.consentId := by
    intro text htext
    refine ⟨htexts text htext, fun work hwork => ?_⟩
    obtain ⟨work', hwork', rfl⟩ := List.mem_map.1 (hperm.mem_iff.1 htext)
    rw [InMemory.Memory.dueWork, List.mem_filter, decide_eq_true_eq] at hwork'
    have hget : m.work? work'.key = some work' := get?_of_mem h.revocations.keys hwork'.1
    obtain rfl := Option.some.inj (hget.symm.trans hwork)
    exact ⟨hwork'.2.2, hdue work' hwork'.1 hwork'.2.2⟩
  obtain ⟨all, ys, hall, hys, hsame, halike⟩ := scans_alike warm visibilityTimeoutMs number hsha h hlive scan hnodup hscan
  have hapart : due.Pairwise (Apart (InMemory.reach m.sessions.bindings m.whose)) :=
    hnodup.imp fun hne => apart_of_ne h.revocations hsessions hne
  obtain ⟨all', xs, hall', hxs, hresults, hkept, hkept', hlook⟩ := (InMemory.local_scanClaimed warm visibilityTimeoutMs
    sessionBatchLimit (memory.claim number) (memory.work number) m.sessions.revokedConsents m.whose hlive
      hsessions).each_perm hperm hapart (InMemory.Memory.settled h.revocations.keys)
  obtain rfl : all = all' := Except.ok.inj (hall.symm.trans hall')
  have hclaimed : claimed = ((each (InMemory.scanClaimed warm now visibilityTimeoutMs sessionBatchLimit
      (memory.claim number) (memory.work number)) m ((m.dueWork now).map InMemory.RevocationWork.key)).1,
        .ok xs.reduceOption) := by
    dsimp only [claimed]
    rw [InMemory.claimDueConsentRevocations, List.take_of_length_le hcover, hxs]
    rfl
  have hclaimed' : claimed' = ((each (Redis.scanClaimed sha256 warm scan now visibilityTimeoutMs
      (pageSize sessionBatchLimit) (redis.claim number) (redis.work number)) r (due.map sha256)).1,
        .ok ys.reduceOption) := by
    dsimp only [claimed']
    rw [Redis.claimDueConsentRevocations, ← hdigests, hys]
    rfl
  rw [hclaimed, hclaimed']
  exact ⟨_, _, rfl, rfl, upToOrder_reduceOption hresults hsame,
    halike.look_same hlook.symm (hkept'.bindings ▸ hsessions) hkept'.work (hkept'.revoked.trans hkept.revoked.symm)⟩

end Due

end CatalogSentinel.Connect
