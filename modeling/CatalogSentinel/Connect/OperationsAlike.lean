import CatalogSentinel.Connect.ScansAlike

/-!
Every operation answers the same on both registries, where what it relies on is the same, and
leaves both alike.
-/

namespace CatalogSentinel.Connect

open CatalogSentinel.Concurrent CatalogSentinel.Data

variable {sha256 : String → String} {memory redis : Tokens} {texts : Set String} {warm : Bool} {now : ℤ}
  {s : InMemory.State} {m : InMemory.Memory} {r : Redis.State} {visibilityTimeoutMs : Option ℚ} {number : ℕ}

/-! ### Claims that are over -/

theorem Redis.reclaimDrawn_claims {draw : ℕ → ℕ} {c j : ℕ} (hj : j ≠ c) :
    get? Prod.fst j (reclaimDrawn sha256 now visibilityTimeoutMs draw r c).1.claims = get? Prod.fst j r.claims := by
  have hzrem : get? Prod.fst j (r.zrem c).claims = get? Prod.fst j r.claims := get?_erase_of_ne hj r.claims
  rw [reclaimDrawn_state]
  unfold reclaimScript
  split
  · exact hzrem
  split
  · exact hzrem
  split
  · rfl
  split
  · exact hzrem
  · exact get?_put_of_ne (by exact Ne.symm hj) r.claims

theorem InMemory.reclaimDrawn_revokedConsents {draw : ℕ → ℕ} (s : State) (c : ℕ) :
    (reclaimDrawn now visibilityTimeoutMs draw s c).1.revokedConsents = s.revokedConsents := by
  rw [reclaimDrawn, reclaim]
  dsimp only
  split
  · rfl
  · split <;> rfl

/-- What is not leased is not given out. -/
theorem InMemory.reclaimDrawn_idle {draw : ℕ → ℕ} {c : ℕ}
    (hidle : ∀ record, s.record? c = some record → record.claim = none) :
    (reclaimDrawn now visibilityTimeoutMs draw s c).2 = .ok [] ∧
      (reclaimDrawn now visibilityTimeoutMs draw s c).1.record? c = s.record? c := by
  have hdrawn : (s.draw (draw c)).record? c = s.record? c := rfl
  rw [reclaimDrawn, reclaim]
  dsimp only
  rw [hdrawn]
  cases hc : s.record? c with
  | none => exact ⟨rfl, hc⟩
  | some record =>
    dsimp only
    rw [hidle record hc]
    exact ⟨rfl, hc⟩

/-- A lease is over in memory when it is over on Redis. -/
theorem Handoff.mem_over {h : Handoff} {c : ℕ} (hc : s.record? c = some (h.record memory c))
    (hlive : ∀ record ∈ s.records, record.session.expired now = false) :
    h.record memory c ∈ s.over now ↔ ∃ lease ∈ h.lease, lease.leaseUntil ≤ now := by
  have hdeadline := Handoff.live_of (hlive _ (mem_of_get? hc))
  rw [InMemory.State.over, List.mem_filter, and_iff_right (mem_of_get? hc)]
  cases hlease : h.lease with
  | none => simp [Handoff.record, hlease]
  | some lease =>
    have hover := h.over_iff hdeadline lease
    simp only [Handoff.record, hlease, Option.map_some, Option.any_some, Handoff.held, decide_eq_true_eq, hover,
      Option.mem_some_iff, exists_eq_left']

/-- What is over is in the sorted set with that time. -/
theorem over_sub (hs : SessionsAlike sha256 memory redis texts s r)
    (hlive : ∀ record ∈ s.records, record.session.expired now = false) {c : ℕ}
    (hc : c ∈ (s.over now).map InMemory.Record.connectId) :
    c ∈ (r.claims.filter fun entry => entry.2 ≤ now).map Prod.fst := by
  obtain ⟨record, hover, rfl⟩ := List.mem_map.1 hc
  have hrecord := get?_of_mem hs.records (List.mem_of_mem_filter hover)
  obtain ⟨h, hh, -, -, hscore⟩ := hs.handoff hrecord
  rw [hh] at hover
  obtain ⟨lease, hlease, hle⟩ := (Handoff.mem_over (hrecord.trans (congrArg some hh)) hlive).1 hover
  exact List.mem_map.2 ⟨_, List.mem_filter.2 ⟨mem_of_get? (hscore lease hlease), decide_eq_true hle⟩, rfl⟩

/-- What else is in the sorted set with that time is not leased. -/
theorem claim_none_of_not_over (hs : SessionsAlike sha256 memory redis texts s r)
    (hlive : ∀ record ∈ s.records, record.session.expired now = false) {c : ℕ}
    (hscore : ∀ entry, get? Prod.fst c r.claims = some entry → entry.2 ≤ now)
    (hover : c ∉ (s.over now).map InMemory.Record.connectId) {record : InMemory.Record}
    (hc : s.record? c = some record) : record.claim = none := by
  obtain ⟨h, rfl, -, -, hlease⟩ := hs.handoff hc
  cases hh : h.lease with
  | none => simp [Handoff.record, hh]
  | some lease =>
    have hmem := (Handoff.mem_over hc hlive).2 ⟨lease, hh, hscore _ (hlease lease hh)⟩
    exact absurd (List.mem_map_of_mem hmem) (key_of_get? hc ▸ hover)

variable (visibilityTimeoutMs number) in
theorem claimExpired_alike (hs : SessionsAlike sha256 memory redis texts s r)
    (hlive : ∀ record ∈ s.records, record.session.expired now = false) {limit : ℚ}
    (hcover : (s.over now).length ≤ ⌊limit⌋.toNat)
    (hcover' : (r.claims.filter fun entry => entry.2 ≤ now).length ≤ (max 0 (min 500 ⌊limit⌋)).toNat)
    (hreads : ∀ record ∈ s.over now, record.session.Readable) :
    let claimed := InMemory.claimExpiredDrawn s now limit visibilityTimeoutMs (memory.claim number)
    let claimed' := Redis.claimExpiredDrawn sha256 r now limit visibilityTimeoutMs (redis.claim number)
    ∃ xs ys, claimed.2 = .ok xs ∧ claimed'.2 = .ok ys ∧ UpToOrder (SameClaim memory redis) xs ys ∧
      SessionsAlike sha256 memory redis texts claimed.1 claimed'.1 ∧
      claimed.1.revokedConsents = s.revokedConsents ∧ claimed'.1.rest = r.rest := by
  intro claimed claimed'
  have hperm := Redis.zrangebyscore_perm hcover'
  generalize hover : Redis.zrangebyscore r.claims now (max 0 (min 500 ⌊limit⌋)).toNat = expired at hperm
  have hnodup : expired.Nodup := hperm.nodup_iff.2 (hs.claims.sublist (List.filter_sublist.map _))
  have hscores : ∀ c ∈ expired, ∀ entry, get? Prod.fst c r.claims = some entry → entry.2 ≤ now := by
    intro c hc entry hentry
    obtain ⟨entry', hentry', rfl⟩ := List.mem_map.1 (hperm.mem_iff.1 hc)
    rw [List.mem_filter, decide_eq_true_eq] at hentry'
    obtain rfl := Option.some.inj ((get?_of_mem hs.claims hentry'.1).symm.trans hentry)
    exact hentry'.2
  have hreadable : ∀ c ∈ expired, ∀ record, s.record? c = some record → record.claim ≠ none →
      record.session.Readable := by
    intro c hc record hrecord hclaim
    by_cases hpart : c ∈ (s.over now).map InMemory.Record.connectId
    · obtain ⟨record', hover', rfl⟩ := List.mem_map.1 hpart
      have hget := get?_of_mem hs.records (List.mem_of_mem_filter hover')
      obtain rfl := Option.some.inj (hget.symm.trans hrecord)
      exact hreads record' hover'
    · exact absurd (claim_none_of_not_over hs hlive (hscores c hc) hpart hrecord) hclaim
  -- The claims in the order of Redis, on both.
  have heach := each_alike (e := id)
    (Q := fun c s' r' => (∀ entry, get? Prod.fst c r'.claims = some entry → entry.2 ≤ now) ∧
      ∀ record, s'.record? c = some record → record.claim ≠ none → record.session.Readable)
    (f := InMemory.reclaimDrawn now visibilityTimeoutMs (memory.claim number))
    (g := Redis.reclaimDrawn sha256 now visibilityTimeoutMs (redis.claim number))
    (R := fun s' r' => SessionsAlike sha256 memory redis texts s' r' ∧ r'.rest = r.rest)
    (S := List.Forall₂ (SameClaim memory redis)) (fun c s' r' hR hQ => ?_) hnodup ⟨hs, rfl⟩
    fun c hc => ⟨hscores c hc, hreadable c hc⟩
  · rw [List.map_id] at heach
    obtain ⟨all, ys, hall, hys, hsame, hsessions, hrest⟩ := heach
    have hpart : ((s.over now).map InMemory.Record.connectId).Nodup := hs.records.sublist (List.filter_sublist.map _)
    have hidle : ∀ c ∈ expired, c ∉ (s.over now).map InMemory.Record.connectId →
        (InMemory.reclaimDrawn now visibilityTimeoutMs (memory.claim number) s c).2 = .ok [] ∧
          (InMemory.reclaimDrawn now visibilityTimeoutMs (memory.claim number) s c).1.record? c = s.record? c :=
      fun c hc hpart => InMemory.reclaimDrawn_idle fun record hrecord =>
        claim_none_of_not_over hs hlive (hscores c hc) hpart hrecord
    obtain ⟨xs, idle, all', hxs, hall', hresults, hidles, -, hlook⟩ := InMemory.local_reclaimDrawn.each_part hpart hnodup
      (fun c hc => hperm.mem_iff.2 (over_sub hs hlive hc)) (pairwise_apart hnodup) trivial
      (by rintro c hc hcpart i rfl; exact (hidle i hc hcpart).2)
    obtain rfl : all = all' := Except.ok.inj (hall.symm.trans hall')
    have hnone : idle.flatten = [] := by
      rw [List.flatten_eq_nil_iff]
      intro x hx
      obtain ⟨c, hc, hcpart, hx⟩ := hidles x hx
      exact Except.ok.inj (hx.symm.trans (hidle c hc hcpart).1)
    have hflatten := hresults.flatten
    rw [List.flatten_append, hnone, List.append_nil] at hflatten
    have hkept := each_keeps (f := InMemory.reclaimDrawn now visibilityTimeoutMs (memory.claim number))
      (P := fun t => t.revokedConsents = s.revokedConsents ∧ t.bindings = s.bindings)
      (fun t c ht => ⟨(InMemory.reclaimDrawn_revokedConsents t c).trans ht.1,
        (InMemory.rewrites_reclaimDrawn t c).bindings.trans ht.2⟩) ⟨rfl, rfl⟩ ((s.over now).map InMemory.Record.connectId)
    have hrecords : ((each (InMemory.reclaimDrawn now visibilityTimeoutMs (memory.claim number)) s
        ((s.over now).map InMemory.Record.connectId)).1.records.map InMemory.Record.connectId).Nodup := by
      rw [← InMemory.nodup_bindings, hkept.2, InMemory.nodup_bindings]
      exact hs.records
    dsimp only [claimed, claimed']
    rw [InMemory.claimExpiredDrawn, List.take_of_length_le hcover, hxs, Redis.claimExpiredDrawn, hover, hys]
    exact ⟨_, _, rfl, rfl, ⟨all.flatten, hflatten, List.rel_flatten hsame⟩,
      hsessions.records_same hlook hrecords rfl rfl, hkept.1, hrest⟩
  · obtain ⟨xs, ys, hxs, hys, hsame, hnext⟩ := reclaim_alike hR.1 number c hQ.1 hQ.2 visibilityTimeoutMs
    refine ⟨xs, ys, hxs, hys, hsame, ⟨hnext, (Redis.rest_reclaimDrawn _ _ _).trans hR.2⟩,
      fun j hj hQj => ⟨fun entry hentry => ?_, fun record hrecord => ?_⟩⟩
    · exact hQj.1 entry ((Redis.reclaimDrawn_claims hj).symm.trans hentry)
    · exact hQj.2 record (((InMemory.rewrites_reclaimDrawn s' c).other hj).symm.trans hrecord)

/-! ### Consents that are revoked -/

section Revoked

variable (hsha : Set.InjOn sha256 texts) (h : RegistriesAlike sha256 memory redis texts m r)
  {consentId tenantId : String} (ht : InMemory.consentKey tenantId consentId ∈ texts)

include hsha h ht

theorem tombstones_mark (now ttlMs : ℤ) :
    RevocationsAlike.Tombstones sha256 texts
      (put Prod.fst (InMemory.consentKey tenantId consentId, now + ttlMs) m.sessions.revokedConsents)
      (put Prod.fst (Redis.consentDigest sha256 tenantId consentId, now + ttlMs) r.tombstones) := by
  refine ⟨nodup_put h.revocations.tombstones, fun text ht' => ?_⟩
  rw [get?_put, get?_put]
  by_cases hsame : InMemory.consentKey tenantId consentId = text
  · have hdigest : Redis.consentDigest sha256 tenantId consentId = sha256 text := congrArg sha256 hsame
    rw [if_pos hsame, if_pos hdigest]
    rfl
  · have hdigest : Redis.consentDigest sha256 tenantId consentId ≠ sha256 text := fun hd => hsame (hsha ht ht' hd)
    rw [if_neg hsame, if_neg hdigest]
    exact h.revocations.revoked text ht'

theorem markConsentRevoked_alike {ttlMs : ℤ} (httl : 0 < ttlMs) :
    RegistriesAlike sha256 memory redis texts (InMemory.beginRevocation m now consentId tenantId ttlMs)
      (Redis.markConsentRevoked sha256 r now consentId tenantId ttlMs) := by
  have hdigest : Redis.consentDigest sha256 tenantId consentId =
    sha256 (InMemory.consentKey tenantId consentId) := rfl
  have hmark := tombstones_mark hsha h ht now ttlMs
  have hothers : ∀ text ∈ texts, text ≠ InMemory.consentKey tenantId consentId →
      get? Prod.fst (sha256 text) (put Prod.fst
        (Redis.consentDigest sha256 tenantId consentId, now + ttlMs) r.tombstones) =
        get? Prod.fst (sha256 text) r.tombstones := fun text ht' hne =>
    get?_put_of_ne (by exact fun hd => hne (hsha ht ht' hd).symm) r.tombstones
  have hself : get? Prod.fst (Redis.consentDigest sha256 tenantId consentId) (put Prod.fst
      (Redis.consentDigest sha256 tenantId consentId, now + ttlMs) r.tombstones) =
        some (Redis.consentDigest sha256 tenantId consentId, now + ttlMs) :=
    get?_put_self (Redis.consentDigest sha256 tenantId consentId, now + ttlMs) r.tombstones
  rw [InMemory.beginRevocation, Redis.markConsentRevoked, if_neg (not_le.2 httl)]
  dsimp only
  rw [hdigest] at hmark hself hothers ⊢
  rcases h.revocations.revocation ht with ⟨hwork, hkey, hdue⟩ | ⟨v, hwork, hkey, hdue, htext, -⟩
  · have hwork' : ¬ ((({ m with
        sessions := InMemory.markConsentRevoked m.sessions now consentId tenantId ttlMs } : InMemory.Memory).work?
          (InMemory.consentKey tenantId consentId)).isSome = true) := by simp [hwork]
    have hdue' : ¬ (get? Prod.fst (sha256 (InMemory.consentKey tenantId consentId)) r.due).isSome = true := by
      simp [hdue]
    rw [if_neg hwork', hkey, if_neg hdue']
    refine ⟨h.sessions.same rfl rfl rfl, ?_, h.indexes⟩
    exact h.revocations.write (v := ⟨tenantId, consentId, now, now + ttlMs, now + ttlMs⟩) hsha ht rfl rfl rfl hmark hothers
      ⟨_, hself, le_refl (now + ttlMs)⟩
  · have hwork' : ((({ m with
        sessions := InMemory.markConsentRevoked m.sessions now consentId tenantId ttlMs } : InMemory.Memory).work?
          (InMemory.consentKey tenantId consentId)).isSome = true) := Option.isSome_iff_exists.2 ⟨_, hwork⟩
    have hdue' : (get? Prod.fst (sha256 (InMemory.consentKey tenantId consentId)) r.due).isSome = true := by
      simp [hdue]
    rw [if_pos hwork', hkey, if_pos hdue']
    refine ⟨h.sessions.same rfl rfl rfl, ?_, h.indexes⟩
    have hwork'' : get? InMemory.RevocationWork.key v.text m.revocationWork = some v.work := by
      rw [htext]
      exact hwork
    have hdue'' : get? Prod.fst (sha256 v.text) r.due = some (v.due sha256) := by
      rw [htext]
      exact hdue
    have hself' : get? Prod.fst (sha256 v.text) (put Prod.fst (sha256 (InMemory.consentKey tenantId consentId),
        now + ttlMs) r.tombstones) = some (sha256 (InMemory.consentKey tenantId consentId), now + ttlMs) := by
      rw [htext]
      exact hself
    exact h.revocations.write (v := { v with deadline := max v.deadline (now + ttlMs) }) hsha (htext ▸ ht)
      (put_of_get? hwork'').symm rfl (put_of_get? hdue'').symm hmark
      (fun text ht' hne => hothers text ht' (htext ▸ hne)) ⟨_, hself', le_max_right v.deadline (now + ttlMs)⟩

variable (now) in
/-- The work is done on both when no session is left, and else it is due at once. -/
theorem settleConsentRevocation_alike (token token' : ℕ)
    (hwork : ∀ work, m.work? (InMemory.consentKey tenantId consentId) = some work →
      work.tenantId = tenantId ∧ work.consentId = consentId ∧
        (r.members (Redis.consentDigest sha256 tenantId consentId) = [] ↔ m.sessions.bound tenantId consentId = [])) :
    let settled := InMemory.settleConsentRevocation m now
      ⟨InMemory.consentKey tenantId consentId, token, tenantId, consentId, none⟩
    let settled' := Redis.settleConsentRevocation sha256 r now
      ⟨Redis.consentDigest sha256 tenantId consentId, token', tenantId, consentId, 0⟩
    settled.2 = settled'.2 ∧ RegistriesAlike sha256 memory redis texts settled.1 settled'.1 := by
  intro settled settled'
  have hsettled : settled = InMemory.settleConsentRevocation m now
      ⟨InMemory.consentKey tenantId consentId, token, tenantId, consentId, none⟩ := rfl
  have hsettled' : settled' = Redis.settleScript r (sha256 (InMemory.consentKey tenantId consentId))
    (sha256 (InMemory.consentKey tenantId consentId)) now := rfl
  have hmembers : ((r.index? (sha256 (InMemory.consentKey tenantId consentId))).map Redis.IndexKey.members).getD [] =
    r.members (Redis.consentDigest sha256 tenantId consentId) := rfl
  rw [InMemory.settleConsentRevocation] at hsettled
  rw [Redis.settleScript, hmembers] at hsettled'
  rcases h.revocations.revocation ht with ⟨hnone, hkey, hdue⟩ | ⟨v, hsome, hkey, hdue, htext, tombstone, htombstone, hle⟩
  · rw [hnone] at hsettled
    have hzrem : erase Prod.fst (sha256 (InMemory.consentKey tenantId consentId)) r.due = r.due :=
      erase_of_get?_none hdue
    have hdel : erase Redis.WorkKey.digest (sha256 (InMemory.consentKey tenantId consentId)) r.work = r.work :=
      erase_of_get?_none hkey
    rw [hkey, Redis.State.zremDue, Redis.State.zremDue, hzrem, hdel] at hsettled'
    have hdone : settled' = (r, true) := by
      rw [hsettled']
      split <;> rfl
    rw [hsettled, hdone]
    exact ⟨rfl, h⟩
  · obtain ⟨htenant, hconsent, hempty⟩ := hwork v.work hsome
    have hsame : ¬ (v.work.tenantId ≠ tenantId ∨ v.work.consentId ≠ consentId) := by simp [htenant, hconsent]
    rw [hsome] at hsettled
    dsimp only at hsettled
    rw [if_neg hsame] at hsettled
    by_cases hbound : m.sessions.bound tenantId consentId = []
    · rw [if_pos hbound] at hsettled
      rw [if_pos (hempty.2 hbound)] at hsettled'
      rw [hsettled, hsettled']
      exact ⟨rfl, h.sessions.same rfl rfl rfl, h.revocations.settle hsha ht rfl rfl rfl rfl rfl, h.indexes⟩
    · rw [if_neg hbound] at hsettled
      rw [if_neg (mt hempty.1 hbound), hkey] at hsettled'
      dsimp only at hsettled'
      rw [if_pos (.inl rfl)] at hsettled'
      rw [hsettled, hsettled']
      have hkey' : get? Redis.WorkKey.digest (sha256 v.text) r.work = some (v.key sha256) := by
        rw [htext]
        exact hkey
      refine ⟨rfl, h.sessions.same rfl rfl rfl, ?_, h.indexes⟩
      refine h.revocations.write (v := v.later now) hsha (htext ▸ ht) rfl (put_of_get? hkey').symm ?_
        (h.revocations.tombstones_same rfl rfl) (fun _ _ _ => rfl) ⟨tombstone, ?_, hle⟩
      · exact congrArg (fun text => put Prod.fst (sha256 text, now) r.due) htext.symm
      · rw [← htext] at htombstone
        exact htombstone

variable (warm visibilityTimeoutMs number) in
/-- The sessions of a revoked consent are claimed on both. -/
theorem claimByConsent_alike (hlive : ∀ binding ∈ m.sessions.bindings, binding.2.expired now = false)
    (scan : Redis.SetScan) {batchLimit : ℚ}
    (hwork : ∀ work, m.work? (InMemory.consentKey tenantId consentId) = some work → work.dueAt ≤ now ∧
      now < work.expiresAt ∧ Scannable scan (pageSize batchLimit) m.sessions
        (r.members (sha256 (InMemory.consentKey tenantId consentId))) work.tenantId work.consentId) :
    let claimed := InMemory.claimByConsent warm m now consentId tenantId visibilityTimeoutMs batchLimit
      (memory.claim number) (memory.work number)
    let claimed' := Redis.claimByConsent sha256 warm scan r now consentId tenantId visibilityTimeoutMs batchLimit
      (redis.claim number) (redis.work number)
    ∃ x y, claimed.2 = .ok x ∧ claimed'.2 = .ok y ∧ SameClaims memory redis (SameWork sha256) x y ∧
      RegistriesAlike sha256 memory redis texts claimed.1 claimed'.1 := by
  intro claimed claimed'
  have hscan := scan_alike warm visibilityTimeoutMs number hsha h hlive ht scan hwork
  have hdigest : Redis.consentDigest sha256 tenantId consentId =
    sha256 (InMemory.consentKey tenantId consentId) := rfl
  dsimp only [claimed, claimed']
  rw [InMemory.claimByConsent, Redis.claimByConsent, hdigest]
  dsimp only
  obtain ⟨x, y, hx, hy, hsame, halike, -⟩ := hscan
  rw [hx, hy]
  refine ⟨x.getD ⟨[], 1, none⟩, y.getD ⟨[], 1, none⟩, rfl, rfl, ?_, halike⟩
  cases hsame with
  | some hclaims => exact hclaims
  | none => exact ⟨⟨[], .nil, .nil⟩, rfl, .none⟩

end Revoked

end CatalogSentinel.Connect
