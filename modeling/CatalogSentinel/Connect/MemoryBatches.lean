import CatalogSentinel.Connect.Memory

/-!
In memory a batch may be gone through in any order: each of its sessions, and each of its
consents, is looked at and written on its own.
-/

namespace CatalogSentinel.Connect.InMemory

open CatalogSentinel.Concurrent CatalogSentinel.Data

variable {warm : Bool} {s t : State} {now : ℤ}

/-- The sessions by their ids, whatever else is kept of them. -/
def State.bindings (s : State) : List (ℕ × DurableConnectSession) :=
  s.records.map fun record => (record.connectId, record.session)

/-- What an operation on a session leaves of the records: those that were there, or another
record of the same session. -/
inductive Rewrites (s t : State) (connectId : ℕ) : Prop
  | kept : t.records = s.records → Rewrites s t connectId
  | written (old new : Record) : s.record? connectId = some old → new.connectId = connectId →
      new.session = old.session → t.records = put Record.connectId new s.records → Rewrites s t connectId

namespace Rewrites

variable {c : ℕ}

theorem bindings (h : Rewrites s t c) : t.bindings = s.bindings := by
  cases h with
  | kept hrecords => rw [State.bindings, hrecords, State.bindings]
  | written old new hold hid hsession hrecords =>
    subst hid
    rw [State.bindings, hrecords, State.bindings]
    exact map_put hold (Prod.ext (key_of_get? hold).symm hsession)

theorem other (h : Rewrites s t c) {j : ℕ} (hj : j ≠ c) : t.record? j = s.record? j := by
  cases h with
  | kept hrecords => rw [State.record?, hrecords]
  | written old new hold hid hsession hrecords =>
    rw [State.record?, hrecords, get?_put_of_ne (by rw [hid]; exact Ne.symm hj)]

end Rewrites

theorem requested_session (record : Record) (action : ConnectSessionAction) :
    (record.requested action).session = record.session := by
  unfold Record.requested
  split <;> rfl

theorem rewarmed_session (record : Record) (action : ConnectSessionAction) :
    (record.rewarmed action).session = record.session := by
  unfold Record.rewarmed
  split <;> rfl

theorem lease_records (record : Record) (visibilityTimeoutMs : Option ℚ) (action : ConnectSessionAction) :
    (lease s now visibilityTimeoutMs record action).1.records = put Record.connectId { record with
      claim := some ⟨s.past.fresh, action, leaseOf record.session now visibilityTimeoutMs⟩ } s.records := rfl

theorem lease_record? (record : Record) (visibilityTimeoutMs : Option ℚ) (action : ConnectSessionAction) :
    (lease s now visibilityTimeoutMs record action).1.record? record.connectId = some { record with
      claim := some ⟨s.past.fresh, action, leaseOf record.session now visibilityTimeoutMs⟩ } :=
  get?_put_self { record with
    claim := some ⟨s.past.fresh, action, leaseOf record.session now visibilityTimeoutMs⟩ } s.records

theorem rewrites_claimAuthorized {request : ClaimRequest}
    (hlive : ∀ record, s.record? request.connectId = some record → record.session.expired now = false) :
    Rewrites s (claimAuthorized warm s now request).1 request.connectId := by
  unfold claimAuthorized
  cases hold : s.record? request.connectId with
  | none => exact .kept (erase_of_get?_none hold)
  | some old =>
    have hid : old.connectId = request.connectId := key_of_get? hold
    rw [Option.filter_some, if_pos (by simp [hlive old hold])]
    dsimp only
    split
    · exact .kept rfl
    split
    · exact .kept rfl
    split
    · exact .kept rfl
    have hid' : ((old.requested request.action).rewarmed request.action).connectId = request.connectId := by simp [hid]
    have hsession : ((old.requested request.action).rewarmed request.action).session = old.session := by
      rw [rewarmed_session, requested_session]
    generalize (old.requested request.action).rewarmed request.action = record at hid' hsession
    split
    · exact .written old record hold hid' hsession rfl
    generalize (if record.cancelRequested = true then ConnectSessionAction.cancel else request.action) = action
    split
    · cases request.confirmation with
      | none => exact .written old record hold hid' hsession rfl
      | some work =>
        exact .written old _ hold (by exact hid') (by exact hsession)
          (lease_records { record with confirmation := some work } request.visibilityTimeoutMs action)
    · exact .written old _ hold (by exact hid') (by exact hsession)
        (lease_records record request.visibilityTimeoutMs action)

theorem claimAuthorized_revokedConsents {request : ClaimRequest} :
    (claimAuthorized warm s now request).1.revokedConsents = s.revokedConsents := by
  unfold claimAuthorized
  split
  · rfl
  split
  · rfl
  split
  · rfl
  dsimp only
  split
  · rfl
  rename_i record _ _ _ _
  generalize (record.requested request.action).rewarmed request.action = prepared
  split
  · rfl
  generalize (if prepared.cancelRequested = true then ConnectSessionAction.cancel else request.action) = action
  split
  · cases request.confirmation <;> rfl
  · rfl

variable (warm now) in
/-- A claim reads the one session only. -/
theorem claimAuthorized_congr (request : ClaimRequest) (token : ℕ)
    (hsame : s.record? request.connectId = t.record? request.connectId) :
    (claimAuthorized warm (s.draw token) now request).2 = (claimAuthorized warm (t.draw token) now request).2 ∧
      (claimAuthorized warm (s.draw token) now request).1.record? request.connectId =
        (claimAuthorized warm (t.draw token) now request).1.record? request.connectId := by
  have hwritten : ∀ (u : State) {record : Record}, record.connectId = request.connectId →
      (u.write record).record? request.connectId = some record := by
    intro u record hid
    rw [← hid]
    exact get?_put_self record u.records
  have hs : (s.draw token).record? request.connectId = t.record? request.connectId := hsame
  have ht : (t.draw token).record? request.connectId = t.record? request.connectId := rfl
  rw [claimAuthorized, claimAuthorized, hs, ht]
  cases hrecord : (t.record? request.connectId).filter fun record => !record.session.expired now with
  | none => exact ⟨rfl, by rw [State.record?, State.record?, State.delete, State.delete, get?_erase_self, get?_erase_self]⟩
  | some old =>
    have hid : old.connectId = request.connectId := key_of_get? (Option.filter_eq_some_iff.1 hrecord).1
    dsimp only
    split
    · exact ⟨rfl, hs.trans ht.symm⟩
    split
    · exact ⟨rfl, hs.trans ht.symm⟩
    split
    · exact ⟨rfl, hs.trans ht.symm⟩
    have hid' : ((old.requested request.action).rewarmed request.action).connectId = request.connectId := by simp [hid]
    generalize (old.requested request.action).rewarmed request.action = record at hid'
    split
    · exact ⟨rfl, by rw [hwritten _ hid', hwritten _ hid']⟩
    generalize (if record.cancelRequested = true then ConnectSessionAction.cancel else request.action) = action
    split
    · cases request.confirmation with
      | none => exact ⟨rfl, by rw [hwritten _ hid', hwritten _ hid']⟩
      | some work =>
        exact ⟨rfl, (hwritten (s.draw token) (by exact hid')).trans (hwritten (t.draw token) (by exact hid')).symm⟩
    · exact ⟨rfl, (hwritten (s.draw token) (by exact hid')).trans (hwritten (t.draw token) (by exact hid')).symm⟩

/-- A claim to cancel is never without its search. -/
theorem claimAuthorized_cancel {request : ClaimRequest} (haction : request.action = .cancel) (message : String) :
    (claimAuthorized warm s now request).2 ≠ .failed message := by
  unfold claimAuthorized
  split
  · simp
  split
  · simp
  split
  · simp
  dsimp only
  split
  · simp
  rename_i record _ _ _ _
  have hrequested := prepared_cancelRequested (r := record) haction
  generalize (record.requested request.action).rewarmed request.action = prepared at hrequested
  split
  · simp
  rw [if_neg (by simp)]
  simp

section Members

variable {tenantId : String} {visibilityTimeoutMs : Option ℚ} {draw : ℕ → ℕ} {bindings : List (ℕ × DurableConnectSession)}

theorem claimMember_eq (s : State) (c : ℕ) :
    claimMember warm now tenantId visibilityTimeoutMs draw s c =
      ((claimAuthorized warm (s.draw (draw c)) now
        (claimRequest c tenantId .cancel visibilityTimeoutMs none none)).1,
      .ok (claimAuthorized warm (s.draw (draw c)) now
        (claimRequest c tenantId .cancel visibilityTimeoutMs none none)).2) := by
  have hdone : ∀ message, (claimAuthorized warm (s.draw (draw c)) now
      (claimRequest c tenantId .cancel visibilityTimeoutMs none none)).2 ≠ .failed message :=
    claimAuthorized_cancel rfl
  rw [claimMember]
  rcases hout : claimAuthorized warm (s.draw (draw c)) now
    (claimRequest c tenantId .cancel visibilityTimeoutMs none none) with ⟨t, result⟩
  rw [hout] at hdone
  cases result with
  | failed message => exact absurd rfl (hdone message)
  | _ => rfl

theorem claimMember_revokedConsents (s : State) (c : ℕ) :
    (claimMember warm now tenantId visibilityTimeoutMs draw s c).1.revokedConsents = s.revokedConsents := by
  rw [claimMember_eq]
  exact claimAuthorized_revokedConsents (s := s.draw (draw c))

theorem live_of_bindings (hlive : ∀ binding ∈ bindings, binding.2.expired now = false) (hs : s.bindings = bindings)
    {c : ℕ} {record : Record} (hc : s.record? c = some record) : record.session.expired now = false := by
  apply hlive (record.connectId, record.session)
  rw [← hs]
  exact List.mem_map_of_mem (mem_of_get? hc)

variable (warm tenantId visibilityTimeoutMs draw) in
theorem rewrites_claimMember (hlive : ∀ binding ∈ bindings, binding.2.expired now = false)
    (hs : s.bindings = bindings) (c : ℕ) :
    Rewrites s (claimMember warm now tenantId visibilityTimeoutMs draw s c).1 c := by
  rw [claimMember_eq]
  have hrewrites : Rewrites (s.draw (draw c)) (claimAuthorized warm (s.draw (draw c)) now
      (claimRequest c tenantId .cancel visibilityTimeoutMs none none)).1 c :=
    rewrites_claimAuthorized fun record hc => live_of_bindings (s := s) hlive hs hc
  cases hrewrites with
  | kept hrecords => exact .kept hrecords
  | written old new hold hid hsession hrecords => exact .written old new hold hid hsession hrecords

variable (warm tenantId visibilityTimeoutMs draw) in
theorem local_claimMember (hlive : ∀ binding ∈ bindings, binding.2.expired now = false) :
    Local State.record? (fun c i : ℕ => i = c) (fun s => s.bindings = bindings)
      (claimMember warm now tenantId visibilityTimeoutMs draw) where
  keeps s c hs := (rewrites_claimMember warm tenantId visibilityTimeoutMs draw hlive hs c).bindings.trans hs
  succeeds s c _ := ⟨_, congrArg Prod.snd (claimMember_eq s c)⟩
  frame s c i hs hi := (rewrites_claimMember warm tenantId visibilityTimeoutMs draw hlive hs c).other hi
  same s t c _ _ hsame := by
    have hcongr := claimAuthorized_congr warm now
      (claimRequest c tenantId .cancel visibilityTimeoutMs none none) (draw c) (hsame c rfl)
    rw [claimMember_eq, claimMember_eq]
    refine ⟨congrArg Except.ok hcongr.1, ?_⟩
    rintro i rfl
    exact hcongr.2

end Members

section Over

variable {visibilityTimeoutMs : Option ℚ} {draw : ℕ → ℕ}

/-- A claim that is given out again is written with its session. -/
theorem rewrites_reclaimDrawn (s : State) (c : ℕ) :
    Rewrites s (reclaimDrawn now visibilityTimeoutMs draw s c).1 c := by
  have hdrawn : (s.draw (draw c)).record? c = s.record? c := rfl
  rw [reclaimDrawn, reclaim]
  dsimp only
  rw [hdrawn]
  cases hc : s.record? c with
  | none => exact .kept rfl
  | some record =>
    cases hclaim : record.claim with
    | none =>
      dsimp only
      rw [hclaim]
      exact .kept rfl
    | some held =>
      dsimp only
      rw [hclaim]
      dsimp only
      generalize (if record.cancelRequested = true then ConnectSessionAction.cancel else held.action) = action
      have hid : record.connectId = c := key_of_get? hc
      exact .written record { record with
        claim := some ⟨draw c, action, leaseOf record.session now visibilityTimeoutMs⟩ } hc hid rfl rfl

theorem local_reclaimDrawn :
    Local State.record? (fun c i : ℕ => i = c) (fun _ => True)
      (reclaimDrawn now visibilityTimeoutMs draw) where
  keeps _ _ _ := trivial
  succeeds _ _ _ := ⟨_, rfl⟩
  frame s c _ _ hi := (rewrites_reclaimDrawn s c).other hi
  same s t c _ _ hsame := by
    have hs : (s.draw (draw c)).record? c = t.record? c := hsame c rfl
    have ht : (t.draw (draw c)).record? c = t.record? c := rfl
    rw [reclaimDrawn, reclaimDrawn, reclaim, reclaim]
    dsimp only
    rw [hs, ht]
    cases hc : t.record? c with
    | none =>
      refine ⟨rfl, ?_⟩
      rintro i rfl
      exact hs.trans ht.symm
    | some record =>
      dsimp only
      cases record.claim with
      | none =>
        refine ⟨rfl, ?_⟩
        rintro i rfl
        exact hs.trans ht.symm
      | some held =>
        refine ⟨rfl, ?_⟩
        rintro i rfl
        obtain rfl : record.connectId = i := key_of_get? hc
        exact (lease_record? (s := s.draw (draw record.connectId)) record visibilityTimeoutMs _).trans
          (lease_record? (s := t.draw (draw record.connectId)) record visibilityTimeoutMs _).symm

end Over

/-! ### The work of a consent -/

/-- The sessions that are bound to a consent. -/
def boundIn (bindings : List (ℕ × DurableConnectSession)) (tenantId consentId : String) : List ℕ :=
  (bindings.filter fun binding => binding.2.tenantId = tenantId ∧ binding.2.consentId = some consentId).map Prod.fst

theorem bound_eq (s : State) (tenantId consentId : String) :
    s.bound tenantId consentId = boundIn s.bindings tenantId consentId := by
  simp [State.bound, boundIn, State.bindings, List.filter_map, Function.comp_def]

section Scans

variable {visibilityTimeoutMs : Option ℚ} {batchLimit : ℚ} {draw : ℕ → ℕ} {workToken : String → ℕ} {m : Memory}
  {bindings : List (ℕ × DurableConnectSession)} {key : String}

/-- The claim on the work of a key. -/
def RevocationWork.claimOf (work : RevocationWork) (workToken : String → ℕ) : ConsentRevocationWorkClaim :=
  ⟨work.key, workToken work.key, work.tenantId, work.consentId, work.cursor⟩

variable (warm visibilityTimeoutMs batchLimit draw workToken) in
theorem scanClaimed_none (hnone : ∀ work, m.work? key = some work → work.claimable now = false) :
    scanClaimed warm now visibilityTimeoutMs batchLimit draw workToken m key = (m, .ok none) := by
  rw [scanClaimed, claimRevocationWork]
  cases hwork : m.work? key with
  | none => rfl
  | some work =>
    dsimp only
    rw [if_pos (by simp [hnone work hwork])]

theorem nodup_afterCursor {s : State} (hnodup : (s.bindings.map Prod.fst).Nodup)
    (claim : ConsentRevocationWorkClaim) : (s.afterCursor claim).Nodup := by
  have hbound : (s.bound claim.tenantId claim.consentId).Nodup := by
    rw [bound_eq]
    exact hnodup.sublist (List.filter_sublist.map Prod.fst)
  have hsorted : ((s.bound claim.tenantId claim.consentId).insertionSort (· ≤ ·)).Nodup :=
    (List.perm_insertionSort _ _).nodup_iff.2 hbound
  unfold State.afterCursor
  cases claim.cursor with
  | none => exact hsorted
  | some cursor => exact hsorted.filter _

/-- The sessions that a scan of the work goes through. -/
def RevocationWork.page (work : RevocationWork) (s : State) (workToken : String → ℕ) (batchLimit : ℚ) : List ℕ :=
  (s.afterCursor (work.claimOf workToken)).take (pageSize batchLimit)

theorem nodup_page {s : State} (hnodup : (s.bindings.map Prod.fst).Nodup) (work : RevocationWork) :
    (work.page s workToken batchLimit).Nodup :=
  (nodup_afterCursor hnodup _).sublist (List.take_sublist _ _)

variable (warm visibilityTimeoutMs batchLimit draw workToken) in
/-- The work is claimed, each session of its page, and the work is given back. -/
theorem scanClaimed_eq {work : RevocationWork} (hwork : m.work? key = some work)
    (hclaimable : work.claimable now = true) {results : List ConnectSessionClaimResult}
    (hresults : (each (claimMember warm now work.tenantId visibilityTimeoutMs draw) m.sessions
      (work.page m.sessions workToken batchLimit)).2 = .ok results) :
    scanClaimed warm now visibilityTimeoutMs batchLimit draw workToken m key =
      (⟨(each (claimMember warm now work.tenantId visibilityTimeoutMs draw) m.sessions
          (work.page m.sessions workToken batchLimit)).1,
        put RevocationWork.key (work.scanned now visibilityTimeoutMs (m.sessions.afterCursor (work.claimOf workToken))
          (work.page m.sessions workToken batchLimit)) m.revocationWork⟩,
      .ok (some (gathered (work.claimOf workToken) results))) := by
  obtain rfl : work.key = key := key_of_get? hwork
  have htaken : (m.keepWork { work with
      token := some (workToken work.key)
      claimUntil := some (now + positiveVisibility visibilityTimeoutMs)
      dueAt := now + positiveVisibility visibilityTimeoutMs }).work? work.key = some { work with
        token := some (workToken work.key)
        claimUntil := some (now + positiveVisibility visibilityTimeoutMs)
        dueAt := now + positiveVisibility visibilityTimeoutMs } :=
    get?_put_self { work with
      token := some (workToken work.key)
      claimUntil := some (now + positiveVisibility visibilityTimeoutMs)
      dueAt := now + positiveVisibility visibilityTimeoutMs } m.revocationWork
  have hloop : each (claimMember warm now work.tenantId visibilityTimeoutMs draw) m.sessions
      (work.page m.sessions workToken batchLimit) = ((each (claimMember warm now work.tenantId visibilityTimeoutMs draw)
        m.sessions (work.page m.sessions workToken batchLimit)).1, .ok results) := Prod.ext rfl hresults
  rw [scanClaimed, claimRevocationWork, hwork]
  dsimp only
  rw [if_neg (by simp [hclaimable])]
  dsimp only
  rw [scanRevocationWork, htaken, Option.filter_some, if_pos (by simp)]
  dsimp only
  split
  · rename_i sessions message hfailed
    have hcontra := hfailed.symm.trans hloop
    simp at hcontra
  · rename_i sessions results' hdone
    have hsame := hdone.symm.trans hloop
    rw [Prod.mk.injEq, Except.ok.injEq] at hsame
    rw [hsame.1, hsame.2, Memory.keepWork, Memory.keepWork]
    dsimp only
    rw [put_put (by rfl)]
    rfl

variable (warm visibilityTimeoutMs batchLimit draw workToken) in
/-- The work is scanned: each session of the page is claimed as it was before, and no other. -/
theorem scanClaimed_some {work : RevocationWork} (hwork : m.work? key = some work)
    (hclaimable : work.claimable now = true) (hlive : ∀ binding ∈ m.sessions.bindings, binding.2.expired now = false)
    (hnodup : (m.sessions.bindings.map Prod.fst).Nodup) :
    let page := work.page m.sessions workToken batchLimit
    let scanned := scanClaimed warm now visibilityTimeoutMs batchLimit draw workToken m key
    ∃ results, scanned.2 = .ok (some (gathered (work.claimOf workToken) results)) ∧
      List.Forall₂ (fun c result => (claimMember warm now work.tenantId visibilityTimeoutMs draw m.sessions c).2 =
        .ok result) page results ∧
      scanned.1.sessions.bindings = m.sessions.bindings ∧
      (∀ c, c ∉ page → scanned.1.sessions.record? c = m.sessions.record? c) ∧
      (∀ c ∈ page, scanned.1.sessions.record? c =
        (claimMember warm now work.tenantId visibilityTimeoutMs draw m.sessions c).1.record? c) ∧
      scanned.1.sessions.revokedConsents = m.sessions.revokedConsents ∧
      scanned.1.revocationWork = put RevocationWork.key (work.scanned now visibilityTimeoutMs
        (m.sessions.afterCursor (work.claimOf workToken)) page) m.revocationWork := by
  intro page scanned
  obtain ⟨results, hresults, hall, hkept, houtside, hinside⟩ := (local_claimMember warm
    work.tenantId visibilityTimeoutMs draw hlive).each_eq (pairwise_apart (nodup_page hnodup work)) rfl
  have hscanned := scanClaimed_eq warm visibilityTimeoutMs batchLimit draw workToken hwork hclaimable hresults
  dsimp only [scanned]
  rw [hscanned]
  refine ⟨results, rfl, hall, hkept, fun c hc => houtside c ?_, fun c hc => hinside c hc c rfl, ?_, rfl⟩
  · rintro j hj rfl
    exact hc hj
  · exact each_keeps (P := fun s => s.revokedConsents = m.sessions.revokedConsents)
      (fun s c hs => (claimMember_revokedConsents s c).trans hs) rfl page

/-- What is kept of a session, and what is kept of the work of a consent. -/
def Memory.look (m : Memory) : ℕ ⊕ String → Option Record × Option RevocationWork
  | .inl c => (m.sessions.record? c, none)
  | .inr key => (none, m.work? key)

/-- Whose work is kept under a key. -/
def Memory.whose (m : Memory) (key : String) : Option (String × String) :=
  (m.work? key).map fun work => (work.tenantId, work.consentId)

/-- The sessions and the revoked consents are these, and the work of each key is of this
consent, if there is work. -/
structure Memory.Settled (bindings : List (ℕ × DurableConnectSession)) (revoked : List (String × ℤ))
    (whose : String → Option (String × String)) (m : Memory) : Prop where
  bindings : m.sessions.bindings = bindings
  revoked : m.sessions.revokedConsents = revoked
  work : (m.revocationWork.map RevocationWork.key).Nodup
  whose : ∀ key, m.whose key = whose key

theorem Memory.settled {m : Memory} (h : (m.revocationWork.map RevocationWork.key).Nodup) :
    m.Settled m.sessions.bindings m.sessions.revokedConsents m.whose :=
  ⟨rfl, rfl, h, fun _ => rfl⟩

/-- A scan is about the work of its key, and about the sessions that are bound to its consent. -/
def reach (bindings : List (ℕ × DurableConnectSession)) (whose : String → Option (String × String)) (key : String) :
    ℕ ⊕ String → Prop
  | .inl c => ∃ consent, whose key = some consent ∧ c ∈ boundIn bindings consent.1 consent.2
  | .inr key' => key' = key

theorem mem_afterCursor {s : State} {claim : ConsentRevocationWorkClaim} {c : ℕ} (h : c ∈ s.afterCursor claim) :
    c ∈ boundIn s.bindings claim.tenantId claim.consentId := by
  have hall : c ∈ (s.bound claim.tenantId claim.consentId).insertionSort (· ≤ ·) := by
    unfold State.afterCursor at h
    cases hcursor : claim.cursor with
    | none => simpa [hcursor] using h
    | some cursor =>
      simp only [hcursor] at h
      exact (List.mem_filter.1 h).1
  rw [← bound_eq]
  exact (List.perm_insertionSort _ _).mem_iff.1 hall

/-- The work that a scan takes, with what it leaves of it. -/
theorem work?_scanned {work : RevocationWork} {m n : Memory} (hwork : m.work? key = some work) {scanned : RevocationWork}
    (hkey : scanned.key = work.key) (hput : n.revocationWork = put RevocationWork.key scanned m.revocationWork)
    (key' : String) : n.work? key' = if key' = key then some scanned else m.work? key' := by
  obtain rfl : work.key = key := key_of_get? hwork
  rw [Memory.work?, hput, get?_put, hkey]
  by_cases h : key' = work.key
  · rw [if_pos h.symm, if_pos h]
  · rw [if_neg (Ne.symm h), if_neg h]

variable (warm visibilityTimeoutMs batchLimit draw workToken) in
theorem local_scanClaimed (revoked : List (String × ℤ)) (whose : String → Option (String × String))
    (hlive : ∀ binding ∈ bindings, binding.2.expired now = false) (hnodup : (bindings.map Prod.fst).Nodup) :
    Local Memory.look (reach bindings whose) (Memory.Settled bindings revoked whose)
      (scanClaimed warm now visibilityTimeoutMs batchLimit draw workToken) := by
  -- There is no work to be claimed, or a scan does to it what `scanClaimed_some` says.
  have hscan : ∀ (m : Memory) (key : String), Memory.Settled bindings revoked whose m →
      ((∀ work, m.work? key = some work → work.claimable now = false) ∧
        scanClaimed warm now visibilityTimeoutMs batchLimit draw workToken m key = (m, .ok none)) ∨
      ∃ work, m.work? key = some work ∧ work.claimable now = true ∧
        whose key = some (work.tenantId, work.consentId) := by
    intro m key hm
    by_cases hclaimable : ∃ work, m.work? key = some work ∧ work.claimable now = true
    · obtain ⟨work, hwork, hclaimable⟩ := hclaimable
      refine .inr ⟨work, hwork, hclaimable, ?_⟩
      rw [← hm.whose key, Memory.whose, hwork, Option.map_some]
    · have hnone : ∀ work, m.work? key = some work → work.claimable now = false := fun work hwork =>
        Bool.eq_false_iff.2 fun htrue => hclaimable ⟨work, hwork, htrue⟩
      exact .inl ⟨hnone, scanClaimed_none warm visibilityTimeoutMs batchLimit draw workToken hnone⟩
  have hspec : ∀ (m : Memory) (key : String), Memory.Settled bindings revoked whose m → ∀ work, m.work? key = some work →
      work.claimable now = true → _ := fun m key hm work hwork hclaimable =>
    scanClaimed_some warm visibilityTimeoutMs batchLimit draw workToken hwork hclaimable (hm.bindings ▸ hlive)
      (hm.bindings ▸ hnodup)
  refine ⟨fun m key hm => ?_, fun m key hm => ?_, fun m key i hm hi => ?_, fun m n key hm hn hsame => ?_⟩
  · rcases hscan m key hm with ⟨-, hnone⟩ | ⟨work, hwork, hclaimable, hwhose⟩
    · rw [hnone]
      exact hm
    · obtain ⟨results, -, -, hbindings, -, -, hrevoked, hwork'⟩ := hspec m key hm work hwork hclaimable
      refine ⟨hbindings.trans hm.bindings, hrevoked.trans hm.revoked, ?_, fun key' => ?_⟩
      · rw [hwork']
        exact nodup_put hm.work
      rw [Memory.whose, work?_scanned hwork (by rfl) hwork']
      split
      · rename_i h
        rw [h, hwhose]
        rfl
      · exact hm.whose key'
  · rcases hscan m key hm with ⟨-, hnone⟩ | ⟨work, hwork, hclaimable, -⟩
    · exact ⟨none, by rw [hnone]⟩
    · obtain ⟨results, hresults, -⟩ := hspec m key hm work hwork hclaimable
      exact ⟨_, hresults⟩
  · rcases hscan m key hm with ⟨-, hnone⟩ | ⟨work, hwork, hclaimable, hwhose⟩
    · rw [hnone]
    · obtain ⟨results, -, -, -, houtside, -, -, hwork'⟩ := hspec m key hm work hwork hclaimable
      cases i with
      | inl c =>
        have hc : c ∉ work.page m.sessions workToken batchLimit := by
          intro hc
          have hbound := mem_afterCursor (List.mem_of_mem_take hc)
          rw [hm.bindings] at hbound
          exact hi ⟨_, hwhose, hbound⟩
        rw [Memory.look, Memory.look, houtside c hc]
      | inr key' =>
        rw [Memory.look, Memory.look, work?_scanned hwork (by rfl) hwork', if_neg (by exact hi)]
  · have hkey : m.work? key = n.work? key := congrArg Prod.snd (hsame (.inr key) rfl)
    rcases hscan m key hm with ⟨hnone, hm'⟩ | ⟨work, hwork, hclaimable, hwhose⟩
    · have hn' := scanClaimed_none warm visibilityTimeoutMs batchLimit draw workToken (hkey ▸ hnone)
      rw [hm', hn']
      exact ⟨rfl, hsame⟩
    · have hwork' := hkey.symm.trans hwork
      obtain ⟨xs, hxs, hall, -, houtside, hinside, -, hmwork⟩ := hspec m key hm work hwork hclaimable
      obtain ⟨ys, hys, hall', -, houtside', hinside', -, hnwork⟩ := hspec n key hn work hwork' hclaimable
      have hafter : n.sessions.afterCursor (work.claimOf workToken) =
          m.sessions.afterCursor (work.claimOf workToken) := by
        rw [State.afterCursor, State.afterCursor, bound_eq, bound_eq, hn.bindings, hm.bindings]
      have hsame' : work.page n.sessions workToken batchLimit = work.page m.sessions workToken batchLimit := by
        rw [RevocationWork.page, hafter, RevocationWork.page]
      rw [hsame'] at hall' houtside' hinside' hnwork
      rw [hafter] at hnwork
      -- Every session of the page is bound to the consent, and so it is the same in both.
      have hpage : ∀ c ∈ work.page m.sessions workToken batchLimit,
          m.sessions.record? c = n.sessions.record? c := by
        intro c hc
        have hbound := mem_afterCursor (List.mem_of_mem_take hc)
        rw [hm.bindings] at hbound
        exact congrArg Prod.fst (hsame (.inl c) ⟨_, hwhose, hbound⟩)
      have hmember := fun c hc => (local_claimMember warm work.tenantId visibilityTimeoutMs draw hlive).same
        m.sessions n.sessions c hm.bindings hn.bindings (by rintro i rfl; exact hpage i hc)
      have heq : xs = ys := by
        apply List.ext_getElem (hall.length_eq.symm.trans hall'.length_eq)
        intro i hi hi'
        have hx := (List.forall₂_iff_get.1 hall).2 i (hall.length_eq ▸ hi) hi
        have hy := (List.forall₂_iff_get.1 hall').2 i (hall'.length_eq ▸ hi') hi'
        rw [(hmember _ (List.get_mem _ _)).1, hy] at hx
        exact (Except.ok.inj hx).symm
      refine ⟨by rw [hxs, hys, heq], fun i hi => ?_⟩
      cases i with
      | inl c =>
        rw [Memory.look, Memory.look]
        by_cases hc : c ∈ work.page m.sessions workToken batchLimit
        · rw [hinside c hc, hinside' c hc, (hmember c hc).2 c rfl]
        · rw [houtside c hc, houtside' c hc]
          exact hsame (.inl c) hi
      | inr key' =>
        rw [Memory.look, Memory.look, work?_scanned hwork (by rfl) hmwork, work?_scanned hwork' (by rfl) hnwork,
          if_pos (by exact hi), if_pos (by exact hi)]

end Scans

end CatalogSentinel.Connect.InMemory
