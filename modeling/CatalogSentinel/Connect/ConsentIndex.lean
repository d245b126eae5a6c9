import CatalogSentinel.Connect.Redis

/-!
The reverse index of the consents on Redis. A session that is there under its deadline is
on the index of its consent, whatever the scripts do: who is taken from an index is gone,
and a session is put there together with the index.
-/

namespace CatalogSentinel.Connect.Redis

open CatalogSentinel.Concurrent CatalogSentinel.Data

variable {sha256 : String → String} {warm : Bool} {s t u : State} {key : SessionKey} {value w : Value}
  {id : ℕ} {now clock : ℤ} {digest : String}

/-- The sessions that are there were there before, bound and timed as they are. -/
def FromBefore (s t : State) : Prop :=
  ∀ id key', t.session? id = some key' → ∃ key, s.session? id = some key ∧
    key.deadline = key'.deadline ∧ key.value.encryptedSession = key'.value.encryptedSession

/-- Only values of sessions were written, or sessions dropped. -/
structure Frame (s t : State) : Prop where
  sessions : FromBefore s t
  indexes : t.indexes = s.indexes
  tombstones : t.tombstones = s.tombstones
  used : t.past.used = s.past.used

theorem FromBefore.refl (s : State) : FromBefore s s := fun _ key h => ⟨key, h, rfl, rfl⟩

theorem FromBefore.trans (hst : FromBefore s t) (htu : FromBefore t u) : FromBefore s u := by
  intro id key' hkey'
  obtain ⟨key, hkey, hdeadline, hsession⟩ := htu id key' hkey'
  obtain ⟨key₀, hkey₀, hdeadline₀, hsession₀⟩ := hst id key hkey
  exact ⟨key₀, hkey₀, hdeadline₀.trans hdeadline, hsession₀.trans hsession⟩

theorem FromBefore.of_sessions (h : t.sessions = s.sessions) : FromBefore s t := by
  intro id key hkey
  rw [State.session?, h] at hkey
  exact ⟨key, hkey, rfl, rfl⟩

theorem FromBefore.none (h : FromBefore s t) (hnone : s.session? id = none) : t.session? id = none := by
  cases hkey : t.session? id with
  | none => rfl
  | some key =>
    obtain ⟨key', hkey', -, -⟩ := h id key hkey
    rw [hnone] at hkey'
    cases hkey'

theorem Frame.refl (s : State) : Frame s s := ⟨.refl s, rfl, rfl, rfl⟩

theorem Frame.trans (hst : Frame s t) (htu : Frame t u) : Frame s u :=
  ⟨hst.sessions.trans htu.sessions, htu.indexes.trans hst.indexes, htu.tombstones.trans hst.tombstones,
    htu.used.trans hst.used⟩

theorem frame_keep (hkey : s.session? key.connectId = some key) (h : value.origin = key.value.origin) :
    Frame s (s.keep key value) := by
  refine ⟨fun id key' hkey' => ?_, rfl, rfl, rfl⟩
  rw [State.session?, State.keep, get?_put] at hkey'
  split at hkey'
  · rename_i hid
    obtain rfl := Option.some.inj hkey'
    have hsession : value.encryptedSession = key.value.encryptedSession :=
      congrArg (fun origin : String × String × DurableConnectSession => origin.2.2) h
    exact ⟨key, hid ▸ hkey, rfl, hsession.symm⟩
  · exact ⟨key', hkey', rfl, rfl⟩

theorem frame_del (id : ℕ) : Frame s (s.del id) := by
  refine ⟨fun j key hkey => ?_, rfl, rfl, rfl⟩
  by_cases hj : j = id
  · rw [hj, State.session?, State.del, get?_erase_self] at hkey
    cases hkey
  · rw [State.session?, State.del, get?_erase_of_ne hj] at hkey
    exact ⟨key, hkey, rfl, rfl⟩

theorem requested_origin (action : ConnectSessionAction) : (value.requested action).origin = value.origin := by
  unfold Value.requested
  split <;> rfl

theorem rewarmed_origin (action : ConnectSessionAction) : (value.rewarmed action).origin = value.origin := by
  unfold Value.rewarmed
  split <;> rfl

theorem frame_claimScript (a : ClaimScript) : Frame s (claimScript s a).1 := by
  unfold claimScript
  split
  · exact .refl s
  rename_i key hkey
  have hkey' : s.session? key.connectId = some key := key_of_get? hkey ▸ hkey
  have hprepared : ((key.value.requested a.action).rewarmed a.action).origin = key.value.origin :=
    (rewarmed_origin a.action).trans (requested_origin a.action)
  split
  · exact .refl s
  split
  · exact .refl s
  dsimp only
  split
  · exact .refl s
  generalize (key.value.requested a.action).rewarmed a.action = value at hprepared
  split
  · exact frame_keep hkey' hprepared
  generalize (if value.cancelRequested then ConnectSessionAction.cancel else a.action) = action
  split
  · exact .refl s
  · have horigin : (value.adopted action a).origin = value.origin := (adopted_same action a).2.2
    have hkept : Frame s (s.keep key { value.adopted action a with
        claimToken := some a.token, claimAction := some action, claimUntil := some a.leaseUntil }) :=
      frame_keep hkey' (horigin.trans hprepared)
    exact ⟨hkept.sessions, hkept.indexes, hkept.tombstones, hkept.used⟩

/-- The sorted sets, the search log and the supply of tokens are of no account here. -/
theorem Frame.of_same (h : Frame s t) (hsessions : u.sessions = t.sessions) (hindexes : u.indexes = t.indexes)
    (htombstones : u.tombstones = t.tombstones) (hused : u.past.used = t.past.used) : Frame s u :=
  h.trans ⟨.of_sessions hsessions, hindexes, htombstones, hused⟩

theorem giveOut_used (claim : Option ConnectSessionClaim) : (s.giveOut claim).past.used = s.past.used := by
  cases claim <;> rfl

theorem frame_claimAuthorized (request : ClaimRequest) :
    Frame s (claimAuthorized sha256 warm s now request).1 := by
  have hframe := frame_claimScript (s := s) (ClaimRequest.script sha256 warm s now request)
  unfold claimAuthorized
  generalize claimScript s (ClaimRequest.script sha256 warm s now request) = out at hframe
  obtain ⟨t, reply⟩ := out
  have hgiven : ∀ claim, Frame s (t.giveOut claim) := fun claim =>
    hframe.of_same rfl rfl rfl (giveOut_used claim)
  cases reply with
  | missing | ownershipMismatch | handedOff | busy | missingConfirmationWork => exact hframe
  | encoded value =>
    dsimp only
    split
    · exact hgiven none
    · split
      · rename_i claim _
        exact hgiven (some claim)
      · exact hgiven none

theorem frame_claimUntil (hkey : s.session? id = some key) (claimUntil : ℤ) :
    Frame s (s.keep key { key.value with claimUntil := some claimUntil }) :=
  frame_keep (key_of_get? hkey ▸ hkey) rfl

theorem frame_defer (claim : ConnectSessionClaim) : Frame s (defer s now claim).1 := by
  unfold defer
  split
  · exact (Frame.refl s).of_same rfl rfl rfl rfl
  split
  · exact .refl s
  · rename_i key howned
    exact (frame_claimUntil (owned_some howned).1 now).of_same rfl rfl rfl rfl

theorem frame_renew (claim : ConnectSessionClaim) (visibilityTimeoutMs : Option ℚ) :
    Frame s (renew s now claim visibilityTimeoutMs).1 := by
  unfold renew
  split
  · exact .refl s
  · rename_i key howned
    exact (frame_claimUntil (owned_some howned).1 _).of_same rfl rfl rfl rfl

theorem frame_reclaimScript (s : State) (connectId : ℕ) (now : ℤ) (token : ℕ) (leaseUntil : ℤ) :
    Frame s (reclaimScript s connectId now token leaseUntil).1 := by
  have hzrem : Frame s (s.zrem connectId) := (Frame.refl s).of_same rfl rfl rfl rfl
  unfold reclaimScript
  split
  · exact hzrem
  rename_i key hkey
  split
  · exact hzrem
  split
  · exact .refl s
  split
  · exact hzrem
  · have hkept : Frame s (s.keep key { key.value.turned with
        claimToken := some token, claimUntil := some leaseUntil }) :=
      frame_keep (key_of_get? hkey ▸ hkey) turned_same.2.2.2.2
    exact hkept.of_same rfl rfl rfl rfl

theorem frame_claimExpired (sweep : Sweep) (visibilityTimeoutMs : Option ℚ) :
    Frame s (claimExpired sha256 s now sweep visibilityTimeoutMs).1 := by
  have hframe := frame_reclaimScript s sweep.connectId now s.past.fresh
    (now + positiveVisibility visibilityTimeoutMs)
  unfold claimExpired
  generalize reclaimScript s sweep.connectId now s.past.fresh
    (now + positiveVisibility visibilityTimeoutMs) = out at hframe
  obtain ⟨t, reply⟩ := out
  cases reply with
  | none => exact hframe
  | some value => exact hframe.of_same rfl rfl rfl (giveOut_used _)

theorem frame_expire (connectId : ℕ) : Frame s (expire s now connectId) := by
  unfold expire
  split
  · exact .refl s
  · split
    · exact frame_del connectId
    · exact .refl s

/-- A session that is gone is taken from an index. -/
structure Removes (s t : State) (digest : String) (id : ℕ) : Prop where
  sessions : FromBefore s t
  gone : t.session? id = none
  indexes : t.indexes = (s.srem digest id).indexes
  tombstones : t.tombstones = s.tombstones
  used : t.past.used = s.past.used

theorem srem_same (digest : String) (id : ℕ) :
    (s.srem digest id).tombstones = s.tombstones ∧ (s.srem digest id).sessions = s.sessions ∧
      (s.srem digest id).past = s.past := by
  unfold State.srem
  split <;> exact ⟨rfl, rfl, rfl⟩

/-- Taking a member from an index takes it from no other, and no other member. -/
theorem index?_srem {index : IndexKey} (h : s.index? digest = some index) {m : ℕ}
    (hm : m ∈ index.members) {digest' : String} {id : ℕ} (hne : m ≠ id) :
    ∃ index', (s.srem digest' id).index? digest = some index' ∧ m ∈ index'.members ∧
      index'.deadline = index.deadline := by
  unfold State.srem
  cases hother : s.index? digest' with
  | none => exact ⟨index, h, hm, rfl⟩
  | some other =>
    dsimp only [State.index?]
    by_cases hdigest : digest = digest'
    · subst hdigest
      obtain rfl := Option.some.inj (h.symm.trans hother)
      have hmem : m ∈ index.members.filter fun member => member ≠ id :=
        List.mem_filter.2 ⟨hm, by simpa using hne⟩
      have hkey : index.digest = digest := key_of_get? h
      rw [if_neg (List.ne_nil_of_mem hmem)]
      refine ⟨{ index with members := index.members.filter fun member => member ≠ id }, ?_, hmem, rfl⟩
      rw [get?_put, if_pos hkey]
    · have hkey : other.digest = digest' := key_of_get? hother
      refine ⟨index, ?_, hm, rfl⟩
      split
      · rw [get?_erase_of_ne hdigest]
        exact h
      · rw [get?_put, if_neg (fun heq => hdigest (heq.symm.trans hkey))]
        exact h

theorem members_srem {index' : IndexKey} {digest' : String} {id : ℕ}
    (h : (s.srem digest' id).index? digest = some index') {m : ℕ} (hm : m ∈ index'.members) :
    ∃ index, s.index? digest = some index ∧ m ∈ index.members := by
  unfold State.srem at h
  cases hother : s.index? digest' with
  | none =>
    rw [hother] at h
    exact ⟨index', h, hm⟩
  | some other =>
    rw [hother] at h
    dsimp only [State.index?] at h
    have hkey : other.digest = digest' := key_of_get? hother
    split at h
    · by_cases hdigest : digest = digest'
      · rw [hdigest, get?_erase_self] at h
        cases h
      · rw [get?_erase_of_ne hdigest] at h
        exact ⟨index', h, hm⟩
    · rw [get?_put] at h
      split at h
      · rename_i hdigest
        obtain rfl := Option.some.inj h
        have hsame : digest' = digest := hkey.symm.trans hdigest
        exact ⟨other, hsame ▸ hother, (List.mem_filter.1 hm).1⟩
      · exact ⟨index', h, hm⟩

/-- A session that is there under its deadline is on the index of its consent, which lasts as
long. -/
structure Indexed (sha256 : String → String) (s : State) (clock : ℤ) : Prop where
  used : ∀ digest index, s.index? digest = some index → ∀ m ∈ index.members, m ∈ s.past.used
  session_used : ∀ id key, s.session? id = some key → id ∈ s.past.used
  live : ∀ id key consentId, s.session? id = some key → clock < key.deadline →
    boundConsent key.value.encryptedSession = some consentId →
    ∃ index, s.index? (consentDigest sha256 key.value.encryptedSession.tenantId consentId) = some index ∧
      id ∈ index.members ∧ key.deadline ≤ index.deadline

theorem Indexed.later (h : Indexed sha256 s clock) (hclock : clock ≤ now) : Indexed sha256 s now :=
  ⟨h.used, h.session_used, fun id key consentId hkey hlive hbound =>
    h.live id key consentId hkey (lt_of_le_of_lt hclock hlive) hbound⟩

theorem Indexed.carried (h : Indexed sha256 s clock) (hfrom : FromBefore s t)
    (hindexes : t.indexes = s.indexes) (hused : t.past.used = s.past.used) : Indexed sha256 t clock := by
  have hindex : ∀ digest, t.index? digest = s.index? digest := fun digest => by
    rw [State.index?, hindexes]
  refine ⟨fun digest index hindex' => ?_, fun id key hkey => ?_, fun id key consentId hkey hlive hbound => ?_⟩
  · rw [hindex] at hindex'
    rw [hused]
    exact h.used digest index hindex'
  · obtain ⟨key', hkey', -, -⟩ := hfrom id key hkey
    rw [hused]
    exact h.session_used id key' hkey'
  · obtain ⟨key', hkey', hdeadline, hsession⟩ := hfrom id key hkey
    rw [← hdeadline] at hlive ⊢
    rw [← hsession] at hbound ⊢
    rw [hindex]
    exact h.live id key' consentId hkey' hlive hbound

theorem Indexed.removed {id : ℕ} (h : Indexed sha256 s clock) (ht : Removes s t digest id) :
    Indexed sha256 t clock := by
  have hindex : ∀ digest', t.index? digest' = (s.srem digest id).index? digest' := fun digest' => by
    rw [State.index?, State.index?, ht.indexes]
  refine ⟨fun digest' index hindex' m hm => ?_, fun j key hkey => ?_,
    fun j key consentId hkey hlive hbound => ?_⟩
  · rw [hindex] at hindex'
    obtain ⟨index', hindex', hm⟩ := members_srem hindex' hm
    rw [ht.used]
    exact h.used digest' index' hindex' m hm
  · obtain ⟨key', hkey', -, -⟩ := ht.sessions j key hkey
    rw [ht.used]
    exact h.session_used j key' hkey'
  · obtain ⟨key', hkey', hdeadline, hsession⟩ := ht.sessions j key hkey
    have hne : j ≠ id := by
      rintro rfl
      rw [ht.gone] at hkey
      cases hkey
    rw [← hdeadline] at hlive ⊢
    rw [← hsession] at hbound ⊢
    obtain ⟨index, hindex', hm, hlasts⟩ := h.live j key' consentId hkey' hlive hbound
    obtain ⟨index', hindex'', hm', hsame⟩ := index?_srem hindex' hm hne
    exact ⟨index', (hindex _).trans hindex'', hm', hsame ▸ hlasts⟩

theorem Indexed.dropped (h : Indexed sha256 s clock) {index : IndexKey}
    (hindex : s.index? digest = some index) (hdeadline : index.deadline ≤ clock)
    (hsessions : t.sessions = s.sessions) (hpast : t.past = s.past)
    (hindexes : t.indexes = erase IndexKey.digest digest s.indexes) : Indexed sha256 t clock := by
  have hget : ∀ id, t.session? id = s.session? id := fun id => by rw [State.session?, hsessions]
  refine ⟨fun digest' index' hindex' m hm => ?_, fun j key hkey => ?_,
    fun j key consentId hkey hlive hbound => ?_⟩
  · rw [State.index?, hindexes] at hindex'
    rw [hpast]
    by_cases hd : digest' = digest
    · rw [hd, get?_erase_self] at hindex'
      cases hindex'
    · rw [get?_erase_of_ne hd] at hindex'
      exact h.used digest' index' hindex' m hm
  · rw [hget] at hkey
    rw [hpast]
    exact h.session_used j key hkey
  · rw [hget] at hkey
    obtain ⟨index', hindex', hm, hlasts⟩ := h.live j key consentId hkey hlive hbound
    refine ⟨index', ?_, hm, hlasts⟩
    have hd : consentDigest sha256 key.value.encryptedSession.tenantId consentId ≠ digest := by
      intro hd
      rw [hd, hindex] at hindex'
      obtain rfl := Option.some.inj hindex'
      omega
    rw [State.index?, hindexes, get?_erase_of_ne hd]
    exact hindex'

theorem srem_indexes (h : t.indexes = s.indexes) (digest : String) (id : ℕ) :
    (t.srem digest id).indexes = (s.srem digest id).indexes := by
  have hindex : t.index? digest = s.index? digest := by rw [State.index?, h]
  unfold State.srem
  rw [hindex]
  split
  · exact h
  · dsimp only
    rw [h]

/-- What is acknowledged is written, or gone and taken from the index of its consent. -/
theorem ack_cases (claim : ConnectSessionClaim) : Frame s (ack sha256 s now claim).1 ∨
    ∃ digest, Removes s (ack sha256 s now claim).1 digest claim.connectId := by
  unfold ack
  split
  · exact .inl ((Frame.refl s).of_same rfl rfl rfl rfl)
  split
  · exact .inl (.refl s)
  rename_i key howned
  have hkey : s.session? key.connectId = some key :=
    key_of_get? (owned_some howned).1 ▸ (owned_some howned).1
  split
  · left
    dsimp only
    split
    · have hkept : Frame s (s.keep key { key.value with
          handedOff := true, claimAction := some .cancel, claimUntil := some now }) :=
        frame_keep hkey rfl
      exact hkept.of_same rfl rfl rfl rfl
    · have hkept : Frame s (s.keep key { key.value with
          handedOff := true, claimToken := none, claimAction := none, claimUntil := none }) :=
        frame_keep hkey rfl
      exact hkept.of_same rfl rfl rfl rfl
  · have hdel : Frame s ((s.del claim.connectId).zrem claim.connectId) :=
      (frame_del claim.connectId).of_same rfl rfl rfl rfl
    dsimp only
    split
    · rename_i consentId _
      obtain ⟨htombstones, hsessions, hpast⟩ :=
        srem_same (s := (s.del claim.connectId).zrem claim.connectId)
          (consentDigest sha256 claim.session.tenantId consentId) claim.connectId
      have hgone : ((s.del claim.connectId).zrem claim.connectId).session? claim.connectId = none :=
        get?_erase_self claim.connectId s.sessions
      have hindexes := srem_indexes (s := s) (t := (s.del claim.connectId).zrem claim.connectId) rfl
        (consentDigest sha256 claim.session.tenantId consentId) claim.connectId
      refine .inr ⟨_, hdel.sessions.trans (.of_sessions hsessions), ?_, hindexes,
        htombstones.trans hdel.tombstones, (congrArg Past.used hpast).trans hdel.used⟩
      rw [State.session?, hsessions]
      exact hgone
    · exact .inl hdel

/-- The index that is written has the session, and who was on it, for as long as either lasts. -/
theorem sadd_index (s : State) (digest : String) (id : ℕ) (deadline : ℤ) :
    ∃ index, (s.sadd digest id deadline).indexes = put IndexKey.digest index s.indexes ∧
      index.digest = digest ∧ id ∈ index.members ∧ deadline ≤ index.deadline ∧
      (∀ m ∈ index.members, m = id ∨ ∃ old, s.index? digest = some old ∧ m ∈ old.members) ∧
      ∀ old, s.index? digest = some old → old.members ⊆ index.members ∧ old.deadline ≤ index.deadline := by
  refine ⟨_, rfl, ?_⟩
  cases hold : s.index? digest with
  | none => exact ⟨rfl, List.mem_singleton_self id, le_refl _, fun m hm => .inl (List.mem_singleton.1 hm), nofun⟩
  | some old =>
    have hdigest : old.digest = digest := key_of_get? hold
    refine ⟨hdigest, ?_, le_max_right _ _, fun m hm => ?_, fun old' hold' => ?_⟩
    · dsimp only
      split
      · assumption
      · exact List.mem_append_right _ (List.mem_singleton_self id)
    · dsimp only at hm
      split at hm
      · exact .inr ⟨old, rfl, hm⟩
      · rcases List.mem_append.1 hm with hm | hm
        · exact .inr ⟨old, rfl, hm⟩
        · exact .inl (List.mem_singleton.1 hm)
    · obtain rfl := Option.some.inj hold'
      refine ⟨fun m hm => ?_, le_max_left _ _⟩
      dsimp only
      split
      · exact hm
      · exact List.mem_append_left _ hm

/-- A session is put, on the index of its consent when it is bound to one. -/
inductive Puts (sha256 : String → String) (s t : State) (id : ℕ) (session : DurableConnectSession) : Prop
  | refused (h : t = s)
  | unbound (deadline : ℤ) (hbound : boundConsent session = none)
      (h : t = s.register id (newValue sha256 session) deadline)
  | bound (deadline : ℤ) (consentId : String) (hbound : boundConsent session = some consentId)
      (hnone : get? Prod.fst (consentDigest sha256 session.tenantId consentId) s.tombstones = none)
      (h : t = (s.register id (newValue sha256 session) deadline).sadd
        (consentDigest sha256 session.tenantId consentId) id deadline)

theorem putSession_cases (s : State) (now : ℤ) (id : ℕ) (session : DurableConnectSession) :
    Puts sha256 s (putSession sha256 s now id session) id session := by
  unfold putSession
  split
  · exact .refused rfl
  rename_i deadline _
  split
  · exact .refused rfl
  dsimp only
  split
  · rename_i consentId hbound
    unfold putIndexed
    split
    · exact .refused rfl
    · rename_i hnone
      exact .bound deadline consentId hbound (by simpa using hnone) rfl
  · rename_i hbound
    exact .unbound deadline hbound rfl

theorem session?_register {value : Value} {deadline : ℤ} {j : ℕ}
    (h : t.sessions = (s.register id value deadline).sessions) :
    t.session? j = if id = j then some ⟨id, value, deadline⟩ else s.session? j := by
  rw [State.session?, h]
  exact get?_put _ j s.sessions

/-- A new session is there, and the indexes have who they had, for as long, and the session. -/
theorem Indexed.registered {session : DurableConnectSession} {deadline : ℤ} (h : Indexed sha256 s clock)
    (hsessions : t.sessions = (s.register id (newValue sha256 session) deadline).sessions)
    (hused : t.past.used = id :: s.past.used)
    (hmembers : ∀ digest index, t.index? digest = some index → ∀ m ∈ index.members,
      m = id ∨ ∃ old, s.index? digest = some old ∧ m ∈ old.members)
    (hkept : ∀ digest old, s.index? digest = some old → ∃ index, t.index? digest = some index ∧
      old.members ⊆ index.members ∧ old.deadline ≤ index.deadline)
    (hbound : ∀ consentId, boundConsent session = some consentId → ∃ index,
      t.index? (consentDigest sha256 session.tenantId consentId) = some index ∧ id ∈ index.members ∧
        deadline ≤ index.deadline) : Indexed sha256 t clock := by
  refine ⟨fun digest index hindex m hm => ?_, fun j key hkey => ?_,
    fun j key consentId hkey hlive hconsent => ?_⟩
  · rw [hused]
    rcases hmembers digest index hindex m hm with rfl | ⟨old, hold, hm⟩
    · exact List.mem_cons_self
    · exact List.mem_cons_of_mem id (h.used digest old hold m hm)
  · rw [session?_register hsessions] at hkey
    rw [hused]
    split at hkey
    · rename_i hid
      exact hid ▸ List.mem_cons_self
    · exact List.mem_cons_of_mem id (h.session_used j key hkey)
  · rw [session?_register hsessions] at hkey
    split at hkey
    · rename_i hid
      obtain rfl := Option.some.inj hkey
      exact hid ▸ hbound consentId hconsent
    · obtain ⟨old, hold, hm, hlasts⟩ := h.live j key consentId hkey hlive hconsent
      obtain ⟨index, hindex, hsub, hle⟩ := hkept _ old hold
      exact ⟨index, hindex, hsub hm, hlasts.trans hle⟩

theorem Indexed.put {session : DurableConnectSession} (h : Indexed sha256 s clock)
    (ht : Puts sha256 s t id session) : Indexed sha256 t clock := by
  cases ht with
  | refused ht => exact ht ▸ h
  | unbound deadline hbound ht =>
    subst ht
    refine h.registered rfl rfl (fun digest index hindex m hm => .inr ⟨index, hindex, hm⟩)
      (fun digest old hold => ⟨old, hold, List.Subset.refl _, le_refl _⟩) fun consentId hconsent => ?_
    rw [hbound] at hconsent
    cases hconsent
  | bound deadline consentId hbound hnone ht =>
    obtain ⟨index, hindexes, hdigest, hid, hlasts, hmembers, hkept⟩ :=
      sadd_index (s.register id (newValue sha256 session) deadline)
        (consentDigest sha256 session.tenantId consentId) id deadline
    rw [← ht] at hindexes
    have hget : ∀ digest, t.index? digest =
        if consentDigest sha256 session.tenantId consentId = digest then some index
        else s.index? digest := fun digest => by
      rw [State.index?, hindexes, get?_put, hdigest]
      rfl
    have hsessions : t.sessions = (s.register id (newValue sha256 session) deadline).sessions := by
      rw [ht]
      rfl
    have hused : t.past.used = id :: s.past.used := by
      rw [ht]
      rfl
    refine h.registered hsessions hused (fun digest index' hindex' m hm => ?_)
      (fun digest old hold => ?_) fun consentId' hconsent => ?_
    · rw [hget] at hindex'
      split at hindex'
      · rename_i hsame
        obtain rfl := Option.some.inj hindex'
        exact hsame ▸ hmembers m hm
      · exact .inr ⟨index', hindex', hm⟩
    · rw [hget]
      split
      · rename_i hsame
        exact ⟨index, rfl, hkept old (hsame ▸ hold)⟩
      · exact ⟨old, hold, List.Subset.refl _, le_refl _⟩
    · obtain rfl := Option.some.inj (hbound.symm.trans hconsent)
      exact ⟨index, by rw [hget, if_pos rfl], hid, hlasts⟩

end CatalogSentinel.Connect.Redis
