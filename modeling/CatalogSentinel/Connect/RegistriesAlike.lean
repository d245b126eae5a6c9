import CatalogSentinel.Connect.Alike
import CatalogSentinel.Connect.ConsentIndex
import CatalogSentinel.Connect.Registries

/-!
What both registries have of the consents that are revoked: each tombstone, and the work that
is still to be done for it. On Redis the work is there as long as the tombstone is.
-/

namespace CatalogSentinel.Connect

open CatalogSentinel.Data

/-- The work of a revoked consent between two operations, with how long it is kept in memory
and on Redis. -/
structure Revocation where
  tenantId : String
  consentId : String
  dueAt : ℤ
  expiresAt : ℤ
  deadline : ℤ

namespace Revocation

variable (sha256 : String → String) (v : Revocation)

def text : String := InMemory.consentKey v.tenantId v.consentId

def work : InMemory.RevocationWork :=
  ⟨v.text, v.tenantId, v.consentId, none, v.dueAt, v.expiresAt, none, none⟩

def key : Redis.WorkKey := ⟨sha256 v.text, ⟨v.tenantId, v.consentId, 0, none, none⟩, v.deadline⟩

def due : String × ℤ := (sha256 v.text, v.dueAt)

end Revocation

variable {sha256 : String → String} {memory redis : Tokens} {texts : Set String} {warm : Bool} {now : ℤ}

variable (sha256) in
/-- What is kept of the work of one consent in memory, on Redis, and in the sorted set of what
is due there. -/
def RevokedAt (text : String) (work? : Option InMemory.RevocationWork) (key? : Option Redis.WorkKey)
    (due? : Option (String × ℤ)) (tombstone? : Option (String × ℤ)) : Prop :=
  ∃ revocation? : Option Revocation,
    work? = revocation?.map Revocation.work ∧
    key? = revocation?.map (Revocation.key sha256) ∧
    due? = revocation?.map (Revocation.due sha256) ∧
    ∀ v ∈ revocation?, v.text = text ∧ ∃ tombstone ∈ tombstone?, tombstone.2 ≤ v.deadline

variable (sha256 texts) in
structure RevocationsAlike (m : InMemory.Memory) (r : Redis.State) : Prop where
  alike : ∀ text ∈ texts, RevokedAt sha256 text (m.work? text) (r.work? (sha256 text))
    (get? Prod.fst (sha256 text) r.due) (get? Prod.fst (sha256 text) r.tombstones)
  revoked : ∀ text ∈ texts, (get? Prod.fst (sha256 text) r.tombstones).map Prod.snd =
    (get? Prod.fst text m.sessions.revokedConsents).map Prod.snd
  keys : (m.revocationWork.map InMemory.RevocationWork.key).Nodup
  known : ∀ text, (m.work? text).isSome → text ∈ texts
  work : (r.work.map Redis.WorkKey.digest).Nodup
  tombstones : (r.tombstones.map Prod.fst).Nodup
  due : (r.due.map Prod.fst).Nodup
  dueKnown : ∀ entry ∈ r.due, ∃ text ∈ texts, sha256 text = entry.1

namespace RevocationsAlike

variable {m n : InMemory.Memory} {r u : Redis.State}

theorem same (hv : RevocationsAlike sha256 texts m r) (hwork : n.work? = m.work?)
    (hkeys : (n.revocationWork.map InMemory.RevocationWork.key).Nodup)
    (hrevoked : n.sessions.revokedConsents = m.sessions.revokedConsents)
    (hredis : u.tombstones = r.tombstones ∧ u.work = r.work ∧ u.due = r.due) :
    RevocationsAlike sha256 texts n u := by
  obtain ⟨htombstones, hworks, hdue⟩ := hredis
  refine ⟨fun text ht => ?_, fun text ht => ?_, hkeys, fun text ht => ?_, ?_, ?_, ?_, ?_⟩
  · rw [hwork, Redis.State.work?, hworks, hdue, htombstones]
    exact hv.alike text ht
  · rw [htombstones, hrevoked]
    exact hv.revoked text ht
  · exact hv.known text (hwork ▸ ht)
  · exact hworks ▸ hv.work
  · exact htombstones ▸ hv.tombstones
  · exact hdue ▸ hv.due
  · exact hdue ▸ hv.dueKnown

/-- What the work of a text is on both. -/
theorem revocation (hv : RevocationsAlike sha256 texts m r) {text : String} (ht : text ∈ texts) :
    (m.work? text = none ∧ r.work? (sha256 text) = none ∧ get? Prod.fst (sha256 text) r.due = none) ∨
    ∃ v : Revocation, m.work? text = some v.work ∧ r.work? (sha256 text) = some (v.key sha256) ∧
      get? Prod.fst (sha256 text) r.due = some (v.due sha256) ∧ v.text = text ∧
      ∃ tombstone, get? Prod.fst (sha256 text) r.tombstones = some tombstone ∧ tombstone.2 ≤ v.deadline := by
  obtain ⟨revocation?, hwork, hkey, hdue, hrest⟩ := hv.alike text ht
  cases revocation? with
  | none => exact .inl ⟨hwork, hkey, hdue⟩
  | some v => exact .inr ⟨v, hwork, hkey, hdue, hrest v rfl⟩

end RevocationsAlike

/-! ### The work of a consent is written -/

namespace RevocationsAlike

variable {m n : InMemory.Memory} {r u : Redis.State} {v : Revocation}

/-- The same consents are revoked, until the same times. -/
structure Tombstones (sha256 : String → String) (texts : Set String) (revoked tombstones : List (String × ℤ)) : Prop where
  nodup : (tombstones.map Prod.fst).Nodup
  revoked : ∀ text ∈ texts, (get? Prod.fst (sha256 text) tombstones).map Prod.snd =
    (get? Prod.fst text revoked).map Prod.snd

theorem tombstones_same (hv : RevocationsAlike sha256 texts m r)
    (hrevoked : n.sessions.revokedConsents = m.sessions.revokedConsents) (hredis : u.tombstones = r.tombstones) :
    Tombstones sha256 texts n.sessions.revokedConsents u.tombstones := by
  refine ⟨?_, ?_⟩
  · rw [hredis]
    exact hv.tombstones
  · rw [hredis, hrevoked]
    exact hv.revoked

/-- The work of one consent is written on both. -/
theorem write (hsha : Set.InjOn sha256 texts) (hv : RevocationsAlike sha256 texts m r) (ht : v.text ∈ texts)
    (hwork : n.revocationWork = put InMemory.RevocationWork.key v.work m.revocationWork)
    (hkey : u.work = put Redis.WorkKey.digest (v.key sha256) r.work)
    (hdue : u.due = put Prod.fst (v.due sha256) r.due)
    (htombstones : Tombstones sha256 texts n.sessions.revokedConsents u.tombstones)
    (hothers : ∀ text ∈ texts, text ≠ v.text →
      get? Prod.fst (sha256 text) u.tombstones = get? Prod.fst (sha256 text) r.tombstones)
    (htombstone : ∃ tombstone ∈ get? Prod.fst (sha256 v.text) u.tombstones, tombstone.2 ≤ v.deadline) :
    RevocationsAlike sha256 texts n u := by
  refine ⟨fun text ht' => ?_, htombstones.revoked, ?_, fun text hsome => ?_, ?_, htombstones.nodup, ?_, fun entry he => ?_⟩
  · rw [InMemory.Memory.work?, hwork, Redis.State.work?, hkey, hdue]
    by_cases h : text = v.text
    · subst h
      exact ⟨some v, get?_put_self v.work _, get?_put_self (v.key sha256) _, get?_put_self (v.due sha256) _,
        fun w hw => Option.some.inj hw ▸ ⟨rfl, htombstone⟩⟩
    · have hdigest : sha256 v.text ≠ sha256 text := fun hsame => h (hsha ht ht' hsame).symm
      rw [get?_put_of_ne (by exact Ne.symm h), get?_put_of_ne (by exact hdigest), get?_put_of_ne (by exact hdigest),
        hothers text ht' h]
      exact hv.alike text ht'
  · rw [hwork]
    exact nodup_put hv.keys
  · rw [InMemory.Memory.work?, hwork, get?_isSome, mem_keys_put, ← get?_isSome] at hsome
    rcases hsome with rfl | hsome
    · exact ht
    · exact hv.known text hsome
  · rw [hkey]
    exact nodup_put hv.work
  · rw [hdue]
    exact nodup_put hv.due
  · rw [hdue] at he
    rcases mem_put he with rfl | he
    · exact ⟨v.text, ht, rfl⟩
    · exact hv.dueKnown entry he

/-- The work of one consent is done on both. -/
theorem settle (hsha : Set.InjOn sha256 texts) (hv : RevocationsAlike sha256 texts m r) {text : String} (ht : text ∈ texts)
    (hwork : n.revocationWork = erase InMemory.RevocationWork.key text m.revocationWork)
    (hrevoked : n.sessions.revokedConsents = m.sessions.revokedConsents)
    (hkey : u.work = erase Redis.WorkKey.digest (sha256 text) r.work)
    (hdue : u.due = erase Prod.fst (sha256 text) r.due) (htombstones : u.tombstones = r.tombstones) :
    RevocationsAlike sha256 texts n u := by
  refine ⟨fun text' ht' => ?_, ?_, ?_, fun text' hsome => ?_, ?_, ?_, ?_, fun entry he => ?_⟩
  · rw [InMemory.Memory.work?, hwork, Redis.State.work?, hkey, hdue, htombstones]
    by_cases h : text' = text
    · subst h
      exact ⟨none, get?_erase_self _ _, get?_erase_self _ _, get?_erase_self _ _, by simp⟩
    · have hdigest : sha256 text' ≠ sha256 text := fun hsame => h (hsha ht' ht hsame)
      rw [get?_erase_of_ne h, get?_erase_of_ne hdigest, get?_erase_of_ne hdigest]
      exact hv.alike text' ht'
  · rw [htombstones, hrevoked]
    exact hv.revoked
  · rw [hwork]
    exact nodup_erase hv.keys
  · obtain ⟨work, hsome⟩ := Option.isSome_iff_exists.1 hsome
    have hmem := mem_of_get? hsome
    rw [hwork] at hmem
    have hkey' : work.key = text' := key_of_get? hsome
    apply hv.known text'
    rw [get?_isSome, ← hkey']
    exact List.mem_map_of_mem (List.mem_of_mem_filter hmem)
  · rw [hkey]
    exact nodup_erase hv.work
  · rw [htombstones]
    exact hv.tombstones
  · rw [hdue]
    exact nodup_erase hv.due
  · rw [hdue] at he
    exact hv.dueKnown entry (List.mem_of_mem_filter he)

end RevocationsAlike

variable (sha256 memory redis texts) in
/-- The registry in memory and the registry on Redis, between two operations. -/
structure RegistriesAlike (m : InMemory.Memory) (r : Redis.State) : Prop where
  sessions : SessionsAlike sha256 memory redis texts m.sessions r
  revocations : RevocationsAlike sha256 texts m r
  indexes : ∀ index ∈ r.indexes, index.members.Nodup

/-! ### What an operation on a session leaves alone -/

namespace Redis

variable {r u : State}

/-- The tombstones and the work are as they were, and an index has a member once. -/
structure Beside (r u : State) : Prop where
  kept : u.tombstones = r.tombstones ∧ u.work = r.work ∧ u.due = r.due
  indexes : (∀ index ∈ r.indexes, index.members.Nodup) → ∀ index ∈ u.indexes, index.members.Nodup

theorem beside_of_rest (h : u.rest = r.rest) : Beside r u := by
  simp only [State.rest, Prod.mk.injEq] at h
  exact ⟨h.2, h.1 ▸ id⟩

theorem Beside.trans {v : State} (h : Beside r u) (h' : Beside u v) : Beside r v :=
  ⟨⟨h'.kept.1.trans h.kept.1, h'.kept.2.1.trans h.kept.2.1, h'.kept.2.2.trans h.kept.2.2⟩, h'.indexes ∘ h.indexes⟩

theorem rest_claimScript (a : ClaimScript) : (claimScript r a).1.rest = r.rest := by
  unfold claimScript
  split
  · rfl
  split
  · rfl
  split
  · rfl
  dsimp only
  rename_i key _ _ _
  split
  · rfl
  generalize (key.value.requested a.action).rewarmed a.action = value
  split
  · rfl
  generalize (if value.cancelRequested then ConnectSessionAction.cancel else a.action) = action
  split <;> rfl

theorem rest_claimAuthorized (request : ClaimRequest) :
    (claimAuthorized sha256 warm r now request).1.rest = r.rest := by
  have hrest := rest_claimScript (r := r) (ClaimRequest.script sha256 warm r now request)
  unfold claimAuthorized
  generalize claimScript r (ClaimRequest.script sha256 warm r now request) = out at hrest
  obtain ⟨t, reply⟩ := out
  cases reply with
  | missing | ownershipMismatch | handedOff | busy | missingConfirmationWork => exact hrest
  | encoded value =>
    dsimp only
    split
    · exact hrest
    · split <;> exact hrest

theorem rest_defer (claim : ConnectSessionClaim) : (defer r now claim).1.rest = r.rest := by
  unfold defer
  split
  · rfl
  · split <;> rfl

theorem rest_renew (claim : ConnectSessionClaim) (visibilityTimeoutMs : Option ℚ) :
    (renew r now claim visibilityTimeoutMs).1.rest = r.rest := by
  unfold renew
  split <;> rfl

theorem rest_restoreCancellation (c : ℕ) (session : DurableConnectSession) :
    (restoreCancellation sha256 r now c session).1.rest = r.rest := by
  unfold restoreCancellation
  split <;> rfl

theorem reclaimDrawn_state (visibilityTimeoutMs : Option ℚ) (draw : ℕ → ℕ) (c : ℕ) :
    (reclaimDrawn sha256 now visibilityTimeoutMs draw r c).1 =
      (reclaimScript r c now (draw c) (now + positiveVisibility visibilityTimeoutMs)).1 := by
  unfold reclaimDrawn
  split
  · next hscript => rw [hscript]
  · next hscript =>
    rw [hscript]
    dsimp only
    split <;> rfl

theorem rest_reclaimDrawn (visibilityTimeoutMs : Option ℚ) (draw : ℕ → ℕ) (c : ℕ) :
    (reclaimDrawn sha256 now visibilityTimeoutMs draw r c).1.rest = r.rest := by
  rw [reclaimDrawn_state]
  unfold reclaimScript
  split
  · rfl
  split
  · rfl
  split
  · rfl
  split <;> rfl

theorem beside_srem (r : State) (digest : String) (c : ℕ) : Beside r (r.srem digest c) := by
  unfold State.srem
  split
  · exact beside_of_rest rfl
  rename_i index hindex
  refine ⟨⟨rfl, rfl, rfl⟩, fun hnodup entry hentry => ?_⟩
  dsimp only at hentry
  split at hentry
  · exact hnodup entry (List.mem_of_mem_filter hentry)
  · rcases mem_put hentry with rfl | hentry
    · exact (hnodup index (mem_of_get? hindex)).filter _
    · exact hnodup entry hentry

theorem beside_sadd (r : State) (digest : String) (c : ℕ) (deadline : ℤ) : Beside r (r.sadd digest c deadline) := by
  refine ⟨⟨rfl, rfl, rfl⟩, fun hnodup entry hentry => ?_⟩
  rcases mem_put hentry with rfl | hentry
  · cases hindex : r.index? digest with
    | none => exact List.nodup_singleton c
    | some index =>
      have hmembers := hnodup index (mem_of_get? hindex)
      dsimp only
      split
      · exact hmembers
      · rename_i hc
        rw [← List.concat_eq_append]
        exact hmembers.concat hc
  · exact hnodup entry hentry

theorem beside_putSession (c : ℕ) (session : DurableConnectSession) :
    Beside r (putSession sha256 r now c session) := by
  have hputs : Puts sha256 r (putSession sha256 r now c session) c session := putSession_cases r now c session
  cases hputs with
  | refused h =>
    rw [h]
    exact beside_of_rest rfl
  | unbound deadline hbound h =>
    rw [h]
    exact beside_of_rest rfl
  | bound deadline consentId hbound hnone h =>
    have hregister : Beside r (r.register c (newValue sha256 session) deadline) := beside_of_rest rfl
    rw [h]
    exact hregister.trans (beside_sadd _ _ c deadline)

theorem beside_ack (claim : ConnectSessionClaim) : Beside r (ack sha256 r now claim).1 := by
  unfold ack
  split
  · exact beside_of_rest rfl
  split
  · exact beside_of_rest rfl
  split
  · dsimp only
    split <;> exact beside_of_rest rfl
  · dsimp only
    split
    · rename_i consentId _
      have hgone : Beside r ((r.del claim.connectId).zrem claim.connectId) := beside_of_rest rfl
      exact hgone.trans (beside_srem _ (consentDigest sha256 claim.session.tenantId consentId) claim.connectId)
    · exact beside_of_rest rfl

end Redis

/-- An operation on a session, on both. -/
theorem RegistriesAlike.session {m : InMemory.Memory} {r u : Redis.State} {s : InMemory.State}
    (h : RegistriesAlike sha256 memory redis texts m r) (hs : SessionsAlike sha256 memory redis texts s u)
    (hrevoked : s.revokedConsents = m.sessions.revokedConsents) (hbeside : Redis.Beside r u) :
    RegistriesAlike sha256 memory redis texts { m with sessions := s } u :=
  ⟨hs, h.revocations.same rfl h.revocations.keys hrevoked hbeside.kept, hbeside.indexes h.indexes⟩

/-! ### Keys that are past their deadline -/

theorem filter_eq_self {α : Type} {p : α → Bool} {x? : Option α} (h : ∀ x ∈ x?, p x = true) : x?.filter p = x? := by
  cases x? with
  | none => rfl
  | some x => rw [Option.filter_some, if_pos (h x rfl)]

section Evict

variable {m : InMemory.Memory} {r : Redis.State} (h : RegistriesAlike sha256 memory redis texts m r) (hlive : m.Live now)

include h hlive

theorem RegistriesAlike.tombstone_live {text : String} (ht : text ∈ texts) :
    ∀ tombstone ∈ get? Prod.fst (sha256 text) r.tombstones, now < tombstone.2 := by
  intro tombstone htombstone
  have hrevoked := h.revocations.revoked text ht
  rw [Option.mem_def.1 htombstone, Option.map_some] at hrevoked
  obtain ⟨entry, hentry, hsame⟩ := Option.map_eq_some_iff.1 hrevoked.symm
  rw [← hsame]
  exact hlive.tombstones entry (mem_of_get? hentry)

theorem RegistriesAlike.evict_tombstone {text : String} (ht : text ∈ texts) :
    get? Prod.fst (sha256 text) (r.evict now).tombstones = get? Prod.fst (sha256 text) r.tombstones :=
  (get?_filter h.revocations.tombstones _ _).trans
    (filter_eq_self fun tombstone hmem => decide_eq_true (h.tombstone_live hlive ht tombstone hmem))

theorem RegistriesAlike.evict_session? (c : ℕ) : (r.evict now).session? c = r.session? c := by
  refine (get?_filter h.sessions.sessions _ c).trans (filter_eq_self fun key hkey => ?_)
  have hkey : r.session? c = some key := hkey
  obtain ⟨handoff?, hrecord, hhandoff, -⟩ := h.sessions.alike c
  rw [hkey] at hhandoff
  obtain ⟨handoff, rfl, rfl⟩ := Option.map_eq_some_iff.1 hhandoff.symm
  exact decide_eq_true (Handoff.live_of (hlive.sessions _ (mem_of_get? hrecord)))

theorem RegistriesAlike.evict_work? {text : String} (ht : text ∈ texts) :
    (r.evict now).work? (sha256 text) = r.work? (sha256 text) := by
  refine (get?_filter h.revocations.work _ _).trans (filter_eq_self fun key hkey => ?_)
  have hkey : r.work? (sha256 text) = some key := hkey
  rcases h.revocations.revocation ht with ⟨-, hnone, -⟩ | ⟨v, -, hsome, -, -, tombstone, htombstone, hle⟩
  · rw [hnone] at hkey
    cases hkey
  · obtain rfl := Option.some.inj (hsome.symm.trans hkey)
    exact decide_eq_true ((h.tombstone_live hlive ht tombstone htombstone).trans_le hle)

/-- Nothing that the registries have in common is past its deadline. -/
theorem RegistriesAlike.evict : RegistriesAlike sha256 memory redis texts m (r.evict now) where
  sessions :=
    { alike := fun c => h.evict_session? hlive c ▸ h.sessions.alike c
      records := h.sessions.records
      sessions := h.sessions.sessions.sublist (List.filter_sublist.map _)
      claims := h.sessions.claims }
  revocations :=
    { alike := fun text ht => by
        rw [h.evict_tombstone hlive ht, h.evict_work? hlive ht]
        exact h.revocations.alike text ht
      revoked := fun text ht => (congrArg _ (h.evict_tombstone hlive ht)).trans (h.revocations.revoked text ht)
      keys := h.revocations.keys
      known := h.revocations.known
      work := h.revocations.work.sublist (List.filter_sublist.map _)
      tombstones := h.revocations.tombstones.sublist (List.filter_sublist.map _)
      due := h.revocations.due
      dueKnown := h.revocations.dueKnown }
  indexes := fun index hindex => h.indexes index (List.mem_of_mem_filter hindex)

end Evict

end CatalogSentinel.Connect
