import CatalogSentinel.Tenancy.Histories

/-!
Where owners come from. The role of every owner goes back to the creation of the tenant,
or to an invitation or a change of role by someone who was an active owner of the tenant
when that request began; and no request on members writes in another tenant than the one
that its caller was resolved into.
-/

namespace CatalogSentinel.Tenancy

open CatalogSentinel.Concurrent CatalogSentinel.Data

/-- The caller held an active owner membership of the tenant when the request began. -/
def HeldOwner (t : Request) (tenantId : TenantId) (past : List Event) : Prop :=
  t.actor.tenantId = tenantId ∧ .began t true ∈ past

/-- A request that makes owners of its own right, or one whose caller was an owner. -/
def MayMakeOwner (t : Request) (tenantId : TenantId) (past : List Event) : Prop :=
  match t.call with
  | .createTenant => True
  | .ensurePersonalMembership => True
  | .inviteMember .. => HeldOwner t tenantId past
  | .changeRole .. => HeldOwner t tenantId past
  | _ => False

/-- A row of this identifier and tenant was put with the owner's role by such a request. -/
def OwnerByRight (past : List Event) (m : Membership) : Prop :=
  ∃ t m', .put t m' ∈ past ∧ m'.id = m.id ∧ m'.tenantId = m.tenantId ∧ m'.role = .owner ∧
    MayMakeOwner t m.tenantId past

/-- Whether a request is one on members. -/
def ServiceCall.onMembers : ServiceCall → Bool
  | .inviteMember .. => true
  | .changeRole .. => true
  | .removeMember .. => true
  | _ => false

section

variable {past later : List Event} {t : Request} {m : Membership} {e : Event}

theorem HeldOwner.extend {tenantId : TenantId} (h : HeldOwner t tenantId past) (hext : Extends past later) :
    HeldOwner t tenantId later := ⟨h.1, hext.mem h.2⟩

theorem MayMakeOwner.extend {tenantId : TenantId} (h : MayMakeOwner t tenantId past)
    (hext : Extends past later) : MayMakeOwner t tenantId later := by
  unfold MayMakeOwner at h ⊢
  cases hcall : t.call with
  | createTenant => trivial
  | ensurePersonalMembership => trivial
  | inviteMember tenantId' email role =>
    rw [hcall] at h
    exact HeldOwner.extend h hext
  | changeRole tenantId' targetUserId newRole =>
    rw [hcall] at h
    exact HeldOwner.extend h hext
  | acceptInvite verifiedEmail tenantId' =>
    rw [hcall] at h
    exact h
  | removeMember tenantId' targetUserId =>
    rw [hcall] at h
    exact h

/-- What an identifier's row descends from, a later row of it in the tenant does too. -/
theorem OwnerByRight.descend {m' : Membership} (h : OwnerByRight past m) (hext : Extends past later)
    (hid : m'.id = m.id) (htenant : m'.tenantId = m.tenantId) : OwnerByRight later m' := by
  obtain ⟨t, n, hn, hid', htenant', hrole, hmay⟩ := h
  exact ⟨t, n, hext.mem hn, hid'.trans hid.symm, htenant'.trans htenant.symm, hrole,
    htenant.symm ▸ hmay.extend hext⟩

theorem OwnerByRight.extend (h : OwnerByRight past m) (hext : Extends past later) :
    OwnerByRight later m := h.descend hext rfl rfl

/-- The row of a personal tenant is its subject's, active, and has its role from the service. -/
def Personal (past : List Event) (m : Membership) : Prop :=
  ∀ sub, m.tenantId = .personal sub → m.userId = some sub ∧ m.status = .active ∧ OwnerByRight past m

theorem Puts.personal (hjust : Justified Legit past) (hseen : ∀ u m', .put u m' ∈ past → Personal past m')
    (hbegan : BeganIn t past) (hputs : Puts t m past) : Personal (.put t m :: past) m := by
  have hext := Extends.cons (Event.put t m) past
  intro sub htenant
  unfold Puts at hputs
  split at hputs
  · subst hputs
    cases htenant
  · rename_i hcall
    subst hputs
    obtain rfl : t.actor.sub = sub := TenantId.personal.inj htenant
    refine ⟨rfl, rfl, t, _, List.mem_cons_self, rfl, rfl, rfl, ?_⟩
    rw [MayMakeOwner, hcall]
    trivial
  · obtain ⟨role, email, hgrant, hpersonal, rfl⟩ := hputs
    rw [← hgrant.acting] at hpersonal
    obtain ⟨u, m', hu, hactive, -⟩ := hbegan.member hjust hpersonal
    simp only [Membership.isActiveFor, decide_eq_true_eq] at hactive
    have hsub : t.actor.tenantId = .personal sub := hgrant.acting.trans htenant
    obtain ⟨huser, -⟩ := hseen u m' hu sub (hactive.2.2.trans hsub)
    rw [hactive.2.1] at huser
    rw [hsub, ← Option.some.inj huser] at hpersonal
    exact absurd rfl hpersonal
  · obtain ⟨invite, hread, hinvited, -, rfl⟩ := hputs
    obtain ⟨u, hu⟩ := hread.put
    obtain ⟨-, hactive, -⟩ := hseen u invite hu sub htenant
    rw [hinvited] at hactive
    cases hactive
  · obtain ⟨role, target, -, -, hread, -, -, rfl⟩ := hputs
    obtain ⟨u, hu⟩ := hread.put
    obtain ⟨huser, hactive, hright⟩ := hseen u target hu sub htenant
    exact ⟨huser, hactive, hright.descend hext rfl rfl⟩
  · cases hputs

theorem personal_of_put (h : Justified Legit past) (hm : .put t m ∈ past) : Personal past m :=
  put_induction (fun _ _ _ hpersonal hext sub htenant => by
    obtain ⟨huser, hactive, hright⟩ := hpersonal sub htenant
    exact ⟨huser, hactive, hright.extend hext⟩) (fun _ _ _ => Puts.personal) h hm

/-- A caller who was resolved into another tenant as its owner held an active owner membership. -/
theorem BeganIn.held (h : Justified Legit past) (ht : BeganIn t past)
    (hpersonal : t.actor.tenantId ≠ personalTenantId t.actor.sub) (howner : t.actor.tenantRole = .owner) :
    .began t true ∈ past := by
  obtain ⟨held, hmem⟩ := ht
  obtain ⟨before, hext, -, hresolves, hheld⟩ := h.of_mem hmem
  rw [Resolves, if_neg hpersonal] at hresolves
  obtain ⟨m, hm, hactive, hrole⟩ := hresolves
  have htrue : holdsOwner (replay before) t.actor = true := by
    refine List.any_eq_true.2 ⟨m, hm, ?_⟩
    rw [Bool.and_eq_true]
    exact ⟨hactive, decide_eq_true (hrole.symm.trans howner)⟩
  rw [htrue] at hheld
  exact hheld ▸ hmem

theorem Puts.ownerByRight (hjust : Justified Legit past)
    (hseen : ∀ u m', .put u m' ∈ past → m'.role = .owner → OwnerByRight past m')
    (hbegan : BeganIn t past) (hputs : Puts t m past) (hrole : m.role = .owner) :
    OwnerByRight (.put t m :: past) m := by
  have hext := Extends.cons (Event.put t m) past
  have hself : MayMakeOwner t m.tenantId (.put t m :: past) → OwnerByRight (.put t m :: past) m :=
    fun hmay => ⟨t, m, List.mem_cons_self, rfl, rfl, hrole, hmay⟩
  unfold Puts at hputs
  split at hputs
  · rename_i hcall
    refine hself ?_
    rw [MayMakeOwner, hcall]
    trivial
  · rename_i hcall
    refine hself ?_
    rw [MayMakeOwner, hcall]
    trivial
  · rename_i hcall
    obtain ⟨role, email, hgrant, hpersonal, rfl⟩ := hputs
    refine hself ?_
    rw [MayMakeOwner, hcall]
    rw [← hgrant.acting] at hpersonal
    exact ⟨hgrant.acting, hext.mem (hbegan.held hjust hpersonal (hgrant.owner hrole))⟩
  · obtain ⟨invite, hread, -, -, rfl⟩ := hputs
    obtain ⟨u, hu⟩ := hread.put
    exact (hseen u invite hu hrole).descend hext rfl rfl
  · rename_i hcall
    obtain ⟨role, target, -, hgrant, hread, hactive, -, rfl⟩ := hputs
    have htenant := tenantId_of_isActiveFor hactive
    obtain ⟨u, hu⟩ := hread.put
    by_cases hpersonal : t.actor.tenantId = personalTenantId t.actor.sub
    · -- in the own personal tenant the row is the caller's own, an owner's from the start
      have hown : target.tenantId = .personal t.actor.sub := by
        rw [htenant, ← hgrant.acting, hpersonal]
        rfl
      exact (personal_of_put hjust hu _ hown).2.2.descend hext rfl rfl
    · refine hself ?_
      rw [MayMakeOwner, hcall]
      refine ⟨hgrant.acting.trans htenant.symm, hext.mem ?_⟩
      exact hbegan.held hjust hpersonal (hgrant.owner hrole)
  · cases hputs

theorem ownerByRight_of_put (h : Justified Legit past) (hm : .put t m ∈ past) (hrole : m.role = .owner) :
    OwnerByRight past m :=
  put_induction (K := fun past m => m.role = .owner → OwnerByRight past m)
    (fun _ _ _ hright hext hrole => (hright hrole).extend hext) (fun _ _ _ => Puts.ownerByRight) h hm hrole

/-- A request on members that makes an owner is a request of an owner. -/
theorem tenantRole_of_put (h : Justified Legit past) (hm : .put t m ∈ past) (hrole : m.role = .owner)
    (hcall : t.call.onMembers) : t.actor.tenantRole = .owner := by
  obtain ⟨before, -, -, -, hputs⟩ := h.of_mem hm
  unfold Puts at hputs
  split at hputs
  · simp_all [ServiceCall.onMembers]
  · simp_all [ServiceCall.onMembers]
  · obtain ⟨role, email, hgrant, -, rfl⟩ := hputs
    exact hgrant.owner hrole
  · simp_all [ServiceCall.onMembers]
  · obtain ⟨role, target, -, hgrant, -, -, -, rfl⟩ := hputs
    exact hgrant.owner hrole
  · cases hputs

theorem tenantId_of_put (hputs : Puts t m past) (hcall : t.call.onMembers) :
    m.tenantId = t.actor.tenantId := by
  unfold Puts at hputs
  split at hputs
  · simp_all [ServiceCall.onMembers]
  · simp_all [ServiceCall.onMembers]
  · obtain ⟨role, email, hgrant, -, rfl⟩ := hputs
    exact hgrant.acting.symm
  · simp_all [ServiceCall.onMembers]
  · obtain ⟨role, target, -, hgrant, -, hactive, -, rfl⟩ := hputs
    exact (tenantId_of_isActiveFor hactive).trans hgrant.acting.symm
  · cases hputs

/-- A request on members leaves the rows of other tenants as they are. -/
theorem mem_apply_of_tenant (h : Justified Legit past) (hlegit : Legit e past)
    (hcall : e.request.call.onMembers) (htenant : m.tenantId ≠ e.request.actor.tenantId) :
    m ∈ e.apply (replay past) ↔ m ∈ replay past := by
  cases e with
  | began t held => rfl
  | put t m' =>
    have hm' := tenantId_of_put hlegit.2.2 hcall
    constructor
    · intro hm
      rcases (mem_put_iff (nodup_replay past)).1 hm with rfl | ⟨hm, -⟩
      · exact absurd hm' htenant
      · exact hm
    · intro hm
      refine (mem_put_iff (nodup_replay past)).2 (.inr ⟨hm, fun hid => htenant ?_⟩)
      obtain ⟨u, hu⟩ := put_of_mem_replay hm
      have hjust : Justified Legit (.put t m' :: past) := ⟨hlegit, h⟩
      rw [tenantId_of_id hjust (List.mem_cons_of_mem _ hu) List.mem_cons_self hid]
      exact hm'
  | removed t id =>
    show m ∈ (replay past).filter _ ↔ m ∈ replay past
    rw [List.mem_filter, and_iff_left_of_imp fun hm => ?_]
    refine decide_eq_true fun hid => htenant ?_
    have hremoves := hlegit.2.2
    unfold Removes at hremoves
    split at hremoves
    · obtain ⟨hacting, -, target, hseen, hactive, -, htarget⟩ := hremoves
      obtain ⟨u, hu⟩ := put_of_mem_replay hm
      obtain ⟨v, hv⟩ := hseen.put
      rw [tenantId_of_id h hu hv (hid.trans htarget), tenantId_of_isActiveFor hactive]
      exact hacting.symm
    · cases hremoves

end

section

variable (toLowerCase : String → String)

/-- Every reached state obeys the contract. -/
theorem valid_of_run {ms : List (Move Request ℕ)} {w : Service}
    (hw : Steps.run (tenancy toLowerCase).step fresh ms = some w) : (contract toLowerCase).Valid w :=
  (Steps.throughout_of_step ms (Contract.valid_idle obeyed_empty)
    fun _ _ _ hv hstep => hv.step sound hstep).last hw

/-- Owners come from owners, and requests on members stay in the tenant of their caller. -/
theorem owners_by_right {ms : List (Move Request ℕ)} {w : Service}
    (hw : Steps.run (tenancy toLowerCase).step fresh ms = some w) :
    (∀ m ∈ w.state.rows, m.isActiveOwner → OwnerByRight w.state.history m) ∧
      (∀ t m, .put t m ∈ w.state.history → m.role = .owner → t.call.onMembers →
        t.actor.tenantRole = .owner) ∧
      ∀ mv w', (tenancy toLowerCase).step w mv = some w' → ∀ e ∈ event? w mv, e.request.call.onMembers →
        ∀ m, m.tenantId ≠ e.request.actor.tenantId → (m ∈ w'.state.rows ↔ m ∈ w.state.rows) := by
  have hvalid := valid_of_run toLowerCase hw
  have hs := hvalid.inv
  refine ⟨fun m hm howner => ?_, fun t m hm hrole hcall => tenantRole_of_put hs.legit hm hrole hcall,
    fun mv w' hstep e he hcall m htenant => ?_⟩
  · rw [hs.rows] at hm
    obtain ⟨t, ht⟩ := put_of_mem_replay hm
    simp only [Membership.isActiveOwner, decide_eq_true_eq] at howner
    exact ownerByRight_of_put hs.legit ht howner.2
  · have hs' := (hvalid.step sound hstep).inv
    have hstate := step_event hstep
    rw [Option.mem_def.1 he, Option.elim_some] at hstate
    rw [hstate] at hs' ⊢
    have hlegit : Legit e w.state.history := hs'.legit.1
    show m ∈ e.apply w.state.rows ↔ m ∈ w.state.rows
    rw [hs.rows]
    exact mem_apply_of_tenant hs.legit hlegit hcall htenant

end

/-- An owner makes a member an owner. -/
theorem owners_by_right_promotion : ∃ w,
    Steps.run (tenancy id).step fresh (twoMembers "viewer" ++
      served ⟨3, ⟨"a", .org 0, .owner⟩, .changeRole (.org 0) "b" "owner"⟩ 2) = some w ∧
      ∀ m ∈ w.state.rows, m.isActiveOwner → OwnerByRight w.state.history m := by
  have hsome : (Steps.run (tenancy id).step fresh (twoMembers "viewer" ++
      served ⟨3, ⟨"a", .org 0, .owner⟩, .changeRole (.org 0) "b" "owner"⟩ 2)).isSome := by decide +kernel
  obtain ⟨w, hw⟩ := Option.isSome_iff_exists.1 hsome
  exact ⟨w, hw, (owners_by_right id hw).1⟩

end CatalogSentinel.Tenancy
