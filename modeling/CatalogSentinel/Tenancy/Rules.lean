import CatalogSentinel.Tenancy.Requests

/-!
The contract of the membership requests: the rows are what the history leaves, and
every event of the history is legitimate. What a request has read or counted since it
began stays read and counted, and only the request itself can make its write.
-/

namespace CatalogSentinel.Tenancy

open CatalogSentinel.Concurrent CatalogSentinel.Data

/-! ### What lasts -/

section Histories

variable {t : Request} {past later : List Event}

theorem BeganIn.extend (h : BeganIn t past) (hext : Extends past later) : BeganIn t later := by
  obtain ⟨held, hmem⟩ := h
  exact ⟨held, hext.mem hmem⟩

theorem Seen.extend {m : Membership} (h : Seen t past m) (hext : Extends past later) :
    Seen t later m := by
  obtain ⟨before, hbefore, hrest⟩ := h
  exact ⟨before, hbefore.trans hext, hrest⟩

theorem Counted.extend {tenantId : TenantId} (h : Counted t past tenantId) (hext : Extends past later) :
    Counted t later tenantId := by
  obtain ⟨before, hbefore, hrest⟩ := h
  exact ⟨before, hbefore.trans hext, hrest⟩

theorem BeganIn.seen {m : Membership} (h : BeganIn t past) (hm : m ∈ replay past) : Seen t past m :=
  ⟨past, Extends.refl past, h, hm⟩

theorem uuid_of_beganIn (h : BeganIn t past) : t.uuid ∈ past.filterMap Event.uuid? := by
  obtain ⟨held, hmem⟩ := h
  exact List.mem_filterMap.2 ⟨_, hmem, rfl⟩

end Histories

structure Obeyed (s : State) : Prop where
  legit : Justified Legit s.history
  rows : s.rows = replay s.history

structure Rely (t : Request) (s s' : State) : Prop where
  history : Extends s.history s'.history
  unwritten : Unwritten t s.history → Unwritten t s'.history

section Contract

variable {toLowerCase : String → String}

variable (toLowerCase) in
def contract : Contract (tenancy toLowerCase) where
  inv := Obeyed
  own t s := BeganIn t s.history
  rely := Rely
  grows s s' := Extends s.history s'.history
  apart t u := t ≠ u
  post _ _ _ := True
  rely_refl _ _ := ⟨Extends.refl _, id⟩
  rely_trans _ _ _ _ h h' := ⟨h.history.trans h'.history, h'.unwritten ∘ h.unwritten⟩
  rely_grows _ _ _ h := h.history
  rely_own _ _ _ h _ ho := ho.extend h.history

/-- An event of another request is no write of this one. -/
theorem rely_after {t : Request} {s : State} {e : Event} (hput : ∀ m, e ≠ .put t m)
    (hremoved : ∀ id, e ≠ .removed t id) : Rely t s (s.after e) := by
  refine ⟨Extends.cons e s.history, fun h => ⟨fun m hmem => ?_, fun id hmem => ?_⟩⟩
  · exact (List.mem_cons.1 hmem).elim (fun he => hput m he.symm) (h.1 m)
  · exact (List.mem_cons.1 hmem).elim (fun he => hremoved id he.symm) (h.2 id)

theorem Obeyed.after {s : State} {e : Event} (hs : Obeyed s) (he : Legit e s.history) :
    Obeyed (s.after e) := by
  refine ⟨⟨he, hs.legit⟩, ?_⟩
  show e.apply s.rows = e.apply (replay s.history)
  rw [hs.rows]

variable (toLowerCase) in
/-- From its start, and while `R` holds, the request makes legitimate writes only, and one at most. -/
def Fine {α : Type} (t : Request) (R : State → Prop) (p : Run α) : Prop :=
  (contract toLowerCase).Triple t (fun s => Unwritten t s.history ∧ R s) p (fun _ _ => True)
    (fun _ _ => True)

variable {t : Request} {R : State → Prop} {α β : Type}

theorem stable_unwritten (hR : (contract toLowerCase).Lasting R) :
    (contract toLowerCase).Stable t fun s => Unwritten t s.history ∧ R s :=
  fun s s' hr _ h => ⟨hr.unwritten h.1, hR s s' hr.history h.2⟩

theorem stable_true (r : Except Failure α) : (contract toLowerCase).Stable t
    (Contract.Ends (fun _ _ => True) (fun _ _ => True) r) := by
  intro s s' _ _ _
  cases r <;> trivial

theorem fine_ret (hR : (contract toLowerCase).Lasting R) (a : α) :
    Fine toLowerCase t R (.ret a : Run α) :=
  Contract.triple_ret (stable_unwritten hR) fun _ _ _ => trivial

theorem fine_fail (hR : (contract toLowerCase).Lasting R) (status : ℕ) (error : String) :
    Fine toLowerCase t R (fail status error : Run α) :=
  Contract.triple_raise (stable_unwritten hR) fun _ _ _ => trivial

/-- The rule for a call that only reads. -/
theorem fine_read {o : StoreCall} {F : o.Ans → State → Prop} {k : o.Ans → Run α}
    (hR : (contract toLowerCase).Lasting R) (hF : ∀ a, (contract toLowerCase).Lasting (F a))
    (hread : ∀ s c r s', Obeyed s → BeganIn t s.history →
      perform toLowerCase t s o c = some (r, s') → s' = s ∧ ∃ a, r = .ok a ∧ F a s)
    (hk : ∀ a, Fine toLowerCase t (fun s => R s ∧ F a s) (k a)) :
    Fine toLowerCase t R (Prog.call (S := membershipStore) o >>= k) := by
  have hlasting : ∀ a, (contract toLowerCase).Lasting fun s => R s ∧ F a s := fun a => hR.and (hF a)
  refine Contract.Triple.bind (Q := fun a (s : State) => Unwritten t s.history ∧ R s ∧ F a s) ?_ hk
  refine Contract.triple_call (stable_unwritten hR) (fun r => ?_) fun s c r s' hs ho hP hstep => ?_
  · cases r with
    | ok a => exact stable_unwritten (hlasting a)
    | error e => exact fun _ _ _ _ _ => trivial
  · obtain ⟨rfl, a, rfl, hFa⟩ := hread s c r s' hs ho hstep
    exact ⟨Contract.Keeps.refl hs ho, hP.1, hP.2, hFa⟩

theorem keeps_write {s : State} {e : Event} (hs : Obeyed s) (ho : BeganIn t s.history)
    (hlegit : Legit e s.history) (hother : ∀ u, t ≠ u → Rely u s (s.after e)) :
    (contract toLowerCase).Keeps t s (s.after e) :=
  ⟨hs.after hlegit, ho.extend (Extends.cons e s.history), Extends.cons e s.history, hother⟩

theorem fine_put {m : Membership} (hR : (contract toLowerCase).Lasting R)
    (hputs : ∀ s, R s → Puts t m s.history) : Fine toLowerCase t R (put m) := by
  refine Contract.triple_call (stable_unwritten hR) stable_true fun s c r s' hs ho hP hstep => ?_
  obtain ⟨rfl, rfl⟩ := Prod.mk.inj (Option.some.inj hstep)
  refine ⟨keeps_write hs ho ⟨ho, hP.1, hputs s hP.2⟩ fun u hu => ?_, trivial⟩
  exact rely_after (fun m' he => hu (Event.put.inj he).1) fun id he => by cases he

theorem fine_remove {id : MembershipId} (hR : (contract toLowerCase).Lasting R)
    (hremoves : ∀ s, R s → Removes t id s.history) :
    Fine toLowerCase t R (remove id) := by
  refine Contract.triple_call (stable_unwritten hR) stable_true fun s c r s' hs ho hP hstep => ?_
  obtain ⟨rfl, rfl⟩ := Prod.mk.inj (Option.some.inj hstep)
  refine ⟨keeps_write hs ho ⟨ho, hP.1, hremoves s hP.2⟩ fun u hu => ?_, trivial⟩
  exact rely_after (fun m' he => by cases he) fun id' he => hu (Event.removed.inj he).1

theorem Fine.discard {p : Run α} (h : Fine toLowerCase t R p) :
    Fine toLowerCase t R (Functor.discard p) :=
  Contract.Triple.bind h fun _ => Contract.triple_ret (fun _ _ _ _ _ => trivial) fun _ _ _ => trivial

/-! ### What the reads answer -/

theorem mem_of_oneOf {rows : List Membership} {c : ℕ} {answer : Option Membership}
    (h : oneOf rows c = some answer) : ∀ m ∈ answer, m ∈ rows := by
  unfold oneOf at h
  split at h
  · cases h
    simp
  · obtain ⟨m, hm, rfl⟩ := Option.map_eq_some_iff.1 h
    intro m' hm'
    obtain rfl := Option.mem_some_iff.1 hm'
    exact List.mem_of_getElem? hm

variable (toLowerCase) in
theorem lasting_seen (t : Request) (p : Membership → Prop) (answer : Option Membership) :
    (contract toLowerCase).Lasting fun s => ∀ m ∈ answer, Seen t s.history m ∧ p m :=
  fun _ _ hext h m hm => ⟨(h m hm).1.extend hext, (h m hm).2⟩

theorem lasting_counted (t : Request) (p : Prop) (tenantId : TenantId) :
    (contract toLowerCase).Lasting fun s => p → Counted t s.history tenantId :=
  fun _ _ hext h hp => (h hp).extend hext

theorem fine_getActive {userId : UserId} {tenantId : TenantId} {k : Option Membership → Run α}
    (hR : (contract toLowerCase).Lasting R)
    (hk : ∀ answer, Fine toLowerCase t (fun s => R s ∧
      ∀ m ∈ answer, Seen t s.history m ∧ m.isActiveFor userId tenantId) (k answer)) :
    Fine toLowerCase t R (getActive userId tenantId >>= k) := by
  refine fine_read hR (fun a => lasting_seen _ t _ a) (fun s c r s' hs ho hstep => ?_) hk
  obtain ⟨answer, hanswer, heq⟩ := Option.map_eq_some_iff.1 hstep
  obtain ⟨rfl, rfl⟩ := Prod.mk.inj heq
  refine ⟨rfl, answer, rfl, fun m hm => ?_⟩
  obtain ⟨hmem, hactive⟩ := List.mem_filter.1 (mem_of_oneOf hanswer m hm)
  exact ⟨ho.seen (hs.rows ▸ hmem), hactive⟩

theorem fine_getPendingInvite {tenantId : TenantId} {email : String} {k : Option Membership → Run α}
    (hR : (contract toLowerCase).Lasting R)
    (hk : ∀ answer, Fine toLowerCase t (fun s => R s ∧
      ∀ m ∈ answer, Seen t s.history m ∧ m.status = .invited ∧ m.tenantId = tenantId) (k answer)) :
    Fine toLowerCase t R (getPendingInvite tenantId email >>= k) := by
  refine fine_read hR (fun a => lasting_seen _ t _ a) (fun s c r s' hs ho hstep => ?_) hk
  obtain ⟨answer, hanswer, heq⟩ := Option.map_eq_some_iff.1 hstep
  obtain ⟨rfl, rfl⟩ := Prod.mk.inj heq
  refine ⟨rfl, answer, rfl, fun m hm => ?_⟩
  have hpending := mem_of_oneOf hanswer m hm
  unfold pendingInvites at hpending
  simp only at hpending
  split at hpending
  · cases hpending
  · obtain ⟨hmem, hfits⟩ := List.mem_filter.1 hpending
    have hinvited : m.status = .invited ∧ m.tenantId = tenantId ∧ _ := of_decide_eq_true hfits
    exact ⟨ho.seen (hs.rows ▸ hmem), hinvited.1, hinvited.2.1⟩

theorem isLastOwner_bind (tenantId : TenantId) (k : Bool → Run α) : (isLastOwner true tenantId >>= k) =
    listForTenant tenantId >>= fun members =>
      k ((members.filter fun m => m.status = .active ∧ m.role = .owner).length ≤ 1) := by
  show ((listForTenant tenantId >>= _) >>= _) >>= k = _
  rw [bind_assoc, bind_assoc]
  rfl

/-- A program that goes on after counting the owners has counted more than one. -/
theorem fine_isLastOwner {tenantId : TenantId} {takesOwner : Bool} {k : Bool → Run α}
    (hR : (contract toLowerCase).Lasting R) (hlast : ∀ R', (contract toLowerCase).Lasting R' →
      Fine toLowerCase t R' (k true))
    (hk : Fine toLowerCase t (fun s => R s ∧
      (takesOwner → Counted t s.history tenantId)) (k false)) :
    Fine toLowerCase t R (isLastOwner takesOwner tenantId >>= k) := by
  cases takesOwner with
  | false => exact hk.pre fun s _ h => ⟨h.1, h.2, fun hfalse => by cases hfalse⟩
  | true =>
    let owners (members : List Membership) :=
      (members.filter fun m => m.status = .active ∧ m.role = .owner).length
    rw [isLastOwner_bind]
    refine fine_read (o := .listForTenant tenantId) hR
      (fun members => lasting_counted t (1 < owners members) tenantId) (fun s c r s' hs ho hstep => ?_)
      fun members => ?_
    · obtain ⟨rfl, rfl⟩ := Prod.mk.inj (Option.some.inj hstep)
      refine ⟨rfl, _, rfl, fun hlt => ⟨s.history, Extends.refl _, ho, ?_⟩⟩
      rw [← hs.rows]
      exact hlt
    · by_cases hle : owners members ≤ 1
      · rw [decide_eq_true hle]
        exact hlast _ (hR.and (lasting_counted _ _ _))
      · rw [decide_eq_false hle]
        exact hk.pre fun s _ h => ⟨h.1, h.2.1, fun _ => h.2.2 (Nat.not_le.1 hle)⟩

/-! ### The operations -/

theorem mayGrant {actor : Actor} {tenantId : TenantId} {role : UserRole} (hacting : ¬ actor.tenantId ≠ tenantId)
    (hleast : ¬ (!tenantRoleAtLeast actor.tenantRole .admin) = true)
    (howner : ¬ (role = .owner ∧ actor.tenantRole ≠ .owner)) : MayGrant actor tenantId role where
  acting := not_not.1 hacting
  atLeast := by simpa using hleast
  owner h := not_not.1 fun hne => howner ⟨h, hne⟩

theorem lasting_true : (contract toLowerCase).Lasting fun _ => True := fun _ _ _ h => h

theorem fine_ensurePersonalMembership (hcall : t.call = .ensurePersonalMembership) :
    Fine toLowerCase t (fun _ => True) (ensurePersonalMembership t.actor.sub) := by
  refine fine_getActive lasting_true fun answer => ?_
  have hseen := lasting_true.and (lasting_seen toLowerCase t
    (fun m => m.isActiveFor t.actor.sub (personalTenantId t.actor.sub)) answer)
  cases answer with
  | none =>
    refine fine_put hseen fun s _ => ?_
    rw [Puts, hcall]
    rfl
  | some existing => exact fine_ret hseen _

theorem fine_inviteMember {tenantId : TenantId} {email role : String}
    (hcall : t.call = .inviteMember tenantId email role) :
    Fine toLowerCase t (fun _ => True) (inviteMember toLowerCase t.uuid t.actor tenantId email role) := by
  unfold inviteMember
  split
  · exact fine_fail lasting_true _ _
  rename_i hacting
  split
  · exact fine_fail lasting_true _ _
  rename_i hpersonal
  split
  · exact fine_fail lasting_true _ _
  rename_i hleast
  split
  · exact fine_fail lasting_true _ _
  rename_i role' hrole
  split
  · exact fine_fail lasting_true _ _
  rename_i howner
  simp only
  split
  · exact fine_fail lasting_true _ _
  refine fine_getPendingInvite lasting_true fun answer => ?_
  cases answer with
  | some existing => exact fine_ret (lasting_true.and (lasting_seen _ _ _ _)) _
  | none =>
    refine fine_put (lasting_true.and (lasting_seen _ _ _ _)) fun s _ => ?_
    rw [Puts, hcall]
    exact ⟨role', _, mayGrant hacting hleast howner, hpersonal, rfl⟩

theorem fine_acceptInvite {verifiedEmail : Option String} {tenantId : TenantId}
    (hcall : t.call = .acceptInvite verifiedEmail tenantId) :
    Fine toLowerCase t (fun _ => True) (acceptInvite toLowerCase t.actor.sub verifiedEmail tenantId) := by
  unfold acceptInvite
  split
  · exact fine_fail lasting_true _ _
  refine fine_getPendingInvite lasting_true fun answer => ?_
  have hseen := lasting_true.and (lasting_seen toLowerCase t
    (fun m => m.status = .invited ∧ m.tenantId = tenantId) answer)
  cases answer with
  | none => exact fine_fail hseen _ _
  | some invite =>
    refine fine_put hseen fun s h => ?_
    obtain ⟨hread, hinvited, htenant⟩ := h.2 invite rfl
    rw [Puts, hcall]
    exact ⟨invite, hread, hinvited, htenant, rfl⟩

theorem fine_changeRole {tenantId : TenantId} {targetUserId : UserId} {newRole : String}
    (hcall : t.call = .changeRole tenantId targetUserId newRole) :
    Fine toLowerCase t (fun _ => True) (changeRole t.actor tenantId targetUserId newRole) := by
  unfold changeRole
  split
  · exact fine_fail lasting_true _ _
  rename_i hacting
  split
  · exact fine_fail lasting_true _ _
  rename_i hleast
  split
  · exact fine_fail lasting_true _ _
  rename_i role hrole
  split
  · exact fine_fail lasting_true _ _
  rename_i howner
  refine fine_getActive lasting_true fun answer => ?_
  have hseen := lasting_true.and (lasting_seen toLowerCase t
    (fun m => m.isActiveFor targetUserId tenantId) answer)
  cases answer with
  | none => exact fine_fail hseen _ _
  | some target =>
    refine fine_isLastOwner hseen (fun R' hR' => fine_fail hR' _ _) ?_
    refine fine_put (hseen.and (lasting_counted t _ tenantId)) fun s h => ?_
    obtain ⟨hread, hactive⟩ := h.1.2 target rfl
    rw [Puts, hcall]
    exact ⟨role, target, hrole, mayGrant hacting hleast howner, hread, hactive,
      fun htarget hne => h.2 (by simp [htarget, hne]), rfl⟩

theorem fine_removeMember {tenantId : TenantId} {targetUserId : UserId}
    (hcall : t.call = .removeMember tenantId targetUserId) :
    Fine toLowerCase t (fun _ => True) (removeMember t.actor tenantId targetUserId) := by
  unfold removeMember
  split
  · exact fine_fail lasting_true _ _
  rename_i hacting
  split
  · exact fine_fail lasting_true _ _
  rename_i hleast
  refine fine_getActive lasting_true fun answer => ?_
  have hseen := lasting_true.and (lasting_seen toLowerCase t
    (fun m => m.isActiveFor targetUserId tenantId) answer)
  cases answer with
  | none => exact fine_fail hseen _ _
  | some target =>
    refine fine_isLastOwner hseen (fun R' hR' => fine_fail hR' _ _) ?_
    refine fine_remove (hseen.and (lasting_counted t _ tenantId)) fun s h => ?_
    obtain ⟨hread, hactive⟩ := h.1.2 target rfl
    rw [Removes, hcall]
    exact ⟨not_not.1 hacting, by simpa using hleast, target, hread, hactive,
      fun htarget => h.2 (by simp [htarget]), rfl⟩

theorem fine_code (t : Request) : Fine toLowerCase t (fun _ => True) (code toLowerCase t) := by
  unfold code
  cases hcall : t.call with
  | createTenant =>
    refine Fine.discard (fine_put lasting_true fun s _ => ?_)
    rw [Puts, hcall]
    rfl
  | ensurePersonalMembership => exact (fine_ensurePersonalMembership hcall).discard
  | inviteMember tenantId email role => exact (fine_inviteMember hcall).discard
  | acceptInvite verifiedEmail tenantId => exact (fine_acceptInvite hcall).discard
  | changeRole tenantId targetUserId newRole => exact (fine_changeRole hcall).discard
  | removeMember tenantId targetUserId => exact (fine_removeMember hcall).discard

/-- A request that has not begun has not written. -/
theorem unwritten_of_new {past : List Event} (h : Justified Legit past)
    (hnew : t.uuid ∉ past.filterMap Event.uuid?) : Unwritten t past := by
  induction past with
  | nil => exact ⟨fun _ => List.not_mem_nil, fun _ => List.not_mem_nil⟩
  | cons e past ih =>
    have hpast : t.uuid ∉ past.filterMap Event.uuid? := fun hmem => by
      obtain ⟨e', he', huuid⟩ := List.mem_filterMap.1 hmem
      exact hnew (List.mem_filterMap.2 ⟨e', List.mem_cons_of_mem e he', huuid⟩)
    obtain ⟨hput, hremoved⟩ := ih h.2 hpast
    refine ⟨fun m hmem => ?_, fun id hmem => ?_⟩
    · rcases List.mem_cons.1 hmem with rfl | hmem
      · exact hpast (uuid_of_beganIn h.1.1)
      · exact hput m hmem
    · rcases List.mem_cons.1 hmem with rfl | hmem
      · exact hpast (uuid_of_beganIn h.1.1)
      · exact hremoved id hmem

theorem startRequest_eq {s s' : State} (h : startRequest s t = some s') :
    t.uuid ∉ s.history.filterMap Event.uuid? ∧ Resolves s.rows t.actor ∧
      s' = s.after (.began t (holdsOwner s.rows t.actor)) := by
  unfold startRequest at h
  split at h
  · rename_i hstart
    exact ⟨hstart.1, hstart.2, (Option.some.inj h).symm⟩
  · cases h

theorem sound : (contract toLowerCase).Sound where
  start s ts t s' hs hown hstart := by
    obtain ⟨hnew, hresolves, rfl⟩ := startRequest_eq hstart
    have hlegit : Legit (.began t (holdsOwner s.rows t.actor)) s.history := by
      refine ⟨hnew, ?_, ?_⟩
      · rw [← hs.rows]
        exact hresolves
      · rw [← hs.rows]
    have hafter := hs.after hlegit
    have hbegan : BeganIn t (s.after (.began t (holdsOwner s.rows t.actor))).history :=
      ⟨_, List.mem_cons_self⟩
    have hrely : ∀ u, Rely u s (s.after (.began t (holdsOwner s.rows t.actor))) := fun u =>
      rely_after (fun _ he => by cases he) fun _ he => by cases he
    refine ⟨hafter, Extends.cons _ _, hbegan, ?_, fun u hu => ?_⟩
    · have hunwritten := (hrely t).unwritten (unwritten_of_new hs.legit hnew)
      exact (fine_code t _ hafter hbegan ⟨hunwritten, trivial⟩).mono fun _ _ _ _ => trivial
    · have hne : t ≠ u := fun he => hnew (he ▸ uuid_of_beganIn (hown u hu))
      exact ⟨hne, hne.symm, hrely u⟩
  settle s t r hs _ _ := ⟨hs, Extends.refl _, fun u _ => (contract toLowerCase).rely_refl u s⟩
  crash s t hs _ := ⟨hs, Extends.refl _, fun u _ => (contract toLowerCase).rely_refl u s⟩
  env s c s' _ h := by cases h

theorem obeyed_empty : Obeyed State.empty := ⟨trivial, rfl⟩

end Contract

end CatalogSentinel.Tenancy
