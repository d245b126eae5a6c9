import Mathlib.Data.List.Infix
import CatalogSentinel.Tenancy.Histories

/-!
The last owner of a shared tenant. A request that takes an owner away has counted the
owners in a call before, so the tenant keeps one if nothing has changed its owners
since the request began; two removals that count side by side leave none.
-/

namespace CatalogSentinel.Tenancy

open CatalogSentinel.Concurrent CatalogSentinel.Data

def Event.createsTenant (tenantId : TenantId) : Event → Bool
  | .put t m => t.call = .createTenant ∧ m.tenantId = tenantId
  | _ => false

/-- The tenant was created by `createTenant`. -/
def Created (tenantId : TenantId) (past : List Event) : Prop := ∃ e ∈ past, e.createsTenant tenantId

instance (tenantId : TenantId) (past : List Event) : Decidable (Created tenantId past) := by
  unfold Created
  infer_instance

/-- Every tenant that was created has an active owner. -/
def Owned (s : State) : Prop :=
  ∀ tenantId, Created tenantId s.history → ∃ m ∈ s.rows, m.tenantId = tenantId ∧ m.isActiveOwner

/-- The active owners that the event takes away: they are not among the rows that it leaves. -/
def Event.takenOwners (e : Event) (rows : List Membership) : List Membership :=
  rows.filter fun m => m.isActiveOwner ∧
    ∀ m' ∈ e.apply rows, ¬ (m'.id = m.id ∧ m'.tenantId = m.tenantId ∧ m'.isActiveOwner)

/-- The histories from the one on in which the request had begun. -/
def sinceBegan (t : Request) (past : List Event) : List (List Event) :=
  past.tails.filter fun before => before.any fun e => e = .began t true ∨ e = .began t false

/-- The owners of the tenant are those that they were whenever the request could count them. -/
def OwnersUnchanged (t : Request) (tenantId : TenantId) (s : State) : Prop :=
  ∀ before ∈ sinceBegan t s.history, activeOwners (replay before) tenantId = activeOwners s.rows tenantId

/-- An owner of a created tenant is taken away by a request since whose beginning the
tenant's owners have not changed. -/
def CountStands (s : State) (e : Event) : Prop :=
  ∀ m ∈ e.takenOwners s.rows, Created m.tenantId s.history → OwnersUnchanged e.request m.tenantId s

instance (s : State) (e : Event) : Decidable (CountStands s e) := by
  unfold CountStands OwnersUnchanged
  infer_instance

section

variable {past before : List Event} {t : Request} {e : Event} {rows : List Membership} {m : Membership}
  {tenantId : TenantId} {s : State}

theorem mem_sinceBegan (hext : Extends before past) (ht : BeganIn t before) :
    before ∈ sinceBegan t past := by
  obtain ⟨future, rfl⟩ := hext
  obtain ⟨held, hmem⟩ := ht
  refine List.mem_filter.2 ⟨(List.mem_tails _ _).2 (List.suffix_append future before), ?_⟩
  refine List.any_eq_true.2 ⟨_, hmem, ?_⟩
  cases held <;> simp

theorem mem_activeOwners :
    m ∈ activeOwners rows tenantId ↔ m ∈ rows ∧ m.tenantId = tenantId ∧ m.isActiveOwner := by
  simp [activeOwners, Membership.isActiveOwner, and_assoc, and_comm, and_left_comm]

theorem mem_takenOwners : m ∈ e.takenOwners rows ↔ m ∈ rows ∧ m.isActiveOwner ∧
    ∀ m' ∈ e.apply rows, ¬ (m'.id = m.id ∧ m'.tenantId = m.tenantId ∧ m'.isActiveOwner) := by
  simp [Event.takenOwners]

/-- An owner is taken away under the identifier that the event writes. -/
theorem id_of_takenOwners (hm : m ∈ e.takenOwners (replay past)) : e.id? = some m.id := by
  obtain ⟨hmem, howner, htaken⟩ := mem_takenOwners.1 hm
  by_contra hne
  exact htaken m (mem_apply_of_ne hne hmem) ⟨rfl, rfl, howner⟩

/-- More than one owner are two of them under different identifiers. -/
theorem another_owner (h : 1 < (activeOwners (replay past) tenantId).length) (id : MembershipId) :
    ∃ m ∈ activeOwners (replay past) tenantId, m.id ≠ id := by
  by_contra hnone
  push Not at hnone
  have hsub : (activeOwners (replay past) tenantId).map Membership.id ⊆ [id] := by
    intro id' hid'
    obtain ⟨m, hm, rfl⟩ := List.mem_map.1 hid'
    exact List.mem_singleton.2 (hnone m hm)
  have hnodup : ((activeOwners (replay past) tenantId).map Membership.id).Nodup :=
    (nodup_replay past).sublist ((List.filter_sublist.trans List.filter_sublist).map _)
  have hle := (List.subperm_of_subset hnodup hsub).length_le
  rw [List.length_map, List.length_singleton] at hle
  omega

/-- A request that puts over an owner, and takes it away, has counted the owners. -/
theorem Puts.counted (hjust : Justified Legit past) (hbegan : BeganIn t past)
    (hunwritten : Unwritten t past) (hputs : Puts t m past) {o : Membership} (ho : o ∈ replay past)
    (howner : o.isActiveOwner) (hid : o.id = m.id)
    (htaken : ¬ (m.tenantId = o.tenantId ∧ m.isActiveOwner))
    (hunchanged : ∀ before, Extends before past → BeganIn t before → o ∈ replay before) :
    Counted t past o.tenantId := by
  have hknown := known_of_mem hjust ho
  unfold Puts at hputs
  split at hputs
  · subst hputs
    exact absurd ⟨(hknown.stable _ _ hid).symm, rfl⟩ htaken
  · subst hputs
    exact absurd ⟨(hknown.stable _ _ hid).symm, rfl⟩ htaken
  · obtain ⟨role, email, -, -, rfl⟩ := hputs
    exact absurd (hknown.drawn hid) (hunwritten.not_drawn hjust hbegan)
  · obtain ⟨invite, ⟨before, hext, hbefore, hinvite⟩, hinvited, -, rfl⟩ := hputs
    have hsame : o = invite := eq_of_id (hunchanged before hext hbefore) hinvite hid
    rw [← hsame] at hinvited
    simp [Membership.isActiveOwner, hinvited] at howner
  · obtain ⟨role, target, -, -, ⟨before, hext, hbefore, htarget⟩, hactive, hcounted, rfl⟩ := hputs
    obtain rfl : o = target := eq_of_id (hunchanged before hext hbefore) htarget hid
    rw [tenantId_of_isActiveFor hactive]
    have hrole : o.role = .owner ∧ o.status = .active := by
      simp only [Membership.isActiveOwner, decide_eq_true_eq] at howner
      exact ⟨howner.2, howner.1⟩
    refine hcounted hrole.1 fun hkeeps => htaken ⟨rfl, ?_⟩
    simp [Membership.isActiveOwner, hrole.2, hkeeps]
  · cases hputs

theorem Removes.counted (hremoves : Removes t m.id past) (howner : m.isActiveOwner)
    (hunchanged : ∀ before, Extends before past → BeganIn t before → m ∈ replay before) :
    Counted t past m.tenantId := by
  unfold Removes at hremoves
  split at hremoves
  · obtain ⟨-, -, target, ⟨before, hext, hbefore, htarget⟩, hactive, hcounted, hid⟩ := hremoves
    obtain rfl : m = target := eq_of_id (hunchanged before hext hbefore) htarget hid
    rw [tenantId_of_isActiveFor hactive]
    simp only [Membership.isActiveOwner, decide_eq_true_eq] at howner
    exact hcounted howner.2
  · cases hremoves

/-- An owner whose tenant's owners have not changed is taken away on a count of them. -/
theorem counted_of_takenOwners (hjust : Justified Legit past) (hlegit : Legit e past)
    (hm : m ∈ e.takenOwners (replay past))
    (hunchanged : ∀ before, Extends before past → BeganIn e.request before →
      activeOwners (replay before) m.tenantId = activeOwners (replay past) m.tenantId) :
    Counted e.request past m.tenantId := by
  have hid := id_of_takenOwners hm
  obtain ⟨hmem, howner, htaken⟩ := mem_takenOwners.1 hm
  have hstays : ∀ before, Extends before past → BeganIn e.request before → m ∈ replay before := by
    intro before hext hbefore
    have hin := mem_activeOwners.2 ⟨hmem, rfl, howner⟩
    rw [← hunchanged before hext hbefore] at hin
    exact (mem_activeOwners.1 hin).1
  cases e with
  | began t held => cases hid
  | put t m' =>
    have hsame : m.id = m'.id := (Option.some.inj hid).symm
    refine hlegit.2.2.counted hjust hlegit.1 hlegit.2.1 hmem howner hsame (fun h => ?_) hstays
    exact htaken m' ((mem_put_iff (nodup_replay past)).2 (.inl rfl)) ⟨hsame.symm, h.1, h.2⟩
  | removed t id =>
    obtain rfl : id = m.id := Option.some.inj hid
    exact hlegit.2.2.counted howner hstays

theorem owned_of_created (h : e.createsTenant tenantId) (hlegit : Legit e past) :
    ∃ m ∈ e.apply rows, m.tenantId = tenantId ∧ m.isActiveOwner := by
  cases e with
  | began t held => cases h
  | removed t id => cases h
  | put t m =>
    simp only [Event.createsTenant, decide_eq_true_eq] at h
    have hputs := hlegit.2.2
    rw [Puts, h.1] at hputs
    refine ⟨m, ?_, h.2, ?_⟩
    · exact mem_of_get? (get?_put_self m rows)
    · rw [hputs]
      rfl

/-- A tenant keeps an owner over every legitimate event whose count stands. -/
theorem Owned.after (hs : Obeyed s) (hlegit : Legit e s.history) (howned : Owned s)
    (hcount : CountStands s e) : Owned (s.after e) := by
  intro tenantId hcreated
  obtain ⟨e', he', hcreates⟩ := hcreated
  rcases List.mem_cons.1 he' with rfl | he'
  · exact owned_of_created hcreates hlegit
  · obtain ⟨o, ho, rfl, howner⟩ := howned tenantId ⟨e', he', hcreates⟩
    have hrows := hs.rows
    by_cases htaken : o ∈ e.takenOwners s.rows
    · -- the owner goes, so that the request has counted another one, who stays
      have hunchanged := hcount o htaken ⟨e', he', hcreates⟩
      rw [hrows] at htaken
      have hcounted := counted_of_takenOwners hs.legit hlegit htaken fun before hext hbefore => by
        rw [hunchanged before (mem_sinceBegan hext hbefore), hrows]
      obtain ⟨before, hext, hbefore, hlt⟩ := hcounted
      rw [hunchanged before (mem_sinceBegan hext hbefore), hrows] at hlt
      obtain ⟨o', ho', hne⟩ := another_owner hlt o.id
      obtain ⟨hmem, htenant, howner'⟩ := mem_activeOwners.1 ho'
      refine ⟨o', ?_, htenant, howner'⟩
      show o' ∈ e.apply s.rows
      rw [hrows]
      refine mem_apply_of_ne (fun hid => hne ?_) hmem
      rw [id_of_takenOwners htaken] at hid
      exact (Option.some.inj hid).symm
    · rw [mem_takenOwners] at htaken
      push Not at htaken
      obtain ⟨m', hm', -, htenant, howner'⟩ := htaken ho howner
      exact ⟨m', hm', htenant, howner'⟩

end

variable (toLowerCase : String → String)

/-- No tenant loses its last owner in a run in which every count of the owners still
stands when an owner is taken away. -/
theorem owned_throughout {ms : List (Move Request ℕ)}
    (hms : Steps.Along (tenancy toLowerCase).step (Meets CountStands) fresh ms) :
    Steps.Throughout (tenancy toLowerCase).step (fun w => Owned w.state) fresh ms := by
  refine throughout_of_events ?_ (fun s e hs hlegit howned hcount => howned.after hs hlegit hcount) hms
  rintro tenantId ⟨e, he, -⟩
  cases he

/-! ### Two owners -/

def oneRemoval : List (Move Request ℕ) := twoMembers "owner" ++ served (removal 3 "a" "b") 3

theorem owned_oneRemoval : (Steps.run (tenancy id).step fresh oneRemoval).isSome ∧
    Steps.Throughout (tenancy id).step (fun w => Owned w.state) fresh oneRemoval :=
  ⟨by decide +kernel, owned_throughout id (by decide +kernel)⟩

/-- Two owners remove each other, and both requests count before either one removes. -/
def bothRemovals : List (Move Request ℕ) := twoMembers "owner" ++
  [.start (removal 3 "a" "b"), .start (removal 4 "b" "a"), .go 0 0, .go 0 0, .go 1 0, .go 1 0,
    .go 0 0, .go 1 0]

theorem last_owner_lost :
    ¬ Steps.Throughout (tenancy id).step (fun w => Owned w.state) fresh bothRemovals := by
  intro h
  have hlost : ∃ w ∈ Steps.run (tenancy id).step fresh bothRemovals,
      Created (.org 0) w.state.history ∧ w.state.rows = [] := by decide +kernel
  obtain ⟨w, hw, hcreated, hrows⟩ := hlost
  obtain ⟨m, hm, -⟩ := h.last hw (.org 0) hcreated
  rw [hrows] at hm
  cases hm

end CatalogSentinel.Tenancy
