import CatalogSentinel.Concurrent.Steps
import CatalogSentinel.Tenancy.Rules

/-!
What legitimate histories have in common. An identifier is one row's, of one tenant;
the rows of a shared tenant come after the request that created it, and a row of an
invite after the request that put it. What every legitimate event keeps holds
throughout every run of the requests.
-/

namespace CatalogSentinel.Tenancy

open CatalogSentinel.Concurrent CatalogSentinel.Data

/-! ### Rows -/

section Rows

variable {rows : List Membership} {past : List Event} {m m' : Membership}

theorem mem_put_iff (hnodup : (rows.map Membership.id).Nodup) :
    m' ∈ Data.put Membership.id m rows ↔ m' = m ∨ m' ∈ rows ∧ m'.id ≠ m.id := by
  have hput : ∀ x : Membership, x ∈ Data.put Membership.id m rows ↔
      get? Membership.id x.id (Data.put Membership.id m rows) = some x := fun x =>
    ⟨get?_of_mem (nodup_put hnodup), mem_of_get?⟩
  rw [hput, get?_put]
  split
  · rename_i heq
    rw [Option.some.injEq]
    exact ⟨fun h => .inl h.symm, fun h => h.elim Eq.symm fun h => absurd heq.symm h.2⟩
  · rename_i hne
    constructor
    · exact fun h => .inr ⟨mem_of_get? h, fun he => hne he.symm⟩
    · rintro (rfl | ⟨hmem, -⟩)
      · exact absurd rfl hne
      · exact get?_of_mem hnodup hmem

theorem nodup_replay (past : List Event) : ((replay past).map Membership.id).Nodup := by
  induction past with
  | nil => exact List.nodup_nil
  | cons e past ih =>
    cases e with
    | began t held => exact ih
    | put t m => exact nodup_put ih
    | removed t id => exact ih.sublist (List.filter_sublist.map _)

theorem eq_of_id (hm : m ∈ replay past) (hm' : m' ∈ replay past) (h : m.id = m'.id) : m = m' :=
  List.inj_on_of_nodup_map (nodup_replay past) hm hm' h

/-- The identifier that an event writes under. -/
def Event.id? : Event → Option MembershipId
  | .began .. => none
  | .put _ m => some m.id
  | .removed _ id => some id

/-- An event leaves the rows of other identifiers as they are. -/
theorem mem_apply_of_ne {e : Event} (hne : e.id? ≠ some m.id) (hm : m ∈ replay past) :
    m ∈ e.apply (replay past) := by
  cases e with
  | began t held => exact hm
  | put t m' =>
    refine (mem_put_iff (nodup_replay past)).2 (.inr ⟨hm, fun he => hne ?_⟩)
    rw [Event.id?, he]
  | removed t id =>
    refine List.mem_filter.2 ⟨hm, decide_eq_true fun he => hne ?_⟩
    rw [Event.id?, he]

theorem put_of_mem_replay (h : m ∈ replay past) : ∃ t, .put t m ∈ past := by
  induction past with
  | nil => cases h
  | cons e past ih =>
    have hrest : m ∈ replay past → ∃ t, .put t m ∈ e :: past := fun hm => by
      obtain ⟨t, ht⟩ := ih hm
      exact ⟨t, List.mem_cons_of_mem e ht⟩
    cases e with
    | began t held => exact hrest h
    | put t m' =>
      rcases (mem_put_iff (nodup_replay past)).1 h with rfl | ⟨hm, -⟩
      · exact ⟨t, List.mem_cons_self⟩
      · exact hrest hm
    | removed t id => exact hrest (List.mem_filter.1 h).1

theorem Seen.put {t : Request} (h : Seen t past m) : ∃ u, .put u m ∈ past := by
  obtain ⟨before, hext, -, hm⟩ := h
  obtain ⟨u, hu⟩ := put_of_mem_replay hm
  exact ⟨u, hext.mem hu⟩

end Rows

/-! ### Identifiers -/

section Identifiers

variable {past : List Event} {t u : Request} {m : Membership}

theorem beganIn_of_put (h : Justified Legit past) (hm : .put t m ∈ past) : BeganIn t past := by
  obtain ⟨before, hext, hlegit⟩ := h.of_mem hm
  exact hlegit.1.extend ((Extends.cons _ before).trans hext)

/-- A request began once, and under an identifier of its own. -/
theorem eq_of_uuid (h : Justified Legit past) (ht : BeganIn t past) (hu : BeganIn u past)
    (huuid : t.uuid = u.uuid) : t = u := by
  induction past with
  | nil =>
    obtain ⟨held, hmem⟩ := ht
    cases hmem
  | cons e past ih =>
    obtain ⟨held, ht⟩ := ht
    obtain ⟨held', hu⟩ := hu
    rcases List.mem_cons.1 ht with rfl | ht <;> rcases List.mem_cons.1 hu with he | hu
    · exact (Event.began.inj he).1.symm
    · exact absurd (uuid_of_beganIn ⟨held', hu⟩) (huuid ▸ h.1.1)
    · rw [← he] at h
      exact absurd (uuid_of_beganIn ⟨held, ht⟩) (huuid ▸ h.1.1)
    · exact ih h.2 ⟨held, ht⟩ ⟨held', hu⟩

/-- The caller of a request was resolved when it began. -/
theorem BeganIn.resolved (h : Justified Legit past) (ht : BeganIn t past) :
    ∃ before, Extends before past ∧ Resolves (replay before) t.actor := by
  obtain ⟨held, hmem⟩ := ht
  obtain ⟨before, hext, -, hresolves, -⟩ := h.of_mem hmem
  exact ⟨before, (Extends.cons _ before).trans hext, hresolves⟩

/-- A caller who acts in a tenant other than the own personal one has been seen to be a
member of it. -/
theorem BeganIn.member (h : Justified Legit past) (ht : BeganIn t past)
    (hpersonal : t.actor.tenantId ≠ personalTenantId t.actor.sub) :
    ∃ u m, .put u m ∈ past ∧ m.isActiveFor t.actor.sub t.actor.tenantId ∧
      t.actor.tenantRole = m.role := by
  obtain ⟨before, hext, hresolves⟩ := ht.resolved h
  rw [Resolves, if_neg hpersonal] at hresolves
  obtain ⟨m, hm, hactive, hrole⟩ := hresolves
  obtain ⟨u, hu⟩ := put_of_mem_replay hm
  exact ⟨u, m, hext.mem hu, hactive, hrole⟩

/-- What holds of every row that a request may put, if it holds of the rows put before,
holds of all of them. -/
theorem put_induction {K : List Event → Membership → Prop}
    (hextend : ∀ past later m, K past m → Extends past later → K later m)
    (hputs : ∀ past t m, Justified Legit past → (∀ u m', .put u m' ∈ past → K past m') →
      BeganIn t past → Puts t m past → K (.put t m :: past) m)
    (h : Justified Legit past) (hm : .put t m ∈ past) : K past m := by
  induction past generalizing t m with
  | nil => cases hm
  | cons e past ih =>
    rcases List.mem_cons.1 hm with rfl | hm
    · exact hputs past t m h.2 (fun u m' hu => ih h.2 hu) h.1.1 h.1.2.2
    · exact hextend past (e :: past) m (ih h.2 hm) (Extends.cons e past)

/-- A request that draws this identifier has put a row. -/
def Drawn (uuid : ℕ) (past : List Event) : Prop := ∃ u m, u.uuid = uuid ∧ .put u m ∈ past

/-- Where the identifiers of a row come from. -/
structure Known (past : List Event) (m : Membership) : Prop where
  stable : ∀ userId tenantId, m.id = .stable userId tenantId → m.tenantId = tenantId
  org : ∀ uuid, m.tenantId = .org uuid → Drawn uuid past
  mbr : ∀ uuid, m.id = .mbr uuid → ∃ u m', u.uuid = uuid ∧ .put u m' ∈ past ∧ m'.tenantId = m.tenantId

theorem Drawn.extend {uuid : ℕ} {later : List Event} (h : Drawn uuid past) (hext : Extends past later) :
    Drawn uuid later := by
  obtain ⟨u, m, huuid, hu⟩ := h
  exact ⟨u, m, huuid, hext.mem hu⟩

theorem Known.drawn {uuid : ℕ} (h : Known past m) (hid : m.id = .mbr uuid) : Drawn uuid past := by
  obtain ⟨u, m', huuid, hu, -⟩ := h.mbr uuid hid
  exact ⟨u, m', huuid, hu⟩

theorem Known.extend {later : List Event} (h : Known past m) (hext : Extends past later) :
    Known later m where
  stable := h.stable
  org uuid he := (h.org uuid he).extend hext
  mbr uuid he := by
    obtain ⟨u, m', huuid, hu, htenant⟩ := h.mbr uuid he
    exact ⟨u, m', huuid, hext.mem hu, htenant⟩

theorem tenantId_of_isActiveFor {userId : UserId} {tenantId : TenantId}
    (h : m.isActiveFor userId tenantId) : m.tenantId = tenantId := by
  simp only [Membership.isActiveFor, decide_eq_true_eq] at h
  exact h.2.2

/-- A row is known that a request may put, if the rows are that it can have read. -/
theorem Puts.known (hjust : Justified Legit past) (hseen : ∀ u m', .put u m' ∈ past → Known past m')
    (hbegan : BeganIn t past) (hputs : Puts t m past) : Known (.put t m :: past) m := by
  have hext := Extends.cons (Event.put t m) past
  have hself : (.put t m : Event) ∈ .put t m :: past := List.mem_cons_self
  unfold Puts at hputs
  split at hputs
  · subst hputs
    refine ⟨fun _ _ he => (MembershipId.stable.inj he).2, fun uuid he => ?_, nofun⟩
    exact ⟨t, _, TenantId.org.inj he, hself⟩
  · subst hputs
    exact ⟨fun _ _ he => (MembershipId.stable.inj he).2, nofun, nofun⟩
  · obtain ⟨role, email, hgrant, hpersonal, rfl⟩ := hputs
    refine ⟨nofun, fun uuid he => ?_, fun uuid he => ⟨t, _, MembershipId.mbr.inj he, hself, rfl⟩⟩
    rw [← hgrant.acting] at hpersonal
    obtain ⟨u, m', hu, hactive, -⟩ := hbegan.member hjust hpersonal
    refine ((hseen u m' hu).org uuid ?_).extend hext
    rw [tenantId_of_isActiveFor hactive, hgrant.acting]
    exact he
  · obtain ⟨invite, hread, -, -, rfl⟩ := hputs
    obtain ⟨u, hu⟩ := hread.put
    have hknown := (hseen u invite hu).extend hext
    exact ⟨hknown.stable, hknown.org, hknown.mbr⟩
  · obtain ⟨role, target, -, -, hread, -, -, rfl⟩ := hputs
    obtain ⟨u, hu⟩ := hread.put
    have hknown := (hseen u target hu).extend hext
    exact ⟨hknown.stable, hknown.org, hknown.mbr⟩
  · cases hputs

theorem known_of_put (h : Justified Legit past) (hm : .put t m ∈ past) : Known past m :=
  put_induction (fun _ _ _ => Known.extend) (fun _ _ _ => Puts.known) h hm

/-- A request puts one row at most. -/
theorem put_unique {m' : Membership} (h : Justified Legit past) (hm : .put t m ∈ past)
    (hm' : .put t m' ∈ past) : m = m' := by
  induction past with
  | nil => cases hm
  | cons e past ih =>
    rcases List.mem_cons.1 hm with rfl | hm <;> rcases List.mem_cons.1 hm' with he | hm'
    · exact (Event.put.inj he).2.symm
    · exact absurd hm' (h.1.2.1.1 m')
    · rw [← he] at h
      exact absurd hm (h.1.2.1.1 m)
    · exact ih h.2 hm hm'

/-- Rows of one identifier are of one tenant. -/
theorem tenantId_of_id {m' : Membership} (h : Justified Legit past) (hm : .put t m ∈ past)
    (hm' : .put u m' ∈ past) (hid : m.id = m'.id) : m.tenantId = m'.tenantId := by
  have hknown := known_of_put h hm
  have hknown' := known_of_put h hm'
  cases hm₀ : m.id with
  | stable userId tenantId =>
    rw [hknown.stable userId tenantId hm₀, hknown'.stable userId tenantId (hid.symm.trans hm₀)]
  | mbr uuid =>
    obtain ⟨v, n, hv, hn, htenant⟩ := hknown.mbr uuid hm₀
    obtain ⟨v', n', hv', hn', htenant'⟩ := hknown'.mbr uuid (hid.symm.trans hm₀)
    obtain rfl := eq_of_uuid h (beganIn_of_put h hn) (beganIn_of_put h hn') (hv.trans hv'.symm)
    rw [← htenant, ← htenant', put_unique h hn hn']

theorem known_of_mem (h : Justified Legit past) (hm : m ∈ replay past) : Known past m := by
  obtain ⟨t, ht⟩ := put_of_mem_replay hm
  exact known_of_put h ht

/-- What a request draws that has not written is new. -/
theorem Unwritten.not_drawn (h : Justified Legit past) (hbegan : BeganIn t past)
    (hunwritten : Unwritten t past) : ¬ Drawn t.uuid past := by
  rintro ⟨u, m, huuid, hu⟩
  obtain rfl := eq_of_uuid h (beganIn_of_put h hu) hbegan huuid
  exact hunwritten.1 m hu

end Identifiers

/-! ### Runs -/

section Runs

abbrev Service := World membershipStore Failure State Request

def fresh : Service := World.idle State.empty

/-- The event that a step adds to the history. -/
def event? (w : Service) : Move Request ℕ → Option Event
  | .start t => some (.began t (holdsOwner w.state.rows t.actor))
  | .go i _ =>
    match w.procs[i]? with
    | some (t, .op (.put m) _) => some (.put t m)
    | some (t, .op (.remove id) _) => some (.removed t id)
    | _ => none
  | _ => none

variable {toLowerCase : String → String}

theorem step_event {w w' : Service} {m : Move Request ℕ} (h : (tenancy toLowerCase).step w m = some w') :
    w'.state = (event? w m).elim w.state w.state.after := by
  cases m with
  | start t =>
    obtain ⟨s, hs, rfl⟩ := System.step_start h
    exact (startRequest_eq hs).2.2
  | go i c =>
    obtain ⟨t, o, k, r, s, hi, hp, rfl⟩ := System.step_go h
    simp only [event?, hi]
    cases o with
    | put m =>
      cases hp
      rfl
    | remove id =>
      cases hp
      rfl
    | listForTenant tenantId =>
      cases hp
      rfl
    | getActive userId tenantId =>
      obtain ⟨answer, -, heq⟩ := Option.map_eq_some_iff.1 hp
      exact (Prod.mk.inj heq).2.symm
    | getPendingInvite tenantId email =>
      obtain ⟨answer, -, heq⟩ := Option.map_eq_some_iff.1 hp
      exact (Prod.mk.inj heq).2.symm
  | settle i =>
    obtain ⟨t, r, -, rfl⟩ := System.step_settle h
    rfl
  | crash i =>
    obtain ⟨t, p, -, rfl⟩ := System.step_crash h
    rfl
  | env c =>
    obtain ⟨s, hs, -⟩ := System.step_env h
    cases hs

/-- The events of a step meet the condition, which speaks of the state before them. -/
def Meets (C : State → Event → Prop) (w : Service) (m : Move Request ℕ) : Prop :=
  ∀ e ∈ event? w m, C w.state e

instance (C : State → Event → Prop) [∀ s e, Decidable (C s e)] (w : Service) (m : Move Request ℕ) :
    Decidable (Meets C w m) := by
  unfold Meets
  infer_instance

/-- What every legitimate event that meets a condition keeps holds throughout a run of such. -/
theorem throughout_of_events {I : State → Prop} {C : State → Event → Prop} (hempty : I State.empty)
    (hkeep : ∀ s e, Obeyed s → Legit e s.history → I s → C s e → I (s.after e))
    {ms : List (Move Request ℕ)}
    (hms : Steps.Along (tenancy toLowerCase).step (Meets C) fresh ms) :
    Steps.Throughout (tenancy toLowerCase).step (fun w => I w.state) fresh ms := by
  have hboth : Steps.Throughout (tenancy toLowerCase).step
      (fun w => (contract toLowerCase).Valid w ∧ I w.state) fresh ms := by
    refine Steps.throughout_of_along ⟨Contract.valid_idle obeyed_empty, hempty⟩ hms ?_
    rintro w m w' ⟨hw, hI⟩ hC hstep
    have hw' := hw.step sound hstep
    refine ⟨hw', ?_⟩
    have hstate := step_event hstep
    cases he : event? w m with
    | none =>
      rw [he] at hstate
      exact hstate ▸ hI
    | some e =>
      rw [he, Option.elim_some] at hstate
      rw [hstate]
      have hobeyed : Obeyed (w.state.after e) := hstate ▸ hw'.inv
      exact hkeep w.state e hw.inv hobeyed.legit.1 hI (hC e he)
  exact hboth.mono fun w h => h.2

end Runs

/-! ### Concrete requests -/

/-- A request from its start to its end, none beside it. -/
def served (t : Request) (calls : ℕ) : List (Move Request ℕ) :=
  .start t :: List.replicate calls (.go 0 0) ++ [.settle 0]

def personally (sub : UserId) : Actor := ⟨sub, personalTenantId sub, .owner⟩

/-- The first caller creates a tenant, and the second accepts an invitation to it. -/
def twoMembers (role : String) : List (Move Request ℕ) :=
  served ⟨0, personally "a", .createTenant⟩ 1 ++
    served ⟨1, ⟨"a", .org 0, .owner⟩, .inviteMember (.org 0) "b@c.de" role⟩ 2 ++
    served ⟨2, personally "b", .acceptInvite (some "b@c.de") (.org 0)⟩ 2

def removal (uuid : ℕ) (actor target : UserId) : Request :=
  ⟨uuid, ⟨actor, .org 0, .owner⟩, .removeMember (.org 0) target⟩

end CatalogSentinel.Tenancy
