import CatalogSentinel.Tenancy.Histories

/-!
What becomes of a member whose role was changed or whose membership was removed. A
membership stays unique and a verdict on it stands, as long as each request finds what
it has read still there when it writes, no invitation is accepted by a member, and no
verdict on the same member came in between. An invitation to a member makes a second
membership, which outlives the removal of the first.
-/

namespace CatalogSentinel.Tenancy

open CatalogSentinel.Concurrent CatalogSentinel.Data

abbrev Pair := UserId × TenantId

/-- Whose membership a request is about. -/
def Request.pair? (t : Request) : Option Pair :=
  match t.call with
  | .acceptInvite _ tenantId => some (t.actor.sub, tenantId)
  | .changeRole tenantId targetUserId _ => some (targetUserId, tenantId)
  | .removeMember tenantId targetUserId => some (targetUserId, tenantId)
  | _ => none

/-- What a request that has succeeded with this event leaves of the membership: a role,
or none. -/
def Event.verdict? : Event → Option (Pair × Option UserRole)
  | .put t _ =>
    match t.call with
    | .changeRole tenantId targetUserId newRole =>
      (validRole newRole).map fun role => ((targetUserId, tenantId), some role)
    | _ => none
  | .removed t _ =>
    match t.call with
    | .removeMember tenantId targetUserId => some ((targetUserId, tenantId), none)
    | _ => none
  | .began .. => none

def Membership.isOf (p : Pair) (m : Membership) : Bool := m.isActiveFor p.1 p.2

/-- No pair has two active memberships. -/
def Unique (rows : List Membership) : Prop :=
  ∀ p, ∀ m ∈ rows, ∀ m' ∈ rows, m.isOf p → m'.isOf p → m = m'

/-- Whatever `getActive` answers for the pair has this role, or is no membership. -/
def Answers (rows : List Membership) (p : Pair) (role : Option UserRole) : Prop :=
  ∀ choice answer, oneOf (rows.filter fun m => m.isOf p) choice = some answer →
    answer.map Membership.role = role

/-- A request on the pair has begun and succeeded. -/
def Superseded (p : Pair) (later : List Event) : Prop :=
  ∃ t : Request, t.pair? = some p ∧ BeganIn t later ∧ ¬ Unwritten t later

/-- A verdict stands until a request on its pair that began after it succeeds. -/
def VerdictsStand (s : State) : Prop :=
  ∀ later e earlier p role, s.history = later ++ e :: earlier → e.verdict? = some (p, role) →
    ¬ Superseded p later → Answers s.rows p role

/-- What happened since the request began. -/
def sinceBegun (t : Request) (past : List Event) : List Event :=
  past.takeWhile fun e => e ≠ .began t true ∧ e ≠ .began t false

/-- The row that the request writes over is there, and is what the request has read. -/
def FindsRow (t : Request) (id : MembershipId) (p : Pair) (rows : List Membership) : Prop :=
  match t.call with
  | .acceptInvite .. => (∃ m ∈ rows, m.id = id ∧ m.status = .invited) ∧ ∀ m ∈ rows, ¬ m.isOf p
  | _ => ∃ m ∈ rows, m.id = id ∧ m.isOf p

def WritesInTime (t : Request) (id : MembershipId) (s : State) : Prop :=
  ∀ p ∈ t.pair?, FindsRow t id p s.rows ∧
    ∀ e ∈ sinceBegun t s.history, ∀ verdict ∈ e.verdict?, verdict.1 ≠ p

/-- A request on a pair writes over what it has read, accepts for who is no member, and
no verdict on the pair came since it began. Personal memberships are not ensured. -/
def InTime (s : State) : Event → Prop
  | .began t _ => t.call ≠ .ensurePersonalMembership
  | .put t m => WritesInTime t m.id s
  | .removed t id => WritesInTime t id s

instance (t : Request) (id : MembershipId) (p : Pair) (rows : List Membership) :
    Decidable (FindsRow t id p rows) := by
  unfold FindsRow
  split <;> infer_instance

instance (s : State) (e : Event) : Decidable (InTime s e) := by
  unfold InTime WritesInTime
  split <;> infer_instance

section

variable {rows rows' : List Membership} {p : Pair} {role : Option UserRole} {m : Membership}
  {t : Request} {e : Event} {past later earlier : List Event} {s : State}

theorem oneOf_mem (hm : m ∈ rows) : ∃ choice, oneOf rows choice = some (some m) := by
  obtain ⟨choice, hchoice⟩ := List.mem_iff_getElem?.1 hm
  refine ⟨choice, ?_⟩
  rw [oneOf, if_neg (List.ne_nil_of_mem hm), hchoice]
  rfl

theorem oneOf_none {choice : ℕ} (h : oneOf rows choice = some none) : rows = [] := by
  unfold oneOf at h
  split at h
  · assumption
  · obtain ⟨m, -, heq⟩ := Option.map_eq_some_iff.1 h
    cases heq

theorem answers_none : Answers rows p none ↔ ∀ m ∈ rows, ¬ m.isOf p := by
  constructor
  · intro h m hm hof
    obtain ⟨choice, hchoice⟩ := oneOf_mem (List.mem_filter.2 ⟨hm, hof⟩)
    have hnone := h choice (some m) hchoice
    cases hnone
  · intro h choice answer hanswer
    cases answer with
    | none => rfl
    | some m =>
      obtain ⟨hm, hof⟩ := List.mem_filter.1 (mem_of_oneOf hanswer m rfl)
      exact absurd hof (h m hm)

theorem answers_some {r : UserRole} :
    Answers rows p (some r) ↔ (∃ m ∈ rows, m.isOf p) ∧ ∀ m ∈ rows, m.isOf p → m.role = r := by
  constructor
  · intro h
    refine ⟨?_, fun m hm hof => ?_⟩
    · by_contra hnone
      push Not at hnone
      have hempty : rows.filter (fun m => m.isOf p) = [] :=
        List.filter_eq_nil_iff.2 fun m hm => hnone m hm
      have hanswer := h 0 none (by rw [hempty]; rfl)
      cases hanswer
    · obtain ⟨choice, hchoice⟩ := oneOf_mem (List.mem_filter.2 ⟨hm, hof⟩)
      exact Option.some.inj (h choice (some m) hchoice)
  · rintro ⟨⟨m, hm, hof⟩, hrole⟩ choice answer hanswer
    cases answer with
    | none =>
      have hmem : m ∈ rows.filter fun m => m.isOf p := List.mem_filter.2 ⟨hm, hof⟩
      rw [oneOf_none hanswer] at hmem
      cases hmem
    | some m' =>
      obtain ⟨hm', hof'⟩ := List.mem_filter.1 (mem_of_oneOf hanswer m' rfl)
      exact congrArg some (hrole m' hm' hof')

/-- The active memberships of the pair are the same. -/
def SameFor (p : Pair) (rows rows' : List Membership) : Prop :=
  ∀ m, m.isOf p → (m ∈ rows' ↔ m ∈ rows)

theorem SameFor.answers (h : SameFor p rows rows') (hrows : Answers rows p role) :
    Answers rows' p role := by
  cases role with
  | none =>
    rw [answers_none] at hrows ⊢
    exact fun m hm hof => hrows m ((h m hof).1 hm) hof
  | some r =>
    rw [answers_some] at hrows ⊢
    obtain ⟨⟨m, hm, hof⟩, hrole⟩ := hrows
    exact ⟨⟨m, (h m hof).2 hm, hof⟩, fun m hm hof => hrole m ((h m hof).1 hm) hof⟩

/-- A verdict that did not come since the request began came before it. -/
theorem beganIn_of_earlier (hverdict : e.verdict? = some (p, role))
    (hsince : ∀ e' ∈ sinceBegun t (later ++ e :: earlier), ∀ verdict ∈ e'.verdict?, verdict.1 ≠ p) :
    BeganIn t later := by
  by_contra hnot
  have hlater : ∀ e' ∈ later, decide (e' ≠ .began t true ∧ e' ≠ .began t false) = true := by
    intro e' he'
    refine decide_eq_true ⟨?_, ?_⟩
    · rintro rfl
      exact hnot ⟨true, he'⟩
    · rintro rfl
      exact hnot ⟨false, he'⟩
  have he : e ∈ sinceBegun t (later ++ e :: earlier) := by
    rw [sinceBegun, List.takeWhile_append_of_pos hlater, List.takeWhile_cons_of_pos]
    · exact List.mem_append_right later List.mem_cons_self
    · refine decide_eq_true ⟨?_, ?_⟩ <;>
      · rintro rfl
        cases hverdict
  exact hsince e he (p, role) hverdict rfl

theorem Superseded.cons (h : Superseded p later) (e : Event) : Superseded p (e :: later) := by
  obtain ⟨t, hpair, hbegan, hwritten⟩ := h
  have hext := Extends.cons e later
  exact ⟨t, hpair, hbegan.extend hext, fun h => hwritten
    ⟨fun m hm => h.1 m (hext.mem hm), fun id hid => h.2 id (hext.mem hid)⟩⟩

/-- What an event does to the active memberships of a pair: nothing, or they are the
first of a new tenant, or a request on the pair settles them. -/
inductive Effect (s : State) (e : Event) (p : Pair) : Prop
  | same (hsame : SameFor p s.rows (e.apply s.rows)) (hverdict : ∀ role, e.verdict? ≠ some (p, role))
  | created (hunique : ∀ m ∈ e.apply s.rows, ∀ m' ∈ e.apply s.rows, m.isOf p → m'.isOf p → m = m')
    (hverdict : ∀ e' ∈ e :: s.history, ∀ role, e'.verdict? ≠ some (p, role))
  | settled (hunique : ∀ m ∈ e.apply s.rows, ∀ m' ∈ e.apply s.rows, m.isOf p → m'.isOf p → m = m')
    (hpair : e.request.pair? = some p) (hwritten : ∀ past, ¬ Unwritten e.request (e :: past))
    (hsince : ∀ e' ∈ sinceBegun e.request s.history, ∀ verdict ∈ e'.verdict?, verdict.1 ≠ p)
    (hanswers : ∀ role, e.verdict? = some (p, role) → Answers (e.apply s.rows) p role)

theorem isOf_iff : m.isOf p ↔ m.status = .active ∧ m.userId = some p.1 ∧ m.tenantId = p.2 := by
  simp [Membership.isOf, Membership.isActiveFor]

theorem pair_eq {q : Pair} (hp : m.isOf p) (hq : m.isOf q) : p = q := by
  obtain ⟨-, hu, ht⟩ := isOf_iff.1 hp
  obtain ⟨-, hu', ht'⟩ := isOf_iff.1 hq
  exact Prod.ext (Option.some.inj (hu.symm.trans hu')) (ht.symm.trans ht')

/-- A row put over none of the pair, and not of the pair itself, leaves the pair alone. -/
theorem sameFor_put (hnodup : (rows.map Membership.id).Nodup) (hm : ¬ m.isOf p)
    (hover : ∀ m' ∈ rows, m'.id = m.id → ¬ m'.isOf p) : SameFor p rows (Data.put Membership.id m rows) := by
  intro m' hof
  rw [mem_put_iff hnodup]
  constructor
  · rintro (rfl | ⟨hmem, -⟩)
    · exact absurd hof hm
    · exact hmem
  · exact fun hmem => .inr ⟨hmem, fun hid => hover m' hmem hid hof⟩

/-- A row put over the only one of the pair is the only one. -/
theorem only_put (hnodup : (rows.map Membership.id).Nodup) (hover : ∀ m' ∈ rows, m'.isOf p → m'.id = m.id) :
    ∀ m' ∈ Data.put Membership.id m rows, m'.isOf p → m' = m := by
  intro m' hm' hof
  rcases (mem_put_iff hnodup).1 hm' with rfl | ⟨hmem, hne⟩
  · rfl
  · exact absurd (hover m' hmem hof) hne

theorem unique_of_only (h : ∀ m' ∈ rows, m'.isOf p → m' = m) :
    ∀ m ∈ rows, ∀ m' ∈ rows, m.isOf p → m'.isOf p → m = m' := by
  intro m₁ h₁ m₂ h₂ hof₁ hof₂
  rw [h m₁ h₁ hof₁, h m₂ h₂ hof₂]

/-- The tenant of a verdict was seen before it. -/
theorem drawn_of_verdict {uuid : ℕ} {userId : UserId} (hjust : Justified Legit past) (he : e ∈ past)
    (hverdict : e.verdict? = some ((userId, .org uuid), role)) : Drawn uuid past := by
  obtain ⟨before, hext, hlegit⟩ := hjust.of_mem he
  have hbefore := (Extends.cons e before).trans hext
  have hdrawn : ∀ target : Membership, Seen e.request before target →
      target.isActiveFor userId (.org uuid) → Drawn uuid past := by
    intro target hseen hactive
    obtain ⟨u, hu⟩ := hseen.put
    refine ((known_of_put (hjust.before hbefore) hu).org uuid ?_).extend hbefore
    exact tenantId_of_isActiveFor hactive
  cases e with
  | began t held => cases hverdict
  | put t m =>
    have hputs := hlegit.2.2
    simp only [Event.verdict?] at hverdict
    split at hverdict
    · rename_i tenantId targetUserId newRole hcall
      obtain ⟨r, -, heq⟩ := Option.map_eq_some_iff.1 hverdict
      obtain ⟨rfl, rfl⟩ := Prod.mk.inj (Prod.mk.inj heq).1
      rw [Puts, hcall] at hputs
      obtain ⟨-, target, -, -, hseen, hactive, -⟩ := hputs
      exact hdrawn target hseen hactive
    · cases hverdict
  | removed t id =>
    have hremoves := hlegit.2.2
    simp only [Event.verdict?] at hverdict
    split at hverdict
    · rename_i tenantId targetUserId hcall
      obtain ⟨rfl, rfl⟩ := Prod.mk.inj (Prod.mk.inj (Option.some.inj hverdict)).1
      rw [Removes, hcall] at hremoves
      obtain ⟨-, -, target, hseen, hactive, -⟩ := hremoves
      exact hdrawn target hseen hactive
    · cases hverdict

theorem not_unwritten_put (t : Request) (m : Membership) (past : List Event) :
    ¬ Unwritten t (.put t m :: past) := fun h => h.1 m List.mem_cons_self

theorem not_unwritten_removed (t : Request) (id : MembershipId) (past : List Event) :
    ¬ Unwritten t (.removed t id :: past) := fun h => h.2 id List.mem_cons_self

/-- A tenant that is created has no rows and no verdicts before. -/
theorem effect_createTenant (hs : Obeyed s) (hlegit : Legit (.put t m) s.history)
    (hcall : t.call = .createTenant) (p : Pair) : Effect s (.put t m) p := by
  obtain ⟨hbegan, hunwritten, hputs⟩ := hlegit
  have hundrawn := hunwritten.not_drawn hs.legit hbegan
  rw [Puts, hcall] at hputs
  have hnodup : (s.rows.map Membership.id).Nodup := hs.rows ▸ nodup_replay s.history
  have hknown : ∀ m' ∈ s.rows, Known s.history m' := fun m' hm' =>
    known_of_mem hs.legit (hs.rows ▸ hm')
  have hverdict : ∀ role, (Event.put t m).verdict? ≠ some (p, role) := by
    intro role heq
    simp only [Event.verdict?, hcall] at heq
    cases heq
  by_cases hp : p.2 = .org t.uuid
  · refine .created (unique_of_only (only_put hnodup fun m' hm' hof => ?_)) fun e he role => ?_
    · have htenant := (isOf_iff.1 hof).2.2
      exact absurd ((hknown m' hm').org _ (htenant.trans hp)) hundrawn
    · rcases List.mem_cons.1 he with rfl | he
      · exact hverdict role
      · intro heq
        obtain ⟨userId, tenantId⟩ := p
        obtain rfl : tenantId = .org t.uuid := hp
        exact hundrawn (drawn_of_verdict hs.legit he heq)
  · refine .same (sameFor_put hnodup (fun hof => hp ?_) fun m' hm' hid hof => ?_) hverdict
    · rw [hputs] at hof
      exact (isOf_iff.1 hof).2.2.symm
    · rw [hputs] at hid
      exact hundrawn ((hknown m' hm').org _ ((hknown m' hm').stable _ _ hid))

theorem effect_inviteMember (hs : Obeyed s) (hlegit : Legit (.put t m) s.history)
    {tenantId : TenantId} {email role : String} (hcall : t.call = .inviteMember tenantId email role)
    (p : Pair) : Effect s (.put t m) p := by
  obtain ⟨hbegan, hunwritten, hputs⟩ := hlegit
  have hundrawn := hunwritten.not_drawn hs.legit hbegan
  rw [Puts, hcall] at hputs
  obtain ⟨role, email, -, -, rfl⟩ := hputs
  refine .same (sameFor_put (hs.rows ▸ nodup_replay s.history) (fun hof => ?_)
    fun m' hm' hid hof => ?_) fun role heq => ?_
  · have hactive := (isOf_iff.1 hof).1
    cases hactive
  · exact hundrawn ((known_of_mem hs.legit (hs.rows ▸ hm')).drawn hid)
  · simp only [Event.verdict?, hcall] at heq
    cases heq

/-- A row put for the pair of its request, over a row of no other pair, is the pair's only one. -/
theorem effect_put (hs : Obeyed s) {q : Pair} (hpair : t.pair? = some q) (hm : m.isOf q)
    (hover : ∀ m' ∈ s.rows, m'.id = m.id → ∀ q', m'.isOf q' → q' = q)
    (honly : ∀ m' ∈ s.rows, m'.isOf q → m'.id = m.id)
    (hsince : ∀ e' ∈ sinceBegun t s.history, ∀ verdict ∈ e'.verdict?, verdict.1 ≠ q)
    (hverdict : ∀ p role, (Event.put t m).verdict? = some (p, role) → p = q ∧ role = some m.role)
    (p : Pair) : Effect s (.put t m) p := by
  have hnodup : (s.rows.map Membership.id).Nodup := hs.rows ▸ nodup_replay s.history
  by_cases hp : p = q
  · subst hp
    have hput := only_put hnodup honly
    refine .settled (unique_of_only hput) hpair (not_unwritten_put t m) hsince fun role heq => ?_
    rw [(hverdict p role heq).2]
    refine answers_some.2 ⟨⟨m, (mem_put_iff hnodup).2 (.inl rfl), hm⟩, fun m' hm' hof => ?_⟩
    rw [hput m' hm' hof]
  · refine .same (sameFor_put hnodup (fun hof => hp (pair_eq hof hm)) fun m' hm' hid hof => ?_)
      fun role heq => hp (hverdict p role heq).1
    exact hp (hover m' hm' hid p hof)

theorem effect_acceptInvite (hs : Obeyed s) (hlegit : Legit (.put t m) s.history)
    {verifiedEmail : Option String} {tenantId : TenantId}
    (hcall : t.call = .acceptInvite verifiedEmail tenantId) (htime : WritesInTime t m.id s)
    (p : Pair) : Effect s (.put t m) p := by
  have hpair : t.pair? = some (t.actor.sub, tenantId) := by rw [Request.pair?, hcall]
  obtain ⟨hfinds, hsince⟩ := htime _ hpair
  rw [FindsRow, hcall] at hfinds
  obtain ⟨⟨pending, hpending, hid, hinvited⟩, hnone⟩ := hfinds
  obtain ⟨-, -, hputs⟩ := hlegit
  rw [Puts, hcall] at hputs
  obtain ⟨invite, -, -, htenant, rfl⟩ := hputs
  refine effect_put hs hpair ?_ (fun m' hm' hid' q hof => ?_)
    (fun m' hm' hof => absurd hof (hnone m' hm')) hsince (fun p role heq => ?_) p
  · exact isOf_iff.2 ⟨rfl, rfl, htenant⟩
  · rw [hs.rows] at hm' hpending
    obtain rfl := eq_of_id hm' hpending (hid'.trans hid.symm)
    have hactive := (isOf_iff.1 hof).1
    rw [hinvited] at hactive
    cases hactive
  · simp only [Event.verdict?, hcall] at heq
    cases heq

theorem effect_changeRole (hs : Obeyed s) (hlegit : Legit (.put t m) s.history)
    (hunique : Unique s.rows) {tenantId : TenantId} {targetUserId : UserId} {newRole : String}
    (hcall : t.call = .changeRole tenantId targetUserId newRole) (htime : WritesInTime t m.id s)
    (p : Pair) : Effect s (.put t m) p := by
  have hpair : t.pair? = some (targetUserId, tenantId) := by rw [Request.pair?, hcall]
  obtain ⟨hfinds, hsince⟩ := htime _ hpair
  rw [FindsRow, hcall] at hfinds
  obtain ⟨current, hcurrent, hid, hof⟩ := hfinds
  obtain ⟨-, -, hputs⟩ := hlegit
  rw [Puts, hcall] at hputs
  obtain ⟨role, target, hrole, -, -, hactive, -, rfl⟩ := hputs
  obtain ⟨hstatus, huser, htenant⟩ := (isOf_iff (p := (targetUserId, tenantId))).1 hactive
  refine effect_put hs hpair ?_ (fun m' hm' hid' q hof' => ?_)
    (fun m' hm' hof' => ?_) hsince (fun p role' heq => ?_) p
  · exact isOf_iff.2 ⟨hstatus, huser, htenant⟩
  · have hsame : m' = current := by
      rw [hs.rows] at hm' hcurrent
      exact eq_of_id hm' hcurrent (hid'.trans hid.symm)
    exact pair_eq hof' (hsame ▸ hof)
  · rw [hunique _ m' hm' current hcurrent hof' hof]
    exact hid
  · simp only [Event.verdict?, hcall, hrole, Option.map_some, Option.some.injEq, Prod.mk.injEq] at heq
    exact ⟨heq.1.symm, heq.2.symm⟩

theorem effect_removeMember (hs : Obeyed s) (hunique : Unique s.rows) {id : MembershipId}
    {tenantId : TenantId} {targetUserId : UserId} (hcall : t.call = .removeMember tenantId targetUserId)
    (htime : WritesInTime t id s) (p : Pair) : Effect s (.removed t id) p := by
  have hpair : t.pair? = some (targetUserId, tenantId) := by rw [Request.pair?, hcall]
  obtain ⟨hfinds, hsince⟩ := htime _ hpair
  rw [FindsRow, hcall] at hfinds
  obtain ⟨current, hcurrent, hid, hof⟩ := hfinds
  have hgone : ∀ m' ∈ (Event.removed t id).apply s.rows, ¬ m'.isOf (targetUserId, tenantId) := by
    intro m' hm' hof'
    obtain ⟨hmem, hne⟩ := List.mem_filter.1 hm'
    rw [hunique _ m' hmem current hcurrent hof' hof] at hne
    exact of_decide_eq_true hne hid
  by_cases hp : p = (targetUserId, tenantId)
  · subst hp
    refine .settled (fun m hm m' hm' hof' => absurd hof' (hgone m hm)) hpair
      (not_unwritten_removed t id) hsince fun role heq => ?_
    simp only [Event.verdict?, hcall, Option.some.injEq, Prod.mk.injEq] at heq
    rw [← heq.2]
    exact answers_none.2 hgone
  · refine .same (fun m' hof' => ?_) fun role heq => ?_
    · show m' ∈ s.rows.filter _ ↔ m' ∈ s.rows
      rw [List.mem_filter, and_iff_left_of_imp fun hm' => ?_]
      refine decide_eq_true fun hid' => hp (pair_eq hof' ?_)
      have hsame : m' = current := by
        rw [hs.rows] at hm' hcurrent
        exact eq_of_id hm' hcurrent (hid'.trans hid.symm)
      exact hsame ▸ hof
    · simp only [Event.verdict?, hcall, Option.some.injEq, Prod.mk.injEq] at heq
      exact hp heq.1.symm

/-- Unique memberships whose verdicts stand, and no personal membership ensured. -/
structure Stands (s : State) : Prop where
  unique : Unique s.rows
  verdicts : VerdictsStand s
  ensured : ∀ t, BeganIn t s.history → t.call ≠ .ensurePersonalMembership

theorem effect_of_event (hs : Obeyed s) (hlegit : Legit e s.history) (hstands : Stands s)
    (htime : InTime s e) (p : Pair) : Effect s e p := by
  cases e with
  | began t held => exact .same (fun m _ => Iff.rfl) (fun role heq => by cases heq)
  | put t m =>
    cases hcall : t.call with
    | createTenant => exact effect_createTenant hs hlegit hcall p
    | ensurePersonalMembership => exact absurd hcall (hstands.ensured t hlegit.1)
    | inviteMember tenantId email role => exact effect_inviteMember hs hlegit hcall p
    | acceptInvite verifiedEmail tenantId => exact effect_acceptInvite hs hlegit hcall htime p
    | changeRole tenantId targetUserId newRole =>
      exact effect_changeRole hs hlegit hstands.unique hcall htime p
    | removeMember tenantId targetUserId =>
      have hputs := hlegit.2.2
      rw [Puts, hcall] at hputs
      cases hputs
  | removed t id =>
    have hremoves := hlegit.2.2
    cases hcall : t.call with
    | removeMember tenantId targetUserId => exact effect_removeMember hs hstands.unique hcall htime p
    | _ =>
      rw [Removes, hcall] at hremoves
      cases hremoves

/-- The last event of a history, or an event before it. -/
theorem split_cons {past : List Event} {e' : Event} (h : e :: past = later ++ e' :: earlier) :
    later = [] ∧ e' = e ∧ earlier = past ∨ ∃ rest, later = e :: rest ∧ past = rest ++ e' :: earlier := by
  cases later with
  | nil =>
    obtain ⟨rfl, rfl⟩ := List.cons.inj h
    exact .inl ⟨rfl, rfl, rfl⟩
  | cons x rest =>
    obtain ⟨rfl, hrest⟩ := List.cons.inj h
    exact .inr ⟨rest, rfl, hrest⟩

theorem Stands.after (hs : Obeyed s) (hlegit : Legit e s.history) (hstands : Stands s)
    (htime : InTime s e) : Stands (s.after e) := by
  have heffect := effect_of_event hs hlegit hstands htime
  refine ⟨fun p => ?_, fun later e' earlier p role hsplit hverdict hnot => ?_, fun t hbegan => ?_⟩
  · cases heffect p with
    | same hsame hverdict =>
      intro m hm m' hm' hof hof'
      exact hstands.unique p m ((hsame m hof).1 hm) m' ((hsame m' hof').1 hm') hof hof'
    | created hunique hverdict => exact hunique
    | settled hunique hpair hwritten hsince hanswers => exact hunique
  · rcases split_cons hsplit with ⟨rfl, rfl, rfl⟩ | ⟨rest, rfl, hpast⟩
    · cases heffect p with
      | same hsame hnone => exact absurd hverdict (hnone role)
      | created hunique hnone => exact absurd hverdict (hnone _ List.mem_cons_self role)
      | settled hunique hpair hwritten hsince hanswers => exact hanswers role hverdict
    · cases heffect p with
      | same hsame hnone =>
        exact hsame.answers (hstands.verdicts rest e' earlier p role hpast hverdict fun h => hnot (h.cons e))
      | created hunique hnone =>
        refine absurd hverdict (hnone e' (List.mem_cons_of_mem _ ?_) role)
        rw [hpast]
        exact List.mem_append_right rest List.mem_cons_self
      | settled hunique hpair hwritten hsince hanswers =>
        -- the request began after the verdict, and now it has succeeded
        rw [hpast] at hsince
        have hlater := beganIn_of_earlier hverdict hsince
        exact absurd ⟨e.request, hpair, hlater.extend (Extends.cons e rest), hwritten rest⟩ hnot
  · obtain ⟨held, hmem⟩ := hbegan
    rcases List.mem_cons.1 hmem with rfl | hmem
    · exact htime
    · exact hstands.ensured t ⟨held, hmem⟩

end

/-- Memberships stay unique and verdicts stand in a run of requests that write in time. -/
theorem verdicts_stand_throughout (toLowerCase : String → String) {ms : List (Move Request ℕ)}
    (hms : Steps.Along (tenancy toLowerCase).step (Meets InTime) fresh ms) :
    Steps.Throughout (tenancy toLowerCase).step
      (fun w => Unique w.state.rows ∧ VerdictsStand w.state) fresh ms := by
  have hstands : Steps.Throughout (tenancy toLowerCase).step (fun w => Stands w.state) fresh ms := by
    refine throughout_of_events ⟨?_, ?_, ?_⟩ (fun s e hs hlegit hI hC => Stands.after hs hlegit hI hC) hms
    · exact fun p m hm => by cases hm
    · intro later e earlier p role h
      have hne : later ++ e :: earlier ≠ [] := by simp
      exact absurd h.symm hne
    · rintro t ⟨held, hmem⟩
      cases hmem
  exact hstands.mono fun w h => ⟨h.unique, h.verdicts⟩

/-! ### A member who is invited again -/

def demotion (uuid : ℕ) : Request := ⟨uuid, ⟨"a", .org 0, .owner⟩, .changeRole (.org 0) "b" "viewer"⟩

def oneAfterTheOther : List (Move Request ℕ) :=
  twoMembers "manager" ++ served (demotion 3) 2 ++ served (removal 4 "a" "b") 2

theorem verdicts_stand_oneAfterTheOther :
    (Steps.run (tenancy id).step fresh oneAfterTheOther).isSome ∧
      Steps.Throughout (tenancy id).step (fun w => Unique w.state.rows ∧ VerdictsStand w.state) fresh
        oneAfterTheOther :=
  ⟨by decide +kernel, verdicts_stand_throughout id (by decide +kernel)⟩

/-- A member accepts a second invitation, and is then removed. -/
def invitedAgain : List (Move Request ℕ) :=
  twoMembers "manager" ++
    served ⟨3, ⟨"a", .org 0, .owner⟩, .inviteMember (.org 0) "b@c.de" "viewer"⟩ 2 ++
    served ⟨4, personally "b", .acceptInvite (some "b@c.de") (.org 0)⟩ 2 ++ served (removal 5 "a" "b") 2

theorem verdict_outlived :
    ¬ Steps.Throughout (tenancy id).step (fun w => Unique w.state.rows ∧ VerdictsStand w.state) fresh
      invitedAgain ∧
    ∃ w ∈ Steps.run (tenancy id).step fresh invitedAgain,
      w.state.history.head? = some (.removed (removal 5 "a" "b") (.mbr 1)) ∧
        ∃ m ∈ w.state.rows, m.isOf ("b", .org 0) := by
  have hrun : ∃ w ∈ Steps.run (tenancy id).step fresh invitedAgain,
      w.state.history.head? = some (.removed (removal 5 "a" "b") (.mbr 1)) ∧
        ∃ m ∈ w.state.rows, m.isOf ("b", .org 0) := by decide +kernel
  refine ⟨fun h => ?_, hrun⟩
  obtain ⟨w, hw, hhead, m, hm, hof⟩ := hrun
  obtain ⟨earlier, hsplit⟩ := List.head?_eq_some_iff.1 hhead
  have hstand := (h.last hw).2 [] _ earlier ("b", .org 0) none hsplit rfl fun hsuperseded => by
    obtain ⟨t, -, ⟨held, hmem⟩, -⟩ := hsuperseded
    cases hmem
  exact answers_none.1 hstand m hm hof

end CatalogSentinel.Tenancy
