import CatalogSentinel.Link.RevocationOutbox

/-!
What the outbox of revocations keeps over any calls of any workers. Both repositories
only ever lease work that is not finished under a token that is new, and settle work for
who has its token, so that the board of leases speaks for them.
-/

namespace CatalogSentinel.Link

open CatalogSentinel.Checkpoint CatalogSentinel.Concurrent.Leases CatalogSentinel.Data

variable {τ : Type} (repo : DistributorLinkRepository τ)

/-- The call that settles the intent carries this token for it. -/
def Call.Carries (intentId token : ℕ) : Call → Prop
  | .complete i t .. => i = intentId ∧ t = token
  | .retry i t .. => i = intentId ∧ t = token
  | _ => False

/-- The store answers `true` to a call that carries the token. -/
def Accepts (s : State τ) (intentId token : ℕ) : Prop :=
  (∃ completedAt moment,
    (repo.completeConsentRevocationIntent s intentId token completedAt moment).2 = true) ∨
  ∃ retryAfterMs lastError moment,
    (repo.retryConsentRevocationIntent s intentId token retryAfterMs lastError moment).2 = true

/-- The token is not the one that is stored for the intent. -/
def Stale (s : State τ) (intentId token : ℕ) : Prop :=
  ∀ intent ∈ s.intents, intent.id = intentId → intent.leaseToken ≠ some token

/-- A consent has one intent, a stale token changes nothing, and one worker at most has the
token of an intent. -/
structure Safe (s : State τ) : Prop where
  one_intent : ∀ i ∈ s.intents, ∀ j ∈ s.intents, i.consentId = j.consentId → i = j
  stale : ∀ intentId token, Stale s intentId token →
    ∀ call : Call, call.Carries intentId token → step repo s call = s
  one_holder : ∀ l ∈ s.held, ∀ l' ∈ s.held, l.work = l'.work →
    Accepts repo s l.work l.token → Accepts repo s l'.work l'.token → l.worker = l'.worker

/-- What is revoked stays revoked as it was, and what is completed stays completed as it
was and is claimed no more. -/
structure Lasts (s t : State τ) : Prop where
  revoked : ∀ id consent at', s.getConsent id = some consent → consent.revokedAt = some at' →
    at' ≠ "" → ∃ later, t.getConsent id = some later ∧ later.revokedAt = some at'
  completed : ∀ id intent at', s.getIntent id = some intent → intent.completedAt = some at' →
    repo.isSet at' = true → (∃ later, t.getIntent id = some later ∧ later.completedAt = some at') ∧
      ∀ l ∈ t.held, l.work = id → l ∈ s.held

structure State.WellFormed (s : State τ) : Prop where
  nodup : (s.intents.map ConsentRevocationIntent.id).Nodup
  used : ∀ intent ∈ s.intents, intent.id < s.fresh
  tenant : ∀ intent ∈ s.intents, ∃ consent, s.getConsent intent.consentId = some consent ∧
    consent.tenantId = intent.tenantId

/-- An intent as work: about its consent, and finished when its completion counts as set. -/
def workOf (intent : ConsentRevocationIntent τ) : Work (String × String) τ :=
  ⟨(intent.tenantId, intent.consentId), intent.leaseToken, intent.completedAt.filter repo.isSet⟩

def board (s : State τ) : Board (String × String) τ String where
  work id := (s.getIntent id).map (workOf repo)
  fresh := s.fresh
  held := s.held

/-- No consent is lost, changes its tenant or its revocation. -/
def ConsentsKept (s t : State τ) : Prop :=
  ∀ id consent, s.getConsent id = some consent → ∃ later, t.getConsent id = some later ∧
    later.tenantId = consent.tenantId ∧
      ∀ at', consent.revokedAt = some at' → at' ≠ "" → later.revokedAt = some at'

/-- What the calls do, as the board of leases has it. -/
structure Refines (s t : State τ) : Prop where
  wellFormed : t.WellFormed
  consents : ConsentsKept s t
  steps : Steps (board repo s) (board repo t)

/-- A repository whose calls refine the board, and ignore tokens that are not stored. -/
structure Lawful : Prop where
  refines : ∀ s call, s.WellFormed → Refines repo s (step repo s call)
  complete_stale : ∀ s intentId token completedAt moment, Stale s intentId token →
    repo.completeConsentRevocationIntent s intentId token completedAt moment = (s, false)
  retry_stale : ∀ s intentId token retryAfterMs lastError moment, Stale s intentId token →
    repo.retryConsentRevocationIntent s intentId token retryAfterMs lastError moment = (s, false)

variable {repo} {s t u : State τ}

theorem ConsentsKept.refl (s : State τ) : ConsentsKept s s :=
  fun _ consent h => ⟨consent, h, rfl, fun _ h _ => h⟩

theorem ConsentsKept.trans (hst : ConsentsKept s t) (htu : ConsentsKept t u) : ConsentsKept s u := by
  intro id consent h
  obtain ⟨c, hc, htenant, hrevoked⟩ := hst id consent h
  obtain ⟨d, hd, htenant', hrevoked'⟩ := htu id c hc
  exact ⟨d, hd, htenant'.trans htenant, fun at' h hne => hrevoked' at' (hrevoked at' h hne) hne⟩

theorem Refines.refl (hs : s.WellFormed) : Refines repo s s :=
  ⟨hs, .refl s, .refl⟩

theorem Refines.trans (hst : Refines repo s t) (htu : Refines repo t u) : Refines repo s u :=
  ⟨htu.wellFormed, hst.consents.trans htu.consents, hst.steps.trans htu.steps⟩

theorem State.WellFormed.getIntent (hs : s.WellFormed) {i : ConsentRevocationIntent τ}
    (hi : i ∈ s.intents) : s.getIntent i.id = some i := get?_of_mem hs.nodup hi

/-- An intent that is there is written over in its place. -/
theorem State.WellFormed.put_over (hs : s.WellFormed) {i j : ConsentRevocationIntent τ}
    (hi : i ∈ s.intents) (hj : j.id = i.id) : put ConsentRevocationIntent.id j s.intents =
      s.intents.map fun k => if k.id = i.id then j else k := by
  rw [put_eq_map hs.nodup (hj ▸ List.mem_map_of_mem hi), hj]

/-- A random id that is used up is nothing to anyone. -/
theorem refines_spent (hs : s.WellFormed) : Refines repo s { s with fresh := s.fresh + 1 } := by
  refine ⟨⟨hs.nodup, fun i hi => ?_, hs.tenant⟩, .refl s, ?_⟩
  · have hused := hs.used i hi
    exact Nat.lt_succ_of_lt hused
  · exact .single (.same ⟨rfl, Nat.le_succ _, rfl⟩)

/-- A consent is written over by one of the same tenant that is revoked when it was. -/
theorem refines_revised (hs : s.WellFormed) (revised : LinkConsent) {consent : LinkConsent}
    (h : s.getConsent revised.id = some consent) (htenant : revised.tenantId = consent.tenantId)
    (hrevoked : ∀ at', consent.revokedAt = some at' → at' ≠ "" → revised.revokedAt = some at') :
    Refines repo s { s with consents := put LinkConsent.id revised s.consents } := by
  have hkept : ConsentsKept s { s with consents := put LinkConsent.id revised s.consents } := by
    intro id c hc
    by_cases hid : revised.id = id
    · subst hid
      obtain rfl := Option.some.inj (h.symm.trans hc)
      exact ⟨revised, get?_put_self revised s.consents, htenant, hrevoked⟩
    · exact ⟨c, (get?_put_of_ne hid s.consents).trans hc, rfl, fun _ h _ => h⟩
  refine ⟨⟨hs.nodup, hs.used, fun i hi => ?_⟩, hkept, .refl⟩
  obtain ⟨c, hc, hci⟩ := hs.tenant i hi
  obtain ⟨c', hc', hcc', -⟩ := hkept _ c hc
  exact ⟨c', hc', hcc'.trans hci⟩

/-- The intent of a consent that has none. -/
theorem refines_created (hs : s.WellFormed) {tenantId consentId : String} (now : τ)
    (h : ∃ consent, s.getConsent consentId = some consent ∧ consent.tenantId = tenantId)
    (hnone : ∀ i ∈ s.intents, LinkConsent.isOf i tenantId consentId = false) :
    Refines repo s { s with
      intents := put ConsentRevocationIntent.id (newIntent s.fresh tenantId consentId now) s.intents
      fresh := s.fresh + 1 } := by
  have hunused : s.getIntent s.fresh = none := by
    rw [get?_eq_none]
    rintro hmem
    obtain ⟨i, hi, hid⟩ := List.mem_map.1 hmem
    have hused := hs.used i hi
    omega
  refine ⟨⟨nodup_put hs.nodup, fun i hi => ?_, fun i hi => ?_⟩, .refl s, .single ?_⟩
  · rcases mem_put hi with rfl | hi
    · exact Nat.lt_succ_self _
    · have hused := hs.used i hi
      exact Nat.lt_succ_of_lt hused
  · rcases mem_put hi with rfl | hi
    · exact h
    · exact hs.tenant i hi
  · refine .opened s.fresh (tenantId, consentId) ?_ ?_ ⟨?_, fun j hj => ?_, Nat.le_succ _, rfl⟩
    · simp only [board, hunused, Option.map_none]
    · intro j x hx habout
      obtain ⟨i, hi, rfl⟩ := Option.map_eq_some_iff.1 hx
      have hof := hnone i (mem_of_get? hi)
      simp only [workOf, Prod.mk.injEq] at habout
      simp only [LinkConsent.isOf, habout, decide_true, Bool.and_self] at hof
      cases hof
    · have hget : get? ConsentRevocationIntent.id s.fresh _ = _ :=
        get?_put_self (newIntent s.fresh tenantId consentId now) s.intents
      exact congrArg (Option.map (workOf repo)) hget
    · have hne : (newIntent s.fresh tenantId consentId now).id ≠ j := Ne.symm hj
      exact congrArg (Option.map (workOf repo)) (get?_put_of_ne hne s.intents)

section

variable {g : ConsentRevocationIntent τ → ConsentRevocationIntent τ} {n : ℕ}
  {held : List (Lease String)}

theorem board_map (hid : ∀ i, (g i).id = i.id) (id : ℕ) :
    (board repo { s with intents := s.intents.map g, fresh := n, held := held }).work id =
      (s.getIntent id).map fun i => workOf repo (g i) := by
  simp only [board, get?_map hid, Option.map_map, Function.comp_def]

/-- Intents are changed, and stay the intents of their consents. -/
theorem refines_map (hs : s.WellFormed) (hid : ∀ i, (g i).id = i.id)
    (habout : ∀ i ∈ s.intents, (workOf repo (g i)).about = (workOf repo i).about)
    (hn : s.fresh ≤ n)
    (hstep : Step (board repo s)
      (board repo { s with intents := s.intents.map g, fresh := n, held := held })) :
    Refines repo s { s with intents := s.intents.map g, fresh := n, held := held } := by
  refine ⟨⟨?_, fun i hi => ?_, fun i hi => ?_⟩, .refl s, .single hstep⟩
  · have hmap : (s.intents.map g).map ConsentRevocationIntent.id =
        s.intents.map ConsentRevocationIntent.id := by
      simp only [List.map_map, Function.comp_def, hid]
    rw [hmap]
    exact hs.nodup
  · obtain ⟨j, hj, rfl⟩ := List.mem_map.1 hi
    have hused := hs.used j hj
    rw [hid]
    exact Nat.lt_of_lt_of_le hused hn
  · obtain ⟨j, hj, rfl⟩ := List.mem_map.1 hi
    obtain ⟨consent, hconsent, htenant⟩ := hs.tenant j hj
    have hsame := habout j hj
    simp only [workOf, Prod.mk.injEq] at hsame
    exact ⟨consent, by rw [hsame.2]; exact hconsent, by rw [hsame.1]; exact htenant⟩

/-- What is not seen on the board may change. -/
theorem refines_unseen (hs : s.WellFormed) (hid : ∀ i, (g i).id = i.id)
    (hsame : ∀ i ∈ s.intents, workOf repo (g i) = workOf repo i) :
    Refines repo s { s with intents := s.intents.map g } := by
  refine refines_map hs hid (fun i hi => by rw [hsame i hi]) (le_refl _) (.same ⟨?_, le_refl _, rfl⟩)
  funext id
  rw [board_map hid]
  exact Option.map_congr fun i hi => hsame i (mem_of_get? hi)

/-- The intent is completed or put off: its token opens nothing any more. -/
theorem refines_settled (hs : s.WellFormed) {i : ConsentRevocationIntent τ} {d : Option τ}
    (hi : i ∈ s.intents) (hopen : i.completedAt.filter repo.isSet = none)
    (hid : ∀ j, (g j).id = j.id) (hothers : ∀ j, j.id ≠ i.id → g j = j)
    (hself : workOf repo (g i) = { workOf repo i with token := none, done := d }) :
    Refines repo s { s with intents := s.intents.map g } := by
  have hget := hs.getIntent hi
  refine refines_map hs hid (fun j hj => ?_) (le_refl _)
    (.settled i.id (workOf repo i) d (congrArg (Option.map (workOf repo)) hget) hopen ⟨?_, ?_, le_refl _, rfl⟩)
  · by_cases hji : j.id = i.id
    · have hjget := hs.getIntent hj
      rw [hji] at hjget
      obtain rfl := Option.some.inj (hget.symm.trans hjget)
      rw [hself]
    · rw [hothers j hji]
  · rw [board_map hid, hget, Option.map_some, hself]
  · intro j hj
    rw [board_map hid]
    refine Option.map_congr fun x hx => ?_
    rw [hothers x (fun h => hj ((key_of_get? hx).symm.trans h))]

/-- The intents with these ids are leased under one new token. -/
theorem refines_leased (hs : s.WellFormed) (worker : String) (P : ℕ → Prop)
    (hid : ∀ i, (g i).id = i.id) (hpresent : ∀ id, P id → ∃ i ∈ s.intents, i.id = id)
    (hleased : ∀ i ∈ s.intents, P i.id → i.completedAt.filter repo.isSet = none ∧
      workOf repo (g i) = { workOf repo i with token := some s.fresh })
    (hothers : ∀ i ∈ s.intents, ¬ P i.id → g i = i)
    (hheld : ∀ l, l ∈ held ↔ l ∈ s.held ∨ (l.worker = worker ∧ l.token = s.fresh ∧ P l.work)) :
    Refines repo s { s with intents := s.intents.map g, fresh := s.fresh + 1, held := held } := by
  refine refines_map hs hid (fun i hi => ?_) (Nat.le_succ _)
    (.leased worker P ⟨fun id hP => ?_, fun id hP => ?_, Nat.lt_succ_self _, hheld⟩)
  · by_cases hP : P i.id
    · rw [(hleased i hi hP).2]
    · rw [hothers i hi hP]
  · obtain ⟨i, hi, rfl⟩ := hpresent id hP
    have hget := hs.getIntent hi
    obtain ⟨hopen, hself⟩ := hleased i hi hP
    refine ⟨workOf repo i, congrArg (Option.map (workOf repo)) hget, hopen, ?_⟩
    rw [board_map hid, hget, Option.map_some, hself]
    rfl
  · rw [board_map hid]
    refine Option.map_congr fun i hi => ?_
    rw [hothers i (mem_of_get? hi) (key_of_get? hi ▸ hP)]

end

theorem tenantConsent_some {tenantId consentId : String} {consent : LinkConsent}
    (h : s.tenantConsent tenantId consentId = some consent) :
    s.getConsent consentId = some consent ∧ consent.id = consentId ∧ consent.tenantId = tenantId := by
  obtain ⟨hget, htenant⟩ := Option.filter_eq_some_iff.1 h
  exact ⟨hget, key_of_get? hget, of_decide_eq_true htenant⟩

namespace InMemory

variable {P : Platform} {localeCompare : ℕ → ℕ → Bool} {s : State String}

theorem refines_revoke (hs : s.WellFormed) (tenantId consentId revokedAt : String)
    (actor : ConsentRevocationActor) (moment : ℚ) :
    Refines (repository P localeCompare) s
      (revokeConsentAndCreateIntent s tenantId consentId revokedAt actor moment) := by
  unfold revokeConsentAndCreateIntent
  split
  · exact .refl hs
  · rename_i consent hconsent
    obtain ⟨hget, rfl, rfl⟩ := tenantConsent_some hconsent
    split
    · exact .refl hs
    · dsimp only
      have hrevised : Refines (repository P localeCompare) s _ := refines_revised hs
        { consent with revokedAt := consent.revokedAt <|> some revokedAt } hget rfl
        (fun at' h _ => by simp [h])
      split
      · exact hrevised
      · rename_i hnone
        have hnot : ∀ i ∈ s.intents, LinkConsent.isOf i consent.tenantId consent.id = false :=
          fun i hi => by simpa using List.find?_eq_none.1 hnone i hi
        obtain ⟨later, hlater, htenant, -⟩ := hrevised.consents _ _ hget
        exact hrevised.trans
          (refines_created hrevised.wellFormed revokedAt ⟨later, hlater, htenant⟩ hnot)

theorem refines_lease (hs : s.WellFormed) {i : ConsentRevocationIntent String} (hi : i ∈ s.intents)
    {worker : String} {options : ClaimConsentRevocationOptions} {nowMs : ℤ}
    (hopen : i.completedAt.filter truthy = none) :
    Refines (repository P localeCompare) s (lease P worker options nowMs s i) := by
  unfold lease
  dsimp only
  rw [hs.put_over hi (by exact rfl)]
  refine refines_leased hs worker (fun id => id = i.id) (fun j => ?_) (fun id h => ⟨i, hi, h.symm⟩)
    (fun j hj h => ?_) (fun j hj h => if_neg h) (fun l => ?_)
  · split
    · rename_i h
      exact h.symm
    · rfl
  · have hjget := hs.getIntent hj
    rw [h, hs.getIntent hi] at hjget
    obtain rfl := Option.some.inj hjget
    exact ⟨hopen, by rw [if_pos rfl]; rfl⟩
  · cases l
    simp only [List.mem_cons, Lease.mk.injEq]
    tauto

theorem mem_lease (hs : s.WellFormed) {i j : ConsentRevocationIntent String} (hi : i ∈ s.intents)
    (hj : j ∈ s.intents) (hne : j.id ≠ i.id) {worker : String}
    {options : ClaimConsentRevocationOptions} {nowMs : ℤ} :
    j ∈ (lease P worker options nowMs s i).intents := by
  unfold lease
  dsimp only
  rw [hs.put_over hi (by exact rfl)]
  exact List.mem_map.2 ⟨j, hj, if_neg hne⟩

theorem refines_leases {worker : String} {options : ClaimConsentRevocationOptions} {nowMs : ℤ}
    (is : List (ConsentRevocationIntent String)) :
    ∀ s : State String, s.WellFormed → (is.map ConsentRevocationIntent.id).Nodup →
      (∀ i ∈ is, i ∈ s.intents ∧ i.completedAt.filter truthy = none) →
      Refines (repository P localeCompare) s (is.foldl (lease P worker options nowMs) s) := by
  induction is with
  | nil => exact fun s hs _ _ => .refl hs
  | cons i is ih =>
    intro s hs hnodup hall
    obtain ⟨hi, hopen⟩ := hall i List.mem_cons_self
    have hfirst : Refines (repository P localeCompare) s (lease P worker options nowMs s i) :=
      refines_lease hs hi hopen
    rw [List.map_cons, List.nodup_cons] at hnodup
    refine hfirst.trans (ih _ hfirst.wellFormed hnodup.2 fun j hj => ?_)
    obtain ⟨hmem, hopen'⟩ := hall j (List.mem_cons_of_mem i hj)
    exact ⟨mem_lease hs hi hmem fun h => hnodup.1 (h ▸ List.mem_map_of_mem hj), hopen'⟩

theorem due_open {options : ClaimConsentRevocationOptions} {nowMs : ℤ}
    {i : ConsentRevocationIntent String} (hi : i ∈ due P localeCompare s options nowMs) :
    i ∈ s.intents ∧ i.completedAt.filter truthy = none := by
  have hmem := (List.mergeSort_perm _ _).mem_iff.1 (List.mem_of_mem_take hi)
  obtain ⟨hi, hdue⟩ := List.mem_filter.1 hmem
  refine ⟨hi, Option.filter_eq_none_iff.2 fun at' hat htruthy => ?_⟩
  simp [isDue, hat, htruthy] at hdue

theorem due_nodup (hs : s.WellFormed) {options : ClaimConsentRevocationOptions} {nowMs : ℤ} :
    ((due P localeCompare s options nowMs).map ConsentRevocationIntent.id).Nodup := by
  have hfilter : ((s.intents.filter (isDue P options nowMs)).map ConsentRevocationIntent.id).Nodup :=
    hs.nodup.sublist (List.filter_sublist.map _)
  have hsort := ((List.mergeSort_perm (s.intents.filter (isDue P options nowMs))
    (inOrder P localeCompare)).map ConsentRevocationIntent.id).nodup_iff.2 hfilter
  exact hsort.sublist ((List.take_sublist _ _).map _)

theorem opened_some {intentId leaseToken : ℕ} {i : ConsentRevocationIntent String}
    (h : opened s intentId leaseToken = some i) : i ∈ s.intents ∧ i.id = intentId ∧
      i.leaseToken = some leaseToken ∧ i.completedAt.filter truthy = none := by
  obtain ⟨hget, hopen⟩ := Option.filter_eq_some_iff.1 h
  simp only [Bool.and_eq_true, Bool.not_eq_true', decide_eq_true_eq] at hopen
  refine ⟨mem_of_get? hget, key_of_get? hget, hopen.2, Option.filter_eq_none_iff.2 fun at' hat => ?_⟩
  have hnot := hopen.1
  simpa [hat] using hnot

theorem opened_stale {intentId leaseToken : ℕ} (h : Stale s intentId leaseToken) :
    opened s intentId leaseToken = none := by
  cases hopened : opened s intentId leaseToken with
  | none => rfl
  | some i =>
    obtain ⟨hi, hid, htoken, -⟩ := opened_some hopened
    exact absurd htoken (h i hi hid)

/-- An opened intent is written over by one that is the same work without the token. -/
theorem refines_written (hs : s.WellFormed) {i j : ConsentRevocationIntent String} {d : Option String}
    (hi : i ∈ s.intents) (hopen : i.completedAt.filter truthy = none) (hid : j.id = i.id)
    (hj : workOf (repository P localeCompare) j =
      { workOf (repository P localeCompare) i with token := none, done := d }) :
    Refines (repository P localeCompare) s
      { s with intents := put ConsentRevocationIntent.id j s.intents } := by
  rw [hs.put_over hi hid]
  refine refines_settled hs (d := d) hi hopen (fun k => ?_) (fun k hk => if_neg hk) ?_
  · split
    · rename_i h
      exact hid.trans h.symm
    · rfl
  · rw [if_pos rfl]
    exact hj

theorem lawful : Lawful (repository P localeCompare) where
  refines s call hs := by
    cases call with
    | revoke tenantId consentId revokedAt actor moment => exact refines_revoke hs _ _ _ _ moment
    | claim worker options moment locked =>
      simp only [step, repository, claimConsentRevocationIntents]
      split
      · exact .refl hs
      · exact refines_leases _ s hs (due_nodup hs) fun i hi => due_open hi
    | complete intentId leaseToken completedAt moment =>
      simp only [step, repository, completeConsentRevocationIntent]
      split
      · exact .refl hs
      · rename_i i hopened
        obtain ⟨hi, -, -, hopen⟩ := opened_some hopened
        exact refines_written hs hi hopen rfl rfl
    | retry intentId leaseToken retryAfterMs lastError moment =>
      simp only [step, repository, retryConsentRevocationIntent]
      split
      · exact .refl hs
      · rename_i i hopened
        obtain ⟨hi, -, -, hopen⟩ := opened_some hopened
        exact refines_written hs hi hopen rfl rfl
  complete_stale s intentId token completedAt moment h := by
    simp only [repository, completeConsentRevocationIntent, opened_stale h]
  retry_stale s intentId token retryAfterMs lastError moment h := by
    simp only [repository, retryConsentRevocationIntent, opened_stale h]

end InMemory

namespace Prisma

variable {textOrder : ℕ → ℕ → Bool} {s : State ℚ}

theorem refines_revoke (hs : s.WellFormed) (tenantId consentId revokedAt : String)
    (actor : ConsentRevocationActor) (moment : ℚ) :
    Refines (repository textOrder) s
      (revokeConsentAndCreateIntent s tenantId consentId revokedAt actor moment) := by
  unfold revokeConsentAndCreateIntent
  dsimp only
  split
  · exact refines_spent hs
  · rename_i consent hconsent
    obtain ⟨hget, rfl, rfl⟩ := tenantConsent_some (Option.filter_eq_some_iff.1 hconsent).1
    have hrevised : Refines (repository textOrder) s _ := refines_revised hs
      { consent with
        revokedAt := if consent.revokedAt.any (· ≠ "") then consent.revokedAt else some revokedAt }
      hget rfl (fun at' h hne => by simp [h, hne])
    split
    · have hspent : Refines (repository textOrder) s _ := hrevised.trans (refines_spent hrevised.wellFormed)
      refine hspent.trans (refines_unseen hspent.wellFormed (fun i => ?_) fun i _ => ?_)
      · split <;> rfl
      · split <;> rfl
    · rename_i hnone
      have hnot : ∀ i ∈ s.intents, LinkConsent.isOf i consent.tenantId consent.id = false := by
        simpa using hnone
      obtain ⟨later, hlater, htenant, -⟩ := hrevised.consents _ _ hget
      exact hrevised.trans
        (refines_created hrevised.wellFormed moment ⟨later, hlater, htenant⟩ hnot)

theorem due_open {options : ClaimConsentRevocationOptions} {moment : ℚ} {locked : List ℕ} {id : ℕ}
    (h : id ∈ due textOrder s options moment locked) :
    ∃ i ∈ s.intents, i.id = id ∧ i.completedAt = none := by
  obtain ⟨i, hi, rfl⟩ := List.mem_map.1 h
  have hsorted := List.mem_of_mem_filter (List.mem_of_mem_take hi)
  obtain ⟨hmem, hdue⟩ := List.mem_filter.1 ((List.mergeSort_perm _ _).mem_iff.1 hsorted)
  refine ⟨i, hmem, rfl, ?_⟩
  simp only [isDue, Bool.and_eq_true, Option.isNone_iff_eq_none] at hdue
  exact hdue.1.1.1

theorem refines_claim (hs : s.WellFormed) (worker : String)
    (options : ClaimConsentRevocationOptions) (moment : ℚ) (locked : List ℕ) :
    Refines (repository textOrder) s
      (claimConsentRevocationIntents textOrder s worker options moment locked) := by
  unfold claimConsentRevocationIntents
  dsimp only
  refine refines_leased hs worker (fun id => id ∈ due textOrder s options moment locked)
    (fun i => ?_) (fun id h => ?_) (fun i hi h => ?_) (fun i _ h => if_neg h) (fun l => ?_)
  · split <;> rfl
  · obtain ⟨i, hi, hid, -⟩ := due_open h
    exact ⟨i, hi, hid⟩
  · obtain ⟨j, hj, hid, hopen⟩ := due_open h
    have hjget := hs.getIntent hj
    rw [hid, hs.getIntent hi] at hjget
    obtain rfl := Option.some.inj hjget
    refine ⟨by rw [hopen]; rfl, ?_⟩
    rw [if_pos h]
    rfl
  · cases l
    simp only [List.mem_append, List.mem_map, Lease.mk.injEq]
    grind

theorem opens_some {intentId leaseToken : ℕ} {i : ConsentRevocationIntent ℚ}
    (h : opens intentId leaseToken i = true) :
    i.id = intentId ∧ i.leaseToken = some leaseToken ∧ i.completedAt = none := by
  simpa [opens, and_assoc] using h

theorem updateWhere_none {cond : ConsentRevocationIntent ℚ → Bool}
    {f : ConsentRevocationIntent ℚ → ConsentRevocationIntent ℚ}
    (h : ∀ i ∈ s.intents, cond i = false) : updateWhere s cond f = (s, false) := by
  have hmap : (s.intents.map fun i => if cond i then f i else i) = s.intents := by
    refine (List.map_congr_left fun i hi => ?_).trans (List.map_id s.intents)
    rw [h i hi]
    rfl
  have hfilter : s.intents.filter cond = [] := List.filter_eq_nil_iff.2 fun i hi => by simp [h i hi]
  rw [updateWhere, hmap, hfilter]
  rfl

theorem stale_none {intentId leaseToken : ℕ} (h : Stale s intentId leaseToken) :
    ∀ i ∈ s.intents, opens intentId leaseToken i = false := by
  intro i hi
  rw [Bool.eq_false_iff]
  intro hopens
  obtain ⟨hid, htoken, -⟩ := opens_some hopens
  exact h i hi hid htoken

/-- The intent that the token opens is changed to the same work without the token. -/
theorem refines_update (hs : s.WellFormed) {intentId leaseToken : ℕ}
    {f : ConsentRevocationIntent ℚ → ConsentRevocationIntent ℚ} {d : Option ℚ}
    (hid : ∀ i, (f i).id = i.id)
    (hf : ∀ i, i.completedAt = none → workOf (repository textOrder) (f i) =
      { workOf (repository textOrder) i with token := none, done := d }) :
    Refines (repository textOrder) s (updateWhere s (opens intentId leaseToken) f).1 := by
  by_cases hany : ∃ i ∈ s.intents, opens intentId leaseToken i = true
  · obtain ⟨i, hi, hopens⟩ := hany
    obtain ⟨rfl, -, hopen⟩ := opens_some hopens
    refine refines_settled hs (d := d) hi (by rw [hopen]; rfl) (fun j => ?_) (fun j hj => ?_) ?_
    · split
      · exact hid j
      · rfl
    · refine if_neg fun hj' => hj (opens_some hj').1
    · rw [if_pos hopens]
      exact hf i hopen
  · push Not at hany
    rw [updateWhere_none fun i hi => by simpa using hany i hi]
    exact .refl hs

theorem lawful : Lawful (repository textOrder) where
  refines s call hs := by
    cases call with
    | revoke tenantId consentId revokedAt actor moment => exact refines_revoke hs ..
    | claim worker options moment locked => exact refines_claim hs ..
    | complete intentId leaseToken completedAt moment =>
      exact refines_update hs (d := some moment) (fun i => rfl) fun i _ => rfl
    | retry intentId leaseToken retryAfterMs lastError moment =>
      refine refines_update hs (d := none) (fun i => rfl) fun i hi => ?_
      simp only [workOf, hi, Option.filter_none]
  complete_stale s intentId token completedAt moment h := updateWhere_none (stale_none h)
  retry_stale s intentId token retryAfterMs lastError moment h := updateWhere_none (stale_none h)

end Prisma

section

theorem refines_run (hrepo : Lawful repo) (calls : List Call) :
    ∀ s : State τ, s.WellFormed → Refines repo s (run repo s calls) := by
  induction calls with
  | nil => exact fun s hs => .refl hs
  | cons call calls ih =>
    intro s hs
    have hstep := hrepo.refines s call hs
    exact hstep.trans (ih _ hstep.wellFormed)

theorem wellFormed_granted (consents : List LinkConsent) : (granted consents : State τ).WellFormed :=
  ⟨List.nodup_nil, nofun, nofun⟩

theorem sound_granted (consents : List LinkConsent) :
    (board repo (granted consents : State τ)).Sound :=
  ⟨nofun, nofun, nofun, nofun⟩

/-- A token that the store accepts is the one that is stored. -/
theorem Accepts.stored (hrepo : Lawful repo) {intentId token : ℕ} (h : Accepts repo s intentId token) :
    ∃ i ∈ s.intents, i.id = intentId ∧ i.leaseToken = some token := by
  by_contra hnone
  push Not at hnone
  rcases h with ⟨completedAt, moment, h⟩ | ⟨retryAfterMs, lastError, moment, h⟩
  · rw [hrepo.complete_stale s intentId token completedAt moment hnone] at h
    cases h
  · rw [hrepo.retry_stale s intentId token retryAfterMs lastError moment hnone] at h
    cases h

theorem safe_of_sound (hrepo : Lawful repo) (hs : s.WellFormed) (hboard : (board repo s).Sound) :
    Safe repo s := by
  refine ⟨fun i hi j hj h => ?_, fun intentId token h call hcall => ?_, ?_⟩
  · obtain ⟨c, hc, hci⟩ := hs.tenant i hi
    obtain ⟨c', hc', hcj⟩ := hs.tenant j hj
    rw [h, hc'] at hc
    obtain rfl := Option.some.inj hc
    have hid := hboard.one_each i.id j.id (workOf repo i) (workOf repo j)
      (congrArg (Option.map _) (hs.getIntent hi)) (congrArg (Option.map _) (hs.getIntent hj))
      (by rw [workOf, workOf, h, ← hci, ← hcj])
    have hget := hs.getIntent hi
    rw [hid, hs.getIntent hj] at hget
    exact (Option.some.inj hget).symm
  · cases call with
    | revoke | claim => exact hcall.elim
    | complete i t completedAt moment =>
      obtain ⟨rfl, rfl⟩ := hcall
      exact congrArg Prod.fst (hrepo.complete_stale s i t completedAt moment h)
    | retry i t retryAfterMs lastError moment =>
      obtain ⟨rfl, rfl⟩ := hcall
      exact congrArg Prod.fst (hrepo.retry_stale s i t retryAfterMs lastError moment h)
  · intro l hl l' hl' hwork haccepts haccepts'
    obtain ⟨i, hi, hid, htoken⟩ := haccepts.stored hrepo
    obtain ⟨j, hj, hjd, htoken'⟩ := haccepts'.stored hrepo
    have hget := hs.getIntent hi
    rw [hid, hwork, ← hjd, hs.getIntent hj] at hget
    obtain rfl := Option.some.inj hget
    exact hboard.one_worker l hl l' hl' (Option.some.inj (htoken.symm.trans htoken'))

theorem Refines.lasts (h : Refines repo s t) : Lasts repo s t := by
  refine ⟨fun id consent at' hget hat hne => ?_, fun id i at' hget hat hset => ?_⟩
  · obtain ⟨later, hlater, -, hrevoked⟩ := h.consents id consent hget
    exact ⟨later, hlater, hrevoked at' hat hne⟩
  · have hdone : (workOf repo i).done = some at' := by
      simp only [workOf, hat, Option.filter_some, hset, if_true]
    obtain ⟨⟨x, hx, hxdone⟩, hheld⟩ := h.steps.finished id (workOf repo i) at'
      (congrArg (Option.map _) hget) hdone
    obtain ⟨later, hlater, rfl⟩ := Option.map_eq_some_iff.1 hx
    exact ⟨⟨later, hlater, (Option.filter_eq_some_iff.1 hxdone).1⟩, hheld⟩

theorem lawful_safe (hrepo : Lawful repo) (consents : List LinkConsent) (calls later : List Call) :
    Safe repo (run repo (granted consents) calls) ∧
      Lasts repo (run repo (granted consents) calls)
        (run repo (run repo (granted consents) calls) later) := by
  have hreached := refines_run hrepo calls (granted consents) (wellFormed_granted consents)
  have hsound := hreached.steps.sound (sound_granted consents)
  exact ⟨safe_of_sound hrepo hreached.wellFormed hsound,
    (refines_run hrepo later _ hreached.wellFormed).lasts⟩

end

/-- Whatever the workers call, in memory or in the database, the outbox is safe in every
state reached, and what it has recorded there lasts whatever is called afterwards. -/
theorem revocation_outbox_safe (P : Platform) (localeCompare textOrder : ℕ → ℕ → Bool)
    (consents : List LinkConsent) (calls later : List Call) :
    (Safe (InMemory.repository P localeCompare)
        (run (InMemory.repository P localeCompare) (granted consents) calls) ∧
      Lasts (InMemory.repository P localeCompare)
        (run (InMemory.repository P localeCompare) (granted consents) calls)
        (run (InMemory.repository P localeCompare) (granted consents) (calls ++ later))) ∧
    (Safe (Prisma.repository textOrder)
        (run (Prisma.repository textOrder) (granted consents) calls) ∧
      Lasts (Prisma.repository textOrder)
        (run (Prisma.repository textOrder) (granted consents) calls)
        (run (Prisma.repository textOrder) (granted consents) (calls ++ later))) := by
  have hmemory : Lawful (InMemory.repository P localeCompare) := InMemory.lawful
  have hprisma : Lawful (Prisma.repository textOrder) := Prisma.lawful
  replace hmemory := lawful_safe hmemory consents calls later
  replace hprisma := lawful_safe hprisma consents calls later
  simp only [run, List.foldl_append] at hmemory hprisma ⊢
  exact ⟨hmemory, hprisma⟩

-- The first worker comes back after its lease was handed on, and is refused.
example :
    (fun s : State ℚ => (s.held, s.intents.map fun i => i.completedAt))
      (run (Prisma.repository Nat.ble) (granted [⟨"consent", "tenant", some "user", none⟩])
        [.revoke "tenant" "consent" "2026-01-01T00:00:00.000Z" ⟨"user", false⟩ 0,
         .claim "first" ⟨"", 10, 1, none⟩ 0 [],
         .claim "second" ⟨"", 10, 1, none⟩ 10 [],
         .complete 0 1 "" 11,
         .complete 0 2 "" 12]) =
    ([⟨"second", 0, 2⟩, ⟨"first", 0, 1⟩], [some 12]) := by
  decide +kernel

end CatalogSentinel.Link
