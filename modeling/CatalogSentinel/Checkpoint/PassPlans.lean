import CatalogSentinel.Checkpoint.Rules

/-!
The pass plans of the tiered store, one call after the other. One revision number
is shared by all passes of a snapshot while each pass has a Redis key of its own,
so matching versions speak for a pass only if no entry of another pass was stale
when the version was written. Postgres stores an empty plan as no plan at all.
-/

namespace CatalogSentinel.Checkpoint

open CatalogSentinel.Data CatalogSentinel.Concurrent CatalogSentinel.Distrokid

/-- The entry is the plan that Postgres holds for its pass; Postgres holds no empty plan. -/
def HotPlan.Current (d : DurableTier) (e : HotPlan) : Prop :=
  e.chunks ≠ [] ∧ d.plans e.snapshotId e.pass = e.chunks

instance (d : DurableTier) (e : HotPlan) : Decidable (e.Current d) := by
  unfold HotPlan.Current
  infer_instance

/-- Redis holds no other plan for the passes of the snapshot than Postgres does. -/
def PlansCurrent (s : String) (st : CheckpointState) : Prop :=
  ∀ e ∈ st.hot.plans, e.snapshotId = s → e.Current st.durable

instance (s : String) (st : CheckpointState) : Decidable (PlansCurrent s st) := by
  unfold PlansCurrent
  infer_instance

/-- The version of the plans is written only over current ones. -/
def publishesCurrentPlans (_ : Request) (st : CheckpointState) (o : Op) (c : Choice) : Prop :=
  match o with
  | .putVersion s .plans _ => c.fate.takesEffect → PlansCurrent s (st.lose c.lost)
  | _ => True

instance (t : Request) (st : CheckpointState) (o : Op) (c : Choice) :
    Decidable (publishesCurrentPlans t st o c) := by
  unfold publishesCurrentPlans
  split <;> infer_instance

/-- A plan that was answered is the one that Postgres would have answered. -/
def plansAgree : Answer → Prop
  | .plan answer reference => answer = reference
  | .outcomes .. => True

/-! ### Redis -/

/-- Redis is never ahead, and where it is not behind its plans are current. -/
structure PlansCoherent (st : CheckpointState) : Prop where
  behind : ∀ s v, st.hot.versions s .plans = some v → v ≤ st.durable.versions s .plans
  current : ∀ s, st.hot.versions s .plans = some (st.durable.versions s .plans) → PlansCurrent s st

theorem evictable_plansCurrent (s : String) : Evictable (PlansCurrent s) :=
  evictable_of_key fun st key h => by
    intro e he
    refine h e ?_
    cases key with
    | plan s' pass => exact List.mem_of_mem_filter he
    | _ => exact he

theorem evictable_plansCoherent : Evictable PlansCoherent :=
  evictable_of_key fun st key h => by
    refine ⟨fun s v hv => h.behind s v (version_of_lose hv), fun s hv => ?_⟩
    exact evictable_plansCurrent s st [key] (h.current s (version_of_lose hv))

/-- The plan may be written: as Postgres has it, or under a version that says so. -/
def Writable (s : String) (pass : ℚ) (chunks : List (List String)) (st : CheckpointState) : Prop :=
  (chunks ≠ [] ∧ st.durable.plans s pass = chunks) ∨
    st.hot.versions s .plans ≠ some (st.durable.versions s .plans)

theorem evictable_writable (s : String) (pass : ℚ) (chunks : List (List String)) :
    Evictable (Writable s pass chunks) :=
  evictable_of_key fun _ _ h => h.imp_right fun hne hv => hne (version_of_lose hv)

theorem PlansCoherent.setPlan {P : Platform} {n worker : ℕ} {s : String} {pass : ℚ}
    {chunks : List (List String)} {st : CheckpointState} (h : PlansCoherent st)
    (hw : Writable s pass chunks st) :
    PlansCoherent (effect P n worker st (.setPlan s pass chunks)).2 := by
  refine ⟨h.behind, fun s' hv e he hs => ?_⟩
  rcases mem_put he with rfl | he
  · rcases hw with hw | hw
    · exact hw
    · exact absurd hv (by rw [← hs]; exact hw)
  · exact h.current s' hv e he hs

theorem PlansCoherent.putVersion {P : Platform} {n worker : ℕ} {s : String} {part : CheckpointPart}
    {version : ℕ} {st : CheckpointState} (h : PlansCoherent st)
    (hver : part = .plans → version = st.durable.versions s .plans ∧ PlansCurrent s st) :
    PlansCoherent (effect P n worker st (.putVersion s part version)).2 := by
  have hold : ∀ s' v, (effect P n worker st (.putVersion s part version)).2.hot.versions s' .plans =
      some v → (part = .plans ∧ s' = s ∧ v = version) ∨ st.hot.versions s' .plans = some v := by
    intro s' v hv
    simp only [effect, Function.update_apply] at hv
    split at hv
    · rename_i hs
      rw [Function.update_apply] at hv
      split at hv
      · rename_i hp
        exact .inl ⟨hp.symm, hs, (Option.some.inj hv).symm⟩
      · exact .inr (hs ▸ hv)
    · exact .inr hv
  refine ⟨fun s' v hv => ?_, fun s' hv => ?_⟩
  · rcases hold s' v hv with ⟨hp, rfl, rfl⟩ | hv
    · exact (hver hp).1.le
    · exact h.behind s' v hv
  · rcases hold s' _ hv with ⟨hp, rfl, -⟩ | hv
    · exact (hver hp).2
    · exact h.current s' hv

/-! ### What Postgres answers -/

/-- Plans are stored under passes that can be asked for only. -/
structure PlansKept (st : CheckpointState) : Prop where
  bound : AllBound st
  passes : ∀ s pass, st.durable.plans s pass ≠ [] → planPass pass = .ok pass

theorem cold_plansKept : Cold PlansKept := fun _ _ h => ⟨h.bound, h.passes⟩

theorem pgInteger_ok {value v : ℚ} (h : pgInteger value = .ok v) : v = value := by
  unfold pgInteger at h
  split at h
  · exact (Except.ok.inj h).symm
  · cases h

theorem planPass_ok {pass v : ℚ} (h : planPass pass = .ok v) : v = pass := by
  obtain ⟨safePass, hsafe, hcolumn⟩ := bind_ok.1 h
  split at hcolumn
  · cases hcolumn
  · rw [pgInteger_ok hcolumn, nonNegativeInteger_ok hsafe]

theorem readPlanIds_ok {rows plan : List (List String)} {name : String}
    (h : readPlanIds rows name = .ok plan) : plan = rows :=
  mapM_checked (fun _ _ => mapM_checked fun _ _ => textValue_ok) h

theorem textValue_rename {value name v : String} {max : ℕ} (name' : String)
    (h : textValue value name max = .ok v) : textValue value name' max = .ok v := by
  unfold textValue at h ⊢
  split at h
  · cases h
  · rw [if_neg ‹_›]
    exact h

theorem harmless_readPlanIds (rows : List (List String)) (name : String) :
    Harmless (readPlanIds rows name) :=
  Harmless.list (fun _ => Harmless.list (fun _ => harmless_textValue _ _ _) _) _

theorem readPlanIds_rename {rows plan : List (List String)} {name : String} (name' : String)
    (h : readPlanIds rows name = .ok plan) : readPlanIds rows name' = .ok plan := by
  unfold readPlanIds at h ⊢
  rw [mapM_ok] at h ⊢
  refine h.imp fun ids ids' hids => ?_
  rw [mapM_ok] at hids ⊢
  exact hids.imp fun id id' hid => textValue_rename name' hid

theorem sanitizeChunk_ok {chunk chunk' : List String} {i : ℕ} (h : sanitizeChunk chunk i = .ok chunk') :
    chunk' = chunk := by
  unfold sanitizeChunk at h
  split at h
  · cases h
  · exact mapM_checked (fun _ _ => textValue_ok) h

theorem acceptPassPlan_ok {st : CheckpointState} {worker : ℕ} {s : String} {pass : ℚ}
    {chunks plan : List (List String)} (h : acceptPassPlan st worker s pass chunks = .ok plan) :
    plan = chunks ∧ planPass pass = .ok pass ∧ BoundTo worker s st := by
  obtain ⟨b, hb, h₁⟩ := bind_ok.1 h
  obtain ⟨safePass, hsafe, h₂⟩ := bind_ok.1 h₁
  obtain ⟨_, hassert, h₃⟩ := bind_ok.1 h₂
  obtain ⟨rows, hrows, h₄⟩ := bind_ok.1 h₃
  obtain ⟨_, hlock, h₅⟩ := bind_ok.1 h₄
  obtain ⟨column, hcolumn, h₆⟩ := bind_ok.1 h₅
  obtain rfl := nonNegativeInteger_ok hsafe
  obtain rfl := pgInteger_ok hcolumn
  have hplan : plan = chunks := by
    rw [← Except.ok.inj h₆]
    exact mapM_zipIdx_checked (f := sanitizeChunk) (fun _ _ _ => sanitizeChunk_ok) hrows
  refine ⟨hplan, bind_ok.2 ⟨_, hsafe, ?_⟩, boundTo_of_locked hb hlock⟩
  unfold assertPassPlan at hassert
  split at hassert
  · cases hassert
  · rename_i hpass
    simp only [Bool.or_eq_true, decide_eq_true_eq, not_or] at hpass
    rw [if_neg hpass.1]
    exact hcolumn

/-- What Postgres answers to a worker that has bound the snapshot. -/
theorem durableGetPassPlan_eq {st : CheckpointState} {worker : ℕ} {s : String} {pass : ℚ}
    (hb : BoundTo worker s st) : durableGetPassPlan st worker s pass =
      (planPass pass >>= fun p => storedPassPlan (st.durable.plans s p)) := by
  obtain ⟨b, hb, hrow⟩ := binding_of_boundTo hb
  unfold durableGetPassPlan
  rw [hb]
  show (planPass pass >>= fun p =>
    storedPassPlan (if st.durable.holds b then st.durable.plans s p else [])) = _
  simp only [hrow, if_true]

/-- A plan that Postgres answers is the one it holds, and not empty. -/
theorem plan_of_answered {st : CheckpointState} {worker : ℕ} {s : String} {pass : ℚ}
    {plan : List (List String)} (hb : BoundTo worker s st)
    (h : durableGetPassPlan st worker s pass = .ok (some plan)) :
    plan ≠ [] ∧ st.durable.plans s pass = plan := by
  rw [durableGetPassPlan_eq hb] at h
  obtain ⟨p, hp, h₁⟩ := bind_ok.1 h
  obtain ⟨rows, hrows, h₂⟩ := bind_ok.1 h₁
  rw [planPass_ok hp] at hrows
  have hrow := Except.ok.inj h₂
  split at hrow
  · cases hrow
  · obtain rfl := Option.some.inj hrow
    exact ⟨‹_›, (readPlanIds_ok hrows).symm⟩

/-- A stored plan whose ids pass the check is answered. -/
theorem answered_of_plan {st : CheckpointState} {worker : ℕ} {s : String} {pass : ℚ} {name : String}
    {plan checked : List (List String)} (hkept : PlansKept st) (hb : BoundTo worker s st)
    (hne : plan ≠ []) (hplan : st.durable.plans s pass = plan)
    (h : readPlanIds plan name = .ok checked) :
    durableGetPassPlan st worker s pass = .ok (some checked) := by
  have hpass : planPass pass = .ok pass := hkept.passes s pass (by rw [hplan]; exact hne)
  rw [durableGetPassPlan_eq hb, hpass]
  show storedPassPlan (st.durable.plans s pass) = _
  rw [hplan]
  refine bind_ok.2 ⟨checked, readPlanIds_rename _ h, ?_⟩
  rw [if_neg (by rw [readPlanIds_ok h]; exact hne)]
  rfl

/-! ### The calls -/

def PlansInv (st : CheckpointState) : Prop := PlansCoherent st ∧ PlansKept st

theorem evictable_plansInv : Evictable PlansInv := evictable_plansCoherent.and cold_plansKept.lose

/-- Postgres answers `answer` to the worker. -/
def PlanIs (worker : ℕ) (s : String) (pass : ℚ) (answer : Checked (Option (List (List String))))
    (st : CheckpointState) : Prop := durableGetPassPlan st worker s pass = answer

theorem cold_planIs (worker : ℕ) (s : String) (pass : ℚ)
    (answer : Checked (Option (List (List String)))) : Cold (PlanIs worker s pass answer) :=
  fun _ _ h => h

variable {P : Platform} {n : ℕ} {t : Request} {s : String} {pass : ℚ}

/-- Writing a plan to Redis, then the version of the plans. -/
theorem triple_projectPlan {E : CheckpointError → CheckpointState → Prop} {F : CheckpointState → Prop}
    (pass : ℚ) (chunks : List (List String)) (hF : Cold F)
    (hready : ∀ st, F st → BoundTo t.worker s st ∧ Learned t.worker s .plans st) :
    (tieredContract P n publishesCurrentPlans plansAgree).Triple t
      (fun st => (PlansCoherent st ∧ Writable s pass chunks st) ∧ F st)
      (tiers.cacheProjection s .plans (await (.setPlan s pass chunks)))
      (fun _ st => PlansCoherent st ∧ F st) E := by
  have hversion : ∀ version, Cold fun st => F st ∧ version = st.versions t.worker s .plans :=
    fun version => hF.and fun _ _ h => h
  refine triple_cacheProjection
    (M := fun version st => PlansCoherent st ∧ F st ∧ version = st.versions t.worker s .plans)
    (fun st h => (hready st h.2).1) (fun version => ?_) fun version => ?_
  · have hset : (tieredContract P n publishesCurrentPlans plansAgree).Triple t
        (fun st => (PlansCoherent st ∧ Writable s pass chunks st) ∧
          F st ∧ version = st.versions t.worker s .plans) (await (.setPlan s pass chunks)) _ _ :=
      await_hot_keeps (H := PlansCoherent) rfl
        ((evictable_plansCoherent.and (evictable_writable s pass chunks)).and (hversion version).lose)
        (fun st h => ⟨h.1.1, h.2⟩) (hversion version) fun st c h _ _ => h.1.1.setPlan h.1.2
    exact hset.consequence (fun st _ h => ⟨h.1.1, h.1.2, h.2⟩) (fun _ st _ h => h)
      fun e st _ h => ⟨h.1, h.2.1, h.2.2.1⟩
  · have hput : (tieredContract P n publishesCurrentPlans plansAgree).Triple t
        (fun st => PlansCoherent st ∧ F st ∧ version = st.versions t.worker s .plans)
        (await (.putVersion s .plans version)) _ _ :=
      await_hot_keeps (H := PlansCoherent) rfl (evictable_plansCoherent.and (hversion version).lose)
        (fun st h => h) (hversion version) fun st c h hok hfate =>
          h.1.putVersion fun _ => ⟨h.2.2.trans (hready _ h.2.1).2, hok hfate⟩
    exact hput.consequence (fun st _ h => h) (fun _ st _ h => ⟨h.1, h.2.1⟩)
      fun e st _ h => ⟨h.1, h.2.1, h.2.2.1⟩

/-- A plan that is read from Redis where it is current is the one that Postgres answers. -/
theorem triple_cachedPassPlan :
    (tieredContract P n publishesCurrentPlans plansAgree).Triple t
      (fun st => ((PlansInv st ∧ BoundTo t.worker s st) ∧ Learned t.worker s .plans st) ∧
        PlansCurrent s st)
      (tiers.cachedPassPlan s pass)
      (fun r st => ((PlansInv st ∧ BoundTo t.worker s st) ∧ Learned t.worker s .plans st) ∧
        ∀ plan, r = some plan → PlanIs t.worker s pass (.ok (some plan)) st)
      (Swallowed fun st => (PlansInv st ∧ BoundTo t.worker s st) ∧ Learned t.worker s .plans st) := by
  have hR : Evictable fun st => (PlansInv st ∧ BoundTo t.worker s st) ∧ Learned t.worker s .plans st :=
    (evictable_plansInv.and (cold_boundTo _ _).lose).and (cold_learned _ _ _).lose
  refine Contract.Triple.bind (Q := fun (r : Option (List (List String))) st =>
    ((PlansInv st ∧ BoundTo t.worker s st) ∧ Learned t.worker s .plans st) ∧
      ∀ plan, r = some plan → plan ≠ [] ∧ st.durable.plans s pass = plan) ?_ fun r => ?_
  · refine await_hot rfl (fun st c r h _ _ hr => ?_) (fun st c m h _ _ => ⟨by simp, hR st _ h.1⟩)
      fun st c m h _ _ => ⟨by simp, hR st _ h.1⟩
    refine ⟨hR st _ h.1, fun plan hplan => ?_⟩
    have hentry : (st.lose c.lost).hot.plan? s pass = some plan := (Except.ok.inj hr).trans hplan
    obtain ⟨e, he, rfl⟩ := Option.map_eq_some_iff.1 hentry
    have hentryKey : e.key = (s, pass) := key_of_get? he
    have hkey : e.snapshotId = s ∧ e.pass = pass := Prod.mk.inj hentryKey
    have hcurrent := evictable_plansCurrent s st c.lost h.2 e (mem_of_get? he) hkey.1
    unfold HotPlan.Current at hcurrent
    rwa [hkey.1, hkey.2] at hcurrent
  · cases r with
    | none => exact Contract.alone_ret fun st h => ⟨h.1, fun _ hp => by cases hp⟩
    | some cached =>
      show (tieredContract P n publishesCurrentPlans plansAgree).Triple t _
        (Prog.ofExcept (readPlanIds cached "cached pass plan releaseId") >>= fun plan =>
          Prog.ret (some plan)) _ _
      cases hread : readPlanIds cached "cached pass plan releaseId" with
      | ok plan =>
        refine Contract.alone_ret fun st h => ⟨h.1, fun plan' hp => ?_⟩
        obtain ⟨hne, hplan⟩ := h.2 cached rfl
        rw [← Option.some.inj hp]
        exact answered_of_plan h.1.1.1.2 h.1.1.2 hne hplan hread
      | error e =>
        exact Contract.alone_raise fun st h => ⟨(harmless_readPlanIds _ _).error hread, h.1⟩

/-- `getPassPlan` answers what Postgres would, or throws what it would. -/
theorem triple_getPassPlan :
    (tieredContract P n publishesCurrentPlans plansAgree).Triple t PlansInv (tiers.getPassPlan s pass)
      (fun r st => PlansInv st ∧ PlanIs t.worker s pass (.ok r) st)
      (fun e st => PlansInv st ∧ PlanIs t.worker s pass (.error e) st) := by
  have hbound : Evictable fun st => PlansInv st ∧ BoundTo t.worker s st :=
    evictable_plansInv.and (cold_boundTo _ _).lose
  have hready := hbound.and (cold_learned t.worker s .plans).lose
  have hunbound : ∀ st : CheckpointState, st.bindings t.worker s = none →
      PlanIs t.worker s pass (.error (.bindingRequired s)) st := by
    intro st hnone
    unfold PlanIs durableGetPassPlan CheckpointState.binding
    rw [hnone]
    rfl
  refine (triple_binding (fun st h => h.2.bound) fun st h hnone =>
    ⟨h, hunbound st hnone⟩).bind fun _ => ?_
  refine (triple_hotMatchesDurable hbound (fun st h => h.2) (fun st h => ⟨⟨⟨h.1.1.behind,
    h.1.1.current⟩, h.1.2.bound, h.1.2.passes⟩, h.2⟩)
    fun st h hv => h.1.1.current s hv).bind fun hit => ?_
  refine (triple_cachedAt (R := fun st => (PlansInv st ∧ BoundTo t.worker s st) ∧
    Learned t.worker s .plans st) (G := fun plan => PlanIs t.worker s pass (.ok (some plan))) hit
    (fun st h => h.1) fun htrue => triple_cachedPassPlan.pre fun st _ h => ⟨h.1, h.2 htrue⟩).bind
    fun cached => ?_
  cases cached with
  | some plan => exact Contract.alone_ret fun st h => ⟨h.1.1.1, h.2 plan rfl⟩
  | none =>
    refine Contract.Triple.bind (Q := fun (durable : Option (List (List String))) st =>
      ((PlansInv st ∧ BoundTo t.worker s st) ∧ Learned t.worker s .plans st) ∧
        PlanIs t.worker s pass (.ok durable) st) ?_ fun durable => ?_
    · refine await_cold rfl rfl fun st keys h => ?_
      have h' := hready st keys h.1
      show Contract.Ends _ _ (durableGetPassPlan (st.lose keys) t.worker s pass) (st.lose keys)
      cases hr : durableGetPassPlan (st.lose keys) t.worker s pass with
      | ok r => exact ⟨h', hr⟩
      | error e => exact ⟨h'.1.1, hr⟩
    · have hlast : (tieredContract P n publishesCurrentPlans plansAgree).Triple t
          (fun st => PlansInv st ∧ PlanIs t.worker s pass (.ok durable) st)
          (Prog.ret durable) (fun r st => PlansInv st ∧ PlanIs t.worker s pass (.ok r) st)
          (fun e st => PlansInv st ∧ PlanIs t.worker s pass (.error e) st) :=
        Contract.alone_ret fun st h => h
      cases durable with
      | none => exact hlast.pre fun st _ h => ⟨h.1.1.1, h.2⟩
      | some plan =>
        refine Contract.Triple.bind ?_ fun _ => hlast
        have hproject := triple_projectPlan (P := P) (n := n) (s := s) (t := t)
          (E := fun e st => PlansInv st ∧ PlanIs t.worker s pass (.error e) st)
          (F := fun st => (PlansKept st ∧ BoundTo t.worker s st ∧ Learned t.worker s .plans st) ∧
            PlanIs t.worker s pass (.ok (some plan)) st) pass plan
          ((cold_plansKept.and ((cold_boundTo _ _).and (cold_learned _ _ _))).and (cold_planIs _ _ _ _))
          fun st h => h.1.2
        exact hproject.consequence (fun st _ h => ⟨⟨h.1.1.1.1, .inl (plan_of_answered h.1.1.2 h.2)⟩,
          ⟨h.1.1.1.2, h.1.1.2, h.1.2⟩, h.2⟩) (fun _ st _ h => ⟨⟨h.1, h.2.1.1⟩, h.2.2⟩)
          fun _ _ _ h => h

/-- Storing a plan leaves Redis behind. -/
theorem PlansInv.durablePut {st : CheckpointState} (h : PlansInv st) (worker : ℕ) (s : String) (pass : ℚ)
    (chunks : List (List String)) :
    (∃ e, durablePutPassPlan st worker s pass chunks = (.error e, st)) ∨
    ∃ st', durablePutPassPlan st worker s pass chunks = (.ok (), st') ∧ PlansInv st' ∧
      BoundTo worker s st' ∧ Learned worker s .plans st' ∧
      st'.hot.versions s .plans ≠ some (st'.durable.versions s .plans) := by
  unfold durablePutPassPlan
  cases haccept : acceptPassPlan st worker s pass chunks with
  | error e => exact .inl ⟨e, rfl⟩
  | ok plan =>
    obtain ⟨-, hpass, hbound⟩ := acceptPassPlan_ok haccept
    refine .inr ⟨_, rfl, ⟨⟨fun s' v hv => ?_, fun s' hv e he hs => ?_⟩, h.2.bound, fun s' p hp => ?_⟩,
      hbound, learned_learn _ _ _ _, fun hv => ?_⟩
    · have hle := h.1.behind s' v hv
      simp only [CheckpointState.learn, DurableTier.bump, Function.update_apply]
      split
      · rename_i hs
        simp only [Function.update_self]
        rw [hs] at hle
        omega
      · exact hle
    · by_cases hss : s' = s
      · have hle := h.1.behind s' _ hv
        simp [CheckpointState.learn, DurableTier.bump, hss] at hle
      · have hv' : st.hot.versions s' .plans = some (st.durable.versions s' .plans) := by
          simpa [CheckpointState.learn, DurableTier.bump, hss] using hv
        have hcurrent := h.1.current s' hv' e he hs
        unfold HotPlan.Current at hcurrent ⊢
        simpa [CheckpointState.learn, DurableTier.bump, hs, hss] using hcurrent
    · by_cases hss : s' = s ∧ p = pass
      · rw [hss.2]
        exact hpass
      · refine h.2.passes s' p ?_
        simp only [CheckpointState.learn, DurableTier.bump, Function.update_apply] at hp
        split at hp
        · rename_i hs
          rw [Function.update_of_ne fun hp' => hss ⟨hs, hp'⟩] at hp
          rwa [hs]
        · exact hp
    · have hle := h.1.behind s _ hv
      simp [CheckpointState.learn, DurableTier.bump] at hle

theorem triple_putPassPlan (chunks : List (List String)) :
    (tieredContract P n publishesCurrentPlans plansAgree).Triple t PlansInv (tiers.putPassPlan s pass chunks)
      (fun _ => PlansInv) (fun _ => PlansInv) := by
  refine (triple_binding (R := PlansInv) (fun st h => h.2.bound) fun st h _ => h).bind fun _ => ?_
  refine Contract.Triple.bind (Q := fun _ st => (PlansCoherent st ∧ Writable s pass chunks st) ∧
    PlansKept st ∧ BoundTo t.worker s st ∧ Learned t.worker s .plans st) ?_ fun _ => ?_
  · refine await_cold rfl rfl fun st keys h => ?_
    have h' := evictable_plansInv st keys h.1
    show Contract.Ends _ _ (durablePutPassPlan (st.lose keys) t.worker s pass chunks).1
      (durablePutPassPlan (st.lose keys) t.worker s pass chunks).2
    rcases h'.durablePut t.worker s pass chunks with
      ⟨e, he⟩ | ⟨st', he, hinv, hbound, hlearned, hbehind⟩
    · rw [he]
      exact h'
    · rw [he]
      exact ⟨⟨hinv.1, .inr hbehind⟩, hinv.2, hbound, hlearned⟩
  · have hproject := triple_projectPlan (P := P) (n := n) (s := s) (t := t)
      (E := fun _ => PlansInv)
      (F := fun st => PlansKept st ∧ BoundTo t.worker s st ∧ Learned t.worker s .plans st) pass chunks
      (cold_plansKept.and ((cold_boundTo _ _).and (cold_learned _ _ _))) fun st h => h.2
    exact hproject.post fun _ st _ h => ⟨h.1, h.2.1⟩

/-- Awaits about another part leave the plans alone. -/
theorem PlansInv.elsewhere {o : Op} (ho : o.within .outcomes) {st : CheckpointState}
    (h : PlansInv st) : PlansInv (effect P n t.worker st o).2 := by
  cases o with
  | putVersion s' part version =>
    refine ⟨h.1.putVersion fun hp => ?_, h.2.bound, h.2.passes⟩
    rcases ho with ho | ho
    · cases ho
    · rw [hp] at ho
      cases ho
  | refreshVersion s' part =>
    simp only [effect, refreshVersion]
    split <;> exact ⟨⟨h.1.behind, h.1.current⟩, h.2.bound, h.2.passes⟩
  | durablePutOutcomes s' os =>
    simp only [effect, durablePutOutcomes]
    split
    · exact h
    · split
      · have hsame : ∀ s₁ (d : DurableTier), (d.bump s' .outcomes).versions s₁ .plans =
            d.versions s₁ .plans := fun s₁ d => bump_versions_of_ne fun _ => by decide
        refine ⟨⟨fun s₁ v hv => ?_, fun s₁ hv => h.1.current s₁ ?_⟩, h.2.bound, h.2.passes⟩
        · exact (h.1.behind s₁ v hv).trans_eq (hsame s₁ _).symm
        · exact hv.trans (congrArg some (hsame s₁ _))
      · exact ⟨⟨h.1.behind, h.1.current⟩, h.2.bound, h.2.passes⟩
  | durablePutPassPlan | durableGetPassPlan | getPlan | setPlan | planAnswered =>
    rcases ho with ho | ho <;> cases ho
  | _ => exact ⟨⟨h.1.behind, h.1.current⟩, h.2.bound, h.2.passes⟩

theorem plansAgree_elsewhere {o : Op} (ho : o.within .outcomes) {st : CheckpointState}
    (h : Faithful plansAgree st) : Faithful plansAgree (effect P n t.worker st o).2 := by
  cases o
  case outcomesAnswered s' answer =>
    intro a ha
    rcases List.mem_cons.1 ha with rfl | ha
    · trivial
    · exact h a ha
  case planAnswered => rcases ho with ho | ho <;> cases ho
  all_goals
    unfold Faithful
    rw [effect_log rfl]
    exact h

/-- Every call leaves the invariant as it found it. -/
theorem triple_servePlans :
    (tieredContract P n publishesCurrentPlans plansAgree).Triple t PlansInv (serve P t)
      (fun _ => PlansInv) (fun _ => PlansInv) := by
  have helsewhere : t.call.part = .outcomes →
      (tieredContract P n publishesCurrentPlans plansAgree).Triple t PlansInv (serve P t)
        (fun _ => PlansInv) (fun _ => PlansInv) := by
    intro hpart
    have hwithin := within_serve (P := P) t
    rw [hpart] at hwithin
    refine Contract.alone_calls (hwithin.mono fun o ho st c r st' hgood h hp => ?_)
    obtain ⟨-, hp⟩ := Option.ite_none_right_eq_some.1 hp
    rcases perform_state hp with rfl | rfl
    · exact ⟨hgood, evictable_plansInv st c.lost h⟩
    · exact ⟨plansAgree_elsewhere ho hgood, (evictable_plansInv st c.lost h).elsewhere ho⟩
  obtain ⟨worker, call⟩ := t
  cases call with
  | putPassPlan s pass chunks => exact triple_putPassPlan chunks
  | getPassPlan s pass =>
    refine triple_getPassPlan.attempt.bind fun answer => ?_
    refine Contract.alone_call fun st c r st' hgood h hp => ?_
    obtain ⟨-, hp⟩ := Option.ite_none_right_eq_some.1 hp
    have h' : PlansInv (st.lose c.lost) ∧ PlanIs worker s pass answer (st.lose c.lost) := by
      cases answer <;> exact ⟨evictable_plansInv st c.lost h.1, h.2⟩
    obtain ⟨-, rfl, rfl⟩ := perform_cold rfl hp
    refine ⟨fun a ha => ?_, ⟨h'.1.1.behind, h'.1.1.current⟩, h'.1.2.bound, h'.1.2.passes⟩
    rcases List.mem_cons.1 ha with rfl | ha
    · exact h'.2.symm
    · exact hgood a ha
  | putOutcomes s os => exact helsewhere rfl
  | getOutcomes s => exact helsewhere rfl

theorem CheckpointState.Fresh.plansInv {st : CheckpointState} (h : st.Fresh) : PlansInv st := by
  refine ⟨⟨fun s v hv => ?_, fun s hv => ?_⟩, h.bound, fun s pass hp => ?_⟩
  · rw [h.hot] at hv
    cases hv
  · rw [h.hot] at hv
    cases hv
  · exact absurd (h.plans s pass) hp

/-- Where the plans' version is written over current plans only, every `getPassPlan`
answers what Postgres would, or throws what it would. -/
theorem passPlans_match {st : CheckpointState} (hst : st.Fresh) {ms : List (Move Request Choice)}
    {w : CheckpointWorld}
    (hms : (tieredSystem P n oneAtATime).Along (System.Meets publishesCurrentPlans) (World.idle st) ms)
    (h : (tieredSystem P n oneAtATime).run (World.idle st) ms = some w)
    {answer reference : Checked (Option (List (List String)))}
    (hmem : .plan answer reference ∈ w.state.log) : answer = reference := by
  have hfaithful : Faithful plansAgree st := fun a ha => by
    rw [hst.log] at ha
    cases ha
  have hresting := Contract.resting_run (J := Faithful plansAgree) (I := PlansInv)
    (fun st ts u st' hs => start_oneAtATime hs) (fun u => triple_servePlans) (fun _ _ _ => rfl)
    (fun _ _ => rfl) (.idle st hfaithful hst.plansInv) hms h
  exact hresting.inv _ hmem

/-- A plan is stored and read back from Redis. -/
def storedPlanRun : { ms // (tieredSystem samplePlatform 100 oneAtATime).Along
      (System.Meets publishesCurrentPlans) (World.idle boundStore) ms ∧
    ∃ w ∈ (tieredSystem samplePlatform 100 oneAtATime).run (World.idle boundStore) ms,
      .plan (.ok (some [["a"]])) (.ok (some [["a"]])) ∈ w.state.log } :=
  ⟨served ⟨0, .putPassPlan "s" 1 [["a"]]⟩ (List.replicate 5 .done) ++
    served ⟨0, .getPassPlan "s" 1⟩ (List.replicate 5 .done), by decide +kernel⟩

theorem passPlans_match_stored : ∃ ms w,
    (tieredSystem samplePlatform 100 oneAtATime).run (World.idle boundStore) ms = some w ∧
      .plan (.ok (some [["a"]])) (.ok (some [["a"]])) ∈ w.state.log ∧
      ∀ answer reference, .plan answer reference ∈ w.state.log → answer = reference := by
  obtain ⟨ms, hms, w, hw, hmem⟩ := storedPlanRun
  exact ⟨ms, w, hw, hmem, fun _ _ h => passPlans_match fresh_boundStore hms hw h⟩

/-- The Redis write of a pass's new plan fails; the next pass's call then writes the version. -/
def stalePlanRun : { ms //
    ∃ w ∈ (tieredSystem samplePlatform 100 oneAtATime).run (World.idle boundStore) ms,
      .plan (.ok (some [["a"]])) (.ok (some [["c"]])) ∈ w.state.log } :=
  ⟨served ⟨0, .putPassPlan "s" 1 [["a"]]⟩ (List.replicate 5 .done) ++
    served ⟨0, .putPassPlan "s" 1 [["c"]]⟩ (List.replicate 3 .done ++ [.fails false "down"]) ++
    served ⟨0, .putPassPlan "s" 2 [["b"]]⟩ (List.replicate 5 .done) ++
    served ⟨0, .getPassPlan "s" 1⟩ (List.replicate 5 .done), by decide +kernel⟩

theorem passPlan_stale : ∃ ms w answer reference,
    (tieredSystem samplePlatform 100 oneAtATime).run (World.idle boundStore) ms = some w ∧
      .plan answer reference ∈ w.state.log ∧ answer ≠ reference := by
  obtain ⟨ms, w, hw, hmem⟩ := stalePlanRun
  exact ⟨ms, w, _, _, hw, hmem, by decide⟩

end CatalogSentinel.Checkpoint
