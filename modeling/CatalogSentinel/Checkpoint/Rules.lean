import CatalogSentinel.Checkpoint.Tiered

/-!
The rules for the tiered store's calls, one call at a time. A fact is cold when
Redis has no part in it: no Redis command and no lost key can falsify it. A fact
about Redis is carried past every await that losing keys and the await keep.
-/

namespace CatalogSentinel.Checkpoint

open CatalogSentinel.Data CatalogSentinel.Concurrent CatalogSentinel.Distrokid

def Cold (F : CheckpointState → Prop) : Prop := ∀ st hot, F st → F { st with hot := hot }

/-- Losing keys keeps the fact. -/
def Evictable (H : CheckpointState → Prop) : Prop := ∀ st keys, H st → H (st.lose keys)

section Facts

variable {F G H : CheckpointState → Prop}

theorem Cold.lose (hF : Cold F) : Evictable F := fun st _ h => hF st _ h

theorem Cold.and (hF : Cold F) (hG : Cold G) : Cold fun st => F st ∧ G st :=
  fun st hot h => ⟨hF st hot h.1, hG st hot h.2⟩

theorem Evictable.and (hG : Evictable G) (hH : Evictable H) : Evictable fun st => G st ∧ H st :=
  fun st keys h => ⟨hG st keys h.1, hH st keys h.2⟩

/-- A fact that no single lost key falsifies. -/
theorem evictable_of_key (h : ∀ st key, H st → H { st with hot := st.hot.lose key }) : Evictable H := by
  intro st keys
  induction keys generalizing st with
  | nil => exact id
  | cons key keys ih => exact fun hst => ih _ (h st key hst)

end Facts

/-- The worker has bound the snapshot, as its row says. -/
def BoundTo (worker : ℕ) (snapshotId : String) (st : CheckpointState) : Prop :=
  ∃ b, st.bindings worker snapshotId = some b ∧ st.durable.holds b

/-- The worker remembers the revision that the durable store is at. -/
def Learned (worker : ℕ) (snapshotId : String) (part : CheckpointPart) (st : CheckpointState) : Prop :=
  st.versions worker snapshotId part = st.durable.versions snapshotId part

/-- Every worker's bindings are those of the rows. -/
def AllBound (st : CheckpointState) : Prop :=
  ∀ worker s b, st.bindings worker s = some b → st.durable.holds b

theorem cold_boundTo (worker : ℕ) (s : String) : Cold (BoundTo worker s) := fun _ _ h => h

theorem cold_learned (worker : ℕ) (s : String) (part : CheckpointPart) : Cold (Learned worker s part) :=
  fun _ _ h => h

theorem learned_learn (st : CheckpointState) (worker : ℕ) (s : String) (part : CheckpointPart) :
    Learned worker s part (st.learn worker s part) := by
  simp [Learned, CheckpointState.learn]

/-- What a worker learns of one part is nothing about another. -/
theorem learn_versions_of_ne (st : CheckpointState) (worker : ℕ) (s : String) {part part' : CheckpointPart}
    (h : part' ≠ part) (worker' : ℕ) (s' : String) :
    (st.learn worker s part).versions worker' s' part' = st.versions worker' s' part' := by
  by_cases hworker : worker' = worker
  · by_cases hs : s' = s
    · simp [CheckpointState.learn, hworker, hs, h]
    · simp [CheckpointState.learn, hworker, hs]
  · simp [CheckpointState.learn, hworker]

/-- What a worker may write, it has bound. -/
theorem boundTo_of_locked {st : CheckpointState} {worker : ℕ} {s : String}
    {b : SnapshotCheckpointBinding} {u : Unit} (hb : st.binding worker s = .ok b)
    (hlock : lockRow st.durable b = .ok u) : BoundTo worker s st := by
  refine ⟨b, ?_, ?_⟩
  · unfold CheckpointState.binding at hb
    split at hb
    · cases hb
    · rename_i b' hb'
      rw [hb', Except.ok.inj hb]
  · unfold lockRow at hlock
    split at hlock
    · assumption
    · cases hlock

@[simp] theorem bump_versions_self (d : DurableTier) (s : String) (part : CheckpointPart) :
    (d.bump s part).versions s part = d.versions s part + 1 := by
  simp [DurableTier.bump]

theorem bump_versions_of_ne {d : DurableTier} {s s' : String} {part part' : CheckpointPart}
    (h : s' = s → part' ≠ part) : (d.bump s part).versions s' part' = d.versions s' part' := by
  unfold DurableTier.bump
  by_cases hs : s' = s
  · subst hs
    simp [Function.update_of_ne (h rfl)]
  · simp [Function.update_of_ne hs]

@[simp] theorem lose_log (st : CheckpointState) (keys : List HotKey) : (st.lose keys).log = st.log := rfl

/-- A version key that is there after a loss was there before. -/
theorem version_of_lose {h : HotTier} {key : HotKey} {s : String} {part : CheckpointPart} {v : ℕ}
    (hv : (h.lose key).versions s part = some v) : h.versions s part = some v := by
  cases key with
  | version s' part' =>
    simp only [HotTier.lose, Function.update_apply] at hv
    split at hv
    · rename_i hs
      rw [Function.update_apply] at hv
      split at hv
      · cases hv
      · rw [hs]
        exact hv
    · exact hv
  | _ => exact hv

/-- A Redis command changes nothing but Redis. -/
theorem effect_hot {P : Platform} {n worker : ℕ} {o : Op} (ho : o.isHot) (st : CheckpointState) :
    ∃ hot, (effect P n worker st o).2 = { st with hot := hot } := by
  cases o <;> first | exact ⟨_, rfl⟩ | cases ho

/-- A Redis command answers. -/
theorem effect_hot_ok (P : Platform) (n worker : ℕ) {o : Op} (ho : o.isHot) (st : CheckpointState) :
    ∃ a, (effect P n worker st o).1 = .ok a := by
  cases o <;> first | exact ⟨_, rfl⟩ | cases ho

theorem Cold.effect {F : CheckpointState → Prop} (hF : Cold F) {P : Platform} {n worker : ℕ} {o : Op}
    (ho : o.isHot) {st : CheckpointState} (h : F st) : F (effect P n worker st o).2 := by
  obtain ⟨hot, he⟩ := effect_hot (P := P) ho st
  rw [he]
  exact hF st hot h

theorem start_oneAtATime {P : Platform} {n : ℕ} {st st' : CheckpointState} {ts : List Request}
    {t : Request} (h : (tieredSystem P n oneAtATime).start st ts t = some st') : ts = [] ∧ st' = st := by
  obtain ⟨hnil, h⟩ := Option.ite_none_right_eq_some.1 h
  exact ⟨List.isEmpty_iff.1 hnil, (Option.some.inj h).symm⟩

/-! ### Triples -/

/-- The await notes an answer. -/
def Op.isAnswer : Op → Bool
  | planAnswered .. => true
  | outcomesAnswered .. => true
  | _ => false

theorem effect_log {P : Platform} {n worker : ℕ} {o : Op} (ho : o.isAnswer = false)
    (st : CheckpointState) : (effect P n worker st o).2.log = st.log := by
  cases o
  case planAnswered | outcomesAnswered => cases ho
  case refreshVersion | durablePutPassPlan =>
    simp only [effect, refreshVersion, durablePutPassPlan]
    split <;> rfl
  case durablePutOutcomes =>
    simp only [effect, durablePutOutcomes]
    split
    · rfl
    · split <;> rfl
  all_goals rfl

/-- An await without Redis does what it should, after the keys that were lost before it. -/
theorem perform_cold {P : Platform} {n : ℕ} {t : Request} {st st' : CheckpointState} {o : Op} {c : Choice}
    {r : Checked o.Ans} (ho : o.isHot = false) (h : perform P n t st o c = some (r, st')) :
    (o.isSync → c.lost = []) ∧ r = (effect P n t.worker (st.lose c.lost) o).1 ∧
      st' = (effect P n t.worker (st.lose c.lost) o).2 := by
  unfold perform at h
  split at h
  · cases h
  · rename_i hsync
    refine ⟨fun ho => by_contra fun hne => hsync ⟨ho, hne⟩, ?_⟩
    split at h
    · exact ⟨(congrArg Prod.fst (Option.some.inj h)).symm, (congrArg Prod.snd (Option.some.inj h)).symm⟩
    · rw [if_neg (by simp [ho])] at h
      cases h

theorem perform_state {P : Platform} {n : ℕ} {t : Request} {st st' : CheckpointState} {o : Op} {c : Choice}
    {r : Checked o.Ans} (h : perform P n t st o c = some (r, st')) :
    st' = st.lose c.lost ∨ st' = (effect P n t.worker (st.lose c.lost) o).2 := by
  unfold perform at h
  split at h
  · cases h
  · split at h
    · exact .inr (congrArg Prod.snd (Option.some.inj h)).symm
    · rename_i effective m _
      split at h
      · have hst := (congrArg Prod.snd (Option.some.inj h)).symm
        cases effective with
        | true => exact .inr hst
        | false => exact .inl hst
      · cases h

theorem perform_hot {P : Platform} {n : ℕ} {t : Request} {st st' : CheckpointState} {o : Op} {c : Choice}
    {r : Checked o.Ans} (ho : o.isHot) (h : perform P n t st o c = some (r, st')) :
    (c.fate = .done ∧ (r, st') = effect P n t.worker (st.lose c.lost) o) ∨
    (∃ m, c.fate = .fails true m ∧ r = .error (.redis m) ∧
      st' = (effect P n t.worker (st.lose c.lost) o).2) ∨
    ∃ m, c.fate = .fails false m ∧ r = .error (.redis m) ∧ st' = st.lose c.lost := by
  unfold perform at h
  split at h
  · cases h
  · split at h
    · exact .inl ⟨‹_›, (Option.some.inj h).symm⟩
    · rename_i effective m hfate
      obtain ⟨hr, hst⟩ := Prod.mk.inj (Option.some.inj h)
      cases effective with
      | true => exact .inr (.inl ⟨m, hfate, hr.symm, hst.symm⟩)
      | false => exact .inr (.inr ⟨m, hfate, hr.symm, hst.symm⟩)

theorem perform_log {P : Platform} {n : ℕ} {t : Request} {st st' : CheckpointState} {o : Op} {c : Choice}
    {r : Checked o.Ans} (ho : o.isAnswer = false) (h : perform P n t st o c = some (r, st')) :
    st'.log = st.log := by
  rcases perform_state h with rfl | rfl
  · rfl
  · exact (effect_log ho _).trans (lose_log st c.lost)

/-- Every answer that was given is good. -/
def Faithful (good : Answer → Prop) (st : CheckpointState) : Prop := ∀ a ∈ st.log, good a

variable {P : Platform} {n : ℕ} {ok : Request → CheckpointState → Op → Choice → Prop}
  {good : Answer → Prop} {t : Request}

/-- The store under one call after the other, whose awaits meet the condition and whose
answers are good. -/
noncomputable abbrev tieredContract (P : Platform) (n : ℕ)
    (ok : Request → CheckpointState → Op → Choice → Prop) (good : Answer → Prop) :
    Contract ((tieredSystem P n oneAtATime).restrict ok) :=
  alone ((tieredSystem P n oneAtATime).restrict ok) (Faithful good)

section Awaits

variable {Pre : CheckpointState → Prop} {o : Op} {Q : o.Ans → CheckpointState → Prop}
  {E : CheckpointError → CheckpointState → Prop}

theorem await_cold (ho : o.isHot = false) (hlog : o.isAnswer = false)
    (h : ∀ st keys, Pre st → Contract.Ends Q E (effect P n t.worker (st.lose keys) o).1
      (effect P n t.worker (st.lose keys) o).2) :
    (tieredContract P n ok good).Triple t Pre (await o) Q E := by
  refine Contract.alone_call fun st c r st' hgood hst hp => ?_
  obtain ⟨-, hp⟩ := Option.ite_none_right_eq_some.1 hp
  refine ⟨?_, ?_⟩
  · have hsame : st'.log = st.log := (perform_log hlog hp)
    unfold Faithful
    rwa [hsame]
  · obtain ⟨-, rfl, rfl⟩ := perform_cold ho hp
    exact h st c.lost hst

/-- A step that awaits nothing. -/
theorem await_sync (ho : o.isSync) (hlog : o.isAnswer = false)
    (h : ∀ st, Pre st → Contract.Ends Q E (effect P n t.worker st o).1 (effect P n t.worker st o).2) :
    (tieredContract P n ok good).Triple t Pre (await o) Q E := by
  refine Contract.alone_call fun st c r st' hgood hst hp => ?_
  obtain ⟨-, hp⟩ := Option.ite_none_right_eq_some.1 hp
  refine ⟨?_, ?_⟩
  · have hsame : st'.log = st.log := perform_log hlog hp
    unfold Faithful
    rwa [hsame]
  · have hcold : o.isHot = false := by cases o <;> first | rfl | cases ho
    obtain ⟨hnil, rfl, rfl⟩ := perform_cold hcold hp
    rw [hnil ho]
    exact h st hst

/-- A Redis command takes effect and answers, or fails, whether or not it took effect. -/
theorem await_hot (ho : o.isHot)
    (hdone : ∀ st c a, Pre st → ok t st o c → c.fate = .done →
      (effect P n t.worker (st.lose c.lost) o).1 = .ok a →
      Q a (effect P n t.worker (st.lose c.lost) o).2)
    (hfail : ∀ st c m, Pre st → ok t st o c → c.fate = .fails true m →
      E (.redis m) (effect P n t.worker (st.lose c.lost) o).2)
    (hlost : ∀ st c m, Pre st → ok t st o c → c.fate = .fails false m → E (.redis m) (st.lose c.lost)) :
    (tieredContract P n ok good).Triple t Pre (await o) Q E := by
  refine Contract.alone_call fun st c r st' hgood hst hp => ?_
  obtain ⟨hok, hp⟩ := Option.ite_none_right_eq_some.1 hp
  refine ⟨by unfold Faithful; rwa [perform_log (by cases o <;> first | rfl | cases ho) hp], ?_⟩
  rcases perform_hot ho hp with ⟨hfate, hr⟩ | ⟨m, hfate, rfl, rfl⟩ | ⟨m, hfate, rfl, rfl⟩
  · obtain ⟨a, ha⟩ := effect_hot_ok P n t.worker ho (st.lose c.lost)
    have hq := hdone st c a hst hok hfate ha
    rw [← hr] at ha hq
    subst ha
    exact hq
  · exact hfail st c m hst hok hfate
  · exact hlost st c m hst hok hfate

end Awaits

section Calls

variable {R : CheckpointState → Prop}

/-- What a swallowed error leaves: any but the one that is thrown on. -/
def Swallowed (R : CheckpointState → Prop) (e : CheckpointError) (st : CheckpointState) : Prop :=
  e ≠ .principalMismatch ∧ R st

theorem triple_cacheError {E : CheckpointError → CheckpointState → Prop} (e : CheckpointError) :
    (tieredContract P n ok good).Triple t (Swallowed R e) (cacheError e) (fun _ => R) E := by
  rintro st hi ho ⟨hne, hR⟩
  unfold cacheError
  rw [if_neg hne]
  exact Contract.alone_ret (fun _ h => h) st hi ho hR

theorem triple_cacheWrite {E : CheckpointError → CheckpointState → Prop} {Pre : CheckpointState → Prop}
    {work : Store Unit}
    (h : (tieredContract P n ok good).Triple t Pre work (fun _ => R) (Swallowed R)) :
    (tieredContract P n ok good).Triple t Pre (cacheWrite work) (fun _ => R) E :=
  h.handle fun e => triple_cacheError e

/-- Reading the cache ends in a value that `G` speaks for, or in none. -/
theorem triple_cachedAt {α : Type} {E : CheckpointError → CheckpointState → Prop}
    {Pre : CheckpointState → Prop} {G : α → CheckpointState → Prop} {cached : Store (Option α)}
    (hit : Bool) (hPre : ∀ st, Pre st → R st)
    (h : hit = true → (tieredContract P n ok good).Triple t Pre cached
      (fun r st => R st ∧ ∀ a, r = some a → G a st) (Swallowed R)) :
    (tieredContract P n ok good).Triple t Pre (cachedAt hit cached)
      (fun r st => R st ∧ ∀ a, r = some a → G a st) E := by
  unfold cachedAt
  split
  · refine (h ‹_›).handle fun e => (triple_cacheError e).bind fun _ => ?_
    exact Contract.alone_ret fun st hR => ⟨hR, fun a ha => by cases ha⟩
  · exact Contract.alone_ret fun st hst => ⟨hPre st hst, fun a ha => by cases ha⟩

theorem triple_binding {E : CheckpointError → CheckpointState → Prop} {s : String}
    (hbound : ∀ st, R st → AllBound st)
    (hE : ∀ st, R st → st.bindings t.worker s = none → E (.bindingRequired s) st) :
    (tieredContract P n ok good).Triple t R (await (.binding s))
      (fun _ st => R st ∧ BoundTo t.worker s st) E := by
  refine await_sync rfl rfl fun st hst => ?_
  show Contract.Ends _ E ((st.binding t.worker s).map fun _ => ()) st
  unfold CheckpointState.binding
  split
  · rename_i h
    exact hE _ hst h
  · rename_i b h
    exact ⟨hst, b, h, hbound _ hst _ _ _ h⟩

theorem binding_of_boundTo {worker : ℕ} {s : String} {st : CheckpointState} (h : BoundTo worker s st) :
    ∃ b, st.binding worker s = .ok b ∧ st.durable.holds b := by
  obtain ⟨b, hb, hrow⟩ := h
  exact ⟨b, by rw [CheckpointState.binding, hb], hrow⟩

theorem triple_currentVersion {E : CheckpointError → CheckpointState → Prop} {s : String}
    {part : CheckpointPart} (hbound : ∀ st, R st → BoundTo t.worker s st) :
    (tieredContract P n ok good).Triple t R (await (.currentVersion s part))
      (fun (version : ℕ) st => R st ∧ version = st.versions t.worker s part) E := by
  refine await_sync rfl rfl fun st hst => ?_
  obtain ⟨b, hb, -⟩ := binding_of_boundTo (hbound _ hst)
  show Contract.Ends _ E ((st.binding t.worker s).map fun _ => _) st
  rw [hb]
  exact ⟨hst, rfl⟩

theorem triple_refreshVersion {E : CheckpointError → CheckpointState → Prop} {s : String}
    {part : CheckpointPart} (hR : Evictable R) (hbound : ∀ st, R st → BoundTo t.worker s st)
    (hlearn : ∀ st, R st → R (st.learn t.worker s part)) :
    (tieredContract P n ok good).Triple t R (await (.refreshVersion s part))
      (fun (version : ℕ) st => (R st ∧ Learned t.worker s part st) ∧
        version = st.durable.versions s part) E := by
  refine await_cold rfl rfl fun st keys hst => ?_
  have hst' := hR st keys hst
  obtain ⟨b, hb, hrow⟩ := binding_of_boundTo (hbound _ hst')
  have hrefresh : refreshVersion (st.lose keys) t.worker s part =
      (.ok (st.durable.versions s part), (st.lose keys).learn t.worker s part) := by
    have hlock : lockRow (st.lose keys).durable b = .ok () := if_pos hrow
    rw [refreshVersion, hb, show (Except.ok b >>= lockRow (st.lose keys).durable) = _ from hlock]
    rfl
  show Contract.Ends _ E (refreshVersion (st.lose keys) t.worker s part).1 (refreshVersion _ _ s part).2
  rw [hrefresh]
  exact ⟨⟨hlearn _ hst', learned_learn _ _ _ _⟩, rfl⟩

/-- Matching versions say at once what they are to prove of Redis. -/
theorem triple_hotMatchesDurable {E : CheckpointError → CheckpointState → Prop}
    {K : CheckpointState → Prop} {s : String} {part : CheckpointPart} (hR : Evictable R)
    (hbound : ∀ st, R st → BoundTo t.worker s st) (hlearn : ∀ st, R st → R (st.learn t.worker s part))
    (hmatch : ∀ st, R st → st.hot.versions s part = some (st.durable.versions s part) → K st) :
    (tieredContract P n ok good).Triple t R (tiers.hotMatchesDurable s part)
      (fun hit st => (R st ∧ Learned t.worker s part st) ∧ (hit = true → K st)) E := by
  refine (triple_refreshVersion hR hbound hlearn).bind fun (durableVersion : ℕ) => ?_
  have hready : Evictable fun st => R st ∧ Learned t.worker s part st :=
    hR.and (cold_learned _ _ _).lose
  have hread : (tieredContract P n ok good).Triple t
      (fun st => (R st ∧ Learned t.worker s part st) ∧ durableVersion = st.durable.versions s part)
      (await (.getVersion s part) >>= fun (hotVersion : Option ℕ) =>
        Prog.ret (decide (hotVersion = some durableVersion)))
      (fun hit st => (R st ∧ Learned t.worker s part st) ∧ (hit = true → K st))
      (Swallowed fun st => R st ∧ Learned t.worker s part st) := by
    refine Contract.Triple.bind (Q := fun (hotVersion : Option ℕ) st =>
      (R st ∧ Learned t.worker s part st) ∧ (hotVersion = some durableVersion → K st)) ?_
      fun hotVersion => ?_
    · refine await_hot rfl (fun st c a hst _ _ ha => ?_) (fun st c m hst _ _ => ?_)
        fun st c m hst _ _ => ?_
      · obtain ⟨hst, rfl⟩ := hst
        refine ⟨hready st _ hst, fun hv => hmatch _ (hR st _ hst.1) ?_⟩
        exact (Except.ok.inj ha).trans hv
      · exact ⟨by simp, hready st _ hst.1⟩
      · exact ⟨by simp, hready st _ hst.1⟩
    · exact Contract.alone_ret fun st hst => ⟨hst.1, fun h => hst.2 (of_decide_eq_true h)⟩
  exact hread.handle fun e => (triple_cacheError e).bind fun _ =>
    Contract.alone_ret fun st hst => ⟨hst, fun h => by cases h⟩

/-- A projection is written, then its version as the worker remembers it. -/
theorem triple_cacheProjection {E : CheckpointError → CheckpointState → Prop}
    {Pre : CheckpointState → Prop} {M : ℕ → CheckpointState → Prop} {s : String}
    {part : CheckpointPart} {work : Store Unit} (hbound : ∀ st, Pre st → BoundTo t.worker s st)
    (hwork : ∀ version, (tieredContract P n ok good).Triple t
      (fun st => Pre st ∧ version = st.versions t.worker s part) work (fun _ => M version) (Swallowed R))
    (hput : ∀ version, (tieredContract P n ok good).Triple t (M version)
      (await (.putVersion s part version)) (fun _ => R) (Swallowed R)) :
    (tieredContract P n ok good).Triple t Pre (tiers.cacheProjection s part work) (fun _ => R) E :=
  (triple_currentVersion hbound).bind fun version =>
    triple_cacheWrite ((hwork version).bind fun _ => hput version)

end Calls

/-- A Redis command keeps what it keeps of Redis wherever it takes effect, and all cold facts. -/
theorem await_hot_keeps {o : Op} {H F Pre : CheckpointState → Prop} (ho : o.isHot)
    (hPre : Evictable Pre) (hH : ∀ st, Pre st → H st ∧ F st) (hF : Cold F)
    (heffect : ∀ st c, Pre (st.lose c.lost) → ok t st o c → c.fate.takesEffect →
      H (effect P n t.worker (st.lose c.lost) o).2) :
    (tieredContract P n ok good).Triple t Pre (await o) (fun _ st => H st ∧ F st)
      (Swallowed fun st => H st ∧ F st) := by
  have hkeeps : ∀ st c, Pre st → ok t st o c → c.fate.takesEffect →
      H (effect P n t.worker (st.lose c.lost) o).2 ∧ F (effect P n t.worker (st.lose c.lost) o).2 :=
    fun st c hst hok hfate => ⟨heffect st c (hPre st _ hst) hok hfate,
      hF.effect ho (hH _ (hPre st _ hst)).2⟩
  refine await_hot ho (fun st c a hst hok hfate _ => hkeeps st c hst hok (by rw [hfate]; rfl))
    (fun st c m hst hok hfate => ?_) fun st c m hst _ _ => ?_
  · exact ⟨by simp, hkeeps st c hst hok (by rw [hfate]; rfl)⟩
  · exact ⟨by simp, hH _ (hPre st _ hst)⟩

/-! ### Which part of the snapshot a call is about -/

def Op.part : Op → Option CheckpointPart
  | binding _ => none
  | currentVersion _ part => some part
  | refreshVersion _ part => some part
  | getVersion _ part => some part
  | putVersion _ part _ => some part
  | durablePutPassPlan .. => some .plans
  | durableGetPassPlan .. => some .plans
  | getPlan .. => some .plans
  | setPlan .. => some .plans
  | planAnswered .. => some .plans
  | durablePutOutcomes .. => some .outcomes
  | durableGetOutcomes _ => some .outcomes
  | hset .. => some .outcomes
  | hgetall _ => some .outcomes
  | del _ => some .outcomes
  | expire _ => some .outcomes
  | outcomesAnswered .. => some .outcomes

def Call.part : Call → CheckpointPart
  | putPassPlan .. => .plans
  | getPassPlan .. => .plans
  | putOutcomes .. => .outcomes
  | getOutcomes _ => .outcomes

/-- The await is about the part, or about none. -/
def Op.within (part : CheckpointPart) (o : Op) : Prop := o.part = none ∨ o.part = some part

section Within

variable {s : String} {part : CheckpointPart}

theorem within_await {o : Op} (ho : o.within part) : (await o).Calls (Op.within part) :=
  Prog.calls_call ho

theorem admitted_within : tiers.Admitted (Op.within part) s part :=
  ⟨within_await (.inr rfl), within_await (.inr rfl), within_await (.inr rfl), fun _ => within_await (.inr rfl)⟩

/-- A call stays within the part that it is about. -/
theorem within_serve (t : Request) : (serve P t).Calls (Op.within t.call.part) := by
  obtain ⟨worker, call⟩ := t
  cases call with
  | putPassPlan s pass chunks =>
    exact Tiers.calls_putPassPlan (within_await (.inl rfl)) admitted_within (within_await (.inr rfl))
      (within_await (.inr rfl))
  | getPassPlan s pass =>
    exact (Tiers.calls_getPassPlan (within_await (.inl rfl)) admitted_within (within_await (.inr rfl))
      (within_await (.inr rfl)) fun _ => within_await (.inr rfl)).attempt.bind fun _ => within_await (.inr rfl)
  | putOutcomes s os =>
    exact Tiers.calls_putOutcomes (within_await (.inl rfl)) admitted_within (within_await (.inr rfl))
      (fun _ => within_await (.inr rfl)) (within_await (.inr rfl)) (within_await (.inr rfl))
      (within_await (.inr rfl))
  | getOutcomes s =>
    exact (Tiers.calls_getOutcomes (within_await (.inl rfl)) admitted_within (within_await (.inr rfl))
      (fun _ => within_await (.inr rfl)) (within_await (.inr rfl)) (within_await (.inr rfl))
      (within_await (.inr rfl))).attempt.bind fun _ => within_await (.inr rfl)

end Within

/-! ### Concrete calls -/

/-- A platform that knows one date and one artwork. -/
def samplePlatform : Platform where
  dateParse t := if t = "2026-01-01T00:00:00.000Z" then some 0 else none
  toISOString _ := "2026-01-01T00:00:00.000Z"
  parseUrl t := if t = "https://a/b" then some ⟨"https:", "", "", "https://a/b"⟩ else none

theorem roundTrips_samplePlatform : samplePlatform.RoundTrips := by
  refine ⟨fun t n m hn hm => ?_, fun t u v hu hv => ?_⟩
  · simp only [samplePlatform, if_true, Option.some.injEq] at hn hm
    split at hn
    · rw [← Option.some.inj hn, ← hm]
    · cases hn
  · simp only [samplePlatform] at hu hv
    split at hu
    · rw [← Option.some.inj hu] at hv ⊢
      simp only [if_true, Option.some.injEq] at hv
      rw [← hv]
    · cases hu

/-- One worker that has bound one snapshot. -/
def boundStore : CheckpointState where
  hot := HotTier.empty
  durable := ⟨fun s => if s = "s" then some ⟨"s", "t", "c", "d"⟩ else none, fun _ _ => 0, fun _ => [],
    fun _ _ => []⟩
  bindings worker s := if worker = 0 ∧ s = "s" then some ⟨"s", "t", "c", "d"⟩ else none
  versions _ _ _ := 0
  log := []

theorem fresh_boundStore : boundStore.Fresh := by
  refine ⟨rfl, fun _ => rfl, fun _ _ => rfl, fun worker s b hb => ?_, fun _ _ _ => le_rfl, rfl⟩
  simp only [boundStore] at hb
  split at hb
  · rw [← Option.some.inj hb]
    decide
  · cases hb

/-- A call from its start to its end, no key lost meanwhile. -/
def served (t : Request) (fates : List Fate) : List (Move Request Choice) :=
  .start t :: fates.map (fun fate => .go 0 ⟨[], fate⟩) ++ [.settle 0]

end CatalogSentinel.Checkpoint
