import CatalogSentinel.Checkpoint.Rules

/-!
The outcomes of the tiered store, one call after the other. Redis accumulates them
in a hash beside the version of the whole, and a batch may be written over the hash
without reading it: the version then speaks for entries that nobody has looked at.
-/

namespace CatalogSentinel.Checkpoint

open CatalogSentinel.Data CatalogSentinel.Concurrent CatalogSentinel.Distrokid

/-- A hash that is read as what the rows are: it holds them all, or is empty and not believed. -/
def Projects (rows hash : List ReleaseExtractionOutcome) : Prop := hash = [] ∨ hash.Perm rows

instance (rows hash : List ReleaseExtractionOutcome) : Decidable (Projects rows hash) := by
  unfold Projects
  infer_instance

/-- Redis holds what Postgres does wherever its version says so. -/
def Untorn (s : String) (st : CheckpointState) : Prop :=
  st.hot.versions s .outcomes = some (st.durable.versions s .outcomes) →
    Projects (st.durable.outcomes s) (st.hot.outcomes s)

instance (s : String) (st : CheckpointState) : Decidable (Untorn s st) := by
  unfold Untorn
  infer_instance

/-- Written over the hash, the batch of the call leaves what Postgres holds. -/
def Completable (P : Platform) (s : String) (st : CheckpointState) : Call → Prop
  | .putOutcomes _ outcomes =>
    match outcomes.mapM (sanitizeOutcome P) with
    | .ok sanitized => Projects (st.durable.outcomes s) (Distrokid.putOutcomes (st.hot.outcomes s) sanitized)
    | .error _ => True
  | _ => True

instance (P : Platform) (s : String) (st : CheckpointState) (call : Call) :
    Decidable (Completable P s st call) := by
  unfold Completable
  split
  · split <;> infer_instance
  · infer_instance

/-- A batch is written over the hash only where that leaves what Postgres holds, the hash is
not lost while a call writes it, and no refill under a current version is cut short. -/
def writesWholeHashes (P : Platform) (n : ℕ) (t : Request) (st : CheckpointState) (o : Op) (c : Choice) : Prop :=
  match o with
  | .getVersion s .outcomes => c.fate = .done → Learned t.worker s .outcomes st →
      isIncremental ((st.lose c.lost).hot.versions s .outcomes) (st.durable.versions s .outcomes) →
      Completable P s (st.lose c.lost) t.call
  | .hset s o => (HotKey.outcomes s ∈ c.lost → st.hot.outcomes s = []) ∧
      (c.fate = .done ∨ Untorn s (if c.fate.takesEffect then
        (effect P n t.worker (st.lose c.lost) (.hset s o)).2 else st.lose c.lost))
  | _ => True

instance (P : Platform) (n : ℕ) (t : Request) (st : CheckpointState) (o : Op) (c : Choice) :
    Decidable (writesWholeHashes P n t st o c) := by
  unfold writesWholeHashes Learned
  split <;> infer_instance

/-- Two answers with the same outcomes, in whichever order: a hash has none. -/
def SameOutcomes : Checked (List ReleaseExtractionOutcome) → Checked (List ReleaseExtractionOutcome) → Prop
  | .ok outcomes, .ok outcomes' => outcomes.Perm outcomes'
  | .error e, .error e' => e = e'
  | _, _ => False

/-- The outcomes that were answered are those that Postgres would have answered. -/
def outcomesAgree : Answer → Prop
  | .plan .. => True
  | .outcomes answer reference => SameOutcomes answer reference

/-! ### Redis -/

/-- The outcome is one that the store has accepted. -/
def Sanitized (P : Platform) (o : ReleaseExtractionOutcome) : Prop := ∃ o₀, sanitizeOutcome P o₀ = .ok o

/-- The rows as the store has written them, and versions that have been. -/
structure OutcomesKept (P : Platform) (st : CheckpointState) : Prop where
  bound : AllBound st
  keys : ∀ s, ((st.durable.outcomes s).map (·.outcomeReleaseId)).Nodup
  rows : ∀ s, ∀ o ∈ st.durable.outcomes s, Sanitized P o
  unwritten : ∀ s, st.durable.versions s .outcomes = 0 → st.durable.outcomes s = []
  remembered : ∀ worker s, st.versions worker s .outcomes ≤ st.durable.versions s .outcomes

/-- Redis is never ahead, and holds accepted outcomes only. -/
structure HashesSound (P : Platform) (st : CheckpointState) : Prop where
  entries : ∀ s, ∀ o ∈ st.hot.outcomes s, Sanitized P o
  behind : ∀ s v, st.hot.versions s .outcomes = some v → v ≤ st.durable.versions s .outcomes

/-- Between the calls. -/
def OutcomesInv (P : Platform) (st : CheckpointState) : Prop :=
  (OutcomesKept P st ∧ HashesSound P st) ∧ ∀ s, Untorn s st

/-- While the hash of a snapshot is being written. -/
def Writing (P : Platform) (s : String) (st : CheckpointState) : Prop :=
  (OutcomesKept P st ∧ HashesSound P st) ∧ ∀ s', s' ≠ s → Untorn s' st

/-- The version is behind, and the one in Redis does not match. -/
def Stale (s : String) (version : ℕ) (st : CheckpointState) : Prop :=
  version < st.durable.versions s .outcomes ∧
    st.hot.versions s .outcomes ≠ some (st.durable.versions s .outcomes)

/-- With these outcomes still to write the hash becomes what Postgres holds, or there are none
and the version to write speaks for nothing. -/
def Fills (s : String) (version : ℕ) (os : List ReleaseExtractionOutcome) (st : CheckpointState) : Prop :=
  Projects (st.durable.outcomes s) (Distrokid.putOutcomes (st.hot.outcomes s) os) ∨
    os = [] ∧ Stale s version st

section Hashes

variable {P : Platform} {n worker : ℕ} {s : String} {st : CheckpointState}

theorem cold_outcomesKept : Cold (OutcomesKept P) :=
  fun _ _ h => ⟨h.bound, h.keys, h.rows, h.unwritten, h.remembered⟩

theorem outcomes_of_lose (h : HotTier) (key : HotKey) (s : String) :
    (h.lose key).outcomes s = if key = .outcomes s then [] else h.outcomes s := by
  cases key with
  | outcomes s' =>
    simp only [HotTier.lose, Function.update_apply, HotKey.outcomes.injEq, eq_comm]
  | _ => rfl

/-- Losing other keys leaves the hash. -/
theorem lose_outcomes {keys : List HotKey} (h : HotKey.outcomes s ∈ keys → st.hot.outcomes s = []) :
    (st.lose keys).hot.outcomes s = st.hot.outcomes s := by
  induction keys generalizing st with
  | nil => rfl
  | cons key keys ih =>
    have hkey : (st.hot.lose key).outcomes s = st.hot.outcomes s := by
      rw [outcomes_of_lose]
      split
      · rename_i he
        exact (h (he ▸ List.mem_cons_self)).symm
      · rfl
    have hrest := @ih { st with hot := st.hot.lose key } fun hmem => by
      rw [show (CheckpointState.hot _).outcomes s = _ from hkey]
      exact h (List.mem_cons_of_mem key hmem)
    exact hrest.trans hkey

theorem evictable_hashesSound : Evictable (HashesSound P) :=
  evictable_of_key fun st key h => by
    refine ⟨fun s o ho => ?_, fun s v hv => h.behind s v (version_of_lose hv)⟩
    rw [show (CheckpointState.hot _).outcomes s = _ from outcomes_of_lose _ _ s] at ho
    split at ho
    · cases ho
    · exact h.entries s o ho

/-- A hash that is lost is not believed. -/
theorem Projects.lose {rows : List ReleaseExtractionOutcome} {key : HotKey}
    (h : Projects rows (st.hot.outcomes s)) : Projects rows ((st.hot.lose key).outcomes s) := by
  rw [outcomes_of_lose]
  split
  · exact .inl rfl
  · exact h

theorem evictable_untorn (s : String) : Evictable (Untorn s) :=
  evictable_of_key fun _ _ h hv => (h (version_of_lose hv)).lose

theorem evictable_writing : Evictable (Writing P s) := fun st keys h =>
  ⟨⟨cold_outcomesKept st _ h.1.1, evictable_hashesSound st keys h.1.2⟩,
    fun s' hs' => evictable_untorn s' st keys (h.2 s' hs')⟩

theorem evictable_outcomesInv : Evictable (OutcomesInv P) := fun st keys h =>
  ⟨⟨cold_outcomesKept st _ h.1.1, evictable_hashesSound st keys h.1.2⟩,
    fun s' => evictable_untorn s' st keys (h.2 s')⟩

theorem evictable_fills (s : String) (version : ℕ) : Evictable (Fills s version []) :=
  evictable_of_key fun _ _ h => h.imp Projects.lose fun hstale =>
    ⟨rfl, hstale.2.1, fun hv => hstale.2.2 (version_of_lose hv)⟩

theorem Writing.inv (h : Writing P s st) (hs : Untorn s st) : OutcomesInv P st := by
  refine ⟨h.1, fun s' => ?_⟩
  by_cases hs' : s' = s
  · rw [hs']
    exact hs
  · exact h.2 s' hs'

theorem OutcomesInv.writing (h : OutcomesInv P st) : Writing P s st := ⟨h.1, fun s' _ => h.2 s'⟩

theorem Fills.untorn {version : ℕ} (h : Fills s version [] st) : Untorn s st := by
  intro hv
  rcases h with h | ⟨-, hstale⟩
  · exact h
  · exact absurd hv hstale.2

theorem OutcomesInv.learn (h : OutcomesInv P st) :
    OutcomesInv P (st.learn worker s .outcomes) := by
  refine ⟨⟨⟨h.1.1.bound, h.1.1.keys, h.1.1.rows, h.1.1.unwritten, fun worker' s' => ?_⟩,
    h.1.2.entries, h.1.2.behind⟩, h.2⟩
  have hle := h.1.1.remembered worker' s'
  by_cases hworker : worker' = worker
  · by_cases hs : s' = s
    · simp [CheckpointState.learn, hworker, hs]
    · simpa [CheckpointState.learn, hworker, hs] using hworker ▸ hle
  · simpa [CheckpointState.learn, hworker] using hle

/-- Writing one outcome to the hash of a snapshot. -/
theorem Writing.hset {o : ReleaseExtractionOutcome} (h : Writing P s st) (ho : Sanitized P o) :
    Writing P s (effect P n worker st (.hset s o)).2 := by
  refine ⟨⟨cold_outcomesKept st _ h.1.1, fun s' o' ho' => ?_, h.1.2.behind⟩, fun s' hs' hv => ?_⟩
  · simp only [effect, Function.update_apply] at ho'
    split at ho'
    · rcases mem_put ho' with rfl | ho'
      · exact ho
      · exact h.1.2.entries s o' ho'
    · exact h.1.2.entries s' o' ho'
  · have hsame : (effect P n worker st (.hset s o)).2.hot.outcomes s' = st.hot.outcomes s' :=
      Function.update_of_ne hs' _ _
    rw [hsame]
    exact h.2 s' hs' hv

theorem OutcomesInv.del (h : OutcomesInv P st) : OutcomesInv P (effect P n worker st (.del s)).2 :=
  evictable_outcomesInv st [.outcomes s] h

theorem Writing.putVersion {version : ℕ} (h : Writing P s st) (hfills : Fills s version [] st)
    (hversion : version ≤ st.durable.versions s .outcomes) :
    OutcomesInv P (effect P n worker st (.putVersion s .outcomes version)).2 := by
  have hhot : ∀ s', (effect P n worker st (.putVersion s .outcomes version)).2.hot.versions s' .outcomes =
      if s' = s then some version else st.hot.versions s' .outcomes := by
    intro s'
    simp only [effect, Function.update_apply]
    split <;> simp
  refine Writing.inv (s := s) ⟨⟨cold_outcomesKept st _ h.1.1, h.1.2.entries, fun s' v hv => ?_⟩,
    fun s' hs' hv => ?_⟩ fun hv => ?_
  · rw [hhot] at hv
    split at hv
    · rename_i hs'
      rw [hs', ← Option.some.inj hv]
      exact hversion
    · exact h.1.2.behind s' v hv
  · rw [hhot, if_neg hs'] at hv
    exact h.2 s' hs' hv
  · rw [hhot, if_pos rfl] at hv
    rcases hfills with hfills | ⟨-, hstale⟩
    · exact hfills
    · exact absurd (Option.some.inj hv) hstale.1.ne

end Hashes

/-! ### What Postgres answers -/

section Rows

variable {P : Platform} (hP : P.RoundTrips) {st : CheckpointState} {worker : ℕ} {s : String}

theorem sanitized_of_mapM {os os' : List ReleaseExtractionOutcome}
    (h : os.mapM (sanitizeOutcome P) = .ok os') : ∀ o ∈ os', Sanitized P o := by
  intro o ho
  rw [mapM_ok] at h
  induction h with
  | nil => cases ho
  | @cons o₀ o₁ _ _ hfirst hrest ih =>
    rcases List.mem_cons.1 ho with rfl | ho
    · exact ⟨o₀, hfirst⟩
    · exact ih ho

include hP in
/-- What the store has accepted it accepts unchanged, or not at all. -/
theorem mapM_sanitized {os os' : List ReleaseExtractionOutcome} (hos : ∀ o ∈ os, Sanitized P o)
    (h : os.mapM (sanitizeOutcome P) = .ok os') : os' = os := by
  rw [mapM_ok] at h
  induction h with
  | nil => rfl
  | cons ho hrest ih =>
    obtain ⟨o₀, ho₀⟩ := hos _ List.mem_cons_self
    rw [settles_sanitizeOutcome hP _ _ _ ho₀ ho, ih fun o ho => hos o (List.mem_cons_of_mem _ ho)]

/-- The answer of Postgres to a worker that has bound the snapshot. -/
theorem durableGetOutcomes_eq (hb : BoundTo worker s st) : durableGetOutcomes P st worker s =
    (byReleaseId (st.durable.outcomes s)).mapM (sanitizeOutcome P) := by
  obtain ⟨b, hb, hrow⟩ := binding_of_boundTo hb
  unfold durableGetOutcomes
  rw [hb]
  show (byReleaseId (if st.durable.holds b then st.durable.outcomes s else [])).mapM _ = _
  rw [if_pos hrow]

theorem perm_byReleaseId (rows : List ReleaseExtractionOutcome) : (byReleaseId rows).Perm rows :=
  List.perm_insertionSort _ rows

include hP in
theorem perm_of_answered {os : List ReleaseExtractionOutcome} (hkept : OutcomesKept P st)
    (hb : BoundTo worker s st) (h : durableGetOutcomes P st worker s = .ok os) :
    os.Perm (st.durable.outcomes s) := by
  rw [durableGetOutcomes_eq hb] at h
  have hrows := (perm_byReleaseId (st.durable.outcomes s))
  rw [mapM_sanitized hP (fun o ho => hkept.rows s o (hrows.mem_iff.1 ho)) h]
  exact hrows

theorem harmless_durableGetOutcomes : Harmless (durableGetOutcomes P st worker s) := by
  refine Harmless.bind ?_ fun b => Harmless.list (harmless_sanitizeOutcome P) _
  unfold Harmless CheckpointState.binding
  split <;> simp

include hP in
/-- Where Redis holds the rows, and all of them pass the check, they are what Postgres answers. -/
theorem answered_of_perm {os cached : List ReleaseExtractionOutcome} (hkept : OutcomesKept P st)
    (hb : BoundTo worker s st) (hos : os.Perm (st.durable.outcomes s))
    (h : os.mapM (sanitizeOutcome P) = .ok cached) :
    SameOutcomes (.ok cached) (durableGetOutcomes P st worker s) := by
  have hsame : ∀ o ∈ os, sanitizeOutcome P o = .ok o := by
    intro o ho
    have hcached := mapM_sanitized hP (fun o ho => hkept.rows s o (hos.mem_iff.1 ho)) h
    rw [hcached, mapM_ok, List.forall₂_same] at h
    exact h o ho
  have hrows := perm_byReleaseId (st.durable.outcomes s)
  have hanswer : (byReleaseId (st.durable.outcomes s)).mapM (sanitizeOutcome P) =
      .ok (byReleaseId (st.durable.outcomes s)) := by
    rw [mapM_ok, List.forall₂_same]
    exact fun o ho => hsame o (hos.mem_iff.2 (hrows.mem_iff.1 ho))
  rw [durableGetOutcomes_eq hb, hanswer,
    mapM_sanitized hP (fun o ho => hkept.rows s o (hos.mem_iff.1 ho)) h]
  exact hos.trans hrows.symm

/-- A batch that is accepted leaves accepted rows, one for each release. -/
theorem insertBatches_ok {n fuel : ℕ} {rows os rows' : List ReleaseExtractionOutcome}
    (hrows : (rows.map (·.outcomeReleaseId)).Nodup ∧ ∀ o ∈ rows, Sanitized P o)
    (hos : ∀ o ∈ os, Sanitized P o) (h : insertBatches n rows fuel os = .ok rows') :
    (rows'.map (·.outcomeReleaseId)).Nodup ∧ ∀ o ∈ rows', Sanitized P o := by
  induction fuel generalizing rows os with
  | zero =>
    obtain rfl := Except.ok.inj h
    exact hrows
  | succ fuel ih =>
    cases os with
    | nil =>
      obtain rfl := Except.ok.inj h
      exact hrows
    | cons o os =>
      rw [insertBatches] at h
      · split at h
        · refine ih ⟨nodup_putAll hrows.1, fun o' ho' => ?_⟩ (fun o' ho' => hos o' (List.mem_of_mem_drop ho')) h
          rcases mem_putAll ho' with ho' | ho'
          · exact hrows.2 o' ho'
          · exact hos o' (List.mem_of_mem_take ho')
        · cases h
      · simp

theorem sameOutcomes_refl (answer : Checked (List ReleaseExtractionOutcome)) :
    SameOutcomes answer answer := by
  cases answer with
  | ok os => exact List.Perm.refl os
  | error e => rfl

end Rows

/-! ### The calls -/

/-- Postgres answers the worker these outcomes, in some order. -/
def OutcomesAre (P : Platform) (worker : ℕ) (s : String) (answer : Checked (List ReleaseExtractionOutcome))
    (st : CheckpointState) : Prop := SameOutcomes answer (durableGetOutcomes P st worker s)

section Calls

variable {P : Platform} {n : ℕ} {t : Request} {s : String} {F : CheckpointState → Prop}

/-- The store under calls whose hashes are written whole. -/
noncomputable abbrev outcomesContract (P : Platform) (n : ℕ) :=
  tieredContract P n (writesWholeHashes P n) outcomesAgree

/-- One outcome after the other goes into the hash. -/
theorem triple_hotPutOutcomes (hF : Cold F) (version : ℕ) {os : List ReleaseExtractionOutcome}
    (hos : ∀ o ∈ os, Sanitized P o) :
    (outcomesContract P n).Triple t (fun st => (Writing P s st ∧ F st) ∧ Fills s version os st)
      (tiers.hotPutOutcomes s os) (fun _ st => (Writing P s st ∧ F st) ∧ Fills s version [] st)
      (Swallowed fun st => OutcomesInv P st ∧ F st) := by
  have hlose : Evictable fun st => Writing P s st ∧ F st := evictable_writing.and hF.lose
  induction os with
  | nil =>
    have hready := hlose.and (evictable_fills s version)
    have hfail : ∀ st keys, ((Writing P s st ∧ F st) ∧ Fills s version [] st) →
        OutcomesInv P (st.lose keys) ∧ F (st.lose keys) := fun st keys h =>
      have h' := hready st keys h
      ⟨h'.1.1.inv h'.2.untorn, h'.1.2⟩
    exact await_hot rfl (fun st c a h _ _ _ => hready st c.lost h)
      (fun st c m h _ _ => ⟨by simp, hfail st c.lost h⟩) fun st c m h _ _ => ⟨by simp, hfail st c.lost h⟩
  | cons o os ih =>
    have hwrite : ∀ st keys, (Writing P s st ∧ F st) →
        Writing P s (effect P n t.worker (st.lose keys) (.hset s o)).2 ∧
          F (effect P n t.worker (st.lose keys) (.hset s o)).2 := fun st keys h =>
      have h' := hlose st keys h
      ⟨h'.1.hset (hos o List.mem_cons_self), hF.effect rfl h'.2⟩
    refine Contract.Triple.bind ?_ fun _ => ih fun o ho => hos o (List.mem_cons_of_mem _ ho)
    refine await_hot rfl (fun st c a h hok _ _ => ?_) (fun st c m h hok hfate => ?_)
      fun st c m h hok hfate => ?_
    · refine ⟨hwrite st c.lost h.1, ?_⟩
      rcases h.2 with hfill | ⟨hnil, -⟩
      · have hhash : (effect P n t.worker (st.lose c.lost) (.hset s o)).2.hot.outcomes s =
            Distrokid.putOutcomes (st.hot.outcomes s) [o] := by
          rw [← lose_outcomes hok.1]
          exact Function.update_self _ _ _
        refine .inl ?_
        rw [hhash]
        exact hfill
      · cases hnil
    · have huntorn := hok.2.resolve_left (by rw [hfate]; simp)
      rw [hfate] at huntorn
      exact ⟨by simp, (hwrite st c.lost h.1).1.inv huntorn, (hwrite st c.lost h.1).2⟩
    · have huntorn := hok.2.resolve_left (by rw [hfate]; simp)
      rw [hfate] at huntorn
      exact ⟨by simp, (hlose st c.lost h.1).1.inv huntorn, (hlose st c.lost h.1).2⟩

/-- The hash is deleted and filled with what Postgres holds. -/
theorem triple_replaceOutcomes (hF : Cold F) (version : ℕ) {os : List ReleaseExtractionOutcome} :
    (outcomesContract P n).Triple t
      (fun st => (OutcomesInv P st ∧ F st) ∧ os.Perm (st.durable.outcomes s)) (tiers.replaceOutcomes s os)
      (fun _ st => (Writing P s st ∧ F st) ∧ Fills s version [] st)
      (Swallowed fun st => OutcomesInv P st ∧ F st) := by
  intro st hi ho hst
  have hos : ∀ o ∈ os, Sanitized P o := fun o ho => hst.1.1.1.1.rows s o (hst.2.mem_iff.1 ho)
  have hnodup : (os.map ReleaseExtractionOutcome.outcomeReleaseId).Nodup :=
    (hst.2.map _).nodup_iff.2 (hst.1.1.1.1.keys s)
  have hlose : Evictable fun st => OutcomesInv P st ∧ F st := evictable_outcomesInv.and hF.lose
  have hdel : (outcomesContract P n).Triple t
      (fun st => (OutcomesInv P st ∧ F st) ∧ os.Perm (st.durable.outcomes s)) (await (.del s))
      (fun _ st => (Writing P s st ∧ F st) ∧ Fills s version os st)
      (Swallowed fun st => OutcomesInv P st ∧ F st) := by
    have hdeleted : ∀ st keys, (OutcomesInv P st ∧ F st) →
        OutcomesInv P (effect P n t.worker (st.lose keys) (.del s)).2 ∧
          F (effect P n t.worker (st.lose keys) (.del s)).2 := fun st keys h =>
      have h' := hlose st keys h
      ⟨h'.1.del, hF.effect rfl h'.2⟩
    refine await_hot rfl (fun st c a h _ _ _ => ?_) (fun st c m h _ _ => ⟨by simp, hdeleted st _ h.1⟩)
      fun st c m h _ _ => ⟨by simp, hlose st _ h.1⟩
    have h' := hdeleted st c.lost h.1
    have hempty : (effect P n t.worker (st.lose c.lost) (.del s)).2.hot.outcomes s = [] :=
      Function.update_self _ _ _
    refine ⟨⟨h'.1.writing, h'.2⟩, .inl ?_⟩
    rw [hempty, show Distrokid.putOutcomes [] os = os from putAll_of_nodup hnodup]
    exact .inr h.2
  exact (hdel.bind fun _ => triple_hotPutOutcomes hF version hos) st hi ho hst

/-- The hash is written, then the version of the outcomes. -/
theorem triple_projectOutcomes {E : CheckpointError → CheckpointState → Prop}
    {Pre : CheckpointState → Prop} {work : Store Unit} (hF : Cold F)
    (hbound : ∀ st, Pre st → BoundTo t.worker s st)
    (hwork : ∀ version, (outcomesContract P n).Triple t
      (fun st => Pre st ∧ version = st.versions t.worker s .outcomes) work
      (fun _ st => (Writing P s st ∧ F st ∧ version = st.versions t.worker s .outcomes) ∧
        Fills s version [] st)
      (Swallowed fun st => OutcomesInv P st ∧ F st)) :
    (outcomesContract P n).Triple t Pre (tiers.cacheProjection s .outcomes work)
      (fun _ st => OutcomesInv P st ∧ F st) E := by
  refine triple_cacheProjection (M := fun version st => (Writing P s st ∧ F st ∧
    version = st.versions t.worker s .outcomes) ∧ Fills s version [] st) hbound hwork fun version => ?_
  have hremembered : Cold fun st : CheckpointState => F st ∧ version = st.versions t.worker s .outcomes :=
    hF.and fun _ _ h => h
  have hlose := (evictable_writing (P := P) (s := s).and hremembered.lose).and
    (evictable_fills s version)
  have hput : ∀ st keys, ((Writing P s st ∧ F st ∧ version = st.versions t.worker s .outcomes) ∧
      Fills s version [] st) →
      OutcomesInv P (effect P n t.worker (st.lose keys) (.putVersion s .outcomes version)).2 ∧
        F (effect P n t.worker (st.lose keys) (.putVersion s .outcomes version)).2 := fun st keys h =>
    have h' := hlose st keys h
    ⟨h'.1.1.putVersion h'.2 (h'.1.2.2 ▸ h'.1.1.1.1.remembered t.worker s), hF.effect rfl h'.1.2.1⟩
  refine await_hot rfl (fun st c a h _ _ _ => hput st c.lost h)
    (fun st c m h _ _ => ⟨by simp, hput st c.lost h⟩) fun st c m h _ _ => ?_
  have h' := hlose st c.lost h
  exact ⟨by simp, h'.1.1.inv h'.2.untorn, h'.1.2.1⟩

variable (hP : P.RoundTrips)
include hP

/-- Outcomes that are read from Redis where it holds what Postgres does are those that
Postgres answers. -/
theorem triple_cachedOutcomes :
    (outcomesContract P n).Triple t
      (fun st => ((OutcomesInv P st ∧ BoundTo t.worker s st) ∧ Learned t.worker s .outcomes st) ∧
        Projects (st.durable.outcomes s) (st.hot.outcomes s))
      (tiers.cachedOutcomes P s)
      (fun r st => ((OutcomesInv P st ∧ BoundTo t.worker s st) ∧ Learned t.worker s .outcomes st) ∧
        ∀ os, r = some os → OutcomesAre P t.worker s (.ok os) st)
      (Swallowed fun st => (OutcomesInv P st ∧ BoundTo t.worker s st) ∧
        Learned t.worker s .outcomes st) := by
  have hR : Evictable fun st => (OutcomesInv P st ∧ BoundTo t.worker s st) ∧
      Learned t.worker s .outcomes st :=
    (evictable_outcomesInv.and (cold_boundTo _ _).lose).and (cold_learned _ _ _).lose
  refine Contract.Triple.bind (Q := fun (stored : List ReleaseExtractionOutcome) st =>
    ((OutcomesInv P st ∧ BoundTo t.worker s st) ∧ Learned t.worker s .outcomes st) ∧
      Projects (st.durable.outcomes s) stored) ?_ fun stored => ?_
  · refine await_hot rfl (fun st c stored h _ _ hr => ?_) (fun st c m h _ _ => ⟨by simp, hR st _ h.1⟩)
      fun st c m h _ _ => ⟨by simp, hR st _ h.1⟩
    have hproject : Evictable fun st =>
        Projects (st.durable.outcomes s) (st.hot.outcomes s) :=
      evictable_of_key fun st key h => h.lose
    refine ⟨hR st _ h.1, ?_⟩
    rw [← Except.ok.inj hr]
    exact hproject st c.lost h.2
  · show (outcomesContract P n).Triple t _ (Prog.ofExcept (stored.mapM (sanitizeOutcome P)) >>= _) _ _
    cases hcached : stored.mapM (sanitizeOutcome P) with
    | error e =>
      exact Contract.alone_raise fun st h =>
        ⟨(Harmless.list (harmless_sanitizeOutcome P) stored).error hcached, h.1⟩
    | ok cached =>
      -- What is not empty was written, and nothing is wanting where nothing was written.
      have hanswer : ∀ st, ((OutcomesInv P st ∧ BoundTo t.worker s st) ∧ Learned t.worker s .outcomes st) ∧
          Projects (st.durable.outcomes s) stored →
          (stored = [] → st.durable.versions s .outcomes = 0) → OutcomesAre P t.worker s (.ok cached) st := by
        rintro st ⟨hready, hproject⟩ hnone
        refine answered_of_perm hP hready.1.1.1.1 hready.1.2 ?_ hcached
        rcases hproject with rfl | hperm
        · rw [hready.1.1.1.1.unwritten s (hnone rfl)]
        · exact hperm
      show (outcomesContract P n).Triple t _ (if cached.length > 0 then Prog.ret (some cached)
        else await (.currentVersion s .outcomes) >>= fun version : ℕ =>
          Prog.ret (if version = 0 then some cached else none)) _ _
      split
      · rename_i hlength
        refine Contract.alone_ret fun st h => ⟨h.1, fun os hos => ?_⟩
        cases hos
        refine hanswer st h fun hempty => ?_
        subst hempty
        cases hcached
        exact absurd hlength (by simp)
      · refine (triple_currentVersion (R := fun st => ((OutcomesInv P st ∧ BoundTo t.worker s st) ∧
          Learned t.worker s .outcomes st) ∧ Projects (st.durable.outcomes s) stored)
          fun st h => h.1.1.2).bind fun version => ?_
        refine Contract.alone_ret fun st h => ⟨h.1.1, fun os hos => ?_⟩
        obtain ⟨h, hversion⟩ := h
        split at hos
        · rename_i hzero
          cases hos
          exact hanswer st h fun _ => by rw [← h.1.2, ← hversion, hzero]
        · cases hos

/-- `getOutcomes` answers what Postgres would, or throws what it would. -/
theorem triple_getOutcomes :
    (outcomesContract P n).Triple t (OutcomesInv P) (tiers.getOutcomes P s)
      (fun r st => OutcomesInv P st ∧ OutcomesAre P t.worker s (.ok r) st)
      (fun e st => OutcomesInv P st ∧ OutcomesAre P t.worker s (.error e) st) := by
  have hbound : Evictable fun st => OutcomesInv P st ∧ BoundTo t.worker s st :=
    evictable_outcomesInv.and (cold_boundTo _ _).lose
  have hready := hbound.and (cold_learned t.worker s .outcomes).lose
  have hunbound : ∀ st : CheckpointState, st.bindings t.worker s = none →
      OutcomesAre P t.worker s (.error (.bindingRequired s)) st := by
    intro st hnone
    unfold OutcomesAre durableGetOutcomes CheckpointState.binding
    rw [hnone]
    exact sameOutcomes_refl _
  refine (triple_binding (R := OutcomesInv P) (fun st h => h.1.1.bound) fun st h hnone =>
    ⟨h, hunbound st hnone⟩).bind fun _ => ?_
  refine (triple_hotMatchesDurable hbound (fun st h => h.2) (fun st h => ⟨h.1.learn, h.2⟩)
    fun st h hv => h.1.2 s hv).bind fun hit => ?_
  refine (triple_cachedAt (R := fun st => (OutcomesInv P st ∧ BoundTo t.worker s st) ∧
    Learned t.worker s .outcomes st) (G := fun os => OutcomesAre P t.worker s (.ok os)) hit
    (fun st h => h.1) fun htrue => (triple_cachedOutcomes hP).pre fun st _ h => ⟨h.1, h.2 htrue⟩).bind
    fun cached => ?_
  cases cached with
  | some os => exact Contract.alone_ret fun st h => ⟨h.1.1.1, h.2 os rfl⟩
  | none =>
    refine Contract.Triple.bind (Q := fun (durable : List ReleaseExtractionOutcome) st =>
      ((OutcomesInv P st ∧ BoundTo t.worker s st) ∧ Learned t.worker s .outcomes st) ∧
        durableGetOutcomes P st t.worker s = .ok durable) ?_ fun durable => ?_
    · refine await_cold rfl rfl fun st keys h => ?_
      have h' := hready st keys h.1
      show Contract.Ends _ _ (durableGetOutcomes P (st.lose keys) t.worker s) (st.lose keys)
      cases hr : durableGetOutcomes P (st.lose keys) t.worker s with
      | ok r => exact ⟨h', hr⟩
      | error e =>
        refine ⟨h'.1.1, ?_⟩
        unfold OutcomesAre
        rw [hr]
        exact sameOutcomes_refl _
    · have hcold : Cold fun st => BoundTo t.worker s st ∧
          durableGetOutcomes P st t.worker s = .ok durable :=
        (cold_boundTo _ _).and fun _ _ h => h
      refine Contract.Triple.bind (triple_projectOutcomes hcold (fun st h => h.1.1.2) fun version => ?_)
        fun _ => Contract.alone_ret fun st h => ⟨h.1, ?_⟩
      · have hversion := hcold.and fun (st : CheckpointState) hot
          (h : version = st.versions t.worker s .outcomes) => h
        refine (triple_replaceOutcomes hversion version).consequence (fun st _ h => ?_)
          (fun _ st _ h => ?_) fun e st _ h => ?_
        · exact ⟨⟨h.1.1.1.1, ⟨h.1.1.1.2, h.1.2⟩, h.2⟩,
            perm_of_answered hP h.1.1.1.1.1.1 h.1.1.1.2 h.1.2⟩
        · exact ⟨⟨h.1.1, h.1.2.1, h.1.2.2⟩, h.2⟩
        · exact ⟨h.1, h.2.1, h.2.2.1⟩
      · unfold OutcomesAre
        rw [h.2.2]
        exact sameOutcomes_refl _

omit hP in
/-- New rows under a new version. -/
theorem OutcomesInv.written {st : CheckpointState} {rows : List ReleaseExtractionOutcome}
    (h : OutcomesInv P st)
    (hrows : (rows.map (·.outcomeReleaseId)).Nodup ∧ ∀ o ∈ rows, Sanitized P o) :
    OutcomesInv P { st with durable := { st.durable with
      outcomes := Function.update st.durable.outcomes s rows }.bump s .outcomes } := by
  have hversion : ∀ (d : DurableTier) s', (d.bump s .outcomes).versions s' .outcomes =
      if s' = s then d.versions s .outcomes + 1 else d.versions s' .outcomes := by
    intro d s'
    split
    · rename_i hs
      rw [hs, bump_versions_self]
    · exact bump_versions_of_ne fun hs => absurd hs ‹_›
  refine ⟨⟨⟨h.1.1.bound, fun s' => ?_, fun s' => ?_, fun s' hzero => ?_, fun worker s' => ?_⟩,
    h.1.2.entries, fun s' v hv => ?_⟩, fun s' hv => ?_⟩
  · show ((Function.update st.durable.outcomes s rows s').map _).Nodup
    rw [Function.update_apply]
    split
    · exact hrows.1
    · exact h.1.1.keys s'
  · show ∀ o ∈ Function.update st.durable.outcomes s rows s', _
    rw [Function.update_apply]
    split
    · exact hrows.2
    · exact h.1.1.rows s'
  · rw [hversion] at hzero
    split at hzero
    · simp at hzero
    · exact (Function.update_of_ne ‹_› _ _).trans (h.1.1.unwritten s' hzero)
  · have hle := h.1.1.remembered worker s'
    rw [hversion]
    split
    · rename_i hs
      rw [hs] at hle ⊢
      exact hle.trans (Nat.le_succ _)
    · exact hle
  · have hle := h.1.2.behind s' v hv
    rw [hversion]
    split
    · rename_i hs
      rw [hs] at hle
      exact hle.trans (Nat.le_succ _)
    · exact hle
  · rw [hversion] at hv
    split at hv
    · rename_i hs
      have hle := h.1.2.behind s' _ hv
      rw [hs] at hle
      exact absurd hle (Nat.not_succ_le_self _)
    · show Projects (Function.update st.durable.outcomes s rows s') _
      rw [Function.update_of_ne ‹_›]
      exact h.2 s' hv

omit hP in
/-- Storing a batch leaves Redis behind, if there is anything to store. -/
theorem OutcomesInv.durablePut {st : CheckpointState} (h : OutcomesInv P st) (worker : ℕ) (s : String)
    (os : List ReleaseExtractionOutcome) :
    (∃ e, durablePutOutcomes P n st worker s os = (.error e, st)) ∨
    ∃ st', durablePutOutcomes P n st worker s os = (.ok (), st') ∧ OutcomesInv P st' ∧
      BoundTo worker s st' ∧ (os ≠ [] → Learned worker s .outcomes st') := by
  unfold durablePutOutcomes
  cases haccept : acceptOutcomes P n st worker s os with
  | error e => exact .inl ⟨e, rfl⟩
  | ok rows =>
    obtain ⟨b, hb, h₁⟩ := bind_ok.1 haccept
    split at h₁
    · cases h₁
    obtain ⟨sanitized, hsanitized, h₂⟩ := bind_ok.1 h₁
    obtain ⟨_, hlock, h₃⟩ := bind_ok.1 h₂
    have hbound : BoundTo worker s st := boundTo_of_locked hb hlock
    have hrows := insertBatches_ok ⟨h.1.1.keys s, h.1.1.rows s⟩ (sanitized_of_mapM hsanitized) h₃
    right
    by_cases hnil : os = []
    · subst hnil
      obtain rfl := Except.ok.inj hsanitized
      obtain rfl := Except.ok.inj h₃
      refine ⟨_, rfl, ?_, hbound, fun hne => absurd rfl hne⟩
      simp only [Function.update_eq_self]
      exact ⟨⟨⟨h.1.1.bound, h.1.1.keys, h.1.1.rows, h.1.1.unwritten, h.1.1.remembered⟩,
        h.1.2.entries, h.1.2.behind⟩, h.2⟩
    · exact ⟨_, if_pos (List.length_pos_iff.2 hnil), (h.written hrows).learn, hbound,
        fun _ => learned_learn _ _ _ _⟩

omit hP in
/-- A hash found at the version or one behind it can be completed by the batch. -/
theorem triple_readHotVersion {os sanitized : List ReleaseExtractionOutcome} (version : ℕ)
    (ht : t.call = .putOutcomes s os) (hos : os.mapM (sanitizeOutcome P) = .ok sanitized)
    (hF : Cold F) (hlearned : ∀ st, F st → os ≠ [] → Learned t.worker s .outcomes st)
    (hversion : ∀ st, F st → version = st.versions t.worker s .outcomes) :
    (outcomesContract P n).Triple t (fun st => OutcomesInv P st ∧ F st)
      (await (.getVersion s .outcomes))
      (fun (hotVersion : Option ℕ) st => (OutcomesInv P st ∧ F st) ∧
        (isIncremental hotVersion version → Fills s version sanitized st))
      (Swallowed fun st => OutcomesInv P st ∧ F st) := by
  have hlose : Evictable fun st => OutcomesInv P st ∧ F st := evictable_outcomesInv.and hF.lose
  refine await_hot rfl (fun st c hotVersion h hok hfate hr => ?_) (fun st c m h _ _ => ⟨by simp, hlose st _ h⟩)
    fun st c m h _ _ => ⟨by simp, hlose st _ h⟩
  have h' := hlose st c.lost h
  obtain rfl : (st.lose c.lost).hot.versions s .outcomes = hotVersion := Except.ok.inj hr
  refine ⟨h', fun hincremental => ?_⟩
  by_cases hfresh : Learned t.worker s .outcomes st
  · left
    have hcurrent : st.durable.versions s .outcomes = version :=
      hfresh.symm.trans (hversion st h.2).symm
    have hcompletable := hok hfate hfresh (by rw [hcurrent]; exact hincremental)
    rw [ht] at hcompletable
    simp only [Completable, hos] at hcompletable
    exact hcompletable
  · right
    have hnil : os = [] := by
      by_contra hne
      exact hfresh (hlearned st h.2 hne)
    have hbehind : version < st.durable.versions s .outcomes := by
      rw [hversion st h.2]
      exact lt_of_le_of_ne (h.1.1.1.remembered t.worker s) hfresh
    refine ⟨?_, hbehind, fun hcurrent => ?_⟩
    · rw [hnil] at hos
      exact (Except.ok.inj hos).symm
    · have hcurrent' : (st.lose c.lost).hot.versions s .outcomes = some (st.durable.versions s .outcomes) :=
        hcurrent
      rw [hcurrent'] at hincremental
      simp [isIncremental] at hincremental
      omega

omit hP in
theorem isIncremental_none (version : ℕ) : isIncremental none version = false := by
  simp [isIncremental]

/-- `putOutcomes` keeps what Redis holds whole. -/
theorem triple_putOutcomes {os : List ReleaseExtractionOutcome} (ht : t.call = .putOutcomes s os) :
    (outcomesContract P n).Triple t (OutcomesInv P) (tiers.putOutcomes P s os)
      (fun _ => OutcomesInv P) (fun _ => OutcomesInv P) := by
  refine (triple_binding (R := OutcomesInv P) (fun st h => h.1.1.bound) fun st h _ => h).bind fun _ => ?_
  refine Contract.Triple.bind (Q := fun _ st => OutcomesInv P st ∧ BoundTo t.worker s st ∧
    (os ≠ [] → Learned t.worker s .outcomes st)) ?_ fun _ => ?_
  · refine await_cold rfl rfl fun st keys h => ?_
    have h' := evictable_outcomesInv st keys h.1
    show Contract.Ends _ _ (durablePutOutcomes P n (st.lose keys) t.worker s os).1
      (durablePutOutcomes P n (st.lose keys) t.worker s os).2
    rcases h'.durablePut t.worker s os with ⟨e, he⟩ | ⟨st', he, hst'⟩
    · rw [he]
      exact h'
    · rw [he]
      exact hst'
  show (outcomesContract P n).Triple t _ (Prog.ofExcept (os.mapM (sanitizeOutcome P)) >>= _) _ _
  cases hsanitized : os.mapM (sanitizeOutcome P) with
  | error e => exact Contract.alone_raise fun st h => h.1
  | ok sanitized =>
    show (outcomesContract P n).Triple t _ (await (.currentVersion s .outcomes) >>= _) _ _
    refine (triple_currentVersion (R := fun st => OutcomesInv P st ∧ BoundTo t.worker s st ∧
      (os ≠ [] → Learned t.worker s .outcomes st)) fun st h => h.2.1).bind fun (version : ℕ) => ?_
    have hF : Cold fun st => (BoundTo t.worker s st ∧ (os ≠ [] → Learned t.worker s .outcomes st)) ∧
        version = st.versions t.worker s .outcomes := fun _ _ h => h
    refine Contract.Triple.bind (Q := fun (hotVersion : Option ℕ) st => (OutcomesInv P st ∧
      (BoundTo t.worker s st ∧ (os ≠ [] → Learned t.worker s .outcomes st)) ∧
        version = st.versions t.worker s .outcomes) ∧
      (isIncremental hotVersion version → Fills s version sanitized st)) ?_ fun hotVersion => ?_
    · refine Contract.Triple.handle ((triple_readHotVersion version ht hsanitized hF
        (fun st h => h.1.2) fun st h => h.2).pre fun st _ h => ⟨h.1.1, h.1.2, h.2⟩) fun e => ?_
      refine (triple_cacheError e).bind fun _ => Contract.alone_ret fun st h => ⟨h, fun hinc => ?_⟩
      rw [isIncremental_none] at hinc
      cases hinc
    · refine (triple_projectOutcomes hF (fun st h => h.1.2.1.1) fun version' => ?_).post
        fun _ st _ h => h.1
      have hF' := hF.and fun (st : CheckpointState) hot
        (h : version' = st.versions t.worker s .outcomes) => h
      split
      · rename_i hincremental
        refine (triple_hotPutOutcomes hF' version' (sanitized_of_mapM hsanitized)).consequence
          (fun st _ h => ?_) (fun _ st _ h => ⟨⟨h.1.1, h.1.2.1, h.1.2.2⟩, h.2⟩)
          fun e st _ h => ⟨h.1, h.2.1, h.2.2.1⟩
        have hsame : version' = version := h.2.trans h.1.1.2.2.symm
        exact ⟨⟨h.1.1.1.writing, h.1.1.2, h.2⟩, hsame ▸ h.1.2 hincremental⟩
      · refine Contract.Triple.bind (Q := fun (durable : List ReleaseExtractionOutcome) st =>
          (OutcomesInv P st ∧ _) ∧ durable.Perm (st.durable.outcomes s)) ?_ fun durable =>
          (triple_replaceOutcomes hF' version').consequence (fun _ _ h => h)
            (fun _ st _ h => ⟨⟨h.1.1, h.1.2.1, h.1.2.2⟩, h.2⟩) fun e st _ h => ⟨h.1, h.2.1, h.2.2.1⟩
        refine await_cold rfl rfl fun st keys h => ?_
        have h' := evictable_outcomesInv st keys h.1.1.1
        show Contract.Ends _ _ (durableGetOutcomes P (st.lose keys) t.worker s) (st.lose keys)
        cases hr : durableGetOutcomes P (st.lose keys) t.worker s with
        | ok r => exact ⟨⟨h', h.1.1.2, h.2⟩, perm_of_answered hP h'.1.1 h.1.1.2.1.1 hr⟩
        | error e => exact ⟨harmless_durableGetOutcomes.error hr, h', h.1.1.2⟩

omit hP in
/-- Awaits about another part leave the outcomes alone. -/
theorem OutcomesInv.elsewhere {o : Op} (ho : o.within .plans) {st : CheckpointState}
    (h : OutcomesInv P st) : OutcomesInv P (effect P n t.worker st o).2 := by
  have hkept : ∀ {st' : CheckpointState}, st'.bindings = st.bindings →
      st'.durable.principal = st.durable.principal → st'.durable.outcomes = st.durable.outcomes →
      (∀ s, st'.durable.versions s .outcomes = st.durable.versions s .outcomes) →
      (∀ worker s, st'.versions worker s .outcomes = st.versions worker s .outcomes) →
      (∀ s, st'.hot.outcomes s = st.hot.outcomes s) →
      (∀ s, st'.hot.versions s .outcomes = st.hot.versions s .outcomes) → OutcomesInv P st' := by
    intro st' hbindings hprincipal hrows hdurable hremembered hhash hversions
    refine ⟨⟨⟨fun worker s b hb => ?_, ?_, ?_, fun s hs => ?_, fun worker s => ?_⟩, fun s => ?_,
      fun s v hv => ?_⟩, fun s hv => ?_⟩
    · have hb' := h.1.1.bound worker s b (hbindings ▸ hb)
      unfold DurableTier.holds at hb' ⊢
      rwa [hprincipal]
    · exact hrows ▸ h.1.1.keys
    · exact hrows ▸ h.1.1.rows
    · rw [hrows]
      exact h.1.1.unwritten s (hdurable s ▸ hs)
    · rw [hremembered, hdurable]
      exact h.1.1.remembered worker s
    · rw [hhash]
      exact h.1.2.entries s
    · rw [hdurable]
      exact h.1.2.behind s v (hversions s ▸ hv)
    · rw [hrows, hhash]
      rw [hversions, hdurable] at hv
      exact h.2 s hv
  cases o with
  | putVersion s' part version =>
    have hpart : part ≠ .outcomes := by
      rintro rfl
      rcases ho with ho | ho <;> cases ho
    refine hkept rfl rfl rfl (fun _ => rfl) (fun _ _ => rfl) (fun _ => rfl) fun s => ?_
    simp only [effect, Function.update_apply]
    split
    · rename_i hs
      rw [Function.update_of_ne hpart.symm, hs]
    · rfl
  | refreshVersion s' part =>
    have hpart : part ≠ .outcomes := by
      rintro rfl
      rcases ho with ho | ho <;> cases ho
    simp only [effect, refreshVersion]
    split
    · exact h
    · exact hkept rfl rfl rfl (fun _ => rfl) (fun w s => learn_versions_of_ne _ _ _ hpart.symm w s)
        (fun _ => rfl) fun _ => rfl
  | durablePutPassPlan s' pass chunks =>
    simp only [effect, durablePutPassPlan]
    split
    · exact h
    · exact hkept rfl rfl rfl (fun s => bump_versions_of_ne fun _ => by decide)
        (fun w s => learn_versions_of_ne _ _ _ (by decide) w s) (fun _ => rfl) fun _ => rfl
  | durablePutOutcomes | durableGetOutcomes | hset | hgetall | del | expire | outcomesAnswered =>
    rcases ho with ho | ho <;> cases ho
  | _ => exact hkept rfl rfl rfl (fun _ => rfl) (fun _ _ => rfl) (fun _ => rfl) fun _ => rfl

omit hP in
theorem outcomesAgree_elsewhere {o : Op} (ho : o.within .plans) {st : CheckpointState}
    (h : Faithful outcomesAgree st) : Faithful outcomesAgree (effect P n t.worker st o).2 := by
  cases o
  case planAnswered s' pass answer =>
    intro a ha
    rcases List.mem_cons.1 ha with rfl | ha
    · trivial
    · exact h a ha
  case outcomesAnswered => rcases ho with ho | ho <;> cases ho
  all_goals
    unfold Faithful
    rw [effect_log rfl]
    exact h

/-- Every call leaves the invariant as it found it. -/
theorem triple_serveOutcomes :
    (outcomesContract P n).Triple t (OutcomesInv P) (serve P t) (fun _ => OutcomesInv P)
      (fun _ => OutcomesInv P) := by
  have helsewhere : t.call.part = .plans →
      (outcomesContract P n).Triple t (OutcomesInv P) (serve P t) (fun _ => OutcomesInv P)
        (fun _ => OutcomesInv P) := by
    intro hpart
    have hwithin := within_serve (P := P) t
    rw [hpart] at hwithin
    refine Contract.alone_calls (hwithin.mono fun o ho st c r st' hgood h hp => ?_)
    obtain ⟨-, hp⟩ := Option.ite_none_right_eq_some.1 hp
    rcases perform_state hp with rfl | rfl
    · exact ⟨hgood, evictable_outcomesInv st c.lost h⟩
    · exact ⟨outcomesAgree_elsewhere ho hgood, (evictable_outcomesInv st c.lost h).elsewhere ho⟩
  cases hcall : t.call with
  | putPassPlan s pass chunks => exact helsewhere (by rw [hcall]; rfl)
  | getPassPlan s pass => exact helsewhere (by rw [hcall]; rfl)
  | putOutcomes s os =>
    have hput := triple_putOutcomes (n := n) (s := s) hP hcall
    unfold serve
    rw [hcall]
    exact hput
  | getOutcomes s =>
    unfold serve
    rw [hcall]
    refine (triple_getOutcomes hP).attempt.bind fun answer => ?_
    refine Contract.alone_call fun st c r st' hgood h hp => ?_
    obtain ⟨-, hp⟩ := Option.ite_none_right_eq_some.1 hp
    have h' : OutcomesInv P (st.lose c.lost) ∧ OutcomesAre P t.worker s answer (st.lose c.lost) := by
      cases answer <;> exact ⟨evictable_outcomesInv st c.lost h.1, h.2⟩
    obtain ⟨-, rfl, rfl⟩ := perform_cold rfl hp
    refine ⟨fun a ha => ?_, ⟨⟨h'.1.1.1.bound, h'.1.1.1.keys, h'.1.1.1.rows, h'.1.1.1.unwritten,
      h'.1.1.1.remembered⟩, h'.1.1.2.entries, h'.1.1.2.behind⟩, h'.1.2⟩
    rcases List.mem_cons.1 ha with rfl | ha
    · exact h'.2
    · exact hgood a ha

omit hP in
theorem CheckpointState.Fresh.outcomesInv {st : CheckpointState} (h : st.Fresh) : OutcomesInv P st := by
  refine ⟨⟨⟨h.bound, fun s => ?_, fun s o ho => ?_, fun s _ => h.outcomes s,
    fun worker s => h.versions worker s .outcomes⟩, fun s o ho => ?_, fun s v hv => ?_⟩, fun s hv => ?_⟩
  · rw [h.outcomes]
    exact List.nodup_nil
  · rw [h.outcomes] at ho
    cases ho
  · rw [h.hot] at ho
    cases ho
  · rw [h.hot] at hv
    cases hv
  · rw [h.hot] at hv
    cases hv

/-- Where hashes are written whole, every `getOutcomes` answers the outcomes that Postgres
would, or throws what it would. -/
theorem outcomes_match {st : CheckpointState} (hst : st.Fresh) {ms : List (Move Request Choice)}
    {w : CheckpointWorld}
    (hms : (tieredSystem P n oneAtATime).Along (System.Meets (writesWholeHashes P n)) (World.idle st) ms)
    (h : (tieredSystem P n oneAtATime).run (World.idle st) ms = some w)
    {answer reference : Checked (List ReleaseExtractionOutcome)}
    (hmem : .outcomes answer reference ∈ w.state.log) : SameOutcomes answer reference := by
  have hfaithful : Faithful outcomesAgree st := fun a ha => by
    rw [hst.log] at ha
    cases ha
  have hresting := Contract.resting_run (J := Faithful outcomesAgree) (I := OutcomesInv P)
    (fun st ts u st' hs => start_oneAtATime hs) (fun u => triple_serveOutcomes hP) (fun _ _ _ => rfl)
    (fun _ _ => rfl) (.idle st hfaithful hst.outcomesInv) hms h
  exact hresting.inv _ hmem

end Calls

/-- An outcome as the store writes it. -/
def sampleSkip (releaseId : String) : ReleaseExtractionOutcome :=
  .skipped releaseId "release skipped during extraction"

/-- A batch is stored and read back from Redis. -/
def storedOutcomesRun : { ms // (tieredSystem samplePlatform 100 oneAtATime).Along
      (System.Meets (writesWholeHashes samplePlatform 100)) (World.idle boundStore) ms ∧
    ∃ w ∈ (tieredSystem samplePlatform 100 oneAtATime).run (World.idle boundStore) ms,
      .outcomes (.ok [sampleSkip "a"]) (.ok [sampleSkip "a"]) ∈ w.state.log } :=
  ⟨served ⟨0, .putOutcomes "s" [sampleSkip "a"]⟩ (List.replicate 10 .done) ++
    served ⟨0, .getOutcomes "s"⟩ (List.replicate 5 .done), by decide +kernel⟩

theorem outcomes_match_stored : ∃ ms w,
    (tieredSystem samplePlatform 100 oneAtATime).run (World.idle boundStore) ms = some w ∧
      .outcomes (.ok [sampleSkip "a"]) (.ok [sampleSkip "a"]) ∈ w.state.log ∧
      ∀ answer reference, .outcomes answer reference ∈ w.state.log → SameOutcomes answer reference := by
  obtain ⟨ms, hms, w, hw, hmem⟩ := storedOutcomesRun
  exact ⟨ms, w, hw, hmem, fun _ _ h =>
    outcomes_match roundTrips_samplePlatform fresh_boundStore hms hw h⟩

/-- The hash is lost while its version is not, and the next batch is written over nothing. -/
def lostHashRun : { ms //
    ∃ w ∈ (tieredSystem samplePlatform 100 oneAtATime).run (World.idle boundStore) ms,
      .outcomes (.ok [sampleSkip "b"]) (.ok [sampleSkip "a", sampleSkip "b"]) ∈ w.state.log } :=
  ⟨served ⟨0, .putOutcomes "s" [sampleSkip "a"]⟩ (List.replicate 10 .done) ++
    .start ⟨0, .putOutcomes "s" [sampleSkip "b"]⟩ :: .go 0 ⟨[], .done⟩ ::
      .go 0 ⟨[.outcomes "s"], .done⟩ ::
    (List.replicate 6 (.go 0 ⟨[], .done⟩)).concat (.settle 0) ++
    served ⟨0, .getOutcomes "s"⟩ (List.replicate 5 .done), by decide +kernel⟩

theorem outcomes_hidden : ∃ ms w answer reference,
    (tieredSystem samplePlatform 100 oneAtATime).run (World.idle boundStore) ms = some w ∧
      .outcomes answer reference ∈ w.state.log ∧ ¬ SameOutcomes answer reference := by
  obtain ⟨ms, w, hw, hmem⟩ := lostHashRun
  refine ⟨ms, w, _, _, hw, hmem, fun h => ?_⟩
  have hperm : [sampleSkip "b"].Perm [sampleSkip "a", sampleSkip "b"] := h
  exact absurd hperm.length_eq (by decide)

end CatalogSentinel.Checkpoint
