import CatalogSentinel.Distrokid.CompleteStatus
import CatalogSentinel.Distrokid.Pipeline

/-!
The retry targets against the verdict. Three predicates are written apart: the
counters of the verdict, the set of releases to retry, and the filter by which a
chunk delivery skips what it need not read again. The filter never drops a release
to retry. The verdict may be retryable with nothing to retry: no pass reads a
release again that the account may not see, or whose tracks do not add up.
-/

namespace CatalogSentinel.Distrokid

open CatalogSentinel.Data

/-! ### The chunks of a pass -/

section Chunks

variable {α : Type} {items : List α} {size : ℚ}

theorem chunkLoop_nonpos (hsize : size ≤ 0) (hitems : items ≠ []) (fuel i : ℕ) :
    chunkLoop items size fuel i = none := by
  induction fuel generalizing i with
  | zero => rfl
  | succ fuel ih =>
    have hlength : (0 : ℚ) < items.length := by
      exact_mod_cast List.length_pos_iff.2 hitems
    have hbelow : (i : ℚ) * size ≤ 0 := mul_nonpos_of_nonneg_of_nonpos (Nat.cast_nonneg i) hsize
    rw [chunkLoop, if_pos (lt_of_le_of_lt hbelow hlength), ih (i + 1)]
    rfl

/-- The chunks from the `i`-th on hold the items from its first bound on. -/
theorem chunkLoop_flatten (hsize : 0 ≤ size) {fuel i : ℕ} {chunks : List (List α)}
    (h : chunkLoop items size fuel i = some chunks) :
    chunks.flatten = items.drop ⌊i * size⌋.toNat := by
  induction fuel generalizing i chunks with
  | zero => cases h
  | succ fuel ih =>
    rw [chunkLoop] at h
    split at h
    · obtain ⟨rest, hrest, rfl⟩ := Option.map_eq_some_iff.1 h
      have hnext := ih hrest
      rw [Nat.cast_succ] at hnext
      have hle : ⌊i * size⌋.toNat ≤ ⌊((i : ℚ) + 1) * size⌋.toNat := by
        apply Int.toNat_le_toNat
        apply Int.floor_le_floor
        nlinarith
      rw [List.flatten_cons, hnext, slice, List.drop_take, ← Nat.add_sub_of_le hle,
        ← List.drop_drop, Nat.add_sub_cancel_left]
      exact List.take_append_drop ..
    · cases h
      rename_i hlast
      have hlast : ((items.length : ℤ) : ℚ) ≤ i * size := by
        exact_mod_cast not_lt.1 hlast
      have hbound := Int.le_floor.2 hlast
      symm
      apply List.drop_eq_nil_of_le
      omega

/-- A list that is cut to an end is cut without loss. -/
theorem chunkReleases_flatten {chunks : List (List α)}
    (h : chunkReleases items (.finite size) = some chunks) : chunks.flatten = items := by
  rw [chunkReleases] at h
  by_cases hsize : 0 ≤ size
  · have hall := chunkLoop_flatten hsize h
    rwa [Nat.cast_zero, zero_mul, Int.floor_zero, Int.toNat_zero, List.drop_zero] at hall
  · have hitems : items = [] := by
      by_contra hitems
      rw [chunkLoop_nonpos (le_of_lt (not_le.1 hsize)) hitems] at h
      cases h
    subst hitems
    simp only [List.length_nil, zero_mul, chunkLoop, Nat.cast_zero, lt_irrefl, if_false] at h
    cases h
    rfl

theorem chunkLoop_isSome (hsize : 0 < size) {fuel i : ℕ} (hi : i ≤ items.length * size.den)
    (hfuel : i + fuel = items.length * size.den + 1) : (chunkLoop items size fuel i).isSome := by
  induction fuel generalizing i with
  | zero => omega
  | succ fuel ih =>
    rw [chunkLoop]
    split
    · rename_i hcut
      have hlt : i < items.length * size.den := by
        by_contra hge
        -- every denominator's worth of chunks is at least one item
        have hnum : (1 : ℚ) ≤ size.num := by
          exact_mod_cast Rat.num_pos.2 hsize
        have hden : (items.length : ℚ) * size.den ≤ i := by
          exact_mod_cast not_lt.1 hge
        have heq : size * size.den = size.num := Rat.mul_den_eq_num size
        have hlength : (0 : ℚ) ≤ items.length := Nat.cast_nonneg _
        nlinarith
      rw [Option.isSome_map]
      apply ih <;> omega
    · rfl

/-- The split comes to an end for every positive size. -/
theorem chunkReleases_isSome (hsize : 0 < size) : (chunkReleases items (.finite size)).isSome := by
  apply chunkLoop_isSome hsize <;> omega

end Chunks

/-! ### What the verdict counts -/

namespace ReleaseExtractionOutcome

/-- The release failed for this reason. -/
def failedFor (reason : ReleaseFailureReason) : ReleaseExtractionOutcome → Bool
  | failed _ reason' .. => reason' = reason
  | _ => false

/-- A field of the release is an extraction failure. -/
def hasGap (o : ReleaseExtractionOutcome) : Bool := o.release?.any releaseNeedsMetadataRetry

/-- A retry pass reads the release again: it failed for a retryable reason, or has a gap. -/
def isRetried : ReleaseExtractionOutcome → Bool
  | failed _ reason .. => isRetryable reason.key
  | o => o.hasGap

end ReleaseExtractionOutcome

open ReleaseExtractionOutcome

theorem key_inj {reason reason' : ReleaseFailureReason} (h : reason.key = reason'.key) :
    reason = reason' := by
  revert h
  cases reason <;> cases reason' <;> decide

theorem count_failureReasonsOf (outcomes : List ReleaseExtractionOutcome)
    (reason : ReleaseFailureReason) :
    (failureReasonsOf outcomes).count reason.key = outcomes.countP (·.failedFor reason) := by
  unfold failureReasonsOf
  rw [← Nat.zero_add (List.countP _ _), show 0 = Tally.count [] reason.key from rfl]
  generalize ([] : Tally) = t
  induction outcomes generalizing t with
  | nil => rfl
  | cons o os ih =>
    rw [List.foldl_cons, ih, List.countP_cons]
    cases o with
    | failed id reason' detail elapsedMs fingerprint =>
      by_cases heq : reason' = reason
      · simp only [Tally.count_bump, failedFor, heq, decide_true, if_true]
        omega
      · have hkey : reason'.key ≠ reason.key := fun hkey => heq (key_inj hkey)
        simp only [Tally.count_bump, failedFor, heq, hkey, decide_false, if_false]
        rfl
    | _ => rfl

theorem mem_retryable_iff {input : ReconcileInput} {id : String} :
    id ∈ retryableReleaseIds input ↔
      (∃ o ∈ input.outcomes, o.outcomeReleaseId = id ∧ o.isRetried) ∨
        (id ∈ input.expectedReleaseIds ∧ id ∉ input.outcomes.map (·.outcomeReleaseId)) := by
  have hone : ∀ o : ReleaseExtractionOutcome, (retryableId o = some id ∨ incompleteId o = some id) ↔
      o.outcomeReleaseId = id ∧ o.isRetried := by
    intro o
    cases o with
    | completed release source elapsedMs fingerprint =>
      simp only [retryableId, incompleteId, outcomeReleaseId, isRetried, hasGap, release?]
      split <;> simp_all
    | failed id' reason detail elapsedMs fingerprint =>
      simp only [retryableId, incompleteId, outcomeReleaseId, isRetried]
      split <;> simp_all
    | skipped id' reason => simp [retryableId, incompleteId, isRetried, hasGap, release?]
  rw [mem_retryableReleaseIds, ← or_assoc]
  apply or_congr_left
  constructor
  · rintro (⟨o, ho, h⟩ | ⟨o, ho, h⟩)
    · exact ⟨o, ho, (hone o).1 (.inl h)⟩
    · exact ⟨o, ho, (hone o).1 (.inr h)⟩
  · rintro ⟨o, ho, h⟩
    rcases (hone o).2 h with h | h
    · exact .inl ⟨o, ho, h⟩
    · exact .inr ⟨o, ho, h⟩

theorem exists_hasGap {outcomes : List ReleaseExtractionOutcome} :
    (∃ release ∈ completedReleasesOf outcomes, releaseNeedsMetadataRetry release = true) ↔
      ∃ o ∈ outcomes, o.hasGap := by
  simp only [completedReleasesOf, List.mem_filterMap, hasGap, Option.any_eq_true]
  constructor
  · rintro ⟨release, ⟨o, ho, hr⟩, hgap⟩
    exact ⟨o, ho, release, hr, hgap⟩
  · rintro ⟨o, ho, release, hr, hgap⟩
    exact ⟨release, ⟨o, ho, hr⟩, hgap⟩

/-- The verdict is retryable where an expected release has no result; or where no failure
has a verdict of its own, something was read, and a failure, a wrong number of tracks or a
gap is left. -/
theorem reconcile_partialRetryable {input : ReconcileInput} :
    (reconcile input).2 = .partialRetryable ↔
      (∃ id ∈ input.expectedReleaseIds, id ∉ input.outcomes.map (·.outcomeReleaseId)) ∨
      ((∀ o ∈ input.outcomes, ¬ o.failedFor .schemaChanged ∧ ¬ o.failedFor .reauthRequired) ∧
        (input.expectedReleaseIds ≠ [] → ∃ o ∈ input.outcomes, o.isCompleted) ∧
        ((∃ o ∈ input.outcomes, o.isFailed) ∨
          (∃ expected, input.expectedTracks = some expected ∧
            ((completedReleasesOf input.outcomes).flatMap (·.tracks)).length ≠ expected) ∨
          ∃ o ∈ input.outcomes, o.hasGap)) := by
  have hresolved : (reconcileCompleteness input).unresolvedReleaseIds.length > 0 ↔
      ∃ id ∈ input.expectedReleaseIds, id ∉ input.outcomes.map (·.outcomeReleaseId) := by
    simp [reconcileCompleteness, List.length_pos_iff, List.filter_eq_nil_iff]
  have hreason : ∀ reason : ReleaseFailureReason,
      (reconcileCompleteness input).failureReasons.count reason.key ≠ 0 ↔
        ∃ o ∈ input.outcomes, o.failedFor reason := by
    intro reason
    show (failureReasonsOf input.outcomes).count reason.key ≠ 0 ↔ _
    rw [count_failureReasonsOf, ← Nat.pos_iff_ne_zero, List.countP_pos_iff]
  have hnone : ((reconcileCompleteness input).expectedReleases > 0 ∧
      (reconcileCompleteness input).completedReleases = 0) ↔
      ¬ (input.expectedReleaseIds ≠ [] → ∃ o ∈ input.outcomes, o.isCompleted) := by
    simp [reconcileCompleteness, List.length_pos_iff, completedReleasesOf_eq_nil]
  have hfailed : (reconcileCompleteness input).failedReleases > 0 ↔
      ∃ o ∈ input.outcomes, o.isFailed := by
    simp [reconcileCompleteness, List.countP_pos_iff]
  have htracks : ((reconcileCompleteness input).expectedTracksKnown ∧
      (reconcileCompleteness input).extractedTracks ≠ (reconcileCompleteness input).expectedTracks) ↔
      ∃ expected, input.expectedTracks = some expected ∧
        ((completedReleasesOf input.outcomes).flatMap (·.tracks)).length ≠ expected := by
    cases h : input.expectedTracks <;> simp [reconcileCompleteness, h]
  have hgap : (reconcileCompleteness input).metadataFieldsNotCaptured.getD
      ((reconcileCompleteness input).releasesUpcNotCaptured +
        (reconcileCompleteness input).tracksIsrcNotCaptured) > 0 ↔ ∃ o ∈ input.outcomes, o.hasGap := by
    rw [gt_iff_lt, Nat.pos_iff_ne_zero]
    show ((_ : List ℕ).sum ≠ 0) ↔ _
    rw [Ne, sum_notCaptured_eq_zero, ← exists_hasGap]
    simp only [← releaseNeedsMetadataRetry_eq_false, not_forall, exists_prop, Bool.not_eq_false]
  show deriveStatus (reconcileCompleteness input) = _ ↔ _
  rw [deriveStatus, show "SCHEMA_CHANGED" = ReleaseFailureReason.schemaChanged.key from rfl,
    show "REAUTH_REQUIRED" = ReleaseFailureReason.reauthRequired.key from rfl]
  simp only [hresolved, hreason, hnone, hfailed, htracks, hgap]
  split
  · rename_i h
    exact iff_of_true rfl (.inl h)
  rename_i hres
  rw [or_iff_right hres]
  split
  · rename_i h
    obtain ⟨o, ho, hschema⟩ := h
    exact iff_of_false (by decide) fun h' => (h'.1 o ho).1 hschema
  rename_i hschema
  split
  · rename_i h
    obtain ⟨o, ho, hreauth⟩ := h
    exact iff_of_false (by decide) fun h' => (h'.1 o ho).2 hreauth
  rename_i hreauth
  have hreasons : ∀ o ∈ input.outcomes, ¬ o.failedFor .schemaChanged ∧ ¬ o.failedFor .reauthRequired :=
    fun o ho => ⟨fun h => hschema ⟨o, ho, h⟩, fun h => hreauth ⟨o, ho, h⟩⟩
  split
  · rename_i h
    exact iff_of_false (by decide) fun h' => h h'.2.1
  rename_i hread
  rw [and_iff_right hreasons, and_iff_right (not_not.1 hread)]
  split
  · rename_i h
    exact iff_of_true rfl (.inl h)
  split
  · rename_i h
    exact iff_of_true rfl (.inr (.inl h))
  split
  · rename_i h
    exact iff_of_true rfl (.inr (.inr h))
  rename_i hf ht hg
  have hnot : ¬ ((∃ o ∈ input.outcomes, o.isFailed) ∨ (∃ expected, input.expectedTracks = some expected ∧
      ((completedReleasesOf input.outcomes).flatMap (·.tracks)).length ≠ expected) ∨
      ∃ o ∈ input.outcomes, o.hasGap) := by
    rintro (h | h | h)
    · exact hf h
    · exact ht h
    · exact hg h
  split
  · exact iff_of_false (by decide) hnot
  · exact iff_of_false (by decide) hnot

/-! ### The work of a retry pass -/

/-- The releases that a retry pass over these checkpoints asks for. -/
def retryIds (index : List ReleaseRefRecord) (outcomes : List ReleaseExtractionOutcome) : List String :=
  retryableReleaseIds ⟨index.map (·.releaseId), outcomes, none⟩

/-- What a chunk delivery that holds these releases reads again. -/
def todo (index : List ReleaseRefRecord) (outcomes : List ReleaseExtractionOutcome)
    (releaseIds : List String) : List ReleaseRefRecord :=
  (refsOf index releaseIds).filter (isTodo outcomes)

/-- The retry targets agree with the verdict. A retryable verdict has targets, every target
in the index is worked on by any chunk delivery that holds it, and the pass that a retryable
verdict schedules works on a target. -/
structure RetryAgrees (index : List ReleaseRefRecord) (outcomes : List ReleaseExtractionOutcome) :
    Prop where
  targets : (reconcileCheckpoint index outcomes).2 = .partialRetryable → retryIds index outcomes ≠ []
  worked : ∀ id ∈ retryIds index outcomes, id ∈ index.map (·.releaseId) → ∀ job : ReleaseChunkJob,
    id ∈ job.releaseIds → ∃ ref ∈ todo index outcomes job.releaseIds, ref.releaseId = id
  attempted : (reconcileCheckpoint index outcomes).2 = .partialRetryable →
    ∀ size plan, chunkReleases (retryIds index outcomes) (.finite size) = some plan →
      ∃ releaseIds ∈ plan, ∃ ref ∈ todo index outcomes releaseIds, ref.releaseId ∈ retryIds index outcomes

/-- An indexed release has no outcome yet, or one that a retry pass reads again. -/
def HasTarget (index : List ReleaseRefRecord) (outcomes : List ReleaseExtractionOutcome) : Prop :=
  ∃ id ∈ index.map (·.releaseId), id ∉ outcomes.map (·.outcomeReleaseId) ∨
    ∃ o ∈ outcomes, o.outcomeReleaseId = id ∧ o.isRetried

/-- The number of tracks that the index expects, where every indexed release states one. -/
def expectedTracksOf (index : List ReleaseRefRecord) : Option ℕ :=
  if index ≠ [] ∧ index.all (·.expectedTrackCount.isSome)
  then some (index.map fun r => r.expectedTrackCount.getD 0).sum else none

/-- A failure has a verdict of its own, or nothing was read, or nothing is missing. -/
def HasOtherVerdict (index : List ReleaseRefRecord) (outcomes : List ReleaseExtractionOutcome) : Prop :=
  (∃ o ∈ outcomes, o.failedFor .schemaChanged ∨ o.failedFor .reauthRequired) ∨
  (index ≠ [] ∧ ∀ o ∈ outcomes, o.isCompleted = false) ∨
  ((∀ o ∈ outcomes, o.isFailed = false ∧ o.hasGap = false) ∧
    ∀ expected, expectedTracksOf index = some expected →
      ((completedReleasesOf outcomes).flatMap (·.tracks)).length = expected)

section Targets

variable {index : List ReleaseRefRecord} {outcomes : List ReleaseExtractionOutcome}

theorem mem_retryIds {id : String} : id ∈ retryIds index outcomes ↔
    (∃ o ∈ outcomes, o.outcomeReleaseId = id ∧ o.isRetried) ∨
      (id ∈ index.map (·.releaseId) ∧ id ∉ outcomes.map (·.outcomeReleaseId)) :=
  mem_retryable_iff

theorem hasTarget_iff :
    HasTarget index outcomes ↔ ∃ id ∈ retryIds index outcomes, id ∈ index.map (·.releaseId) := by
  simp only [HasTarget, mem_retryIds]
  constructor
  · rintro ⟨id, hid, h | h⟩
    · exact ⟨id, .inr ⟨hid, h⟩, hid⟩
    · exact ⟨id, .inl h, hid⟩
  · rintro ⟨id, h | ⟨-, h⟩, hid⟩
    · exact ⟨id, hid, .inr h⟩
    · exact ⟨id, hid, .inl h⟩

/-- Where there is no target, the verdict is retryable unless another one is due. -/
theorem reconcileCheckpoint_partialRetryable (h : ¬ HasTarget index outcomes) :
    (reconcileCheckpoint index outcomes).2 = .partialRetryable ↔ ¬ HasOtherVerdict index outcomes := by
  have hresolved : ¬ ∃ id ∈ index.map (·.releaseId), id ∉ outcomes.map (·.outcomeReleaseId) :=
    fun ⟨id, hid, hnot⟩ => h ⟨id, hid, .inl hnot⟩
  have hindex : index.map (·.releaseId) ≠ [] ↔ index ≠ [] := by simp
  rw [reconcileCheckpoint, reconcile_partialRetryable, or_iff_right hresolved, hindex]
  unfold HasOtherVerdict expectedTracksOf
  constructor
  · rintro ⟨hreasons, hread, hmissing⟩ (⟨o, ho, hfor⟩ | ⟨hne, hunread⟩ | ⟨hwhole, htracks⟩)
    · rcases hfor with hfor | hfor
      · exact (hreasons o ho).1 hfor
      · exact (hreasons o ho).2 hfor
    · obtain ⟨o, ho, hcompleted⟩ := hread hne
      rw [hunread o ho] at hcompleted
      cases hcompleted
    · rcases hmissing with ⟨o, ho, hfailed⟩ | ⟨expected, hexpected, hne⟩ | ⟨o, ho, hgap⟩
      · rw [(hwhole o ho).1] at hfailed
        cases hfailed
      · exact hne (htracks expected hexpected)
      · rw [(hwhole o ho).2] at hgap
        cases hgap
  · intro hother
    refine ⟨fun o ho => ⟨fun hfor => hother (.inl ⟨o, ho, .inl hfor⟩),
      fun hfor => hother (.inl ⟨o, ho, .inr hfor⟩)⟩, fun hne => ?_, ?_⟩
    · by_contra hnone
      exact hother (.inr (.inl ⟨hne, fun o ho => by
        simpa using fun hcompleted => hnone ⟨o, ho, hcompleted⟩⟩))
    · by_contra hnothing
      push Not at hnothing
      obtain ⟨hfailed, htracks, hgap⟩ := hnothing
      refine hother (.inr (.inr ⟨fun o ho => ⟨?_, ?_⟩, htracks⟩))
      · simpa using hfailed o ho
      · simpa using hgap o ho

/-- The filter of a chunk delivery never drops a release to retry. -/
theorem isTodo_of_retryIds (hids : (outcomes.map (·.outcomeReleaseId)).Nodup) {ref : ReleaseRefRecord}
    (h : ref.releaseId ∈ retryIds index outcomes) : isTodo outcomes ref := by
  unfold isTodo
  rcases mem_retryIds.1 h with ⟨o, ho, hid, hretried⟩ | ⟨-, hnot⟩
  · have hstored : outcomeOf ref.releaseId outcomes = some o := by
      rw [← hid]
      exact get?_of_mem hids ho
    rw [hstored]
    cases o with
    | completed release source elapsedMs fingerprint => exact hretried
    | failed => rfl
    | skipped => rfl
  · rw [outcomeOf, get?_eq_none.2 hnot]
    rfl

theorem worked_of_retryIds (hids : (outcomes.map (·.outcomeReleaseId)).Nodup) {id : String}
    {releaseIds : List String} (h : id ∈ retryIds index outcomes)
    (hindex : id ∈ index.map (·.releaseId)) (hid : id ∈ releaseIds) :
    ∃ ref ∈ todo index outcomes releaseIds, ref.releaseId = id := by
  have hknown : id ∈ (putAll ReleaseRefRecord.releaseId [] index).map (·.releaseId) :=
    mem_keys_putAll.2 (.inr hindex)
  obtain ⟨ref, href⟩ := Option.isSome_iff_exists.1 (get?_isSome.2 hknown)
  obtain rfl := key_of_get? href
  exact ⟨ref, List.mem_filter.2 ⟨List.mem_filterMap.2 ⟨_, hid, href⟩, isTodo_of_retryIds hids h⟩, rfl⟩

/-- A chunk delivery works on indexed releases only. -/
theorem mem_index_of_mem_todo {releaseIds : List String} {ref : ReleaseRefRecord}
    (h : ref ∈ todo index outcomes releaseIds) : ref.releaseId ∈ index.map (·.releaseId) := by
  obtain ⟨id, -, href⟩ := List.mem_filterMap.1 (List.mem_of_mem_filter h)
  rcases mem_putAll (mem_of_get? href) with hmem | hmem
  · cases hmem
  · exact List.mem_map_of_mem hmem

end Targets

/-- The targets agree with the verdict exactly where an indexed release is left to read
again, or another verdict is due. -/
theorem retryAgrees_iff (index : List ReleaseRefRecord) (outcomes : List ReleaseExtractionOutcome)
    (hids : (outcomes.map (·.outcomeReleaseId)).Nodup) :
    RetryAgrees index outcomes ↔ HasTarget index outcomes ∨ HasOtherVerdict index outcomes := by
  constructor
  · intro hagrees
    by_contra hneither
    obtain ⟨htarget, hother⟩ := not_or.1 hneither
    have hverdict := (reconcileCheckpoint_partialRetryable htarget).2 hother
    have hsome : (chunkReleases (retryIds index outcomes) (.finite 1)).isSome :=
      chunkReleases_isSome one_pos
    obtain ⟨plan, hplan⟩ := Option.isSome_iff_exists.1 hsome
    obtain ⟨releaseIds, -, ref, href, hid⟩ := hagrees.attempted hverdict 1 plan hplan
    exact htarget (hasTarget_iff.2 ⟨_, hid, mem_index_of_mem_todo href⟩)
  · intro hcondition
    have htarget (hverdict : (reconcileCheckpoint index outcomes).2 = .partialRetryable) :
        HasTarget index outcomes := by
      by_contra hnone
      exact (reconcileCheckpoint_partialRetryable hnone).1 hverdict (hcondition.resolve_left hnone)
    refine ⟨fun hverdict hempty => ?_, fun id hid hindex job hjob => worked_of_retryIds hids hid hindex hjob,
      fun hverdict size plan hplan => ?_⟩
    · obtain ⟨id, hid, -⟩ := hasTarget_iff.1 (htarget hverdict)
      rw [hempty] at hid
      cases hid
    · obtain ⟨id, hid, hindex⟩ := hasTarget_iff.1 (htarget hverdict)
      have hheld : id ∈ plan.flatten := by rwa [chunkReleases_flatten hplan]
      obtain ⟨releaseIds, hmem, hin⟩ := List.mem_flatten.1 hheld
      obtain ⟨ref, href, rfl⟩ := worked_of_retryIds hids hid hindex hin
      exact ⟨releaseIds, hmem, ref, href, hid⟩

/-- One release read, the other one failed. -/
def sampleIndex : List ReleaseRefRecord := ["a", "b"].map fun id => ⟨id, "", none, none, none⟩

theorem retryAgrees_timeout : RetryAgrees sampleIndex [sampleRead "a", sampleMiss "b"] ∧
    (reconcileCheckpoint sampleIndex [sampleRead "a", sampleMiss "b"]).2 = .partialRetryable := by
  refine ⟨(retryAgrees_iff _ _ (by decide)).2 (.inl ⟨"b", by decide, .inr ⟨sampleMiss "b", ?_, rfl, ?_⟩⟩), by decide⟩
  · exact List.mem_cons_of_mem _ List.mem_cons_self
  · decide

/-- A failure for want of access makes the verdict retryable, and there is nothing to retry. -/
theorem retryAgrees_notAuthorized :
    ¬ RetryAgrees sampleIndex [sampleRead "a", .failed "b" .notAuthorized "forbidden" 1 none] := by
  intro hagrees
  exact hagrees.targets (by decide) (by decide)

end CatalogSentinel.Distrokid
