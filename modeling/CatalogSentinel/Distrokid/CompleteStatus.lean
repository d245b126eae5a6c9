import CatalogSentinel.Distrokid.Completeness

/-!
What a complete status says. The status is complete exactly where every check of
`deriveStatus` passes, and no check counts the skipped releases: an expected release
that was skipped has a terminal result and no metadata at all.
-/

namespace CatalogSentinel.Distrokid

open CatalogSentinel.Data

def SnapshotStatus.isComplete : SnapshotStatus → Bool
  | complete => true
  | completeWithSourceGaps => true
  | _ => false

def ReleaseExtractionOutcome.isSkipped : ReleaseExtractionOutcome → Bool
  | skipped .. => true
  | _ => false

/-- The release was read, and no audited field of it is an extraction failure. -/
def Captured (outcomes : List ReleaseExtractionOutcome) (id : String) : Prop :=
  ∃ release source elapsedMs fingerprint,
    .completed release source elapsedMs fingerprint ∈ outcomes ∧ release.distributorReleaseId = id ∧
      ∀ field ∈ auditedFields release, field.isExtractionFailure = false

/-- A complete status is to mean that every expected release was captured and none is left
to read again. -/
def CompleteIsSound (input : ReconcileInput) : Prop :=
  (reconcile input).2.isComplete →
    (∀ id ∈ input.expectedReleaseIds, Captured input.outcomes id) ∧ retryableReleaseIds input = []

/-- What the checks of `deriveStatus` ask of their input. -/
structure PassesChecks (input : ReconcileInput) : Prop where
  resolved : ∀ id ∈ input.expectedReleaseIds, ∃ o ∈ input.outcomes, o.outcomeReleaseId = id
  unfailed : ∀ o ∈ input.outcomes, o.isFailed = false
  completes : input.expectedReleaseIds ≠ [] → ∃ o ∈ input.outcomes, o.isCompleted
  tracks : ∀ expected, input.expectedTracks = some expected →
    ((completedReleasesOf input.outcomes).flatMap (·.tracks)).length = expected
  captured : ∀ release ∈ completedReleasesOf input.outcomes, ∀ field ∈ auditedFields release,
    field.isExtractionFailure = false

section Checks

variable {input : ReconcileInput}

theorem mem_completedReleasesOf {outcomes : List ReleaseExtractionOutcome}
    {release : CanonicalDistributorRelease} : release ∈ completedReleasesOf outcomes ↔
      ∃ source elapsedMs fingerprint, .completed release source elapsedMs fingerprint ∈ outcomes := by
  unfold completedReleasesOf
  rw [List.mem_filterMap]
  constructor
  · rintro ⟨o, ho, hr⟩
    cases o with
    | completed r source elapsedMs fingerprint =>
      obtain rfl := Option.some.inj hr
      exact ⟨source, elapsedMs, fingerprint, ho⟩
    | _ => cases hr
  · rintro ⟨source, elapsedMs, fingerprint, ho⟩
    exact ⟨_, ho, rfl⟩

theorem completedReleasesOf_eq_nil {outcomes : List ReleaseExtractionOutcome} :
    completedReleasesOf outcomes = [] ↔ ∀ o ∈ outcomes, o.isCompleted = false := by
  simp [completedReleasesOf, List.filterMap_eq_nil_iff, ReleaseExtractionOutcome.isCompleted]

/-- Reasons are counted of failed releases only. -/
theorem failureReasonsOf_eq_nil {outcomes : List ReleaseExtractionOutcome}
    (h : ∀ o ∈ outcomes, o.isFailed = false) : failureReasonsOf outcomes = [] := by
  unfold failureReasonsOf
  generalize ([] : Tally) = t
  induction outcomes generalizing t with
  | nil => rfl
  | cons o os ih =>
    rw [List.foldl_cons]
    have ho := h o List.mem_cons_self
    cases o with
    | failed => cases ho
    | _ => exact ih (fun o ho => h o (List.mem_cons_of_mem _ ho)) _

theorem sum_notCaptured_eq_zero {releases : List CanonicalDistributorRelease} :
    ((releases.map auditReleaseMetadata).map (·.notCaptured)).sum = 0 ↔
      ∀ release ∈ releases, ∀ field ∈ auditedFields release, field.isExtractionFailure = false := by
  induction releases with
  | nil => simp
  | cons release releases ih =>
    rw [List.map_cons, List.map_cons, List.sum_cons, Nat.add_eq_zero_iff, ih, List.forall_mem_cons]
    simp [auditReleaseMetadata, List.countP_eq_zero]

theorem releaseNeedsMetadataRetry_eq_false {release : CanonicalDistributorRelease} :
    releaseNeedsMetadataRetry release = false ↔
      ∀ field ∈ auditedFields release, field.isExtractionFailure = false := by
  simp [releaseNeedsMetadataRetry, auditReleaseMetadata]

/-- The status is complete exactly where all the checks pass. -/
theorem reconcile_isComplete : (reconcile input).2.isComplete ↔ PassesChecks input := by
  have hresolved : (reconcileCompleteness input).unresolvedReleaseIds.length > 0 ↔
      ¬ ∀ id ∈ input.expectedReleaseIds, ∃ o ∈ input.outcomes, o.outcomeReleaseId = id := by
    simp [reconcileCompleteness, List.length_pos_iff, List.filter_eq_nil_iff]
  have hfailed : (reconcileCompleteness input).failedReleases > 0 ↔
      ¬ ∀ o ∈ input.outcomes, o.isFailed = false := by
    simp [reconcileCompleteness, List.countP_pos_iff]
  have hcompletes : ((reconcileCompleteness input).expectedReleases > 0 ∧
      (reconcileCompleteness input).completedReleases = 0) ↔
      ¬ (input.expectedReleaseIds ≠ [] → ∃ o ∈ input.outcomes, o.isCompleted) := by
    simp [reconcileCompleteness, List.length_pos_iff, completedReleasesOf_eq_nil]
  have htracks : ((reconcileCompleteness input).expectedTracksKnown ∧
      (reconcileCompleteness input).extractedTracks ≠ (reconcileCompleteness input).expectedTracks) ↔
      ¬ ∀ expected, input.expectedTracks = some expected →
        ((completedReleasesOf input.outcomes).flatMap (·.tracks)).length = expected := by
    cases h : input.expectedTracks <;> simp [reconcileCompleteness, h]
  have hcaptured : (reconcileCompleteness input).metadataFieldsNotCaptured.getD
      ((reconcileCompleteness input).releasesUpcNotCaptured +
        (reconcileCompleteness input).tracksIsrcNotCaptured) > 0 ↔
      ¬ ∀ release ∈ completedReleasesOf input.outcomes, ∀ field ∈ auditedFields release,
        field.isExtractionFailure = false := by
    rw [← sum_notCaptured_eq_zero]
    exact Nat.pos_iff_ne_zero
  have hreasons : (∀ o ∈ input.outcomes, o.isFailed = false) → ∀ key,
      (reconcileCompleteness input).failureReasons.count key = 0 := by
    intro hnone key
    show (failureReasonsOf input.outcomes).count key = 0
    rw [failureReasonsOf_eq_nil hnone]
    rfl
  show (deriveStatus (reconcileCompleteness input)).isComplete ↔ _
  unfold deriveStatus
  constructor
  · intro h
    split at h
    · cases h
    split at h
    · cases h
    split at h
    · cases h
    split at h
    · cases h
    split at h
    · cases h
    split at h
    · cases h
    split at h
    · cases h
    rename_i hres _ _ hcom hfai htra hcap
    exact ⟨not_not.1 (mt hresolved.2 hres), not_not.1 (mt hfailed.2 hfai),
      not_not.1 (mt hcompletes.2 hcom), not_not.1 (mt htracks.2 htra),
      not_not.1 (mt hcaptured.2 hcap)⟩
  · intro h
    rw [if_neg fun hc => hresolved.1 hc h.resolved, if_neg (not_not.2 (hreasons h.unfailed _)),
      if_neg (not_not.2 (hreasons h.unfailed _)), if_neg fun hc => hcompletes.1 hc h.completes,
      if_neg fun hc => hfailed.1 hc h.unfailed, if_neg fun hc => htracks.1 hc h.tracks,
      if_neg fun hc => hcaptured.1 hc h.captured]
    split <;> rfl

/-- Where the checks pass, nothing is left to read again. -/
theorem PassesChecks.retryable (h : PassesChecks input) : retryableReleaseIds input = [] := by
  rw [List.eq_nil_iff_forall_not_mem]
  intro id hid
  rcases mem_retryableReleaseIds.1 hid with ⟨o, ho, hr⟩ | ⟨o, ho, hr⟩ | ⟨hexpected, hnot⟩
  · have hunfailed := h.unfailed o ho
    cases o with
    | failed => cases hunfailed
    | _ => cases hr
  · cases o with
    | completed release source elapsedMs fingerprint =>
      have hcaptured := h.captured release (mem_completedReleasesOf.2 ⟨_, _, _, ho⟩)
      rw [incompleteId, releaseNeedsMetadataRetry_eq_false.2 hcaptured] at hr
      cases hr
    | _ => cases hr
  · obtain ⟨o, ho, rfl⟩ := h.resolved id hexpected
    exact hnot (List.mem_map_of_mem ho)

/-- Where the checks pass, an expected release was captured or skipped. -/
theorem PassesChecks.captured_or_skipped (h : PassesChecks input) {id : String}
    (hid : id ∈ input.expectedReleaseIds) : Captured input.outcomes id ∨
      ∃ o ∈ input.outcomes, o.isSkipped ∧ o.outcomeReleaseId = id := by
  obtain ⟨o, ho, rfl⟩ := h.resolved id hid
  cases o with
  | completed release source elapsedMs fingerprint =>
    exact .inl ⟨release, source, elapsedMs, fingerprint, ho, rfl,
      h.captured release (mem_completedReleasesOf.2 ⟨_, _, _, ho⟩)⟩
  | failed => cases h.unfailed _ ho
  | skipped => exact .inr ⟨_, ho, rfl, rfl⟩

end Checks

/-- A complete status is sound exactly where no expected release was skipped, or a check of
the other outcomes fails. -/
theorem completeIsSound_iff (input : ReconcileInput)
    (hids : (input.outcomes.map (·.outcomeReleaseId)).Nodup) : CompleteIsSound input ↔
      (PassesChecks input → ∀ o ∈ input.outcomes, o.isSkipped →
        o.outcomeReleaseId ∉ input.expectedReleaseIds) := by
  constructor
  · intro hsound hchecks o ho hskipped hexpected
    obtain ⟨hcaptured, -⟩ := hsound (reconcile_isComplete.2 hchecks)
    obtain ⟨release, source, elapsedMs, fingerprint, hmem, hid, -⟩ := hcaptured _ hexpected
    have hsame := List.inj_on_of_nodup_map hids hmem ho hid
    rw [← hsame] at hskipped
    cases hskipped
  · intro hskips hcomplete
    have hchecks := reconcile_isComplete.1 hcomplete
    refine ⟨fun id hid => ?_, hchecks.retryable⟩
    rcases hchecks.captured_or_skipped hid with hcaptured | ⟨o, ho, hskipped, rfl⟩
    · exact hcaptured
    · exact absurd hid (hskips hchecks o ho hskipped)

theorem completeIsSound_read : CompleteIsSound ⟨["a"], [sampleRead "a"], none⟩ ∧
    (reconcile ⟨["a"], [sampleRead "a"], none⟩).2 = .complete := by
  refine ⟨(completeIsSound_iff _ (by decide)).2 fun _ o ho hskipped => ?_, by decide⟩
  rw [List.mem_singleton.1 ho] at hskipped
  cases hskipped

/-- One release read and the other one skipped is complete. -/
theorem skipped_is_complete : ¬ CompleteIsSound ⟨["a", "b"], [sampleRead "a", .skipped "b" ""], none⟩ := by
  intro hsound
  obtain ⟨hcaptured, -⟩ := hsound (by decide)
  obtain ⟨release, source, elapsedMs, fingerprint, hmem, hid, -⟩ := hcaptured "b" (by decide)
  rcases List.mem_cons.1 hmem with h | h
  · cases h
    revert hid
    decide
  · cases List.mem_singleton.1 h

end CatalogSentinel.Distrokid
