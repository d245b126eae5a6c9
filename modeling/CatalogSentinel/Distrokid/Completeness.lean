import Mathlib.Algebra.GroupWithZero.Nat
import CatalogSentinel.Distrokid.Metadata

/-!
Completeness reconciliation: what a list of release outcomes amounts to against
the releases that the catalogue index expects, the status derived from it, and
the releases that a retry pass should read again.
-/

namespace CatalogSentinel.Distrokid

open CatalogSentinel.Data

inductive SnapshotStatus
  | complete | completeWithSourceGaps | partialRetryable | partialReauthRequired
  | failedSchemaChanged | failed
  deriving DecidableEq, Repr

/-- A `Record<string, number>` of counters, in insertion order. -/
abbrev Tally := List (String × ℕ)

namespace Tally

def count (t : Tally) (k : String) : ℕ := ((get? Prod.fst k t).map Prod.snd).getD 0

/-- `t[k] = (t[k] ?? 0) + 1` -/
def bump (t : Tally) (k : String) : Tally := put Prod.fst (k, t.count k + 1) t

theorem count_bump (t : Tally) (k k' : String) :
    (t.bump k).count k' = if k = k' then t.count k' + 1 else t.count k' := by
  unfold bump
  rw [count, get?_put]
  split
  · rename_i h
    subst h
    rfl
  · rfl

end Tally

structure ExtractionCompleteness where
  expectedReleases : ℕ
  attemptedReleases : ℕ
  completedReleases : ℕ
  failedReleases : ℕ
  skippedReleases : ℕ
  expectedTracksKnown : Bool
  expectedTracks : ℕ
  extractedTracks : ℕ
  releasesWithUpc : ℕ
  releasesWithArtwork : ℕ
  tracksWithIsrc : ℕ
  tracksWithDistributorId : ℕ
  releasesUpcAbsentAtSource : ℕ
  tracksIsrcAbsentAtSource : ℕ
  releasesUpcNotCaptured : ℕ
  tracksIsrcNotCaptured : ℕ
  metadataFieldsAudited : Option ℕ
  metadataFieldsPresent : Option ℕ
  metadataFieldsAbsentAtSource : Option ℕ
  metadataFieldsNotCaptured : Option ℕ
  metadataIncompleteReleaseIds : Option (List String)
  unresolvedReleaseIds : List String
  failureReasons : Tally
  deriving DecidableEq, Repr

structure ReconcileInput where
  expectedReleaseIds : List String
  outcomes : List ReleaseExtractionOutcome
  expectedTracks : Option ℕ

structure ReleaseMetadataAudit where
  fieldsAudited : ℕ
  present : ℕ
  absentAtSource : ℕ
  notCaptured : ℕ

/-- Every provenance-bearing field that the parser emits for a release. -/
def auditedFields (release : CanonicalDistributorRelease) : List (MetadataField String) :=
  [release.upc, release.artworkUrl, release.releaseDate] ++ release.uploadDate.toList ++
    release.label.toList ++ release.tracks.map (·.isrc)

def auditReleaseMetadata (release : CanonicalDistributorRelease) : ReleaseMetadataAudit :=
  let fields := auditedFields release
  { fieldsAudited := fields.length
    present := fields.countP (·.isPresent)
    absentAtSource := fields.countP (·.isAbsentAtSource)
    notCaptured := fields.countP (·.isExtractionFailure) }

def releaseNeedsMetadataRetry (release : CanonicalDistributorRelease) : Bool :=
  (auditReleaseMetadata release).notCaptured > 0

def completedReleasesOf (outcomes : List ReleaseExtractionOutcome) :
    List CanonicalDistributorRelease :=
  outcomes.filterMap (·.release?)

def failureReasonsOf (outcomes : List ReleaseExtractionOutcome) : Tally :=
  outcomes.foldl (fun t o => match o with
    | .failed _ reason .. => t.bump reason.key
    | _ => t) []

def deriveStatus (c : ExtractionCompleteness) : SnapshotStatus :=
  if c.unresolvedReleaseIds.length > 0 then .partialRetryable
  else if c.failureReasons.count "SCHEMA_CHANGED" ≠ 0 then .failedSchemaChanged
  else if c.failureReasons.count "REAUTH_REQUIRED" ≠ 0 then .partialReauthRequired
  else if c.expectedReleases > 0 ∧ c.completedReleases = 0 then .failed
  else if c.failedReleases > 0 then .partialRetryable
  else if c.expectedTracksKnown ∧ c.extractedTracks ≠ c.expectedTracks then .partialRetryable
  else if c.metadataFieldsNotCaptured.getD (c.releasesUpcNotCaptured + c.tracksIsrcNotCaptured) > 0
    then .partialRetryable
  else if c.metadataFieldsAbsentAtSource.getD
      (c.releasesUpcAbsentAtSource + c.tracksIsrcAbsentAtSource) > 0
    then .completeWithSourceGaps
  else .complete

def reconcileCompleteness (input : ReconcileInput) : ExtractionCompleteness :=
  let ids := input.outcomes.map (·.outcomeReleaseId)
  let completed := completedReleasesOf input.outcomes
  let tracks := completed.flatMap (·.tracks)
  let audits := completed.map auditReleaseMetadata
  { expectedReleases := input.expectedReleaseIds.length
    attemptedReleases := ids.dedup.length
    completedReleases := completed.length
    failedReleases := input.outcomes.countP (·.isFailed)
    skippedReleases := input.outcomes.countP fun o => !o.isCompleted && !o.isFailed
    expectedTracksKnown := input.expectedTracks.isSome
    expectedTracks := input.expectedTracks.getD tracks.length
    extractedTracks := tracks.length
    releasesWithUpc := completed.countP (·.upc.isPresent)
    releasesWithArtwork := completed.countP (·.artworkUrl.isPresent)
    tracksWithIsrc := tracks.countP (·.isrc.isPresent)
    tracksWithDistributorId := tracks.countP fun t => isTruthy t.distributorTrackId
    releasesUpcAbsentAtSource := completed.countP (·.upc.isAbsentAtSource)
    tracksIsrcAbsentAtSource := tracks.countP (·.isrc.isAbsentAtSource)
    releasesUpcNotCaptured := completed.countP (·.upc.isExtractionFailure)
    tracksIsrcNotCaptured := tracks.countP (·.isrc.isExtractionFailure)
    metadataFieldsAudited := some (audits.map (·.fieldsAudited)).sum
    metadataFieldsPresent := some (audits.map (·.present)).sum
    metadataFieldsAbsentAtSource := some (audits.map (·.absentAtSource)).sum
    metadataFieldsNotCaptured := some (audits.map (·.notCaptured)).sum
    metadataIncompleteReleaseIds :=
      some ((completed.filter releaseNeedsMetadataRetry).map (·.distributorReleaseId))
    unresolvedReleaseIds := input.expectedReleaseIds.filter fun id => id ∉ ids
    failureReasons := failureReasonsOf input.outcomes }

def reconcile (input : ReconcileInput) : ExtractionCompleteness × SnapshotStatus :=
  (reconcileCompleteness input, deriveStatus (reconcileCompleteness input))

/-! ### Releases to retry -/

def isRetryable (reason : String) : Bool := reason ∉ ["NOT_AUTHORIZED", "SCHEMA_CHANGED"]

/-- `set.add(id)` on an insertion-ordered set. -/
def addId (ids : List String) (id : String) : List String :=
  if id ∈ ids then ids else ids ++ [id]

/-- The ids that the outcomes alone make retryable. -/
def retryableId : ReleaseExtractionOutcome → Option String
  | .failed id reason .. => if isRetryable reason.key then some id else none
  | _ => none

def incompleteId : ReleaseExtractionOutcome → Option String
  | .completed release .. =>
    if releaseNeedsMetadataRetry release then some release.distributorReleaseId else none
  | _ => none

def retryableReleaseIds (input : ReconcileInput) : List String :=
  let attempted := input.outcomes.map (·.outcomeReleaseId)
  (input.outcomes.filterMap retryableId ++ input.outcomes.filterMap incompleteId ++
    input.expectedReleaseIds.filter fun id => id ∉ attempted).foldl addId []

theorem mem_foldl_addId {id : String} {xs ids : List String} :
    id ∈ xs.foldl addId ids ↔ id ∈ ids ∨ id ∈ xs := by
  induction xs generalizing ids with
  | nil => simp
  | cons x xs ih =>
    rw [List.foldl_cons, ih, List.mem_cons]
    unfold addId
    split
    · rename_i h
      constructor
      · rintro (h' | h') <;> simp [h']
      · rintro (h' | rfl | h') <;> simp_all
    · rw [List.mem_append, List.mem_singleton]
      tauto

theorem mem_retryableReleaseIds {input : ReconcileInput} {id : String} :
    id ∈ retryableReleaseIds input ↔
      (∃ o ∈ input.outcomes, retryableId o = some id) ∨
        (∃ o ∈ input.outcomes, incompleteId o = some id) ∨
        (id ∈ input.expectedReleaseIds ∧ id ∉ input.outcomes.map (·.outcomeReleaseId)) := by
  unfold retryableReleaseIds
  simp only [mem_foldl_addId, List.not_mem_nil, false_or, List.mem_append, List.mem_filterMap,
    List.mem_filter, decide_eq_true_eq, or_assoc]

theorem retryableId_eq {o : ReleaseExtractionOutcome} {id : String} (h : retryableId o = some id) :
    o.outcomeReleaseId = id := by
  cases o with
  | failed id' reason detail elapsedMs fingerprint =>
    simp only [retryableId] at h
    split at h
    · exact Option.some.inj h
    · cases h
  | _ => cases h

theorem incompleteId_eq {o : ReleaseExtractionOutcome} {id : String} (h : incompleteId o = some id) :
    o.outcomeReleaseId = id := by
  cases o with
  | completed release source elapsedMs fingerprint =>
    simp only [incompleteId] at h
    split at h
    · exact Option.some.inj h
    · cases h
  | _ => cases h

/-- A retry pass asks only for releases that the index or an outcome names. -/
theorem retryable_known {input : ReconcileInput} {id : String}
    (h : id ∈ retryableReleaseIds input) :
    id ∈ input.expectedReleaseIds ∨ id ∈ input.outcomes.map (·.outcomeReleaseId) := by
  rcases mem_retryableReleaseIds.1 h with ⟨o, ho, hid⟩ | ⟨o, ho, hid⟩ | ⟨hid, _⟩
  · exact .inr (List.mem_map.2 ⟨o, ho, retryableId_eq hid⟩)
  · exact .inr (List.mem_map.2 ⟨o, ho, incompleteId_eq hid⟩)
  · exact .inl hid

end CatalogSentinel.Distrokid
