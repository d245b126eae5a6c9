import CatalogSentinel.Search.DeepScan
import CatalogSentinel.Stores.Names

/-!
The hand-off of a terminal snapshot to the saved search that it was taken for. The first
projection builds the catalogue from the completed releases; from then on the record belongs to
the presence scan and to its reviewers, and projecting the snapshot again leaves it as it is.
-/

namespace CatalogSentinel.Search.Projection

open Data Distrokid

/-! ### The record as customers see it -/

structure CatalogTrackMetadata where
  isrc : MetadataField String
  upc : MetadataField String
  artworkUrl : MetadataField String
  releaseDate : MetadataField String
  label : Option (MetadataField String)
  uploadDate : Option (MetadataField String)
  deriving DecidableEq

structure ReleasedTrackLike where
  title : String
  primaryArtist : String
  featuredArtists : Option (List String)
  isrc : Option String
  releaseTitle : Option String
  artworkUrl : Option String
  label : Option String
  upc : Option String
  releaseDate : Option String
  uploadDate : Option String
  metadata : Option CatalogTrackMetadata
  deriving DecidableEq

structure CatalogTrackLike where
  title : String
  primaryArtist : String
  featuredArtists : Option (List String)
  album : Option String
  isrc : Option String
  artworkUrl : Option String
  label : Option String
  upc : Option String
  releaseDate : Option String
  uploadDate : Option String
  metadata : Option CatalogTrackMetadata
  perStore : List PerStore
  deriving DecidableEq

structure DistributorExtraction where
  engine : String
  status : SnapshotStatus
  finalizedAt : String
  completeness : ExtractionCompleteness
  deriving DecidableEq

structure CatalogResultLike where
  artist : String
  stores : List String
  profiles : List (String × String × String)
  tracks : List CatalogTrackLike
  summary : Summary
  generatedAt : String
  warnings : List String
  distributorExtraction : Option DistributorExtraction
  note : String
  deriving DecidableEq

structure Body where
  artist : String
  platforms : List String
  released : Option (List ReleasedTrackLike)
  result : CatalogResultLike
  deepScan : Option DeepScanState
  deriving DecidableEq

/-- What the presence scan and the review know of a record. -/
def view (body : Body) : Scan :=
  { artist := body.artist
    released := body.released.map fun released => released.map fun t => ⟨t.title, t.primaryArtist, t.isrc⟩
    result :=
      { stores := body.result.stores
        tracks := body.result.tracks.map fun t => ⟨t.title, t.album, t.isrc, t.perStore⟩
        summary := body.result.summary
        warnings := body.result.warnings }
    deepScan := body.deepScan }

/-! ### The projection -/

def READING_SENTINEL : String := "__reading_in_progress__"

def statusText : SnapshotStatus → String
  | .complete => "COMPLETE"
  | .completeWithSourceGaps => "COMPLETE_WITH_SOURCE_GAPS"
  | .partialRetryable => "PARTIAL_RETRYABLE"
  | .partialReauthRequired => "PARTIAL_REAUTH_REQUIRED"
  | .failedSchemaChanged => "FAILED_SCHEMA_CHANGED"
  | .failed => "FAILED"

def valueOf (field : Option (MetadataField String)) : Option String :=
  field.bind fun field => if field.status = .present then field.value else none

def publicField (field : MetadataField String) : MetadataField String :=
  { value := field.value
    status := field.status
    source := field.source
    capturedAt := field.capturedAt
    parserVersion := field.parserVersion }

def releasedTrack (artist : String) (release : CanonicalDistributorRelease) (track : CanonicalDistributorTrack) :
    ReleasedTrackLike :=
  { title := orElse (trim track.title) (trim release.title)
    primaryArtist := orElse (release.primaryArtist.getD "") artist
    featuredArtists := release.featuredArtists
    isrc := valueOf (some track.isrc)
    releaseTitle := if release.title = "" then none else some release.title
    artworkUrl := valueOf (some release.artworkUrl)
    label := valueOf release.label
    upc := valueOf (some release.upc)
    releaseDate := valueOf (some release.releaseDate)
    uploadDate := valueOf release.uploadDate
    metadata := some
      { isrc := publicField track.isrc
        upc := publicField release.upc
        artworkUrl := publicField release.artworkUrl
        releaseDate := publicField release.releaseDate
        label := release.label.map publicField
        uploadDate := release.uploadDate.map publicField } }

def releasedOf (artist : String) (outcomes : List ReleaseExtractionOutcome) : List ReleasedTrackLike :=
  outcomes.flatMap fun outcome =>
    match outcome with
    | .completed release .. => release.tracks.map (releasedTrack artist release)
    | .failed .. | .skipped .. => []

/-- Nothing has been checked yet, so the matrix is empty. -/
def catalogTrack (track : ReleasedTrackLike) : CatalogTrackLike :=
  { title := track.title
    primaryArtist := track.primaryArtist
    featuredArtists := track.featuredArtists
    album := track.releaseTitle
    isrc := track.isrc
    artworkUrl := track.artworkUrl
    label := track.label
    upc := track.upc
    releaseDate := track.releaseDate
    uploadDate := track.uploadDate
    metadata := track.metadata
    perStore := [] }

def failureReasons (outcomes : List ReleaseExtractionOutcome) : List String :=
  outcomes.filterMap fun outcome =>
    match outcome with
    | .failed _ reason .. => some reason.key
    | .completed .. | .skipped .. => none

def skippedCount (outcomes : List ReleaseExtractionOutcome) : ℕ :=
  outcomes.countP fun outcome =>
    match outcome with
    | .skipped .. => true
    | .completed .. | .failed .. => false

def failureWarning (reasons : List String) : String :=
  let byReason : Tally := reasons.foldl Tally.bump []
  "Could not verify " ++ toString reasons.length ++ " release(s): " ++
    String.intercalate ", " (byReason.map fun (reason, count) => reason ++ " " ++ toString count) ++ "."

def warningsOf (job : FinalizeJob) (outcomes : List ReleaseExtractionOutcome) (released : List ReleasedTrackLike) :
    List String :=
  (if job.status ≠ .complete then
    ["Distributor extraction finished with status " ++ statusText job.status ++
      "; unresolved metadata is not treated as missing."] else []) ++
  (if failureReasons outcomes ≠ [] then [failureWarning (failureReasons outcomes)] else []) ++
  (if skippedCount outcomes ≠ 0 then
    [toString (skippedCount outcomes) ++ " release(s) were not extracted and remain unverified."] else []) ++
  (if released = [] then ["No tracks were verified from the distributor snapshot."] else [])

def noteOf (completeness : ExtractionCompleteness) (hasReleased willDeepScan : Bool) : String :=
  let verified := "Verified " ++ toString completeness.completedReleases ++ "/" ++
    toString completeness.expectedReleases ++ " distributor release(s). "
  if !hasReleased then
    "The distributor snapshot reached a terminal state, but no tracks were verified. " ++
      "Retry the attended connection or use a distributor export."
  else if willDeepScan then
    verified ++ "Store-presence verification is queued; no missing-store claim is made until that evidence arrives."
  else
    verified ++ "Run a store-presence check to verify each track's availability across stores; " ++
      "no missing-store claim is made until then."

inductive Fault
  | tenantMismatch
  deriving DecidableEq

def Fault.message : Fault → String
  | .tenantMismatch => "finalized snapshot tenant does not own the target search record"

/-- The record has crossed from the reading sentinel into the presence hand-off. -/
def HandedOver (s : Scan) : Prop := s.deepScan.isSome ∧ READING_SENTINEL ∉ s.result.warnings

instance (s : Scan) : Decidable (HandedOver s) := inferInstanceAs (Decidable (_ ∧ _))

def projectFinalizedSnapshot (record : SearchRecord Body) (job : FinalizeJob)
    (outcomes : List ReleaseExtractionOutcome) (nowIso : String) (autoPresence : Bool) :
    Except Fault (SearchRecord Body) :=
  if record.userId ≠ job.tenantId then .error .tenantMismatch
  else if HandedOver (view record.body) then .ok record
  else
    let released := releasedOf record.body.artist outcomes
    let tracks := released.map catalogTrack
    let hasReleased := !released.isEmpty
    let willDeepScan := hasReleased && autoPresence
    .ok { record with
      userId := job.tenantId
      body := { record.body with
        platforms := []
        released := some released
        result :=
          { artist := record.body.artist
            stores := []
            profiles := []
            tracks := tracks
            summary := { tracks := tracks.length, live := 0, notLive := 0, wrongProfile := 0, needsReview := 0 }
            generatedAt := nowIso
            warnings := warningsOf job outcomes released
            distributorExtraction := some
              { engine := "NETWORK_FIRST"
                status := job.status
                finalizedAt := nowIso
                completeness := job.completeness }
            note := noteOf job.completeness hasReleased willDeepScan }
        deepScan := some
          { status := if willDeepScan then .queued else if hasReleased then .unchecked else .done
            platformsPending := []
            platformsDone := []
            tracksScanned := some 0 } } }

/-! ### Writes after the hand-off -/

/-- What the scan, a reviewer or the request that queues a scan makes of a record. -/
inductive Write : Scan → Scan → Prop
  | scan (s : Scan) (m : DeepScan.Mutation) : Write s (m.apply s)
  | review (s : Scan) (target : Option ReviewTarget) (decision : ManualReviewDecision) (opts : ReviewOptions)
      (result : CatalogResult) (h : applyManualReviewDecision s.result target decision opts = some result) :
      Write s { s with result := result }
  | queue (s : Scan) (state : DeepScanState) : Write s { s with deepScan := some state }

/-- Records that come of a record by such writes, whatever else they change. -/
inductive Extends : SearchRecord Body → SearchRecord Body → Prop
  | refl (r : SearchRecord Body) : Extends r r
  | write {r s : SearchRecord Body} (t : SearchRecord Body) (h : Extends r s) (hview : Write (view s.body) (view t.body))
      (howner : t.userId = s.userId) : Extends r t

/-- The record's tenant alone can project it; the first projection lists the tracks of the completed
releases; and whatever is written to it later, projecting the snapshot again changes nothing. -/
structure ProjectionLaw (record : SearchRecord Body) (job : FinalizeJob) (outcomes : List ReleaseExtractionOutcome)
    (nowIso : String) (autoPresence : Bool) : Prop where
  tenant : record.userId ≠ job.tenantId →
    projectFinalizedSnapshot record job outcomes nowIso autoPresence = .error .tenantMismatch
  total : record.userId = job.tenantId →
    ∃ projected, projectFinalizedSnapshot record job outcomes nowIso autoPresence = .ok projected
  protects : ∀ projected extended, projectFinalizedSnapshot record job outcomes nowIso autoPresence = .ok projected →
    Extends projected extended → ∀ nowIso' autoPresence',
      projectFinalizedSnapshot extended job outcomes nowIso' autoPresence' = .ok extended
  released : ∀ projected, ¬ HandedOver (view record.body) →
    projectFinalizedSnapshot record job outcomes nowIso autoPresence = .ok projected →
    ∃ released, projected.body.released = some released ∧
      released.length = (outcomes.map fun outcome => (outcome.release?.map (·.tracks.length)).getD 0).sum
  kept : ∀ projected extended, projectFinalizedSnapshot record job outcomes nowIso autoPresence = .ok projected →
    Extends projected extended → (view extended.body).released = (view projected.body).released

/-! ### The sentinel is gone -/

theorem sentinel_ne_of_suffix {b : String} (a : String) (hb : b.toList.getLast? = some '.') :
    READING_SENTINEL ≠ a ++ b := by
  intro heq
  have hlast := congrArg (fun s : String => s.toList.getLast?) heq
  simp only [String.toList_append, List.getLast?_append, hb, Option.some_or] at hlast
  exact absurd hlast (by decide)

theorem sentinel_ne_of_prefix {a : String} (ha : a.toList.head? = some 'D') (b : String) :
    READING_SENTINEL ≠ a ++ b := by
  intro heq
  have hfirst := congrArg (fun s : String => s.toList.head?) heq
  simp only [String.toList_append, List.head?_append, ha, Option.some_or] at hfirst
  exact absurd hfirst (by decide)

theorem sentinel_not_mem_warningsOf (job : FinalizeJob) (outcomes : List ReleaseExtractionOutcome)
    (released : List ReleasedTrackLike) : READING_SENTINEL ∉ warningsOf job outcomes released := by
  simp only [warningsOf, List.mem_append, not_or]
  refine ⟨⟨⟨?_, ?_⟩, ?_⟩, ?_⟩ <;> split <;> simp only [List.mem_singleton, List.not_mem_nil, not_false_eq_true]
  · exact sentinel_ne_of_suffix _ (by decide)
  · exact sentinel_ne_of_suffix _ (by decide)
  · exact sentinel_ne_of_suffix _ (by decide)
  · decide

theorem sentinel_not_mem_withPlatformWarnings {existing : List String} (h : READING_SENTINEL ∉ existing)
    (platform : String) (warnings : List String) :
    READING_SENTINEL ∉ DeepScan.withPlatformWarnings existing platform warnings := by
  simp only [DeepScan.withPlatformWarnings, List.mem_append, List.mem_filter, List.mem_map, not_or, not_exists]
  refine ⟨fun hmem => h hmem.1, ?_⟩
  rintro warning ⟨-, heq⟩
  rw [String.append_assoc, String.append_assoc] at heq
  exact sentinel_ne_of_prefix (by decide) _ heq.symm

/-! ### What the writes keep -/

theorem HandedOver.apply {s : Scan} (h : HandedOver s) (m : DeepScan.Mutation) : HandedOver (m.apply s) := by
  obtain ⟨hscan, hwarnings⟩ := h
  cases m with
  | nothingToScan priorDone tracksScanned => exact ⟨rfl, hwarnings⟩
  | overCapacity platformNames priorDone message =>
    refine ⟨rfl, ?_⟩
    simp only [DeepScan.Mutation.apply, List.mem_append, List.mem_filter, List.mem_singleton, not_or]
    refine ⟨fun hmem => hwarnings hmem.1, ?_⟩
    rw [String.append_assoc]
    exact sentinel_ne_of_prefix (by decide) _
  | running platformNames priorDone tracksScanned => exact ⟨rfl, hwarnings⟩
  | chunk name perTrack warnings verifiedThrough =>
    refine ⟨?_, sentinel_not_mem_withPlatformWarnings hwarnings name warnings⟩
    rw [DeepScan.Mutation.apply, Option.isSome_map]
    exact hscan
  | platform name platformNames done tracksScanned released => exact ⟨rfl, hwarnings⟩
  | platformFailures done failed tracksScanned => exact ⟨rfl, hwarnings⟩
  | complete done tracksScanned => exact ⟨rfl, hwarnings⟩

theorem warnings_review {result result' : CatalogResult} {target : Option ReviewTarget}
    {decision : ManualReviewDecision} {opts : ReviewOptions}
    (h : applyManualReviewDecision result target decision opts = some result') : result'.warnings = result.warnings := by
  obtain ⟨target, -, htarget⟩ := Option.bind_eq_some_iff.1 h
  split at htarget
  · rw [← Option.some.inj htarget]
  · cases htarget

theorem HandedOver.write {s t : Scan} (h : HandedOver s) (hwrite : Write s t) :
    HandedOver t ∧ t.released = s.released := by
  cases hwrite with
  | scan m => exact ⟨h.apply m, by cases m <;> rfl⟩
  | review target decision opts result hreview =>
    refine ⟨⟨h.1, ?_⟩, rfl⟩
    rw [warnings_review hreview]
    exact h.2
  | queue state => exact ⟨⟨rfl, h.2⟩, rfl⟩

/-- What was handed over stays so, with its owner and its list of released tracks. -/
theorem Extends.handedOver {r s : SearchRecord Body} (hextends : Extends r s) (h : HandedOver (view r.body)) :
    HandedOver (view s.body) ∧ s.userId = r.userId ∧ (view s.body).released = (view r.body).released := by
  induction hextends with
  | refl => exact ⟨h, rfl, rfl⟩
  | write t _ hview howner ih =>
    obtain ⟨hover, hsame, hreleased⟩ := ih
    obtain ⟨hnext, hkept⟩ := hover.write hview
    exact ⟨hnext, howner.trans hsame, hkept.trans hreleased⟩

/-! ### The projection -/

theorem project_of_handedOver {record : SearchRecord Body} {job : FinalizeJob} (howner : record.userId = job.tenantId)
    (h : HandedOver (view record.body)) (outcomes : List ReleaseExtractionOutcome) (nowIso : String) (autoPresence : Bool) :
    projectFinalizedSnapshot record job outcomes nowIso autoPresence = .ok record := by
  rw [projectFinalizedSnapshot, if_neg (not_not_intro howner), if_pos h]

/-- A record that has been projected is handed over to its owner. -/
theorem handedOver_of_project {record projected : SearchRecord Body} {job : FinalizeJob}
    {outcomes : List ReleaseExtractionOutcome} {nowIso : String} {autoPresence : Bool}
    (h : projectFinalizedSnapshot record job outcomes nowIso autoPresence = .ok projected) :
    projected.userId = job.tenantId ∧ HandedOver (view projected.body) := by
  rw [projectFinalizedSnapshot] at h
  split at h
  · cases h
  · next howner =>
    split at h
    · next hover =>
      obtain rfl := Except.ok.inj h
      exact ⟨not_not.1 howner, hover⟩
    · obtain rfl := Except.ok.inj h
      exact ⟨rfl, rfl, sentinel_not_mem_warningsOf _ _ _⟩

theorem length_releasedOf (artist : String) (outcomes : List ReleaseExtractionOutcome) :
    (releasedOf artist outcomes).length =
      (outcomes.map fun outcome => (outcome.release?.map (·.tracks.length)).getD 0).sum := by
  rw [releasedOf, List.length_flatMap]
  congr 1
  apply List.map_congr_left
  intro outcome _
  cases outcome with
  | completed release source elapsedMs endpointFingerprint => exact List.length_map _
  | failed distributorReleaseId reason detail elapsedMs endpointFingerprint => rfl
  | skipped distributorReleaseId reason => rfl

/-- Finalizing a snapshot is safe to repeat at any time. -/
theorem projectionLaw (record : SearchRecord Body) (job : FinalizeJob) (outcomes : List ReleaseExtractionOutcome)
    (nowIso : String) (autoPresence : Bool) : ProjectionLaw record job outcomes nowIso autoPresence where
  tenant := by
    intro hne
    rw [projectFinalizedSnapshot, if_pos hne]
  total := by
    intro howner
    rw [projectFinalizedSnapshot, if_neg (not_not_intro howner)]
    split
    · exact ⟨_, rfl⟩
    · exact ⟨_, rfl⟩
  protects := by
    intro projected extended hproject hextends nowIso' autoPresence'
    obtain ⟨howner, hover⟩ := handedOver_of_project hproject
    obtain ⟨hextended, hsame, -⟩ := hextends.handedOver hover
    exact project_of_handedOver (hsame.trans howner) hextended outcomes nowIso' autoPresence'
  released := by
    intro projected hfresh hproject
    rw [projectFinalizedSnapshot] at hproject
    split at hproject
    · cases hproject
    · obtain rfl := Except.ok.inj hproject
      exact ⟨_, rfl, length_releasedOf _ _⟩
  kept := by
    intro projected extended hproject hextends
    exact (hextends.handedOver (handedOver_of_project hproject).2).2.2

end CatalogSentinel.Search.Projection
