import Mathlib.Data.Finset.Card
import CatalogSentinel.Data.Grouping
import CatalogSentinel.Engine.Mapping

/-!
The audit of a distributor's catalogue against an Audiomack profile. Every expected track is
classified once, and what is found is persisted under an id made of the reason and of the track
that it is about. The findings on ISRCs that several recordings share are about no track, so
they have one id between them.
-/

namespace CatalogSentinel.Engine

open Matching (Numbers NormalizedItem ConfidenceBand CatalogMatchResult MatchOptions RankedMatch classifyConfidence given
  matchAgainstCatalog)
open Matching.Numbers (lit)
open Data (putAll get? groups members)

/-! ### Reasons -/

/-- The reason codes that the audit gives. -/
inductive IssueReasonCode
  | missingOnPlatform | audiomackNotConnected | wrongArtistProfile | duplicateArtistProfile | isrcMissing
  | duplicateIsrc | processingDelay | takedownOrRemoval | unknownNeedsReview
  deriving DecidableEq

inductive Severity
  | critical | high | medium | low
  deriving DecidableEq

structure ReasonCodeMeta where
  title : String
  defaultSeverity : Severity
  remediation : String

namespace IssueReasonCode

def text : IssueReasonCode → String
  | missingOnPlatform => "MISSING_ON_PLATFORM"
  | audiomackNotConnected => "AUDIOMACK_NOT_CONNECTED"
  | wrongArtistProfile => "WRONG_ARTIST_PROFILE"
  | duplicateArtistProfile => "DUPLICATE_ARTIST_PROFILE"
  | isrcMissing => "ISRC_MISSING"
  | duplicateIsrc => "DUPLICATE_ISRC"
  | processingDelay => "PROCESSING_DELAY"
  | takedownOrRemoval => "TAKEDOWN_OR_REMOVAL"
  | unknownNeedsReview => "UNKNOWN_NEEDS_REVIEW"

def reasonMeta : IssueReasonCode → ReasonCodeMeta
  | missingOnPlatform => ⟨"Missing on platform", .critical,
      "Ask the distributor to redeliver/reinstate the release, or confirm a delivery failure."⟩
  | audiomackNotConnected => ⟨"Audiomack account not connected", .high,
      "Reconnect/authorize the Audiomack account in the distributor and confirm the correct artist mapping."⟩
  | wrongArtistProfile => ⟨"Wrong artist profile", .critical,
      "Open a DSP-for-artists request to move the release to the correct profile."⟩
  | duplicateArtistProfile => ⟨"Duplicate artist profile", .high,
      "Request a profile merge and consolidate the catalog under the canonical profile."⟩
  | isrcMissing => ⟨"Missing ISRC", .high,
      "Assign/capture an ISRC for the recording before requesting support."⟩
  | duplicateIsrc => ⟨"Duplicate ISRC conflict", .high,
      "Correct the duplicated ISRC assignment with the distributor."⟩
  | processingDelay => ⟨"Release processing delay", .medium,
      "Wait out the delivery SLA; if exceeded, ask the distributor to investigate delivery."⟩
  | takedownOrRemoval => ⟨"Takedown / removal", .critical,
      "Open a dispute/reinstatement request with evidence of ownership."⟩
  | unknownNeedsReview => ⟨"Unknown, needs review", .low,
      "Manually verify against the platform and reclassify."⟩

end IssueReasonCode

def bandText : ConfidenceBand → String
  | .confirmed => "confirmed"
  | .strong => "strong"
  | .probable => "probable"
  | .weak => "weak"
  | .noMatch => "no-match"

/-! ### What was scanned -/

inductive PresenceStatus
  | confirmedLive | missing | probableMatch | wrongProfile | notSelected | unknownApiUnavailable
  | needsManualReview | curatedNoGuarantee | processing | removedTakedown | privateUnplayable | duplicate
  deriving DecidableEq

structure RawDSPItem (F : Type) where
  externalId : String
  url : Option String
  title : String
  primaryArtist : String
  featuredArtists : List String
  isrc : Option String
  durationSec : Option F
  status : PresenceStatus
  artistProfileId : Option String

structure ArtistProfileCandidate (F : Type) where
  platform : DSPPlatform
  externalId : Option String
  slug : Option String
  url : Option String
  name : String
  confidence : F

structure DSPCatalogSnapshot (F : Type) where
  sourceMode : DataSourceMode
  capturedAt : String
  artistProfile : Option (ArtistProfileCandidate F)
  items : List (RawDSPItem F)
  complete : Bool
  warnings : List String

/-- The adapter, where there is one, is given by what it answers to the lookup for a track;
`none` is a lookup that rejects. -/
structure AudiomackAuditInput (F : Type) where
  workspaceId : String
  releases : List Release
  tracks : List (Track F)
  audiomackSnapshot : DSPCatalogSnapshot F
  audiomackAdapter : Option (Track F → Option (List (RawDSPItem F)))
  canonicalArtistName : String
  now : String

/-! ### What is found -/

inductive AudiomackTrackStatus
  | present | presentWrongProfile | presentDuplicateProfile | presentUnplayable | missing | review
  deriving DecidableEq

def AudiomackTrackStatus.all : List AudiomackTrackStatus :=
  [.present, .presentWrongProfile, .presentDuplicateProfile, .presentUnplayable, .missing, .review]

structure ClassifiedTrack (F : Type) where
  trackId : String
  releaseId : String
  trackTitle : String
  releaseTitle : String
  isrc : Option String
  upc : Option String
  distributorUrl : Option String
  releaseDate : Option String
  status : AudiomackTrackStatus
  confidence : F
  confidenceBand : ConfidenceBand
  matchedExternalId : Option String
  matchedUrl : Option String
  evidenceNote : String
  reasonCode : Option IssueReasonCode

inductive IssueMetadata
  | warnings (warnings : List String)
  | found (isrc : Option String) (evidenceNote : String) (matchedExternalId matchedUrl : Option String)
  | shared (isrc : String) (titles : List String)
  | empty
  deriving DecidableEq

structure Issue (F : Type) where
  id : String
  workspaceId : String
  reasonCode : IssueReasonCode
  severity : Severity
  status : String
  platform : Option DSPPlatform
  releaseId : Option String
  trackId : Option String
  summary : String
  confidence : F
  confidenceBand : ConfidenceBand
  evidenceIds : List String
  recommendedAction : String
  createdAt : String
  updatedAt : String

structure IssueEvidence (F : Type) where
  id : String
  workspaceId : String
  issueId : String
  snapshotId : Option String
  sourceMode : DataSourceMode
  sourceEndpointCategory : String
  scannedAt : String
  normalizedMetadata : IssueMetadata
  matchCandidatesConsidered : ℕ
  confidence : F
  confidenceBand : ConfidenceBand
  reasonCode : IssueReasonCode
  screenshotRef : Option String
  remediation : String
  createdAt : String
  updatedAt : String

structure AudiomackAuditResult (F : Type) where
  profile : Option (ArtistProfileCandidate F)
  audiomackUploadsScanned : ℕ
  audiomackScanComplete : Bool
  totalExpected : ℕ
  counts : AudiomackTrackStatus → ℕ
  classified : List (ClassifiedTrack F)
  issues : List (Issue F)
  evidence : List (IssueEvidence F)

variable {F : Type} [Numbers F] (texts : Texts) (input : AudiomackAuditInput F)

/-! ### Issues -/

structure BuildIssueArgs (F : Type) where
  reasonCode : IssueReasonCode
  severityOverride : Option Severity
  trackId : Option String
  releaseId : Option String
  platform : Option DSPPlatform
  summary : String
  confidence : F
  candidatesConsidered : ℕ
  metadata : IssueMetadata

def issueIdOf (workspaceId : String) (reasonCode : IssueReasonCode) (trackId releaseId : Option String) : String :=
  stableId texts "iss" [workspaceId, reasonCode.text, (trackId.or releaseId).getD "ws"]

def evidenceIdOf (issueId : String) : String := stableId texts "ev" [issueId]

def buildIssue (args : BuildIssueArgs F) : Issue F × IssueEvidence F :=
  let issueId := issueIdOf texts input.workspaceId args.reasonCode args.trackId args.releaseId
  let evidenceId := evidenceIdOf texts issueId
  ({ id := issueId
     workspaceId := input.workspaceId
     reasonCode := args.reasonCode
     severity := args.severityOverride.getD args.reasonCode.reasonMeta.defaultSeverity
     status := "open"
     platform := args.platform
     releaseId := args.releaseId
     trackId := args.trackId
     summary := args.summary
     confidence := args.confidence
     confidenceBand := classifyConfidence args.confidence
     evidenceIds := [evidenceId]
     recommendedAction := args.reasonCode.reasonMeta.remediation
     createdAt := input.now
     updatedAt := input.now },
   { id := evidenceId
     workspaceId := input.workspaceId
     issueId := issueId
     snapshotId := none
     sourceMode := input.audiomackSnapshot.sourceMode
     sourceEndpointCategory := "audiomack:artist-uploads"
     scannedAt := input.audiomackSnapshot.capturedAt
     normalizedMetadata := args.metadata
     matchCandidatesConsidered := args.candidatesConsidered
     confidence := args.confidence
     confidenceBand := classifyConfidence args.confidence
     reasonCode := args.reasonCode
     screenshotRef := none
     remediation := args.reasonCode.reasonMeta.remediation
     createdAt := input.now
     updatedAt := input.now })

/-! ### Expected tracks -/

/-- Is this release expected to be on Audiomack (opted-in / selected)? -/
def isExpectedOnAudiomack (release : Release) : Bool :=
  release.storeSelections.any (fun s =>
    s.platform = .audiomack && (s.status = .selected || s.status = .delivered || s.status = .pending)) ||
    release.albumExtras.contains .audiomackOptIn

/-- `releaseById.get(id)`: of releases with one id the last one counts. -/
def releaseById (id : String) : Option Release := input.releases.reverse.find? fun r => r.id = id

/-- The expected tracks, each with its release. -/
def expectedTracks : List (Track F × Release) :=
  input.tracks.filterMap fun track =>
    ((releaseById input track.releaseId).filter isExpectedOnAudiomack).map fun rel => (track, rel)

/-! ### Classification -/

def dspItemToItem (item : RawDSPItem F) : NormalizedItem F :=
  toNormalizedItem texts item.externalId item.title (item.primaryArtist :: item.featuredArtists) item.isrc
    item.durationSec (item.externalId :: (given item.url).toList) item.artistProfileId

def candidates : List (NormalizedItem F) := input.audiomackSnapshot.items.map (dspItemToItem texts)

def rawByExternalId (id : String) : Option (RawDSPItem F) :=
  input.audiomackSnapshot.items.reverse.find? fun i => i.externalId = id

def canonicalProfileId : Option String := input.audiomackSnapshot.artistProfile.bind (·.externalId)

structure CrossProfile where
  externalId : String
  url : Option String
  sameArtist : Bool

def trimmedLower (s : String) : String := Data.trim (texts.lower s)

/-- The outer `none` is a lookup that rejected. -/
def findCrossProfile (track : Track F) : Option (Option CrossProfile) :=
  match input.audiomackAdapter with
  | none => some none
  | some findTrack =>
    (findTrack track).map fun hits =>
      (hits.find? fun h => h.artistProfileId ≠ canonicalProfileId input &&
        (texts.parseTitle h.title).base = (texts.parseTitle track.title).base).map fun offProfile =>
          ⟨offProfile.externalId, offProfile.url,
            trimmedLower texts offProfile.primaryArtist = trimmedLower texts input.canonicalArtistName⟩

structure Verdict (F : Type) where
  status : AudiomackTrackStatus
  confidence : F
  matchedExternalId : Option String
  matchedUrl : Option String
  evidenceNote : String
  reasonCode : Option IssueReasonCode

/-- Found on the confirmed profile. -/
def matchedVerdict (best : RankedMatch F) (crossProfile : Bool) : Verdict F :=
  let raw := rawByExternalId input best.candidate.id
  let url := raw.bind (·.url)
  let shownUrl := url.getD "no url"
  let shownItem := url.getD best.candidate.id
  let band := bandText best.score.band
  let found : Verdict F := ⟨.present, best.score.score, some best.candidate.id, url, "", none⟩
  if raw.any (·.status = .removedTakedown) then
    { found with
      status := .presentUnplayable
      reasonCode := some .takedownOrRemoval
      evidenceNote := s!"Found on Audiomack but removed/takedown ({shownUrl})." }
  else if raw.any (·.status = .privateUnplayable) then
    { found with
      status := .presentUnplayable
      reasonCode := some .processingDelay
      evidenceNote := s!"Found on Audiomack but private/unplayable ({shownUrl})." }
  else if crossProfile then
    { found with
      status := .presentDuplicateProfile
      reasonCode := some .duplicateArtistProfile
      evidenceNote := s!"Found on Audiomack under a non-canonical profile ({shownItem})." }
  else
    { found with
      evidenceNote := s!"Confirmed on Audiomack ({band}, {shownItem})." }

/-- Ambiguous match or a wrong-profile lead inside the confirmed catalog. -/
def reviewVerdict (result : CatalogMatchResult F) : Verdict F where
  status := .review
  reasonCode := some (if result.wrongProfileSuspected then .wrongArtistProfile else .unknownNeedsReview)
  confidence := (result.best.map (·.score.score)).getD (lit (1 / 2))
  matchedExternalId := result.best.map (·.candidate.id)
  matchedUrl := none
  evidenceNote :=
    if result.wrongProfileSuspected then
      "A same-title item exists under a different artist, verify the artist profile."
    else "A probable match needs manual review before confirming presence."

/-- Not in the confirmed profile. -/
def absentVerdict : Option CrossProfile → Verdict F
  | some cross =>
    let shown := cross.url.getD cross.externalId
    if cross.sameArtist then
      ⟨.presentDuplicateProfile, lit (85 / 100), some cross.externalId, cross.url,
        s!"Found under a second Audiomack profile for this artist ({shown}).",
        some .duplicateArtistProfile⟩
    else
      ⟨.presentWrongProfile, lit (85 / 100), some cross.externalId, cross.url,
        s!"Found on Audiomack under a DIFFERENT artist profile ({shown}).",
        some .wrongArtistProfile⟩
  | none =>
    let scanned := input.audiomackSnapshot.items.length
    ⟨.missing, if input.audiomackSnapshot.complete then lit (95 / 100) else lit (6 / 10), none, none,
      if input.audiomackSnapshot.complete then
        s!"Absent from all {scanned} scanned Audiomack uploads and from search."
      else
        s!"Not found in the {scanned} uploads scanned before rate-limit backpressure (scan incomplete).",
      some .missingOnPlatform⟩

def classify (track : Track F) : Option (Verdict F) :=
  let result := matchAgainstCatalog (trackToItem texts track) (candidates texts input)
    ⟨none, none, none, none, none, canonicalProfileId input⟩
  match result.decision, result.best with
  | .matched, some best => some (matchedVerdict input best result.crossProfile)
  | .review, _ => some (reviewVerdict result)
  | _, _ => (findCrossProfile texts input track).map (absentVerdict input)

/-! ### The loop -/

structure Findings (F : Type) where
  counts : AudiomackTrackStatus → ℕ
  classified : List (ClassifiedTrack F)
  issues : List (Issue F)
  evidence : List (IssueEvidence F)

def Findings.push (found : Findings F) (args : BuildIssueArgs F) : Findings F :=
  let (issue, ev) := buildIssue texts input args
  { found with issues := found.issues ++ [issue], evidence := found.evidence ++ [ev] }

def classifiedTrack (track : Track F) (rel : Release) (verdict : Verdict F) : ClassifiedTrack F where
  trackId := track.id
  releaseId := rel.id
  trackTitle := track.title
  releaseTitle := rel.title
  isrc := track.isrc
  upc := rel.upc
  distributorUrl := rel.distributorUrl
  releaseDate := rel.releaseDate
  status := verdict.status
  confidence := verdict.confidence
  confidenceBand := classifyConfidence verdict.confidence
  matchedExternalId := verdict.matchedExternalId
  matchedUrl := verdict.matchedUrl
  evidenceNote := verdict.evidenceNote
  reasonCode := verdict.reasonCode

def statusArgs (track : Track F) (rel : Release) (verdict : Verdict F) (reasonCode : IssueReasonCode) :
    BuildIssueArgs F where
  reasonCode := reasonCode
  severityOverride := if reasonCode = .missingOnPlatform then some .high else none
  trackId := some track.id
  releaseId := some rel.id
  platform := some .audiomack
  summary := s!"{reasonCode.reasonMeta.title}: \"{track.title}\" ({rel.title})"
  confidence := verdict.confidence
  candidatesConsidered := (candidates texts input).length
  metadata := .found track.isrc verdict.evidenceNote verdict.matchedExternalId verdict.matchedUrl

def isrcMissingArgs (track : Track F) (rel : Release) : BuildIssueArgs F where
  reasonCode := .isrcMissing
  severityOverride := none
  trackId := some track.id
  releaseId := some rel.id
  platform := none
  summary := s!"Missing ISRC: \"{track.title}\" ({rel.title})"
  confidence := lit 1
  candidatesConsidered := 0
  metadata := .empty

/-- What the audit of a track has to say, as issues. -/
def trackArgs (track : Track F) (rel : Release) (verdict : Verdict F) : List (BuildIssueArgs F) :=
  (match verdict.reasonCode with
    | some reasonCode =>
      if verdict.status = .present then [] else [statusArgs texts input track rel verdict reasonCode]
    | none => []) ++
  (if given track.isrc = none then [isrcMissingArgs track rel] else [])

def auditTrack (found : Findings F) (expected : Track F × Release) : Option (Findings F) :=
  (classify texts input expected.1).map fun verdict =>
    (trackArgs texts input expected.1 expected.2 verdict).foldl (Findings.push texts input)
      { found with
        counts := Function.update found.counts verdict.status (found.counts verdict.status + 1)
        classified := found.classified ++ [classifiedTrack expected.1 expected.2 verdict] }

/-! ### Findings about the catalogue -/

def notConnectedArgs : BuildIssueArgs F where
  reasonCode := .audiomackNotConnected
  severityOverride := some .high
  trackId := none
  releaseId := none
  platform := some .audiomack
  summary :=
    if input.audiomackSnapshot.artistProfile.isSome then
      "Audiomack profile resolved but has zero uploads while releases are opted in, likely a broken account connection."
    else "No Audiomack profile could be resolved for the confirmed slug."
  confidence := lit (8 / 10)
  candidatesConsidered := (candidates texts input).length
  metadata := .warnings input.audiomackSnapshot.warnings

def openingArgs : List (BuildIssueArgs F) :=
  if input.audiomackSnapshot.artistProfile.isNone ||
      (input.audiomackSnapshot.items.length = 0 && 0 < (expectedTracks input).length) then
    [notConnectedArgs texts input]
  else []

/-- The ISRCs that several recordings share, with the items that have them. -/
def detectDuplicateIsrcs (items : List (NormalizedItem F)) : List (String × List (NormalizedItem F)) :=
  let byIsrc := groups Prod.fst (items.filterMap fun it => (given it.isrc).map fun isrc => (isrc, it))
  let lists := byIsrc.map fun group => (group.1, (members group).map Prod.snd)
  lists.filter fun entry => 1 < entry.2.length && 1 < (entry.2.map (·.base)).dedup.length

def duplicateArgs (dupe : String × List (NormalizedItem F)) : BuildIssueArgs F where
  reasonCode := .duplicateIsrc
  severityOverride := none
  trackId := none
  releaseId := none
  platform := none
  summary := s!"ISRC {dupe.1} is shared by {dupe.2.length} distinct recordings."
  confidence := lit 1
  candidatesConsidered := dupe.2.length
  metadata := .shared dupe.1 (dupe.2.map (·.base))

def dupes : List (String × List (NormalizedItem F)) := detectDuplicateIsrcs (input.tracks.map (trackToItem texts))

def runAudiomackAudit : Option (AudiomackAuditResult F) :=
  let opened := (openingArgs texts input).foldl (Findings.push texts input) ⟨fun _ => 0, [], [], []⟩
  ((expectedTracks input).foldlM (auditTrack texts input) opened).map fun audited =>
    let found := ((dupes texts input).map duplicateArgs).foldl (Findings.push texts input) audited
    { profile := input.audiomackSnapshot.artistProfile
      audiomackUploadsScanned := input.audiomackSnapshot.items.length
      audiomackScanComplete := input.audiomackSnapshot.complete
      totalExpected := (expectedTracks input).length
      counts := found.counts
      classified := found.classified
      issues := found.issues
      evidence := found.evidence }

/-! ### The loop, read as a list -/

/-- An expected track with its release, and how it was classified. -/
abbrev Audited (F : Type) := (Track F × Release) × Verdict F

def Audited.args (audited : Audited F) : List (BuildIssueArgs F) :=
  trackArgs texts input audited.1.1 audited.1.2 audited.2

def Audited.classified (audited : Audited F) : ClassifiedTrack F :=
  classifiedTrack audited.1.1 audited.1.2 audited.2

/-- What is found after these tracks, with these issues in this order. -/
structure Reads (audits : List (Audited F)) (args : List (BuildIssueArgs F)) (found : Findings F) : Prop where
  verdicts : ∀ audited ∈ audits, classify texts input audited.1.1 = some audited.2
  counts : ∀ status, found.counts status = audits.countP fun audited => audited.2.status = status
  classified : found.classified = audits.map Audited.classified
  issues : found.issues = args.map fun a => (buildIssue texts input a).1
  evidence : found.evidence = args.map fun a => (buildIssue texts input a).2

variable {texts input}

theorem reads_push {audits : List (Audited F)} {args : List (BuildIssueArgs F)} {found : Findings F}
    (h : Reads texts input audits args found) (a : BuildIssueArgs F) :
    Reads texts input audits (args ++ [a]) (found.push texts input a) where
  verdicts := h.verdicts
  counts := h.counts
  classified := h.classified
  issues := by
    rw [List.map_append, List.map_singleton, ← h.issues]
    rfl
  evidence := by
    rw [List.map_append, List.map_singleton, ← h.evidence]
    rfl

theorem reads_pushAll {audits : List (Audited F)} (more : List (BuildIssueArgs F)) {args : List (BuildIssueArgs F)}
    {found : Findings F} (h : Reads texts input audits args found) :
    Reads texts input audits (args ++ more) (more.foldl (Findings.push texts input) found) := by
  induction more generalizing args found with
  | nil =>
    rw [List.append_nil]
    exact h
  | cons a more ih =>
    have hmore := ih (reads_push h a)
    rwa [List.append_assoc, List.singleton_append] at hmore

/-- One track is classified, counted and told of. -/
theorem reads_auditTrack {audits : List (Audited F)} {args : List (BuildIssueArgs F)} {found found' : Findings F}
    {expected : Track F × Release} (h : Reads texts input audits args found)
    (hstep : auditTrack texts input found expected = some found') :
    ∃ verdict, Reads texts input (audits ++ [(expected, verdict)])
      (args ++ trackArgs texts input expected.1 expected.2 verdict) found' := by
  obtain ⟨verdict, hverdict, rfl⟩ := Option.map_eq_some_iff.1 hstep
  refine ⟨verdict, reads_pushAll _ ⟨?_, ?_, ?_, h.issues, h.evidence⟩⟩
  · intro audited haudited
    obtain haudited | haudited := List.mem_append.1 haudited
    · exact h.verdicts audited haudited
    · rw [List.mem_singleton.1 haudited]
      exact hverdict
  · intro status
    rw [List.countP_append, List.countP_singleton, ← h.counts]
    dsimp only
    by_cases hstatus : verdict.status = status
    · rw [hstatus, Function.update_self, if_pos (decide_eq_true rfl)]
    · rw [Function.update_of_ne (Ne.symm hstatus), if_neg (by simpa using hstatus), Nat.add_zero]
  · rw [List.map_append, List.map_singleton, ← h.classified]
    rfl

theorem reads_auditTracks (expected : List (Track F × Release)) {audits : List (Audited F)}
    {args : List (BuildIssueArgs F)} {found found' : Findings F} (h : Reads texts input audits args found)
    (hrun : expected.foldlM (auditTrack texts input) found = some found') :
    ∃ more : List (Audited F), more.map Prod.fst = expected ∧
      Reads texts input (audits ++ more) (args ++ more.flatMap (Audited.args texts input)) found' := by
  induction expected generalizing audits args found with
  | nil =>
    cases hrun
    refine ⟨[], rfl, ?_⟩
    rwa [List.flatMap_nil, List.append_nil, List.append_nil]
  | cons first expected ih =>
    obtain ⟨found₁, hstep, hrest⟩ := Option.bind_eq_some_iff.1 hrun
    obtain ⟨verdict, hone⟩ := reads_auditTrack h hstep
    obtain ⟨more, hmore, hall⟩ := ih hone hrest
    refine ⟨(first, verdict) :: more, congrArg (first :: ·) hmore, ?_⟩
    rw [List.append_assoc, List.singleton_append, List.append_assoc] at hall
    exact hall

/-- All that the audit tells, in order. -/
def toldArgs (texts : Texts) (input : AudiomackAuditInput F) (audits : List (Audited F)) : List (BuildIssueArgs F) :=
  openingArgs texts input ++ audits.flatMap (Audited.args texts input) ++ (dupes texts input).map duplicateArgs

theorem reads_audit {r : AudiomackAuditResult F} (h : runAudiomackAudit texts input = some r) :
    ∃ audits : List (Audited F), audits.map Prod.fst = expectedTracks input ∧
      r.totalExpected = (expectedTracks input).length ∧
      Reads texts input audits (toldArgs texts input audits) ⟨r.counts, r.classified, r.issues, r.evidence⟩ := by
  obtain ⟨audited, hrun, rfl⟩ := Option.map_eq_some_iff.1 h
  have hstart : Reads texts input [] [] ⟨fun _ => 0, [], [], []⟩ :=
    ⟨fun _ hmem => absurd hmem List.not_mem_nil, fun _ => rfl, rfl, rfl, rfl⟩
  obtain ⟨audits, haudits, hreads⟩ :=
    reads_auditTracks (expectedTracks input) (reads_pushAll (openingArgs texts input) hstart) hrun
  rw [List.nil_append, List.nil_append] at hreads
  exact ⟨audits, haudits, rfl, reads_pushAll ((dupes texts input).map duplicateArgs) hreads⟩

/-- The audit ends unless a lookup rejects. -/
theorem exists_audit (h : ∀ findTrack, input.audiomackAdapter = some findTrack → ∀ track, (findTrack track).isSome) :
    ∃ r, runAudiomackAudit texts input = some r := by
  have hclassify : ∀ track, ∃ verdict, classify texts input track = some verdict := by
    intro track
    have hcross : (findCrossProfile texts input track).isSome := by
      unfold findCrossProfile
      split
      · rfl
      · rename_i findTrack hadapter
        rw [Option.isSome_map]
        exact h findTrack hadapter track
    apply Option.isSome_iff_exists.1
    unfold classify
    dsimp only
    split
    · rfl
    · rfl
    · rw [Option.isSome_map]
      exact hcross
  have hrun : ∀ (expected : List (Track F × Release)) (found : Findings F),
      ∃ found', expected.foldlM (auditTrack texts input) found = some found' := by
    intro expected
    induction expected with
    | nil => exact fun found => ⟨found, rfl⟩
    | cons first expected ih =>
      intro found
      obtain ⟨verdict, hverdict⟩ := hclassify first.1
      rw [List.foldlM_cons, auditTrack, hverdict]
      exact ih _
  obtain ⟨audited, haudited⟩ := hrun (expectedTracks input)
    ((openingArgs texts input).foldl (Findings.push texts input) ⟨fun _ => 0, [], [], []⟩)
  rw [runAudiomackAudit, haudited]
  exact ⟨_, rfl⟩

/-! ### Topics -/

/-- What an issue's id is made of: the reason, and the track if it is about one. -/
def BuildIssueArgs.topic (args : BuildIssueArgs F) : IssueReasonCode × Option String := (args.reasonCode, args.trackId)

/-- About the catalogue, and not about a track. -/
def IssueReasonCode.IsGlobal (code : IssueReasonCode) : Prop := code = .audiomackNotConnected ∨ code = .duplicateIsrc

/-- Only a reason that is about the catalogue names no track, and then no release. -/
structure BuildIssueArgs.WellAimed (args : BuildIssueArgs F) : Prop where
  global_iff : args.trackId = none ↔ args.reasonCode.IsGlobal
  releaseId : args.trackId = none → args.releaseId = none

def topicId (texts : Texts) (workspaceId : String) (topic : IssueReasonCode × Option String) : String :=
  issueIdOf texts workspaceId topic.1 topic.2 none

theorem id_buildIssue {args : BuildIssueArgs F} (h : args.WellAimed) :
    (buildIssue texts input args).1.id = topicId texts input.workspaceId args.topic := by
  have hreference : args.trackId.or args.releaseId = args.trackId.or none := by
    cases htrack : args.trackId with
    | none => rw [h.releaseId htrack]
    | some id => rfl
  unfold topicId issueIdOf BuildIssueArgs.topic
  rw [← hreference]
  rfl

theorem append_cons_inj {α : Type} [DecidableEq α] {x : α} {a b s t : List α} (ha : x ∉ a) (hb : x ∉ b)
    (h : a ++ x :: s = b ++ x :: t) : a = b ∧ s = t := by
  have hbefore : ∀ {a s : List α}, x ∉ a → (a ++ x :: s).takeWhile (fun y => decide (y ≠ x)) = a := by
    intro a s ha
    have hall : ∀ y ∈ a, decide (y ≠ x) = true := fun y hy => decide_eq_true fun hyx => ha (hyx ▸ hy)
    rw [List.takeWhile_append_of_pos hall, List.takeWhile_cons_of_neg (by simp), List.append_nil]
  have hab : a = b := by
    rw [← hbefore ha, h, hbefore hb]
  subst hab
  exact ⟨rfl, (List.cons.inj (List.append_cancel_left h)).2⟩

theorem separator_notMem_text (code : IssueReasonCode) : '\x01' ∉ code.text.toList := by
  cases code <;> decide

theorem text_inj {code code' : IssueReasonCode} (h : code.text = code'.text) : code = code' := by
  cases code <;> cases code' <;> first | rfl | exact absurd h (by decide)

/-- Where no two texts have one digest, issues about different topics have different ids. -/
theorem topicId_inj (hdigest : Function.Injective texts.digest) {workspaceId : String}
    {topic topic' : IssueReasonCode × Option String} (hglobal : topic.2 = none ↔ topic.1.IsGlobal)
    (hglobal' : topic'.2 = none ↔ topic'.1.IsGlobal)
    (h : topicId texts workspaceId topic = topicId texts workspaceId topic') : topic = topic' := by
  obtain ⟨code, track⟩ := topic
  obtain ⟨code', track'⟩ := topic'
  have htext := hdigest ((String.append_right_inj _).1 h)
  simp only [Option.or_none, String.intercalate_cons_cons, String.intercalate_singleton, String.append_assoc,
    String.append_right_inj] at htext
  have hlist := congrArg String.toList htext
  simp only [String.toList_append] at hlist
  obtain ⟨hcode, href⟩ :=
    append_cons_inj (separator_notMem_text code) (separator_notMem_text code') (x := '\x01') hlist
  have hcode : code = code' := text_inj (String.toList_injective hcode)
  subst hcode
  have href : track.getD "ws" = track'.getD "ws" := String.toList_injective href
  cases track with
  | none =>
    cases track' with
    | none => rfl
    | some id' => exact absurd (hglobal'.2 (hglobal.1 rfl)) (by simp)
  | some id =>
    cases track' with
    | none => exact absurd (hglobal.2 (hglobal'.1 rfl)) (by simp)
    | some id' => exact congrArg (fun id => (code, some id)) href

/-! ### What is told of a track -/

/-- A reason that a classification may give. -/
def IssueReasonCode.IsVerdict (code : IssueReasonCode) : Prop := ¬code.IsGlobal ∧ code ≠ .isrcMissing

omit [Numbers F] in
theorem isVerdict_matched {best : RankedMatch F} {crossProfile : Bool} {code : IssueReasonCode}
    (hcode : (matchedVerdict input best crossProfile).reasonCode = some code) : code.IsVerdict := by
  unfold matchedVerdict at hcode
  dsimp only at hcode
  split_ifs at hcode <;> cases hcode <;> exact ⟨by simp [IssueReasonCode.IsGlobal], by simp⟩

theorem isVerdict_review {result : CatalogMatchResult F} {code : IssueReasonCode}
    (hcode : (reviewVerdict result).reasonCode = some code) : code.IsVerdict := by
  simp only [reviewVerdict] at hcode
  split_ifs at hcode <;> cases hcode <;> exact ⟨by simp [IssueReasonCode.IsGlobal], by simp⟩

theorem isVerdict_absent {cross : Option CrossProfile} {code : IssueReasonCode}
    (hcode : (absentVerdict input cross).reasonCode = some code) : code.IsVerdict := by
  unfold absentVerdict at hcode
  cases cross with
  | none => cases hcode; exact ⟨by simp [IssueReasonCode.IsGlobal], by simp⟩
  | some cross =>
    dsimp only at hcode
    split_ifs at hcode <;> cases hcode <;> exact ⟨by simp [IssueReasonCode.IsGlobal], by simp⟩

theorem isVerdict_of_classify {track : Track F} {verdict : Verdict F}
    (h : classify texts input track = some verdict) {code : IssueReasonCode} (hcode : verdict.reasonCode = some code) :
    code.IsVerdict := by
  unfold classify at h
  dsimp only at h
  split at h
  · cases h
    exact isVerdict_matched hcode
  · cases h
    exact isVerdict_review hcode
  · obtain ⟨cross, -, rfl⟩ := Option.map_eq_some_iff.1 h
    exact isVerdict_absent hcode

theorem mem_trackArgs {track : Track F} {rel : Release} {verdict : Verdict F} {args : BuildIssueArgs F}
    (h : args ∈ trackArgs texts input track rel verdict) :
    (∃ code, verdict.reasonCode = some code ∧ args = statusArgs texts input track rel verdict code) ∨
      args = isrcMissingArgs track rel := by
  unfold trackArgs at h
  obtain h | h := List.mem_append.1 h
  · split at h
    · rename_i code hcode
      split_ifs at h
      · cases h
      · exact .inl ⟨code, hcode, List.mem_singleton.1 h⟩
    · cases h
  · split_ifs at h
    · exact .inr (List.mem_singleton.1 h)
    · cases h

theorem wellAimed_trackArgs {track : Track F} {rel : Release} {verdict : Verdict F}
    (hverdict : classify texts input track = some verdict) {args : BuildIssueArgs F}
    (h : args ∈ trackArgs texts input track rel verdict) : args.WellAimed := by
  obtain ⟨code, hcode, rfl⟩ | rfl := mem_trackArgs h
  · have hlocal := (isVerdict_of_classify hverdict hcode).1
    exact ⟨⟨nofun, fun h => absurd h hlocal⟩, nofun⟩
  · exact ⟨⟨nofun, fun h => absurd h (by simp [IssueReasonCode.IsGlobal, isrcMissingArgs])⟩, nofun⟩

theorem topic_trackArgs {track : Track F} {rel : Release} {verdict : Verdict F} {args : BuildIssueArgs F}
    (h : args ∈ trackArgs texts input track rel verdict) : args.topic.2 = some track.id := by
  obtain ⟨code, -, rfl⟩ | rfl := mem_trackArgs h <;> rfl

theorem nodup_trackTopics {track : Track F} (rel : Release) {verdict : Verdict F}
    (hverdict : classify texts input track = some verdict) :
    ((trackArgs texts input track rel verdict).map BuildIssueArgs.topic).Nodup := by
  have hmissing : ((if given track.isrc = none then [isrcMissingArgs track rel] else [] :
      List (BuildIssueArgs F)).map BuildIssueArgs.topic).Nodup := by
    split_ifs <;> simp
  unfold trackArgs
  split
  · rename_i code hcode
    split_ifs with hstatus hisrc hisrc
    · simp
    · simp
    · have hne := (isVerdict_of_classify hverdict hcode).2
      simp [BuildIssueArgs.topic, statusArgs, isrcMissingArgs, hne]
    · simp
  · simpa using hmissing

/-! ### What is told at all -/

theorem wellAimed_toldArgs {audits : List (Audited F)}
    (hverdicts : ∀ audited ∈ audits, classify texts input audited.1.1 = some audited.2) {args : BuildIssueArgs F}
    (h : args ∈ toldArgs texts input audits) : args.WellAimed := by
  obtain h | h := List.mem_append.1 h
  · obtain h | h := List.mem_append.1 h
    · unfold openingArgs at h
      split_ifs at h
      · rw [List.mem_singleton.1 h]
        exact ⟨⟨fun _ => .inl rfl, fun _ => rfl⟩, fun _ => rfl⟩
      · cases h
    · obtain ⟨audited, haudited, hargs⟩ := List.mem_flatMap.1 h
      exact wellAimed_trackArgs (hverdicts audited haudited) hargs
  · obtain ⟨dupe, -, rfl⟩ := List.mem_map.1 h
    exact ⟨⟨fun _ => .inr rfl, fun _ => rfl⟩, fun _ => rfl⟩

theorem topics_dupes (found : List (String × List (NormalizedItem F))) :
    (found.map duplicateArgs).map BuildIssueArgs.topic =
      List.replicate found.length (IssueReasonCode.duplicateIsrc, none) := by
  rw [List.map_map, List.eq_replicate_iff]
  refine ⟨List.length_map _, fun topic h => ?_⟩
  obtain ⟨dupe, -, rfl⟩ := List.mem_map.1 h
  rfl

theorem nodup_auditTopics {audits : List (Audited F)}
    (hverdicts : ∀ audited ∈ audits, classify texts input audited.1.1 = some audited.2)
    (hids : (audits.map fun audited => audited.1.1.id).Nodup) :
    ((audits.flatMap (Audited.args texts input)).map BuildIssueArgs.topic).Nodup := by
  rw [List.map_flatMap, List.nodup_flatMap]
  refine ⟨fun audited haudited => nodup_trackTopics _ (hverdicts audited haudited), ?_⟩
  refine (List.pairwise_map.1 hids).imp ?_
  intro audited audited' hne topic htopic htopic'
  obtain ⟨args, hargs, rfl⟩ := List.mem_map.1 htopic
  obtain ⟨args', hargs', hsame⟩ := List.mem_map.1 htopic'
  have hid := (topic_trackArgs hargs).symm.trans ((congrArg Prod.snd hsame).symm.trans (topic_trackArgs hargs'))
  exact hne (Option.some.inj hid)

/-- Nothing is told twice, if at most one shared ISRC is told of. -/
theorem nodup_topics_iff {audits : List (Audited F)}
    (hverdicts : ∀ audited ∈ audits, classify texts input audited.1.1 = some audited.2)
    (hids : (audits.map fun audited => audited.1.1.id).Nodup) :
    ((toldArgs texts input audits).map BuildIssueArgs.topic).Nodup ↔ (dupes texts input).length ≤ 1 := by
  have hopening : ∀ topic ∈ (openingArgs texts input).map BuildIssueArgs.topic,
      topic = (IssueReasonCode.audiomackNotConnected, none) := by
    intro topic h
    obtain ⟨args, hargs, rfl⟩ := List.mem_map.1 h
    unfold openingArgs at hargs
    split_ifs at hargs
    · rw [List.mem_singleton.1 hargs]
      rfl
    · cases hargs
  have htracks : ∀ topic ∈ (audits.flatMap (Audited.args texts input)).map BuildIssueArgs.topic, topic.2 ≠ none := by
    intro topic h
    obtain ⟨args, hargs, rfl⟩ := List.mem_map.1 h
    obtain ⟨audited, -, hargs⟩ := List.mem_flatMap.1 hargs
    rw [topic_trackArgs hargs]
    exact Option.some_ne_none _
  have hopens : ((openingArgs texts input).map BuildIssueArgs.topic).Nodup := by
    unfold openingArgs
    split_ifs <;> simp
  unfold toldArgs
  rw [List.map_append, List.map_append, topics_dupes, List.nodup_append, List.nodup_replicate]
  constructor
  · exact fun h => h.2.1
  · refine fun h => ⟨List.nodup_append.2 ⟨hopens, nodup_auditTopics hverdicts hids, ?_⟩, h, ?_⟩
    · rintro topic htopic topic' htopic' rfl
      exact htracks topic htopic' (congrArg Prod.snd (hopening topic htopic))
    · rintro topic htopic topic' htopic' rfl
      have hdupe := List.eq_of_mem_replicate htopic'
      obtain htopic | htopic := List.mem_append.1 htopic
      · exact absurd ((hopening topic htopic).symm.trans hdupe) (by simp)
      · exact htracks topic htopic (congrArg Prod.snd hdupe)

/-! ### Shared ISRCs -/

/-- Two recordings, by their titles, have the ISRC. -/
def SharesIsrc (texts : Texts) (tracks : List (Track F)) (isrc : String) : Prop :=
  ∃ track ∈ tracks, ∃ track' ∈ tracks, normalizeIsrc texts track.isrc = some isrc ∧
    normalizeIsrc texts track'.isrc = some isrc ∧
    (texts.parseTitle track.title).base ≠ (texts.parseTitle track'.title).base

theorem one_lt_dedup_iff (xs : List String) : 1 < xs.dedup.length ↔ ∃ x ∈ xs, ∃ y ∈ xs, x ≠ y := by
  rw [← List.card_toFinset, Finset.one_lt_card]
  simp only [List.mem_toFinset]

theorem given_normalizeIsrc (isrc : Option String) : given (normalizeIsrc texts isrc) = normalizeIsrc texts isrc := by
  cases isrc with
  | none => rfl
  | some raw =>
    unfold normalizeIsrc
    dsimp only
    split_ifs with hempty hisrc
    · rfl
    · simp only [Stores.isIsrc, Bool.and_eq_true, decide_eq_true_eq] at hisrc
      rw [given, Option.filter_some, if_pos]
      apply decide_eq_true
      intro h
      have hlist := congrArg (fun s => s.toList.length) h
      simp only [String.toList_ofList, hisrc.1.1.1] at hlist
      exact absurd hlist (by decide)
    · rfl

omit [Numbers F] in
theorem nodup_detectDuplicateIsrcs (items : List (NormalizedItem F)) :
    ((detectDuplicateIsrcs items).map Prod.fst).Nodup := by
  unfold detectDuplicateIsrcs
  dsimp only
  refine List.Nodup.sublist ((List.filter_sublist).map Prod.fst) ?_
  rw [List.map_map]
  exact Data.nodup_keys_groups Prod.fst _

omit [Numbers F] in
theorem mem_detectDuplicateIsrcs {items : List (NormalizedItem F)} {isrc : String} :
    isrc ∈ (detectDuplicateIsrcs items).map Prod.fst ↔
      ∃ it ∈ items, ∃ it' ∈ items, given it.isrc = some isrc ∧ given it'.isrc = some isrc ∧ it.base ≠ it'.base := by
  have hmember : ∀ {group : String × (String × NormalizedItem F) × List (String × NormalizedItem F)},
      group ∈ groups Prod.fst (items.filterMap fun it => (given it.isrc).map fun isrc => (isrc, it)) →
      ∀ it, it ∈ (members group).map Prod.snd ↔ it ∈ items ∧ given it.isrc = some group.1 := by
    intro group hgroup it
    rw [Data.members_of_mem_groups Prod.fst hgroup]
    simp only [List.mem_map, List.mem_filter, List.mem_filterMap, Option.map_eq_some_iff, decide_eq_true_eq]
    constructor
    · rintro ⟨entry, ⟨⟨it', hit', isrc', hisrc', rfl⟩, hkey⟩, rfl⟩
      exact ⟨hit', hisrc'.trans (congrArg some hkey)⟩
    · rintro ⟨hit, hisrc⟩
      exact ⟨(group.1, it), ⟨⟨it, hit, group.1, hisrc, rfl⟩, rfl⟩, rfl⟩
  constructor
  · intro h
    obtain ⟨entry, hentry, rfl⟩ := List.mem_map.1 h
    obtain ⟨hentry, htest⟩ := List.mem_filter.1 hentry
    obtain ⟨group, hgroup, rfl⟩ := List.mem_map.1 hentry
    rw [Bool.and_eq_true, decide_eq_true_eq, decide_eq_true_eq, one_lt_dedup_iff] at htest
    obtain ⟨-, base, hbase, base', hbase', hne⟩ := htest
    obtain ⟨it, hit, rfl⟩ := List.mem_map.1 hbase
    obtain ⟨it', hit', rfl⟩ := List.mem_map.1 hbase'
    have hin := (hmember hgroup it).1 hit
    have hin' := (hmember hgroup it').1 hit'
    exact ⟨it, hin.1, it', hin'.1, hin.2, hin'.2, hne⟩
  · rintro ⟨it, hit, it', hit', hisrc, hisrc', hne⟩
    have hkey : isrc ∈ (groups Prod.fst
        (items.filterMap fun it => (given it.isrc).map fun isrc => (isrc, it))).map Prod.fst := by
      rw [Data.mem_keys_groups]
      refine List.mem_map.2 ⟨(isrc, it), List.mem_filterMap.2 ⟨it, hit, ?_⟩, rfl⟩
      rw [hisrc, Option.map_some]
    obtain ⟨group, hgroup, rfl⟩ := List.mem_map.1 hkey
    have hin := (hmember hgroup it).2 ⟨hit, hisrc⟩
    have hin' := (hmember hgroup it').2 ⟨hit', hisrc'⟩
    have hbases : 1 < (((members group).map Prod.snd).map (·.base)).dedup.length :=
      (one_lt_dedup_iff _).2 ⟨it.base, List.mem_map_of_mem hin, it'.base, List.mem_map_of_mem hin', hne⟩
    have hlength : 1 < ((members group).map Prod.snd).length := by
      have hle : (((members group).map Prod.snd).map (·.base)).dedup.length ≤ ((members group).map Prod.snd).length := by
        simpa only [List.length_map] using (List.dedup_sublist (((members group).map Prod.snd).map (·.base))).length_le
      exact hbases.trans_le hle
    refine List.mem_map.2 ⟨(group.1, (members group).map Prod.snd), List.mem_filter.2 ⟨?_, ?_⟩, rfl⟩
    · exact List.mem_map.2 ⟨group, hgroup, rfl⟩
    · rw [Bool.and_eq_true, decide_eq_true_eq, decide_eq_true_eq]
      exact ⟨hlength, hbases⟩

omit [Numbers F] in
theorem mem_dupes {isrc : String} :
    isrc ∈ (dupes texts input).map Prod.fst ↔ SharesIsrc texts input.tracks isrc := by
  unfold dupes SharesIsrc
  rw [mem_detectDuplicateIsrcs]
  have hisrc : ∀ track : Track F, given (trackToItem texts track).isrc = normalizeIsrc texts track.isrc :=
    fun track => given_normalizeIsrc track.isrc
  constructor
  · rintro ⟨it, hit, it', hit', h, h', hne⟩
    obtain ⟨track, htrack, rfl⟩ := List.mem_map.1 hit
    obtain ⟨track', htrack', rfl⟩ := List.mem_map.1 hit'
    exact ⟨track, htrack, track', htrack', (hisrc track).symm.trans h, (hisrc track').symm.trans h', hne⟩
  · rintro ⟨track, htrack, track', htrack', h, h', hne⟩
    exact ⟨_, List.mem_map_of_mem htrack, _, List.mem_map_of_mem htrack', (hisrc track).trans h,
      (hisrc track').trans h', hne⟩

theorem length_le_one_iff {α : Type} {xs : List α} (hnodup : xs.Nodup) :
    xs.length ≤ 1 ↔ ∀ x ∈ xs, ∀ y ∈ xs, x = y := by
  constructor
  · intro h x hx y hy
    obtain ⟨z, rfl⟩ | rfl : (∃ z, xs = [z]) ∨ xs = [] := by
      rw [← List.length_eq_one_iff, ← List.length_eq_zero_iff]
      omega
    · exact (List.mem_singleton.1 hx).trans (List.mem_singleton.1 hy).symm
    · cases hx
  · intro h
    match xs, hnodup, h with
    | [], _, _ => exact Nat.zero_le 1
    | [x], _, _ => exact Nat.le_refl 1
    | x :: y :: rest, hnodup, h =>
      have hxy := h x List.mem_cons_self y (List.mem_cons_of_mem x List.mem_cons_self)
      exact absurd (hxy ▸ List.mem_cons_self) (List.nodup_cons.1 hnodup).1

/-- At most one ISRC is shared by several recordings. -/
def AtMostOneShared (texts : Texts) (tracks : List (Track F)) : Prop :=
  ∀ isrc isrc', SharesIsrc texts tracks isrc → SharesIsrc texts tracks isrc' → isrc = isrc'

omit [Numbers F] in
theorem length_dupes_iff : (dupes texts input).length ≤ 1 ↔ AtMostOneShared texts input.tracks := by
  have hkeys := length_le_one_iff (nodup_detectDuplicateIsrcs (input.tracks.map (trackToItem texts)))
  rw [List.length_map] at hkeys
  rw [dupes, hkeys]
  constructor
  · intro h isrc isrc' hisrc hisrc'
    exact h isrc (mem_dupes.2 hisrc) isrc' (mem_dupes.2 hisrc')
  · intro h isrc hisrc isrc' hisrc'
    exact h isrc isrc' (mem_dupes.1 hisrc) (mem_dupes.1 hisrc')

/-! ### The law -/

/-- What the audit promises of its result, and of what a repository keeps of it. -/
structure AudiomackAuditResult.Sound (r : AudiomackAuditResult F) (input : AudiomackAuditInput F) : Prop where
  once : r.classified.map ClassifiedTrack.trackId = (expectedTracks input).map fun expected => expected.1.id
  counts : ∀ status, r.counts status = r.classified.countP fun track => track.status = status
  total : (AudiomackTrackStatus.all.map r.counts).sum = r.totalExpected
  issues : (r.issues.map Issue.id).Nodup
  evidence : (r.evidence.map IssueEvidence.id).Nodup
  issuesKept : ∀ repo, ∀ issue ∈ r.issues, get? Issue.id issue.id (putAll Issue.id repo r.issues) = some issue
  evidenceKept : ∀ repo, ∀ ev ∈ r.evidence,
    get? IssueEvidence.id ev.id (putAll IssueEvidence.id repo r.evidence) = some ev

theorem get?_putAll_of_nodup {α : Type} {key : α → String} {xs : List α} (hnodup : (xs.map key).Nodup) (repo : List α)
    {x : α} (hx : x ∈ xs) : get? key (key x) (putAll key repo xs) = some x := by
  have hreverse : (xs.reverse.map key).Nodup := by
    rw [List.map_reverse, List.nodup_reverse]
    exact hnodup
  rw [Data.get?_putAll, Data.get?_of_mem hreverse (List.mem_reverse.2 hx), Option.some_or]

omit [Numbers F] in
theorem sum_countP_all (audits : List (Audited F)) :
    (AudiomackTrackStatus.all.map fun status => audits.countP fun audited => audited.2.status = status).sum =
      audits.length := by
  induction audits with
  | nil => rfl
  | cons audited audits ih =>
    simp only [AudiomackTrackStatus.all, List.map_cons, List.map_nil, List.sum_cons, List.sum_nil,
      List.countP_cons, List.length_cons] at ih ⊢
    cases audited.2.status <;> simp <;> omega

omit [Numbers F] in
theorem nodup_expectedIds (hids : (input.tracks.map Track.id).Nodup) :
    ((expectedTracks input).map fun expected => expected.1.id).Nodup := by
  refine hids.sublist ?_
  have htracks : (expectedTracks input).map Prod.fst = input.tracks.filter fun track =>
      ((releaseById input track.releaseId).filter isExpectedOnAudiomack).isSome := by
    unfold expectedTracks
    rw [List.map_filterMap, ← List.filterMap_eq_filter]
    congr 1
    funext track
    cases hrel : (releaseById input track.releaseId).filter isExpectedOnAudiomack <;> simp [Option.guard, hrel]
  have hids : (expectedTracks input).map (fun expected => expected.1.id) =
      ((expectedTracks input).map Prod.fst).map Track.id := (List.map_map).symm
  rw [hids, htracks]
  exact (List.filter_sublist).map Track.id

section Result

variable {r : AudiomackAuditResult F} (hids : (input.tracks.map Track.id).Nodup)
  (hrun : runAudiomackAudit texts input = some r)

include hids hrun

theorem nodup_issues_iff (hdigest : Function.Injective texts.digest) :
    (r.issues.map Issue.id).Nodup ↔ AtMostOneShared texts input.tracks := by
  obtain ⟨audits, haudits, -, hreads⟩ := reads_audit hrun
  have hauditIds : (audits.map fun audited => audited.1.1.id).Nodup := by
    have hexpected := nodup_expectedIds hids
    rw [← haudits, List.map_map] at hexpected
    exact hexpected
  have hissues : r.issues.map Issue.id =
      ((toldArgs texts input audits).map BuildIssueArgs.topic).map (topicId texts input.workspaceId) := by
    rw [show r.issues = _ from hreads.issues, List.map_map, List.map_map]
    apply List.map_congr_left
    intro args hargs
    exact id_buildIssue (wellAimed_toldArgs hreads.verdicts hargs)
  rw [hissues, ← length_dupes_iff, ← nodup_topics_iff hreads.verdicts hauditIds]
  refine ⟨List.Nodup.of_map _, fun h => h.map_on ?_⟩
  intro topic htopic topic' htopic' hsame
  obtain ⟨args, hargs, rfl⟩ := List.mem_map.1 htopic
  obtain ⟨args', hargs', rfl⟩ := List.mem_map.1 htopic'
  exact topicId_inj hdigest (wellAimed_toldArgs hreads.verdicts hargs).global_iff
    (wellAimed_toldArgs hreads.verdicts hargs').global_iff hsame

omit hids in
theorem evidenceIds_eq : r.evidence.map IssueEvidence.id = (r.issues.map Issue.id).map (evidenceIdOf texts) := by
  obtain ⟨audits, -, -, hreads⟩ := reads_audit hrun
  rw [show r.evidence = _ from hreads.evidence, show r.issues = _ from hreads.issues, List.map_map, List.map_map,
    List.map_map]
  rfl

theorem sound_of_atMostOneShared (hdigest : Function.Injective texts.digest)
    (h : AtMostOneShared texts input.tracks) : r.Sound input := by
  have hissues := (nodup_issues_iff hids hrun hdigest).2 h
  have hevidence : (r.evidence.map IssueEvidence.id).Nodup := by
    rw [evidenceIds_eq hrun]
    refine hissues.map fun id id' hsame => ?_
    exact hdigest ((String.append_right_inj _).1 hsame)
  obtain ⟨audits, haudits, htotal, hreads⟩ := reads_audit hrun
  have hclassified : r.classified = audits.map Audited.classified := hreads.classified
  have hcounts : ∀ status, r.counts status = audits.countP fun audited => audited.2.status = status := hreads.counts
  exact {
    once := by
      rw [hclassified, ← haudits, List.map_map, List.map_map]
      rfl
    counts := fun status => by
      rw [hcounts, hclassified, List.countP_map]
      rfl
    total := by
      rw [htotal, ← haudits, List.length_map, ← sum_countP_all audits]
      exact congrArg List.sum (List.map_congr_left fun status _ => hcounts status)
    issues := hissues
    evidence := hevidence
    issuesKept := fun repo issue hissue => get?_putAll_of_nodup hissues repo hissue
    evidenceKept := fun repo ev hev => get?_putAll_of_nodup hevidence repo hev }

end Result

/-- Of an audit of tracks with different ids nothing is lost exactly if at most one ISRC is
shared by several recordings. -/
theorem sound_iff (hdigest : Function.Injective texts.digest) (hids : (input.tracks.map Track.id).Nodup)
    {r : AudiomackAuditResult F} (hrun : runAudiomackAudit texts input = some r) :
    r.Sound input ↔ AtMostOneShared texts input.tracks :=
  ⟨fun h => (nodup_issues_iff hids hrun hdigest).1 h.issues, sound_of_atMostOneShared hids hrun hdigest⟩

/-! ### Four songs -/

def song (id title isrc : String) : Track ℚ where
  id := id
  workspaceId := "ws"
  releaseId := "rel"
  title := title
  versionTags := []
  featuredArtists := []
  primaryArtistName := "Ada"
  isrc := some isrc
  trackNumber := none
  durationSec := none
  isExplicit := none
  identifiers := []
  lyrics := none
  credits := none
  createdAt := ""
  updatedAt := ""

def optedIn : Release where
  id := "rel"
  workspaceId := "ws"
  snapshotId := "snap"
  title := "Weather"
  primaryArtistName := "Ada"
  upc := none
  distributorReleaseId := none
  distributorUrl := none
  releaseDate := none
  label := none
  identifiers := []
  storeSelections := []
  albumExtras := [.audiomackOptIn]
  trackIds := ["a", "b", "c", "d"]
  createdAt := ""
  updatedAt := ""

/-- Two songs have the first ISRC, two others the second; nothing is on Audiomack. -/
def fourSongs (isrc isrc' : String) : AudiomackAuditInput ℚ where
  workspaceId := "ws"
  releases := [optedIn]
  tracks := [song "a" "Rain" isrc, song "b" "Sun" isrc, song "c" "Moon" isrc', song "d" "Star" isrc']
  audiomackSnapshot := ⟨.officialApi, "", none, [], true, []⟩
  audiomackAdapter := none
  canonicalArtistName := "Ada"
  now := ""

theorem exists_fourSongs (isrc isrc' : String) : ∃ r, runAudiomackAudit plainTexts (fourSongs isrc isrc') = some r :=
  exists_audit nofun

theorem sound_oneIsrc : ∃ r, runAudiomackAudit plainTexts (fourSongs "USRC11700001" "USRC11700001") = some r ∧
    r.Sound (fourSongs "USRC11700001" "USRC11700001") := by
  obtain ⟨r, hr⟩ := exists_fourSongs "USRC11700001" "USRC11700001"
  refine ⟨r, hr, (sound_iff injective_plainTexts (by decide) hr).2 ?_⟩
  have hall : ∀ track ∈ (fourSongs "USRC11700001" "USRC11700001").tracks, track.isrc = some "USRC11700001" := by
    simp [fourSongs, song]
  rintro isrc isrc' ⟨track, htrack, -, -, hisrc, -⟩ ⟨track', htrack', -, -, hisrc', -⟩
  rw [hall track htrack] at hisrc
  rw [hall track' htrack'] at hisrc'
  exact Option.some.inj (hisrc.symm.trans hisrc')

/-- The findings on two shared ISRCs get one id. -/
theorem issues_lost : ((fourSongs "USRC11700001" "USRC11700002").tracks.map Track.id).Nodup ∧
    ∃ r, runAudiomackAudit plainTexts (fourSongs "USRC11700001" "USRC11700002") = some r ∧
      ¬r.Sound (fourSongs "USRC11700001" "USRC11700002") := by
  have hids : ((fourSongs "USRC11700001" "USRC11700002").tracks.map Track.id).Nodup := by decide
  obtain ⟨r, hr⟩ := exists_fourSongs "USRC11700001" "USRC11700002"
  refine ⟨hids, r, hr, fun hsound => ?_⟩
  have hone := (nodup_issues_iff hids hr injective_plainTexts).1 hsound.issues
  have hfirst : SharesIsrc plainTexts (fourSongs "USRC11700001" "USRC11700002").tracks "USRC11700001" :=
    ⟨song "a" "Rain" "USRC11700001", by simp [fourSongs], song "b" "Sun" "USRC11700001", by simp [fourSongs],
      by decide +kernel, by decide +kernel, by decide +kernel⟩
  have hsecond : SharesIsrc plainTexts (fourSongs "USRC11700001" "USRC11700002").tracks "USRC11700002" :=
    ⟨song "c" "Moon" "USRC11700002", by simp [fourSongs], song "d" "Star" "USRC11700002", by simp [fourSongs],
      by decide +kernel, by decide +kernel, by decide +kernel⟩
  exact absurd (hone _ _ hfirst hsecond) (by decide)

end CatalogSentinel.Engine
