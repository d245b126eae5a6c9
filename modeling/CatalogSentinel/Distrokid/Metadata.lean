import Mathlib.Data.Rat.Defs
import CatalogSentinel.Data.Assoc
import CatalogSentinel.Data.Text

/-!
The canonical distributor metadata model: fields that carry why they have or
lack a value, tracks and releases, the terminal outcome of one release, and the
merge of two readings of a release.
-/

namespace CatalogSentinel.Distrokid

open CatalogSentinel.Data

inductive MetadataFieldStatus
  | present | absentAtSource | notCaptured | parseFailed | requestFailed | timeout
  | reauthRequired | notAuthorized | unknown
  deriving DecidableEq, Repr

inductive MetadataSource
  | officialApi | networkJson | directJson | pageState | dom | csvImport
  deriving DecidableEq, Repr

structure MetadataField (α : Type) where
  value : Option α
  status : MetadataFieldStatus
  source : MetadataSource
  capturedAt : String
  parserVersion : String
  deriving DecidableEq, Repr

namespace MetadataField

variable {α : Type}

def isPresent (f : MetadataField α) : Bool := f.status = .present

def isAbsentAtSource (f : MetadataField α) : Bool := f.status = .absentAtSource

/-- Our extraction failed; the value may well exist at the distributor. -/
def isExtractionFailure (f : MetadataField α) : Bool :=
  f.status ≠ .present ∧ f.status ≠ .absentAtSource

end MetadataField

inductive LyricStatus
  | present | processing | none | unknown
  deriving DecidableEq, Repr

structure Lyrics where
  plain : LyricStatus
  synced : LyricStatus
  deriving DecidableEq, Repr

structure CanonicalDistributorTrack where
  distributorTrackId : Option String
  title : String
  isrc : MetadataField String
  trackNumber : Option ℚ
  durationSec : Option ℚ
  lyrics : Option Lyrics
  deriving DecidableEq, Repr

structure SubmittedStore where
  store : String
  url : Option String
  deriving DecidableEq, Repr

structure CanonicalDistributorRelease where
  distributorReleaseId : String
  title : String
  primaryArtist : Option String
  featuredArtists : Option (List String)
  upc : MetadataField String
  artworkUrl : MetadataField String
  releaseDate : MetadataField String
  uploadDate : Option (MetadataField String)
  label : Option (MetadataField String)
  submittedStores : Option (List SubmittedStore)
  tracks : List CanonicalDistributorTrack
  deriving DecidableEq, Repr

inductive ReleaseFailureReason
  | timeout | requestFailed | parseFailed | schemaChanged | reauthRequired | notAuthorized
  | rateLimited | budgetExhausted | unknown
  deriving DecidableEq, Repr

/-- The reason as `failureReasons` is keyed by it. -/
def ReleaseFailureReason.key : ReleaseFailureReason → String
  | timeout => "TIMEOUT"
  | requestFailed => "REQUEST_FAILED"
  | parseFailed => "PARSE_FAILED"
  | schemaChanged => "SCHEMA_CHANGED"
  | reauthRequired => "REAUTH_REQUIRED"
  | notAuthorized => "NOT_AUTHORIZED"
  | rateLimited => "RATE_LIMITED"
  | budgetExhausted => "BUDGET_EXHAUSTED"
  | unknown => "UNKNOWN"

/-- Terminal outcome for one release. -/
inductive ReleaseExtractionOutcome
  | completed (release : CanonicalDistributorRelease) (source : MetadataSource) (elapsedMs : ℚ)
      (endpointFingerprint : Option String)
  | failed (distributorReleaseId : String) (reason : ReleaseFailureReason) (detail : String)
      (elapsedMs : ℚ) (endpointFingerprint : Option String)
  | skipped (distributorReleaseId : String) (reason : String)
  deriving DecidableEq, Repr

namespace ReleaseExtractionOutcome

def outcomeReleaseId : ReleaseExtractionOutcome → String
  | completed release .. => release.distributorReleaseId
  | failed distributorReleaseId .. => distributorReleaseId
  | skipped distributorReleaseId _ => distributorReleaseId

def release? : ReleaseExtractionOutcome → Option CanonicalDistributorRelease
  | completed release .. => some release
  | _ => none

def isCompleted (o : ReleaseExtractionOutcome) : Bool := o.release?.isSome

def isFailed : ReleaseExtractionOutcome → Bool
  | failed .. => true
  | _ => false

end ReleaseExtractionOutcome

/-- Outcomes under their release id, as a checkpoint keeps them. -/
abbrev putOutcomes := putAll ReleaseExtractionOutcome.outcomeReleaseId

abbrev outcomeOf := get? ReleaseExtractionOutcome.outcomeReleaseId

/-! ### Merging two readings of a release -/

def evidenceRank (field : MetadataField String) : ℕ :=
  if field.status = .present then 3 else if field.status = .absentAtSource then 2 else 1

def strongerEvidence (current alternative : MetadataField String) : MetadataField String :=
  if evidenceRank alternative > evidenceRank current then alternative else current

def strongerEvidence? (current alternative : Option (MetadataField String)) :
    Option (MetadataField String) :=
  match alternative, current with
  | none, _ => current
  | some a, none => some a
  | some a, some c => some (strongerEvidence c a)

/-- `if (!current.trim() && alternative.trim()) current = alternative` -/
def fillBlank (current alternative : Option String) : Option String :=
  if (current.all isBlank) && !(alternative.all isBlank) then alternative else current

/-- The truthy strings, as an optional id is tested. -/
def isTruthy (s : Option String) : Bool := s.any fun t => t ≠ ""

def correlates (track candidate : CanonicalDistributorTrack) : Bool :=
  (isTruthy track.distributorTrackId && candidate.distributorTrackId = track.distributorTrackId) ||
  (track.trackNumber.isSome && candidate.trackNumber = track.trackNumber) ||
  (track.title ≠ "" && candidate.title ≠ "" && candidate.title = track.title)

def backfillTrack (track alternative : CanonicalDistributorTrack) : CanonicalDistributorTrack :=
  { track with
    distributorTrackId := if !isTruthy track.distributorTrackId &&
        isTruthy alternative.distributorTrackId
      then alternative.distributorTrackId else track.distributorTrackId
    title := if isBlank track.title && !isBlank alternative.title
      then alternative.title else track.title
    trackNumber := track.trackNumber.or alternative.trackNumber
    durationSec := track.durationSec.or alternative.durationSec
    isrc := strongerEvidence track.isrc alternative.isrc }

def mergeTracks (base extra : List CanonicalDistributorTrack) : List CanonicalDistributorTrack :=
  if base.length = 0 ∧ extra.length > 0 then extra
  else base.map fun track =>
    match extra.find? (correlates track) with
    | none => track
    | some alternative => backfillTrack track alternative

def mergeCanonicalRelease (base extra : CanonicalDistributorRelease) :
    CanonicalDistributorRelease :=
  { base with
    title := if isBlank base.title && !isBlank extra.title then extra.title else base.title
    primaryArtist := fillBlank base.primaryArtist extra.primaryArtist
    featuredArtists := if (base.featuredArtists.all List.isEmpty) &&
        !(extra.featuredArtists.all List.isEmpty)
      then extra.featuredArtists else base.featuredArtists
    upc := strongerEvidence base.upc extra.upc
    artworkUrl := strongerEvidence base.artworkUrl extra.artworkUrl
    releaseDate := strongerEvidence base.releaseDate extra.releaseDate
    label := strongerEvidence? base.label extra.label
    uploadDate := strongerEvidence? base.uploadDate extra.uploadDate
    tracks := mergeTracks base.tracks extra.tracks }

open ReleaseExtractionOutcome in
/-- Converge a targeted retry with its previous checkpoint. -/
def convergeReleaseRetryOutcome (previous : Option ReleaseExtractionOutcome)
    (incoming : ReleaseExtractionOutcome) : ReleaseExtractionOutcome :=
  match previous, incoming with
  | none, _ => incoming
  | some (completed release source elapsedMs fingerprint), failed .. =>
    completed release source elapsedMs fingerprint
  | some (completed release source elapsedMs fingerprint), skipped .. =>
    completed release source elapsedMs fingerprint
  | some (completed release _ _ fingerprint), completed release' source' elapsedMs' fingerprint' =>
    completed (mergeCanonicalRelease release' release) source' elapsedMs'
      (if isTruthy fingerprint' || isTruthy fingerprint then fingerprint'.or fingerprint
        else fingerprint')
  | some (failed ..), _ => incoming
  | some (skipped ..), _ => incoming

/-- Converging never erases a release that was completed before. -/
theorem converge_isCompleted (previous : Option ReleaseExtractionOutcome)
    (incoming : ReleaseExtractionOutcome) :
    (convergeReleaseRetryOutcome previous incoming).isCompleted =
      (incoming.isCompleted || previous.any (·.isCompleted)) := by
  rcases previous with _ | previous
  · cases incoming <;> rfl
  · cases previous <;> cases incoming <;> rfl

theorem converge_outcomeReleaseId {previous : Option ReleaseExtractionOutcome}
    {incoming : ReleaseExtractionOutcome}
    (h : ∀ o ∈ previous, o.outcomeReleaseId = incoming.outcomeReleaseId) :
    (convergeReleaseRetryOutcome previous incoming).outcomeReleaseId =
      incoming.outcomeReleaseId := by
  rcases previous with _ | previous
  · rfl
  · have := h previous rfl
    cases previous <;> cases incoming <;> first | exact this | rfl

/-! ### Concrete outcomes -/

def sampleRelease (id : String) : CanonicalDistributorRelease :=
  let field : MetadataField String := ⟨some "value", .present, .networkJson, "t", "parser"⟩
  { distributorReleaseId := id, title := "title", primaryArtist := none, featuredArtists := none
    upc := field, artworkUrl := field, releaseDate := field, uploadDate := none, label := none
    submittedStores := none, tracks := [] }

def sampleRead (id : String) : ReleaseExtractionOutcome := .completed (sampleRelease id) .networkJson 1 none

def sampleMiss (id : String) : ReleaseExtractionOutcome := .failed id .timeout "timed out" 1 none

end CatalogSentinel.Distrokid
