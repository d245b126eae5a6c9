import CatalogSentinel.Data.Assoc
import CatalogSentinel.Matching.Matcher
import CatalogSentinel.Stores.Names

/-!
What the engine keeps of a catalogue: releases and tracks under ids that are derived from what
names them, so that a catalogue that is imported again meets its own entities.
-/

namespace CatalogSentinel.Engine

open Matching (Numbers NormalizedItem)

/-! ### Closed enumerations -/

inductive DistributorProvider
  | distrokid | unitedmasters | tunecore | cdbaby | ditto | amuse | routenote | symphonic | landr | genericCsv
  deriving DecidableEq

def DistributorProvider.text : DistributorProvider → String
  | distrokid => "distrokid"
  | unitedmasters => "unitedmasters"
  | tunecore => "tunecore"
  | cdbaby => "cdbaby"
  | ditto => "ditto"
  | amuse => "amuse"
  | routenote => "routenote"
  | symphonic => "symphonic"
  | landr => "landr"
  | genericCsv => "generic-csv"

inductive DSPPlatform
  | audiomack | spotify | appleMusic | youtubeMusic | amazonMusic | deezer | tidal | boomplay | soundcloud
  | pandora | tiktok | instagramFacebook | anghami | audius | napster | iheart | qobuz | joox | jiosaavn
  deriving DecidableEq

inductive StoreDeliveryStatus
  | selected | notSelected | delivered | pending | processing | deliveryError | takenDown | unknown
  deriving DecidableEq

inductive LyricsState
  | none | plainSubmitted | plainApproved | syncedSubmitted | syncedApproved | rejected | submittedNotVisible
  | unknown
  deriving DecidableEq

inductive CreditsState
  | none | submitted | displayed | submittedNotDisplayed | unknown
  deriving DecidableEq

inductive AlbumExtra
  | storeMaximizer | socialMediaPack | audiomackOptIn | discoveryPack | leaveALegacy | lyricBlaster
  deriving DecidableEq

inductive DataSourceMode
  | officialApi | partnerApi | userOauth | userUploadedExport | csvImport | manualUrlEntry
  | attendedBrowserAssist | testFixture
  deriving DecidableEq

/-! ### Texts -/

structure ParsedTitle where
  base : String
  versionTags : List String
  featured : List String

/-- How texts are read and hashed: what regular expressions and Unicode make of them, and the
first 24 digits of a SHA-256. -/
structure Texts where
  digest : String → String
  upper : String → String
  lower : String → String
  parseTitle : String → ParsedTitle
  splitArtistList : String → List String
  normalizeArtist : String → String

variable (texts : Texts)

def stableId (kind : String) (parts : List String) : String :=
  kind ++ "_" ++ texts.digest ("\x01".intercalate parts)

/-- `normalizeIsrc` of the core package, which leaves other marks than separators in. -/
def normalizeIsrc : Option String → Option String
  | none => none
  | some raw =>
    if raw = "" then none
    else
      let cleaned := (texts.upper raw).toList.filter fun ch => !(Data.isJsSpace ch || ch = '-')
      if Stores.isIsrc cleaned && cleaned.all (fun ch => Stores.isUpperAscii ch || Stores.isDigitAscii ch) then
        some (String.ofList cleaned)
      else none

def normalizeUpc : Option String → Option String
  | none => none
  | some raw =>
    let digits := raw.toList.filter Stores.isDigitAscii
    if digits.length < 8 ∨ 14 < digits.length then none
    else some (String.ofList (List.replicate (12 - digits.length) '0' ++ digits))

def normalizeArtistSet (names : List String) : List String :=
  ((names.filter (· ≠ "")).flatMap fun name =>
    texts.splitArtistList name ++ [texts.normalizeArtist name].filter (· ≠ "")).dedup

/-! ### Entities -/

structure ReleaseIdentifier where
  type : String
  value : String
  deriving DecidableEq

structure StoreSelection where
  platform : DSPPlatform
  status : StoreDeliveryStatus
  observedAt : String
  deriving DecidableEq

structure Release where
  id : String
  workspaceId : String
  snapshotId : String
  title : String
  primaryArtistName : String
  upc : Option String
  distributorReleaseId : Option String
  distributorUrl : Option String
  releaseDate : Option String
  label : Option String
  identifiers : List ReleaseIdentifier
  storeSelections : List StoreSelection
  albumExtras : List AlbumExtra
  trackIds : List String
  createdAt : String
  updatedAt : String
  deriving DecidableEq

structure LyricsStatus where
  plain : LyricsState
  synced : LyricsState
  textProvidedByOwner : Bool
  observedAt : String
  deriving DecidableEq

structure CreditsStatus where
  state : CreditsState
  hasSongwriter : Bool
  hasProducer : Bool
  observedAt : String
  deriving DecidableEq

structure Track (F : Type) where
  id : String
  workspaceId : String
  releaseId : String
  title : String
  versionTags : List String
  featuredArtists : List String
  primaryArtistName : String
  isrc : Option String
  trackNumber : Option F
  durationSec : Option F
  isExplicit : Option Bool
  identifiers : List ReleaseIdentifier
  lyrics : Option LyricsStatus
  credits : Option CreditsStatus
  createdAt : String
  updatedAt : String

structure CatalogSnapshot where
  id : String
  workspaceId : String
  source : DistributorProvider
  sourceMode : DataSourceMode
  capturedAt : String
  releaseCount : ℕ
  trackCount : ℕ
  notes : Option String
  createdAt : String
  updatedAt : String
  deriving DecidableEq

/-! ### Items of the matcher -/

variable {F : Type}

def toNormalizedItem (id title : String) (artistNames : List String) (isrc : Option String)
    (durationSec : Option F) (externalIds : List String) (artistProfileId : Option String) : NormalizedItem F :=
  let parsed := texts.parseTitle title
  { id, base := parsed.base, versionTags := parsed.versionTags, durationSec, externalIds, artistProfileId
    isrc := normalizeIsrc texts isrc
    artistKeys := normalizeArtistSet texts (artistNames ++ parsed.featured) }

def trackToItem (track : Track F) : NormalizedItem F :=
  toNormalizedItem texts track.id track.title (track.primaryArtistName :: track.featuredArtists) track.isrc
    track.durationSec [] none

/-! ### Ids -/

variable {texts}

/-- Where no two texts have one digest, an id tells its last part. -/
theorem stableId_inj (hdigest : Function.Injective texts.digest) {kind workspaceId a b : String} :
    stableId texts kind [workspaceId, a] = stableId texts kind [workspaceId, b] ↔ a = b := by
  constructor
  · intro h
    have htext := hdigest ((String.append_right_inj _).1 h)
    simp only [String.intercalate_cons_cons, String.intercalate_singleton] at htext
    exact (String.append_right_inj _).1 htext
  · rintro rfl
    rfl

end CatalogSentinel.Engine
