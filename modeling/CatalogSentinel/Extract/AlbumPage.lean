import CatalogSentinel.Extract.Parser

/-!
The album page as a reading of last resort: what the scraper saw of it, taken over
without any check of its form. It never names the release.
-/

namespace CatalogSentinel.Extract

open CatalogSentinel.Data CatalogSentinel.Distrokid

/-- `null` and the rest are `none`. -/
structure ScrapedTrack where
  title : Option String
  isrc : Option String
  trackNumber : Option ℚ
  plainLyrics : Option LyricStatus
  syncedLyrics : Option LyricStatus
  deriving DecidableEq, Repr

structure ScrapedReleaseDetail where
  title : Option String
  primaryArtist : Option String
  upc : Option String
  releaseDate : Option String
  uploadDate : Option String
  label : Option String
  artworkUrl : Option String
  submittedStores : List SubmittedStore
  tracks : List ScrapedTrack
  deriving DecidableEq, Repr

def DISTROKID_DOM_PARSER_VERSION : String := "distrokid-dom-v1"

section

variable (H : Host)

/-- A DOM miss is our failure to read, not proof that the distributor has no value. -/
def domField (value : Option String) : MetadataField String :=
  let v := trim (value.getD "")
  if v ≠ "" then present H v .dom DISTROKID_DOM_PARSER_VERSION
  else notCaptured H .notCaptured .dom DISTROKID_DOM_PARSER_VERSION

def scrapedTrackToCanonical (t : ScrapedTrack) (i : ℕ) : CanonicalDistributorTrack :=
  { distributorTrackId := none
    title := trim (t.title.getD "")
    isrc := domField H t.isrc
    trackNumber := some (t.trackNumber.getD (i + 1))
    durationSec := none
    lyrics := some ⟨t.plainLyrics.getD .unknown, t.syncedLyrics.getD .unknown⟩ }

/-- The id is left `unknown` for `complete` to put the one of the catalogue in its place. -/
def scrapedReleaseToCanonical (d : ScrapedReleaseDetail) : CanonicalDistributorRelease :=
  { distributorReleaseId := "unknown"
    title := trim (d.title.getD "")
    primaryArtist := (d.primaryArtist.map trim).filter (· ≠ "")
    featuredArtists := none
    upc := domField H d.upc
    artworkUrl := domField H d.artworkUrl
    releaseDate := domField H d.releaseDate
    uploadDate := if isTruthy d.uploadDate then some (domField H d.uploadDate) else none
    label := if isTruthy d.label then some (domField H d.label) else none
    submittedStores := if d.submittedStores.length = 0 then none else some d.submittedStores
    tracks := d.tracks.zipIdx.map fun (t, i) => scrapedTrackToCanonical H t i }

/-- What the page reader answers of what was scraped, if anything was. -/
def readDistroKidAlbumDom (scraped : Option ScrapedReleaseDetail) :
    Option CanonicalDistributorRelease :=
  match scraped with
  | none => none
  | some d =>
    let release := scrapedReleaseToCanonical H d
    if release.tracks.length = 0 ∧ release.upc.status ≠ .present then none else some release

end

end CatalogSentinel.Extract
