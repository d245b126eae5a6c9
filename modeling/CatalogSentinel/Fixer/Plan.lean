import CatalogSentinel.Data.Assoc
import CatalogSentinel.Data.Buffers

/-!
The plan of what to fix in a catalogue. Every gap that the checks found is a fix with an id, made of the
release's id, of the track's number and of the store as they are written, and of what is wrong. Fixes
that are done are told by their ids.
-/

namespace CatalogSentinel.Fixer

open Data
open Data.Utf16 (ofString unit trim)

inductive FixKind
  | wrongProfile
  | missingStore
  | missingMetadata
  | missingLyrics
  deriving DecidableEq

inductive FixSeverity
  | high
  | medium
  | low
  deriving DecidableEq

/-- Where a link leads: to a page, or, where a store is named as what every object inherits, nowhere. -/
inductive FixLink
  | page (href label : Utf16)
  | inherited (member : Utf16)
  deriving DecidableEq

/-- How a number is written, which is without colons. -/
structure Numerals (N : Type) where
  text : N → Utf16
  one : N
  plain : ∀ n, unit 58 ∉ text n

structure Fix (N : Type) where
  id : Utf16
  releaseId : Utf16
  releaseTitle : Utf16
  trackTitle : Option Utf16 := none
  trackNumber : Option (Option N) := none
  store : Option Utf16 := none
  kind : FixKind
  severity : FixSeverity
  diagnosis : Utf16
  action : Utf16
  link : Option FixLink := none
  prepared : Option Utf16 := none

structure CatTrack (N : Type) where
  title : Option Utf16
  isrc : Option Utf16
  isrcStatus : Utf16
  trackNumber : Option N
  plainLyrics : Option Utf16
  syncedLyrics : Option Utf16
  storeLyricStatus : Option Utf16
  storeHasPlain : Bool
  storeHasSynced : Bool
  mark : Option Utf16

structure CatRelease (N : Type) where
  releaseId : Utf16
  distributorReleaseId : Utf16
  title : Option Utf16
  upc : Option Utf16
  upcStatus : Utf16
  artworkStatus : Utf16
  tracks : List (CatTrack N)

structure Catalogue (N : Type) where
  releases : List (CatRelease N)

structure PerStore where
  store : Utf16
  status : Utf16
  foundArtist : Option Utf16
  url : Option Utf16

structure RecTrack where
  title : Option Utf16
  isrc : Option Utf16
  perStore : List PerStore

structure RecordView where
  stores : List Utf16
  tracks : List RecTrack

/-! ### Texts -/

/-- `!!value` -/
def given (value : Option Utf16) : Bool := value.any (· ≠ [])

def DISTROKID : Utf16 := ofString "https://distrokid.com"

-- `text.toUpperCase()` is the platform's.
variable (toUpperCase : Utf16 → Utf16)

def isrcKey (s : Option Utf16) : Utf16 := toUpperCase (trim (s.getD []))

/-- What every object has without having been given it. -/
def inheritedMembers : List String :=
  ["constructor", "__defineGetter__", "__defineSetter__", "hasOwnProperty", "__lookupGetter__", "__lookupSetter__",
    "isPrototypeOf", "propertyIsEnumerable", "toString", "valueOf", "__proto__", "toLocaleString"]

/-- `RELINK[store]` -/
def RELINK (store : Utf16) : Option FixLink :=
  if store = ofString "Spotify" then
    some (.page (ofString "https://artists.spotify.com") (ofString "Open Spotify for Artists"))
  else if store = ofString "Apple Music" ∨ store = ofString "Apple Music / iTunes" then
    some (.page (ofString "https://artists.apple.com") (ofString "Open Apple Music for Artists"))
  else if store ∈ inheritedMembers.map ofString then some (.inherited store)
  else none

variable {N : Type} (numerals : Numerals N)

def editHrefOf (r : CatRelease N) : FixLink :=
  .page
    (if ofString "http://" <+: r.distributorReleaseId ∨ ofString "https://" <+: r.distributorReleaseId then
      r.distributorReleaseId
    else DISTROKID ++ ofString "/dashboard/album/?albumuuid=" ++ r.releaseId)
    (ofString "Open release on DistroKid")

def SEVERITY_RANK : FixSeverity → ℕ
  | .high => 0
  | .medium => 1
  | .low => 2

/-- `${num}` -/
def numberText (num : Option N) : Utf16 := (num.map numerals.text).getD (ofString "null")

/-! ### What is wrong with a track -/

def markedMissing (t : CatTrack N) : Bool := t.mark = some (ofString "missing")

def lacksIsrc (t : CatTrack N) : Bool := t.isrcStatus ≠ ofString "PRESENT" && !given t.isrc

def dkHasLyrics (t : CatTrack N) : Bool :=
  t.plainLyrics = some (ofString "present") || t.syncedLyrics = some (ofString "present")

def storeChecked (t : CatTrack N) : Bool :=
  given t.storeLyricStatus && t.storeLyricStatus ≠ some (ofString "unknown") &&
    t.storeLyricStatus ≠ some (ofString "unverifiable")

def storeHasLyrics (t : CatTrack N) : Bool :=
  t.storeLyricStatus = some (ofString "found") && (t.storeHasPlain || t.storeHasSynced)

/-! ### The plan -/

/-- `new Map` of the record's tracks by their ISRCs, of which the last one stays -/
def byIsrc (record : Option RecordView) : List RecTrack :=
  putAll (fun t => isrcKey toUpperCase t.isrc) []
    (((record.map RecordView.tracks).getD []).filter fun t => isrcKey toUpperCase t.isrc ≠ [])

/-- `rec?.perStore ?? []`, where `rec` is what the record has of a track -/
def perStoreOf (record : Option RecordView) (t : CatTrack N) : List PerStore :=
  if given t.isrc then
    ((get? (fun t => isrcKey toUpperCase t.isrc) (isrcKey toUpperCase t.isrc) (byIsrc toUpperCase record)).map
      RecTrack.perStore).getD []
  else []

section Fixes

variable (r : CatRelease N) (t : CatTrack N)

def CatRelease.shown : Utf16 := orElse (r.title.getD []) (ofString "Untitled")

def CatTrack.shown : Utf16 := orElse (t.title.getD []) (ofString "Untitled")

def isrcText : Utf16 :=
  if given t.isrc then ofString "ISRC " ++ t.isrc.getD [] else ofString "no ISRC"

/-- `${ISRC} · ${title}, ${trackTitle}` -/
def preparedText : Utf16 := isrcText t ++ ofString " · " ++ r.shown ++ ofString ", " ++ t.shown

/-- `${r.releaseId}:${suffix}` -/
def releaseFixId (suffix : String) : Utf16 := r.releaseId ++ ofString ":" ++ ofString suffix

/-- `${r.releaseId}:${num}:${suffix}` -/
def trackFixId (suffix : String) : Utf16 :=
  r.releaseId ++ ofString ":" ++ numberText numerals t.trackNumber ++ ofString ":" ++ ofString suffix

/-- `${r.releaseId}:${num}:${c.store}:${suffix}` -/
def storeFixId (c : PerStore) (suffix : String) : Utf16 :=
  r.releaseId ++ ofString ":" ++ numberText numerals t.trackNumber ++ ofString ":" ++ c.store ++ ofString ":" ++
    ofString suffix

def releaseFixes : List (Fix N) :=
  (if r.upcStatus ≠ ofString "PRESENT" && !given r.upc then
    [{ id := releaseFixId r "upc", releaseId := r.releaseId, releaseTitle := r.shown
       kind := .missingMetadata, severity := .medium
       diagnosis := ofString "No UPC was captured for this release."
       action := ofString "Confirm the release UPC on DistroKid.", link := some (editHrefOf r) }]
  else []) ++
  if r.artworkStatus ≠ ofString "PRESENT" then
    [{ id := releaseFixId r "art", releaseId := r.releaseId, releaseTitle := r.shown
       kind := .missingMetadata, severity := .medium
       diagnosis := ofString "No cover art was captured for this release."
       action := ofString "Add or confirm cover art on DistroKid.", link := some (editHrefOf r) }]
  else []

def gapFixes : List (Fix N) :=
  (if markedMissing t then
    [{ id := trackFixId numerals r t "marked-missing", releaseId := r.releaseId, releaseTitle := r.shown
       trackTitle := some t.shown, trackNumber := some t.trackNumber, kind := .missingStore, severity := .high
       diagnosis := ofString "You marked this track as missing."
       action := ofString "Follow up on this track, request redelivery to the stores or open a support ticket."
       link := some (editHrefOf r), prepared := some (preparedText r t) }]
  else []) ++
  if lacksIsrc t then
    [{ id := trackFixId numerals r t "isrc", releaseId := r.releaseId, releaseTitle := r.shown
       trackTitle := some t.shown, trackNumber := some t.trackNumber, kind := .missingMetadata, severity := .medium
       diagnosis := ofString "No ISRC was captured for this track."
       action := ofString "Confirm the track ISRC on DistroKid.", link := some (editHrefOf r) }]
  else []

def storeFixes (c : PerStore) : List (Fix N) :=
  if c.status = ofString "wrong-profile" then
    [{ id := storeFixId numerals r t c "wrong", releaseId := r.releaseId, releaseTitle := r.shown
       trackTitle := some t.shown, trackNumber := some t.trackNumber, store := some c.store
       kind := .wrongProfile, severity := .high
       diagnosis := ofString "On " ++ c.store ++ ofString " this track resolves to a different artist" ++
         (if given c.foundArtist then ofString ", \"" ++ c.foundArtist.getD [] ++ ofString "\"" else []) ++ ofString "."
       action := ofString "Claim/relink this track to your " ++ c.store ++ ofString " profile."
       link := some ((RELINK c.store).getD
         (if given c.url then .page (c.url.getD []) (ofString "Open on " ++ c.store) else editHrefOf r))
       prepared := some (isrcText t ++
         if given c.foundArtist then ofString " · currently under \"" ++ c.foundArtist.getD [] ++ ofString "\"" else []) }]
  else if c.status = ofString "not-live" then
    [{ id := storeFixId numerals r t c "missing", releaseId := r.releaseId, releaseTitle := r.shown
       trackTitle := some t.shown, trackNumber := some t.trackNumber, store := some c.store
       kind := .missingStore, severity := .high
       diagnosis := ofString "Not found live on " ++ c.store ++ ofString "."
       action := ofString "Request redelivery to " ++ c.store ++ ofString " (or open a support ticket)."
       link := some (editHrefOf r), prepared := some (preparedText r t) }]
  else []

def lyricsFixes : List (Fix N) :=
  if storeChecked t && dkHasLyrics t && !storeHasLyrics t then
    [{ id := trackFixId numerals r t "lyrics-store", releaseId := r.releaseId, releaseTitle := r.shown
       trackTitle := some t.shown, trackNumber := some t.trackNumber, kind := .missingLyrics, severity := .medium
       diagnosis := ofString "Lyrics are on your DistroKid release but not live on the stores."
       action := ofString "Request redelivery so your lyrics propagate to the stores.", link := some (editHrefOf r)
       prepared := some (preparedText r t) }]
  else if storeChecked t && !dkHasLyrics t && storeHasLyrics t then
    [{ id := trackFixId numerals r t "lyrics-dk", releaseId := r.releaseId, releaseTitle := r.shown
       trackTitle := some t.shown, trackNumber := some t.trackNumber, kind := .missingLyrics, severity := .low
       diagnosis := ofString "The stores show lyrics for this track but your DistroKid release has none."
       action := ofString "Add lyrics on DistroKid so your release matches the stores."
       link := some (.page (DISTROKID ++ ofString "/lyrics/track/?id=" ++ r.releaseId ++ ofString "," ++
         numerals.text (t.trackNumber.getD numerals.one)) (ofString "Add lyrics on DistroKid")) }]
  else []

end Fixes

/-- The fixes as they are found, release by release and track by track. -/
def foundFixes (catalogue : Catalogue N) (record : Option RecordView) : List (Fix N) :=
  catalogue.releases.flatMap fun r => releaseFixes r ++ r.tracks.flatMap fun t =>
    gapFixes numerals r t ++ (perStoreOf toUpperCase record t).flatMap (storeFixes numerals r t) ++
      lyricsFixes numerals r t

def planFixes (catalogue : Catalogue N) (record : Option RecordView) : List (Fix N) :=
  (foundFixes toUpperCase numerals catalogue record).mergeSort fun a b =>
    SEVERITY_RANK a.severity ≤ SEVERITY_RANK b.severity

/-! ### What is done -/

/-- The ids of the fixes that are done, and those that the browser keeps. -/
structure Done where
  done : List Utf16
  stored : List Utf16

/-- The browser may refuse to keep them. -/
def toggleDone (fixId : Utf16) (keeps : Bool) (prev : Done) : Done :=
  let next := if fixId ∈ prev.done then prev.done.filter (· ≠ fixId) else prev.done ++ [fixId]
  ⟨next, if keeps then next else prev.stored⟩

/-- `open` -/
def openFixes (fixes : List (Fix N)) (d : Done) : List (Fix N) := fixes.filter fun f => f.id ∉ d.done

end CatalogSentinel.Fixer
