import Mathlib.Logic.Equiv.Basic
import CatalogSentinel.Engine.Entities

/-!
A distributor's snapshot mapped onto releases and tracks. A track's id comes from its ISRC alone
where it has one, so a recording that is on two releases is one track, of the release that is
put last.
-/

namespace CatalogSentinel.Engine

open Matching (Numbers given)
open Matching.Numbers (lit text)
open Data (putAll get?)

/-! ### Snapshots -/

structure RawLyrics where
  plain : LyricsState
  synced : LyricsState

structure RawCredits where
  state : CreditsState
  hasSongwriter : Bool
  hasProducer : Bool

structure RawDistributorTrack (F : Type) where
  distributorTrackId : Option String
  title : String
  primaryArtist : String
  featuredArtists : List String
  isrc : Option String
  trackNumber : Option F
  durationSec : Option F
  isExplicit : Option Bool
  lyrics : Option RawLyrics
  credits : Option RawCredits

structure RawDistributorRelease (F : Type) where
  distributorReleaseId : Option String
  title : String
  primaryArtist : String
  upc : Option String
  releaseDate : Option String
  distributorUrl : Option String
  label : Option String
  storeSelections : List (DSPPlatform × StoreDeliveryStatus)
  albumExtras : List AlbumExtra
  tracks : List (RawDistributorTrack F)

structure DistributorCatalogSnapshot (F : Type) where
  provider : DistributorProvider
  sourceMode : DataSourceMode
  capturedAt : String
  releases : List (RawDistributorRelease F)
  warnings : List String

/-! ### Mapping -/

structure MappedCatalog (F : Type) where
  snapshot : CatalogSnapshot
  releases : List Release
  tracks : List (Track F)

variable {F : Type} [Numbers F]

def RawDistributorRelease.releaseKey (rawRel : RawDistributorRelease F) : String :=
  (given rawRel.upc).getD ((given rawRel.distributorReleaseId).getD rawRel.title)

/-- What names a track without an ISRC. -/
def placeKey (rawRel : RawDistributorRelease F) (rawTrack : RawDistributorTrack F) (idx : ℕ) : String :=
  rawRel.releaseKey ++ "|" ++ text (rawTrack.trackNumber.getD (lit ((idx : ℚ) + 1))) ++ "|" ++ rawTrack.title

def trackKey (rawRel : RawDistributorRelease F) (rawTrack : RawDistributorTrack F) (idx : ℕ) : String :=
  (given rawTrack.isrc).getD (placeKey rawRel rawTrack idx)

variable (texts : Texts) (snapshot : DistributorCatalogSnapshot F) (workspaceId now : String)

def buildTrack (raw : RawDistributorTrack F) (id releaseId : String) : Track F :=
  let parsed := texts.parseTitle raw.title
  { id, workspaceId, releaseId
    title := raw.title
    versionTags := parsed.versionTags
    featuredArtists := if raw.featuredArtists = [] then parsed.featured else raw.featuredArtists
    primaryArtistName := raw.primaryArtist
    isrc := normalizeIsrc texts raw.isrc
    trackNumber := raw.trackNumber
    durationSec := raw.durationSec
    isExplicit := raw.isExplicit
    identifiers :=
      ((given raw.isrc).map (ReleaseIdentifier.mk "isrc")).toList ++
        ((given raw.distributorTrackId).map (ReleaseIdentifier.mk "distributor-track-id")).toList
    lyrics := raw.lyrics.map fun lyrics => ⟨lyrics.plain, lyrics.synced, false, now⟩
    credits := raw.credits.map fun credits => ⟨credits.state, credits.hasSongwriter, credits.hasProducer, now⟩
    createdAt := now
    updatedAt := now }

def releaseIdOf (rawRel : RawDistributorRelease F) : String :=
  stableId texts "rel" [workspaceId, rawRel.releaseKey]

/-- The tracks of a release, each with what its id is made of. -/
def buildTracks (rawRel : RawDistributorRelease F) : List (Track F) :=
  rawRel.tracks.mapIdx fun idx rawTrack =>
    buildTrack texts workspaceId now rawTrack
      (stableId texts "trk" [workspaceId, trackKey rawRel rawTrack idx]) (releaseIdOf texts workspaceId rawRel)

def buildRelease (snapshotId capturedAt : String) (rawRel : RawDistributorRelease F) : Release where
  id := releaseIdOf texts workspaceId rawRel
  workspaceId := workspaceId
  snapshotId := snapshotId
  title := rawRel.title
  primaryArtistName := rawRel.primaryArtist
  upc := normalizeUpc rawRel.upc
  distributorReleaseId := rawRel.distributorReleaseId
  distributorUrl := rawRel.distributorUrl
  releaseDate := rawRel.releaseDate
  label := rawRel.label
  identifiers :=
    ((given rawRel.upc).map (ReleaseIdentifier.mk "upc")).toList ++
      ((given rawRel.distributorUrl).map (ReleaseIdentifier.mk "distributor-url")).toList
  storeSelections := rawRel.storeSelections.map fun s => ⟨s.1, s.2, capturedAt⟩
  albumExtras := rawRel.albumExtras
  trackIds := (buildTracks texts workspaceId now rawRel).map Track.id
  createdAt := now
  updatedAt := now

def mapDistributorSnapshot : MappedCatalog F :=
  let snapshotId := stableId texts "snap" [workspaceId, snapshot.provider.text, snapshot.capturedAt]
  let releases := snapshot.releases.map (buildRelease texts workspaceId now snapshotId snapshot.capturedAt)
  let tracks := snapshot.releases.flatMap (buildTracks texts workspaceId now)
  { releases, tracks
    snapshot := {
      id := snapshotId
      workspaceId
      source := snapshot.provider
      sourceMode := snapshot.sourceMode
      capturedAt := snapshot.capturedAt
      releaseCount := releases.length
      trackCount := tracks.length
      notes := if snapshot.warnings = [] then none else some ("; ".intercalate snapshot.warnings)
      createdAt := now
      updatedAt := now } }

/-! ### The repository -/

structure Repository (F : Type) where
  snapshots : List CatalogSnapshot
  releases : List Release
  tracks : List (Track F)

/-- `findMissingAudiomackSongs` puts what was mapped. -/
def Repository.persist (repo : Repository F) (mapped : MappedCatalog F) : Repository F where
  snapshots := Data.put CatalogSnapshot.id mapped.snapshot repo.snapshots
  releases := putAll Release.id repo.releases mapped.releases
  tracks := putAll Track.id repo.tracks mapped.tracks

/-- Every track that the mapped releases list is stored, and stored as theirs. -/
def Repository.Integral (repo : Repository F) (mapped : MappedCatalog F) : Prop :=
  ∀ release ∈ mapped.releases, ∀ id ∈ release.trackIds,
    ∃ track, get? Track.id id repo.tracks = some track ∧ track.releaseId = release.id

/-! ### Timestamps -/

def CatalogSnapshot.undated (s : CatalogSnapshot) : CatalogSnapshot := { s with createdAt := "", updatedAt := "" }

def Release.undated (r : Release) : Release := { r with createdAt := "", updatedAt := "" }

def Track.undated (t : Track F) : Track F :=
  { t with
    lyrics := t.lyrics.map fun lyrics => { lyrics with observedAt := "" }
    credits := t.credits.map fun credits => { credits with observedAt := "" }
    createdAt := ""
    updatedAt := "" }

/-- The collections hold the same under the same ids, in the same order, up to what `undated` drops. -/
def SameUpTo {α : Type} (key : α → String) (undated : α → α) (m m' : List α) : Prop :=
  m'.map key = m.map key ∧ ∀ id, (get? key id m').map undated = (get? key id m).map undated

structure Repository.SameButDates (repo repo' : Repository F) : Prop where
  snapshots : SameUpTo CatalogSnapshot.id CatalogSnapshot.undated repo.snapshots repo'.snapshots
  releases : SameUpTo Release.id Release.undated repo.releases repo'.releases
  tracks : SameUpTo Track.id Track.undated repo.tracks repo'.tracks

section SameUpTo

variable {α : Type} {key : α → String} {undated : α → α}

theorem map_key_putAll_of_mem {m xs : List α} (h : ∀ x ∈ xs, key x ∈ m.map key) :
    (putAll key m xs).map key = m.map key := by
  induction xs generalizing m with
  | nil => rfl
  | cons x xs ih =>
    have hx := Data.map_key_put_of_mem (h x List.mem_cons_self)
    rw [Data.putAll_cons, ih, hx]
    intro y hy
    rw [hx]
    exact h y (List.mem_cons_of_mem x hy)

variable (key undated) in
/-- To put a batch again, dated otherwise, changes dates only. -/
theorem sameUpTo_putAll_again (hkey : ∀ x, key (undated x) = key x) {xs xs' : List α}
    (h : xs'.map undated = xs.map undated) (m : List α) :
    SameUpTo key undated (putAll key m xs) (putAll key (putAll key m xs) xs') := by
  have hkeys : xs'.map key = xs.map key := by
    have := congrArg (List.map key) h
    simpa only [List.map_map, Function.comp_def, hkey] using this
  constructor
  · apply map_key_putAll_of_mem
    intro x hx
    rw [Data.mem_keys_putAll, ← hkeys]
    exact .inr (List.mem_map_of_mem hx)
  · intro id
    have hagain : (get? key id xs'.reverse).map undated = (get? key id xs.reverse).map undated := by
      rw [← Data.get?_map hkey, ← Data.get?_map hkey, List.map_reverse, List.map_reverse, h]
    rw [Data.get?_putAll id (putAll key m xs) xs', Data.get?_putAll id m xs, Option.map_or, Option.map_or, hagain]
    cases (get? key id xs.reverse).map undated <;> rfl

end SameUpTo

/-! ### Tracks and releases -/

variable {texts workspaceId now}

theorem mem_buildTracks {rawRel : RawDistributorRelease F} {track : Track F} :
    track ∈ buildTracks texts workspaceId now rawRel ↔
      ∃ entry ∈ rawRel.tracks.zipIdx, track = buildTrack texts workspaceId now entry.1
        (stableId texts "trk" [workspaceId, trackKey rawRel entry.1 entry.2])
        (releaseIdOf texts workspaceId rawRel) := by
  simp only [buildTracks, List.mapIdx_eq_zipIdx_map, List.mem_map, eq_comm]

variable (texts workspaceId now)

theorem undated_buildTracks (now' : String) (rawRel : RawDistributorRelease F) :
    (buildTracks texts workspaceId now' rawRel).map Track.undated =
      (buildTracks texts workspaceId now rawRel).map Track.undated := by
  simp only [buildTracks, List.mapIdx_eq_zipIdx_map, List.map_map, Function.comp_def, Track.undated, buildTrack,
    Option.map_map]

theorem trackIds_buildTracks (now' : String) (rawRel : RawDistributorRelease F) :
    (buildTracks texts workspaceId now' rawRel).map Track.id = (buildTracks texts workspaceId now rawRel).map Track.id := by
  simp only [buildTracks, List.mapIdx_eq_zipIdx_map, List.map_map, Function.comp_def, buildTrack]

theorem undated_releases (now' : String) :
    (mapDistributorSnapshot texts snapshot workspaceId now').releases.map Release.undated =
      (mapDistributorSnapshot texts snapshot workspaceId now).releases.map Release.undated := by
  simp only [mapDistributorSnapshot, List.map_map]
  apply List.map_congr_left
  intro rawRel _
  simp only [Function.comp_apply, Release.undated, buildRelease, trackIds_buildTracks texts workspaceId now now' rawRel]

theorem undated_tracks (now' : String) :
    (mapDistributorSnapshot texts snapshot workspaceId now').tracks.map Track.undated =
      (mapDistributorSnapshot texts snapshot workspaceId now).tracks.map Track.undated := by
  simp only [mapDistributorSnapshot, List.map_flatMap, undated_buildTracks texts workspaceId now now']

theorem undated_snapshot (now' : String) :
    [(mapDistributorSnapshot texts snapshot workspaceId now').snapshot].map CatalogSnapshot.undated =
      [(mapDistributorSnapshot texts snapshot workspaceId now).snapshot].map CatalogSnapshot.undated := by
  simp only [mapDistributorSnapshot, CatalogSnapshot.undated, List.map_cons, List.map_nil, List.length_map,
    List.length_flatMap, buildTracks, List.length_mapIdx]

/-- To map and put the same snapshot again changes timestamps only. -/
theorem sameButDates_persist (repo : Repository F) (now' : String) :
    let once := repo.persist (mapDistributorSnapshot texts snapshot workspaceId now)
    once.SameButDates (once.persist (mapDistributorSnapshot texts snapshot workspaceId now')) where
  snapshots :=
    sameUpTo_putAll_again CatalogSnapshot.id CatalogSnapshot.undated (fun _ => rfl)
      (undated_snapshot texts snapshot workspaceId now now') repo.snapshots
  releases :=
    sameUpTo_putAll_again Release.id Release.undated (fun _ => rfl)
      (undated_releases texts snapshot workspaceId now now') repo.releases
  tracks :=
    sameUpTo_putAll_again Track.id Track.undated (fun _ => rfl)
      (undated_tracks texts snapshot workspaceId now now') repo.tracks

/-! ### Integrity -/

/-- A track of a release and one of another release, each with its place in its list. -/
structure Apart (rawRel rawRel' : RawDistributorRelease F) (entry entry' : RawDistributorTrack F × ℕ) : Prop where
  isrc : ∀ isrc, given entry.1.isrc = some isrc → given entry'.1.isrc ≠ some isrc
  isrcOrPlace : ∀ isrc, given entry.1.isrc = some isrc → given entry'.1.isrc = none →
    isrc ≠ placeKey rawRel' entry'.1 entry'.2
  place : given entry.1.isrc = none → given entry'.1.isrc = none →
    placeKey rawRel entry.1 entry.2 ≠ placeKey rawRel' entry'.1 entry'.2

/-- Releases with different keys share no ISRC, and nothing that stands for one. -/
def DistributorCatalogSnapshot.Separate : Prop :=
  ∀ rawRel ∈ snapshot.releases, ∀ rawRel' ∈ snapshot.releases, rawRel.releaseKey ≠ rawRel'.releaseKey →
    ∀ entry ∈ rawRel.tracks.zipIdx, ∀ entry' ∈ rawRel'.tracks.zipIdx, Apart rawRel rawRel' entry entry'

variable {snapshot}

theorem trackKey_ne_of_separate (h : snapshot.Separate) {rawRel rawRel' : RawDistributorRelease F}
    (hrel : rawRel ∈ snapshot.releases) (hrel' : rawRel' ∈ snapshot.releases)
    (hkey : rawRel.releaseKey ≠ rawRel'.releaseKey) {entry entry' : RawDistributorTrack F × ℕ}
    (hentry : entry ∈ rawRel.tracks.zipIdx) (hentry' : entry' ∈ rawRel'.tracks.zipIdx) :
    trackKey rawRel entry.1 entry.2 ≠ trackKey rawRel' entry'.1 entry'.2 := by
  have hapart := h rawRel hrel rawRel' hrel' hkey entry hentry entry' hentry'
  have hapart' := h rawRel' hrel' rawRel hrel (Ne.symm hkey) entry' hentry' entry hentry
  intro hsame
  unfold trackKey at hsame
  cases hisrc : given entry.1.isrc with
  | none =>
    cases hisrc' : given entry'.1.isrc with
    | none =>
      rw [hisrc, hisrc'] at hsame
      exact hapart.place hisrc hisrc' hsame
    | some isrc' =>
      rw [hisrc, hisrc'] at hsame
      exact hapart'.isrcOrPlace isrc' hisrc' hisrc hsame.symm
  | some isrc =>
    cases hisrc' : given entry'.1.isrc with
    | none =>
      rw [hisrc, hisrc'] at hsame
      exact hapart.isrcOrPlace isrc hisrc hisrc' hsame
    | some isrc' =>
      rw [hisrc, hisrc'] at hsame
      exact hapart.isrc isrc hisrc (hisrc'.trans (congrArg some hsame.symm))

theorem apart_of_trackKey_ne {rawRel rawRel' : RawDistributorRelease F} {entry entry' : RawDistributorTrack F × ℕ}
    (h : trackKey rawRel entry.1 entry.2 ≠ trackKey rawRel' entry'.1 entry'.2) : Apart rawRel rawRel' entry entry' where
  isrc isrc hisrc hisrc' := by
    apply h
    rw [trackKey, trackKey, hisrc, hisrc', Option.getD_some, Option.getD_some]
  isrcOrPlace isrc hisrc hisrc' hsame := by
    apply h
    rw [trackKey, trackKey, hisrc, hisrc', Option.getD_some, Option.getD_none, hsame]
  place hisrc hisrc' hsame := by
    apply h
    rw [trackKey, trackKey, hisrc, hisrc', Option.getD_none, Option.getD_none, hsame]

variable {texts workspaceId now}

theorem mem_mapped_tracks {track : Track F} :
    track ∈ (mapDistributorSnapshot texts snapshot workspaceId now).tracks ↔
      ∃ rawRel ∈ snapshot.releases, track ∈ buildTracks texts workspaceId now rawRel := List.mem_flatMap

theorem mem_mapped_releases {release : Release} :
    release ∈ (mapDistributorSnapshot texts snapshot workspaceId now).releases ↔
      ∃ rawRel ∈ snapshot.releases,
        buildRelease texts workspaceId now (stableId texts "snap" [workspaceId, snapshot.provider.text,
          snapshot.capturedAt]) snapshot.capturedAt rawRel = release := List.mem_map

/-- What is stored under the id of a mapped track is one of the mapped tracks. -/
theorem exists_stored (repo : Repository F) {track : Track F}
    (h : track ∈ (mapDistributorSnapshot texts snapshot workspaceId now).tracks) :
    ∃ stored ∈ (mapDistributorSnapshot texts snapshot workspaceId now).tracks,
      get? Track.id track.id (repo.persist (mapDistributorSnapshot texts snapshot workspaceId now)).tracks = some stored ∧
        stored.id = track.id := by
  have hsome : (get? Track.id track.id (mapDistributorSnapshot texts snapshot workspaceId now).tracks.reverse).isSome :=
    Data.get?_isSome.2 (List.mem_map_of_mem (List.mem_reverse.2 h))
  obtain ⟨stored, hstored⟩ := Option.isSome_iff_exists.1 hsome
  have hget : get? Track.id track.id (repo.persist (mapDistributorSnapshot texts snapshot workspaceId now)).tracks =
      some stored := by
    rw [Repository.persist, Data.get?_putAll, hstored, Option.some_or]
  exact ⟨stored, List.mem_reverse.1 (Data.mem_of_get? hstored), hget, Data.key_of_get? hstored⟩

theorem integral_of_separate (hdigest : Function.Injective texts.digest) (repo : Repository F) (h : snapshot.Separate) :
    (repo.persist (mapDistributorSnapshot texts snapshot workspaceId now)).Integral
      (mapDistributorSnapshot texts snapshot workspaceId now) := by
  intro release hrelease id hid
  obtain ⟨rawRel, hrel, rfl⟩ := mem_mapped_releases.1 hrelease
  obtain ⟨track, htrack, rfl⟩ := List.mem_map.1 hid
  obtain ⟨stored, hstored, hget, hsame⟩ := exists_stored repo (mem_mapped_tracks.2 ⟨rawRel, hrel, htrack⟩)
  refine ⟨stored, hget, ?_⟩
  obtain ⟨rawRel', hrel', hmem'⟩ := mem_mapped_tracks.1 hstored
  obtain ⟨entry, hentry, rfl⟩ := mem_buildTracks.1 htrack
  obtain ⟨entry', hentry', rfl⟩ := mem_buildTracks.1 hmem'
  by_cases hkey : rawRel.releaseKey = rawRel'.releaseKey
  · simp only [buildTrack, buildRelease, releaseIdOf, hkey]
  · exact absurd ((stableId_inj hdigest).1 hsame).symm (trackKey_ne_of_separate h hrel hrel' hkey hentry hentry')

theorem separate_of_integral (hdigest : Function.Injective texts.digest) (repo : Repository F)
    (h : (repo.persist (mapDistributorSnapshot texts snapshot workspaceId now)).Integral
      (mapDistributorSnapshot texts snapshot workspaceId now)) : snapshot.Separate := by
  intro rawRel hrel rawRel' hrel' hkey entry hentry entry' hentry'
  apply apart_of_trackKey_ne
  intro hsame
  have hid : ∀ {r : RawDistributorRelease F} {e : RawDistributorTrack F × ℕ}, e ∈ r.tracks.zipIdx →
      stableId texts "trk" [workspaceId, trackKey r e.1 e.2] ∈ (buildTracks texts workspaceId now r).map Track.id :=
    fun he => List.mem_map.2 ⟨_, mem_buildTracks.2 ⟨_, he, rfl⟩, rfl⟩
  obtain ⟨track, hget, howner⟩ := h _ (mem_mapped_releases.2 ⟨rawRel, hrel, rfl⟩) _ (hid hentry)
  obtain ⟨track', hget', howner'⟩ := h _ (mem_mapped_releases.2 ⟨rawRel', hrel', rfl⟩) _ (hid hentry')
  rw [hsame, hget'] at hget
  cases hget
  exact hkey ((stableId_inj hdigest).1 (howner.symm.trans howner'))

/-! ### A single and an album -/

/-- Some texts with the beginnings of their digests. -/
def listed : List (String × String) := [
  ("ws\x01distrokid\x012026-01-01T00:00:00.000Z", "4021f67a80171e313d9edc26"),
  ("ws\x01111111111111", "c3bd80e5264b3874c382fa74"),
  ("ws\x01222222222222", "1b7c9a70502df4970398cd4c"),
  ("ws\x01USRC11700001", "7d40a08ea4a8cccea22cb907"),
  ("ws\x01USRC11700002", "b2f17d7032b85dc775a2f245"),
  ("ws\x01AUDIOMACK_NOT_CONNECTED\x01ws", "96256b4c1c4f2ce5d2006972"),
  ("ws\x01MISSING_ON_PLATFORM\x01a", "654013d13734d3587bb5cb2a"),
  ("ws\x01MISSING_ON_PLATFORM\x01b", "03e4f1cf749868a7fdd85842"),
  ("ws\x01MISSING_ON_PLATFORM\x01c", "518c7290c1f4905d2ea02c94"),
  ("ws\x01MISSING_ON_PLATFORM\x01d", "e07347339e5c56eb17a75334"),
  ("ws\x01DUPLICATE_ISRC\x01ws", "ece5eee8113acd1dfcfd8687"),
  ("iss_96256b4c1c4f2ce5d2006972", "32a968d9127320e1a97c9f03"),
  ("iss_654013d13734d3587bb5cb2a", "8e3181c5c8acf69a97014df0"),
  ("iss_03e4f1cf749868a7fdd85842", "c93cccc141786d6ad1a4c6a1"),
  ("iss_518c7290c1f4905d2ea02c94", "d30ef04728e047db12ad8d03"),
  ("iss_e07347339e5c56eb17a75334", "23e64d7f848f1d9439623231"),
  ("iss_ece5eee8113acd1dfcfd8687", "d14227f9dcd7c7d3eaa26c97")]

/-- A digest that is listed, of which no other text is a digest. -/
def listedDigest : Equiv.Perm String :=
  listed.foldr (fun row digest => digest.trans (Equiv.swap row.1 row.2)) (Equiv.refl String)

/-- Titles that name no version and no guest, and ASCII letters. -/
def plainTexts : Texts where
  digest := listedDigest
  upper := String.toUpper
  lower := String.toLower
  parseTitle title := ⟨title.toLower, [], []⟩
  splitArtistList name := [name.toLower]
  normalizeArtist := String.toLower

theorem injective_plainTexts : Function.Injective plainTexts.digest := listedDigest.injective

def recording (title isrc : String) : RawDistributorTrack ℚ where
  distributorTrackId := none
  title := title
  primaryArtist := "Ada"
  featuredArtists := []
  isrc := some isrc
  trackNumber := none
  durationSec := none
  isExplicit := none
  lyrics := none
  credits := none

def releaseOf (title upc isrc : String) : RawDistributorRelease ℚ where
  distributorReleaseId := none
  title := title
  primaryArtist := "Ada"
  upc := some upc
  releaseDate := none
  distributorUrl := none
  label := none
  storeSelections := []
  albumExtras := []
  tracks := [recording "Rain" isrc]

def singleAndAlbum (isrc isrc' : String) : DistributorCatalogSnapshot ℚ where
  provider := .distrokid
  sourceMode := .csvImport
  capturedAt := "2026-01-01T00:00:00.000Z"
  releases := [releaseOf "Rain" "111111111111" isrc, releaseOf "Weather" "222222222222" isrc']
  warnings := []

/-! ### The law -/

/-- Whatever the repository held: every listed track is stored as its release's, and to map the
snapshot again changes timestamps only. -/
def KeepsCatalog (texts : Texts) (snapshot : DistributorCatalogSnapshot F) : Prop :=
  ∀ (repo : Repository F) (workspaceId now now' : String),
    let mapped := mapDistributorSnapshot texts snapshot workspaceId now
    (repo.persist mapped).Integral mapped ∧
      (repo.persist mapped).SameButDates
        ((repo.persist mapped).persist (mapDistributorSnapshot texts snapshot workspaceId now'))

variable (texts) in
/-- A mapped catalogue keeps its references exactly if its releases share no track's name. -/
theorem keepsCatalog_iff (hdigest : Function.Injective texts.digest) (snapshot : DistributorCatalogSnapshot F) :
    KeepsCatalog texts snapshot ↔ snapshot.Separate := by
  constructor
  · intro h
    exact separate_of_integral hdigest ⟨[], [], []⟩ (h ⟨[], [], []⟩ "" "" "").1
  · intro h repo workspaceId now now'
    exact ⟨integral_of_separate hdigest repo h, sameButDates_persist texts snapshot workspaceId now repo now'⟩

theorem keepsCatalog_otherIsrc : KeepsCatalog plainTexts (singleAndAlbum "USRC11700001" "USRC11700002") := by
  apply (keepsCatalog_iff plainTexts injective_plainTexts _).2
  intro rawRel hrel rawRel' hrel' hkey entry hentry entry' hentry'
  simp only [singleAndAlbum, List.mem_cons, List.not_mem_nil, or_false] at hrel hrel'
  apply apart_of_trackKey_ne
  obtain rfl | rfl := hrel <;> obtain rfl | rfl := hrel'
  · exact absurd rfl hkey
  · obtain rfl := List.mem_singleton.1 hentry
    obtain rfl := List.mem_singleton.1 hentry'
    decide
  · obtain rfl := List.mem_singleton.1 hentry
    obtain rfl := List.mem_singleton.1 hentry'
    decide
  · exact absurd rfl hkey

/-- The album's recording takes the single's track away. -/
theorem single_loses : ¬KeepsCatalog plainTexts (singleAndAlbum "USRC11700001" "USRC11700001") := by
  intro h
  have hintegral := (h ⟨[], [], []⟩ "ws" "" "").1
  have hseparate : (singleAndAlbum "USRC11700001" "USRC11700001").Separate :=
    separate_of_integral injective_plainTexts _ hintegral
  have hapart := hseparate (releaseOf "Rain" "111111111111" "USRC11700001") List.mem_cons_self
    (releaseOf "Weather" "222222222222" "USRC11700001") (List.mem_cons_of_mem _ List.mem_cons_self) (by decide)
    (recording "Rain" "USRC11700001", 0) List.mem_cons_self (recording "Rain" "USRC11700001", 0) List.mem_cons_self
  exact hapart.isrc "USRC11700001" (by decide) (by decide)

end CatalogSentinel.Engine
