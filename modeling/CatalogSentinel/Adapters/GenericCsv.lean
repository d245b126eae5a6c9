import Mathlib.Algebra.Order.Ring.Nat
import Mathlib.Data.List.Nodup
import Mathlib.Data.Nat.SuccPred
import Mathlib.Data.Rat.Init
import CatalogSentinel.Adapters.Csv
import CatalogSentinel.Data.Grouping
import CatalogSentinel.Stores.Names

/-!
The catalogue of a distributor's export. Columns are found by the aliases of their headers; rows
with the same UPC, release id or title, whichever is given first, become the tracks of one
release; and a track without a number takes its position. A track is looked up by its id, which
is the id of its release, or by its title.
-/

namespace CatalogSentinel.Adapters.GenericCsv

open Csv (Text parseCsvRecords)
open Data (isJsSpace trimBy orElse)

/-- How cells are read whose reading is not followed here. -/
structure Readers where
  lower : Text → Text
  featured : Text → List Text
  duration : Text → Option ℚ
  stores : Text → List Text

variable (readers : Readers)

/-! ### Columns -/

inductive LogicalColumn
  | trackTitle | releaseTitle | primaryArtist | featuredArtists | isrc | upc | releaseDate | uploadDate
  | distributorUrl | releaseId | trackNumber | duration | isExplicit | stores | plainLyrics | syncedLyrics
  | credits | songwriter | producer | label | audiomackFlag
  deriving DecidableEq

def LogicalColumn.aliases : LogicalColumn → List String
  | trackTitle => ["tracktitle", "songtitle", "title", "track", "song", "trackname", "songname"]
  | releaseTitle => ["releasetitle", "albumtitle", "album", "release", "ep", "project", "releasename"]
  | primaryArtist => ["artist", "artistname", "primaryartist", "band", "performer", "mainartist"]
  | featuredArtists => ["featuredartists", "featuring", "feat", "features", "featartist"]
  | isrc => ["isrc", "isrccode"]
  | upc => ["upc", "ean", "barcode", "upcean", "gtin"]
  | releaseDate => ["releasedate", "released", "date", "releaseday", "saledate"]
  | uploadDate => ["uploaddate", "uploaded", "dateuploaded", "dateadded", "addeddate", "created", "createdon",
      "submitteddate", "datesubmitted"]
  | distributorUrl => ["distrokidurl", "releaseurl", "songurl", "url", "link", "storelink", "landingpage"]
  | releaseId => ["releaseid", "albumid", "uuid", "id"]
  | trackNumber => ["tracknumber", "trackno", "tracknum", "trackindex", "seq"]
  | duration => ["duration", "length", "durations", "seconds", "runtime", "durationseconds"]
  | isExplicit => ["explicit", "explicitlyrics", "parentaladvisory", "iexplicit"]
  | stores => ["stores", "selectedstores", "storesselected", "deliveredto", "platforms", "shops"]
  | plainLyrics => ["plainlyrics", "lyrics", "haslyrics", "lyricssubmitted", "lyricsstatus"]
  | syncedLyrics => ["syncedlyrics", "timesyncedlyrics", "synced", "timedlyrics"]
  | credits => ["credits", "creditsstatus", "hascredits"]
  | songwriter => ["songwriter", "songwriters", "writer", "writers", "composer"]
  | producer => ["producer", "producers"]
  | label => ["label", "recordlabel"]
  | audiomackFlag => ["audiomack", "audiomackoptin", "audiomackselected"]

/-- `h.toLowerCase().replace(/[^a-z0-9]/g, '')` -/
def normKey (h : Text) : Text :=
  (readers.lower h).filter fun ch => Stores.isLowerAscii ch || Stores.isDigitAscii ch

/-- Of headers that read alike, the last one counts. -/
def resolveColumn (headers : List Text) (column : LogicalColumn) : Option Text :=
  column.aliases.findSome? fun name =>
    (headers.reverse.find? fun h => normKey readers h = name.toList).filter (· ≠ [])

/-- A row's cells under their headers; of equal headers the last one counts. -/
abbrev Row := List (Text × Text)

def Row.get? (row : Row) (header : Text) : Option Text :=
  (row.reverse.find? fun entry => entry.1 = header).map Prod.snd

/-- The header line, and the other lines but those that are blank. -/
def parseCsv (text : Text) : List Text × List Row :=
  match parseCsvRecords text with
  | [] => ([], [])
  | first :: records =>
    let headers := first.map (trimBy isJsSpace)
    (headers, (records.filter (· ≠ [[]])).map fun record =>
      headers.mapIdx fun c h => (h, trimBy isJsSpace (record.getD c [])))

abbrev ColumnMap := LogicalColumn → Option Text

variable (cols : ColumnMap) (row : Row)

def cell (column : LogicalColumn) : Text :=
  match cols column with
  | some header => (row.get? header).getD []
  | none => []

/-- `value || null` -/
def orNull (value : Text) : Option Text := if value = [] then none else some value

/-! ### Cells -/

def truthy : List String := ["yes", "y", "true", "1", "x", "selected", "✓", "live", "delivered", "on"]

def isTruthy (value : Text) : Bool := truthy.any fun word => readers.lower (trimBy isJsSpace value) = word.toList

def includes (value : Text) (word : String) : Bool := value.tails.any fun rest => word.toList.isPrefixOf rest

inductive LyricsState
  | rejected | submittedNotVisible | plainApproved | plainSubmitted | syncedApproved | syncedSubmitted | none
  deriving DecidableEq

def parsePlainLyrics (raw : Text) : LyricsState :=
  let v := readers.lower raw
  if includes v "reject" then .rejected
  else if includes v "not visible" || includes v "notvisible" then .submittedNotVisible
  else if includes v "approv" then .plainApproved
  else if isTruthy readers raw || includes v "submit" || includes v "plain" then .plainSubmitted
  else .none

def parseSyncedLyrics (raw : Text) : LyricsState :=
  let v := readers.lower raw
  if includes v "reject" then .rejected
  else if includes v "approv" then .syncedApproved
  else if isTruthy readers raw || includes v "submit" || includes v "synced" then .syncedSubmitted
  else .none

inductive CreditsState
  | none | displayed | submitted
  deriving DecidableEq

structure Credits where
  state : CreditsState
  hasSongwriter : Bool
  hasProducer : Bool
  deriving DecidableEq

def buildCredits : Option Credits :=
  if cols .credits = none ∧ cols .songwriter = none ∧ cols .producer = none then none
  else
    let hasSongwriter := (cols .songwriter).isSome && trimBy isJsSpace (cell cols row .songwriter) ≠ []
    let hasProducer := (cols .producer).isSome && trimBy isJsSpace (cell cols row .producer) ≠ []
    let creditsCol := cell cols row .credits
    some {
      state :=
        if includes (readers.lower creditsCol) "display" then .displayed
        else if hasSongwriter || hasProducer || isTruthy readers creditsCol then .submitted
        else .none
      hasSongwriter := hasSongwriter
      hasProducer := hasProducer }

def digitsValue (digits : Text) : ℕ := digits.foldl (fun n ch => 10 * n + (ch.toNat - '0'.toNat)) 0

/-- `parseInt(raw, 10)`, where a number that rounds to infinity is none. -/
def parseTrackNumber (raw : Text) : Option ℤ :=
  let (negative, rest) : Bool × Text := match raw.dropWhile isJsSpace with
    | '-' :: rest => (true, rest)
    | '+' :: rest => (false, rest)
    | rest => (false, rest)
  let digits := rest.takeWhile Stores.isDigitAscii
  if digits = [] ∨ 2 ^ 1024 - 2 ^ 970 ≤ digitsValue digits then none
  else if negative then some (-(digitsValue digits : ℤ))
  else some (digitsValue digits : ℤ)

/-! ### The catalogue -/

structure RawDistributorTrack where
  distributorTrackId : Option Text
  title : Text
  primaryArtist : Text
  featuredArtists : List Text
  isrc : Option Text
  trackNumber : Option ℤ
  durationSec : Option ℚ
  isExplicit : Option Bool
  lyrics : Option (LyricsState × LyricsState)
  credits : Option Credits
  deriving DecidableEq

structure RawDistributorRelease where
  distributorReleaseId : Option Text
  title : Text
  primaryArtist : Text
  upc : Option Text
  releaseDate : Option Text
  uploadDate : Option Text
  distributorUrl : Option Text
  label : Option Text
  storeSelections : List Text
  albumExtras : List String
  tracks : List RawDistributorTrack
  deriving DecidableEq

def buildTrack : RawDistributorTrack :=
  { distributorTrackId := orNull (cell cols row .releaseId)
    title := orElse (cell cols row .trackTitle) "Untitled".toList
    primaryArtist := orElse (cell cols row .primaryArtist) "Unknown Artist".toList
    featuredArtists := readers.featured (cell cols row .featuredArtists)
    isrc := orNull (cell cols row .isrc)
    trackNumber := parseTrackNumber (cell cols row .trackNumber)
    durationSec := readers.duration (cell cols row .duration)
    isExplicit := (cols .isExplicit).map fun _ => isTruthy readers (cell cols row .isExplicit)
    lyrics :=
      if cols .plainLyrics = none ∧ cols .syncedLyrics = none then none
      else some (parsePlainLyrics readers (cell cols row .plainLyrics),
        parseSyncedLyrics readers (cell cols row .syncedLyrics))
    credits := buildCredits readers cols row }

def releaseTitleOf : Text := orElse (cell cols row .releaseTitle) (buildTrack readers cols row).title

/-- What rows of one release have in common. -/
def keyOf : Text :=
  readers.lower (orElse (cell cols row .upc) (orElse (cell cols row .releaseId) (releaseTitleOf readers cols row)))

variable (artistName : Option Text)

def buildRelease : RawDistributorRelease :=
  let codes := readers.stores (cell cols row .stores)
  let audiomackOptIn := isTruthy readers (cell cols row .audiomackFlag)
  { distributorReleaseId := orNull (cell cols row .releaseId)
    title := releaseTitleOf readers cols row
    primaryArtist := orElse (orElse (cell cols row .primaryArtist) (artistName.getD [])) "Unknown Artist".toList
    upc := orNull (cell cols row .upc)
    releaseDate := orNull (cell cols row .releaseDate)
    uploadDate := orNull (cell cols row .uploadDate)
    distributorUrl := orNull (cell cols row .distributorUrl)
    label := orNull (cell cols row .label)
    storeSelections :=
      if audiomackOptIn && !codes.contains "audiomack".toList then codes ++ ["audiomack".toList] else codes
    albumExtras := if audiomackOptIn || codes.contains "audiomack".toList then ["audiomack-opt-in"] else []
    tracks := [] }

/-- A track without a number takes its position. -/
def RawDistributorRelease.push (release : RawDistributorRelease) (track : RawDistributorTrack) :
    RawDistributorRelease :=
  { release with
    tracks := release.tracks ++
      [{ track with trackNumber := some (track.trackNumber.getD ((release.tracks.length : ℤ) + 1)) }] }

structure DistributorCatalogSnapshot where
  artistName : Option Text
  releases : List RawDistributorRelease
  warnings : List String
  deriving DecidableEq

def collectWarnings : List String :=
  (if cols .trackTitle = none then ["No track/song title column detected, using \"Untitled\"."] else []) ++
  (if cols .isrc = none then ["No ISRC column detected, ISRC-based matching will be unavailable."] else []) ++
  (if cols .upc = none then ["No UPC column detected, releases grouped by title."] else []) ++
  (if cols .stores = none ∧ cols .audiomackFlag = none then
    ["No store-selection column detected, store coverage cannot be verified from the export."] else [])

def groupRows (rows : List Row) : List (Text × RawDistributorRelease) :=
  rows.foldl (fun m row =>
    Data.alter (keyOf readers cols row)
      ((buildRelease readers cols row artistName).push (buildTrack readers cols row))
      (fun release => release.push (buildTrack readers cols row)) m) []

inductive AdapterInputError
  | noText
  | noHeader
  deriving DecidableEq

def parseCatalog (text : Text) : Except AdapterInputError DistributorCatalogSnapshot :=
  let (headers, rows) := parseCsv text
  if headers = [] then .error .noHeader
  else
    let cols := resolveColumn readers headers
    let releases := (groupRows readers cols artistName rows).map Prod.snd
    .ok {
      artistName := artistName <|> releases.head?.map (·.primaryArtist)
      releases := releases
      warnings := collectWarnings cols }

def discoverCatalog (text : Text) : Except AdapterInputError DistributorCatalogSnapshot :=
  if trimBy isJsSpace text = [] then .error .noText else parseCatalog readers artistName text

/-- A track is the one at its place: its release, and its position there. -/
abbrev Place := ℕ × ℕ

/-- The first track in the catalogue with the id, or with the id for its title. -/
def discoverTrackDetails (snapshot : DistributorCatalogSnapshot) (trackId : Text) :
    Option (Place × RawDistributorTrack) :=
  snapshot.releases.zipIdx.findSome? fun (release, i) =>
    (release.tracks.zipIdx.find? fun (t, _) =>
      t.distributorTrackId = some trackId ∨ readers.lower t.title = readers.lower trackId).map
        fun (t, j) => ((i, j), t)

/-! ### Tracks and their rows -/

/-- The rows of each release, by key in the order in which the keys appear. -/
def releaseRows (rows : List Row) : List (List Row) :=
  (Data.groups (keyOf readers cols) rows).map Data.members

/-- The track of a row. Only its number may have been filled in. -/
structure Yields (row : Row) (track : RawDistributorTrack) : Prop where
  same : track = { buildTrack readers cols row with trackNumber := track.trackNumber }
  number : ∀ n, (buildTrack readers cols row).trackNumber = some n → track.trackNumber = some n

/-- A number that is filled in is no other track's number. -/
def NumbersApart (rs : List Row) (tracks : List RawDistributorTrack) : Prop :=
  ∀ (i j : ℕ) (row : Row) (t u : RawDistributorTrack), rs[i]? = some row →
    (buildTrack readers cols row).trackNumber = none → tracks[i]? = some t → tracks[j]? = some u → i ≠ j →
    t.trackNumber ≠ u.trackNumber

def placed (snapshot : DistributorCatalogSnapshot) : List (Place × RawDistributorTrack) :=
  snapshot.releases.zipIdx.flatMap fun (release, i) => release.tracks.zipIdx.map fun (t, j) => ((i, j), t)

/-- Every row is one track of one release, numbers that are filled in are distinct, and a track is
found by its own id. -/
structure LosesNothing (rows : List Row) (snapshot : DistributorCatalogSnapshot) : Prop where
  kept : (releaseRows readers cols rows).flatten.Perm rows
  tracks : List.Forall₂ (fun rs release => List.Forall₂ (Yields readers cols) rs release.tracks)
    (releaseRows readers cols rows) snapshot.releases
  numbers : List.Forall₂ (fun rs release => NumbersApart readers cols rs release.tracks)
    (releaseRows readers cols rows) snapshot.releases
  lookups : ∀ place track id, (place, track) ∈ placed snapshot → track.distributorTrackId = some id →
    discoverTrackDetails readers snapshot id = some (place, track)

/-- No row gives the number of a position whose row gives none. -/
def LeavesGaps (rs : List Row) : Prop :=
  ∀ (i j : ℕ) (q r : Row), rs[i]? = some q → rs[j]? = some r →
    (buildTrack readers cols q).trackNumber = none → (buildTrack readers cols r).trackNumber ≠ some ((i : ℤ) + 1)

/-- A row with an id comes after no row with that id, or with that id for its title. -/
def IdsApart (q r : Row) : Prop :=
  ∀ id, (buildTrack readers cols r).distributorTrackId = some id →
    (buildTrack readers cols q).distributorTrackId ≠ some id ∧
      readers.lower (buildTrack readers cols q).title ≠ readers.lower id

structure NamesOneRow (rows : List Row) : Prop where
  numbers : ∀ rs ∈ releaseRows readers cols rows, LeavesGaps readers cols rs
  ids : (releaseRows readers cols rows).flatten.Pairwise (IdsApart readers cols)

variable {readers} {cols} {artistName}

/-- The track of the row at a position of its release. -/
def numbered (k : ℕ) (track : RawDistributorTrack) : RawDistributorTrack :=
  { track with trackNumber := some (track.trackNumber.getD ((k : ℤ) + 1)) }

variable (readers cols) in
theorem tracks_foldl_push (rs : List Row) (release : RawDistributorRelease) :
    (rs.foldl (fun release row => release.push (buildTrack readers cols row)) release).tracks =
      release.tracks ++ rs.mapIdx fun k row => numbered (release.tracks.length + k) (buildTrack readers cols row) := by
  induction rs generalizing release with
  | nil => simp
  | cons row rs ih =>
    rw [List.foldl_cons, ih, List.mapIdx_cons]
    simp only [RawDistributorRelease.push, List.length_append, List.length_singleton, List.append_assoc,
      List.singleton_append, Nat.add_zero, numbered]
    congr 3
    funext k u
    rw [show release.tracks.length + 1 + k = release.tracks.length + (k + 1) by omega]

theorem tracks_buildRelease (row : Row) : (buildRelease readers cols row artistName).tracks = [] := rfl

variable (readers cols artistName) in
/-- The tracks of the releases are the rows of the releases, with their numbers filled in. -/
theorem tracks_groupRows (rows : List Row) :
    ((groupRows readers cols artistName rows).map Prod.snd).map RawDistributorRelease.tracks =
      (releaseRows readers cols rows).map fun rs =>
        rs.mapIdx fun k row => numbered k (buildTrack readers cols row) := by
  rw [groupRows, Data.foldl_alter, releaseRows, List.map_map, List.map_map, List.map_map]
  apply List.map_congr_left
  rintro ⟨key, head, tail⟩ -
  have hfold := tracks_foldl_push readers cols (head :: tail) (buildRelease readers cols head artistName)
  rw [tracks_buildRelease, List.nil_append, List.foldl_cons] at hfold
  simp only [List.length_nil, Nat.zero_add] at hfold
  exact hfold

theorem yields_numbered (k : ℕ) (row : Row) : Yields readers cols row (numbered k (buildTrack readers cols row)) where
  same := rfl
  number := by
    intro n h
    simp only [numbered, h, Option.getD_some]

/-- Filled-in numbers are distinct just where no row gives one of them. -/
theorem numbersApart_iff (rs : List Row) :
    NumbersApart readers cols rs (rs.mapIdx fun k row => numbered k (buildTrack readers cols row)) ↔
      LeavesGaps readers cols rs := by
  constructor
  · intro h i j q r hq hr hnone hsome
    have hne : i ≠ j := by
      rintro rfl
      obtain rfl := Option.some.inj (hq.symm.trans hr)
      rw [hnone] at hsome
      cases hsome
    refine h i j q _ _ hq hnone (by rw [List.getElem?_mapIdx, hq]; rfl) (by rw [List.getElem?_mapIdx, hr]; rfl) hne ?_
    simp only [numbered, hnone, hsome, Option.getD_none, Option.getD_some]
  · intro h i j q t u hq hnone ht hu hne heq
    rw [List.getElem?_mapIdx, hq] at ht
    rw [List.getElem?_mapIdx] at hu
    obtain ⟨r, hr, rfl⟩ := Option.map_eq_some_iff.1 hu
    obtain rfl := Option.some.inj ht
    simp only [numbered, hnone, Option.getD_none, Option.some.injEq] at heq
    cases hnumber : (buildTrack readers cols r).trackNumber with
    | none =>
      rw [hnumber, Option.getD_none] at heq
      omega
    | some n =>
      rw [hnumber, Option.getD_some] at heq
      exact h i j q r hq hr hnone (heq ▸ hnumber)

/-! ### Looking tracks up -/

theorem discoverTrackDetails_eq (snapshot : DistributorCatalogSnapshot) (trackId : Text) :
    discoverTrackDetails readers snapshot trackId = (placed snapshot).find? fun x =>
      x.2.distributorTrackId = some trackId ∨ readers.lower x.2.title = readers.lower trackId := by
  rw [discoverTrackDetails, placed, List.find?_flatMap]
  congr 1
  funext x
  rw [List.find?_map]
  rfl

/-- In a list without repetitions every item is the first that matches its id just where no item
matches the id of a later one. -/
theorem find?_self_iff {α κ : Type} (idOf : α → Option κ) (is : κ → α → Bool)
    (hself : ∀ x id, idOf x = some id → is id x = true) {xs : List α} (hnodup : xs.Nodup) :
    (∀ x ∈ xs, ∀ id, idOf x = some id → xs.find? (is id) = some x) ↔
      xs.Pairwise fun y x => ∀ id, idOf x = some id → is id y = false := by
  induction xs with
  | nil => simp
  | cons y xs ih =>
    obtain ⟨hy, hnodup⟩ := List.nodup_cons.1 hnodup
    rw [List.pairwise_cons, ← ih hnodup]
    constructor
    · intro h
      have hfirst : ∀ x ∈ xs, ∀ id, idOf x = some id → is id y = false := by
        intro x hx id hid
        by_contra hmatch
        have hfind := h x (List.mem_cons_of_mem y hx) id hid
        rw [List.find?_cons_of_pos ((Bool.not_eq_false _).mp hmatch)] at hfind
        exact hy (Option.some.inj hfind ▸ hx)
      refine ⟨hfirst, fun x hx id hid => ?_⟩
      have hfind := h x (List.mem_cons_of_mem y hx) id hid
      rwa [List.find?_cons_of_neg (by rw [hfirst x hx id hid]; decide)] at hfind
    · rintro ⟨hfirst, h⟩ x hx id hid
      rcases List.mem_cons.1 hx with rfl | hx
      · exact List.find?_cons_of_pos (hself x id hid)
      · rw [List.find?_cons_of_neg (by rw [hfirst x hx id hid]; decide)]
        exact h x hx id hid

theorem nodup_placed (snapshot : DistributorCatalogSnapshot) : (placed snapshot).Nodup := by
  apply List.Nodup.of_map Prod.fst
  rw [placed, List.map_flatMap, List.nodup_flatMap]
  constructor
  · intro x _
    rw [List.map_map]
    have hpositions : (x.1.tracks.zipIdx.map Prod.snd).Nodup := by
      rw [List.zipIdx_map_snd]
      exact List.nodup_range'
    have hmap : (x.1.tracks.zipIdx.map Prod.snd).map (Prod.mk x.2) =
        x.1.tracks.zipIdx.map (Prod.fst ∘ fun x_1 => ((x.2, x_1.2), x_1.1)) := by
      rw [List.map_map]
      rfl
    rw [← hmap]
    exact hpositions.map fun _ _ heq => (Prod.mk.inj heq).2
  · have hreleases : (snapshot.releases.zipIdx.map Prod.snd).Nodup := by
      rw [List.zipIdx_map_snd]
      exact List.nodup_range'
    rw [List.Nodup, List.pairwise_map] at hreleases
    refine hreleases.imp fun {x y} hne place hx hy => hne ?_
    simp only [List.map_map, List.mem_map, Function.comp_apply] at hx hy
    obtain ⟨_, -, rfl⟩ := hx
    obtain ⟨_, -, hsame⟩ := hy
    exact (Prod.mk.inj hsame).1.symm

theorem map_snd_placed (snapshot : DistributorCatalogSnapshot) :
    (placed snapshot).map Prod.snd = (snapshot.releases.map RawDistributorRelease.tracks).flatten := by
  rw [placed, List.map_flatMap, ← List.flatMap_def]
  have hzip : snapshot.releases.flatMap RawDistributorRelease.tracks =
      (snapshot.releases.zipIdx.map Prod.fst).flatMap RawDistributorRelease.tracks := by
    rw [List.zipIdx_map_fst]
  rw [hzip, List.flatMap_map]
  congr 1
  funext x
  rw [List.map_map]
  exact List.zipIdx_map_fst 0 x.1.tracks

/-- The tracks in order have the ids and titles of the rows in order. -/
theorem map_placed {rows : List Row} {snapshot : DistributorCatalogSnapshot}
    (h : snapshot.releases = (groupRows readers cols artistName rows).map Prod.snd) :
    (placed snapshot).map (fun x => (x.2.distributorTrackId, x.2.title)) =
      (releaseRows readers cols rows).flatten.map fun row =>
        ((buildTrack readers cols row).distributorTrackId, (buildTrack readers cols row).title) := by
  have hsplit : (placed snapshot).map (fun x => (x.2.distributorTrackId, x.2.title)) =
      ((placed snapshot).map Prod.snd).map fun t => (t.distributorTrackId, t.title) := by
    rw [List.map_map]
    rfl
  rw [hsplit, map_snd_placed, h, tracks_groupRows, List.map_flatten, List.map_flatten, List.map_map]
  congr 1
  apply List.map_congr_left
  intro rs _
  apply List.ext_getElem?
  intro i
  rw [Function.comp_apply, List.getElem?_map, List.getElem?_map, List.getElem?_mapIdx, Option.map_map]
  rfl

/-- Tracks are found by their own ids just where an id names one row. -/
theorem lookups_iff {rows : List Row} {snapshot : DistributorCatalogSnapshot}
    (h : snapshot.releases = (groupRows readers cols artistName rows).map Prod.snd) :
    (∀ place track id, (place, track) ∈ placed snapshot → track.distributorTrackId = some id →
      discoverTrackDetails readers snapshot id = some (place, track)) ↔
      (releaseRows readers cols rows).flatten.Pairwise (IdsApart readers cols) := by
  have hfirst := find?_self_iff (fun x : Place × RawDistributorTrack => x.2.distributorTrackId)
    (fun id x => decide (x.2.distributorTrackId = some id ∨ readers.lower x.2.title = readers.lower id))
    (fun x id hid => by rw [decide_eq_true_eq]; exact .inl hid) (nodup_placed snapshot)
  have hrows : (releaseRows readers cols rows).flatten.Pairwise (IdsApart readers cols) ↔
      ((releaseRows readers cols rows).flatten.map fun row =>
        ((buildTrack readers cols row).distributorTrackId, (buildTrack readers cols row).title)).Pairwise
          fun q r => ∀ id, r.1 = some id → q.1 ≠ some id ∧ readers.lower q.2 ≠ readers.lower id := by
    rw [List.pairwise_map]
    rfl
  rw [hrows, ← map_placed h, List.pairwise_map]
  simp only [decide_eq_false_iff_not, not_or] at hfirst
  rw [← hfirst]
  constructor
  · rintro hlookup ⟨place, track⟩ hmem id hid
    rw [← discoverTrackDetails_eq]
    exact hlookup place track id hmem hid
  · intro hlookup place track id hmem hid
    rw [discoverTrackDetails_eq]
    exact hlookup (place, track) hmem id hid

/-- The catalogue of an export loses and confuses nothing just where every filled-in number and
every id names one row. -/
theorem losesNothing_iff {text : Text} {snapshot : DistributorCatalogSnapshot}
    (h : discoverCatalog readers artistName text = .ok snapshot) :
    LosesNothing readers (resolveColumn readers (parseCsv text).1) (parseCsv text).2 snapshot ↔
      NamesOneRow readers (resolveColumn readers (parseCsv text).1) (parseCsv text).2 := by
  have hreleases : snapshot.releases =
      (groupRows readers (resolveColumn readers (parseCsv text).1) artistName (parseCsv text).2).map Prod.snd := by
    simp only [discoverCatalog, parseCatalog] at h
    split at h
    · cases h
    · split at h
      · cases h
      · rw [← Except.ok.inj h]
  have htracks := tracks_groupRows readers (resolveColumn readers (parseCsv text).1) artistName (parseCsv text).2
  rw [← hreleases] at htracks
  generalize resolveColumn readers (parseCsv text).1 = cols at *
  generalize (parseCsv text).2 = rows at *
  have hforall (R : List Row → List RawDistributorTrack → Prop) :
      List.Forall₂ (fun rs release => R rs release.tracks) (releaseRows readers cols rows) snapshot.releases ↔
        ∀ rs ∈ releaseRows readers cols rows,
          R rs (rs.mapIdx fun k row => numbered k (buildTrack readers cols row)) := by
    rw [← List.forall₂_map_right_iff, htracks, List.forall₂_map_right_iff, List.forall₂_same]
  constructor
  · intro hsound
    exact ⟨fun rs hrs => (numbersApart_iff rs).1 ((hforall _).1 hsound.numbers rs hrs),
      (lookups_iff hreleases).1 hsound.lookups⟩
  · intro hnames
    refine ⟨?_, (hforall _).2 fun rs _ => ?_, (hforall _).2 fun rs hrs => ?_, (lookups_iff hreleases).2 hnames.ids⟩
    · rw [releaseRows, ← List.flatMap_def]
      exact Data.perm_groups _ _
    · rw [List.forall₂_iff_get]
      refine ⟨by rw [List.length_mapIdx], fun i hi hi' => ?_⟩
      rw [List.get_eq_getElem, List.get_eq_getElem, List.getElem_mapIdx]
      exact yields_numbered i _
    · exact (numbersApart_iff rs).2 (hnames.numbers rs hrs)

/-! ### An export of two releases, and one of two tracks -/

def asciiReaders : Readers := ⟨List.map Char.toLower, fun _ => [], fun _ => none, fun _ => []⟩

def singles : Text := "Song Title,Release ID\nOne,7\nTwo,8\n".toList

theorem losesNothing_singles :
    ∃ snapshot, discoverCatalog asciiReaders none singles = .ok snapshot ∧
      (LosesNothing asciiReaders (resolveColumn asciiReaders (parseCsv singles).1) (parseCsv singles).2 snapshot ↔
        NamesOneRow asciiReaders (resolveColumn asciiReaders (parseCsv singles).1) (parseCsv singles).2) := by
  have hok : (discoverCatalog asciiReaders none singles).toOption.isSome = true := by decide +kernel
  cases h : discoverCatalog asciiReaders none singles with
  | error e => simp [h, Except.toOption] at hok
  | ok snapshot => exact ⟨snapshot, rfl, losesNothing_iff h⟩

def album : Text := "Song Title,Release ID\nOne,7\nTwo,7\n".toList

/-- The id of the second track finds the first. -/
theorem album_confused :
    ∃ snapshot, discoverCatalog asciiReaders none album = .ok snapshot ∧
      ¬ LosesNothing asciiReaders (resolveColumn asciiReaders (parseCsv album).1) (parseCsv album).2 snapshot := by
  have hplaces : ((discoverCatalog asciiReaders none album).toOption.map fun snapshot =>
      (placed snapshot).map fun x => (x.1, x.2.distributorTrackId)) =
        some [((0, 0), some ['7']), ((0, 1), some ['7'])] := by decide +kernel
  have hfound : ((discoverCatalog asciiReaders none album).toOption.map fun snapshot =>
      (discoverTrackDetails asciiReaders snapshot ['7']).map Prod.fst) = some (some (0, 0)) := by decide +kernel
  cases h : discoverCatalog asciiReaders none album with
  | error e => simp [h, Except.toOption] at hplaces
  | ok snapshot =>
    refine ⟨snapshot, rfl, fun hsound => ?_⟩
    rw [h, Except.toOption, Option.map_some, Option.some.injEq] at hplaces hfound
    have hsecond : ((0, 1), some ['7']) ∈ (placed snapshot).map fun x => (x.1, x.2.distributorTrackId) := by
      rw [hplaces]
      decide
    obtain ⟨⟨place, track⟩, hmem, heq⟩ := List.mem_map.1 hsecond
    obtain ⟨rfl, hid⟩ := Prod.mk.inj heq
    rw [hsound.lookups _ track ['7'] hmem hid] at hfound
    simp at hfound

end CatalogSentinel.Adapters.GenericCsv
