import CatalogSentinel.Data.Aliases
import CatalogSentinel.Capture.Correlation
import CatalogSentinel.Checkpoint.Records
import CatalogSentinel.Extract.Parser

/-!
The attended reader of the catalogue index. It scrolls through a list of which the page
renders a part at a time, and takes a row for a release that it has seen before where
the stable id or the link is the same. It returns once the list has been quiet for long
enough and has as many releases as the page says there are.
-/

namespace CatalogSentinel.Extract

open CatalogSentinel.Data CatalogSentinel.Capture CatalogSentinel.Checkpoint
open CatalogSentinel.Distrokid (DistroKidCatalogIndexErrorCode)

/-- What the reader throws: an error of its own, or one of the page or of the language. -/
inductive CatalogIndexError
  | index (code : DistroKidCatalogIndexErrorCode) (message : String)
  | other
  deriving DecidableEq, Repr

abbrev CatalogRead := Except CatalogIndexError

/-- A parsed URL, with its text, which is never empty, and the names of its search parameters. -/
structure WebUrl where
  text : String
  protocol : String
  username : String
  password : String
  hostname : String
  port : String
  pathname : String
  params : List String

/-- `new URL(text)` and `new URL(text, base)`. -/
structure UrlParser where
  parse : String → Option WebUrl
  resolve : String → String → Option WebUrl

structure RawCatalogIndexEntry where
  href : Option String
  title : String
  artist : Option String
  id : Option String
  expectedTrackCount : Option ℕ
  deriving DecidableEq, Repr

structure CatalogLoadState where
  height : ℕ
  pending : Bool
  expectedTotal : Option ℕ
  hasLoadMore : Bool
  atScrollableEnd : Bool
  deriving DecidableEq, Repr

/-- What the page shows between two scrolls: whether a control was clicked before, the visible
rows, and the state of the list. -/
structure PageView where
  clickedLoadMore : Bool
  entries : List RawCatalogIndexEntry
  state : CatalogLoadState
  deriving DecidableEq, Repr

/-- The page: where it is after the navigation and at the end, and what it shows until it fails. -/
structure CatalogPage where
  landedUrl : String
  views : List PageView
  finalUrl : String
  deriving DecidableEq, Repr

structure DistroKidCatalogIndexEntry where
  releaseId : String
  dashboardUrl : String
  title : String
  artist : Option String
  expectedTrackCount : Option ℕ
  deriving DecidableEq, Repr

structure CatalogIndexAccumulator where
  row : RawCatalogIndexEntry
  ids : List String
  hrefs : List String
  trackCountConflict : Bool
  deriving DecidableEq, Repr

/-- The accumulators in order; a reference to one is its place among them. -/
structure CatalogIndex where
  rows : List CatalogIndexAccumulator
  byId : String → Option ℕ
  byHref : String → Option ℕ

def CatalogIndex.empty : CatalogIndex := ⟨[], fun _ => none, fun _ => none⟩

/-! ### Texts and links -/

/-- `s || null` -/
def nonEmpty (s : String) : Option String := if s = "" then none else some s

def lowerAscii (s : String) : String := String.ofList (s.toList.map Char.toLower)

def genericTexts : List String :=
  ["album", "edit", "manage", "music", "release", "stat", "stats", "view"]

def catalogTextScore (text : String) : ℕ :=
  (if lowerAscii text ∈ genericTexts then 0 else 1000) + utf16Length text

def preferredCatalogText (current incoming : Option String) : Option String :=
  match current.bind nonEmpty, incoming.bind nonEmpty with
  | none, _ => incoming
  | some _, none => current
  | some c, some i => if catalogTextScore i > catalogTextScore c then incoming else current

/-- `/\/…(?:\/|$)/i`, for the name of one directory. -/
def hasDirectory (name pathname : String) : Bool :=
  (lowerAscii pathname).toList.tails.any fun rest =>
    ('/' :: name.toList) <+: rest ∧ (rest.drop (name.toList.length + 1)).head?.all (· = '/')

def catalogHrefScore (U : UrlParser) (raw : String) : ℤ :=
  match U.parse raw with
  | none => -1
  | some url =>
    (if ["albumuuid", "releaseuuid", "releaseId"].any (· ∈ url.params) then 100 else 0) +
    (if hasDirectory "album" url.pathname then 80 else 0) +
    (if hasDirectory "release" url.pathname then 60 else 0) +
    (if hasDirectory "mymusic" url.pathname then 20 else 0)

/-- No link is empty. -/
def preferredCatalogHref (U : UrlParser) (current incoming : Option String) : Option String :=
  match current, incoming with
  | none, _ => incoming
  | some _, none => current
  | some c, some i =>
    if c = i then current
    else if catalogHrefScore U i > catalogHrefScore U c then incoming else current

def isWordChar (c : Char) : Bool := isAsciiLetter c || isAsciiDigit c || c = '_'

/-- `/\b(sign[-_]?in|login)\b/i` -/
def isSignInPath (pathname : String) : Bool :=
  ["signin", "sign-in", "sign_in", "login"].any fun word =>
    OccursWhole isWordChar word (lowerAscii pathname)

/-! ### Rows -/

section Reader

variable (U : UrlParser) (musicUrl : String)

/-- A row with its id trimmed and its link resolved; it must have one of them. -/
def identifyRow (rawRow : RawCatalogIndexEntry) : CatalogRead RawCatalogIndexEntry := do
  let href ← (rawRow.href.bind fun href => nonEmpty (trim href)).mapM fun href =>
    match U.resolve href musicUrl with
    | none => .error (.index .unsafeReleaseUrl "DistroKid catalog index returned an unsafe release URL.")
    | some url => .ok url.text
  let row := { rawRow with id := rawRow.id.bind fun id => nonEmpty (trim id), href }
  if row.id.isNone && row.href.isNone then
    .error (.index .releaseIdentityMissing
      "DistroKid catalog row has no stable unique id or release URL; completeness cannot be established.")
  else .ok row

def mergeCatalogIndexRow (accumulator : CatalogIndexAccumulator) (incoming : RawCatalogIndexEntry) :
    CatalogIndexAccumulator :=
  let row := accumulator.row
  let differs := row.expectedTrackCount.any fun current =>
    incoming.expectedTrackCount.any fun count => current ≠ count
  let conflict := accumulator.trackCountConflict || differs
  { accumulator with
    trackCountConflict := conflict
    row := {
      href := preferredCatalogHref U row.href incoming.href
      title := (preferredCatalogText (some row.title) (some incoming.title)).getD incoming.title
      artist := preferredCatalogText row.artist incoming.artist
      id := row.id.or incoming.id
      expectedTrackCount :=
        if conflict then none else row.expectedTrackCount.or incoming.expectedTrackCount } }

def CatalogIndexAccumulator.addNames (a : CatalogIndexAccumulator) (row : RawCatalogIndexEntry) :
    CatalogIndexAccumulator :=
  { a with
    ids := row.id.elim a.ids fun id => addOnce id a.ids
    hrefs := row.href.elim a.hrefs fun href => addOnce href a.hrefs }

/-- The names of the row lead to the accumulator at the place. -/
def CatalogIndex.refer (index : CatalogIndex) (row : RawCatalogIndexEntry) (i : ℕ) : CatalogIndex :=
  { index with
    byId := row.id.elim index.byId fun id => Function.update index.byId id (some i)
    byHref := row.href.elim index.byHref fun href => Function.update index.byHref href (some i) }

def mergeRow (index : CatalogIndex) (row : RawCatalogIndexEntry) : CatalogRead (CatalogIndex × ℕ) :=
  let idMatch := row.id.bind index.byId
  let hrefMatch := row.href.bind index.byHref
  if idMatch.isSome && hrefMatch.isSome && idMatch ≠ hrefMatch then
    .error (.index .releaseIdentityConflict
      "DistroKid catalog row associates two conflicting stable release identities; completeness cannot be established.")
  else
    match (idMatch.or hrefMatch).bind fun i => index.rows[i]?.map (Prod.mk i) with
    | none =>
      let accumulator : CatalogIndexAccumulator := ⟨row, [], [], false⟩
      let rows := index.rows ++ [accumulator.addNames row]
      .ok (({ index with rows }).refer row index.rows.length, 1)
    | some (i, accumulator) =>
      if row.id.any fun id => accumulator.ids.length > 0 && id ∉ accumulator.ids then
        .error (.index .releaseIdentityConflict
          "DistroKid catalog URL maps to multiple stable release ids; completeness cannot be established.")
      else
        let merged := (mergeCatalogIndexRow U accumulator row).addNames row
        .ok (({ index with rows := index.rows.set i merged }).refer row i, 0)

/-- The index with the visible rows in it, and how many releases were added. -/
def mergeVisibleRows : CatalogIndex → List RawCatalogIndexEntry → CatalogRead (CatalogIndex × ℕ)
  | index, [] => .ok (index, 0)
  | index, rawRow :: rawRows => do
    let row ← identifyRow U musicUrl rawRow
    let (index, added) ← mergeRow U index row
    let (index, more) ← mergeVisibleRows index rawRows
    return (index, added + more)

/-! ### Scrolling -/

structure CatalogIndexOptions where
  musicUrl : Option String
  maxReleases : Option ℤ
  maxScrollRounds : Option ℤ
  stabilityRounds : Option ℤ
  deriving DecidableEq, Repr

structure CatalogLimits where
  maxReleases : ℤ
  maxScrollRounds : ℕ
  requiredStableRounds : ℕ
  unknownTotalStableRounds : ℕ
  deriving DecidableEq, Repr

def CatalogIndexOptions.limits (opts : CatalogIndexOptions) : CatalogLimits :=
  let requiredStableRounds := (max 2 (min (opts.stabilityRounds.getD 3) 10)).toNat
  { maxReleases := opts.maxReleases.getD 5000
    maxScrollRounds := (max 1 (min (opts.maxScrollRounds.getD 500) 2000)).toNat
    requiredStableRounds
    unknownTotalStableRounds := max requiredStableRounds 10 }

/-- A count that the page stops to show is not forgotten. -/
def strongerTotal (strongest current : Option ℕ) : Option ℕ :=
  match strongest, current with
  | strongest, none => strongest
  | none, some current => some current
  | some strongest, some current => some (max strongest current)

def releaseLimitReached {α : Type} (maxReleases : ℤ) : CatalogRead α :=
  .error (.index .releaseLimitReached
    s!"DistroKid catalog index reached the configured {maxReleases}-release cap; refusing to report a potentially truncated catalog.")

def loadBudgetExhausted {α : Type} (captured : ℕ) (expected : Option ℕ) : CatalogRead α :=
  let expected := (expected.map toString).getD "unknown"
  .error (.index .loadBudgetExhausted
    s!"DistroKid catalog index did not establish completeness before the load budget (captured={captured}, expected={expected}).")

/-- What the loop carries from round to round. -/
structure ScrollState where
  index : CatalogIndex
  previous : CatalogLoadState
  strongestExpectedTotal : Option ℕ
  stableRounds : ℕ

/-- Nothing was clicked, is loading or was added, and the list has ended where it ended before. -/
def isStable (previous : CatalogLoadState) (view : PageView) (added : ℕ) : Bool :=
  !view.clickedLoadMore && !view.state.pending && added = 0 &&
    view.state.height = previous.height && !view.state.hasLoadMore && view.state.atScrollableEnd

def ScrollState.nextStableRounds (s : ScrollState) (view : PageView) (added : ℕ) : ℕ :=
  if isStable s.previous view added then s.stableRounds + 1 else 0

/-- The index when the list has settled, and what the page would have shown next. -/
def scroll (L : CatalogLimits) : ℕ → ScrollState → List PageView →
    CatalogRead (CatalogIndex × List PageView)
  | 0, s, views =>
    loadBudgetExhausted s.index.rows.length
      (strongerTotal s.strongestExpectedTotal (views.head?.bind (·.state.expectedTotal)))
  | rounds + 1, s, views =>
    if (s.index.rows.length : ℤ) ≥ L.maxReleases then releaseLimitReached L.maxReleases
    else
      match views with
      | [] => .error .other
      | view :: views => do
        let (index, added) ← mergeVisibleRows U musicUrl s.index view.entries
        let strongest := strongerTotal s.strongestExpectedTotal view.state.expectedTotal
        let stableRounds := s.nextStableRounds view added
        if strongest.any (· < index.rows.length) && stableRounds ≥ L.requiredStableRounds then
          .error (.index .releaseIdentityConflict
            "DistroKid catalog index captured more stable releases than its independent total; completeness cannot be established.")
        else if stableRounds ≥ strongest.elim L.unknownTotalStableRounds (fun _ => L.requiredStableRounds) &&
            strongest.all (· = index.rows.length) then
          .ok (index, views)
        else
          scroll L rounds ⟨index, view.state, strongest, stableRounds⟩ views

/-! ### Entries -/

def isSafeDashboard (url : WebUrl) : Bool :=
  url.protocol = "https:" && url.username = "" && url.password = "" &&
    (url.port = "" || url.port = "443") && isDistroKidHost url.hostname

def resolveDashboard (href : Option String) : CatalogRead String :=
  match href with
  | none => .ok musicUrl
  | some href =>
    match U.resolve href musicUrl with
    | none => .error .other
    | some url => .ok url.text

def indexEntry (row : RawCatalogIndexEntry) : CatalogRead DistroKidCatalogIndexEntry := do
  let dashboardUrl ← resolveDashboard U musicUrl row.href
  match U.parse dashboardUrl with
  | none => .error .other
  | some dashboard =>
    if !isSafeDashboard dashboard then
      .error (.index .unsafeReleaseUrl "DistroKid catalog index returned an unsafe release URL.")
    else
      .ok {
        releaseId := row.id.getD dashboardUrl
        dashboardUrl
        title := row.title
        artist := row.artist.bind nonEmpty
        expectedTrackCount := row.expectedTrackCount }

def indexEntries : List DistroKidCatalogIndexEntry → List CatalogIndexAccumulator →
    CatalogRead (List DistroKidCatalogIndexEntry)
  | entries, [] => .ok entries
  | entries, accumulator :: rows => do
    let entry ← indexEntry U musicUrl accumulator.row
    if entry.releaseId ∈ entries.map (·.releaseId) then
      .error (.index .releaseIdentityConflict
        "DistroKid catalog index resolved multiple rows to the same release identity; completeness cannot be established.")
    else indexEntries (entries ++ [entry]) rows

/-! ### The reader -/

def requireCatalogUrl : CatalogRead Unit :=
  match U.parse musicUrl with
  | none => .error (.index .invalidCatalogUrl
      "DistroKid catalog index URL must use HTTPS on a distrokid.com host.")
  | some target =>
    if target.protocol ≠ "https:" || !isDistroKidHost target.hostname then
      .error (.index .invalidCatalogUrl
        "DistroKid catalog index URL must use HTTPS on a distrokid.com host.")
    else .ok ()

def requireSignedIn (url : String) (code : DistroKidCatalogIndexErrorCode) (message : String) :
    CatalogRead Unit :=
  match U.parse url with
  | none => .error .other
  | some landed =>
    if !isDistroKidHost landed.hostname || isSignInPath landed.pathname then
      .error (.index code message)
    else .ok ()

def requireReleaseLimit (maxReleases : ℤ) : CatalogRead Unit :=
  if maxReleases.natAbs > 9007199254740991 || maxReleases < 1 then
    .error (.index .invalidReleaseLimit "DistroKid catalog maxReleases must be a positive integer.")
  else .ok ()

def CatalogIndexOptions.catalogUrl (opts : CatalogIndexOptions) : String :=
  opts.musicUrl.getD "https://distrokid.com/mymusic"

/-- The entries, and what the page would have shown next. -/
def readDistroKidCatalogIndexFromPage (opts : CatalogIndexOptions) (page : CatalogPage) :
    CatalogRead (List DistroKidCatalogIndexEntry × List PageView) := do
  let musicUrl := opts.catalogUrl
  let L := opts.limits
  requireCatalogUrl U musicUrl
  requireSignedIn U page.landedUrl .authenticationRequired
    "DistroKid authentication is required before reading the catalog index."
  requireReleaseLimit L.maxReleases
  match page.views with
  | [] => .error .other
  | first :: views => do
    let (index, _) ← mergeVisibleRows U musicUrl .empty first.entries
    let (index, rest) ← scroll U musicUrl L L.maxScrollRounds
      ⟨index, first.state, first.state.expectedTotal, 0⟩ views
    requireSignedIn U page.finalUrl .authenticationExpired
      "DistroKid authentication expired while reading the catalog index."
    if index.rows.length = 0 then
      .error (.index .noRecognizableReleases
        "DistroKid returned no recognizable release rows; refusing to treat an unauthenticated, changed, or incomplete page as an empty catalog.")
    else if (index.rows.length : ℤ) ≥ L.maxReleases then releaseLimitReached L.maxReleases
    else do
      let entries ← indexEntries U musicUrl [] index.rows
      return (entries, rest)

end Reader

end CatalogSentinel.Extract
