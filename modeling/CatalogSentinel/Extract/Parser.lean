import CatalogSentinel.Data.Json
import CatalogSentinel.Checkpoint.Sanitize

/-!
The versioned parser of captured release payloads. It looks for the release object
in whatever it is wrapped in, checks it against a schema, and reads each field from
the first of several names that has it. The release's own id is read like that too,
down to its title.
-/

namespace CatalogSentinel.Extract

open CatalogSentinel.Data CatalogSentinel.Distrokid CatalogSentinel.Checkpoint
open CatalogSentinel.Data.Json (property hasOwnAny isThere string? number? items)

def PARSER_VERSION : String := "distrokid-parser-v1"

/-- What the parsers call for: the dates and URLs of the language, `toLocaleLowerCase('en')`, and
the time that it is. -/
structure Host where
  platform : Platform
  toLocaleLowerCase : String → String
  now : String

/-! ### Fields -/

section Fields

variable {α : Type} (H : Host)

/-- A field we successfully read. -/
def present (value : α) (source : MetadataSource) (parserVersion : String) : MetadataField α :=
  ⟨some value, .present, source, H.now, parserVersion⟩

/-- The source was read successfully and genuinely has no value for this field. -/
def absentAtSource (source : MetadataSource) (parserVersion : String) : MetadataField α :=
  ⟨none, .absentAtSource, source, H.now, parserVersion⟩

/-- We never got to read it. -/
def notCaptured (status : MetadataFieldStatus) (source : MetadataSource) (parserVersion : String) :
    MetadataField α :=
  ⟨none, status, source, H.now, parserVersion⟩

end Fields

/-! ### Text -/

def isAsciiLetter (c : Char) : Bool := ('A' ≤ c && c ≤ 'Z') || ('a' ≤ c && c ≤ 'z')

def isAsciiDigit (c : Char) : Bool := '0' ≤ c && c ≤ '9'

def toUpperCase (s : String) : String := String.ofList (s.toList.map Char.toUpper)

/-- `/^[A-Z]{2}[A-Z0-9]{3}\d{7}$/i` -/
def ISRC_RE (s : String) : Bool :=
  s.toList.length = 12 && (s.toList.take 2).all isAsciiLetter &&
    ((s.toList.drop 2).take 3).all (fun c => isAsciiLetter c || isAsciiDigit c) &&
    (s.toList.drop 5).all isAsciiDigit

/-- `/^\d{12,14}$/` -/
def UPC_RE (s : String) : Bool :=
  12 ≤ s.toList.length && s.toList.length ≤ 14 && s.toList.all isAsciiDigit

/-- A URL of these schemes has a host. -/
def isHttpUrl (P : Platform) (value : String) : Bool :=
  (P.parseUrl value).any fun url => url.protocol = "http:" || url.protocol = "https:"

/-- The first that is text and not blank, or a number. -/
def firstStr : List (Option Json) → Option String
  | [] => none
  | some (.str s) :: vals => if isBlank s then firstStr vals else some (trim s)
  | some (.num n) :: _ => some n.text
  | _ :: vals => firstStr vals

/-! ### The schemas -/

open Json.Schema

/-- Accept string|number ids; normalize to string. -/
def IdSchema : Json.Schema := union [string, number]

/-- What `IdSchema` makes of an id. -/
def idText : Option Json → Option Json
  | some (.num n) => some (.str n.text)
  | value => value

def NullableStr : Json.Schema := nullish string

def TrackSchemaV1 : Json.Schema :=
  object [
    ("id", optional IdSchema),
    ("trackId", optional IdSchema),
    ("uuid", optional IdSchema),
    ("title", optional string),
    ("name", optional string),
    ("isrc", NullableStr),
    ("trackNumber", nullish number),
    ("position", nullish number),
    ("durationSec", nullish number),
    ("duration", nullish number)]

def FeaturedArtistSchemaV1 : Json.Schema :=
  union [string, object [("name", string)], object [("artistName", string)],
    object [("artist", object [("name", string)])]]

def FeaturedArtistsSchemaV1 : Json.Schema := array FeaturedArtistSchemaV1

def ReleaseSchemaV1 : Json.Schema :=
  object [
    ("id", optional IdSchema),
    ("releaseId", optional IdSchema),
    ("albumId", optional IdSchema),
    ("albumUuid", optional IdSchema),
    ("uuid", optional IdSchema),
    ("title", optional string),
    ("name", optional string),
    ("upc", NullableStr),
    ("barcode", NullableStr),
    ("ean", NullableStr),
    ("artworkUrl", NullableStr),
    ("coverArt", NullableStr),
    ("coverUrl", NullableStr),
    ("cover", NullableStr),
    ("artwork", NullableStr),
    ("releaseDate", NullableStr),
    ("uploadDate", NullableStr),
    ("createdAt", NullableStr),
    ("label", NullableStr),
    ("artist", NullableStr),
    ("artistName", NullableStr),
    ("primaryArtist", NullableStr),
    ("featuredArtists", optional FeaturedArtistsSchemaV1),
    ("featured_artists", optional FeaturedArtistsSchemaV1),
    ("tracks", optional (array TrackSchemaV1)),
    ("trackList", optional (array TrackSchemaV1))]

/-! ### The release object -/

/-- It has a track array, or a release-level identifier. -/
def looksLikeRelease (o : List (String × Json)) : Bool :=
  Json.isArray (property "tracks" o) || Json.isArray (property "trackList" o) ||
    ["upc", "barcode", "ean", "albumUuid", "releaseId", "albumId"].any fun k => isThere (property k o)

/-- The first object that looks like a release, so many levels down. -/
def locateWithin : ℕ → Json → Option (List (String × Json))
  | 0, _ => none
  | levels + 1, .arr list => (list.take 50).findSome? (locateWithin levels)
  | levels + 1, .obj o =>
    if looksLikeRelease o then some o
    else (o.map Prod.snd).findSome? (locateWithin levels)
  | _ + 1, _ => none

def locateReleaseObject (payload : Json) : Option (List (String × Json)) := locateWithin 9 payload

/-! ### Reading it -/

/-- The name of a structured artist credit: that of the first shape that it has. -/
def featuredArtistName : Json → Option String
  | .str name => some name
  | .obj o =>
    (string? (property "name" o)).or ((string? (property "artistName" o)).or
      (match property "artist" o with
        | some (.obj artist) => string? (property "name" artist)
        | _ => none))
  | _ => none

/-- Trimmed and each once, whatever its case, apart from those seen. -/
def normalizeFrom (lower : String → String) (seen : List String) : List String → List String
  | [] => []
  | value :: values =>
    let name := trim value
    if name = "" then normalizeFrom lower seen values
    else if lower name ∈ seen then normalizeFrom lower seen values
    else name :: normalizeFrom lower (lower name :: seen) values

def normalizeFeaturedArtists (lower : String → String) (values : List Json) : List String :=
  normalizeFrom lower [] (values.filterMap featuredArtistName)

section Parse

variable (H : Host) (source : MetadataSource)

/-- A missing value is a source gap; one that was supplied but is malformed is our parse failure. -/
def readField (valid raw : Option String) (wasSupplied : Bool) : MetadataField String :=
  match valid with
  | some value => present H value source PARSER_VERSION
  | none =>
    if raw.isSome then notCaptured H .parseFailed source PARSER_VERSION
    else if wasSupplied then absentAtSource H source PARSER_VERSION
    else notCaptured H .notCaptured source PARSER_VERSION

def parseTrack (t : List (String × Json)) (i : ℕ) : Except String CanonicalDistributorTrack :=
  let tTitle := firstStr [property "title" t, property "name" t]
  let isrcRaw := firstStr [property "isrc" t]
  let isrcWasSupplied := hasOwnAny t ["isrc"]
  let isrcValid := (isrcRaw.filter ISRC_RE).map toUpperCase
  let trackId := firstStr [idText (property "id" t), idText (property "trackId" t),
    idText (property "uuid" t)]
  if trackId.isNone ∧ tTitle.isNone ∧ isrcValid.isNone then
    .error s!"track {i + 1} has no id, title, or valid ISRC"
  else
    let num := ((number? (property "trackNumber" t)).or (number? (property "position" t))).getD (i + 1)
    let dur := (number? (property "durationSec" t)).or (number? (property "duration" t))
    .ok ⟨trackId, tTitle.getD "", readField H source isrcValid isrcRaw isrcWasSupplied, some num, dur, none⟩

/-- The properties of a row that is an object. -/
def rowFields : Json → List (String × Json)
  | .obj fields => fields
  | _ => []

def rawTracks (r : List (String × Json)) : List Json :=
  items ((property "tracks" r).or (property "trackList" r))

def parseTracks (r : List (String × Json)) : Except String (List CanonicalDistributorTrack) :=
  (rawTracks r).zipIdx.mapM fun (t, i) => parseTrack H source (rowFields t) i

def payloadReleaseId (r : List (String × Json)) : Option String :=
  firstStr [idText (property "id" r), idText (property "releaseId" r), idText (property "albumId" r),
    idText (property "albumUuid" r), idText (property "uuid" r)]

def payloadTitle (r : List (String × Json)) : Option String :=
  firstStr [property "title" r, property "name" r]

/-- The release of an object that meets the schema, with its tracks. -/
def readRelease (r : List (String × Json)) (tracks : List CanonicalDistributorTrack) :
    CanonicalDistributorRelease :=
  let upcRaw := firstStr [property "upc" r, property "barcode" r, property "ean" r]
  let upcWasSupplied := hasOwnAny r ["upc", "barcode", "ean"]
  let upcValid := upcRaw.filter UPC_RE
  let artRaw := firstStr [property "artworkUrl" r, property "coverArt" r, property "coverUrl" r,
    property "cover" r, property "artwork" r]
  let artworkWasSupplied := hasOwnAny r ["artworkUrl", "coverArt", "coverUrl", "cover", "artwork"]
  let artValid := artRaw.filter (isHttpUrl H.platform)
  let dateRaw := firstStr [property "releaseDate" r]
  let releaseDateWasSupplied := hasOwnAny r ["releaseDate"]
  let uploadRaw := firstStr [property "uploadDate" r, property "createdAt" r]
  let uploadDateWasSupplied := hasOwnAny r ["uploadDate", "createdAt"]
  let labelRaw := firstStr [property "label" r]
  let labelWasSupplied := hasOwnAny r ["label"]
  let artistRaw := firstStr [property "primaryArtist" r, property "artistName" r, property "artist" r]
  let featuredArtists := normalizeFeaturedArtists H.toLocaleLowerCase
    (items (property "featuredArtists" r) ++ items (property "featured_artists" r))
  { distributorReleaseId := (payloadReleaseId r).getD ((payloadTitle r).getD "unknown")
    title := (payloadTitle r).getD ""
    primaryArtist := artistRaw
    featuredArtists := if featuredArtists.length = 0 then none else some featuredArtists
    upc := readField H source upcValid upcRaw upcWasSupplied
    artworkUrl := readField H source artValid artRaw artworkWasSupplied
    releaseDate := readField H source dateRaw dateRaw releaseDateWasSupplied
    uploadDate := some (readField H source uploadRaw uploadRaw uploadDateWasSupplied)
    label := some (readField H source labelRaw labelRaw labelWasSupplied)
    submittedStores := none
    tracks }

/-- Parse a payload into the canonical release model. -/
def parseDistroKidReleaseV1 (payload : Json) : Except String CanonicalDistributorRelease :=
  match locateReleaseObject payload with
  | none => .error "no release object found in payload"
  | some r =>
    let issues := ReleaseSchemaV1 [] (some (.obj r))
    if issues ≠ [] then
      .error ("release failed schema validation: " ++ ", ".intercalate
        ((issues.take 3).map fun path =>
          if ".".intercalate path = "" then "(root)" else ".".intercalate path))
    else if (payloadReleaseId r).isNone ∧ (payloadTitle r).isNone ∧ (rawTracks r).length = 0 then
      .error "release has no id, title, or tracks"
    else (parseTracks H source r).map (readRelease H source r)

end Parse

/-! ### The registry of parsers -/

structure ParserVariant where
  version : String
  parse : Host → MetadataSource → Json → Except String CanonicalDistributorRelease

/-- Newest first. -/
def PARSER_VARIANTS : List ParserVariant := [⟨PARSER_VERSION, parseDistroKidReleaseV1⟩]

/-- The release that the first variant reads, or why none does. -/
def parseWith (variants : List ParserVariant) (H : Host) (source : MetadataSource) (payload : Json) :
    Except String CanonicalDistributorRelease :=
  match variants with
  | [] => .error ""
  | variant :: older =>
    match variant.parse H source payload with
    | .ok release => .ok release
    | .error message =>
      match parseWith older H source payload with
      | .ok release => .ok release
      | .error detail =>
        .error (variant.version ++ ": " ++ message ++ if older = [] then "" else " | " ++ detail)

/-- `ParserRegistry.parse` over the variants there are. -/
def parse (H : Host) (source : MetadataSource) (payload : Json) :
    Except String CanonicalDistributorRelease :=
  parseWith PARSER_VARIANTS H source payload

end CatalogSentinel.Extract
