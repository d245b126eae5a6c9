import CatalogSentinel.Stores.Catalog

/-!
The TIDAL catalogue of an artist that has been resolved: relationships page by page, with the
tracks that they name included beside them.
-/

namespace CatalogSentinel.Stores.Tidal

open Data (Pass trim)

variable (platform : Platform) (letters : Letters) (world : World)

def bearer : BearerApi where
  tokenUrl := "https://auth.tidal.com/v1/oauth2/token"
  margin := 30000
  tokenStatus := fun status => some s!"OAuth HTTP {status}"
  tokenMissing := some "OAuth response omitted access_token"
  tokenFailure := fun error => some s!"OAuth request {error.name}"
  unavailable := "OAuth token unavailable"
  refreshFailed := "OAuth token refresh failed after HTTP 401"
  status := fun status _ => s!"HTTP {status}"
  failure := fun error => s!"request {error.name}"

/-- `if (!value) return null; try { … } catch { return null; }`; only a text has `startsWith`. -/
def validatedTidalCursor (value : Option Json) : Option String :=
  match value with
  | some (.str value) =>
    if value = "" then none
    else
      let normalized := if value.startsWith "/" && !value.startsWith "/v2/" then s!"/v2{value}" else value
      match platform.parseUrl normalized (some "https://openapi.tidal.com/v2/") with
      | some url =>
        if url.origin = "https://openapi.tidal.com" && url.pathname.startsWith "/v2/" then some url.href else none
      | none => none
  | _ => none

/-- `resources.filter((resource) => resource.type === 'tracks')` -/
def tracksOf (resources : List Json) : Except TypeError (List Json) := do
  let typed ← resources.mapM fun resource => do return (resource, ← Json.read "type" (some resource))
  return (typed.filter fun typed => Json.isText typed.2 "tracks").map Prod.fst

/-- `new Map(included.map((resource) => [String(resource.id), resource]))` -/
def byId (included : List Json) : Except TypeError (List (String × Json)) :=
  included.mapM fun resource => do return (← Json.toText (resource.field "id"), resource)

/-- `resource?.attributes?.title?.trim()` -/
def trimmedTitle (resource : Option Json) : Except TypeError (Option String) :=
  let title := Json.readIf "title" (Json.readIf "attributes" resource)
  if Json.given title then (Json.asText title).map fun s => some (trim s) else .ok none

/-- The resource that a relationship names, if its title is usable. -/
def select (includedById : List (String × Json)) (relationship : Json) : Except TypeError (Option Json) := do
  let id ← Json.toText (relationship.field "id")
  let resource := (includedById.reverse.find? (·.1 = id)).map Prod.snd
  let title ← trimmedTitle resource
  return if (title.getD "") = "" then none else resource

def addTrack (artist : Artist Json) (listing : Listing) (resource : Json) : Except TypeError Listing := do
  let attributes := resource.field "attributes"
  let title := Json.readIf "title" attributes
  let isrc ← isrcOf letters (Json.readIf "isrc" attributes)
  let normalized ← titleOf letters title
  let id ← Json.toText (resource.field "id")
  return listing.add (isrc.getD normalized)
    { title := Json.orElse (.str "") title
      primaryArtist := artist.name
      album := none
      isrc := isrc
      url := some (.str s!"https://tidal.com/browse/track/{id}")
      releaseDate := Json.orElseRead (Json.readIf "releaseDate" attributes) none
      artworkUrl := none }

def readRows (artist : Artist Json) (page : Json) (room : ℕ) (total : Option ℚ) (listing : Listing) :
    Except TypeError PageRead := do
  let included ← tracksOf (← Json.rows (page.field "included"))
  let relationships ← tracksOf (← Json.asArray (page.field "data"))
  let selectedRelationships := relationships.take room
  let includedById ← byId included
  let selected ← selectedRelationships.mapM (select includedById)
  let listing ← (selected.filterMap id).foldlM (addTrack letters artist) listing
  return {
    examined := selectedRelationships.length
    truncated := selectedRelationships.length < relationships.length
    total := Json.number? (Json.readIf "total" (page.field "meta")) <|> total
    unusable := selected.countP (·.isNone)
    listing := listing }

def api (attempts : ℕ) (artist : Artist Json) : CursorApi where
  getJson := bearerJson platform world bearer attempts
  malformed := fun page =>
    match page.field "data" with
    | some (.arr _) => none
    | _ => some "TIDAL catalog response omitted its relationship data array; the catalog is incomplete."
  readRows := readRows letters artist
  cursor := fun page => Json.readIf "next" (page.field "links")
  validatedCursor := validatedTidalCursor platform
  repeated := "TIDAL returned a repeated pagination cursor; the catalog is incomplete."
  requestFailed := fun s =>
    let error := match s.lastError with | some error => s!" ({error})" | none => ""
    s!"TIDAL catalog page request failed{error}; the catalog is incomplete."
  invalidCursor := "TIDAL returned an invalid pagination cursor; the catalog is incomplete."
  notAdvanced := "TIDAL pagination did not advance; the catalog is incomplete."

def firstPage (country : String) (artist : Artist Json) : String :=
  s!"https://openapi.tidal.com/v2/artists/{platform.encodeURIComponent artist.id}/relationships/tracks?collapseBy=NONE&countryCode={country}&include=tracks"

/-- The catalogue that the pages come to. -/
def catalog (artist : Artist Json) (profileAnchored : Bool) (s : Progress) : StoreArtistCatalog Json :=
  let complete := s.complete && !(s.next.isSome || s.total.any fun total => (s.fetched : ℚ) < total) && profileAnchored
  let plural := if s.unusable = 1 then "" else "s"
  let warnings := s.warnings ++
    (if 0 < s.unusable then
      [s!"TIDAL omitted usable track metadata for {s.unusable} catalog relationship{plural}; the catalog is incomplete."]
    else []) ++
    (if profileAnchored then []
    else ["TIDAL artist identity was resolved by name only; the catalogue is incomplete for absence decisions until an exact TIDAL_PROFILE_URL is configured."])
  let warnings := warnings ++
    if !complete && !warnings.any saysIncomplete then
      ["TIDAL catalog was capped before every page was fetched; the catalog is incomplete."]
    else []
  let warnings := warnings ++
    if s.listing.tracks.isEmpty && complete then ["TIDAL returned the artist but no tracks."] else []
  { store := "TIDAL"
    artist := some artist
    tracks := s.listing.tracks
    pagination := ⟨s.total, s.fetched, complete⟩
    warnings := warnings }

/-- The loop, with so many passes at most; what it comes to, if it has ended. -/
def enumerate (attempts : ℕ) (country : String) (artist : Artist Json) (profileAnchored : Bool) (limit : ℕ)
    (session : Session) (fuel : ℕ) : Option (Except TypeError (StoreArtistCatalog Json) × Session) :=
  match Data.Loop.run ((api platform letters world attempts artist).pass limit) fuel
      (Progress.start session (firstPage platform country artist)) with
  | .again _ => none
  | .done (s, some error) => some (.error error, s.session)
  | .done (s, none) => some (.ok (catalog artist profileAnchored s), s.session)

/-- From where the artist has been resolved. -/
def listArtistCatalog (attempts : ℕ) (country : String) (artist : Artist Json) (profileAnchored : Bool) (limit : Option ℚ)
    (session : Session) (fuel : ℕ) : Option (Except Thrown (StoreArtistCatalog Json) × Session) :=
  withLimit limit session fun limit =>
    enumerate platform letters world attempts country artist profileAnchored limit session fuel

/-! ### Pages that can be read -/

def isTrack (resource : Json) : Bool := Json.isText (resource.field "type") "tracks"

def hasId (resource : Json) : Bool := (Json.toText (resource.field "id")).isOk

def idText (resource : Json) : String := (Json.toText (resource.field "id")).toOption.getD ""

/-- The resource that is found for a relationship. -/
def resourceFor (tracks : List Json) (relationship : Json) : Option Json :=
  tracks.reverse.find? fun track => idText track = idText relationship

/-- A resource with a title and an ISRC of the types that are declared, as far as they are there. -/
def readableResource (resource : Json) : Bool :=
  Json.textOrNothing (Json.readIf "title" (resource.field "attributes")) &&
    Json.textOrFalse (Json.readIf "isrc" (resource.field "attributes"))

/-- The type of every row is read, the id of every included track and of so many relationships,
and the resources that these name. -/
def readable (page : Json) (room : ℕ) : Bool :=
  match Json.rows (page.field "included"), page.field "data" with
  | .ok included, some (.arr data) =>
    let tracks := included.filter isTrack
    let relationships := (data.filter isTrack).take room
    (included ++ data).all (fun row => Json.given (some row)) && (tracks ++ relationships).all hasId &&
      relationships.all fun relationship => (resourceFor tracks relationship).all readableResource
  | _, _ => false

variable {platform letters world}

theorem tracksOf_ok {resources : List Json} (h : ∀ r ∈ resources, Json.given (some r) = true) :
    tracksOf resources = .ok (resources.filter isTrack) := by
  have htyped : (resources.mapM fun resource => do return (resource, ← Json.read "type" (some resource))) =
      (.ok (resources.map fun r => (r, r.field "type")) : Except TypeError _) :=
    mapM_ok fun r hr => by
      rw [Json.read_ok (h r hr)]
      rfl
  rw [tracksOf, htyped]
  simp only [bind, Except.bind, pure, Except.pure, List.filter_map, List.map_map, Function.comp_def]
  rw [List.map_id']
  rfl

theorem toText_id {resource : Json} (h : hasId resource = true) :
    Json.toText (resource.field "id") = .ok (idText resource) := by
  obtain ⟨id, hid⟩ := Json.exists_of_isOk h
  rw [idText, hid]
  rfl

theorem byId_ok {tracks : List Json} (h : ∀ r ∈ tracks, hasId r = true) :
    byId tracks = .ok (tracks.map fun r => (idText r, r)) :=
  mapM_ok fun r hr => by
    rw [toText_id (h r hr)]
    rfl

theorem trimmedTitle_total {resource : Json} (hgiven : Json.given (some resource) = true)
    (h : readableResource resource = true) :
    ∃ title, trimmedTitle (some resource) = .ok title ∧
      (title.getD "" ≠ "" → ∃ s, Json.readIf "title" (resource.field "attributes") = some (.str s)) := by
  simp only [readableResource, Bool.and_eq_true] at h
  have hfield : Json.readIf "attributes" (some resource) = resource.field "attributes" := by
    cases resource with
    | null => simp [Json.given] at hgiven
    | bool | num | str | arr | obj => rfl
  simp only [trimmedTitle, hfield]
  cases hread : Json.readIf "title" (resource.field "attributes") with
  | none => exact ⟨none, rfl, fun h => absurd rfl h⟩
  | some title =>
    cases title with
    | null => exact ⟨none, rfl, fun h => absurd rfl h⟩
    | str s => exact ⟨_, rfl, fun _ => ⟨s, rfl⟩⟩
    | bool | num | arr | obj => simp [hread, Json.textOrNothing] at h

/-- A resource that is listed has an id, a title and an ISRC that can be read. -/
structure Selected (resource : Json) : Prop where
  id : hasId resource = true
  isrc : Json.textOrFalse (Json.readIf "isrc" (resource.field "attributes")) = true
  title : ∃ s, Json.readIf "title" (resource.field "attributes") = some (.str s)

theorem select_total {tracks : List Json} {relationship : Json}
    (htracks : ∀ r ∈ tracks, Json.given (some r) = true ∧ hasId r = true) (hid : hasId relationship = true)
    (h : (resourceFor tracks relationship).all readableResource = true) :
    ∃ resource, select (tracks.map fun r => (idText r, r)) relationship = .ok resource ∧ ∀ r ∈ resource, Selected r := by
  have hfound : ((tracks.map fun r => (idText r, r)).reverse.find? (·.1 = idText relationship)).map Prod.snd =
      resourceFor tracks relationship := by
    rw [← List.map_reverse, List.find?_map, Option.map_map, resourceFor]
    exact congrFun Option.map_id _
  simp only [select, toText_id hid, hfound, bind, Except.bind, pure, Except.pure]
  cases hresource : resourceFor tracks relationship with
  | none => exact ⟨none, rfl, fun r hr => by cases hr⟩
  | some resource =>
    have hmem := htracks resource (List.mem_reverse.1 (List.mem_of_find?_eq_some hresource))
    have hreadable : readableResource resource = true := by simpa only [hresource, Option.all_some] using h
    obtain ⟨title, htitle, htext⟩ := trimmedTitle_total hmem.1 hreadable
    simp only [htitle]
    refine ⟨_, rfl, fun r hr => ?_⟩
    split at hr
    · cases hr
    · next hne =>
      obtain rfl := Option.some.inj hr
      simp only [readableResource, Bool.and_eq_true] at hreadable
      exact ⟨hmem.2, hreadable.2, htext hne⟩

theorem addTrack_total {artist : Artist Json} {listing : Listing} {resource : Json} (h : Selected resource) :
    ∃ listing', addTrack letters artist listing resource = .ok listing' := by
  obtain ⟨isrc, hisrc⟩ := isrcOf_total letters h.isrc
  obtain ⟨s, hs⟩ := h.title
  simp only [addTrack, hisrc, hs, titleOf, Json.asText, toText_id h.id, bind, Except.bind, Except.map, pure, Except.pure]
  exact ⟨_, rfl⟩

/-- The rows of a readable page are read. -/
theorem readRows_total {artist : Artist Json} {page : Json} {room : ℕ} (h : readable page room = true)
    (total : Option ℚ) (listing : Listing) : ∃ read, readRows letters artist page room total listing = .ok read := by
  simp only [readable] at h
  split at h
  · next included data hincluded hdata =>
    simp only [Bool.and_eq_true, List.all_eq_true, List.mem_append] at h
    obtain ⟨⟨hgiven, hids⟩, hnamed⟩ := h
    have htracks : ∀ r ∈ included.filter isTrack, Json.given (some r) = true ∧ hasId r = true :=
      fun r hr => ⟨hgiven r (.inl (List.mem_of_mem_filter hr)), hids r (.inl hr)⟩
    have hselect := fun r hr => select_total htracks (hids r (.inr hr)) (hnamed r hr)
    obtain ⟨selected, hselected, hmem⟩ := mapM_total _ fun r hr => (hselect r hr).imp fun _ h => h.1
    obtain ⟨listing', hlisting⟩ := foldlM_total (selected.filterMap id) (f := addTrack letters artist)
      (fun listing r hr => by
        obtain ⟨chosen, hchosen, hr⟩ := List.mem_filterMap.1 hr
        obtain ⟨relationship, hrelationship, heq⟩ := hmem chosen hchosen
        obtain ⟨resource, hresource, hall⟩ := hselect relationship hrelationship
        obtain rfl := Except.ok.inj (heq.symm.trans hresource)
        exact addTrack_total (hall r hr)) listing
    have hdata' : Json.asArray (page.field "data") = .ok data := by rw [hdata]; rfl
    simp only [readRows, hincluded, tracksOf_ok fun r hr => hgiven r (.inl hr), hdata',
      tracksOf_ok fun r hr => hgiven r (.inr hr), byId_ok fun r hr => (htracks r hr).2, hselected, hlisting, bind,
      Except.bind, pure, Except.pure]
    exact ⟨_, rfl⟩
  · cases h

/-! ### The loop ends -/

theorem api_sends (attempts : ℕ) (artist : Artist Json) :
    (api platform letters world attempts artist).Sends (4 * attempts) := fun _ _ => bearerJson_requests rfl

/-- The catalogue is enumerated with at most so many requests, and returned if the pages can be read. -/
theorem enumerate_ends (platform : Platform) (letters : Letters) (world : World) (attempts : ℕ)
    (country : String) (artist : Artist Json) (profileAnchored : Bool)
    (limit : ℕ) (session : Session) :
    ∃ result session', enumerate platform letters world attempts country artist profileAnchored limit session
        (limit + 2) = some (result, session') ∧
      session'.requests ≤ session.requests + 4 * attempts * (limit + 2) ∧
      ((api platform letters world attempts artist).ReadsAll limit
          (Progress.start session (firstPage platform country artist)) readable → ∃ catalog, result = .ok catalog) := by
  obtain ⟨s, thrown, hend, hsent, hreturns⟩ := (api platform letters world attempts artist).ends limit
    (api_sends attempts artist) (fun _ _ total listing h => readRows_total h total listing) session
    (firstPage platform country artist)
  cases thrown with
  | none => exact ⟨_, _, by rw [enumerate, hend], hsent, fun _ => ⟨_, rfl⟩⟩
  | some error => exact ⟨_, _, by rw [enumerate, hend], hsent, fun h => nomatch hreturns h⟩

end CatalogSentinel.Stores.Tidal
