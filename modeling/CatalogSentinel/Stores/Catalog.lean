import CatalogSentinel.Data.Loop
import CatalogSentinel.Stores.Web

/-!
Catalogues of an artist, and the pages of one that follow each other by cursors which
upstream chooses. Every page that the loop goes on from has brought a row, so that the limit
bounds the pages whatever the cursors are.
-/

namespace CatalogSentinel.Stores

open Data (Pass)

variable {α : Type}

/-- A track as it appears on a store; `none` is `null`. -/
structure StoreTrack (α : Type) where
  title : α
  primaryArtist : α
  album : Option α
  isrc : Option String
  url : Option α
  releaseDate : Option α
  artworkUrl : Option α

structure Artist (α : Type) where
  id : String
  name : α
  url : α

structure StoreCatalogPagination where
  total : Option ℚ
  fetched : ℕ
  complete : Bool
  deriving DecidableEq, Repr

structure StoreArtistCatalog (α : Type) where
  store : String
  artist : Option (Artist α)
  tracks : List (StoreTrack α)
  pagination : StoreCatalogPagination
  warnings : List String

def storeProviderHardMaxTracks : ℕ := 100000

/-- A limit that is not finite is none that is let through either. -/
def normalizeStoreCatalogLimit (value : Option ℚ) : Except Failure ℕ :=
  let resolved := value.getD 20000
  if resolved.den = 1 ∧ 1 ≤ resolved ∧ resolved ≤ storeProviderHardMaxTracks then .ok resolved.num.toNat
  else .error ⟨"Error", s!"catalog limit must be an integer between 1 and {storeProviderHardMaxTracks}."⟩

/-- The tracks that are listed, and the keys under which they are. -/
structure Listing where
  tracks : List (StoreTrack Json)
  seen : List String

def Listing.add (listing : Listing) (key : String) (track : StoreTrack Json) : Listing :=
  if key ∈ listing.seen then listing else ⟨listing.tracks ++ [track], listing.seen ++ [key]⟩

/-- `normalizeIsrc` of what upstream wrote. -/
def isrcOf (letters : Letters) (value : Option Json) : Except TypeError (Option String) :=
  if Json.truthy value then (Json.asText value).map fun s => normalizeIsrc letters (some s) else .ok none

/-- `normalizeTitle` of what upstream wrote. -/
def titleOf (letters : Letters) (value : Option Json) : Except TypeError String :=
  (Json.asText value).map (normalizeTitle letters)

theorem isrcOf_total (letters : Letters) {value : Option Json} (h : Json.textOrFalse value = true) :
    ∃ isrc, isrcOf letters value = .ok isrc := by
  rw [isrcOf]
  split
  · next htruthy =>
    simp only [Json.textOrFalse, htruthy, Bool.not_true, Bool.false_or] at h
    obtain ⟨s, hs⟩ := Json.exists_of_isOk h
    exact ⟨_, by rw [hs]; rfl⟩
  · exact ⟨none, rfl⟩

/-- `/incomplete/i.test(warning)` -/
def saysIncomplete (warning : String) : Bool :=
  (warning.toList.map Char.toLower).tails.any ("incomplete".toList).isPrefixOf

/-! ### Pages behind cursors -/

/-- What is taken from the rows of a page. -/
structure PageRead where
  examined : ℕ
  truncated : Bool
  total : Option ℚ
  unusable : ℕ
  listing : Listing

structure Progress where
  session : Session
  next : Option String
  visited : List String
  fetched : ℕ
  total : Option ℚ
  complete : Bool
  unusable : ℕ
  listing : Listing
  warnings : List String

def Progress.incomplete (s : Progress) (warning : Option String) : Progress :=
  { s with complete := false, warnings := s.warnings ++ warning.toList }

/-- A provider whose pages carry the cursor of the next one, and what it warns of. -/
structure CursorApi where
  getJson : Session → String → Option Json × Session
  malformed : Json → Option String
  readRows : Json → ℕ → Option ℚ → Listing → Except TypeError PageRead
  cursor : Json → Option Json
  validatedCursor : Option Json → Option String
  repeated : String
  requestFailed : Session → String
  invalidCursor : String
  notAdvanced : String

/-- Where a loop has come to, and the error that ended it, if one did. -/
abbrev Ended := Progress × Option TypeError

variable (api : CursorApi) (limit : ℕ)

/-- Where to go on from a page whose rows have been read. -/
def CursorApi.advance (s : Progress) (page : Json) (read : PageRead) : Pass Progress Ended :=
  let cursor := api.cursor page
  let next := api.validatedCursor cursor
  if Json.truthy cursor && next.isNone then
    .done ({ s.incomplete (some api.invalidCursor) with next := none }, none)
  else if read.truncated || (limit ≤ s.fetched && next.isSome) then
    .done ({ s.incomplete none with next := none }, none)
  else if read.examined = 0 && next.isSome then
    .done ({ s.incomplete (some api.notAdvanced) with next := none }, none)
  else .again { s with next }

/-- `while (next && fetched < limit) { … }` -/
def CursorApi.pass (s : Progress) : Pass Progress Ended :=
  match s.next with
  | none => .done (s, none)
  | some next =>
    if limit ≤ s.fetched then .done (s, none)
    else if next ∈ s.visited then .done (s.incomplete (some api.repeated), none)
    else
      let (body, session) := api.getJson s.session next
      let s := { s with session, visited := s.visited ++ [next] }
      match page? body with
      | none => .done (s.incomplete (some (api.requestFailed session)), none)
      | some page =>
        match api.malformed page with
        | some warning => .done (s.incomplete (some warning), none)
        | none =>
          match api.readRows page (limit - s.fetched) s.total s.listing with
          | .error error => .done (s, some error)
          | .ok read =>
            api.advance limit
              { s with
                fetched := s.fetched + read.examined
                total := read.total
                complete := s.complete && read.unusable = 0
                unusable := s.unusable + read.unusable
                listing := read.listing } page read

def Progress.start (session : Session) (url : String) : Progress :=
  { session, next := some url, visited := [], fetched := 0, total := none, complete := true, unusable := 0,
    listing := ⟨[], []⟩, warnings := [] }

/-! ### Every loop over cursors ends -/

variable {api limit}

/-- The page that a pass from here is given, if it asks for one. -/
def CursorApi.PageAt (api : CursorApi) (limit : ℕ) (s : Progress) (page : Json) : Prop :=
  ∃ next, s.next = some next ∧ s.fetched < limit ∧ next ∉ s.visited ∧
    page? (api.getJson s.session next).1 = some page

/-- The rows that are still wanted, and the pass that finds no next page. -/
def CursorApi.potential (limit : ℕ) (s : Progress) : ℕ :=
  (limit - s.fetched) + if s.next.isSome then 1 else 0

theorem CursorApi.advance_again {s s' : Progress} {page : Json} {read : PageRead}
    (h : api.advance limit s page read = .again s') :
    s'.session = s.session ∧ s'.fetched = s.fetched ∧ s'.visited = s.visited ∧
      (s'.next.isSome → s.fetched < limit ∧ 0 < read.examined) := by
  simp only [CursorApi.advance] at h
  split at h
  · simp at h
  · split at h
    · simp at h
    · next htruncated =>
      split at h
      · simp at h
      · next hexamined =>
        rw [Pass.again.injEq] at h
        subst h
        refine ⟨rfl, rfl, rfl, fun hnext => ?_⟩
        simp only [hnext, Bool.or_eq_true, Bool.and_true, decide_eq_true_eq, not_or, not_le] at htruncated
        simp only [hnext, Bool.and_true, decide_eq_true_eq] at hexamined
        exact ⟨htruncated.2, Nat.pos_of_ne_zero hexamined⟩

theorem CursorApi.advance_done {s : Progress} {page : Json} {read : PageRead} {ended : Ended}
    (h : api.advance limit s page read = .done ended) : ended.1.session = s.session ∧ ended.2 = none := by
  simp only [CursorApi.advance] at h
  split at h
  · obtain rfl := Pass.done.inj h
    exact ⟨rfl, rfl⟩
  · split at h
    · obtain rfl := Pass.done.inj h
      exact ⟨rfl, rfl⟩
    · split at h
      · obtain rfl := Pass.done.inj h
        exact ⟨rfl, rfl⟩
      · simp at h

/-- A pass that asks for a page goes on with more rows or without a next page. -/
theorem CursorApi.pass_again {s s' : Progress} (h : api.pass limit s = .again s') :
    ∃ next body session, s.next = some next ∧ s.fetched < limit ∧
      api.getJson s.session next = (body, session) ∧ s'.session = session ∧ s.fetched ≤ s'.fetched ∧
      (s'.next.isSome → s'.fetched < limit ∧ s.fetched < s'.fetched) := by
  simp only [CursorApi.pass] at h
  split at h
  · simp at h
  · next next hnext =>
    split at h
    · simp at h
    · next hroom =>
      split at h
      · simp at h
      · obtain ⟨⟨body, session⟩, hget⟩ : ∃ r, api.getJson s.session next = r := ⟨_, rfl⟩
        simp only [hget] at h
        split at h
        · simp at h
        · split at h
          · simp at h
          · split at h
            · simp at h
            · next read _ =>
              obtain ⟨hsession, hfetched, -, hmore⟩ := CursorApi.advance_again h
              refine ⟨next, body, session, hnext, not_le.1 hroom, hget, hsession, ?_, fun hsome => ?_⟩
              · rw [hfetched]
                exact Nat.le_add_right _ _
              · obtain ⟨hbelow, hread⟩ := hmore hsome
                rw [hfetched]
                exact ⟨hbelow, by dsimp only; omega⟩

/-- A pass that ends the loop has asked for one page at most, and read it unless it throws. -/
theorem CursorApi.pass_done {s : Progress} {ended : Ended} (h : api.pass limit s = .done ended) :
    (ended.1.session = s.session ∨ ∃ next, ended.1.session = (api.getJson s.session next).2) ∧
      (ended.2 = none ∨ ∃ page error, api.PageAt limit s page ∧ api.malformed page = none ∧
        api.readRows page (limit - s.fetched) s.total s.listing = .error error) := by
  simp only [CursorApi.pass] at h
  split at h
  · obtain rfl := Pass.done.inj h
    exact ⟨.inl rfl, .inl rfl⟩
  · next next hnext =>
    split at h
    · obtain rfl := Pass.done.inj h
      exact ⟨.inl rfl, .inl rfl⟩
    · next hroom =>
      split at h
      · obtain rfl := Pass.done.inj h
        exact ⟨.inl rfl, .inl rfl⟩
      · next hvisited =>
        split at h
        · obtain rfl := Pass.done.inj h
          exact ⟨.inr ⟨next, rfl⟩, .inl rfl⟩
        · next page hpage =>
          split at h
          · obtain rfl := Pass.done.inj h
            exact ⟨.inr ⟨next, rfl⟩, .inl rfl⟩
          · next hformed =>
            split at h
            · next error herror =>
              obtain rfl := Pass.done.inj h
              exact ⟨.inr ⟨next, rfl⟩, .inr ⟨page, error, ⟨next, hnext, not_le.1 hroom, hvisited, hpage⟩,
                hformed, herror⟩⟩
            · obtain ⟨hsession, hnone⟩ := CursorApi.advance_done h
              exact ⟨.inr ⟨next, hsession⟩, .inl hnone⟩

variable {each : ℕ}

/-- A page costs so many requests. -/
def CursorApi.Sends (api : CursorApi) (each : ℕ) : Prop :=
  ∀ s url, (api.getJson s url).2.requests ≤ s.requests + each

variable (limit) in
theorem CursorApi.pass_spends (hsends : api.Sends each) (s : Progress) :
    Data.Loop.Spends (api.pass limit) (CursorApi.potential limit) (·.session.requests)
      (fun ended : Ended => ended.1.session.requests) each s where
  again := by
    intro s' h
    obtain ⟨next, body, session, hnext, hroom, hget, hsession, hle, hmore⟩ := CursorApi.pass_again h
    have hcost := hsends s.session next
    rw [hget] at hcost
    refine ⟨?_, by simpa only [hsession] using hcost⟩
    simp only [CursorApi.potential, hnext, Option.isSome_some, if_true]
    split
    · next hsome =>
      have := hmore hsome
      omega
    · omega
  done := by
    intro ended h
    obtain ⟨hsession | ⟨next, hsession⟩, -⟩ := CursorApi.pass_done h
    · simp only [hsession, Nat.le_add_right]
    · simpa only [hsession] using hsends s.session next

/-- Every page that the loop is given, and does not stop at, can be read as far as its rows are wanted. -/
def CursorApi.ReadsAll (api : CursorApi) (limit : ℕ) (start : Progress) (readable : Json → ℕ → Bool) : Prop :=
  ∀ s page, Data.Loop.Reaches (api.pass limit) start s → api.PageAt limit s page → api.malformed page = none →
    readable page (limit - s.fetched) = true

/-- The loop ends, whatever upstream answers, and the limit bounds what it sends. It returns if
the pages can be read. -/
theorem CursorApi.ends (limit : ℕ) (hsends : api.Sends each) {readable : Json → ℕ → Bool}
    (hread : ∀ page room total listing, readable page room = true → ∃ read, api.readRows page room total listing = .ok read)
    (session : Session) (url : String) :
    ∃ s thrown, Data.Loop.run (api.pass limit) (limit + 2) (Progress.start session url) = .done (s, thrown) ∧
      s.session.requests ≤ session.requests + each * (limit + 2) ∧
      (api.ReadsAll limit (Progress.start session url) readable → thrown = none) := by
  obtain ⟨⟨s, thrown⟩, hend, hsent⟩ :=
    Data.Loop.run_ends (Progress.start session url) fun s _ => api.pass_spends limit hsends s
  refine ⟨s, thrown, hend, hsent, fun hall => ?_⟩
  refine Data.Loop.done_of_run (P := fun ended : Ended => ended.2 = none) hend fun s ended hreaches hdone => ?_
  obtain ⟨-, hnone | ⟨page, error, hpage, hformed, herror⟩⟩ := CursorApi.pass_done hdone
  · exact hnone
  · obtain ⟨read, hok⟩ := hread page _ _ _ (hall s page hreaches hpage hformed)
    rw [hok] at herror
    cases herror

/-! ### The limit that is asked for -/

/-- What a provider throws: its limit, or what upstream wrote. -/
abbrev Thrown := Failure ⊕ TypeError

/-- The catalogue of an artist who has been resolved, if the limit is let through. -/
def withLimit (value : Option ℚ) (session : Session)
    (enumerate : ℕ → Option (Except TypeError (StoreArtistCatalog Json) × Session)) :
    Option (Except Thrown (StoreArtistCatalog Json) × Session) :=
  match normalizeStoreCatalogLimit value with
  | .error failure => some (.error (.inl failure), session)
  | .ok limit => (enumerate limit).map fun (result, session) => (result.mapError .inr, session)

/-- A catalogue is returned after so many requests at most, unless the limit is thrown, before any. -/
def EndsWithin (value : Option ℚ) (run : ℕ → Option (Except Thrown (StoreArtistCatalog Json) × Session))
    (sent : ℕ) (bound : ℕ → ℕ) : Prop :=
  match normalizeStoreCatalogLimit value with
  | .error failure => ∃ fuel session, run fuel = some (.error (.inl failure), session) ∧ session.requests = sent
  | .ok limit => ∃ fuel catalog session, run fuel = some (.ok catalog, session) ∧ session.requests ≤ sent + bound limit

theorem endsWithin_withLimit {value : Option ℚ} {session : Session} {sent : ℕ} {bound : ℕ → ℕ}
    {enumerate : ℕ → ℕ → Option (Except TypeError (StoreArtistCatalog Json) × Session)}
    (hsession : session.requests = sent)
    (h : ∀ limit, normalizeStoreCatalogLimit value = .ok limit →
      ∃ fuel catalog session, enumerate fuel limit = some (.ok catalog, session) ∧
        session.requests ≤ sent + bound limit) :
    EndsWithin value (fun fuel => withLimit value session (enumerate fuel)) sent bound := by
  simp only [EndsWithin, withLimit]
  split
  · exact ⟨0, session, rfl, hsession⟩
  · next limit hlimit =>
    obtain ⟨fuel, catalog, session', hrun, hsent⟩ := h limit hlimit
    exact ⟨fuel, catalog, session', by dsimp only; rw [hrun]; rfl, hsent⟩

end CatalogSentinel.Stores
