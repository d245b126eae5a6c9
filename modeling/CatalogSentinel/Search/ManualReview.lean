import CatalogSentinel.Data.Buffers
import CatalogSentinel.Search.Presence

/-!
The queue of cells that a person should look at. Its items are derived from the record, and an item's
id holds the cell that the decision is written back to: the track's index and the platform, as text,
as bytes, in sixty-four letters. A lone surrogate in a platform's name is replaced on the way.
-/

namespace CatalogSentinel.Search

open CatalogSentinel.Data CatalogSentinel.Data.Utf16

def ManualReviewDecision.text : ManualReviewDecision → String
  | confirmedPresent => "CONFIRMED_PRESENT"
  | confirmedMissing => "CONFIRMED_MISSING"
  | wrongProfile => "WRONG_PROFILE"
  | dismissed => "DISMISSED"

structure ManualReviewItem where
  id : Utf16
  scanId : String
  platform : Utf16
  trackIndex : ℕ
  trackTitle : String
  album : Option String
  isrc : Option String
  status : Status
  confidence : ℚ
  reason : String
  query : String
  candidateUrl : Option String
  resolved : Bool
  reviewDecision : Option ManualReviewDecision
  reviewedBy : Option String
  reviewedAt : Option String
  reviewNotes : Option String

/-! ### Ids -/

def colon : CodeUnit := unit 58

def encodeItemId (trackIndex : ℕ) (platform : Utf16) : Utf16 :=
  base64url (utf8 (ofString s!"{trackIndex}::" ++ platform))

/-- `text.split('::')` -/
def splitColons : Utf16 → List Utf16
  | u :: v :: rest =>
    if u = colon ∧ v = colon then [] :: splitColons rest
    else
      match splitColons (v :: rest) with
      | [] => [[u]]
      | part :: parts => (u :: part) :: parts
  | rest => [rest]

/-- `parts.join('::')` -/
def joinColons (parts : List Utf16) : Utf16 := [colon, colon].intercalate parts

section Ids

-- The integer that the language's `Number(text)` is, where it is one.
variable (Number : Utf16 → Option ℤ)

def decodeItemId (itemId : Utf16) : Option (ReviewTarget Utf16) :=
  match splitColons (ofUtf8 (Base64Url.decode (itemId.map Fin.val))) with
  | [] => none
  | idx :: rest =>
    match Number idx with
    | none => none
    | some trackIndex =>
      let platform := joinColons rest
      if platform = [] then none else some (trackIndex, platform)

/-- An array's index is read back from its digits. -/
def ReadsIndices : Prop := ∀ n : ℕ, n < 4294967296 → Number (ofString (toString n)) = some (n : ℤ)

end Ids

/-! ### Items -/

section Items

-- The language's `value.toFixed(2)`.
variable (toFixed2 : ℚ → String)

def reasonFor (p : PerStore Utf16) : String :=
  match p.reviewDecision with
  | some decision => s!"Resolved: {decision.text}"
  | none =>
    if p.status = .unverifiable then
      "Web search could not confirm presence on this platform (no official API / weak index), verify manually."
    else s!"Low confidence ({toFixed2 p.confidence}), verify manually."

def itemOf (id artist : String) (i : ℕ) (t : CatalogTrack Utf16) (p : PerStore Utf16) : ManualReviewItem where
  id := encodeItemId i p.store
  scanId := id
  platform := p.store
  trackIndex := i
  trackTitle := t.title
  album := t.album
  isrc := t.isrc
  status := p.status
  confidence := p.confidence
  reason := reasonFor toFixed2 p
  query := p.reviewQuery.getD s!"{artist} {t.title}"
  candidateUrl := p.url
  resolved := p.reviewDecision.isSome
  reviewDecision := p.reviewDecision
  reviewedBy := p.reviewedBy
  reviewedAt := p.reviewedAt
  reviewNotes := p.reviewNotes

/-- Every cell that needs review, the open ones first. -/
def deriveManualReviewItems (id : String) (scan : Scan Utf16) (includeResolved : Bool) : List ManualReviewItem :=
  let items := scan.result.tracks.zipIdx.flatMap fun (t, i) => t.perStore.filterMap fun p =>
    let resolved := p.reviewDecision.isSome
    if !p.needsManualReview && !resolved then none
    else if resolved && !includeResolved then none
    else some (itemOf toFixed2 id scan.artist i t p)
  items.mergeSort fun a b => !a.resolved || b.resolved

variable {toFixed2} {id : String} {scan : Scan Utf16} {item : ManualReviewItem}

/-- An open item is a cell that needs review and has not been decided. -/
theorem mem_deriveManualReviewItems : item ∈ deriveManualReviewItems toFixed2 id scan false ↔
    ∃ i t p, scan.result.tracks[i]? = some t ∧ p ∈ t.perStore ∧ p.needsManualReview = true ∧
      p.reviewDecision = none ∧ item = itemOf toFixed2 id scan.artist i t p := by
  unfold deriveManualReviewItems
  rw [List.mem_mergeSort, List.mem_flatMap]
  constructor
  · rintro ⟨⟨t, i⟩, ht, hitem⟩
    obtain ⟨p, hp, hsome⟩ := List.mem_filterMap.1 hitem
    refine ⟨i, t, p, List.mem_zipIdx_iff_getElem?.1 ht, hp, ?_⟩
    cases hdecision : p.reviewDecision with
    | some decision => simp [hdecision] at hsome
    | none =>
      cases hneeds : p.needsManualReview with
      | false => simp [hdecision, hneeds] at hsome
      | true => exact ⟨rfl, rfl, by simpa [hdecision, hneeds] using hsome.symm⟩
  · rintro ⟨i, t, p, ht, hp, hneeds, hdecision, rfl⟩
    refine ⟨(t, i), List.mem_zipIdx_iff_getElem?.2 ht, List.mem_filterMap.2 ⟨p, hp, ?_⟩⟩
    simp [hdecision, hneeds]

end Items

/-! ### An id is read back -/

section ReadBack

variable {Number : Utf16 → Option ℤ}

theorem splitColons_digits {ds : Utf16} (hds : colon ∉ ds) (rest : Utf16) :
    splitColons (ds ++ colon :: colon :: rest) = ds :: splitColons rest := by
  induction ds with
  | nil => simp [splitColons]
  | cons d ds ih =>
    have hd : d ≠ colon := fun h => hds (h ▸ List.mem_cons_self)
    obtain ⟨v, vs, hnext⟩ : ∃ v vs, ds ++ colon :: colon :: rest = v :: vs := by
      cases ds <;> exact ⟨_, _, rfl⟩
    have htail := ih fun h => hds (List.mem_cons_of_mem _ h)
    rw [hnext] at htail
    rw [List.cons_append, hnext, splitColons, if_neg fun h => hd h.1, htail]

theorem splitColons_ne_nil (text : Utf16) : splitColons text ≠ [] := by
  unfold splitColons
  split
  · split
    · exact List.cons_ne_nil _ _
    · split <;> exact List.cons_ne_nil _ _
  · exact List.cons_ne_nil _ _

theorem joinColons_splitColons (text : Utf16) : joinColons (splitColons text) = text := by
  unfold joinColons
  induction text using splitColons.induct with
  | case1 u v rest hcolons ih =>
    obtain ⟨part, parts, hparts⟩ := List.exists_cons_of_ne_nil (splitColons_ne_nil rest)
    rw [splitColons, if_pos hcolons, hparts, List.intercalate_cons_cons, ← hparts, ih, hcolons.1, hcolons.2]
    rfl
  | case2 u v rest hcolons hsplit ih => exact absurd hsplit (splitColons_ne_nil _)
  | case3 u v rest hcolons part parts hsplit ih =>
    rw [splitColons, if_neg hcolons, hsplit]
    rw [hsplit] at ih
    cases parts with
    | nil =>
      rw [List.intercalate_singleton] at ih ⊢
      rw [ih]
    | cons next parts =>
      rw [List.intercalate_cons_cons] at ih ⊢
      rw [List.cons_append, List.cons_append, ih]
  | case4 rest hshort =>
    rw [splitColons, List.intercalate_singleton]
    exact hshort

theorem toString_toList (n : ℕ) : (toString n).toList = Nat.toDigits 10 n := by
  rw [Nat.toString_eq_repr, Nat.toList_repr]

theorem colon_notMem_index (n : ℕ) : colon ∉ ofString (toString n) := by
  rw [ofString, toString_toList]
  intro h
  obtain ⟨ch, hch, hcolon⟩ := List.mem_flatMap.1 h
  have hdigit : ch.isDigit = true := Nat.isDigit_of_mem_toDigits (by decide) (by decide) hch
  obtain ⟨hlow, hhigh⟩ : 48 ≤ ch.toNat ∧ ch.toNat ≤ 57 := by simpa [Char.isDigit, UInt32.le_iff_toNat_le] using hdigit
  have hbasic : ch.toNat < 0x10000 := by omega
  rw [ofChar, if_pos hbasic, List.mem_singleton] at hcolon
  have hval : (58 : ℕ) = ch.toNat := by
    have hunit := congrArg Fin.val hcolon
    rwa [colon, unit_val (by decide), unit_val hbasic] at hunit
  omega

theorem decodeItemId_text (Number : Utf16 → Option ℤ) (i : ℕ) (platform : Utf16) :
    decodeItemId Number (encodeItemId i platform) = (Number (ofString (toString i))).bind fun trackIndex =>
      if platform = [] then none else some (trackIndex, toWellFormed platform) := by
  have htext : ofString s!"{i}::" = ofString (toString i) ++ [colon, colon] := ofString_append _ _
  unfold decodeItemId encodeItemId
  rw [base64url_codes, Base64Url.decode_encode, ofUtf8_utf8, toWellFormed_ofString_append, htext, List.append_assoc,
    List.cons_append, List.singleton_append, splitColons_digits (colon_notMem_index i)]
  dsimp only
  rw [joinColons_splitColons]
  simp only [toWellFormed_eq_nil]
  cases Number (ofString (toString i)) <;> rfl

/-- An item's id is read back as the cell that it was made for, up to the lone surrogates of the
platform's name, unless that name is empty. -/
theorem decodeItemId_encodeItemId (hNumber : ReadsIndices Number) {i : ℕ} (hi : i < 4294967296)
    (platform : Utf16) : decodeItemId Number (encodeItemId i platform) =
      if platform = [] then none else some ((i : ℤ), toWellFormed platform) := by
  rw [decodeItemId_text, hNumber i hi, Option.bind_some]

end ReadBack

/-! ### A decision -/

section Decision

variable {Number : Utf16 → Option ℤ} {toFixed2 : ℚ → String} {id : String} {scan : Scan Utf16}
variable {item : ManualReviewItem}

/-- The track at `j` with its cells of the platform rewritten, where it is the one at `i`. -/
theorem getElem?_reviewTracks (tracks : List (CatalogTrack Utf16)) (i : ℕ) (platform : Utf16)
    (decision : ManualReviewDecision) (opts : ReviewOptions) (j : ℕ) :
    (reviewTracks tracks ((i : ℤ), platform) decision opts)[j]? = (tracks[j]?).map fun t =>
      { t with perStore := t.perStore.map fun p =>
          if j = i ∧ p.store = platform then p.review decision opts else p } := by
  unfold reviewTracks
  rw [List.getElem?_mapIdx]
  refine congrArg (fun f => Option.map f tracks[j]?) (funext fun t => ?_)
  by_cases hj : j = i
  · subst hj
    rw [if_pos rfl]
    unfold CatalogTrack.review
    simp only [true_and]
  · have hcast : (j : ℤ) ≠ i := Nat.cast_injective.ne hj
    rw [if_neg hcast]
    simp only [hj, false_and, if_false, List.map_id']

/-- A decided cell is of no open item. -/
theorem not_open_of_decided {tracks : List (CatalogTrack Utf16)} {i : ℕ} {platform : Utf16}
    {decision : ManualReviewDecision} {opts : ReviewOptions}
    (htracks : scan.result.tracks = reviewTracks tracks ((i : ℤ), platform) decision opts)
    (hitem : item ∈ deriveManualReviewItems toFixed2 id scan false) :
    ¬ (item.trackIndex = i ∧ item.platform = platform) := by
  obtain ⟨j, t, p, ht, hp, -, hopen, rfl⟩ := mem_deriveManualReviewItems.1 hitem
  rw [htracks, getElem?_reviewTracks] at ht
  obtain ⟨t₀, -, rfl⟩ := Option.map_eq_some_iff.1 ht
  obtain ⟨p₀, -, rfl⟩ := List.mem_map.1 hp
  show ¬ (j = i ∧ _)
  rintro ⟨rfl, hstore⟩
  have hsame : (if j = j ∧ p₀.store = platform then p₀.review decision opts else p₀).store = p₀.store := by
    split <;> rfl
  have hstore' : p₀.store = platform := hsame.symm.trans hstore
  rw [if_pos ⟨rfl, hstore'⟩] at hopen
  cases hopen

/-- Manual review write-back, for platforms whose name is a well-formed text. -/
theorem review_written_back (hNumber : ReadsIndices Number) (hlength : scan.result.tracks.length ≤ 4294967295)
    (hitem : item ∈ deriveManualReviewItems toFixed2 id scan false) (hplatform : item.platform ≠ [])
    (hwell : IsWellFormed item.platform) (decision : ManualReviewDecision) (opts : ReviewOptions) :
    decodeItemId Number item.id = some ((item.trackIndex : ℤ), item.platform) ∧
    ∃ result : CatalogResult Utf16,
      applyManualReviewDecision scan.result (decodeItemId Number item.id) decision opts = some result ∧
      (∀ i : ℕ, result.tracks[i]? = (scan.result.tracks[i]?).map fun t =>
        { t with perStore := t.perStore.map fun p =>
            if i = item.trackIndex ∧ p.store = item.platform then p.review decision opts else p }) ∧
      result = { scan.result with tracks := result.tracks, summary := summaryOf result.tracks } ∧
      ∀ other ∈ deriveManualReviewItems toFixed2 id { scan with result := result } false,
        ¬ (other.trackIndex = item.trackIndex ∧ other.platform = item.platform) ∧
        (IsWellFormed other.platform → other.id ≠ item.id) := by
  obtain ⟨i, t, p, ht, hp, -, -, rfl⟩ := mem_deriveManualReviewItems.1 hitem
  have hi : i < 4294967296 := by
    have hlt := (List.getElem?_eq_some_iff.1 ht).1
    omega
  dsimp only [itemOf] at hplatform hwell ⊢
  have hname : toWellFormed p.store = p.store := hwell
  have hdecode : decodeItemId Number (encodeItemId i p.store) = some ((i : ℤ), p.store) := by
    rw [decodeItemId_encodeItemId hNumber hi, if_neg hplatform, hname]
  have hmatches : ReviewTarget.matches ((i : ℤ), p.store) scan.result.tracks = true :=
    ReviewTarget.matches_iff.2 ⟨i, rfl, p, mem_cells.2 ⟨t, ht, hp, rfl⟩⟩
  refine ⟨hdecode, { scan.result with
    tracks := reviewTracks scan.result.tracks ((i : ℤ), p.store) decision opts
    summary := summaryOf (reviewTracks scan.result.tracks ((i : ℤ), p.store) decision opts) },
    ?_, fun j => getElem?_reviewTracks .., rfl, fun other hother => ?_⟩
  · rw [hdecode, applyManualReviewDecision_of_matches hmatches]
  · have hfresh := not_open_of_decided rfl hother
    refine ⟨hfresh, fun hwell' hid => ?_⟩
    obtain ⟨j, t', p', ht', hp', -, -, rfl⟩ := mem_deriveManualReviewItems.1 hother
    dsimp only [itemOf] at hfresh hwell' hid
    have hname' : toWellFormed p'.store = p'.store := hwell'
    have hj : j < 4294967296 := by
      have hlt := (List.getElem?_eq_some_iff.1 ht').1
      simp only [reviewTracks, List.length_mapIdx] at hlt
      omega
    have hsame : decodeItemId Number (encodeItemId j p'.store) = some ((i : ℤ), p.store) := by
      rw [hid, hdecode]
    rw [decodeItemId_encodeItemId hNumber hj, hname'] at hsame
    split at hsame
    · cases hsame
    · obtain ⟨hindex, hplatform'⟩ := Prod.mk.inj (Option.some.inj hsame)
      exact hfresh ⟨Nat.cast_injective hindex, hplatform'⟩

end Decision

/-- A store that a search could not confirm. -/
def unconfirmed (store : Utf16) : PerStore Utf16 where
  store := store
  status := .unverifiable
  foundArtist := none
  url := none
  confidence := 0
  needsManualReview := true
  reviewQuery := none

/-- A lone surrogate, and the character that it is replaced with. -/
def loneSurrogate : Utf16 := [unit 0xD800]

def replacement : Utf16 := [unit 0xFFFD]

/-- A store whose name holds the separator, one of no name, and one whose name is no text. -/
def unconfirmedSong : CatalogTrack Utf16 :=
  ⟨"Song", none, none, [unconfirmed (ofString "Now::Then"), unconfirmed [], unconfirmed loneSurrogate]⟩

def unconfirmedScan : Scan Utf16 where
  artist := "Artist"
  released := none
  result :=
    { stores := [ofString "Now::Then", [], loneSurrogate]
      tracks := [unconfirmedSong]
      summary := ⟨1, 0, 0, 0, 3⟩
      warnings := [] }
  deepScan := none

theorem open_unconfirmed {p : PerStore Utf16} (hp : p ∈ unconfirmedSong.perStore) (hneeds : p.needsManualReview = true)
    (hopen : p.reviewDecision = none) : itemOf (fun _ => "") "search" "Artist" 0 unconfirmedSong p ∈
      deriveManualReviewItems (fun _ => "") "search" unconfirmedScan false :=
  mem_deriveManualReviewItems.2 ⟨0, _, p, rfl, hp, hneeds, hopen, rfl⟩

/-- Digits, as the language reads them. -/
def decimal (text : Utf16) : Option ℤ :=
  if (toChars text).all Char.isDigit then some (Nat.ofDigitChars 10 (toChars text) 0) else none

theorem readsIndices_decimal : ReadsIndices decimal := by
  intro n _
  have hchars : toChars (ofString (toString n)) = Nat.toDigits 10 n := by
    rw [ofString, toChars_flatMap_ofChar, toString_toList]
  have hdigits : (Nat.toDigits 10 n).all Char.isDigit = true := by
    rw [List.all_eq_true]
    exact fun ch hch => Nat.isDigit_of_mem_toDigits (by decide) (by decide) hch
  unfold decimal
  rw [hchars, if_pos hdigits, Nat.ofDigitChars_ten_toDigits]

theorem review_written_back_named :
    decodeItemId decimal (encodeItemId 0 (ofString "Now::Then")) = some (0, ofString "Now::Then") ∧
      ∃ result : CatalogResult Utf16,
        applyManualReviewDecision unconfirmedScan.result
          (decodeItemId decimal (encodeItemId 0 (ofString "Now::Then"))) .confirmedPresent ⟨none, none, "now"⟩ =
            some result ∧ result.summary = summaryOf result.tracks := by
  obtain ⟨hread, result, happly, -, hresult, -⟩ := review_written_back readsIndices_decimal (by decide)
    (open_unconfirmed (p := unconfirmed (ofString "Now::Then")) List.mem_cons_self rfl rfl) (by decide)
    (isWellFormed_ofString _) .confirmedPresent ⟨none, none, "now"⟩
  exact ⟨hread, result, happly, congrArg CatalogResult.summary hresult⟩

/-- The items of a store without a name and of one whose name is a lone surrogate are open. The id of the
one does not decode, that of the other decodes to a name that no store has, and no decision is written
back to either. -/
theorem nameless_item :
    (∃ item ∈ deriveManualReviewItems (fun _ => "") "search" unconfirmedScan false,
      ∀ Number decision opts, decodeItemId Number item.id = none ∧
        applyManualReviewDecision unconfirmedScan.result (decodeItemId Number item.id) decision opts = none) ∧
    ∃ item ∈ deriveManualReviewItems (fun _ => "") "search" unconfirmedScan false, item.platform = loneSurrogate ∧
      ∀ Number, ReadsIndices Number → ∀ decision opts, decodeItemId Number item.id = some (0, replacement) ∧
        applyManualReviewDecision unconfirmedScan.result (decodeItemId Number item.id) decision opts = none := by
  constructor
  · refine ⟨_, open_unconfirmed (p := unconfirmed []) (by simp [unconfirmedSong]) rfl rfl, fun Number decision opts => ?_⟩
    have hnone : decodeItemId Number (encodeItemId 0 []) = none := by
      rw [decodeItemId_text]
      cases Number (ofString (toString 0)) <;> rfl
    refine ⟨hnone, ?_⟩
    show applyManualReviewDecision _ (decodeItemId Number (encodeItemId 0 [])) decision opts = none
    rw [hnone]
    rfl
  · refine ⟨_, open_unconfirmed (p := unconfirmed loneSurrogate) (by simp [unconfirmedSong]) rfl rfl, rfl,
      fun Number hNumber decision opts => ?_⟩
    have hother : decodeItemId Number (encodeItemId 0 loneSurrogate) = some (0, replacement) := by
      rw [decodeItemId_encodeItemId hNumber (by decide)]
      decide
    refine ⟨hother, ?_⟩
    show applyManualReviewDecision _ (decodeItemId Number (encodeItemId 0 loneSurrogate)) decision opts = none
    have hmiss : ReviewTarget.matches ((0 : ℤ), replacement) unconfirmedScan.result.tracks ≠ true := by decide
    rw [hother, applyManualReviewDecision, Option.bind_some, if_neg hmiss]

end CatalogSentinel.Search
