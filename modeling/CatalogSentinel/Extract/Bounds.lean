import CatalogSentinel.Checkpoint.Accepts
import CatalogSentinel.Extract.Extractor

/-!
The readings of the extractor against the checks of the checkpoint store. Times,
versions, states, and the codes that the network parser lets through always pass;
lengths, control characters, the scheme of an artwork URL and the range of a track
number are checked by the store alone.
-/

namespace CatalogSentinel.Extract

open CatalogSentinel.Data CatalogSentinel.Distrokid CatalogSentinel.Capture CatalogSentinel.Checkpoint

/-! ### What the parsers write -/

/-- The clock's reading in ISO form is short text, and a date. -/
structure Host.Keeps (H : Host) : Prop where
  text : Storable 64 H.now
  date : (H.platform.dateParse H.now).isSome = true

/-- A field as the parsers write it, with a value of this kind if it has one. -/
structure FieldRead (H : Host) (p : String → Prop) (field : MetadataField String) : Prop where
  captured : field.capturedAt = H.now
  version : Storable 256 field.parserVersion
  value : ∀ v ∈ field.value, field.status = .present ∧ p v

/-- A release as the parsers write it; the kind is that of its codes. -/
structure ReleaseRead (H : Host) (p : String → Prop) (release : CanonicalDistributorRelease) : Prop where
  upc : FieldRead H p release.upc
  artwork : FieldRead H (fun _ => True) release.artworkUrl
  releaseDate : FieldRead H (fun _ => True) release.releaseDate
  uploadDate : ∀ field ∈ release.uploadDate, FieldRead H (fun _ => True) field
  label : ∀ field ∈ release.label, FieldRead H (fun _ => True) field
  tracks : ∀ track ∈ release.tracks, FieldRead H p track.isrc

section Codes

/-- Printable text of the basic alphabet is written as it is. -/
theorem storable_of_graphic {s : String} {max : ℕ} (hne : s.toList ≠ [])
    (hlength : s.toList.length ≤ max) (h : ∀ c ∈ s.toList, 33 ≤ c.toNat ∧ c.toNat ≤ 126) :
    Storable max s := by
  refine ⟨?_, ?_, ?_⟩
  · obtain ⟨c, rest, heq⟩ := List.exists_cons_of_ne_nil hne
    have hc := h c (heq ▸ List.mem_cons_self)
    simp only [isBlank, heq, List.all_cons, isJsSpace_of_graphic hc.1 hc.2, Bool.false_and]
  · have hones : s.toList.map (fun c => if c.toNat < 0x10000 then 1 else 2) = s.toList.map fun _ => 1 := by
      refine List.map_congr_left fun c hc => ?_
      have hc' := h c hc
      rw [if_pos (by omega)]
    rw [utf16Length, hones, List.map_const', List.sum_replicate_nat, Nat.mul_one]
    exact hlength
  · rw [hasControlCharacter, List.any_eq_false]
    intro c hc
    have hc' := h c hc
    have hprintable : ¬ c.toNat < 32 := by omega
    simp [hprintable]

theorem graphic_of_digit {c : Char} (h : isAsciiDigit c = true) : 33 ≤ c.toNat ∧ c.toNat ≤ 126 := by
  simp only [isAsciiDigit, Bool.and_eq_true, decide_eq_true_eq, Char.le_def, UInt32.le_iff_toNat_le] at h
  have hlow : ('0' : Char).val.toNat = 48 := rfl
  have hhigh : ('9' : Char).val.toNat = 57 := rfl
  have hval : c.val.toNat = c.toNat := rfl
  omega

theorem graphic_of_letter {c : Char} (h : isAsciiLetter c = true) : 33 ≤ c.toNat ∧ c.toNat ≤ 126 := by
  simp only [isAsciiLetter, Bool.or_eq_true, Bool.and_eq_true, decide_eq_true_eq, Char.le_def,
    UInt32.le_iff_toNat_le] at h
  have hA : ('A' : Char).val.toNat = 65 := rfl
  have hZ : ('Z' : Char).val.toNat = 90 := rfl
  have ha : ('a' : Char).val.toNat = 97 := rfl
  have hz : ('z' : Char).val.toNat = 122 := rfl
  have hval : c.val.toNat = c.toNat := rfl
  omega

theorem graphic_toUpper {c : Char} (h : 33 ≤ c.toNat ∧ c.toNat ≤ 126) :
    33 ≤ c.toUpper.toNat ∧ c.toUpper.toNat ≤ 126 := by
  have hall : ∀ n < 127, 33 ≤ n → 33 ≤ (Char.ofNat n).toUpper.toNat ∧ (Char.ofNat n).toUpper.toNat ≤ 126 := by
    decide
  have hc := hall c.toNat (by omega) h.1
  rwa [Char.ofNat_toNat] at hc

theorem storable_of_upc {s : String} (h : UPC_RE s = true) : Storable 8192 s := by
  simp only [UPC_RE, Bool.and_eq_true, decide_eq_true_eq, List.all_eq_true] at h
  obtain ⟨⟨hlow, hhigh⟩, hdigits⟩ := h
  refine storable_of_graphic (fun hnil => ?_) (by omega) fun c hc => graphic_of_digit (hdigits c hc)
  rw [hnil] at hlow
  exact absurd hlow (by decide)

theorem graphic_of_isrc {s : String} (h : ISRC_RE s = true) :
    ∀ c ∈ s.toList, 33 ≤ c.toNat ∧ c.toNat ≤ 126 := by
  simp only [ISRC_RE, Bool.and_eq_true, decide_eq_true_eq, List.all_eq_true, Bool.or_eq_true] at h
  obtain ⟨⟨⟨-, hcountry⟩, howner⟩, hdigits⟩ := h
  intro c hc
  have hsplit : s.toList = s.toList.take 2 ++ ((s.toList.drop 2).take 3 ++ s.toList.drop 5) := by
    have hdrop : s.toList.drop 5 = (s.toList.drop 2).drop 3 := by rw [List.drop_drop]
    rw [hdrop, List.take_append_drop, List.take_append_drop]
  rw [hsplit, List.mem_append, List.mem_append] at hc
  rcases hc with hc | hc | hc
  · exact graphic_of_letter (hcountry c hc)
  · rcases howner c hc with hletter | hdigit
    · exact graphic_of_letter hletter
    · exact graphic_of_digit hdigit
  · exact graphic_of_digit (hdigits c hc)

theorem storable_of_isrc {s : String} (h : ISRC_RE s = true) : Storable 8192 (toUpperCase s) := by
  have hlist : (toUpperCase s).toList = s.toList.map Char.toUpper := String.toList_ofList
  have hlength : s.toList.length = 12 := by
    simp only [ISRC_RE, Bool.and_eq_true, decide_eq_true_eq] at h
    exact h.1.1.1
  refine storable_of_graphic ?_ ?_ ?_
  · intro hnil
    rw [hlist, List.map_eq_nil_iff] at hnil
    rw [hnil] at hlength
    cases hlength
  · rw [hlist, List.length_map, hlength]
    decide
  · rw [hlist]
    intro c hc
    obtain ⟨d, hd, rfl⟩ := List.mem_map.1 hc
    exact graphic_toUpper (graphic_of_isrc h d hd)

end Codes

section Parsed

variable {H : Host} {p : String → Prop} {source : MetadataSource}

theorem fieldRead_none {field : MetadataField String} (hcaptured : field.capturedAt = H.now)
    (hversion : Storable 256 field.parserVersion) (hvalue : field.value = none) : FieldRead H p field :=
  ⟨hcaptured, hversion, fun v hv => by rw [hvalue] at hv; cases hv⟩

theorem storable_version : Storable 256 PARSER_VERSION ∧ Storable 256 DISTROKID_DOM_PARSER_VERSION := by
  decide

theorem fieldRead_readField {valid raw : Option String} {wasSupplied : Bool} (h : ∀ v ∈ valid, p v) :
    FieldRead H p (readField H source valid raw wasSupplied) := by
  unfold readField
  split
  · rename_i value
    refine ⟨rfl, storable_version.1, fun v hv => ?_⟩
    obtain rfl := Option.some.inj hv
    exact ⟨rfl, h _ rfl⟩
  · split
    · exact fieldRead_none rfl storable_version.1 rfl
    · split
      · exact fieldRead_none rfl storable_version.1 rfl
      · exact fieldRead_none rfl storable_version.1 rfl

theorem fieldRead_domField (value : Option String) : FieldRead H (fun _ => True) (domField H value) := by
  unfold domField
  dsimp only
  split
  · exact ⟨rfl, storable_version.2, fun v hv => ⟨rfl, trivial⟩⟩
  · exact fieldRead_none rfl storable_version.2 rfl

theorem fieldRead_isrc {t : List (String × Json)} {i : ℕ} {track : CanonicalDistributorTrack}
    (h : parseTrack H source t i = .ok track) : FieldRead H (Storable 8192) track.isrc := by
  unfold parseTrack at h
  dsimp only at h
  split at h
  · cases h
  · obtain rfl := Except.ok.inj h
    refine fieldRead_readField fun v hv => ?_
    obtain ⟨raw, hraw, rfl⟩ := Option.map_eq_some_iff.1 hv
    exact storable_of_isrc (Option.filter_eq_some_iff.1 hraw).2

theorem forall₂_of_mapM {ε α β : Type} {f : α → Except ε β} {xs : List α} {ys : List β}
    (h : xs.mapM f = .ok ys) : List.Forall₂ (fun x y => f x = .ok y) xs ys := by
  induction xs generalizing ys with
  | nil =>
    obtain rfl := Except.ok.inj h
    exact .nil
  | cons x xs ih =>
    rw [List.mapM_cons] at h
    cases hx : f x with
    | error e =>
      rw [hx] at h
      cases h
    | ok y =>
      cases hxs : xs.mapM f with
      | error e =>
        rw [hx, hxs] at h
        cases h
      | ok ys' =>
        rw [hx, hxs] at h
        obtain rfl := Except.ok.inj h
        exact .cons hx (ih hxs)

theorem mem_of_forall₂ {α β : Type} {R : α → β → Prop} {xs : List α} {ys : List β}
    (h : List.Forall₂ R xs ys) : ∀ y ∈ ys, ∃ x ∈ xs, R x y := by
  induction h with
  | nil => exact fun y hy => absurd hy List.not_mem_nil
  | cons hxy _ ih =>
    intro z hz
    rcases List.mem_cons.1 hz with rfl | hz
    · exact ⟨_, List.mem_cons_self, hxy⟩
    · obtain ⟨x, hx, hxz⟩ := ih z hz
      exact ⟨x, List.mem_cons_of_mem _ hx, hxz⟩

theorem mem_of_mapM {ε α β : Type} {f : α → Except ε β} {xs : List α} {ys : List β}
    (h : xs.mapM f = .ok ys) : ∀ y ∈ ys, ∃ x ∈ xs, f x = .ok y :=
  mem_of_forall₂ (forall₂_of_mapM h)

theorem releaseRead_readRelease {r : List (String × Json)} {tracks : List CanonicalDistributorTrack}
    (htracks : ∀ track ∈ tracks, FieldRead H (Storable 8192) track.isrc) :
    ReleaseRead H (Storable 8192) (readRelease H source r tracks) where
  upc := fieldRead_readField fun _ hv => storable_of_upc (Option.filter_eq_some_iff.1 hv).2
  artwork := fieldRead_readField fun _ _ => trivial
  releaseDate := fieldRead_readField fun _ _ => trivial
  uploadDate := by
    intro field hfield
    obtain rfl := Option.some.inj hfield
    exact fieldRead_readField fun _ _ => trivial
  label := by
    intro field hfield
    obtain rfl := Option.some.inj hfield
    exact fieldRead_readField fun _ _ => trivial
  tracks := htracks

/-- What is returned was read from the object that was found. -/
theorem parseDistroKidReleaseV1_ok {payload : Json} {release : CanonicalDistributorRelease}
    (h : parseDistroKidReleaseV1 H source payload = .ok release) :
    ∃ r tracks, locateReleaseObject payload = some r ∧ parseTracks H source r = .ok tracks ∧
      release = readRelease H source r tracks := by
  unfold parseDistroKidReleaseV1 at h
  split at h
  · cases h
  · rename_i r hlocate
    dsimp only at h
    split at h
    · cases h
    · split at h
      · cases h
      · cases htracks : parseTracks H source r with
        | error e =>
          rw [htracks] at h
          cases h
        | ok tracks =>
          rw [htracks] at h
          exact ⟨r, tracks, hlocate, htracks, (Except.ok.inj h).symm⟩

/-- What the network parser lets through as a code is text that the store keeps. -/
theorem releaseRead_parse {payload : Json} {release : CanonicalDistributorRelease}
    (h : parse H source payload = .ok release) : ReleaseRead H (Storable 8192) release := by
  have hparse : parseDistroKidReleaseV1 H source payload = .ok release := by
    unfold parse PARSER_VARIANTS parseWith at h
    dsimp only at h
    split at h
    · rename_i heq
      obtain rfl := Except.ok.inj h
      exact heq
    · cases h
  obtain ⟨r, tracks, -, htracks, rfl⟩ := parseDistroKidReleaseV1_ok hparse
  apply releaseRead_readRelease
  intro track htrack
  obtain ⟨row, -, hrow⟩ := mem_of_mapM htracks track htrack
  exact fieldRead_isrc hrow

theorem fieldRead_ite {c : Bool} {field : MetadataField String} (h : FieldRead H p field) :
    ∀ f ∈ (if c then some field else none), FieldRead H p f := by
  intro f hf
  cases c with
  | true =>
    obtain rfl := Option.some.inj hf
    exact h
  | false => cases hf

theorem releaseRead_scraped (d : ScrapedReleaseDetail) :
    ReleaseRead H (fun _ => True) (scrapedReleaseToCanonical H d) := by
  unfold scrapedReleaseToCanonical
  constructor <;> dsimp only
  · apply fieldRead_domField
  · apply fieldRead_domField
  · apply fieldRead_domField
  · apply fieldRead_ite
    apply fieldRead_domField
  · apply fieldRead_ite
    apply fieldRead_domField
  · intro track htrack
    obtain ⟨row, -, rfl⟩ := List.mem_map.1 htrack
    unfold scrapedTrackToCanonical
    dsimp only
    apply fieldRead_domField

/-! ### Merged -/

theorem FieldRead.stronger {current alternative : MetadataField String} (hc : FieldRead H p current)
    (ha : FieldRead H p alternative) : FieldRead H p (strongerEvidence current alternative) := by
  unfold strongerEvidence
  split
  · exact ha
  · exact hc

theorem fieldRead_stronger? {current alternative : Option (MetadataField String)}
    (hc : ∀ field ∈ current, FieldRead H p field) (ha : ∀ field ∈ alternative, FieldRead H p field) :
    ∀ field ∈ strongerEvidence? current alternative, FieldRead H p field := by
  intro field hfield
  cases alternative with
  | none => exact hc field hfield
  | some a =>
    cases current with
    | none => exact ha field hfield
    | some c =>
      obtain rfl := Option.some.inj hfield
      exact (hc c rfl).stronger (ha a rfl)

theorem ReleaseRead.merge {base extra : CanonicalDistributorRelease} (hb : ReleaseRead H p base)
    (he : ReleaseRead H p extra) : ReleaseRead H p (mergeCanonicalRelease base extra) where
  upc := hb.upc.stronger he.upc
  artwork := hb.artwork.stronger he.artwork
  releaseDate := hb.releaseDate.stronger he.releaseDate
  uploadDate := fieldRead_stronger? hb.uploadDate he.uploadDate
  label := fieldRead_stronger? hb.label he.label
  tracks := by
    intro track htrack
    have hmem : track ∈ mergeTracks base.tracks extra.tracks := htrack
    unfold mergeTracks at hmem
    split at hmem
    · exact he.tracks track hmem
    · obtain ⟨row, hrow, rfl⟩ := List.mem_map.1 hmem
      split
      · exact hb.tracks row hrow
      · rename_i alternative hfound
        exact (hb.tracks row hrow).stronger (he.tracks alternative (List.mem_of_find?_eq_some hfound))

theorem releaseRead_mergeFromOtherCaptures {captures : List (CapturedResponse Json)}
    {release : CanonicalDistributorRelease} (h : ReleaseRead H (Storable 8192) release)
    (usedFingerprint expectedReleaseId : String) : ReleaseRead H (Storable 8192)
      (mergeFromOtherCaptures H captures release usedFingerprint expectedReleaseId) := by
  unfold mergeFromOtherCaptures
  dsimp only
  refine List.foldlRecOn _ _ h fun merged hmerged other _ => ?_
  split
  · exact hmerged
  · rename_i extra hparse
    split
    · exact hmerged.merge (releaseRead_parse hparse)
    · exact hmerged

theorem FieldRead.mono {q : String → Prop} {field : MetadataField String} (hpq : ∀ v, p v → q v)
    (h : FieldRead H p field) : FieldRead H q field :=
  ⟨h.captured, h.version, fun v hv => ⟨(h.value v hv).1, hpq v (h.value v hv).2⟩⟩

theorem ReleaseRead.mono {q : String → Prop} {release : CanonicalDistributorRelease}
    (hpq : ∀ v, p v → q v) (h : ReleaseRead H p release) : ReleaseRead H q release :=
  ⟨h.upc.mono hpq, h.artwork, h.releaseDate, h.uploadDate, h.label, fun track htrack =>
    (h.tracks track htrack).mono hpq⟩

end Parsed

section Recorded

variable {H : Host} {p : String → Prop}

theorem passes_now (hH : H.Keeps) (name : String) : Passes (isoTimestamp H.platform H.now name) := by
  obtain ⟨epoch, hepoch⟩ := Option.isSome_iff_exists.1 hH.date
  have htext : textValue H.now name 64 = .ok H.now := by
    obtain ⟨v, hv⟩ := passes_textValue.2 hH.text
    rwa [textValue_ok hv] at hv
  refine ⟨H.platform.toISOString epoch, bind_ok.2 ⟨H.now, htext, ?_⟩⟩
  rw [hepoch]

theorem FieldRead.recorded (hH : H.Keeps) {field : MetadataField String} (h : FieldRead H p field) :
    Recorded H.platform field where
  captured := h.captured ▸ passes_now hH
  version := h.version
  value v hv := (h.value v hv).1

theorem ReleaseRead.recorded (hH : H.Keeps) {release : CanonicalDistributorRelease}
    (h : ReleaseRead H p release) (ref : ReleaseRefRecord) :
    RecordedRelease H.platform (withId ref release) where
  upc := h.upc.recorded hH
  artwork := h.artwork.recorded hH
  releaseDate := h.releaseDate.recorded hH
  uploadDate field hfield := (h.uploadDate field hfield).recorded hH
  label field hfield := (h.label field hfield).recorded hH
  tracks track htrack := by
    obtain ⟨row, hrow, rfl⟩ := List.mem_map.1 htrack
    exact (h.tracks row hrow).recorded hH

end Recorded

/-! ### What must stay within bounds -/

/-- The track is one that the store keeps; the code of a network payload always is. -/
structure WithinTrack (source : MetadataSource) (releaseTitle : String)
    (track : CanonicalDistributorTrack) : Prop where
  id : ∀ id ∈ track.distributorTrackId, Storable 512 id
  title : Storable 2048 (if trim track.title ≠ "" then trim track.title else releaseTitle)
  isrc : source = .dom → ∀ v ∈ track.isrc.value, Storable 8192 v
  number : ∀ n ∈ track.trackNumber, isSafeInteger n = true ∧ 0 ≤ n
  duration : ∀ n ∈ track.durationSec, 0 ≤ n

/-- What is read of the release, and what the catalogue knows of it where the reading lacks it,
is what the store keeps. -/
structure Within (P : Platform) (ref : ReleaseRefRecord) (release : CanonicalDistributorRelease)
    (source : MetadataSource) (elapsedMs : ℚ) (fingerprint : Option String) : Prop where
  count : release.tracks.length ≤ MAX_RELEASES
  tracks : ∀ track ∈ release.tracks, WithinTrack source (releaseTitle ref release) track
  id : Storable 512 (if release.distributorReleaseId ∈ ["", "unknown"] then ref.releaseId
    else release.distributorReleaseId)
  title : Storable 2048 (releaseTitle ref release)
  artist : ∀ artist ∈ release.primaryArtist.or (ref.artist.filter (· ≠ "")), Storable 2048 artist
  featured : ∀ artists ∈ release.featuredArtists, ∀ artist ∈ artists.take 100, Storable 2048 artist
  upc : source = .dom → ∀ v ∈ release.upc.value, Storable 8192 v
  artwork : ∀ v ∈ release.artworkUrl.value, SafeArtwork P v
  releaseDate : ∀ v ∈ release.releaseDate.value, Storable 8192 v
  uploadDate : ∀ field ∈ release.uploadDate, ∀ v ∈ field.value, Storable 8192 v
  label : ∀ field ∈ release.label, ∀ v ∈ field.value, Storable 8192 v
  elapsed : 0 ≤ elapsedMs
  fingerprint : ∀ f ∈ fingerprint, f ≠ "" → Storable 256 f

section Agreement

variable {B : Browser} {opts : ExtractorOptions} {ref : ReleaseRefRecord} {o : Observed}
  {release : CanonicalDistributorRelease} {source : MetadataSource} {fingerprint : Option String}

/-- The codes of a reading: only the album page's may be no text that the store keeps. -/
def Coded (source : MetadataSource) (v : String) : Prop := source = .dom ∨ Storable 8192 v

theorem Reads.releaseRead (h : Reads B opts ref o release source fingerprint) :
    ReleaseRead B.toHost (Coded source) release := by
  cases h with
  | network _ _ hparse =>
    exact (releaseRead_mergeFromOtherCaptures (releaseRead_parse hparse) _ _).mono fun _ => .inr
  | direct _ _ _ hparse => exact (releaseRead_parse hparse).mono fun _ => .inr
  | pageState _ _ hstate =>
    unfold readPageState at hstate
    split at hstate
    · cases hstate
    · rename_i state _
      cases hparse : parse B.toHost .pageState state with
      | error e =>
        rw [hparse] at hstate
        cases hstate
      | ok read =>
        rw [hparse] at hstate
        obtain rfl := Option.some.inj hstate
        exact (releaseRead_parse hparse).mono fun _ => .inr
  | dom _ _ _ hdom =>
    unfold readDistroKidAlbumDom at hdom
    split at hdom
    · cases hdom
    · rename_i d _
      dsimp only at hdom
      split at hdom
      · cases hdom
      · obtain rfl := Option.some.inj hdom
        exact (releaseRead_scraped d).mono fun _ _ => .inl rfl

/-- The codes need no check of their own unless they were read off the page. -/
theorem coded_iff {field : MetadataField String} (h : FieldRead B.toHost (Coded source) field) :
    (∀ v ∈ field.value, Storable 8192 v) ↔ (source = .dom → ∀ v ∈ field.value, Storable 8192 v) := by
  constructor
  · exact fun hall _ => hall
  · intro hdom v hv
    rcases (h.value v hv).2 with hsource | hw
    · exact hdom hsource v hv
    · exact hw

theorem withId_artist (ref : ReleaseRefRecord) (release : CanonicalDistributorRelease) :
    (withId ref release).primaryArtist = release.primaryArtist.or (ref.artist.filter (· ≠ "")) := by
  unfold withId isTruthy
  dsimp only
  cases release.primaryArtist with
  | some artist => simp
  | none =>
    cases hartist : ref.artist with
    | none => simp
    | some artist =>
      by_cases hempty : artist = ""
      · simp [hempty, Option.filter]
      · simp [hempty, Option.filter]

theorem withId_id (ref : ReleaseRefRecord) (release : CanonicalDistributorRelease) :
    (withId ref release).distributorReleaseId =
      if release.distributorReleaseId ∈ ["", "unknown"] then ref.releaseId
      else release.distributorReleaseId := by
  unfold withId
  dsimp only
  by_cases hempty : release.distributorReleaseId = ""
  · simp [hempty]
  · by_cases hunknown : release.distributorReleaseId = "unknown"
    · simp [hunknown]
    · simp [hempty, hunknown]

/-- A completed outcome is accepted exactly if what it was made of is within bounds. -/
theorem passes_completed (hH : B.toHost.Keeps) (hread : ReleaseRead B.toHost (Coded source) release)
    (elapsedMs : ℚ) :
    Passes (sanitizeOutcome B.platform (.completed (withId ref release) source elapsedMs
      (fingerprint.filter (· ≠ "")))) ↔ Within B.platform ref release source elapsedMs fingerprint := by
  have hrecorded := hread.recorded hH ref
  have htitles : ∀ track ∈ release.tracks, ∀ index,
      (Passes (sanitizeTrack B.platform { track with
          title := if trim track.title ≠ "" then trim track.title else releaseTitle ref release } index) ↔
        WithinTrack source (releaseTitle ref release) track) := by
    intro track htrack index
    have hisrc := hread.tracks track htrack
    rw [passes_sanitizeTrack (by exact hisrc.recorded hH) index]
    dsimp only
    rw [coded_iff hisrc]
    exact ⟨fun h => ⟨h.1, h.2.1, h.2.2.1, h.2.2.2.1, h.2.2.2.2⟩,
      fun h => ⟨h.id, h.title, h.isrc, h.number, h.duration⟩⟩
  have htracks : (∀ track ∈ (withId ref release).tracks, Passes (sanitizeTrack B.platform track 0)) ↔
      ∀ track ∈ release.tracks, WithinTrack source (releaseTitle ref release) track := by
    unfold withId
    dsimp only
    rw [List.forall_mem_map]
    exact forall₂_congr fun track htrack => htitles track htrack 0
  have hindex : ∀ track ∈ (withId ref release).tracks, ∀ index,
      (Passes (sanitizeTrack B.platform track index) ↔ Passes (sanitizeTrack B.platform track 0)) := by
    intro track htrack index
    obtain ⟨row, hrow, rfl⟩ := List.mem_map.1 htrack
    rw [htitles row hrow index, htitles row hrow 0]
  rw [passes_sanitizeCompleted hindex fun tracks => passes_sanitizeRelease hrecorded tracks, htracks,
    withId_id, withId_artist]
  have hupc : (∀ v ∈ (withId ref release).upc.value, Storable 8192 v) ↔
      (source = .dom → ∀ v ∈ release.upc.value, Storable 8192 v) := coded_iff hread.upc
  have hlength : (withId ref release).tracks.length = release.tracks.length := List.length_map ..
  have hprint : (∀ f ∈ fingerprint.filter (· ≠ ""), Storable 256 f) ↔
      ∀ f ∈ fingerprint, f ≠ "" → Storable 256 f := by
    simp only [Option.mem_def, Option.filter_eq_some_iff, decide_eq_true_eq, and_imp]
  rw [hupc, hlength, hprint]
  dsimp only [withId]
  constructor
  · rintro ⟨hcount, htracks, ⟨hid, htitle, hartist, hfeatured, hupc, hartwork, hdate, hupload, hlabel⟩,
      helapsed, hfingerprint⟩
    exact ⟨hcount, htracks, hid, htitle, hartist, hfeatured, hupc, hartwork, hdate, hupload, hlabel,
      helapsed, hfingerprint⟩
  · intro h
    exact ⟨h.count, h.tracks, ⟨h.id, h.title, h.artist, h.featured, h.upc, h.artwork, h.releaseDate,
      h.uploadDate, h.label⟩, h.elapsed, h.fingerprint⟩

/-- The store accepts whatever the extraction completes exactly if its reading is within bounds. -/
theorem extractRelease_passes_iff (hH : B.toHost.Keeps) :
    ((extractRelease B opts ref o).isCompleted = true →
        Passes (sanitizeOutcome B.platform (extractRelease B opts ref o))) ↔
      ∀ release source fingerprint, Reads B opts ref o release source fingerprint →
        Completes ref release → Within B.platform ref release source o.elapsedMs fingerprint := by
  have hsettled : Settled B opts ref o (extractRelease B opts ref o) := extractRelease_settled
  rcases hsettled with ⟨release, source, fingerprint, hreads, heq⟩ | ⟨hnone, reason, detail, heq⟩
  · have hpasses : Passes (sanitizeOutcome B.platform (.completed (withId ref release) source o.elapsedMs
        (fingerprint.filter (· ≠ "")))) ↔ Within B.platform ref release source o.elapsedMs fingerprint :=
      passes_completed hH hreads.releaseRead o.elapsedMs
    constructor
    · intro haccepted release' source' fingerprint' hreads' hcompletes
      obtain ⟨rfl, rfl, rfl⟩ := hreads.unique hreads'
      rw [heq, complete_of_completes hcompletes] at haccepted
      exact hpasses.1 (haccepted rfl)
    · intro hwithin hcompleted
      by_cases hcompletes : Completes ref release
      · rw [heq, complete_of_completes hcompletes]
        exact hpasses.2 (hwithin release source fingerprint hreads hcompletes)
      · obtain ⟨detail, hfailed⟩ := complete_of_not hcompletes o.elapsedMs source fingerprint
        rw [heq, hfailed] at hcompleted
        cases hcompleted
  · refine iff_of_true (fun hcompleted => ?_) fun release source fingerprint hreads =>
      absurd hreads (hnone _ _ _)
    rw [heq] at hcompleted
    cases hcompleted

end Agreement

/-! ### A payload whose artwork is not served over TLS -/

theorem keeps_sampleBrowser : sampleBrowser.toHost.Keeps := ⟨by decide, by decide⟩

theorem accepts_sample : Passes (sanitizeOutcome samplePlatform (extractRelease sampleBrowser sampleOptions
    sampleReleaseRef (sampleObserved (samplePayload [])))) := by
  generalize heq : sanitizeOutcome _ _ = answer
  cases answer with
  | ok outcome => exact passes_ok outcome
  | error e =>
    have hok : (sanitizeOutcome samplePlatform (extractRelease sampleBrowser sampleOptions
        sampleReleaseRef (sampleObserved (samplePayload [])))).toOption.isSome = true := by
      decide +kernel
    rw [heq] at hok
    cases hok

/-- What the dashboard sends for the sample release is within bounds, since it is accepted. -/
theorem within_sample : ∃ release source fingerprint,
    Reads sampleBrowser sampleOptions sampleReleaseRef (sampleObserved (samplePayload [])) release source
        fingerprint ∧
      Completes sampleReleaseRef release ∧
        Within samplePlatform sampleReleaseRef release source 1 fingerprint := by
  have hwithin := (extractRelease_passes_iff keeps_sampleBrowser).1 fun _ => accepts_sample
  have hcompleted : (extractRelease sampleBrowser sampleOptions sampleReleaseRef
      (sampleObserved (samplePayload []))).isCompleted = true := by
    decide +kernel
  have hsettled : Settled sampleBrowser sampleOptions sampleReleaseRef (sampleObserved (samplePayload []))
      (extractRelease sampleBrowser sampleOptions sampleReleaseRef (sampleObserved (samplePayload []))) :=
    extractRelease_settled
  rcases hsettled with ⟨release, source, fingerprint, hreads, heq⟩ | ⟨-, reason, detail, heq⟩
  · by_cases hcompletes : Completes sampleReleaseRef release
    · exact ⟨release, source, fingerprint, hreads, hcompletes, hwithin _ _ _ hreads hcompletes⟩
    · obtain ⟨detail, hfailed⟩ := complete_of_not hcompletes 1 source fingerprint
      rw [heq] at hcompleted
      change (complete sampleReleaseRef 1 release source fingerprint).isCompleted = true at hcompleted
      rw [hfailed] at hcompleted
      cases hcompleted
  · rw [heq] at hcompleted
    cases hcompleted

/-- A platform that knows an artwork by a URL without TLS. -/
def plainBrowser : Browser :=
  { sampleBrowser with
    platform := { samplePlatform with
      parseUrl := fun t => if t = "http://a/b" then some ⟨"http:", "", "", "http://a/b"⟩ else none } }

/-- The parser takes a URL of either scheme, the store only one; the whole batch is refused. -/
theorem extractRelease_httpArtwork :
    let outcome := extractRelease plainBrowser sampleOptions sampleReleaseRef
      (sampleObserved (samplePayload [("artworkUrl", .str "http://a/b")]))
    outcome.isCompleted = true ∧ ¬ Passes (sanitizeOutcome plainBrowser.platform outcome) ∧
      ∀ before after : List ReleaseExtractionOutcome,
        ¬ Passes ((before ++ outcome :: after).mapM (sanitizeOutcome plainBrowser.platform)) := by
  intro outcome
  have herror : sanitizeOutcome plainBrowser.platform outcome =
      .error (.invalid "invalid release artwork.value in snapshot checkpoint") := by
    decide +kernel
  have hrefused : ¬ Passes (sanitizeOutcome plainBrowser.platform outcome) := by
    rw [herror]
    exact not_passes_error _
  refine ⟨by decide +kernel, hrefused, fun before after hbatch => hrefused ?_⟩
  exact mapM_isOk.1 hbatch outcome (List.mem_append_right before List.mem_cons_self)

end CatalogSentinel.Extract
