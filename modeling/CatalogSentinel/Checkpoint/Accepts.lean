import CatalogSentinel.Checkpoint.Sanitize

/-!
What the checkpoint store accepts, said without running its checks: the text, the
numbers and the URLs that pass, and from these the fields, tracks and releases. A
check passes exactly if each of its parts does.
-/

namespace CatalogSentinel.Checkpoint

open CatalogSentinel.Data CatalogSentinel.Distrokid

/-- The check passes. -/
def Passes {α : Type} (x : Checked α) : Prop := ∃ a, x = .ok a

/-- Text that is kept: not blank, not too long, and without control characters. -/
structure Storable (max : ℕ) (s : String) : Prop where
  text : isBlank s = false
  short : utf16Length s ≤ max
  plain : hasControlCharacter s true = false

instance (max : ℕ) (s : String) : Decidable (Storable max s) :=
  decidable_of_iff (isBlank s = false ∧ utf16Length s ≤ max ∧ hasControlCharacter s true = false)
    ⟨fun h => ⟨h.1, h.2.1, h.2.2⟩, fun h => ⟨h.text, h.short, h.plain⟩⟩

/-- The URL of an artwork that is kept. -/
def SafeArtwork (P : Platform) (s : String) : Prop :=
  Storable 8192 s ∧ ∃ url, P.parseUrl s = some url ∧ url.protocol = "https:" ∧ url.username = "" ∧
    url.password = ""

section Checks

variable {α β : Type}

theorem passes_ok (a : α) : Passes (.ok a : Checked α) := ⟨a, rfl⟩

theorem not_passes_error (e : CheckpointError) : ¬ Passes (.error e : Checked α) := by
  rintro ⟨a, h⟩
  cases h

theorem passes_bind {x : Checked α} {f : α → Checked β} :
    Passes (x >>= f) ↔ ∃ a, x = .ok a ∧ Passes (f a) := by
  unfold Passes
  constructor
  · rintro ⟨b, hb⟩
    obtain ⟨a, ha, hf⟩ := bind_ok.1 hb
    exact ⟨a, ha, b, hf⟩
  · rintro ⟨a, ha, b, hf⟩
    exact ⟨b, bind_ok.2 ⟨a, ha, hf⟩⟩

/-- Where what follows passes whatever the check answers, both have to. -/
theorem passes_bind_iff {x : Checked α} {f : α → Checked β} {Q : Prop}
    (hf : ∀ a, x = .ok a → (Passes (f a) ↔ Q)) : Passes (x >>= f) ↔ Passes x ∧ Q := by
  rw [passes_bind]
  constructor
  · rintro ⟨a, ha, hb⟩
    exact ⟨⟨a, ha⟩, (hf a ha).1 hb⟩
  · rintro ⟨⟨a, ha⟩, hq⟩
    exact ⟨a, ha, (hf a ha).2 hq⟩

theorem passes_option {f : α → Checked β} {o : Option α} :
    Passes (o.mapM f) ↔ ∀ x ∈ o, Passes (f x) := by
  cases o with
  | none => exact iff_of_true (passes_ok none) fun x hx => by cases hx
  | some x =>
    have hmap : Passes (f x >>= fun y => (.ok (some y) : Checked (Option β))) ↔
        Passes (f x) ∧ True := passes_bind_iff fun y _ => iff_of_true (passes_ok _) trivial
    rw [and_true] at hmap
    simp only [Option.mem_some_iff, forall_eq']
    exact hmap

/-- A list passes exactly if each of its elements does at its place. -/
theorem passes_zipIdx {f : α → ℕ → Checked β} {C : α → Prop} {xs : List α}
    (hf : ∀ x ∈ xs, ∀ i, Passes (f x i) ↔ C x) :
    Passes (xs.zipIdx.mapM fun x => f x.1 x.2) ↔ ∀ x ∈ xs, C x := by
  have hall : Passes (xs.zipIdx.mapM fun x => f x.1 x.2) ↔ ∀ x ∈ xs.zipIdx, Passes (f x.1 x.2) :=
    mapM_isOk
  rw [hall]
  constructor
  · intro h x hx
    obtain ⟨i, hi⟩ := List.mem_iff_getElem?.1 hx
    have hmem : (x, i) ∈ xs.zipIdx := List.mk_mem_zipIdx_iff_getElem?.2 hi
    exact (hf x hx i).1 (h _ hmem)
  · rintro h ⟨x, i⟩ hx
    have hmem : x ∈ xs := List.fst_mem_of_mem_zipIdx hx
    exact (hf x hmem i).2 (h x hmem)

end Checks

section Values

variable {P : Platform} {value name : String}

theorem passes_textValue {max : ℕ} : Passes (textValue value name max) ↔ Storable max value := by
  unfold textValue
  split
  · rename_i h
    refine iff_of_false (not_passes_error _) fun hw => ?_
    simp [hw.text, not_lt.2 hw.short, hw.plain] at h
  · rename_i h
    simp only [Bool.or_eq_true, decide_eq_true_eq, not_or, not_lt, Bool.not_eq_true] at h
    exact iff_of_true (passes_ok _) ⟨h.1.1, h.1.2, h.2⟩

theorem passes_nonNegativeInteger {n : ℚ} :
    Passes (nonNegativeInteger n name) ↔ isSafeInteger n = true ∧ 0 ≤ n := by
  unfold nonNegativeInteger
  split
  · rename_i h
    refine iff_of_false (not_passes_error _) fun hn => ?_
    simp [hn.1, not_lt.2 hn.2] at h
  · rename_i h
    simp only [Bool.or_eq_true, Bool.not_eq_true', decide_eq_true_eq, not_or, not_lt,
      Bool.not_eq_false] at h
    exact iff_of_true (passes_ok _) h

theorem passes_nonNegativeNumber {n : ℚ} : Passes (nonNegativeNumber n name) ↔ 0 ≤ n := by
  unfold nonNegativeNumber
  split
  · rename_i h
    exact iff_of_false (not_passes_error _) (not_le.2 h)
  · rename_i h
    exact iff_of_true (passes_ok _) (not_lt.1 h)

theorem passes_safeUrl : Passes (safeUrl P value name) ↔ SafeArtwork P value := by
  unfold safeUrl SafeArtwork
  rw [passes_bind_iff (Q := ∃ url, P.parseUrl value = some url ∧ url.protocol = "https:" ∧
    url.username = "" ∧ url.password = ""), passes_textValue]
  intro input hinput
  rw [textValue_ok hinput]
  split
  · rename_i hnone
    refine iff_of_false (not_passes_error _) ?_
    rintro ⟨url, hurl, -⟩
    rw [hnone] at hurl
    cases hurl
  · rename_i url hurl
    split
    · rename_i hunsafe
      refine iff_of_false (not_passes_error _) ?_
      rintro ⟨url', hurl', h₁, h₂, h₃⟩
      obtain rfl := Option.some.inj (hurl.symm.trans hurl')
      simp [h₁, h₂, h₃] at hunsafe
    · rename_i hsafe
      simp only [Bool.or_eq_true, decide_eq_true_eq, not_or, ne_eq, not_not] at hsafe
      exact iff_of_true (passes_ok _) ⟨url, hurl, hsafe.1.1, hsafe.1.2, hsafe.2⟩

/-- A field with a time and a version that are kept, and whose value says that it is present. -/
structure Recorded (P : Platform) (field : MetadataField String) : Prop where
  captured : ∀ name, Passes (isoTimestamp P field.capturedAt name)
  version : Storable 256 field.parserVersion
  value : ∀ v ∈ field.value, field.status = .present

theorem passes_sanitizeField {field : MetadataField String} (h : Recorded P field) (asUrl : Bool) :
    Passes (sanitizeField P name asUrl field) ↔
      ∀ v ∈ field.value, if asUrl then SafeArtwork P v else Storable 8192 v := by
  have hparts : Passes (sanitizeField P name asUrl field) ↔
      Passes (isoTimestamp P field.capturedAt (name ++ ".capturedAt")) ∧
        Passes (textValue field.parserVersion (name ++ ".parserVersion") 256) ∧
        Passes (field.value.mapM (sanitizeFieldValue P field name asUrl)) ∧ True :=
    passes_bind_iff fun _ _ => passes_bind_iff fun _ _ => passes_bind_iff fun _ _ =>
      iff_of_true (passes_ok _) trivial
  have hcaptured := h.captured (name ++ ".capturedAt")
  have hversion : Passes (textValue field.parserVersion (name ++ ".parserVersion") 256) :=
    passes_textValue.2 h.version
  rw [hparts]
  simp only [hcaptured, hversion, true_and, and_true, passes_option]
  refine forall₂_congr fun v hv => ?_
  unfold sanitizeFieldValue
  have hpresent : ¬ field.status ≠ .present := not_not.2 (h.value v hv)
  rw [if_neg hpresent]
  cases asUrl with
  | true => exact passes_safeUrl
  | false => exact passes_textValue

/-- A track is accepted exactly if each of its parts is. -/
theorem passes_sanitizeTrack {track : CanonicalDistributorTrack} (h : Recorded P track.isrc) (index : ℕ) :
    Passes (sanitizeTrack P track index) ↔
      (∀ id ∈ track.distributorTrackId, Storable 512 id) ∧ Storable 2048 track.title ∧
        (∀ v ∈ track.isrc.value, Storable 8192 v) ∧
        (∀ n ∈ track.trackNumber, isSafeInteger n = true ∧ 0 ≤ n) ∧
        ∀ n ∈ track.durationSec, 0 ≤ n := by
  have hparts : Passes (sanitizeTrack P track index) ↔
      Passes (track.distributorTrackId.mapM fun id => textValue id s!"track {index} id" 512) ∧
        Passes (textValue track.title s!"track {index} title" 2048) ∧
        Passes (sanitizeField P s!"track {index} isrc" false track.isrc) ∧
        Passes (track.trackNumber.mapM fun n => nonNegativeInteger n s!"track {index} number") ∧
        Passes (track.durationSec.mapM fun n => nonNegativeNumber n s!"track {index} duration") ∧ True :=
    passes_bind_iff fun _ _ => passes_bind_iff fun _ _ => passes_bind_iff fun _ _ =>
      passes_bind_iff fun _ _ => passes_bind_iff fun _ _ => iff_of_true (passes_ok _) trivial
  rw [hparts]
  simp only [passes_option, passes_textValue, passes_sanitizeField h, passes_nonNegativeInteger,
    passes_nonNegativeNumber, and_true, Bool.false_eq_true, if_false]

/-- The fields of a release carry times, versions and values as they are kept. -/
structure RecordedRelease (P : Platform) (release : CanonicalDistributorRelease) : Prop where
  upc : Recorded P release.upc
  artwork : Recorded P release.artworkUrl
  releaseDate : Recorded P release.releaseDate
  uploadDate : ∀ field ∈ release.uploadDate, Recorded P field
  label : ∀ field ∈ release.label, Recorded P field
  tracks : ∀ track ∈ release.tracks, Recorded P track.isrc

theorem passes_optionField {field : Option (MetadataField String)} (h : ∀ f ∈ field, Recorded P f) :
    Passes (field.mapM (sanitizeField P name false)) ↔ ∀ f ∈ field, ∀ v ∈ f.value, Storable 8192 v := by
  rw [passes_option]
  refine forall₂_congr fun f hf => ?_
  rw [passes_sanitizeField (h f hf)]
  simp only [Bool.false_eq_true, if_false]

theorem passes_sanitizeRelease {release : CanonicalDistributorRelease} (h : RecordedRelease P release)
    (tracks : List CanonicalDistributorTrack) :
    Passes (sanitizeRelease P release tracks) ↔
      Storable 512 release.distributorReleaseId ∧ Storable 2048 release.title ∧
        (∀ artist ∈ release.primaryArtist, Storable 2048 artist) ∧
        (∀ artists ∈ release.featuredArtists, ∀ artist ∈ artists.take 100, Storable 2048 artist) ∧
        (∀ v ∈ release.upc.value, Storable 8192 v) ∧
        (∀ v ∈ release.artworkUrl.value, SafeArtwork P v) ∧
        (∀ v ∈ release.releaseDate.value, Storable 8192 v) ∧
        (∀ f ∈ release.uploadDate, ∀ v ∈ f.value, Storable 8192 v) ∧
        ∀ f ∈ release.label, ∀ v ∈ f.value, Storable 8192 v := by
  have hparts : Passes (sanitizeRelease P release tracks) ↔
      Passes (textValue release.distributorReleaseId "outcome releaseId" 512) ∧
        Passes (textValue release.title "release title" 2048) ∧
        Passes (release.primaryArtist.mapM fun a => textValue a "primary artist" 2048) ∧
        Passes (release.featuredArtists.mapM fun artists => (artists.take 100).zipIdx.mapM
          fun artist => textValue artist.1 s!"featured artist {artist.2}" 2048) ∧
        Passes (sanitizeField P "release upc" false release.upc) ∧
        Passes (sanitizeField P "release artwork" true release.artworkUrl) ∧
        Passes (sanitizeField P "release date" false release.releaseDate) ∧
        Passes (release.uploadDate.mapM (sanitizeField P "upload date" false)) ∧
        Passes (release.label.mapM (sanitizeField P "release label" false)) ∧ True :=
    passes_bind_iff fun _ _ => passes_bind_iff fun _ _ => passes_bind_iff fun _ _ =>
      passes_bind_iff fun _ _ => passes_bind_iff fun _ _ => passes_bind_iff fun _ _ =>
      passes_bind_iff fun _ _ => passes_bind_iff fun _ _ => passes_bind_iff fun _ _ =>
      iff_of_true (passes_ok _) trivial
  have hartists : ∀ artists : List String, Passes ((artists.take 100).zipIdx.mapM
      fun artist => textValue artist.1 s!"featured artist {artist.2}" 2048) ↔
        ∀ artist ∈ artists.take 100, Storable 2048 artist := fun artists =>
    passes_zipIdx (f := fun artist index => textValue artist s!"featured artist {index}" 2048)
      fun _ _ _ => passes_textValue
  rw [hparts]
  simp only [passes_optionField h.uploadDate, passes_optionField h.label, passes_option,
    passes_textValue, hartists, passes_sanitizeField h.upc, passes_sanitizeField h.artwork,
    passes_sanitizeField h.releaseDate, and_true, Bool.false_eq_true, if_false, if_true]

/-- A completed outcome is accepted exactly if its tracks, its release and what it says of the
extraction are. -/
theorem passes_sanitizeCompleted {release : CanonicalDistributorRelease} {source : MetadataSource}
    {elapsedMs : ℚ} {fingerprint : Option String} {C : CanonicalDistributorTrack → Prop}
    (htracks : ∀ track ∈ release.tracks, ∀ index, Passes (sanitizeTrack P track index) ↔ C track)
    {R : Prop} (hrelease : ∀ tracks, Passes (sanitizeRelease P release tracks) ↔ R) :
    Passes (sanitizeOutcome P (.completed release source elapsedMs fingerprint)) ↔
      release.tracks.length ≤ MAX_RELEASES ∧ (∀ track ∈ release.tracks, C track) ∧ R ∧
        0 ≤ elapsedMs ∧ ∀ f ∈ fingerprint, Storable 256 f := by
  rw [sanitizeOutcome]
  split
  · rename_i hlong
    exact iff_of_false (not_passes_error _) fun h => absurd h.1 (not_le.2 hlong)
  · rename_i hlength
    have hall : Passes (release.tracks.zipIdx.mapM fun track => sanitizeTrack P track.1 track.2) ↔
        ∀ track ∈ release.tracks, C track := passes_zipIdx (f := sanitizeTrack P) htracks
    have hparts : Passes (do
          let tracks ← release.tracks.zipIdx.mapM fun track => sanitizeTrack P track.1 track.2
          let sanitized ← sanitizeRelease P release tracks
          let elapsed ← nonNegativeNumber elapsedMs "outcome elapsedMs"
          let fingerprint ← sanitizeFingerprint fingerprint
          return ReleaseExtractionOutcome.completed sanitized source elapsed fingerprint) ↔
        Passes (release.tracks.zipIdx.mapM fun track => sanitizeTrack P track.1 track.2) ∧
          R ∧ Passes (nonNegativeNumber elapsedMs "outcome elapsedMs") ∧
          Passes (sanitizeFingerprint fingerprint) ∧ True := by
      refine passes_bind_iff fun tracks _ => ?_
      refine (passes_bind_iff fun _ _ => passes_bind_iff fun _ _ => passes_bind_iff fun _ _ =>
        iff_of_true (passes_ok _) trivial).trans ?_
      rw [hrelease tracks]
    have hprint : Passes (sanitizeFingerprint fingerprint) ↔ ∀ f ∈ fingerprint, Storable 256 f := by
      rw [sanitizeFingerprint, passes_option]
      exact forall₂_congr fun f _ => passes_textValue
    rw [hparts, hall, hprint, passes_nonNegativeNumber, and_true]
    have hle : release.tracks.length ≤ MAX_RELEASES := not_lt.1 hlength
    simp only [hle, true_and]

end Values

end CatalogSentinel.Checkpoint
