import CatalogSentinel.Checkpoint.Outcomes

/-!
What a checkpoint gives back of an outcome. The rebuild keeps each field that it knows
as it was, or writes it in the form of the language, and leaves the others out; whether
an outcome comes back as it went in is a question about its timestamps, its artwork
URL, its artists, its lyrics and its stores.
-/

namespace CatalogSentinel.Checkpoint

open CatalogSentinel.Data CatalogSentinel.Distrokid

/-! ### Documented redactions -/

/-- A URL up to its query or fragment. -/
def withoutQuery (url : String) : String :=
  String.ofList (url.toList.takeWhile fun c => c ≠ '?' && c ≠ '#')

/-- The outcome without failure detail, skip reason text, URL query and fragment. -/
def redacted : ReleaseExtractionOutcome → ReleaseExtractionOutcome
  | .failed releaseId reason _ elapsedMs fingerprint =>
    .failed releaseId reason ("checkpointed failure: " ++ reason.key) elapsedMs fingerprint
  | .skipped releaseId _ => .skipped releaseId "release skipped during extraction"
  | .completed release source elapsedMs fingerprint =>
    .completed { release with
      artworkUrl := { release.artworkUrl with value := release.artworkUrl.value.map withoutQuery } }
      source elapsedMs fingerprint

section Keeps

variable (P : Platform)

/-- The timestamp is written as the language writes it. -/
def KeepsDate (text : String) : Prop := ∀ epoch, P.dateParse text = some epoch → P.toISOString epoch = text

/-- Up to its query, the URL is written as the language writes it. -/
def KeepsUrl (text : String) : Prop := ∀ url, P.parseUrl text = some url → url.plain = withoutQuery text

def KeepsTrack (track : CanonicalDistributorTrack) : Prop :=
  track.lyrics = none ∧ KeepsDate P track.isrc.capturedAt

structure KeepsRelease (release : CanonicalDistributorRelease) : Prop where
  artists : ∀ names, release.featuredArtists = some names → names.length ≤ 100
  stores : release.submittedStores = none
  upc : KeepsDate P release.upc.capturedAt
  artwork : KeepsDate P release.artworkUrl.capturedAt
  artworkUrl : ∀ url, release.artworkUrl.value = some url → KeepsUrl P url
  releaseDate : KeepsDate P release.releaseDate.capturedAt
  uploadDate : ∀ field, release.uploadDate = some field → KeepsDate P field.capturedAt
  label : ∀ field, release.label = some field → KeepsDate P field.capturedAt
  tracks : ∀ track ∈ release.tracks, KeepsTrack P track

/-- Nothing of the outcome is lost that must be kept. -/
def Keeps : ReleaseExtractionOutcome → Prop
  | .completed release .. => KeepsRelease P release
  | _ => True

end Keeps

/-! ### What the rebuild keeps -/

section Rebuild

variable {P : Platform}

theorem isoTimestamp_keeps {value name t : String} (h : isoTimestamp P value name = .ok t) :
    t = value ↔ KeepsDate P value := by
  obtain ⟨epoch, hepoch, rfl⟩ := isoTimestamp_ok h
  constructor
  · intro heq epoch' hepoch'
    rw [hepoch] at hepoch'
    cases hepoch'
    exact heq
  · exact fun hkeeps => hkeeps epoch hepoch

theorem safeUrl_keeps {value name t : String} (h : safeUrl P value name = .ok t) :
    t = withoutQuery value ↔ KeepsUrl P value := by
  obtain ⟨url, hurl, rfl, -⟩ := safeUrl_ok h
  constructor
  · intro heq url' hurl'
    rw [hurl] at hurl'
    cases hurl'
    exact heq
  · exact fun hkeeps => hkeeps url hurl

theorem sanitizeField_keeps {name : String} {field field' : MetadataField String}
    (h : sanitizeField P name false field = .ok field') :
    field' = field ↔ KeepsDate P field.capturedAt := by
  obtain ⟨hcaptured, hparser, hvalue, hstatus, hsource⟩ := sanitizeField_ok h
  have hvalue' : field'.value = field.value :=
    optionMapM_checked (fun _ _ => sanitizeFieldValue_text) hvalue
  rw [← isoTimestamp_keeps hcaptured]
  constructor
  · intro heq
    rw [heq]
  · intro heq
    cases field'
    simp only at heq hparser hvalue' hstatus hsource
    rw [heq, hparser, hvalue', hstatus, hsource]

theorem sanitizeField_keepsUrl {name : String} {field field' : MetadataField String}
    (h : sanitizeField P name true field = .ok field') :
    field' = { field with value := field.value.map withoutQuery } ↔
      KeepsDate P field.capturedAt ∧ ∀ url, field.value = some url → KeepsUrl P url := by
  obtain ⟨hcaptured, hparser, hvalue, hstatus, hsource⟩ := sanitizeField_ok h
  have hvalue' : field'.value = field.value.map withoutQuery ↔
      ∀ url, field.value = some url → KeepsUrl P url := by
    cases hv : field.value with
    | none =>
      rw [hv] at hvalue
      have hnone := Except.ok.inj hvalue
      simp [← hnone]
    | some v =>
      rw [hv] at hvalue
      obtain ⟨w, hw, hsome⟩ := bind_ok.1 hvalue
      have hsome' := Except.ok.inj hsome
      have hurl : safeUrl P v (name ++ ".value") = .ok w := by
        unfold sanitizeFieldValue at hw
        split at hw
        · cases hw
        · exact hw
      rw [← hsome']
      simp only [Option.map_some, Option.some.injEq, forall_eq']
      exact safeUrl_keeps hurl
  rw [← isoTimestamp_keeps hcaptured, ← hvalue']
  constructor
  · intro heq
    rw [heq]
    exact ⟨rfl, rfl⟩
  · rintro ⟨hdate, hurl⟩
    cases field'
    simp only at hdate hparser hurl hstatus hsource
    rw [hdate, hparser, hurl, hstatus, hsource]

theorem sanitizeTrack_keeps {track track' : CanonicalDistributorTrack} {index : ℕ}
    (h : sanitizeTrack P track index = .ok track') : track' = track ↔ KeepsTrack P track := by
  obtain ⟨hisrc, heq⟩ := sanitizeTrack_ok h
  rw [KeepsTrack, ← sanitizeField_keeps hisrc]
  constructor
  · rintro rfl
    exact ⟨congrArg CanonicalDistributorTrack.lyrics heq, rfl⟩
  · rintro ⟨hlyrics, hsame⟩
    rw [heq, hsame]
    cases track
    simp only at hlyrics
    rw [hlyrics]

/-- A list comes back as it is exactly if each of its elements does. -/
theorem mapM_zipIdx_keeps {α : Type} {f : α → ℕ → Checked α} {C : α → Prop}
    (hf : ∀ i x y, f x i = .ok y → (y = x ↔ C x)) {xs ys : List α} {k : ℕ}
    (h : (xs.zipIdx k).mapM (fun x => f x.1 x.2) = .ok ys) : ys = xs ↔ ∀ x ∈ xs, C x := by
  induction xs generalizing ys k with
  | nil =>
    obtain rfl := Except.ok.inj h
    simp
  | cons x xs ih =>
    rw [mapM_ok, List.zipIdx_cons, List.forall₂_cons_left_iff] at h
    obtain ⟨y, zs, hy, hzs, rfl⟩ := h
    rw [List.cons.injEq, hf k x y hy, ih (mapM_ok.2 hzs), List.forall_mem_cons]

theorem featuredArtists_keeps {artists artists' : Option (List String)}
    (h : (artists.mapM fun artists => (artists.take 100).zipIdx.mapM fun (artist, index) =>
      textValue artist s!"featured artist {index}" 2048) = .ok artists') :
    artists' = artists ↔ ∀ names, artists = some names → names.length ≤ 100 := by
  cases artists with
  | none =>
    obtain rfl := Except.ok.inj h
    simp
  | some names =>
    obtain ⟨kept, hkept, hsome⟩ := bind_ok.1 h
    obtain rfl := Except.ok.inj hsome
    have htake : kept = names.take 100 :=
      mapM_zipIdx_checked (f := fun artist index => textValue artist s!"featured artist {index}" 2048)
        (fun _ _ _ => textValue_ok) hkept
    simp only [htake, Option.some.injEq, forall_eq', List.take_eq_self_iff]

theorem optionField_keeps {name : String} {field field' : Option (MetadataField String)}
    (h : field.mapM (sanitizeField P name false) = .ok field') :
    field' = field ↔ ∀ f, field = some f → KeepsDate P f.capturedAt := by
  cases field with
  | none =>
    obtain rfl := Except.ok.inj h
    simp
  | some f =>
    obtain ⟨g, hg, hsome⟩ := bind_ok.1 h
    obtain rfl := Except.ok.inj hsome
    simp only [Option.some.injEq, forall_eq']
    exact sanitizeField_keeps hg

/-- What was accepted is the outcome less what is documented exactly if it is kept. -/
theorem sanitizeOutcome_keeps {o o' : ReleaseExtractionOutcome} (h : sanitizeOutcome P o = .ok o') :
    o' = redacted o ↔ Keeps P o := by
  cases o with
  | failed releaseId reason detail elapsedMs fingerprint =>
    obtain ⟨-, -, -, rfl⟩ := sanitizeOutcome_failed h
    exact iff_of_true rfl trivial
  | skipped releaseId reason =>
    obtain ⟨-, rfl⟩ := sanitizeOutcome_skipped h
    exact iff_of_true rfl trivial
  | completed release source elapsedMs fingerprint =>
    obtain ⟨r, htracks, hr, elapsed, helapsed, print, hprint, rfl⟩ := sanitizeOutcome_completed h
    rw [nonNegativeNumber_ok helapsed, optionMapM_checked (fun _ _ => textValue_ok) hprint]
    obtain ⟨hid, htitle, hartist, hfeatured, hupc, hartwork, hreleased, huploaded, hlabel, hstores,
      -⟩ := sanitizeRelease_ok hr
    have hfeatured' := featuredArtists_keeps hfeatured
    have hupc' := sanitizeField_keeps hupc
    have hartwork' := sanitizeField_keepsUrl hartwork
    have hreleased' := sanitizeField_keeps hreleased
    have huploaded' := optionField_keeps huploaded
    have hlabel' := optionField_keeps hlabel
    have htracks' := mapM_zipIdx_keeps (f := sanitizeTrack P) (fun _ _ _ h => sanitizeTrack_keeps h)
      htracks
    simp only [redacted, ReleaseExtractionOutcome.completed.injEq, and_true]
    constructor
    · intro heq
      have hurl := hartwork'.1 (by rw [heq])
      have hstores' : release.submittedStores = none := by
        rw [heq] at hstores
        exact hstores
      exact ⟨hfeatured'.1 (by rw [heq]), hstores', hupc'.1 (by rw [heq]), hurl.1, hurl.2,
        hreleased'.1 (by rw [heq]), huploaded'.1 (by rw [heq]), hlabel'.1 (by rw [heq]),
        htracks'.1 (by rw [heq])⟩
    · intro hkeeps
      have h₁ := hfeatured'.2 hkeeps.artists
      have h₂ := hupc'.2 hkeeps.upc
      have h₃ := hartwork'.2 ⟨hkeeps.artwork, hkeeps.artworkUrl⟩
      have h₄ := hreleased'.2 hkeeps.releaseDate
      have h₅ := huploaded'.2 hkeeps.uploadDate
      have h₆ := hlabel'.2 hkeeps.label
      have h₇ := htracks'.2 hkeeps.tracks
      have h₈ := hkeeps.stores
      cases r
      cases release
      simp only at *
      rw [hid, htitle, hartist, h₁, h₂, h₃, h₄, h₅, h₆, h₇, h₈, hstores]

end Rebuild

/-! ### Reading a row again -/

/-- The language reads what it writes: a date in ISO form is short text and the same
date, and a URL is text and parses to itself. -/
structure Platform.Faithful (P : Platform) : Prop where
  date : ∀ text epoch, P.dateParse text = some epoch →
    P.dateParse (P.toISOString epoch) = some epoch
  dateText : ∀ text epoch name, P.dateParse text = some epoch →
    textValue (P.toISOString epoch) name 64 = .ok (P.toISOString epoch)
  url : ∀ text url, P.parseUrl text = some url → P.parseUrl url.plain = some url
  urlText : ∀ text url, P.parseUrl text = some url →
    isBlank url.plain = false ∧ hasControlCharacter url.plain true = false

/-- The check accepts what it has answered. -/
def Stable {α : Type} (f : α → Checked α) : Prop := ∀ x y, f x = .ok y → f y = .ok y

section Stable

variable {α : Type}

theorem stable_of_checked {f : α → Checked α} (hf : ∀ x y, f x = .ok y → y = x) : Stable f := by
  intro x y h
  obtain rfl := hf x y h
  exact h

theorem Stable.option {f : α → Checked α} (hf : Stable f) : Stable fun o : Option α => o.mapM f := by
  intro x y h
  cases x with
  | none =>
    obtain rfl := Except.ok.inj h
    rfl
  | some a =>
    obtain ⟨b, hb, hsome⟩ := bind_ok.1 h
    obtain rfl := Except.ok.inj hsome
    exact bind_ok.2 ⟨b, hf a b hb, rfl⟩

theorem Stable.zipIdx {f : α → ℕ → Checked α} (hf : ∀ i, Stable fun x => f x i) :
    Stable fun xs : List α => xs.zipIdx.mapM fun x => f x.1 x.2 := by
  intro xs ys
  generalize 0 = k
  intro h
  induction xs generalizing ys k with
  | nil =>
    obtain rfl := Except.ok.inj h
    rfl
  | cons x xs ih =>
    rw [mapM_ok, List.zipIdx_cons, List.forall₂_cons_left_iff] at h
    obtain ⟨y, ys, hy, hys, rfl⟩ := h
    rw [mapM_ok, List.zipIdx_cons, List.forall₂_cons]
    exact ⟨hf k x y hy, mapM_ok.1 (ih ys (k + 1) (mapM_ok.2 hys))⟩

theorem stable_textValue (name : String) (max : ℕ) : Stable fun v => textValue v name max :=
  stable_of_checked fun _ _ => textValue_ok

theorem stable_featuredArtists : Stable fun artists : List String =>
    (artists.take 100).zipIdx.mapM fun (artist, index) =>
      textValue artist s!"featured artist {index}" 2048 := by
  intro xs ys h
  have hys : ys = xs.take 100 :=
    mapM_zipIdx_checked (f := fun artist index => textValue artist s!"featured artist {index}" 2048)
      (fun _ _ _ => textValue_ok) h
  have hstable := Stable.zipIdx (f := fun artist index =>
    textValue artist s!"featured artist {index}" 2048) (fun _ => stable_textValue _ _) _ _ h
  rw [hys] at hstable ⊢
  simp only [List.take_take, min_self]
  exact hstable

end Stable

section Again

variable {P : Platform}

theorem Platform.Faithful.roundTrips (hP : P.Faithful) : P.RoundTrips where
  date t n m hn hm := by
    rw [hP.date t n hn] at hm
    exact (Option.some.inj hm).symm
  url t u v hu hv := by
    rw [hP.url t u hu] at hv
    rw [Option.some.inj hv]

section Faithful

variable (hP : P.Faithful)
include hP

theorem stable_isoTimestamp (name : String) : Stable fun t => isoTimestamp P t name := by
  intro t t' h
  obtain ⟨epoch, hepoch, rfl⟩ := isoTimestamp_ok h
  refine bind_ok.2 ⟨P.toISOString epoch, hP.dateText t epoch name hepoch, ?_⟩
  rw [hP.date t epoch hepoch]

omit hP in
theorem safeUrl_fits {t t' name : String} (h : safeUrl P t name = .ok t') :
    utf16Length t ≤ 8192 := by
  obtain ⟨c, hc, -⟩ := bind_ok.1 h
  unfold textValue at hc
  split at hc
  · cases hc
  · rename_i hfits
    simp only [Bool.or_eq_true, decide_eq_true_eq, not_or, not_lt] at hfits
    exact hfits.1.2

/-- A URL is accepted again unless it is written longer than it came. -/
theorem safeUrl_again {t t' name : String} (h : safeUrl P t name = .ok t')
    (hfits : utf16Length t' ≤ 8192) : safeUrl P t' name = .ok t' := by
  obtain ⟨url, hurl, rfl, hprotocol, husername, hpassword⟩ := safeUrl_ok h
  obtain ⟨hblank, hcontrol⟩ := hP.urlText t url hurl
  refine bind_ok.2 ⟨url.plain, ?_, ?_⟩
  · unfold textValue
    rw [if_neg (by simp [hblank, hcontrol, hfits])]
  · rw [hP.url t url hurl]
    simp only [hprotocol, husername, hpassword, ne_eq, not_true_eq_false, decide_false,
      Bool.or_self, Bool.false_eq_true, if_false]

theorem sanitizeField_again {name : String} {asUrl : Bool} {field field' : MetadataField String}
    (h : sanitizeField P name asUrl field = .ok field')
    (hvalue : field'.value.mapM (sanitizeFieldValue P field' name asUrl) = .ok field'.value) :
    sanitizeField P name asUrl field' = .ok field' := by
  obtain ⟨capturedAt, hcaptured, h⟩ := bind_ok.1 h
  obtain ⟨parserVersion, hparser, h⟩ := bind_ok.1 h
  obtain ⟨value, -, h⟩ := bind_ok.1 h
  obtain rfl := Except.ok.inj h
  refine bind_ok.2 ⟨capturedAt, stable_isoTimestamp hP _ _ _ hcaptured, ?_⟩
  refine bind_ok.2 ⟨parserVersion, stable_textValue _ _ _ _ hparser, ?_⟩
  exact bind_ok.2 ⟨value, hvalue, rfl⟩

theorem stable_sanitizeField (name : String) : Stable (sanitizeField P name false) := by
  intro field field' h
  refine sanitizeField_again hP h ?_
  obtain ⟨-, -, hvalue, hstatus, -⟩ := sanitizeField_ok h
  have hstable : Stable (sanitizeFieldValue P field name false) :=
    stable_of_checked fun _ _ => sanitizeFieldValue_text
  have hsame : sanitizeFieldValue P field' name false = sanitizeFieldValue P field name false := by
    funext v
    unfold sanitizeFieldValue
    rw [hstatus]
  rw [hsame]
  exact hstable.option _ _ hvalue

theorem stable_sanitizeTrack (index : ℕ) : Stable fun t => sanitizeTrack P t index := by
  intro t t' h
  obtain ⟨id, hid, h⟩ := bind_ok.1 h
  obtain ⟨title, htitle, h⟩ := bind_ok.1 h
  obtain ⟨isrc, hisrc, h⟩ := bind_ok.1 h
  obtain ⟨number, hnumber, h⟩ := bind_ok.1 h
  obtain ⟨duration, hduration, h⟩ := bind_ok.1 h
  obtain rfl := Except.ok.inj h
  refine bind_ok.2 ⟨id, (stable_textValue _ _).option _ _ hid, ?_⟩
  refine bind_ok.2 ⟨title, stable_textValue _ _ _ _ htitle, ?_⟩
  refine bind_ok.2 ⟨isrc, stable_sanitizeField hP _ _ _ hisrc, ?_⟩
  refine bind_ok.2 ⟨number, (stable_of_checked fun _ _ => nonNegativeInteger_ok).option _ _ hnumber, ?_⟩
  exact bind_ok.2
    ⟨duration, (stable_of_checked fun _ _ => nonNegativeNumber_ok).option _ _ hduration, rfl⟩

/-- A rebuilt release is accepted again unless its artwork is not. -/
theorem sanitizeRelease_again {r r' : CanonicalDistributorRelease}
    {tracks : List CanonicalDistributorTrack} (h : sanitizeRelease P r tracks = .ok r')
    (hartwork' : sanitizeField P "release artwork" true r'.artworkUrl = .ok r'.artworkUrl) :
    sanitizeRelease P r' tracks = .ok r' := by
  obtain ⟨id, hid, h⟩ := bind_ok.1 h
  obtain ⟨title, htitle, h⟩ := bind_ok.1 h
  obtain ⟨artist, hartist, h⟩ := bind_ok.1 h
  obtain ⟨featured, hfeatured, h⟩ := bind_ok.1 h
  obtain ⟨upc, hupc, h⟩ := bind_ok.1 h
  obtain ⟨artwork, -, h⟩ := bind_ok.1 h
  obtain ⟨released, hreleased, h⟩ := bind_ok.1 h
  obtain ⟨uploaded, huploaded, h⟩ := bind_ok.1 h
  obtain ⟨label, hlabel, h⟩ := bind_ok.1 h
  obtain rfl := Except.ok.inj h
  refine bind_ok.2 ⟨id, stable_textValue _ _ _ _ hid, ?_⟩
  refine bind_ok.2 ⟨title, stable_textValue _ _ _ _ htitle, ?_⟩
  refine bind_ok.2 ⟨artist, (stable_textValue _ _).option _ _ hartist, ?_⟩
  refine bind_ok.2 ⟨featured, stable_featuredArtists.option _ _ hfeatured, ?_⟩
  refine bind_ok.2 ⟨upc, stable_sanitizeField hP _ _ _ hupc, ?_⟩
  refine bind_ok.2 ⟨artwork, hartwork', ?_⟩
  refine bind_ok.2 ⟨released, stable_sanitizeField hP _ _ _ hreleased, ?_⟩
  refine bind_ok.2 ⟨uploaded, (stable_sanitizeField hP _).option _ _ huploaded, ?_⟩
  exact bind_ok.2 ⟨label, (stable_sanitizeField hP _).option _ _ hlabel, rfl⟩

end Faithful

variable (P) in
/-- The artwork URL is not too long for a row, as the language writes it. -/
def Fits : ReleaseExtractionOutcome → Prop
  | .completed release .. => ∀ text, release.artworkUrl.value = some text →
      ∀ url, P.parseUrl text = some url → utf16Length url.plain ≤ 8192
  | _ => True

/-- An artwork field is accepted again exactly if its URL fits. -/
theorem sanitizeArtwork_again (hP : P.Faithful) {name : String} {field field' : MetadataField String}
    (h : sanitizeField P name true field = .ok field') :
    (∃ f, sanitizeField P name true field' = .ok f) ↔
      ∀ text, field.value = some text → ∀ url, P.parseUrl text = some url →
        utf16Length url.plain ≤ 8192 := by
  obtain ⟨-, -, hvalue, hstatus, -⟩ := sanitizeField_ok h
  constructor
  · rintro ⟨f, hf⟩ text htext url hurl
    obtain ⟨-, -, hvalue', -, -⟩ := sanitizeField_ok hf
    rw [htext] at hvalue
    obtain ⟨w, hw, hsome⟩ := bind_ok.1 hvalue
    rw [← Except.ok.inj hsome] at hvalue'
    obtain ⟨x, hx, -⟩ := bind_ok.1 hvalue'
    obtain ⟨url', hurl', hplain, -⟩ := safeUrl_ok (sanitizeFieldValue_url hw).2
    obtain rfl : url = url' := Option.some.inj (hurl.symm.trans hurl')
    rw [← hplain]
    exact safeUrl_fits (sanitizeFieldValue_url hx).2
  · intro hfits
    refine ⟨field', sanitizeField_again hP h ?_⟩
    cases htext : field.value with
    | none =>
      rw [htext] at hvalue
      rw [← Except.ok.inj hvalue]
      rfl
    | some text =>
      rw [htext] at hvalue
      obtain ⟨w, hw, hsome⟩ := bind_ok.1 hvalue
      obtain ⟨hpresent, hurl⟩ := sanitizeFieldValue_url hw
      obtain ⟨url, hparse, hplain, -⟩ := safeUrl_ok hurl
      have hagain := safeUrl_again hP hurl (hplain ▸ hfits text htext url hparse)
      rw [← Except.ok.inj hsome]
      refine bind_ok.2 ⟨w, ?_, rfl⟩
      unfold sanitizeFieldValue
      rw [if_neg (by simp [hstatus, hpresent]), if_pos rfl]
      exact hagain

/-- A row that was accepted is accepted again exactly if it fits. -/
theorem sanitizeOutcome_again (hP : P.Faithful) {o o' : ReleaseExtractionOutcome}
    (h : sanitizeOutcome P o = .ok o') :
    (∃ o'', sanitizeOutcome P o' = .ok o'') ↔ Fits P o := by
  have hprints : Stable sanitizeFingerprint := (stable_textValue _ _).option
  have helapseds : ∀ name, Stable fun n => nonNegativeNumber n name := fun _ =>
    stable_of_checked fun _ _ => nonNegativeNumber_ok
  cases o with
  | failed releaseId reason detail elapsedMs fingerprint =>
    obtain ⟨hid, helapsed, hprint, rfl⟩ := sanitizeOutcome_failed h
    exact iff_of_true ⟨_, bind_ok.2 ⟨_, hid, bind_ok.2 ⟨_, helapsed, bind_ok.2 ⟨_, hprint, rfl⟩⟩⟩⟩ trivial
  | skipped releaseId reason =>
    obtain ⟨hid, rfl⟩ := sanitizeOutcome_skipped h
    exact iff_of_true ⟨_, bind_ok.2 ⟨_, hid, rfl⟩⟩ trivial
  | completed release source elapsedMs fingerprint =>
    have hmax : release.tracks.length ≤ MAX_RELEASES := by
      rw [sanitizeOutcome] at h
      split at h
      · cases h
      · omega
    obtain ⟨r, htracks, hr, elapsed, helapsed, print, hprint, rfl⟩ := sanitizeOutcome_completed h
    obtain ⟨-, -, -, -, -, hartwork, -⟩ := sanitizeRelease_ok hr
    rw [Fits, ← sanitizeArtwork_again hP hartwork]
    constructor
    · rintro ⟨o'', ho''⟩
      obtain ⟨r', -, hr', -⟩ := sanitizeOutcome_completed ho''
      obtain ⟨-, -, -, -, -, hartwork', -⟩ := sanitizeRelease_ok hr'
      exact ⟨_, hartwork'⟩
    · rintro ⟨f, hf⟩
      have hsame : f = r.artworkUrl := settles_sanitizeField hP.roundTrips _ _ _ _ _ hartwork hf
      rw [hsame] at hf
      have hlength : r.tracks.length ≤ MAX_RELEASES := by
        have hforall := (mapM_ok.1 htracks).length_eq
        rw [List.length_zipIdx] at hforall
        omega
      refine ⟨.completed r source elapsed print, ?_⟩
      rw [sanitizeOutcome, if_neg (by omega)]
      refine bind_ok.2 ⟨r.tracks, Stable.zipIdx (stable_sanitizeTrack hP) _ _ htracks, ?_⟩
      refine bind_ok.2 ⟨r, sanitizeRelease_again hP hr hf, ?_⟩
      exact bind_ok.2 ⟨elapsed, helapseds _ _ _ helapsed,
        bind_ok.2 ⟨print, hprints _ _ hprint, rfl⟩⟩

end Again

/-! ### Stored and read -/

section Entries

variable {α κ : Type} [DecidableEq κ] {key : α → κ} {R : α → α → Prop}

/-- Where entries correspond and keep their keys, so do the ones found under a key. -/
theorem get?_forall₂ (hR : ∀ x y, R x y → key y = key x) {xs ys : List α}
    (h : List.Forall₂ R xs ys) (k : κ) : Option.Rel R (get? key k xs) (get? key k ys) := by
  induction h with
  | nil => exact .none
  | @cons x y xs ys hxy _ ih =>
    unfold get? at ih ⊢
    rw [List.find?_cons, List.find?_cons, hR x y hxy]
    split
    · exact .some hxy
    · exact ih

theorem get?_perm {xs ys : List α} (h : xs.Perm ys) (hnodup : (xs.map key).Nodup) (k : κ) :
    get? key k xs = get? key k ys := by
  cases hx : get? key k xs with
  | none =>
    rw [get?_eq_none] at hx
    exact (get?_eq_none.2 fun hmem => hx ((h.map key).mem_iff.2 hmem)).symm
  | some x =>
    obtain rfl := key_of_get? hx
    exact (get?_of_mem ((h.map key).nodup_iff.1 hnodup) (h.mem_iff.1 (mem_of_get? hx))).symm

end Entries

section Store

variable {P : Platform} {n worker : ℕ} {s : String} {st st' : CheckpointState}
  {outcomes : List ReleaseExtractionOutcome} {o : ReleaseExtractionOutcome}

theorem outcomeReleaseId_sanitized {o' : ReleaseExtractionOutcome} (h : sanitizeOutcome P o = .ok o') :
    o'.outcomeReleaseId = o.outcomeReleaseId := by
  cases o with
  | failed releaseId reason detail elapsedMs fingerprint =>
    obtain ⟨-, -, -, rfl⟩ := sanitizeOutcome_failed h
    rfl
  | skipped releaseId reason =>
    obtain ⟨-, rfl⟩ := sanitizeOutcome_skipped h
    rfl
  | completed release source elapsedMs fingerprint =>
    obtain ⟨r, -, hr, elapsed, -, print, -, rfl⟩ := sanitizeOutcome_completed h
    exact (sanitizeRelease_ok hr).1

theorem insertBatches_eq (hn : 0 < n) {fuel : ℕ} {rows os rows' : List ReleaseExtractionOutcome}
    (hfuel : os.length ≤ fuel) (h : insertBatches n rows fuel os = .ok rows') :
    rows' = Distrokid.putOutcomes rows os := by
  induction fuel generalizing rows os with
  | zero =>
    obtain rfl := List.length_eq_zero_iff.1 (Nat.le_zero.1 hfuel)
    exact (Except.ok.inj h).symm
  | succ fuel ih =>
    cases os with
    | nil => exact (Except.ok.inj h).symm
    | cons o os =>
      rw [insertBatches] at h
      · split at h
        · have hdrop : ((o :: os).drop n).length ≤ fuel := by
            rw [List.length_drop]
            omega
          rw [ih hdrop h]
          unfold Distrokid.putOutcomes
          rw [← putAll_append, List.take_append_drop]
        · cases h
      · simp

/-- What a batch leaves in the store. -/
theorem stored_of_put (hn : 0 < n) (h : durablePutOutcomes P n st worker s outcomes = (.ok (), st')) :
    ∃ sanitized, outcomes.mapM (sanitizeOutcome P) = .ok sanitized ∧ BoundTo worker s st' ∧
      st'.durable.outcomes s = Distrokid.putOutcomes (st.durable.outcomes s) sanitized := by
  unfold durablePutOutcomes at h
  cases haccept : acceptOutcomes P n st worker s outcomes with
  | error e =>
    rw [haccept] at h
    cases h
  | ok rows =>
    rw [haccept] at h
    obtain ⟨b, hb, h₁⟩ := bind_ok.1 haccept
    split at h₁
    · cases h₁
    obtain ⟨sanitized, hsanitized, h₂⟩ := bind_ok.1 h₁
    obtain ⟨_, hlock, h₃⟩ := bind_ok.1 h₂
    have hbound : BoundTo worker s st := boundTo_of_locked hb hlock
    have hrows : rows = Distrokid.putOutcomes (st.durable.outcomes s) sanitized :=
      insertBatches_eq hn (le_refl _) h₃
    refine ⟨sanitized, hsanitized, ?_, ?_⟩
    · simp only at h
      split at h
      · rw [← (Prod.mk.inj h).2]
        exact hbound
      · rw [← (Prod.mk.inj h).2]
        exact hbound
    · rw [← hrows]
      simp only at h
      split at h
      · rw [← (Prod.mk.inj h).2]
        show Function.update st.durable.outcomes s rows s = rows
        rw [Function.update_self]
      · rw [← (Prod.mk.inj h).2]
        show Function.update st.durable.outcomes s rows s = rows
        rw [Function.update_self]

theorem get?_sanitized {xs ys : List ReleaseExtractionOutcome} (h : xs.mapM (sanitizeOutcome P) = .ok ys)
    (id : String) : Option.Rel (fun x y => sanitizeOutcome P x = .ok y)
      (get? (·.outcomeReleaseId) id xs) (get? (·.outcomeReleaseId) id ys) := by
  have hkey : ∀ x y : ReleaseExtractionOutcome, sanitizeOutcome P x = .ok y →
      y.outcomeReleaseId = x.outcomeReleaseId := fun _ _ => outcomeReleaseId_sanitized
  exact get?_forall₂ hkey (mapM_ok.1 h) id

/-- The row that the batch leaves for an outcome of its own is that outcome, sanitized. -/
theorem get?_stored {sanitized : List ReleaseExtractionOutcome}
    (hsanitized : outcomes.mapM (sanitizeOutcome P) = .ok sanitized) (rows : List ReleaseExtractionOutcome)
    {id : String} {l : ReleaseExtractionOutcome}
    (hl : get? (·.outcomeReleaseId) id outcomes.reverse = some l) :
    ∃ row, sanitizeOutcome P l = .ok row ∧
      get? (·.outcomeReleaseId) id (Distrokid.putOutcomes rows sanitized) = some row := by
  have hrel : Option.Rel (fun x y => sanitizeOutcome P x = .ok y)
      (get? (·.outcomeReleaseId) id outcomes.reverse) (get? (·.outcomeReleaseId) id sanitized.reverse) :=
    get?_sanitized (mapM_ok.2 (List.rel_reverse (mapM_ok.1 hsanitized))) id
  rw [hl] at hrel
  unfold Distrokid.putOutcomes
  rw [get?_putAll]
  generalize get? (·.outcomeReleaseId) id sanitized.reverse = found at hrel ⊢
  cases hrel with
  | some hrow => exact ⟨_, hrow, rfl⟩

theorem ids_sanitized {sanitized : List ReleaseExtractionOutcome}
    (hsanitized : outcomes.mapM (sanitizeOutcome P) = .ok sanitized) :
    sanitized.map (·.outcomeReleaseId) = outcomes.map (·.outcomeReleaseId) := by
  have hforall := mapM_ok.1 hsanitized
  induction hforall with
  | nil => rfl
  | cons hxy hrest ih =>
    rw [List.map_cons, List.map_cons, outcomeReleaseId_sanitized hxy, ih (mapM_ok.2 hrest)]

/-- A row of another release stays in the store as it is. -/
theorem get?_kept {sanitized : List ReleaseExtractionOutcome}
    (hsanitized : outcomes.mapM (sanitizeOutcome P) = .ok sanitized) (rows : List ReleaseExtractionOutcome)
    {id : String} (hid : id ∉ outcomes.map (·.outcomeReleaseId)) :
    get? (·.outcomeReleaseId) id (Distrokid.putOutcomes rows sanitized) =
      get? (·.outcomeReleaseId) id rows := by
  have hnone : get? (·.outcomeReleaseId) id sanitized.reverse = none := by
    rw [get?_eq_none, List.map_reverse, List.mem_reverse, ids_sanitized hsanitized]
    exact hid
  unfold Distrokid.putOutcomes
  rw [get?_putAll, hnone, Option.none_or]

/-- Every row can be read again exactly if the batch fits and the rows before could be read. -/
theorem readable_iff (hP : P.Faithful) {sanitized : List ReleaseExtractionOutcome}
    (hsanitized : outcomes.mapM (sanitizeOutcome P) = .ok sanitized)
    {rows : List ReleaseExtractionOutcome} (hkeys : (rows.map (·.outcomeReleaseId)).Nodup) :
    (∀ row ∈ Distrokid.putOutcomes rows sanitized, ∃ r, sanitizeOutcome P row = .ok r) ↔
      (∀ l, get? (·.outcomeReleaseId) l.outcomeReleaseId outcomes.reverse = some l → Fits P l) ∧
        ∀ row ∈ rows, row.outcomeReleaseId ∉ outcomes.map (·.outcomeReleaseId) →
          ∃ r, sanitizeOutcome P row = .ok r := by
  have hnodup : ((Distrokid.putOutcomes rows sanitized).map (·.outcomeReleaseId)).Nodup :=
    nodup_putAll hkeys
  constructor
  · intro h
    refine ⟨fun l hl => ?_, fun row hrow hnot => ?_⟩
    · obtain ⟨row, hrow, hget⟩ := get?_stored hsanitized rows hl
      exact (sanitizeOutcome_again hP hrow).1 (h row (mem_of_get? hget))
    · have hget : get? (·.outcomeReleaseId) row.outcomeReleaseId
          (Distrokid.putOutcomes rows sanitized) = some row := by
        rw [get?_kept hsanitized rows hnot]
        exact get?_of_mem hkeys hrow
      exact h row (mem_of_get? hget)
  · rintro ⟨hfits, hreadable⟩ row hrow
    have hget : get? (·.outcomeReleaseId) row.outcomeReleaseId
        (Distrokid.putOutcomes rows sanitized) = some row := get?_of_mem hnodup hrow
    by_cases hid : row.outcomeReleaseId ∈ outcomes.map (·.outcomeReleaseId)
    · have hsome : (get? (·.outcomeReleaseId) row.outcomeReleaseId outcomes.reverse).isSome := by
        rw [get?_isSome, List.map_reverse, List.mem_reverse]
        exact hid
      obtain ⟨l, hl⟩ := Option.isSome_iff_exists.1 hsome
      obtain ⟨row', hrow', hget'⟩ := get?_stored hsanitized rows hl
      obtain rfl : row' = row := Option.some.inj (hget'.symm.trans hget)
      refine (sanitizeOutcome_again hP hrow').2 (hfits l ?_)
      rw [key_of_get? hl]
      exact hl
    · rw [get?_kept hsanitized rows hid] at hget
      exact hreadable row (mem_of_get? hget) hid

/-- An outcome comes back, less what is documented, exactly if it is kept and every row
that the batch leaves can be read. -/
theorem roundTrip_iff (hP : P.Faithful) (hn : 0 < n)
    (hkeys : ((st.durable.outcomes s).map (·.outcomeReleaseId)).Nodup)
    (hput : durablePutOutcomes P n st worker s outcomes = (.ok (), st'))
    (ho : get? (·.outcomeReleaseId) o.outcomeReleaseId outcomes.reverse = some o) :
    (∃ answers, durableGetOutcomes P st' worker s = .ok answers ∧
        get? (·.outcomeReleaseId) o.outcomeReleaseId answers = some (redacted o)) ↔
      Keeps P o ∧
        (∀ l, get? (·.outcomeReleaseId) l.outcomeReleaseId outcomes.reverse = some l → Fits P l) ∧
        ∀ row ∈ st.durable.outcomes s, row.outcomeReleaseId ∉ outcomes.map (·.outcomeReleaseId) →
          ∃ r, sanitizeOutcome P row = .ok r := by
  obtain ⟨sanitized, hsanitized, hbound, hrows⟩ := stored_of_put hn hput
  obtain ⟨row, hrow, hget⟩ := get?_stored hsanitized (st.durable.outcomes s) ho
  rw [← readable_iff hP hsanitized hkeys, ← sanitizeOutcome_keeps hrow, durableGetOutcomes_eq hbound,
    hrows]
  generalize hstored : Distrokid.putOutcomes (st.durable.outcomes s) sanitized = stored at hget ⊢
  have hnodup : (stored.map (·.outcomeReleaseId)).Nodup := hstored ▸ nodup_putAll hkeys
  have hperm := perm_byReleaseId stored
  have hsorted : get? (·.outcomeReleaseId) o.outcomeReleaseId (byReleaseId stored) = some row := by
    rw [get?_perm hperm (((hperm.map _).nodup_iff).2 hnodup)]
    exact hget
  have hanswer : ∀ answers, (byReleaseId stored).mapM (sanitizeOutcome P) = .ok answers →
      get? (·.outcomeReleaseId) o.outcomeReleaseId answers = some row := by
    intro answers hanswers
    have hrel := get?_sanitized hanswers o.outcomeReleaseId
    rw [hsorted] at hrel
    generalize get? (·.outcomeReleaseId) o.outcomeReleaseId answers = found at hrel ⊢
    cases hrel with
    | some hsame => rw [settles_sanitizeOutcome hP.roundTrips _ _ _ hrow hsame]
  constructor
  · rintro ⟨answers, hanswers, hsome⟩
    refine ⟨Option.some.inj ((hanswer answers hanswers).symm.trans hsome), fun row' hrow' => ?_⟩
    exact mapM_isOk.1 ⟨answers, hanswers⟩ row' (hperm.mem_iff.2 hrow')
  · rintro ⟨hkeeps, hreadable⟩
    obtain ⟨answers, hanswers⟩ : ∃ answers, (byReleaseId stored).mapM (sanitizeOutcome P) = .ok answers :=
      mapM_isOk.2 fun row' hrow' => hreadable row' (hperm.mem_iff.1 hrow')
    exact ⟨answers, hanswers, hkeeps ▸ hanswer answers hanswers⟩

end Store

/-! ### A release with and without lyrics -/

theorem faithful_samplePlatform : samplePlatform.Faithful where
  date text epoch h := by
    simp only [samplePlatform] at h ⊢
    split at h
    · exact h
    · cases h
  dateText text epoch name _ := by
    show textValue "2026-01-01T00:00:00.000Z" name 64 = _
    unfold textValue
    rw [if_neg (by decide)]
    rfl
  url text url h := by
    simp only [samplePlatform] at h ⊢
    split at h
    · rw [← Option.some.inj h, if_pos rfl]
    · cases h
  urlText text url h := by
    simp only [samplePlatform] at h
    split at h
    · rw [← Option.some.inj h]
      decide
    · cases h

/-- A completed release with one track, captured at the date that the platform knows. -/
def readWithLyrics (lyrics : Option Lyrics) : ReleaseExtractionOutcome :=
  let at0 := "2026-01-01T00:00:00.000Z"
  let isrc : MetadataField String := ⟨some "USRC17607839", .present, .networkJson, at0, "parser"⟩
  let none : MetadataField String := ⟨none, .absentAtSource, .networkJson, at0, "parser"⟩
  .completed
    { sampleRelease "a" with
      upc := none, artworkUrl := none, releaseDate := none
      tracks := [⟨some "track", "title", isrc, some 1, some 180, lyrics⟩] }
    .networkJson 1 Option.none

def storedRead (lyrics : Option Lyrics) : Checked Unit × CheckpointState :=
  durablePutOutcomes samplePlatform 100 boundStore 0 "s" [readWithLyrics lyrics]

theorem roundTrip_kept :
    ∃ answers, durableGetOutcomes samplePlatform (storedRead none).2 0 "s" = .ok answers ∧
      get? (·.outcomeReleaseId) "a" answers = some (redacted (readWithLyrics none)) := by
  have hput : storedRead none = (.ok (), (storedRead none).2) := Prod.ext (by decide +kernel) rfl
  have hdate : KeepsDate samplePlatform "2026-01-01T00:00:00.000Z" := fun _ _ => rfl
  refine (roundTrip_iff (o := readWithLyrics none) faithful_samplePlatform (by decide) (by decide) hput
    rfl).2 ⟨?_, ?_, ?_⟩
  · refine ⟨nofun, rfl, hdate, hdate, nofun, hdate, nofun, nofun, ?_⟩
    simp only [List.forall_mem_singleton]
    exact ⟨rfl, hdate⟩
  · intro l hl
    obtain rfl := List.mem_singleton.1 (mem_of_get? hl)
    exact nofun
  · intro row hrow
    exact absurd hrow List.not_mem_nil

/-- The lyrics of a track are accepted and do not come back. -/
theorem lyrics_lost : (storedRead (some ⟨.present, .none⟩)).1 = .ok () ∧
    durableGetOutcomes samplePlatform (storedRead (some ⟨.present, .none⟩)).2 0 "s" =
      .ok [readWithLyrics none] ∧
    readWithLyrics none ≠ redacted (readWithLyrics (some ⟨.present, .none⟩)) := by
  refine ⟨by decide +kernel, by decide +kernel, by decide⟩

end CatalogSentinel.Checkpoint
