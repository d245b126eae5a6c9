import CatalogSentinel.Distrokid.Jobs

/-!
What the checkpoint store accepts: bounded text without control characters, safe
integers, timestamps in ISO form, artwork URLs without query or fragment, and
outcomes rebuilt field by field from these. A value that was accepted once comes
back unchanged wherever it is accepted again.
-/

namespace CatalogSentinel.Checkpoint

open CatalogSentinel.Data CatalogSentinel.Distrokid

inductive CheckpointError
  | bindingRequired (snapshotId : String)
  | principalMismatch
  | invalid (message : String)
  | postgres (message : String)
  | redis (message : String)
  deriving DecidableEq, Repr

abbrev Checked := Except CheckpointError

/-- A parsed URL: the parts that are inspected, and its text without query and fragment. -/
structure Url where
  protocol : String
  username : String
  password : String
  plain : String
  deriving DecidableEq, Repr

/-- The date and URL functions of the language: `Date.parse`, `toISOString`, `new URL`. -/
structure Platform where
  dateParse : String → Option ℤ
  toISOString : ℤ → String
  parseUrl : String → Option Url

/-- Written out and parsed again, a date is the same date and a URL the same URL. -/
structure Platform.RoundTrips (P : Platform) : Prop where
  date : ∀ t n m, P.dateParse t = some n → P.dateParse (P.toISOString n) = some m → m = n
  url : ∀ t u v, P.parseUrl t = some u → P.parseUrl u.plain = some v → v.plain = u.plain

def MAX_RELEASES : ℕ := 50000

def hasControlCharacter (value : String) (allowTextWhitespace : Bool) : Bool :=
  value.toList.any fun character =>
    character.toNat < 32 && !(allowTextWhitespace && character.toNat ∈ [9, 10, 13])

/-- `value.length`: a character outside the basic plane counts twice. -/
def utf16Length (value : String) : ℕ :=
  (value.toList.map fun character => if character.toNat < 0x10000 then 1 else 2).sum

def invalidField {α : Type} (name : String) : Checked α :=
  .error (.invalid s!"invalid {name} in snapshot checkpoint")

def textValue (value name : String) (max : ℕ) : Checked String :=
  if isBlank value || utf16Length value > max || hasControlCharacter value true then
    invalidField name
  else .ok value

/-- `Number.isSafeInteger` -/
def isSafeInteger (value : ℚ) : Bool := value.den = 1 ∧ value.num.natAbs ≤ 9007199254740991

def nonNegativeInteger (value : ℚ) (name : String) : Checked ℚ :=
  if !isSafeInteger value || value < 0 then invalidField name else .ok value

def nonNegativeNumber (value : ℚ) (name : String) : Checked ℚ :=
  if value < 0 then invalidField name else .ok value

variable (P : Platform)

def isoTimestamp (value name : String) : Checked String := do
  let candidate ← textValue value name 64
  match P.dateParse candidate with
  | none => invalidField name
  | some epoch => .ok (P.toISOString epoch)

/-- The stable resource of an artwork URL. -/
def safeUrl (value name : String) : Checked String := do
  let input ← textValue value name 8192
  match P.parseUrl input with
  | none => invalidField name
  | some parsed =>
    if parsed.protocol ≠ "https:" || parsed.username ≠ "" || parsed.password ≠ "" then
      invalidField name
    else .ok parsed.plain

/-- A field's value is text, or a URL for artwork; only a present field has one. -/
def sanitizeFieldValue (field : MetadataField String) (name : String) (asUrl : Bool)
    (value : String) : Checked String :=
  if field.status ≠ .present then
    .error (.invalid s!"non-present {name} cannot carry a checkpoint value")
  else if asUrl then safeUrl P value (name ++ ".value")
  else textValue value (name ++ ".value") 8192

/-- Status and source are among the known ones by their type. -/
def sanitizeField (name : String) (asUrl : Bool) (field : MetadataField String) :
    Checked (MetadataField String) := do
  let capturedAt ← isoTimestamp P field.capturedAt (name ++ ".capturedAt")
  let parserVersion ← textValue field.parserVersion (name ++ ".parserVersion") 256
  let value ← field.value.mapM (sanitizeFieldValue P field name asUrl)
  return { field with capturedAt := capturedAt, parserVersion := parserVersion, value := value }

/-- The lyrics of a track are not kept. -/
def sanitizeTrack (track : CanonicalDistributorTrack) (index : ℕ) :
    Checked CanonicalDistributorTrack := do
  let distributorTrackId ← track.distributorTrackId.mapM fun id => textValue id s!"track {index} id" 512
  let title ← textValue track.title s!"track {index} title" 2048
  let isrc ← sanitizeField P s!"track {index} isrc" false track.isrc
  let trackNumber ← track.trackNumber.mapM fun n => nonNegativeInteger n s!"track {index} number"
  let durationSec ← track.durationSec.mapM fun n => nonNegativeNumber n s!"track {index} duration"
  return ⟨distributorTrackId, title, isrc, trackNumber, durationSec, none⟩

/-- The submitted stores of a release are not kept. -/
def sanitizeRelease (release : CanonicalDistributorRelease)
    (tracks : List CanonicalDistributorTrack) : Checked CanonicalDistributorRelease := do
  let distributorReleaseId ← textValue release.distributorReleaseId "outcome releaseId" 512
  let title ← textValue release.title "release title" 2048
  let primaryArtist ← release.primaryArtist.mapM fun a => textValue a "primary artist" 2048
  let featuredArtists ← release.featuredArtists.mapM fun artists =>
    (artists.take 100).zipIdx.mapM fun (artist, index) => textValue artist s!"featured artist {index}" 2048
  let upc ← sanitizeField P "release upc" false release.upc
  let artworkUrl ← sanitizeField P "release artwork" true release.artworkUrl
  let releaseDate ← sanitizeField P "release date" false release.releaseDate
  let uploadDate ← release.uploadDate.mapM (sanitizeField P "upload date" false)
  let label ← release.label.mapM (sanitizeField P "release label" false)
  return ⟨distributorReleaseId, title, primaryArtist, featuredArtists, upc, artworkUrl, releaseDate,
    uploadDate, label, none, tracks⟩

def sanitizeFingerprint (fingerprint : Option String) : Checked (Option String) :=
  fingerprint.mapM fun f => textValue f "endpoint fingerprint" 256

def sanitizeOutcome : ReleaseExtractionOutcome → Checked ReleaseExtractionOutcome
  | .failed distributorReleaseId reason _ elapsedMs endpointFingerprint => do
    let releaseId ← textValue distributorReleaseId "outcome releaseId" 512
    let elapsed ← nonNegativeNumber elapsedMs "failure elapsedMs"
    let fingerprint ← sanitizeFingerprint endpointFingerprint
    return .failed releaseId reason ("checkpointed failure: " ++ reason.key) elapsed fingerprint
  | .skipped distributorReleaseId _ => do
    let releaseId ← textValue distributorReleaseId "outcome releaseId" 512
    return .skipped releaseId "release skipped during extraction"
  | .completed release source elapsedMs endpointFingerprint =>
    if release.tracks.length > MAX_RELEASES then
      .error (.invalid "invalid completed release in snapshot checkpoint")
    else do
    let tracks ← release.tracks.zipIdx.mapM fun (track, index) => sanitizeTrack P track index
    let sanitized ← sanitizeRelease P release tracks
    let elapsed ← nonNegativeNumber elapsedMs "outcome elapsedMs"
    let fingerprint ← sanitizeFingerprint endpointFingerprint
    return .completed sanitized source elapsed fingerprint

/-! ### What is accepted again comes back unchanged -/

theorem bind_ok {ε α β : Type} {x : Except ε α} {f : α → Except ε β} {b : β} :
    (x >>= f) = .ok b ↔ ∃ a, x = .ok a ∧ f a = .ok b := by
  constructor
  · intro h
    cases x with
    | ok a => exact ⟨a, rfl, h⟩
    | error e => cases h
  · rintro ⟨a, rfl, h⟩
    exact h

/-- What is known to succeed is left out. -/
theorem bind_known {ε α β : Type} {x : Except ε α} {f : α → Except ε β} {a : α} {b : β} (h : x = .ok a) :
    (x >>= f) = .ok b ↔ f a = .ok b := by
  rw [h]
  rfl

/-- What gives its argument back under a condition leaves the condition. -/
theorem bind_checked {ε α β : Type} {x : Except ε α} {f : α → Except ε β} {a : α} {b : β} {C : Prop}
    (h : ∀ a', x = .ok a' ↔ a' = a ∧ C) : (x >>= f) = .ok b ↔ C ∧ f a = .ok b := by
  simp only [bind_ok, h, and_assoc, exists_eq_left]

theorem textValue_ok {value name v : String} {max : ℕ} (h : textValue value name max = .ok v) :
    v = value := by
  unfold textValue at h
  split at h
  · cases h
  · exact (Except.ok.inj h).symm

theorem nonNegativeInteger_ok {value v : ℚ} {name : String}
    (h : nonNegativeInteger value name = .ok v) : v = value := by
  unfold nonNegativeInteger at h
  split at h
  · cases h
  · exact (Except.ok.inj h).symm

theorem nonNegativeNumber_ok {value v : ℚ} {name : String}
    (h : nonNegativeNumber value name = .ok v) : v = value := by
  unfold nonNegativeNumber at h
  split at h
  · cases h
  · exact (Except.ok.inj h).symm

theorem mapM_ok {ε α β : Type} {f : α → Except ε β} {xs : List α} {ys : List β} :
    xs.mapM f = .ok ys ↔ List.Forall₂ (fun x y => f x = .ok y) xs ys := by
  induction xs generalizing ys with
  | nil =>
    rw [List.mapM_nil, List.forall₂_nil_left_iff]
    exact ⟨fun h => (Except.ok.inj h).symm, fun h => h ▸ rfl⟩
  | cons x xs ih =>
    rw [List.mapM_cons, List.forall₂_cons_left_iff]
    simp only [bind_ok, ih]
    constructor
    · rintro ⟨y, hy, zs, hzs, h⟩
      exact ⟨y, zs, hy, hzs, (Except.ok.inj h).symm⟩
    · rintro ⟨y, zs, hy, hzs, rfl⟩
      exact ⟨y, hy, zs, hzs, rfl⟩

/-- A list is accepted exactly if each of its elements is. -/
theorem mapM_isOk {α β : Type} {f : α → Checked β} {xs : List α} :
    (∃ ys, xs.mapM f = .ok ys) ↔ ∀ x ∈ xs, ∃ y, f x = .ok y := by
  simp only [mapM_ok]
  induction xs with
  | nil => simp
  | cons x xs ih =>
    simp only [List.forall₂_cons_left_iff, List.forall_mem_cons, ← ih]
    constructor
    · rintro ⟨_, y, ys, hy, hys, rfl⟩
      exact ⟨⟨y, hy⟩, ys, hys⟩
    · rintro ⟨⟨y, hy⟩, ys, hys⟩
      exact ⟨y :: ys, y, ys, hy, hys, rfl⟩

/-- A check that fails for a reason of its own, not because the snapshot is another's. -/
def Harmless {α : Type} (x : Checked α) : Prop := x ≠ .error .principalMismatch

theorem harmless_ok {α : Type} (a : α) : Harmless (.ok a : Checked α) := by simp [Harmless]

theorem Harmless.bind {α β : Type} {x : Checked α} {f : α → Checked β} (hx : Harmless x)
    (hf : ∀ a, Harmless (f a)) : Harmless (x >>= f) := by
  cases x with
  | ok a => exact hf a
  | error e =>
    intro h
    have he : (Except.error e : Checked β) = .error .principalMismatch := h
    exact hx (by rw [Except.error.inj he])

theorem Harmless.option {α β : Type} {f : α → Checked β} (hf : ∀ a, Harmless (f a)) (o : Option α) :
    Harmless (o.mapM f) := by
  cases o with
  | none => exact harmless_ok none
  | some a => exact (hf a).bind fun b => harmless_ok (some b)

theorem Harmless.list {α β : Type} {f : α → Checked β} (hf : ∀ a, Harmless (f a)) (xs : List α) :
    Harmless (xs.mapM f) := by
  induction xs with
  | nil => exact harmless_ok []
  | cons x xs ih =>
    rw [List.mapM_cons]
    exact (hf x).bind fun y => ih.bind fun ys => harmless_ok (y :: ys)

theorem Harmless.error {α : Type} {x : Checked α} {e : CheckpointError} (h : Harmless x)
    (hx : x = .error e) : e ≠ .principalMismatch := by
  rintro rfl
  exact h hx

theorem harmless_textValue (value name : String) (max : ℕ) : Harmless (textValue value name max) := by
  unfold Harmless textValue invalidField
  split <;> simp

theorem harmless_nonNegativeInteger (value : ℚ) (name : String) :
    Harmless (nonNegativeInteger value name) := by
  unfold Harmless nonNegativeInteger invalidField
  split <;> simp

theorem harmless_nonNegativeNumber (value : ℚ) (name : String) :
    Harmless (nonNegativeNumber value name) := by
  unfold Harmless nonNegativeNumber invalidField
  split <;> simp

theorem harmless_isoTimestamp (value name : String) : Harmless (isoTimestamp P value name) := by
  refine (harmless_textValue _ _ _).bind fun candidate => ?_
  split <;> simp [Harmless, invalidField]

theorem harmless_safeUrl (value name : String) : Harmless (safeUrl P value name) := by
  refine (harmless_textValue _ _ _).bind fun input => ?_
  split
  · simp [Harmless, invalidField]
  · split <;> simp [Harmless, invalidField]

theorem harmless_sanitizeField (name : String) (asUrl : Bool) (field : MetadataField String) :
    Harmless (sanitizeField P name asUrl field) := by
  refine (harmless_isoTimestamp P _ _).bind fun _ => (harmless_textValue _ _ _).bind fun _ =>
    Harmless.bind (Harmless.option (fun value => ?_) _) fun _ => harmless_ok _
  unfold sanitizeFieldValue
  split
  · simp [Harmless]
  · split
    · exact harmless_safeUrl P _ _
    · exact harmless_textValue _ _ _

theorem harmless_sanitizeTrack (track : CanonicalDistributorTrack) (index : ℕ) :
    Harmless (sanitizeTrack P track index) :=
  (Harmless.option (fun _ => harmless_textValue _ _ _) _).bind fun _ =>
    (harmless_textValue _ _ _).bind fun _ => (harmless_sanitizeField P _ _ _).bind fun _ =>
    (Harmless.option (fun _ => harmless_nonNegativeInteger _ _) _).bind fun _ =>
    (Harmless.option (fun _ => harmless_nonNegativeNumber _ _) _).bind fun _ => harmless_ok _

theorem harmless_sanitizeRelease (release : CanonicalDistributorRelease)
    (tracks : List CanonicalDistributorTrack) : Harmless (sanitizeRelease P release tracks) :=
  (harmless_textValue _ _ _).bind fun _ => (harmless_textValue _ _ _).bind fun _ =>
    (Harmless.option (fun _ => harmless_textValue _ _ _) _).bind fun _ =>
    (Harmless.option (fun _ => Harmless.list (fun _ => harmless_textValue _ _ _) _) _).bind fun _ =>
    (harmless_sanitizeField P _ _ _).bind fun _ => (harmless_sanitizeField P _ _ _).bind fun _ =>
    (harmless_sanitizeField P _ _ _).bind fun _ =>
    (Harmless.option (fun _ => harmless_sanitizeField P _ _ _) _).bind fun _ =>
    (Harmless.option (fun _ => harmless_sanitizeField P _ _ _) _).bind fun _ => harmless_ok _

/-- An outcome is refused for what is in it. -/
theorem harmless_sanitizeOutcome (outcome : ReleaseExtractionOutcome) :
    Harmless (sanitizeOutcome P outcome) := by
  have hprint : ∀ fingerprint, Harmless (sanitizeFingerprint fingerprint) :=
    Harmless.option fun _ => harmless_textValue _ _ _
  cases outcome with
  | failed id reason detail elapsedMs fingerprint =>
    exact (harmless_textValue _ _ _).bind fun _ => (harmless_nonNegativeNumber _ _).bind fun _ =>
      (hprint _).bind fun _ => harmless_ok _
  | skipped id reason => exact (harmless_textValue _ _ _).bind fun _ => harmless_ok _
  | completed release source elapsedMs fingerprint =>
    rw [sanitizeOutcome]
    split
    · simp [Harmless]
    · exact (Harmless.list (fun _ => harmless_sanitizeTrack P _ _) _).bind fun _ =>
        (harmless_sanitizeRelease P _ _).bind fun _ => (harmless_nonNegativeNumber _ _).bind fun _ =>
        (hprint _).bind fun _ => harmless_ok _

theorem optionMapM_checked {α : Type} {f : α → Checked α} (hf : ∀ x y, f x = .ok y → y = x)
    {o r : Option α} (h : o.mapM f = .ok r) : r = o := by
  cases o with
  | none => exact (Except.ok.inj h).symm
  | some a =>
    obtain ⟨b, hb, hr⟩ := bind_ok.1 h
    rw [← Except.ok.inj hr, hf a b hb]

/-- Checks that answer what they were given, or nothing. -/
theorem mapM_checked {α : Type} {f : α → Checked α} (hf : ∀ x y, f x = .ok y → y = x)
    {xs ys : List α} (h : xs.mapM f = .ok ys) : ys = xs := by
  have hsame : List.Forall₂ (fun x y => y = x) xs ys := (mapM_ok.1 h).imp hf
  exact List.forall₂_eq_eq_eq ▸ hsame.flip

theorem mapM_zipIdx_checked {α : Type} {f : α → ℕ → Checked α} (hf : ∀ i x y, f x i = .ok y → y = x)
    {xs ys : List α} {k : ℕ} (h : (xs.zipIdx k).mapM (fun x => f x.1 x.2) = .ok ys) : ys = xs := by
  induction xs generalizing ys k with
  | nil => exact (Except.ok.inj h).symm
  | cons x xs ih =>
    rw [mapM_ok, List.zipIdx_cons, List.forall₂_cons_left_iff] at h
    obtain ⟨y, zs, hy, hzs, rfl⟩ := h
    rw [hf k x y hy, ih (mapM_ok.2 hzs)]

/-! What the checks answer. -/

section Answers

variable {P}

theorem isoTimestamp_ok {value name t : String} (h : isoTimestamp P value name = .ok t) :
    ∃ epoch, P.dateParse value = some epoch ∧ t = P.toISOString epoch := by
  obtain ⟨c, hc, h⟩ := bind_ok.1 h
  rw [textValue_ok hc] at h
  split at h
  · cases h
  · rename_i epoch hepoch
    exact ⟨epoch, hepoch, (Except.ok.inj h).symm⟩

theorem safeUrl_ok {value name t : String} (h : safeUrl P value name = .ok t) :
    ∃ url, P.parseUrl value = some url ∧ t = url.plain ∧
      url.protocol = "https:" ∧ url.username = "" ∧ url.password = "" := by
  obtain ⟨c, hc, h⟩ := bind_ok.1 h
  rw [textValue_ok hc] at h
  split at h
  · cases h
  · rename_i url hurl
    split at h
    · cases h
    · rename_i hsafe
      simp only [Bool.or_eq_true, decide_eq_true_eq, not_or, ne_eq, not_not] at hsafe
      exact ⟨url, hurl, (Except.ok.inj h).symm, hsafe.1.1, hsafe.1.2, hsafe.2⟩

theorem sanitizeField_ok {name : String} {asUrl : Bool} {field field' : MetadataField String}
    (h : sanitizeField P name asUrl field = .ok field') :
    isoTimestamp P field.capturedAt (name ++ ".capturedAt") = .ok field'.capturedAt ∧
      field'.parserVersion = field.parserVersion ∧
      field.value.mapM (sanitizeFieldValue P field name asUrl) = .ok field'.value ∧
      field'.status = field.status ∧ field'.source = field.source := by
  obtain ⟨capturedAt, hcaptured, h⟩ := bind_ok.1 h
  obtain ⟨parserVersion, hparser, h⟩ := bind_ok.1 h
  obtain ⟨value, hvalue, h⟩ := bind_ok.1 h
  obtain rfl := Except.ok.inj h
  exact ⟨hcaptured, textValue_ok hparser, hvalue, rfl, rfl⟩

theorem sanitizeFieldValue_text {name v w : String} {field : MetadataField String}
    (h : sanitizeFieldValue P field name false v = .ok w) : w = v := by
  unfold sanitizeFieldValue at h
  split at h
  · cases h
  · exact textValue_ok h

theorem sanitizeFieldValue_url {name v w : String} {field : MetadataField String}
    (h : sanitizeFieldValue P field name true v = .ok w) :
    field.status = .present ∧ safeUrl P v (name ++ ".value") = .ok w := by
  unfold sanitizeFieldValue at h
  split at h
  · cases h
  · rename_i hpresent
    exact ⟨not_not.1 hpresent, h⟩

theorem sanitizeTrack_ok {track track' : CanonicalDistributorTrack} {index : ℕ}
    (h : sanitizeTrack P track index = .ok track') :
    sanitizeField P s!"track {index} isrc" false track.isrc = .ok track'.isrc ∧
      track' = { track with isrc := track'.isrc, lyrics := none } := by
  obtain ⟨id, hid, h⟩ := bind_ok.1 h
  obtain ⟨title, htitle, h⟩ := bind_ok.1 h
  obtain ⟨isrc, hisrc, h⟩ := bind_ok.1 h
  obtain ⟨number, hnumber, h⟩ := bind_ok.1 h
  obtain ⟨duration, hduration, h⟩ := bind_ok.1 h
  obtain rfl := Except.ok.inj h
  refine ⟨hisrc, ?_⟩
  rw [optionMapM_checked (fun _ _ => textValue_ok) hid, textValue_ok htitle,
    optionMapM_checked (fun _ _ => nonNegativeInteger_ok) hnumber,
    optionMapM_checked (fun _ _ => nonNegativeNumber_ok) hduration]

theorem sanitizeOutcome_failed {releaseId detail : String} {reason : ReleaseFailureReason} {elapsedMs : ℚ}
    {fingerprint : Option String} {o : ReleaseExtractionOutcome}
    (h : sanitizeOutcome P (.failed releaseId reason detail elapsedMs fingerprint) = .ok o) :
    textValue releaseId "outcome releaseId" 512 = .ok releaseId ∧
      nonNegativeNumber elapsedMs "failure elapsedMs" = .ok elapsedMs ∧
      sanitizeFingerprint fingerprint = .ok fingerprint ∧
      o = .failed releaseId reason ("checkpointed failure: " ++ reason.key) elapsedMs fingerprint := by
  obtain ⟨id, hid, h₁⟩ := bind_ok.1 h
  obtain ⟨elapsed, helapsed, h₂⟩ := bind_ok.1 h₁
  obtain ⟨print, hprint, h₃⟩ := bind_ok.1 h₂
  obtain rfl := textValue_ok hid
  obtain rfl := nonNegativeNumber_ok helapsed
  obtain rfl := optionMapM_checked (fun _ _ => textValue_ok) hprint
  exact ⟨hid, helapsed, hprint, (Except.ok.inj h₃).symm⟩

theorem sanitizeOutcome_skipped {releaseId reason : String} {o : ReleaseExtractionOutcome}
    (h : sanitizeOutcome P (.skipped releaseId reason) = .ok o) :
    textValue releaseId "outcome releaseId" 512 = .ok releaseId ∧
      o = .skipped releaseId "release skipped during extraction" := by
  obtain ⟨id, hid, h₁⟩ := bind_ok.1 h
  obtain rfl := textValue_ok hid
  exact ⟨hid, (Except.ok.inj h₁).symm⟩

end Answers

section Settles

/-- What was accepted comes back unchanged wherever it is accepted again. -/
def Settles {α : Type} (f : α → Checked α) : Prop := ∀ x y z, f x = .ok y → f y = .ok z → z = y

variable {α : Type}

theorem settles_of_checked {f : α → Checked α} (hf : ∀ x y, f x = .ok y → y = x) : Settles f :=
  fun _ y z _ h => hf y z h

theorem Settles.option {f : α → Checked α} (hf : Settles f) : Settles fun o : Option α => o.mapM f := by
  intro x y z hy hz
  cases x with
  | none =>
    obtain rfl := Except.ok.inj hy
    exact (Except.ok.inj hz).symm
  | some a =>
    obtain ⟨b, hb, hr⟩ := bind_ok.1 hy
    obtain rfl := Except.ok.inj hr
    obtain ⟨c, hc, hr'⟩ := bind_ok.1 hz
    obtain rfl := Except.ok.inj hr'
    rw [hf a b c hb hc]

theorem Settles.zipIdx {f : α → ℕ → Checked α} (hf : ∀ i, Settles fun x => f x i) :
    Settles fun xs : List α => xs.zipIdx.mapM fun x => f x.1 x.2 := by
  intro xs ys zs
  generalize 0 = k
  intro hy hz
  induction xs generalizing ys zs k with
  | nil =>
    obtain rfl := Except.ok.inj hy
    exact (Except.ok.inj hz).symm
  | cons x xs ih =>
    rw [mapM_ok, List.zipIdx_cons, List.forall₂_cons_left_iff] at hy
    obtain ⟨y, ys, hx, hys, rfl⟩ := hy
    rw [mapM_ok, List.zipIdx_cons, List.forall₂_cons_left_iff] at hz
    obtain ⟨z, zs, hy', hzs, rfl⟩ := hz
    rw [hf k x y z hx hy', ih ys zs (k + 1) (mapM_ok.2 hys) (mapM_ok.2 hzs)]

end Settles

variable {P} (hP : P.RoundTrips)
include hP

theorem settles_isoTimestamp (name : String) : Settles fun t => isoTimestamp P t name := by
  intro t a b h h'
  obtain ⟨n, hn, rfl⟩ := isoTimestamp_ok h
  obtain ⟨m, hm, rfl⟩ := isoTimestamp_ok h'
  rw [hP.date t n m hn hm]

theorem settles_safeUrl (name : String) : Settles fun t => safeUrl P t name := by
  intro t a b h h'
  obtain ⟨u, hu, rfl, -⟩ := safeUrl_ok h
  obtain ⟨v, hv, rfl, -⟩ := safeUrl_ok h'
  exact hP.url t u v hu hv

theorem settles_sanitizeField (name : String) (asUrl : Bool) : Settles (sanitizeField P name asUrl) := by
  intro f g k hg hk
  obtain ⟨capturedAt, hcap, hg⟩ := bind_ok.1 hg
  obtain ⟨parserVersion, hpar, hg⟩ := bind_ok.1 hg
  obtain ⟨value, hval, hg⟩ := bind_ok.1 hg
  obtain rfl := Except.ok.inj hg
  obtain ⟨capturedAt', hcap', hk⟩ := bind_ok.1 hk
  obtain ⟨parserVersion', hpar', hk⟩ := bind_ok.1 hk
  obtain ⟨value', hval', hk⟩ := bind_ok.1 hk
  obtain rfl := Except.ok.inj hk
  have hvalue : Settles (sanitizeFieldValue P f name asUrl) := by
    intro v w x hw hx
    unfold sanitizeFieldValue at hw hx
    split at hw
    · cases hw
    · split at hw
      · rw [if_neg ‹_›, if_pos ‹_›] at hx
        exact settles_safeUrl hP _ v w x hw hx
      · rw [if_neg ‹_›, if_neg ‹_›] at hx
        exact textValue_ok hx
  simp only [MetadataField.mk.injEq, true_and]
  exact ⟨hvalue.option _ _ _ hval hval', settles_isoTimestamp hP _ _ _ _ hcap hcap', textValue_ok hpar'⟩

theorem settles_sanitizeTrack (index : ℕ) : Settles fun t => sanitizeTrack P t index := by
  intro t u v hu hv
  obtain ⟨hisrc, hu⟩ := sanitizeTrack_ok hu
  obtain ⟨hisrc', hv⟩ := sanitizeTrack_ok hv
  have hlyrics : u.lyrics = none := congrArg CanonicalDistributorTrack.lyrics hu
  rw [hv, settles_sanitizeField hP _ _ _ _ _ hisrc hisrc', ← hlyrics]

omit hP in
theorem settles_featuredArtists : Settles fun artists : List String =>
    (artists.take 100).zipIdx.mapM fun (artist, index) =>
      textValue artist s!"featured artist {index}" 2048 := by
  have hchecked : ∀ {xs ys : List String}, (xs.zipIdx.mapM fun (artist, index) =>
      textValue artist s!"featured artist {index}" 2048) = .ok ys → ys = xs := fun h =>
    mapM_zipIdx_checked (f := fun artist index => textValue artist s!"featured artist {index}" 2048)
      (fun _ _ _ => textValue_ok) h
  intro xs ys zs hy hz
  have hys : ys = xs.take 100 := hchecked hy
  have hzs : zs = ys.take 100 := hchecked hz
  rw [hzs, hys, List.take_take, min_self]

omit hP in
theorem sanitizeRelease_ok {r r' : CanonicalDistributorRelease} {tracks : List CanonicalDistributorTrack}
    (h : sanitizeRelease P r tracks = .ok r') :
    r'.distributorReleaseId = r.distributorReleaseId ∧ r'.title = r.title ∧
      r'.primaryArtist = r.primaryArtist ∧
      (r.featuredArtists.mapM fun artists => (artists.take 100).zipIdx.mapM fun (artist, index) =>
        textValue artist s!"featured artist {index}" 2048) = .ok r'.featuredArtists ∧
      sanitizeField P "release upc" false r.upc = .ok r'.upc ∧
      sanitizeField P "release artwork" true r.artworkUrl = .ok r'.artworkUrl ∧
      sanitizeField P "release date" false r.releaseDate = .ok r'.releaseDate ∧
      r.uploadDate.mapM (sanitizeField P "upload date" false) = .ok r'.uploadDate ∧
      r.label.mapM (sanitizeField P "release label" false) = .ok r'.label ∧
      r'.submittedStores = none ∧ r'.tracks = tracks := by
  obtain ⟨id, hid, h⟩ := bind_ok.1 h
  obtain ⟨title, htitle, h⟩ := bind_ok.1 h
  obtain ⟨artist, hartist, h⟩ := bind_ok.1 h
  obtain ⟨featured, hfeatured, h⟩ := bind_ok.1 h
  obtain ⟨upc, hupc, h⟩ := bind_ok.1 h
  obtain ⟨artwork, hartwork, h⟩ := bind_ok.1 h
  obtain ⟨released, hreleased, h⟩ := bind_ok.1 h
  obtain ⟨uploaded, huploaded, h⟩ := bind_ok.1 h
  obtain ⟨label, hlabel, h⟩ := bind_ok.1 h
  obtain rfl := Except.ok.inj h
  exact ⟨textValue_ok hid, textValue_ok htitle, optionMapM_checked (fun _ _ => textValue_ok) hartist,
    hfeatured, hupc, hartwork, hreleased, huploaded, hlabel, rfl, rfl⟩

theorem settles_sanitizeRelease {r r' r'' : CanonicalDistributorRelease}
    {tracks : List CanonicalDistributorTrack} (h : sanitizeRelease P r tracks = .ok r')
    (h' : sanitizeRelease P r' tracks = .ok r'') : r'' = r' := by
  obtain ⟨-, -, -, hfeatured, hupc, hartwork, hreleased, huploaded, hlabel, hstores, htracks⟩ :=
    sanitizeRelease_ok h
  obtain ⟨hid', htitle', hartist', hfeatured', hupc', hartwork', hreleased', huploaded', hlabel',
    hstores', htracks'⟩ := sanitizeRelease_ok h'
  have hfield := fun name asUrl => settles_sanitizeField hP name asUrl
  have hupc'' := hfield _ _ _ _ _ hupc hupc'
  have hartwork'' := hfield _ _ _ _ _ hartwork hartwork'
  have hreleased'' := hfield _ _ _ _ _ hreleased hreleased'
  have huploaded'' := (hfield _ _).option _ _ _ huploaded huploaded'
  have hlabel'' := (hfield _ _).option _ _ _ hlabel hlabel'
  have hfeatured'' := settles_featuredArtists.option _ _ _ hfeatured hfeatured'
  cases r''
  cases r'
  simp only at *
  rw [hid', htitle', hartist', hupc'', hartwork'', hreleased'', huploaded'', hlabel'', hfeatured'',
    hstores, hstores', htracks, htracks']

omit hP in
theorem sanitizeOutcome_completed {r : CanonicalDistributorRelease} {source : MetadataSource}
    {elapsedMs : ℚ} {fingerprint : Option String} {o : ReleaseExtractionOutcome}
    (h : sanitizeOutcome P (.completed r source elapsedMs fingerprint) = .ok o) :
    ∃ r', (r.tracks.zipIdx.mapM fun x => sanitizeTrack P x.1 x.2) = .ok r'.tracks ∧
      sanitizeRelease P r r'.tracks = .ok r' ∧
      ∃ elapsed, nonNegativeNumber elapsedMs "outcome elapsedMs" = .ok elapsed ∧
        ∃ print, sanitizeFingerprint fingerprint = .ok print ∧
          o = .completed r' source elapsed print := by
  rw [sanitizeOutcome] at h
  split at h
  · cases h
  · obtain ⟨tracks, htracks, h⟩ := bind_ok.1 h
    obtain ⟨r', hr', h⟩ := bind_ok.1 h
    obtain ⟨elapsed, helapsed, h⟩ := bind_ok.1 h
    obtain ⟨print, hprint, h⟩ := bind_ok.1 h
    obtain ⟨-, -, -, -, -, -, -, -, -, -, hkept⟩ := sanitizeRelease_ok hr'
    rw [← hkept] at htracks hr'
    exact ⟨r', htracks, hr', elapsed, helapsed, print, hprint, (Except.ok.inj h).symm⟩

/-- A sanitized outcome that is accepted again comes back unchanged. -/
theorem settles_sanitizeOutcome : Settles (sanitizeOutcome P) := by
  intro o o' o'' h h'
  have hprint : Settles sanitizeFingerprint := (settles_of_checked fun _ _ => textValue_ok).option
  cases o with
  | failed releaseId reason detail elapsedMs fingerprint =>
    obtain ⟨-, -, -, rfl⟩ := sanitizeOutcome_failed h
    obtain ⟨-, -, -, rfl⟩ := sanitizeOutcome_failed h'
    rfl
  | skipped releaseId reason =>
    obtain ⟨-, rfl⟩ := sanitizeOutcome_skipped h
    obtain ⟨-, rfl⟩ := sanitizeOutcome_skipped h'
    rfl
  | completed release source elapsedMs fingerprint =>
    obtain ⟨sanitized, htracks, hsanitized, elapsed, helapsed, print, hprints, rfl⟩ :=
      sanitizeOutcome_completed h
    obtain ⟨sanitized', htracks', hsanitized', elapsed', helapsed', print', hprints', rfl⟩ :=
      sanitizeOutcome_completed h'
    have hagain := Settles.zipIdx (settles_sanitizeTrack hP) _ _ _ htracks htracks'
    rw [hagain] at hsanitized'
    rw [settles_sanitizeRelease hP hsanitized hsanitized', nonNegativeNumber_ok helapsed',
      hprint _ _ _ hprints hprints']

end CatalogSentinel.Checkpoint
