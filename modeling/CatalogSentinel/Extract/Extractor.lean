import CatalogSentinel.Capture.Discovery
import CatalogSentinel.Checkpoint.Rules
import CatalogSentinel.Extract.AlbumPage

/-!
The network-first extraction of one release. What the awaits come to is given; the
extractor settles which reading of the release it takes, from which tier, and makes
the terminal outcome of it. A failure is always filed under the release that was
asked for, but a completed release keeps the id that its payload gives.
-/

namespace CatalogSentinel.Extract

open CatalogSentinel.Data CatalogSentinel.Distrokid CatalogSentinel.Capture CatalogSentinel.Checkpoint

/-- A parsed URL of a page: the parts that are inspected. -/
structure PageUrl where
  protocol : String
  username : String
  password : String
  hostname : String
  port : String
  deriving DecidableEq, Repr

structure Browser extends Host where
  parsePageUrl : String → Option PageUrl
  toLowerCase : String → String

structure ExtractorOptions where
  origin : String
  responseTimeoutMs : ℕ
  deriving DecidableEq, Repr

/-- What replaying the release's request came to. -/
inductive DirectReadOutcome
  | read (payload : Json)
  | reauthRequired (detail : String)
  | refused

/-- What the awaits of one extraction come to; `.error` is an error that is thrown. -/
structure Observed where
  /-- The page's URL after the navigation. -/
  landed : Except String String
  /-- The response that matched, from either path of capture. -/
  hit : Except String (Option (CapturedResponse Json))
  /-- The wait for a sibling endpoint. -/
  sibling : Except String Unit
  /-- All that has been captured by then. -/
  captures : List (CapturedResponse Json)
  recordSuccess : Except String Unit
  recordDrift : Except String Unit
  /-- Where the reader is enabled, not halted, and selected for the run with an endpoint. -/
  direct : Option DirectReadOutcome
  pageState : Option Json
  dom : Option ScrapedReleaseDetail
  elapsedMs : ℚ

/-! ### The parts of an extraction -/

/-- `s.replace(/^www\./, '')` -/
def withoutWww (s : String) : String :=
  if "www.".toList <+: s.toList then String.ofList (s.toList.drop 4) else s

/-- Exact HTTPS distributor-origin allowlist for every browser navigation. -/
def isAllowedDistributorUrl (B : Browser) (raw origin : String) : Bool :=
  (B.parsePageUrl raw).any fun url =>
    let expected := withoutWww (B.toLowerCase origin)
    let host := withoutWww (B.toLowerCase url.hostname)
    url.protocol = "https:" && url.username = "" && url.password = "" &&
      (url.port = "" || url.port = "443") &&
      (host = expected || ("." ++ expected).toList.isSuffixOf host.toList)

/-- Does this release still have gaps a sibling endpoint might fill? -/
def hasGaps (r : CanonicalDistributorRelease) : Bool :=
  isBlank r.title || r.upc.isExtractionFailure || r.artworkUrl.isExtractionFailure ||
    r.releaseDate.isExtractionFailure || r.uploadDate.all (·.isExtractionFailure) ||
    r.label.all (·.isExtractionFailure) || r.tracks.length = 0 ||
    r.tracks.any fun track => isBlank track.title || track.isrc.isExtractionFailure

/-- The request of a sibling named this release, or what it parses to does. -/
def belongs (release : CanonicalDistributorRelease) (expectedReleaseId : String)
    (other : CapturedResponse Json) (extra : CanonicalDistributorRelease) : Bool :=
  let parsedId := extra.distributorReleaseId
  other.correlation = .requestIdMatch ||
    parsedId ≠ "" && parsedId ≠ "unknown" &&
      (parsedId = expectedReleaseId || parsedId = release.distributorReleaseId)

/-- Merge gaps from every other catalog payload captured during this navigation. -/
def mergeFromOtherCaptures (H : Host) (captures : List (CapturedResponse Json))
    (release : CanonicalDistributorRelease) (usedFingerprint expectedReleaseId : String) :
    CanonicalDistributorRelease :=
  let others := captures.filter fun c => c.fingerprint ≠ usedFingerprint && !c.namesOtherRelease
  others.foldl (fun merged other =>
    match parse H .networkJson other.payload with
    | .error _ => merged
    | .ok extra =>
      if belongs release expectedReleaseId other extra then mergeCanonicalRelease merged extra
      else merged) release

section Complete

variable (ref : ReleaseRefRecord) (elapsedMs : ℚ)

def releaseTitle (release : CanonicalDistributorRelease) : String :=
  if trim release.title ≠ "" then trim release.title else trim (ref.title.getD "")

/-- The release as it is completed: what the reading lacks is taken from the catalogue. -/
def withId (release : CanonicalDistributorRelease) : CanonicalDistributorRelease :=
  { release with
    distributorReleaseId :=
      if release.distributorReleaseId ≠ "" && release.distributorReleaseId ≠ "unknown" then
        release.distributorReleaseId
      else ref.releaseId
    title := releaseTitle ref release
    primaryArtist :=
      if isTruthy release.primaryArtist || isTruthy ref.artist then
        release.primaryArtist.or ref.artist
      else release.primaryArtist
    tracks := release.tracks.map fun track =>
      { track with
        title := if trim track.title ≠ "" then trim track.title else releaseTitle ref release } }

def complete (release : CanonicalDistributorRelease) (source : MetadataSource)
    (endpointFingerprint : Option String) : ReleaseExtractionOutcome :=
  let fingerprint := endpointFingerprint.filter (· ≠ "")
  let failed (detail : String) : ReleaseExtractionOutcome :=
    .failed ref.releaseId .parseFailed detail elapsedMs fingerprint
  if release.tracks.length = 0 then
    failed "correlated release metadata contained no track rows"
  else if ref.expectedTrackCount.any fun expected => release.tracks.length ≠ expected then
    failed s!"track count mismatch (expected {ref.expectedTrackCount.getD 0}, extracted {release.tracks.length})"
  else if releaseTitle ref release = "" then
    failed "correlated release metadata and catalog index contained no release title"
  else .completed (withId ref release) source elapsedMs fingerprint

def fail (reason : ReleaseFailureReason) (detail : String) : ReleaseExtractionOutcome :=
  .failed ref.releaseId reason detail elapsedMs none

end Complete

section Extraction

variable (B : Browser) (opts : ExtractorOptions) (ref : ReleaseRefRecord) (o : Observed)

/-- The embedded page state, where it can be read as a release. -/
def readPageState : Option CanonicalDistributorRelease :=
  match o.pageState.filter Json.truthy with
  | none => none
  | some state => (parse B.toHost .pageState state).toOption

/-- Tier 4 (hydration state) then tier 5 (DOM). -/
def tryLowerTiers : Option ReleaseExtractionOutcome :=
  match readPageState B o with
  | some release => some (complete ref o.elapsedMs release .pageState none)
  | none =>
    match readDistroKidAlbumDom B.toHost o.dom with
    | some release => some (complete ref o.elapsedMs release .dom none)
    | none => none

/-- Tier 3: the request replayed, where that settles the extraction. -/
def tryDirect : Option ReleaseExtractionOutcome :=
  match o.direct with
  | some (.read payload) =>
    match parse B.toHost .directJson payload with
    | .ok release => some (complete ref o.elapsedMs release .directJson none)
    | .error _ => none
  | some (.reauthRequired detail) => some (fail ref o.elapsedMs .reauthRequired detail)
  | some .refused | none => none

/-- If the first response has gaps, a sibling endpoint is given a short time. -/
def waitForSibling (release : CanonicalDistributorRelease) : Except String Unit :=
  if hasGaps release then o.sibling else .ok ()

/-- Tier 2: the metadata response that the dashboard itself fetched. -/
def readHit (hit : CapturedResponse Json) : Except String ReleaseExtractionOutcome :=
  match parse B.toHost .networkJson hit.payload with
  | .ok release => do
    waitForSibling o release
    let merged := mergeFromOtherCaptures B.toHost o.captures release hit.fingerprint ref.releaseId
    o.recordSuccess
    return complete ref o.elapsedMs merged .networkJson (some hit.fingerprint)
  | .error detail => do
    o.recordDrift
    return (tryLowerTiers B ref o).getD (fail ref o.elapsedMs .schemaChanged detail)

/-- No response matched. -/
def withoutHit : ReleaseExtractionOutcome :=
  match tryDirect B ref o with
  | some outcome => outcome
  | none => (tryLowerTiers B ref o).getD (fail ref o.elapsedMs .timeout
      s!"no catalog JSON observed within {opts.responseTimeoutMs}ms and no fallback data")

/-- The outcome, or the message of an error that is thrown. -/
def attempt : Except String ReleaseExtractionOutcome :=
  if !isAllowedDistributorUrl B ref.dashboardUrl opts.origin then
    .ok (fail ref o.elapsedMs .notAuthorized
      "release URL is outside the configured distributor HTTPS origin")
  else do
    let url ← o.landed
    if !isAllowedDistributorUrl B url opts.origin then
      return fail ref o.elapsedMs .notAuthorized
        "distributor navigation redirected outside the configured HTTPS origin"
    else
      match ← o.hit with
      | some hit => readHit B ref o hit
      | none => return withoutHit B opts ref o

/-- `/timeout/i.test(msg)` -/
def mentionsTimeout (msg : String) : Bool :=
  includes (String.ofList (msg.toList.map Char.toLower)) "timeout"

/-- Always a terminal outcome, never a silent skip. -/
def extractRelease : ReleaseExtractionOutcome :=
  match attempt B opts ref o with
  | .ok outcome => outcome
  | .error msg =>
    if mentionsTimeout msg then fail ref o.elapsedMs .timeout "navigation timed out"
    else fail ref o.elapsedMs .requestFailed "navigation or capture error"

end Extraction

/-! ### The reading that is taken -/

section Reading

variable (B : Browser) (opts : ExtractorOptions) (ref : ReleaseRefRecord) (o : Observed)

/-- The release's page and where it led are the distributor's. -/
def Authorized : Prop :=
  isAllowedDistributorUrl B ref.dashboardUrl opts.origin = true ∧
    ∃ url, o.landed = .ok url ∧ isAllowedDistributorUrl B url opts.origin = true

/-- No response, captured or replayed, settles the extraction. -/
def FallsThrough : Prop :=
  (∃ hit detail, o.hit = .ok (some hit) ∧ parse B.toHost .networkJson hit.payload = .error detail ∧
    o.recordDrift = .ok ()) ∨
  o.hit = .ok none ∧ tryDirect B ref o = none

/-- The reading of the release that an extraction makes its outcome of: what a tier's payload or
page parses to, with the siblings merged in for the tier that has them. -/
inductive Reads : CanonicalDistributorRelease → MetadataSource → Option String → Prop
  | network {hit : CapturedResponse Json} {release : CanonicalDistributorRelease}
      (hurl : Authorized B opts ref o) (hhit : o.hit = .ok (some hit))
      (hparse : parse B.toHost .networkJson hit.payload = .ok release)
      (hsibling : waitForSibling o release = .ok ()) (hrecord : o.recordSuccess = .ok ()) :
      Reads (mergeFromOtherCaptures B.toHost o.captures release hit.fingerprint ref.releaseId)
        .networkJson (some hit.fingerprint)
  | direct {payload : Json} {release : CanonicalDistributorRelease}
      (hurl : Authorized B opts ref o) (hhit : o.hit = .ok none)
      (hread : o.direct = some (.read payload))
      (hparse : parse B.toHost .directJson payload = .ok release) : Reads release .directJson none
  | pageState {release : CanonicalDistributorRelease} (hurl : Authorized B opts ref o)
      (hfalls : FallsThrough B ref o) (hstate : readPageState B o = some release) :
      Reads release .pageState none
  | dom {release : CanonicalDistributorRelease} (hurl : Authorized B opts ref o)
      (hfalls : FallsThrough B ref o) (hstate : readPageState B o = none)
      (hdom : readDistroKidAlbumDom B.toHost o.dom = some release) : Reads release .dom none

/-- A reading that is made a completed outcome. -/
structure Completes (release : CanonicalDistributorRelease) : Prop where
  tracks : release.tracks ≠ []
  count : ∀ expected ∈ ref.expectedTrackCount, release.tracks.length = expected
  title : releaseTitle ref release ≠ ""

end Reading

section Outcome

variable {B : Browser} {opts : ExtractorOptions} {ref : ReleaseRefRecord} {o : Observed}
  {release : CanonicalDistributorRelease} {source : MetadataSource} {fingerprint : Option String}

/-- The outcome is that of a reading, or a failure of the release that was asked for. -/
def Settled (B : Browser) (opts : ExtractorOptions) (ref : ReleaseRefRecord) (o : Observed)
    (outcome : ReleaseExtractionOutcome) : Prop :=
  (∃ release source fingerprint, Reads B opts ref o release source fingerprint ∧
    outcome = complete ref o.elapsedMs release source fingerprint) ∨
  (∀ release source fingerprint, ¬ Reads B opts ref o release source fingerprint) ∧
    ∃ reason detail, outcome = fail ref o.elapsedMs reason detail

theorem settled_of_lowerTiers (hurl : Authorized B opts ref o) (hfalls : FallsThrough B ref o)
    (reason : ReleaseFailureReason) (detail : String) :
    Settled B opts ref o ((tryLowerTiers B ref o).getD (fail ref o.elapsedMs reason detail)) := by
  unfold tryLowerTiers
  cases hstate : readPageState B o with
  | some release => exact .inl ⟨release, _, _, .pageState hurl hfalls hstate, rfl⟩
  | none =>
    cases hdom : readDistroKidAlbumDom B.toHost o.dom with
    | some release => exact .inl ⟨release, _, _, .dom hurl hfalls hstate hdom, rfl⟩
    | none =>
      refine .inr ⟨fun release source fingerprint hreads => ?_, reason, detail, rfl⟩
      cases hreads with
      | network _ hhit hparse _ _ =>
        rcases hfalls with ⟨hit, message, hhit', hfails, -⟩ | ⟨hhit', -⟩
        · rw [hhit] at hhit'
          obtain rfl := Option.some.inj (Except.ok.inj hhit')
          rw [hparse] at hfails
          cases hfails
        · rw [hhit] at hhit'
          cases hhit'
      | direct _ hhit hread hparse =>
        rcases hfalls with ⟨hit, message, hhit', -⟩ | ⟨-, hdirect⟩
        · rw [hhit] at hhit'
          cases hhit'
        · simp [tryDirect, hread, hparse] at hdirect
      | pageState _ _ hstate' =>
        rw [hstate] at hstate'
        cases hstate'
      | dom _ _ _ hdom' =>
        rw [hdom] at hdom'
        cases hdom'

theorem tryDirect_reads (hurl : Authorized B opts ref o) (hhit : o.hit = .ok none)
    {outcome : ReleaseExtractionOutcome} (h : tryDirect B ref o = some outcome) :
    Settled B opts ref o outcome := by
  unfold tryDirect at h
  split at h
  · rename_i payload hread
    split at h
    · rename_i release hparse
      exact .inl ⟨release, _, _, .direct hurl hhit hread hparse, (Option.some.inj h).symm⟩
    · cases h
  · rename_i detail hreauth
    refine .inr ⟨fun release source fingerprint hreads => ?_, _, _, (Option.some.inj h).symm⟩
    have hsettles : tryDirect B ref o ≠ none := by simp [tryDirect, hreauth]
    have hnofall : ¬ FallsThrough B ref o := by
      rintro (⟨hit, message, hhit', -⟩ | ⟨-, hnone⟩)
      · rw [hhit] at hhit'
        cases hhit'
      · exact hsettles hnone
    cases hreads with
    | network _ hhit' =>
      rw [hhit] at hhit'
      cases hhit'
    | direct _ _ hread _ =>
      rw [hreauth] at hread
      cases hread
    | pageState _ hfalls _ => exact hnofall hfalls
    | dom _ hfalls _ _ => exact hnofall hfalls
  · cases h
  · cases h

theorem Reads.authorized (h : Reads B opts ref o release source fingerprint) :
    Authorized B opts ref o := by
  cases h with
  | network hurl => exact hurl
  | direct hurl => exact hurl
  | pageState hurl => exact hurl
  | dom hurl => exact hurl

/-- There is no more than one reading. -/
theorem Reads.unique {release' : CanonicalDistributorRelease} {source' : MetadataSource}
    {fingerprint' : Option String} (h : Reads B opts ref o release source fingerprint)
    (h' : Reads B opts ref o release' source' fingerprint') :
    release = release' ∧ source = source' ∧ fingerprint = fingerprint' := by
  have hnetwork : ∀ {hit read}, o.hit = .ok (some hit) →
      parse B.toHost .networkJson hit.payload = .ok read → ¬ FallsThrough B ref o := by
    rintro hit read hhit hparse (⟨hit', detail, hhit', hparse', -⟩ | ⟨hhit', -⟩)
    · rw [hhit] at hhit'
      obtain rfl := Option.some.inj (Except.ok.inj hhit')
      rw [hparse] at hparse'
      cases hparse'
    · rw [hhit] at hhit'
      cases hhit'
  have hdirect : ∀ {payload read}, o.hit = .ok none → o.direct = some (.read payload) →
      parse B.toHost .directJson payload = .ok read → ¬ FallsThrough B ref o := by
    rintro payload read hhit hread hparse (⟨hit', detail, hhit', -⟩ | ⟨-, hnone⟩)
    · rw [hhit] at hhit'
      cases hhit'
    · simp [tryDirect, hread, hparse] at hnone
  cases h with
  | network _ hhit hparse =>
    cases h' with
    | network _ hhit' hparse' =>
      rw [hhit] at hhit'
      obtain rfl := Option.some.inj (Except.ok.inj hhit')
      rw [hparse] at hparse'
      obtain rfl := Except.ok.inj hparse'
      exact ⟨rfl, rfl, rfl⟩
    | direct _ hhit' =>
      rw [hhit] at hhit'
      cases hhit'
    | pageState _ hfalls => exact absurd hfalls (hnetwork hhit hparse)
    | dom _ hfalls => exact absurd hfalls (hnetwork hhit hparse)
  | direct _ hhit hread hparse =>
    cases h' with
    | network _ hhit' =>
      rw [hhit] at hhit'
      cases hhit'
    | direct _ _ hread' hparse' =>
      rw [hread] at hread'
      obtain rfl := DirectReadOutcome.read.inj (Option.some.inj hread')
      rw [hparse] at hparse'
      obtain rfl := Except.ok.inj hparse'
      exact ⟨rfl, rfl, rfl⟩
    | pageState _ hfalls => exact absurd hfalls (hdirect hhit hread hparse)
    | dom _ hfalls => exact absurd hfalls (hdirect hhit hread hparse)
  | pageState _ hfalls hstate =>
    cases h' with
    | network _ hhit hparse => exact absurd hfalls (hnetwork hhit hparse)
    | direct _ hhit hread hparse => exact absurd hfalls (hdirect hhit hread hparse)
    | pageState _ _ hstate' =>
      rw [hstate] at hstate'
      exact ⟨Option.some.inj hstate', rfl, rfl⟩
    | dom _ _ hstate' =>
      rw [hstate] at hstate'
      cases hstate'
  | dom _ hfalls hstate hdom =>
    cases h' with
    | network _ hhit hparse => exact absurd hfalls (hnetwork hhit hparse)
    | direct _ hhit hread hparse => exact absurd hfalls (hdirect hhit hread hparse)
    | pageState _ _ hstate' =>
      rw [hstate] at hstate'
      cases hstate'
    | dom _ _ _ hdom' =>
      rw [hdom] at hdom'
      exact ⟨Option.some.inj hdom', rfl, rfl⟩

/-- No await fails that comes after the response and before the reading. -/
def Awaited (B : Browser) (o : Observed) (hit : CapturedResponse Json) : Prop :=
  match parse B.toHost .networkJson hit.payload with
  | .ok release => waitForSibling o release = .ok () ∧ o.recordSuccess = .ok ()
  | .error _ => o.recordDrift = .ok ()

theorem FallsThrough.hit (h : FallsThrough B ref o) :
    o.hit = .ok none ∨ ∃ hit, o.hit = .ok (some hit) ∧ Awaited B o hit := by
  rcases h with ⟨hit, detail, hhit, hparse, hdrift⟩ | ⟨hhit, -⟩
  · refine .inr ⟨hit, hhit, ?_⟩
    unfold Awaited
    rw [hparse]
    exact hdrift
  · exact .inl hhit

theorem Reads.hit (h : Reads B opts ref o release source fingerprint) :
    o.hit = .ok none ∨ ∃ hit, o.hit = .ok (some hit) ∧ Awaited B o hit := by
  cases h with
  | network _ hhit hparse hsibling hrecord =>
    refine .inr ⟨_, hhit, ?_⟩
    unfold Awaited
    rw [hparse]
    exact ⟨hsibling, hrecord⟩
  | direct _ hhit => exact .inl hhit
  | pageState _ hfalls => exact hfalls.hit
  | dom _ hfalls => exact hfalls.hit

/-- An error that is thrown is a failure of the release, if it leaves no reading. -/
theorem settled_of_error {msg : String} (h : attempt B opts ref o = .error msg)
    (hnone : ∀ release source fingerprint, ¬ Reads B opts ref o release source fingerprint) :
    Settled B opts ref o (extractRelease B opts ref o) := by
  unfold extractRelease
  rw [h]
  dsimp only
  split
  · exact .inr ⟨hnone, _, _, rfl⟩
  · exact .inr ⟨hnone, _, _, rfl⟩

theorem settled_of_ok {outcome : ReleaseExtractionOutcome} (h : attempt B opts ref o = .ok outcome)
    (hsettled : Settled B opts ref o outcome) : Settled B opts ref o (extractRelease B opts ref o) := by
  unfold extractRelease
  rw [h]
  exact hsettled

theorem settled_of_readHit {hit : CapturedResponse Json} (hurl : Authorized B opts ref o)
    (hhit : o.hit = .ok (some hit)) (h : attempt B opts ref o = readHit B ref o hit) :
    Settled B opts ref o (extractRelease B opts ref o) := by
  have hawaited : ∀ {release source fingerprint}, Reads B opts ref o release source fingerprint →
      Awaited B o hit := by
    intro release source fingerprint hreads
    rcases hreads.hit with hnone | ⟨hit', hsome, hawaited⟩
    · rw [hhit] at hnone
      cases hnone
    · rw [hhit] at hsome
      obtain rfl := Option.some.inj (Except.ok.inj hsome)
      exact hawaited
  unfold Awaited at hawaited
  unfold readHit at h
  cases hparse : parse B.toHost .networkJson hit.payload with
  | ok release =>
    rw [hparse] at h hawaited
    dsimp only at h hawaited
    cases hsibling : waitForSibling o release with
    | error msg =>
      rw [hsibling] at h
      refine settled_of_error h fun _ _ _ hreads => ?_
      have hok := (hawaited hreads).1
      rw [hsibling] at hok
      cases hok
    | ok _ =>
      rw [hsibling] at h
      cases hrecord : o.recordSuccess with
      | error msg =>
        rw [hrecord] at h
        refine settled_of_error h fun _ _ _ hreads => ?_
        have hok := (hawaited hreads).2
        rw [hrecord] at hok
        cases hok
      | ok _ =>
        rw [hrecord] at h
        exact settled_of_ok h (.inl ⟨_, _, _, .network hurl hhit hparse hsibling hrecord, rfl⟩)
  | error detail =>
    rw [hparse] at h hawaited
    dsimp only at h hawaited
    cases hdrift : o.recordDrift with
    | error msg =>
      rw [hdrift] at h
      refine settled_of_error h fun _ _ _ hreads => ?_
      have hok := hawaited hreads
      rw [hdrift] at hok
      cases hok
    | ok _ =>
      rw [hdrift] at h
      refine settled_of_ok h (settled_of_lowerTiers hurl ?_ _ _)
      exact .inl ⟨hit, detail, hhit, hparse, hdrift⟩

theorem settled_withoutHit (hurl : Authorized B opts ref o) (hhit : o.hit = .ok none) :
    Settled B opts ref o (withoutHit B opts ref o) := by
  unfold withoutHit
  cases hdirect : tryDirect B ref o with
  | some outcome => exact tryDirect_reads hurl hhit hdirect
  | none => exact settled_of_lowerTiers hurl (.inr ⟨hhit, hdirect⟩) _ _

/-- Every extraction ends with the outcome of its reading, or with a failure where it has none. -/
theorem extractRelease_settled : Settled B opts ref o (extractRelease B opts ref o) := by
  by_cases hdashboard : isAllowedDistributorUrl B ref.dashboardUrl opts.origin = true
  · cases hlanded : o.landed with
    | error msg =>
      have hthrown : attempt B opts ref o = .error msg := by
        simp [attempt, hdashboard, hlanded, bind, Except.bind]
      refine settled_of_error hthrown fun release source fingerprint hreads => ?_
      obtain ⟨-, url, hurl, -⟩ := hreads.authorized
      rw [hlanded] at hurl
      cases hurl
    | ok url =>
      by_cases hallowed : isAllowedDistributorUrl B url opts.origin = true
      · have hurl : Authorized B opts ref o := ⟨hdashboard, url, hlanded, hallowed⟩
        cases hhit : o.hit with
        | error msg =>
          have hthrown : attempt B opts ref o = .error msg := by
            simp [attempt, hdashboard, hlanded, hallowed, hhit, bind, Except.bind]
          refine settled_of_error hthrown ?_
          intro release source fingerprint hreads
          rcases hreads.hit with hnone | ⟨hit, hsome, -⟩
          · rw [hhit] at hnone
            cases hnone
          · rw [hhit] at hsome
            cases hsome
        | ok found =>
          cases found with
          | some hit =>
            refine settled_of_readHit hurl hhit ?_
            simp [attempt, hdashboard, hlanded, hallowed, hhit, bind, Except.bind]
          | none =>
            refine settled_of_ok ?_ (settled_withoutHit hurl hhit)
            simp [attempt, hdashboard, hlanded, hallowed, hhit, bind, Except.bind, pure, Except.pure]
      · have hrefused : attempt B opts ref o = .ok (fail ref o.elapsedMs .notAuthorized
            "distributor navigation redirected outside the configured HTTPS origin") := by
          simp [attempt, hdashboard, hlanded, hallowed, bind, Except.bind, pure, Except.pure]
        refine settled_of_ok hrefused (.inr ⟨fun release source fingerprint hreads => ?_, _, _, rfl⟩)
        obtain ⟨-, url', hurl', hallowed'⟩ := hreads.authorized
        rw [hlanded] at hurl'
        obtain rfl := Except.ok.inj hurl'
        exact hallowed hallowed'
  · have hrefused : attempt B opts ref o = .ok (fail ref o.elapsedMs .notAuthorized
        "release URL is outside the configured distributor HTTPS origin") := by
      simp [attempt, hdashboard]
    refine settled_of_ok hrefused (.inr ⟨fun _ _ _ hreads => ?_, _, _, rfl⟩)
    exact hdashboard hreads.authorized.1

/-! ### What is made of it -/

theorem complete_of_completes (h : Completes ref release) (elapsedMs : ℚ) (source : MetadataSource)
    (fingerprint : Option String) : complete ref elapsedMs release source fingerprint =
      .completed (withId ref release) source elapsedMs (fingerprint.filter (· ≠ "")) := by
  have htracks : ¬ release.tracks.length = 0 := fun hnil => h.tracks (List.length_eq_zero_iff.1 hnil)
  have hcount : ¬ (ref.expectedTrackCount.any fun expected => release.tracks.length ≠ expected) = true := by
    intro hany
    cases hexpected : ref.expectedTrackCount with
    | none =>
      rw [hexpected] at hany
      cases hany
    | some expected =>
      rw [hexpected] at hany
      exact of_decide_eq_true hany (h.count expected hexpected)
  unfold complete
  dsimp only
  rw [if_neg htracks, if_neg hcount, if_neg h.title]

theorem complete_of_not (h : ¬ Completes ref release) (elapsedMs : ℚ) (source : MetadataSource)
    (fingerprint : Option String) :
    ∃ detail, complete ref elapsedMs release source fingerprint =
      .failed ref.releaseId .parseFailed detail elapsedMs (fingerprint.filter (· ≠ "")) := by
  unfold complete
  dsimp only
  split
  · exact ⟨_, rfl⟩
  · rename_i htracks
    split
    · exact ⟨_, rfl⟩
    · rename_i hcount
      split
      · exact ⟨_, rfl⟩
      · rename_i htitle
        refine absurd ⟨fun hnil => htracks (List.length_eq_zero_iff.2 hnil), ?_, htitle⟩ h
        intro expected hexpected
        rw [Option.mem_def] at hexpected
        rw [hexpected] at hcount
        simpa using hcount

/-- Stored, the outcome is found under the release that was asked for, and no other's is replaced. -/
def FiledUnder (releaseId : String) (outcome : ReleaseExtractionOutcome) : Prop :=
  outcome.outcomeReleaseId = releaseId ∧
    ∀ rows, outcomeOf releaseId (putOutcomes rows [outcome]) = some outcome ∧
      ∀ other, other ≠ releaseId →
        outcomeOf other (putOutcomes rows [outcome]) = outcomeOf other rows

theorem filedUnder_iff {releaseId : String} {outcome : ReleaseExtractionOutcome} :
    FiledUnder releaseId outcome ↔ outcome.outcomeReleaseId = releaseId := by
  constructor
  · exact fun h => h.1
  · rintro rfl
    refine ⟨rfl, fun rows => ⟨get?_put_self outcome rows, fun other hother => ?_⟩⟩
    exact get?_put_of_ne (Ne.symm hother) rows

/-- The outcome is filed under the release that was asked for exactly if the reading that it is
made of gives no other id. -/
theorem extractRelease_filedUnder_iff :
    FiledUnder ref.releaseId (extractRelease B opts ref o) ↔
      ∀ release source fingerprint, Reads B opts ref o release source fingerprint →
        Completes ref release →
          release.distributorReleaseId ∈ ["", "unknown", ref.releaseId] := by
  have hid : ∀ release, (withId ref release).distributorReleaseId = ref.releaseId ↔
      release.distributorReleaseId ∈ ["", "unknown", ref.releaseId] := by
    intro release
    simp only [withId, List.mem_cons, List.not_mem_nil, or_false]
    split
    · rename_i hown
      simp only [Bool.and_eq_true, decide_eq_true_eq, ne_eq] at hown
      simp [hown.1, hown.2]
    · rename_i hown
      simp only [Bool.and_eq_true, decide_eq_true_eq, ne_eq, not_and_or, not_not] at hown
      rcases hown with hown | hown
      · simp [hown]
      · simp [hown]
  rw [filedUnder_iff]
  have hsettled : Settled B opts ref o (extractRelease B opts ref o) := extractRelease_settled
  rcases hsettled with
    ⟨release, source, fingerprint, hreads, heq⟩ | ⟨hnone, reason, detail, heq⟩
  · rw [heq]
    constructor
    · intro hkey release' source' fingerprint' hreads' hcompletes
      obtain ⟨rfl, -, -⟩ := hreads.unique hreads'
      rw [complete_of_completes hcompletes] at hkey
      exact (hid release).1 hkey
    · intro hown
      by_cases hcompletes : Completes ref release
      · rw [complete_of_completes hcompletes]
        exact (hid release).2 (hown release source fingerprint hreads hcompletes)
      · obtain ⟨detail, hfailed⟩ := complete_of_not hcompletes o.elapsedMs source fingerprint
        rw [hfailed]
        rfl
  · rw [heq]
    exact iff_of_true rfl fun release source fingerprint hreads => absurd hreads (hnone _ _ _)

end Outcome

/-! ### A payload with an id of its own -/

def sampleBrowser : Browser :=
  { platform := samplePlatform
    toLocaleLowerCase := fun s => s
    now := "2026-01-01T00:00:00.000Z"
    parsePageUrl := fun url =>
      if url = "https://distrokid.com/dashboard/album/?albumuuid=A1" then
        some ⟨"https:", "", "", "distrokid.com", ""⟩
      else none
    toLowerCase := fun s => s }

def sampleOptions : ExtractorOptions := ⟨"distrokid.com", 30000⟩

def sampleReleaseRef : ReleaseRefRecord :=
  ⟨"A1", "https://distrokid.com/dashboard/album/?albumuuid=A1", some "Song", none, none⟩

/-- The release as its dashboard fetches it, with these properties besides. -/
def samplePayload (fields : List (String × Json)) : Json :=
  .obj (fields ++ [("albumUuid", .str "A1"), ("title", .str "Song"),
    ("tracks", .arr [.obj [("title", .str "Song")]])])

/-- The dashboard's response for the release, captured and matched. -/
def sampleCapture (payload : Json) : CapturedResponse Json :=
  { fingerprint := "GET /api/albums/:id", payload, score := 10, releaseId := some "A1"
    correlation := .requestIdMatch, namesOtherRelease := false, event := 0 }

def sampleObserved (payload : Json) : Observed :=
  { landed := .ok "https://distrokid.com/dashboard/album/?albumuuid=A1"
    hit := .ok (some (sampleCapture payload)), sibling := .ok (), captures := [sampleCapture payload]
    recordSuccess := .ok (), recordDrift := .ok (), direct := none, pageState := none, dom := none
    elapsedMs := 1 }

/-- The response names the release by its UUID and has a row number besides, which becomes the key:
the outcome is not found under the release, and the row of another is overwritten. -/
theorem extractRelease_ownId :
    let outcome := extractRelease sampleBrowser sampleOptions sampleReleaseRef
      (sampleObserved (samplePayload [("id", .num ⟨7, "7"⟩)]))
    ¬ FiledUnder "A1" outcome ∧ outcome.isCompleted = true ∧
      outcomeOf "A1" (putOutcomes [sampleRead "7"] [outcome]) = none ∧
      outcomeOf "7" (putOutcomes [sampleRead "7"] [outcome]) = some outcome := by
  intro outcome
  have hid : outcome.outcomeReleaseId = "7" := by decide +kernel
  refine ⟨fun h => ?_, by decide +kernel, by decide +kernel, by decide +kernel⟩
  have hkey := h.1
  rw [hid] at hkey
  exact absurd hkey (by decide)

end CatalogSentinel.Extract
