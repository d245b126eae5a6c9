import CatalogSentinel.Capture.Cdp
import CatalogSentinel.Extract.Extractor

/-!
The tabs of a chunk. They share one browser context, so every tab's listener there sees
the responses of all of them; the debugging session is each page's own. An extraction
names its release to both, resets both, and takes the response that either has for it.
-/

namespace CatalogSentinel.Extract

open CatalogSentinel.Data CatalogSentinel.Distrokid CatalogSentinel.Capture CatalogSentinel.Concurrent

/-- A payload with the request that it answers. -/
structure Traced where
  json : Json
  url : String
  postData : Option String

def untraced (c : CapturedResponse Traced) : CapturedResponse Json :=
  { fingerprint := c.fingerprint, payload := c.payload.json, score := c.score, releaseId := c.releaseId
    correlation := c.correlation, namesOtherRelease := c.namesOtherRelease, event := c.event }

/-- What the tabs of a chunk are opened with; both paths have the chunk's ids and one least score. -/
structure Session where
  browser : Browser
  options : ExtractorOptions
  discovery : DiscoveryOptions
  reading : Reading Json

def Session.cdp (S : Session) : CdpOptions := ⟨S.discovery.minScore, S.discovery.knownReleaseIds⟩

def Session.traced (S : Session) : Reading Traced :=
  ⟨S.reading.isInspectableUrl, fun payload => S.reading.score payload.json, S.reading.fingerprint⟩

inductive CapturePath
  | context | cdp
  deriving DecidableEq, Repr

/-- Where a tab's extraction waits. -/
inductive Stage
  | idle
  | navigating (ref : ReleaseRefRecord)
  | matching (ref : ReleaseRefRecord) (landed : String) (waiter : ℕ)
  | matchingCdp (ref : ReleaseRefRecord) (landed : String) (waiter : ℕ)
  | settling (ref : ReleaseRefRecord) (landed : String)
      (hit : Option (CapturePath × CapturedResponse Traced)) (sibling : Option ℕ)

/-- A release that was completed from captured payloads, with what had happened by then. -/
structure Completion where
  ref : ReleaseRefRecord
  release : CanonicalDistributorRelease
  path : CapturePath
  hit : CapturedResponse Traced
  siblings : List (CapturedResponse Traced)
  log : CapturePath → List (Entry Traced)

structure Tab where
  discovery : Discovery Traced
  cdp : Option (Cdp Traced)
  stage : Stage
  completions : List Completion

/-- What happens to one tab. -/
inductive TabEvent
  | begin (ref : ReleaseRefRecord)
  | landed (url : Except String String) (activeFingerprints : List String) (anyDegraded : Bool)
  | matched
  | matchedCdp
  | finish (rest : Observed)
  | context (e : Event Json)
  | page (e : CdpEvent Json)

inductive ChunkEvent
  | response (response : Response)
  | tab (i : ℕ) (e : TabEvent)

/-! ### The two paths -/

/-- An event of the context listener, the body with its request; calls are the extractor's own. -/
def traceContext (d : Discovery Traced) : Event Json → Option (Event Traced)
  | .bodyRead event body => (d.listenerAt event).map fun l =>
      .bodyRead event ⟨body.length, body.payload.map fun json => ⟨json, l.response.url, l.response.postData⟩⟩
  | .readFailed event => some (.readFailed event)
  | .candidateWritten event => some (.candidateWritten event)
  | .timeout waiter => some (.timeout waiter)
  | _ => none

/-- An event of the debugging session, likewise. -/
def tracePage (d : Cdp Traced) : CdpEvent Json → Option (CdpEvent Traced)
  | .requestWillBeSent request => some (.requestWillBeSent request)
  | .responseReceived response => some (.responseReceived response)
  | .loadingFinished requestId => some (.loadingFinished requestId)
  | .loadingFailed requestId => some (.loadingFailed requestId)
  | .bodyFetched fetch body => (d.fetches[fetch]?).map fun p =>
      .bodyFetched fetch ⟨body.length, body.payload.map fun json => ⟨json, p.response.url, p.response.sentBody⟩⟩
  | .fetchFailed fetch => some (.fetchFailed fetch)
  | .timeout waiter => some (.timeout waiter)
  | _ => none

/-- What a caller has been given, if anything. -/
def settledWith (waiter : ℕ) (log : List (Entry Traced)) : Option (Option (CapturedResponse Traced)) :=
  log.findSome? fun
    | .settled w result => if w = waiter then some result else none
    | _ => none

/-- A sibling that the release is completed with. -/
def donates (H : Host) (release : CanonicalDistributorRelease) (usedFingerprint expectedReleaseId : String)
    (other : CapturedResponse Json) : Bool :=
  other.fingerprint ≠ usedFingerprint && !other.namesOtherRelease &&
    match parse H .networkJson other.payload with
    | .error _ => false
    | .ok extra => belongs release expectedReleaseId other extra

namespace Tab

variable (S : Session)

def installed (withCdp : Bool) : Tab :=
  ⟨Discovery.installed, if withCdp then some Cdp.attached else none, .idle, []⟩

def log (t : Tab) : CapturePath → List (Entry Traced)
  | .context => t.discovery.log
  | .cdp => (t.cdp.map (·.log)).getD []

/-- Both paths are told the release and reset. -/
def begin (t : Tab) (ref : ReleaseRefRecord) : Tab :=
  { t with
    discovery := { t.discovery with currentRelease := some ref.releaseId }.resetCaptures
    cdp := t.cdp.map fun cdp => { cdp.resetCaptures with currentRelease := some ref.releaseId }
    stage :=
      if isAllowedDistributorUrl S.browser ref.dashboardUrl S.options.origin then .navigating ref
      else .idle }

/-- The release is waited for under the policy, unless the navigation failed or led elsewhere. -/
def landed (t : Tab) (ref : ReleaseRefRecord) (url : Except String String)
    (activeFingerprints : List String) (anyDegraded : Bool) : Tab :=
  match url with
  | .error _ => { t with stage := .idle }
  | .ok url =>
    if isAllowedDistributorUrl S.browser url S.options.origin then
      let policy : ResponseMatchPolicy :=
        ⟨activeFingerprints, some ref.releaseId, activeFingerprints.isEmpty || anyDegraded,
          some S.discovery.minScore⟩
      { t with
        discovery := t.discovery.waitFor (.matchingResponse policy)
        stage := .matching ref url t.discovery.log.length }
    else { t with stage := .idle }

/-- There is a response; if it has gaps, a sibling is waited for. -/
def read (t : Tab) (ref : ReleaseRefRecord) (landed : String) (path : CapturePath)
    (hit : CapturedResponse Traced) : Tab :=
  match parse S.browser.toHost .networkJson hit.payload.json with
  | .error _ => { t with stage := .settling ref landed (some (path, hit)) none }
  | .ok release =>
    if hasGaps release then
      { t with
        discovery := t.discovery.waitFor (.differentEndpoint hit.fingerprint)
        stage := .settling ref landed (some (path, hit)) (some t.discovery.log.length) }
    else { t with stage := .settling ref landed (some (path, hit)) none }

/-- Without a response from the context, the page's session is asked, if there is one. -/
def askCdp (t : Tab) (ref : ReleaseRefRecord) (landed : String) : Tab :=
  match t.cdp with
  | none => { t with stage := .settling ref landed none none }
  | some cdp =>
    { t with
      cdp := some (cdp.waitForCatalogResponse S.cdp.minScore)
      stage := .matchingCdp ref landed cdp.log.length }

def observed (t : Tab) (landed : String) (hit : Option (CapturePath × CapturedResponse Traced))
    (rest : Observed) : Observed :=
  { rest with
    landed := .ok landed
    hit := .ok (hit.map fun h => untraced h.2)
    sibling := .ok ()
    captures := t.discovery.captures.map untraced }

/-- The completion that is noted, where the outcome is one from captured payloads. -/
def completion (t : Tab) (ref : ReleaseRefRecord) (hit : Option (CapturePath × CapturedResponse Traced))
    (outcome : ReleaseExtractionOutcome) : Option Completion :=
  match hit, outcome with
  | some (path, hit), .completed release .networkJson _ _ =>
    match parse S.browser.toHost .networkJson hit.payload.json with
    | .error _ => none
    | .ok parsed =>
      let siblings := t.discovery.captures.filter fun c =>
        donates S.browser.toHost parsed hit.fingerprint ref.releaseId (untraced c)
      some ⟨ref, release, path, hit, siblings, t.log⟩
  | _, _ => none

def finish (t : Tab) (ref : ReleaseRefRecord) (landed : String)
    (hit : Option (CapturePath × CapturedResponse Traced)) (rest : Observed) : Tab :=
  let outcome := extractRelease S.browser S.options ref (t.observed landed hit rest)
  { t with stage := .idle, completions := t.completions ++ (t.completion S ref hit outcome).toList }

def step (t : Tab) : TabEvent → Option Tab
  | .begin ref =>
    match t.stage with
    | .idle => some (t.begin S ref)
    | _ => none
  | .landed url activeFingerprints anyDegraded =>
    match t.stage with
    | .navigating ref => some (t.landed S ref url activeFingerprints anyDegraded)
    | _ => none
  | .matched =>
    match t.stage with
    | .matching ref landed waiter => (settledWith waiter (t.log .context)).map fun
      | some hit => t.read S ref landed .context hit
      | none => t.askCdp S ref landed
    | _ => none
  | .matchedCdp =>
    match t.stage with
    | .matchingCdp ref landed waiter => (settledWith waiter (t.log .cdp)).map fun
      | some hit => t.read S ref landed .cdp hit
      | none => { t with stage := .settling ref landed none none }
    | _ => none
  | .finish rest =>
    match t.stage with
    | .settling ref landed hit sibling =>
      if sibling.all fun waiter => (settledWith waiter (t.log .context)).isSome then
        some (t.finish S ref landed hit rest)
      else none
    | _ => none
  | .context e => do
    let e ← traceContext t.discovery e
    let discovery ← t.discovery.step S.discovery S.traced e
    return { t with discovery }
  | .page e => do
    let cdp ← t.cdp
    let e ← tracePage cdp e
    let cdp ← cdp.step S.cdp S.traced e
    return { t with cdp := some cdp }

end Tab

namespace Chunk

/-- A response of the context is seen by every tab. -/
def step (S : Session) (tabs : List Tab) : ChunkEvent → Option (List Tab)
  | .response response => some (tabs.map fun t =>
      { t with discovery := t.discovery.onResponse S.discovery S.traced response })
  | .tab i e => do
    let t ← tabs[i]?
    let t' ← t.step S e
    return tabs.set i t'

end Chunk

/-! ### Whose data it is -/

section Whose

variable (identifier : Char → Bool) (catalogue : List String)

/-- The request names a release of the catalogue, and not this one. -/
def NamesAnother (url : String) (postData : Option String) (releaseId : Option String) : Prop :=
  (∃ id ∈ catalogue, Names identifier url postData id) ∧
    ∀ id ∈ releaseId, ¬ Names identifier url postData id

instance (url : String) (postData releaseId : Option String) :
    Decidable (NamesAnother identifier catalogue url postData releaseId) := by
  unfold NamesAnother
  infer_instance

/-- The capture's request does not name another release. -/
def Owns (releaseId : Option String) (c : CapturedResponse Traced) : Prop :=
  ¬ NamesAnother identifier catalogue c.payload.url c.payload.postData releaseId

/-- What the release is completed from has come since the last reset, and was requested for no other. -/
def Completion.Own (c : Completion) : Prop :=
  (SinceLastReset (c.log c.path) (.responded c.hit.event) ∧ Owns identifier catalogue (some c.ref.releaseId) c.hit) ∧
    ∀ sibling ∈ c.siblings, SinceLastReset (c.log .context) (.responded sibling.event) ∧
      Owns identifier catalogue (some c.ref.releaseId) sibling

/-- No tab has completed a release from the data of another. -/
def NoCrossRelease (tabs : List Tab) : Prop :=
  ∀ t ∈ tabs, ∀ c ∈ t.completions, c.Own identifier catalogue

/-- A request for another release is known to be one: it names one of the chunk's, and the current
release's id is not part of something longer in it. -/
def ToldApart (knownReleaseIds : List String) (releaseId : Option String) (r : Response) : Prop :=
  NamesAnother identifier catalogue r.url r.postData releaseId →
    (∃ id ∈ knownReleaseIds, Names identifier r.url r.postData id) ∧
      ¬ OccursWithin identifier r.url r.postData releaseId

/-- The responses that a tab listens to are told apart, and a body that its page's session captures is
of a response since the last reset, whose request does not name another release than the current. -/
def Attributable (S : Session) (tabs : List Tab) : ChunkEvent → Prop
  | .response r => ∀ t ∈ tabs, t.discovery.reads S.discovery S.traced r = true →
      ToldApart identifier catalogue S.discovery.knownReleaseIds t.discovery.currentRelease r
  | .tab i (.page e) => ∀ t ∈ tabs[i]?, ∀ cdp ∈ t.cdp, ∀ e' ∈ tracePage cdp e,
      cdp.Fresh S.cdp S.traced (Owns identifier catalogue cdp.currentRelease) e'
  | .tab _ _ => True

instance (url : String) (postData releaseId : Option String) :
    Decidable (OccursWithin identifier url postData releaseId) := by
  unfold OccursWithin
  infer_instance

instance (knownReleaseIds : List String) (releaseId : Option String) (r : Response) :
    Decidable (ToldApart identifier catalogue knownReleaseIds releaseId r) := by
  unfold ToldApart
  infer_instance

instance (releaseId : Option String) (c : CapturedResponse Traced) :
    Decidable (Owns identifier catalogue releaseId c) := by
  unfold Owns
  infer_instance

instance (S : Session) (cdp : Cdp Traced) (releaseId : Option String) (e : CdpEvent Traced) :
    Decidable (cdp.Fresh S.cdp S.traced (Owns identifier catalogue releaseId) e) := by
  cases e <;> unfold Cdp.Fresh <;> infer_instance

instance (S : Session) (tabs : List Tab) (e : ChunkEvent) :
    Decidable (Attributable identifier catalogue S tabs e) := by
  unfold Attributable
  split <;> infer_instance

end Whose

end CatalogSentinel.Extract
