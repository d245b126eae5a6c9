import CatalogSentinel.Capture.Discovery
import CatalogSentinel.Data.Assoc

/-!
The second path of capture, over the debugging protocol of one page. The request of a
response is known from an earlier event, and the body is fetched after the response has
loaded. Here the current release is read when the body has come, a reset drops the
captures alone, and a caller is given whatever scores high enough.
-/

namespace CatalogSentinel.Capture

open CatalogSentinel.Data

def MAX_CDP_REQUESTS : ℕ := 5000

structure CdpOptions where
  minScore : ℚ
  knownReleaseIds : List String
  deriving DecidableEq, Repr

/-- What an event shows of a request. -/
structure PendingRequest where
  requestId : String
  method : String
  url : String
  postData : Option String
  deriving DecidableEq, Repr

/-- A response, and the body that its request really had, of which its event shows nothing. -/
structure CdpResponse where
  requestId : String
  url : String
  mimeType : String
  status : ℕ
  sentBody : Option String
  deriving DecidableEq, Repr

/-- A response with what is known of its request. -/
structure PendingResponse where
  event : ℕ
  response : CdpResponse
  method : String
  postData : Option String
  deriving DecidableEq, Repr

def PendingResponse.requestId (p : PendingResponse) : String := p.response.requestId

structure CdpWaiter where
  id : ℕ
  minScore : ℚ
  deriving DecidableEq, Repr

structure Cdp (Payload : Type) where
  requests : List PendingRequest
  pending : List PendingResponse
  /-- The bodies that are being fetched, each for the response that was pending then. -/
  fetches : List PendingResponse
  captures : List (CapturedResponse Payload)
  waiters : List CdpWaiter
  currentRelease : Option String
  disposed : Bool
  log : List (Entry Payload)
  deriving DecidableEq, Repr

inductive CdpEvent (Payload : Type)
  | setCurrentRelease (releaseId : Option String)
  | resetCaptures
  | requestWillBeSent (request : PendingRequest)
  | responseReceived (response : CdpResponse)
  | loadingFinished (requestId : String)
  | loadingFailed (requestId : String)
  | bodyFetched (fetch : ℕ) (body : Body Payload)
  | fetchFailed (fetch : ℕ)
  | waitForCatalogResponse (minScore : Option ℚ)
  | timeout (waiter : ℕ)
  | dispose
  deriving DecidableEq, Repr

namespace Cdp

variable {Payload : Type}

def attached : Cdp Payload :=
  { requests := [], pending := [], fetches := [], captures := [], waiters := []
    currentRelease := none, disposed := false, log := [] }

def onRequestWillBeSent (reading : Reading Payload) (d : Cdp Payload) (request : PendingRequest) :
    Cdp Payload :=
  if reading.isInspectableUrl request.url then
    let requests := put (·.requestId) { request with postData := request.postData.filter (· ≠ "") } d.requests
    { d with requests := if MAX_CDP_REQUESTS < requests.length then requests.tail else requests }
  else d

def onResponseReceived (reading : Reading Payload) (d : Cdp Payload) (response : CdpResponse) :
    Cdp Payload :=
  let event := d.log.length
  let d := { d with log := .responded event :: d.log }
  if includes response.mimeType "json" && (200 ≤ response.status && response.status < 300) &&
      reading.isInspectableUrl response.url then
    let request := get? (·.requestId) response.requestId d.requests
    -- Fall back to GET only when the request event was missed entirely.
    let pending : PendingResponse :=
      ⟨event, response, (request.map (·.method)).getD "GET", request.bind (·.postData)⟩
    { d with pending := put (·.requestId) pending d.pending }
  else d

def onLoadingFinished (d : Cdp Payload) (requestId : String) : Cdp Payload :=
  match get? (·.requestId) requestId d.pending with
  | none => d
  | some candidate => if d.disposed then d else { d with fetches := d.fetches ++ [candidate] }

/-- The state of the request is dropped, on success and on failure. -/
def forget (d : Cdp Payload) (requestId : String) : Cdp Payload :=
  { d with
    pending := erase (·.requestId) requestId d.pending
    requests := erase (·.requestId) requestId d.requests }

/-- The payload of a body that is captured. -/
def readBody (opts : CdpOptions) (reading : Reading Payload) (body : Body Payload) : Option Payload :=
  if body.length = 0 || body.length > MAX_CAPTURE_BODY_BYTES then none
  else
    match body.payload with
    | none => none
    | some payload => if reading.score payload < opts.minScore then none else some payload

/-- The request is correlated with the release that is current by now. -/
def captured (opts : CdpOptions) (reading : Reading Payload) (currentRelease : Option String)
    (candidate : PendingResponse) (payload : Payload) : CapturedResponse Payload :=
  let response := candidate.response
  let correlation := correlateRequest response.url candidate.postData currentRelease opts.knownReleaseIds
  { fingerprint := reading.fingerprint
      ⟨candidate.method, response.url, candidate.postData, "", response.status, response.mimeType, none⟩
    payload
    score := reading.score payload
    releaseId := currentRelease.filter (· ≠ "")
    correlation := correlation.kind
    namesOtherRelease := correlation.namesOtherRelease
    event := candidate.event }

/-- The capture is given to every caller that it scores high enough for. -/
def deliver (d : Cdp Payload) (captured : CapturedResponse Payload) : Cdp Payload :=
  { d with
    captures := d.captures ++ [captured]
    waiters := d.waiters.filter (captured.score < ·.minScore)
    log := (d.waiters.filter (·.minScore ≤ captured.score)).map (fun w => .settled w.id (some captured)) ++ d.log }

def onBody (opts : CdpOptions) (reading : Reading Payload) (d : Cdp Payload) (fetch : ℕ)
    (candidate : PendingResponse) (body : Body Payload) : Cdp Payload :=
  let d := { d with fetches := d.fetches.eraseIdx fetch }.forget candidate.requestId
  match readBody opts reading body with
  | none => d
  | some payload => d.deliver (captured opts reading d.currentRelease candidate payload)

def waitForCatalogResponse (d : Cdp Payload) (minScore : ℚ) : Cdp Payload :=
  let waiter := d.log.length
  let wanted := Wanted.catalogResponse minScore
  let d := { d with log := .called waiter wanted :: d.log }
  match wanted.existing d.captures with
  | some c => { d with log := .settled waiter (some c) :: d.log }
  | none => { d with waiters := d.waiters ++ [⟨waiter, minScore⟩] }

def onTimeout (d : Cdp Payload) (waiter : ℕ) : Cdp Payload :=
  { d with
    waiters := d.waiters.filter (·.id ≠ waiter)
    log := .settled waiter none :: d.log }

/-- The callers wait on. -/
def resetCaptures (d : Cdp Payload) : Cdp Payload :=
  { d with captures := [], log := .reset :: d.log }

def dispose (d : Cdp Payload) : Cdp Payload :=
  { d with
    disposed := true, captures := [], pending := [], requests := [], waiters := []
    log := (d.waiters.map fun w => .settled w.id none).reverse ++ d.log }

def step (opts : CdpOptions) (reading : Reading Payload) (d : Cdp Payload) :
    CdpEvent Payload → Option (Cdp Payload)
  | .setCurrentRelease releaseId => some { d with currentRelease := releaseId }
  | .resetCaptures => some d.resetCaptures
  | .requestWillBeSent request => some (d.onRequestWillBeSent reading request)
  | .responseReceived response => some (d.onResponseReceived reading response)
  | .loadingFinished requestId => some (d.onLoadingFinished requestId)
  | .loadingFailed requestId => some (d.forget requestId)
  | .bodyFetched fetch body => (d.fetches[fetch]?).map fun candidate => d.onBody opts reading fetch candidate body
  | .fetchFailed fetch => (d.fetches[fetch]?).map fun candidate =>
      { d with fetches := d.fetches.eraseIdx fetch }.forget candidate.requestId
  | .waitForCatalogResponse minScore => some (d.waitForCatalogResponse (minScore.getD opts.minScore))
  | .timeout waiter => if d.waiters.any (·.id = waiter) then some (d.onTimeout waiter) else none
  | .dispose => some d.dispose

/-! ### What is captured and given out -/

/-- What is captured and what callers since the last reset have been given is good, and a response
since the last reset. -/
structure Kept (good : CapturedResponse Payload → Prop) (d : Cdp Payload) : Prop where
  captures : ∀ c ∈ d.captures, SinceLastReset d.log (.responded c.event) ∧ good c
  waiters : ∀ w ∈ d.waiters, w.id < d.log.length
  settled : ∀ w result, .settled w result ∈ d.log → w < d.log.length
  answers : ∀ w c, .settled w (some c) ∈ d.log → lastReset d.log ≤ w →
    SinceLastReset d.log (.responded c.event) ∧ good c

/-- The body that comes is not captured, or is good and of a response since the last reset. -/
def Fresh (opts : CdpOptions) (reading : Reading Payload) (good : CapturedResponse Payload → Prop)
    (d : Cdp Payload) : CdpEvent Payload → Prop
  | .bodyFetched fetch body => ∀ candidate ∈ d.fetches[fetch]?, ∀ payload ∈ readBody opts reading body,
      SinceLastReset d.log (.responded candidate.event) ∧
        good (captured opts reading d.currentRelease candidate payload)
  | _ => True

variable {opts : CdpOptions} {reading : Reading Payload} {d d' : Cdp Payload}
  {good : CapturedResponse Payload → Prop}

theorem kept_attached (good : CapturedResponse Payload → Prop) :
    Kept good attached :=
  ⟨fun _ hc => absurd hc List.not_mem_nil, fun _ hw => absurd hw List.not_mem_nil,
    fun _ _ hmem => absurd hmem List.not_mem_nil, fun _ _ hmem => absurd hmem List.not_mem_nil⟩

/-- The state of the requests has no part in it, and captures may be dropped. -/
theorem Kept.same (h : Kept good d) (hlog : d'.log = d.log) (hcaptures : d'.captures ⊆ d.captures)
    (hwaiters : d'.waiters ⊆ d.waiters) : Kept good d' := by
  refine ⟨fun c hc => ?_, fun w hw => ?_, ?_, ?_⟩
  · rw [hlog]
    exact h.captures c (hcaptures hc)
  · rw [hlog]
    exact h.waiters w (hwaiters hw)
  · rw [hlog]
    exact h.settled
  · rw [hlog]
    exact h.answers

/-- Entries other than resets are added; the answers among them are good, and to those who wait. -/
theorem Kept.noted (h : Kept good d) (more : List (Entry Payload))
    (hreset : ∀ e ∈ more, e.isReset = false)
    (hcaptures : ∀ c ∈ d'.captures, c ∈ d.captures ∨ SinceLastReset d.log (.responded c.event) ∧ good c)
    (hwaiters : ∀ w ∈ d'.waiters, w ∈ d.waiters ∨ w.id < (more ++ d.log).length)
    (hsettled : ∀ w result, .settled w result ∈ more → w < (more ++ d.log).length ∧
      ∀ c ∈ result, SinceLastReset d.log (.responded c.event) ∧ good c)
    (hlog : d'.log = more ++ d.log) : Kept good d' := by
  have hmore : Later d.log (more ++ d.log) := ⟨more, hreset, rfl⟩
  have hlater : ∀ {e}, SinceLastReset d.log e → SinceLastReset (more ++ d.log) e :=
    fun he => hmore.sinceLastReset he
  have hlength : d.log.length ≤ (more ++ d.log).length := by
    rw [List.length_append]
    omega
  refine ⟨fun c hc => ?_, fun w hw => ?_, fun w result hmem => ?_, fun w c hmem hsince => ?_⟩
  · rw [hlog]
    rcases hcaptures c hc with hold | ⟨hcame, hgood⟩
    · exact ⟨hlater (h.captures c hold).1, (h.captures c hold).2⟩
    · exact ⟨hlater hcame, hgood⟩
  · rw [hlog]
    rcases hwaiters w hw with hold | hnew
    · exact (h.waiters w hold).trans_le hlength
    · exact hnew
  · rw [hlog] at hmem ⊢
    rcases List.mem_append.1 hmem with hnew | hold
    · exact (hsettled w result hnew).1
    · exact (h.settled w result hold).trans_le hlength
  · rw [hlog] at hmem ⊢
    rcases List.mem_append.1 hmem with hnew | hold
    · obtain ⟨hcame, hgood⟩ := (hsettled w (some c) hnew).2 c rfl
      exact ⟨hlater hcame, hgood⟩
    · rw [hlog, hmore.lastReset] at hsince
      obtain ⟨hcame, hgood⟩ := h.answers w c hold hsince
      exact ⟨hlater hcame, hgood⟩

theorem Kept.forget (h : Kept good d) (requestId : String) (fetch : ℕ) :
    Kept good ({ d with fetches := d.fetches.eraseIdx fetch }.forget requestId) :=
  h.same rfl (List.Subset.refl _) (List.Subset.refl _)

theorem Kept.deliver (h : Kept good d) {captured : CapturedResponse Payload}
    (hcaptured : SinceLastReset d.log (.responded captured.event) ∧ good captured) :
    Kept good (d.deliver captured) := by
  have hmore : ∀ e ∈ (d.waiters.filter (·.minScore ≤ captured.score)).map
      (fun w => (.settled w.id (some captured) : Entry Payload)),
      ∃ w ∈ d.waiters, e = .settled w.id (some captured) := by
    intro e he
    obtain ⟨w, hw, rfl⟩ := List.mem_map.1 he
    exact ⟨w, List.mem_of_mem_filter hw, rfl⟩
  refine h.noted _ (fun e he => ?_) (fun c hc => ?_) (fun w hw => .inl (List.mem_of_mem_filter hw))
    (fun w result hmem => ?_) rfl
  · obtain ⟨w, -, rfl⟩ := hmore e he
    rfl
  · rcases List.mem_append.1 hc with hc | hc
    · exact .inl hc
    · obtain rfl := List.mem_singleton.1 hc
      exact .inr hcaptured
  · obtain ⟨v, hv, heq⟩ := hmore _ hmem
    obtain ⟨rfl, rfl⟩ := Entry.settled.inj heq
    refine ⟨(h.waiters v hv).trans_le ?_, fun c hc => ?_⟩
    · rw [List.length_append]
      omega
    · obtain rfl := Option.some.inj hc
      exact hcaptured

theorem Kept.onBody (h : Kept good d) {fetch : ℕ} {candidate : PendingResponse} {body : Body Payload}
    (hfresh : ∀ payload ∈ readBody opts reading body, SinceLastReset d.log (.responded candidate.event) ∧
      good (captured opts reading d.currentRelease candidate payload)) :
    Kept good (d.onBody opts reading fetch candidate body) := by
  unfold Cdp.onBody
  dsimp only
  cases hbody : readBody opts reading body with
  | none => exact h.forget candidate.requestId fetch
  | some payload => exact (h.forget candidate.requestId fetch).deliver (hfresh payload hbody)

theorem Kept.waitForCatalogResponse (h : Kept good d) (minScore : ℚ) :
    Kept good (d.waitForCatalogResponse minScore) := by
  unfold Cdp.waitForCatalogResponse
  dsimp only
  cases hexisting : (Wanted.catalogResponse minScore).existing d.captures with
  | some c =>
    have hmem := (Wanted.existing_mem hexisting).1
    refine h.noted [.settled d.log.length (some c), .called d.log.length (.catalogResponse minScore)]
      (fun e he => ?_) (fun c hc => .inl hc) (fun w hw => .inl hw) (fun w result hsettled => ?_) rfl
    · simp only [List.mem_cons, List.not_mem_nil, or_false] at he
      rcases he with rfl | rfl <;> rfl
    · simp only [List.mem_cons, List.not_mem_nil, or_false, Entry.settled.injEq] at hsettled
      rcases hsettled with ⟨rfl, rfl⟩ | hcalled
      · refine ⟨Nat.lt_succ_of_lt (Nat.lt_succ_self _), fun c' hc' => ?_⟩
        obtain rfl := Option.some.inj hc'
        exact h.captures c hmem
      · cases hcalled
  | none =>
    refine h.noted [.called d.log.length (.catalogResponse minScore)]
      (fun e he => ?_) (fun c hc => .inl hc) (fun w hw => ?_) (fun w result hsettled => ?_) rfl
    · obtain rfl := List.mem_singleton.1 he
      rfl
    · rcases List.mem_append.1 hw with hw | hw
      · exact .inl hw
      · obtain rfl := List.mem_singleton.1 hw
        exact .inr (Nat.lt_succ_self _)
    · cases List.mem_singleton.1 hsettled

theorem Kept.onTimeout (h : Kept good d) {waiter : ℕ} (hwaits : d.waiters.any (·.id = waiter) = true) :
    Kept good (d.onTimeout waiter) := by
  obtain ⟨w, hw, hid⟩ := List.any_eq_true.1 hwaits
  obtain rfl : w.id = waiter := of_decide_eq_true hid
  refine h.noted [.settled w.id none] (fun e he => ?_) (fun c hc => .inl hc)
    (fun v hv => .inl (List.mem_of_mem_filter hv)) (fun v result hsettled => ?_) rfl
  · obtain rfl := List.mem_singleton.1 he
    rfl
  · obtain ⟨rfl, rfl⟩ := Entry.settled.inj (List.mem_singleton.1 hsettled)
    exact ⟨(h.waiters w hw).trans (Nat.lt_succ_self _), fun c hc => by cases hc⟩

/-- After a reset no caller has been given anything yet. -/
theorem Kept.resetCaptures (h : Kept good d) (releaseId : Option String)
    (good' : CapturedResponse Payload → Prop) :
    Kept good' { d.resetCaptures with currentRelease := releaseId } := by
  have hsettled : ∀ w result, .settled w result ∈ (.reset :: d.log : List (Entry Payload)) →
      w < d.log.length := by
    intro w result hmem
    rcases List.mem_cons.1 hmem with heq | hmem
    · cases heq
    · exact h.settled w result hmem
  refine ⟨fun c hc => absurd hc List.not_mem_nil, fun w hw => (h.waiters w hw).trans (Nat.lt_succ_self _),
    fun w result hmem => (hsettled w result hmem).trans (Nat.lt_succ_self _), fun w c hmem hsince => ?_⟩
  have hlt := hsettled w (some c) hmem
  have hlast : lastReset (.reset :: d.log) = d.log.length + 1 := lastReset_reset d.log
  change lastReset (.reset :: d.log) ≤ w at hsince
  omega

/-- Whatever happens at the page keeps it, if the bodies that come are fresh. -/
theorem Kept.step {e : CdpEvent Payload} (h : Kept good d) (hreset : e ≠ .resetCaptures)
    (hfresh : Fresh opts reading good d e) (hstep : d.step opts reading e = some d') :
    Kept good d' := by
  cases e with
  | resetCaptures => exact absurd rfl hreset
  | setCurrentRelease releaseId =>
    obtain rfl := Option.some.inj hstep
    exact h.same rfl (List.Subset.refl _) (List.Subset.refl _)
  | requestWillBeSent request =>
    obtain rfl := Option.some.inj hstep
    unfold onRequestWillBeSent
    split
    · exact h.same rfl (List.Subset.refl _) (List.Subset.refl _)
    · exact h
  | responseReceived response =>
    obtain rfl := Option.some.inj hstep
    have hresponded : Kept good { d with log := .responded d.log.length :: d.log } := by
      refine h.noted [.responded d.log.length] (fun e he => ?_) (fun c hc => .inl hc)
        (fun w hw => .inl hw) (fun w result hsettled => ?_) rfl
      · obtain rfl := List.mem_singleton.1 he
        rfl
      · cases List.mem_singleton.1 hsettled
    unfold onResponseReceived
    dsimp only
    split
    · exact hresponded.same rfl (List.Subset.refl _) (List.Subset.refl _)
    · exact hresponded
  | loadingFinished requestId =>
    obtain rfl := Option.some.inj hstep
    unfold onLoadingFinished
    split
    · exact h
    · split
      · exact h
      · exact h.same rfl (List.Subset.refl _) (List.Subset.refl _)
  | loadingFailed requestId =>
    obtain rfl := Option.some.inj hstep
    exact h.same rfl (List.Subset.refl _) (List.Subset.refl _)
  | bodyFetched fetch body =>
    obtain ⟨candidate, hfetch, rfl⟩ := Option.map_eq_some_iff.1 hstep
    exact h.onBody (hfresh candidate hfetch)
  | fetchFailed fetch =>
    obtain ⟨candidate, -, rfl⟩ := Option.map_eq_some_iff.1 hstep
    exact h.forget candidate.requestId fetch
  | waitForCatalogResponse minScore =>
    obtain rfl := Option.some.inj hstep
    exact h.waitForCatalogResponse _
  | timeout waiter =>
    obtain ⟨hwaits, rfl⟩ := Option.ite_some_none_eq_some.1 hstep
    exact h.onTimeout hwaits
  | dispose =>
    obtain rfl := Option.some.inj hstep
    have hmore : ∀ e ∈ (d.waiters.map fun w => (.settled w.id none : Entry Payload)).reverse,
        ∃ w ∈ d.waiters, e = .settled w.id none := by
      intro e he
      obtain ⟨w, hw, rfl⟩ := List.mem_map.1 (List.mem_reverse.1 he)
      exact ⟨w, hw, rfl⟩
    refine h.noted _ (fun e he => ?_) (fun c hc => absurd hc List.not_mem_nil)
      (fun w hw => absurd hw List.not_mem_nil) (fun w result hmem => ?_) rfl
    · obtain ⟨w, -, rfl⟩ := hmore e he
      rfl
    · obtain ⟨v, hv, heq⟩ := hmore _ hmem
      obtain ⟨rfl, rfl⟩ := Entry.settled.inj heq
      refine ⟨(h.waiters v hv).trans_le ?_, fun c hc => by cases hc⟩
      rw [List.length_append]
      omega

/-! ### Within a release -/

/-- Neither the release nor the captures have been reset. -/
def Continues (d d' : Cdp Payload) : Prop :=
  Later d.log d'.log ∧ d'.currentRelease = d.currentRelease

theorem continues_deliver (c : CapturedResponse Payload) : Continues d (d.deliver c) := by
  refine ⟨⟨_, fun e he => ?_, rfl⟩, rfl⟩
  obtain ⟨w, -, rfl⟩ := List.mem_map.1 he
  rfl

theorem continues_waitForCatalogResponse (minScore : ℚ) :
    Continues d (d.waitForCatalogResponse minScore) := by
  unfold waitForCatalogResponse
  dsimp only
  split
  · exact ⟨(Later.cons rfl).trans (Later.cons rfl), rfl⟩
  · exact ⟨Later.cons rfl, rfl⟩

end Cdp

end CatalogSentinel.Capture
