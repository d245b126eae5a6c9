import Mathlib.Data.Rat.Defs
import Mathlib.Data.List.Count
import Mathlib.Data.List.Nodup
import CatalogSentinel.Capture.Correlation
import CatalogSentinel.Concurrent.Steps

/-!
The capture of responses at the browser context: a listener that reads each body
after its response, the captures of the current release, and the callers that wait
for one. A reset starts a new epoch, which no body of an earlier response enters.
-/

namespace CatalogSentinel.Capture

open CatalogSentinel.Concurrent

def MAX_CAPTURE_BODY_BYTES : ℕ := 8 * 1024 * 1024

/-- A response as its event shows it; the content type is in lower case. -/
structure Response where
  method : String
  url : String
  postData : Option String
  resourceType : String
  status : ℕ
  contentType : String
  declaredLength : Option ℕ
  deriving DecidableEq, Repr

/-- A body that was read: its bytes, and what it is as JSON. -/
structure Body (Payload : Type) where
  length : ℕ
  payload : Option Payload
  deriving DecidableEq, Repr

/-- What is made of URLs and payloads: the allowlist, the score of a payload's keys, the fingerprint
of an endpoint. -/
structure Reading (Payload : Type) where
  isInspectableUrl : String → Bool
  score : Payload → ℚ
  fingerprint : Response → String

/-- A captured payload, with the event of its response. -/
structure CapturedResponse (Payload : Type) where
  fingerprint : String
  payload : Payload
  score : ℚ
  releaseId : Option String
  correlation : CorrelationKind
  namesOtherRelease : Bool
  event : ℕ
  deriving DecidableEq, Repr

/-! ### Choosing among captures -/

structure ResponseMatchPolicy where
  activeFingerprints : List String
  releaseId : Option String
  allowHeuristic : Bool
  minScore : Option ℚ
  deriving DecidableEq, Repr

section

variable {Payload : Type}

/-- Higher wins; `none` rejects. -/
def scoreAgainstPolicy (c : CapturedResponse Payload) (p : ResponseMatchPolicy) : Option ℚ :=
  if c.namesOtherRelease then none
  else if c.fingerprint ∈ p.activeFingerprints then
    some (if c.correlation = .requestIdMatch then 4000 + c.score else 2000 + c.score)
  else if !p.allowHeuristic then none
  else if c.score < p.minScore.getD 0 then none
  else some (if c.correlation = .requestIdMatch then 1000 + c.score else c.score)

/-- What a caller waits for. -/
inductive Wanted
  | catalogResponse (minScore : ℚ)
  | matchingResponse (policy : ResponseMatchPolicy)
  | differentEndpoint (excludeFingerprint : String)
  deriving DecidableEq, Repr

def Wanted.accepts (wanted : Wanted) (c : CapturedResponse Payload) : Bool :=
  match wanted with
  | catalogResponse minScore => c.score ≥ minScore
  | matchingResponse policy => (scoreAgainstPolicy c policy).isSome
  | differentEndpoint fingerprint => c.fingerprint ≠ fingerprint

/-- The first of the highest. -/
def highest (rank : CapturedResponse Payload → Option ℚ) (captures : List (CapturedResponse Payload)) :
    Option (CapturedResponse Payload) :=
  let ranked := captures.filterMap fun c => (rank c).map fun r => (c, r)
  ((ranked.mergeSort fun a b => b.2 ≤ a.2).head?).map Prod.fst

/-- What has been captured already and will do. -/
def Wanted.existing (wanted : Wanted) (captures : List (CapturedResponse Payload)) :
    Option (CapturedResponse Payload) :=
  match wanted with
  | catalogResponse minScore => highest (fun c => if c.score ≥ minScore then some c.score else none) captures
  | matchingResponse policy => highest (scoreAgainstPolicy · policy) captures
  | differentEndpoint fingerprint => captures.find? fun c => c.fingerprint ≠ fingerprint

theorem highest_mem {rank : CapturedResponse Payload → Option ℚ}
    {captures : List (CapturedResponse Payload)} {c : CapturedResponse Payload}
    (h : highest rank captures = some c) : c ∈ captures ∧ (rank c).isSome = true := by
  obtain ⟨⟨c', r⟩, hhead, rfl⟩ := Option.map_eq_some_iff.1 h
  have hmem := List.mem_mergeSort.1 (List.mem_of_head? hhead)
  obtain ⟨d, hd, hrank⟩ := List.mem_filterMap.1 hmem
  obtain ⟨r', hr', heq⟩ := Option.map_eq_some_iff.1 hrank
  obtain ⟨rfl, rfl⟩ := Prod.mk.inj heq
  exact ⟨hd, by rw [hr']; rfl⟩

theorem Wanted.existing_mem {wanted : Wanted} {captures : List (CapturedResponse Payload)}
    {c : CapturedResponse Payload} (h : wanted.existing captures = some c) :
    c ∈ captures ∧ wanted.accepts c = true := by
  cases wanted with
  | catalogResponse minScore =>
    obtain ⟨hmem, hrank⟩ := highest_mem h
    refine ⟨hmem, ?_⟩
    by_cases hscore : c.score ≥ minScore
    · exact decide_eq_true hscore
    · rw [if_neg hscore] at hrank
      cases hrank
  | matchingResponse policy => exact highest_mem h
  | differentEndpoint fingerprint =>
    exact ⟨List.mem_of_find?_eq_some h, List.find?_some h⟩

end

/-! ### The listener and its callers -/

structure DiscoveryOptions where
  knownReleaseIds : List String
  minScore : ℚ
  maxBodies : ℕ
  maxTotalBodyBytes : ℕ
  maxConcurrentBodyReads : ℕ
  /-- There is a sink for candidates, and a scope. -/
  writesCandidates : Bool
  deriving DecidableEq, Repr

/-- Where a listener waits: for the body, or for its candidate to be written. -/
inductive ListenerStage (Payload : Type)
  | reading
  | writing (captured : CapturedResponse Payload)
  deriving DecidableEq, Repr

/-- A listener that waits, with what it noted at its response's event. -/
structure Listener (Payload : Type) where
  event : ℕ
  responseEpoch : ℕ
  responseRelease : Option String
  response : Response
  stage : ListenerStage Payload
  deriving DecidableEq, Repr

structure Waiter where
  id : ℕ
  epoch : ℕ
  wanted : Wanted
  deriving DecidableEq, Repr

/-- What has happened, the last first. -/
inductive Entry (Payload : Type)
  | reset
  | responded (event : ℕ)
  | called (waiter : ℕ) (wanted : Wanted)
  | settled (waiter : ℕ) (result : Option (CapturedResponse Payload))
  deriving DecidableEq, Repr

section

variable {Payload : Type}

def Entry.isReset : Entry Payload → Bool
  | .reset => true
  | _ => false

def Entry.isCall (waiter : ℕ) : Entry Payload → Bool
  | .called w _ => w = waiter
  | _ => false

def Entry.settles (waiter : ℕ) : Entry Payload → Bool
  | .settled w _ => w = waiter
  | _ => false

def resets (log : List (Entry Payload)) : ℕ := log.countP (·.isReset)

def settlements (waiter : ℕ) (log : List (Entry Payload)) : ℕ := log.countP (·.settles waiter)

/-- The entry was made when there had been `n` resets. -/
def InEpoch (log : List (Entry Payload)) (entry : Entry Payload) (n : ℕ) : Prop :=
  ∃ newer older, log = newer ++ entry :: older ∧ resets older = n

/-- There has been no reset since the entry. -/
def SinceLastReset (log : List (Entry Payload)) (entry : Entry Payload) : Prop :=
  ∃ newer older, log = newer ++ entry :: older ∧ ∀ e ∈ newer, e.isReset = false

def Entry.responds (event : ℕ) : Entry Payload → Bool
  | .responded n => n = event
  | _ => false

theorem sinceLastReset_responded_iff {log : List (Entry Payload)} {event : ℕ} :
    SinceLastReset log (.responded event) ↔
      (log.takeWhile fun e => !e.isReset).any (·.responds event) = true := by
  constructor
  · rintro ⟨newer, older, rfl, hnewer⟩
    rw [List.takeWhile_append_of_pos fun e he => by rw [hnewer e he]; rfl]
    rw [List.any_append, List.takeWhile_cons_of_pos rfl, List.any_cons]
    simp [Entry.responds]
  · intro h
    obtain ⟨e, he, hresponds⟩ := List.any_eq_true.1 h
    cases e with
    | responded n =>
      obtain rfl : n = event := of_decide_eq_true hresponds
      obtain ⟨newer, older, heq⟩ := List.append_of_mem he
      refine ⟨newer, older ++ log.dropWhile fun e => !e.isReset, ?_, fun x hx => ?_⟩
      · have hsplit : log = (newer ++ .responded n :: older) ++ log.dropWhile fun e => !e.isReset := by
          rw [← heq, List.takeWhile_append_dropWhile]
        rw [List.append_assoc, List.cons_append] at hsplit
        exact hsplit
      · have hmem : x ∈ log.takeWhile fun e => !e.isReset := by
          rw [heq]
          exact List.mem_append_left _ hx
        simpa using List.all_eq_true.1 List.all_takeWhile x hmem
    | reset => cases hresponds
    | called w wanted => cases hresponds
    | settled w result => cases hresponds

instance (log : List (Entry Payload)) (event : ℕ) : Decidable (SinceLastReset log (.responded event)) :=
  decidable_of_iff _ sinceLastReset_responded_iff.symm

theorem InEpoch.append {log : List (Entry Payload)} {e : Entry Payload} {n : ℕ}
    (h : InEpoch log e n) (more : List (Entry Payload)) : InEpoch (more ++ log) e n := by
  obtain ⟨newer, older, rfl, hn⟩ := h
  exact ⟨more ++ newer, older, (List.append_assoc _ _ _).symm, hn⟩

theorem inEpoch_head (log : List (Entry Payload)) (e : Entry Payload) :
    InEpoch (e :: log) e (resets log) :=
  ⟨[], log, rfl, rfl⟩

theorem InEpoch.mem {log : List (Entry Payload)} {e : Entry Payload} {n : ℕ} (h : InEpoch log e n) :
    e ∈ log := by
  obtain ⟨newer, older, rfl, -⟩ := h
  exact List.mem_append_right _ List.mem_cons_self

theorem sinceLastReset_of_inEpoch {log : List (Entry Payload)} {e : Entry Payload}
    (h : InEpoch log e (resets log)) : SinceLastReset log e := by
  obtain ⟨newer, older, rfl, hn⟩ := h
  refine ⟨newer, older, rfl, fun x hx => ?_⟩
  have hcount : resets newer = 0 := by
    unfold resets at hn ⊢
    rw [List.countP_append, List.countP_cons] at hn
    omega
  exact Bool.eq_false_iff.2 (List.countP_eq_zero.1 hcount x hx)

/-- There are more entries, and no reset among them. -/
def Later (log log' : List (Entry Payload)) : Prop :=
  ∃ more, (∀ e ∈ more, e.isReset = false) ∧ log' = more ++ log

/-- The length of the log at the last reset. -/
def lastReset (log : List (Entry Payload)) : ℕ := (log.dropWhile fun e => !e.isReset).length

theorem Later.refl (log : List (Entry Payload)) : Later log log :=
  ⟨[], fun _ he => absurd he List.not_mem_nil, rfl⟩

theorem Later.trans {log log' log'' : List (Entry Payload)} (h : Later log log') (h' : Later log' log'') :
    Later log log'' := by
  obtain ⟨more, hmore, rfl⟩ := h
  obtain ⟨more', hmore', rfl⟩ := h'
  refine ⟨more' ++ more, fun e he => ?_, (List.append_assoc _ _ _).symm⟩
  exact (List.mem_append.1 he).elim (hmore' e) (hmore e)

theorem Later.cons {log : List (Entry Payload)} {e : Entry Payload} (h : e.isReset = false) :
    Later log (e :: log) :=
  ⟨[e], fun x hx => by rwa [List.mem_singleton.1 hx], rfl⟩

theorem Later.mem {log log' : List (Entry Payload)} (h : Later log log') {e : Entry Payload}
    (he : e ∈ log) : e ∈ log' := by
  obtain ⟨more, -, rfl⟩ := h
  exact List.mem_append_right _ he

theorem Later.sinceLastReset {log log' : List (Entry Payload)} (h : Later log log') {e : Entry Payload}
    (he : SinceLastReset log e) : SinceLastReset log' e := by
  obtain ⟨more, hmore, rfl⟩ := h
  obtain ⟨newer, older, rfl, hnewer⟩ := he
  refine ⟨more ++ newer, older, (List.append_assoc _ _ _).symm, fun x hx => ?_⟩
  exact (List.mem_append.1 hx).elim (hmore x) (hnewer x)

theorem Later.lastReset {log log' : List (Entry Payload)} (h : Later log log') :
    lastReset log' = lastReset log := by
  obtain ⟨more, hmore, rfl⟩ := h
  unfold Capture.lastReset
  rw [List.dropWhile_append_of_pos fun e he => by rw [hmore e he]; rfl]

theorem lastReset_le (log : List (Entry Payload)) : lastReset log ≤ log.length :=
  (List.dropWhile_suffix _).length_le

theorem lastReset_reset (log : List (Entry Payload)) : lastReset (.reset :: log) = log.length + 1 := rfl

theorem resets_settled (ids : List ℕ) (result : Option (CapturedResponse Payload))
    (log : List (Entry Payload)) :
    resets ((ids.map fun w => .settled w result).reverse ++ log) = resets log := by
  have hnone : resets ((ids.map fun w => (.settled w result : Entry Payload)).reverse) = 0 := by
    unfold resets
    rw [List.countP_eq_zero]
    intro e he
    obtain ⟨w, -, rfl⟩ := List.mem_map.1 (List.mem_reverse.1 he)
    exact Bool.false_ne_true
  unfold resets at hnone ⊢
  rw [List.countP_append, hnone, Nat.zero_add]

theorem calls_settled (ids : List ℕ) (result : Option (CapturedResponse Payload))
    (log : List (Entry Payload)) (w : ℕ) :
    ((ids.map fun w => Entry.settled w result).reverse ++ log).countP (·.isCall w) = log.countP (·.isCall w) := by
  have hnone : ((ids.map fun w => (.settled w result : Entry Payload)).reverse).countP (·.isCall w) = 0 := by
    rw [List.countP_eq_zero]
    intro e he
    obtain ⟨w, -, rfl⟩ := List.mem_map.1 (List.mem_reverse.1 he)
    exact Bool.false_ne_true
  rw [List.countP_append, hnone, Nat.zero_add]

theorem settlements_settled (ids : List ℕ) (result : Option (CapturedResponse Payload))
    (log : List (Entry Payload)) (w : ℕ) :
    settlements w ((ids.map fun w => .settled w result).reverse ++ log) =
      ids.count w + settlements w log := by
  have hcount : ((ids.map fun w => (.settled w result : Entry Payload)).reverse).countP (·.settles w) =
      ids.count w := by
    rw [List.countP_reverse, List.countP_map, List.count]
    refine List.countP_congr fun v _ => ?_
    simp [Entry.settles]
  unfold settlements
  rw [List.countP_append, hcount]

end

structure Discovery (Payload : Type) where
  captures : List (CapturedResponse Payload)
  waiters : List Waiter
  timers : List ℕ
  currentRelease : Option String
  bodiesRead : ℕ
  totalBodyBytes : ℕ
  inFlightBodyReads : ℕ
  epoch : ℕ
  disposed : Bool
  listeners : List (Listener Payload)
  log : List (Entry Payload)
  deriving DecidableEq, Repr

inductive Event (Payload : Type)
  | setCurrentRelease (releaseId : Option String)
  | resetCaptures
  | response (response : Response)
  | bodyRead (event : ℕ) (body : Body Payload)
  | readFailed (event : ℕ)
  | candidateWritten (event : ℕ)
  | waitForCatalogResponse (minScore : Option ℚ)
  | waitForMatchingResponse (policy : ResponseMatchPolicy)
  | waitForDifferentEndpoint (excludeFingerprint : String)
  | timeout (waiter : ℕ)
  | dispose
  deriving DecidableEq, Repr

namespace Discovery

variable {Payload : Type}

def installed : Discovery Payload :=
  { captures := [], waiters := [], timers := [], currentRelease := none, bodiesRead := 0
    totalBodyBytes := 0, inFlightBodyReads := 0, epoch := 0, disposed := false, listeners := []
    log := [] }

/-- Each of these waiters is resolved, its timer cleared. -/
def settle (d : Discovery Payload) (waiters : List Waiter) (result : Option (CapturedResponse Payload)) :
    Discovery Payload :=
  { d with
    waiters := d.waiters.filter (· ∉ waiters)
    timers := d.timers.filter (· ∉ waiters.map (·.id))
    log := (waiters.map fun w => .settled w.id result).reverse ++ d.log }

/-- What the listener checks before it reads the body. -/
def reads (opts : DiscoveryOptions) (reading : Reading Payload) (d : Discovery Payload)
    (response : Response) : Bool :=
  !(d.disposed || opts.maxBodies ≤ d.bodiesRead || opts.maxTotalBodyBytes ≤ d.totalBodyBytes) &&
  (response.resourceType = "xhr" || response.resourceType = "fetch") &&
  (200 ≤ response.status && response.status < 300) &&
  reading.isInspectableUrl response.url &&
  includes response.contentType "json" &&
  (response.declaredLength.all (· ≤ MAX_CAPTURE_BODY_BYTES)) &&
  !(opts.maxConcurrentBodyReads ≤ d.inFlightBodyReads)

def onResponse (opts : DiscoveryOptions) (reading : Reading Payload) (d : Discovery Payload)
    (response : Response) : Discovery Payload :=
  let event := d.log.length
  let d := { d with log := .responded event :: d.log }
  if reads opts reading d response then
    { d with
      inFlightBodyReads := d.inFlightBodyReads + 1
      listeners := d.listeners ++ [⟨event, d.epoch, d.currentRelease, response, .reading⟩] }
  else d

/-- The capture enters the window of its response, if that is still open, and is given to the
callers that wait for it. -/
def deliver (opts : DiscoveryOptions) (d : Discovery Payload) (responseEpoch : ℕ)
    (captured : CapturedResponse Payload) : Discovery Payload :=
  if captured.score < opts.minScore then d
  else if responseEpoch ≠ d.epoch then d
  else
    let d := { d with captures := d.captures ++ [captured] }
    d.settle (d.waiters.filter fun w => w.epoch = d.epoch && w.wanted.accepts captured) (some captured)

def captured (opts : DiscoveryOptions) (reading : Reading Payload) (listener : Listener Payload)
    (payload : Payload) : CapturedResponse Payload :=
  let correlation := correlateRequest listener.response.url listener.response.postData
    listener.responseRelease opts.knownReleaseIds
  { fingerprint := reading.fingerprint listener.response
    payload
    score := reading.score payload
    releaseId := listener.responseRelease.filter (· ≠ "")
    correlation := correlation.kind
    namesOtherRelease := correlation.namesOtherRelease
    event := listener.event }

def onBody (opts : DiscoveryOptions) (reading : Reading Payload) (d : Discovery Payload)
    (listener : Listener Payload) (body : Body Payload) : Discovery Payload :=
  let d := { d with
    inFlightBodyReads := d.inFlightBodyReads - 1
    listeners := d.listeners.filter (·.event ≠ listener.event) }
  if body.length = 0 || body.length > MAX_CAPTURE_BODY_BYTES then d
  else if d.totalBodyBytes + body.length > opts.maxTotalBodyBytes then d
  else
    let d := { d with
      bodiesRead := d.bodiesRead + 1
      totalBodyBytes := d.totalBodyBytes + body.length }
    match body.payload with
    | none => d
    | some payload =>
      if reading.score payload ≤ 0 then d
      else
        let captured := captured opts reading listener payload
        if opts.writesCandidates then
          { d with listeners := d.listeners ++ [{ listener with stage := .writing captured }] }
        else d.deliver opts listener.responseEpoch captured

def waitFor (d : Discovery Payload) (wanted : Wanted) : Discovery Payload :=
  let waiter := d.log.length
  let d := { d with log := .called waiter wanted :: d.log }
  match wanted.existing d.captures with
  | some c => { d with log := .settled waiter (some c) :: d.log }
  | none =>
    { d with
      waiters := d.waiters ++ [⟨waiter, d.epoch, wanted⟩]
      timers := d.timers ++ [waiter] }

/-- The timer's own callback. -/
def onTimeout (d : Discovery Payload) (waiter : ℕ) : Discovery Payload :=
  { d with
    waiters := d.waiters.filter (·.id ≠ waiter)
    timers := d.timers.filter (· ≠ waiter)
    log := .settled waiter none :: d.log }

def resetCaptures (d : Discovery Payload) : Discovery Payload :=
  let d := { d with epoch := d.epoch + 1, captures := [], log := .reset :: d.log }
  d.settle d.waiters none

def dispose (d : Discovery Payload) : Discovery Payload :=
  { d with disposed := true, captures := [] }.settle d.waiters none

/-- The listener of the response's event that waits there. -/
def listenerAt (d : Discovery Payload) (event : ℕ) : Option (Listener Payload) :=
  d.listeners.find? (·.event = event)

def step (opts : DiscoveryOptions) (reading : Reading Payload) (d : Discovery Payload) :
    Event Payload → Option (Discovery Payload)
  | .setCurrentRelease releaseId => some { d with currentRelease := releaseId }
  | .resetCaptures => some d.resetCaptures
  | .response response => some (d.onResponse opts reading response)
  | .bodyRead event body => do
    let listener ← d.listenerAt event
    match listener.stage with
    | .reading => some (d.onBody opts reading listener body)
    | .writing _ => none
  | .readFailed event => do
    let listener ← d.listenerAt event
    match listener.stage with
    | .reading => some { d with
        inFlightBodyReads := d.inFlightBodyReads - 1
        listeners := d.listeners.filter (·.event ≠ listener.event) }
    | .writing _ => none
  | .candidateWritten event => do
    let listener ← d.listenerAt event
    match listener.stage with
    | .reading => none
    | .writing captured =>
      some ({ d with listeners := d.listeners.filter (·.event ≠ listener.event) }.deliver opts listener.responseEpoch captured)
  | .waitForCatalogResponse minScore =>
    some (d.waitFor (.catalogResponse (minScore.getD opts.minScore)))
  | .waitForMatchingResponse policy =>
    some (d.waitFor (.matchingResponse { policy with minScore := policy.minScore.or (some opts.minScore) }))
  | .waitForDifferentEndpoint fingerprint => some (d.waitFor (.differentEndpoint fingerprint))
  | .timeout waiter => if waiter ∈ d.timers then some (d.onTimeout waiter) else none
  | .dispose => some d.dispose

/-! ### The log is of the events -/

/-- What has been called from outside, without its number. -/
def performed : Entry Payload → List (Entry Payload)
  | .reset => [.reset]
  | .responded _ => [.responded 0]
  | .called _ wanted => [.called 0 wanted]
  | .settled _ _ => []

def performedBy (opts : DiscoveryOptions) : Event Payload → List (Entry Payload)
  | .resetCaptures => [.reset]
  | .response _ => [.responded 0]
  | .waitForCatalogResponse minScore => [.called 0 (.catalogResponse (minScore.getD opts.minScore))]
  | .waitForMatchingResponse policy =>
    [.called 0 (.matchingResponse { policy with minScore := policy.minScore.or (some opts.minScore) })]
  | .waitForDifferentEndpoint fingerprint => [.called 0 (.differentEndpoint fingerprint)]
  | _ => []

section

variable {opts : DiscoveryOptions} {reading : Reading Payload} {d d' : Discovery Payload}

theorem performed_settle (ws : List Waiter) (result : Option (CapturedResponse Payload)) :
    (d.settle ws result).log.flatMap performed = d.log.flatMap performed := by
  have hnone : (ws.map fun w => (.settled w.id result : Entry Payload)).reverse.flatMap performed = [] := by
    rw [List.flatMap_eq_nil_iff]
    intro e he
    obtain ⟨w, -, rfl⟩ := List.mem_map.1 (List.mem_reverse.1 he)
    rfl
  rw [settle, List.flatMap_append, hnone, List.nil_append]

theorem performed_deliver (n : ℕ) (c : CapturedResponse Payload) :
    (d.deliver opts n c).log.flatMap performed = d.log.flatMap performed := by
  unfold deliver
  split
  · rfl
  split
  · rfl
  · exact performed_settle _ _

theorem performed_onBody (l : Listener Payload) (body : Body Payload) :
    (d.onBody opts reading l body).log.flatMap performed = d.log.flatMap performed := by
  unfold onBody
  dsimp only
  split
  · rfl
  split
  · rfl
  split
  · rfl
  split
  · rfl
  split
  · rfl
  · exact performed_deliver _ _

theorem performed_waitFor (wanted : Wanted) :
    (d.waitFor wanted).log.flatMap performed = .called 0 wanted :: d.log.flatMap performed := by
  unfold waitFor
  dsimp only
  split
  · rfl
  · rfl

theorem performed_step {e : Event Payload} (h : step opts reading d e = some d') :
    d'.log.flatMap performed = performedBy opts e ++ d.log.flatMap performed := by
  cases e with
  | setCurrentRelease _ =>
    obtain rfl := Option.some.inj h
    rfl
  | resetCaptures =>
    obtain rfl := Option.some.inj h
    exact performed_settle _ _
  | response response =>
    obtain rfl := Option.some.inj h
    unfold onResponse
    dsimp only
    split
    · rfl
    · rfl
  | bodyRead event body =>
    obtain ⟨l, -, h⟩ := Option.bind_eq_some_iff.1 h
    split at h
    · obtain rfl := Option.some.inj h
      exact performed_onBody l body
    · cases h
  | readFailed event =>
    obtain ⟨l, -, h⟩ := Option.bind_eq_some_iff.1 h
    split at h
    · obtain rfl := Option.some.inj h
      rfl
    · cases h
  | candidateWritten event =>
    obtain ⟨l, -, h⟩ := Option.bind_eq_some_iff.1 h
    split at h
    · cases h
    · obtain rfl := Option.some.inj h
      exact performed_deliver _ _
  | waitForCatalogResponse _ | waitForMatchingResponse _ | waitForDifferentEndpoint _ =>
    obtain rfl := Option.some.inj h
    exact performed_waitFor _
  | timeout waiter =>
    obtain ⟨-, rfl⟩ := Option.ite_some_none_eq_some.1 h
    rfl
  | dispose =>
    obtain rfl := Option.some.inj h
    exact performed_settle _ _

/-- Resets, responses and calls are in the log as they were performed, and nothing else of the kind is. -/
theorem performed_run {es : List (Event Payload)} (h : Steps.run (step opts reading) d es = some d') :
    d'.log.flatMap performed = (es.flatMap (performedBy opts)).reverse ++ d.log.flatMap performed := by
  induction es generalizing d with
  | nil =>
    obtain rfl := Option.some.inj h
    rfl
  | cons e es ih =>
    obtain ⟨next, hnext, hrest⟩ := Option.bind_eq_some_iff.1 h
    have hone : (performedBy opts e).reverse = performedBy opts e := by cases e <;> rfl
    rw [ih hrest, performed_step hnext, List.flatMap_cons, List.reverse_append, hone, List.append_assoc]

end

/-! ### The fence -/

/-- Captures are of the current epoch, and every waiter is settled once, with `none` or with a
matching capture of its own epoch, or its timer still runs. -/
structure Fenced (opts : DiscoveryOptions) (reading : Reading Payload) (d : Discovery Payload) : Prop where
  all : ∀ c ∈ d.captures, SinceLastReset d.log (.responded c.event)
  matching : ∀ w c, .settled w (some c) ∈ d.log → ∃ wanted n, InEpoch d.log (.called w wanted) n ∧
    wanted.accepts c = true ∧ InEpoch d.log (.responded c.event) n
  once : ∀ w wanted, .called w wanted ∈ d.log →
    settlements w d.log = 1 ∧ w ∉ d.timers ∨ settlements w d.log = 0 ∧ w ∈ d.timers
  due : ∀ w ∈ d.timers, ∃ d', step opts reading d (.timeout w) = some d' ∧ settlements w d'.log = 1

/-- What the code keeps: the epoch counts the resets, each waiter has a timer, and a call is settled
or has one. -/
structure Sound (d : Discovery Payload) : Prop where
  epoch : d.epoch = resets d.log
  listeners : ∀ l ∈ d.listeners, InEpoch d.log (.responded l.event) l.responseEpoch ∧
    ∀ c, l.stage = .writing c → c.event = l.event
  waiters : ∀ w ∈ d.waiters, InEpoch d.log (.called w.id w.wanted) w.epoch
  timers : d.timers = d.waiters.map (·.id)
  ids : d.timers.Nodup
  calls : ∀ w, d.log.countP (·.isCall w) = settlements w d.log + d.timers.count w
  once : ∀ w, d.log.countP (·.isCall w) ≤ 1
  recent : ∀ e ∈ d.log, ∀ w, e.isCall w = true → w < d.log.length
  matching : ∀ w c, .settled w (some c) ∈ d.log → ∃ wanted n, InEpoch d.log (.called w wanted) n ∧
    wanted.accepts c = true ∧ InEpoch d.log (.responded c.event) n

/-- Captures and waiters are of the current epoch. -/
structure Current (d : Discovery Payload) : Prop where
  captures : ∀ c ∈ d.captures, InEpoch d.log (.responded c.event) d.epoch
  waiters : ∀ w ∈ d.waiters, w.epoch = d.epoch

variable {opts : DiscoveryOptions} {reading : Reading Payload} {d : Discovery Payload}

/-- The waiters with these ids are resolved. -/
def settleIds (d : Discovery Payload) (ids : List ℕ) (result : Option (CapturedResponse Payload)) :
    Discovery Payload :=
  { d with
    waiters := d.waiters.filter (·.id ∉ ids)
    timers := d.timers.filter (· ∉ ids)
    log := (ids.map fun w => .settled w result).reverse ++ d.log }

theorem onTimeout_eq (waiter : ℕ) : d.onTimeout waiter = d.settleIds [waiter] none := by
  simp [onTimeout, settleIds]

theorem settle_eq (h : Sound d) {ws : List Waiter} (hws : ws ⊆ d.waiters)
    (result : Option (CapturedResponse Payload)) :
    d.settle ws result = d.settleIds (ws.map (·.id)) result := by
  have hfilter : d.waiters.filter (· ∉ ws) = d.waiters.filter (·.id ∉ ws.map (·.id)) := by
    refine List.filter_congr fun w hw => ?_
    rw [decide_eq_decide, not_iff_not, List.mem_map]
    constructor
    · exact fun hmem => ⟨w, hmem, rfl⟩
    · rintro ⟨v, hv, hid⟩
      have hnodup : (d.waiters.map (·.id)).Nodup := h.timers ▸ h.ids
      rwa [← List.inj_on_of_nodup_map hnodup (hws hv) hw hid]
  rw [settle, settleIds, hfilter, List.map_map]
  rfl

theorem count_filter_not_mem {ids timers : List ℕ} (hids : ids.Nodup) (htimers : timers.Nodup)
    (hsub : ids ⊆ timers) (w : ℕ) :
    ids.count w + (timers.filter (· ∉ ids)).count w = timers.count w := by
  by_cases hw : w ∈ ids
  · have hnone : w ∉ timers.filter (· ∉ ids) := by simp [hw]
    rw [List.count_eq_one_of_mem hids hw, List.count_eq_one_of_mem htimers (hsub hw),
      List.count_eq_zero_of_not_mem hnone]
  · rw [List.count_eq_zero_of_not_mem hw, Nat.zero_add, List.count_filter (by simp [hw])]

theorem Sound.settleIds (h : Sound d) {ids : List ℕ} (hnodup : ids.Nodup) (hids : ids ⊆ d.timers)
    {result : Option (CapturedResponse Payload)}
    (hresult : ∀ c ∈ result, ∀ w ∈ d.waiters, w.id ∈ ids →
      w.wanted.accepts c = true ∧ InEpoch d.log (.responded c.event) w.epoch) :
    Sound (d.settleIds ids result) := by
  refine ⟨h.epoch.trans (resets_settled _ _ _).symm, fun l hl => ?_, fun w hw => ?_, ?_,
    h.ids.filter _, fun w => ?_, fun w => ?_, fun e he w hcall => ?_, fun w c hmem => ?_⟩
  · exact ⟨(h.listeners l hl).1.append _, (h.listeners l hl).2⟩
  · exact (h.waiters w (List.mem_of_mem_filter hw)).append _
  · show d.timers.filter _ = (d.waiters.filter _).map _
    rw [h.timers, List.filter_map]
    rfl
  · have hbalance := count_filter_not_mem hnodup h.ids hids w
    have hcalls := h.calls w
    show List.countP _ (_ ++ d.log) = settlements w (_ ++ d.log) + (d.timers.filter _).count w
    rw [calls_settled, settlements_settled]
    omega
  · show List.countP _ (_ ++ d.log) ≤ 1
    rw [calls_settled]
    exact h.once w
  · show w < (_ ++ d.log).length
    rw [List.length_append]
    rcases List.mem_append.1 he with he | he
    · obtain ⟨v, -, rfl⟩ := List.mem_map.1 (List.mem_reverse.1 he)
      cases hcall
    · have hlt := h.recent e he w hcall
      omega
  · rcases List.mem_append.1 hmem with hmem | hmem
    · obtain ⟨v, hv, heq⟩ := List.mem_map.1 (List.mem_reverse.1 hmem)
      obtain ⟨rfl, rfl⟩ := Entry.settled.inj heq
      have hwaiter : v ∈ d.waiters.map (·.id) := h.timers ▸ hids hv
      obtain ⟨waiter, hin, rfl⟩ := List.mem_map.1 hwaiter
      obtain ⟨haccepts, hepoch⟩ := hresult c rfl waiter hin hv
      exact ⟨waiter.wanted, waiter.epoch, (h.waiters waiter hin).append _, haccepts, hepoch.append _⟩
    · obtain ⟨wanted, n, hcalled, haccepts, hepoch⟩ := h.matching w c hmem
      exact ⟨wanted, n, hcalled.append _, haccepts, hepoch.append _⟩

/-- Listeners may come and go where they note their response's epoch. -/
theorem Sound.listening {d' : Discovery Payload} (h : Sound d) (hepoch : d'.epoch = d.epoch)
    (hlog : d'.log = d.log) (hwaiters : d'.waiters = d.waiters) (htimers : d'.timers = d.timers)
    (hlisteners : ∀ l ∈ d'.listeners, InEpoch d.log (.responded l.event) l.responseEpoch ∧
      ∀ c, l.stage = .writing c → c.event = l.event) : Sound d' := by
  cases d'
  dsimp only at hepoch hlog hwaiters htimers hlisteners
  subst hepoch hlog hwaiters htimers
  exact ⟨h.epoch, hlisteners, h.waiters, h.timers, h.ids, h.calls, h.once, h.recent, h.matching⟩

theorem Current.later {d' : Discovery Payload} (h : Current d) (hepoch : d'.epoch = d.epoch)
    (hlog : ∃ more, d'.log = more ++ d.log) (hwaiters : d'.waiters ⊆ d.waiters)
    (hcaptures : d'.captures ⊆ d.captures) : Current d' := by
  obtain ⟨more, hlog⟩ := hlog
  refine ⟨fun c hc => ?_, fun w hw => (h.waiters w (hwaiters hw)).trans hepoch.symm⟩
  rw [hlog, hepoch]
  exact (h.captures c (hcaptures hc)).append more

/-- An entry that is neither a call nor a settlement is added to the log. -/
theorem Sound.noted (h : Sound d) {e : Entry Payload} (hcall : ∀ w, e.isCall w = false)
    (hsettles : ∀ w, e.settles w = false) {epoch : ℕ} (hepoch : epoch = resets (e :: d.log)) :
    Sound { d with epoch, log := e :: d.log } := by
  have hcons : ∀ {x n}, InEpoch d.log x n → InEpoch (e :: d.log) x n := fun hin => hin.append [_]
  have hcalls : ∀ w, (e :: d.log).countP (·.isCall w) = d.log.countP (·.isCall w) :=
    fun w => List.countP_cons_of_neg (by rw [hcall w]; exact Bool.false_ne_true)
  have hsettlements : ∀ w, settlements w (e :: d.log) = settlements w d.log :=
    fun w => List.countP_cons_of_neg (by rw [hsettles w]; exact Bool.false_ne_true)
  refine ⟨hepoch, fun l hl => ⟨hcons (h.listeners l hl).1, (h.listeners l hl).2⟩,
    fun w hw => hcons (h.waiters w hw), h.timers, h.ids, fun w => ?_, fun w => ?_, fun x hx w hw => ?_,
    fun w c hmem => ?_⟩
  · exact (hcalls w).trans ((h.calls w).trans (congrArg (· + _) (hsettlements w).symm))
  · exact (hcalls w).trans_le (h.once w)
  · rcases List.mem_cons.1 hx with rfl | hx
    · exact absurd hw (Bool.eq_false_iff.1 (hcall w))
    · exact (h.recent x hx w hw).trans (Nat.lt_succ_self _)
  · rcases List.mem_cons.1 hmem with rfl | hmem
    · have hself : w ≠ w := of_decide_eq_false (hsettles w)
      exact absurd rfl hself
    · obtain ⟨wanted, n, hcalled, haccepts, hepoch⟩ := h.matching w c hmem
      exact ⟨wanted, n, hcons hcalled, haccepts, hcons hepoch⟩

theorem Sound.onResponse (h : Sound d) (response : Response) :
    Sound (d.onResponse opts reading response) := by
  have hresponded : Sound { d with log := .responded d.log.length :: d.log } :=
    h.noted (fun _ => rfl) (fun _ => rfl) h.epoch
  unfold Discovery.onResponse
  dsimp only
  split
  · refine hresponded.listening rfl rfl rfl rfl fun l hl => ?_
    rcases List.mem_append.1 hl with hl | hl
    · exact hresponded.listeners l hl
    · obtain rfl := List.mem_singleton.1 hl
      refine ⟨?_, fun c hc => by cases hc⟩
      show InEpoch _ _ d.epoch
      rw [h.epoch]
      exact inEpoch_head d.log _
  · exact hresponded

theorem Current.onResponse (h : Current d) (response : Response) :
    Current (d.onResponse opts reading response) := by
  unfold Discovery.onResponse
  dsimp only
  split
  · exact h.later rfl ⟨[_], rfl⟩ (fun _ hw => hw) fun _ hc => hc
  · exact h.later rfl ⟨[_], rfl⟩ (fun _ hw => hw) fun _ hc => hc

theorem sound_settle_none (h : Sound d) : Sound (d.settle d.waiters none) := by
  rw [settle_eq h (List.Subset.refl _)]
  refine h.settleIds (h.timers ▸ h.ids) (h.timers ▸ List.Subset.refl _) fun c hc => ?_
  cases hc

theorem current_settle_all {result : Option (CapturedResponse Payload)}
    (hcaptures : ∀ c ∈ d.captures, InEpoch d.log (.responded c.event) d.epoch) :
    Current (d.settle d.waiters result) := by
  refine ⟨fun c hc => (hcaptures c hc).append _, fun w hw => ?_⟩
  obtain ⟨hin, hout⟩ := List.mem_filter.1 hw
  exact absurd hin (of_decide_eq_true hout)

theorem inv_deliver (h : Sound d ∧ Current d) {captured : CapturedResponse Payload} {n : ℕ}
    (hfired : InEpoch d.log (.responded captured.event) n) :
    Sound (d.deliver opts n captured) ∧ Current (d.deliver opts n captured) := by
  obtain ⟨hsound, hcurrent⟩ := h
  unfold deliver
  split
  · exact ⟨hsound, hcurrent⟩
  split
  · exact ⟨hsound, hcurrent⟩
  rename_i hepoch
  obtain rfl : n = d.epoch := not_not.1 hepoch
  have hpushed : Sound { d with captures := d.captures ++ [captured] } :=
    hsound.listening rfl rfl rfl rfl hsound.listeners
  have hsub : d.waiters.filter (fun w => w.epoch = d.epoch && w.wanted.accepts captured) ⊆ d.waiters :=
    fun w hw => List.mem_of_mem_filter hw
  have hnodup : (d.waiters.map (·.id)).Nodup := hsound.timers ▸ hsound.ids
  dsimp only
  rw [settle_eq hpushed hsub]
  constructor
  · refine hpushed.settleIds (hnodup.sublist (List.filter_sublist.map _)) ?_ ?_
    · show _ ⊆ d.timers
      rw [hsound.timers]
      exact List.map_subset _ hsub
    · rintro c hc w hw hid
      obtain rfl := Option.some.inj hc
      obtain ⟨v, hv, hid⟩ := List.mem_map.1 hid
      obtain rfl := List.inj_on_of_nodup_map hnodup (hsub hv) hw hid
      have hcond := (List.mem_filter.1 hv).2
      rw [Bool.and_eq_true, decide_eq_true_eq] at hcond
      exact ⟨hcond.2, hcond.1 ▸ hfired⟩
  · have hlater : Current { d with captures := d.captures ++ [captured] } := by
      refine ⟨fun c hc => ?_, hcurrent.waiters⟩
      rcases List.mem_append.1 hc with hc | hc
      · exact hcurrent.captures c hc
      · obtain rfl := List.mem_singleton.1 hc
        exact hfired
    exact hlater.later rfl ⟨_, rfl⟩ (fun w hw => List.mem_of_mem_filter hw) fun _ hc => hc

theorem mem_listenerAt {event : ℕ} {l : Listener Payload} (h : d.listenerAt event = some l) :
    l ∈ d.listeners :=
  List.mem_of_find?_eq_some h

theorem inv_onBody (h : Sound d ∧ Current d) {l : Listener Payload} (hl : l ∈ d.listeners)
    (body : Body Payload) :
    Sound (d.onBody opts reading l body) ∧ Current (d.onBody opts reading l body) := by
  obtain ⟨hsound, hcurrent⟩ := h
  have hfired := (hsound.listeners l hl).1
  have hrest : ∀ l' ∈ d.listeners.filter (·.event ≠ l.event), InEpoch d.log (.responded l'.event) l'.responseEpoch ∧
      ∀ c, l'.stage = .writing c → c.event = l'.event :=
    fun l' hl' => hsound.listeners l' (List.mem_of_mem_filter hl')
  have hgone : ∀ reads bytes flying,
      Sound { d with
        inFlightBodyReads := flying, bodiesRead := reads, totalBodyBytes := bytes
        listeners := d.listeners.filter (·.event ≠ l.event) } ∧
      Current { d with
        inFlightBodyReads := flying, bodiesRead := reads, totalBodyBytes := bytes
        listeners := d.listeners.filter (·.event ≠ l.event) } :=
    fun _ _ _ => ⟨hsound.listening rfl rfl rfl rfl hrest,
      hcurrent.later rfl ⟨[], rfl⟩ (fun _ hw => hw) fun _ hc => hc⟩
  unfold onBody
  dsimp only
  split
  · exact hgone _ _ _
  split
  · exact hgone _ _ _
  split
  · exact hgone _ _ _
  split
  · exact hgone _ _ _
  split
  · refine ⟨hsound.listening rfl rfl rfl rfl fun l' hl' => ?_,
      hcurrent.later rfl ⟨[], rfl⟩ (fun _ hw => hw) fun _ hc => hc⟩
    rcases List.mem_append.1 hl' with hl' | hl'
    · exact hrest l' hl'
    · obtain rfl := List.mem_singleton.1 hl'
      refine ⟨hfired, fun c hc => ?_⟩
      obtain rfl := ListenerStage.writing.inj hc
      rfl
  · exact inv_deliver (hgone _ _ _) hfired

/-- The next caller's number is not taken. -/
theorem Sound.fresh (h : Sound d) : d.log.countP (·.isCall d.log.length) = 0 ∧
    settlements d.log.length d.log = 0 ∧ d.log.length ∉ d.timers := by
  have hnone : d.log.countP (·.isCall d.log.length) = 0 := by
    rw [List.countP_eq_zero]
    intro e he hcall
    exact absurd (h.recent e he _ hcall) (Nat.lt_irrefl _)
  have hcalls := h.calls d.log.length
  have htimer : d.timers.count d.log.length = 0 := by omega
  exact ⟨hnone, by omega, List.count_eq_zero.1 htimer⟩

theorem count_called (log : List (Entry Payload)) (waiter w : ℕ) (wanted : Wanted) :
    (Entry.called waiter wanted :: log).countP (·.isCall w) =
      log.countP (·.isCall w) + if waiter = w then 1 else 0 := by
  rw [List.countP_cons]
  simp [Entry.isCall]

theorem recent_called {log : List (Entry Payload)}
    (h : ∀ e ∈ log, ∀ w, e.isCall w = true → w < log.length) (wanted : Wanted) :
    ∀ e ∈ Entry.called log.length wanted :: log, ∀ w, e.isCall w = true → w < log.length + 1 := by
  intro e he w hcall
  rcases List.mem_cons.1 he with rfl | he
  · obtain rfl : log.length = w := of_decide_eq_true hcall
    exact Nat.lt_succ_self _
  · exact (h e he w hcall).trans (Nat.lt_succ_self _)

theorem sound_called_settled (h : Sound d) (wanted : Wanted) {c : CapturedResponse Payload}
    (hc : InEpoch d.log (.responded c.event) d.epoch) (haccepts : wanted.accepts c = true) :
    Sound { d with log := .settled d.log.length (some c) :: .called d.log.length wanted :: d.log } := by
  obtain ⟨hcall, hsettled, htimer⟩ := h.fresh
  have hlater : ∀ {e n}, InEpoch d.log e n →
      InEpoch (.settled d.log.length (some c) :: .called d.log.length wanted :: d.log) e n :=
    fun hin => hin.append [_, _]
  have hcalled : InEpoch (.settled d.log.length (some c) :: .called d.log.length wanted :: d.log)
      (.called d.log.length wanted) d.epoch :=
    ⟨[_], d.log, rfl, h.epoch.symm⟩
  refine ⟨h.epoch, fun l hl => ⟨hlater (h.listeners l hl).1, (h.listeners l hl).2⟩,
    fun w hw => hlater (h.waiters w hw), h.timers, h.ids, fun w => ?_, fun w => ?_, fun e he w hw => ?_,
    fun w c' hmem => ?_⟩
  · have hcalls := h.calls w
    have hnot : (Entry.settled d.log.length (some c) : Entry Payload).isCall w = false := rfl
    unfold settlements at hcalls ⊢
    rw [List.countP_cons_of_neg (by rw [hnot]; exact Bool.false_ne_true), count_called, hcalls,
      List.countP_cons, List.countP_cons]
    simp only [Entry.settles, decide_eq_true_eq]
    simp only [Bool.false_eq_true, if_false]
    omega
  · have hnot : (Entry.settled d.log.length (some c) : Entry Payload).isCall w = false := rfl
    have honce := h.once w
    show List.countP _ (_ :: _ :: _) ≤ 1
    rw [List.countP_cons_of_neg (by rw [hnot]; exact Bool.false_ne_true), count_called]
    split
    · rename_i heq
      subst heq
      omega
    · omega
  · rcases List.mem_cons.1 he with rfl | he
    · cases hw
    · exact (recent_called h.recent wanted e he w hw).trans (Nat.lt_succ_self _)
  · rcases List.mem_cons.1 hmem with heq | hmem
    · obtain ⟨rfl, hsome⟩ := Entry.settled.inj heq
      obtain rfl := Option.some.inj hsome
      exact ⟨wanted, d.epoch, hcalled, haccepts, hlater hc⟩
    · rcases List.mem_cons.1 hmem with heq | hmem
      · cases heq
      · obtain ⟨wanted', n, hcalled', haccepts', hepoch⟩ := h.matching w c' hmem
        exact ⟨wanted', n, hlater hcalled', haccepts', hlater hepoch⟩

theorem sound_called_waiting (h : Sound d) (wanted : Wanted) :
    Sound { d with
      log := .called d.log.length wanted :: d.log
      waiters := d.waiters ++ [⟨d.log.length, d.epoch, wanted⟩]
      timers := d.timers ++ [d.log.length] } := by
  obtain ⟨hcall, hsettled, htimer⟩ := h.fresh
  have hlater : ∀ {e n}, InEpoch d.log e n → InEpoch (.called d.log.length wanted :: d.log) e n :=
    fun hin => hin.append [_]
  refine ⟨h.epoch, fun l hl => ⟨hlater (h.listeners l hl).1, (h.listeners l hl).2⟩, fun w hw => ?_, ?_,
    ?_, fun w => ?_, fun w => ?_, recent_called h.recent wanted, fun w c hmem => ?_⟩
  · rcases List.mem_append.1 hw with hw | hw
    · exact hlater (h.waiters w hw)
    · obtain rfl := List.mem_singleton.1 hw
      show InEpoch _ _ d.epoch
      rw [h.epoch]
      exact inEpoch_head d.log _
  · show d.timers ++ _ = List.map _ (_ ++ _)
    rw [List.map_append, h.timers]
    rfl
  · exact List.nodup_append.2 ⟨h.ids, List.nodup_singleton _, fun a ha b hb heq =>
      htimer (List.mem_singleton.1 hb ▸ heq ▸ ha)⟩
  · have hcalls := h.calls w
    unfold settlements at hcalls ⊢
    show List.countP _ (_ :: _) = List.countP _ (_ :: _) + List.count w (_ ++ _)
    rw [count_called, hcalls, List.countP_cons, List.count_append, List.count_singleton]
    simp only [Entry.settles, Bool.false_eq_true, if_false, beq_iff_eq]
    omega
  · have honce := h.once w
    show List.countP _ (_ :: _) ≤ 1
    rw [count_called]
    split
    · rename_i heq
      subst heq
      omega
    · omega
  · rcases List.mem_cons.1 hmem with heq | hmem
    · cases heq
    · obtain ⟨wanted', n, hcalled', haccepts', hepoch⟩ := h.matching w c hmem
      exact ⟨wanted', n, hlater hcalled', haccepts', hlater hepoch⟩

theorem inv_waitFor (h : Sound d ∧ Current d) (wanted : Wanted) :
    Sound (d.waitFor wanted) ∧ Current (d.waitFor wanted) := by
  obtain ⟨hsound, hcurrent⟩ := h
  unfold waitFor
  dsimp only
  rcases hexisting : wanted.existing d.captures with _ | c
  · refine ⟨sound_called_waiting hsound wanted, fun c hc => (hcurrent.captures c hc).append [_], ?_⟩
    intro w hw
    rcases List.mem_append.1 hw with hw | hw
    · exact hcurrent.waiters w hw
    · obtain rfl := List.mem_singleton.1 hw
      rfl
  · obtain ⟨hmem, haccepts⟩ := Wanted.existing_mem hexisting
    exact ⟨sound_called_settled hsound wanted (hcurrent.captures c hmem) haccepts,
      hcurrent.later rfl ⟨[_, _], rfl⟩ (fun _ hw => hw) fun _ hc => hc⟩

theorem inv_step {e : Event Payload} {d' : Discovery Payload} (h : Sound d ∧ Current d)
    (hstep : step opts reading d e = some d') : Sound d' ∧ Current d' := by
  cases e with
  | setCurrentRelease releaseId =>
    obtain rfl := Option.some.inj hstep
    exact ⟨h.1.listening rfl rfl rfl rfl h.1.listeners,
      h.2.later rfl ⟨[], rfl⟩ (fun _ hw => hw) fun _ hc => hc⟩
  | resetCaptures =>
    obtain rfl := Option.some.inj hstep
    have hreset : Sound { d with epoch := d.epoch + 1, captures := [], log := .reset :: d.log } := by
      have hnoted : Sound { d with epoch := d.epoch + 1, log := .reset :: d.log } :=
        h.1.noted (fun _ => rfl) (fun _ => rfl) (by
          rw [h.1.epoch, resets, resets, List.countP_cons_of_pos rfl])
      exact hnoted.listening rfl rfl rfl rfl hnoted.listeners
    exact ⟨sound_settle_none hreset, current_settle_all (fun c hc => absurd hc List.not_mem_nil)⟩
  | response response =>
    obtain rfl := Option.some.inj hstep
    exact ⟨h.1.onResponse response, h.2.onResponse response⟩
  | bodyRead event body =>
    obtain ⟨l, hl, hstep⟩ := Option.bind_eq_some_iff.1 hstep
    split at hstep
    · obtain rfl := Option.some.inj hstep
      exact inv_onBody h (mem_listenerAt hl) body
    · cases hstep
  | readFailed event =>
    obtain ⟨l, hl, hstep⟩ := Option.bind_eq_some_iff.1 hstep
    split at hstep
    · obtain rfl := Option.some.inj hstep
      exact ⟨h.1.listening rfl rfl rfl rfl fun l' hl' => h.1.listeners l' (List.mem_of_mem_filter hl'),
        h.2.later rfl ⟨[], rfl⟩ (fun _ hw => hw) fun _ hc => hc⟩
    · cases hstep
  | candidateWritten event =>
    obtain ⟨l, hl, hstep⟩ := Option.bind_eq_some_iff.1 hstep
    split at hstep
    · cases hstep
    · rename_i captured hstage
      obtain rfl := Option.some.inj hstep
      obtain ⟨hfired, hevent⟩ := h.1.listeners l (mem_listenerAt hl)
      have hgone : Sound { d with listeners := d.listeners.filter (·.event ≠ l.event) } :=
        h.1.listening rfl rfl rfl rfl fun l' hl' => h.1.listeners l' (List.mem_of_mem_filter hl')
      refine inv_deliver ⟨hgone, h.2.later rfl ⟨[], rfl⟩ (fun _ hw => hw) fun _ hc => hc⟩ ?_
      rw [hevent captured hstage]
      exact hfired
  | waitForCatalogResponse minScore =>
    obtain rfl := Option.some.inj hstep
    exact inv_waitFor h _
  | waitForMatchingResponse policy =>
    obtain rfl := Option.some.inj hstep
    exact inv_waitFor h _
  | waitForDifferentEndpoint fingerprint =>
    obtain rfl := Option.some.inj hstep
    exact inv_waitFor h _
  | timeout waiter =>
    obtain ⟨hrunning, rfl⟩ := Option.ite_some_none_eq_some.1 hstep
    rw [onTimeout_eq]
    have hsub : [waiter] ⊆ d.timers := fun w hw => List.mem_singleton.1 hw ▸ hrunning
    exact ⟨h.1.settleIds (List.nodup_singleton waiter) hsub (fun c hc => by cases hc),
      h.2.later rfl ⟨_, rfl⟩ (fun w hw => List.mem_of_mem_filter hw) fun _ hc => hc⟩
  | dispose =>
    obtain rfl := Option.some.inj hstep
    have hdisposed : Sound { d with disposed := true, captures := [] } :=
      h.1.listening rfl rfl rfl rfl h.1.listeners
    exact ⟨sound_settle_none hdisposed, current_settle_all (fun c hc => absurd hc List.not_mem_nil)⟩

/-! ### Within a release -/

/-- Neither the release nor the captures have been reset. -/
def Continues (d d' : Discovery Payload) : Prop :=
  Later d.log d'.log ∧ d'.currentRelease = d.currentRelease

theorem continues_settle (ws : List Waiter) (result : Option (CapturedResponse Payload)) :
    Continues d (d.settle ws result) := by
  refine ⟨⟨_, fun e he => ?_, rfl⟩, rfl⟩
  obtain ⟨w, -, rfl⟩ := List.mem_map.1 (List.mem_reverse.1 he)
  rfl

theorem continues_deliver (n : ℕ) (c : CapturedResponse Payload) : Continues d (d.deliver opts n c) := by
  unfold deliver
  split
  · exact ⟨Later.refl _, rfl⟩
  split
  · exact ⟨Later.refl _, rfl⟩
  · exact continues_settle _ _

theorem continues_onResponse (response : Response) :
    Continues d (d.onResponse opts reading response) := by
  unfold onResponse
  dsimp only
  split
  · exact ⟨Later.cons rfl, rfl⟩
  · exact ⟨Later.cons rfl, rfl⟩

theorem continues_onBody (l : Listener Payload) (body : Body Payload) :
    Continues d (d.onBody opts reading l body) := by
  unfold onBody
  dsimp only
  split
  · exact ⟨Later.refl _, rfl⟩
  split
  · exact ⟨Later.refl _, rfl⟩
  split
  · exact ⟨Later.refl _, rfl⟩
  split
  · exact ⟨Later.refl _, rfl⟩
  split
  · exact ⟨Later.refl _, rfl⟩
  · exact continues_deliver _ _

theorem continues_waitFor (wanted : Wanted) : Continues d (d.waitFor wanted) := by
  unfold waitFor
  dsimp only
  split
  · exact ⟨(Later.cons rfl).trans (Later.cons rfl), rfl⟩
  · exact ⟨Later.cons rfl, rfl⟩

theorem called_mem_waitFor (wanted : Wanted) : .called d.log.length wanted ∈ (d.waitFor wanted).log := by
  unfold waitFor
  dsimp only
  split
  · exact List.mem_cons_of_mem _ List.mem_cons_self
  · exact List.mem_cons_self

/-- Two calls of one number are the same. -/
theorem Sound.called_unique (h : Sound d) {w : ℕ} {wanted wanted' : Wanted}
    (hcalled : .called w wanted ∈ d.log) (hcalled' : .called w wanted' ∈ d.log) : wanted = wanted' := by
  have honce := h.once w
  rw [List.countP_eq_length_filter] at honce
  have hmem : ∀ {v}, .called w v ∈ d.log → .called w v ∈ d.log.filter (·.isCall w) :=
    fun hv => List.mem_filter.2 ⟨hv, decide_eq_true rfl⟩
  have hfirst := hmem hcalled
  have hsecond := hmem hcalled'
  have hpos := List.length_pos_of_mem hfirst
  obtain ⟨e, hone⟩ := List.length_eq_one_iff.1 (show (d.log.filter (·.isCall w)).length = 1 by omega)
  rw [hone] at hfirst hsecond
  have heq := (List.mem_singleton.1 hfirst).trans (List.mem_singleton.1 hsecond).symm
  exact (Entry.called.inj heq).2

/-- Whoever waited for a matching response is given none whose request names another release. -/
theorem Sound.matchingResponse (h : Sound d) {w : ℕ} {policy : ResponseMatchPolicy}
    {c : CapturedResponse Payload} (hcalled : .called w (.matchingResponse policy) ∈ d.log)
    (hsettled : .settled w (some c) ∈ d.log) : c.namesOtherRelease = false := by
  obtain ⟨wanted, n, hin, haccepts, -⟩ := h.matching w c hsettled
  obtain rfl := h.called_unique hin.mem hcalled
  by_contra hother
  have hnone : scoreAgainstPolicy c policy = none := if_pos (by simpa using hother)
  have hsome : (scoreAgainstPolicy c policy).isSome = true := haccepts
  rw [hnone] at hsome
  cases hsome

/-- Only a caller has its answer. -/
theorem Sound.settled_lt (h : Sound d) {w : ℕ} {result : Option (CapturedResponse Payload)}
    (hsettled : .settled w result ∈ d.log) : w < d.log.length := by
  have hcount : 0 < settlements w d.log := List.countP_pos_iff.2 ⟨_, hsettled, decide_eq_true rfl⟩
  have hcalls := h.calls w
  obtain ⟨e, he, hcall⟩ := List.countP_pos_iff.1 (show 0 < d.log.countP (·.isCall w) by omega)
  exact h.recent e he w hcall

theorem sound_installed : Sound (installed : Discovery Payload) :=
  ⟨rfl, fun _ hl => absurd hl List.not_mem_nil, fun _ hw => absurd hw List.not_mem_nil, rfl,
    List.nodup_nil, fun _ => rfl, fun _ => Nat.zero_le _, fun _ he => absurd he List.not_mem_nil,
    fun _ _ hmem => absurd hmem List.not_mem_nil⟩

theorem current_installed : Current (installed : Discovery Payload) :=
  ⟨fun _ hc => absurd hc List.not_mem_nil, fun _ hw => absurd hw List.not_mem_nil⟩

theorem fenced_of_inv (h : Sound d ∧ Current d) : Fenced opts reading d := by
  obtain ⟨hsound, hcurrent⟩ := h
  refine ⟨fun c hc => ?_, hsound.matching, fun w wanted hmem => ?_, fun w hw => ?_⟩
  · have hin := hcurrent.captures c hc
    rw [hsound.epoch] at hin
    exact sinceLastReset_of_inEpoch hin
  · have hcalls := hsound.calls w
    have honce := hsound.once w
    have hcalled : 0 < d.log.countP (·.isCall w) :=
      List.countP_pos_iff.2 ⟨_, hmem, decide_eq_true rfl⟩
    by_cases htimer : w ∈ d.timers
    · have hcount : d.timers.count w = 1 := List.count_eq_one_of_mem hsound.ids htimer
      exact .inr ⟨by omega, htimer⟩
    · have hcount : d.timers.count w = 0 := List.count_eq_zero_of_not_mem htimer
      exact .inl ⟨by omega, htimer⟩
  · have hcalls := hsound.calls w
    have honce := hsound.once w
    have hcount : d.timers.count w = 1 := List.count_eq_one_of_mem hsound.ids hw
    have hnone : settlements w d.log = 0 := by omega
    refine ⟨d.onTimeout w, if_pos hw, ?_⟩
    rw [onTimeout_eq]
    show settlements w (_ ++ d.log) = 1
    rw [settlements_settled, hnone, List.count_singleton_self]

/-- In every run the captures are of the current epoch, and each waiter is settled once, with
nothing or with a matching capture of the epoch in which it was registered. -/
theorem discovery_fenced (opts : DiscoveryOptions) (reading : Reading Payload)
    (es : List (Event Payload)) :
    Steps.Throughout (step opts reading) (Fenced opts reading) installed es := by
  have hinv : Steps.Throughout (step opts reading) (fun d => Sound d ∧ Current d) installed es :=
    Steps.throughout_of_step es ⟨sound_installed, current_installed⟩ fun _ _ _ => inv_step
  exact hinv.mono fun _ => fenced_of_inv

end Discovery

end CatalogSentinel.Capture
