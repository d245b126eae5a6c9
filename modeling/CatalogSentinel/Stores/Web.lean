import CatalogSentinel.Stores.Json
import CatalogSentinel.Stores.Names
import Mathlib.Data.Rat.Floor

/-!
The requests that the store providers send: with or without an access token, which is asked
for where there is none that is still good for a while, and with or without retries. What
upstream answers to each request, and what each look at the clock shows, is given from outside.
-/

namespace CatalogSentinel.Stores

/-- An error that was caught, by what is noted of it. -/
structure Failure where
  name : String
  message : String
  deriving DecidableEq, Repr

/-- What a request came to: none at all, or a status with a body, which may not be JSON. -/
inductive Reply
  | failed (error : Failure)
  | response (status : ℕ) (body : Except Failure Json) (text : String)

/-- What `new URL` makes of a text, where it makes one. -/
structure Url where
  protocol : String
  hostname : String
  origin : String
  pathname : String
  href : String
  deriving DecidableEq, Repr

/-- What the platform is called for: `new URL(text, base)`, `encodeURIComponent` and `Number`. -/
structure Platform where
  parseUrl : String → Option String → Option Url
  encodeURIComponent : String → String
  toNumber : Json → Option ℚ

/-- What the `n`-th request comes to, if it is for this URL, and what the `n`-th look at the clock shows. -/
structure World where
  reply : ℕ → String → Reply
  clock : ℕ → ℚ

structure Token where
  value : Json
  expiresAt : Option ℚ

/-- What a provider has sent and keeps from one request to the next. -/
structure Session where
  requests : ℕ
  readings : ℕ
  token : Option Token
  lastError : Option String

variable (platform : Platform) (world : World)

def Session.note (s : Session) (error : Option String) : Session :=
  { s with lastError := error <|> s.lastError }

def fetch (s : Session) (url : String) : Reply × Session :=
  (world.reply s.requests url, { s with requests := s.requests + 1 })

def isOk (status : ℕ) : Bool := 200 ≤ status ∧ status ≤ 299

def isTransientStatus (status : ℕ) : Bool := status ∈ [408, 425, 429] || 500 ≤ status

/-- An option that is not finite counts as not given. -/
def maxAttempts (configured : Option ℚ) : ℕ := max 1 (min 5 ⌊configured.getD 3⌋.toNat)

/-- So many attempts are left. -/
def fetchWithRetry : ℕ → Session → String → Reply × Session
  | 0, s, _ => (.failed ⟨"Error", "Provider request failed after bounded retries."⟩, s)
  | attempts + 1, s, url =>
    match fetch world s url with
    | (.failed error, s) => if attempts = 0 then (.failed error, s) else fetchWithRetry attempts s url
    | (.response status body text, s) =>
      if !isTransientStatus status || attempts = 0 then (.response status body text, s)
      else fetchWithRetry attempts s url

/-- A value that is put where a text is needed. -/
def typeError : Failure := ⟨"TypeError", "Cannot convert object to primitive value"⟩

/-! ### Access tokens -/

/-- A token that is good for longer than the margin. -/
def freshToken (margin : ℚ) (s : Session) : Option Json × Session :=
  match s.token with
  | none => (none, s)
  | some token =>
    let now := world.clock s.readings
    (if token.expiresAt.any (· > now + margin) then some token.value else none,
      { s with readings := s.readings + 1 })

/-- The token that a grant holds, kept until it expires. -/
def keepToken (body : Json) (s : Session) : Except TypeError (Option Json × Session) := do
  let value ← Json.read "access_token" (some body)
  match value with
  | none => return (none, s)
  | some value =>
    if Json.truthy (some value) then
      let expiresIn := Json.orElse (.num ⟨3600, "3600"⟩) (body.field "expires_in")
      let expiresAt := (platform.toNumber expiresIn).map fun seconds => world.clock s.readings + seconds * 1000
      return (some value, { s with token := some ⟨value, expiresAt⟩, readings := s.readings + 1 })
    else return (none, s)

/-- An API that is asked with a bearer token, and what is noted where that fails. -/
structure BearerApi where
  tokenUrl : String
  margin : ℚ
  tokenStatus : ℕ → Option String
  tokenMissing : Option String
  tokenFailure : Failure → Option String
  unavailable : String
  refreshFailed : String
  status : ℕ → String → String
  failure : Failure → String

def bearerToken (api : BearerApi) (attempts : ℕ) (s : Session) : Option Json × Session :=
  match freshToken world api.margin s with
  | (some value, s) => (some value, s)
  | (none, s) =>
    match fetchWithRetry world attempts s api.tokenUrl with
    | (.failed error, s) => (none, s.note (api.tokenFailure error))
    | (.response status body _, s) =>
      if !isOk status then (none, s.note (api.tokenStatus status))
      else
        match body with
        | .error error => (none, s.note (api.tokenFailure error))
        | .ok body =>
          match keepToken platform world body s with
          | .error _ => (none, s.note (api.tokenFailure typeError))
          | .ok (some value, s) => (some value, s)
          | .ok (none, s) => (none, s.note api.tokenMissing)

/-- A body that is there, or what is noted of the response instead. -/
def bodyOf (api : BearerApi) (reply : Reply) (s : Session) : Option Json × Session :=
  match reply with
  | .failed error => (none, s.note (some (api.failure error)))
  | .response status body text =>
    if !isOk status then (none, s.note (some (api.status status text)))
    else
      match body with
      | .error error => (none, s.note (some (api.failure error)))
      | .ok body => (some body, s)

/-- Asked once more with a new token where the one in hand is refused. -/
def bearerJson (api : BearerApi) (attempts : ℕ) (s : Session) (url : String) : Option Json × Session :=
  match bearerToken platform world api attempts s with
  | (none, s) => (none, { s with lastError := s.lastError <|> some api.unavailable })
  | (some token, s) =>
    match Json.toText (some token) with
    | .error _ => (none, s.note (some (api.failure typeError)))
    | .ok _ =>
      match fetchWithRetry world attempts s url with
      | (.response 401 _ _, s) =>
        match bearerToken platform world api attempts { s with token := none } with
        | (none, s) => (none, s.note (some api.refreshFailed))
        | (some token, s) =>
          match Json.toText (some token) with
          | .error _ => (none, s.note (some (api.failure typeError)))
          | .ok _ =>
            let (reply, s) := fetchWithRetry world attempts s url
            bodyOf api reply s
      | (reply, s) => bodyOf api reply s

/-- A body that counts as false is taken for a failed request. -/
def page? (body : Option Json) : Option Json := body.filter fun body => Json.truthy (some body)

/-- A cursor that stays with its host, whatever value `new URL` is handed. -/
def validatedCursor (host : String) (value : Option Json) : Option String :=
  if Json.truthy value then
    match Json.toText value with
    | .error _ => none
    | .ok text =>
      (platform.parseUrl text none).bind fun url =>
        if url.protocol = "https:" ∧ url.hostname = host then some url.href else none
  else none

/-! ### How many requests are sent -/

variable {platform world} {s : Session} {attempts : ℕ}

@[simp] theorem note_requests (error : Option String) : (s.note error).requests = s.requests := rfl

theorem maxAttempts_le (configured : Option ℚ) : maxAttempts configured ≤ 5 := by
  rw [maxAttempts]
  omega

theorem fetchWithRetry_requests {url : String} {reply : Reply} {s' : Session}
    (h : fetchWithRetry world attempts s url = (reply, s')) : s'.requests ≤ s.requests + attempts := by
  induction attempts generalizing s with
  | zero =>
    simp only [fetchWithRetry, Prod.mk.injEq] at h
    rw [← h.2, Nat.add_zero]
  | succ attempts ih =>
    have hsent {r : Reply} (hr : (r, ({ s with requests := s.requests + 1 } : Session)) = (reply, s')) :
        s'.requests ≤ s.requests + (attempts + 1) := by
      rw [← (Prod.mk.inj hr).2]
      dsimp only
      omega
    have hnext (hr : fetchWithRetry world attempts { s with requests := s.requests + 1 } url = (reply, s')) :
        s'.requests ≤ s.requests + (attempts + 1) := by
      have := ih hr
      dsimp only at this
      omega
    simp only [fetchWithRetry, fetch] at h
    cases hreply : world.reply s.requests url with
    | failed error =>
      simp only [hreply] at h
      split at h
      · exact hsent h
      · exact hnext h
    | response status body text =>
      simp only [hreply] at h
      split at h
      · exact hsent h
      · exact hnext h

theorem freshToken_requests {margin : ℚ} {value : Option Json} {s' : Session}
    (h : freshToken world margin s = (value, s')) : s'.requests = s.requests := by
  rw [freshToken] at h
  split at h <;> rw [← (Prod.mk.inj h).2]

theorem keepToken_requests {body : Json} {value : Option Json} {s' : Session}
    (h : keepToken platform world body s = .ok (value, s')) : s'.requests = s.requests := by
  simp only [keepToken] at h
  cases hread : Json.read "access_token" (some body) with
  | error e => simp [hread, bind, Except.bind] at h
  | ok access =>
    simp only [hread, bind, Except.bind, pure, Except.pure] at h
    cases access with
    | none =>
      simp only [Except.ok.injEq, Prod.mk.injEq] at h
      rw [← h.2]
    | some access =>
      dsimp only at h
      split at h <;> (simp only [Except.ok.injEq, Prod.mk.injEq] at h; rw [← h.2])

theorem bearerToken_requests {api : BearerApi} {value : Option Json} {s' : Session}
    (h : bearerToken platform world api attempts s = (value, s')) : s'.requests ≤ s.requests + attempts := by
  rw [bearerToken] at h
  split at h
  · next s₁ hfresh =>
    have := freshToken_requests hfresh
    rw [← (Prod.mk.inj h).2]
    omega
  · next s₁ hfresh =>
    have hsame := freshToken_requests hfresh
    split at h
    · next hfetch =>
      have := fetchWithRetry_requests hfetch
      rw [← (Prod.mk.inj h).2, note_requests]
      omega
    · next hfetch =>
      have hsent := fetchWithRetry_requests hfetch
      split at h
      · rw [← (Prod.mk.inj h).2, note_requests]
        omega
      · split at h
        · rw [← (Prod.mk.inj h).2, note_requests]
          omega
        · split at h
          · rw [← (Prod.mk.inj h).2, note_requests]
            omega
          · next hkept =>
            have := keepToken_requests hkept
            rw [← (Prod.mk.inj h).2]
            omega
          · next hkept =>
            have := keepToken_requests hkept
            rw [← (Prod.mk.inj h).2, note_requests]
            omega

theorem bodyOf_requests {api : BearerApi} {reply : Reply} {body : Option Json} {s' : Session}
    (h : bodyOf api reply s = (body, s')) : s'.requests = s.requests := by
  cases reply with
  | failed error =>
    simp only [bodyOf, Prod.mk.injEq] at h
    rw [← h.2, note_requests]
  | response status text body =>
    simp only [bodyOf] at h
    split at h
    · rw [← (Prod.mk.inj h).2, note_requests]
    · split at h <;> rw [← (Prod.mk.inj h).2]
      rw [note_requests]

/-- A page costs two tokens and two requests at most, each with its attempts. -/
theorem bearerJson_requests {api : BearerApi} {url : String} {body : Option Json} {s' : Session}
    (h : bearerJson platform world api attempts s url = (body, s')) :
    s'.requests ≤ s.requests + 4 * attempts := by
  rw [bearerJson] at h
  split at h
  · next htoken =>
    have := bearerToken_requests htoken
    rw [← (Prod.mk.inj h).2]
    dsimp only
    omega
  · next htoken =>
    have hfirst := bearerToken_requests htoken
    split at h
    · rw [← (Prod.mk.inj h).2, note_requests]
      omega
    · split at h
      · next hfetch =>
        have hasked := fetchWithRetry_requests hfetch
        split at h
        · next hagain =>
          have hsecond := bearerToken_requests hagain
          dsimp only at hsecond
          rw [← (Prod.mk.inj h).2, note_requests]
          omega
        · next s₃ hagain =>
          have hsecond := bearerToken_requests hagain
          dsimp only at hsecond
          split at h
          · rw [← (Prod.mk.inj h).2, note_requests]
            omega
          · have hlast : (fetchWithRetry world attempts s₃ url).2.requests ≤ s₃.requests + attempts :=
              fetchWithRetry_requests rfl
            have := bodyOf_requests h
            omega
      · next hfetch =>
        have hasked := fetchWithRetry_requests hfetch
        have := bodyOf_requests h
        omega

/-! ### Bodies come from upstream -/

def World.Answers (world : World) (body : Json) : Prop :=
  ∃ n url status text, world.reply n url = .response status (.ok body) text

theorem fetchWithRetry_answers {url : String} {status : ℕ} {body : Json} {text : String} {s' : Session}
    (h : fetchWithRetry world attempts s url = (.response status (.ok body) text, s')) : world.Answers body := by
  induction attempts generalizing s with
  | zero => simp [fetchWithRetry] at h
  | succ attempts ih =>
    simp only [fetchWithRetry, fetch] at h
    cases hreply : world.reply s.requests url with
    | failed error =>
      simp only [hreply] at h
      split at h
      · simp at h
      · exact ih h
    | response status' body' text' =>
      simp only [hreply] at h
      split at h
      · simp only [Prod.mk.injEq, Reply.response.injEq] at h
        obtain ⟨⟨rfl, rfl, rfl⟩, -⟩ := h
        exact ⟨_, _, _, _, hreply⟩
      · exact ih h

theorem bodyOf_answers {api : BearerApi} {reply : Reply} {body : Json}
    (h : (bodyOf api reply s).1 = some body) : ∃ status text, reply = .response status (.ok body) text := by
  cases reply with
  | failed error => simp [bodyOf] at h
  | response status result text =>
    simp only [bodyOf] at h
    split at h
    · simp at h
    · split at h
      · simp at h
      · simp only [Option.some.injEq] at h
        subst h
        exact ⟨status, text, rfl⟩

theorem bearerJson_answers {api : BearerApi} {url : String} {body : Json}
    (h : (bearerJson platform world api attempts s url).1 = some body) : world.Answers body := by
  rw [bearerJson] at h
  split at h
  · simp at h
  · split at h
    · simp at h
    · split at h
      · split at h
        · simp at h
        · split at h
          · simp at h
          · obtain ⟨status, text, hreply⟩ := bodyOf_answers h
            exact fetchWithRetry_answers (Prod.ext hreply rfl)
      · next hfetch =>
        obtain ⟨status, text, rfl⟩ := bodyOf_answers h
        exact fetchWithRetry_answers hfetch

theorem page?_eq {body : Option Json} {page : Json} (h : page? body = some page) : body = some page :=
  (Option.filter_eq_some_iff.1 h).1

end CatalogSentinel.Stores
