import Mathlib.Tactic.IntervalCases
import CatalogSentinel.Data.Replace
import CatalogSentinel.Checkpoint.Accepts
import CatalogSentinel.Checkpoint.RoundTrip

/-!
The other records of a checkpoint: the references of the catalogue index and the
terminal tombstone. A dashboard URL keeps the parameters that name the release, and
the reason of a cancellation is written without the secrets in it. Both may come out
longer than they went in, and then the check that wrote them no longer accepts them.
-/

namespace CatalogSentinel.Checkpoint

open CatalogSentinel.Data CatalogSentinel.Distrokid

/-! ### Secrets -/

def secretWords : List String :=
  ["bearer", "cookie", "password", "apikey", "api_key", "api-key", "token"]

/-- What follows the word at the start of the text, whatever the case. -/
def afterWord : List Char → List Char → Option (List Char)
  | [], text => some text
  | _ :: _, [] => none
  | w :: word, c :: text => if c.toLower = w then afterWord word text else none

/-- What follows `\s*[:=]\s*\S+` -/
def afterValue (text : List Char) : Option (List Char) :=
  match text.dropWhile isJsSpace with
  | [] => none
  | c :: rest =>
    if c = ':' || c = '=' then
      match rest.dropWhile isJsSpace with
      | [] => none
      | _ :: rest => some (rest.dropWhile fun c => !isJsSpace c)
    else none

/-- What follows `(?:bearer|cookie|password|api[_-]?key|token)\s*[:=]\s*\S+` -/
def afterSecret (text : List Char) : Option (List Char) :=
  secretWords.findSome? fun word => (afterWord word.toList text).bind afterValue

theorem afterWord_eq {word text rest : List Char} (h : afterWord word text = some rest) :
    ∃ m, m.length = word.length ∧ text = m ++ rest := by
  induction word generalizing text with
  | nil => exact ⟨[], rfl, Option.some.inj h⟩
  | cons w word ih =>
    cases text with
    | nil => cases h
    | cons c text =>
      rw [afterWord] at h
      split at h
      · obtain ⟨m, hlength, rfl⟩ := ih h
        exact ⟨c :: m, by rw [List.length_cons, hlength, List.length_cons], rfl⟩
      · cases h

theorem afterValue_suffix {text rest : List Char} (h : afterValue text = some rest) : rest <:+ text := by
  unfold afterValue at h
  split at h
  · cases h
  · rename_i c value hvalue
    split at h
    · split at h
      · cases h
      · rename_i d tail htail
        obtain rfl := Option.some.inj h
        have htext : c :: value <:+ text := hvalue ▸ List.dropWhile_suffix _
        have hrest : d :: tail <:+ value := htail ▸ List.dropWhile_suffix _
        have hdrop := List.dropWhile_suffix (l := tail) fun c => !isJsSpace c
        exact hdrop.trans ((List.suffix_cons d tail).trans (hrest.trans
          ((List.suffix_cons c value).trans htext)))
    · cases h

def secretMatcher : Matcher Char where
  matchAt := afterSecret
  matched text rest h := by
    obtain ⟨word, hword, hafter⟩ := List.exists_of_findSome?_eq_some h
    obtain ⟨tail, htail, hvalue⟩ := Option.bind_eq_some_iff.1 hafter
    obtain ⟨m, hlength, rfl⟩ := afterWord_eq htail
    obtain ⟨between, rfl⟩ := afterValue_suffix hvalue
    refine ⟨m ++ between, fun hnil => ?_, (List.append_assoc _ _ _).symm⟩
    have hwords : ∀ word ∈ secretWords, word.toList ≠ [] := by decide
    have hm : m = [] := (List.append_eq_nil_iff.1 hnil).1
    rw [hm] at hlength
    exact hwords word hword (List.length_eq_zero_iff.1 hlength.symm)

def redaction : List Char := "[redacted]".toList

/-- `s.replace(…, '[redacted]')` -/
def redact (s : String) : String := String.ofList (secretMatcher.replaceAll redaction s.toList)

/-- What is redacted of a text. -/
def secrets (s : String) : List String := (secretMatcher.found s.toList).map String.ofList

section Redaction

/-- No word, separator or value starts with what is put in for a secret. -/
theorem afterSecret_redaction : ∀ i < redaction.length, ∀ out,
    secretMatcher.matchAt (redaction.drop i ++ out) = none := by
  intro i hi out
  have hlength : redaction.length = 10 := rfl
  rw [hlength] at hi
  interval_cases i <;> rfl

theorem toLower_of_space {c : Char} (h : isJsSpace c = true) : c.toLower = c := by
  unfold Char.toLower
  split
  · rename_i hupper
    simp only [isJsSpace, List.mem_cons, List.not_mem_nil, or_false, Bool.or_eq_true, decide_eq_true_eq,
      Bool.and_eq_true] at h
    simp only [ge_iff_le, UInt32.le_iff_toNat_le] at hupper
    have hlow : ('A' : Char).val.toNat = 65 := rfl
    have hhigh : ('Z' : Char).val.toNat = 90 := rfl
    have hval : c.val.toNat = c.toNat := rfl
    omega
  · rfl

/-- A secret does not start with a space. -/
theorem not_space_of_afterSecret {c : Char} {text rest : List Char}
    (h : afterSecret (c :: text) = some rest) : isJsSpace c = false := by
  obtain ⟨word, hword, hafter⟩ := List.exists_of_findSome?_eq_some h
  obtain ⟨tail, htail, -⟩ := Option.bind_eq_some_iff.1 hafter
  have hwords : (secretWords.all fun word =>
      ['a', 'b', 'c', 'p', 't'].any fun w => word.toList.head? = some w) = true := by
    decide
  obtain ⟨w, hw, heq⟩ := List.any_eq_true.1 (List.all_eq_true.1 hwords word hword)
  have hhead : word.toList.head? = some w := of_decide_eq_true heq
  obtain ⟨ws, hws⟩ : ∃ ws, word.toList = w :: ws := List.head?_eq_some_iff.1 hhead
  rw [hws, afterWord] at htail
  split at htail
  · rename_i hlower
    rw [Bool.eq_false_iff]
    intro hspace
    rw [toLower_of_space hspace] at hlower
    have hletters : (['a', 'b', 'c', 'p', 't'].all fun w => !isJsSpace w) = true := by decide
    have hletter := List.all_eq_true.1 hletters w hw
    rw [← hlower, hspace] at hletter
    cases hletter
  · cases htail

/-- The words are found in the output where they are in the text. -/
theorem afterWord_replaced {word text out rest : List Char} (hword : '[' ∉ word)
    (h : secretMatcher.Replaced redaction text out) (hout : afterWord word out = some rest) :
    ∃ rest', afterWord word text = some rest' ∧ secretMatcher.Replaced redaction rest' rest := by
  induction word generalizing text out with
  | nil => exact ⟨text, rfl, Option.some.inj hout ▸ h⟩
  | cons w word ih =>
    rw [List.mem_cons, not_or] at hword
    cases h with
    | nil => cases hout
    | @keep c text out hnone hrest =>
      rw [afterWord] at hout ⊢
      split at hout
      · rename_i hc
        rw [if_pos hc]
        exact ih hword.2 hrest hout
      · cases hout
    | @replace _ rest' out' hmatch hrest =>
      have hhead : afterWord (w :: word) ('[' :: (redaction.tail ++ out')) = some rest := hout
      rw [afterWord] at hhead
      split at hhead
      · rename_i hc
        exact absurd hc hword.1
      · cases hhead

theorem dropWhile_replaced {text out : List Char} (h : secretMatcher.Replaced redaction text out) :
    secretMatcher.Replaced redaction (text.dropWhile isJsSpace) (out.dropWhile isJsSpace) := by
  induction h with
  | nil => exact .nil
  | @keep c text out hnone hrest ih =>
    cases hc : isJsSpace c with
    | true =>
      rw [List.dropWhile_cons_of_pos hc, List.dropWhile_cons_of_pos hc]
      exact ih
    | false =>
      have hc' : ¬ isJsSpace c = true := by rw [hc]; exact Bool.false_ne_true
      rw [List.dropWhile_cons_of_neg hc', List.dropWhile_cons_of_neg hc']
      exact .keep hnone hrest
  | @replace text rest out hmatch hrest ih =>
    have hout : (redaction ++ out).dropWhile isJsSpace = redaction ++ out := rfl
    have htext : text.dropWhile isJsSpace = text := by
      cases text with
      | nil => rfl
      | cons c text =>
        have hc : ¬ isJsSpace c = true := by
          rw [not_space_of_afterSecret hmatch]
          exact Bool.false_ne_true
        rw [List.dropWhile_cons_of_neg hc]
    rw [hout, htext]
    exact .replace hmatch hrest

theorem afterValue_replaced {text out : List Char} (h : secretMatcher.Replaced redaction text out)
    (hout : (afterValue out).isSome = true) : (afterValue text).isSome = true := by
  unfold afterValue at hout ⊢
  have hdrop := dropWhile_replaced h
  generalize text.dropWhile isJsSpace = t at hdrop ⊢
  generalize out.dropWhile isJsSpace = o at hdrop hout
  cases hdrop with
  | nil => cases hout
  | @keep c text out hnone hrest =>
    dsimp only at hout ⊢
    split at hout
    · rename_i hc
      rw [if_pos hc]
      have hvalue := dropWhile_replaced hrest
      generalize text.dropWhile isJsSpace = t at hvalue ⊢
      generalize out.dropWhile isJsSpace = o at hvalue hout
      cases hvalue with
      | nil => cases hout
      | keep => rfl
      | @replace _ rest out hmatch hrest =>
        cases t with
        | nil => cases hmatch
        | cons d t => rfl
    · cases hout
  | @replace _ rest out hmatch hrest => cases hout

theorem afterSecret_reflect (c : Char) (text out : List Char)
    (h : secretMatcher.Replaced redaction text out) (hnone : secretMatcher.matchAt (c :: text) = none) :
    secretMatcher.matchAt (c :: out) = none := by
  have hnone' : afterSecret (c :: text) = none := hnone
  show afterSecret (c :: out) = none
  unfold afterSecret at hnone' ⊢
  rw [List.findSome?_eq_none_iff] at hnone' ⊢
  intro word hword
  by_contra hsome
  obtain ⟨rest, hrest⟩ := Option.ne_none_iff_exists'.1 hsome
  obtain ⟨tail, htail, hvalue⟩ := Option.bind_eq_some_iff.1 hrest
  have hwords : ∀ word ∈ secretWords, '[' ∉ word.toList ∧ word.toList ≠ [] := by decide
  obtain ⟨hbracket, hne⟩ := hwords word hword
  obtain ⟨w, ws, hws⟩ := List.exists_cons_of_ne_nil hne
  have hnone := hnone' word hword
  rw [hws, afterWord] at htail hnone
  split at htail
  · rename_i hc
    rw [if_pos hc] at hnone
    rw [hws, List.mem_cons, not_or] at hbracket
    obtain ⟨tail', htail', hreplaced⟩ := afterWord_replaced hbracket.2 h htail
    have hsome : (afterValue tail').isSome = true :=
      afterValue_replaced hreplaced (Option.isSome_iff_exists.2 ⟨rest, hvalue⟩)
    rw [htail', Option.bind_some] at hnone
    rw [hnone] at hsome
    cases hsome
  · cases htail

theorem redact_redact (s : String) : redact (redact s) = redact s := by
  unfold redact
  rw [String.toList_ofList, Matcher.replaceAll_replaceAll afterSecret_redaction afterSecret_reflect]

theorem replaced_redact (s : String) :
    secretMatcher.Replaced redaction s.toList (redact s).toList := by
  unfold redact
  rw [String.toList_ofList]
  exact Matcher.replaceAll_replaced s.toList

theorem isBlank_redact {s : String} (h : isBlank s = false) : isBlank (redact s) = false := by
  unfold isBlank at h ⊢
  rw [List.all_eq_false] at h ⊢
  exact (replaced_redact s).exists_mem ⟨'[', by decide, by decide⟩ h

theorem hasControlCharacter_redact {s : String} (h : hasControlCharacter s true = false) :
    hasControlCharacter (redact s) true = false := by
  unfold hasControlCharacter at h ⊢
  rw [List.any_eq_false] at h ⊢
  exact (replaced_redact s).forall_mem (List.any_eq_false.1 (by decide)) h

/-- Each secret is as long in the text as it is, and ten characters in what is written of it. -/
theorem utf16Length_redact (s : String) :
    utf16Length (redact s) + ((secrets s).map utf16Length).sum =
      utf16Length s + 10 * (secrets s).length := by
  have hsum : ((secretMatcher.replaceFrom redaction s.toList.length s.toList).map _).sum + _ = _ :=
    Matcher.sum_replaceFrom (fun c => if c.toNat < 0x10000 then 1 else 2) s.toList.length s.toList
  have hten : (redaction.map fun c => if c.toNat < 0x10000 then 1 else 2).sum = 10 := by decide
  have hsecrets : (secrets s).map utf16Length =
      (secretMatcher.found s.toList).map fun m =>
        (m.map fun c => if c.toNat < 0x10000 then 1 else 2).sum := by
    unfold secrets
    rw [List.map_map]
    refine List.map_congr_left fun m _ => ?_
    simp only [Function.comp_apply, utf16Length, String.toList_ofList]
  rw [hten] at hsum
  rw [hsecrets]
  unfold redact utf16Length secrets Matcher.replaceAll Matcher.found
  rw [String.toList_ofList, List.length_map, Nat.mul_comm]
  exact hsum

end Redaction

/-! ### References -/

/-- A parsed dashboard URL: the parts that are inspected, its text up to the query, and the query, as
text with its question mark and as it is read. -/
structure DashboardUrl where
  protocol : String
  username : String
  password : String
  hostname : String
  resource : String
  query : String
  searchParams : List (String × String)
  deriving DecidableEq, Repr

/-- `url.toString()`, without a fragment -/
def DashboardUrl.href (url : DashboardUrl) : String := url.resource ++ url.query

/-- The functions of the language on dashboard URLs besides: `new URL`, and how a URL's parameters are
written, with a question mark before them if there are any. -/
structure DashboardPlatform extends Platform where
  parseDashboard : String → Option DashboardUrl
  writeParams : List (String × String) → String

section Sanitize

variable (P : Platform) (D : DashboardPlatform)

/-- `distrokid.com` or a host under it. -/
def isDistroKidHost (hostname : String) : Bool :=
  hostname = "distrokid.com" || ".distrokid.com".toList.isSuffixOf hostname.toList

/-- `permitted.has(key.toLowerCase())`, where no letter but the ASCII ones is lowered into these names. -/
def isPermitted (key : String) : Bool :=
  (["albumuuid", "albumid", "releaseid", "id"].map String.toList).contains (key.toList.map Char.toLower)

/-- A URL whose parameters change is written anew. -/
def DashboardUrl.setParams (url : DashboardUrl) (params : List (String × String)) : DashboardUrl :=
  { url with query := D.writeParams params, searchParams := params }

/-- `url.searchParams.delete(key)` -/
def DashboardUrl.deleteParam (url : DashboardUrl) (key : String) : DashboardUrl :=
  url.setParams D (url.searchParams.filter (·.1 ≠ key))

/-- The keys are listed before the first of them is deleted. -/
def DashboardUrl.permitted (url : DashboardUrl) : DashboardUrl :=
  (url.searchParams.map Prod.fst).foldl
    (fun url key => if !isPermitted key then url.deleteParam D key else url) url

/-- `safeUrl` of a dashboard. -/
def safeDashboardUrl (value name : String) : Checked String := do
  let input ← textValue value name 8192
  match D.parseDashboard input with
  | none => invalidField name
  | some parsed =>
    if parsed.protocol ≠ "https:" || parsed.username ≠ "" || parsed.password ≠ "" then
      invalidField name
    else if !isDistroKidHost parsed.hostname then
      .error (.invalid "DistroKid checkpoint dashboard URL has an unexpected host")
    else .ok (parsed.permitted D).href

/-- A count, which is never negative by its type. -/
def safeCount (value : ℕ) (name : String) : Checked ℕ :=
  if value > 9007199254740991 then invalidField name else .ok value

def positiveInteger (value : ℕ) (name : String) : Checked ℕ := do
  let parsed ← safeCount value name
  if parsed < 1 then invalidField name else .ok parsed

def sanitizeReleaseRef (record : ReleaseRefRecord) : Checked ReleaseRefRecord := do
  let releaseId ← textValue record.releaseId "releaseId" 512
  let dashboardUrl ← safeDashboardUrl D record.dashboardUrl "dashboardUrl"
  let title ← record.title.mapM fun t => textValue t "release title" 2048
  let artist ← record.artist.mapM fun a => textValue a "release artist" 2048
  let expectedTrackCount ← record.expectedTrackCount.mapM fun n => positiveInteger n "expected track count"
  return ⟨releaseId, dashboardUrl, title, artist, expectedTrackCount⟩

/-! ### Tombstones -/

/-- Rebuilt property by property: at most a hundred, and `__proto__` is not one. -/
def sanitizeFailureReasons (kept : Tally) : Tally → Checked Tally
  | [] => .ok kept
  | (reason, count) :: rest =>
    if kept.length ≥ 100 then .error (.invalid "too many failure reasons in terminal checkpoint")
    else do
      let reason ← textValue reason "completeness failure reason" 128
      let count ← safeCount count "failure reason count"
      sanitizeFailureReasons (if reason = "__proto__" then kept else kept ++ [(reason, count)]) rest

def countNames : List (String × (ExtractionCompleteness → ℕ)) :=
  [("expectedReleases", (·.expectedReleases)), ("attemptedReleases", (·.attemptedReleases)),
    ("completedReleases", (·.completedReleases)), ("failedReleases", (·.failedReleases)),
    ("skippedReleases", (·.skippedReleases)), ("expectedTracks", (·.expectedTracks)),
    ("extractedTracks", (·.extractedTracks)), ("releasesWithUpc", (·.releasesWithUpc)),
    ("releasesWithArtwork", (·.releasesWithArtwork)), ("tracksWithIsrc", (·.tracksWithIsrc)),
    ("tracksWithDistributorId", (·.tracksWithDistributorId)),
    ("releasesUpcAbsentAtSource", (·.releasesUpcAbsentAtSource)),
    ("tracksIsrcAbsentAtSource", (·.tracksIsrcAbsentAtSource)),
    ("releasesUpcNotCaptured", (·.releasesUpcNotCaptured)),
    ("tracksIsrcNotCaptured", (·.tracksIsrcNotCaptured))]

def optionalCountNames : List (String × (ExtractionCompleteness → Option ℕ)) :=
  [("metadataFieldsAudited", (·.metadataFieldsAudited)),
    ("metadataFieldsPresent", (·.metadataFieldsPresent)),
    ("metadataFieldsAbsentAtSource", (·.metadataFieldsAbsentAtSource)),
    ("metadataFieldsNotCaptured", (·.metadataFieldsNotCaptured))]

/-- The counts that are accepted are taken over. -/
def sanitizeCounts (input : ExtractionCompleteness) : Checked Unit := do
  let _ ← countNames.mapM fun (name, count) => safeCount (count input) s!"completeness {name}"
  let _ ← optionalCountNames.mapM fun (name, count) =>
    (count input).mapM fun n => safeCount n s!"completeness {name}"
  return ()

def sanitizeCompleteness (input : ExtractionCompleteness) : Checked ExtractionCompleteness := do
  let _ ← sanitizeCounts input
  if input.unresolvedReleaseIds.length > MAX_RELEASES then
    .error (.invalid "invalid unresolved release ids in terminal checkpoint")
  else do
  let failureReasons ← sanitizeFailureReasons [] input.failureReasons
  if input.metadataIncompleteReleaseIds.any fun ids => ids.length > MAX_RELEASES then
    .error (.invalid "invalid metadata-incomplete release ids in terminal checkpoint")
  else do
  let unresolvedReleaseIds ← input.unresolvedReleaseIds.mapM fun id => textValue id "unresolved release id" 512
  let metadataIncompleteReleaseIds ← input.metadataIncompleteReleaseIds.mapM fun ids =>
    ids.mapM fun id => textValue id "metadata-incomplete release id" 512
  return { input with unresolvedReleaseIds, metadataIncompleteReleaseIds, failureReasons }

/-- `/^v[12]\./` -/
def isSealedHandle (handle : String) : Bool :=
  "v1.".toList.isPrefixOf handle.toList || "v2.".toList.isPrefixOf handle.toList

/-- A value that is not empty is checked, an empty one left out. -/
def unlessEmpty (check : String → Checked String) (value : Option String) : Checked (Option String) :=
  (value.filter (· ≠ "")).mapM check

/-- The status is one of those of its type. -/
def sanitizeFinalizeJob (job : FinalizeJob) (binding : SnapshotCheckpointBinding) : Checked FinalizeJob :=
  if job.binding ≠ binding then .error .principalMismatch
  else if job.steelSessionId.any fun handle => handle ≠ "" && !isSealedHandle handle then
    .error (.invalid "refusing to persist a plaintext Steel session handle in a durable checkpoint")
  else do
  let consentId ← unlessEmpty (fun v => textValue v "consentId" 512) job.consentId
  let artistWorkspaceId ← unlessEmpty (fun v => textValue v "artistWorkspaceId" 512) job.artistWorkspaceId
  let steelSessionId ←
    unlessEmpty (fun v => textValue v "encrypted Steel session handle" 16384) job.steelSessionId
  let sessionExpiresAt ← unlessEmpty (fun v => isoTimestamp P v "Steel session expiry") job.sessionExpiresAt
  let deadlineAt ← unlessEmpty (fun v => isoTimestamp P v "snapshot deadline") job.deadlineAt
  let schemaVersion ← job.schemaVersion.mapM fun n => safeCount n "schema version"
  let completeness ← sanitizeCompleteness job.completeness
  match job.pass with
  | none => invalidField "terminal pass"
  | some pass => do
    let pass ← safeCount pass "terminal pass"
    return {
      tenantId := binding.tenantId, connectionId := binding.connectionId
      snapshotId := binding.snapshotId, distributor := binding.distributor
      consentId, artistWorkspaceId, steelSessionId, sessionExpiresAt, deadlineAt, schemaVersion
      status := job.status, completeness, pass := some pass }

def sanitizeTombstone (input : SnapshotTerminalTombstone) (binding : SnapshotCheckpointBinding) :
    Checked SnapshotTerminalTombstone :=
  match input with
  | .cancelled createdAt reason => do
    let createdAt ← isoTimestamp P createdAt "terminal createdAt"
    let reason ← textValue reason "cancellation reason" 512
    return .cancelled createdAt (redact reason)
  | .terminal finalizeJob createdAt reason => do
    let finalizeJob ← sanitizeFinalizeJob P finalizeJob binding
    let createdAt ← isoTimestamp P createdAt "terminal createdAt"
    let reason ← unlessEmpty (fun v => textValue v "terminal reason" 512) reason
    return .terminal finalizeJob createdAt reason

end Sanitize

section Again

variable {P : Platform} {D : DashboardPlatform}

theorem stable_safeCount (name : String) : Stable fun n => safeCount n name := by
  refine stable_of_checked fun x y h => ?_
  unfold safeCount at h
  split at h
  · cases h
  · exact (Except.ok.inj h).symm

theorem stable_positiveInteger (name : String) : Stable fun n => positiveInteger n name := by
  refine stable_of_checked fun x y h => ?_
  obtain ⟨n, hn, h⟩ := bind_ok.1 h
  have hsame : n = x := by
    unfold safeCount at hn
    split at hn
    · cases hn
    · exact (Except.ok.inj hn).symm
  split at h
  · cases h
  · exact (Except.ok.inj h).symm.trans hsame

/-! ### The failure reasons -/

/-- An entry that is kept as it is. -/
def KeptReason (entry : String × ℕ) : Prop :=
  Storable 128 entry.1 ∧ entry.2 ≤ 9007199254740991 ∧ entry.1 ≠ "__proto__"

theorem sanitizeFailureReasons_of_kept {kept entries : Tally} (h : ∀ entry ∈ entries, KeptReason entry)
    (hlength : kept.length + entries.length ≤ 100) :
    sanitizeFailureReasons kept entries = .ok (kept ++ entries) := by
  induction entries generalizing kept with
  | nil => rw [List.append_nil, sanitizeFailureReasons]
  | cons entry entries ih =>
    obtain ⟨reason, count⟩ := entry
    obtain ⟨htext, hcount, hproto⟩ := h _ List.mem_cons_self
    have hreason : textValue reason "completeness failure reason" 128 = .ok reason := by
      obtain ⟨v, hv⟩ := passes_textValue.2 htext
      rwa [textValue_ok hv] at hv
    have hsafe : safeCount count "failure reason count" = .ok count := by
      unfold safeCount
      rw [if_neg (not_lt.2 hcount)]
    rw [List.length_cons] at hlength
    rw [sanitizeFailureReasons, if_neg (by omega)]
    refine bind_ok.2 ⟨reason, hreason, bind_ok.2 ⟨count, hsafe, ?_⟩⟩
    rw [if_neg hproto, ih (fun entry hentry => h entry (List.mem_cons_of_mem _ hentry))
      (by rw [List.length_append, List.length_singleton]; omega), List.append_assoc]
    rfl

theorem kept_of_sanitizeFailureReasons {kept entries out : Tally}
    (h : sanitizeFailureReasons kept entries = .ok out) (hkept : ∀ entry ∈ kept, KeptReason entry)
    (hlength : kept.length ≤ 100) : (∀ entry ∈ out, KeptReason entry) ∧ out.length ≤ 100 := by
  induction entries generalizing kept with
  | nil =>
    obtain rfl := Except.ok.inj h
    exact ⟨hkept, hlength⟩
  | cons entry entries ih =>
    obtain ⟨reason, count⟩ := entry
    rw [sanitizeFailureReasons] at h
    split at h
    · cases h
    · rename_i hfew
      obtain ⟨reason', hreason, hrest⟩ := bind_ok.1 h
      obtain ⟨count', hcount, hkeeps⟩ := bind_ok.1 hrest
      have htext : Storable 128 reason := passes_textValue.1 ⟨reason', hreason⟩
      obtain rfl := textValue_ok hreason
      have hsafe : count' = count ∧ count ≤ 9007199254740991 := by
        unfold safeCount at hcount
        split at hcount
        · cases hcount
        · rename_i hle
          exact ⟨(Except.ok.inj hcount).symm, not_lt.1 hle⟩
      obtain ⟨rfl, hle⟩ := hsafe
      by_cases hproto : reason' = "__proto__"
      · rw [if_pos hproto] at hkeeps
        exact ih hkeeps hkept hlength
      · rw [if_neg hproto] at hkeeps
        refine ih hkeeps (fun entry hentry => ?_) ?_
        · rcases List.mem_append.1 hentry with hentry | hentry
          · exact hkept entry hentry
          · rw [List.mem_singleton.1 hentry]
            exact ⟨htext, hle, hproto⟩
        · rw [List.length_append, List.length_singleton]
          omega

theorem stable_sanitizeFailureReasons : Stable (sanitizeFailureReasons []) := by
  intro entries out h
  have hkept := kept_of_sanitizeFailureReasons h (fun entry hentry => absurd hentry List.not_mem_nil)
    (Nat.zero_le 100)
  rw [sanitizeFailureReasons_of_kept hkept.1 (by rw [List.length_nil, Nat.zero_add]; exact hkept.2),
    List.nil_append]

theorem stable_sanitizeCompleteness : Stable sanitizeCompleteness := by
  intro x y h
  obtain ⟨_, hcounts, h⟩ := bind_ok.1 h
  split at h
  · cases h
  · rename_i hunresolved
    obtain ⟨reasons, hreasons, h⟩ := bind_ok.1 h
    split at h
    · cases h
    · rename_i hincomplete
      obtain ⟨unresolved, hids, h⟩ := bind_ok.1 h
      obtain ⟨incomplete, hmetadata, h⟩ := bind_ok.1 h
      have hsame : unresolved = x.unresolvedReleaseIds := mapM_checked (fun _ _ => textValue_ok) hids
      have hsame' : incomplete = x.metadataIncompleteReleaseIds :=
        optionMapM_checked (fun _ _ => mapM_checked fun _ _ => textValue_ok) hmetadata
      obtain rfl := Except.ok.inj h
      subst hsame hsame'
      refine bind_ok.2 ⟨(), hcounts, ?_⟩
      dsimp only
      rw [if_neg hunresolved]
      refine bind_ok.2 ⟨reasons, stable_sanitizeFailureReasons _ _ hreasons, ?_⟩
      rw [if_neg hincomplete]
      exact bind_ok.2 ⟨_, hids, bind_ok.2 ⟨_, hmetadata, rfl⟩⟩

/-! ### References -/

/-- The language reads the dashboard URL that it writes, also where it has written anew what is kept of
the parameters. -/
structure DashboardPlatform.Faithful (D : DashboardPlatform) : Prop where
  platform : D.toPlatform.Faithful
  url : ∀ text url, D.parseDashboard text = some url → url.protocol = "https:" →
    D.parseDashboard url.href = some url
  params : ∀ text url (kept : String → Bool), D.parseDashboard text = some url → url.protocol = "https:" →
    D.parseDashboard (url.setParams D (url.searchParams.filter fun param => kept param.1)).href =
      some (url.setParams D (url.searchParams.filter fun param => kept param.1))
  urlText : ∀ text url, D.parseDashboard text = some url → url.protocol = "https:" →
    isBlank url.href = false ∧ hasControlCharacter url.href true = false

/-- What the deletions leave is what would be written at once. -/
theorem foldl_deleteParam (keys : List String) (url : DashboardUrl) :
    keys.foldl (fun url key => if !isPermitted key then url.deleteParam D key else url) url =
      if ∀ key ∈ keys, isPermitted key = true then url
      else url.setParams D (url.searchParams.filter fun param => isPermitted param.1 || !keys.contains param.1) := by
  induction keys generalizing url with
  | nil => simp
  | cons key keys ih =>
    rw [List.foldl_cons, ih]
    by_cases hkey : isPermitted key = true
    · have hsame : ∀ param : String × String, (isPermitted param.1 || !(key :: keys).contains param.1) =
          (isPermitted param.1 || !keys.contains param.1) := by
        intro param
        by_cases hparam : param.1 = key <;> simp [hparam, hkey]
      simp only [hsame, hkey, List.forall_mem_cons, true_and, Bool.not_true, Bool.false_eq_true, if_false]
    · have hsame : ∀ param : String × String, (isPermitted param.1 || !(key :: keys).contains param.1) =
          ((isPermitted param.1 || !keys.contains param.1) && decide (param.1 ≠ key)) := by
        intro param
        by_cases hparam : param.1 = key <;> simp [hparam, hkey]
      rw [Bool.not_eq_true] at hkey
      have hdeleted : url.deleteParam D key = url.setParams D (url.searchParams.filter (·.1 ≠ key)) := rfl
      simp only [hkey, hsame, hdeleted, List.forall_mem_cons, Bool.false_eq_true, false_and, if_false,
        Bool.not_false, if_true]
      split
      · rename_i hkeys
        refine congrArg (url.setParams D) (List.filter_congr fun param _ => ?_)
        by_cases hparam : param.1 ∈ keys <;> simp [hparam, hkeys]
      · rw [← List.filter_filter]
        rfl

theorem DashboardUrl.permitted_eq (url : DashboardUrl) :
    url.permitted D = if ∀ param ∈ url.searchParams, isPermitted param.1 = true then url
      else url.setParams D (url.searchParams.filter fun param => isPermitted param.1) := by
  have hlisted : ∀ param ∈ url.searchParams, (isPermitted param.1 ||
      !(url.searchParams.map Prod.fst).contains param.1) = isPermitted param.1 := by
    intro param hparam
    have hmem : param.1 ∈ url.searchParams.map Prod.fst := List.mem_map_of_mem hparam
    simp [hmem]
  rw [permitted, foldl_deleteParam, List.filter_congr hlisted]
  simp only [List.forall_mem_map]

/-- Nothing is deleted a second time. -/
theorem DashboardUrl.permitted_permitted (url : DashboardUrl) :
    (url.permitted D).permitted D = url.permitted D := by
  rw [permitted_eq (url.permitted D), if_pos]
  rw [permitted_eq]
  split
  · assumption
  · exact fun param hparam => (List.mem_filter.1 hparam).2

theorem safeDashboardUrl_ok {value name t : String} :
    safeDashboardUrl D value name = .ok t ↔ Storable 8192 value ∧ ∃ url, D.parseDashboard value = some url ∧
      t = (url.permitted D).href ∧ url.protocol = "https:" ∧ url.username = "" ∧ url.password = "" ∧
      isDistroKidHost url.hostname = true := by
  constructor
  · intro h
    obtain ⟨input, hinput, h⟩ := bind_ok.1 h
    have htext : Storable 8192 value := passes_textValue.1 ⟨input, hinput⟩
    rw [textValue_ok hinput] at h
    refine ⟨htext, ?_⟩
    split at h
    · cases h
    · rename_i url hurl
      split at h
      · cases h
      · rename_i hsafe
        split at h
        · cases h
        · rename_i hhost
          simp only [Bool.or_eq_true, decide_eq_true_eq, not_or, ne_eq, not_not] at hsafe
          simp only [Bool.not_eq_true', Bool.not_eq_false] at hhost
          exact ⟨url, hurl, (Except.ok.inj h).symm, hsafe.1.1, hsafe.1.2, hsafe.2, hhost⟩
  · rintro ⟨htext, url, hurl, rfl, hprotocol, husername, hpassword, hhost⟩
    obtain ⟨input, hinput⟩ := passes_textValue.2 htext
    refine bind_ok.2 ⟨input, hinput, ?_⟩
    rw [textValue_ok hinput, hurl]
    simp only [hprotocol, husername, hpassword, hhost, ne_eq, not_true_eq_false, decide_false,
      Bool.or_self, Bool.false_eq_true, if_false, Bool.not_true]

/-- The dashboard URL is not too long for a row: as it was read, or as it is written without the
parameters that are not permitted, if it has such. -/
def UrlFits (D : DashboardPlatform) (url : DashboardUrl) : Prop :=
  utf16Length (url.resource ++ if ∀ param ∈ url.searchParams, isPermitted param.1 = true then url.query
    else D.writeParams (url.searchParams.filter fun param => isPermitted param.1)) ≤ 8192

def RefFits (D : DashboardPlatform) (record : ReleaseRefRecord) : Prop :=
  ∀ url, D.parseDashboard record.dashboardUrl = some url → UrlFits D url

theorem safeDashboardUrl_again (hD : D.Faithful) {value name t : String}
    (h : safeDashboardUrl D value name = .ok t) :
    safeDashboardUrl D t name = .ok t ↔ ∀ url, D.parseDashboard value = some url → UrlFits D url := by
  obtain ⟨-, url, hurl, rfl, hsafe⟩ := safeDashboardUrl_ok.1 h
  have hwritten : D.parseDashboard (url.permitted D).href = some (url.permitted D) := by
    rw [DashboardUrl.permitted_eq]
    split
    · exact hD.url value url hurl hsafe.1
    · exact hD.params value url isPermitted hurl hsafe.1
  have hparts : (url.permitted D).protocol = url.protocol ∧ (url.permitted D).username = url.username ∧
      (url.permitted D).password = url.password ∧ (url.permitted D).hostname = url.hostname := by
    rw [DashboardUrl.permitted_eq]
    split <;> exact ⟨rfl, rfl, rfl, rfl⟩
  rw [← hparts.1, ← hparts.2.1, ← hparts.2.2.1, ← hparts.2.2.2] at hsafe
  have hlength : utf16Length (url.permitted D).href ≤ 8192 ↔ UrlFits D url := by
    rw [UrlFits, DashboardUrl.permitted_eq]
    split <;> rfl
  obtain ⟨hblank, hcontrol⟩ := hD.urlText _ _ hwritten hsafe.1
  rw [safeDashboardUrl_ok]
  constructor
  · rintro ⟨htext, -⟩ url' hurl'
    obtain rfl := Option.some.inj (hurl.symm.trans hurl')
    exact hlength.1 htext.short
  · intro hfits
    refine ⟨⟨hblank, hlength.2 (hfits url hurl), hcontrol⟩, _, hwritten, ?_, hsafe⟩
    rw [DashboardUrl.permitted_permitted]

theorem sanitizeReleaseRef_again (hD : D.Faithful) {record record' : ReleaseRefRecord}
    (h : sanitizeReleaseRef D record = .ok record') :
    sanitizeReleaseRef D record' = .ok record' ↔ RefFits D record := by
  obtain ⟨id, hid, h⟩ := bind_ok.1 h
  obtain ⟨url, hurl, h⟩ := bind_ok.1 h
  obtain ⟨title, htitle, h⟩ := bind_ok.1 h
  obtain ⟨artist, hartist, h⟩ := bind_ok.1 h
  obtain ⟨count, hcount, h⟩ := bind_ok.1 h
  obtain rfl := Except.ok.inj h
  unfold RefFits
  rw [← safeDashboardUrl_again hD hurl]
  constructor
  · intro hagain
    obtain ⟨id', -, hagain⟩ := bind_ok.1 hagain
    obtain ⟨url', hurl', hagain⟩ := bind_ok.1 hagain
    obtain ⟨title', -, hagain⟩ := bind_ok.1 hagain
    obtain ⟨artist', -, hagain⟩ := bind_ok.1 hagain
    obtain ⟨count', -, hagain⟩ := bind_ok.1 hagain
    have hsame : url' = url := congrArg ReleaseRefRecord.dashboardUrl (Except.ok.inj hagain)
    rwa [hsame] at hurl'
  · intro hurl'
    refine bind_ok.2 ⟨id, stable_textValue _ _ _ _ hid, bind_ok.2 ⟨url, hurl', ?_⟩⟩
    refine bind_ok.2 ⟨title, (stable_textValue _ _).option _ _ htitle, ?_⟩
    refine bind_ok.2 ⟨artist, (stable_textValue _ _).option _ _ hartist, ?_⟩
    exact bind_ok.2 ⟨count, (stable_positiveInteger _).option _ _ hcount, rfl⟩

/-! ### Tombstones -/

/-- A check of text that never answers the empty one, for a value that may be left out. -/
theorem Stable.unlessEmpty {check : String → Checked String} (hstable : Stable check)
    (hne : ∀ x y, check x = .ok y → y ≠ "") : Stable (Checkpoint.unlessEmpty check) := by
  intro x y h
  unfold Checkpoint.unlessEmpty at h ⊢
  cases hx : x.filter (· ≠ "") with
  | none =>
    rw [hx] at h
    obtain rfl := Except.ok.inj h
    rfl
  | some v =>
    rw [hx] at h
    obtain ⟨w, hw, hsome⟩ := bind_ok.1 h
    obtain rfl := Except.ok.inj hsome
    have hfilter : (some w).filter (fun t => t ≠ "") = some w := by
      simp [Option.filter, hne v w hw]
    rw [hfilter]
    exact bind_ok.2 ⟨w, hstable v w hw, rfl⟩

theorem ne_empty_of_textValue {value name v : String} {max : ℕ} (h : textValue value name max = .ok v) :
    v ≠ "" := by
  have htext : Storable max value := passes_textValue.1 ⟨v, h⟩
  rw [textValue_ok h]
  rintro rfl
  exact absurd htext.text (by decide)

theorem stable_unlessEmptyText (name : String) (max : ℕ) :
    Stable (unlessEmpty fun v => textValue v name max) :=
  (stable_textValue name max).unlessEmpty fun _ _ => ne_empty_of_textValue

theorem stable_unlessEmptyDate (hP : P.Faithful) (name : String) :
    Stable (unlessEmpty fun v => isoTimestamp P v name) := by
  refine (stable_isoTimestamp hP name).unlessEmpty fun x y h => ?_
  obtain ⟨epoch, hepoch, rfl⟩ := isoTimestamp_ok h
  exact ne_empty_of_textValue (hP.dateText x epoch name hepoch)

theorem unlessEmpty_none_of_checked {check : String → Checked String}
    (hchecked : ∀ x y, check x = .ok y → y = x) {value v : Option String}
    (h : unlessEmpty check value = .ok v) : v = value.filter (· ≠ "") :=
  optionMapM_checked hchecked h

theorem stable_sanitizeFinalizeJob (hP : P.Faithful) (binding : SnapshotCheckpointBinding) :
    Stable fun job => sanitizeFinalizeJob P job binding := by
  intro job job' h
  dsimp only at h ⊢
  unfold sanitizeFinalizeJob at h
  split at h
  · cases h
  · split at h
    · cases h
    · rename_i hbinding hsealed
      obtain ⟨consentId, hconsent, h⟩ := bind_ok.1 h
      obtain ⟨workspace, hworkspace, h⟩ := bind_ok.1 h
      obtain ⟨session, hsession, h⟩ := bind_ok.1 h
      obtain ⟨expires, hexpires, h⟩ := bind_ok.1 h
      obtain ⟨deadline, hdeadline, h⟩ := bind_ok.1 h
      obtain ⟨schema, hschema, h⟩ := bind_ok.1 h
      obtain ⟨completeness, hcompleteness, h⟩ := bind_ok.1 h
      cases hpass : job.pass with
      | none =>
        rw [hpass] at h
        cases h
      | some pass =>
        rw [hpass] at h
        obtain ⟨pass', hpass', h⟩ := bind_ok.1 h
        obtain rfl := Except.ok.inj h
        have hkept : session = job.steelSessionId.filter (· ≠ "") :=
          unlessEmpty_none_of_checked (fun _ _ => textValue_ok) hsession
        have hsealed' : ¬ (session.any fun handle => handle ≠ "" && !isSealedHandle handle) = true := by
          rw [hkept]
          cases hhandle : job.steelSessionId with
          | none => simp
          | some handle =>
            rw [hhandle] at hsealed
            by_cases hempty : handle = ""
            · simp [Option.filter, hempty]
            · simpa [Option.filter, hempty] using hsealed
        unfold sanitizeFinalizeJob
        rw [if_neg (by simp [SnapshotRef.binding]), if_neg hsealed']
        refine bind_ok.2 ⟨consentId, stable_unlessEmptyText _ _ _ _ hconsent, ?_⟩
        refine bind_ok.2 ⟨workspace, stable_unlessEmptyText _ _ _ _ hworkspace, ?_⟩
        refine bind_ok.2 ⟨session, stable_unlessEmptyText _ _ _ _ hsession, ?_⟩
        refine bind_ok.2 ⟨expires, stable_unlessEmptyDate hP _ _ _ hexpires, ?_⟩
        refine bind_ok.2 ⟨deadline, stable_unlessEmptyDate hP _ _ _ hdeadline, ?_⟩
        refine bind_ok.2 ⟨schema, (stable_safeCount _).option _ _ hschema, ?_⟩
        refine bind_ok.2 ⟨completeness, stable_sanitizeCompleteness _ _ hcompleteness, ?_⟩
        exact bind_ok.2 ⟨pass', stable_safeCount _ _ _ hpass', rfl⟩

/-- The reason of a cancellation is not too long for a row once each secret in it is written as
ten characters. -/
def ReasonFits : SnapshotTerminalTombstone → Prop
  | .cancelled _ reason =>
    utf16Length reason + 10 * (secrets reason).length ≤ 512 + ((secrets reason).map utf16Length).sum
  | .terminal .. => True

theorem sanitizeTombstone_again (hP : P.Faithful) {binding : SnapshotCheckpointBinding}
    {t t' : SnapshotTerminalTombstone} (h : sanitizeTombstone P t binding = .ok t') :
    sanitizeTombstone P t' binding = .ok t' ↔ ReasonFits t := by
  cases t with
  | cancelled createdAt reason =>
    obtain ⟨created, hcreated, h⟩ := bind_ok.1 h
    obtain ⟨text, htext, h⟩ := bind_ok.1 h
    obtain rfl := Except.ok.inj h
    have hstorable : Storable 512 reason := passes_textValue.1 ⟨text, htext⟩
    rw [textValue_ok htext]
    have hlength := utf16Length_redact reason
    have hfits : ReasonFits (.cancelled createdAt reason) ↔ utf16Length (redact reason) ≤ 512 := by
      unfold ReasonFits
      dsimp only
      omega
    rw [hfits]
    constructor
    · intro hagain
      obtain ⟨created', -, hagain⟩ := bind_ok.1 hagain
      obtain ⟨text', htext', -⟩ := bind_ok.1 hagain
      have hstorable' : Storable 512 (redact reason) := passes_textValue.1 ⟨text', htext'⟩
      exact hstorable'.short
    · intro hshort
      have hstorable' : Storable 512 (redact reason) :=
        ⟨isBlank_redact hstorable.text, hshort, hasControlCharacter_redact hstorable.plain⟩
      obtain ⟨text', htext'⟩ := passes_textValue.2 hstorable'
      refine bind_ok.2 ⟨created, stable_isoTimestamp hP _ _ _ hcreated, bind_ok.2 ⟨text', htext', ?_⟩⟩
      rw [textValue_ok htext', redact_redact]
      rfl
  | terminal job createdAt reason =>
    obtain ⟨job', hjob, h⟩ := bind_ok.1 h
    obtain ⟨created, hcreated, h⟩ := bind_ok.1 h
    obtain ⟨reason', hreason, h⟩ := bind_ok.1 h
    obtain rfl := Except.ok.inj h
    refine iff_of_true ?_ trivial
    refine bind_ok.2 ⟨job', stable_sanitizeFinalizeJob hP binding _ _ hjob, ?_⟩
    refine bind_ok.2 ⟨created, stable_isoTimestamp hP _ _ _ hcreated, ?_⟩
    exact bind_ok.2 ⟨reason', stable_unlessEmptyText _ _ _ _ hreason, rfl⟩

/-! ### All of them -/

/-- What was accepted is accepted again and comes back unchanged exactly if it is not too long by
then: the URL of a dashboard or an artwork as the language writes it, or the reason of a
cancellation as it is redacted. -/
theorem sanitizers_again_iff (hD : D.Faithful) :
    (∀ record record', sanitizeReleaseRef D record = .ok record' →
      (sanitizeReleaseRef D record' = .ok record' ↔ RefFits D record)) ∧
    (∀ outcome outcome', sanitizeOutcome D.toPlatform outcome = .ok outcome' →
      (sanitizeOutcome D.toPlatform outcome' = .ok outcome' ↔ Fits D.toPlatform outcome)) ∧
    ∀ binding t t', sanitizeTombstone D.toPlatform t binding = .ok t' →
      (sanitizeTombstone D.toPlatform t' binding = .ok t' ↔ ReasonFits t) := by
  refine ⟨fun record record' h => sanitizeReleaseRef_again hD h, fun outcome outcome' h => ?_,
    fun binding t t' h => sanitizeTombstone_again hD.platform h⟩
  rw [← sanitizeOutcome_again hD.platform h]
  constructor
  · exact fun hsame => ⟨outcome', hsame⟩
  · rintro ⟨outcome'', hagain⟩
    rw [settles_sanitizeOutcome hD.platform.roundTrips _ _ _ h hagain] at hagain
    exact hagain

end Again

/-! ### A reference that is kept, and a reason that grows -/

/-- A dashboard of an album, with these parameters. -/
def albumUrl (query : String) (searchParams : List (String × String)) : DashboardUrl where
  protocol := "https:"
  username := ""
  password := ""
  hostname := "distrokid.com"
  resource := "https://distrokid.com/dashboard/album/"
  query := query
  searchParams := searchParams

/-- A dashboard with two parameters, and with what can be kept of them. -/
def albumUrls : List DashboardUrl :=
  [albumUrl "?albumuuid=A1&tab=songs" [("albumuuid", "A1"), ("tab", "songs")],
    albumUrl "?albumuuid=A1" [("albumuuid", "A1")], albumUrl "?tab=songs" [("tab", "songs")], albumUrl "" []]

/-- The sample platform with one dashboard. -/
def sampleDashboards : DashboardPlatform :=
  { samplePlatform with
    parseDashboard := fun t => albumUrls.find? (·.href = t)
    writeParams := fun params =>
      if params = [] then "" else "?" ++ "&".intercalate (params.map fun param => param.1 ++ "=" ++ param.2) }

theorem mem_albumUrls {text : String} {url : DashboardUrl}
    (h : sampleDashboards.parseDashboard text = some url) : url ∈ albumUrls := by
  have hfirst : albumUrls.find? (·.href = text) = some url := h
  exact List.mem_of_find?_eq_some hfirst

theorem faithful_sampleDashboards : sampleDashboards.Faithful where
  platform := faithful_samplePlatform
  url text url h _ := by
    have hall : ∀ url ∈ albumUrls, sampleDashboards.parseDashboard url.href = some url := by decide +kernel
    exact hall url (mem_albumUrls h)
  params text url kept h _ := by
    -- What is kept depends on two answers only.
    have hall : ∀ url ∈ albumUrls, ∀ album tab : Bool,
        let written := url.setParams sampleDashboards
          (url.searchParams.filter fun param => if param.1 = "albumuuid" then album else tab)
        sampleDashboards.parseDashboard written.href = some written := by
      decide +kernel
    have hmem : url ∈ albumUrls := mem_albumUrls h
    have hkept : ∀ param ∈ url.searchParams, kept param.1 =
        if param.1 = "albumuuid" then kept "albumuuid" else kept "tab" := by
      have hnames : ∀ url ∈ albumUrls, ∀ param ∈ url.searchParams, param.1 = "albumuuid" ∨ param.1 = "tab" := by
        decide
      intro param hparam
      rcases hnames url hmem param hparam with hname | hname <;> simp [hname]
    rw [List.filter_congr hkept]
    exact hall url hmem _ _
  urlText text url h _ := by
    have hall : ∀ url ∈ albumUrls, isBlank url.href = false ∧ hasControlCharacter url.href true = false := by
      decide +kernel
    exact hall url (mem_albumUrls h)

theorem sanitizers_again_sample :
    let record : ReleaseRefRecord :=
      ⟨"A1", "https://distrokid.com/dashboard/album/?albumuuid=A1&tab=songs", some "Song", none, some 1⟩
    let record' : ReleaseRefRecord := { record with dashboardUrl := "https://distrokid.com/dashboard/album/?albumuuid=A1" }
    sanitizeReleaseRef sampleDashboards record = .ok record' ∧
      sanitizeReleaseRef sampleDashboards record' = .ok record' := by
  intro record record'
  have haccepted : sanitizeReleaseRef sampleDashboards record = .ok record' := by decide +kernel
  refine ⟨haccepted, ((sanitizers_again_iff faithful_sampleDashboards).1 record record' haccepted).2 fun url hurl => ?_⟩
  have hfits : ∀ url ∈ sampleDashboards.parseDashboard record.dashboardUrl, UrlFits sampleDashboards url := by
    unfold UrlFits
    decide +kernel
  exact hfits url hurl

/-- A reason as long as is allowed, with sixty-four short secrets in it. -/
def leakyReason : String := String.ofList (List.replicate 64 "token=x ".toList).flatten

theorem storable_leakyReason : Storable 512 leakyReason := by
  have hlist : leakyReason.toList = (List.replicate 64 "token=x ".toList).flatten := String.toList_ofList
  refine ⟨?_, ?_, ?_⟩
  · unfold isBlank
    rw [hlist]
    decide +kernel
  · unfold utf16Length
    rw [hlist]
    decide +kernel
  · unfold hasControlCharacter
    rw [hlist]
    decide +kernel

theorem utf16Length_redact_leakyReason : utf16Length (redact leakyReason) = 704 := by
  unfold utf16Length redact leakyReason
  rw [String.toList_ofList, String.toList_ofList]
  decide +kernel

/-- Each secret is written longer than it was, and the sanitized tombstone is refused. -/
theorem sanitizeTombstone_grows :
    let binding : SnapshotCheckpointBinding := ⟨"s", "t", "c", "d"⟩
    let sanitized : SnapshotTerminalTombstone := .cancelled "2026-01-01T00:00:00.000Z" (redact leakyReason)
    sanitizeTombstone samplePlatform (.cancelled "2026-01-01T00:00:00.000Z" leakyReason) binding =
        .ok sanitized ∧
      ¬ Passes (sanitizeTombstone samplePlatform sanitized binding) := by
  intro binding sanitized
  have hdate : isoTimestamp samplePlatform "2026-01-01T00:00:00.000Z" "terminal createdAt" =
      .ok "2026-01-01T00:00:00.000Z" := by
    decide +kernel
  have hpassed : Passes (textValue leakyReason "cancellation reason" 512) :=
    passes_textValue.2 storable_leakyReason
  obtain ⟨text, htext⟩ := hpassed
  refine ⟨bind_ok.2 ⟨_, hdate, bind_ok.2 ⟨text, htext, ?_⟩⟩, fun hpasses => ?_⟩
  · rw [textValue_ok htext]
    rfl
  · obtain ⟨created, -, hreason⟩ := passes_bind.1 hpasses
    obtain ⟨text', htext', -⟩ := passes_bind.1 hreason
    have hshort := (passes_textValue.1 ⟨text', htext'⟩).short
    rw [utf16Length_redact_leakyReason] at hshort
    exact absurd hshort (by decide)

end CatalogSentinel.Checkpoint
