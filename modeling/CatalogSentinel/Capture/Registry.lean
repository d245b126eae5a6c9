import Mathlib.Algebra.Order.Ring.Unbundled.Rat
import Mathlib.Data.List.Induction
import CatalogSentinel.Data.Assoc

/-!
The endpoint registry: which endpoint of a distributor is used for what, and whether it is
healthy. A candidate is promoted once it has been read often enough, and demoted when reading
it fails or its schema drifts. A retired endpoint comes back through a drift.
-/

namespace CatalogSentinel.Capture

open CatalogSentinel.Data

inductive EndpointStatus
  | candidate | validating | active | degraded | retired
  deriving DecidableEq, Repr

inductive EndpointRole
  | catalogIndex | releaseDetails | trackIdentifiers | artwork | storeDeliveryStatus | lyricsStatus
  | creditsStatus
  deriving DecidableEq, Repr

structure RegistryScope where
  tenantId : String
  distributor : String
  deriving DecidableEq, Repr

/-- A profile, with its times as moments. -/
structure DistributorEndpointProfile where
  id : String
  tenantId : String
  distributor : String
  role : EndpointRole
  fingerprint : String
  method : String
  hostPattern : String
  pathPattern : String
  queryKeyShape : List String
  graphqlOperationName : Option String
  schemaHash : String
  schemaKeys : Option (List String)
  parserVersion : String
  candidateScore : ℚ
  successfulCaptures : ℕ
  failedCaptures : ℕ
  schemaDriftCount : Option ℕ
  status : EndpointStatus
  firstSeenAt : ℕ
  lastSeenAt : ℕ
  approvedAt : Option ℕ
  retiredAt : Option ℕ
  deriving DecidableEq, Repr

structure EndpointIdentity where
  method : String
  host : String
  pathPattern : String
  queryKeys : List String
  graphqlOperationName : Option String
  deriving DecidableEq, Repr

structure RankedCandidate where
  fingerprint : String
  identity : EndpointIdentity
  rank : ℚ
  schemaKeys : List String
  schemaHash : String
  deriving DecidableEq, Repr

/-! ### The store -/

def DistributorEndpointProfile.key (p : DistributorEndpointProfile) : String × String × String :=
  (p.tenantId, p.distributor, p.fingerprint)

/-- The rows of the store, by tenant, distributor and fingerprint. -/
abbrev EndpointRegistryStore := List DistributorEndpointProfile

def EndpointRegistryStore.get (rows : EndpointRegistryStore) (scope : RegistryScope) (fingerprint : String) :
    Option DistributorEndpointProfile :=
  get? DistributorEndpointProfile.key (scope.tenantId, scope.distributor, fingerprint) rows

def EndpointRegistryStore.list (rows : EndpointRegistryStore) (scope : RegistryScope) :
    List DistributorEndpointProfile :=
  rows.filter fun r => r.distributor = scope.distributor ∧ r.tenantId = scope.tenantId

def EndpointRegistryStore.put (rows : EndpointRegistryStore) (profile : DistributorEndpointProfile) :
    EndpointRegistryStore :=
  Data.put DistributorEndpointProfile.key profile rows

/-! ### The operations -/

def VALIDATION_CAPTURES_REQUIRED : ℕ := 3

def DEGRADE_AFTER_FAILURES : ℕ := 3

/-- An alert, of level `error` always. -/
structure Alert where
  code : String
  message : String
  fingerprint : String
  deriving DecidableEq, Repr

def newProfile (scope : RegistryScope) (candidate : RankedCandidate) (role : EndpointRole)
    (parserVersion : String) (now : ℕ) : DistributorEndpointProfile where
  id := s!"{scope.tenantId}:{scope.distributor}:" ++ String.ofList (candidate.fingerprint.toList.take 16)
  tenantId := scope.tenantId
  distributor := scope.distributor
  role := role
  fingerprint := candidate.fingerprint
  method := candidate.identity.method
  hostPattern := candidate.identity.host
  pathPattern := candidate.identity.pathPattern
  queryKeyShape := candidate.identity.queryKeys
  graphqlOperationName := candidate.identity.graphqlOperationName.filter (· ≠ "")
  schemaHash := candidate.schemaHash
  schemaKeys := some ((candidate.schemaKeys.filter (· ≠ "\x7bredacted\x7d")).take 60)
  parserVersion := parserVersion
  candidateScore := candidate.rank
  successfulCaptures := 0
  failedCaptures := 0
  schemaDriftCount := some 0
  status := .candidate
  firstSeenAt := now
  lastSeenAt := now
  approvedAt := none
  retiredAt := none

def observed (p : DistributorEndpointProfile) (candidate : RankedCandidate) (now : ℕ) :
    DistributorEndpointProfile :=
  { p with candidateScore := max p.candidateScore candidate.rank, lastSeenAt := now }

def succeeded (p : DistributorEndpointProfile) (schemaHashSeen : String) (now : ℕ) :
    DistributorEndpointProfile :=
  let successfulCaptures := p.successfulCaptures + 1
  let status := if p.status = .candidate then .validating else p.status
  let status :=
    if (p.status = .validating ∨ p.status = .degraded) ∧ successfulCaptures ≥ VALIDATION_CAPTURES_REQUIRED then
      .active
    else status
  { p with
    successfulCaptures, failedCaptures := 0, status, schemaHash := schemaHashSeen, lastSeenAt := now
    approvedAt := if status = .active ∧ p.approvedAt = none then some now else p.approvedAt }

def failed (p : DistributorEndpointProfile) (now : ℕ) : DistributorEndpointProfile :=
  let failedCaptures := p.failedCaptures + 1
  let status := if failedCaptures ≥ DEGRADE_AFTER_FAILURES ∧ p.status = .active then .degraded else p.status
  { p with failedCaptures, status, lastSeenAt := now }

def drifted (p : DistributorEndpointProfile) (now : ℕ) : DistributorEndpointProfile :=
  { p with
    status := .degraded, schemaDriftCount := some (p.schemaDriftCount.getD 0 + 1), lastSeenAt := now }

def retired (p : DistributorEndpointProfile) (now : ℕ) : DistributorEndpointProfile :=
  { p with status := .retired, retiredAt := some now }

variable (rows : EndpointRegistryStore) (scope : RegistryScope)

def observe (candidate : RankedCandidate) (role : EndpointRole) (parserVersion : String) (now : ℕ) :
    EndpointRegistryStore × DistributorEndpointProfile :=
  let profile :=
    match rows.get scope candidate.fingerprint with
    | some existing => observed existing candidate now
    | none => newProfile scope candidate role parserVersion now
  (rows.put profile, profile)

def recordSuccess (fingerprint schemaHashSeen : String) (now : ℕ) :
    EndpointRegistryStore × Option DistributorEndpointProfile :=
  match rows.get scope fingerprint with
  | none => (rows, none)
  | some p => (rows.put (succeeded p schemaHashSeen now), some (succeeded p schemaHashSeen now))

def recordFailure (fingerprint reason : String) (now : ℕ) :
    EndpointRegistryStore × Option DistributorEndpointProfile × List Alert :=
  match rows.get scope fingerprint with
  | none => (rows, none, [])
  | some p =>
    let next := failed p now
    let alerts :=
      if next.status = .degraded ∧ p.status = .active then
        [⟨"ENDPOINT_DEGRADED", s!"Endpoint degraded after {next.failedCaptures} failures: {reason}", fingerprint⟩]
      else []
    (rows.put next, some next, alerts)

/-- Nothing is written if the schema is the one that is known. -/
def recordSchemaDrift (fingerprint newSchemaHash : String) (now : ℕ) :
    EndpointRegistryStore × Option DistributorEndpointProfile × List Alert :=
  match rows.get scope fingerprint with
  | none => (rows, none, [])
  | some p =>
    if p.schemaHash = newSchemaHash then (rows, some p, [])
    else
      let message := s!"Schema drift on {p.method} {p.hostPattern}" ++ p.pathPattern ++
        s!" (parser {p.parserVersion}); endpoint marked DEGRADED"
      (rows.put (drifted p now), some (drifted p now), [⟨"SOURCE_SCHEMA_CHANGED", message, fingerprint⟩])

def retire (fingerprint : String) (now : ℕ) : EndpointRegistryStore :=
  match rows.get scope fingerprint with
  | none => rows
  | some p => rows.put (retired p now)

def statusRank : EndpointStatus → ℕ
  | .active => 3
  | .validating => 2
  | .candidate => 1
  | .degraded | .retired => 0

/-- `a` may stay before `b`. -/
def ranksBefore (a b : DistributorEndpointProfile) : Bool :=
  statusRank a.status > statusRank b.status ||
    (statusRank a.status = statusRank b.status && a.candidateScore ≥ b.candidateScore)

/-- The endpoint that is used for a role. -/
def activeFor (role : EndpointRole) : Option DistributorEndpointProfile :=
  (((rows.list scope).filter fun p => p.role = role ∧ p.status ≠ .retired).mergeSort ranksBefore).head?

/-! ### Runs -/

inductive Operation
  | observe (candidate : RankedCandidate) (role : EndpointRole) (parserVersion : String)
  | recordSuccess (fingerprint schemaHashSeen : String)
  | recordFailure (fingerprint reason : String)
  | recordSchemaDrift (fingerprint newSchemaHash : String)
  | retire (fingerprint : String)
  deriving DecidableEq, Repr

/-- A call on the registry of a scope, at a moment. -/
structure Call where
  scope : RegistryScope
  now : ℕ
  operation : Operation
  deriving DecidableEq, Repr

def Operation.fingerprint : Operation → String
  | observe candidate _ _ => candidate.fingerprint
  | recordSuccess fingerprint _ => fingerprint
  | recordFailure fingerprint _ => fingerprint
  | recordSchemaDrift fingerprint _ => fingerprint
  | retire fingerprint => fingerprint

def perform (rows : EndpointRegistryStore) (call : Call) : EndpointRegistryStore :=
  match call.operation with
  | .observe candidate role parserVersion => (observe rows call.scope candidate role parserVersion call.now).1
  | .recordSuccess fingerprint hash => (recordSuccess rows call.scope fingerprint hash call.now).1
  | .recordFailure fingerprint reason => (recordFailure rows call.scope fingerprint reason call.now).1
  | .recordSchemaDrift fingerprint hash => (recordSchemaDrift rows call.scope fingerprint hash call.now).1
  | .retire fingerprint => retire rows call.scope fingerprint call.now

/-- The store after the calls, from an empty one. -/
def run (calls : List Call) : EndpointRegistryStore := calls.foldl perform []

/-- What a call makes of the profile that it is about. -/
def Call.effect (call : Call) (p : DistributorEndpointProfile) : DistributorEndpointProfile :=
  match call.operation with
  | .observe candidate _ _ => observed p candidate call.now
  | .recordSuccess _ hash => succeeded p hash call.now
  | .recordFailure _ _ => failed p call.now
  | .recordSchemaDrift _ hash => if p.schemaHash = hash then p else drifted p call.now
  | .retire _ => retired p call.now

/-- What a call writes where there is no profile. -/
def Call.creates (call : Call) : Option DistributorEndpointProfile :=
  match call.operation with
  | .observe candidate role parserVersion => some (newProfile call.scope candidate role parserVersion call.now)
  | _ => none

def Call.key (call : Call) : String × String × String :=
  (call.scope.tenantId, call.scope.distributor, call.operation.fingerprint)

theorem effect_key (call : Call) (p : DistributorEndpointProfile) : (call.effect p).key = p.key := by
  unfold Call.effect
  cases call.operation with
  | recordSchemaDrift _ hash =>
    dsimp only
    split <;> rfl
  | _ => rfl

/-- A call writes one profile at most, and does nothing where it would write what is there. -/
theorem perform_cases (rows : EndpointRegistryStore) (call : Call) :
    (∃ p, get? DistributorEndpointProfile.key call.key rows = some p ∧
      (perform rows call = rows.put (call.effect p) ∨ perform rows call = rows ∧ call.effect p = p)) ∨
    get? DistributorEndpointProfile.key call.key rows = none ∧
      ((∃ p, call.creates = some p ∧ perform rows call = rows.put p) ∨
        call.creates = none ∧ perform rows call = rows) := by
  obtain ⟨scope, now, operation⟩ := call
  cases hget : get? DistributorEndpointProfile.key (Call.mk scope now operation).key rows with
  | none =>
    refine .inr ⟨rfl, ?_⟩
    cases operation with
    | observe candidate role parserVersion =>
      refine .inl ⟨_, rfl, ?_⟩
      have hrow : rows.get scope candidate.fingerprint = none := hget
      simp only [perform, observe, hrow]
    | recordSuccess fingerprint hash =>
      have hrow : rows.get scope fingerprint = none := hget
      exact .inr ⟨rfl, by simp only [perform, recordSuccess, hrow]⟩
    | recordFailure fingerprint reason =>
      have hrow : rows.get scope fingerprint = none := hget
      exact .inr ⟨rfl, by simp only [perform, recordFailure, hrow]⟩
    | recordSchemaDrift fingerprint hash =>
      have hrow : rows.get scope fingerprint = none := hget
      exact .inr ⟨rfl, by simp only [perform, recordSchemaDrift, hrow]⟩
    | retire fingerprint =>
      have hrow : rows.get scope fingerprint = none := hget
      exact .inr ⟨rfl, by simp only [perform, retire, hrow]⟩
  | some p =>
    refine .inl ⟨p, rfl, ?_⟩
    cases operation with
    | observe candidate role parserVersion =>
      have hrow : rows.get scope candidate.fingerprint = some p := hget
      exact .inl (by simp only [perform, observe, hrow, Call.effect])
    | recordSuccess fingerprint hash =>
      have hrow : rows.get scope fingerprint = some p := hget
      exact .inl (by simp only [perform, recordSuccess, hrow, Call.effect])
    | recordFailure fingerprint reason =>
      have hrow : rows.get scope fingerprint = some p := hget
      exact .inl (by simp only [perform, recordFailure, hrow, Call.effect])
    | recordSchemaDrift fingerprint hash =>
      have hrow : rows.get scope fingerprint = some p := hget
      simp only [perform, recordSchemaDrift, hrow, Call.effect]
      split
      · exact .inr ⟨rfl, rfl⟩
      · exact .inl rfl
    | retire fingerprint =>
      have hrow : rows.get scope fingerprint = some p := hget
      exact .inl (by simp only [perform, retire, hrow, Call.effect])

theorem get?_perform (rows : EndpointRegistryStore) (call : Call) (k : String × String × String) :
    get? DistributorEndpointProfile.key k (perform rows call) =
      if call.key = k then ((get? DistributorEndpointProfile.key k rows).map call.effect).or call.creates
      else get? DistributorEndpointProfile.key k rows := by
  obtain ⟨p, hp, h⟩ | ⟨hnone, h⟩ := perform_cases rows call
  · have hkey : (call.effect p).key = call.key := (effect_key call p).trans (key_of_get? hp)
    obtain h | ⟨h, hsame⟩ := h
    · rw [h, EndpointRegistryStore.put, get?_put, hkey]
      split
      · rename_i hk
        rw [← hk, hp]
        rfl
      · rfl
    · rw [h]
      split
      · rename_i hk
        rw [← hk, hp, Option.map_some, hsame]
        rfl
      · rfl
  · obtain ⟨p, hp, h⟩ | ⟨hcreates, h⟩ := h
    · have hkey : p.key = call.key := by
        obtain ⟨scope, now, operation⟩ := call
        cases operation <;> cases hp
        rfl
      rw [h, EndpointRegistryStore.put, get?_put, hkey]
      split
      · rename_i hk
        rw [← hk, hnone, hp]
        rfl
      · rfl
    · rw [h, hcreates]
      split
      · rename_i hk
        rw [← hk, hnone]
        rfl
      · rfl

theorem nodup_perform {rows : EndpointRegistryStore} (h : (rows.map DistributorEndpointProfile.key).Nodup)
    (call : Call) : ((perform rows call).map DistributorEndpointProfile.key).Nodup := by
  obtain ⟨p, -, heq | ⟨heq, -⟩⟩ | ⟨-, ⟨p, -, heq⟩ | ⟨-, heq⟩⟩ := perform_cases rows call
  · rw [heq]
    exact nodup_put h
  · rw [heq]
    exact h
  · rw [heq]
    exact nodup_put h
  · rw [heq]
    exact h

theorem run_append (calls more : List Call) : run (calls ++ more) = more.foldl perform (run calls) :=
  List.foldl_append

theorem run_concat (calls : List Call) (call : Call) : run (calls ++ [call]) = perform (run calls) call :=
  run_append calls [call]

/-- There is one profile for a tenant, a distributor and a fingerprint. -/
theorem nodup_run (calls : List Call) : ((run calls).map DistributorEndpointProfile.key).Nodup := by
  induction calls using List.reverseRecOn with
  | nil => exact List.nodup_nil
  | append_singleton calls call ih =>
    rw [run_concat]
    exact nodup_perform ih call

/-! ### Promotion -/

/-- An active endpoint has been read often enough, and approved. -/
def Promoted (p : DistributorEndpointProfile) : Prop :=
  p.status = .active → VALIDATION_CAPTURES_REQUIRED ≤ p.successfulCaptures ∧ p.approvedAt.isSome

theorem promoted_succeeded {p : DistributorEndpointProfile} (h : Promoted p) (hash : String) (now : ℕ) :
    Promoted (succeeded p hash now) := by
  intro hactive
  unfold succeeded at hactive ⊢
  dsimp only at hactive ⊢
  refine ⟨?_, ?_⟩
  · split at hactive
    · rename_i hpromoted
      exact hpromoted.2
    · split at hactive
      · cases hactive
      · exact (h hactive).1.trans (Nat.le_succ _)
  · rw [hactive]
    split
    · rfl
    · rename_i hne
      exact Option.isSome_iff_ne_none.2 fun hnone => hne ⟨rfl, hnone⟩

/-- What a call makes of a promoted profile is promoted. -/
theorem promoted_effect {p : DistributorEndpointProfile} (h : Promoted p) (call : Call) :
    Promoted (call.effect p) := by
  unfold Call.effect
  cases call.operation with
  | observe candidate _ _ => exact h
  | recordSuccess _ hash => exact promoted_succeeded h hash call.now
  | recordFailure _ _ =>
    intro hactive
    unfold failed at hactive ⊢
    dsimp only at hactive ⊢
    split at hactive
    · cases hactive
    · exact h hactive
  | recordSchemaDrift _ hash =>
    dsimp only
    split
    · exact h
    · exact nofun
  | retire _ => exact nofun

theorem promoted_creates {call : Call} {p : DistributorEndpointProfile} (h : call.creates = some p) :
    Promoted p := by
  obtain ⟨scope, now, operation⟩ := call
  cases operation <;> cases h
  exact nofun

theorem promoted_perform {rows : EndpointRegistryStore} (h : ∀ p ∈ rows, Promoted p) (call : Call) :
    ∀ p ∈ perform rows call, Promoted p := by
  intro q hq
  obtain ⟨p, hp, heq | ⟨heq, -⟩⟩ | ⟨-, ⟨p, hp, heq⟩ | ⟨-, heq⟩⟩ := perform_cases rows call
  · rw [heq] at hq
    obtain rfl | hq := mem_put hq
    · exact promoted_effect (h p (mem_of_get? hp)) call
    · exact h q hq
  · exact h q (heq ▸ hq)
  · rw [heq] at hq
    obtain rfl | hq := mem_put hq
    · exact promoted_creates hp
    · exact h q hq
  · exact h q (heq ▸ hq)

theorem promoted_run (calls : List Call) : ∀ p ∈ run calls, Promoted p := by
  induction calls using List.reverseRecOn with
  | nil =>
    intro p hp
    exact absurd hp List.not_mem_nil
  | append_singleton calls call ih =>
    rw [run_concat]
    exact promoted_perform ih call

/-! ### Retirement -/

/-- A drift of an endpoint that has been retired. -/
def Revives (rows : EndpointRegistryStore) (call : Call) : Prop :=
  ∃ fingerprint hash p, call.operation = .recordSchemaDrift fingerprint hash ∧
    rows.get call.scope fingerprint = some p ∧ p.status = .retired ∧ p.schemaHash ≠ hash

/-- Any other call leaves a retired endpoint retired. -/
theorem retired_effect {p : DistributorEndpointProfile} (h : p.status = .retired) {call : Call}
    (hdrift : ∀ fingerprint hash, call.operation = .recordSchemaDrift fingerprint hash → p.schemaHash = hash) :
    (call.effect p).status = .retired := by
  unfold Call.effect
  cases hoperation : call.operation with
  | observe candidate _ _ => exact h
  | recordSuccess _ hash => simp [succeeded, h]
  | recordFailure _ _ => simp [failed, h]
  | recordSchemaDrift fingerprint hash =>
    dsimp only
    rw [if_pos (hdrift fingerprint hash hoperation)]
    exact h
  | retire _ => rfl

/-- The endpoint of this key is retired. -/
def IsRetired (rows : EndpointRegistryStore) (k : String × String × String) : Prop :=
  ∃ p, get? DistributorEndpointProfile.key k rows = some p ∧ p.status = .retired

theorem isRetired_perform {rows : EndpointRegistryStore} {k : String × String × String} (h : IsRetired rows k)
    {call : Call} (hcall : ¬Revives rows call) : IsRetired (perform rows call) k := by
  obtain ⟨p, hp, hretired⟩ := h
  by_cases hk : call.key = k
  · refine ⟨call.effect p, ?_, ?_⟩
    · rw [get?_perform, if_pos hk, hp]
      rfl
    · refine retired_effect hretired fun fingerprint hash hoperation => ?_
      by_contra hne
      refine hcall ⟨fingerprint, hash, p, hoperation, ?_, hretired, hne⟩
      rw [← hp, ← hk, Call.key, hoperation]
      rfl
  · refine ⟨p, ?_, hretired⟩
    rw [get?_perform, if_neg hk, hp]

/-- The endpoint that is used for a role is not retired. -/
theorem activeFor_ne {rows : EndpointRegistryStore} {scope : RegistryScope}
    (hnodup : (rows.map DistributorEndpointProfile.key).Nodup) {role : EndpointRole}
    {p : DistributorEndpointProfile} (h : activeFor rows scope role = some p) :
    ¬IsRetired rows (scope.tenantId, scope.distributor, p.fingerprint) := by
  have hmem : p ∈ (rows.list scope).filter fun p => p.role = role ∧ p.status ≠ .retired :=
    List.mem_mergeSort.1 (List.mem_of_head? h)
  obtain ⟨hlist, hstatus⟩ := List.mem_filter.1 hmem
  obtain ⟨hrow, hscope⟩ := List.mem_filter.1 hlist
  simp only [decide_eq_true_eq] at hstatus hscope
  rintro ⟨q, hq, hretired⟩
  have hkey : p.key = (scope.tenantId, scope.distributor, p.fingerprint) := by
    rw [DistributorEndpointProfile.key, hscope.1, hscope.2]
  rw [← hkey, get?_of_mem hnodup hrow] at hq
  cases hq
  exact hstatus.2 hretired

/-- Along the whole run active endpoints are promoted ones, and what has been retired stays so and
is not used. -/
structure SoundLifecycle (calls : List Call) : Prop where
  promoted : ∀ before after, calls = before ++ after → ∀ p ∈ run before, p.status = .active →
    VALIDATION_CAPTURES_REQUIRED ≤ p.successfulCaptures ∧ p.approvedAt.isSome
  retired : ∀ before between after, calls = before ++ between ++ after →
    ∀ scope fingerprint p, (run before).get scope fingerprint = some p → p.status = .retired →
      ∃ q, (run (before ++ between)).get scope fingerprint = some q ∧ q.status = .retired
  unused : ∀ before between after, calls = before ++ between ++ after →
    ∀ scope fingerprint p, (run before).get scope fingerprint = some p → p.status = .retired →
      ∀ role q, activeFor (run (before ++ between)) scope role = some q → q.fingerprint ≠ fingerprint

/-- The lifecycle holds along exactly those runs that record no drift of a retired endpoint. -/
theorem run_sound_iff (calls : List Call) :
    SoundLifecycle calls ↔ ∀ before call after, calls = before ++ call :: after → ¬Revives (run before) call := by
  constructor
  · rintro h before call after rfl ⟨fingerprint, hash, p, hoperation, hp, hretired, hne⟩
    obtain ⟨q, hq, hstatus⟩ := h.retired before [call] after (by simp) call.scope fingerprint p hp hretired
    have hkey : call.key = (call.scope.tenantId, call.scope.distributor, fingerprint) := by
      rw [Call.key, hoperation]
      rfl
    have hp' : get? DistributorEndpointProfile.key call.key (run before) = some p := hkey ▸ hp
    have hq' : get? DistributorEndpointProfile.key call.key (run (before ++ [call])) = some q := hkey ▸ hq
    rw [run_concat, get?_perform, if_pos rfl, hp'] at hq'
    have heffect : call.effect p = drifted p call.now := by
      unfold Call.effect
      rw [hoperation]
      exact if_neg hne
    cases hq'
    rw [heffect] at hstatus
    cases hstatus
  · intro h
    have hstays : ∀ (between before after : List Call), calls = before ++ between ++ after →
        ∀ k, IsRetired (run before) k → IsRetired (run (before ++ between)) k := by
      intro between
      induction between using List.reverseRecOn with
      | nil =>
        intro before after _ k hk
        rw [List.append_nil]
        exact hk
      | append_singleton between call ih =>
        intro before after heq k hk
        have hcalls : calls = before ++ between ++ call :: after := by rw [heq]; simp
        rw [← List.append_assoc, run_concat]
        exact isRetired_perform (ih before (call :: after) hcalls k hk) (h _ call after hcalls)
    refine ⟨fun before after _ => promoted_run before, ?_, ?_⟩
    · intro before between after heq scope fingerprint p hp hretired
      exact hstays between before after heq _ ⟨p, hp, hretired⟩
    · rintro before between after heq scope _ p hp hretired role q hq rfl
      exact activeFor_ne (nodup_run _) hq (hstays between before after heq _ ⟨p, hp, hretired⟩)

/-- Promoted and retired, then read with another schema, then read again. -/
def revival : List Call :=
  let scope : RegistryScope := ⟨"t", "DISTROKID"⟩
  let candidate : RankedCandidate := ⟨"f", ⟨"GET", "d.example", "/api/album", [], none⟩, 10, ["isrc"], "h1"⟩
  [.observe candidate .releaseDetails "v1", .recordSuccess "f" "h1", .recordSuccess "f" "h1",
    .recordSuccess "f" "h1", .retire "f", .recordSchemaDrift "f" "h2", .recordSuccess "f" "h2"].map (Call.mk scope 1)

theorem run_revival : ¬SoundLifecycle revival ∧
    (activeFor (run revival) ⟨"t", "DISTROKID"⟩ .releaseDetails).map (·.fingerprint) = some "f" := by
  have hused : (activeFor (run revival) ⟨"t", "DISTROKID"⟩ .releaseDetails).map (·.fingerprint) = some "f" := by
    decide +kernel
  refine ⟨fun h => ?_, hused⟩
  obtain ⟨p, hp, hretired⟩ : ∃ p, (run (revival.take 5)).get ⟨"t", "DISTROKID"⟩ "f" = some p ∧
      p.status = .retired := ⟨_, rfl, rfl⟩
  obtain ⟨q, hq, hfingerprint⟩ := Option.map_eq_some_iff.1 hused
  exact h.unused (revival.take 5) (revival.drop 5) [] rfl _ _ p hp hretired _ q hq hfingerprint

end CatalogSentinel.Capture
