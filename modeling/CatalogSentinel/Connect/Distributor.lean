import CatalogSentinel.Connect.Sessions

/-!
The calls of `DistributorConnect` that carry claims, from one await to the next. A call
confirms a login and starts its scan, or cancels it and releases its Steel session; it may
crash wherever it waits, and what it was given to call may answer or fail at any time.
-/

namespace CatalogSentinel.Connect.Distributor

open CatalogSentinel.Concurrent

/-- Which call has the claim. A recovery also cancels for consents whose revocation is due. -/
inductive Caller
  | confirmAndScan
  | cancel
  | cancelByConsent
  | recoverAbandoned
  | dueRevocation
  deriving DecidableEq, Repr

/-- What the call does next with its claim. -/
inductive Stage
  | authorizing
  | recovering
  | renewing
  | storing
  | renewingAgain
  | starting
  | handingOff
  | renewingAfter
  | cancelling
  | releasing
  | acknowledging
  | deferring
  deriving DecidableEq, Repr

/-- A call with a claim; `caught` in a recovery that handles a terminal error. -/
structure Task where
  caller : Caller
  claim : ConnectSessionClaim
  stage : Stage
  caught : Bool
  deriving DecidableEq, Repr

/-- What `authorizeWorkspaceEdit`, `store.put`, `startSnapshot` or `releaseRemoteSession` comes to.
An error may have the name of a terminal one; not to be authorized is such an error. -/
inductive Answer
  | ok
  | failed (terminal : Bool)
  deriving DecidableEq, Repr

/-- What was done to Steel: a scan was started on the session of a connect id, or the session
was released, with what the registry had done by then. -/
inductive Deed
  | started (connectId : ℕ)
  | released (connectId : ℕ) (past : Past)
  deriving DecidableEq, Repr

/-- Whether `assertSufficientAutomationBudget` fails. -/
def leaseTooShort (required now : ℤ) (session : DurableConnectSession) : Bool :=
  session.expiresAt.all fun expiresAt => expiresAt - now < required

/-- Before the scan is started an error was thrown, or after: a terminal one cancels. -/
def Task.failed (task : Task) (terminal : Bool) : Option Task :=
  match task.caller, terminal with
  | .confirmAndScan, true => some { task with stage := .cancelling }
  | .confirmAndScan, false => some { task with stage := .deferring }
  | .recoverAbandoned, true => some { task with stage := .cancelling, caught := true }
  | _, _ => none

/-- `completeCancellation` has thrown an error. -/
def Task.notCancelled (task : Task) (terminal : Bool) : Option Task :=
  match task.caller with
  | .cancel | .cancelByConsent => some { task with stage := .deferring }
  | .recoverAbandoned =>
    if terminal && !task.caught then some { task with stage := .cancelling, caught := true } else none
  | .confirmAndScan | .dueRevocation => none

section

variable {σ ι : Type} (registry : ConnectSessionRegistry σ ι) (required : ℤ)
  (visibilityTimeoutMs : Option ℚ)

/-- The call goes on from where it stands: what the registry is then, and the call, if it is
not over. -/
def proceed (s : σ) (now : ℤ) (task : Task) (answer : Answer) : σ × Option Task × List Deed :=
  match task.stage with
  | .authorizing =>
    (s,
      match answer with
      | .failed terminal => task.failed terminal
      | .ok =>
        if leaseTooShort required now task.claim.session then task.failed true
        else some { task with stage := .renewing },
      [])
  | .recovering =>
    (s,
      match task.claim.action, registry.claimState s task.claim with
      | .cancel, _ | .confirm, .cancelled => some { task with stage := .cancelling }
      | .confirm, .lost => task.failed false
      | .confirm, .active =>
        if task.claim.confirmation.isNone || leaseTooShort required now task.claim.session then
          task.failed true
        else some { task with stage := .renewing },
      [])
  | .renewing =>
    match registry.renew s now task.claim visibilityTimeoutMs with
    | (s, .cancelled) => (s, task.failed true, [])
    | (s, .lost) => (s, task.failed false, [])
    | (s, .active) => (s, some { task with stage := .storing }, [])
  | .storing =>
    (s,
      if task.claim.confirmation.isNone then task.failed false
      else
        match answer with
        | .failed terminal => task.failed (terminal && task.caller ≠ .confirmAndScan)
        | .ok => some { task with stage := .renewingAgain },
      [])
  | .renewingAgain =>
    match registry.renew s now task.claim visibilityTimeoutMs with
    | (s, .cancelled) => (s, task.failed true, [])
    | (s, .lost) => (s, task.failed false, [])
    | (s, .active) => (s, some { task with stage := .starting }, [])
  | .starting =>
    (s,
      match answer with
      | .failed terminal => task.failed terminal
      | .ok => some { task with stage := .handingOff },
      [.started task.claim.connectId])
  | .handingOff =>
    match registry.ack s now task.claim with
    | (s, true) => (s, none, [])
    | (s, false) => (s, some { task with stage := .renewingAfter }, [])
  | .renewingAfter =>
    match registry.renew s now task.claim visibilityTimeoutMs with
    | (s, .cancelled) => (s, task.failed true, [])
    | (s, .lost) | (s, .active) => (s, task.failed false, [])
  | .cancelling =>
    match registry.renew s now task.claim visibilityTimeoutMs with
    | (s, .lost) => (s, task.notCancelled false, [])
    | (s, .active) | (s, .cancelled) => (s, some { task with stage := .releasing }, [])
  | .releasing =>
    match answer with
    | .failed terminal => (s, task.notCancelled terminal, [])
    | .ok =>
      (s, some { task with stage := .acknowledging },
        [.released task.claim.connectId (registry.past s)])
  | .acknowledging => ((registry.ack s now task.claim).1, none, [])
  | .deferring => ((registry.defer s now task.claim).1, none, [])

/-- The registry, the calls that are under way, and what was done to Steel, the last first. -/
structure System (σ : Type) where
  store : σ
  tasks : List Task
  deeds : List Deed

inductive Event (ι : Type)
  | put (now : ℤ) (connectId : ℕ) (session : DurableConnectSession)
  | confirmAndScan (now : ℤ) (connectId : ℕ) (principal : ConnectSessionPrincipal)
      (proposedWork : ConnectConfirmationWork) (decrypts : Bool)
  | cancel (now : ℤ) (connectId : ℕ) (principal : ConnectSessionPrincipal) (decrypts : Bool)
  | markConsentRevoked (now : ℤ) (consentId tenantId : String) (ttlMs : ℤ)
  | claimByConsent (now : ℤ) (connectId : ℕ) (tenantId : String) (due : Bool) (decrypts : Bool)
  | recoverAbandoned (now : ℤ) (sweep : ι)
  | expire (now : ℤ) (connectId : ℕ)
  | proceed (now : ℤ) (task : ℕ) (answer : Answer)
  | crash (task : ℕ)

/-- The call goes on with the claim that it was given, if it was given one. -/
def System.begin (sys : System σ) (result : σ × ConnectSessionClaimResult)
    (task : ConnectSessionClaim → Task) : System σ :=
  { sys with
    store := result.1
    tasks := match result.2 with
      | .claimed claim => sys.tasks ++ [task claim]
      | _ => sys.tasks }

def confirmTask (claim : ConnectSessionClaim) : Task :=
  ⟨.confirmAndScan, claim, if claim.action = .cancel then .cancelling else .authorizing, false⟩

/-- What happens: a session is put, a call claims one, or a call goes on or crashes. -/
def happen (sys : System σ) : Event ι → Option (System σ)
  | .put now connectId session =>
    if connectId ∈ (registry.past sys.store).used then none
    else some { sys with store := registry.put sys.store now connectId session }
  | .confirmAndScan now connectId principal proposedWork decrypts =>
    let request : ClaimRequest :=
      ⟨connectId, "", .confirm, visibilityTimeoutMs, some proposedWork, none, decrypts⟩
    some (sys.begin (registry.claimAuthorized sys.store now (request.byPrincipal principal)) confirmTask)
  | .cancel now connectId principal decrypts =>
    let request : ClaimRequest := ⟨connectId, "", .cancel, visibilityTimeoutMs, none, none, decrypts⟩
    some (sys.begin (registry.claimAuthorized sys.store now (request.byPrincipal principal))
      fun claim => ⟨.cancel, claim, .cancelling, false⟩)
  | .markConsentRevoked now consentId tenantId ttlMs =>
    some { sys with store := registry.markConsentRevoked sys.store now consentId tenantId ttlMs }
  | .claimByConsent now connectId tenantId due decrypts =>
    let request : ClaimRequest :=
      ⟨connectId, tenantId, .cancel, visibilityTimeoutMs, none, none, decrypts⟩
    some (sys.begin (registry.claimAuthorized sys.store now request.bySystem)
      fun claim => ⟨if due then .dueRevocation else .cancelByConsent, claim, .cancelling, false⟩)
  | .recoverAbandoned now sweep =>
    let result := registry.claimExpired sys.store now sweep visibilityTimeoutMs
    some { sys with
      store := result.1
      tasks := sys.tasks ++ result.2.map fun claim => ⟨.recoverAbandoned, claim, .recovering, false⟩ }
  | .expire now connectId => some { sys with store := registry.expire sys.store now connectId }
  | .proceed now i answer => do
    let task ← sys.tasks[i]?
    let (store, next, deeds) := proceed registry required visibilityTimeoutMs sys.store now task answer
    some
      { store
        tasks := match next with
          | some task => sys.tasks.set i task
          | none => sys.tasks.eraseIdx i
        deeds := deeds ++ sys.deeds }
  | .crash i => some { sys with tasks := sys.tasks.eraseIdx i }

def begin (s : σ) : System σ := ⟨s, [], []⟩

end

end CatalogSentinel.Connect.Distributor
