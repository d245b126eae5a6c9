import Mathlib.Logic.Equiv.Basic
import CatalogSentinel.Connect.InMemory
import CatalogSentinel.Connect.Redis

/-!
What a registry of sessions keeps over any calls, in memory and on Redis. A stale token
and a principal without the right to a session change nothing; a session that is to be
cancelled is confirmed no more and stays until it is cancelled or expires; and between two
hand-offs the claims that confirm are for one search.
-/

namespace CatalogSentinel.Connect

open CatalogSentinel.Concurrent CatalogSentinel.Data

section

variable {σ ι : Type} (registry : ConnectSessionRegistry σ ι)

/-- The token that the claim carries is not the one that is stored. -/
def Stale (s : σ) (claim : ConnectSessionClaim) : Prop :=
  ∀ l action, registry.life s claim.connectId = some l → l.holder ≠ some (claim.token, action)

/-- The principal owns the session, or cancels as an administrator of its tenant. -/
def Entitled (principal : ConnectSessionPrincipal) (action : ConnectSessionAction)
    (session : DurableConnectSession) : Prop :=
  session.tenantId = principal.tenantId ∧
    (session.ownerUserId = principal.actorUserId ∨ (action = .cancel ∧ principal.allowTenantAdmin))

/-- What carries a stale token changes nothing; and where there is no session left, nothing
of any session. -/
structure IgnoresStale (s : σ) : Prop where
  stale : ∀ claim, registry.life s claim.connectId ≠ none → Stale registry s claim → ∀ now v,
    registry.ack s now claim = (s, false) ∧ registry.defer s now claim = (s, false) ∧
      registry.renew s now claim v = (s, .lost)
  absent : ∀ claim, registry.life s claim.connectId = none → ∀ now v,
    view registry (registry.ack s now claim).1 = view registry s ∧
      view registry (registry.defer s now claim).1 = view registry s ∧
      registry.renew s now claim v = (s, .lost)

/-- A claim of a principal without the right to the session changes nothing. -/
def RefusesOthers (s : σ) : Prop :=
  ∀ (now : ℤ) (principal : ConnectSessionPrincipal) (request : ClaimRequest) (session : DurableConnectSession),
    registry.session s request.connectId = some session → session.expired now = false →
    ¬ Entitled principal request.action session →
    (registry.claimAuthorized s now (request.byPrincipal principal)).1 = s

/-- What holds in a state that is reached. -/
structure Keeps (s : σ) : Prop where
  stale : IgnoresStale registry s
  refused : RefusesOthers registry s
  cancelled : ∀ id l, registry.life s id = some l → l.cancelRequested = true →
    (∀ later t, Steps.run (step registry) s later = some t →
      (view registry s).NoConfirms (view registry t) id) ∧
    ∀ call t, step registry s call = some t → registry.life t id = none →
      LeavesBy registry s call id ∧ ∀ now claim, call = .ack now claim → Granted registry s claim
  one_search : ∀ id, ∃ searchId, ∀ claim ∈ confirmsSince id (registry.past s).log,
    claim.searchId = some searchId

variable {registry} {empty : σ} {WellFormed : σ → Prop}

/-- The registry before the first call. -/
theorem Lawful.sound_empty (h : Lawful registry empty WellFormed) : (view registry empty).Sound := by
  obtain ⟨-, hpast, hlife⟩ := h.empty
  have hsince : ∀ id, confirmsSince id (view registry empty).past.log = [] := fun id => by
    rw [view, hpast]
    rfl
  refine ⟨fun id => ?_, fun id _ => ⟨hlife id, hsince id⟩⟩
  have hnone : (view registry empty).life id = none := hlife id
  rw [hnone, hsince]
  exact ⟨⟨"", nofun⟩, nofun, nofun, nofun⟩

/-- In every state that is reached the lives of the sessions are sound. -/
theorem Lawful.sound_run (h : Lawful registry empty WellFormed) {s t : σ} (calls : List (Call ι))
    (hs : WellFormed s ∧ (view registry s).Sound) (ht : Steps.run (step registry) s calls = some t) :
    WellFormed t ∧ (view registry t).Sound := by
  refine (Steps.throughout_of_step (P := fun s => WellFormed s ∧ (view registry s).Sound) calls hs
    fun s call s' hs hs' => ?_).last ht
  obtain ⟨hwell, hmoves⟩ := h.moves s call s' hs.1 hs'
  exact ⟨hwell, hmoves.sound hs.2⟩

/-- A doomed session is never confirmed again, whatever is called. -/
theorem Lawful.doomed_run (h : Lawful registry empty WellFormed) {s t : σ} {id : ℕ}
    (calls : List (Call ι)) (hs : WellFormed s) (hdoomed : (view registry s).Doomed id)
    (ht : Steps.run (step registry) s calls = some t) :
    (view registry t).Doomed id ∧ (view registry s).NoConfirms (view registry t) id := by
  have hrun := (Steps.throughout_of_step (P := fun t => WellFormed t ∧ (view registry t).Doomed id ∧
    (view registry s).NoConfirms (view registry t) id) calls ⟨hs, hdoomed, .same rfl⟩
    fun s call s' hs hs' => ?_).last ht
  · exact hrun.2
  · obtain ⟨hwell, hdoomed, hnone⟩ := hs
    obtain ⟨hwell', hmoves⟩ := h.moves s call s' hwell hs'
    obtain ⟨hdoomed', hnone'⟩ := hmoves.doomed hdoomed
    exact ⟨hwell', hdoomed', hnone.trans hnone'⟩

theorem keeps_of_run (hlawful : Lawful registry empty WellFormed)
    (hguarded : ∀ s, WellFormed s → IgnoresStale registry s ∧ RefusesOthers registry s)
    {s : σ} {calls : List (Call ι)} (hs : Steps.run (step registry) empty calls = some s) :
    Keeps registry s := by
  obtain ⟨hwell, hsound⟩ := hlawful.sound_run calls ⟨hlawful.empty.1, hlawful.sound_empty⟩ hs
  refine ⟨(hguarded s hwell).1, (hguarded s hwell).2, fun id l hl hrequested =>
      ⟨fun later t ht => ?_, fun call t ht hnone => ⟨?_, ?_⟩⟩,
    fun id => (hsound.sound id).one_search⟩
  · have hdoomed : (view registry s).Doomed id := by
      refine ⟨hsound.mem_used hl, fun l' hl' => ?_⟩
      obtain rfl := Option.some.inj (hl.symm.trans hl')
      exact hrequested
    exact (hlawful.doomed_run later hwell hdoomed ht).2
  · obtain ⟨-, hmoves⟩ := hlawful.moves s call t hwell ht
    have hsome : ((view registry s).life id).isSome := Option.isSome_iff_exists.2 ⟨l, hl⟩
    exact hmoves.gone_of hsome hnone
  · rintro now claim rfl
    exact (Option.ite_none_right_eq_some.1 ht).1

end

namespace InMemory

variable {warm : Bool} {s : State} {claim : ConnectSessionClaim}

theorem owned_none (h : Stale (registry warm) s claim) : owned s claim = none := by
  cases howned : owned s claim with
  | none => rfl
  | some found =>
    obtain ⟨record, held⟩ := found
    obtain ⟨hr, hheld, htoken⟩ := owned_some howned
    refine absurd ?_ (h record.life held.action (congrArg (Option.map Record.life) hr))
    simp only [Record.life, hheld, Option.map_some, htoken]

theorem ignoresStale (s : State) : IgnoresStale (registry warm) s := by
  have hnone : ∀ claim, owned s claim = none → ∀ now v, ack s now claim = (s, false) ∧
      defer s now claim = (s, false) ∧ renew s now claim v = (s, .lost) := by
    intro claim h now v
    simp only [ack, defer, renew, h, and_self]
  refine ⟨fun claim _ hstale => hnone claim (owned_none hstale), fun claim habsent now v => ?_⟩
  have hr : s.record? claim.connectId = none := Option.map_eq_none_iff.1 habsent
  obtain ⟨hack, hdefer, hrenew⟩ := hnone claim (by simp only [owned, hr]; rfl) now v
  exact ⟨congrArg (fun out : State × Bool => view (registry warm) out.1) hack,
    congrArg (fun out : State × Bool => view (registry warm) out.1) hdefer, hrenew⟩

theorem refusesOthers (s : State) : RefusesOthers (registry warm) s := by
  intro now principal request session hsession hexpired hnot
  obtain ⟨record, hr, rfl⟩ := Option.map_eq_some_iff.1 hsession
  have hfound : (s.record? request.connectId).filter (fun record => !record.session.expired now) =
      some record := by
    rw [hr, Option.filter_some, hexpired]
    rfl
  have hnone : record.session.tenantId = principal.tenantId →
      mayClaim record (request.byPrincipal principal) = false := by
    intro htenant
    refine Bool.eq_false_iff.2 fun hmay => hnot ⟨htenant, ?_⟩
    simp only [mayClaim, ClaimRequest.byPrincipal] at hmay
    cases haction : request.action <;> simp_all
  show (claimAuthorized warm s now (request.byPrincipal principal)).1 = s
  have hid : (request.byPrincipal principal).connectId = request.connectId := rfl
  rw [claimAuthorized, hid, hfound]
  by_cases htenant : record.session.tenantId = principal.tenantId
  · have hsame : ¬ record.session.tenantId ≠ (request.byPrincipal principal).tenantId := not_not.2 htenant
    dsimp only
    rw [if_neg hsame, if_pos (by rw [hnone htenant]; rfl)]
  · exact congrArg Prod.fst (if_pos htenant)

end InMemory

namespace Redis

variable {sha256 : String → String} {warm : Bool} {s : State} {claim : ConnectSessionClaim}

theorem owned_none (hs : s.WellFormed sha256) (h : Stale (registry sha256 warm) s claim) :
    owned s claim = none := by
  cases howned : owned s claim with
  | none => rfl
  | some key =>
    obtain ⟨hkey, htoken⟩ := owned_some howned
    obtain ⟨action, hholder⟩ := holder_of (hs _ _ hkey).paired htoken
    exact absurd hholder (h key.value.life action
      (congrArg (Option.map fun key : SessionKey => key.value.life) hkey))

theorem ignoresStale (hs : s.WellFormed sha256) : IgnoresStale (registry sha256 warm) s := by
  refine ⟨fun claim hpresent hstale now v => ?_, fun claim habsent now v => ?_⟩
  · have hkey : ¬ (s.session? claim.connectId).isNone = true := by
      rw [Option.isNone_iff_eq_none]
      exact fun hnone => hpresent (congrArg (Option.map fun key : SessionKey => key.value.life) hnone)
    have howned := owned_none hs hstale
    show ack sha256 s now claim = (s, false) ∧ defer s now claim = (s, false) ∧
      renew s now claim v = (s, .lost)
    simp only [ack, defer, renew, if_neg hkey, howned, and_self]
  · have hkey : s.session? claim.connectId = none := Option.map_eq_none_iff.1 habsent
    have howned : owned s claim = none := by rw [owned, hkey, Option.filter_none]
    refine ⟨?_, ?_, ?_⟩
    · show view _ (ack sha256 s now claim).1 = _
      simp only [ack, hkey, Option.isNone_none, if_true]
      rfl
    · show view _ (defer s now claim).1 = _
      simp only [defer, hkey, Option.isNone_none, if_true]
      rfl
    · show renew s now claim v = (s, .lost)
      simp only [renew, howned]

theorem ownerDigest_inj (hsha : Function.Injective sha256) {tenantId a b : String}
    (h : ownerDigest sha256 tenantId a = ownerDigest sha256 tenantId b) : a = b := by
  have happend := congrArg String.toList (hsha h)
  simp only [String.toList_append] at happend
  exact String.toList_inj.1 (List.append_cancel_left happend)

theorem refusesOthers (hsha : Function.Injective sha256) (hs : s.WellFormed sha256) :
    RefusesOthers (registry sha256 warm) s := by
  intro now principal request session hsession hexpired hnot
  obtain ⟨key, hkey, rfl⟩ := Option.map_eq_some_iff.1 hsession
  have hbound := (hs _ _ hkey).bound.1
  simp only [Value.origin, newValue, Prod.mk.injEq, and_true] at hbound
  obtain ⟨htenant, howner⟩ := hbound
  have hscript : claimScript s (ClaimRequest.script sha256 warm s now (request.byPrincipal principal)) =
      (s, .ownershipMismatch) := by
    have hid : (ClaimRequest.script sha256 warm s now (request.byPrincipal principal)).connectId =
        request.connectId := rfl
    rw [claimScript, hid, hkey]
    by_cases hsame : key.value.tenantId = principal.tenantId
    · have htenant' : ¬ key.value.tenantId ≠
          (ClaimRequest.script sha256 warm s now (request.byPrincipal principal)).tenantId := not_not.2 hsame
      have hnone : (ClaimRequest.script sha256 warm s now
          (request.byPrincipal principal)).mayClaim key.value = false := by
        refine Bool.eq_false_iff.2 fun hmay => hnot ⟨htenant.symm.trans hsame, ?_⟩
        simp only [ClaimScript.mayClaim, ClaimRequest.script, ClaimRequest.byPrincipal, Option.isNone_some,
          Bool.false_or, Bool.or_eq_true, Bool.and_eq_true, Option.any_some] at hmay
        rcases hmay with hmay | hmay
        · rw [howner, ← htenant, hsame] at hmay
          exact .inl (ownerDigest_inj hsha (of_decide_eq_true hmay))
        · exact .inr ⟨of_decide_eq_true hmay.1, hmay.2⟩
      dsimp only
      rw [if_neg htenant', if_pos (by rw [hnone]; rfl)]
    · exact if_pos hsame
  show (claimAuthorized sha256 warm s now (request.byPrincipal principal)).1 = s
  rw [claimAuthorized, hscript]

end Redis

/-- In memory and on Redis, and whether or not sessions are used again, whatever is called:
every state reached keeps what was claimed to who holds the token and has the right to it. -/
theorem connect_claims (sha256 : String → String) (hsha : Function.Injective sha256) (warm : Bool) :
    (∀ calls s, Steps.run (step (InMemory.registry warm)) InMemory.empty calls = some s →
      Keeps (InMemory.registry warm) s) ∧
    ∀ calls s, Steps.run (step (Redis.registry sha256 warm)) Redis.empty calls = some s →
      Keeps (Redis.registry sha256 warm) s :=
  ⟨fun _ _ hs => keeps_of_run InMemory.lawful
      (fun s _ => ⟨InMemory.ignoresStale s, InMemory.refusesOthers s⟩) hs,
    fun _ _ hs => keeps_of_run Redis.lawful
      (fun _ hwell => ⟨Redis.ignoresStale hwell, Redis.refusesOthers hsha hwell⟩) hs⟩

section

def loggedIn : DurableConnectSession :=
  ⟨"tenant", "owner", ["artist"], "steel", none, "owner", some 100000⟩

def byOwner (searchId : String) : ClaimRequest :=
  ⟨0, "tenant", .confirm, some 1000, some ⟨searchId, "now"⟩, none, true⟩

/-- A session is confirmed, confirmed again when the lease is over, handed off, and confirmed
for another scan. -/
def confirmedTwice (ι : Type) : List (Call ι) :=
  [.put 0 0 loggedIn,
   .claim 1 ⟨"tenant", "owner", false⟩ (byOwner "first"),
   .claim 2000 ⟨"tenant", "owner", false⟩ (byOwner "second"),
   .ack 2001 ⟨0, 1, .confirm, loggedIn, some ⟨"first", "now"⟩⟩,
   .claim 2002 ⟨"tenant", "owner", false⟩ (byOwner "third")]

/-- SHA-256 of the owner's name, which no other text has. -/
def ownerSha256 : Equiv.Perm String :=
  Equiv.swap "tenant\x00owner" "27c31adf5c711c0d20f4e61d4716d66bcf09ac2bab0c1ad361feca98ef4f975a"

theorem connect_claims_confirmedTwice :
    (∃ s, Steps.run (step (InMemory.registry true)) InMemory.empty (confirmedTwice ℚ) = some s ∧
      Keeps (InMemory.registry true) s) ∧
    ∃ s, Steps.run (step (Redis.registry ownerSha256 true)) Redis.empty (confirmedTwice Redis.Sweep) = some s ∧
      Keeps (Redis.registry ownerSha256 true) s := by
  have hmemory : (Steps.run (step (InMemory.registry true)) InMemory.empty (confirmedTwice ℚ)).isSome := by
    decide +kernel
  have hredis : (Steps.run (step (Redis.registry ownerSha256 true)) Redis.empty
      (confirmedTwice Redis.Sweep)).isSome := by
    decide +kernel
  obtain ⟨s, hs⟩ := Option.isSome_iff_exists.1 hmemory
  obtain ⟨t, ht⟩ := Option.isSome_iff_exists.1 hredis
  exact ⟨⟨s, hs, (connect_claims ownerSha256 ownerSha256.injective true).1 _ s hs⟩,
    t, ht, (connect_claims ownerSha256 ownerSha256.injective true).2 _ t ht⟩

-- The claims on the session were for the first search until its hand-off, and for a third then.
example : (Steps.run (step (Redis.registry ownerSha256 true)) Redis.empty (confirmedTwice Redis.Sweep)).map
    (fun s => s.past.log.filterMap (Entry.confirm? 0) |>.map ConnectSessionClaim.searchId) =
      some [some "third", some "first", some "first"] := by
  decide +kernel

end

end CatalogSentinel.Connect
