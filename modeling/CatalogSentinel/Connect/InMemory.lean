import CatalogSentinel.Connect.Lifecycle
import CatalogSentinel.Data.Assoc

/-!
The registry of sessions that is kept in memory. Each call is one step there.
-/

namespace CatalogSentinel.Connect.InMemory

open CatalogSentinel.Data

/-- `record.claim`; a lease until no number is `none`. -/
structure HeldClaim where
  token : ℕ
  action : ConnectSessionAction
  leaseUntil : Option ℤ
  deriving DecidableEq, Repr

structure Record where
  connectId : ℕ
  session : DurableConnectSession
  claim : Option HeldClaim
  confirmation : Option ConnectConfirmationWork
  cancelRequested : Bool
  handedOff : Bool
  deriving DecidableEq, Repr

structure State where
  records : List Record
  revokedConsents : List (String × ℤ)
  past : Past
  deriving DecidableEq

abbrev State.record? (s : State) (connectId : ℕ) : Option Record :=
  get? Record.connectId connectId s.records

def State.write (s : State) (record : Record) : State :=
  { s with records := put Record.connectId record s.records }

def State.delete (s : State) (connectId : ℕ) : State :=
  { s with records := erase Record.connectId connectId s.records }

def consentKey (tenantId consentId : String) : String := tenantId ++ "\x00" ++ consentId

def markConsentRevoked (s : State) (now : ℤ) (consentId tenantId : String) (ttlMs : ℤ) : State :=
  { s with revokedConsents := put Prod.fst (consentKey tenantId consentId, now + ttlMs) s.revokedConsents }

def register (s : State) (connectId : ℕ) (session : DurableConnectSession) : State :=
  { s.write ⟨connectId, session, none, none, false, false⟩ with
    past := { s.past with used := connectId :: s.past.used } }

def putSession (s : State) (now : ℤ) (connectId : ℕ) (session : DurableConnectSession) : State :=
  match session.consentId.filter fun consentId => consentId ≠ "" with
  | none => register s connectId session
  | some consentId =>
    let key := consentKey session.tenantId consentId
    let expiresAt := ((get? Prod.fst key s.revokedConsents).map Prod.snd).getD 0
    if expiresAt ≤ now then
      register { s with revokedConsents := erase Prod.fst key s.revokedConsents } connectId session
    else s

/-- `Math.min(Date.parse(record.session.expiresAt), now + visibility)` -/
def leaseOf (session : DurableConnectSession) (now : ℤ) (visibilityTimeoutMs : Option ℚ) : Option ℤ :=
  session.expiresAt.map fun expiresAt => min expiresAt (now + positiveVisibility visibilityTimeoutMs)

def toClaim (record : Record) (held : HeldClaim) : ConnectSessionClaim :=
  ⟨record.connectId, held.token, held.action, record.session, record.confirmation⟩

/-- A principal confirms what it owns, and cancels what it owns or what is in its tenant. -/
def mayClaim (record : Record) (request : ClaimRequest) : Bool :=
  match request.principal with
  | none => true
  | some principal =>
    let isOwner : Bool := record.session.ownerUserId = principal.actorUserId
    match request.action with
    | .confirm => isOwner
    | .cancel => isOwner || principal.allowTenantAdmin

/-- The record is leased to the caller. -/
def lease (s : State) (now : ℤ) (visibilityTimeoutMs : Option ℚ) (record : Record)
    (action : ConnectSessionAction) : State × ConnectSessionClaim :=
  let held := ⟨s.past.fresh, action, leaseOf record.session now visibilityTimeoutMs⟩
  let claim := toClaim record held
  ({ s.write { record with claim := some held } with past := s.past.grant claim }, claim)

/-- `if (action === 'cancel') record.cancelRequested = true` -/
def Record.requested (record : Record) (action : ConnectSessionAction) : Record :=
  if action = .cancel then { record with cancelRequested := true } else record

/-- A session that was handed off is confirmed again: its hand-off and its search are cleared. -/
def Record.rewarmed (record : Record) (action : ConnectSessionAction) : Record :=
  if record.handedOff ∧ action = .confirm then { record with handedOff := false, confirmation := none }
  else record

variable (reuseWarmSessions : Bool)

def claimAuthorized (s : State) (now : ℤ) (request : ClaimRequest) :
    State × ConnectSessionClaimResult :=
  match (s.record? request.connectId).filter fun record => !record.session.expired now with
  | none => (s.delete request.connectId, .notFound)
  | some record =>
    if record.session.tenantId ≠ request.tenantId then (s, .ownershipMismatch)
    else if !mayClaim record request then (s, .ownershipMismatch)
    else
      let record := record.requested request.action
      if record.handedOff ∧ request.action = .confirm ∧ (!reuseWarmSessions || record.cancelRequested) then
        (s, .notFound)
      else
        let record := record.rewarmed request.action
        if record.claim.any fun held => held.leaseUntil.any fun t => now < t then (s.write record, .busy)
        else
          let action := if record.cancelRequested then .cancel else request.action
          if action = .confirm ∧ record.confirmation = none then
            match request.confirmation with
            | none => (s.write record, .failed "confirmation claim requires stable search work")
            | some confirmation =>
              let leased := lease s now request.visibilityTimeoutMs
                { record with confirmation := some confirmation } action
              (leased.1, .claimed leased.2)
          else
            let leased := lease s now request.visibilityTimeoutMs record action
            (leased.1, .claimed leased.2)

/-- The record whose claim carries this token. -/
def owned (s : State) (claim : ConnectSessionClaim) : Option (Record × HeldClaim) := do
  let record ← s.record? claim.connectId
  let held ← record.claim
  if record.session.tenantId = claim.session.tenantId ∧ held.token = claim.token then
    some (record, held)
  else none

/-- What an acknowledged confirmation leaves: a session that is handed off, or one that is
to be cancelled at once. -/
def Record.acknowledged (record : Record) (held : HeldClaim) (now : ℤ) : Record :=
  { record with
    handedOff := true
    claim := if record.cancelRequested then
        some { held with action := .cancel, leaseUntil := some now }
      else none }

def ack (s : State) (now : ℤ) (claim : ConnectSessionClaim) : State × Bool :=
  match owned s claim with
  | none => (s, false)
  | some (record, held) =>
    match claim.action with
    | .confirm =>
      ({ s.write (record.acknowledged held now) with
        past := { s.past with log := .handedOff record.connectId :: s.past.log } }, true)
    | .cancel => (s.delete claim.connectId, true)

def defer (s : State) (now : ℤ) (claim : ConnectSessionClaim) : State × Bool :=
  match owned s claim with
  | none => (s, false)
  | some (record, held) =>
    (s.write { record with claim := some { held with leaseUntil := some now } }, true)

def renew (s : State) (now : ℤ) (claim : ConnectSessionClaim) (visibilityTimeoutMs : Option ℚ) :
    State × ConnectClaimState :=
  match owned s claim with
  | none => (s, .lost)
  | some (record, held) =>
    (s.write { record with
      claim := some { held with leaseUntil := leaseOf record.session now visibilityTimeoutMs } },
      if record.cancelRequested ∧ claim.action = .confirm then .cancelled else .active)

def claimState (s : State) (claim : ConnectSessionClaim) : ConnectClaimState :=
  match (s.record? claim.connectId).filter fun record =>
      record.session.tenantId = claim.session.tenantId with
  | none => .lost
  | some record =>
    if record.cancelRequested then .cancelled
    else if record.claim.map HeldClaim.token = some claim.token then .active
    else .lost

/-- A claim whose lease is over is given out again. -/
def reclaim (now : ℤ) (visibilityTimeoutMs : Option ℚ)
    (done : State × List ConnectSessionClaim) (connectId : ℕ) : State × List ConnectSessionClaim :=
  match done.1.record? connectId with
  | none => done
  | some record =>
    match record.claim with
    | none => done
    | some held =>
      let action := if record.cancelRequested then .cancel else held.action
      let leased := lease done.1 now visibilityTimeoutMs record action
      (leased.1, done.2 ++ [leased.2])

def claimExpired (s : State) (now : ℤ) (limit : ℚ) (visibilityTimeoutMs : Option ℚ) :
    State × List ConnectSessionClaim :=
  let candidates := (s.records.filter fun record =>
    record.claim.any fun held => held.leaseUntil.any fun t => t ≤ now).take ⌊limit⌋.toNat
  (candidates.map Record.connectId).foldl (reclaim now visibilityTimeoutMs) (s, [])

def Record.life (record : Record) : Life :=
  ⟨record.claim.map fun held => (held.token, held.action),
    record.confirmation.map ConnectConfirmationWork.searchId, record.cancelRequested, record.handedOff⟩

/-- In memory nothing expires on its own. -/
def registry : ConnectSessionRegistry State ℚ where
  put := putSession
  claimAuthorized := claimAuthorized reuseWarmSessions
  ack := ack
  defer := defer
  renew := renew
  claimState := claimState
  claimExpired := claimExpired
  markConsentRevoked := markConsentRevoked
  expire := fun s _ _ => s
  past := State.past
  session := fun s connectId => (s.record? connectId).map Record.session
  life := fun s connectId => (s.record? connectId).map Record.life

def empty : State := ⟨[], [], ⟨0, [], []⟩⟩

section Lives

variable {warm : Bool} {s t : State} {record r : Record} {mayGo : ℕ → Prop} {id : ℕ} {now : ℤ}

abbrev lives (warm : Bool) (s : State) : View := view (registry warm) s

theorem writes (record : Record) (h : t.records = put Record.connectId record s.records) :
    (lives warm s).Writes (lives warm t) record.connectId (some record.life) := by
  have hget : ∀ j, t.record? j = get? Record.connectId j (put Record.connectId record s.records) :=
    fun j => by rw [State.record?, h]
  refine ⟨?_, fun j hj => ?_⟩
  · exact congrArg (Option.map Record.life) ((hget _).trans (get?_put_self record s.records))
  · exact congrArg (Option.map Record.life) ((hget j).trans (get?_put_of_ne (Ne.symm hj) s.records))

theorem life_of (hr : s.record? id = some r) : (lives warm s).life id = some r.life :=
  congrArg (Option.map Record.life) hr

theorem record?_write : (s.write record).record? record.connectId = some record :=
  get?_put_self record s.records

/-- A record is written over by one with the same life. -/
theorem move_kept (hr : s.record? record.connectId = some r) (hlife : record.life = r.life) :
    Move mayGo (lives warm s) (lives warm (s.write record)) := by
  refine .same (funext fun j => ?_) rfl
  have hwrites : (lives warm s).Writes (lives warm (s.write record)) _ _ := writes record rfl
  by_cases hj : j = record.connectId
  · rw [hj, hwrites.1, hlife, life_of hr]
  · exact hwrites.2 j hj

@[simp] theorem requested_connectId (action : ConnectSessionAction) :
    (r.requested action).connectId = r.connectId := by
  unfold Record.requested
  split <;> rfl

@[simp] theorem rewarmed_connectId (action : ConnectSessionAction) :
    (r.rewarmed action).connectId = r.connectId := by
  unfold Record.rewarmed
  split <;> rfl

theorem rewarmed_handedOff {action : ConnectSessionAction} (h : action = .confirm) :
    (r.rewarmed action).handedOff = false := by
  unfold Record.rewarmed
  split
  · rfl
  · rename_i hnot
    exact Bool.eq_false_iff.2 fun hoff => hnot ⟨hoff, h⟩

theorem prepared_cancelRequested {action : ConnectSessionAction} (h : action = .cancel) :
    ((r.requested action).rewarmed action).cancelRequested = true := by
  subst h
  have hnot : ¬ ((r.requested .cancel).handedOff ∧ ConnectSessionAction.cancel = .confirm) := by simp
  rw [Record.rewarmed, if_neg hnot]
  rfl

theorem move_requested (hr : s.record? r.connectId = some r) (action : ConnectSessionAction) :
    Move mayGo (lives warm s) (lives warm (s.write (r.requested action))) := by
  unfold Record.requested
  split
  · exact .requested r.connectId r.life (life_of hr) (writes { r with cancelRequested := true } rfl) rfl
  · exact move_kept hr rfl

theorem move_rewarmed (hr : s.record? r.connectId = some r) (action : ConnectSessionAction)
    (h : r.handedOff = true → action = .confirm → r.cancelRequested = false) :
    Move mayGo (lives warm s) (lives warm (s.write (r.rewarmed action))) := by
  unfold Record.rewarmed
  split
  · rename_i hrewarmed
    exact .rewarmed r.connectId r.life (life_of hr) hrewarmed.1 (h hrewarmed.1 hrewarmed.2)
      (writes { r with handedOff := false, confirmation := none } rfl) rfl
  · exact move_kept hr rfl

theorem move_lease (record : Record) (hr : s.record? record.connectId = some r) {visibilityTimeoutMs : Option ℚ}
    {action : ConnectSessionAction} (hrequested : record.cancelRequested = r.cancelRequested)
    (hoff : record.handedOff = r.handedOff)
    (hsearch : r.life.searchId = none ∨ record.life.searchId = r.life.searchId)
    (hconfirm : action = .confirm →
      Confirmable r.life (lease s now visibilityTimeoutMs record action).2)
    (hcancel : action = .cancel → r.cancelRequested = true ∨ ∃ t, r.life.holder = some (t, .cancel)) :
    Move mayGo (lives warm s) (lives warm (lease s now visibilityTimeoutMs record action).1) := by
  have hwrites : (lives warm s).Writes (lives warm (lease s now visibilityTimeoutMs record action).1)
    _ _ := writes { record with claim := some ⟨s.past.fresh, action, leaseOf record.session now visibilityTimeoutMs⟩ } rfl
  refine .granted record.connectId r.life (lease s now visibilityTimeoutMs record action).2
    (life_of hr) rfl rfl hsearch hconfirm hcancel ?_ rfl rfl (.inr rfl)
  simp only [Record.life, hrequested, hoff, Option.map_some] at hwrites
  exact hwrites

theorem lease_write (h : r.connectId = record.connectId) (visibilityTimeoutMs : Option ℚ)
    (action : ConnectSessionAction) :
    lease (s.write r) now visibilityTimeoutMs record action =
      lease s now visibilityTimeoutMs record action := by
  simp only [lease, State.write]
  rw [put_put (by exact h.symm)]

theorem move_gone (hr : s.record? id = some r) (hgo : mayGo id) :
    Move mayGo (lives warm s) (lives warm (s.delete id)) := by
  refine .gone id r.life hgo (life_of hr) ⟨?_, fun j hj => ?_⟩ rfl
  · exact congrArg (Option.map Record.life) (get?_erase_self id s.records)
  · exact congrArg (Option.map Record.life) (get?_erase_of_ne hj s.records)

theorem move_absent (hr : s.record? id = none) :
    Move mayGo (lives warm s) (lives warm (s.delete id)) := by
  refine .same (funext fun j => congrArg (Option.map Record.life) ?_) rfl
  by_cases hj : j = id
  · rw [hj]
    exact (get?_erase_self id s.records).trans hr.symm
  · exact get?_erase_of_ne hj s.records

theorem write_write (h : r.connectId = record.connectId) : (s.write r).write record = s.write record := by
  simp only [State.write]
  rw [put_put h.symm]

/-- The record goes through a cancellation and a new hand-off, as in `claimAuthorized`. -/
theorem moves_prepared (hr : s.record? r.connectId = some r) (action : ConnectSessionAction)
    (h : (r.requested action).handedOff = true → action = .confirm →
      (r.requested action).cancelRequested = false) :
    Moves mayGo (lives warm s) (lives warm (s.write ((r.requested action).rewarmed action))) := by
  have hrequested : Move mayGo (lives warm s) (lives warm (s.write (r.requested action))) :=
    move_requested hr action
  have hrewarmed : Move mayGo (lives warm (s.write (r.requested action)))
      (lives warm ((s.write (r.requested action)).write ((r.requested action).rewarmed action))) :=
    move_rewarmed record?_write action h
  rw [write_write (by simp)] at hrewarmed
  exact .tail (.single hrequested) hrewarmed

/-- The prepared record is leased, for the search it has or for a new one. -/
theorem moves_leased (visibilityTimeoutMs : Option ℚ)
    (hprepared : Moves mayGo (lives warm s) (lives warm (s.write r)))
    (c : Option ConnectConfirmationWork) (hc : r.confirmation = none ∨ c = r.confirmation)
    {action : ConnectSessionAction} (hconfirm : action = .confirm → r.cancelRequested = false ∧
      r.handedOff = false ∧ c.isSome) (hcancel : action = .cancel → r.cancelRequested = true) :
    Moves mayGo (lives warm s)
      (lives warm (lease s now visibilityTimeoutMs { r with confirmation := c } action).1) := by
  have hlease : Move mayGo (lives warm (s.write r)) (lives warm
      (lease (s.write r) now visibilityTimeoutMs { r with confirmation := c } action).1) := by
    have hr : (s.write r).record? r.connectId = some r := record?_write
    refine move_lease { r with confirmation := c } hr rfl rfl ?_ (fun haction => ?_)
      fun haction => .inl (hcancel haction)
    · rcases hc with hc | hc
      · exact .inl (congrArg (Option.map ConnectConfirmationWork.searchId) hc)
      · exact .inr (congrArg (Option.map ConnectConfirmationWork.searchId) hc)
    · obtain ⟨hrequested, hoff, hsome⟩ := hconfirm haction
      refine ⟨hrequested, .inr hoff, .inl ?_⟩
      exact Option.isSome_map.trans hsome
  rw [lease_write (by rfl)] at hlease
  exact .tail hprepared hlease

theorem moves_claimAuthorized (request : ClaimRequest) :
    Moves (fun j => ∃ session, (registry warm).session s j = some session ∧ session.expired now = true)
      (lives warm s) (lives warm (claimAuthorized warm s now request).1) := by
  unfold claimAuthorized
  split
  · rename_i hnone
    cases hr : s.record? request.connectId with
    | none => exact .single (move_absent hr)
    | some r =>
      refine .single (move_gone hr ⟨r.session, congrArg (Option.map Record.session) hr, ?_⟩)
      simpa [hr] using hnone
  · rename_i r hsome
    have hr := (Option.filter_eq_some_iff.1 hsome).1
    rw [← key_of_get? hr] at hr
    split
    · exact .refl
    split
    · exact .refl
    dsimp only
    split
    · exact .refl
    rename_i hwarm
    have hprepared : Moves (fun j => ∃ session, (registry warm).session s j = some session ∧
        session.expired now = true) (lives warm s)
        (lives warm (s.write ((r.requested request.action).rewarmed request.action))) := by
      refine moves_prepared hr request.action fun hoff haction => ?_
      by_contra hrequested
      rw [Bool.not_eq_false] at hrequested
      exact hwarm ⟨hoff, haction, by rw [hrequested, Bool.or_true]⟩
    have hoff : request.action = .confirm →
        ((r.requested request.action).rewarmed request.action).handedOff = false := rewarmed_handedOff
    have hcancel : request.action = .cancel →
        ((r.requested request.action).rewarmed request.action).cancelRequested = true :=
      prepared_cancelRequested
    generalize (r.requested request.action).rewarmed request.action = record at hprepared hoff hcancel
    split
    · exact hprepared
    have hconfirm : (if record.cancelRequested then ConnectSessionAction.cancel
        else request.action) = .confirm → record.cancelRequested = false ∧ record.handedOff = false := by
      intro haction
      split at haction
      · cases haction
      · rename_i hrequested
        exact ⟨Bool.eq_false_iff.2 hrequested, hoff haction⟩
    have hcancel' : (if record.cancelRequested then ConnectSessionAction.cancel
        else request.action) = .cancel → record.cancelRequested = true := by
      intro haction
      split at haction
      · assumption
      · exact hcancel haction
    generalize (if record.cancelRequested then ConnectSessionAction.cancel else request.action) = action
      at hconfirm hcancel'
    split
    · rename_i hnew
      cases hconfirmation : request.confirmation with
      | none => exact hprepared
      | some confirmation =>
        refine moves_leased _ hprepared (some confirmation) (.inl hnew.2) (fun haction => ?_) hcancel'
        exact ⟨(hconfirm haction).1, (hconfirm haction).2, rfl⟩
    · rename_i hold
      refine moves_leased _ hprepared record.confirmation (.inr rfl) (fun haction => ?_) hcancel'
      refine ⟨(hconfirm haction).1, (hconfirm haction).2, ?_⟩
      exact Option.isSome_iff_ne_none.2 fun hnone => hold ⟨haction, hnone⟩

theorem owned_some {claim : ConnectSessionClaim} {held : HeldClaim}
    (h : owned s claim = some (record, held)) : s.record? claim.connectId = some record ∧
      record.claim = some held ∧ held.token = claim.token := by
  simp only [owned, Option.bind_eq_bind, Option.bind_eq_some_iff] at h
  obtain ⟨record', hr, held', hheld, h⟩ := h
  split at h
  · rename_i hcond
    obtain ⟨rfl, rfl⟩ := Prod.mk.inj (Option.some.inj h)
    exact ⟨hr, hheld, hcond.2⟩
  · cases h

theorem move_ack (claim : ConnectSessionClaim) :
    Move (fun j => claim.connectId = j ∧ claim.action = .cancel) (lives warm s)
      (lives warm (ack s now claim).1) := by
  unfold ack
  split
  · exact .same rfl rfl
  · rename_i record held howned
    obtain ⟨hr, hheld, -⟩ := owned_some howned
    split
    · have hid := key_of_get? hr
      have hholder : record.life.holder = some (held.token, held.action) := by
        simp only [Record.life, hheld, Option.map_some]
      have hlife : (record.acknowledged held now).life = { record.life with
          handedOff := true
          holder := if record.life.cancelRequested then some (held.token, .cancel) else none } := by
        cases hrequested : record.cancelRequested <;> simp [Record.acknowledged, Record.life, hrequested]
      refine .acked record.connectId record.life held.token held.action (life_of (hid ▸ hr)) hholder ?_ rfl
      rw [← hlife]
      exact writes (record.acknowledged held now) rfl
    · rename_i haction
      exact move_gone hr ⟨rfl, haction⟩

/-- Only the lease of the record is another one. -/
theorem move_leaseUntil {held : HeldClaim} (hr : s.record? id = some record)
    (hheld : record.claim = some held) (leaseUntil : Option ℤ) : Move mayGo (lives warm s)
      (lives warm (s.write { record with claim := some { held with leaseUntil } })) := by
  have hid := key_of_get? hr
  refine move_kept (r := record) (hid ▸ hr) ?_
  simp only [Record.life, hheld, Option.map_some]

theorem move_defer (claim : ConnectSessionClaim) :
    Move mayGo (lives warm s) (lives warm (defer s now claim).1) := by
  unfold defer
  split
  · exact .same rfl rfl
  · rename_i record held howned
    obtain ⟨hr, hheld, -⟩ := owned_some howned
    exact move_leaseUntil hr hheld (some now)

theorem move_renew (claim : ConnectSessionClaim) (visibilityTimeoutMs : Option ℚ) :
    Move mayGo (lives warm s) (lives warm (renew s now claim visibilityTimeoutMs).1) := by
  unfold renew
  split
  · exact .same rfl rfl
  · rename_i record held howned
    obtain ⟨hr, hheld, -⟩ := owned_some howned
    exact move_leaseUntil hr hheld _

theorem move_reclaim (visibilityTimeoutMs : Option ℚ) (done : State × List ConnectSessionClaim)
    (connectId : ℕ) : Move mayGo (lives warm done.1)
      (lives warm (reclaim now visibilityTimeoutMs done connectId).1) := by
  unfold reclaim
  split
  · exact .same rfl rfl
  · rename_i record hr
    split
    · exact .same rfl rfl
    · rename_i held hheld
      have hid := key_of_get? hr
      refine move_lease record (hid ▸ hr) rfl rfl (.inr rfl) (fun haction => ?_) fun haction => ?_
      · split at haction
        · cases haction
        · rename_i hrequested
          have hholder : record.life.holder = some (held.token, .confirm) := by
            simp only [Record.life, hheld, Option.map_some, haction]
          exact ⟨Bool.eq_false_iff.2 hrequested, .inl ⟨_, hholder⟩, .inr ⟨rfl, _, hholder⟩⟩
      · split at haction
        · exact .inl (by assumption)
        · refine .inr ⟨held.token, ?_⟩
          simp only [Record.life, hheld, Option.map_some, haction]

theorem moves_claimExpired (limit : ℚ) (visibilityTimeoutMs : Option ℚ) :
    Moves mayGo (lives warm s) (lives warm (claimExpired s now limit visibilityTimeoutMs).1) := by
  have hfold : ∀ (ids : List ℕ) (done : State × List ConnectSessionClaim),
      Moves mayGo (lives warm done.1)
        (lives warm (ids.foldl (reclaim now visibilityTimeoutMs) done).1) := by
    intro ids
    induction ids with
    | nil => exact fun _ => .refl
    | cons connectId ids ih => exact fun done => .head (move_reclaim _ done connectId) (ih _)
  exact hfold _ (s, [])

theorem moves_putSession {connectId : ℕ} (hnew : connectId ∉ s.past.used)
    (session : DurableConnectSession) :
    Move mayGo (lives warm s) (lives warm (putSession s now connectId session)) := by
  have hregister : ∀ revokedConsents, Move mayGo (lives warm s)
      (lives warm (register { s with revokedConsents } connectId session)) := fun _ =>
    .opened connectId hnew (writes ⟨connectId, session, none, none, false, false⟩ rfl) rfl
  unfold putSession
  split
  · exact hregister s.revokedConsents
  · dsimp only
    split
    · exact hregister _
    · exact .same rfl rfl

theorem lawful : Lawful (registry warm) empty fun _ => True where
  empty := ⟨trivial, rfl, fun _ => rfl⟩
  moves s call s' _ hs' := by
    refine ⟨trivial, ?_⟩
    cases call with
    | put now connectId session =>
      simp only [step] at hs'
      split at hs'
      · cases hs'
      · rename_i hnew
        obtain rfl := Option.some.inj hs'
        exact .single (moves_putSession hnew session)
    | claim now principal request =>
      obtain rfl := Option.some.inj hs'
      exact moves_claimAuthorized _
    | claimForSystem now request =>
      obtain rfl := Option.some.inj hs'
      exact moves_claimAuthorized _
    | ack now claim =>
      obtain ⟨-, rfl⟩ := Option.ite_some_none_eq_some.1 hs'
      exact .single (move_ack claim)
    | defer now claim =>
      obtain ⟨-, rfl⟩ := Option.ite_some_none_eq_some.1 hs'
      exact .single (move_defer claim)
    | renew now claim visibilityTimeoutMs =>
      obtain ⟨-, rfl⟩ := Option.ite_some_none_eq_some.1 hs'
      exact .single (move_renew claim _)
    | claimState claim =>
      obtain ⟨-, rfl⟩ := Option.ite_some_none_eq_some.1 hs'
      exact .refl
    | claimExpired now sweep visibilityTimeoutMs =>
      obtain rfl := Option.some.inj hs'
      exact moves_claimExpired sweep _
    | markConsentRevoked now consentId tenantId ttlMs =>
      obtain rfl := Option.some.inj hs'
      exact .single (.same rfl rfl)
    | expire now connectId =>
      obtain rfl := Option.some.inj hs'
      exact .refl

end Lives

end CatalogSentinel.Connect.InMemory
