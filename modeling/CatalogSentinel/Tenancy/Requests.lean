import CatalogSentinel.Concurrent.RelyGuarantee
import CatalogSentinel.Data.History
import CatalogSentinel.Tenancy.Service

/-!
Any number of membership requests over one store. A request starts when its caller is
resolved into a tenant, and every call of the store is a step of its own. The state
keeps the rows and the history of what has been begun and written; the rows are what
the writes leave, one after the other. Every event of the history is legitimate: a
write is one that its request may make on rows that it has read since it began.
-/

namespace CatalogSentinel.Tenancy

open CatalogSentinel.Concurrent CatalogSentinel.Data

/-! ### Requests -/

inductive ServiceCall
  | createTenant
  | ensurePersonalMembership
  | inviteMember (tenantId : TenantId) (email role : String)
  | acceptInvite (verifiedEmail : Option String) (tenantId : TenantId)
  | changeRole (tenantId : TenantId) (targetUserId : UserId) (newRole : String)
  | removeMember (tenantId : TenantId) (targetUserId : UserId)
  deriving DecidableEq, Repr

/-- A request of a resolved caller; `uuid` is what it draws when it needs an identifier. -/
structure Request where
  uuid : ℕ
  actor : Actor
  call : ServiceCall
  deriving DecidableEq, Repr

/-- What happened, and of a request that began whether its caller held an active owner
membership of the tenant that it was resolved into. -/
inductive Event
  | began (request : Request) (held : Bool)
  | put (request : Request) (membership : Membership)
  | removed (request : Request) (id : MembershipId)
  deriving DecidableEq, Repr

def Event.request : Event → Request
  | .began t _ => t
  | .put t _ => t
  | .removed t _ => t

def Event.uuid? : Event → Option ℕ
  | .began t _ => some t.uuid
  | _ => none

/-- What an event makes of the rows. -/
def Event.apply : Event → List Membership → List Membership
  | .began .., rows => rows
  | .put _ m, rows => Data.put Membership.id m rows
  | .removed _ id, rows => rows.filter fun m => m.id ≠ id

/-- The rows that a history leaves. -/
def replay : List Event → List Membership
  | [] => []
  | e :: past => e.apply (replay past)

structure State where
  rows : List Membership
  history : List Event
  deriving DecidableEq, Repr

def State.empty : State := ⟨[], []⟩

def State.after (s : State) (e : Event) : State := ⟨e.apply s.rows, e :: s.history⟩

/-- What `resolveTenant` can make of the caller: the own personal tenant needs no
membership, any other an active one. -/
def Resolves (rows : List Membership) (actor : Actor) : Prop :=
  if actor.tenantId = personalTenantId actor.sub then actor.tenantRole = .owner
  else ∃ m ∈ rows, m.isActiveFor actor.sub actor.tenantId ∧ actor.tenantRole = m.role

instance (rows : List Membership) (actor : Actor) : Decidable (Resolves rows actor) := by
  unfold Resolves
  infer_instance

def holdsOwner (rows : List Membership) (actor : Actor) : Bool :=
  rows.any fun m => m.isActiveFor actor.sub actor.tenantId && m.role = .owner

def activeOwners (rows : List Membership) (tenantId : TenantId) : List Membership :=
  (rows.filter fun m => m.tenantId = tenantId).filter fun m => m.status = .active ∧ m.role = .owner

section System

variable (toLowerCase : String → String)

/-- `LIMIT 1`, or the first one found: any row that fits, and none only where none does. -/
def oneOf (rows : List Membership) (choice : ℕ) : Option (Option Membership) :=
  if rows = [] then some none else rows[choice]?.map some

def pendingInvites (rows : List Membership) (tenantId : TenantId) (email : String) : List Membership :=
  let lower := toLowerCase (trim email)
  if lower = "" then []
  else rows.filter fun m =>
    m.status = .invited ∧ m.tenantId = tenantId ∧ m.invitedEmail.map toLowerCase = some lower

def perform (t : Request) (s : State) : (o : StoreCall) → ℕ → Option (Except Failure o.Ans × State)
  | .getActive userId tenantId, c =>
    (oneOf (s.rows.filter (Membership.isActiveFor userId tenantId)) c).map fun m => (.ok m, s)
  | .listForTenant tenantId, _ => some (.ok (s.rows.filter fun m => m.tenantId = tenantId), s)
  | .getPendingInvite tenantId email, c =>
    (oneOf (pendingInvites toLowerCase s.rows tenantId email) c).map fun m => (.ok m, s)
  | .put m, _ => some (.ok m, s.after (.put t m))
  | .remove id, _ => some (.ok (s.rows.any fun m => m.id = id), s.after (.removed t id))

def code (t : Request) : Run Unit :=
  match t.call with
  | .createTenant => Functor.discard (createTenant t.uuid t.actor)
  | .ensurePersonalMembership => Functor.discard (ensurePersonalMembership t.actor.sub)
  | .inviteMember tenantId email role =>
    Functor.discard (inviteMember toLowerCase t.uuid t.actor tenantId email role)
  | .acceptInvite verifiedEmail tenantId =>
    Functor.discard (acceptInvite toLowerCase t.actor.sub verifiedEmail tenantId)
  | .changeRole tenantId targetUserId newRole =>
    Functor.discard (changeRole t.actor tenantId targetUserId newRole)
  | .removeMember tenantId targetUserId => Functor.discard (removeMember t.actor tenantId targetUserId)

/-- A request starts with the resolution of its caller. -/
def startRequest (s : State) (t : Request) : Option State :=
  if t.uuid ∉ s.history.filterMap Event.uuid? ∧ Resolves s.rows t.actor then
    some (s.after (.began t (holdsOwner s.rows t.actor)))
  else none

def tenancy : System membershipStore Failure State Request ℕ where
  perform := perform toLowerCase
  code := code toLowerCase
  start s _ t := startRequest s t
  settle s _ _ := s
  crash s _ := s
  env _ _ := none

end System

/-! ### Legitimate histories -/

def BeganIn (t : Request) (past : List Event) : Prop := ∃ held, .began t held ∈ past

/-- The request has not written. -/
def Unwritten (t : Request) (past : List Event) : Prop :=
  (∀ m, .put t m ∉ past) ∧ ∀ id, .removed t id ∉ past

/-- The request could read the row since it began. -/
def Seen (t : Request) (past : List Event) (m : Membership) : Prop :=
  ∃ before, Extends before past ∧ BeganIn t before ∧ m ∈ replay before

/-- The request could count more than one owner since it began. -/
def Counted (t : Request) (past : List Event) (tenantId : TenantId) : Prop :=
  ∃ before, Extends before past ∧ BeganIn t before ∧ 1 < (activeOwners (replay before) tenantId).length

def ownerOf (userId : UserId) (tenantId : TenantId) : Membership where
  id := membershipIdFor userId tenantId
  tenantId
  userId := some userId
  role := .owner
  status := .active
  invitedEmail := none
  invitedByUserId := none

/-- The caller may give the role away, in the tenant that it was resolved into. -/
structure MayGrant (actor : Actor) (tenantId : TenantId) (role : UserRole) : Prop where
  acting : actor.tenantId = tenantId
  atLeast : tenantRoleAtLeast actor.tenantRole .admin
  owner : role = .owner → actor.tenantRole = .owner

/-- The row is one that the request may put. -/
def Puts (t : Request) (m : Membership) (past : List Event) : Prop :=
  match t.call with
  | .createTenant => m = ownerOf t.actor.sub (.org t.uuid)
  | .ensurePersonalMembership => m = ownerOf t.actor.sub (personalTenantId t.actor.sub)
  | .inviteMember tenantId _ _ =>
    ∃ role email, MayGrant t.actor tenantId role ∧ tenantId ≠ personalTenantId t.actor.sub ∧
      m = ⟨.mbr t.uuid, tenantId, none, role, .invited, some email, some t.actor.sub⟩
  | .acceptInvite _ tenantId =>
    ∃ invite, Seen t past invite ∧ invite.status = .invited ∧ invite.tenantId = tenantId ∧
      m = { invite with userId := some t.actor.sub, status := .active, invitedEmail := none }
  | .changeRole tenantId targetUserId newRole =>
    ∃ role target, validRole newRole = some role ∧ MayGrant t.actor tenantId role ∧
      Seen t past target ∧ target.isActiveFor targetUserId tenantId ∧
      (target.role = .owner → role ≠ .owner → Counted t past tenantId) ∧ m = { target with role }
  | .removeMember .. => False

/-- The row is one that the request may remove. -/
def Removes (t : Request) (id : MembershipId) (past : List Event) : Prop :=
  match t.call with
  | .removeMember tenantId targetUserId =>
    t.actor.tenantId = tenantId ∧ tenantRoleAtLeast t.actor.tenantRole .admin ∧
      ∃ target, Seen t past target ∧ target.isActiveFor targetUserId tenantId ∧
        (target.role = .owner → Counted t past tenantId) ∧ id = target.id
  | _ => False

def Legit : Event → List Event → Prop
  | .began t held, past =>
    t.uuid ∉ past.filterMap Event.uuid? ∧ Resolves (replay past) t.actor ∧
      held = holdsOwner (replay past) t.actor
  | .put t m, past => BeganIn t past ∧ Unwritten t past ∧ Puts t m past
  | .removed t id, past => BeganIn t past ∧ Unwritten t past ∧ Removes t id past

end CatalogSentinel.Tenancy
