import CatalogSentinel.Concurrent.Prog
import CatalogSentinel.Checkpoint.Sanitize

/-!
Memberships of tenants, the store that keeps them, and the operations of the
membership service as programs over single calls of the store. An operation reads,
decides and writes in calls of their own; a refused operation ends with a status and
an error text.
-/

namespace CatalogSentinel.Tenancy

open CatalogSentinel.Concurrent CatalogSentinel.Data

/-! ### Memberships -/

abbrev UserId := String

/-- A personal tenant is named by its subject, a shared one by a random identifier,
which no subject is. -/
inductive TenantId
  | personal (sub : UserId)
  | org (uuid : ℕ)
  deriving DecidableEq, Repr

/-- The identifier of a pair is a digest of both, that of an invite is random. -/
inductive MembershipId
  | stable (userId : UserId) (tenantId : TenantId)
  | mbr (uuid : ℕ)
  deriving DecidableEq, Repr

inductive UserRole
  | owner | admin | manager | analyst | viewer
  deriving DecidableEq, Repr

inductive MembershipStatus
  | active | invited | suspended
  deriving DecidableEq, Repr

structure Membership where
  id : MembershipId
  tenantId : TenantId
  userId : Option UserId
  role : UserRole
  status : MembershipStatus
  invitedEmail : Option String
  invitedByUserId : Option UserId
  deriving DecidableEq, Repr

/-- `VALID_ROLES.includes(role)`, and the role it is. -/
def validRole : String → Option UserRole
  | "owner" => some .owner
  | "admin" => some .admin
  | "manager" => some .manager
  | "analyst" => some .analyst
  | "viewer" => some .viewer
  | _ => none

def TENANT_ROLE_RANK : UserRole → ℕ
  | .owner => 4
  | .admin => 3
  | .manager => 2
  | .analyst => 1
  | .viewer => 0

def tenantRoleAtLeast (role minimum : UserRole) : Bool := TENANT_ROLE_RANK role ≥ TENANT_ROLE_RANK minimum

def personalTenantId (userId : UserId) : TenantId := .personal userId

def membershipIdFor (userId : UserId) (tenantId : TenantId) : MembershipId := .stable userId tenantId

namespace Membership

def isActiveOwner (m : Membership) : Bool := m.status = .active ∧ m.role = .owner

def isActiveFor (userId : UserId) (tenantId : TenantId) (m : Membership) : Bool :=
  m.status = .active ∧ m.userId = some userId ∧ m.tenantId = tenantId

end Membership

/-! ### Calls of the store -/

inductive StoreCall
  | getActive (userId : UserId) (tenantId : TenantId)
  | listForTenant (tenantId : TenantId)
  | getPendingInvite (tenantId : TenantId) (email : String)
  | put (membership : Membership)
  | remove (id : MembershipId)
  deriving DecidableEq, Repr

def StoreCall.Ans : StoreCall → Type
  | getActive .. => Option Membership
  | listForTenant _ => List Membership
  | getPendingInvite .. => Option Membership
  | put _ => Membership
  | remove _ => Bool

def membershipStore : Signature where
  Op := StoreCall
  Ans := StoreCall.Ans

/-- `{ ok: false, status, error }` -/
structure Failure where
  status : ℕ
  error : String
  deriving DecidableEq, Repr

abbrev Run := Prog membershipStore Failure

def getActive (userId : UserId) (tenantId : TenantId) : Run (Option Membership) :=
  Prog.call (S := membershipStore) (StoreCall.getActive userId tenantId)

def listForTenant (tenantId : TenantId) : Run (List Membership) :=
  Prog.call (S := membershipStore) (StoreCall.listForTenant tenantId)

def getPendingInvite (tenantId : TenantId) (email : String) : Run (Option Membership) :=
  Prog.call (S := membershipStore) (StoreCall.getPendingInvite tenantId email)

def put (membership : Membership) : Run Membership :=
  Prog.call (S := membershipStore) (StoreCall.put membership)

def remove (id : MembershipId) : Run Bool := Prog.call (S := membershipStore) (StoreCall.remove id)

def fail {α : Type} (status : ℕ) (error : String) : Run α := .raise ⟨status, error⟩

/-! ### Email addresses -/

/-- `/^[^\s@]+@[^\s@]+\.[^\s@]+$/`: one `@`, no white space, text before it, and a dot
after it that has text on both sides. -/
def EMAIL_RE (email : String) : Bool :=
  let name := email.toList.takeWhile (· ≠ '@')
  let domain := (email.toList.dropWhile (· ≠ '@')).tail
  !name.isEmpty && name.length < email.toList.length && '@' ∉ domain && '.' ∈ domain.tail.dropLast &&
    !email.toList.any isJsSpace

section Service

variable (toLowerCase : String → String)

/-! ### The operations, over `toLowerCase` of the language -/

/-- The caller, resolved into a tenant and the caller's role in it. -/
structure Actor where
  sub : UserId
  tenantId : TenantId
  tenantRole : UserRole
  deriving DecidableEq, Repr

/-- Create a new shared tenant, owned by the caller, under a random identifier. -/
def createTenant (uuid : ℕ) (actor : Actor) : Run Membership :=
  let tenantId := TenantId.org uuid
  put {
    id := membershipIdFor actor.sub tenantId
    tenantId
    userId := some actor.sub
    role := .owner
    status := .active
    invitedEmail := none
    invitedByUserId := none }

def ensurePersonalMembership (userId : UserId) : Run Membership := do
  let tenantId := personalTenantId userId
  match ← getActive userId tenantId with
  | some existing => return existing
  | none =>
    put {
      id := membershipIdFor userId tenantId
      tenantId
      userId := some userId
      role := .owner
      status := .active
      invitedEmail := none
      invitedByUserId := none }

def inviteMember (uuid : ℕ) (actor : Actor) (tenantId : TenantId) (email role : String) : Run Membership :=
  if actor.tenantId ≠ tenantId then fail 403 "not acting in that tenant"
  else if tenantId = personalTenantId actor.sub then
    fail 400 "cannot invite members to a personal tenant; create a shared tenant first"
  else if !tenantRoleAtLeast actor.tenantRole .admin then fail 403 "requires tenant role: admin or higher"
  else match validRole role with
  | none => fail 400 "invalid role"
  | some role =>
    if role = .owner ∧ actor.tenantRole ≠ .owner then fail 403 "only an owner may grant the owner role"
    else
      let normalizedEmail := toLowerCase (trim email)
      if !EMAIL_RE normalizedEmail || Checkpoint.utf16Length normalizedEmail > 320 then
        fail 400 "invalid email"
      else do
        match ← getPendingInvite tenantId normalizedEmail with
        | some existing => return existing
        | none =>
          put {
            id := .mbr uuid
            tenantId
            userId := none
            role
            status := .invited
            invitedEmail := some normalizedEmail
            invitedByUserId := some actor.sub }

def acceptInvite (userSub : UserId) (verifiedEmail : Option String) (tenantId : TenantId) : Run Membership :=
  match verifiedEmail.filter (· ≠ "") with
  | none => fail 403 "a verified email is required to accept an invitation"
  | some verifiedEmail => do
    let email := toLowerCase (trim verifiedEmail)
    match ← getPendingInvite tenantId email with
    | none => fail 404 "no pending invitation for this account and tenant"
    | some invite => put { invite with userId := some userSub, status := .active, invitedEmail := none }

def countActiveOwners (tenantId : TenantId) : Run ℕ := do
  let members ← listForTenant tenantId
  return (members.filter fun m => m.status = .active ∧ m.role = .owner).length

/-- Whether an owner is to be taken away while there is no other. -/
def isLastOwner (takesOwner : Bool) (tenantId : TenantId) : Run Bool :=
  if takesOwner then do
    let owners ← countActiveOwners tenantId
    return owners ≤ 1
  else return false

def changeRole (actor : Actor) (tenantId : TenantId) (targetUserId : UserId) (newRole : String) :
    Run Membership :=
  if actor.tenantId ≠ tenantId then fail 403 "not acting in that tenant"
  else if !tenantRoleAtLeast actor.tenantRole .admin then fail 403 "requires tenant role: admin or higher"
  else match validRole newRole with
  | none => fail 400 "invalid role"
  | some role =>
    if role = .owner ∧ actor.tenantRole ≠ .owner then fail 403 "only an owner may grant the owner role"
    else do
      match ← getActive targetUserId tenantId with
      | none => fail 404 "no such member"
      | some target =>
        if ← isLastOwner (target.role = .owner ∧ role ≠ .owner) tenantId then
          fail 409 "cannot demote the last owner"
        else put { target with role }

def removeMember (actor : Actor) (tenantId : TenantId) (targetUserId : UserId) : Run Bool :=
  if actor.tenantId ≠ tenantId then fail 403 "not acting in that tenant"
  else if !tenantRoleAtLeast actor.tenantRole .admin then fail 403 "requires tenant role: admin or higher"
  else do
    match ← getActive targetUserId tenantId with
    | none => fail 404 "no such member"
    | some target =>
      if ← isLastOwner (target.role = .owner) tenantId then fail 409 "cannot remove the last owner"
      else remove target.id

end Service

end CatalogSentinel.Tenancy
