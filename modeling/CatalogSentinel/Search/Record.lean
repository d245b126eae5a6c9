import CatalogSentinel.Checkpoint.Sanitize
import CatalogSentinel.Concurrent.Serial

/-!
Saved searches, their revisions, and the law that concurrent updates and puts of
one of them are meant to obey. A record is what its JSON text says; everything
that the store neither checks nor keeps from a mutation is in its body.
-/

namespace CatalogSentinel.Search

open Checkpoint (isSafeInteger)
open Concurrent.Serial (Law)

variable {γ : Type}

structure SearchRecord (γ : Type) where
  id : String
  revision : Option ℚ
  userId : String
  sourceSearchId : Option String
  createdAt : String
  body : γ
deriving DecidableEq

/-- `Number.MAX_SAFE_INTEGER` -/
def maxSafeInteger : ℕ := 9007199254740991

/-- Missing and invalid revisions count as the oldest one. -/
def revisionOf (record : SearchRecord γ) : ℕ :=
  match record.revision with
  | some n => if isSafeInteger n ∧ 0 ≤ n then n.num.toNat else 0
  | none => 0

def applySearchMutation (current : SearchRecord γ) (mutate : SearchRecord γ → SearchRecord γ) :
    SearchRecord γ :=
  { mutate current with
    id := current.id
    userId := current.userId
    createdAt := current.createdAt
    revision := some ((revisionOf current + 1 : ℕ) : ℚ)
    sourceSearchId := current.sourceSearchId.filter (· ≠ "") }

def searchRecordsEqual [DecidableEq γ] (a b : SearchRecord γ) : Bool := a = b

/-! ### Calls -/

/-- A call on the record of one id; a record that is put carries that id. -/
inductive Call (γ : Type)
  | get
  | update (mutate : SearchRecord γ → SearchRecord γ)
  | put (rec : SearchRecord γ)

inductive Reply (γ : Type)
  | record (r : Option (SearchRecord γ))
  | done

inductive Fault
  | changedDuringUpdate
  | changedDuringPut
  | changedDuringDurableUpdate
  | conflictingRevision
  | idOwnedByAnotherUser
  | ownedByAnotherUser
  | upsertDidNotConverge
  /-- PostgreSQL cannot cast the stored revision to `bigint`. -/
  | invalidBigint
deriving DecidableEq

def Fault.message : Fault → String
  | .changedDuringUpdate => "search record changed repeatedly during update"
  | .changedDuringPut => "search record changed repeatedly during put"
  | .changedDuringDurableUpdate => "search record changed repeatedly during durable update"
  | .conflictingRevision => "conflicting search record revision"
  | .idOwnedByAnotherUser => "search record id is already owned by another user"
  | .ownedByAnotherUser => "scan record is owned by another user"
  | .upsertDidNotConverge => "scan record durable upsert did not converge"
  | .invalidBigint => "invalid input syntax for type bigint"

/-! ### The law -/

section Law

variable (stamp : SearchRecord γ → SearchRecord γ)

/-- An update mutates the stored record, and a put replaces it by its own, as `stamp`
leaves it. An update that answers a record took effect; a put that answers took effect,
or met a record that it is not newer than. A call that fails has no effect. -/
def law : Law (Call γ) (SearchRecord γ) (Except Fault (Reply γ)) where
  act
    | .get, stored => stored
    | .update mutate, stored => stored.map (applySearchMutation · mutate)
    | .put rec, _ => some (stamp rec)
  took
    | .update _, .ok (.record (some next)), after => after = some next
    | .put _, .ok .done, _ => True
    | _, _, _ => False
  met
    | _, .error _, _ => True
    | .get, .ok (.record r), stored => stored = r
    | .update _, .ok (.record none), stored => stored = none
    | .put rec, .ok .done, stored => ∃ r, stored = some r ∧ revisionOf rec ≤ revisionOf r
    | _, _, _ => False

theorem met_error (k : Call γ) (e : Fault) (stored : Option (SearchRecord γ)) :
    (law stamp).met k (.error e) stored := by
  cases k <;> trivial

/-- A call has an effect only where the stored revision grows by it, and a put only where
its record is newer than the stored one. -/
def Advances : Call γ → Option (SearchRecord γ) → Prop
  | .get, _ => False
  | .update mutate, stored =>
    ∃ r, stored = some r ∧ revisionOf r < revisionOf (applySearchMutation r mutate)
  | .put rec, stored =>
    ∀ r, stored = some r → revisionOf r < revisionOf rec ∧ revisionOf r < revisionOf (stamp rec)

end Law

/-! ### Revisions -/

theorem revisionOf_le (record : SearchRecord γ) : revisionOf record ≤ maxSafeInteger := by
  unfold revisionOf
  split
  · split
    · rename_i n h
      have hn := h.1
      simp only [isSafeInteger, decide_eq_true_eq] at hn
      have := hn.2
      unfold maxSafeInteger
      omega
    · exact Nat.zero_le _
  · exact Nat.zero_le _

theorem revisionOf_natCast (record : SearchRecord γ) (n : ℕ) :
    revisionOf { record with revision := some (n : ℚ) } = if n ≤ maxSafeInteger then n else 0 := by
  have hden : ((n : ℚ)).den = 1 := Rat.den_natCast n
  have hnum : ((n : ℚ)).num = n := Rat.num_natCast n
  have hpos : (0 : ℚ) ≤ n := Nat.cast_nonneg n
  unfold revisionOf isSafeInteger maxSafeInteger
  simp [hden, hnum, hpos]

theorem revisionOf_applySearchMutation (r : SearchRecord γ)
    (mutate : SearchRecord γ → SearchRecord γ) : revisionOf (applySearchMutation r mutate) =
      if revisionOf r < maxSafeInteger then revisionOf r + 1 else 0 :=
  revisionOf_natCast (applySearchMutation r mutate) (revisionOf r + 1)

/-- A mutation advances the revision unless it is the largest safe integer. -/
theorem lt_revisionOf_applySearchMutation {r : SearchRecord γ}
    {mutate : SearchRecord γ → SearchRecord γ} :
    revisionOf r < revisionOf (applySearchMutation r mutate) ↔ revisionOf r < maxSafeInteger := by
  rw [revisionOf_applySearchMutation]
  split <;> omega

/-! ### Callbacks that edit the record they are given -/

/-- What a callback leaves of the record it is given, and the record it returns. -/
abbrev Callback (γ : Type) := SearchRecord γ → SearchRecord γ × SearchRecord γ

/-- The identity is captured before the callback, the lineage is read after it. -/
def applySearchCallback (current : SearchRecord γ) (mutate : Callback γ) : SearchRecord γ :=
  let id := current.id
  let userId := current.userId
  let createdAt := current.createdAt
  let revision := revisionOf current + 1
  let (current, mutated) := mutate current
  { mutated with
    id, userId, createdAt
    revision := some (revision : ℚ)
    sourceSearchId := current.sourceSearchId.filter (· ≠ "") }

/-- The same record, one revision later. -/
structure SameIdentity (current next : SearchRecord γ) : Prop where
  id : next.id = current.id
  userId : next.userId = current.userId
  createdAt : next.createdAt = current.createdAt
  sourceSearchId : next.sourceSearchId = current.sourceSearchId
  revision : next.revision = some ((revisionOf current + 1 : ℕ) : ℚ)

/-- The identity is kept exactly if the callback leaves the lineage, which is not empty, in place. -/
theorem sameIdentity_iff (current : SearchRecord γ) (mutate : Callback γ) :
    SameIdentity current (applySearchCallback current mutate) ↔
      (mutate current).1.sourceSearchId.filter (· ≠ "") = current.sourceSearchId := by
  constructor
  · intro h
    exact h.sourceSearchId
  · intro h
    exact ⟨rfl, rfl, rfl, h, rfl⟩

/-- A callback that renames the lineage in place and returns what it was given. -/
theorem sameIdentity_edited : ∃ (current : SearchRecord Unit) (mutate : Callback Unit),
    (∀ r, (mutate r).1 = (mutate r).2) ∧ current.sourceSearchId = some "source" ∧
      (applySearchCallback current mutate).sourceSearchId = some "other" ∧
      ¬ SameIdentity current (applySearchCallback current mutate) := by
  let edit : SearchRecord Unit → SearchRecord Unit := fun r => { r with sourceSearchId := some "other" }
  refine ⟨⟨"search", some 1, "user", some "source", "2026-01-01T00:00:00.000Z", ()⟩, fun r => (edit r, edit r),
    fun _ => rfl, rfl, by decide, fun h => ?_⟩
  have hlineage := (sameIdentity_iff _ _).1 h
  revert hlineage
  decide

end CatalogSentinel.Search
