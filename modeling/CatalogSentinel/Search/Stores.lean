import CatalogSentinel.Search.Record

/-!
The two stores of saved searches, as the commands that a call awaits. Redis keeps
the JSON text of a record under its key, and a script replaces it where the text is
still the one that was read; a text is the record and the order of its keys, which
two texts of one record may differ in. PostgreSQL keeps a row with the owner's column
and the record, and a statement replaces it where the row's revision allows.
-/

namespace CatalogSentinel.Search

open Concurrent
open Concurrent.Serial (Backend command)

variable {γ : Type} [DecidableEq γ]

/-! ### Redis -/

namespace Redis

structure Text (γ : Type) where
  record : SearchRecord γ
  layout : ℕ
deriving DecidableEq

/-- The commands on the record's key, and `LPUSH` and `LTRIM` on the index keys. -/
inductive Cmd (γ : Type)
  | get
  | compareAndSet (raw : Text γ) (next : SearchRecord γ)
  | putIfAbsent (rec : SearchRecord γ)
  | index

def Cmd.Ans : Cmd γ → Type
  | .get => Option (Text γ)
  | .compareAndSet _ _ => Bool
  | .putIfAbsent _ => Bool
  | .index => Unit

/-- The choice is the order of the keys in a text that is written. -/
def exec : (c : Cmd γ) → Option (Text γ) → ℕ → Except Fault c.Ans × Option (Text γ)
  | .get, stored, _ => (.ok stored, none)
  | .compareAndSet raw next, stored, layout =>
    if stored = some raw then (.ok true, some ⟨next, layout⟩) else (.ok false, none)
  | .putIfAbsent rec, none, layout => (.ok true, some ⟨rec, layout⟩)
  | .putIfAbsent _, some _, _ => (.ok false, none)
  | .index, _, _ => (.ok (), none)

variable (γ) in
def backend : Backend (Text γ) Fault where
  Cmd := Cmd γ
  Ans := Cmd.Ans
  Choice := ℕ
  exec := exec

variable (γ) in
abbrev Run (α : Type) := Prog ((backend γ).signature (Reply γ)) Fault α

def getKey : Run γ (Option (Text γ)) := command (backend γ) Cmd.get

def compareAndSet (raw : Text γ) (next : SearchRecord γ) : Run γ Bool :=
  command (backend γ) (Cmd.compareAndSet raw next)

def putIfAbsent (rec : SearchRecord γ) : Run γ Bool := command (backend γ) (Cmd.putIfAbsent rec)

def index : Run γ Unit := command (backend γ) Cmd.index

def indexRecord : Run γ Unit := do
  index
  index
  index

def get : Run γ (Option (SearchRecord γ)) := do
  let raw ← getKey
  return raw.map Text.record

/-- With so many attempts left. -/
def update (mutate : SearchRecord γ → SearchRecord γ) : ℕ → Run γ (Option (SearchRecord γ))
  | 0 => throw .changedDuringUpdate
  | attempts + 1 => do
    match ← getKey with
    | none => return none
    | some raw =>
      let next := applySearchMutation raw.record mutate
      if ← compareAndSet raw next then return some next else update mutate attempts

def put (rec : SearchRecord γ) : ℕ → Run γ Unit
  | 0 => throw .changedDuringPut
  | attempts + 1 => do
    match ← getKey with
    | none => if ← putIfAbsent rec then indexRecord else put rec attempts
    | some raw =>
      let current := raw.record
      if current.userId ≠ rec.userId then
        throw .idOwnedByAnotherUser
      else if revisionOf rec < revisionOf current then
        return
      else if revisionOf rec = revisionOf current then
        if searchRecordsEqual current rec then return else throw .conflictingRevision
      else if ← compareAndSet raw rec then
        return
      else
        put rec attempts

def program : Call γ → Run γ (Reply γ)
  | .get => do return .record (← get)
  | .update mutate => do return .record (← update mutate 8)
  | .put rec => do
    put rec 8
    return .done

end Redis

/-! ### PostgreSQL -/

namespace Postgres

structure Row (γ : Type) where
  userId : String
  record : SearchRecord γ
deriving DecidableEq

/-- `COALESCE((record->>'revision')::bigint, 0)`, unless the cast fails. -/
def sqlRevision (record : SearchRecord γ) : Option ℤ :=
  match record.revision with
  | none => some 0
  | some n => if n.den = 1 ∧ -2 ^ 63 ≤ n.num ∧ n.num < 2 ^ 63 then some n.num else none

inductive Cmd (γ : Type)
  | select
  | upsert (owned : SearchRecord γ) (revision : ℕ)
  | update (userId : String) (next : SearchRecord γ) (expected : ℕ)

/-- Whether a statement affected the row. -/
def Cmd.Ans : Cmd γ → Type
  | .select => Option (Row γ)
  | .upsert _ _ => Bool
  | .update _ _ _ => Bool

/-- Replace the record of a row of the user whose revision satisfies the condition. -/
def replace (row : Row γ) (userId : String) (allows : ℤ → Bool) (next : SearchRecord γ) :
    Except Fault Bool × Option (Row γ) :=
  if row.userId = userId then
    match sqlRevision row.record with
    | none => (.error .invalidBigint, none)
    | some n => if allows n then (.ok true, some { row with record := next }) else (.ok false, none)
  else
    (.ok false, none)

def exec : (c : Cmd γ) → Option (Row γ) → Unit → Except Fault c.Ans × Option (Row γ)
  | .select, stored, _ => (.ok stored, none)
  | .upsert owned _, none, _ => (.ok true, some ⟨owned.userId, owned⟩)
  | .upsert owned revision, some row, _ => replace row owned.userId (· < revision) owned
  | .update _ _ _, none, _ => (.ok false, none)
  | .update userId next expected, some row, _ => replace row userId (· = expected) next

variable (γ) in
def backend : Backend (Row γ) Fault where
  Cmd := Cmd γ
  Ans := Cmd.Ans
  Choice := Unit
  exec := exec

variable (γ) in
abbrev Run (α : Type) := Prog ((backend γ).signature (Reply γ)) Fault α

def select : Run γ (Option (Row γ)) := command (backend γ) Cmd.select

def upsertRow (owned : SearchRecord γ) (revision : ℕ) : Run γ Bool :=
  command (backend γ) (Cmd.upsert owned revision)

def updateRow (userId : String) (next : SearchRecord γ) (expected : ℕ) : Run γ Bool :=
  command (backend γ) (Cmd.update userId next expected)

def ownedRevision (rec : SearchRecord γ) : ℕ := max 1 (revisionOf rec)

def owned (rec : SearchRecord γ) : SearchRecord γ :=
  { rec with revision := some (ownedRevision rec : ℚ) }

def upsert (rec : SearchRecord γ) : Run γ Unit := do
  if ← upsertRow (owned rec) (ownedRevision rec) then return
  match ← select with
  | none => throw .upsertDidNotConverge
  | some existing =>
    let persisted := existing.record
    if existing.userId ≠ rec.userId then
      throw .ownedByAnotherUser
    else if ownedRevision rec < revisionOf persisted then
      return
    else if revisionOf persisted = ownedRevision rec ∧ searchRecordsEqual persisted (owned rec) then
      return
    else
      throw .conflictingRevision

def get : Run γ (Option (SearchRecord γ)) := do
  let row ← select
  return row.map Row.record

/-- With so many attempts left. -/
def update (mutate : SearchRecord γ → SearchRecord γ) : ℕ → Run γ (Option (SearchRecord γ))
  | 0 => throw .changedDuringDurableUpdate
  | attempts + 1 => do
    match ← get with
    | none => return none
    | some cur =>
      let next := applySearchMutation cur mutate
      if ← updateRow cur.userId next (revisionOf cur) then
        return some next
      else
        update mutate attempts

def put (rec : SearchRecord γ) : Run γ Unit := upsert rec

def program : Call γ → Run γ (Reply γ)
  | .get => do return .record (← get)
  | .update mutate => do return .record (← update mutate 8)
  | .put rec => do
    put rec
    return .done

end Postgres

end CatalogSentinel.Search
