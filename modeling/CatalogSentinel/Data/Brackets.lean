import Mathlib.Data.List.Basic

/-!
Texts with one kind of brackets. A reader that only counts brackets finds the one that
closes a group, over everything in between that leaves the count as it was.
-/

namespace CatalogSentinel.Data.Brackets

variable {α : Type} (isOpen isClose : α → Bool)

/-- What follows the bracket that closes the outermost of those that are open. -/
def skip : ℕ → List α → Option (List α)
  | _, [] => none
  | depth, t :: rest =>
    if isOpen t then skip (depth + 1) rest
    else if isClose t then
      if depth = 1 then some rest else skip (depth - 1) rest
    else skip depth rest

/-- The text leaves the count of open brackets as it was, and never closes one before it. -/
def Neutral (text : List α) : Prop :=
  ∀ depth rest, skip isOpen isClose (depth + 1) (text ++ rest) = skip isOpen isClose (depth + 1) rest

variable {isOpen isClose}

theorem skip_plain {t : α} (hopen : isOpen t = false) (hclose : isClose t = false) (depth : ℕ)
    (rest : List α) : skip isOpen isClose depth (t :: rest) = skip isOpen isClose depth rest := by
  rw [skip, hopen, hclose]
  rfl

theorem neutral_nil : Neutral isOpen isClose [] := fun _ _ => rfl

theorem Neutral.append {text more : List α} (h : Neutral isOpen isClose text)
    (h' : Neutral isOpen isClose more) : Neutral isOpen isClose (text ++ more) := by
  intro depth rest
  rw [List.append_assoc, h, h']

theorem neutral_single {t : α} (hopen : isOpen t = false) (hclose : isClose t = false) :
    Neutral isOpen isClose [t] := by
  intro depth rest
  rw [List.singleton_append, skip, hopen, hclose]
  rfl

theorem Neutral.cons {t : α} {text : List α} (h : Neutral isOpen isClose text) (hopen : isOpen t = false)
    (hclose : isClose t = false) : Neutral isOpen isClose (t :: text) :=
  (neutral_single hopen hclose).append h

theorem Neutral.skip_group {inner : List α} (h : Neutral isOpen isClose inner) {close : α}
    (hopen : isOpen close = false) (hclose : isClose close = true) (depth : ℕ) (rest : List α) :
    skip isOpen isClose (depth + 1) (inner ++ close :: rest) =
      if depth = 0 then some rest else skip isOpen isClose depth rest := by
  rw [h, skip, hopen, hclose]
  simp

theorem Neutral.group {inner : List α} (h : Neutral isOpen isClose inner) {o c : α}
    (ho : isOpen o = true) (hopen : isOpen c = false) (hclose : isClose c = true) :
    Neutral isOpen isClose (o :: (inner ++ [c])) := by
  intro depth rest
  rw [List.cons_append, skip, ho, List.append_assoc, List.singleton_append, if_pos rfl,
    h.skip_group hopen hclose, if_neg (Nat.succ_ne_zero depth)]

/-- The bracket that is found is read over. -/
theorem skip_length {depth : ℕ} {text rest : List α} (h : skip isOpen isClose depth text = some rest) :
    rest.length < text.length := by
  induction text generalizing depth with
  | nil => cases h
  | cons t text ih =>
    rw [skip] at h
    rw [List.length_cons]
    split at h
    · exact Nat.lt_succ_of_lt (ih h)
    · split at h
      · split at h
        · rw [Option.some.inj h]
          exact Nat.lt_succ_self _
        · exact Nat.lt_succ_of_lt (ih h)
      · exact Nat.lt_succ_of_lt (ih h)

end CatalogSentinel.Data.Brackets
