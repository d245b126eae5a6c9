import CatalogSentinel.Concurrent.Prog
import Mathlib.Data.List.Nodup
import Mathlib.Logic.Function.Basic

/-!
A sweep runs one program for each item of a list, one after the other, whether the program of an
item returns or throws. Each program sees the part of the world that belongs to its item, so that
with distinct parts every item comes to what it would come to alone.
-/

namespace CatalogSentinel.Concurrent

variable {S : Signature} {ε α β ι κ σ : Type}

/-- What a program awaited, and how it settled. -/
structure Settlement (S : Signature) (ε α : Type) where
  calls : List S.Op
  result : Except ε α

/-- Run a program where the answer of an await depends on a state that it may change. -/
def exec (perform : σ → (o : S.Op) → Except ε (S.Ans o) × σ) : Prog S ε α → σ → Settlement S ε α × σ
  | .ret a, s => (⟨[], .ok a⟩, s)
  | .raise e, s => (⟨[], .error e⟩, s)
  | .op o k, s =>
    let rest := exec perform (k (perform s o).1) (perform s o).2
    (⟨o :: rest.1.calls, rest.1.result⟩, rest.2)

variable [DecidableEq κ] (perform : σ → (o : S.Op) → Except ε (S.Ans o) × σ) (key : ι → κ)
  (p : ι → Prog S ε α)

def sweep : List ι → (κ → σ) → List (ι × Settlement S ε α) × (κ → σ)
  | [], w => ([], w)
  | i :: is, w =>
    let done := exec perform (p i) (w (key i))
    let rest := sweep is (Function.update w (key i) done.2)
    ((i, done.1) :: rest.1, rest.2)

variable {perform key p}

/-- The parts of other items stay as they are. -/
theorem sweep_frame {is : List ι} {k : κ} (h : k ∉ is.map key) (w : κ → σ) :
    (sweep perform key p is w).2 k = w k := by
  induction is generalizing w with
  | nil => rfl
  | cons i is ih =>
    rw [List.map_cons, List.mem_cons, not_or] at h
    rw [sweep]
    dsimp only
    rw [ih h.2, Function.update_of_ne h.1]

/-- Every item is gone through, and comes to what its program comes to alone. -/
theorem sweep_entries {is : List ι} (h : (is.map key).Nodup) (w : κ → σ) :
    (sweep perform key p is w).1 = is.map fun i => (i, (exec perform (p i) (w (key i))).1) := by
  induction is generalizing w with
  | nil => rfl
  | cons i is ih =>
    rw [List.map_cons, List.nodup_cons] at h
    rw [sweep, List.map_cons]
    dsimp only
    rw [ih h.2]
    congr 1
    apply List.map_congr_left
    intro j hj
    have hne : key j ≠ key i := fun heq => h.1 (heq ▸ List.mem_map_of_mem hj)
    rw [Function.update_of_ne hne]

theorem sweep_part {is : List ι} (h : (is.map key).Nodup) {i : ι} (hi : i ∈ is) (w : κ → σ) :
    (sweep perform key p is w).2 (key i) = (exec perform (p i) (w (key i))).2 := by
  induction is generalizing w with
  | nil => cases hi
  | cons j is ih =>
    rw [List.map_cons, List.nodup_cons] at h
    rw [sweep]
    dsimp only
    obtain rfl | hi := List.mem_cons.1 hi
    · rw [sweep_frame h.1, Function.update_self]
    · have hne : key i ≠ key j := fun heq => h.1 (heq ▸ List.mem_map_of_mem hi)
      rw [ih h.2 hi, Function.update_of_ne hne]

end CatalogSentinel.Concurrent
