import Mathlib.Data.List.Basic
import Mathlib.Order.Nat
import Mathlib.Tactic.Common

/-!
The edit distance of two lists: how many items must be deleted, inserted or replaced to make one of
the other. It is the least cost of an alignment, so it is a metric, and does not depend on the end
from which the lists are read.
-/

namespace CatalogSentinel.Data

variable {α : Type} [DecidableEq α]

/-- What it costs to put one item in the place of another. -/
def replaceCost (a b : α) : ℕ := if a = b then 0 else 1

def editDistance : List α → List α → ℕ
  | [], bs => bs.length
  | a :: as, [] => (a :: as).length
  | a :: as, b :: bs =>
    min (min (editDistance (a :: as) bs + 1) (editDistance as (b :: bs) + 1))
      (editDistance as bs + replaceCost a b)
termination_by as bs => as.length + bs.length

/-- One list is made of the other at this cost. -/
inductive Aligns : List α → List α → ℕ → Prop
  | nil : Aligns [] [] 0
  | delete (a : α) {as bs : List α} {n : ℕ} (h : Aligns as bs n) : Aligns (a :: as) bs (n + 1)
  | insert (b : α) {as bs : List α} {n : ℕ} (h : Aligns as bs n) : Aligns as (b :: bs) (n + 1)
  | replace (a b : α) {as bs : List α} {n : ℕ} (h : Aligns as bs n) :
      Aligns (a :: as) (b :: bs) (n + replaceCost a b)

@[simp] theorem replaceCost_self (a : α) : replaceCost a a = 0 := if_pos rfl

theorem replaceCost_comm (a b : α) : replaceCost a b = replaceCost b a := by
  simp only [replaceCost, eq_comm]

theorem replaceCost_le (a b : α) : replaceCost a b ≤ 1 := by
  unfold replaceCost
  split <;> omega

theorem replaceCost_triangle (a b c : α) : replaceCost a c ≤ replaceCost a b + replaceCost b c := by
  unfold replaceCost
  by_cases hab : a = b
  · simp [hab]
  · rw [if_neg hab]
    split <;> omega

@[simp] theorem editDistance_nil_left (bs : List α) : editDistance [] bs = bs.length := by
  rw [editDistance]

@[simp] theorem editDistance_nil_right (as : List α) : editDistance as [] = as.length := by
  cases as <;> rw [editDistance]

theorem editDistance_cons (a b : α) (as bs : List α) : editDistance (a :: as) (b :: bs) =
    min (min (editDistance (a :: as) bs + 1) (editDistance as (b :: bs) + 1))
      (editDistance as bs + replaceCost a b) := by
  rw [editDistance]

/-! ### The least alignment -/

theorem Aligns.of_inserts (bs : List α) : Aligns [] bs bs.length := by
  induction bs with
  | nil => exact .nil
  | cons b bs ih => exact .insert b ih

theorem Aligns.of_deletes (as : List α) : Aligns as [] as.length := by
  induction as with
  | nil => exact .nil
  | cons a as ih => exact .delete a ih

theorem aligns_editDistance (as bs : List α) : Aligns as bs (editDistance as bs) := by
  induction as, bs using editDistance.induct with
  | case1 bs => rw [editDistance_nil_left]; exact .of_inserts bs
  | case2 a as => rw [editDistance_nil_right]; exact .of_deletes (a :: as)
  | case3 a as b bs hinsert hdelete hreplace =>
    rw [editDistance_cons]
    have hcases : ∀ x y : ℕ, min x y = x ∨ min x y = y := fun x y => by omega
    rcases hcases (min (editDistance (a :: as) bs + 1) (editDistance as (b :: bs) + 1))
        (editDistance as bs + replaceCost a b) with h | h
    · rw [h]
      rcases hcases (editDistance (a :: as) bs + 1) (editDistance as (b :: bs) + 1) with h | h
      · rw [h]; exact .insert b hinsert
      · rw [h]; exact .delete a hdelete
    · rw [h]; exact .replace a b hreplace

theorem editDistance_cons_left_le (a : α) (as bs : List α) :
    editDistance (a :: as) bs ≤ editDistance as bs + 1 := by
  cases bs with
  | nil => simp
  | cons b bs => rw [editDistance_cons]; omega

theorem editDistance_cons_right_le (b : α) (as bs : List α) :
    editDistance as (b :: bs) ≤ editDistance as bs + 1 := by
  cases as with
  | nil => simp
  | cons a as => rw [editDistance_cons]; omega

theorem Aligns.editDistance_le {as bs : List α} {n : ℕ} (h : Aligns as bs n) : editDistance as bs ≤ n := by
  induction h with
  | nil => simp
  | delete a h ih => exact (editDistance_cons_left_le a _ _).trans (Nat.succ_le_succ ih)
  | insert b h ih => exact (editDistance_cons_right_le b _ _).trans (Nat.succ_le_succ ih)
  | replace a b h ih => rw [editDistance_cons]; omega

/-! ### A metric -/

theorem Aligns.symm {as bs : List α} {n : ℕ} (h : Aligns as bs n) : Aligns bs as n := by
  induction h with
  | nil => exact .nil
  | delete a h ih => exact .insert a ih
  | insert b h ih => exact .delete b ih
  | replace a b h ih => rw [replaceCost_comm]; exact .replace b a ih

theorem editDistance_comm (as bs : List α) : editDistance as bs = editDistance bs as :=
  le_antisymm (aligns_editDistance bs as).symm.editDistance_le (aligns_editDistance as bs).symm.editDistance_le

/-- What is made of the middle list is made of the first one at no more than both costs. -/
theorem Aligns.trans {as bs cs : List α} {m n : ℕ} (hab : Aligns as bs m) (hbc : Aligns bs cs n) :
    ∃ k ≤ m + n, Aligns as cs k := by
  induction hab generalizing cs n with
  | nil => exact ⟨n, by omega, hbc⟩
  | delete a h ih =>
    obtain ⟨k, hk, hac⟩ := ih hbc
    exact ⟨k + 1, by omega, .delete a hac⟩
  | @insert b as bs m h ih =>
    -- the item that was inserted is deleted or replaced in turn, behind insertions that stay
    generalize hmiddle : b :: bs = middle at hbc
    induction hbc with
    | nil => cases hmiddle
    | delete b' h' _ =>
      cases hmiddle
      obtain ⟨k, hk, hac⟩ := ih h'
      exact ⟨k, by omega, hac⟩
    | insert c h' ih' =>
      obtain ⟨k, hk, hac⟩ := ih' hmiddle
      exact ⟨k + 1, by omega, .insert c hac⟩
    | replace b' c h' _ =>
      cases hmiddle
      obtain ⟨k, hk, hac⟩ := ih h'
      exact ⟨k + 1, by omega, .insert c hac⟩
  | @replace a b as bs m h ih =>
    generalize hmiddle : b :: bs = middle at hbc
    induction hbc with
    | nil => cases hmiddle
    | delete b' h' _ =>
      cases hmiddle
      obtain ⟨k, hk, hac⟩ := ih h'
      exact ⟨k + 1, by omega, .delete a hac⟩
    | insert c h' ih' =>
      obtain ⟨k, hk, hac⟩ := ih' hmiddle
      exact ⟨k + 1, by omega, .insert c hac⟩
    | replace b' c h' _ =>
      cases hmiddle
      obtain ⟨k, hk, hac⟩ := ih h'
      have hcost := replaceCost_triangle a b c
      exact ⟨k + replaceCost a c, by omega, .replace a c hac⟩

theorem editDistance_triangle (as bs cs : List α) :
    editDistance as cs ≤ editDistance as bs + editDistance bs cs := by
  obtain ⟨k, hk, hac⟩ := (aligns_editDistance as bs).trans (aligns_editDistance bs cs)
  exact hac.editDistance_le.trans hk

theorem Aligns.eq_of_zero {as bs : List α} {n : ℕ} (h : Aligns as bs n) (hn : n = 0) : as = bs := by
  induction h with
  | nil => rfl
  | delete a h ih => omega
  | insert b h ih => omega
  | replace a b h ih =>
    have hcost : replaceCost a b = 0 := by omega
    have hab : a = b := by
      by_contra hne
      rw [replaceCost, if_neg hne] at hcost
      omega
    rw [hab, ih (by omega)]

theorem Aligns.refl (as : List α) : Aligns as as 0 := by
  induction as with
  | nil => exact .nil
  | cons a as ih => simpa using ih.replace a a

theorem editDistance_eq_zero {as bs : List α} : editDistance as bs = 0 ↔ as = bs := by
  constructor
  · exact (aligns_editDistance as bs).eq_of_zero
  · rintro rfl
    exact Nat.le_zero.1 (Aligns.refl as).editDistance_le

theorem editDistance_le_max (as bs : List α) : editDistance as bs ≤ max as.length bs.length := by
  induction as, bs using editDistance.induct with
  | case1 bs => simp
  | case2 a as => simp
  | case3 a as b bs _ _ hreplace =>
    have hcost := replaceCost_le a b
    simp only [editDistance_cons, List.length_cons]
    omega

/-! ### Either end -/

theorem Aligns.append {as as' bs bs' : List α} {m n : ℕ} (h : Aligns as bs m) (h' : Aligns as' bs' n) :
    Aligns (as ++ as') (bs ++ bs') (m + n) := by
  induction h with
  | nil => simpa using h'
  | delete a h ih => rw [Nat.add_right_comm]; exact .delete a ih
  | insert b h ih => rw [Nat.add_right_comm]; exact .insert b ih
  | replace a b h ih => rw [Nat.add_right_comm]; exact .replace a b ih

theorem Aligns.reverse {as bs : List α} {n : ℕ} (h : Aligns as bs n) : Aligns as.reverse bs.reverse n := by
  induction h with
  | nil => exact .nil
  | delete a h ih => simpa using ih.append (.of_deletes [a])
  | insert b h ih => simpa using ih.append (.of_inserts [b])
  | replace a b h ih =>
    have hone : Aligns [a] [b] (0 + replaceCost a b) := .replace a b .nil
    simpa using ih.append hone

theorem editDistance_reverse (as bs : List α) : editDistance as.reverse bs.reverse = editDistance as bs := by
  apply le_antisymm
  · exact (aligns_editDistance as bs).reverse.editDistance_le
  · have h := (aligns_editDistance as.reverse bs.reverse).reverse.editDistance_le
    simpa using h

end CatalogSentinel.Data
