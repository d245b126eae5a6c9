import Mathlib.Algebra.GroupWithZero.Nat
import Mathlib.Data.List.Basic

/-!
Replacing every match of a pattern in a text, from left to right. The pattern is a
matcher that says what follows a match at the start of a text. Where no match starts
in the replacement, and none appears only because something after it was replaced,
a text that was gone through once is left as it is.
-/

namespace CatalogSentinel.Data

/-- A pattern, by what follows a match of it at the start of a text; no match is empty. -/
structure Matcher (α : Type) where
  matchAt : List α → Option (List α)
  matched : ∀ text rest, matchAt text = some rest → ∃ m, m ≠ [] ∧ text = m ++ rest

namespace Matcher

variable {α : Type} (M : Matcher α) (new : List α)

/-- With a step for each element at most. -/
def replaceFrom : ℕ → List α → List α
  | _, [] => []
  | 0, text => text
  | n + 1, c :: text =>
    match M.matchAt (c :: text) with
    | some rest => new ++ replaceFrom n rest
    | none => c :: replaceFrom n text

def replaceAll (text : List α) : List α := M.replaceFrom new text.length text

def foundFrom : ℕ → List α → List (List α)
  | _, [] => []
  | 0, _ => []
  | n + 1, c :: text =>
    match M.matchAt (c :: text) with
    | some rest => (c :: text).take ((c :: text).length - rest.length) :: foundFrom n rest
    | none => foundFrom n text

/-- The matches that are replaced. -/
def found (text : List α) : List (List α) := M.foundFrom text.length text

/-- The text, and what replacing makes of it. -/
inductive Replaced : List α → List α → Prop
  | nil : Replaced [] []
  | keep {c : α} {text out : List α} (hnone : M.matchAt (c :: text) = none)
      (hrest : Replaced text out) : Replaced (c :: text) (c :: out)
  | replace {text rest out : List α} (hmatch : M.matchAt text = some rest)
      (hrest : Replaced rest out) : Replaced text (new ++ out)

variable {M new}

theorem length_lt {text rest : List α} (h : M.matchAt text = some rest) : rest.length < text.length := by
  obtain ⟨m, hm, rfl⟩ := M.matched text rest h
  have hpos := List.length_pos_iff.2 hm
  rw [List.length_append]
  omega

theorem replaceFrom_replaced {n : ℕ} {text : List α} (hn : text.length ≤ n) :
    M.Replaced new text (M.replaceFrom new n text) := by
  induction n generalizing text with
  | zero =>
    obtain rfl := List.length_eq_zero_iff.1 (Nat.le_zero.1 hn)
    exact .nil
  | succ n ih =>
    cases text with
    | nil => exact .nil
    | cons c text =>
      rw [replaceFrom]
      cases hmatch : M.matchAt (c :: text) with
      | some rest =>
        have hlt := length_lt hmatch
        exact .replace hmatch (ih (by omega))
      | none => exact .keep hmatch (ih (Nat.le_of_succ_le_succ hn))

theorem replaceAll_replaced (text : List α) : M.Replaced new text (M.replaceAll new text) :=
  replaceFrom_replaced (Nat.le_refl _)

/-- No match starts anywhere in the text. -/
def Clean (M : Matcher α) (text : List α) : Prop := ∀ t, t ≠ [] → t <:+ text → M.matchAt t = none

theorem replaceFrom_of_clean {n : ℕ} {text : List α} (h : M.Clean text) :
    M.replaceFrom new n text = text := by
  induction n generalizing text with
  | zero =>
    cases text with
    | nil => rfl
    | cons c text => rfl
  | succ n ih =>
    cases text with
    | nil => rfl
    | cons c text =>
      have hnone : M.matchAt (c :: text) = none := h _ (List.cons_ne_nil c text) List.suffix_rfl
      have hrest : M.Clean text := fun t ht hsuffix => h t ht (hsuffix.trans (List.suffix_cons c text))
      rw [replaceFrom, hnone]
      dsimp only
      rw [ih hrest]

/-- What was gone through has no match, if none starts in the replacement and none appears only
because something after it was replaced. -/
theorem Replaced.clean
    (hinside : ∀ i < new.length, ∀ out, M.matchAt (new.drop i ++ out) = none)
    (hreflect : ∀ c text out, M.Replaced new text out → M.matchAt (c :: text) = none →
      M.matchAt (c :: out) = none)
    {text out : List α} (h : M.Replaced new text out) : M.Clean out := by
  induction h with
  | nil => exact fun t ht hsuffix => absurd (List.suffix_nil.1 hsuffix) ht
  | @keep c text out hnone hrest ih =>
    intro t ht hsuffix
    rcases List.suffix_cons_iff.1 hsuffix with rfl | hsuffix
    · exact hreflect c text out hrest hnone
    · exact ih t ht hsuffix
  | @replace text rest out hmatch hrest ih =>
    intro t ht hsuffix
    rcases Nat.lt_or_ge out.length t.length with hlong | hshort
    · obtain ⟨before, heq⟩ := hsuffix
      have hlength := congrArg List.length heq
      rw [List.length_append, List.length_append] at hlength
      have htail : t = new.drop before.length ++ out := by
        have hdrop := congrArg (List.drop before.length) heq
        rwa [List.drop_left, List.drop_append_of_le_length (by omega)] at hdrop
      rw [htail]
      exact hinside before.length (by omega) out
    · exact ih t ht (List.suffix_of_suffix_length_le hsuffix (List.suffix_append new out) hshort)

theorem replaceAll_replaceAll
    (hinside : ∀ i < new.length, ∀ out, M.matchAt (new.drop i ++ out) = none)
    (hreflect : ∀ c text out, M.Replaced new text out → M.matchAt (c :: text) = none →
      M.matchAt (c :: out) = none) (text : List α) :
    M.replaceAll new (M.replaceAll new text) = M.replaceAll new text :=
  replaceFrom_of_clean ((replaceAll_replaced text).clean hinside hreflect)

/-- What is put in for the matches and what they had make up the difference. -/
theorem sum_replaceFrom (w : α → ℕ) (n : ℕ) (text : List α) :
    ((M.replaceFrom new n text).map w).sum + ((M.foundFrom n text).map fun m => (m.map w).sum).sum =
      (text.map w).sum + (M.foundFrom n text).length * (new.map w).sum := by
  induction n generalizing text with
  | zero => cases text <;> simp [replaceFrom, foundFrom]
  | succ n ih =>
    cases text with
    | nil => simp [replaceFrom, foundFrom]
    | cons c text =>
      rw [replaceFrom, foundFrom]
      cases hmatch : M.matchAt (c :: text) with
      | some rest =>
        obtain ⟨m, -, heq⟩ := M.matched _ _ hmatch
        have htake : (c :: text).take ((c :: text).length - rest.length) = m := by
          rw [heq, List.length_append, Nat.add_sub_cancel]
          exact List.take_left
        have hsum := ih rest
        dsimp only
        rw [htake, heq]
        simp only [List.map_append, List.sum_append, List.map_cons, List.sum_cons, List.length_cons]
        rw [Nat.succ_mul]
        omega
      | none =>
        have hsum := ih text
        simp only [List.map_cons, List.sum_cons]
        omega

/-- Text of one kind stays of that kind if the replacement is. -/
theorem Replaced.forall_mem {p : α → Prop} {text out : List α} (h : M.Replaced new text out)
    (hnew : ∀ c ∈ new, p c) (htext : ∀ c ∈ text, p c) : ∀ c ∈ out, p c := by
  induction h with
  | nil => exact htext
  | @keep c text out hnone hrest ih =>
    rw [List.forall_mem_cons] at htext ⊢
    exact ⟨htext.1, ih htext.2⟩
  | @replace text rest out hmatch hrest ih =>
    obtain ⟨m, -, rfl⟩ := M.matched _ _ hmatch
    rw [List.forall_mem_append] at htext ⊢
    exact ⟨hnew, ih htext.2⟩

/-- An element of a kind that the replacement has too does not get lost. -/
theorem Replaced.exists_mem {p : α → Prop} {text out : List α} (h : M.Replaced new text out)
    (hnew : ∃ c ∈ new, p c) (htext : ∃ c ∈ text, p c) : ∃ c ∈ out, p c := by
  induction h with
  | nil => exact htext
  | @keep c text out hnone hrest ih =>
    rw [List.exists_mem_cons_iff] at htext ⊢
    exact htext.imp id ih
  | replace hmatch hrest ih =>
    obtain ⟨c, hc, hp⟩ := hnew
    exact ⟨c, List.mem_append_left _ hc, hp⟩

end Matcher

end CatalogSentinel.Data
