import Mathlib.Data.List.Basic

/-!
Lists joined by a separator. Parts that do not hold it are told from the whole, up to one whole that
is empty: that of no part and that of one empty part.
-/

namespace CatalogSentinel.Data

variable {α : Type} [DecidableEq α] {c : α}

/-- What stands before the first separator, and what stands behind it. -/
theorem cut_at_first {before before' after after' : List α} (h : c ∉ before) (h' : c ∉ before')
    (heq : before ++ c :: after = before' ++ c :: after') : before = before' ∧ after = after' := by
  have hsplit := congrArg (fun whole : List α => whole.splitOn c) heq
  simp only [List.splitOn_append_cons_self_of_not_mem h, List.splitOn_append_cons_self_of_not_mem h'] at hsplit
  have hbefore : before = before' := (List.cons.inj hsplit).1
  subst hbefore
  exact ⟨rfl, (List.cons.inj (List.append_cancel_left heq)).2⟩

/-- What stands before the last separator, and what stands behind it. -/
theorem cut_at_last {before before' after after' : List α} (h : c ∉ after) (h' : c ∉ after')
    (heq : before ++ c :: after = before' ++ c :: after') : before = before' ∧ after = after' := by
  have hreverse : after.reverse ++ c :: before.reverse = after'.reverse ++ c :: before'.reverse := by
    simpa using congrArg List.reverse heq
  obtain ⟨hafter, hbefore⟩ := cut_at_first (by simpa using h) (by simpa using h') hreverse
  exact ⟨List.reverse_injective hbefore, List.reverse_injective hafter⟩

/-- The parts of a joined list, of which there is one at least. -/
theorem intercalate_inj {parts other : List (List α)} (hparts : ∀ part ∈ parts, c ∉ part)
    (hother : ∀ part ∈ other, c ∉ part) (hne : parts ≠ []) (hne' : other ≠ []) :
    [c].intercalate parts = [c].intercalate other ↔ parts = other := by
  refine ⟨fun h => ?_, congrArg _⟩
  have hsplit := congrArg (fun whole : List α => whole.splitOn c) h
  simp only [List.splitOn_intercalate c hparts hne, List.splitOn_intercalate c hother hne'] at hsplit
  exact hsplit

omit [DecidableEq α] in
/-- Nothing is what joins no part, or one that is empty. -/
theorem intercalate_eq_nil {parts : List (List α)} :
    [c].intercalate parts = [] ↔ parts = [] ∨ parts = [[]] := by
  cases parts with
  | nil => exact ⟨fun _ => .inl rfl, fun _ => rfl⟩
  | cons part parts =>
    cases parts with
    | nil =>
      rw [List.intercalate_singleton]
      exact ⟨fun h => .inr (by rw [h]), fun h => by simpa using h⟩
    | cons next parts =>
      rw [List.intercalate_cons_cons]
      exact ⟨fun h => by simp at h, fun h => by simp at h⟩

/-- Lists without parts are joined as one empty part is. -/
def Indistinct (parts other : List (List α)) : Prop :=
  parts = other ∨ ((parts = [] ∨ parts = [[]]) ∧ (other = [] ∨ other = [[]]))

theorem intercalate_eq_iff {parts other : List (List α)} (hparts : ∀ part ∈ parts, c ∉ part)
    (hother : ∀ part ∈ other, c ∉ part) :
    [c].intercalate parts = [c].intercalate other ↔ Indistinct parts other := by
  constructor
  · intro h
    by_cases hne : parts = []
    · subst hne
      exact .inr ⟨.inl rfl, intercalate_eq_nil.1 h.symm⟩
    · by_cases hne' : other = []
      · subst hne'
        exact .inr ⟨intercalate_eq_nil.1 h, .inl rfl⟩
      · exact .inl ((intercalate_inj hparts hother hne hne').1 h)
  · rintro (rfl | ⟨hparts, hother⟩)
    · rfl
    · rw [intercalate_eq_nil.2 hparts, intercalate_eq_nil.2 hother]

end CatalogSentinel.Data
