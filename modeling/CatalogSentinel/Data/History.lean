import Mathlib.Data.List.Basic

/-!
Histories, newest event first, in which every event is justified by the events
before it.
-/

namespace CatalogSentinel.Data

variable {α : Type}

def Justified (why : α → List α → Prop) : List α → Prop
  | [] => True
  | e :: past => why e past ∧ Justified why past

theorem Justified.at {why : α → List α → Prop} {future past : List α} {e : α}
    (h : Justified why (future ++ e :: past)) : why e past := by
  induction future with
  | nil => exact h.1
  | cons x xs ih => exact ih h.2

theorem Justified.rest {why : α → List α → Prop} {future past : List α}
    (h : Justified why (future ++ past)) : Justified why past := by
  induction future with
  | nil => exact h
  | cons x xs ih => exact ih h.2

/-- Events that need no justification keep a history justified. -/
theorem Justified.append {why : α → List α → Prop} {past : List α} (h : Justified why past)
    {es : List α} (hes : ∀ e ∈ es, ∀ past, why e past) : Justified why (es ++ past) := by
  induction es with
  | nil => exact h
  | cons e es ih =>
    exact ⟨hes e List.mem_cons_self _, ih fun x hx => hes x (List.mem_cons_of_mem e hx)⟩

/-- `later` extends `earlier` by events that came after it. -/
def Extends (earlier later : List α) : Prop := ∃ future, later = future ++ earlier

theorem Extends.refl (h : List α) : Extends h h := ⟨[], rfl⟩

theorem Extends.trans {a b c : List α} (h : Extends a b) (h' : Extends b c) : Extends a c := by
  obtain ⟨x, rfl⟩ := h
  obtain ⟨y, rfl⟩ := h'
  exact ⟨y ++ x, (List.append_assoc y x a).symm⟩

theorem Extends.cons (e : α) (h : List α) : Extends h (e :: h) := ⟨[e], rfl⟩

theorem Extends.mem {a b : List α} (h : Extends a b) {e : α} (he : e ∈ a) : e ∈ b := by
  obtain ⟨x, rfl⟩ := h
  exact List.mem_append_right x he

theorem Justified.before {why : α → List α → Prop} {earlier later : List α}
    (h : Justified why later) (hext : Extends earlier later) : Justified why earlier := by
  obtain ⟨future, rfl⟩ := hext
  exact h.rest

/-- An event of the history was justified by what came before it. -/
theorem Justified.of_mem {why : α → List α → Prop} {h : List α} (hjust : Justified why h) {e : α}
    (he : e ∈ h) : ∃ past, Extends (e :: past) h ∧ why e past := by
  obtain ⟨future, past, rfl⟩ := List.append_of_mem he
  exact ⟨past, ⟨future, rfl⟩, Justified.at hjust⟩

end CatalogSentinel.Data
