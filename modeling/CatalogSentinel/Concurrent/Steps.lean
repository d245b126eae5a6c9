import Mathlib.Data.List.Basic

/-!
Runs of a step function over labelled events, where an event that cannot happen
has no next state. What is shown of one step under an invariant is carried to
whole runs: a property of every state, and when it holds of every state.
-/

namespace CatalogSentinel.Concurrent.Steps

variable {σ ε : Type*} (step : σ → ε → Option σ)

def run (s : σ) : List ε → Option σ
  | [] => some s
  | e :: es => (step s e).bind fun s' => run s' es

/-- The property holds of every state that the run goes through. -/
def Throughout (P : σ → Prop) : σ → List ε → Prop
  | s, [] => P s
  | s, e :: es => P s ∧ ∀ s', step s e = some s' → Throughout P s' es

/-- Every step of the run meets the condition, which speaks of the state before it. -/
def Along (C : σ → ε → Prop) : σ → List ε → Prop
  | _, [] => True
  | s, e :: es => ∀ s', step s e = some s' → C s e ∧ Along C s' es

instance decidableAlong (C : σ → ε → Prop) [∀ s e, Decidable (C s e)] :
    (s : σ) → (es : List ε) → Decidable (Along step C s es)
  | _, [] => .isTrue trivial
  | s, e :: es =>
    match he : step s e with
    | none => .isTrue fun s' hs' => by simp [he] at hs'
    | some v =>
      haveI := decidableAlong C v es
      decidable_of_iff (C s e ∧ Along step C v es)
        ⟨fun h s' hs' => (Option.some.inj (he.symm.trans hs')) ▸ h, fun h => h v he⟩

variable {step}

theorem run_append (s : σ) (es fs : List ε) :
    run step s (es ++ fs) = (run step s es).bind fun s' => run step s' fs := by
  induction es generalizing s with
  | nil => rfl
  | cons e es ih => simp only [List.cons_append, run, Option.bind_assoc, ih]

theorem Throughout.head {P : σ → Prop} {s : σ} {es : List ε} (h : Throughout step P s es) :
    P s := by
  cases es with
  | nil => exact h
  | cons e es => exact h.1

theorem Throughout.last {P : σ → Prop} {s t : σ} {es : List ε} (h : Throughout step P s es)
    (ht : run step s es = some t) : P t := by
  induction es generalizing s with
  | nil =>
    obtain rfl : s = t := Option.some.inj ht
    exact h
  | cons e es ih =>
    obtain ⟨s', hs', hrest⟩ := Option.bind_eq_some_iff.1 ht
    exact ih (h.2 s' hs') hrest

theorem Throughout.mono {P Q : σ → Prop} {s : σ} {es : List ε} (h : Throughout step P s es)
    (hPQ : ∀ s, P s → Q s) : Throughout step Q s es := by
  induction es generalizing s with
  | nil => exact hPQ s h
  | cons e es ih => exact ⟨hPQ s h.1, fun s' hs' => ih (h.2 s' hs')⟩

/-- What every step keeps holds throughout. -/
theorem throughout_of_step {P : σ → Prop} {s : σ} (es : List ε) (hs : P s)
    (hstep : ∀ s e s', P s → step s e = some s' → P s') : Throughout step P s es := by
  induction es generalizing s with
  | nil => exact hs
  | cons e es ih => exact ⟨hs, fun s' hs' => ih (hstep s e s' hs hs')⟩

/-- What every step that meets the condition keeps holds throughout a run of such steps. -/
theorem throughout_of_along {P : σ → Prop} {C : σ → ε → Prop} {s : σ} {es : List ε} (hs : P s)
    (hC : Along step C s es) (hstep : ∀ s e s', P s → C s e → step s e = some s' → P s') :
    Throughout step P s es := by
  induction es generalizing s with
  | nil => exact hs
  | cons e es ih =>
    refine ⟨hs, fun s' hs' => ?_⟩
    obtain ⟨hCs, hrest⟩ := hC s' hs'
    exact ih (hstep s e s' hs hCs hs') hrest

/-- Under an invariant, where a step keeps the property just when it meets the condition,
the property holds throughout a run just when every step meets the condition. -/
theorem throughout_iff_along {J P : σ → Prop} {C : σ → ε → Prop} {s : σ} (es : List ε)
    (hJ : J s) (hP : P s) (hkeep : ∀ s e s', J s → step s e = some s' → J s')
    (hstep : ∀ s e s', J s → P s → step s e = some s' → (P s' ↔ C s e)) :
    Throughout step P s es ↔ Along step C s es := by
  induction es generalizing s with
  | nil => exact iff_of_true hP trivial
  | cons e es ih =>
    constructor
    · intro h s' hs'
      have hs'P := (h.2 s' hs').head
      exact ⟨(hstep s e s' hJ hP hs').1 hs'P, (ih (hkeep s e s' hJ hs') hs'P).1 (h.2 s' hs')⟩
    · intro h
      refine ⟨hP, fun s' hs' => ?_⟩
      obtain ⟨hC, hrest⟩ := h s' hs'
      exact (ih (hkeep s e s' hJ hs') ((hstep s e s' hJ hP hs').2 hC)).2 hrest

end CatalogSentinel.Concurrent.Steps
