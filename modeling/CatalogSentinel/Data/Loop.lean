import Mathlib.Data.Nat.Basic
import Mathlib.Tactic.Common

/-!
Loops, given by what one pass over the body does: it ends the loop or hands a state to the
next pass. A loop whose every pass spends some of a potential ends, and costs no more than
its passes do.
-/

namespace CatalogSentinel.Data

inductive Pass (σ α : Type)
  | done (result : α)
  | again (state : σ)
  deriving DecidableEq

namespace Loop

variable {σ α : Type} (body : σ → Pass σ α)

/-- At most so many passes. -/
def run : ℕ → σ → Pass σ α
  | 0, s => .again s
  | fuel + 1, s =>
    match body s with
    | .done result => .done result
    | .again s => run fuel s

/-- The states that passes begin with. -/
inductive Reaches (start : σ) : σ → Prop
  | start : Reaches start start
  | pass {s s' : σ} (h : Reaches start s) (hbody : body s = .again s') : Reaches start s'

variable {body} {s s' : σ}

theorem run_again (h : body s = .again s') (fuel : ℕ) : run body (fuel + 1) s = run body fuel s' := by
  simp only [run, h]

theorem run_done {result : α} (h : body s = .done result) (fuel : ℕ) :
    run body (fuel + 1) s = .done result := by
  simp only [run, h]

theorem reaches_of_run {fuel : ℕ} {start : σ} (h : Reaches body start s) (hrun : run body fuel s = .again s') :
    Reaches body start s' := by
  induction fuel generalizing s with
  | zero =>
    rw [run, Pass.again.injEq] at hrun
    exact hrun ▸ h
  | succ fuel ih =>
    cases hbody : body s with
    | done r => simp [run_done hbody] at hrun
    | again next =>
      rw [run_again hbody] at hrun
      exact ih (h.pass hbody) hrun

/-- Every pass spends potential and costs at most so much. -/
structure Spends (body : σ → Pass σ α) (potential cost : σ → ℕ) (spent : α → ℕ) (each : ℕ) (s : σ) : Prop where
  again : ∀ s', body s = .again s' → potential s' < potential s ∧ cost s' ≤ cost s + each
  done : ∀ result, body s = .done result → spent result ≤ cost s + each

variable {potential cost : σ → ℕ} {spent : α → ℕ} {each : ℕ}

/-- The loop ends after at most one pass more than its potential, at the cost of so many passes. -/
theorem run_ends (start : σ) (h : ∀ s, Reaches body start s → Spends body potential cost spent each s) :
    ∃ result, run body (potential start + 1) start = .done result ∧
      spent result ≤ cost start + each * (potential start + 1) := by
  have hrun : ∀ (n : ℕ) (s : σ), Reaches body start s → potential s < n →
      ∃ result, run body n s = .done result ∧ spent result ≤ cost s + each * n := by
    intro n
    induction n with
    | zero => exact fun s _ hn => absurd hn (Nat.not_lt_zero _)
    | succ n ih =>
      intro s hs hn
      have hspends := h s hs
      cases hbody : body s with
      | done result =>
        refine ⟨result, run_done hbody n, Nat.le_trans (hspends.done result hbody) ?_⟩
        rw [Nat.mul_succ]
        omega
      | again next =>
        obtain ⟨hless, hcost⟩ := hspends.again next hbody
        obtain ⟨result, hend, hspent⟩ := ih next (hs.pass hbody) (by omega)
        refine ⟨result, (run_again hbody n).trans hend, Nat.le_trans hspent ?_⟩
        rw [Nat.mul_succ]
        omega
  exact hrun _ start .start (Nat.lt_succ_self _)

/-- What every pass keeps holds of the states that are reached. -/
theorem Reaches.keeps {start : σ} (inv : σ → Prop) (h : Reaches body start s) (hstart : inv start)
    (hpass : ∀ s s', Reaches body start s → inv s → body s = .again s' → inv s') : inv s := by
  induction h with
  | start => exact hstart
  | pass hreaches hbody ih => exact hpass _ _ hreaches ih hbody

/-- What holds of every end that a pass comes to holds of the end of the loop. -/
theorem done_of_run {P : α → Prop} {start : σ} {fuel : ℕ} {result : α}
    (h : run body fuel start = .done result)
    (hend : ∀ s result, Reaches body start s → body s = .done result → P result) : P result := by
  have hrun : ∀ (n : ℕ) (s : σ), Reaches body start s → run body n s = .done result → P result := by
    intro n
    induction n with
    | zero => exact fun s _ hs => by simp [run] at hs
    | succ n ih =>
      intro s hs hrun
      cases hbody : body s with
      | done r =>
        rw [run_done hbody, Pass.done.injEq] at hrun
        exact hrun ▸ hend s r hs hbody
      | again next =>
        rw [run_again hbody] at hrun
        exact ih next (hs.pass hbody) hrun
  exact hrun fuel start .start h

end Loop

end CatalogSentinel.Data
