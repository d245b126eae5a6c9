import Mathlib.Data.Nat.Notation
import Mathlib.Logic.Relation

/-!
Work that is leased to workers. The store keeps one token for a piece of work and
answers only to this token; a lease writes a token that was never used before, and
whoever was given the work earlier is left with a token that opens nothing. Work that
is finished keeps its moment and is not given out any more.
-/

namespace CatalogSentinel.Concurrent.Leases

/-- A piece of work as its store has it. -/
structure Work (κ δ : Type*) where
  about : κ
  token : Option ℕ
  done : Option δ

/-- A token that a worker was given for a piece of work. -/
structure Lease (ω : Type*) where
  worker : ω
  work : ℕ
  token : ℕ
  deriving DecidableEq

structure Board (κ δ ω : Type*) where
  work : ℕ → Option (Work κ δ)
  fresh : ℕ
  held : List (Lease ω)

variable {κ δ ω : Type*} {a b c : Board κ δ ω}

/-- Two boards show the same work. -/
def Board.SameWork (a b : Board κ δ ω) : Prop :=
  b.work = a.work ∧ a.fresh ≤ b.fresh ∧ b.held = a.held

/-- Only work `i` differs: it is now `x`. -/
def Board.Writes (a b : Board κ δ ω) (i : ℕ) (x : Work κ δ) : Prop :=
  b.work i = some x ∧ (∀ j, j ≠ i → b.work j = a.work j) ∧ a.fresh ≤ b.fresh ∧ b.held = a.held

/-- The unfinished work that satisfies `P` is leased to the worker under one new token. -/
structure Board.Hands (a b : Board κ δ ω) (w : ω) (P : ℕ → Prop) : Prop where
  unfinished : ∀ i, P i → ∃ x, a.work i = some x ∧ x.done = none ∧
    b.work i = some { x with token := some a.fresh }
  others : ∀ i, ¬ P i → b.work i = a.work i
  fresh : a.fresh < b.fresh
  held : ∀ l, l ∈ b.held ↔ l ∈ a.held ∨ (l.worker = w ∧ l.token = a.fresh ∧ P l.work)

inductive Step (a b : Board κ δ ω) : Prop
  | same (h : a.SameWork b)
  | opened (i : ℕ) (k : κ) (hnew : a.work i = none)
      (hkey : ∀ j x, a.work j = some x → x.about ≠ k) (h : a.Writes b i ⟨k, none, none⟩)
  | leased (w : ω) (P : ℕ → Prop) (h : a.Hands b w P)
  | settled (i : ℕ) (x : Work κ δ) (d : Option δ) (hx : a.work i = some x) (hdone : x.done = none)
      (h : a.Writes b i { x with token := none, done := d })

abbrev Steps : Board κ δ ω → Board κ δ ω → Prop := Relation.ReflTransGen Step

/-- No token was given to two workers, none is in use before it is given out, and no two
pieces of work are about the same thing. -/
structure Board.Sound (b : Board κ δ ω) : Prop where
  token_used : ∀ i x t, b.work i = some x → x.token = some t → t < b.fresh
  held_used : ∀ l ∈ b.held, l.token < b.fresh
  one_worker : ∀ l ∈ b.held, ∀ l' ∈ b.held, l.token = l'.token → l.worker = l'.worker
  one_each : ∀ i j x y, b.work i = some x → b.work j = some y → x.about = y.about → i = j

/-- Work that was finished is finished as it was and in nobody's hands that it was not in. -/
def Board.Finished (a b : Board κ δ ω) : Prop :=
  ∀ i x d, a.work i = some x → x.done = some d →
    (∃ y, b.work i = some y ∧ y.done = some d) ∧ ∀ l ∈ b.held, l.work = i → l ∈ a.held

theorem Board.SameWork.sound (h : a.SameWork b) (ha : a.Sound) : b.Sound := by
  obtain ⟨hwork, hfresh, hheld⟩ := h
  refine ⟨fun i x t hx ht => ?_, fun l hl => ?_, ?_, ?_⟩
  · rw [hwork] at hx
    exact Nat.lt_of_lt_of_le (ha.token_used i x t hx ht) hfresh
  · rw [hheld] at hl
    exact Nat.lt_of_lt_of_le (ha.held_used l hl) hfresh
  · rw [hheld]
    exact ha.one_worker
  · rw [hwork]
    exact ha.one_each

/-- Work that shows no token can be written, where nothing else is about the same thing. -/
theorem Board.Writes.sound {i : ℕ} {x : Work κ δ} (h : a.Writes b i x) (ha : a.Sound)
    (htoken : x.token = none) (hkey : ∀ j y, j ≠ i → a.work j = some y → y.about ≠ x.about) :
    b.Sound := by
  obtain ⟨hi, hothers, hfresh, hheld⟩ := h
  refine ⟨fun j y t hy ht => ?_, fun l hl => ?_, ?_, fun j k y z hy hz hyz => ?_⟩
  · by_cases hj : j = i
    · subst hj
      obtain rfl : x = y := Option.some.inj (hi.symm.trans hy)
      rw [htoken] at ht
      cases ht
    · rw [hothers j hj] at hy
      exact Nat.lt_of_lt_of_le (ha.token_used j y t hy ht) hfresh
  · rw [hheld] at hl
    exact Nat.lt_of_lt_of_le (ha.held_used l hl) hfresh
  · rw [hheld]
    exact ha.one_worker
  · by_cases hj : j = i <;> by_cases hk : k = i
    · exact hj.trans hk.symm
    · subst hj
      obtain rfl : x = y := Option.some.inj (hi.symm.trans hy)
      rw [hothers k hk] at hz
      exact absurd hyz.symm (hkey k z hk hz)
    · subst hk
      obtain rfl : x = z := Option.some.inj (hi.symm.trans hz)
      rw [hothers j hj] at hy
      exact absurd hyz (hkey j y hj hy)
    · rw [hothers j hj] at hy
      rw [hothers k hk] at hz
      exact ha.one_each j k y z hy hz hyz

/-- Leased work is the work it was, under the new token or the one it had. -/
theorem Board.Hands.work {w : ω} {P : ℕ → Prop} (h : a.Hands b w P) {i : ℕ} {y : Work κ δ}
    (hy : b.work i = some y) :
    ∃ x, a.work i = some x ∧ x.about = y.about ∧ x.done = y.done ∧
      (y.token = some a.fresh ∨ y.token = x.token) := by
  by_cases hi : P i
  · obtain ⟨x, hx, hdone, hx'⟩ := h.unfinished i hi
    obtain rfl := Option.some.inj (hx'.symm.trans hy)
    exact ⟨x, hx, rfl, rfl, .inl rfl⟩
  · rw [h.others i hi] at hy
    exact ⟨y, hy, rfl, rfl, .inr rfl⟩

theorem Board.Hands.sound {w : ω} {P : ℕ → Prop} (h : a.Hands b w P) (ha : a.Sound) :
    b.Sound := by
  have hlt := h.fresh
  refine ⟨fun i y t hy ht => ?_, fun l hl => ?_, fun l hl l' hl' heq => ?_,
    fun i j y z hy hz hyz => ?_⟩
  · obtain ⟨x, hx, -, -, htoken⟩ := h.work hy
    rcases htoken with htoken | htoken
    · obtain rfl := Option.some.inj (htoken.symm.trans ht)
      exact hlt
    · have hused := ha.token_used i x t hx (htoken.symm.trans ht)
      omega
  · rcases (h.held l).1 hl with hl | ⟨-, htoken, -⟩
    · have hused := ha.held_used l hl
      omega
    · omega
  · rcases (h.held l).1 hl with hl | ⟨hw, ht, -⟩ <;> rcases (h.held l').1 hl' with hl' | ⟨hw', ht', -⟩
    · exact ha.one_worker l hl l' hl' heq
    · have hused := ha.held_used l hl
      omega
    · have hused := ha.held_used l' hl'
      omega
    · rw [hw, hw']
  · obtain ⟨x, hx, habout, -, -⟩ := h.work hy
    obtain ⟨x', hx', habout', -, -⟩ := h.work hz
    exact ha.one_each i j x x' hx hx' (by rw [habout, hyz, habout'])

theorem Step.sound (h : Step a b) (ha : a.Sound) : b.Sound := by
  cases h with
  | same h => exact h.sound ha
  | opened i k hnew hkey h => exact h.sound ha rfl fun j y _ hy => hkey j y hy
  | leased w P h => exact h.sound ha
  | settled i x d hx hdone h =>
    refine h.sound ha rfl fun j y hj hy habout => hj ?_
    exact ha.one_each j i y x hy hx habout

theorem Step.finished (h : Step a b) : a.Finished b := by
  intro i x d hx hd
  cases h with
  | same h =>
    obtain ⟨hwork, -, hheld⟩ := h
    exact ⟨⟨x, by rw [hwork, hx], hd⟩, fun l hl _ => hheld ▸ hl⟩
  | opened j k hnew hkey h =>
    obtain ⟨-, hothers, -, hheld⟩ := h
    have hij : i ≠ j := by
      rintro rfl
      rw [hnew] at hx
      cases hx
    exact ⟨⟨x, by rw [hothers i hij, hx], hd⟩, fun l hl _ => hheld ▸ hl⟩
  | leased w P h =>
    have hi : ¬ P i := by
      intro hi
      obtain ⟨y, hy, hdone, -⟩ := h.unfinished i hi
      obtain rfl := Option.some.inj (hx.symm.trans hy)
      rw [hd] at hdone
      cases hdone
    refine ⟨⟨x, by rw [h.others i hi, hx], hd⟩, fun l hl hli => ?_⟩
    rcases (h.held l).1 hl with hl | ⟨-, -, hP⟩
    · exact hl
    · exact absurd (hli ▸ hP) hi
  | settled j y d' hy hdone h =>
    obtain ⟨-, hothers, -, hheld⟩ := h
    have hij : i ≠ j := by
      rintro rfl
      obtain rfl := Option.some.inj (hx.symm.trans hy)
      rw [hd] at hdone
      cases hdone
    exact ⟨⟨x, by rw [hothers i hij, hx], hd⟩, fun l hl _ => hheld ▸ hl⟩

theorem Board.Finished.trans (hab : a.Finished b) (hbc : b.Finished c) : a.Finished c := by
  intro i x d hx hd
  obtain ⟨⟨y, hy, hyd⟩, hheld⟩ := hab i x d hx hd
  obtain ⟨hz, hheld'⟩ := hbc i y d hy hyd
  exact ⟨hz, fun l hl hli => hheld l (hheld' l hl hli) hli⟩

theorem Steps.sound (h : Steps a b) (ha : a.Sound) : b.Sound := by
  induction h with
  | refl => exact ha
  | tail _ hstep ih => exact hstep.sound ih

theorem Steps.finished (h : Steps a b) : a.Finished b := by
  induction h with
  | refl => exact fun i x d hx hd => ⟨⟨x, hx, hd⟩, fun l hl _ => hl⟩
  | tail _ hstep ih => exact ih.trans hstep.finished

end CatalogSentinel.Concurrent.Leases
