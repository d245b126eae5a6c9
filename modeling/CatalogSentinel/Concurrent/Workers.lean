import CatalogSentinel.Concurrent.Steps
import Mathlib.Algebra.Order.Ring.Nat

/-!
Workers that take the items of a list one after the other and put what each comes to in its
place. Whatever the number of workers and the order in which they go on, the list of results
is that of going through the items one by one.
-/

namespace CatalogSentinel.Concurrent.Workers

variable {α β : Type}

inductive Worker
  | ready
  | awaiting (index : ℕ)
  | finished
  deriving DecidableEq

structure Pool (β : Type) where
  cursor : ℕ
  workers : List Worker
  results : List (Option β)
  deriving DecidableEq

variable (items : List α) (f : α → ℕ → β)

/-- A worker goes on: it takes the next index, or its item is done. -/
def step (s : Pool β) (w : ℕ) : Option (Pool β) :=
  match s.workers[w]? with
  | none | some .finished => none
  | some .ready =>
    some { s with
      cursor := s.cursor + 1
      workers := s.workers.set w (if s.cursor < items.length then .awaiting s.cursor else .finished) }
  | some (.awaiting index) =>
    some { s with
      workers := s.workers.set w .ready
      results := s.results.set index ((items[index]?).map fun item => f item index) }

/-- As many workers as are allowed and have an item to begin with. -/
def start (concurrency : ℕ) : Pool β :=
  { cursor := 0
    workers := List.replicate (min concurrency items.length) .ready
    results := List.replicate items.length none }

def Finished (s : Pool β) : Prop := ∀ w ∈ s.workers, w = .finished

instance (s : Pool β) : Decidable (Finished s) := inferInstanceAs (Decidable (∀ w ∈ s.workers, w = .finished))

/-- What is there is right, and what has been taken is there or under way. -/
structure Books (count : ℕ) (s : Pool β) : Prop where
  workers : s.workers.length = count
  length : s.results.length = items.length
  right : ∀ (i : ℕ) (r : β), s.results[i]? = some (some r) → (items[i]?).map (fun item => f item i) = some r
  awaited : ∀ w i : ℕ, s.workers[w]? = some (.awaiting i) → i < items.length
  taken : ∀ i < items.length, i < s.cursor →
    (∃ r, s.results[i]? = some (some r)) ∨ ∃ w : ℕ, s.workers[w]? = some (.awaiting i)
  ended : ∀ w : ℕ, s.workers[w]? = some .finished → items.length ≤ s.cursor

variable {items f}

theorem books_start (concurrency : ℕ) :
    Books items f (min concurrency items.length) (start (β := β) items concurrency) where
  workers := List.length_replicate
  length := List.length_replicate
  right := by
    intro i r h
    rw [start, List.getElem?_replicate] at h
    split at h <;> simp at h
  awaited := by
    intro w i h
    rw [start, List.getElem?_replicate] at h
    split at h <;> simp at h
  taken := fun i _ hi => absurd hi (Nat.not_lt_zero i)
  ended := by
    intro w h
    rw [start, List.getElem?_replicate] at h
    split at h <;> simp at h

theorem getElem?_set_cases {γ : Type} {xs : List γ} {i j : ℕ} {a b : γ} (h : (xs.set i a)[j]? = some b) :
    (i = j ∧ a = b) ∨ (i ≠ j ∧ xs[j]? = some b) := by
  by_cases hij : i = j
  · subst hij
    rw [List.getElem?_set_self'] at h
    obtain ⟨_, _, rfl⟩ := Option.map_eq_some_iff.1 h
    exact .inl ⟨rfl, rfl⟩
  · rw [List.getElem?_set_ne hij] at h
    exact .inr ⟨hij, h⟩

theorem getElem?_set_here {γ : Type} {xs : List γ} {i : ℕ} {a b : γ} (h : xs[i]? = some b) :
    (xs.set i a)[i]? = some a := by
  rw [List.getElem?_set_self', h]
  rfl

theorem Books.take {count w : ℕ} {s : Pool β} (h : Books items f count s) (hw : s.workers[w]? = some .ready) :
    Books items f count { s with
      cursor := s.cursor + 1
      workers := s.workers.set w (if s.cursor < items.length then .awaiting s.cursor else .finished) } where
  workers := (List.length_set ..).trans h.workers
  length := h.length
  right := h.right
  awaited := by
    intro v i hv
    rcases getElem?_set_cases hv with ⟨-, hnew⟩ | ⟨-, hold⟩
    · split at hnew
      · next hlt =>
        obtain rfl := Worker.awaiting.inj hnew
        exact hlt
      · cases hnew
    · exact h.awaited v i hold
  taken := by
    intro i hi hlt
    rcases Nat.lt_succ_iff_lt_or_eq.1 hlt with hbefore | rfl
    · rcases h.taken i hi hbefore with hdone | ⟨v, hv⟩
      · exact .inl hdone
      · have hne : w ≠ v := by
          rintro rfl
          rw [hw] at hv
          cases hv
        exact .inr ⟨v, by rw [List.getElem?_set_ne hne, hv]⟩
    · exact .inr ⟨w, by rw [getElem?_set_here hw, if_pos hi]⟩
  ended := by
    intro v hv
    rcases getElem?_set_cases hv with ⟨-, hnew⟩ | ⟨-, hold⟩
    · split at hnew
      · cases hnew
      · next hge => exact Nat.le_succ_of_le (Nat.not_lt.1 hge)
    · exact Nat.le_succ_of_le (h.ended v hold)

theorem Books.complete {count w index : ℕ} {s : Pool β} (h : Books items f count s)
    (hw : s.workers[w]? = some (.awaiting index)) :
    Books items f count { s with
      workers := s.workers.set w .ready
      results := s.results.set index ((items[index]?).map fun item => f item index) } where
  workers := (List.length_set ..).trans h.workers
  length := (List.length_set ..).trans h.length
  right := by
    intro i r hr
    rcases getElem?_set_cases hr with ⟨rfl, hnew⟩ | ⟨-, hold⟩
    · exact hnew
    · exact h.right i r hold
  awaited := by
    intro v i hv
    rcases getElem?_set_cases hv with ⟨-, hnew⟩ | ⟨-, hold⟩
    · cases hnew
    · exact h.awaited v i hold
  taken := by
    intro i hi hlt
    by_cases hindex : index = i
    · subst hindex
      refine .inl ⟨f items[index] index, ?_⟩
      rw [List.getElem?_set_self (by rw [h.length]; exact hi), List.getElem?_eq_getElem hi]
      rfl
    · rcases h.taken i hi hlt with ⟨r, hr⟩ | ⟨v, hv⟩
      · exact .inl ⟨r, by rw [List.getElem?_set_ne hindex, hr]⟩
      · have hne : w ≠ v := by
          rintro rfl
          exact hindex (Worker.awaiting.inj (Option.some.inj (hw.symm.trans hv)))
        exact .inr ⟨v, by rw [List.getElem?_set_ne hne, hv]⟩
  ended := by
    intro v hv
    rcases getElem?_set_cases hv with ⟨-, hnew⟩ | ⟨-, hold⟩
    · cases hnew
    · exact h.ended v hold

theorem Books.step {count w : ℕ} {s s' : Pool β} (h : Books items f count s)
    (hstep : Workers.step items f s w = some s') : Books items f count s' := by
  rw [Workers.step] at hstep
  split at hstep
  · cases hstep
  · cases hstep
  · next hw =>
    obtain rfl := Option.some.inj hstep
    exact h.take hw
  · next index hw =>
    obtain rfl := Option.some.inj hstep
    exact h.complete hw

/-- When every worker has finished, every result is that of its item. -/
theorem results_eq {concurrency : ℕ} (hpos : 0 < concurrency) {schedule : List ℕ} {s : Pool β}
    (hrun : Steps.run (Workers.step items f) (start items concurrency) schedule = some s) (hfinished : Finished s) :
    s.results = items.mapIdx fun i item => some (f item i) := by
  have hbooks : Books items f (min concurrency items.length) s :=
    (Steps.throughout_of_step schedule (books_start concurrency)
      fun _ _ _ hs hstep => hs.step hstep).last hrun
  have hidle (w i : ℕ) : s.workers[w]? ≠ some (.awaiting i) := by
    intro hw
    have := hfinished _ (List.mem_of_getElem? hw)
    cases this
  apply List.ext_getElem?
  intro i
  rw [List.getElem?_mapIdx]
  rcases Nat.lt_or_ge i items.length with hi | hi
  · have hworkers : 0 < s.workers.length := by
      rw [hbooks.workers]
      omega
    have hcursor : items.length ≤ s.cursor := hbooks.ended 0 (by
      rw [List.getElem?_eq_getElem hworkers, hfinished _ (List.getElem_mem hworkers)])
    rcases hbooks.taken i hi (by omega) with ⟨r, hr⟩ | ⟨w, hw⟩
    · have hright := hbooks.right i r hr
      rw [List.getElem?_eq_getElem hi, Option.map_some] at hright
      rw [hr, List.getElem?_eq_getElem hi, Option.map_some, ← hright]
    · exact absurd hw (hidle w i)
  · rw [List.getElem?_eq_none (by rw [hbooks.length]; exact hi), List.getElem?_eq_none hi]
    rfl

/-! ### The pool comes to its end -/

def Worker.weight : Worker → ℕ
  | .ready => 1
  | .awaiting _ => 2
  | .finished => 0

/-- What is left to do: every step makes it less. -/
def left (items : List α) (s : Pool β) : ℕ :=
  2 * (items.length - s.cursor) + (s.workers.map Worker.weight).sum

end CatalogSentinel.Concurrent.Workers
