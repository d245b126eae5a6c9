import Mathlib.Data.List.Forall2
import Mathlib.Data.List.Nodup
import Mathlib.Data.List.Perm.Basic

/-!
A loop that does one step for each key of a list, up to a step that fails. Two loops whose
steps correspond have corresponding results. A loop whose steps each stay in a place of their
own may go through its keys in any order.
-/

namespace CatalogSentinel.Concurrent

section Loop

variable {σ τ κ κ' ρ ρ' ε : Type*}

/-- The steps for the keys, one after the other. A step that fails is the last. -/
def each (f : σ → κ → σ × Except ε ρ) : σ → List κ → σ × Except ε (List ρ)
  | s, [] => (s, .ok [])
  | s, k :: ks =>
    match f s k with
    | (s, .error e) => (s, .error e)
    | (s, .ok x) => ((each f s ks).1, (each f s ks).2.map (x :: ·))

variable {f : σ → κ → σ × Except ε ρ} {g : τ → κ' → τ × Except ε ρ'}

theorem each_cons {s : σ} {k : κ} {x : ρ} (h : (f s k).2 = .ok x) (ks : List κ) :
    each f s (k :: ks) = ((each f (f s k).1 ks).1, (each f (f s k).1 ks).2.map (x :: ·)) := by
  rw [each]
  rcases hstep : f s k with ⟨t, result⟩
  rw [hstep] at h
  obtain rfl : result = .ok x := h
  rfl

/-- What every step keeps, the loop keeps. -/
theorem each_keeps {P : σ → Prop} (hstep : ∀ s k, P s → P (f s k).1) {s : σ} (hs : P s) (ks : List κ) :
    P (each f s ks).1 := by
  induction ks generalizing s with
  | nil => exact hs
  | cons k ks ih =>
    have hk := hstep s k hs
    rw [each]
    rcases hout : f s k with ⟨t, result⟩
    rw [hout] at hk
    cases result with
    | error e => exact hk
    | ok x => exact ih hk

/-- Steps that correspond, wherever the states do and the key is still to come, make loops
that correspond. -/
theorem each_alike {R : σ → τ → Prop} {Q : κ → σ → τ → Prop} {S : ρ → ρ' → Prop} {e : κ → κ'}
    (hstep : ∀ k s t, R s t → Q k s t → ∃ x y, (f s k).2 = .ok x ∧ (g t (e k)).2 = .ok y ∧ S x y ∧
      R (f s k).1 (g t (e k)).1 ∧ ∀ j, j ≠ k → Q j s t → Q j (f s k).1 (g t (e k)).1)
    {ks : List κ} (hnodup : ks.Nodup) {s : σ} {t : τ} (hR : R s t) (hQ : ∀ k ∈ ks, Q k s t) :
    ∃ xs ys, (each f s ks).2 = .ok xs ∧ (each g t (ks.map e)).2 = .ok ys ∧ List.Forall₂ S xs ys ∧
      R (each f s ks).1 (each g t (ks.map e)).1 := by
  induction ks generalizing s t with
  | nil => exact ⟨[], [], rfl, rfl, .nil, hR⟩
  | cons k ks ih =>
    rw [List.nodup_cons] at hnodup
    obtain ⟨x, y, hx, hy, hS, hR', hQ'⟩ := hstep k s t hR (hQ k List.mem_cons_self)
    have hrest : ∀ j ∈ ks, Q j (f s k).1 (g t (e k)).1 := by
      intro j hj
      apply hQ' j _ (hQ j (List.mem_cons_of_mem k hj))
      rintro rfl
      exact hnodup.1 hj
    obtain ⟨xs, ys, hxs, hys, hSs, hRs⟩ := ih hnodup.2 hR' hrest
    refine ⟨x :: xs, y :: ys, ?_, ?_, .cons hS hSs, ?_⟩
    · simp [each_cons hx, hxs, Except.map]
    · simp [each_cons hy, hys, Except.map]
    · simpa [each_cons hx, each_cons hy] using hRs

end Loop

section Order

/-- The elements of two lists correspond, in some order. -/
def UpToOrder {α β : Type*} (S : α → β → Prop) (xs : List α) (ys : List β) : Prop :=
  ∃ xs', xs.Perm xs' ∧ List.Forall₂ S xs' ys

end Order

section Local

variable {σ ι κ ν ρ ε : Type*} (look : σ → ι → ν) (reach : κ → ι → Prop) (inv : σ → Prop)
  (f : σ → κ → σ × Except ε ρ)

/-- A step succeeds, reads and writes within the reach of its key only. -/
structure Local : Prop where
  keeps : ∀ s k, inv s → inv (f s k).1
  succeeds : ∀ s k, inv s → ∃ x, (f s k).2 = .ok x
  frame : ∀ s k i, inv s → ¬ reach k i → look (f s k).1 i = look s i
  same : ∀ s t k, inv s → inv t → (∀ i, reach k i → look s i = look t i) →
    (f s k).2 = (f t k).2 ∧ ∀ i, reach k i → look (f s k).1 i = look (f t k).1 i

/-- No place is within the reach of both keys. -/
def Apart (k k' : κ) : Prop := ∀ i, reach k i → ¬ reach k' i

variable {look reach inv f}

/-- Keys that each reach one place, their own. -/
theorem pairwise_apart {ks : List ι} (h : ks.Nodup) : ks.Pairwise (Apart fun k i : ι => i = k) :=
  List.Pairwise.imp (fun hne _ hi hi' => hne (hi.symm.trans hi')) h

theorem Apart.symm {k k' : κ} (h : Apart reach k k') : Apart reach k' k :=
  fun i hi hi' => h i hi' hi

namespace Local

/-- Each step of the loop does what it would do first, and nothing else is done. -/
theorem each_eq (hf : Local look reach inv f) {ks : List κ} (hks : ks.Pairwise (Apart reach)) {s : σ}
    (hs : inv s) : ∃ xs, (each f s ks).2 = .ok xs ∧ List.Forall₂ (fun k x => (f s k).2 = .ok x) ks xs ∧
      inv (each f s ks).1 ∧ (∀ i, (∀ k ∈ ks, ¬ reach k i) → look (each f s ks).1 i = look s i) ∧
      ∀ k ∈ ks, ∀ i, reach k i → look (each f s ks).1 i = look (f s k).1 i := by
  induction ks generalizing s with
  | nil => exact ⟨[], rfl, .nil, hs, fun _ _ => rfl, by simp⟩
  | cons k ks ih =>
    rw [List.pairwise_cons] at hks
    obtain ⟨x, hx⟩ := hf.succeeds s k hs
    have hinv : inv (f s k).1 := hf.keeps s k hs
    obtain ⟨xs, hxs, hall, hkept, houtside, hinside⟩ := ih hks.2 hinv
    -- What the other keys reach is as it was before the step.
    have hbefore : ∀ j ∈ ks, ∀ i, reach j i → look (f s k).1 i = look s i :=
      fun j hj i hi => hf.frame s k i hs fun hk => hks.1 j hj i hk hi
    have hsame := fun j (hj : j ∈ ks) => hf.same (f s k).1 s j hinv hs (hbefore j hj)
    have hall' : List.Forall₂ (fun j x => (f s j).2 = .ok x) ks xs := by
      refine (List.forall₂_iff_get.2 ⟨hall.length_eq, fun i hi hi' => ?_⟩)
      rw [← (hsame _ (List.get_mem ks ⟨i, hi⟩)).1]
      exact (List.forall₂_iff_get.1 hall).2 i hi hi'
    rw [each_cons hx]
    refine ⟨x :: xs, by simp [hxs, Except.map], .cons hx hall', hkept, fun i hi => ?_, fun j hj i hi => ?_⟩
    · rw [houtside i fun j hj => hi j (List.mem_cons_of_mem k hj)]
      exact hf.frame s k i hs (hi k List.mem_cons_self)
    · rcases List.mem_cons.1 hj with rfl | hj
      · exact houtside i fun j' hj' => hks.1 j' hj' i hi
      · exact (hinside j hj i hi).trans ((hsame j hj).2 i hi)

/-- What the steps do first, for some of the keys in another order. -/
theorem perm_of_results {ks ks' : List κ} {xs xs' : List ρ} {s : σ} (hperm : ks.Perm ks')
    (h : List.Forall₂ (fun k x => (f s k).2 = .ok x) ks xs)
    (h' : List.Forall₂ (fun k x => (f s k).2 = .ok x) ks' xs') : xs.Perm xs' := by
  have hresults : ∀ {ks : List κ} {xs : List ρ}, List.Forall₂ (fun k x => (f s k).2 = .ok x) ks xs →
      ks.map (fun k => (f s k).2) = xs.map Except.ok := by
    intro ks xs h
    induction h with
    | nil => rfl
    | cons hx _ ih => rw [List.map_cons, List.map_cons, hx, ih]
  have hmap := hperm.map fun k => (f s k).2
  rw [hresults h, hresults h'] at hmap
  exact (List.map_perm_map_iff fun _ _ h => by injection h).1 hmap

/-- The keys in another order: the same results in that order, and the same state. -/
theorem each_perm (hf : Local look reach inv f) {ks ks' : List κ} (hperm : ks.Perm ks')
    (hks : ks.Pairwise (Apart reach)) {s : σ} (hs : inv s) :
    ∃ xs xs', (each f s ks).2 = .ok xs ∧ (each f s ks').2 = .ok xs' ∧ xs.Perm xs' ∧
      inv (each f s ks).1 ∧ inv (each f s ks').1 ∧ look (each f s ks).1 = look (each f s ks').1 := by
  have hks' : ks'.Pairwise (Apart reach) := hks.perm hperm fun h => h.symm
  obtain ⟨xs, hxs, hall, hkept, houtside, hinside⟩ := hf.each_eq hks hs
  obtain ⟨xs', hxs', hall', hkept', houtside', hinside'⟩ := hf.each_eq hks' hs
  refine ⟨xs, xs', hxs, hxs', perm_of_results hperm hall hall', hkept, hkept', funext fun i => ?_⟩
  by_cases hi : ∃ k ∈ ks, reach k i
  · obtain ⟨k, hk, hi⟩ := hi
    rw [hinside k hk i hi, hinside' k (hperm.mem_iff.1 hk) i hi]
  · simp only [not_exists, not_and] at hi
    rw [houtside i hi, houtside' i fun k hk => hi k (hperm.mem_iff.2 hk)]

/-- Keys whose steps change nothing may be left out. -/
theorem each_part [DecidableEq κ] (hf : Local look reach inv f) {part ks : List κ} (hpart : part.Nodup)
    (hnodup : ks.Nodup) (hsub : part ⊆ ks) (hks : ks.Pairwise (Apart reach)) {s : σ} (hs : inv s)
    (hidle : ∀ k ∈ ks, k ∉ part → ∀ i, reach k i → look (f s k).1 i = look s i) :
    ∃ xs idle ys, (each f s part).2 = .ok xs ∧ (each f s ks).2 = .ok ys ∧ (xs ++ idle).Perm ys ∧
      (∀ x ∈ idle, ∃ k ∈ ks, k ∉ part ∧ (f s k).2 = .ok x) ∧ inv (each f s part).1 ∧
      look (each f s part).1 = look (each f s ks).1 := by
  have hperm : (part ++ ks.filter fun k => k ∉ part).Perm ks := by
    have hfilter : part.Perm (ks.filter fun k => k ∈ part) :=
      (List.perm_ext_iff_of_nodup hpart (hnodup.filter _)).2 fun k => by
        simpa using fun hk => hsub hk
    simpa using (hfilter.append_right _).trans (List.filter_append_perm (fun k => decide (k ∈ part)) ks)
  have hks' : (part ++ ks.filter fun k => k ∉ part).Pairwise (Apart reach) :=
    hks.perm hperm.symm fun h => h.symm
  obtain ⟨xs, hxs, hall, hkept, houtside, hinside⟩ := hf.each_eq (List.pairwise_append.1 hks').1 hs
  obtain ⟨idle, -, hidles, -⟩ := hf.each_eq (List.pairwise_append.1 hks').2.1 hs
  obtain ⟨ys, hys, hall', -, houtside', hinside'⟩ := hf.each_eq hks hs
  refine ⟨xs, idle, ys, hxs, hys, perm_of_results hperm (List.rel_append hall hidles) hall', ?_, hkept, ?_⟩
  · intro x hx
    obtain ⟨i, hi, rfl⟩ := List.getElem_of_mem hx
    have hstep := (List.forall₂_iff_get.1 hidles).2 i (hidles.length_eq ▸ hi) hi
    have hmem := List.mem_filter.1 (List.get_mem (ks.filter fun k => k ∉ part) ⟨i, hidles.length_eq ▸ hi⟩)
    exact ⟨_, hmem.1, of_decide_eq_true hmem.2, hstep⟩
  · funext i
    by_cases hi : ∃ k ∈ ks, reach k i
    · obtain ⟨k, hk, hi⟩ := hi
      rw [hinside' k hk i hi]
      by_cases hk' : k ∈ part
      · rw [hinside k hk' i hi]
      · rw [hidle k hk hk' i hi]
        apply houtside i
        intro j hj hji
        have hidle : k ∈ ks.filter fun k => k ∉ part := List.mem_filter.2 ⟨hk, decide_eq_true hk'⟩
        exact (List.pairwise_append.1 hks').2.2 j hj k hidle i hji hi
    · simp only [not_exists, not_and] at hi
      rw [houtside' i hi, houtside i fun k hk => hi k (hsub hk)]

end Local

end Local

end CatalogSentinel.Concurrent
