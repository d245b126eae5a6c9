import Mathlib.Logic.Relation
import Mathlib.Data.List.Basic

/-!
Things that are seen more than once, each time under some of their names. Two
sightings that share a name are of one thing, and so are any two that a chain of such
sightings joins. Sightings that come one after the other are put into groups; as long
as none of them joins two groups, the groups are the things that were seen.
-/

namespace CatalogSentinel.Data

variable {ρ κ : Type} (names : ρ → List κ)

def SharesName (x y : ρ) : Prop := ∃ k, k ∈ names x ∧ k ∈ names y

/-- A chain of sightings among `xs`, each sharing a name with the next. -/
def Chained (xs : List ρ) : ρ → ρ → Prop :=
  Relation.ReflTransGen fun x y => y ∈ xs ∧ SharesName names x y

/-- Sightings of which each but the first shares a name with an earlier one. -/
inductive Linked : List ρ → Prop
  | first (x : ρ) : Linked [x]
  | next {g : List ρ} {x y : ρ} (h : Linked g) (hy : y ∈ g) (hshares : SharesName names y x) :
    Linked (g ++ [x])

/-- The sightings, put into groups: no name is in two of them, and each is linked. -/
structure Grouped (xs : List ρ) (gs : List (List ρ)) : Prop where
  covers : ∀ x, x ∈ xs ↔ ∃ g ∈ gs, x ∈ g
  apart : ∀ (i j : ℕ) (g g' : List ρ), gs[i]? = some g → gs[j]? = some g' → i ≠ j →
    ∀ x ∈ g, ∀ y ∈ g', ¬ SharesName names x y
  linked : ∀ g ∈ gs, Linked names g

variable {names} {xs : List ρ} {gs : List (List ρ)} {g : List ρ} {x y : ρ} {k : κ}

theorem SharesName.symm (h : SharesName names x y) : SharesName names y x := by
  obtain ⟨k, hx, hy⟩ := h
  exact ⟨k, hy, hx⟩

theorem Chained.mono {ys : List ρ} (hsub : ∀ z ∈ xs, z ∈ ys) (h : Chained names xs x y) :
    Chained names ys x y :=
  Relation.ReflTransGen.mono (fun _ z hz => ⟨hsub z hz.1, hz.2⟩) x y h

/-- Any two sightings of a linked group are joined within it. -/
theorem Linked.chained (h : Linked names g) (hx : x ∈ g) (hy : y ∈ g) : Chained names g x y := by
  induction h generalizing x y with
  | first z =>
    rw [List.mem_singleton.1 hx, List.mem_singleton.1 hy]
    exact .refl
  | @next g z w hg hw hshares ih =>
    have hsub : ∀ v ∈ g, v ∈ g ++ [z] := fun v hv => List.mem_append_left _ hv
    have hz : z ∈ g ++ [z] := List.mem_append_right _ List.mem_cons_self
    obtain hx | hx := List.mem_append.1 hx
    · obtain hy | hy := List.mem_append.1 hy
      · exact (ih hx hy).mono hsub
      · rw [List.mem_singleton.1 hy]
        exact ((ih hx hw).mono hsub).tail ⟨hz, hshares⟩
    · rw [List.mem_singleton.1 hx]
      obtain hy | hy := List.mem_append.1 hy
      · exact .head ⟨hsub w hw, hshares.symm⟩ ((ih hw hy).mono hsub)
      · rw [List.mem_singleton.1 hy]
        exact .refl

theorem grouped_nil : Grouped names [] [] where
  covers x := by simp
  apart i j g g' hi := by simp at hi
  linked g hg := absurd hg List.not_mem_nil

/-- A sighting that shares no name with an earlier one is a group of its own. -/
theorem Grouped.alone (h : Grouped names xs gs) (hnew : ∀ y ∈ xs, ¬ SharesName names y x) :
    Grouped names (xs ++ [x]) (gs ++ [[x]]) where
  covers y := by
    rw [List.mem_append, h.covers]
    constructor
    · rintro (⟨g, hg, hy⟩ | hy)
      · exact ⟨g, List.mem_append_left _ hg, hy⟩
      · exact ⟨[x], List.mem_append_right _ List.mem_cons_self, hy⟩
    · rintro ⟨g, hg, hy⟩
      obtain hg | hg := List.mem_append.1 hg
      · exact .inl ⟨g, hg, hy⟩
      · rw [List.mem_singleton.1 hg] at hy
        exact .inr hy
  apart i j g g' hi hj hij y hy z hz hshares := by
    have hmem : ∀ {l : ℕ} {g : List ρ}, gs[l]? = some g → ∀ w ∈ g, w ∈ xs := fun hl w hw =>
      (h.covers w).2 ⟨_, List.mem_of_getElem? hl, hw⟩
    rw [List.getElem?_append] at hi hj
    split at hi
    · split at hj
      · exact h.apart i j g g' hi hj hij y hy z hz hshares
      · have hz' : z = x := by
          have hg' := List.mem_of_getElem? hj
          rw [List.mem_singleton] at hg'
          rw [hg'] at hz
          exact List.mem_singleton.1 hz
        rw [hz'] at hshares
        exact hnew y (hmem hi y hy) hshares
    · have hy' : y = x := by
        have hg := List.mem_of_getElem? hi
        rw [List.mem_singleton] at hg
        rw [hg] at hy
        exact List.mem_singleton.1 hy
      split at hj
      · rw [hy'] at hshares
        exact hnew z (hmem hj z hz) hshares.symm
      · have hone : ∀ {l : ℕ} {g : List ρ}, [[x]][l]? = some g → l = 0 := by
          intro l g hl
          have hlt := (List.getElem?_eq_some_iff.1 hl).1
          rw [List.length_singleton] at hlt
          omega
        have hi' := hone hi
        have hj' := hone hj
        omega
  linked g hg := by
    obtain hg | hg := List.mem_append.1 hg
    · exact h.linked g hg
    · rw [List.mem_singleton.1 hg]
      exact .first x

/-- A sighting that shares names with one group only joins it. -/
theorem Grouped.join (h : Grouped names xs gs) {i : ℕ} (hi : gs[i]? = some g) (hy : y ∈ g)
    (hshares : SharesName names y x)
    (hothers : ∀ (j : ℕ) (g' : List ρ), gs[j]? = some g' → j ≠ i → ∀ z ∈ g', ¬ SharesName names z x) :
    Grouped names (xs ++ [x]) (gs.set i (g ++ [x])) where
  covers z := by
    have hlt : i < gs.length := (List.getElem?_eq_some_iff.1 hi).1
    rw [List.mem_append, h.covers]
    constructor
    · rintro (⟨g', hg', hz⟩ | hz)
      · obtain ⟨j, hj⟩ := List.mem_iff_getElem?.1 hg'
        by_cases hij : j = i
        · rw [hij, hi] at hj
          rw [← Option.some.inj hj] at hz
          exact ⟨g ++ [x], List.mem_set hlt _, List.mem_append_left _ hz⟩
        · have hkept : (gs.set i (g ++ [x]))[j]? = some g' := by
            rw [List.getElem?_set_ne fun heq => hij heq.symm]
            exact hj
          exact ⟨g', List.mem_of_getElem? hkept, hz⟩
      · exact ⟨g ++ [x], List.mem_set hlt _, List.mem_append_right _ hz⟩
    · rintro ⟨g', hg', hz⟩
      obtain hg' | rfl := List.mem_or_eq_of_mem_set hg'
      · exact .inl ⟨g', hg', hz⟩
      · obtain hz | hz := List.mem_append.1 hz
        · exact .inl ⟨g, List.mem_of_getElem? hi, hz⟩
        · exact .inr hz
  apart j l g₁ g₂ hj hl hjl z hz w hw hzw := by
    have hlt : i < gs.length := (List.getElem?_eq_some_iff.1 hi).1
    by_cases hji : j = i
    · have hli : l ≠ i := fun heq => hjl (hji.trans heq.symm)
      rw [hji, List.getElem?_set_self hlt] at hj
      rw [List.getElem?_set_ne fun heq => hli heq.symm] at hl
      rw [← Option.some.inj hj] at hz
      obtain hz | hz := List.mem_append.1 hz
      · exact h.apart i l g g₂ hi hl (fun heq => hli heq.symm) z hz w hw hzw
      · rw [List.mem_singleton.1 hz] at hzw
        exact hothers l g₂ hl hli w hw hzw.symm
    · rw [List.getElem?_set_ne fun heq => hji heq.symm] at hj
      by_cases hli : l = i
      · rw [hli, List.getElem?_set_self hlt] at hl
        rw [← Option.some.inj hl] at hw
        obtain hw | hw := List.mem_append.1 hw
        · exact h.apart j i g₁ g hj hi hji z hz w hw hzw
        · rw [List.mem_singleton.1 hw] at hzw
          exact hothers j g₁ hj hji z hz hzw
      · rw [List.getElem?_set_ne fun heq => hli heq.symm] at hl
        exact h.apart j l g₁ g₂ hj hl hjl z hz w hw hzw
  linked g' hg' := by
    obtain hg' | rfl := List.mem_or_eq_of_mem_set hg'
    · exact h.linked g' hg'
    · exact .next (h.linked g (List.mem_of_getElem? hi)) hy hshares

/-- A name that was seen is in one group, and in no other. -/
theorem Grouped.existsUnique (h : Grouped names xs gs) (hx : x ∈ xs) (hk : k ∈ names x) :
    ∃! i : ℕ, ∃ g, gs[i]? = some g ∧ ∃ y ∈ g, k ∈ names y := by
  obtain ⟨g, hg, hxg⟩ := (h.covers x).1 hx
  obtain ⟨i, hi⟩ := List.mem_iff_getElem?.1 hg
  refine ⟨i, ⟨g, hi, x, hxg, hk⟩, ?_⟩
  rintro j ⟨g', hj, y, hy, hky⟩
  by_contra hne
  exact h.apart j i g' g hj hi hne y hy x hxg ⟨k, hky, hk⟩

/-- Two sightings are in one group exactly if a chain joins them. -/
theorem Grouped.together_iff (h : Grouped names xs gs) (hx : x ∈ xs) :
    (∃ g ∈ gs, x ∈ g ∧ y ∈ g) ↔ Chained names xs x y := by
  constructor
  · rintro ⟨g, hg, hxg, hyg⟩
    exact ((h.linked g hg).chained hxg hyg).mono fun z hz => (h.covers z).2 ⟨g, hg, hz⟩
  · intro hchain
    obtain ⟨g, hg, hxg⟩ := (h.covers x).1 hx
    obtain ⟨i, hi⟩ := List.mem_iff_getElem?.1 hg
    refine ⟨g, hg, hxg, ?_⟩
    induction hchain with
    | refl => exact hxg
    | @tail z w hz hzw ih =>
      obtain ⟨g', hg', hw⟩ := (h.covers w).1 hzw.1
      obtain ⟨j, hj⟩ := List.mem_iff_getElem?.1 hg'
      by_cases hij : i = j
      · rw [hij, hj] at hi
        rwa [← Option.some.inj hi]
      · exact absurd hzw.2 (h.apart i j g g' hi hj hij z ih w hw)

end CatalogSentinel.Data
