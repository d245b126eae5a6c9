import Mathlib.Data.List.Nodup

/-!
Insertion-ordered maps as lists of entries that carry their own key. Writing a
key that is present replaces the entry in place; a new key goes to the end.
-/

namespace CatalogSentinel.Data

variable {α κ : Type} [DecidableEq κ] (key : α → κ)

def put (x : α) : List α → List α
  | [] => [x]
  | y :: ys => if key y = key x then x :: ys else y :: put x ys

/-- Write a batch of entries, in order. -/
def putAll (m xs : List α) : List α := xs.foldl (fun m x => put key x m) m

def get? (k : κ) (m : List α) : Option α := m.find? fun x => key x = k

def erase (k : κ) (m : List α) : List α := m.filter fun x => key x ≠ k

variable {key}

@[simp] theorem putAll_nil (m : List α) : putAll key m [] = m := rfl

@[simp] theorem putAll_cons (m : List α) (x : α) (xs : List α) :
    putAll key m (x :: xs) = putAll key (put key x m) xs := rfl

theorem putAll_append (m xs ys : List α) :
    putAll key m (xs ++ ys) = putAll key (putAll key m xs) ys := List.foldl_append

theorem get?_put_self (x : α) (m : List α) : get? key (key x) (put key x m) = some x := by
  induction m with
  | nil => simp [put, get?]
  | cons y ys ih =>
    rw [put]
    split
    · simp [get?]
    · rename_i h
      simpa [get?, h] using ih

theorem get?_put_of_ne {x : α} {k : κ} (h : key x ≠ k) (m : List α) :
    get? key k (put key x m) = get? key k m := by
  induction m with
  | nil => simp [put, get?, h]
  | cons y ys ih =>
    rw [put]
    split
    · rename_i hy
      simp [get?, h, hy]
    · simp only [get?, List.find?_cons] at ih ⊢
      rw [ih]

theorem put_put {x y : α} (h : key x = key y) (m : List α) : put key x (put key y m) = put key x m := by
  induction m with
  | nil => simp [put, h]
  | cons z zs ih =>
    simp only [put, h]
    split
    · simp [put, h]
    · rename_i hz
      rw [put, h, if_neg hz, ← ih]

theorem get?_put (x : α) (k : κ) (m : List α) :
    get? key k (put key x m) = if key x = k then some x else get? key k m := by
  split
  · rename_i h
    subst h
    exact get?_put_self x m
  · rename_i h
    exact get?_put_of_ne h m

/-- The last entry of a batch under a key is the one that the map keeps. -/
theorem get?_putAll (k : κ) (m xs : List α) :
    get? key k (putAll key m xs) = (get? key k xs.reverse).or (get? key k m) := by
  induction xs generalizing m with
  | nil => simp [get?]
  | cons x xs ih =>
    rw [putAll_cons, ih, get?_put]
    simp only [get?, List.reverse_cons, List.find?_append, List.find?_singleton, decide_eq_true_eq]
    split <;> cases xs.reverse.find? _ <;> rfl

theorem get?_erase_self (k : κ) (m : List α) : get? key k (erase key k m) = none := by
  refine List.find?_eq_none.2 fun x hx => ?_
  simpa using (List.mem_filter.1 hx).2

theorem get?_erase_of_ne {j k : κ} (h : j ≠ k) (m : List α) :
    get? key j (erase key k m) = get? key j m := by
  induction m with
  | nil => rfl
  | cons x xs ih =>
    simp only [erase, get?, List.filter_cons, List.find?_cons] at ih ⊢
    by_cases hx : key x = k
    · rw [if_neg (by simpa using hx), ih]
      rw [decide_eq_false (fun h' => h (h'.symm.trans hx))]
    · rw [if_pos (by simpa using hx), List.find?_cons, ih]

theorem key_of_get? {k : κ} {m : List α} {x : α} (h : get? key k m = some x) : key x = k := by
  simpa using List.find?_some h

theorem mem_of_get? {k : κ} {m : List α} {x : α} (h : get? key k m = some x) : x ∈ m :=
  List.mem_of_find?_eq_some h

theorem get?_isSome {k : κ} {m : List α} : (get? key k m).isSome ↔ k ∈ m.map key := by
  simp [get?, List.find?_isSome]

theorem get?_eq_none {k : κ} {m : List α} : get? key k m = none ↔ k ∉ m.map key := by
  rw [← get?_isSome]
  simp

/-- An entry of a map is the one under its key. -/
theorem get?_of_mem {m : List α} {x : α} (hnodup : (m.map key).Nodup) (hx : x ∈ m) :
    get? key (key x) m = some x := by
  have hsome : (get? key (key x) m).isSome := get?_isSome.2 (List.mem_map_of_mem hx)
  obtain ⟨y, hy⟩ := Option.isSome_iff_exists.1 hsome
  rw [hy, List.inj_on_of_nodup_map hnodup (mem_of_get? hy) hx (key_of_get? hy)]

/-- Changing the entries of a map and not their keys. -/
theorem get?_map {f : α → α} (hf : ∀ x, key (f x) = key x) (k : κ) (m : List α) :
    get? key k (m.map f) = (get? key k m).map f := by
  simp only [get?, List.find?_map, Function.comp_def, hf]

/-- Writing over the one entry under a key changes this entry only. -/
theorem put_eq_map {m : List α} {x : α} (hnodup : (m.map key).Nodup) (hx : key x ∈ m.map key) :
    put key x m = m.map fun y => if key y = key x then x else y := by
  induction m with
  | nil => simp at hx
  | cons y ys ih =>
    rw [List.map_cons, List.nodup_cons] at hnodup
    rw [put, List.map_cons]
    split
    · rename_i hy
      have hrest : ys.map (fun z => if key z = key x then x else z) = ys := by
        refine (List.map_congr_left fun z hz => ?_).trans (List.map_id ys)
        have hne : key z ≠ key x := fun h => hnodup.1 (hy ▸ h ▸ List.mem_map_of_mem hz)
        rw [if_neg hne, id]
      rw [hrest]
    · rename_i hy
      rw [List.map_cons, List.mem_cons] at hx
      rw [ih hnodup.2 (hx.resolve_left (Ne.symm hy))]

theorem mem_keys_put {k : κ} {x : α} {m : List α} :
    k ∈ (put key x m).map key ↔ k = key x ∨ k ∈ m.map key := by
  simp only [← get?_isSome, get?_put]
  split
  · rename_i h
    simp [h]
  · rename_i h
    simp [Ne.symm h]

theorem mem_keys_putAll {k : κ} {m xs : List α} :
    k ∈ (putAll key m xs).map key ↔ k ∈ m.map key ∨ k ∈ xs.map key := by
  induction xs generalizing m with
  | nil => simp
  | cons x xs ih =>
    rw [putAll_cons, ih, mem_keys_put, List.map_cons, List.mem_cons]
    tauto

theorem mem_put {x y : α} {m : List α} (h : y ∈ put key x m) : y = x ∨ y ∈ m := by
  induction m with
  | nil => exact .inl (List.mem_singleton.1 h)
  | cons z zs ih =>
    rw [put] at h
    split at h
    · rcases List.mem_cons.1 h with h | h
      · exact .inl h
      · exact .inr (List.mem_cons_of_mem _ h)
    · rcases List.mem_cons.1 h with h | h
      · exact .inr (List.mem_cons.2 (.inl h))
      · exact (ih h).imp_right (List.mem_cons_of_mem _)

theorem mem_putAll {y : α} {m xs : List α} (h : y ∈ putAll key m xs) : y ∈ m ∨ y ∈ xs := by
  induction xs generalizing m with
  | nil => exact .inl h
  | cons x xs ih =>
    rcases ih h with h | h
    · rcases mem_put h with rfl | h
      · exact .inr List.mem_cons_self
      · exact .inl h
    · exact .inr (List.mem_cons_of_mem x h)

theorem put_of_notMem {x : α} {m : List α} (h : key x ∉ m.map key) : put key x m = m ++ [x] := by
  induction m with
  | nil => rfl
  | cons y ys ih =>
    simp only [List.map_cons, List.mem_cons, not_or] at h
    rw [put, if_neg (Ne.symm h.1), ih h.2, List.cons_append]

theorem map_key_put_of_mem {x : α} {m : List α} (h : key x ∈ m.map key) :
    (put key x m).map key = m.map key := by
  induction m with
  | nil => simp at h
  | cons y ys ih =>
    rw [put]
    split
    · rename_i hy
      simp [hy]
    · rename_i hy
      rw [List.map_cons, List.mem_cons] at h
      rw [List.map_cons, List.map_cons, ih (h.resolve_left (Ne.symm hy))]

theorem nodup_put {x : α} {m : List α} (h : (m.map key).Nodup) :
    ((put key x m).map key).Nodup := by
  by_cases hx : key x ∈ m.map key
  · rwa [map_key_put_of_mem hx]
  · rw [put_of_notMem hx, List.map_append]
    exact List.nodup_append.2 ⟨h, by simp, by
      rintro a ha b hb rfl
      simp only [List.map_cons, List.map_nil, List.mem_singleton] at hb
      exact hx (hb ▸ ha)⟩

theorem nodup_putAll {m xs : List α} (h : (m.map key).Nodup) :
    ((putAll key m xs).map key).Nodup := by
  induction xs generalizing m with
  | nil => exact h
  | cons x xs ih => exact ih (nodup_put h)

theorem putAll_of_nodup {m xs : List α} (h : ((m ++ xs).map key).Nodup) :
    putAll key m xs = m ++ xs := by
  induction xs generalizing m with
  | nil => simp
  | cons x xs ih =>
    have hx : key x ∉ m.map key := by
      rw [List.map_append, List.nodup_append] at h
      exact fun hm => h.2.2 _ hm _ (by simp) rfl
    rw [putAll_cons, put_of_notMem hx, ih (by simpa using h)]
    simp

/-- An entry is written over by itself. -/
theorem put_of_get? {x : α} {m : List α} (h : get? key (key x) m = some x) : put key x m = m := by
  induction m with
  | nil => cases h
  | cons y ys ih =>
    rw [put]
    split
    · rename_i hy
      simp only [get?, List.find?_cons, hy, decide_true, Option.some.injEq] at h
      rw [h]
    · rename_i hy
      simp only [get?, List.find?_cons, hy, decide_false] at h
      rw [ih h]

/-- What is read of the entries alike before and after is the same in the whole map. -/
theorem map_put {β : Type} {f : α → β} {x y : α} {m : List α} (h : get? key (key x) m = some y) (hf : f x = f y) :
    (put key x m).map f = m.map f := by
  induction m with
  | nil => cases h
  | cons z zs ih =>
    rw [put]
    split
    · rename_i hz
      simp only [get?, List.find?_cons, hz, decide_true, Option.some.injEq] at h
      rw [List.map_cons, List.map_cons, h, hf]
    · rename_i hz
      simp only [get?, List.find?_cons, hz, decide_false] at h
      rw [List.map_cons, List.map_cons, ih h]

theorem nodup_erase {k : κ} {m : List α} (h : (m.map key).Nodup) : ((erase key k m).map key).Nodup :=
  h.sublist (List.filter_sublist.map key)

theorem erase_of_get?_none {k : κ} {m : List α} (h : get? key k m = none) : erase key k m = m := by
  apply List.filter_eq_self.2
  intro x hx
  have hk : k ∉ m.map key := get?_eq_none.1 h
  simp only [decide_eq_true_eq]
  rintro rfl
  exact hk (List.mem_map_of_mem hx)

/-- An entry that does not stay is the only one under its key. -/
theorem get?_filter {m : List α} (h : (m.map key).Nodup) (p : α → Bool) (k : κ) :
    get? key k (m.filter p) = (get? key k m).filter p := by
  cases hk : get? key k m with
  | none =>
    rw [get?_eq_none] at hk
    exact get?_eq_none.2 fun hmem => hk (List.map_subset key (List.filter_subset_self m) hmem)
  | some x =>
    obtain rfl := key_of_get? hk
    by_cases hp : p x = true
    · have hmem : x ∈ m.filter p := List.mem_filter.2 ⟨mem_of_get? hk, hp⟩
      rw [get?_of_mem (h.sublist (List.filter_sublist.map key)) hmem, Option.filter_some, if_pos hp]
    · rw [Option.filter_some, if_neg hp, get?_eq_none]
      intro hmem
      obtain ⟨y, hy, hkey⟩ := List.mem_map.1 hmem
      obtain ⟨hym, hpy⟩ := List.mem_filter.1 hy
      have hsame : y = x := List.inj_on_of_nodup_map h hym (mem_of_get? hk) hkey
      exact hp (hsame ▸ hpy)

/-! ### Insertion-ordered sets -/

section Once

variable {α β : Type} [DecidableEq α] [DecidableEq β] {x y : α} {xs : List α}

/-- `Set.add`, and `ON CONFLICT DO NOTHING`. -/
def addOnce (x : α) (xs : List α) : List α := if x ∈ xs then xs else xs ++ [x]

theorem mem_addOnce : y ∈ addOnce x xs ↔ y ∈ xs ∨ y = x := by
  unfold addOnce
  split
  · rename_i hx
    exact ⟨Or.inl, fun h => h.elim id fun heq => heq ▸ hx⟩
  · rw [List.mem_append, List.mem_singleton]

theorem nodup_addOnce (h : xs.Nodup) : (addOnce x xs).Nodup := by
  unfold addOnce
  split
  · exact h
  · rename_i hx
    rw [← List.concat_eq_append]
    exact h.concat hx

theorem addOnce_map (f : α → β) (hf : ∀ {x y}, f x = f y ↔ x = y) (x : α) (xs : List α) :
    addOnce (f x) (xs.map f) = (addOnce x xs).map f := by
  have hmem : f x ∈ xs.map f ↔ x ∈ xs := by
    simp only [List.mem_map, hf, exists_eq_right]
  unfold addOnce
  by_cases hx : x ∈ xs
  · rw [if_pos hx, if_pos (hmem.2 hx)]
  · rw [if_neg hx, if_neg (mt hmem.1 hx), List.map_append, List.map_singleton]

end Once

end CatalogSentinel.Data
