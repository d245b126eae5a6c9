import Mathlib.Data.List.Perm.Basic
import Mathlib.Data.List.Induction

/-!
Maps that keep their keys in the order of first appearance, and the groups of a list by a key.
Every item is in the group of its key, and the groups together are the items in another order.
-/

namespace CatalogSentinel.Data

variable {α β γ κ : Type} [DecidableEq κ]

/-- Change the entry of a key; a new key goes to the end. -/
def alter (k : κ) (fresh : β) (change : β → β) : List (κ × β) → List (κ × β)
  | [] => [(k, fresh)]
  | (k', b) :: rest => if k' = k then (k', change b) :: rest else (k', b) :: alter k fresh change rest

/-- The groups of a list: each key with its first item and the others. -/
def groups (key : α → κ) (xs : List α) : List (κ × α × List α) :=
  xs.foldl (fun m x => alter (key x) (x, []) (fun g => (g.1, g.2 ++ [x])) m) []

/-- What a group holds. -/
def members (group : κ × α × List α) : List α := group.2.1 :: group.2.2

theorem map_alter {k : κ} {fresh : β} {change : β → β} {change' : γ → γ} (f : β → γ)
    (h : ∀ b, f (change b) = change' (f b)) (m : List (κ × β)) :
    (alter k fresh change m).map (Prod.map id f) = alter k (f fresh) change' (m.map (Prod.map id f)) := by
  induction m with
  | nil => rfl
  | cons entry m ih =>
    obtain ⟨k', b⟩ := entry
    simp only [alter, List.map_cons, Prod.map_apply, id_eq]
    split
    · simp only [List.map_cons, Prod.map_apply, id_eq, h]
    · simp only [List.map_cons, Prod.map_apply, id_eq, ih]

variable (key : α → κ)

@[simp] theorem groups_nil : groups key [] = [] := rfl

theorem groups_concat (xs : List α) (x : α) :
    groups key (xs ++ [x]) = alter (key x) (x, []) (fun g => (g.1, g.2 ++ [x])) (groups key xs) := by
  simp only [groups, List.foldl_append, List.foldl_cons, List.foldl_nil]

/-- A fold that keeps one value for each key keeps what the groups come to. -/
theorem foldl_alter (fresh : α → β) (change : α → β → β) (xs : List α) :
    xs.foldl (fun m x => alter (key x) (fresh x) (change x) m) [] =
      (groups key xs).map (Prod.map id fun g => g.2.foldl (fun b x => change x b) (fresh g.1)) := by
  induction xs using List.reverseRecOn with
  | nil => rfl
  | append_singleton xs x ih =>
    rw [List.foldl_append, List.foldl_cons, List.foldl_nil, ih, groups_concat]
    symm
    apply map_alter
    intro g
    simp only [List.foldl_append, List.foldl_cons, List.foldl_nil]

theorem perm_alter {k : κ} (x : α) (m : List (κ × α × List α)) :
    ((alter k (x, []) (fun g => (g.1, g.2 ++ [x])) m).flatMap members).Perm (x :: m.flatMap members) := by
  induction m with
  | nil => exact List.Perm.refl _
  | cons entry m ih =>
    obtain ⟨k', head, tail⟩ := entry
    simp only [alter]
    split
    · simp only [List.flatMap_cons, members, List.cons_append, List.append_assoc]
      exact (List.perm_middle.cons head).trans (List.Perm.swap x head _)
    · simp only [List.flatMap_cons]
      exact ((ih.append_left _).trans List.perm_middle)

/-- The groups are the list in another order. -/
theorem perm_groups (xs : List α) : ((groups key xs).flatMap members).Perm xs := by
  induction xs using List.reverseRecOn with
  | nil => exact List.Perm.refl _
  | append_singleton xs x ih =>
    rw [groups_concat]
    exact ((perm_alter x _).trans (ih.cons x)).trans (List.perm_append_singleton x xs).symm

/-! ### What a group holds -/

omit [DecidableEq κ] in
theorem mem_of_cons_ne {k : κ} {entry : κ × β} {m : List (κ × β)} (h : k ∉ m.map Prod.fst) (hmem : entry ∈ m) :
    entry.1 ≠ k := by
  rintro rfl
  exact h (List.mem_map_of_mem hmem)

theorem keys_alter (k : κ) (fresh : β) (change : β → β) (m : List (κ × β)) :
    (alter k fresh change m).map Prod.fst =
      if k ∈ m.map Prod.fst then m.map Prod.fst else m.map Prod.fst ++ [k] := by
  induction m with
  | nil => rfl
  | cons entry m ih =>
    obtain ⟨k', b⟩ := entry
    simp only [alter, List.map_cons, List.mem_cons]
    by_cases hk : k' = k
    · rw [if_pos hk, if_pos (.inl hk.symm), List.map_cons]
    · rw [if_neg hk, List.map_cons, ih]
      by_cases hmem : k ∈ m.map Prod.fst
      · rw [if_pos hmem, if_pos (.inr hmem)]
      · rw [if_neg hmem, if_neg (fun h => h.elim (fun h => hk h.symm) hmem), List.cons_append]

theorem nodup_keys_alter {k : κ} {fresh : β} {change : β → β} {m : List (κ × β)} (h : (m.map Prod.fst).Nodup) :
    ((alter k fresh change m).map Prod.fst).Nodup := by
  rw [keys_alter]
  split
  · exact h
  · rename_i hk
    rw [List.nodup_append]
    refine ⟨h, by simp, fun a ha b hb => ?_⟩
    rintro rfl
    rw [List.mem_singleton.1 hb] at ha
    exact hk ha

/-- An entry is as it was, or it is the one that was changed or is new. -/
theorem mem_alter {k : κ} {fresh : β} {change : β → β} {m : List (κ × β)} (h : (m.map Prod.fst).Nodup)
    {entry : κ × β} (hmem : entry ∈ alter k fresh change m) :
    (entry.1 ≠ k ∧ entry ∈ m) ∨ (∃ b, (k, b) ∈ m ∧ entry = (k, change b)) ∨
      (k ∉ m.map Prod.fst ∧ entry = (k, fresh)) := by
  induction m with
  | nil => exact .inr (.inr ⟨List.not_mem_nil, List.mem_singleton.1 hmem⟩)
  | cons first m ih =>
    obtain ⟨k', b⟩ := first
    rw [List.map_cons, List.nodup_cons] at h
    simp only [alter] at hmem
    by_cases hk : k' = k
    · subst hk
      rw [if_pos rfl] at hmem
      obtain rfl | hmem := List.mem_cons.1 hmem
      · exact .inr (.inl ⟨b, List.mem_cons_self, rfl⟩)
      · exact .inl ⟨mem_of_cons_ne h.1 hmem, List.mem_cons_of_mem _ hmem⟩
    · rw [if_neg hk] at hmem
      obtain rfl | hmem := List.mem_cons.1 hmem
      · exact .inl ⟨hk, List.mem_cons_self⟩
      · obtain ⟨hne, hold⟩ | ⟨b', hold, rfl⟩ | ⟨hnew, rfl⟩ := ih h.2 hmem
        · exact .inl ⟨hne, List.mem_cons_of_mem _ hold⟩
        · exact .inr (.inl ⟨b', List.mem_cons_of_mem _ hold, rfl⟩)
        · refine .inr (.inr ⟨fun hin => ?_, rfl⟩)
          obtain hin | hin := List.mem_cons.1 hin
          · exact hk hin.symm
          · exact hnew hin

theorem nodup_keys_groups (xs : List α) : ((groups key xs).map Prod.fst).Nodup := by
  induction xs using List.reverseRecOn with
  | nil => exact List.nodup_nil
  | append_singleton xs x ih =>
    rw [groups_concat]
    exact nodup_keys_alter ih

theorem mem_keys_groups {k : κ} {xs : List α} : k ∈ (groups key xs).map Prod.fst ↔ k ∈ xs.map key := by
  induction xs using List.reverseRecOn with
  | nil => exact Iff.rfl
  | append_singleton xs x ih =>
    rw [groups_concat, keys_alter, List.map_append, List.mem_append, ← ih]
    by_cases hx : key x ∈ (groups key xs).map Prod.fst
    · rw [if_pos hx]
      refine ⟨.inl, fun h => h.elim id fun hk => ?_⟩
      rw [List.mem_singleton.1 hk]
      exact hx
    · rw [if_neg hx, List.mem_append, List.map_singleton]

/-- A group holds the items of its key, in their order. -/
theorem members_of_mem_groups {xs : List α} {group : κ × α × List α} (h : group ∈ groups key xs) :
    members group = xs.filter fun x => key x = group.1 := by
  induction xs using List.reverseRecOn generalizing group with
  | nil => exact absurd h List.not_mem_nil
  | append_singleton xs x ih =>
    rw [groups_concat] at h
    rw [List.filter_append]
    have hkeep : [x].filter (fun y => decide (key y = key x)) = [x] :=
      List.filter_eq_self.2 fun y hy => decide_eq_true (congrArg key (List.mem_singleton.1 hy))
    obtain ⟨hne, hold⟩ | ⟨g, hold, rfl⟩ | ⟨hnew, rfl⟩ := mem_alter (nodup_keys_groups key xs) h
    · have hdrop : [x].filter (fun x => key x = group.1) = [] := by
        rw [List.filter_cons_of_neg (by simpa using Ne.symm hne), List.filter_nil]
      rw [ih hold, hdrop, List.append_nil]
    · rw [hkeep, ← ih hold]
      rfl
    · have hnone : xs.filter (fun y => decide (key y = key x)) = [] := by
        refine List.filter_eq_nil_iff.2 fun y hy hkey => hnew ?_
        rw [mem_keys_groups key, ← of_decide_eq_true hkey]
        exact List.mem_map_of_mem hy
      rw [hnone, hkeep]
      rfl

end CatalogSentinel.Data
