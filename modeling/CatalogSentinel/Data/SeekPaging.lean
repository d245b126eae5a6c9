import Mathlib.Algebra.Group.Nat.Defs
import Mathlib.Data.List.Basic
import Mathlib.Order.Lattice

/-!
Lists that are read page by page, each page starting after the key of the last item of the
page before it. The list keeps an order of its own. The pages cover it exactly if at every
page boundary that order and the order of the keys agree about the item at the boundary.
-/

namespace CatalogSentinel.Data

section Seek

variable {α K : Type} [LinearOrder K] (key : α → K) (size : ℕ)

/-- The items that come after a cursor, which is to say below it, in the list's own order. -/
def below (cursor : Option K) (L : List α) : List α :=
  L.filter fun x => cursor.all fun c => key x < c

structure SeekPage (α K : Type) where
  items : List α
  next : Option K

def seekPage (cursor : Option K) (L : List α) : SeekPage α K :=
  let ordered := below key cursor L
  { items := ordered.take size
    next := if size < ordered.length then (ordered.take size).getLast?.map key else none }

/-- What the pages hold, from a cursor on to the first page that names no next one. -/
def follow (L : List α) : ℕ → Option K → Option (List α)
  | 0, _ => none
  | fuel + 1, cursor =>
    match (seekPage key size cursor L).next with
    | none => some (seekPage key size cursor L).items
    | some next => (follow L fuel (some next)).map ((seekPage key size cursor L).items ++ ·)

/-- The last of the first `k` items divides the list by its key where it divides it by place. -/
def Splits (L : List α) (k : ℕ) : Prop :=
  ∀ last ∈ (L.take k).getLast?, (∀ x ∈ L.take k, key last ≤ key x) ∧ ∀ x ∈ L.drop k, key x < key last

/-- The two orders agree at every boundary between two pages. -/
def Aligned (L : List α) : Prop := ∀ m, size * (m + 1) < L.length → Splits key L (size * (m + 1))

variable {key size}

@[simp] theorem below_none (L : List α) : below key none L = L := by
  simp [below]

theorem mem_below {L : List α} {c : K} {x : α} : x ∈ below key (some c) L ↔ x ∈ L ∧ key x < c := by
  simp [below]

theorem below_below {L : List α} {c d : K} (h : d ≤ c) :
    below key (some d) (below key (some c) L) = below key (some d) L := by
  simp only [below, List.filter_filter]
  apply List.filter_congr
  intro x _
  have himp : key x < d → key x < c := fun hx => lt_of_lt_of_le hx h
  simpa using himp

theorem below_eq_drop {L : List α} {k : ℕ} {c : K} (htake : ∀ x ∈ L.take k, c ≤ key x)
    (hdrop : ∀ x ∈ L.drop k, key x < c) : below key (some c) L = L.drop k := by
  have hhead : (L.take k).filter (fun x => decide (key x < c)) = [] :=
    List.filter_eq_nil_iff.2 fun x hx => by simpa using htake x hx
  have htail : (L.drop k).filter (fun x => decide (key x < c)) = L.drop k :=
    List.filter_eq_self.2 fun x hx => by simpa using hdrop x hx
  calc below key (some c) L = (L.take k ++ L.drop k).filter (fun x => decide (key x < c)) := by
        rw [List.take_append_drop]
        rfl
    _ = L.drop k := by rw [List.filter_append, hhead, htail, List.nil_append]

/-- A cursor names an item of its page. -/
theorem exists_of_next {L : List α} {cursor : Option K} {next : K}
    (h : (seekPage key size cursor L).next = some next) :
    size < (below key cursor L).length ∧
      ∃ last ∈ ((below key cursor L).take size).getLast?, key last = next := by
  simp only [seekPage] at h
  split at h
  · next hlt =>
    obtain ⟨last, hlast, hkey⟩ := Option.map_eq_some_iff.1 h
    exact ⟨hlt, last, hlast, hkey⟩
  · simp at h

theorem next_eq {L : List α} {last : α} (hlt : size < L.length)
    (hlast : (L.take size).getLast? = some last) : (seekPage key size none L).next = some (key last) := by
  simp [seekPage, hlt, hlast]

theorem next_eq_none {L : List α} (h : L.length ≤ size) : (seekPage key size none L).next = none := by
  simp only [seekPage, below_none, if_neg (Nat.not_lt.2 h)]

/-- Cursors only go down, so what lies above the first one does not matter. -/
theorem follow_below {L : List α} {c d : K} (h : d ≤ c) (fuel : ℕ) :
    follow key size (below key (some c) L) fuel (some d) = follow key size L fuel (some d) := by
  induction fuel generalizing d with
  | zero => rfl
  | succ fuel ih =>
    have hpage : seekPage key size (some d) (below key (some c) L) = seekPage key size (some d) L := by
      simp only [seekPage, below_below h]
    simp only [follow, hpage]
    cases hnext : (seekPage key size (some d) L).next with
    | none => rfl
    | some next =>
      obtain ⟨-, last, hlast, rfl⟩ := exists_of_next hnext
      have hmem := mem_below.1 (List.mem_of_mem_take (List.mem_of_getLast? hlast))
      simp only [ih (hmem.2.le.trans h)]

theorem follow_some {L : List α} {c : K} (fuel : ℕ) :
    follow key size L fuel (some c) = follow key size (below key (some c) L) fuel none := by
  cases fuel with
  | zero => rfl
  | succ fuel =>
    have hpage : seekPage key size (some c) L = seekPage key size none (below key (some c) L) := by
      simp only [seekPage, below_none]
    simp only [follow, hpage]
    cases hnext : (seekPage key size none (below key (some c) L)).next with
    | none => rfl
    | some next =>
      obtain ⟨-, last, hlast, rfl⟩ := exists_of_next hnext
      rw [below_none] at hlast
      have hmem := mem_below.1 (List.mem_of_mem_take (List.mem_of_getLast? hlast))
      simp only [follow_below hmem.2.le]

theorem exists_last (hsize : 0 < size) {L : List α} (hlt : size < L.length) :
    ∃ last, (L.take size).getLast? = some last ∧ last ∈ L.take size := by
  have hne : L.take size ≠ [] := by
    intro h
    have := congrArg List.length h
    simp only [List.length_take, List.length_nil] at this
    omega
  exact ⟨_, List.getLast?_eq_some_getLast hne, List.getLast_mem hne⟩

/-- The first page, and then the pages of what its cursor leaves. -/
theorem follow_succ {L : List α} (hlt : size < L.length) {last : α}
    (hlast : (L.take size).getLast? = some last) (fuel : ℕ) :
    follow key size L (fuel + 1) none =
      (follow key size (below key (some (key last)) L) fuel none).map (L.take size ++ ·) := by
  have hitems : (seekPage key size none L).items = L.take size := by simp [seekPage]
  simp only [follow, next_eq hlt hlast, hitems, follow_some]

theorem follow_short {L : List α} (h : L.length ≤ size) (fuel : ℕ) :
    follow key size L (fuel + 1) none = some L := by
  have hitems : (seekPage key size none L).items = L := by simp [seekPage, List.take_of_length_le h]
  simp only [follow, next_eq_none h, hitems]

theorem length_below_lt {L : List α} {last : α} (h : last ∈ L) :
    (below key (some (key last)) L).length < L.length :=
  List.length_filter_lt_length_iff_exists.2 ⟨last, h, by simp⟩

/-- Every page but the last leaves less to read. -/
theorem exists_follow (hsize : 0 < size) {fuel : ℕ} {L : List α} (hfuel : L.length < fuel) :
    ∃ visited, follow key size L fuel none = some visited := by
  induction fuel generalizing L with
  | zero => exact absurd hfuel (Nat.not_lt_zero _)
  | succ fuel ih =>
    rcases Nat.lt_or_ge size L.length with hlt | hle
    · obtain ⟨last, hlast, hmem⟩ := exists_last hsize hlt
      have hless : (below key (some (key last)) L).length < L.length :=
        length_below_lt (List.mem_of_mem_take hmem)
      obtain ⟨visited, hvisited⟩ := ih (L := below key (some (key last)) L) (by omega)
      exact ⟨_, by rw [follow_succ hlt hlast, hvisited]; rfl⟩
    · exact ⟨L, follow_short hle fuel⟩

theorem follow_subset {fuel : ℕ} {L visited : List α} {cursor : Option K}
    (h : follow key size L fuel cursor = some visited) : visited ⊆ below key cursor L := by
  induction fuel generalizing L cursor visited with
  | zero => simp [follow] at h
  | succ fuel ih =>
    simp only [follow] at h
    cases hnext : (seekPage key size cursor L).next with
    | none =>
      simp only [hnext, Option.some.injEq] at h
      rw [← h]
      exact List.take_subset _ _
    | some next =>
      simp only [hnext, Option.map_eq_some_iff] at h
      obtain ⟨rest, hrest, rfl⟩ := h
      obtain ⟨-, last, hlast, rfl⟩ := exists_of_next hnext
      have hmem := List.mem_of_mem_take (List.mem_of_getLast? hlast)
      apply List.append_subset.2 ⟨List.take_subset _ _, fun x hx => ?_⟩
      have hx' := mem_below.1 (ih hrest hx)
      cases cursor with
      | none => exact List.mem_filter.2 ⟨hx'.1, rfl⟩
      | some c => exact mem_below.2 ⟨hx'.1, hx'.2.trans (mem_below.1 hmem).2⟩

/-- The first page is visited first. -/
theorem mem_of_head {fuel : ℕ} {L visited : List α} {x : α} {rest : List α} (hsize : 0 < size)
    (h : follow key size L fuel none = some visited) (hL : L = x :: rest) : x ∈ visited := by
  subst hL
  cases fuel with
  | zero => simp [follow] at h
  | succ fuel =>
    have hfirst : x ∈ (x :: rest).take size := by
      obtain ⟨n, rfl⟩ := Nat.exists_eq_succ_of_ne_zero (Nat.pos_iff_ne_zero.1 hsize)
      exact List.mem_cons_self
    rcases Nat.lt_or_ge size (x :: rest).length with hlt | hle
    · obtain ⟨last, hlast, -⟩ := exists_last hsize hlt
      rw [follow_succ hlt hlast, Option.map_eq_some_iff] at h
      obtain ⟨tail, -, rfl⟩ := h
      exact List.mem_append_left _ hfirst
    · rw [follow_short hle, Option.some.injEq] at h
      exact h ▸ List.mem_cons_self

/-- The boundaries of a list are its first one and those of what the first page leaves. -/
theorem aligned_drop {L : List α} (hlt : size < L.length) (hsize : 0 < size) :
    Aligned key size L ↔ Splits key L size ∧ Aligned key size (L.drop size) := by
  have htake (k : ℕ) : L.take (size + k) = L.take size ++ (L.drop size).take k := List.take_add
  have hdrop (k : ℕ) : L.drop (size + k) = (L.drop size).drop k := by rw [List.drop_drop]
  have hlen : (L.drop size).length = L.length - size := List.length_drop
  have hlast (m : ℕ) (hm : size * (m + 1) < (L.drop size).length) :
      (L.take (size + size * (m + 1))).getLast? = ((L.drop size).take (size * (m + 1))).getLast? := by
    have hpos : 0 < size * (m + 1) := Nat.mul_pos hsize (Nat.succ_pos m)
    have hne : (L.drop size).take (size * (m + 1)) ≠ [] := by
      intro h
      have := congrArg List.length h
      simp only [List.length_take, List.length_nil] at this
      omega
    rw [htake, List.getLast?_append_of_ne_nil _ hne]
  constructor
  · intro h
    refine ⟨by simpa using h 0 (by simpa using hlt), fun m hm last hmem => ?_⟩
    have hsplit := h (m + 1) (by rw [Nat.mul_succ]; omega)
    rw [Nat.mul_succ, Nat.add_comm] at hsplit
    obtain ⟨hbefore, hafter⟩ := hsplit last (by rw [hlast m hm]; exact hmem)
    rw [hdrop] at hafter
    rw [htake] at hbefore
    exact ⟨fun x hx => hbefore x (List.mem_append_right _ hx), hafter⟩
  · rintro ⟨hfirst, h⟩ m hm
    cases m with
    | zero => simpa using hfirst
    | succ m =>
      have hm' : size * (m + 1) < (L.drop size).length := by
        rw [Nat.mul_succ] at hm
        omega
      rw [Nat.mul_succ, Nat.add_comm]
      intro last hmem
      rw [hlast m hm'] at hmem
      obtain ⟨hbefore, hafter⟩ := h m hm' last hmem
      rw [htake, hdrop]
      refine ⟨fun x hx => ?_, hafter⟩
      rcases List.mem_append.1 hx with hx | hx
      · obtain ⟨first, hfirst', -⟩ := exists_last hsize hlt
        obtain ⟨habove, hbelow⟩ := hfirst first hfirst'
        have hin : last ∈ L.drop size := List.mem_of_mem_take (List.mem_of_getLast? hmem)
        exact (hbelow last hin).le.trans (habove x hx)
      · exact hbefore x hx

theorem below_last {L : List α} {last : α} (h : Splits key L size)
    (hlast : (L.take size).getLast? = some last) : below key (some (key last)) L = L.drop size :=
  below_eq_drop (h last hlast).1 (h last hlast).2

/-- Pages that visit everything once leave exactly the rest of the list after the first one. -/
theorem splits_of_perm (hsize : 0 < size) {L rest : List α} (hnodup : L.Nodup) {fuel : ℕ} {last : α}
    (hlast : (L.take size).getLast? = some last)
    (hrest : follow key size (below key (some (key last)) L) fuel none = some rest)
    (hperm : rest.Perm (L.drop size)) : Splits key L size := by
  have hdrop : ∀ x ∈ L.drop size, key x < key last := by
    intro x hx
    have hmem := follow_subset hrest (hperm.mem_iff.2 hx)
    rw [below_none] at hmem
    exact (mem_below.1 hmem).2
  have hdisjoint : List.Disjoint (L.take size) (L.drop size) := List.disjoint_take_drop hnodup (Nat.le_refl size)
  have hsplit : below key (some (key last)) L =
      below key (some (key last)) (L.take size) ++ below key (some (key last)) (L.drop size) := by
    conv_lhs => rw [← List.take_append_drop size L]
    exact List.filter_append _ _
  intro last' hlast'
  obtain rfl : last = last' := Option.some.inj (hlast.symm.trans hlast')
  refine ⟨?_, hdrop⟩
  -- an item of the first page that the cursor lets through would be visited again, first of all
  cases hagain : below key (some (key last)) (L.take size) with
  | nil =>
    intro x hx
    by_contra hlt
    have : x ∈ below key (some (key last)) (L.take size) := mem_below.2 ⟨hx, not_le.1 hlt⟩
    rw [hagain] at this
    exact List.not_mem_nil this
  | cons x xs =>
    rw [hagain, List.cons_append] at hsplit
    have hvisited := hperm.mem_iff.1 (mem_of_head hsize hrest hsplit)
    have htaken : x ∈ below key (some (key last)) (L.take size) := by
      rw [hagain]
      exact List.mem_cons_self
    exact absurd hvisited (hdisjoint (mem_below.1 htaken).1)

/-- The pages hold every item once exactly if the orders agree at the boundaries. -/
theorem follow_perm_iff (hsize : 0 < size) {fuel : ℕ} {L visited : List α} (hnodup : L.Nodup)
    (h : follow key size L fuel none = some visited) : visited.Perm L ↔ Aligned key size L := by
  induction fuel generalizing L visited with
  | zero => simp [follow] at h
  | succ fuel ih =>
    rcases Nat.lt_or_ge size L.length with hlt | hle
    · obtain ⟨last, hlast, -⟩ := exists_last hsize hlt
      rw [follow_succ hlt hlast, Option.map_eq_some_iff] at h
      obtain ⟨rest, hrest, rfl⟩ := h
      have hnodup' : (L.drop size).Nodup := hnodup.sublist (List.drop_sublist size L)
      have hperm : (L.take size ++ rest).Perm L ↔ rest.Perm (L.drop size) := by
        conv_lhs => rhs; rw [← List.take_append_drop size L]
        exact List.perm_append_left_iff _
      rw [hperm, aligned_drop hlt hsize]
      constructor
      · intro hp
        have hsplits := splits_of_perm hsize hnodup hlast hrest hp
        rw [below_last hsplits hlast] at hrest
        exact ⟨hsplits, (ih hnodup' hrest).1 hp⟩
      · rintro ⟨hsplits, haligned⟩
        rw [below_last hsplits hlast] at hrest
        exact (ih hnodup' hrest).2 haligned
    · rw [follow_short hle, Option.some.injEq] at h
      subst h
      refine ⟨fun _ m hm => ?_, fun _ => List.Perm.refl L⟩
      have : size ≤ size * (m + 1) := Nat.le_mul_of_pos_right size (Nat.succ_pos m)
      omega

/-- Then they hold them in the order of the list. -/
theorem follow_of_aligned (hsize : 0 < size) {fuel : ℕ} {L visited : List α}
    (haligned : Aligned key size L) (h : follow key size L fuel none = some visited) : visited = L := by
  induction fuel generalizing L visited with
  | zero => simp [follow] at h
  | succ fuel ih =>
    rcases Nat.lt_or_ge size L.length with hlt | hle
    · obtain ⟨last, hlast, -⟩ := exists_last hsize hlt
      rw [follow_succ hlt hlast, Option.map_eq_some_iff] at h
      obtain ⟨rest, hrest, rfl⟩ := h
      obtain ⟨hsplits, haligned⟩ := (aligned_drop hlt hsize).1 haligned
      rw [below_last hsplits hlast] at hrest
      rw [ih haligned hrest, List.take_append_drop]
    · rw [follow_short hle, Option.some.injEq] at h
      exact h.symm

end Seek

end CatalogSentinel.Data
