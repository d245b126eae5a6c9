import Mathlib.Data.List.Sort

/-!
Tables that are read page by page and written batch by batch. A reader asks for the
rows after the last key it has seen and stops at the first page that is not full: it
sees every row once, in the order of the keys. A writer numbers its rows by the
offset of their batch: they are numbered as if written at once.
-/

namespace CatalogSentinel.Data

section Pages

variable {R K β ε : Type} [LinearOrder K] (key : R → K)

def byKey (rows : List R) : List R := rows.insertionSort fun r r' => key r ≤ key r'

/-- `WHERE key > after ORDER BY key LIMIT size` -/
def page (size : ℕ) (rows : List R) (after : K) : List R :=
  ((byKey key rows).filter fun r => after < key r).take size

/-- `while (true) { …; if (rows.length < size) break; }`, over the key of the last row seen. -/
def readPages (size : ℕ) (rows : List R) (f : β → R → Except ε β) : ℕ → K → β → Except ε β
  | 0, _, acc => .ok acc
  | fuel + 1, after, acc => do
    let acc ← (page key size rows after).foldlM f acc
    match (page key size rows after).getLast? with
    | none => .ok acc
    | some last =>
      if (page key size rows after).length < size then .ok acc
      else readPages size rows f fuel (key last) acc

variable {key} {rows : List R} {size : ℕ}

theorem perm_byKey (rows : List R) : (byKey key rows).Perm rows := List.perm_insertionSort _ rows

/-- Where no two rows share a key, the order is strict. -/
theorem pairwise_byKey (hnodup : (rows.map key).Nodup) :
    (byKey key rows).Pairwise fun r r' => key r < key r' := by
  have hsorted : (byKey key rows).Pairwise fun r r' => key r ≤ key r' := by
    have htotal : Std.Total fun r r' : R => key r ≤ key r' := ⟨fun r r' => le_total (key r) (key r')⟩
    have htrans : IsTrans R fun r r' => key r ≤ key r' := ⟨fun _ _ _ h h' => le_trans h h'⟩
    exact List.pairwise_insertionSort _ rows
  have hne : (byKey key rows).Pairwise fun r r' => key r ≠ key r' :=
    List.pairwise_map.1 (((perm_byKey rows).map key).nodup_iff.2 hnodup)
  exact hsorted.imp₂ (fun _ _ hle hne => lt_of_le_of_ne hle hne) hne

/-- The rows after the last of a full page are those that the page left out. -/
theorem filter_after_page {U : List R} (hU : U.Pairwise fun r r' => key r < key r') {last : R}
    (hlast : (U.take size).getLast? = some last) :
    U.filter (fun r => key last < key r) = U.drop size := by
  have hsplit : U.take size ++ U.drop size = U := List.take_append_drop size U
  rw [← hsplit, List.pairwise_append] at hU
  obtain ⟨hhead, -, hacross⟩ := hU
  have hmem : last ∈ U.take size := List.mem_of_getLast? hlast
  obtain ⟨front, hfront⟩ := List.getLast?_eq_some_iff.1 hlast
  have hbefore : ∀ r ∈ U.take size, ¬ key last < key r := by
    intro r hr
    rw [hfront] at hr hhead
    rcases List.mem_append.1 hr with hr | hr
    · exact ((List.pairwise_append.1 hhead).2.2 r hr last List.mem_cons_self).le.not_gt
    · rw [List.mem_singleton.1 hr]
      exact lt_irrefl _
  have hafter : ∀ r ∈ U.drop size, key last < key r := fun r hr => hacross last hmem r hr
  calc U.filter (fun r => key last < key r)
      = (U.take size ++ U.drop size).filter (fun r => key last < key r) := by rw [hsplit]
    _ = U.drop size := by
      rw [List.filter_append, List.filter_eq_nil_iff.2 (by simpa using hbefore),
        List.filter_eq_self.2 (by simpa using hafter), List.nil_append]

/-- What is read page by page is what one read would have answered. -/
theorem readPages_after {f : β → R → Except ε β} (hsize : 0 < size) (hnodup : (rows.map key).Nodup)
    {fuel : ℕ} {after : K} {acc : β}
    (hfuel : ((byKey key rows).filter fun r => after < key r).length < fuel) :
    readPages key size rows f fuel after acc =
      ((byKey key rows).filter fun r => after < key r).foldlM f acc := by
  induction fuel generalizing after acc with
  | zero => exact absurd hfuel (Nat.not_lt_zero _)
  | succ fuel ih =>
    have hsorted : (byKey key rows).Pairwise fun r r' => key r < key r' := pairwise_byKey hnodup
    have hstrict := hsorted.filter fun r => after < key r
    rw [readPages]
    unfold page
    generalize hU : (byKey key rows).filter (fun r => after < key r) = U at hfuel hstrict ⊢
    have hfold : U.foldlM f acc = (U.take size).foldlM f acc >>= (U.drop size).foldlM f := by
      rw [← List.foldlM_append, List.take_append_drop]
    rw [hfold]
    congr 1
    funext acc'
    cases hlast : (U.take size).getLast? with
    | none =>
      have hnil : U = [] := by
        have htake := List.getLast?_eq_none_iff.1 hlast
        exact (List.take_eq_nil_iff.1 htake).resolve_left hsize.ne'
      rw [hnil, List.drop_nil]
      rfl
    | some last =>
      dsimp only
      split
      · rename_i hshort
        have hdrop : U.drop size = [] := by
          rw [List.length_take] at hshort
          exact List.drop_eq_nil_of_le (by omega)
        rw [hdrop]
        rfl
      · rename_i hfull
        have hmem : last ∈ U := List.mem_of_mem_take (List.mem_of_getLast? hlast)
        have hafter : after < key last := by
          rw [← hU] at hmem
          simpa using (List.mem_filter.1 hmem).2
        have hnext : (byKey key rows).filter (fun r => key last < key r) = U.drop size := by
          rw [← filter_after_page hstrict hlast, ← hU, List.filter_filter]
          refine List.filter_congr fun r _ => ?_
          by_cases h : key last < key r
          · simp [h, hafter.trans h]
          · simp [h]
        rw [ih, hnext]
        rw [hnext, List.length_drop]
        rw [List.length_take] at hfull
        omega

/-- A loop that starts below every key reads the whole table, in the order of the keys. -/
theorem readPages_eq {f : β → R → Except ε β} (hsize : 0 < size) (hnodup : (rows.map key).Nodup)
    {after : K} (hafter : ∀ r ∈ rows, after < key r) (acc : β) :
    readPages key size rows f (rows.length + 1) after acc = (byKey key rows).foldlM f acc := by
  have hall : (byKey key rows).filter (fun r => after < key r) = byKey key rows :=
    List.filter_eq_self.2 fun r hr => by
      simpa using hafter r ((perm_byKey rows).mem_iff.1 hr)
  rw [readPages_after hsize hnodup, hall]
  rw [hall, (perm_byKey rows).length_eq]
  omega

/-- Rows that are in order already stay. -/
theorem byKey_of_pairwise (h : rows.Pairwise fun r r' => key r < key r') : byKey key rows = rows :=
  List.Pairwise.insertionSort_eq (h.imp fun hlt => hlt.le)

/-! A page by itself: what it has of a table that may be another by the next page. -/

theorem mem_page {after : K} {r : R} (h : r ∈ page key size rows after) : r ∈ rows ∧ after < key r := by
  have hmem := List.mem_filter.1 (List.mem_of_mem_take h)
  exact ⟨(perm_byKey rows).mem_iff.1 hmem.1, by simpa using hmem.2⟩

theorem pairwise_page (hnodup : (rows.map key).Nodup) (after : K) :
    (page key size rows after).Pairwise fun r r' => key r < key r' :=
  ((pairwise_byKey hnodup).filter _).sublist (List.take_sublist size _)

/-- A row that a page leaves out comes after its last one. -/
theorem mem_page_of_le {after : K} {r last : R} (hnodup : (rows.map key).Nodup) (hr : r ∈ rows)
    (hafter : after < key r) (hlast : (page key size rows after).getLast? = some last)
    (hle : key r ≤ key last) : r ∈ page key size rows after := by
  have hstrict := (pairwise_byKey hnodup).filter (fun r => after < key r)
  have hmem : r ∈ (byKey key rows).filter fun r => after < key r :=
    List.mem_filter.2 ⟨(perm_byKey rows).mem_iff.2 hr, by simpa using hafter⟩
  unfold page at hlast ⊢
  generalize (byKey key rows).filter (fun r => after < key r) = U at hstrict hmem hlast ⊢
  rw [← List.take_append_drop size U] at hstrict hmem
  rcases List.mem_append.1 hmem with htake | hdrop
  · exact htake
  · have hlt : key last < key r :=
      (List.pairwise_append.1 hstrict).2.2 last (List.mem_of_getLast? hlast) r hdrop
    exact absurd hle hlt.not_ge

/-- A page that is not full leaves out none. -/
theorem mem_page_of_short {after : K} {r : R} (hr : r ∈ rows) (hafter : after < key r)
    (hshort : (page key size rows after).length < size) : r ∈ page key size rows after := by
  have hmem : r ∈ (byKey key rows).filter fun r => after < key r :=
    List.mem_filter.2 ⟨(perm_byKey rows).mem_iff.2 hr, by simpa using hafter⟩
  unfold page at hshort ⊢
  generalize (byKey key rows).filter (fun r => after < key r) = U at hmem hshort ⊢
  rw [List.length_take] at hshort
  rwa [List.take_of_length_le (by omega)]

end Pages

section Batches

variable {α : Type}

/-- `for (let offset = 0; offset < xs.length; offset += size)`: the rows of a batch, by the
offset of the batch and the index in it. -/
def numberBatches (size : ℕ) : ℕ → ℕ → List α → List (α × ℕ)
  | 0, _, _ => []
  | _, _, [] => []
  | fuel + 1, offset, x :: xs =>
    ((x :: xs).take size).zipIdx offset ++ numberBatches size fuel (offset + size) ((x :: xs).drop size)

theorem numberBatches_eq {size fuel : ℕ} (hsize : 0 < size) {xs : List α} (hfuel : xs.length ≤ fuel)
    (offset : ℕ) : numberBatches size fuel offset xs = xs.zipIdx offset := by
  induction fuel generalizing xs offset with
  | zero =>
    obtain rfl := List.length_eq_zero_iff.1 (Nat.le_zero.1 hfuel)
    rfl
  | succ fuel ih =>
    cases xs with
    | nil => rfl
    | cons x xs =>
      have hrest : ((x :: xs).drop size).length ≤ fuel := by
        rw [List.length_drop]
        omega
      rw [numberBatches, ih hrest]
      by_cases hlong : size ≤ (x :: xs).length
      · conv_rhs => rw [← List.take_append_drop size (x :: xs), List.zipIdx_append,
          List.length_take_of_le hlong]
      · have hdrop : (x :: xs).drop size = [] := List.drop_eq_nil_of_le (by omega)
        have htake : (x :: xs).take size = x :: xs := List.take_of_length_le (by omega)
        rw [hdrop, htake, List.zipIdx_nil, List.append_nil]

end Batches

end CatalogSentinel.Data
