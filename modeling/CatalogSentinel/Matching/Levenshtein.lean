import CatalogSentinel.Data.EditDistance
import CatalogSentinel.Matching.Matcher

/-!
What the two rolling rows compute, and the similarity of titles that is built on them. After `i`
items of the first text the row that is kept holds the distances of its first `i` items to every
beginning of the second text.
-/

namespace CatalogSentinel.Matching

open Data

namespace TwoRow

variable (a b : List ℕ)

/-- The distance of two beginnings, which are read from their ends. -/
def dist (i j : ℕ) : ℕ := editDistance (a.take i).reverse (b.take j).reverse

/-- A row of the table, of which the first cells are right. -/
structure Filled (i k : ℕ) (row : List ℕ) : Prop where
  length : row.length = b.length + 1
  cells : ∀ j ≤ k, row.getD j 0 = dist a b i j

variable {a b} {i j k : ℕ} {prev curr row : List ℕ}

theorem dist_zero_left (hj : j ≤ b.length) : dist a b 0 j = j := by
  simp [dist, hj]

theorem dist_zero_right (hi : i ≤ a.length) : dist a b i 0 = i := by
  simp [dist, hi]

theorem reverse_take_succ {s : List ℕ} (hi : i < s.length) :
    (s.take (i + 1)).reverse = s[i] :: (s.take i).reverse := by
  rw [List.take_succ_eq_append_getElem hi, List.reverse_append, List.reverse_singleton, List.singleton_append]

theorem dist_succ (hi : i < a.length) (hj : j < b.length) : dist a b (i + 1) (j + 1) =
    min (min (dist a b (i + 1) j + 1) (dist a b i (j + 1) + 1))
      (dist a b i j + if a[i]? = b[j]? then 0 else 1) := by
  unfold dist
  rw [reverse_take_succ hi, reverse_take_succ hj, editDistance_cons, replaceCost]
  simp only [List.getElem?_eq_getElem hi, List.getElem?_eq_getElem hj, Option.some.injEq]

theorem getD_set_self {s : List ℕ} {n : ℕ} (hi : i < s.length) : (s.set i n).getD i 0 = n := by
  simp [List.getD_eq_getElem?_getD, hi]

theorem getD_set_of_ne {s : List ℕ} {n : ℕ} (h : i ≠ j) : (s.set i n).getD j 0 = s.getD j 0 := by
  simp [List.getD_eq_getElem?_getD, h]

/-- The first row. -/
theorem filled_range : Filled a b 0 b.length (List.range (b.length + 1)) where
  length := List.length_range
  cells j hj := by
    rw [dist_zero_left hj, List.getD_eq_getElem?_getD, List.getElem?_range (by omega)]
    rfl

/-- `curr[0] = i` -/
theorem filled_start (hi : i ≤ a.length) (hlength : curr.length = b.length + 1) :
    Filled a b i 0 (curr.set 0 i) where
  length := by rw [List.length_set, hlength]
  cells j hj := by
    rw [Nat.le_zero.1 hj, dist_zero_right hi, getD_set_self (by omega)]

theorem Filled.fillCell (hprev : Filled a b i b.length prev) (hcurr : Filled a b (i + 1) k curr)
    (hi : i < a.length) (hk : k < b.length) :
    Filled a b (i + 1) (k + 1) (fillCell a b (i + 1) prev curr (k + 1)) where
  length := by rw [TwoRow.fillCell, List.length_set, hcurr.length]
  cells j hj := by
    simp only [TwoRow.fillCell, Nat.add_sub_cancel]
    by_cases hlast : j = k + 1
    · subst hlast
      have hlength := hcurr.length
      rw [getD_set_self (by omega), hcurr.cells k (by omega), hprev.cells (k + 1) (by omega),
        hprev.cells k (by omega), dist_succ hi hk]
    · rw [getD_set_of_ne (by omega)]
      exact hcurr.cells j (by omega)

/-- What the inner loop has filled after `k` cells. -/
theorem filled_cells (hprev : Filled a b i b.length prev) (hlength : curr.length = b.length + 1)
    (hi : i < a.length) (hk : k ≤ b.length) :
    Filled a b (i + 1) k ((List.range' 1 k).foldl (fillCell a b (i + 1) prev) (curr.set 0 (i + 1))) := by
  induction k with
  | zero => exact filled_start hi hlength
  | succ k ih =>
    rw [List.range'_1_concat, List.foldl_append, Nat.add_comm 1 k]
    exact hprev.fillCell (ih (by omega)) hi hk

/-- What the outer loop holds after `i` rows; the other row has its length only. -/
theorem filled_rows (hi : i ≤ a.length) :
    let rows := (List.range' 1 i).foldl (fillRow a b) ⟨List.range (b.length + 1), List.replicate (b.length + 1) 0⟩
    Filled a b i b.length rows.prev ∧ rows.curr.length = b.length + 1 := by
  induction i with
  | zero => exact ⟨filled_range, List.length_replicate⟩
  | succ i ih =>
    obtain ⟨hprev, hcurr⟩ := ih (by omega)
    rw [List.range'_1_concat, List.foldl_append, Nat.add_comm 1 i]
    exact ⟨filled_cells hprev hcurr hi (Nat.le_refl _), hprev.length⟩

/-- The two rows compute the edit distance. -/
theorem levenshtein_eq (a b : List ℕ) : levenshtein a b = editDistance a b := by
  unfold levenshtein
  split
  · rename_i heq
    exact (editDistance_eq_zero.2 heq).symm
  · split
    · rename_i ha
      simp [List.length_eq_zero_iff.1 ha]
    · split
      · rename_i hb
        simp [List.length_eq_zero_iff.1 hb]
      · have hlast : Filled a b a.length b.length _ := (filled_rows (Nat.le_refl a.length)).1
        have hcell := hlast.cells b.length (Nat.le_refl _)
        rw [hcell, dist, List.take_length, List.take_length, editDistance_reverse]

end TwoRow

/-! ### Similarity of titles -/

theorem levenshteinRatio_comm (a b : List ℕ) :
    TwoRow.levenshteinRatio (F := ℚ) a b = TwoRow.levenshteinRatio b a := by
  simp only [TwoRow.levenshteinRatio, TwoRow.levenshtein_eq, editDistance_comm a b, max_comm a.length,
    and_comm (a := a.length = 0)]

theorem levenshteinRatio_mem (a b : List ℕ) :
    0 ≤ TwoRow.levenshteinRatio (F := ℚ) a b ∧ TwoRow.levenshteinRatio (F := ℚ) a b ≤ 1 := by
  unfold TwoRow.levenshteinRatio
  split
  · exact ⟨zero_le_one, le_refl _⟩
  · have hmax : (editDistance a b : ℚ) ≤ (max a.length b.length : ℕ) := by
      exact_mod_cast editDistance_le_max a b
    have hquotient : (editDistance a b : ℚ) / (max a.length b.length : ℕ) ≤ 1 := div_le_one_of_le₀ hmax (by positivity)
    have hnonneg : 0 ≤ (editDistance a b : ℚ) / (max a.length b.length : ℕ) := by positivity
    rw [TwoRow.levenshtein_eq]
    show 0 ≤ 1 - (editDistance a b : ℚ) / (max a.length b.length : ℕ) ∧
      1 - (editDistance a b : ℚ) / (max a.length b.length : ℕ) ≤ 1
    constructor <;> linarith

/-- A distance of texts that tells them apart. -/
structure IsMetric (d : List ℕ → List ℕ → ℕ) : Prop where
  comm : ∀ a b, d a b = d b a
  eq_zero : ∀ a b, d a b = 0 ↔ a = b
  triangle : ∀ a b c, d a c ≤ d a b + d b c

theorem isMetric_levenshtein : IsMetric TwoRow.levenshtein where
  comm a b := by simp only [TwoRow.levenshtein_eq, editDistance_comm a b]
  eq_zero a b := by rw [TwoRow.levenshtein_eq, editDistance_eq_zero]
  triangle a b c := by simp only [TwoRow.levenshtein_eq, editDistance_triangle a b c]

theorem twoRow_titleSimilarity_comm (a b : List ℕ) :
    TwoRow.titleSimilarity (F := ℚ) a b = TwoRow.titleSimilarity b a := by
  simp only [TwoRow.titleSimilarity, eq_comm (a := a), or_comm (a := a.length = 0), levenshteinRatio_comm a b,
    levenshteinRatio_comm (sortTokens a)]

theorem twoRow_titleSimilarity_mem (a b : List ℕ) :
    0 ≤ TwoRow.titleSimilarity (F := ℚ) a b ∧ TwoRow.titleSimilarity (F := ℚ) a b ≤ 1 := by
  unfold TwoRow.titleSimilarity
  split
  · exact ⟨zero_le_one, le_refl _⟩
  · split
    · exact ⟨le_refl _, zero_le_one⟩
    · have hdirect := levenshteinRatio_mem a b
      have hsorted := levenshteinRatio_mem (sortTokens a) (sortTokens b)
      exact ⟨le_max_of_le_left hdirect.1, max_le hdirect.2 hsorted.2⟩

/-- The two rows compute the edit distance, which is a metric, and titles are compared by it. -/
theorem twoRow_levenshtein :
    (∀ a b, TwoRow.levenshtein a b = editDistance a b) ∧ IsMetric TwoRow.levenshtein ∧
      ∀ a b, TwoRow.titleSimilarity (F := ℚ) a b = TwoRow.titleSimilarity b a ∧
        0 ≤ TwoRow.titleSimilarity (F := ℚ) a b ∧ TwoRow.titleSimilarity (F := ℚ) a b ≤ 1 := by
  refine ⟨TwoRow.levenshtein_eq, isMetric_levenshtein, fun a b => ⟨?_, ?_⟩⟩
  · exact twoRow_titleSimilarity_comm a b
  · exact twoRow_titleSimilarity_mem a b

end CatalogSentinel.Matching
