import CatalogSentinel.Distrokid.RetryTargets

/-!
The chunks that a list of releases is split into, for every size that the environment can set. The
loop's bounds are multiples of the size, truncated where the list is cut, so the chunks are the list
for every positive size, and are what they are to be from size one on.
-/

namespace CatalogSentinel.Distrokid

variable {α : Type} {items : List α} {size : ℚ} {chunks : List (List α)}

/-- The size rounded up; an infinite one is no bound. -/
def ChunkSize.Bounds : ChunkSize → ℕ → Prop
  | .finite size, n => (n : ℤ) ≤ ⌈size⌉
  | .infinite, _ => True

/-- The chunks are the items in order, none of them is empty, and none is longer than the size. -/
structure Partitions (items : List α) (size : ChunkSize) (chunks : List (List α)) : Prop where
  flatten : chunks.flatten = items
  nonempty : ∀ chunk ∈ chunks, chunk ≠ []
  bounded : ∀ chunk ∈ chunks, size.Bounds chunk.length

/-- The call comes to an end, with a partition. -/
def Splits (items : List α) (size : ChunkSize) : Prop :=
  ∃ chunks, chunkReleases items size = some chunks ∧ Partitions items size chunks

theorem mem_chunkLoop {fuel i : ℕ} (h : chunkLoop items size fuel i = some chunks) {chunk : List α}
    (hchunk : chunk ∈ chunks) :
    ∃ j : ℕ, (j : ℚ) * size < items.length ∧ chunk = slice items (j * size) ((j + 1) * size) := by
  induction fuel generalizing i chunks with
  | zero => cases h
  | succ fuel ih =>
    rw [chunkLoop] at h
    split at h
    · rename_i hbelow
      obtain ⟨rest, hrest, rfl⟩ := Option.map_eq_some_iff.1 h
      rcases List.mem_cons.1 hchunk with rfl | hmem
      · exact ⟨i, hbelow, rfl⟩
      · exact ih hrest hmem
    · cases h
      cases hchunk

end CatalogSentinel.Distrokid
