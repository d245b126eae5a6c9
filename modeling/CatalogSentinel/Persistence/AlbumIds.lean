import Mathlib.Data.List.Forall2
import Mathlib.Data.List.Nodup
import Mathlib.Tactic.Common

/-!
The public ids of releases. An id that holds an album UUID is known by it; any other is escaped,
and the percent signs of the escape become underscores. Marks are addressed to public ids, so
they reach their release only where no other release of the snapshot is known by the same id.
-/

namespace CatalogSentinel.Persistence

/-! ### Public ids -/

def isUuidChar (ch : Char) : Bool :=
  ('A' ≤ ch ∧ ch ≤ 'Z') || ('a' ≤ ch ∧ ch ≤ 'z') || ('0' ≤ ch ∧ ch ≤ '9') || ch = '-'

def uuidLabel : List Char := "albumuuid=".toList

/-- The first match of `/albumuuid=([A-Za-z0-9-]+)/i`, as far as it is captured. -/
def uuidIn : List Char → Option (List Char)
  | [] => none
  | ch :: rest =>
    let after := ((ch :: rest).drop uuidLabel.length).takeWhile isUuidChar
    if ((ch :: rest).take uuidLabel.length).map Char.toLower = uuidLabel ∧ after ≠ [] then some after
    else uuidIn rest

def isUnreserved (ch : Char) : Bool :=
  isUuidChar ch || ch ∈ ['_', '.', '!', '~', '*', '\'', '(', ')']

def hexDigit (n : ℕ) : Char := "0123456789ABCDEF".toList.getD n '0'

def percentByte (b : UInt8) : List Char := ['%', hexDigit (b.toNat / 16), hexDigit (b.toNat % 16)]

def percentChar (ch : Char) : List Char :=
  if isUnreserved ch then [ch] else (String.utf8EncodeChar ch).flatMap percentByte

def encodeURIComponent (s : List Char) : List Char := s.flatMap percentChar

/-- `replace(/%/g, '_')` -/
def underscored (s : List Char) : List Char := s.map fun ch => if ch = '%' then '_' else ch

def albumUuidOf (distributorReleaseId : List Char) : List Char :=
  (uuidIn distributorReleaseId).getD (underscored (encodeURIComponent distributorReleaseId))

/-! ### Marks -/

structure ReleaseRow where
  id : ℕ
  distributorReleaseId : List Char
  deriving DecidableEq

structure TrackRow where
  releaseOutcomeId : ℕ
  trackIndex : ℕ
  mark : Option String
  markNote : Option String
  markedAt : Option ℕ
  deriving DecidableEq

structure TrackMark where
  releaseId : List Char
  trackIndex : ℕ
  mark : Option String
  note : Option String
  deriving DecidableEq

/-- The release that a public id stands for: of rows with the same one, the last. -/
def byReleaseId (rels : List ReleaseRow) (releaseId : List Char) : Option ℕ :=
  (rels.reverse.find? fun r => albumUuidOf r.distributorReleaseId = releaseId).map (·.id)

def markTrack (now : ℕ) (m : TrackMark) (releaseOutcomeId : ℕ) (t : TrackRow) : TrackRow :=
  if t.releaseOutcomeId = releaseOutcomeId ∧ t.trackIndex = m.trackIndex then
    { t with mark := m.mark, markNote := m.note, markedAt := m.mark.map fun _ => now }
  else t

def updateTrackMarks (rels : List ReleaseRow) (now : ℕ) (marks : List TrackMark) (tracks : List TrackRow) :
    List TrackRow :=
  marks.foldl (fun tracks m =>
    match byReleaseId rels m.releaseId with
    | some releaseOutcomeId => tracks.map (markTrack now m releaseOutcomeId)
    | none => tracks) tracks

/-! ### When ids clash -/

/-- The texts differ in nothing but percent signs where the other has an underscore. -/
def SameButForPercent (s t : List Char) : Prop :=
  List.Forall₂ (fun x y => x = y ∨ x = '%' ∧ y = '_' ∨ x = '_' ∧ y = '%') s t

/-- One album UUID in both, one that is the whole other id, or escapes that read alike. -/
def Clash (a b : List Char) : Prop :=
  (∃ u, uuidIn a = some u ∧ uuidIn b = some u) ∨ (uuidIn a = some b ∧ uuidIn b = none) ∨
    (uuidIn a = none ∧ uuidIn b = some a) ∨
    (uuidIn a = none ∧ uuidIn b = none ∧ SameButForPercent (encodeURIComponent a) (encodeURIComponent b))

/-- Public ids are distinct, and a mark for a release's public id is a mark for that release. -/
structure KeepsApart (rels : List ReleaseRow) : Prop where
  distinct : (rels.map fun r => albumUuidOf r.distributorReleaseId).Nodup
  marked : ∀ row ∈ rels, byReleaseId rels (albumUuidOf row.distributorReleaseId) = some row.id

theorem underscored_eq_iff {s t : List Char} : underscored s = underscored t ↔ SameButForPercent s t := by
  rw [SameButForPercent, underscored, underscored, ← List.forall₂_eq_eq_eq, List.forall₂_map_left_iff,
    List.forall₂_map_right_iff]
  have hrel : (fun x y : Char => (if x = '%' then '_' else x) = if y = '%' then '_' else y) =
      fun x y => x = y ∨ x = '%' ∧ y = '_' ∨ x = '_' ∧ y = '%' := by
    funext x y
    by_cases hx : x = '%' <;> by_cases hy : y = '%' <;> grind
  rw [hrel]

/-- A text without underscores is no escape but of itself. -/
theorem eq_of_underscored {s u : List Char} (h : underscored (encodeURIComponent s) = u) (hu : '_' ∉ u) : s = u := by
  induction s generalizing u with
  | nil => exact h
  | cons ch s ih =>
    rw [encodeURIComponent, List.flatMap_cons, underscored, List.map_append] at h
    by_cases hch : isUnreserved ch = true
    · rw [percentChar, if_pos hch] at h
      subst h
      have hne : ch ≠ '%' := by
        rintro rfl
        exact absurd hch (by decide)
      simp only [List.map_cons, List.map_nil, hne, if_false, List.singleton_append, List.mem_cons, not_or] at hu ⊢
      exact congrArg (ch :: ·) (ih rfl hu.2)
    · obtain ⟨b, bs, hbytes⟩ : ∃ b bs, String.utf8EncodeChar ch = b :: bs :=
        List.exists_cons_of_ne_nil String.utf8EncodeChar_ne_nil
      rw [percentChar, if_neg hch, hbytes] at h
      subst h
      exact absurd (by simp [percentByte]) hu

theorem uuidChars_of_uuidIn {s u : List Char} (h : uuidIn s = some u) : ∀ ch ∈ u, isUuidChar ch = true := by
  induction s with
  | nil => cases h
  | cons ch s ih =>
    rw [uuidIn] at h
    split at h
    · obtain rfl := Option.some.inj h
      exact fun x hx => List.all_eq_true.1 (List.all_takeWhile) x hx
    · exact ih h

/-- An escape that is an album UUID is the id itself, and the other way round. -/
theorem escape_eq_uuid {s t u : List Char} (h : uuidIn t = some u) :
    underscored (encodeURIComponent s) = u ↔ s = u := by
  have hchars := uuidChars_of_uuidIn h
  constructor
  · intro hs
    refine eq_of_underscored hs fun hmem => ?_
    exact absurd (hchars '_' hmem) (by decide)
  · rintro rfl
    clear h
    induction s with
    | nil => rfl
    | cons ch s ih =>
      obtain ⟨hch, hrest⟩ := List.forall_mem_cons.1 hchars
      have hkept : percentChar ch = [ch] := by rw [percentChar, if_pos (by rw [isUnreserved, hch]; rfl)]
      have hne : ch ≠ '%' := by
        rintro rfl
        exact absurd hch (by decide)
      have := ih hrest
      rw [encodeURIComponent, underscored] at this
      rw [encodeURIComponent, List.flatMap_cons, hkept, underscored, List.singleton_append, List.map_cons,
        if_neg hne, this]

/-- Two ids have the same public id just where they clash. -/
theorem albumUuidOf_eq_iff (a b : List Char) : albumUuidOf a = albumUuidOf b ↔ Clash a b := by
  rw [albumUuidOf, albumUuidOf, Clash]
  cases ha : uuidIn a with
  | some u =>
    cases hb : uuidIn b with
    | some v => simp [eq_comm]
    | none => simp [@eq_comm _ u, escape_eq_uuid ha]
  | none =>
    cases hb : uuidIn b with
    | some v => simp [escape_eq_uuid hb, @eq_comm _ v]
    | none => simp [underscored_eq_iff]

/-- Public ids keep the releases of a snapshot apart just where no two of its ids clash. -/
theorem keepsApart_iff (rels : List ReleaseRow) :
    KeepsApart rels ↔ rels.Pairwise fun a b => ¬ Clash a.distributorReleaseId b.distributorReleaseId := by
  have hdistinct : (rels.map fun r => albumUuidOf r.distributorReleaseId).Nodup ↔
      rels.Pairwise fun a b => ¬ Clash a.distributorReleaseId b.distributorReleaseId := by
    rw [List.Nodup, List.pairwise_map]
    simp only [Ne, albumUuidOf_eq_iff]
  rw [← hdistinct]
  refine ⟨fun h => h.distinct, fun h => ⟨h, fun row hrow => ?_⟩⟩
  have hfound : (rels.reverse.find? fun r => albumUuidOf r.distributorReleaseId =
      albumUuidOf row.distributorReleaseId) = some row := by
    have hsome : (rels.reverse.find? fun r => albumUuidOf r.distributorReleaseId =
        albumUuidOf row.distributorReleaseId).isSome := by
      rw [List.find?_isSome]
      exact ⟨row, List.mem_reverse.2 hrow, decide_eq_true rfl⟩
    obtain ⟨found, hfound⟩ := Option.isSome_iff_exists.1 hsome
    have hsame := List.find?_some hfound
    rw [decide_eq_true_eq] at hsame
    have hmem := List.mem_reverse.1 (List.mem_of_find?_eq_some hfound)
    rw [hfound, List.inj_on_of_nodup_map h hmem hrow hsame]
  rw [byReleaseId, hfound]
  rfl

/-- Where releases are kept apart, a mark changes the tracks of its own release alone. -/
theorem KeepsApart.updateTrackMarks {rels : List ReleaseRow} (h : KeepsApart rels) {row : ReleaseRow} (hrow : row ∈ rels)
    {m : TrackMark} (hm : m.releaseId = albumUuidOf row.distributorReleaseId) (now : ℕ) (tracks : List TrackRow) :
    Persistence.updateTrackMarks rels now [m] tracks = tracks.map (markTrack now m row.id) := by
  simp only [Persistence.updateTrackMarks, List.foldl_cons, List.foldl_nil, hm, h.marked row hrow]

/-- Two pages of one album on the dashboard, and two ids of which one spells the other's escape. -/
def clashing : List ReleaseRow :=
  [⟨1, "/album?albumuuid=7F&tab=1".toList⟩, ⟨2, "/album?albumuuid=7F&tab=2".toList⟩, ⟨3, "a b".toList⟩, ⟨4, "a_20b".toList⟩]

/-- A mark for the first of them goes to the second, and one for the third to the fourth. -/
theorem clashing_mixed :
    (clashing.map (·.distributorReleaseId)).Nodup ∧ ¬ KeepsApart clashing ∧
      clashing.map (fun row => byReleaseId clashing (albumUuidOf row.distributorReleaseId)) =
        [some 2, some 2, some 4, some 4] := by
  have hmarks : clashing.map (fun row => byReleaseId clashing (albumUuidOf row.distributorReleaseId)) =
      [some 2, some 2, some 4, some 4] := by decide +kernel
  refine ⟨by decide, fun h => ?_, hmarks⟩
  have hfirst := h.marked _ List.mem_cons_self
  have hboth : some 1 = some 2 := hfirst.symm.trans (List.cons.inj hmarks).1
  cases hboth

end CatalogSentinel.Persistence
