import CatalogSentinel.Search.Record

/-!
The presence matrix of a saved search: per track one cell for each store that was
checked. The deep scan merges the verdicts of one store into it, and a person who
reviews a cell writes a decision back; both recompute the summary.
-/

namespace CatalogSentinel.Search

inductive Status
  | live
  | notLive
  | wrongProfile
  | unverifiable
  | other (text : String)
deriving DecidableEq

inductive ManualReviewDecision
  | confirmedPresent
  | confirmedMissing
  | wrongProfile
  | dismissed
deriving DecidableEq

/-- One cell. Its store is named by a text, of any kind of text. -/
structure PerStore (ν : Type := String) where
  store : ν
  status : Status
  foundArtist : Option String
  url : Option String
  confidence : ℚ
  needsManualReview : Bool
  reviewQuery : Option String
  reviewDecision : Option ManualReviewDecision := none
  reviewedBy : Option String := none
  reviewedAt : Option String := none
  reviewNotes : Option String := none
deriving DecidableEq

structure CatalogTrack (ν : Type := String) where
  title : String
  album : Option String
  isrc : Option String
  perStore : List (PerStore ν)
deriving DecidableEq

structure Summary where
  tracks : ℕ
  live : ℕ
  notLive : ℕ
  wrongProfile : ℕ
  needsReview : ℕ
deriving DecidableEq

structure CatalogResult (ν : Type := String) where
  stores : List ν
  tracks : List (CatalogTrack ν)
  summary : Summary
  warnings : List String
deriving DecidableEq

structure ReleasedTrack where
  title : String
  primaryArtist : String
  isrc : Option String
deriving DecidableEq

inductive ScanStatus
  | unchecked
  | idle
  | queued
  | running
  | done
  | error
deriving DecidableEq

/-- Without its timestamps. -/
structure DeepScanState (ν : Type := String) where
  status : ScanStatus
  platformsPending : List ν
  platformsDone : List ν
  tracksScanned : Option ℕ := none
  platformTracksVerified : Option (List (ν × ℕ)) := none
  error : Option String := none
deriving DecidableEq

/-- What the deep scan and the manual review read and write of a record. -/
structure Scan (ν : Type := String) where
  artist : String
  released : Option (List ReleasedTrack)
  result : CatalogResult ν
  deepScan : Option (DeepScanState ν)
deriving DecidableEq

variable {ν : Type} [DecidableEq ν]

/-- The count that both writers recompute. -/
def summaryOf {ν : Type} (tracks : List (CatalogTrack ν)) : Summary :=
  let flat := tracks.flatMap CatalogTrack.perStore
  { tracks := tracks.length
    live := flat.countP (·.status = .live)
    notLive := flat.countP (·.status = .notLive)
    wrongProfile := flat.countP (·.status = .wrongProfile)
    needsReview := flat.countP (·.needsManualReview) }

/-! ### Merging the verdicts of a store -/

structure PerTrackVerdict where
  status : Status
  foundArtist : Option String
  url : Option String
  confidence : ℚ
  needsManualReview : Bool
  reviewQuery : Option String
deriving DecidableEq

namespace PerTrackVerdict

def ofCell (p : PerStore) : PerTrackVerdict :=
  ⟨p.status, p.foundArtist, p.url, p.confidence, p.needsManualReview, p.reviewQuery⟩

def entry (p : PerTrackVerdict) (platform : String) : PerStore where
  store := platform
  status := p.status
  foundArtist := p.foundArtist
  url := p.url
  confidence := p.confidence
  needsManualReview := p.needsManualReview
  reviewQuery := p.reviewQuery

@[simp] theorem ofCell_entry (p : PerTrackVerdict) (platform : String) :
    ofCell (p.entry platform) = p := rfl

@[simp] theorem entry_store (p : PerTrackVerdict) (platform : String) :
    (p.entry platform).store = platform := rfl

@[simp] theorem entry_reviewDecision (p : PerTrackVerdict) (platform : String) :
    (p.entry platform).reviewDecision = none := rfl

end PerTrackVerdict

/-- The verdicts on the tracks by index; most are undefined while a scan is under way. -/
abbrev PerTrack := ℕ → Option PerTrackVerdict

def CatalogTrack.merge (t : CatalogTrack) (platform : String) :
    Option PerTrackVerdict → CatalogTrack
  | none => t
  | some p => { t with perStore := t.perStore.filter (·.store ≠ platform) ++ [p.entry platform] }

def mergeTracks (tracks : List CatalogTrack) (platform : String) (perTrack : PerTrack) :
    List CatalogTrack :=
  tracks.mapIdx fun i t => t.merge platform (perTrack i)

def mergePlatform (result : CatalogResult) (platform : String) (perTrack : PerTrack) :
    CatalogResult :=
  let tracks := mergeTracks result.tracks platform perTrack
  { result with
    tracks
    stores := if platform ∈ result.stores then result.stores else result.stores ++ [platform]
    summary := summaryOf tracks }

/-! ### Manual review -/

def DECISION_STATUS : ManualReviewDecision → Option Status
  | .confirmedPresent => some .live
  | .confirmedMissing => some .notLive
  | .wrongProfile => some .wrongProfile
  | .dismissed => none

structure ReviewOptions where
  reviewedBy : Option String
  notes : Option String
  atTime : String

def PerStore.review {ν : Type} (p : PerStore ν) (decision : ManualReviewDecision) (opts : ReviewOptions) :
    PerStore ν :=
  { p with
    status := (DECISION_STATUS decision).getD p.status
    confidence := if decision = .dismissed then p.confidence else 1
    needsManualReview := false
    reviewDecision := some decision
    reviewedBy := some (opts.reviewedBy.getD "user")
    reviewedAt := some opts.atTime
    reviewNotes := opts.notes }

def CatalogTrack.review (t : CatalogTrack ν) (platform : ν) (decision : ManualReviewDecision)
    (opts : ReviewOptions) : CatalogTrack ν :=
  { t with
    perStore := t.perStore.map fun p => if p.store = platform then p.review decision opts else p }

/-- The track's index and the platform that an item id stands for. -/
abbrev ReviewTarget (ν : Type := String) := ℤ × ν

/-- Whether the decision finds a cell to write to. -/
def ReviewTarget.matches (target : ReviewTarget ν) (tracks : List (CatalogTrack ν)) : Bool :=
  tracks.zipIdx.any fun (t, i) => i = target.1 && t.perStore.any (·.store = target.2)

def reviewTracks (tracks : List (CatalogTrack ν)) (target : ReviewTarget ν)
    (decision : ManualReviewDecision) (opts : ReviewOptions) : List (CatalogTrack ν) :=
  tracks.mapIdx fun i t => if i = target.1 then t.review target.2 decision opts else t

/-- `target` is what `decodeItemId` reads from the item's id. -/
def applyManualReviewDecision (result : CatalogResult ν) (target : Option (ReviewTarget ν))
    (decision : ManualReviewDecision) (opts : ReviewOptions) : Option (CatalogResult ν) :=
  target.bind fun target =>
    if target.matches result.tracks then
      let tracks := reviewTracks result.tracks target decision opts
      some { result with tracks, summary := summaryOf tracks }
    else none

theorem applyManualReviewDecision_of_matches {result : CatalogResult ν} {target : ReviewTarget ν}
    {decision : ManualReviewDecision} {opts : ReviewOptions} (h : target.matches result.tracks = true) :
    applyManualReviewDecision result (some target) decision opts =
      some { result with
        tracks := reviewTracks result.tracks target decision opts
        summary := summaryOf (reviewTracks result.tracks target decision opts) } := by
  rw [applyManualReviewDecision, Option.bind_some, if_pos h]

theorem applyManualReviewDecision_some {result result' : CatalogResult ν} {target : ReviewTarget ν}
    {decision : ManualReviewDecision} {opts : ReviewOptions}
    (h : applyManualReviewDecision result (some target) decision opts = some result') :
    target.matches result.tracks = true ∧
      result'.tracks = reviewTracks result.tracks target decision opts ∧
      result'.summary = summaryOf result'.tracks := by
  simp only [applyManualReviewDecision, Option.bind_some] at h
  split at h
  · rename_i hm
    cases h
    exact ⟨hm, rfl, rfl⟩
  · cases h

/-! ### Cells -/

/-- The cells of a store on one track. -/
def cells (tracks : List (CatalogTrack ν)) (i : ℕ) (store : ν) : List (PerStore ν) :=
  match tracks[i]? with
  | some t => t.perStore.filter (·.store = store)
  | none => []

theorem mem_cells {tracks : List (CatalogTrack ν)} {i : ℕ} {store : ν} {c : PerStore ν} :
    c ∈ cells tracks i store ↔ ∃ t, tracks[i]? = some t ∧ c ∈ t.perStore ∧ c.store = store := by
  unfold cells
  cases tracks[i]? with
  | none => simp
  | some t => simp

@[simp] theorem mergeTracks_length (tracks : List CatalogTrack) (name : String)
    (perTrack : PerTrack) : (mergeTracks tracks name perTrack).length = tracks.length :=
  List.length_mapIdx

theorem cells_mergeTracks (tracks : List CatalogTrack) (name : String) (perTrack : PerTrack)
    (i : ℕ) (store : String) : cells (mergeTracks tracks name perTrack) i store =
      match perTrack i with
      | some v => if store = name ∧ i < tracks.length then [v.entry name] else cells tracks i store
      | none => cells tracks i store := by
  unfold cells mergeTracks
  rw [List.getElem?_mapIdx]
  by_cases hi : i < tracks.length
  · rw [List.getElem?_eq_getElem hi]
    cases hv : perTrack i with
    | none => rfl
    | some v =>
      simp only [Option.map_some, CatalogTrack.merge, List.filter_append, List.filter_filter]
      by_cases hs : store = name
      · subst hs
        simp [hi]
      · have hfilter : ∀ c : PerStore, (decide (c.store = store) && decide (c.store ≠ name)) =
            decide (c.store = store) := by
          intro c
          by_cases hc : c.store = store
          · simp [hc, hs]
          · simp [hc]
        simp only [hfilter, hs, false_and, if_false]
        simp [Ne.symm hs]
  · rw [List.getElem?_eq_none (Nat.le_of_not_lt hi)]
    cases perTrack i <;> simp [hi]

theorem cells_reviewTracks (tracks : List (CatalogTrack ν)) (target : ReviewTarget ν)
    (decision : ManualReviewDecision) (opts : ReviewOptions) (i : ℕ) (store : ν) :
    cells (reviewTracks tracks target decision opts) i store =
      if i = target.1 ∧ store = target.2 then
        (cells tracks i store).map fun p => p.review decision opts
      else cells tracks i store := by
  unfold cells reviewTracks
  rw [List.getElem?_mapIdx]
  cases tracks[i]? with
  | none => simp
  | some t =>
    simp only [Option.map_some]
    by_cases hi : (i : ℤ) = target.1
    · have hstore : ∀ p : PerStore ν,
          (if p.store = target.2 then p.review decision opts else p).store = p.store := by
        intro p
        split <;> rfl
      rw [if_pos hi]
      simp only [hi, true_and, CatalogTrack.review, List.filter_map, Function.comp_def, hstore]
      by_cases hs : store = target.2
      · rw [if_pos hs]
        refine List.map_congr_left fun p hp => ?_
        rw [if_pos ((of_decide_eq_true (List.mem_filter.1 hp).2).trans hs)]
      · rw [if_neg hs]
        refine (List.map_congr_left fun p hp => ?_).trans (List.map_id _)
        have hp' : p.store = store := of_decide_eq_true (List.mem_filter.1 hp).2
        rw [if_neg fun h => hs (hp'.symm.trans h), id]
    · simp only [hi, false_and, if_false]

theorem ReviewTarget.matches_iff {target : ReviewTarget ν} {tracks : List (CatalogTrack ν)} :
    target.matches tracks = true ↔ ∃ i : ℕ, i = target.1 ∧ ∃ c, c ∈ cells tracks i target.2 := by
  simp only [ReviewTarget.matches, List.any_eq_true, mem_cells, Bool.and_eq_true,
    decide_eq_true_eq, Prod.exists, List.mem_zipIdx_iff_getElem?]
  constructor
  · rintro ⟨t, i, ht, hi, c, hc, hs⟩
    exact ⟨i, hi, c, t, ht, hc, hs⟩
  · rintro ⟨i, hi, c, t, ht, hc, hs⟩
    exact ⟨t, i, ht, hi, c, hc, hs⟩

end CatalogSentinel.Search
