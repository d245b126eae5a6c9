import CatalogSentinel.Matching.Matcher

/-!
The caps of a score, in exact arithmetic and under any weights. What two items share no
identifier for is scored by their metadata, under every cap that applies. Two items with
different ISRCs escape the cap on them exactly by a shared platform id, which is looked at first.
-/

namespace CatalogSentinel.Matching

open Numbers (lit)

/-! ### Caps -/

/-- A score that is held to a cap under some condition. -/
def cap (p : Prop) [Decidable p] (c score : ℚ) : ℚ := if p then min score c else score

section Cap

variable {p : Prop} [Decidable p] {c d score : ℚ}

theorem cap_le_cap (hp : p) : cap p c score ≤ c := by
  rw [cap, if_pos hp]
  exact min_le_right score c

theorem cap_le (h : score ≤ d) : cap p c score ≤ d := by
  rw [cap]
  split
  · exact (min_le_left score c).trans h
  · exact h

/-- A penalty keeps a score below a cap that is not negative, also a negative score. -/
theorem penalty_le (h : score ≤ d) (hd : 0 ≤ d) : (if p then score * (85 / 100) else score) ≤ d := by
  split
  · obtain hscore | hscore := le_total 0 score
    · linarith
    · linarith
  · exact h

/-- Rounding does not pass what it keeps. -/
theorem round_le {x : ℚ} (h : x ≤ d) (hd : Numbers.round d = d) : Numbers.round x ≤ d := by
  rw [← hd]
  show (⌊x * 1000 + 1 / 2⌋ : ℚ) / 1000 ≤ (⌊d * 1000 + 1 / 2⌋ : ℚ) / 1000
  have hfloor : ⌊x * 1000 + 1 / 2⌋ ≤ ⌊d * 1000 + 1 / 2⌋ := Int.floor_le_floor (by linarith)
  have hcast : (⌊x * 1000 + 1 / 2⌋ : ℚ) ≤ (⌊d * 1000 + 1 / 2⌋ : ℚ) := Int.cast_le.2 hfloor
  linarith

theorem classifyConfidence_ne_confirmed (h : score < 98 / 100) : classifyConfidence score ≠ .confirmed := by
  have hclamped : ¬ (max (lit 0) (min (lit 1) score) ≥ (lit (98 / 100) : ℚ)) := by
    show ¬ ((98 / 100 : ℚ) ≤ max 0 (min 1 score))
    rw [le_max_iff, le_min_iff, not_or]
    exact ⟨by norm_num, fun hle => absurd hle.2 (not_le.2 h)⟩
  unfold classifyConfidence
  dsimp only
  rw [if_neg hclamped]
  split
  · nofun
  · split
    · nofun
    · split <;> nofun

/-- Below the cap on different ISRCs there is no match. -/
theorem classifyConfidence_noMatch (h : score < 50 / 100) : classifyConfidence score = .noMatch := by
  have hclamped : max 0 (min 1 score) < (50 / 100 : ℚ) := by
    rw [max_lt_iff, min_lt_iff]
    exact ⟨by norm_num, .inr h⟩
  have hbelow : ∀ q : ℚ, 50 / 100 ≤ q → ¬ (max (lit 0) (min (lit 1) score) ≥ (lit q : ℚ)) := fun q hq =>
    not_le.2 (hclamped.trans_le hq)
  unfold classifyConfidence
  dsimp only
  rw [if_neg (hbelow _ (by norm_num)), if_neg (hbelow _ (by norm_num)), if_neg (hbelow _ (by norm_num)),
    if_neg (hbelow _ le_rfl)]

end Cap

/-! ### Scores by metadata -/

variable (subject candidate : NormalizedItem ℚ) (opts : MatchOptions ℚ)

/-- Both have an ISRC, and not the same. -/
def IsrcsDiffer : Prop :=
  (given subject.isrc).isSome ∧ (given candidate.isrc).isSome ∧ subject.isrc ≠ candidate.isrc

def SharesIsrc : Prop := (given subject.isrc).isSome ∧ subject.isrc = candidate.isrc

def SharesExternalId : Prop := ∃ x ∈ candidate.externalIds, x ∈ subject.externalIds

def VersionMismatch : Prop := (versionScore subject.versionTags candidate.versionTags : ℚ × Bool).2 = true

def ArtistMismatch : Prop := (overlapCoefficient subject.artistKeys candidate.artistKeys : ℚ) = 0

/-- The durations are known and differ by more than the tolerance allows. -/
def OutOfTolerance : Prop :=
  durationScore subject.durationSec candidate.durationSec (opts.sameRecordingToleranceSec.getD 15) = some 0

instance : Decidable (IsrcsDiffer subject candidate) := by unfold IsrcsDiffer; infer_instance

instance : Decidable (SharesIsrc subject candidate) := by unfold SharesIsrc; infer_instance

instance : Decidable (SharesExternalId subject candidate) := by unfold SharesExternalId; infer_instance

instance : Decidable (VersionMismatch subject candidate) := by unfold VersionMismatch; infer_instance

instance : Decidable (ArtistMismatch subject candidate) := by unfold ArtistMismatch; infer_instance

instance : Decidable (OutOfTolerance subject candidate opts) := by unfold OutOfTolerance; infer_instance

/-- The score before it is rounded, from the weighted mean on. -/
def capped (raw : ℚ) : ℚ :=
  let score := cap (OutOfTolerance subject candidate opts) (60 / 100) <|
    cap (ArtistMismatch subject candidate) (55 / 100) <|
    cap (VersionMismatch subject candidate) (60 / 100) <| cap (IsrcsDiffer subject candidate) (40 / 100) raw
  let common := isCommonTitle subject.base && (given subject.isrc).isNone
  min (if common then score * (85 / 100) else score) (97 / 100)

/-- The weighted mean of the similarities, without the duration where it is unknown. -/
def weightedMean : ℚ :=
  let weights := opts.weights
  let dur := durationScore subject.durationSec candidate.durationSec (opts.sameRecordingToleranceSec.getD 15)
  let wSum := weights.title + weights.artist + weights.version + (if dur.isSome then weights.duration else 0)
  let raw := weights.title * titleSimilarity subject.base candidate.base +
    weights.artist * overlapCoefficient subject.artistKeys candidate.artistKeys +
    weights.version * (versionScore subject.versionTags candidate.versionTags : ℚ × Bool).1 +
    dur.elim 0 (weights.duration * ·)
  if wSum = 0 then 0 else raw / wSum

theorem metadataScore_capped :
    (metadataScore subject candidate opts).score =
        Numbers.round (capped subject candidate opts (weightedMean subject candidate opts)) ∧
      (metadataScore subject candidate opts).band =
        classifyConfidence (capped subject candidate opts (weightedMean subject candidate opts)) := by
  have hdiffer : ((given subject.isrc).isSome && (given candidate.isrc).isSome &&
      decide (subject.isrc ≠ candidate.isrc)) = decide (IsrcsDiffer subject candidate) := by
    rw [Bool.eq_iff_iff]
    simp only [Bool.and_eq_true, decide_eq_true_eq, and_assoc]
    rfl
  unfold metadataScore
  rw [hdiffer]
  unfold capped cap weightedMean
  simp only [decide_eq_true_eq]
  exact ⟨rfl, rfl⟩

variable {subject candidate opts}

/-- What holds before the penalty and the cap on metadata holds of the score. -/
theorem score_le {d : ℚ} (hd : 0 ≤ d) (hround : Numbers.round d = d)
    (h : cap (OutOfTolerance subject candidate opts) (60 / 100) (cap (ArtistMismatch subject candidate) (55 / 100)
      (cap (VersionMismatch subject candidate) (60 / 100)
        (cap (IsrcsDiffer subject candidate) (40 / 100) (weightedMean subject candidate opts)))) ≤ d) :
    (metadataScore subject candidate opts).score ≤ d := by
  rw [(metadataScore_capped subject candidate opts).1]
  exact round_le ((min_le_left _ _).trans (penalty_le h hd)) hround

theorem metadataScore_unconfirmed : (metadataScore subject candidate opts).band ≠ .confirmed := by
  rw [(metadataScore_capped subject candidate opts).2]
  refine classifyConfidence_ne_confirmed ?_
  have hcap : capped subject candidate opts (weightedMean subject candidate opts) ≤ 97 / 100 := min_le_right _ _
  linarith

theorem metadataScore_version (h : VersionMismatch subject candidate) :
    (metadataScore subject candidate opts).score ≤ 60 / 100 :=
  score_le (by norm_num) (by decide +kernel) (cap_le (cap_le (cap_le_cap h)))

theorem metadataScore_artist (h : ArtistMismatch subject candidate) :
    (metadataScore subject candidate opts).score ≤ 55 / 100 :=
  score_le (by norm_num) (by decide +kernel) (cap_le (cap_le_cap h))

theorem metadataScore_duration (h : OutOfTolerance subject candidate opts) :
    (metadataScore subject candidate opts).score ≤ 60 / 100 :=
  score_le (by norm_num) (by decide +kernel) (cap_le_cap h)

theorem metadataScore_conflict (h : IsrcsDiffer subject candidate) :
    (metadataScore subject candidate opts).score ≤ 40 / 100 :=
  score_le (by norm_num) (by decide +kernel) (cap_le (cap_le (cap_le (cap_le_cap h))))

theorem metadataScore_noMatch (h : IsrcsDiffer subject candidate) :
    (metadataScore subject candidate opts).band = .noMatch := by
  rw [(metadataScore_capped subject candidate opts).2]
  refine classifyConfidence_noMatch ?_
  have hcap : capped subject candidate opts (weightedMean subject candidate opts) ≤ 40 / 100 :=
    (min_le_left _ _).trans (penalty_le (cap_le (cap_le (cap_le (cap_le_cap h)))) (by norm_num))
  linarith

/-! ### Scores -/

/-- By metadata alone. -/
theorem scoreMatch_metadata (hisrc : ¬ SharesIsrc subject candidate) (hid : ¬ SharesExternalId subject candidate) :
    scoreMatch subject candidate opts = metadataScore subject candidate opts := by
  have hsame : ((given subject.isrc).isSome && decide (subject.isrc = candidate.isrc)) = false := by
    rw [← Bool.not_eq_true, Bool.and_eq_true, decide_eq_true_eq]
    exact hisrc
  have hany : candidate.externalIds.any (· ∈ subject.externalIds) = false := by
    rw [← Bool.not_eq_true, List.any_eq_true]
    simp only [decide_eq_true_eq]
    exact hid
  unfold scoreMatch
  rw [hsame, hany]
  rfl

theorem scoreMatch_externalId (hisrc : ¬ SharesIsrc subject candidate) (hid : SharesExternalId subject candidate) :
    (scoreMatch subject candidate opts).score = 99 / 100 := by
  have hsame : ((given subject.isrc).isSome && decide (subject.isrc = candidate.isrc)) = false := by
    rw [← Bool.not_eq_true, Bool.and_eq_true, decide_eq_true_eq]
    exact hisrc
  have hany : candidate.externalIds.any (· ∈ subject.externalIds) = true := by
    rw [List.any_eq_true]
    simp only [decide_eq_true_eq]
    exact hid
  unfold scoreMatch
  rw [hsame, hany]
  rfl

theorem IsrcsDiffer.not_shared (h : IsrcsDiffer subject candidate) : ¬ SharesIsrc subject candidate :=
  fun hshared => h.2.2 hshared.2

/-- A match has a candidate of the first two bands. -/
theorem band_of_matched {candidates : List (NormalizedItem ℚ)} {best : RankedMatch ℚ}
    (hbest : (matchAgainstCatalog subject candidates opts).best = some best)
    (hmatched : (matchAgainstCatalog subject candidates opts).decision = .matched) :
    (scoreMatch subject best.candidate opts).band = .confirmed ∨
      (scoreMatch subject best.candidate opts).band = .strong := by
  cases hhead : (sortByScore (scoreOf subject opts) candidates).head? with
  | none =>
    have hnil : candidates = [] := by
      by_contra hne
      obtain ⟨c, hc⟩ := exists_head subject opts hne
      cases hhead.symm.trans hc
    subst hnil
    cases (congrArg Prod.fst (outcome_nil subject opts)).symm.trans hmatched
  | some c =>
    have hfirst : (rank subject candidates opts).head? = some ⟨c, scoreMatch subject c opts⟩ := by
      rw [rank_eq, List.head?_map, hhead]
      rfl
    have hsame : (matchAgainstCatalog subject candidates opts).best = some ⟨c, scoreMatch subject c opts⟩ := by
      unfold matchAgainstCatalog
      dsimp only
      rw [hfirst]
      dsimp only
      split
      · rfl
      · split
        · rfl
        · split <;> rfl
    obtain rfl := Option.some.inj (hbest.symm.trans hsame)
    have houtcome := congrArg Prod.fst (outcome_eq subject candidates opts hhead)
    have hgood : IsGood subject opts c := by
      by_contra hbad
      have hother := houtcome.symm.trans hmatched
      rw [outcomeOf, if_neg hbad] at hother
      split at hother
      · cases hother
      · split at hother <;> cases hother
    exact hgood.1

/-! ### The caps hold -/

variable (subject candidate opts)

/-- Everything that the caps are to keep of one pair of items. -/
structure KeepsCaps : Prop where
  unconfirmed : ¬ SharesIsrc subject candidate → ¬ SharesExternalId subject candidate →
    (scoreMatch subject candidate opts).band ≠ .confirmed
  version : ¬ SharesIsrc subject candidate → ¬ SharesExternalId subject candidate →
    VersionMismatch subject candidate → (scoreMatch subject candidate opts).score ≤ 60 / 100
  artist : ¬ SharesIsrc subject candidate → ¬ SharesExternalId subject candidate →
    ArtistMismatch subject candidate → (scoreMatch subject candidate opts).score ≤ 55 / 100
  duration : ¬ SharesIsrc subject candidate → ¬ SharesExternalId subject candidate →
    OutOfTolerance subject candidate opts → (scoreMatch subject candidate opts).score ≤ 60 / 100
  conflict : IsrcsDiffer subject candidate → (scoreMatch subject candidate opts).score ≤ 40 / 100
  unmatched : IsrcsDiffer subject candidate → ∀ candidates best,
    (matchAgainstCatalog subject candidates opts).best = some best → best.candidate = candidate →
      (matchAgainstCatalog subject candidates opts).decision ≠ .matched

/-- The caps hold but for two items with different ISRCs and a platform id in common. -/
theorem keepsCaps_iff : KeepsCaps subject candidate opts ↔
    ¬ (IsrcsDiffer subject candidate ∧ SharesExternalId subject candidate) := by
  constructor
  · rintro h ⟨hdiffer, hid⟩
    have hscore := h.conflict hdiffer
    rw [scoreMatch_externalId hdiffer.not_shared hid] at hscore
    norm_num at hscore
  · intro h
    have hconflict : IsrcsDiffer subject candidate →
        scoreMatch subject candidate opts = metadataScore subject candidate opts := fun hdiffer =>
      scoreMatch_metadata hdiffer.not_shared fun hid => h ⟨hdiffer, hid⟩
    refine ⟨fun hisrc hid => ?_, fun hisrc hid => ?_, fun hisrc hid => ?_, fun hisrc hid => ?_, fun hdiffer => ?_,
      fun hdiffer candidates best hbest hcandidate hmatched => ?_⟩
    · rw [scoreMatch_metadata hisrc hid]
      exact metadataScore_unconfirmed
    · rw [scoreMatch_metadata hisrc hid]
      exact metadataScore_version
    · rw [scoreMatch_metadata hisrc hid]
      exact metadataScore_artist
    · rw [scoreMatch_metadata hisrc hid]
      exact metadataScore_duration
    · rw [hconflict hdiffer]
      exact metadataScore_conflict hdiffer
    · have hband := band_of_matched hbest hmatched
      rw [hcandidate, hconflict hdiffer, metadataScore_noMatch hdiffer] at hband
      obtain hband | hband := hband <;> cases hband

/-- Two recordings of one platform id. -/
def reissued (id isrc : String) : NormalizedItem ℚ :=
  ⟨id, some isrc, "lagos city nights", [], ["lewis ke"], none, ["spotify:track:1"], none⟩

/-- Two items with different ISRCs are confirmed as one and matched. -/
theorem scoreMatch_conflict_bypassed :
    IsrcsDiffer (reissued "s" "USRC11700001") (reissued "c" "USRC11700002") ∧
      (scoreMatch (reissued "s" "USRC11700001") (reissued "c" "USRC11700002")
        ⟨none, none, none, none, none, none⟩).score = 99 / 100 ∧
      ¬ KeepsCaps (reissued "s" "USRC11700001") (reissued "c" "USRC11700002")
        ⟨none, none, none, none, none, none⟩ := by
  have hscore : (scoreMatch (reissued "s" "USRC11700001") (reissued "c" "USRC11700002")
      ⟨none, none, none, none, none, none⟩).score = 99 / 100 := by decide +kernel
  have hdiffer : IsrcsDiffer (reissued "s" "USRC11700001") (reissued "c" "USRC11700002") := by decide +kernel
  refine ⟨hdiffer, hscore, fun h => ?_⟩
  have hcap := h.conflict hdiffer
  rw [hscore] at hcap
  norm_num at hcap

end CatalogSentinel.Matching
