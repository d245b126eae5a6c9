import Mathlib.Data.List.Lex
import Mathlib.Data.Rat.Floor

/-!
The matching engine: how strongly a candidate of a store's catalogue matches a track of the
distributor, and what is decided from all candidates. The decision is read off the first of
the candidates of the highest score.
-/

namespace CatalogSentinel.Matching

/-- The numbers that scores are made of, in a linear order: literals, arithmetic, rounding to
three places, and their text. -/
class Numbers (F : Type) extends LinearOrder F, Add F, Sub F, Mul F, Div F where
  lit : ℚ → F
  round : F → F
  text : F → String

instance : Numbers ℚ where
  lit := id
  round n := ⌊n * 1000 + 1 / 2⌋ / 1000
  text n := toString n

open Numbers (lit round text)

/-! ### Similarity -/

/-- The UTF-16 units of a text. -/
def units (s : String) : List ℕ :=
  s.toList.flatMap fun c =>
    if c.toNat < 0x10000 then [c.toNat]
    else [0xD800 + (c.toNat - 0x10000) / 0x400, 0xDC00 + (c.toNat - 0x10000) % 0x400]

namespace TwoRow

/-- The two rolling rows of the edit distance, each written over where the one before the last stood. -/
structure Rows where
  prev : List ℕ
  curr : List ℕ

variable (a b : List ℕ)

/-- `curr[j] = Math.min(curr[j - 1]! + 1, prev[j]! + 1, prev[j - 1]! + cost)` -/
def fillCell (i : ℕ) (prev curr : List ℕ) (j : ℕ) : List ℕ :=
  let cost := if a[i - 1]? = b[j - 1]? then 0 else 1
  curr.set j (min (min (curr.getD (j - 1) 0 + 1) (prev.getD j 0 + 1)) (prev.getD (j - 1) 0 + cost))

/-- A row is filled in the place of the older one, and the two change places. -/
def fillRow (rows : Rows) (i : ℕ) : Rows where
  prev := (List.range' 1 b.length).foldl (fillCell a b i rows.prev) (rows.curr.set 0 i)
  curr := rows.prev

def levenshtein : ℕ :=
  if a = b then 0
  else if a.length = 0 then b.length
  else if b.length = 0 then a.length
  else
    let rows := (List.range' 1 a.length).foldl (fillRow a b)
      ⟨List.range (b.length + 1), List.replicate (b.length + 1) 0⟩
    rows.prev.getD b.length 0

end TwoRow

def tokens (s : List ℕ) : List (List ℕ) := (s.splitOn 0x20).filter (· ≠ [])

def sortTokens (s : List ℕ) : List ℕ :=
  List.intercalate [0x20] ((tokens s).mergeSort fun a b => decide (a ≤ b))

variable {F : Type} [Numbers F]

namespace TwoRow

def levenshteinRatio (a b : List ℕ) : F :=
  if a.length = 0 ∧ b.length = 0 then lit 1
  else lit 1 - lit (levenshtein a b) / lit (max a.length b.length : ℕ)

/-- Of titles as code units, whether or not their surrogates are paired. -/
def titleSimilarity (a b : List ℕ) : F :=
  if a = b then lit 1
  else if a.length = 0 ∨ b.length = 0 then lit 0
  else max (levenshteinRatio a b) (levenshteinRatio (sortTokens a) (sortTokens b))

end TwoRow

def titleSimilarity (a b : String) : F := TwoRow.titleSimilarity (units a) (units b)

/-- Of two sets, given by lists of their members. -/
def overlapCoefficient (a b : List String) : F :=
  let a := a.dedup
  let b := b.dedup
  if a = [] ∨ b = [] then lit 0
  else lit (a.filter (· ∈ b)).length / lit (min a.length b.length : ℕ)

def COMMON_TITLE_WORDS : List String :=
  ["intro", "outro", "interlude", "skit", "freestyle", "untitled", "love", "you", "home", "alone", "forever",
    "stay", "run", "gone"]

def isCommonTitle (base : String) : Bool :=
  match tokens (units base) with
  | [] => true
  | [word] => word ∈ COMMON_TITLE_WORDS.map units || word.length ≤ 3
  | _ => false

/-! ### Confidence -/

inductive ConfidenceBand
  | confirmed | strong | probable | weak | noMatch
  deriving DecidableEq, Repr

def classifyConfidence (score : F) : ConfidenceBand :=
  let s := max (lit 0) (min (lit 1) score)
  if s ≥ lit (98 / 100) then .confirmed
  else if s ≥ lit (90 / 100) then .strong
  else if s ≥ lit (75 / 100) then .probable
  else if s ≥ lit (50 / 100) then .weak
  else .noMatch

/-! ### Scores -/

structure NormalizedItem (F : Type) where
  id : String
  isrc : Option String
  base : String
  versionTags : List String
  artistKeys : List String
  durationSec : Option F
  externalIds : List String
  artistProfileId : Option String

structure MatchWeights (F : Type) where
  title : F
  artist : F
  version : F
  duration : F

def DEFAULT_WEIGHTS : MatchWeights F := ⟨lit (55 / 100), lit (30 / 100), lit (10 / 100), lit (5 / 100)⟩

/-- Options, with the weights that replace the default ones. -/
structure MatchOptions (F : Type) where
  sameRecordingToleranceSec : Option F
  title : Option F
  artist : Option F
  version : Option F
  duration : Option F
  canonicalArtistProfileId : Option String

def MatchOptions.weights (opts : MatchOptions F) : MatchWeights F where
  title := opts.title.getD DEFAULT_WEIGHTS.title
  artist := opts.artist.getD DEFAULT_WEIGHTS.artist
  version := opts.version.getD DEFAULT_WEIGHTS.version
  duration := opts.duration.getD DEFAULT_WEIGHTS.duration

structure MatchSignal (F : Type) where
  name : String
  value : F

structure MatchScore (F : Type) where
  score : F
  band : ConfidenceBand
  reasons : List String
  signals : List (MatchSignal F)
  artistMismatch : Bool
  versionMismatch : Bool

def METADATA_SCORE_CAP : F := lit (97 / 100)

def setEq (a b : List String) : Bool := a.length = b.length && a.all (· ∈ b)

/-- The value, and whether it is a mismatch. -/
def versionScore (a b : List String) : F × Bool :=
  if a.length = 0 ∧ b.length = 0 then (lit 1, false)
  else if setEq a b then (lit 1, false)
  else
    let overlap : F := overlapCoefficient a b
    (if overlap = lit 0 then lit 0 else lit (1 / 2), true)

/-- `none` where a duration is unknown. -/
def durationScore (a b : Option F) (tol : F) : Option F :=
  match a, b with
  | some a, some b =>
    let delta := max (a - b) (b - a)
    if delta ≤ tol then some (lit 1) else if delta ≤ tol * lit 3 then some (lit (1 / 2)) else some (lit 0)
  | _, _ => none

/-- An identifier that is not empty. -/
def given (id : Option String) : Option String := id.filter (· ≠ "")

/-- By what the two are called, by whom they are and how long they are. -/
def metadataScore (subject candidate : NormalizedItem F) (opts : MatchOptions F) : MatchScore F :=
  let weights := opts.weights
  let artistOverlap : F := overlapCoefficient subject.artistKeys candidate.artistKeys
  let artistMismatch : Bool := artistOverlap = lit 0
  let isrcConflict : Bool := (given subject.isrc).isSome && (given candidate.isrc).isSome &&
    subject.isrc ≠ candidate.isrc
  let titleSim : F := titleSimilarity subject.base candidate.base
  let ver : F × Bool := versionScore subject.versionTags candidate.versionTags
  let dur := durationScore subject.durationSec candidate.durationSec (opts.sameRecordingToleranceSec.getD (lit 15))
  let wSum := weights.title + weights.artist + weights.version + (if dur.isSome then weights.duration else lit 0)
  let raw := weights.title * titleSim + weights.artist * artistOverlap + weights.version * ver.1 +
    dur.elim (lit 0) (weights.duration * ·)
  let score := if wSum = lit 0 then lit 0 else raw / wSum
  let score := if isrcConflict then min score (lit (40 / 100)) else score
  let score := if ver.2 then min score (lit (60 / 100)) else score
  let score := if artistMismatch then min score (lit (55 / 100)) else score
  let score := if dur = some (lit 0) then min score (lit (60 / 100)) else score
  let common := isCommonTitle subject.base && (given subject.isrc).isNone
  let score := if common then score * lit (85 / 100) else score
  let score := min score METADATA_SCORE_CAP
  let reasons :=
    (if isrcConflict then ["Different ISRCs, distinct recordings"] else []) ++
    (if ver.2 then ["Version/edit tag mismatch"] else []) ++
    (if artistMismatch then ["No artist overlap (possible wrong profile)"] else []) ++
    (if dur = some (lit 0) then ["Duration differs beyond tolerance"] else []) ++
    (if common then ["Common/short title penalty"] else [])
  { score := round score
    band := classifyConfidence score
    reasons := if reasons = [] then
        [s!"Metadata match (title {text (round titleSim)}, artist {text (round artistOverlap)})"] else reasons
    signals := [⟨"title-sim", round titleSim⟩, ⟨"artist-overlap", round artistOverlap⟩, ⟨"version", ver.1⟩] ++
      (dur.map (MatchSignal.mk "duration")).toList ++
      (if isrcConflict then [⟨"isrc-conflict", lit 0⟩] else []) ++
      (if common then [⟨"common-title-penalty", lit (85 / 100)⟩] else [])
    artistMismatch
    versionMismatch := ver.2 }

/-- Identifiers come first: an equal ISRC, then a known id of the platform. -/
def scoreMatch (subject candidate : NormalizedItem F) (opts : MatchOptions F) : MatchScore F :=
  let artistMismatch : Bool :=
    (overlapCoefficient subject.artistKeys candidate.artistKeys : F) = lit 0
  if (given subject.isrc).isSome && subject.isrc = candidate.isrc then
    ⟨lit 1, .confirmed, ["ISRC exact match"], [⟨"isrc-exact", lit 1⟩], artistMismatch, false⟩
  else if candidate.externalIds.any (· ∈ subject.externalIds) then
    ⟨lit (99 / 100), .confirmed, ["Known platform ID/URL match"], [⟨"external-id-exact", lit 1⟩],
      artistMismatch, false⟩
  else metadataScore subject candidate opts

/-! ### Decisions -/

structure RankedMatch (F : Type) where
  candidate : NormalizedItem F
  score : MatchScore F

inductive Decision
  | matched | review | unmatched
  deriving DecidableEq, Repr

structure CatalogMatchResult (F : Type) where
  best : Option (RankedMatch F)
  ranked : List (RankedMatch F)
  decision : Decision
  wrongProfileSuspected : Bool
  crossProfile : Bool

variable (subject : NormalizedItem F) (candidates : List (NormalizedItem F)) (opts : MatchOptions F)

/-- Best first; candidates of one score stay in their order. -/
def rank : List (RankedMatch F) :=
  (candidates.map fun candidate => ⟨candidate, scoreMatch subject candidate opts⟩).mergeSort
    fun a b => decide (b.score.score ≤ a.score.score)

def strongTitle (best : RankedMatch F) : Bool :=
  (titleSimilarity subject.base best.candidate.base : F) ≥ lit (90 / 100) && !best.score.versionMismatch

def matchAgainstCatalog : CatalogMatchResult F :=
  let ranked := rank subject candidates opts
  match ranked.head? with
  | none => ⟨none, ranked, .unmatched, false, false⟩
  | some best =>
    let band := best.score.band
    if (band = .confirmed ∨ band = .strong) ∧ !best.score.artistMismatch then
      let crossProfile := (given opts.canonicalArtistProfileId).isSome &&
        (given best.candidate.artistProfileId).isSome &&
        best.candidate.artistProfileId ≠ opts.canonicalArtistProfileId
      ⟨some best, ranked, .matched, false, crossProfile⟩
    else if band = .probable then ⟨some best, ranked, .review, false, false⟩
    else if best.score.artistMismatch && strongTitle subject best then ⟨some best, ranked, .review, true, false⟩
    else ⟨some best, ranked, .unmatched, false, false⟩

/-! ### Ranks -/

section Ranks

variable {α : Type} (score : α → F)

/-- Highest first. -/
def sortByScore (xs : List α) : List α := xs.mergeSort fun a b => decide (score b ≤ score a)

/-- No member scores higher. -/
def IsBest (xs : List α) (x : α) : Prop := x ∈ xs ∧ ∀ y ∈ xs, score y ≤ score x

theorem score_trans (a b c : α) (hab : decide (score b ≤ score a) = true)
    (hbc : decide (score c ≤ score b) = true) : decide (score c ≤ score a) = true :=
  decide_eq_true ((of_decide_eq_true hbc).trans (of_decide_eq_true hab))

theorem score_total (a b : α) : (decide (score b ≤ score a) || decide (score a ≤ score b)) = true := by
  obtain h | h := le_total (score b) (score a)
  · rw [decide_eq_true h, Bool.true_or]
  · rw [decide_eq_true h, Bool.or_true]

variable {score}

theorem isBest_head {xs : List α} {x : α} (h : (sortByScore score xs).head? = some x) : IsBest score xs x := by
  obtain ⟨rest, hrest⟩ := List.head?_eq_some_iff.1 h
  have hmem : ∀ y, y ∈ xs ↔ y ∈ x :: rest := fun y => by rw [← hrest, sortByScore, List.mem_mergeSort]
  have hsorted : (x :: rest).Pairwise fun a b => decide (score b ≤ score a) = true := by
    rw [← hrest]
    exact List.pairwise_mergeSort (score_trans score) (score_total score) xs
  refine ⟨(hmem x).2 List.mem_cons_self, fun y hy => ?_⟩
  obtain rfl | hy := List.mem_cons.1 ((hmem y).1 hy)
  · exact le_rfl
  · exact of_decide_eq_true ((List.pairwise_cons.1 hsorted).1 y hy)

/-- The first of the list comes first, if it is one of the best. -/
theorem head_of_isBest {x : α} {xs : List α} (h : IsBest score (x :: xs) x) :
    (sortByScore score (x :: xs)).head? = some x := by
  obtain ⟨before, after, heq, -, hbefore⟩ := List.mergeSort_cons (score_trans score) (score_total score) x xs
  cases before with
  | nil => rw [sortByScore, heq]; rfl
  | cons y before =>
    have hy : y ∈ sortByScore score (x :: xs) := by
      rw [sortByScore, heq]
      exact List.mem_cons_self
    have hlt := hbefore y List.mem_cons_self
    rw [decide_eq_true (h.2 y (List.mem_mergeSort.1 hy))] at hlt
    cases hlt

theorem IsBest.perm {xs ys : List α} (hperm : xs.Perm ys) {x : α} (h : IsBest score xs x) : IsBest score ys x :=
  ⟨hperm.mem_iff.1 h.1, fun y hy => h.2 y (hperm.mem_iff.2 hy)⟩

end Ranks

/-! ### The order of the candidates -/

/-- Confirmed or strong, and by the artist. -/
def IsGood (candidate : NormalizedItem F) : Prop :=
  ((scoreMatch subject candidate opts).band = .confirmed ∨ (scoreMatch subject candidate opts).band = .strong) ∧
    (scoreMatch subject candidate opts).artistMismatch = false

def IsProbable (candidate : NormalizedItem F) : Prop := (scoreMatch subject candidate opts).band = .probable

/-- Of the same title, but by somebody else. -/
def IsLead (candidate : NormalizedItem F) : Prop :=
  (scoreMatch subject candidate opts).artistMismatch = true ∧
    (titleSimilarity subject.base candidate.base : F) ≥ lit (90 / 100) ∧
    (scoreMatch subject candidate opts).versionMismatch = false

/-- Under a profile other than the artist's own. -/
def IsCross (candidate : NormalizedItem F) : Prop :=
  given opts.canonicalArtistProfileId ≠ none ∧ given candidate.artistProfileId ≠ none ∧
    candidate.artistProfileId ≠ opts.canonicalArtistProfileId

/-- The two candidates lead to the same decision. -/
def Alike (c c' : NormalizedItem F) : Prop :=
  (IsGood subject opts c ↔ IsGood subject opts c') ∧
  (IsGood subject opts c → (IsCross opts c ↔ IsCross opts c')) ∧
  (¬IsGood subject opts c → (IsProbable subject opts c ↔ IsProbable subject opts c')) ∧
  (¬IsGood subject opts c → ¬IsProbable subject opts c → (IsLead subject opts c ↔ IsLead subject opts c'))

def scoreOf (candidate : NormalizedItem F) : F := (scoreMatch subject candidate opts).score

/-- What is decided, beside the candidates. -/
def CatalogMatchResult.outcome (r : CatalogMatchResult F) : Decision × Bool × Bool :=
  (r.decision, r.wrongProfileSuspected, r.crossProfile)

instance (c : NormalizedItem F) : Decidable (IsGood subject opts c) := by unfold IsGood; infer_instance

instance (c : NormalizedItem F) : Decidable (IsProbable subject opts c) := by unfold IsProbable; infer_instance

instance (c : NormalizedItem F) : Decidable (IsLead subject opts c) := by unfold IsLead; infer_instance

instance (c : NormalizedItem F) : Decidable (IsCross opts c) := by unfold IsCross; infer_instance

/-- The outcome where the candidate is the first of the best. -/
def outcomeOf (c : NormalizedItem F) : Decision × Bool × Bool :=
  if IsGood subject opts c then (.matched, false, decide (IsCross opts c))
  else if IsProbable subject opts c then (.review, false, false)
  else if IsLead subject opts c then (.review, true, false)
  else (.unmatched, false, false)

theorem outcomeOf_eq_iff (c c' : NormalizedItem F) :
    outcomeOf subject opts c = outcomeOf subject opts c' ↔ Alike subject opts c c' := by
  unfold outcomeOf Alike
  by_cases hgood : IsGood subject opts c
  · by_cases hgood' : IsGood subject opts c'
    · simp [hgood, hgood']
    · simp only [hgood, hgood', if_true, if_false, not_true_eq_false, false_and, iff_false]
      intro h
      split at h
      · cases h
      · split at h <;> cases h
  · by_cases hgood' : IsGood subject opts c'
    · simp only [hgood, hgood', if_true, if_false, false_iff, not_true_eq_false, false_and, iff_false]
      intro h
      split at h
      · cases h
      · split at h <;> cases h
    · by_cases hprobable : IsProbable subject opts c <;> by_cases hprobable' : IsProbable subject opts c' <;>
        by_cases hlead : IsLead subject opts c <;> by_cases hlead' : IsLead subject opts c' <;>
        simp [hgood, hgood', hprobable, hprobable', hlead, hlead']

/-- The decision on a best candidate is its outcome. -/
theorem outcome_of_best {best : RankedMatch F} (hscore : best.score = scoreMatch subject best.candidate opts)
    (hbest : (rank subject candidates opts).head? = some best) :
    (matchAgainstCatalog subject candidates opts).outcome = outcomeOf subject opts best.candidate := by
  have hgood : ((best.score.band = .confirmed ∨ best.score.band = .strong) ∧
      (!best.score.artistMismatch) = true) ↔ IsGood subject opts best.candidate := by
    rw [hscore, IsGood, Bool.not_eq_true']
  have hlead : (best.score.artistMismatch && strongTitle subject best) = true ↔
      IsLead subject opts best.candidate := by
    rw [IsLead, strongTitle, ← hscore, Bool.and_eq_true, Bool.and_eq_true, decide_eq_true_eq, Bool.not_eq_true']
  have hcross : ((given opts.canonicalArtistProfileId).isSome && (given best.candidate.artistProfileId).isSome &&
      decide (best.candidate.artistProfileId ≠ opts.canonicalArtistProfileId)) =
        decide (IsCross opts best.candidate) := by
    unfold IsCross
    simp only [← Option.isSome_iff_ne_none, Bool.decide_and, Bool.decide_eq_true, Bool.and_assoc]
  have hprobable : best.score.band = .probable ↔ IsProbable subject opts best.candidate := by
    rw [hscore, IsProbable]
  unfold matchAgainstCatalog CatalogMatchResult.outcome outcomeOf
  dsimp only
  rw [hbest]
  dsimp only
  simp only [hgood, hlead, hcross, hprobable]
  split
  · rfl
  · split
    · rfl
    · split <;> rfl

theorem rank_eq : rank subject candidates opts =
    (sortByScore (scoreOf subject opts) candidates).map fun candidate =>
      ⟨candidate, scoreMatch subject candidate opts⟩ := by
  symm
  apply List.map_mergeSort
  intro _ _ _ _
  rfl

/-- The first of the best decides. -/
theorem outcome_eq {c : NormalizedItem F} (h : (sortByScore (scoreOf subject opts) candidates).head? = some c) :
    (matchAgainstCatalog subject candidates opts).outcome = outcomeOf subject opts c := by
  have hbest : (rank subject candidates opts).head? = some ⟨c, scoreMatch subject c opts⟩ := by
    rw [rank_eq, List.head?_map, h]
    rfl
  exact outcome_of_best subject candidates opts rfl hbest

theorem outcome_nil : (matchAgainstCatalog subject [] opts).outcome = (.unmatched, false, false) := by
  unfold matchAgainstCatalog rank
  simp [CatalogMatchResult.outcome]

theorem exists_head {xs : List (NormalizedItem F)} (h : xs ≠ []) :
    ∃ c, (sortByScore (scoreOf subject opts) xs).head? = some c := by
  have hne : sortByScore (scoreOf subject opts) xs ≠ [] := by
    intro hnil
    have hlength := congrArg List.length hnil
    rw [sortByScore, List.length_mergeSort] at hlength
    exact h (List.length_eq_zero_iff.1 hlength)
  obtain ⟨c, rest, heq⟩ := List.exists_cons_of_ne_nil hne
  exact ⟨c, by rw [heq]; rfl⟩

/-- The outcome is the same in every order, and a good best candidate is a match. -/
structure OrderFree : Prop where
  same : ∀ candidates', candidates.Perm candidates' →
    (matchAgainstCatalog subject candidates' opts).outcome = (matchAgainstCatalog subject candidates opts).outcome
  matched : ∀ c, IsBest (scoreOf subject opts) candidates c → IsGood subject opts c →
    (matchAgainstCatalog subject candidates opts).decision = .matched

/-- The order of the candidates does not matter exactly if those of the highest score are alike. -/
theorem matchAgainstCatalog_orderFree_iff :
    OrderFree subject candidates opts ↔
      ∀ c c', IsBest (scoreOf subject opts) candidates c → IsBest (scoreOf subject opts) candidates c' →
        Alike subject opts c c' := by
  constructor
  · intro h
    have hfirst : ∀ c, IsBest (scoreOf subject opts) candidates c →
        outcomeOf subject opts c = (matchAgainstCatalog subject candidates opts).outcome := by
      intro c hc
      obtain ⟨before, after, rfl⟩ := List.append_of_mem hc.1
      have hperm : (before ++ c :: after).Perm (c :: (before ++ after)) := List.perm_middle
      rw [← h.same _ hperm]
      exact (outcome_eq subject _ opts (head_of_isBest (hc.perm hperm))).symm
    intro c c' hc hc'
    rw [← outcomeOf_eq_iff, hfirst c hc, hfirst c' hc']
  · intro h
    obtain rfl | hne := eq_or_ne candidates []
    · refine ⟨fun candidates' hperm => ?_, fun c hc => nomatch hc.1⟩
      rw [hperm.nil_eq]
    obtain ⟨c, hc⟩ := exists_head subject opts hne
    have hbest := isBest_head hc
    refine ⟨fun candidates' hperm => ?_, fun c' hc' hgood => ?_⟩
    · have hne' : candidates' ≠ [] := fun hnil => hne (hnil ▸ hperm).eq_nil
      obtain ⟨c', hc'⟩ := exists_head subject opts hne'
      have hbest' := (isBest_head hc').perm hperm.symm
      rw [outcome_eq subject _ opts hc', outcome_eq subject _ opts hc, outcomeOf_eq_iff]
      exact h c' c hbest' hbest
    · have hgood' : IsGood subject opts c := (h c' c hc' hbest).1.1 hgood
      have houtcome := outcome_eq subject candidates opts hc
      rw [outcomeOf, if_pos hgood'] at houtcome
      exact congrArg Prod.fst houtcome

/-- A track of the artist. -/
def ownTrack (id : String) : NormalizedItem ℚ :=
  ⟨id, some "USRC11700001", "lagos city nights", [], ["lewis ke"], none, [], none⟩

/-- The same ISRC and title under somebody else's name. -/
def impostor : NormalizedItem ℚ :=
  ⟨"other", some "USRC11700001", "lagos city nights", [], ["impostor artist"], none, [], none⟩

theorem matchAgainstCatalog_misses :
    ¬OrderFree (ownTrack "s") [impostor, ownTrack "c"] ⟨none, none, none, none, none, none⟩ := by
  intro h
  have hown : IsBest (scoreOf (ownTrack "s") ⟨none, none, none, none, none, none⟩)
      [impostor, ownTrack "c"] (ownTrack "c") :=
    ⟨List.mem_cons_of_mem _ List.mem_cons_self, by decide +kernel⟩
  have hfirst : IsBest (scoreOf (ownTrack "s") ⟨none, none, none, none, none, none⟩)
      [impostor, ownTrack "c"] impostor := ⟨List.mem_cons_self, by decide +kernel⟩
  have hmatched := h.matched _ hown (by decide +kernel)
  have houtcome := outcome_eq (ownTrack "s") [impostor, ownTrack "c"] _ (head_of_isBest hfirst)
  have hreview : outcomeOf (ownTrack "s") ⟨none, none, none, none, none, none⟩ impostor = (.review, true, false) := by
    decide +kernel
  have hdecision := congrArg Prod.fst (houtcome.trans hreview)
  cases hmatched.symm.trans hdecision

end CatalogSentinel.Matching
