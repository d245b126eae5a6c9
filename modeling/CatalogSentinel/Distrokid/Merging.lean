import Mathlib.Data.List.Pairwise
import CatalogSentinel.Distrokid.Metadata

/-!
The merge of two readings of a release: which track of the other reading a track
is filled in from, and what the merge keeps of each. Correlation takes the first
track of the other reading that shares any key, so a track that shares only the
title may be taken although a later one shares the number.
-/

namespace CatalogSentinel.Distrokid

open Data

/-! ### The first of two kinds -/

section First

variable {α : Type} {p q : α → Bool} {l : List α}

/-- A `q` stands before every `p`, and there is a `p`. -/
def Outranked (p q : α → Bool) (l : List α) : Prop :=
  ∃ before c after, l = before ++ c :: after ∧ q c = true ∧ (∀ b ∈ before, p b = false) ∧
    p c = false ∧ ∃ a ∈ after, p a = true

theorem not_outranked_nil : ¬ Outranked p q [] := by
  rintro ⟨before, c, after, heq, -⟩
  simp at heq

theorem outranked_cons (x : α) (l : List α) :
    Outranked p q (x :: l) ↔
      p x = false ∧ (q x = true ∧ (∃ a ∈ l, p a = true) ∨ Outranked p q l) := by
  constructor
  · rintro ⟨_ | ⟨b, before⟩, c, after, heq, hc, hbefore, hpc, hafter⟩
    · obtain ⟨rfl, rfl⟩ := List.cons.inj heq
      exact ⟨hpc, .inl ⟨hc, hafter⟩⟩
    · obtain ⟨rfl, rfl⟩ := List.cons.inj heq
      have hx : p x = false := hbefore x List.mem_cons_self
      have hrest : ∀ b ∈ before, p b = false := fun b hb => hbefore b (List.mem_cons_of_mem x hb)
      exact ⟨hx, .inr ⟨before, c, after, rfl, hc, hrest, hpc, hafter⟩⟩
  · rintro ⟨hx, ⟨hq, hl⟩ | ⟨before, c, after, rfl, hc, hbefore, hpc, hafter⟩⟩
    · exact ⟨[], x, l, rfl, hq, fun b hb => absurd hb List.not_mem_nil, hx, hl⟩
    · refine ⟨x :: before, c, after, rfl, hc, fun b hb => ?_, hpc, hafter⟩
      rcases List.mem_cons.1 hb with rfl | hb
      · exact hx
      · exact hbefore b hb

theorem Outranked.exists (h : Outranked p q l) : ∃ a ∈ l, p a = true := by
  obtain ⟨before, c, after, rfl, -, -, -, a, ha, hp⟩ := h
  exact ⟨a, List.mem_append_right _ (List.mem_cons_of_mem c ha), hp⟩

/-- The first that is either is a `p` whenever there is one, unless a `q` outranks it. -/
theorem first_iff (l : List α) :
    (∀ d ∈ l.find? (fun x => p x || q x), (∃ a ∈ l, p a = true) → p d = true) ↔
      ¬ Outranked p q l := by
  induction l with
  | nil => exact iff_of_true (fun d hd => by cases hd) not_outranked_nil
  | cons x l ih =>
    rw [outranked_cons]
    by_cases hp : p x = true
    · have hfirst : (x :: l).find? (fun x => p x || q x) = some x := by simp [hp]
      simp [hfirst, hp]
    · have hpx : p x = false := Bool.eq_false_iff.2 hp
      by_cases hq : q x = true
      · have hfirst : (x :: l).find? (fun x => p x || q x) = some x := by simp [hq]
        have houtranked : Outranked p q l → ∃ a ∈ l, p a = true := Outranked.exists
        simp only [hfirst, Option.mem_some_iff, forall_eq', List.mem_cons, hpx, hq, true_and]
        grind
      · have hfirst : (x :: l).find? (fun x => p x || q x) = l.find? (fun x => p x || q x) := by
          simp [hp, hq]
        simpa [hfirst, hpx, hq] using ih

end First

/-! ### Correlation -/

def sameId (track candidate : CanonicalDistributorTrack) : Bool :=
  isTruthy track.distributorTrackId && candidate.distributorTrackId = track.distributorTrackId

def sameNumber (track candidate : CanonicalDistributorTrack) : Bool :=
  track.trackNumber.isSome && candidate.trackNumber = track.trackNumber

def sameTitle (track candidate : CanonicalDistributorTrack) : Bool :=
  track.title ≠ "" && candidate.title ≠ "" && candidate.title = track.title

theorem correlates_eq (track candidate : CanonicalDistributorTrack) :
    correlates track candidate =
      (sameId track candidate || (sameNumber track candidate || sameTitle track candidate)) := by
  simp only [correlates, sameId, sameNumber, sameTitle, Bool.or_assoc]

/-- The track of the other reading that a track is filled in from. -/
def donor (extra : List CanonicalDistributorTrack) (track : CanonicalDistributorTrack) :
    Option CanonicalDistributorTrack :=
  extra.find? (correlates track)

def backfilled (extra : List CanonicalDistributorTrack) (track : CanonicalDistributorTrack) :
    CanonicalDistributorTrack :=
  match donor extra track with
  | none => track
  | some alternative => backfillTrack track alternative

theorem mergeTracks_eq {base : List CanonicalDistributorTrack} (h : base ≠ [])
    (extra : List CanonicalDistributorTrack) :
    mergeTracks base extra = base.map (backfilled extra) := by
  have hlength : ¬ (base.length = 0 ∧ extra.length > 0) := fun hc => h (List.length_eq_zero_iff.1 hc.1)
  rw [mergeTracks, if_neg hlength]
  rfl

theorem mergeTracks_nil (extra : List CanonicalDistributorTrack) : mergeTracks [] extra = extra := by
  cases extra <;> rfl

theorem backfilled_of_some {extra : List CanonicalDistributorTrack}
    {track alternative : CanonicalDistributorTrack} (h : donor extra track = some alternative) :
    backfilled extra track = backfillTrack track alternative := by
  rw [backfilled, h]

theorem backfilled_of_none {extra : List CanonicalDistributorTrack}
    {track : CanonicalDistributorTrack} (h : donor extra track = none) :
    backfilled extra track = track := by
  rw [backfilled, h]

/-- A candidate with the track's id if there is any, else with its number, else with its title. -/
def Preferred (extra : List CanonicalDistributorTrack) (track candidate : CanonicalDistributorTrack) :
    Prop :=
  sameId track candidate = true ∨
    (∀ c ∈ extra, sameId track c = false) ∧
      (sameNumber track candidate = true ∨
        (∀ c ∈ extra, sameNumber track c = false) ∧ sameTitle track candidate = true)

/-- The track's ISRC is overwritten with that of the extra track at `k`. -/
def TakesIsrcFrom (extra : List CanonicalDistributorTrack) (track : CanonicalDistributorTrack) (k : ℕ) :
    Prop :=
  extra.findIdx? (correlates track) = some k ∧
    ∃ alternative, extra[k]? = some alternative ∧
      evidenceRank alternative.isrc > evidenceRank track.isrc

structure CorrelatesRight (base extra : CanonicalDistributorRelease) : Prop where
  preferred : ∀ track ∈ base.tracks, ∀ candidate ∈ donor extra.tracks track,
    Preferred extra.tracks track candidate
  apart : ∀ (i j : ℕ) t u k, base.tracks[i]? = some t → base.tracks[j]? = some u → i ≠ j →
    TakesIsrcFrom extra.tracks t k → ¬ TakesIsrcFrom extra.tracks u k

/-- No track that shares a weaker key only comes before the first that shares a stronger one. -/
def InKeyOrder (extra : List CanonicalDistributorTrack) (track : CanonicalDistributorTrack) : Prop :=
  ¬ Outranked (sameId track) (fun c => sameNumber track c || sameTitle track c) extra ∧
    ((∀ c ∈ extra, sameId track c = false) → ¬ Outranked (sameNumber track) (sameTitle track) extra)

/-- No extra track with the stronger ISRC correlates with both tracks, unless an earlier extra
track correlates with one of them. -/
def Uncontended (extra : List CanonicalDistributorTrack) (t u : CanonicalDistributorTrack) : Prop :=
  ∀ before c after, extra = before ++ c :: after → correlates t c = true → correlates u c = true →
    evidenceRank t.isrc < evidenceRank c.isrc → evidenceRank u.isrc < evidenceRank c.isrc →
    ∃ b ∈ before, correlates t b = true ∨ correlates u b = true

theorem takesIsrcFrom_iff (extra : List CanonicalDistributorTrack) (t : CanonicalDistributorTrack)
    (k : ℕ) :
    TakesIsrcFrom extra t k ↔ ∃ before c after, extra = before ++ c :: after ∧ before.length = k ∧
      correlates t c = true ∧ (∀ b ∈ before, correlates t b = false) ∧
      evidenceRank t.isrc < evidenceRank c.isrc := by
  constructor
  · rintro ⟨hfirst, c, hc, hrank⟩
    obtain ⟨hlt, hcorr, hbefore⟩ := List.findIdx?_eq_some_iff_getElem.1 hfirst
    obtain rfl : extra[k] = c := by simpa [List.getElem?_eq_getElem hlt] using hc
    refine ⟨extra.take k, extra[k], extra.drop (k + 1), ?_, by simp; omega, hcorr, ?_, hrank⟩
    · rw [← List.drop_eq_getElem_cons hlt, List.take_append_drop]
    · intro b hb
      obtain ⟨j, hj, rfl⟩ := List.mem_take_iff_getElem.1 hb
      exact Bool.eq_false_iff.2 (hbefore j (by omega))
  · rintro ⟨before, c, after, rfl, rfl, hcorr, hbefore, hrank⟩
    have hget : (before ++ c :: after)[before.length]? = some c := by simp
    refine ⟨List.findIdx?_eq_some_iff_getElem.2 ⟨by simp, by simpa using hcorr, fun j hj => ?_⟩,
      c, hget, hrank⟩
    rw [List.getElem_append_left hj]
    exact Bool.eq_false_iff.1 (hbefore _ (List.getElem_mem hj))

theorem correlates_of_donor {extra : List CanonicalDistributorTrack}
    {track candidate : CanonicalDistributorTrack} (h : candidate ∈ donor extra track) :
    correlates track candidate = true :=
  List.find?_some h

theorem preferred_iff (extra : List CanonicalDistributorTrack) (track : CanonicalDistributorTrack) :
    (∀ candidate ∈ donor extra track, Preferred extra track candidate) ↔ InKeyOrder extra track := by
  have hdonor : donor extra track =
      extra.find? fun c => sameId track c || (sameNumber track c || sameTitle track c) := by
    simp only [donor, funext (correlates_eq track)]
  rw [InKeyOrder, ← first_iff, ← hdonor]
  by_cases hid : ∃ c ∈ extra, sameId track c = true
  · have hsome : ¬ ∀ c ∈ extra, sameId track c = false := by
      obtain ⟨c, hc, hsame⟩ := hid
      exact fun hnone => Bool.false_ne_true ((hnone c hc).symm.trans hsame)
    simp only [Preferred, hsome, hid, false_and, or_false, forall_const, IsEmpty.forall_iff, and_true]
  · have hnone : ∀ c ∈ extra, sameId track c = false :=
      fun c hc => Bool.eq_false_iff.2 fun hsame => hid ⟨c, hc, hsame⟩
    have hrest : donor extra track = extra.find? fun c => sameNumber track c || sameTitle track c := by
      rw [hdonor, ← List.head?_filter, ← List.head?_filter]
      exact congrArg List.head? (List.filter_congr fun c hc => by rw [hnone c hc, Bool.false_or])
    simp only [hid, IsEmpty.forall_iff, implies_true, true_and]
    rw [forall_prop_of_true hnone, ← first_iff, ← hrest]
    refine forall₂_congr fun d hd => ?_
    have hcorr : correlates track d = true := correlates_of_donor hd
    have hmem : d ∈ extra := List.mem_of_find?_eq_some hd
    rw [correlates_eq, hnone d hmem, Bool.false_or, Bool.or_eq_true] at hcorr
    simp only [Preferred, hnone d hmem, Bool.false_eq_true, false_or]
    grind

theorem uncontended_iff (extra : List CanonicalDistributorTrack) (t u : CanonicalDistributorTrack) :
    Uncontended extra t u ↔ ∀ k, TakesIsrcFrom extra t k → ¬ TakesIsrcFrom extra u k := by
  constructor
  · rintro h k ht hu
    obtain ⟨before, c, after, rfl, hlength, hcorr, hbefore, hrank⟩ := (takesIsrcFrom_iff _ _ _).1 ht
    obtain ⟨before', c', after', heq, hlength', hcorr', hbefore', hrank'⟩ := (takesIsrcFrom_iff _ _ _).1 hu
    obtain ⟨rfl, htail⟩ := List.append_inj heq (hlength.trans hlength'.symm)
    obtain ⟨rfl, -⟩ := List.cons.inj htail
    obtain ⟨b, hb, hfirst | hfirst⟩ := h before c after rfl hcorr hcorr' hrank hrank'
    · exact Bool.false_ne_true ((hbefore b hb).symm.trans hfirst)
    · exact Bool.false_ne_true ((hbefore' b hb).symm.trans hfirst)
  · intro h before c after heq hcorr hcorr' hrank hrank'
    by_contra hnone
    push Not at hnone
    have ht : TakesIsrcFrom extra t before.length :=
      (takesIsrcFrom_iff _ _ _).2 ⟨before, c, after, heq, rfl, hcorr,
        fun b hb => Bool.eq_false_iff.2 (hnone b hb).1, hrank⟩
    have hu : TakesIsrcFrom extra u before.length :=
      (takesIsrcFrom_iff _ _ _).2 ⟨before, c, after, heq, rfl, hcorr',
        fun b hb => Bool.eq_false_iff.2 (hnone b hb).2, hrank'⟩
    exact h _ ht hu

theorem apart_iff (base extra : List CanonicalDistributorTrack) :
    (∀ (i j : ℕ) t u k, base[i]? = some t → base[j]? = some u → i ≠ j →
      TakesIsrcFrom extra t k → ¬ TakesIsrcFrom extra u k) ↔ base.Pairwise (Uncontended extra) := by
  simp only [List.pairwise_iff_getElem, uncontended_iff]
  constructor
  · intro h i j hi hj hlt k
    exact h i j _ _ k (List.getElem?_eq_getElem hi) (List.getElem?_eq_getElem hj) hlt.ne
  · intro h i j t u k ht hu hne htake htake'
    obtain ⟨hi, rfl⟩ := List.getElem?_eq_some_iff.1 ht
    obtain ⟨hj, rfl⟩ := List.getElem?_eq_some_iff.1 hu
    rcases Nat.lt_or_gt_of_ne hne with hlt | hlt
    · exact h i j hi hj hlt k htake htake'
    · exact h j i hj hi hlt k htake' htake

/-- Tracks are correlated by their strongest key, and no two share a donor, exactly when the other
reading lists its tracks in key order and uncontended. -/
theorem correlatesRight_iff (base extra : CanonicalDistributorRelease) :
    CorrelatesRight base extra ↔
      (∀ track ∈ base.tracks, InKeyOrder extra.tracks track) ∧
        base.tracks.Pairwise (Uncontended extra.tracks) := by
  rw [← apart_iff]
  constructor
  · intro h
    exact ⟨fun track htrack => (preferred_iff _ _).1 (h.preferred track htrack), h.apart⟩
  · rintro ⟨horder, hapart⟩
    exact ⟨fun track htrack => (preferred_iff _ _).2 (horder track htrack), hapart⟩

def sampleTrack (trackNumber : Option ℚ) (title : String) (isrc : Option String) :
    CanonicalDistributorTrack :=
  { distributorTrackId := none, title, trackNumber, durationSec := none, lyrics := none
    isrc := ⟨isrc, if isrc.isSome then .present else .notCaptured, .networkJson, "t", "parser"⟩ }

def sampleReading (tracks : List CanonicalDistributorTrack) : CanonicalDistributorRelease :=
  { sampleRelease "R1" with tracks }

/-- The second track takes the ISRC of the first, which has the same title, over that of its own
number. -/
theorem mergeCanonicalRelease_equalTitles :
    ¬ CorrelatesRight (sampleReading [sampleTrack (some 2) "Intro" none])
      (sampleReading [sampleTrack (some 1) "Intro" (some "A"),
        sampleTrack (some 2) "Intro (Live)" (some "B")]) := by
  intro h
  have hpreferred := h.preferred (sampleTrack (some 2) "Intro" none) (by decide)
    (sampleTrack (some 1) "Intro" (some "A")) (by decide)
  revert hpreferred
  unfold Preferred
  decide

/-! ### What a merge keeps -/

/-- An absent optional field ranks lowest. -/
def fieldRank : Option (MetadataField String) → ℕ
  | none => 0
  | some field => evidenceRank field

theorem evidenceRank_pos (field : MetadataField String) : 0 < evidenceRank field := by
  unfold evidenceRank
  split
  · omega
  · split <;> omega

/-- The merged field is the better known one, the base's where neither is. -/
structure Strongest (base extra merged : Option (MetadataField String)) : Prop where
  rank : fieldRank merged = max (fieldRank base) (fieldRank extra)
  keeps : fieldRank extra ≤ fieldRank base → merged = base
  takes : fieldRank base < fieldRank extra → merged = extra

theorem strongest_of_cases {base extra merged : Option (MetadataField String)}
    (hkeeps : fieldRank extra ≤ fieldRank base → merged = base)
    (htakes : fieldRank base < fieldRank extra → merged = extra) : Strongest base extra merged := by
  refine ⟨?_, hkeeps, htakes⟩
  rcases Nat.lt_or_ge (fieldRank base) (fieldRank extra) with hlt | hle
  · rw [htakes hlt, Nat.max_eq_right hlt.le]
  · rw [hkeeps hle, Nat.max_eq_left hle]

theorem strongest_strongerEvidence (base extra : MetadataField String) :
    Strongest (some base) (some extra) (some (strongerEvidence base extra)) := by
  apply strongest_of_cases
  · intro hle
    have hle : ¬ evidenceRank extra > evidenceRank base := Nat.not_lt.2 hle
    rw [strongerEvidence, if_neg hle]
  · intro hlt
    have hlt : evidenceRank extra > evidenceRank base := hlt
    rw [strongerEvidence, if_pos hlt]

theorem strongest_none (base : Option (MetadataField String)) : Strongest base none base := by
  apply strongest_of_cases
  · exact fun _ => rfl
  · intro hlt
    exact absurd hlt (Nat.not_lt_zero _)

theorem strongest_strongerEvidence? (base extra : Option (MetadataField String)) :
    Strongest base extra (strongerEvidence? base extra) := by
  cases extra with
  | none => exact strongest_none base
  | some extra =>
    cases base with
    | none =>
      apply strongest_of_cases
      · intro hle
        have hpos := evidenceRank_pos extra
        exact absurd hle (Nat.not_le.2 hpos)
      · exact fun _ => rfl
    | some base => exact strongest_strongerEvidence base extra

/-- A merged track keeps all its own reading supplies, and the better known ISRC. -/
structure TrackStrongest (extra : List CanonicalDistributorTrack)
    (track merged : CanonicalDistributorTrack) : Prop where
  isrc : Strongest (some track.isrc) ((donor extra track).map (·.isrc)) (some merged.isrc)
  id : isTruthy track.distributorTrackId = true → merged.distributorTrackId = track.distributorTrackId
  title : isBlank track.title = false → merged.title = track.title
  number : track.trackNumber.isSome = true → merged.trackNumber = track.trackNumber
  duration : track.durationSec.isSome = true → merged.durationSec = track.durationSec
  lyrics : merged.lyrics = track.lyrics

structure KeepsStrongest (base extra merged : CanonicalDistributorRelease) : Prop where
  id : merged.distributorReleaseId = base.distributorReleaseId
  title : isBlank base.title = false → merged.title = base.title
  upc : Strongest (some base.upc) (some extra.upc) (some merged.upc)
  artworkUrl : Strongest (some base.artworkUrl) (some extra.artworkUrl) (some merged.artworkUrl)
  releaseDate : Strongest (some base.releaseDate) (some extra.releaseDate) (some merged.releaseDate)
  label : Strongest base.label extra.label merged.label
  uploadDate : Strongest base.uploadDate extra.uploadDate merged.uploadDate
  tracks : base.tracks ≠ [] → List.Forall₂ (TrackStrongest extra.tracks) base.tracks merged.tracks

theorem trackStrongest_backfilled (extra : List CanonicalDistributorTrack)
    (track : CanonicalDistributorTrack) : TrackStrongest extra track (backfilled extra track) := by
  rcases hdonor : donor extra track with _ | alternative
  · rw [backfilled_of_none hdonor]
    refine ⟨?_, fun _ => rfl, fun _ => rfl, fun _ => rfl, fun _ => rfl, rfl⟩
    rw [hdonor]
    exact strongest_none _
  · rw [backfilled_of_some hdonor]
    constructor
    · rw [hdonor]
      exact strongest_strongerEvidence track.isrc alternative.isrc
    · intro h
      simp [backfillTrack, h]
    · intro h
      simp [backfillTrack, h]
    · intro h
      obtain ⟨n, hn⟩ := Option.isSome_iff_exists.1 h
      simp [backfillTrack, hn]
    · intro h
      obtain ⟨n, hn⟩ := Option.isSome_iff_exists.1 h
      simp [backfillTrack, hn]
    · rfl

/-- The merge keeps the strongest evidence of the two readings, field by field and track by
track. -/
theorem mergeCanonicalRelease_keepsStrongest (base extra : CanonicalDistributorRelease) :
    KeepsStrongest base extra (mergeCanonicalRelease base extra) := by
  constructor
  · rfl
  · intro h
    simp [mergeCanonicalRelease, h]
  · exact strongest_strongerEvidence base.upc extra.upc
  · exact strongest_strongerEvidence base.artworkUrl extra.artworkUrl
  · exact strongest_strongerEvidence base.releaseDate extra.releaseDate
  · exact strongest_strongerEvidence? base.label extra.label
  · exact strongest_strongerEvidence? base.uploadDate extra.uploadDate
  · intro htracks
    show List.Forall₂ _ base.tracks (mergeTracks base.tracks extra.tracks)
    rw [mergeTracks_eq htracks, List.forall₂_map_right_iff, List.forall₂_same]
    exact fun track _ => trackStrongest_backfilled extra.tracks track

end CatalogSentinel.Distrokid
