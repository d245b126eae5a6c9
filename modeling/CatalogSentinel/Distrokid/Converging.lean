import Mathlib.Data.Set.Function
import CatalogSentinel.Distrokid.Merging

/-!
Converging a retry with the checkpoint before it: when doing it twice changes
nothing more, and what of the earlier reading survives it. The second time the
incoming tracks are correlated with themselves as filled in the first time, so
two incoming tracks that share a title or number may be taken for each other.
-/

namespace CatalogSentinel.Distrokid

open Data ReleaseExtractionOutcome

/-! ### Converging twice -/

section Twice

variable {previous incoming : List CanonicalDistributorTrack} {t u : CanonicalDistributorTrack}

/-- An empty id tells nothing. -/
def toldId (track : CanonicalDistributorTrack) : Option String :=
  track.distributorTrackId.filter (· ≠ "")

def toldTitle (track : CanonicalDistributorTrack) : Option String :=
  if isBlank track.title then none else some track.title

/-- `u` tells `v`, or is silent and `e` tells it. -/
def Says {β : Type} (tell : CanonicalDistributorTrack → Option β) (u : CanonicalDistributorTrack)
    (e : Option CanonicalDistributorTrack) (v : β) : Prop :=
  tell u = some v ∨ tell u = none ∧ ∃ x ∈ e, tell x = some v

/-- The field is the better ISRC of the two, that of `u` where neither is better. -/
def SaysIsrc (u : CanonicalDistributorTrack) (e : Option CanonicalDistributorTrack)
    (field : MetadataField String) : Prop :=
  (u.isrc = field ∧ ∀ x ∈ e, evidenceRank x.isrc ≤ evidenceRank field) ∨
    ∃ x ∈ e, x.isrc = field ∧ evidenceRank u.isrc < evidenceRank field

/-- `u`, or where it is silent the first previous track that correlates with it, has a key of `t`. -/
def Resembles (previous : List CanonicalDistributorTrack) (t u : CanonicalDistributorTrack) : Prop :=
  (∃ id, toldId t = some id ∧ Says toldId u (donor previous u) id) ∨
  (∃ n, t.trackNumber = some n ∧ Says (·.trackNumber) u (donor previous u) n) ∨
  (t.title ≠ "" ∧ (Says toldTitle u (donor previous u) t.title ∨
    u.title = t.title ∧ ∀ title, ¬ Says toldTitle u (donor previous u) title))

/-- Where `t` is silent, `u` and its previous track say what the previous track of `t` does. -/
structure TellsNothingElse (previous : List CanonicalDistributorTrack)
    (t u : CanonicalDistributorTrack) : Prop where
  id : toldId t = none → ∀ id, Says toldId u (donor previous u) id ↔
    ∃ x ∈ donor previous t, toldId x = some id
  title : toldTitle t = none → ∀ title, Says toldTitle u (donor previous u) title ↔
    ∃ x ∈ donor previous t, toldTitle x = some title
  number : t.trackNumber = none → ∀ n, Says (·.trackNumber) u (donor previous u) n ↔
    ∃ x ∈ donor previous t, x.trackNumber = some n
  duration : t.durationSec = none → ∀ seconds, Says (·.durationSec) u (donor previous u) seconds ↔
    ∃ x ∈ donor previous t, x.durationSec = some seconds
  isrc : ∀ field, evidenceRank t.isrc < evidenceRank field →
    (SaysIsrc u (donor previous u) field ↔ ∃ x ∈ donor previous t, x.isrc = field)

/-- The first incoming track that a track resembles, if it is another, tells it nothing else. -/
def Unmistaken (previous incoming : List CanonicalDistributorTrack) : Prop :=
  ∀ t ∈ incoming, ∀ before u after, incoming = before ++ u :: after → u ≠ t →
    Resembles previous t u → (∀ v ∈ before, ¬ Resembles previous t v) →
    TellsNothingElse previous t u

/-- What a track tells of itself, or else the previous track it correlates with. -/
def byEither {β : Type} (tell : CanonicalDistributorTrack → Option β)
    (previous : List CanonicalDistributorTrack) (track : CanonicalDistributorTrack) : Option β :=
  (tell track).or ((donor previous track).bind tell)

def bestIsrc (previous : List CanonicalDistributorTrack) (track : CanonicalDistributorTrack) :
    MetadataField String :=
  match donor previous track with
  | none => track.isrc
  | some alternative => strongerEvidence track.isrc alternative.isrc

theorem says_iff {β : Type} {tell : CanonicalDistributorTrack → Option β} {v : β} :
    Says tell u (donor previous u) v ↔ byEither tell previous u = some v := by
  rw [byEither, Option.or_eq_some_iff, Option.bind_eq_some_iff]
  rfl

theorem saysIsrc_iff {field : MetadataField String} :
    SaysIsrc u (donor previous u) field ↔ bestIsrc previous u = field := by
  unfold SaysIsrc bestIsrc strongerEvidence
  cases donor previous u with
  | none => simp
  | some x =>
    simp only [Option.mem_some_iff, forall_eq', exists_eq_left']
    split
    · rename_i hgt
      constructor
      · rintro (⟨rfl, hle⟩ | ⟨hx, -⟩)
        · exact absurd hgt (Nat.not_lt.2 hle)
        · exact hx
      · rintro rfl
        exact .inr ⟨rfl, hgt⟩
    · rename_i hle
      constructor
      · rintro (⟨hu, -⟩ | ⟨rfl, hlt⟩)
        · exact hu
        · exact absurd hlt hle
      · rintro rfl
        exact .inl ⟨rfl, Nat.not_lt.1 hle⟩

/-- The same is said of the gap by both exactly if both tell it the same. -/
theorem sayAlike_iff {β : Type} {tell : CanonicalDistributorTrack → Option β} :
    (∀ v, Says tell u (donor previous u) v ↔ ∃ x ∈ donor previous t, tell x = some v) ↔
      byEither tell previous u = (donor previous t).bind tell := by
  simp only [says_iff, ← Option.mem_def, ← Option.mem_bind_iff]
  exact Option.ext_iff.symm

/-- Only better ISRCs than its own replace that of `t`. -/
theorem isrcAlike_iff :
    (∀ field, evidenceRank t.isrc < evidenceRank field →
      (SaysIsrc u (donor previous u) field ↔ ∃ x ∈ donor previous t, x.isrc = field)) ↔
      strongerEvidence t.isrc (bestIsrc previous u) = bestIsrc previous t := by
  simp only [saysIsrc_iff]
  unfold strongerEvidence
  rw [bestIsrc.eq_def previous t]
  cases donor previous t with
  | none => grind
  | some d =>
    unfold strongerEvidence
    grind

theorem isTruthy_eq (track : CanonicalDistributorTrack) :
    isTruthy track.distributorTrackId = (toldId track).isSome := by
  unfold isTruthy toldId
  rcases track.distributorTrackId with _ | id
  · rfl
  · by_cases h : id = "" <;> simp [Option.filter, h]

theorem mem_toldId {id : String} : toldId t = some id ↔ t.distributorTrackId = some id ∧ id ≠ "" := by
  rw [toldId, Option.filter_eq_some_iff, decide_eq_true_eq]

theorem mem_toldTitle {title : String} :
    toldTitle t = some title ↔ t.title = title ∧ isBlank title = false := by
  unfold toldTitle
  split
  · rename_i h
    refine iff_of_false (by simp) ?_
    rintro ⟨rfl, hfalse⟩
    exact Bool.false_ne_true (hfalse.symm.trans h)
  · rename_i h
    rw [Option.some_inj]
    refine ⟨?_, And.left⟩
    rintro rfl
    exact ⟨rfl, Bool.eq_false_iff.2 h⟩

theorem toldTitle_none : toldTitle t = none ↔ isBlank t.title = true := by
  unfold toldTitle
  split <;> simp_all

/-- A filled-in track, each field told by either of the two. -/
theorem backfillTrack_eq (t u : CanonicalDistributorTrack) :
    backfillTrack t u =
      { t with
        distributorTrackId := ((toldId t).or (toldId u)).or t.distributorTrackId
        title := ((toldTitle t).or (toldTitle u)).getD t.title
        trackNumber := t.trackNumber.or u.trackNumber
        durationSec := t.durationSec.or u.durationSec
        isrc := strongerEvidence t.isrc u.isrc } := by
  rw [backfillTrack, CanonicalDistributorTrack.mk.injEq]
  refine ⟨?_, ?_, rfl, rfl, rfl, rfl⟩
  · rw [isTruthy_eq, isTruthy_eq]
    rcases ht : toldId t with _ | id
    · rcases hu : toldId u with _ | id
      · rfl
      · exact (mem_toldId.1 hu).1
    · exact (mem_toldId.1 ht).1
  · rcases ht : toldTitle t with _ | title
    · have hblank : isBlank t.title = true := toldTitle_none.1 ht
      rcases hu : toldTitle u with _ | title
      · have hblank' : isBlank u.title = true := toldTitle_none.1 hu
        simp [hblank']
      · obtain ⟨rfl, hblank'⟩ := mem_toldTitle.1 hu
        simp [hblank, hblank']
    · obtain ⟨rfl, hblank⟩ := mem_toldTitle.1 ht
      simp [hblank]

theorem backfilled_eq (previous : List CanonicalDistributorTrack) (t : CanonicalDistributorTrack) :
    backfilled previous t =
      { t with
        distributorTrackId := (byEither toldId previous t).or t.distributorTrackId
        title := (byEither toldTitle previous t).getD t.title
        trackNumber := byEither (·.trackNumber) previous t
        durationSec := byEither (·.durationSec) previous t
        isrc := bestIsrc previous t } := by
  rcases hdonor : donor previous t with _ | d
  · rw [backfilled_of_none hdonor]
    simp only [byEither, bestIsrc, hdonor, Option.bind_none, Option.or_none]
    rcases ht : toldId t with _ | id
    · rcases ht' : toldTitle t with _ | title
      · rfl
      · obtain ⟨rfl, -⟩ := mem_toldTitle.1 ht'
        rfl
    · have hid : t.distributorTrackId = some id := (mem_toldId.1 ht).1
      rcases ht' : toldTitle t with _ | title
      · simp [← hid]
      · obtain ⟨rfl, -⟩ := mem_toldTitle.1 ht'
        simp [← hid]
  · rw [backfilled_of_some hdonor, backfillTrack_eq]
    simp only [byEither, bestIsrc, hdonor, Option.bind_some]

theorem toldId_ne_empty {id : String} (h : byEither toldId previous u = some id) : id ≠ "" := by
  rcases Option.or_eq_some_iff.1 h with h | ⟨-, h⟩
  · exact (mem_toldId.1 h).2
  · obtain ⟨d, -, h⟩ := Option.bind_eq_some_iff.1 h
    exact (mem_toldId.1 h).2

theorem toldTitle_not_blank {title : String} (h : byEither toldTitle previous u = some title) :
    isBlank title = false := by
  rcases Option.or_eq_some_iff.1 h with h | ⟨-, h⟩
  · exact (mem_toldTitle.1 h).2
  · obtain ⟨d, -, h⟩ := Option.bind_eq_some_iff.1 h
    exact (mem_toldTitle.1 h).2

theorem toldId_backfilled : toldId (backfilled previous u) = byEither toldId previous u := by
  rw [backfilled_eq]
  rcases h : byEither toldId previous u with _ | id
  · have hu : toldId u = none := (Option.or_eq_none_iff.1 h).1
    exact hu
  · exact mem_toldId.2 ⟨rfl, toldId_ne_empty h⟩

theorem toldTitle_backfilled : toldTitle (backfilled previous u) = byEither toldTitle previous u := by
  rw [backfilled_eq]
  rcases h : byEither toldTitle previous u with _ | title
  · have hu : toldTitle u = none := (Option.or_eq_none_iff.1 h).1
    exact hu
  · exact mem_toldTitle.2 ⟨rfl, toldTitle_not_blank h⟩

theorem correlates_iff (t u : CanonicalDistributorTrack) :
    correlates t u = true ↔ (∃ id, toldId t = some id ∧ toldId u = some id) ∨
      (∃ n, t.trackNumber = some n ∧ u.trackNumber = some n) ∨ (t.title ≠ "" ∧ u.title = t.title) := by
  rw [correlates_eq, Bool.or_eq_true, Bool.or_eq_true]
  refine or_congr ?_ (or_congr ?_ ?_)
  · rw [sameId, isTruthy_eq, Bool.and_eq_true, Option.isSome_iff_exists, decide_eq_true_eq]
    constructor
    · rintro ⟨⟨id, hid⟩, heq⟩
      obtain ⟨ht, hne⟩ := mem_toldId.1 hid
      exact ⟨id, hid, mem_toldId.2 ⟨heq.trans ht, hne⟩⟩
    · rintro ⟨id, hid, hid'⟩
      exact ⟨⟨id, hid⟩, (mem_toldId.1 hid').1.trans (mem_toldId.1 hid).1.symm⟩
  · rw [sameNumber, Bool.and_eq_true, Option.isSome_iff_exists, decide_eq_true_eq]
    constructor
    · rintro ⟨⟨n, hn⟩, heq⟩
      exact ⟨n, hn, heq.trans hn⟩
    · rintro ⟨n, hn, hn'⟩
      exact ⟨⟨n, hn⟩, hn'.trans hn.symm⟩
  · simp only [sameTitle, Bool.and_eq_true, decide_eq_true_eq]
    constructor
    · rintro ⟨⟨hne, -⟩, heq⟩
      exact ⟨hne, heq⟩
    · rintro ⟨hne, heq⟩
      exact ⟨⟨hne, heq ▸ hne⟩, heq⟩

theorem resembles_iff :
    Resembles previous t u ↔ (∃ id, toldId t = some id ∧ byEither toldId previous u = some id) ∨
      (∃ n, t.trackNumber = some n ∧ byEither (·.trackNumber) previous u = some n) ∨
      (t.title ≠ "" ∧ (byEither toldTitle previous u).getD u.title = t.title) := by
  simp only [Resembles, says_iff]
  cases byEither toldTitle previous u <;> simp

theorem correlates_backfilled :
    correlates t (backfilled previous u) = true ↔ Resembles previous t u := by
  rw [correlates_iff, toldId_backfilled, backfilled_eq, resembles_iff]

/-- A track that correlates with any correlates with itself as filled in. -/
theorem resembles_self {c : CanonicalDistributorTrack} (h : correlates t c = true) :
    Resembles previous t t := by
  rw [resembles_iff]
  rcases hid : toldId t with _ | id
  · rcases hnumber : t.trackNumber with _ | n
    · have htitle : ∀ d, correlates t d = true ↔ t.title ≠ "" ∧ d.title = t.title := by
        intro d
        rw [correlates_iff, hid, hnumber]
        simp
      refine .inr (.inr ⟨((htitle c).1 h).1, ?_⟩)
      rcases htold : toldTitle t with _ | title
      · have hdonor : (donor previous t).bind toldTitle = none := by
          rw [Option.bind_eq_none_iff]
          intro d hd
          have heq : d.title = t.title := ((htitle d).1 (correlates_of_donor hd)).2
          rw [toldTitle_none, heq]
          exact toldTitle_none.1 htold
        rw [byEither, htold, hdonor]
        rfl
      · rw [byEither, htold]
        exact (mem_toldTitle.1 htold).1.symm
    · exact .inr (.inl ⟨n, rfl, by rw [byEither, hnumber]; rfl⟩)
  · exact .inl ⟨id, rfl, by rw [byEither, hid]; rfl⟩

/-- What a gap is filled with matters only where there is a gap. -/
theorem gap_iff {β γ : Type} (f : Option β → γ) {own x y : Option β}
    (hinj : own = none → f x = f y → x = y) :
    f (own.or x) = f (own.or y) ↔ (own = none → x = y) := by
  rcases own with _ | own
  · rw [Option.none_or, Option.none_or]
    exact ⟨fun h hown => hinj hown h, fun h => congrArg f (h rfl)⟩
  · exact iff_of_true rfl (fun h => by cases h)

theorem donor_told {id : String} (h : (donor previous t).bind toldId = some id) : id ≠ "" := by
  obtain ⟨d, -, h⟩ := Option.bind_eq_some_iff.1 h
  exact (mem_toldId.1 h).2

theorem donor_told_title {title : String} (h : (donor previous t).bind toldTitle = some title) :
    isBlank title = false := by
  obtain ⟨d, -, h⟩ := Option.bind_eq_some_iff.1 h
  exact (mem_toldTitle.1 h).2

theorem or_inj_of_told {x y : Option String} (ht : toldId t = none) (hx : ∀ id, x = some id → id ≠ "")
    (hy : ∀ id, y = some id → id ≠ "")
    (h : x.or t.distributorTrackId = y.or t.distributorTrackId) : x = y := by
  have hown : ∀ id, t.distributorTrackId = some id → id = "" := by
    intro id hid
    by_contra hne
    have htold : toldId t = some id := mem_toldId.2 ⟨hid, hne⟩
    simp [ht] at htold
  rcases x with _ | x <;> rcases y with _ | y
  · rfl
  · exact absurd (hown y h) (hy y rfl)
  · exact absurd (hown x h.symm) (hx x rfl)
  · exact h

theorem getD_inj_of_told {x y : Option String} (ht : toldTitle t = none)
    (hx : ∀ title, x = some title → isBlank title = false)
    (hy : ∀ title, y = some title → isBlank title = false)
    (h : x.getD t.title = y.getD t.title) : x = y := by
  have hown : isBlank t.title = true := toldTitle_none.1 ht
  rcases x with _ | x <;> rcases y with _ | y
  · rfl
  · have heq : t.title = y := h
    exact absurd ((hy y rfl).symm.trans (heq ▸ hown)) Bool.false_ne_true
  · have heq : x = t.title := h
    exact absurd ((hx x rfl).symm.trans (heq ▸ hown)) Bool.false_ne_true
  · exact congrArg some h

theorem backfillTrack_backfilled :
    backfillTrack t (backfilled previous u) = backfilled previous t ↔ TellsNothingElse previous t u := by
  have hid : ((toldId t).or (byEither toldId previous u)).or t.distributorTrackId =
        (byEither toldId previous t).or t.distributorTrackId ↔
      (toldId t = none → byEither toldId previous u = (donor previous t).bind toldId) :=
    gap_iff (fun told => told.or t.distributorTrackId) fun ht =>
      or_inj_of_told ht (fun _ => toldId_ne_empty) fun _ => donor_told
  have htitle : ((toldTitle t).or (byEither toldTitle previous u)).getD t.title =
        (byEither toldTitle previous t).getD t.title ↔
      (toldTitle t = none → byEither toldTitle previous u = (donor previous t).bind toldTitle) :=
    gap_iff (fun told => told.getD t.title) fun ht =>
      getD_inj_of_told ht (fun _ => toldTitle_not_blank) fun _ => donor_told_title
  have hnumber : t.trackNumber.or (byEither (·.trackNumber) previous u) =
        byEither (·.trackNumber) previous t ↔
      (t.trackNumber = none →
        byEither (·.trackNumber) previous u = (donor previous t).bind (·.trackNumber)) :=
    gap_iff (fun told => told) fun _ => id
  have hduration : t.durationSec.or (byEither (·.durationSec) previous u) =
        byEither (·.durationSec) previous t ↔
      (t.durationSec = none →
        byEither (·.durationSec) previous u = (donor previous t).bind (·.durationSec)) :=
    gap_iff (fun told => told) fun _ => id
  rw [backfillTrack_eq, toldId_backfilled, toldTitle_backfilled, backfilled_eq, backfilled_eq,
    CanonicalDistributorTrack.mk.injEq, hid, htitle, hnumber, hduration]
  simp only [← sayAlike_iff, ← isrcAlike_iff]
  constructor
  · rintro ⟨hid, htitle, hisrc, hnumber, hduration, -⟩
    exact ⟨hid, htitle, hnumber, hduration, hisrc⟩
  · rintro ⟨hid, htitle, hnumber, hduration, hisrc⟩
    exact ⟨hid, htitle, hisrc, hnumber, hduration, trivial⟩

/-- A track is not mistaken for another when it is taken for itself. -/
theorem tellsNothingElse_self : TellsNothingElse previous t t := by
  constructor
  case isrc =>
    intro field hlt
    constructor
    · rintro (⟨rfl, -⟩ | ⟨x, hx, heq, -⟩)
      · exact absurd hlt (Nat.lt_irrefl _)
      · exact ⟨x, hx, heq⟩
    · rintro ⟨x, hx, heq⟩
      exact .inr ⟨x, hx, heq, hlt⟩
  all_goals
    intro hsilent v
    simp [Says, hsilent]

/-- The donor in the reading filled in before is the first track that `t` resembles, filled in. -/
theorem donor_twice (u : CanonicalDistributorTrack) :
    incoming.find? (correlates t ∘ backfilled previous) = some u ↔
      Resembles previous t u ∧ ∃ before after, incoming = before ++ u :: after ∧
        ∀ v ∈ before, ¬ Resembles previous t v := by
  have hcorr : ∀ v, (correlates t ∘ backfilled previous) v = true ↔ Resembles previous t v :=
    fun _ => correlates_backfilled
  simp only [List.find?_eq_some_iff_append, hcorr, Bool.not_eq_true', ← Bool.not_eq_true]

theorem backfilled_twice_iff (ht : t ∈ incoming) :
    backfilled (incoming.map (backfilled previous)) t = backfilled previous t ↔
      ∀ before u after, incoming = before ++ u :: after → u ≠ t → Resembles previous t u →
        (∀ v ∈ before, ¬ Resembles previous t v) → TellsNothingElse previous t u := by
  have hdonor : donor (incoming.map (backfilled previous)) t =
      (incoming.find? (correlates t ∘ backfilled previous)).map (backfilled previous) :=
    List.find?_map
  constructor
  · intro h before u after heq _ hu hbefore
    have hfirst := (donor_twice u).2 ⟨hu, before, after, heq, hbefore⟩
    rw [hfirst, Option.map_some] at hdonor
    rw [backfilled_of_some hdonor] at h
    exact backfillTrack_backfilled.1 h
  · intro h
    rcases hfirst : incoming.find? (correlates t ∘ backfilled previous) with _ | u
    · rw [hfirst, Option.map_none] at hdonor
      have hself : ¬ Resembles previous t t := fun hself =>
        List.find?_eq_none.1 hfirst t ht (correlates_backfilled.2 hself)
      have hnone : donor previous t = none := by
        rw [Option.eq_none_iff_forall_ne_some]
        exact fun c hc => hself (resembles_self (correlates_of_donor hc))
      rw [backfilled_of_none hdonor, backfilled_of_none hnone]
    · rw [hfirst, Option.map_some] at hdonor
      obtain ⟨hu, before, after, heq, hbefore⟩ := (donor_twice u).1 hfirst
      rw [backfilled_of_some hdonor]
      refine backfillTrack_backfilled.2 ?_
      by_cases hut : u = t
      · rw [hut]
        exact tellsNothingElse_self
      · exact h before u after heq hut hu hbefore

/-- Merging a reading twice merges it once exactly when no two of its tracks are mistaken. -/
theorem mergeTracks_twice_iff (incoming previous : List CanonicalDistributorTrack) :
    mergeTracks incoming (mergeTracks incoming previous) = mergeTracks incoming previous ↔
      Unmistaken previous incoming := by
  rcases eq_or_ne incoming [] with rfl | hne
  · rw [mergeTracks_nil, mergeTracks_nil]
    exact iff_of_true rfl fun t ht => absurd ht List.not_mem_nil
  · rw [mergeTracks_eq hne, mergeTracks_eq hne, List.map_inj_left]
    exact forall₂_congr fun t ht => backfilled_twice_iff ht

theorem ite_twice {α : Type} (own : Bool) (other : α → Bool) (x y : α) :
    (if own && other (if own && other y then y else x) then (if own && other y then y else x) else x) =
      if own && other y then y else x := by
  by_cases h : (own && other y) = true
  · simp only [h, if_true]
  · simp only [h, Bool.false_eq_true, if_false, ite_self]

theorem strongerEvidence_twice (current alternative : MetadataField String) :
    strongerEvidence current (strongerEvidence current alternative) =
      strongerEvidence current alternative := by
  unfold strongerEvidence
  split <;> simp [*]

theorem strongerEvidence?_twice (current alternative : Option (MetadataField String)) :
    strongerEvidence? current (strongerEvidence? current alternative) =
      strongerEvidence? current alternative := by
  cases alternative with
  | none =>
    cases current with
    | none => rfl
    | some current => simp [strongerEvidence?, strongerEvidence]
  | some alternative =>
    cases current with
    | none => rfl
    | some current => exact congrArg some (strongerEvidence_twice current alternative)

/-- Only the tracks of a release can make a second merge of one reading differ from the first. -/
theorem mergeCanonicalRelease_twice_iff (incoming previous : CanonicalDistributorRelease) :
    mergeCanonicalRelease incoming (mergeCanonicalRelease incoming previous) =
        mergeCanonicalRelease incoming previous ↔
      Unmistaken previous.tracks incoming.tracks := by
  rw [← mergeTracks_twice_iff]
  constructor
  · intro h
    exact congrArg (·.tracks) h
  · intro h
    have htitle := ite_twice (isBlank incoming.title) (fun title => !isBlank title) incoming.title previous.title
    have hartist := ite_twice (incoming.primaryArtist.all isBlank) (fun artist => !artist.all isBlank)
      incoming.primaryArtist previous.primaryArtist
    have hfeatured := ite_twice (incoming.featuredArtists.all List.isEmpty)
      (fun artists => !artists.all List.isEmpty) incoming.featuredArtists previous.featuredArtists
    rw [mergeCanonicalRelease, CanonicalDistributorRelease.mk.injEq]
    exact ⟨rfl, htitle, hartist, hfeatured, strongerEvidence_twice _ _, strongerEvidence_twice _ _,
      strongerEvidence_twice _ _, strongerEvidence?_twice _ _, strongerEvidence?_twice _ _, rfl, h⟩

end Twice

/-- The same outcome converged a second time changes nothing. -/
def ConvergesOnce (previous : Option ReleaseExtractionOutcome) (incoming : ReleaseExtractionOutcome) :
    Prop :=
  convergeReleaseRetryOutcome (some (convergeReleaseRetryOutcome previous incoming)) incoming =
    convergeReleaseRetryOutcome previous incoming

/-- The tracks a completed checkpoint offers to the retry. -/
def checkpointTracks (previous : Option ReleaseExtractionOutcome) : List CanonicalDistributorTrack :=
  (previous.bind (·.release?)).elim [] (·.tracks)

theorem mergeCanonicalRelease_noTracks (incoming : CanonicalDistributorRelease) :
    mergeCanonicalRelease incoming { incoming with tracks := [] } = incoming := by
  have htracks : mergeTracks incoming.tracks [] = incoming.tracks := by
    rcases incoming.tracks with _ | ⟨t, tracks⟩
    · rfl
    · rw [mergeTracks_eq (List.cons_ne_nil t tracks)]
      exact List.map_id _
  have hfield : ∀ field : MetadataField String, strongerEvidence field field = field :=
    fun field => ite_self field
  have hfield? : ∀ field : Option (MetadataField String), strongerEvidence? field field = field := by
    rintro (_ | field)
    · rfl
    · exact congrArg some (hfield field)
  rw [mergeCanonicalRelease, CanonicalDistributorRelease.mk.injEq]
  exact ⟨rfl, ite_self _, ite_self _, ite_self _, hfield _, hfield _, hfield _, hfield? _, hfield? _, rfl,
    htracks⟩

theorem mergeCanonicalRelease_self_iff (incoming : CanonicalDistributorRelease) :
    mergeCanonicalRelease incoming incoming = incoming ↔ Unmistaken [] incoming.tracks := by
  have h := mergeCanonicalRelease_twice_iff incoming { incoming with tracks := [] }
  rwa [mergeCanonicalRelease_noTracks] at h

theorem endpointFingerprint_twice (incoming previous : Option String) :
    (if isTruthy incoming || isTruthy (if isTruthy incoming || isTruthy previous
        then incoming.or previous else incoming)
      then incoming.or (if isTruthy incoming || isTruthy previous
        then incoming.or previous else incoming) else incoming) =
      if isTruthy incoming || isTruthy previous then incoming.or previous else incoming := by
  rcases incoming with _ | incoming
  · by_cases h : isTruthy previous = true
    · simp [h]
    · have hnone : isTruthy none = false := rfl
      simp [h, hnone]
  · simp

theorem convergesOnce_fresh (incoming : ReleaseExtractionOutcome) :
    convergeReleaseRetryOutcome (some incoming) incoming = incoming ↔
      ∀ release ∈ incoming.release?, Unmistaken [] release.tracks := by
  cases incoming with
  | completed release source elapsedMs fingerprint =>
    have hfingerprint : (if isTruthy fingerprint || isTruthy fingerprint
        then fingerprint.or fingerprint else fingerprint) = fingerprint := by
      rw [Option.or_self, ite_self]
    simp only [convergeReleaseRetryOutcome, release?, Option.mem_some_iff, forall_eq',
      completed.injEq, hfingerprint, and_true, mergeCanonicalRelease_self_iff]
  | failed distributorReleaseId reason detail elapsedMs fingerprint =>
    exact iff_of_true rfl fun release h => by cases h
  | skipped distributorReleaseId reason => exact iff_of_true rfl fun release h => by cases h

/-- Converging an outcome twice converges it once exactly when no two of its tracks are mistaken for
each other. -/
theorem converge_twice_iff (previous : Option ReleaseExtractionOutcome) (incoming : ReleaseExtractionOutcome)
    (i p : CanonicalDistributorRelease) :
    (ConvergesOnce previous incoming ↔
      ∀ release ∈ incoming.release?, Unmistaken (checkpointTracks previous) release.tracks) ∧
    (mergeCanonicalRelease i (mergeCanonicalRelease i p) = mergeCanonicalRelease i p ↔
      Unmistaken p.tracks i.tracks) := by
  refine ⟨?_, mergeCanonicalRelease_twice_iff i p⟩
  rcases previous with _ | previous
  · exact convergesOnce_fresh incoming
  cases previous with
  | completed previous source elapsedMs fingerprint =>
    cases incoming with
    | completed incoming source' elapsedMs' fingerprint' =>
      simp only [ConvergesOnce, convergeReleaseRetryOutcome, release?, Option.mem_some_iff,
        forall_eq', completed.injEq, endpointFingerprint_twice, and_true]
      exact mergeCanonicalRelease_twice_iff incoming previous
    | failed => exact iff_of_true rfl fun release h => by cases h
    | skipped => exact iff_of_true rfl fun release h => by cases h
  | failed => exact convergesOnce_fresh incoming
  | skipped => exact convergesOnce_fresh incoming

/-- The second time, the second track takes what the first has for the title they share, and loses
the ISRC it took from the checkpoint for its number. -/
theorem converge_twice_equalTitles :
    ¬ ConvergesOnce
      (some (.completed (sampleReading [sampleTrack (some 2) "Intro (Live)" (some "B")]) .networkJson 1 none))
      (.completed (sampleReading [sampleTrack (some 1) "Intro" none, sampleTrack (some 2) "Intro" none])
        .networkJson 1 none) := by
  unfold ConvergesOnce
  decide

/-! ### What survives a retry -/

/-- The earlier field stays, unless the retry has one that is present too. -/
def FieldSurvives (previous incoming merged : Option (MetadataField String)) : Prop :=
  ∀ field ∈ previous, field.isPresent = true →
    merged = previous ∨ ∃ own ∈ incoming, own.isPresent = true ∧ merged = incoming

def hasIsrc (track : CanonicalDistributorTrack) : Bool := track.isrc.isPresent

def isrcOf (track : CanonicalDistributorTrack) : MetadataFieldStatus × Option String :=
  (track.isrc.status, track.isrc.value)

def hasLyrics (track : CanonicalDistributorTrack) : Bool := track.lyrics.isSome

def hasEither (track : CanonicalDistributorTrack) : Bool := hasIsrc track || hasLyrics track

/-- The merged track at `k` is the earlier one, or an incoming track for it, with the ISRC and the
lyrics of the earlier one unless it has its own. -/
def SurvivesAt (incoming merged : List CanonicalDistributorTrack) (q : CanonicalDistributorTrack)
    (k : ℕ) : Prop :=
  merged[k]? = some q ∨ ∃ t r, incoming[k]? = some t ∧ merged[k]? = some r ∧ correlates t q = true ∧
    (hasIsrc q = true → hasIsrc t = true ∨ isrcOf r = isrcOf q) ∧
    (hasLyrics q = true → hasLyrics t = true ∨ r.lyrics = q.lyrics)

/-- Each earlier track with an ISRC or lyrics has a place of its own. -/
def EachAt (standsAt : CanonicalDistributorTrack → ℕ → Prop) (previous : List CanonicalDistributorTrack) :
    Prop :=
  ∃ place : ℕ → ℕ, Set.InjOn place {i | previous[i]?.any hasEither = true} ∧
    ∀ i, ∀ q ∈ previous[i]?, hasEither q = true → standsAt q (place i)

def ListsStores (stores : Option (List SubmittedStore)) : Prop := ∃ listed ∈ stores, listed ≠ []

structure LosesNothing (previous : CanonicalDistributorRelease)
    (incoming : Option CanonicalDistributorRelease) (merged : CanonicalDistributorRelease) : Prop where
  upc : FieldSurvives (some previous.upc) (incoming.map (·.upc)) (some merged.upc)
  artworkUrl : FieldSurvives (some previous.artworkUrl) (incoming.map (·.artworkUrl)) (some merged.artworkUrl)
  releaseDate : FieldSurvives (some previous.releaseDate) (incoming.map (·.releaseDate))
    (some merged.releaseDate)
  label : FieldSurvives previous.label (incoming.bind (·.label)) merged.label
  uploadDate : FieldSurvives previous.uploadDate (incoming.bind (·.uploadDate)) merged.uploadDate
  stores : ListsStores previous.submittedStores → ¬ ListsStores (incoming.bind (·.submittedStores)) →
    merged.submittedStores = previous.submittedStores
  tracks : EachAt (SurvivesAt (incoming.elim [] (·.tracks)) merged.tracks) previous.tracks

/-- The incoming track at `k` is the earlier one, or is correlated with it and has an ISRC again, or the
ISRC of the first earlier track that it is correlated with, and lyrics again. -/
def ReadAgainAt (previous incoming : List CanonicalDistributorTrack) (q : CanonicalDistributorTrack)
    (k : ℕ) : Prop :=
  ∃ t ∈ incoming[k]?, t = q ∨ correlates t q = true ∧
    (hasIsrc q = true → hasIsrc t = true ∨ ∃ d ∈ donor previous t, isrcOf d = isrcOf q) ∧
    (hasLyrics q = true → hasLyrics t = true)

/-- The retry lists the stores again, and reads each track with an ISRC or lyrics again, or none. -/
structure Covers (previous incoming : CanonicalDistributorRelease) : Prop where
  stores : ListsStores previous.submittedStores → ListsStores incoming.submittedStores
  tracks : incoming.tracks = [] ∨ EachAt (ReadAgainAt previous.tracks incoming.tracks) previous.tracks

end CatalogSentinel.Distrokid
