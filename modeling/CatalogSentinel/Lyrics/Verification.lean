import Mathlib.Data.Rat.Floor
import CatalogSentinel.Concurrent.Workers
import CatalogSentinel.Stores.Names

/-!
The check of which stores show a track's lyrics. Tracks are looked up chunk by chunk, several at
a time; a release is written once no later chunk holds a track of it. Every release that has
tracks is written once, with the verdicts of its own tracks.
-/

namespace CatalogSentinel.Lyrics

open Concurrent Data

structure LyricScanTargetTrack where
  trackIndex : ℕ
  title : Option String
  primaryArtist : Option String
  deriving DecidableEq

structure LyricScanTarget where
  releaseOutcomeId : String
  releaseArtist : Option String
  tracks : List LyricScanTargetTrack
  deriving DecidableEq

structure SongLyricEvidence where
  shownStores : List String
  lyricfindDistributed : Bool
  lyricfindUrl : Option String
  deriving DecidableEq

inductive LyricStatus
  | found
  | notFound
  | unverifiable
  deriving DecidableEq

structure Verdict where
  perStore : List (String × String)
  status : LyricStatus
  hasPlain : Bool
  hasSynced : Bool
  lyricfindDistributed : Bool
  lyricfindUrl : Option String
  deriving DecidableEq

def toStoreVerdict (evidence : SongLyricEvidence) : Verdict :=
  let shown := !evidence.shownStores.isEmpty
  { perStore := evidence.shownStores.map fun store => (store, "shown")
    status := if shown then .found else if evidence.lyricfindDistributed then .notFound else .unverifiable
    hasPlain := shown
    hasSynced := false
    lyricfindDistributed := evidence.lyricfindDistributed
    lyricfindUrl := evidence.lyricfindUrl }

def emptyVerdict : Verdict :=
  { perStore := [], status := .unverifiable, hasPlain := false, hasSynced := false,
    lyricfindDistributed := false, lyricfindUrl := none }

structure WorkItem where
  releaseOutcomeId : String
  trackIndex : ℕ
  title : Option String
  artist : String
  deriving DecidableEq

def workOf (targets : List LyricScanTarget) : List WorkItem :=
  targets.flatMap fun target =>
    target.tracks.map fun t =>
      { releaseOutcomeId := target.releaseOutcomeId
        trackIndex := t.trackIndex
        title := t.title
        artist := trim (orElse (t.primaryArtist.getD "") (trim (target.releaseArtist.getD ""))) }

structure StoreLyricVerdict where
  releaseOutcomeId : String
  trackIndex : ℕ
  verdict : Verdict
  deriving DecidableEq

/-- What the lookup of each item comes to: the resolver may answer or fail, each time anew. -/
abbrev Lookup := ℕ → String → String → Option SongLyricEvidence

variable (lookup : Lookup)

/-- The verdict of an item, and whether it counts as a failure. -/
def verify (i : ℕ) (w : WorkItem) : StoreLyricVerdict × Bool :=
  let (verdict, failed) : Verdict × Bool :=
    match w.title with
    | none => (emptyVerdict, true)
    | some title =>
      if trim title = "" then (emptyVerdict, true)
      else
        match lookup i w.artist title with
        | some evidence => (toStoreVerdict evidence, false)
        | none => (emptyVerdict, true)
  (⟨w.releaseOutcomeId, w.trackIndex, verdict⟩, failed)

structure Update where
  trackIndex : ℕ
  verdict : Verdict
  source : String
  deriving DecidableEq

inductive ProgressStatus
  | running
  | done
  | error
  deriving DecidableEq

inductive Call
  | updateStoreLyrics (releaseOutcomeId : String) (updates : List Update)
  | setStoreLyricsProgress (status : ProgressStatus) (checked total : ℕ)
  deriving DecidableEq

structure Run where
  start : ℕ
  verdicts : List (StoreLyricVerdict × Bool)
  flushed : List String
  calls : List Call
  deriving DecidableEq

def updatesFor (verdicts : List (StoreLyricVerdict × Bool)) (releaseOutcomeId : String) : List Update :=
  (verdicts.filter fun v => v.1.releaseOutcomeId = releaseOutcomeId).map fun v => ⟨v.1.trackIndex, v.1.verdict, "serper"⟩

def flushRelease (s : Run) (releaseOutcomeId : String) : Run :=
  if releaseOutcomeId ∈ s.flushed then s
  else
    let updates := updatesFor s.verdicts releaseOutcomeId
    { s with
      flushed := s.flushed ++ [releaseOutcomeId]
      calls := if updates = [] then s.calls else s.calls ++ [.updateStoreLyrics releaseOutcomeId updates] }

variable (work : List WorkItem)

/-- Write the releases that the work so far has dealt with, unless they are pending. -/
def flush (s : Run) : Run :=
  let stillPending := (work.drop s.start).map (·.releaseOutcomeId)
  ((work.take s.start).map (·.releaseOutcomeId)).eraseDups.foldl
    (fun s id => if id ∈ stillPending then s else flushRelease s id) s

/-- One chunk, whose lookups go on in the order of the schedule until all have ended. -/
def pass (trackConcurrency chunkSize : ℕ) (s : Run) (schedule : List ℕ) : Option Run :=
  let chunk := (work.drop s.start).take chunkSize
  (Steps.run (Workers.step chunk fun w i => verify lookup (s.start + i) w)
    (Workers.start chunk trackConcurrency) schedule).bind fun pool =>
      if Workers.Finished pool then
        let checked := flush work { s with
          start := min (s.start + chunkSize) work.length
          verdicts := s.verdicts ++ pool.results.reduceOption }
        some { checked with calls := checked.calls ++ [.setStoreLyricsProgress .running checked.start work.length] }
      else none

def passes (trackConcurrency chunkSize : ℕ) : Run → List (List ℕ) → Option Run
  | s, [] => if s.start < work.length then none else some s
  | s, schedule :: schedules =>
    if s.start < work.length then
      (pass lookup work trackConcurrency chunkSize s schedule).bind fun s => passes trackConcurrency chunkSize s schedules
    else none

inductive Thrown
  | configuration (name : String)
  | allFailed
  deriving DecidableEq

/-- The updates of one release in a run's calls. -/
def written (calls : List Call) (releaseOutcomeId : String) : List (List Update) :=
  calls.filterMap fun
    | .updateStoreLyrics id updates => if id = releaseOutcomeId then some updates else none
    | .setStoreLyricsProgress .. => none

def reported (calls : List Call) : List ℕ :=
  calls.filterMap fun
    | .updateStoreLyrics .. => none
    | .setStoreLyricsProgress _ checked _ => some checked

/-- The updates that a release is owed: those of its tracks, each with its own verdict. -/
def owed (releaseOutcomeId : String) : List Update :=
  updatesFor (work.mapIdx (verify lookup)) releaseOutcomeId

variable {lookup work}

@[simp] theorem verify_releaseOutcomeId (i : ℕ) (w : WorkItem) :
    (verify lookup i w).1.releaseOutcomeId = w.releaseOutcomeId := rfl

theorem written_append (calls more : List Call) (id : String) :
    written (calls ++ more) id = written calls id ++ written more id := List.filterMap_append

theorem reported_append (calls more : List Call) : reported (calls ++ more) = reported calls ++ reported more :=
  List.filterMap_append

/-- The verdicts of the first items. -/
def verdictsUpTo (lookup : Lookup) (work : List WorkItem) (n : ℕ) : List (StoreLyricVerdict × Bool) :=
  (work.take n).mapIdx (verify lookup)

theorem updatesFor_append (us vs : List (StoreLyricVerdict × Bool)) (id : String) :
    updatesFor (us ++ vs) id = updatesFor us id ++ updatesFor vs id := by
  simp only [updatesFor, List.filter_append, List.map_append]

theorem verdictsUpTo_append (n m : ℕ) :
    verdictsUpTo lookup work (n + m) =
      verdictsUpTo lookup work n ++ ((work.drop n).take m).mapIdx fun i w => verify lookup (min n work.length + i) w := by
  rw [verdictsUpTo, List.take_add, List.mapIdx_append, List.length_take, verdictsUpTo]
  simp only [Nat.add_comm]

/-- A release that is not pending has been dealt with. -/
theorem updatesFor_eq_owed {n : ℕ} {id : String} (h : id ∉ (work.drop n).map (·.releaseOutcomeId)) :
    updatesFor (verdictsUpTo lookup work n) id = owed lookup work id := by
  have hsplit : work.mapIdx (verify lookup) = verdictsUpTo lookup work n ++
      (work.drop n).mapIdx fun i w => verify lookup (i + (work.take n).length) w := by
    conv_lhs => rw [← List.take_append_drop n work]
    rw [List.mapIdx_append, verdictsUpTo]
  have hrest : updatesFor ((work.drop n).mapIdx fun i w => verify lookup (i + (work.take n).length) w) id = [] := by
    rw [updatesFor, List.map_eq_nil_iff, List.filter_eq_nil_iff]
    intro v hv
    obtain ⟨i, hi, rfl⟩ := List.mem_mapIdx.1 hv
    rw [verify_releaseOutcomeId, decide_eq_true_eq]
    rintro rfl
    exact h (List.mem_map_of_mem (List.getElem_mem hi))
  rw [owed, hsplit, updatesFor_append, hrest, List.append_nil]

theorem owed_ne_nil {id : String} (h : id ∈ work.map (·.releaseOutcomeId)) : owed lookup work id ≠ [] := by
  obtain ⟨w, hw, rfl⟩ := List.mem_map.1 h
  obtain ⟨i, hi, rfl⟩ := List.getElem_of_mem hw
  rw [owed, updatesFor, Ne, List.map_eq_nil_iff, List.filter_eq_nil_iff]
  intro hnone
  exact hnone (verify lookup i work[i]) (List.mem_mapIdx.2 ⟨i, hi, rfl⟩) (by simp)

/-- What is flushed has been written once, with what it is owed. -/
structure Ledger (lookup : Lookup) (work : List WorkItem) (s : Run) : Prop where
  verdicts : s.verdicts = verdictsUpTo lookup work s.start
  dealt : ∀ id ∈ s.flushed, id ∈ (work.take s.start).map (·.releaseOutcomeId)
  settled : ∀ id ∈ s.flushed, id ∉ (work.drop s.start).map (·.releaseOutcomeId)
  once : ∀ id, written s.calls id = if id ∈ s.flushed then [owed lookup work id] else []

theorem Ledger.flushRelease {s : Run} (h : Ledger lookup work s) {id : String}
    (hdealt : id ∈ (work.take s.start).map (·.releaseOutcomeId))
    (hsettled : id ∉ (work.drop s.start).map (·.releaseOutcomeId)) :
    Ledger lookup work (flushRelease s id) ∧ (flushRelease s id).start = s.start ∧
      (∀ x, x ∈ (flushRelease s id).flushed ↔ x ∈ s.flushed ∨ x = id) ∧
      reported (flushRelease s id).calls = reported s.calls := by
  rw [Lyrics.flushRelease]
  split
  · next hmem =>
    refine ⟨h, rfl, fun x => ⟨.inl, ?_⟩, rfl⟩
    rintro (hx | rfl)
    · exact hx
    · exact hmem
  · next hnew =>
    have hupdates : updatesFor s.verdicts id = owed lookup work id := by
      rw [h.verdicts, updatesFor_eq_owed hsettled]
    have hne : owed lookup work id ≠ [] := by
      apply owed_ne_nil
      rw [← List.take_append_drop s.start work, List.map_append]
      exact List.mem_append_left _ hdealt
    simp only [hupdates, hne, if_false]
    refine ⟨⟨h.verdicts, fun x hx => ?_, fun x hx => ?_, fun x => ?_⟩, trivial, fun x => by simp, ?_⟩
    · rcases List.mem_append.1 hx with hx | hx
      · exact h.dealt x hx
      · exact List.mem_singleton.1 hx ▸ hdealt
    · rcases List.mem_append.1 hx with hx | hx
      · exact h.settled x hx
      · exact List.mem_singleton.1 hx ▸ hsettled
    · rw [written_append, h.once]
      by_cases hx : x = id
      · subst hx
        simp [hnew, written]
      · simp [written, hx, Ne.symm hx]
    · rw [reported_append]
      simp [reported]

theorem Ledger.flush_foldl {s : Run} (h : Ledger lookup work s) (ids : List String)
    (hids : ∀ id ∈ ids, id ∈ (work.take s.start).map (·.releaseOutcomeId)) :
    let t := ids.foldl (fun t id =>
      if id ∈ (work.drop s.start).map (·.releaseOutcomeId) then t else Lyrics.flushRelease t id) s
    Ledger lookup work t ∧ t.start = s.start ∧ reported t.calls = reported s.calls ∧
      (∀ id, id ∈ s.flushed ∨ id ∈ ids ∧ id ∉ (work.drop s.start).map (·.releaseOutcomeId) → id ∈ t.flushed) := by
  generalize hn : s.start = n at hids
  induction ids generalizing s with
  | nil => exact ⟨h, hn, rfl, fun id hid => hid.resolve_right fun hnil => absurd hnil.1 List.not_mem_nil⟩
  | cons id ids ih =>
    have hrest : ∀ id ∈ ids, id ∈ (work.take n).map (·.releaseOutcomeId) :=
      fun x hx => hids x (List.mem_cons_of_mem id hx)
    rw [List.foldl_cons]
    split
    · next hpending =>
      obtain ⟨hledger, hstart, hreported, hflushed⟩ := ih h hn hrest
      refine ⟨hledger, hstart, hreported, fun x hx => hflushed x (hx.imp_right ?_)⟩
      rintro ⟨hmem, hsettled⟩
      rcases List.mem_cons.1 hmem with rfl | hmem
      · exact absurd hpending hsettled
      · exact ⟨hmem, hsettled⟩
    · next hsettled =>
      subst hn
      obtain ⟨hnext, hstart, hflush, hsame⟩ := h.flushRelease (hids id List.mem_cons_self) hsettled
      obtain ⟨hledger, hstart', hreported, hflushed⟩ := ih hnext hstart hrest
      refine ⟨hledger, hstart', hreported.trans hsame, fun x hx => hflushed x ?_⟩
      rcases hx with hx | ⟨hmem, hx⟩
      · exact .inl ((hflush x).2 (.inl hx))
      · rcases List.mem_cons.1 hmem with rfl | hmem
        · exact .inl ((hflush x).2 (.inr rfl))
        · exact .inr ⟨hmem, hx⟩

/-! ### Chunks -/

/-- After each chunk: what is dealt with is written, and counts have gone up to here. -/
structure Books (lookup : Lookup) (work : List WorkItem) (s : Run) : Prop where
  ledger : Ledger lookup work s
  start_le : s.start ≤ work.length
  complete : ∀ id ∈ (work.take s.start).map (·.releaseOutcomeId),
    id ∉ (work.drop s.start).map (·.releaseOutcomeId) → id ∈ s.flushed
  upwards : (reported s.calls).Pairwise (· ≤ ·)
  below : ∀ n ∈ reported s.calls, n ≤ s.start

variable (lookup work) in
theorem books_start : Books lookup work ⟨0, [], [], [.setStoreLyricsProgress .running 0 work.length]⟩ where
  ledger := ⟨by simp [verdictsUpTo], by simp, by simp, by simp [written]⟩
  start_le := Nat.zero_le _
  complete := by simp
  upwards := List.pairwise_singleton _ _
  below := fun n hn => Nat.le_of_eq (List.mem_singleton.1 hn)

theorem reduceOption_mapIdx {α β : Type} (f : ℕ → α → β) (xs : List α) :
    (xs.mapIdx fun i x => some (f i x)).reduceOption = xs.mapIdx f := by
  have hmap : (xs.mapIdx fun i x => some (f i x)) = (xs.mapIdx f).map some := by
    apply List.ext_getElem?
    intro i
    rw [List.getElem?_mapIdx, List.getElem?_map, List.getElem?_mapIdx, Option.map_map]
    rfl
  rw [hmap]
  exact List.filterMap_map.trans List.filterMap_some

theorem Books.pass {trackConcurrency chunkSize : ℕ} {s t : Run} {schedule : List ℕ} (h : Books lookup work s)
    (hpos : 0 < trackConcurrency) (hpass : Lyrics.pass lookup work trackConcurrency chunkSize s schedule = some t) :
    Books lookup work t ∧ t.start = min (s.start + chunkSize) work.length := by
  obtain ⟨pool, hrun, hpool⟩ := Option.bind_eq_some_iff.1 hpass
  split at hpool
  case isFalse => cases hpool
  case isTrue hfinished =>
    have hresults := Workers.results_eq hpos hrun hfinished
    set next : Run := { s with
      start := min (s.start + chunkSize) work.length
      verdicts := s.verdicts ++ pool.results.reduceOption } with hnext
    have hle : s.start ≤ next.start := Nat.le_min.2 ⟨Nat.le_add_right _ _, h.start_le⟩
    have htake {id : String} (hid : id ∈ (work.take s.start).map (·.releaseOutcomeId)) :
        id ∈ (work.take next.start).map (·.releaseOutcomeId) :=
      List.map_subset _ (List.take_subset_take_left work hle) hid
    have hdrop {id : String} (hid : id ∈ (work.drop next.start).map (·.releaseOutcomeId)) :
        id ∈ (work.drop s.start).map (·.releaseOutcomeId) :=
      List.map_subset _ (List.drop_subset_drop_left work hle) hid
    have hledger : Ledger lookup work next := by
      refine ⟨?_, fun id hid => htake (h.ledger.dealt id hid),
        fun id hid hpending => h.ledger.settled id hid (hdrop hpending), h.ledger.once⟩
      have hverdicts : verdictsUpTo lookup work next.start = verdictsUpTo lookup work (s.start + chunkSize) :=
        congrArg (fun taken => taken.mapIdx (verify lookup)) List.take_eq_take_min.symm
      rw [hverdicts, verdictsUpTo_append, Nat.min_eq_left h.start_le, ← h.ledger.verdicts, hnext, hresults,
        reduceOption_mapIdx]
    obtain ⟨hflushed, hstart, hreported, hcomplete⟩ := hledger.flush_foldl
      ((work.take next.start).map (·.releaseOutcomeId)).eraseDups fun id hid => List.mem_eraseDups.1 hid
    change Ledger lookup work (flush work next) at hflushed
    change (flush work next).start = next.start at hstart
    change reported (flush work next).calls = reported s.calls at hreported
    obtain rfl := Option.some.inj hpool
    refine ⟨⟨⟨hflushed.verdicts, hflushed.dealt, hflushed.settled, fun id => ?_⟩, ?_, fun id hid hsettled => ?_, ?_, ?_⟩,
      hstart⟩
    · rw [written_append, hflushed.once]
      exact List.append_nil _
    · exact hstart.le.trans (Nat.min_le_right _ _)
    · rw [hstart] at hid hsettled
      exact hcomplete id (.inr ⟨List.mem_eraseDups.2 hid, hsettled⟩)
    · rw [reported_append, hreported, hstart]
      exact List.pairwise_append.2 ⟨h.upwards, List.pairwise_singleton _ _, fun n hn m hm =>
        (h.below n hn).trans (hle.trans (List.mem_singleton.1 hm).ge)⟩
    · intro n hn
      rw [reported_append, hreported, List.mem_append] at hn
      rcases hn with hn | hn
      · exact (h.below n hn).trans (hle.trans hstart.ge)
      · exact (List.mem_singleton.1 hn).le

theorem Books.passes {trackConcurrency chunkSize : ℕ} {s t : Run} {schedules : List (List ℕ)}
    (h : Books lookup work s) (hpos : 0 < trackConcurrency)
    (hpasses : Lyrics.passes lookup work trackConcurrency chunkSize s schedules = some t) :
    Books lookup work t ∧ t.start = work.length := by
  induction schedules generalizing s with
  | nil =>
    rw [Lyrics.passes] at hpasses
    split at hpasses
    · cases hpasses
    · next hend =>
      obtain rfl := Option.some.inj hpasses
      exact ⟨h, h.start_le.antisymm (Nat.not_lt.1 hend)⟩
  | cons schedule schedules ih =>
    rw [Lyrics.passes] at hpasses
    split at hpasses
    · obtain ⟨next, hpass, hrest⟩ := Option.bind_eq_some_iff.1 hpasses
      exact ih (h.pass hpos hpass).1 hrest
    · cases hpasses

/-- An integer within the bounds. -/
def Within (raw : ℚ) (min max : ℕ) : Prop := ∃ n : ℕ, raw = n ∧ min ≤ n ∧ n ≤ max

/-- The settings that a run is started with. -/
def Admitted (trackConcurrency chunkSize : ℚ) : Prop := Within trackConcurrency 1 16 ∧ Within chunkSize 1 200

/-- One release of two tracks, of which only the first is found. -/
def twoTracks : List LyricScanTarget := [⟨"R1", some "Artist", [⟨1, some "One", none⟩, ⟨2, some "Two", none⟩]⟩]

end CatalogSentinel.Lyrics
