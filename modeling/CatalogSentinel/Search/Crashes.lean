import Mathlib.Data.List.Infix
import CatalogSentinel.Search.Retries

/-!
A job of the deep scan: attempts on one record, each of which reads what the one before
it has stored. An attempt is cut off at some point before its last chunk, or fails, and
the last one runs to its end.
-/

namespace CatalogSentinel.Search.DeepScan

/-! ### Jobs -/

section Job

variable (A : Resolver) (cfg : Config) (expectedTenantId : Option String)

/-- The record after these updates of it. -/
def stored (record : SearchRecord Scan) (ms : List Mutation) : SearchRecord Scan :=
  ms.foldl (fun r m => applySearchMutation r m.mutate) record

/-- The attempt may be over after so many updates: a chunk is still to come, or it has
failed. -/
def Interrupts (record : SearchRecord Scan) (point : ℕ) : Prop :=
  ((attempt A cfg expectedTenantId record).1.drop point).any Mutation.isChunk ∨
    point = (attempt A cfg expectedTenantId record).1.length ∧
      ∃ e, (attempt A cfg expectedTenantId record).2 = .error e

/-- What is left of the record where an attempt is over. -/
def cutOff (record : SearchRecord Scan) (point : ℕ) : SearchRecord Scan :=
  stored record ((attempt A cfg expectedTenantId record).1.take point)

/-- The attempts may be over at these points, one after the other. -/
def Crashes : SearchRecord Scan → List ℕ → Prop
  | _, [] => True
  | record, point :: points => Interrupts A cfg expectedTenantId record point ∧
    Crashes (cutOff A cfg expectedTenantId record point) points

/-- The record after the job, whose attempts before the last are over at these points. -/
def resume : SearchRecord Scan → List ℕ → SearchRecord Scan
  | record, [] => stored record (attempt A cfg expectedTenantId record).1
  | record, point :: points => resume (cutOff A cfg expectedTenantId record point) points

/-- All that is stored of the record during the job. -/
def storedStates : SearchRecord Scan → List ℕ → List (SearchRecord Scan)
  | record, [] => (attempt A cfg expectedTenantId record).1.inits.map (stored record)
  | record, point :: points =>
    ((attempt A cfg expectedTenantId record).1.take point).inits.map (stored record) ++
      storedStates (cutOff A cfg expectedTenantId record point) points

/-- Every update advances the revision, and attempts differ in how many they make. -/
def unrevised (record : SearchRecord Scan) : SearchRecord Scan := { record with revision := none }

end Job

/-! ### Updates of a record -/

section Stored

theorem stored_append (record : SearchRecord Scan) (ms ms' : List Mutation) :
    stored record (ms ++ ms') = stored (stored record ms) ms' := List.foldl_append

@[simp] theorem stored_body (record : SearchRecord Scan) (ms : List Mutation) :
    (stored record ms).body = ms.foldl Mutation.apply record.body := by
  induction ms generalizing record with
  | nil => rfl
  | cons m ms ih => exact ih _

@[simp] theorem stored_userId (record : SearchRecord Scan) (ms : List Mutation) :
    (stored record ms).userId = record.userId := by
  induction ms generalizing record with
  | nil => rfl
  | cons m ms ih => exact ih _

/-- What every update makes of the fields that it has no say in. -/
def settledFields (record : SearchRecord Scan) (body : Scan) : SearchRecord Scan where
  id := record.id
  revision := none
  userId := record.userId
  sourceSearchId := record.sourceSearchId.filter (· ≠ "")
  createdAt := record.createdAt
  body := body

theorem settledFields_applySearchMutation (record : SearchRecord Scan) (m : Mutation) (body : Scan) :
    settledFields (applySearchMutation record m.mutate) body = settledFields record body := by
  unfold settledFields applySearchMutation
  simp only [Option.filter_filter, Bool.and_self]

theorem settledFields_stored (record : SearchRecord Scan) (ms : List Mutation) (body : Scan) :
    settledFields (stored record ms) body = settledFields record body := by
  induction ms generalizing record with
  | nil => rfl
  | cons m ms ih => exact (ih _).trans (settledFields_applySearchMutation record m body)

theorem unrevised_stored (record : SearchRecord Scan) {ms : List Mutation} (h : ms ≠ []) :
    unrevised (stored record ms) = settledFields record (ms.foldl Mutation.apply record.body) := by
  obtain ⟨before, m, rfl⟩ := (List.eq_nil_or_concat ms).resolve_left h
  rw [List.concat_eq_append, ← settledFields_stored record before,
    ← stored_body record (before ++ [m]), stored_append]
  rfl

end Stored

/-! ### Two tracks -/

/-- It knows every track in every store, but is cut off from one of them. -/
def agreeable : Resolver where
  prepare store := if store = "Offline" then .error "unreachable" else .ok ()
  warnings _ := []
  verify _ _ := ⟨.live, none, none, 1, false, none⟩

def twoTracks (perStore : List PerStore) (deepScan : Option DeepScanState) : SearchRecord Scan where
  id := "search"
  revision := none
  userId := "tenant"
  sourceSearchId := none
  createdAt := "2026-01-01T00:00:00.000Z"
  body :=
    { artist := "Artist"
      released := some [⟨"One", "Artist", none⟩, ⟨"Two", "Artist", none⟩]
      result := ⟨[], [⟨"One", none, none, perStore⟩, ⟨"Two", none, none, perStore⟩], ⟨2, 0, 0, 0, 0⟩, []⟩
      deepScan := deepScan }

def liveIn (store : String) : PerStore :=
  ⟨store, .live, none, none, 1, false, none, none, none, none, none⟩

/-- A scan of a store is over, and its counter is still there. -/
def scannedBefore : SearchRecord Scan := twoTracks [liveIn "Deezer", liveIn "Spotify"]
  (some ⟨.done, [], [], some 2, some [("Deezer", 2)], none⟩)

/-- A store is both pending and done. -/
def listedTwice : SearchRecord Scan :=
  twoTracks [] (some ⟨.queued, ["Offline"], ["Offline"], none, none, none⟩)

/-- One chunk for each track. -/
def trackByTrack (store : String) : Config := ⟨[store], 10, 1⟩

/-! ### Retries -/

section Retried

variable {A : Resolver} {cfg : Config} {expectedTenantId : Option String}

theorem scanMutations_ne_nil (b : Scan) : (scanMutations A cfg b).1 ≠ [] := by
  unfold scanMutations
  simp only []
  split
  · exact List.cons_ne_nil _ _
  split
  · exact List.cons_ne_nil _ _
  · exact List.cons_ne_nil _ _

theorem foreign_stored (record : SearchRecord Scan) (ms : List Mutation) :
    foreign expectedTenantId (stored record ms) = foreign expectedTenantId record := by
  unfold foreign
  rw [stored_userId]

/-- The job at its last attempt. -/
theorem unrevised_resume_nil {record : SearchRecord Scan}
    (h : foreign expectedTenantId record = false) :
    unrevised (resume A cfg expectedTenantId record []) =
      settledFields record (closed A cfg record.body) := by
  have hattempt : attempt A cfg expectedTenantId record = scanMutations A cfg record.body := by
    rw [attempt_eq, h, if_neg Bool.false_ne_true]
  rw [resume, hattempt, unrevised_stored record (scanMutations_ne_nil record.body)]
  rfl

/-- A scan that starts afresh has no counters. -/
theorem sound_of_verified_nil {b : Scan} (h : verified b.deepScan = [])
    (hundone : ∀ name ∈ platformNames cfg.targets b.deepScan, name ∉ priorDone b.deepScan) :
    Sound A cfg b := by
  refine ⟨fun name k hcount => ?_, .inr h, hundone⟩
  rw [h] at hcount
  cases hcount

/-- The counters of the record count tracks that have a resolved cell. -/
def Counted (A : Resolver) (record : SearchRecord Scan) : Prop :=
  ∀ name k, count (verified record.body.deepScan) name = some k →
    Resolved A (releasedOf record.body) record.body.result.tracks name k

theorem counted_states {record : SearchRecord Scan} (h : Sound A cfg record.body)
    (hnodup : cfg.targets.Nodup) {pre later : List Mutation}
    (hms : (attempt A cfg expectedTenantId record).1 = pre ++ later) :
    Counted A (stored record pre) := by
  unfold Counted
  rw [stored_body, releasedOf_foldl]
  cases hforeign : foreign expectedTenantId record with
  | true =>
    rw [attempt_eq, if_pos hforeign] at hms
    obtain ⟨rfl, -⟩ := List.nil_eq_append_iff.1 hms
    exact h.counted
  | false =>
    rw [attempt_eq, hforeign, if_neg Bool.false_ne_true] at hms
    exact (scan_step h hnodup hms).1

/-- A retry finds a sound record, from which the job comes to the same. -/
theorem cutOff_step {record : SearchRecord Scan} {point : ℕ} (h : Sound A cfg record.body)
    (hnodup : cfg.targets.Nodup) (hpoint : Interrupts A cfg expectedTenantId record point) :
    Sound A cfg (cutOff A cfg expectedTenantId record point).body ∧
      unrevised (resume A cfg expectedTenantId (cutOff A cfg expectedTenantId record point) []) =
        unrevised (resume A cfg expectedTenantId record []) := by
  cases hforeign : foreign expectedTenantId record with
  | true =>
    have hcut : cutOff A cfg expectedTenantId record point = record := by
      rw [cutOff, attempt_eq, if_pos hforeign, List.take_nil]
      rfl
    rw [hcut]
    exact ⟨h, rfl⟩
  | false =>
    have hattempt : attempt A cfg expectedTenantId record = scanMutations A cfg record.body := by
      rw [attempt_eq, hforeign, if_neg Bool.false_ne_true]
    have hsplit : (scanMutations A cfg record.body).1 =
        (scanMutations A cfg record.body).1.take point ++
          (scanMutations A cfg record.body).1.drop point := (List.take_append_drop _ _).symm
    have hretries : Retries A cfg record.body (cutOff A cfg expectedTenantId record point).body := by
      rw [cutOff, hattempt, stored_body]
      refine (scan_step h hnodup hsplit).2 ?_
      rw [Interrupts, hattempt] at hpoint
      refine hpoint.imp_right fun hend => ⟨?_, hend.2⟩
      rw [hend.1, List.drop_length]
    refine ⟨hretries.sound, ?_⟩
    have hforeign' : foreign expectedTenantId (cutOff A cfg expectedTenantId record point) =
        false := (foreign_stored record _).trans hforeign
    rw [unrevised_resume_nil hforeign', unrevised_resume_nil hforeign, hretries.closed]
    exact settledFields_stored record _ _

/-- Where the counters of a record are true, none of them is there unless the scan
resumes, and no store to scan is done, a job leaves the same record wherever its attempts
are cut off, and every counter that it ever stores is true. -/
theorem resume_eq_uninterrupted (hnodup : cfg.targets.Nodup) {record : SearchRecord Scan}
    (h : Sound A cfg record.body) {points : List ℕ}
    (hpoints : Crashes A cfg expectedTenantId record points) :
    unrevised (resume A cfg expectedTenantId record points) =
        unrevised (resume A cfg expectedTenantId record []) ∧
      ∀ s ∈ storedStates A cfg expectedTenantId record points, Counted A s := by
  induction points generalizing record with
  | nil =>
    refine ⟨rfl, fun s hs => ?_⟩
    obtain ⟨pre, hpre, rfl⟩ := List.mem_map.1 hs
    obtain ⟨later, hlater⟩ := (List.mem_inits _ _).1 hpre
    exact counted_states h hnodup hlater.symm
  | cons point points ih =>
    obtain ⟨hpoint, hrest⟩ := hpoints
    obtain ⟨hsound, hsame⟩ := cutOff_step h hnodup hpoint
    obtain ⟨hresume, hstates⟩ := ih hsound hrest
    refine ⟨hresume.trans hsame, fun s hs => ?_⟩
    rcases List.mem_append.1 hs with hs | hs
    · obtain ⟨pre, hpre, rfl⟩ := List.mem_map.1 hs
      obtain ⟨later, hlater⟩ := (List.mem_inits _ _).1 hpre
      have hms : (attempt A cfg expectedTenantId record).1 =
          pre ++ (later ++ (attempt A cfg expectedTenantId record).1.drop point) := by
        rw [← List.append_assoc, hlater, List.take_append_drop]
      exact counted_states h hnodup hms
    · exact hstates s hs

theorem resume_eq_uninterrupted_twoTracks :
    unrevised (resume agreeable (trackByTrack "Deezer") none (twoTracks [] none) [2]) =
        unrevised (resume agreeable (trackByTrack "Deezer") none (twoTracks [] none) []) ∧
      ∀ s ∈ storedStates agreeable (trackByTrack "Deezer") none (twoTracks [] none) [2],
        Counted agreeable s :=
  resume_eq_uninterrupted (by decide) (sound_of_verified_nil rfl fun _ _ h => by cases h)
    ⟨.inl (by decide +kernel), trivial⟩

end Retried

/-- A crash shows in the revision. Counters of a scan that was over show in the retry of
the next one, which takes over cells that its first attempt has asked for again. A store
that is listed both as pending and as done is counted even if it fails. -/
theorem resume_differs :
    (¬ ∀ (A : Resolver) (cfg : Config) (expectedTenantId : Option String)
      (record : SearchRecord Scan) (points : List ℕ), cfg.targets.Nodup →
      Crashes A cfg expectedTenantId record points →
        resume A cfg expectedTenantId record points = resume A cfg expectedTenantId record [] ∧
          ∀ s ∈ storedStates A cfg expectedTenantId record points, Counted A s) ∧
    (Crashes agreeable (trackByTrack "Deezer") none scannedBefore [1] ∧
      Counted agreeable scannedBefore ∧
      unrevised (resume agreeable (trackByTrack "Deezer") none scannedBefore [1]) ≠
        unrevised (resume agreeable (trackByTrack "Deezer") none scannedBefore [])) ∧
    ∃ s ∈ storedStates agreeable (trackByTrack "Offline") none listedTwice [],
      ¬ Counted agreeable s := by
  refine ⟨fun h => ?_, ⟨⟨.inl (by decide +kernel), trivial⟩, ?_, by decide +kernel⟩, ?_⟩
  · have hcrash : Crashes agreeable (trackByTrack "Deezer") none (twoTracks [] none) [2] :=
      ⟨.inl (by decide +kernel), trivial⟩
    have hsame := (h agreeable (trackByTrack "Deezer") none (twoTracks [] none) [2] (by decide)
      hcrash).1
    have hrevision : (resume agreeable (trackByTrack "Deezer") none (twoTracks [] none) [2]).revision
        ≠ (resume agreeable (trackByTrack "Deezer") none (twoTracks [] none) []).revision := by
      decide +kernel
    exact hrevision (congrArg SearchRecord.revision hsame)
  · intro name k hcount
    have hcounters : verified scannedBefore.body.deepScan = setVerified [] "Deezer" 2 := rfl
    rw [hcounters, count_setVerified] at hcount
    split at hcount
    · rename_i hname
      subst hname
      cases hcount
      refine ⟨le_refl 2, fun i hi _ => ?_⟩
      obtain rfl | rfl : i = 0 ∨ i = 1 := by omega
      · exact ⟨⟨"One", "Artist", none⟩, rfl, by decide +kernel⟩
      · exact ⟨⟨"Two", "Artist", none⟩, rfl, by decide +kernel⟩
    · cases hcount
  · have hstate : ∃ s ∈ storedStates agreeable (trackByTrack "Offline") none (twoTracks []
        (some ⟨.queued, ["Offline"], ["Offline"], none, none, none⟩)) [],
        count (verified s.body.deepScan) "Offline" = some 2 ∧
          s.body.result.tracks ≠ [] ∧ cells s.body.result.tracks 0 "Offline" = [] := by
      decide +kernel
    obtain ⟨s, hs, hcount, hne, hcells⟩ := hstate
    refine ⟨s, hs, fun h => ?_⟩
    obtain ⟨track, -, hcell⟩ := (h "Offline" 2 hcount).cells 0 (by omega) (List.length_pos_iff.2 hne)
    rw [hcells] at hcell
    cases hcell

end CatalogSentinel.Search.DeepScan
