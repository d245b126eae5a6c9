import CatalogSentinel.Search.DeepScan

/-!
Human decisions beside deep scans. Any number of scan jobs run over one record while
people decide on its cells, in any order and with any answers of the resolver; an
await may fail, and a job may crash and start again. The history keeps what the latest
decision on a cell left there, which is what every later record should still show.
-/

namespace CatalogSentinel.Search.DeepScan

open Concurrent

/-- What a decision settles about a cell. -/
structure Standing where
  decision : Option ManualReviewDecision
  status : Status
  confidence : ℚ
deriving DecidableEq

def PerStore.standing (p : PerStore) : Standing := ⟨p.reviewDecision, p.status, p.confidence⟩

def standings (tracks : List CatalogTrack) (i : ℕ) (store : String) : List Standing :=
  (cells tracks i store).map PerStore.standing

/-! ### The record under scans and decisions -/

structure ScanJob where
  cfg : Config
  expectedTenantId : Option String

/-- The stored record, what the latest decision on each cell left there, and whether a
decision has been stored. -/
structure Shared where
  record : SearchRecord Scan
  decided : ℕ → String → Option (List Standing)
  reviewed : Bool

inductive Choice
  | served
  | reported (report : Report)
  | fails (error : String)
  | decide (target : Option ReviewTarget) (decision : ManualReviewDecision) (opts : ReviewOptions)

namespace Shared

def tracks (s : Shared) : List CatalogTrack := s.record.body.result.tracks

/-- A record whose cells may hold decisions already. -/
def init (record : SearchRecord Scan) : Shared where
  record
  decided i store :=
    if (cells record.body.result.tracks i store).any (·.reviewDecision.isSome) then
      some (standings record.body.result.tracks i store)
    else none
  reviewed := false

def store (s : Shared) (mutate : SearchRecord Scan → SearchRecord Scan) : Shared :=
  { s with record := applySearchMutation s.record mutate }

/-- The update of the route that takes a decision. -/
def decide (s : Shared) (target : Option ReviewTarget) (decision : ManualReviewDecision)
    (opts : ReviewOptions) : Shared :=
  match target, applyManualReviewDecision s.record.body.result target decision opts with
  | some target, some result =>
    { s.store fun r => { r with body := { r.body with result } } with
      decided := fun i store => if i = target.1 ∧ store = target.2 then
        some (standings result.tracks i store) else s.decided i store
      reviewed := true }
  | _, _ => s.store id

/-- The latest decisions stand, and the summary counts the cells as they stand. -/
def Upheld (s : Shared) : Prop :=
  (∀ i store left, s.decided i store = some left → standings s.tracks i store = left) ∧
    (s.reviewed = true → s.record.body.result.summary = summaryOf s.tracks)

end Shared

def perform (s : Shared) : (o : Op) → Choice → Option (Except String (signature.Ans o) × Shared)
  | .get, .served => some (.ok (some s.record), s)
  | .prepareStorePresence _ _ _, .served => some (.ok (), s)
  | .scanStorePresence _ _ _, .reported report => some (.ok report, s)
  | .update m, .served => some (.ok (), s.store m.mutate)
  | _, .fails error => some (.error error, s)
  | _, _ => none

def system (jobs : ℕ → ScanJob) : System signature String Shared ℕ Choice where
  perform _ := perform
  code t := runStorePresenceDeepScan (jobs t).cfg (jobs t).expectedTenantId
  start s _ _ := some s
  settle s _ _ := s
  crash s _ := s
  env s
    | .decide target decision opts => some (s.decide target decision opts)
    | _ => none

/-- A chunk that is about to be stored has no verdict for a cell that holds a decision. -/
def Spares (tracks : List CatalogTrack) : Mutation → Prop
  | .chunk name perTrack _ _ => ∀ i, (perTrack i).isSome → ∀ c ∈ cells tracks i name,
      c.reviewDecision = none
  | _ => True

def Respects (w : World signature String Shared ℕ) (m : Move ℕ Choice) : Prop :=
  ∀ i t mutation k, m = .go i .served → w.procs[i]? = some (t, .op (.update mutation) k) →
    Spares w.state.tracks mutation

/-! ### Steps -/

theorem apply_tracks (r : Scan) (m : Mutation) : (m.apply r).result.tracks =
    match m with
    | .chunk name perTrack _ _ => mergeTracks r.result.tracks name perTrack
    | _ => r.result.tracks := by
  cases m <;> rfl

theorem apply_summary (r : Scan) (m : Mutation) : (m.apply r).result.summary =
    match m with
    | .chunk name perTrack _ _ => summaryOf (mergeTracks r.result.tracks name perTrack)
    | _ => r.result.summary := by
  cases m <;> rfl

theorem apply_summaryOf {r : Scan} (h : r.result.summary = summaryOf r.result.tracks)
    (m : Mutation) : (m.apply r).result.summary = summaryOf (m.apply r).result.tracks := by
  rw [apply_summary, apply_tracks]
  cases m <;> first | rfl | exact h

namespace Shared

/-- What the history knows of the record, whether or not the decisions stand. -/
structure Sound (s : Shared) : Prop where
  some_decision : ∀ i store left, s.decided i store = some left →
    ∃ x ∈ left, x.decision.isSome = true
  noted : ∀ i store, ∀ c ∈ cells s.tracks i store, c.reviewDecision.isSome = true →
    (s.decided i store).isSome = true
  summary : s.reviewed = true → s.record.body.result.summary = summaryOf s.tracks

theorem init_some {record : SearchRecord Scan} {i : ℕ} {store : String} {left : List Standing}
    (h : (init record).decided i store = some left) :
    left = standings record.body.result.tracks i store ∧
      ∃ c ∈ cells record.body.result.tracks i store, c.reviewDecision.isSome = true := by
  simp only [init] at h
  split at h
  · rename_i hany
    exact ⟨(Option.some.inj h).symm, List.any_eq_true.1 hany⟩
  · cases h

theorem sound_init (record : SearchRecord Scan) : (init record).Sound where
  some_decision i store left h := by
    obtain ⟨rfl, c, hc, hd⟩ := init_some h
    exact ⟨_, List.mem_map_of_mem hc, hd⟩
  noted i store c hc hd := by
    have hany : (cells record.body.result.tracks i store).any (·.reviewDecision.isSome) = true :=
      List.any_eq_true.2 ⟨c, hc, hd⟩
    simp only [init, if_pos hany, Option.isSome_some]
  summary h := by cases h

theorem upheld_init (record : SearchRecord Scan) : (init record).Upheld :=
  ⟨fun i store left h => (init_some h).1.symm, fun h => by cases h⟩

theorem tracks_store (s : Shared) (m : Mutation) :
    (s.store m.mutate).tracks = (m.apply s.record.body).result.tracks := rfl

/-- Where a chunk has a verdict, it leaves one cell without a decision. -/
theorem standings_chunk {s : Shared} {name : String} {perTrack : PerTrack}
    {warnings : List String} {verifiedThrough : ℕ} (i : ℕ) (store : String) :
    standings (s.store (Mutation.chunk name perTrack warnings verifiedThrough).mutate).tracks i
        store =
      match perTrack i with
      | some v => if store = name ∧ i < s.tracks.length then
          [⟨none, v.status, v.confidence⟩] else standings s.tracks i store
      | none => standings s.tracks i store := by
  rw [tracks_store, apply_tracks, standings]
  simp only [cells_mergeTracks]
  cases perTrack i with
  | none => rfl
  | some v =>
    have hlen : s.record.body.result.tracks.length = s.tracks.length := rfl
    simp only [hlen]
    split <;> rfl

theorem Sound.update {s : Shared} (hs : s.Sound) (m : Mutation) : (s.store m.mutate).Sound where
  some_decision := hs.some_decision
  noted i store c hc hd := by
    refine hs.noted i store c ?_ hd
    rw [tracks_store, apply_tracks] at hc
    cases m with
    | chunk name perTrack warnings verifiedThrough =>
      simp only [cells_mergeTracks] at hc
      cases hv : perTrack i with
      | none =>
        rw [hv] at hc
        exact hc
      | some v =>
        simp only [hv] at hc
        split at hc
        · rw [List.mem_singleton.1 hc, PerTrackVerdict.entry_reviewDecision] at hd
          cases hd
        · exact hc
    | _ => exact hc
  summary h := apply_summaryOf (hs.summary h) m

/-- An update keeps the decisions just when it spares the cells that hold one. -/
theorem upheld_update {s : Shared} (hs : s.Sound) (hu : s.Upheld) (m : Mutation) :
    (s.store m.mutate).Upheld ↔ Spares s.tracks m := by
  cases m with
  | chunk name perTrack warnings verifiedThrough =>
    constructor
    · rintro ⟨hkeep, -⟩ i hv c hc
      by_contra hd
      obtain ⟨left, hleft⟩ := Option.isSome_iff_exists.1
        (hs.noted i name c hc (Option.isSome_iff_ne_none.2 hd))
      obtain ⟨v, hv⟩ := Option.isSome_iff_exists.1 hv
      obtain ⟨t, ht, -⟩ := mem_cells.1 hc
      have hlt : i < s.tracks.length := (List.getElem?_eq_some_iff.1 ht).1
      have hnow := hkeep i name left hleft
      rw [standings_chunk, hv] at hnow
      simp only [true_and, if_pos hlt] at hnow
      obtain ⟨x, hx, hxd⟩ := hs.some_decision i name left hleft
      rw [← hnow, List.mem_singleton] at hx
      subst hx
      cases hxd
    · intro hspare
      refine ⟨fun i store left hleft => ?_, fun hr => apply_summaryOf (hs.summary hr) _⟩
      have hnow := hu.1 i store left hleft
      rw [standings_chunk]
      cases hv : perTrack i with
      | none => exact hnow
      | some v =>
        simp only []
        split
        · rename_i hn
          obtain ⟨rfl, -⟩ := hn
          obtain ⟨x, hx, hxd⟩ := hs.some_decision i store left hleft
          rw [← hnow] at hx
          obtain ⟨c, hc, rfl⟩ := List.mem_map.1 hx
          have hnone := hspare i (by rw [hv]; rfl) c hc
          simp [PerStore.standing, hnone] at hxd
        · exact hnow
  | _ =>
    exact iff_of_true ⟨hu.1, fun hr => apply_summaryOf (hs.summary hr) _⟩ trivial

theorem cells_decide {s : Shared} {target : ReviewTarget} {decision : ManualReviewDecision}
    {opts : ReviewOptions} {result : CatalogResult}
    (h : result.tracks = reviewTracks s.tracks target decision opts) {i : ℕ} {store : String}
    (hne : ¬ (i = target.1 ∧ store = target.2)) :
    cells result.tracks i store = cells s.tracks i store := by
  rw [h, cells_reviewTracks, if_neg hne]

theorem Sound.decide {s : Shared} (hs : s.Sound) (target : Option ReviewTarget)
    (decision : ManualReviewDecision) (opts : ReviewOptions) :
    (s.decide target decision opts).Sound := by
  unfold Shared.decide
  split
  · rename_i target result happly
    obtain ⟨hmatch, htracks, hsummary⟩ := applyManualReviewDecision_some happly
    obtain ⟨j, hj, c₀, hc₀⟩ := ReviewTarget.matches_iff.1 hmatch
    refine ⟨fun i store left hleft => ?_, fun i store c hc hd => ?_, fun _ => hsummary⟩
    · simp only at hleft
      split at hleft
      · rename_i hi
        obtain rfl : i = j := by omega
        obtain rfl := hi.2
        have hc : c₀.review decision opts ∈ cells result.tracks i target.2 := by
          rw [htracks, cells_reviewTracks, if_pos hi]
          exact List.mem_map_of_mem hc₀
        rw [← Option.some.inj hleft]
        exact ⟨_, List.mem_map_of_mem hc, rfl⟩
      · exact hs.some_decision i store left hleft
    · by_cases hi : (i : ℤ) = target.1 ∧ store = target.2
      · simp only [if_pos hi, Option.isSome_some]
      · simp only [if_neg hi]
        exact hs.noted i store c ((cells_decide htracks hi) ▸ hc) hd
  · exact ⟨hs.some_decision, hs.noted, hs.summary⟩

/-- A decision leaves every other cell alone and is noted where it falls. -/
theorem Upheld.decide {s : Shared} (hu : s.Upheld) (target : Option ReviewTarget)
    (decision : ManualReviewDecision) (opts : ReviewOptions) :
    (s.decide target decision opts).Upheld := by
  unfold Shared.decide
  split
  · rename_i target result happly
    obtain ⟨-, htracks, hsummary⟩ := applyManualReviewDecision_some happly
    refine ⟨fun i store left hleft => ?_, fun _ => hsummary⟩
    simp only at hleft
    split at hleft
    · exact Option.some.inj hleft
    · rename_i hi
      rw [← hu.1 i store left hleft]
      exact congrArg (List.map PerStore.standing) (cells_decide htracks hi)
  · exact hu

end Shared

/-! ### Runs -/

/-- An await changes the record only by an update that succeeds. -/
theorem perform_cases {s s' : Shared} {o : Op} {x : Choice} {r : Except String (signature.Ans o)}
    (h : perform s o x = some (r, s')) :
    s' = s ∧ (∀ m, o = .update m → x ≠ .served) ∨
      ∃ m, o = .update m ∧ x = .served ∧ s' = s.store m.mutate := by
  cases o with
  | update m =>
    cases x with
    | served =>
      cases h
      exact .inr ⟨m, rfl, rfl, rfl⟩
    | fails e =>
      cases h
      exact .inl ⟨rfl, fun _ _ hx => by cases hx⟩
    | reported report => cases h
    | decide target decision opts => cases h
  | get =>
    refine .inl ⟨?_, fun _ ho => by cases ho⟩
    cases x <;> cases h <;> rfl
  | prepareStorePresence artist released store =>
    refine .inl ⟨?_, fun _ ho => by cases ho⟩
    cases x <;> cases h <;> rfl
  | scanStorePresence artist tracks store =>
    refine .inl ⟨?_, fun _ ho => by cases ho⟩
    cases x <;> cases h <;> rfl

variable {jobs : ℕ → ScanJob} {w w' : World signature String Shared ℕ} {m : Move ℕ Choice}

theorem state_step (h : (system jobs).step w m = some w') :
    w'.state = w.state ∧ Respects w m ∨
      (∃ i t mutation k, m = .go i .served ∧ w.procs[i]? = some (t, .op (.update mutation) k) ∧
        w'.state = w.state.store mutation.mutate) ∨
      ∃ target decision opts, m = .env (.decide target decision opts) ∧
        w'.state = w.state.decide target decision opts := by
  cases m with
  | start t =>
    obtain ⟨s, hs, rfl⟩ := System.step_start h
    cases hs
    exact .inl ⟨rfl, fun _ _ _ _ hm => by cases hm⟩
  | go i x =>
    obtain ⟨t, o, k, r, s, hi, hp, rfl⟩ := System.step_go h
    rcases perform_cases hp with ⟨rfl, hno⟩ | ⟨mutation, rfl, rfl, rfl⟩
    · refine .inl ⟨rfl, fun j u mutation k' hm hj => ?_⟩
      cases hm
      cases hi.symm.trans hj
      exact absurd rfl (hno mutation rfl)
    · exact .inr (.inl ⟨i, t, mutation, k, rfl, hi, rfl⟩)
  | settle i =>
    obtain ⟨t, r, -, rfl⟩ := System.step_settle h
    exact .inl ⟨rfl, fun _ _ _ _ hm => by cases hm⟩
  | crash i =>
    obtain ⟨t, p, -, rfl⟩ := System.step_crash h
    exact .inl ⟨rfl, fun _ _ _ _ hm => by cases hm⟩
  | env x =>
    obtain ⟨s, hs, rfl⟩ := System.step_env h
    cases x with
    | decide target decision opts =>
      cases hs
      exact .inr (.inr ⟨target, decision, opts, rfl, rfl⟩)
    | served => cases hs
    | reported report => cases hs
    | fails e => cases hs

theorem sound_step (hs : w.state.Sound) (h : (system jobs).step w m = some w') :
    w'.state.Sound := by
  rcases state_step h with ⟨he, -⟩ | ⟨i, t, mutation, k, -, -, he⟩ | ⟨target, decision, opts, -, he⟩
  · rw [he]
    exact hs
  · rw [he]
    exact hs.update mutation
  · rw [he]
    exact hs.decide target decision opts

theorem upheld_step (hs : w.state.Sound) (hu : w.state.Upheld)
    (h : (system jobs).step w m = some w') : w'.state.Upheld ↔ Respects w m := by
  rcases state_step h with ⟨he, hm⟩ | ⟨i, t, mutation, k, rfl, hi, he⟩ |
    ⟨target, decision, opts, rfl, he⟩
  · rw [he]
    exact iff_of_true hu hm
  · rw [he, Shared.upheld_update hs hu]
    constructor
    · intro hspare j u mutation' k' hm hj
      cases hm
      cases hi.symm.trans hj
      exact hspare
    · intro hm
      exact hm i t mutation k rfl hi
  · rw [he]
    exact iff_of_true (hu.decide target decision opts) fun _ _ _ _ hm => by cases hm

/-- Every decision stands in every later record, and in its summary, throughout a run just
when no chunk is stored with a verdict for a cell that then holds a decision. -/
theorem decisions_upheld_iff (jobs : ℕ → ScanJob) (record : SearchRecord Scan)
    (ms : List (Move ℕ Choice)) :
    Steps.Throughout (system jobs).step (fun w => w.state.Upheld)
        (World.idle (Shared.init record)) ms ↔
      Steps.Along (system jobs).step Respects (World.idle (Shared.init record)) ms :=
  Steps.throughout_iff_along (J := fun w => w.state.Sound) ms (Shared.sound_init record)
    (Shared.upheld_init record) (fun _ _ _ hs h => sound_step hs h)
    fun _ _ _ hs hu h => upheld_step hs hu h

/-! ### A chunk that erases a decision -/

def unverified : PerStore where
  store := "Spotify"
  status := .unverifiable
  foundArtist := none
  url := none
  confidence := 3 / 10
  needsManualReview := true
  reviewQuery := some "Lewis KE Skit"

def skit : SearchRecord Scan where
  id := "search_1"
  revision := some 1
  userId := "alice"
  sourceSearchId := none
  createdAt := "2026-01-01T00:00:00.000Z"
  body :=
    { artist := "Lewis KE"
      released := none
      result :=
        { stores := ["Spotify"]
          tracks := [⟨"Skit", none, none, [unverified]⟩]
          summary := ⟨1, 0, 0, 0, 1⟩
          warnings := [] }
      deepScan := none }

/-- While the resolver answers the chunk, someone confirms that the track is present. -/
def crossing : List (Move ℕ Choice) :=
  [.start 0, .go 0 .served, .go 0 .served, .go 0 .served,
    .env (.decide (some (0, "Spotify")) .confirmedPresent ⟨none, none, "2026-01-02"⟩),
    .go 0 (.reported ⟨[[⟨"Spotify", .ofCell unverified⟩]], []⟩), .go 0 .served]

theorem decision_erased : ¬ ∀ (jobs : ℕ → ScanJob) (record : SearchRecord Scan)
    (ms : List (Move ℕ Choice)), Steps.Throughout (system jobs).step (fun w => w.state.Upheld)
      (World.idle (Shared.init record)) ms := by
  intro h
  have hrun : ∃ w, Steps.run (system fun _ => ⟨⟨["Spotify"], 5000, 25⟩, none⟩).step
      (World.idle (Shared.init skit)) crossing = some w ∧
      w.state.decided 0 "Spotify" = some [⟨some .confirmedPresent, .live, 1⟩] ∧
      standings w.state.tracks 0 "Spotify" = [⟨none, .unverifiable, 3 / 10⟩] :=
    ⟨_, rfl, by decide +kernel, by decide +kernel⟩
  obtain ⟨w, hw, hdecided, hnow⟩ := hrun
  have hkept := ((h _ _ crossing).last hw).1 0 "Spotify" _ hdecided
  rw [hnow] at hkept
  cases hkept

end CatalogSentinel.Search.DeepScan
