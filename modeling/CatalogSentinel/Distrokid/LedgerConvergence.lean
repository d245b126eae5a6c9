import CatalogSentinel.Distrokid.JobChain
import CatalogSentinel.Distrokid.LedgerWatch

/-!
The failed ledger converges. A mark is only ever found beside a stored tombstone whose
finalizer was enqueued, a sweep that counts no failure has settled what it read, and
nothing is cleaned but after such a sweep. A finalizer's cooldown is counted on from the
entry as the sweep read it, so it grows unless two other recoveries came between.
-/

namespace CatalogSentinel.Distrokid.Ledger

open CatalogSentinel.Data CatalogSentinel.Concurrent

/-- A terminal tombstone of the snapshot is stored, and its finalizer has been enqueued. -/
def Justified (s : Queues) (snapshotId : String) : Prop :=
  ∃ t, (s.snapshots snapshotId).terminal = some t ∧ ∀ job, t.finalizeJob? = some job →
    ∃ d, (d, Event.enqueued (.finalize job)) ∈ (s.snapshots job.snapshotId).log

/-! ### Changes that record no progress -/

/-- One snapshot keeps its tombstone and its log, and its entries keep their progress; an
entry may be new. -/
structure Holds (snapshotId : String) (v v' : SnapshotState) : Prop where
  terminal : ∀ t, v.terminal = some t → v'.terminal = some t
  log : ∀ x ∈ v.log, x ∈ v'.log
  entries : ∀ e ∈ v'.entries,
    (∃ e₀ ∈ v.entries, e₀.id = e.id ∧ e₀.job = e.job ∧ e₀.progress = e.progress) ∨
    (e = Entry.fresh e.job ∧ e.job.ref.snapshotId = snapshotId ∧ ∀ e₀ ∈ v.entries, e₀.id ≠ e.id)

theorem Holds.refl (snapshotId : String) (v : SnapshotState) : Holds snapshotId v v :=
  ⟨fun _ h => h, fun _ h => h, fun e he => .inl ⟨e, he, rfl, rfl, rfl⟩⟩

/-- The queues record no progress. The cooldowns of an id are forgotten, or they stay and
with them its entry. -/
structure Quiet (s s' : Queues) : Prop where
  snapshots : ∀ snapshotId, Holds snapshotId (s.snapshots snapshotId) (s'.snapshots snapshotId)
  cooldowns : ∀ id, s'.cooldowns id = [] ∨ s'.cooldowns id = s.cooldowns id ∧
    ∀ e ∈ (s.snapshots id.snapshotId).entries, e.id = id →
      ∃ e' ∈ (s'.snapshots id.snapshotId).entries, e'.id = id

@[simp] theorem put_self (s : Queues) (snapshotId : String) (v : SnapshotState) :
    (s.put snapshotId v).snapshots snapshotId = v := Function.update_self ..

theorem put_ne (s : Queues) {snapshotId other : String} (h : other ≠ snapshotId)
    (v : SnapshotState) : (s.put snapshotId v).snapshots other = s.snapshots other :=
  Function.update_of_ne h ..

/-- A change of one snapshot that loses none of its ids. -/
theorem Quiet.put {s : Queues} {snapshotId : String} {v : SnapshotState}
    (h : Holds snapshotId (s.snapshots snapshotId) v)
    (hids : ∀ e ∈ (s.snapshots snapshotId).entries, ∃ e' ∈ v.entries, e'.id = e.id) :
    Quiet s (s.put snapshotId v) := by
  refine ⟨fun other => ?_, fun id => .inr ⟨rfl, fun e he hid => ?_⟩⟩
  · by_cases hkey : other = snapshotId
    · subst hkey
      rw [put_self]
      exact h
    · rw [put_ne s hkey]
      exact Holds.refl _ _
  · by_cases hkey : id.snapshotId = snapshotId
    · subst hkey
      rw [put_self]
      obtain ⟨e', he', hid'⟩ := hids e he
      exact ⟨e', he', hid'.trans hid⟩
    · rw [put_ne s hkey]
      exact ⟨e, he, hid⟩

theorem quiet_drop (s : Queues) (id : JobId) : Quiet s (s.drop id) := by
  refine ⟨fun key => ?_, fun other => ?_⟩
  · by_cases hkey : key = id.snapshotId
    · subst hkey
      simp only [Queues.drop, Function.update_self]
      exact ⟨fun _ h => h, fun _ h => h,
        fun e he => .inl ⟨e, (List.mem_filter.1 he).1, rfl, rfl, rfl⟩⟩
    · simp only [Queues.drop, Function.update_of_ne hkey]
      exact Holds.refl _ _
  · by_cases hid : other = id
    · subst hid
      exact .inl (Function.update_self ..)
    · refine .inr ⟨Function.update_of_ne hid .., fun e he heq => ⟨e, ?_, heq⟩⟩
      by_cases hkey : other.snapshotId = id.snapshotId
      · rw [hkey] at he ⊢
        simp only [Queues.drop, Function.update_self]
        exact List.mem_filter.2 ⟨he, by simpa [heq] using hid⟩
      · simp only [Queues.drop, Function.update_of_ne hkey]
        exact he

theorem holds_updateEntry {snapshotId : String} {v : SnapshotState} {id : JobId}
    {f : Entry → Entry} (hf : ∀ e, (f e).id = e.id ∧ (f e).job = e.job ∧ (f e).progress = e.progress) :
    Holds snapshotId v { v with entries := updateEntry v.entries id f } := by
  refine ⟨fun _ h => h, fun _ h => h, fun e he => ?_⟩
  obtain ⟨e₀, he₀, rfl⟩ := List.mem_map.1 he
  refine .inl ⟨e₀, he₀, ?_⟩
  split
  · exact ⟨(hf e₀).1.symm, (hf e₀).2.1.symm, (hf e₀).2.2.symm⟩
  · exact ⟨rfl, rfl, rfl⟩

theorem updateEntry_ids {entries : List Entry} {id : JobId} {f : Entry → Entry}
    (hf : ∀ e, (f e).id = e.id) : ∀ e ∈ entries, ∃ e' ∈ updateEntry entries id f, e'.id = e.id := by
  intro e he
  refine ⟨_, List.mem_map_of_mem he, ?_⟩
  split
  · exact hf e
  · rfl

theorem mem_addEntry {entries : List Entry} {job : StageJob} {e : Entry}
    (he : e ∈ addEntry entries job) :
    e ∈ entries ∨ e = Entry.fresh job ∧ ∀ e₀ ∈ entries, e₀.id ≠ e.id := by
  unfold addEntry at he
  split at he
  · exact .inl he
  · rename_i hnew
    rcases List.mem_append.1 he with he | he
    · exact .inl he
    · obtain rfl := List.mem_singleton.1 he
      exact .inr ⟨rfl, fun e₀ he₀ hid => hnew (List.mem_map.2 ⟨e₀, he₀, hid⟩)⟩

theorem subset_addEntry (entries : List Entry) (job : StageJob) : entries ⊆ addEntry entries job := by
  unfold addEntry
  split
  · exact List.Subset.refl _
  · exact List.subset_append_left _ _

theorem entries_addEntry {snapshotId : String} {v : SnapshotState} {job : StageJob}
    (hhome : job.ref.snapshotId = snapshotId) : ∀ e ∈ addEntry v.entries job,
      (∃ e₀ ∈ v.entries, e₀.id = e.id ∧ e₀.job = e.job ∧ e₀.progress = e.progress) ∨
      (e = Entry.fresh e.job ∧ e.job.ref.snapshotId = snapshotId ∧
        ∀ e₀ ∈ v.entries, e₀.id ≠ e.id) := by
  intro e he
  rcases mem_addEntry he with he | ⟨rfl, hnew⟩
  · exact .inl ⟨e, he, rfl, rfl, rfl⟩
  · exact .inr ⟨rfl, hhome, hnew⟩

/-! ### One await within a snapshot -/

section Perform

variable {env : Env} {d : Delivery} {v v' : SnapshotState} {o : Op} {c : Choice}

/-- A stored tombstone stays. -/
theorem perform_terminal {r : Except PipelineError o.Ans}
    (h : Distrokid.perform env d v o c = some (r, v')) {t : SnapshotTerminalTombstone}
    (ht : v.terminal = some t) : v'.terminal = some t := by
  by_cases hclaim : ∃ t', o = .claimTerminal t'
  · obtain ⟨t', rfl⟩ := hclaim
    rcases perform_state h with rfl | ⟨r', he⟩ | he
    · exact ht
    · simp only [effect, ht, Option.some.injEq, Prod.mk.injEq] at he
      rw [← he.2]
      exact ht
    · obtain rfl := Option.some.inj he
      exact ht
  · rw [(perform_frame h).terminal fun t' ht' => hclaim ⟨t', ht'⟩]
    exact ht

/-- An update takes effect, unless its call is lost. -/
theorem perform_updateProgress {id : JobId} {progress : JobProgress} {r : Except PipelineError Unit}
    (h : Distrokid.perform env d v (.updateProgress id progress) c = some (r, v')) :
    isLost c = true ∧ v' = v ∨ isLost c = false ∧
      v' = { v with entries := updateEntry v.entries id fun e => { e with progress := progress } } := by
  have hanswer : ∀ c, answer env (.updateProgress id progress) c = none := by
    intro c
    cases c <;> rfl
  rcases perform_settled hanswer h with ⟨⟨e, rfl⟩, he⟩ | ⟨hlost, r', he⟩
  · exact .inl ⟨rfl, (Option.some.inj he).symm⟩
  · refine .inr ⟨?_, (Prod.mk.inj (Option.some.inj he)).2.symm⟩
    cases c <;> first | rfl | exact absurd rfl (hlost _)

/-- The await records no progress. -/
def recordsNone (o : Op) (c : Choice) : Prop :=
  ∀ id progress, o = .updateProgress id progress → isLost c = true

theorem perform_entries_quiet {r : Except PipelineError o.Ans}
    (h : Distrokid.perform env d v o c = some (r, v')) (hc : recordsNone o c) :
    v'.entries = v.entries ∨
      (∃ job n, o = .enqueue job n ∧ v'.entries = addEntry v.entries job) ∨
      ∃ id f, v'.entries = updateEntry v.entries id f ∧
        ∀ e, (f e).id = e.id ∧ (f e).job = e.job ∧ (f e).progress = e.progress := by
  by_cases hupdate : ∃ id progress, o = .updateProgress id progress
  · obtain ⟨id, progress, rfl⟩ := hupdate
    rcases perform_updateProgress h with ⟨-, rfl⟩ | ⟨hlost, -⟩
    · exact .inl rfl
    · rw [hc id progress rfl] at hlost
      cases hlost
  by_cases henqueue : ∃ job n, o = .enqueue job n
  · obtain ⟨job, n, rfl⟩ := henqueue
    rcases perform_state h with rfl | ⟨r', he⟩ | he
    · exact .inl rfl
    · obtain ⟨-, rfl⟩ := Prod.mk.inj (Option.some.inj he)
      exact .inr (.inl ⟨job, n, rfl, rfl⟩)
    · obtain rfl := Option.some.inj he
      exact .inl rfl
  by_cases hretry : ∃ id, o = .retryJob id
  · obtain ⟨id, rfl⟩ := hretry
    rcases perform_state h with rfl | ⟨r', he⟩ | he
    · exact .inl rfl
    · obtain ⟨-, rfl⟩ := Prod.mk.inj (Option.some.inj he)
      refine .inr (.inr ⟨id, _, rfl, fun e => ?_⟩)
      split <;> exact ⟨rfl, rfl, rfl⟩
    · obtain rfl := Option.some.inj he
      exact .inl rfl
  · exact .inl ((perform_frame h).entries (fun j n ho => henqueue ⟨j, n, ho⟩)
      (fun id ho => hretry ⟨id, ho⟩) fun id p ho => hupdate ⟨id, p, ho⟩)

/-- An await that records no progress is quiet. -/
theorem quiet_perform {s : Queues} {snapshotId : String} {r : Except PipelineError o.Ans}
    (h : Distrokid.perform env d (s.snapshots (home snapshotId o)) o c = some (r, v'))
    (hc : recordsNone o c) : Quiet s (s.put (home snapshotId o) v') := by
  have hentries : (∀ e ∈ v'.entries, (∃ e₀ ∈ (s.snapshots (home snapshotId o)).entries,
        e₀.id = e.id ∧ e₀.job = e.job ∧ e₀.progress = e.progress) ∨
        (e = Entry.fresh e.job ∧ e.job.ref.snapshotId = home snapshotId o ∧
          ∀ e₀ ∈ (s.snapshots (home snapshotId o)).entries, e₀.id ≠ e.id)) ∧
      ∀ e ∈ (s.snapshots (home snapshotId o)).entries, ∃ e' ∈ v'.entries, e'.id = e.id := by
    rcases perform_entries_quiet h hc with he | ⟨job, n, rfl, he⟩ | ⟨id, f, he, hf⟩
    · rw [he]
      exact ⟨fun e he => .inl ⟨e, he, rfl, rfl, rfl⟩, fun e he => ⟨e, he, rfl⟩⟩
    · rw [he]
      exact ⟨entries_addEntry rfl, fun e he => ⟨e, subset_addEntry _ _ he, rfl⟩⟩
    · rw [he]
      exact ⟨(holds_updateEntry hf).entries, updateEntry_ids fun e => (hf e).1⟩
  refine Quiet.put ⟨fun t => perform_terminal h, fun x hx => ?_, hentries.1⟩ hentries.2
  obtain ⟨es, hlog, -⟩ := perform_log h
  rw [hlog]
  exact List.mem_append_right _ hx

end Perform

/-! ### The steps of the queues -/

section Steps

variable {env : Env} {p : Process} {s s' : Queues}

theorem noted_snapshots (s : Queues) (o : Op) (c : Choice) :
    (noted s o c).snapshots = s.snapshots := by
  unfold noted
  split
  · split <;> rfl
  · rfl

theorem noted_of_recordsNone {o : Op} {c : Choice} (hc : recordsNone o c) : noted s o c = s := by
  unfold noted
  split
  · rename_i id progress
    rw [if_neg (by simp [hc id progress rfl])]
  · rfl

/-- An update that the queue took. -/
structure Updated (s s' : Queues) (snapshotId : String) (id : JobId) (progress : JobProgress) :
    Prop where
  held : ∃ e ∈ (s.snapshots snapshotId).entries, e.id = id
  changed : let v := s.snapshots snapshotId
    s' = (if isFinalizer id = true then
        (s.put snapshotId { v with
          entries := updateEntry v.entries id fun e => { e with progress := progress } }).record id
            (finalizeCooldownMs progress.finalizeRecoveryAttempts)
      else s.put snapshotId { v with
        entries := updateEntry v.entries id fun e => { e with progress := progress } })

theorem performWithin_cases {snapshotId : String} {o : Op} {c : Choice}
    {r : Except PipelineError o.Ans} (h : performWithin env p s snapshotId o c = some (r, s')) :
    Quiet s s' ∨ ∃ id progress, o = .updateProgress id progress ∧ isLost c = false ∧
      Updated s s' snapshotId id progress := by
  unfold performWithin at h
  dsimp only at h
  split at h
  · cases h
  · rename_i hrefused
    obtain ⟨⟨r', v'⟩, hv, he⟩ := Option.map_eq_some_iff.1 h
    obtain ⟨-, rfl⟩ := Prod.mk.inj he
    by_cases hc : recordsNone o c
    · rw [noted_of_recordsNone hc]
      exact .inl (quiet_perform hv hc)
    · simp only [recordsNone, not_forall, Bool.not_eq_true] at hc
      obtain ⟨id, progress, rfl, hlost⟩ := hc
      refine .inr ⟨id, progress, rfl, hlost, ?_, ?_⟩
      · have hheld : refuses (s.snapshots snapshotId) (.updateProgress id progress) = false := by
          rw [← Bool.not_eq_true]
          exact fun h => hrefused ⟨h, hlost⟩
        simp only [refuses, Bool.not_eq_false'] at hheld
        obtain ⟨e, he, hid⟩ := List.any_eq_true.1 hheld
        exact ⟨e, he, of_decide_eq_true hid⟩
      · rcases perform_updateProgress hv with ⟨hlost', -⟩ | ⟨-, rfl⟩
        · rw [hlost] at hlost'
          cases hlost'
        · simp only [noted, hlost, and_true, home]

/-- What is read from a failed set has failed there. -/
theorem readFailed_ok {queue : String} {first last : ℕ} {c : QueueChoice} {entries : List Entry}
    (h : readFailed s queue first last c = some (.ok entries)) : ∀ entry ∈ entries,
      entry ∈ (s.snapshots entry.job.ref.snapshotId).entries ∧ entry.status = .failed ∧
        entry.job.queue = queue := by
  unfold readFailed at h
  split at h
  · split at h
    · rename_i hall
      cases h
      intro entry he
      exact of_decide_eq_true (List.all_eq_true.1 hall.2 entry he)
    · cases h
  · cases h
  · cases h

theorem clean_cases {queue : String} {limit : ℕ} {status : EntryStatus} {c : QueueChoice}
    {r : Except PipelineError Unit} (h : clean s queue limit status c = some (r, s')) :
    ∃ ids : List JobId, s' = ids.foldl Queues.drop s := by
  unfold clean at h
  split at h
  · split at h
    · rename_i ids _
      exact ⟨ids, (Prod.mk.inj (Option.some.inj h)).2.symm⟩
    · cases h
  · exact ⟨[], (Prod.mk.inj (Option.some.inj h)).2.symm⟩
  · cases h

theorem disturb_quiet {c : QueueChoice} (h : disturb s c = some s') : Quiet s s' := by
  cases c with
  | moved id status attemptsMade failedReason =>
    obtain rfl := Option.some.inj h
    exact Quiet.put (holds_updateEntry fun _ => ⟨rfl, rfl, rfl⟩) (updateEntry_ids fun _ => rfl)
  | dropped id =>
    obtain rfl := Option.some.inj h
    exact quiet_drop s id
  | queued job =>
    obtain rfl := Option.some.inj h
    exact Quiet.put ⟨fun _ h => h, fun _ h => h, entries_addEntry rfl⟩
      fun e he => ⟨e, subset_addEntry _ _ he, rfl⟩
  | lockExpired snapshotId =>
    obtain rfl := Option.some.inj h
    exact Quiet.put ⟨fun _ h => h, fun _ h => h, fun e he => .inl ⟨e, he, rfl, rfl, rfl⟩⟩
      fun e he => ⟨e, he, rfl⟩
  | _ => cases h

/-- Tombstones and logs stay. -/
structure Lasts (s s' : Queues) : Prop where
  terminal : ∀ snapshotId t, (s.snapshots snapshotId).terminal = some t →
    (s'.snapshots snapshotId).terminal = some t
  log : ∀ snapshotId, ∀ x ∈ (s.snapshots snapshotId).log, x ∈ (s'.snapshots snapshotId).log

theorem Quiet.lasts (h : Quiet s s') : Lasts s s' :=
  ⟨fun key => (h.snapshots key).terminal, fun key => (h.snapshots key).log⟩

/-- What an update leaves in the snapshots. -/
theorem Updated.snapshots {snapshotId : String} {id : JobId} {progress : JobProgress}
    (h : Updated s s' snapshotId id progress) (key : String) :
    s'.snapshots key = if key = snapshotId then { s.snapshots snapshotId with
        entries := updateEntry (s.snapshots snapshotId).entries id fun e =>
          { e with progress := progress } } else s.snapshots key := by
  have hput : s'.snapshots = (s.put snapshotId { s.snapshots snapshotId with
      entries := updateEntry (s.snapshots snapshotId).entries id fun e =>
        { e with progress := progress } }).snapshots := by
    rw [h.changed]
    split <;> rfl
  rw [hput]
  split
  · rename_i hkey
    rw [hkey, put_self]
  · rename_i hkey
    rw [put_ne s hkey]

theorem Updated.lasts {snapshotId : String} {id : JobId} {progress : JobProgress}
    (h : Updated s s' snapshotId id progress) : Lasts s s' := by
  constructor
  · intro key t ht
    rw [h.snapshots]
    split
    · rename_i hkey
      rw [← hkey]
      exact ht
    · exact ht
  · intro key x hx
    rw [h.snapshots]
    split
    · rename_i hkey
      rw [← hkey]
      exact hx
    · exact hx

/-- An entry after an update is one from before, whose progress is the new one under the
updated id. -/
theorem Updated.entries {snapshotId : String} {id : JobId} {progress : JobProgress}
    (h : Updated s s' snapshotId id progress) (key : String) :
    ∀ e ∈ (s'.snapshots key).entries, ∃ e₀ ∈ (s.snapshots key).entries,
      e₀.id = e.id ∧ e₀.job = e.job ∧
        e.progress = if key = snapshotId ∧ e₀.id = id then progress else e₀.progress := by
  intro e he
  rw [h.snapshots] at he
  by_cases hkey : key = snapshotId
  · rw [if_pos hkey] at he
    obtain ⟨e₀, he₀, rfl⟩ := List.mem_map.1 he
    refine ⟨e₀, hkey ▸ he₀, ?_⟩
    by_cases hid : e₀.id = id
    · rw [if_pos hid, if_pos ⟨hkey, hid⟩]
      exact ⟨rfl, rfl, rfl⟩
    · rw [if_neg hid, if_neg fun h => hid h.2]
      exact ⟨rfl, rfl, rfl⟩
  · rw [if_neg hkey] at he
    exact ⟨e, he, rfl, rfl, by rw [if_neg fun h => hkey h.1]⟩

theorem Lasts.justified (h : Lasts s s') {snapshotId : String} (hj : Justified s snapshotId) :
    Justified s' snapshotId := by
  obtain ⟨t, ht, hfin⟩ := hj
  refine ⟨t, h.terminal _ t ht, fun job hjob => ?_⟩
  obtain ⟨d, hd⟩ := hfin job hjob
  exact ⟨d, h.log _ _ hd⟩

/-- The await of a snapshot, where the snapshot's records are. -/
theorem performWithin_snapshot {snapshotId : String} {o : Op} {c : Choice}
    {r : Except PipelineError o.Ans} (h : performWithin env p s snapshotId o c = some (r, s')) :
    Distrokid.perform env p.delivery (s.snapshots (home snapshotId o)) o c =
      some (r, s'.snapshots (home snapshotId o)) := by
  unfold performWithin at h
  dsimp only at h
  split at h
  · cases h
  · obtain ⟨⟨r', v'⟩, hv, he⟩ := Option.map_eq_some_iff.1 h
    obtain ⟨rfl, rfl⟩ := Prod.mk.inj he
    rw [noted_snapshots, put_self]
    exact hv

theorem perform_within_settled {snapshotId : String} {o : Op} {c : QueueChoice}
    {r : Except PipelineError o.Ans} (h : perform env p s (.within snapshotId o) c = some (r, s')) :
    ∃ c', c = .settled c' ∧ performWithin env p s snapshotId o c' = some (r, s') := by
  cases c with
  | settled c' => exact ⟨c', rfl, h⟩
  | _ => cases h

theorem perform_enqueue {d : Delivery} {v v' : SnapshotState} {job : StageJob} {n : ℕ} {c : Choice}
    (h : Distrokid.perform env d v (.enqueue job n) c = some (.ok (), v')) :
    (d, Event.enqueued job) ∈ v'.log := by
  rcases perform_cases h with he | ⟨e, r', -, -, he⟩ | ⟨e, -, -, he⟩ | ⟨a, c', ha, -, -⟩
  · obtain ⟨-, rfl⟩ := Prod.mk.inj (Option.some.inj he)
    exact List.mem_cons_self
  · cases he
  · cases he
  · cases c' <;> cases ha

end Steps

/-! ### What holds in every state that is reached -/

section Invariants

variable {env : Env} {p : Process} {s s' : Queues}

abbrev QueueRecord := List (Process × Settled queues PipelineError)

structure Kept (s : Queues) : Prop where
  filed : ∀ snapshotId, ∀ e ∈ (s.snapshots snapshotId).entries,
    Filed e ∧ e.job.ref.snapshotId = snapshotId
  marks : ∀ snapshotId, ∀ e ∈ (s.snapshots snapshotId).entries,
    e.progress.terminalFailureHandled = true → Justified s snapshotId

/-- The answers that a process has had still stand. -/
structure Recalled (s : Queues) (record : QueueRecord) : Prop where
  claims : ∀ p snapshotId t₀ t, Answered (own p record) (.within snapshotId (.claimTerminal t₀)) t →
    (s.snapshots snapshotId).terminal = some t
  enqueues : ∀ p snapshotId job n, Answered (own p record) (.within snapshotId (.enqueue job n)) () →
    ∃ d, (d, Event.enqueued job) ∈ (s.snapshots job.ref.snapshotId).log
  reads : ∀ p entry, ReadBy (own p record) entry → entry.progress.terminalFailureHandled = true →
    Justified s entry.job.ref.snapshotId

theorem Recalled.justified {record : QueueRecord} (h : Recalled s record) {snapshotId : String}
    (ht : Terminalized (own p record) snapshotId) : Justified s snapshotId := by
  obtain ⟨t₀, t, hclaim, hfin⟩ := ht
  exact ⟨t, h.claims _ _ _ _ hclaim, fun job hjob => h.enqueues _ _ _ _ (hfin job hjob)⟩

theorem Kept.quiet (hs : Kept s) (h : Quiet s s') : Kept s' := by
  constructor
  · intro key e he
    rcases (h.snapshots key).entries e he with ⟨e₀, he₀, hid, hjob, -⟩ | ⟨hfresh, hhome, -⟩
    · obtain ⟨hfiled, hhome⟩ := hs.filed key e₀ he₀
      refine ⟨?_, hjob ▸ hhome⟩
      rw [Filed, ← hid, ← hjob]
      exact hfiled
    · refine ⟨?_, hhome⟩
      have hid : e.id = (Entry.fresh e.job).id := congrArg Entry.id hfresh
      exact hid
  · intro key e he hmark
    rcases (h.snapshots key).entries e he with ⟨e₀, he₀, -, -, hprogress⟩ | ⟨hfresh, -, -⟩
    · exact h.lasts.justified (hs.marks key e₀ he₀ (hprogress ▸ hmark))
    · rw [hfresh] at hmark
      cases hmark

theorem Kept.updated {record : QueueRecord} {snapshotId : String} {id : JobId}
    {progress : JobProgress} (hs : Kept s) (hr : Recalled s record)
    (ho : Allowed (own p record) (.within snapshotId (.updateProgress id progress)))
    (h : Updated s s' snapshotId id progress) : Kept s' := by
  constructor
  · intro key e he
    obtain ⟨e₀, he₀, hid, hjob, -⟩ := h.entries key e he
    obtain ⟨hfiled, hhome⟩ := hs.filed key e₀ he₀
    refine ⟨?_, hjob ▸ hhome⟩
    rw [Filed, ← hid, ← hjob]
    exact hfiled
  · intro key e he hmark
    obtain ⟨e₀, he₀, -, -, hprogress⟩ := h.entries key e he
    apply h.lasts.justified
    by_cases hit : key = snapshotId ∧ e₀.id = id
    · rw [if_pos hit] at hprogress
      rw [hprogress] at hmark
      rw [hit.1]
      have hallowed : MayUpdate (own p record) snapshotId id progress := ho
      unfold MayUpdate at hallowed
      split at hallowed
      · obtain ⟨entry, hread, hhome, -, hhandled, -⟩ := hallowed
        exact hhome ▸ hr.reads p entry hread (hhandled ▸ hmark)
      · exact hr.justified hallowed
    · rw [if_neg hit] at hprogress
      exact hs.marks key e₀ he₀ (hprogress ▸ hmark)

theorem Recalled.lasts {record : QueueRecord} (hr : Recalled s record) (h : Lasts s s') :
    Recalled s' record where
  claims p key t₀ t ha := h.terminal key t (hr.claims p key t₀ t ha)
  enqueues p key job n ha := by
    obtain ⟨d, hd⟩ := hr.enqueues p key job n ha
    exact ⟨d, h.log _ _ hd⟩
  reads p entry hread hmark := h.justified (hr.reads p entry hread hmark)

theorem answered_own_cons {q : Process} {record : QueueRecord} {x : Settled queues PipelineError}
    {o : QueueOp} {a : o.Ans} (h : Answered (own q ((p, x) :: record)) o a) :
    x = ⟨o, .ok a⟩ ∨ Answered (own q record) o a := by
  rcases List.mem_cons.1 (mem_own.1 h) with heq | h
  · exact .inl (congrArg Prod.snd heq).symm
  · exact .inr (mem_own.2 h)

/-- An await that is answered rightly is recalled, with all that was recalled before. -/
theorem Recalled.perform {record : QueueRecord} {o : QueueOp} {c : QueueChoice}
    {r : Except PipelineError o.Ans} (hs : Kept s) (hr : Recalled s record) (hlasts : Lasts s s')
    (h : Ledger.perform env p s o c = some (r, s')) :
    Recalled s' ((p, ⟨o, r⟩) :: record) := by
  have hold := hr.lasts hlasts
  constructor
  · intro q key t₀ t ha
    rcases answered_own_cons ha with heq | ha
    · cases heq
      obtain ⟨c', rfl, hp⟩ := perform_within_settled h
      exact (perform_claim (performWithin_snapshot hp)).2 t rfl
    · exact hold.claims q key t₀ t ha
  · intro q key job n ha
    rcases answered_own_cons ha with heq | ha
    · cases heq
      obtain ⟨c', rfl, hp⟩ := perform_within_settled h
      exact ⟨_, perform_enqueue (performWithin_snapshot hp)⟩
    · exact hold.enqueues q key job n ha
  · rintro q entry ⟨queue, first, last, entries, ha, he⟩ hmark
    rcases answered_own_cons ha with heq | ha
    · cases heq
      obtain ⟨r', hread, heq⟩ := Option.map_eq_some_iff.1 h
      cases heq
      apply hlasts.justified
      refine hs.marks _ entry ?_ hmark
      have hall := readFailed_ok hread entry he
      exact hall.1
    · exact hold.reads q entry ⟨queue, first, last, entries, ha, he⟩ hmark

/-! ### Cooldowns -/

theorem finalizeCooldownMs_mono {a b : ℕ} (h : a ≤ b) :
    finalizeCooldownMs a ≤ finalizeCooldownMs b := by
  unfold finalizeCooldownMs
  have hpow : (2 : ℤ) ^ min (a - 1) 5 ≤ 2 ^ min (b - 1) 5 :=
    pow_le_pow_right₀ (by norm_num) (by omega)
  omega

/-- From the sixth recovery on the cooldown is the longest one. -/
theorem finalizeCooldownMs_cap {a b : ℕ} (h : 5 ≤ a) :
    finalizeCooldownMs b ≤ finalizeCooldownMs (a + 1) := by
  have hcap : finalizeCooldownMs (a + 1) = 15 * 60000 := by
    unfold finalizeCooldownMs
    rw [show min (a + 1 - 1) 5 = 5 by omega]
    norm_num
  rw [hcap]
  exact min_le_left _ _

/-- The recorded cooldowns never decrease, and none is longer than the one that its entry's
recoveries have come to. -/
structure Ordered (s : Queues) : Prop where
  sorted : ∀ id, (s.cooldowns id).Pairwise (· ≥ ·)
  bounded : ∀ snapshotId, ∀ e ∈ (s.snapshots snapshotId).entries, isFinalizer e.id = true →
    ∀ c ∈ s.cooldowns e.id, c ≤ finalizeCooldownMs e.progress.finalizeRecoveryAttempts
  absent : ∀ id, (∀ e ∈ (s.snapshots id.snapshotId).entries, e.id ≠ id) → s.cooldowns id = []

theorem Kept.home (hs : Kept s) {snapshotId : String} {e : Entry}
    (he : e ∈ (s.snapshots snapshotId).entries) : snapshotId = e.id.snapshotId := by
  obtain ⟨hfiled, hhome⟩ := hs.filed snapshotId e he
  have hid : e.id.snapshotId = e.job.ref.snapshotId := congrArg JobId.snapshotId hfiled
  exact hhome.symm.trans hid.symm

theorem Ordered.quiet (ho : Ordered s) (h : Quiet s s') : Ordered s' := by
  constructor
  · intro id
    rcases h.cooldowns id with hnil | ⟨hsame, -⟩
    · rw [hnil]
      exact List.Pairwise.nil
    · rw [hsame]
      exact ho.sorted id
  · intro key e he hfinal c hc
    rcases h.cooldowns e.id with hnil | ⟨hsame, -⟩
    · rw [hnil] at hc
      cases hc
    · rw [hsame] at hc
      rcases (h.snapshots key).entries e he with ⟨e₀, he₀, hid, -, hprogress⟩ | ⟨hfresh, hhome, hnew⟩
      · rw [← hprogress]
        rw [← hid] at hfinal hc
        exact ho.bounded key e₀ he₀ hfinal c hc
      · have hid : e.id = e.job.jobId := congrArg Entry.id hfresh
        have hkey : e.id.snapshotId = key := (congrArg JobId.snapshotId hid).trans hhome
        rw [ho.absent e.id (hkey ▸ hnew)] at hc
        cases hc
  · intro id hnone
    rcases h.cooldowns id with hnil | ⟨hsame, hstays⟩
    · exact hnil
    · rw [hsame]
      refine ho.absent id fun e he hid => ?_
      obtain ⟨e', he', hid'⟩ := hstays e he hid
      exact hnone e' he' hid'

theorem Updated.cooldowns {snapshotId : String} {id : JobId} {progress : JobProgress}
    (h : Updated s s' snapshotId id progress) (other : JobId) :
    s'.cooldowns other = if other = id ∧ isFinalizer id = true then
      finalizeCooldownMs progress.finalizeRecoveryAttempts :: s.cooldowns id else s.cooldowns other := by
  rw [h.changed]
  by_cases hfinal : isFinalizer id = true
  · rw [if_pos hfinal]
    by_cases hid : other = id
    · rw [if_pos ⟨hid, hfinal⟩, hid]
      exact Function.update_self ..
    · rw [if_neg fun h => hid h.1]
      exact Function.update_of_ne hid ..
  · rw [if_neg hfinal, if_neg fun h => hfinal h.2]
    rfl

/-- An update that does not fall behind the recoveries of the entry it replaces keeps the
cooldowns in order. -/
theorem Ordered.updated {snapshotId : String} {id : JobId} {progress : JobProgress}
    (hs : Kept s) (ho : Ordered s) (h : Updated s s' snapshotId id progress)
    (hle : isFinalizer id = true → ∀ e ∈ (s.snapshots snapshotId).entries, e.id = id →
      finalizeCooldownMs e.progress.finalizeRecoveryAttempts ≤
        finalizeCooldownMs progress.finalizeRecoveryAttempts) : Ordered s' := by
  obtain ⟨held, hheld, hheldId⟩ := h.held
  have hkey : snapshotId = id.snapshotId := hheldId ▸ hs.home hheld
  have hcooled : isFinalizer id = true → ∀ c ∈ s.cooldowns id,
      c ≤ finalizeCooldownMs progress.finalizeRecoveryAttempts := by
    intro hfinal c hc
    have hb := ho.bounded snapshotId held hheld (hheldId ▸ hfinal) c (hheldId ▸ hc)
    exact hb.trans (hle hfinal held hheld hheldId)
  constructor
  · intro other
    rw [h.cooldowns]
    split
    · rename_i hit
      exact List.pairwise_cons.2 ⟨fun c hc => hcooled hit.2 c hc, ho.sorted id⟩
    · exact ho.sorted other
  · intro key e he hfinal c hc
    obtain ⟨e₀, he₀, hid, -, hprogress⟩ := h.entries key e he
    rw [h.cooldowns] at hc
    by_cases hit : e.id = id
    · have hsame : key = snapshotId ∧ e₀.id = id :=
        ⟨(hs.home he₀).trans (by rw [hid, hit, hkey]), hid.trans hit⟩
      rw [if_pos hsame] at hprogress
      rw [hprogress]
      rw [if_pos ⟨hit, hit ▸ hfinal⟩] at hc
      rcases List.mem_cons.1 hc with rfl | hc
      · exact le_rfl
      · exact hcooled (hit ▸ hfinal) c hc
    · rw [if_neg fun h => hit h.1] at hc
      rw [if_neg fun h => hit (hid.symm.trans h.2)] at hprogress
      rw [hprogress]
      rw [← hid] at hfinal hc
      exact ho.bounded key e₀ he₀ hfinal c hc
  · intro other hnone
    have hheld' : ∀ e ∈ (s.snapshots other.snapshotId).entries,
        ∃ e' ∈ (s'.snapshots other.snapshotId).entries, e'.id = e.id := by
      intro e he
      rw [h.snapshots]
      split
      · rename_i hother
        rw [hother] at he
        exact updateEntry_ids (f := fun e => { e with progress := progress }) (fun _ => rfl) e he
      · exact ⟨e, he, rfl⟩
    have hgone : ∀ e ∈ (s.snapshots other.snapshotId).entries, e.id ≠ other := by
      intro e he hid
      obtain ⟨e', he', hid'⟩ := hheld' e he
      exact hnone e' he' (hid'.trans hid)
    rw [h.cooldowns, if_neg]
    · exact ho.absent other hgone
    · rintro ⟨rfl, -⟩
      exact hgone held (hkey ▸ hheld) hheldId

end Invariants

/-! ### Runs -/

section Runs

variable {env : Env} {batchSize : Option ℕ} {p : Process} {s s' : Queues}

/-- Any number of steps that record no progress. -/
abbrev Quiets : Queues → Queues → Prop := Relation.ReflTransGen Quiet

theorem Quiets.lasts (h : Quiets s s') : Lasts s s' := by
  induction h with
  | refl => exact ⟨fun _ _ h => h, fun _ _ h => h⟩
  | tail _ h ih =>
    exact ⟨fun key t ht => h.lasts.terminal key t (ih.terminal key t ht),
      fun key x hx => h.lasts.log key x (ih.log key x hx)⟩

theorem Quiets.kept (h : Quiets s s') (hs : Kept s) : Kept s' := by
  induction h with
  | refl => exact hs
  | tail _ h ih => exact ih.quiet h

theorem Quiets.ordered (h : Quiets s s') (hs : Ordered s) : Ordered s' := by
  induction h with
  | refl => exact hs
  | tail _ h ih => exact ih.quiet h

theorem quiets_dropAll (ids : List JobId) (s : Queues) : Quiets s (ids.foldl Queues.drop s) := by
  induction ids generalizing s with
  | nil => exact .refl
  | cons id ids ih => exact .head (quiet_drop s id) (ih _)

/-- An await is quiet, or it is an update that the queue took. -/
theorem perform_quiet_or_updated {o : QueueOp} {c : QueueChoice} {r : Except PipelineError o.Ans}
    (h : perform env p s o c = some (r, s')) : Quiets s s' ∨
      ∃ snapshotId id progress, o = .within snapshotId (.updateProgress id progress) ∧
        (∃ c', c = .settled c' ∧ isLost c' = false) ∧ Updated s s' snapshotId id progress := by
  cases o with
  | within snapshotId o =>
    obtain ⟨c', rfl, hp⟩ := perform_within_settled h
    rcases performWithin_cases hp with hq | ⟨id, progress, rfl, hlost, hu⟩
    · exact .inl (.single hq)
    · exact .inr ⟨snapshotId, id, progress, rfl, ⟨c', rfl, hlost⟩, hu⟩
  | getFailed queue first last =>
    obtain ⟨r', -, he⟩ := Option.map_eq_some_iff.1 h
    cases he
    exact .inl .refl
  | returned stats =>
    have hsame : s' = s := by
      cases c with
      | settled c =>
        cases c <;> cases h
        rfl
      | _ => cases h
    exact .inl (hsame ▸ .refl)
  | clean queue graceMs limit status =>
    obtain ⟨ids, rfl⟩ := clean_cases h
    exact .inl (quiets_dropAll ids s)

abbrev LedgerWorld := System.RecordedWorld queues PipelineError Queues Process

/-- A recovery is recorded with at most one other recorded since its sweep read the entry,
or the cooldown has come to its longest. -/
def Unraced (w : LedgerWorld) (m : Move Process QueueChoice) (_ : LedgerWorld) : Prop :=
  ∀ i c p snapshotId id progress k, m = .go i (.settled c) → isLost c = false →
    w.procs[i]? = some (p, .op (.within snapshotId (.updateProgress id progress)) k) →
    isFinalizer id = true → ∀ entry, ReadBy (own p w.state.record) entry → entry.id = id →
    ∀ held ∈ (w.state.state.snapshots snapshotId).entries, held.id = id →
      held.progress.finalizeRecoveryAttempts ≤ entry.progress.finalizeRecoveryAttempts + 1 ∨
        5 ≤ entry.progress.finalizeRecoveryAttempts

/-- What holds of every world, whoever raced. -/
structure Sound (w : LedgerWorld) : Prop where
  watching : System.Watching ledgerWatch w
  kept : Kept w.state.state
  recalled : Recalled w.state.state w.state.record
  upholds : Recording.Upholds ledgerWatch w.state.record

/-- Every step keeps the ledger sound, and an unraced one the order of its cooldowns. -/
theorem Sound.step {w w' : LedgerWorld} {m : Move Process QueueChoice} (hw : Sound w)
    (h : (queueSystem env batchSize).recorded.step w m = some w') :
    Sound w' ∧ (Ordered w.state.state → Unraced w m w' → Ordered w'.state.state) := by
  have hwatching : System.Watching ledgerWatch w' := by
    refine hw.watching.step (fun running q s hs => ?_) (fun past q o c r s _ hp => ?_) h
    · have hstarts : starts w.state.state running q = true := by
        by_contra hno
        simp [queueSystem, hno] at hs
      refine watched_code (fun entry hentry => ?_) fun hsweep => ?_
      · simp only [starts, hentry, delivers, decide_eq_true_eq] at hstarts
        exact (hw.kept.filed _ entry hstarts).1
      · simp [starts, hsweep, delivers] at hstarts
    · cases o with
      | getFailed queue first last =>
        obtain ⟨r', hread, he⟩ := Option.map_eq_some_iff.1 hp
        cases he
        cases r with
        | ok entries =>
          intro entry he
          obtain ⟨hmem, -, hqueue⟩ := readFailed_ok hread entry he
          exact ⟨(hw.kept.filed _ entry hmem).1, hqueue⟩
        | error e => trivial
      | _ => trivial
  rcases hw.watching.step_cases h with ⟨q, o, k, c, r, s, ⟨i, rfl, hi⟩, hok, hp, hstate⟩ |
    ⟨hrecord, hchange⟩
  · have hs : w'.state.state = s := by rw [hstate]
    have hrecord : w'.state.record = (q, ⟨o, r⟩) :: w.state.record := by rw [hstate]
    have hupholds : Recording.Upholds ledgerWatch w'.state.record := by
      rw [hrecord]
      exact upholds_cons hw.upholds hok
    have hp' : perform env q w.state.state o c = some (r, s) := hp
    rcases perform_quiet_or_updated hp' with hq | ⟨key, id, progress, rfl, ⟨c', rfl, hlost⟩, hu⟩
    · refine ⟨⟨hwatching, ?_, ?_, hupholds⟩, fun ho _ => ?_⟩
      · rw [hs]
        exact hq.kept hw.kept
      · rw [hs, hrecord]
        exact hw.recalled.perform hw.kept hq.lasts hp'
      · rw [hs]
        exact hq.ordered ho
    · refine ⟨⟨hwatching, ?_, ?_, hupholds⟩, fun ho hunraced => ?_⟩
      · rw [hs]
        exact hw.kept.updated hw.recalled hok hu
      · rw [hs, hrecord]
        exact hw.recalled.perform hw.kept hu.lasts hp'
      · rw [hs]
        refine ho.updated hw.kept hu fun hfinal held hheld hid => ?_
        have hmay : MayUpdate (own q w.state.record) key id progress := hok
        rw [MayUpdate, if_pos hfinal] at hmay
        obtain ⟨entry, hread, -, hentry, -, hattempts⟩ := hmay
        rw [hattempts]
        rcases hunraced i c' q key id progress k rfl hlost hi hfinal entry hread hentry held hheld
          hid with hle | hcap
        · exact finalizeCooldownMs_mono hle
        · exact finalizeCooldownMs_cap hcap
  · have hq : Quiets w.state.state w'.state.state := by
      rcases hchange with ⟨running, q, hs⟩ | ⟨q, r, hs⟩ | ⟨q, hs⟩ | ⟨c, hs⟩
      · simp only [queueSystem] at hs
        split at hs
        · rw [← Option.some.inj hs]
        · cases hs
      · rw [hs]
        exact .refl
      · rw [hs]
        exact .refl
      · exact .single (disturb_quiet hs)
    refine ⟨⟨hwatching, hq.kept hw.kept, ?_, ?_⟩, fun ho _ => hq.ordered ho⟩
    · rw [hrecord]
      exact hw.recalled.lasts hq.lasts
    · rw [hrecord]
      exact hw.upholds

/-- Nothing has been marked, recovered or awaited yet; every entry is kept with its snapshot,
under its job's id. -/
structure Opened (s : Queues) : Prop where
  filed : ∀ snapshotId, ∀ e ∈ (s.snapshots snapshotId).entries,
    Filed e ∧ e.job.ref.snapshotId = snapshotId
  unmarked : ∀ snapshotId, ∀ e ∈ (s.snapshots snapshotId).entries,
    e.progress.terminalFailureHandled = false
  unrecovered : ∀ id, s.cooldowns id = []

theorem Opened.sound (hs : Opened s) : Sound (World.idle ⟨s, []⟩) where
  watching := System.watching_idle _
  kept := ⟨hs.filed, fun key e he hmark => by simp [hs.unmarked key e he] at hmark⟩
  recalled := by
    refine ⟨fun p key t₀ t ha => ?_, fun p key job n ha => ?_, ?_⟩
    · cases ha
    · cases ha
    · rintro p entry ⟨queue, first, last, entries, ha, -⟩
      cases ha
  upholds := upholds_nil _

theorem Opened.ordered (hs : Opened s) : Ordered s where
  sorted id := by
    rw [hs.unrecovered id]
    exact List.Pairwise.nil
  bounded key e he hfinal c hc := by
    rw [hs.unrecovered] at hc
    cases hc
  absent id _ := hs.unrecovered id

/-- What the failed ledger promises whoever sweeps it. -/
structure Converges (w : LedgerWorld) : Prop where
  handled : ∀ snapshotId, ∀ e ∈ (w.state.state.snapshots snapshotId).entries,
    e.progress.terminalFailureHandled = true → Justified w.state.state snapshotId
  swept : ∀ newer p stats r past,
    w.state.record = newer ++ (p, ⟨.returned stats, r⟩) :: past → stats.failed = 0 →
      Swept (own p past)
  cleaned : ∀ newer p queue graceMs limit status r past,
    w.state.record = newer ++ (p, ⟨.clean queue graceMs limit status, r⟩) :: past →
      ∃ stats, Answered (own p past) (.returned stats) () ∧ stats.failed = 0

theorem Sound.converges {w : LedgerWorld} (hw : Sound w) : Converges w where
  handled := hw.kept.marks
  swept newer p stats r past h := hw.upholds newer p (.returned stats) r past h
  cleaned newer p queue graceMs limit status r past h :=
    hw.upholds newer p (.clean queue graceMs limit status) r past h

/-- The failed ledger converges in every run; and in a run where no recovery is recorded
across two others, the cooldowns recorded for a finalizer never decrease. -/
theorem failed_ledger (hs : Opened s) {ms : List (Move Process QueueChoice)} {w : LedgerWorld}
    (h : (queueSystem env batchSize).recorded.run (World.idle ⟨s, []⟩) ms = some w) :
    Converges w ∧
      ((queueSystem env batchSize).recorded.Along Unraced (World.idle ⟨s, []⟩) ms →
        ∀ id, (w.state.state.cooldowns id).Pairwise (· ≥ ·)) := by
  have hreach : (queueSystem env batchSize).recorded.Reaches (World.idle ⟨s, []⟩) w := ⟨ms, h⟩
  have hsound : Sound w := hreach.invariant (fun _ _ _ hw hm => (hw.step hm).1) hs.sound
  refine ⟨hsound.converges, fun halong => ?_⟩
  have hordered : Sound w ∧ Ordered w.state.state := by
    refine System.run_invariant (I := fun w => Sound w ∧ Ordered w.state.state)
      (fun v m v' hv hunraced hm => ?_) ⟨hs.sound, hs.ordered⟩ halong h
    exact ⟨(hv.1.step hm).1, (hv.1.step hm).2 hv.2 hunraced⟩
  exact hordered.2.sorted

end Runs

/-! ### Two runs -/

/-- A failed entry of the queues. -/
def failedEntry (job : StageJob) (progress : JobProgress) : Entry :=
  { Entry.fresh job with
    status := .failed, attemptsMade := 3, failedReason := some "failed", progress := progress }

def sampleFinalizer : StageJob :=
  .finalize { toSnapshotRef := { sampleRef with snapshotId := "other" }, status := .failed
              completeness := (reconcileCheckpoint [] []).1, pass := some 1 }

def sampleIndex : StageJob := .index { toSnapshotRef := sampleRef, artists := [] }

def untouched : JobProgress := ⟨false, none, none, 0, 0⟩

/-- An index job has failed in one snapshot, a finalizer in another one. -/
def sampleQueues : Queues where
  snapshots snapshotId := { SnapshotState.empty with
    entries := [failedEntry sampleIndex untouched, failedEntry sampleFinalizer untouched].filter
      fun e => e.job.ref.snapshotId = snapshotId }
  cooldowns _ := []

def sampleSystem : System queues PipelineError (Recording queues PipelineError Queues Process)
    Process QueueChoice := (queueSystem sampleEnv none).recorded

/-- What a sweep reads from the six queues, where one of them is not empty. -/
def reads (i : ℕ) (first last : List Entry) : List (Move Process QueueChoice) :=
  [.go i (.read first), .go i (.read []), .go i (.read []), .go i (.read []), .go i (.read []),
    .go i (.read last)]

def settles (i : ℕ) (cs : List Choice) : List (Move Process QueueChoice) :=
  cs.map fun c => .go i (.settled c)

/-- How a sweep that counted no failure ends. -/
def cleans (i : ℕ) : List (Move Process QueueChoice) :=
  .go i (.settled .done) :: (List.replicate 12 (.go i (.cleaned []))).concat (.settle i)

def timer (pid worker : ℕ) : Move Process QueueChoice := .start ⟨pid, .triggerRecovery worker⟩

theorem opened_sampleQueues : Opened sampleQueues := by
  have hmem : ∀ {snapshotId e}, e ∈ (sampleQueues.snapshots snapshotId).entries →
      (e = failedEntry sampleIndex untouched ∨ e = failedEntry sampleFinalizer untouched) ∧
        e.job.ref.snapshotId = snapshotId := by
    intro snapshotId e he
    obtain ⟨he, hhome⟩ := List.mem_filter.1 he
    refine ⟨?_, of_decide_eq_true hhome⟩
    simpa using he
  refine ⟨fun snapshotId e he => ⟨?_, (hmem he).2⟩, fun snapshotId e he => ?_, fun id => rfl⟩
  · rcases (hmem he).1 with rfl | rfl <;> rfl
  · rcases (hmem he).1 with rfl | rfl <;> rfl

/-- One sweep reads the failed finalizer and stops. Two others recover it, and it fails
again; then the first one goes on from what it had read. -/
def racedRun : { ms : List (Move Process QueueChoice) //
    ∃ w ∈ sampleSystem.run (World.idle ⟨sampleQueues, []⟩) ms,
      w.state.state.cooldowns sampleFinalizer.jobId = [30000, 60000, 30000] } :=
  ⟨timer 0 1 :: reads 0 [] [failedEntry sampleFinalizer untouched] ++
    timer 1 0 :: reads 1 [] [failedEntry sampleFinalizer untouched] ++
    settles 1 [.time 0, .time 0, .done, .done] ++ cleans 1 ++
    .env (.moved sampleFinalizer.jobId .failed 3 (some "failed")) ::
    timer 2 0 :: reads 1 [] [failedEntry sampleFinalizer ⟨false, none, none, 1, 30000⟩] ++
    settles 1 [.time 30000, .time 30000, .done, .done] ++ cleans 1 ++
    .env (.moved sampleFinalizer.jobId .failed 3 (some "failed")) ::
    settles 0 [.time 90000, .time 90000, .done, .done], by decide +kernel⟩

/-- The cooldown of a finalizer falls back from a minute to half a minute. -/
theorem failed_ledger_raced : ∃ s, Opened s ∧ ∃ w, sampleSystem.Reaches (World.idle ⟨s, []⟩) w ∧
    ¬ ∀ id, (w.state.state.cooldowns id).Pairwise (· ≥ ·) := by
  obtain ⟨ms, w, hw, hcooldowns⟩ := racedRun
  refine ⟨sampleQueues, opened_sampleQueues, w, ⟨ms, hw⟩, fun h => ?_⟩
  have hpair := h sampleFinalizer.jobId
  rw [hcooldowns] at hpair
  revert hpair
  decide

/-- Whoever is about to record progress finds no entry recovered more than once. -/
def staysFresh (w : LedgerWorld) : Move Process QueueChoice → Bool
  | .go i _ =>
    match w.procs[i]? with
    | some (_, .op (.within snapshotId (.updateProgress ..)) _) =>
      (w.state.state.snapshots snapshotId).entries.all fun e =>
        e.progress.finalizeRecoveryAttempts ≤ 1
    | _ => true
  | _ => true

theorem unraced_of_staysFresh {w w' : LedgerWorld} {m : Move Process QueueChoice}
    (h : staysFresh w m = true) : Unraced w m w' := by
  rintro i c p snapshotId id progress k rfl - hi - entry - - held hheld -
  simp only [staysFresh, hi] at h
  have hle := of_decide_eq_true (List.all_eq_true.1 h held hheld)
  exact .inl (by omega)

/-- A sweep terminalizes the index job's snapshot and retries the finalizer; the cleaning
follows. -/
def sweptRun : { ms : List (Move Process QueueChoice) //
    sampleSystem.Along (fun w m _ => staysFresh w m = true) (World.idle ⟨sampleQueues, []⟩) ms ∧
    ∃ w ∈ sampleSystem.run (World.idle ⟨sampleQueues, []⟩) ms,
      w.state.state.cooldowns sampleFinalizer.jobId = [30000] ∧
      ((w.state.state.snapshots "snapshot").entries.any fun e =>
        e.id = sampleIndex.jobId ∧ e.progress.terminalFailureHandled = true) = true } :=
  ⟨timer 0 0 :: (reads 0 [failedEntry sampleIndex untouched] []).take 1 ++
    settles 0 [.done, .done, .done, .stamp "t", .done, .done, .done, .stamp "t", .done] ++
    (reads 0 [] [failedEntry sampleFinalizer untouched]).drop 1 ++
    settles 0 [.time 0, .time 0, .done, .done] ++ cleans 0, by decide +kernel⟩

theorem failed_ledger_swept : ∃ w, sampleSystem.Reaches (World.idle ⟨sampleQueues, []⟩) w ∧
    Converges w ∧ (∀ id, (w.state.state.cooldowns id).Pairwise (· ≥ ·)) ∧
    w.state.state.cooldowns sampleFinalizer.jobId = [30000] ∧
    ∃ e ∈ (w.state.state.snapshots "snapshot").entries,
      e.id = sampleIndex.jobId ∧ e.progress.terminalFailureHandled = true := by
  obtain ⟨ms, hfresh, w, hw, hcooldowns, hmarked⟩ := sweptRun
  obtain ⟨hconverges, hordered⟩ := failed_ledger opened_sampleQueues hw
  obtain ⟨e, he, hmark⟩ := List.any_eq_true.1 hmarked
  exact ⟨w, ⟨ms, hw⟩, hconverges, hordered
    (System.Along.mono _ hfresh fun _ _ _ => unraced_of_staysFresh),
    hcooldowns, e, he, of_decide_eq_true hmark⟩

end CatalogSentinel.Distrokid.Ledger
