import CatalogSentinel.Checkpoint.TieredChunks
import CatalogSentinel.Checkpoint.TieredTombstones

/-!
What the calls of the tiered store answer, in any interleaving of their commands. A chunk that
Redis holds is durably complete; a list of completed chunks has no chunk that is not, and misses
none where none was marked meanwhile; the first tombstone that a claim commits is the one that
every claim answers, and every read that starts after it.
-/

namespace CatalogSentinel.Checkpoint.Commands

open CatalogSentinel.Data CatalogSentinel.Concurrent CatalogSentinel.Distrokid

section Ensures

variable {D : DashboardPlatform} {dep : Deployment} {pages : ℕ} {t : Request} {F : Committed → Prop}

/-! ### Bindings are established -/

theorem ensures_rememberDurable [Persists F] (b : SnapshotCheckpointBinding) (versions : CheckpointPart → ℕ)
    (hb : ∀ rows, F rows → Bound b.snapshotId b rows) :
    Ensures D dep pages t F (memory (.rememberDurable b versions)) fun _ => Bound b.snapshotId b := by
  refine ensures_memory (fun m rows hm h => ⟨fun s b' hb' => ?_, hm.2⟩) fun m rows _ _ h _ => hb rows h
  by_cases hs : s = b.snapshotId
  · subst hs
    obtain rfl : b = b' := by simpa [MemoryOp.perform] using hb'
    exact hb rows h
  · exact hm.1 s b' (by simpa [MemoryOp.perform, Function.update_of_ne hs] using hb')

theorem ensures_rememberTiered [Persists F] (b : SnapshotCheckpointBinding)
    (hb : ∀ rows, F rows → Bound b.snapshotId b rows) :
    Ensures D dep pages t F (memory (.rememberTiered b)) fun _ _ => True := by
  refine ensures_memory (fun m rows hm h => ⟨hm.1, fun s b' hb' => ?_⟩) fun _ _ _ _ _ _ => trivial
  by_cases hs : s = b.snapshotId
  · subst hs
    obtain rfl : b = b' := by simpa [MemoryOp.perform] using hb'
    exact hb rows h
  · exact hm.2 s b' (by simpa [MemoryOp.perform, Function.update_of_ne hs] using hb')

theorem ensures_durableBind [Persists F] (b : SnapshotCheckpointBinding) :
    Ensures D dep pages t F (Postgres.bindSnapshot b) fun _ => Bound b.snapshotId b := by
  refine ensures_check fun _ _ => ensures_maps.bind fun m => ensures_throwIf fun _ => ?_
  refine .bind (ensures_of_plain (plain_sql trivial)) fun _ => ?_
  refine Ensures.bind (G := fun (found : Option (SnapshotCheckpointBinding × (CheckpointPart → ℕ))) rows =>
    ∀ row versions, found = some (row, versions) → Bound b.snapshotId row rows) ?_ fun found => ?_
  · refine ensures_sql trivial ?_
    intro d d' found asked hd h hrun
    cases hrun
    intro row versions hfound
    obtain ⟨r, hr, he⟩ := Option.map_eq_some_iff.1 hfound
    cases he
    exact ⟨(hd.rows b.snapshotId r hr).binding, r, hr, rfl⟩
  cases found with
  | none => exact ensures_raise
  | some found =>
    obtain ⟨row, versions⟩ := found
    refine ensures_throwIf fun hsame => ?_
    obtain rfl : row = b := not_not.1 hsame
    exact ensures_rememberDurable row versions fun rows h => h.1 row versions rfl

theorem ensures_bindSnapshot [Persists F] (b : SnapshotCheckpointBinding) :
    Ensures D dep pages t F (bindSnapshot b) fun _ _ => True := by
  refine ensures_check fun _ _ => (ensures_durableBind b).bind fun _ => ensures_maps.bind fun m => ?_
  refine ensures_throwIf fun _ => (ensures_rememberTiered b fun rows h => h.2.1).bind fun _ => ?_
  exact ensures_of_plain (calls_cacheWrite (plain_hotBindSnapshot b))

/-! ### Every call -/

instance (call : StoreCall) (began : Committed) (a : StoreAnswer) : Persists (Right call began a) :=
  ⟨fun _ _ h hr => hr.ahead h⟩

/-- Whatever is asked, the answer is right by the rows when the call began and those by now. -/
theorem ensures_serve (hP : D.toPlatform.Faithful) {began : Committed}
    (hbegan : ∀ s pass, (passChunks (began s) pass).Nodup) :
    Ensures D dep pages t (fun rows => ∀ s, Ahead (began s) (rows s)) (serve D dep pages t.call)
      fun a => Right t.call began a := by
  have hplain : ∀ {α : Type} {p : Store α} {f : α → StoreAnswer}, p.Calls Op.Plain → ∀ {call : StoreCall},
      (∀ a rows, Right call began (f a) rows) →
      Ensures D dep pages t (fun rows => ∀ s, Ahead (began s) (rows s)) (p >>= fun a => Prog.ret (f a))
        fun a => Right call began a := fun hp call hright =>
    (ensures_of_plain hp).bind fun a => ensures_ret fun rows _ => hright a rows
  cases hcall : t.call with
  | bindSnapshot b => exact (ensures_bindSnapshot b).bind fun _ => ensures_ret fun _ _ => trivial
  | putIndex s releases => exact hplain (plain_putIndex releases) fun _ _ => trivial
  | getIndex s => exact hplain plain_getIndex fun _ _ => trivial
  | putOutcomes s os => exact hplain (plain_putOutcomes os) fun _ _ => trivial
  | getOutcomes s => exact hplain plain_getOutcomes fun _ _ => trivial
  | putProgress p => exact hplain (plain_putProgress p) fun _ _ => trivial
  | getProgress s => exact hplain plain_getProgress fun _ _ => trivial
  | markChunkComplete s pass i =>
    exact (ensures_markChunkComplete s pass i).bind fun _ => ensures_ret fun rows h => h.1
  | completedChunks s pass =>
    refine (ensures_completedChunks began (hbegan s)).bind fun cs => ensures_ret fun rows h => ?_
    exact ⟨cs, rfl, h.1.sorted, h.1.durable, h.1.least⟩
  | putPassPlan s pass chunks => exact hplain (plain_putPassPlan pass chunks) fun _ _ => trivial
  | getPassPlan s pass => exact hplain (plain_getPassPlan pass) fun _ _ => trivial
  | claimTerminal s w =>
    exact (ensures_claimTerminal hP hcall).bind fun winner => ensures_ret fun rows h => ⟨winner, rfl, h.1⟩
  | getTerminal s =>
    refine Ensures.bind ((ensures_getTerminal (terminalOf (began s))).pre fun rows h w hw =>
      (h s).terminal hw) fun found => ?_
    exact ensures_ret fun rows h => ⟨found, rfl, h.1.durable, h.1.known⟩

/-! ### Every run -/

theorem find_started {started : List (Request × Committed)} (hids : (started.map fun q => q.1.id).Nodup)
    {began : Committed} (h : (t, began) ∈ started) :
    started.find? (fun q => q.1.id = t.id) = some (t, began) := by
  induction started with
  | nil => cases h
  | cons q started ih =>
    obtain ⟨hnew, hids⟩ := List.nodup_cons.1 hids
    rcases List.mem_cons.1 h with rfl | h
    · simp
    · have hne : q.1.id ≠ t.id := fun he => hnew (List.mem_map.2 ⟨_, h, he.symm⟩)
      simpa [hne] using ih hids h

theorem lasting_started (t : Request) (began : Committed) :
    (contract D dep pages).Lasting fun st => (t, began) ∈ st.started :=
  fun _ _ hgrows h => hgrows.started _ h

/-- A call that began at some rows is answered rightly. -/
theorem triple_code (hP : D.toPlatform.Faithful) {began : Committed}
    (hbegan : ∀ s pass, (passChunks (began s) pass).Nodup) :
    (contract D dep pages).Triple t
      (fun st => (∀ s, Ahead (began s) (st.tables.rows s)) ∧ (t, began) ∈ st.started)
      (code D dep pages t) (fun _ _ => True) (fun _ _ => True) := by
  have hserve : Ensures D dep pages t _ _ _ := ensures_serve hP hbegan
  refine ((Contract.Triple.frame hserve (lasting_started t began)).consequence (fun _ _ h => h)
    (fun _ _ _ h => h) fun _ _ _ _ => trivial).bind fun a => ?_
  have hlasting : (contract D dep pages).Lasting fun st =>
      Right t.call began a st.tables.rows ∧ (t, began) ∈ st.started :=
    (lasting_rows (Right t.call began a)).and (lasting_started t began)
  refine Contract.triple_call (hlasting.stable t) (fun r => ?_) fun st c r st' hi ho hs hp => ?_
  · cases r <;> exact stable_true
  · cases c with
    | done =>
      cases hp
      have hbegun : begun st t = began := by
        unfold begun
        rw [find_started hi.ids hs.2]
        rfl
      refine ⟨keeps_of_tables ⟨hi.tables, hi.cached, hi.instances, hi.ids, hi.began, ?_⟩ ho rfl rfl, trivial⟩
      intro answered hanswered
      rcases List.mem_cons.1 hanswered with rfl | hold
      · rw [hbegun]
        exact ⟨hs.2, hs.1, fun _ => Ahead.refl _⟩
      · exact hi.answers answered hold
    | fails effective message => cases hp
    | lose k => cases hp

theorem inv_start {st : State} (hi : Inv D.toPlatform st) (hnew : ∀ q ∈ st.started, q.1.id ≠ t.id) :
    Inv D.toPlatform { st with started := (t, st.tables.rows) :: st.started } where
  tables := hi.tables.mono (fun _ _ h r hr => (h r hr).mono fun _ hq => List.mem_cons_of_mem _ hq)
    (fun _ h => h) fun _ _ h => h
  cached := hi.cached
  instances := hi.instances
  ids := List.nodup_cons.2 ⟨fun h => by
    obtain ⟨q, hq, he⟩ := List.mem_map.1 h
    exact hnew q hq he, hi.ids⟩
  began q hq s := by
    rcases List.mem_cons.1 hq with rfl | hq
    · exact Ahead.refl _
    · exact hi.began q hq s
  answers a ha := by
    obtain ⟨hstarted, hrest⟩ := hi.answers a ha
    exact ⟨List.mem_cons_of_mem _ hstarted, hrest⟩

theorem sound_store (hP : D.toPlatform.Faithful) : (contract D dep pages).Sound where
  start st ts t st' hi hown h := by
    simp only [store] at h
    split at h
    · cases h
    · rename_i hfresh
      cases h
      have hnew : ∀ q ∈ st.started, q.1.id ≠ t.id := by simpa using hfresh
      have hgrows : Grows st { st with started := (t, st.tables.rows) :: st.started } :=
        ⟨fun _ => Ahead.refl _, fun _ hq => List.mem_cons_of_mem _ hq⟩
      have hinv := inv_start hi hnew
      have hown' : (contract D dep pages).own t { st with started := (t, st.tables.rows) :: st.started } :=
        ⟨st.tables.rows, List.mem_cons_self⟩
      refine ⟨hinv, hgrows, hown', ?_, fun u hu => ?_⟩
      · have hcode : (contract D dep pages).Triple t _ (code D dep pages t) _ _ :=
          triple_code hP fun s pass => nodup_passChunks (hi.tables.rows s) pass
        exact (hcode _ hinv hown' ⟨fun _ => Ahead.refl _, List.mem_cons_self⟩).mono fun _ _ _ _ => trivial
      · obtain ⟨began, hbegan⟩ := hown u hu
        have hne := hnew _ hbegan
        exact ⟨hne.symm, hne, .refl _ _, hgrows⟩
  settle st t r hi ho _ := ⟨hi, .refl st, fun _ _ => ⟨.refl _ _, .refl st⟩⟩
  crash st t hi ho := by
    have hgrows : Grows st { st with tables := st.tables.abandon t.id } := ⟨fun _ => Ahead.refl _, fun _ h => h⟩
    refine ⟨hi.withTables (hi.tables.abandon t.id) fun _ => Ahead.refl _, hgrows, fun u hne => ?_⟩
    exact ⟨RowLocks.spares_abandon hne, hgrows⟩
  env st c st' hi h := by
    cases c with
    | lose k =>
      cases h
      have hgrows : Grows st { st with redis := st.redis.del k } := ⟨fun _ => Ahead.refl _, fun _ h => h⟩
      exact ⟨hi.withRedis (hi.cached.del k), hgrows, fun _ => ⟨.refl _ _, hgrows⟩⟩
    | done => cases h
    | fails effective message => cases h

/-- The worlds that calls of the store reach from empty tiers. -/
abbrev Reached (D : DashboardPlatform) (dep : Deployment) (pages : ℕ)
    (w : World commands CheckpointError State Request) : Prop :=
  (store D dep pages).Reaches (World.idle State.initial) w

theorem inv_reached (hP : D.toPlatform.Faithful) {w : World commands CheckpointError State Request}
    (h : Reached D dep pages w) : Inv D.toPlatform w.state :=
  (Contract.Valid.reaches (sound_store hP) (Contract.valid_idle (inv_initial D.toPlatform)) h).inv

/-- In every run, however its commands interleave, fail and lose keys: Redis holds no chunk that is
not durably complete, an answered mark is durable, and a list of completed chunks has only chunks
that are complete, at least as many as when it was asked for; so where none was marked meanwhile,
it is exactly the list of those. -/
theorem chunks_never_ahead (hP : D.toPlatform.Faithful) {w : World commands CheckpointError State Request}
    (h : Reached D dep pages w) :
    (∀ s pass, ∀ i ∈ w.state.redis.setOf s pass, i ∈ passChunks (w.state.tables.rows s) pass) ∧
    ∀ a ∈ w.state.answers, ∀ s pass,
      (∀ i, a.request.call = .markChunkComplete s pass i → i ∈ passChunks (a.ended s) pass) ∧
      (a.request.call = .completedChunks s pass → ∃ cs, a.answer = .chunks cs ∧ cs.Pairwise (· < ·) ∧
        (∀ i ∈ cs, i ∈ passChunks (a.ended s) pass) ∧
        (passChunks (a.began s) pass).length ≤ cs.length ∧
        (passChunks (a.ended s) pass = passChunks (a.began s) pass →
          ∀ i, i ∈ cs ↔ i ∈ passChunks (a.ended s) pass)) := by
  have hi := inv_reached hP h
  refine ⟨fun s pass => (hi.cached.setOf s pass).2, fun a ha s pass => ?_⟩
  obtain ⟨-, hright, -⟩ := hi.answers a ha
  constructor
  · intro i hcall
    rw [hcall] at hright
    exact hright
  · intro hcall
    rw [hcall] at hright
    obtain ⟨cs, hanswer, hsorted, hdurable, hlength⟩ := hright
    refine ⟨cs, hanswer, hsorted, hdurable, hlength, fun hsame i => ⟨hdurable i, fun hmem => ?_⟩⟩
    rw [← hsame] at hlength
    have hnodup : cs.Nodup := hsorted.imp fun hlt => hlt.ne
    have hperm : cs.Perm (passChunks (a.ended s) pass) := (hnodup.subperm hdurable).perm_of_length_le hlength
    exact hperm.mem_iff.2 hmem

/-- In every run: a snapshot has one tombstone. Some claim proposed it, in this sanitized form; every
answered claim answers it, whoever won, and so does every read that began after it was committed. -/
theorem tombstone_agreed (hP : D.toPlatform.Faithful) {w : World commands CheckpointError State Request}
    (h : Reached D dep pages w) :
    (∀ s r winner, w.state.tables.rows s = some r → r.terminal = some winner →
      Proposed D.toPlatform w.state.started s r.binding winner) ∧
    ∀ a ∈ w.state.answers, ∀ s,
      (∀ proposal, a.request.call = .claimTerminal s proposal → ∃ winner,
        a.answer = .terminal (some winner) ∧ terminalOf (w.state.tables.rows s) = some winner) ∧
      (a.request.call = .getTerminal s → ∃ found, a.answer = .terminal found ∧
        (∀ winner, found = some winner → terminalOf (w.state.tables.rows s) = some winner) ∧
        ∀ winner, terminalOf (a.began s) = some winner → found = some winner) := by
  have hi := inv_reached hP h
  refine ⟨fun s r winner hr => (hi.tables.rows s r hr).proposed winner, fun a ha s => ?_⟩
  obtain ⟨-, hright, hended⟩ := hi.answers a ha
  constructor
  · intro proposal hcall
    rw [hcall] at hright
    obtain ⟨winner, hanswer, hwinner⟩ := hright
    exact ⟨winner, hanswer, (hended s).terminal hwinner⟩
  · intro hcall
    rw [hcall] at hright
    obtain ⟨found, hanswer, hdurable, hknown⟩ := hright
    exact ⟨found, hanswer, fun winner hw => (hended s).terminal (hdurable winner hw), hknown⟩

end Ensures

/-! ### Two workers -/

abbrev sampleStore : System commands CheckpointError State Request Choice :=
  store sampleDashboards sampleDeployment 2

/-- Each worker binds the snapshot. -/
def bothBind : List (System.Cue Request) :=
  [.start ⟨0, 0, .bindSnapshot sampleBinding⟩, .awaits 0 8, .settle 0,
    .start ⟨1, 1, .bindSnapshot sampleBinding⟩, .awaits 0 10, .settle 0]

/-- Redis fails the versions that are written to it, though it keeps them. -/
def versionsFail (_ : Request) : Op → Choice
  | .redis (.set (.version ..) _) => .fails true "down"
  | _ => .done

/-- One worker has marked a chunk; the other marks the next one, and the first lists them. -/
def markedRun : { cues : List (System.Cue Request) //
    ∃ w ∈ sampleStore.play versionsFail (World.idle .initial) cues, ∃ a ∈ w.state.answers,
      a.request = ⟨4, 0, .completedChunks "s1" 1⟩ ∧
      passChunks (a.ended "s1") 1 = passChunks (a.began "s1") 1 ∧ passChunks (a.ended "s1") 1 = [0, 1] } :=
  ⟨bothBind ++ [.start ⟨2, 0, .markChunkComplete "s1" 1 0⟩, .awaits 0 10,
    .start ⟨3, 1, .markChunkComplete "s1" 1 1⟩, .awaits 1 21, .settle 1, .awaits 0 6, .settle 0,
    .start ⟨4, 0, .completedChunks "s1" 1⟩, .awaits 0 6], by decide +kernel⟩

theorem chunks_never_ahead_marked : ∃ w, Reached sampleDashboards sampleDeployment 2 w ∧
    ∃ a ∈ w.state.answers, a.request.call = .completedChunks "s1" 1 ∧
      ∃ cs, a.answer = .chunks cs ∧ ∀ i, i ∈ cs ↔ i ∈ [0, 1] := by
  obtain ⟨cues, w, hw, a, ha, hrequest, hsame, hdurable⟩ := markedRun
  have hreach : Reached sampleDashboards sampleDeployment 2 w := System.reaches_play hw
  have hcall : a.request.call = .completedChunks "s1" 1 := by rw [hrequest]
  obtain ⟨cs, hanswer, -, -, -, hexact⟩ :=
    ((chunks_never_ahead faithful_sampleDashboards.platform hreach).2 a ha "s1" 1).2 hcall
  refine ⟨w, hreach, a, ha, hcall, cs, hanswer, fun i => ?_⟩
  rw [hexact hsame i, hdurable]

def cancelledFor (reason : String) : SnapshotTerminalTombstone :=
  .cancelled "2026-01-01T00:00:00.000Z" reason

/-- Two workers claim at once, and a read starts when the first has committed. -/
def racedRun : { cues : List (System.Cue Request) //
    ∃ w ∈ sampleStore.play versionsFail (World.idle .initial) cues, ∃ a ∈ w.state.answers,
      a.request = ⟨4, 1, .getTerminal "s1"⟩ ∧ terminalOf (a.began "s1") = some (cancelledFor "first") } :=
  ⟨bothBind ++ [.start ⟨2, 0, .claimTerminal "s1" (cancelledFor "first")⟩, .awaits 0 8,
    .start ⟨3, 1, .claimTerminal "s1" (cancelledFor "second")⟩, .awaits 1 4, .awaits 0 1,
    .start ⟨4, 1, .getTerminal "s1"⟩, .awaits 1 10, .awaits 2 12, .awaits 0 5], by decide +kernel⟩

theorem tombstone_agreed_raced : ∃ w, Reached sampleDashboards sampleDeployment 2 w ∧
    ∃ a ∈ w.state.answers, a.request.call = .getTerminal "s1" ∧
      a.answer = .terminal (some (cancelledFor "first")) := by
  obtain ⟨cues, w, hw, a, ha, hrequest, hbegan⟩ := racedRun
  have hreach : Reached sampleDashboards sampleDeployment 2 w := System.reaches_play hw
  have hcall : a.request.call = .getTerminal "s1" := by rw [hrequest]
  obtain ⟨found, hanswer, -, hknown⟩ :=
    ((tombstone_agreed faithful_sampleDashboards.platform hreach).2 a ha "s1").2 hcall
  exact ⟨w, hreach, a, ha, hcall, by rw [hanswer, hknown _ hbegan]⟩

end CatalogSentinel.Checkpoint.Commands
