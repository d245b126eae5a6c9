import CatalogSentinel.Checkpoint.Commands
import CatalogSentinel.Checkpoint.StoreAgreement

/-!
What every command of the tiered store keeps: the rows of a snapshot only move ahead, a
transaction keeps the lock it took, the sets in Redis hold completed chunks only, a tombstone
in Redis is the durable one, and every binding that an instance remembers is that of the rows.
-/

namespace CatalogSentinel.Checkpoint.Commands

open CatalogSentinel.Data CatalogSentinel.Concurrent CatalogSentinel.Distrokid

/-! ### Rows that move ahead -/

/-- Some claim that started has proposed the tombstone, which is in sanitized form here. -/
def Proposed (P : Platform) (asked : List (Request × Committed)) (s : String)
    (b : SnapshotCheckpointBinding) (w : SnapshotTerminalTombstone) : Prop :=
  ∃ q ∈ asked, ∃ t, q.1.call = .claimTerminal s t ∧ sanitizeTombstone P t b = .ok w

structure ValidRows (P : Platform) (asked : List (Request × Committed)) (s : String)
    (r : SnapshotRows) : Prop where
  binding : r.binding.snapshotId = s
  chunks : r.chunks.Nodup
  tombstone : ∀ w, r.terminal = some w → sanitizeTombstone P w r.binding = .ok w
  proposed : ∀ w, r.terminal = some w → Proposed P asked s r.binding w

structure SnapshotRows.Grows (r r' : SnapshotRows) : Prop where
  binding : r'.binding = r.binding
  chunks : r.chunks <+: r'.chunks
  terminal : ∀ w, r.terminal = some w → r'.terminal = some w

theorem SnapshotRows.Grows.refl (r : SnapshotRows) : r.Grows r := ⟨rfl, List.prefix_rfl, fun _ h => h⟩

theorem SnapshotRows.Grows.trans {r r' r'' : SnapshotRows} (h : r.Grows r') (h' : r'.Grows r'') :
    r.Grows r'' :=
  ⟨h'.binding.trans h.binding, h.chunks.trans h'.chunks, fun w hw => h'.terminal w (h.terminal w hw)⟩

/-- A row that is there stays, and its rows grow. -/
def Ahead (before after : Option SnapshotRows) : Prop :=
  ∀ r, before = some r → ∃ r', after = some r' ∧ r.Grows r'

theorem Ahead.refl (rows : Option SnapshotRows) : Ahead rows rows := fun r h => ⟨r, h, .refl r⟩

theorem Ahead.trans {a b c : Option SnapshotRows} (h : Ahead a b) (h' : Ahead b c) : Ahead a c := by
  intro r hr
  obtain ⟨r', hr', hgrows⟩ := h r hr
  obtain ⟨r'', hr'', hgrows'⟩ := h' r' hr'
  exact ⟨r'', hr'', hgrows.trans hgrows'⟩

theorem Ahead.passChunks {a b : Option SnapshotRows} (h : Ahead a b) (pass : ℕ) :
    passChunks a pass <+: passChunks b pass := by
  cases a with
  | none => exact List.nil_prefix
  | some r =>
    obtain ⟨r', rfl, hgrows⟩ := h r rfl
    exact hgrows.chunks.filterMap _

theorem Ahead.terminal {a b : Option SnapshotRows} (h : Ahead a b) {w : SnapshotTerminalTombstone}
    (hw : terminalOf a = some w) : terminalOf b = some w := by
  obtain ⟨r, hr, hterminal⟩ := Option.bind_eq_some_iff.1 hw
  obtain ⟨r', rfl, hgrows⟩ := h r hr
  exact hgrows.terminal w hterminal

def discipline (P : Platform) (asked : List (Request × Committed)) :
    RowLocks.Discipline String (Option SnapshotRows) where
  valid s rows := ∀ r, rows = some r → ValidRows P asked s r
  lockable rows := rows.isSome = true
  ahead := Ahead
  refl := Ahead.refl
  trans _ _ _ := Ahead.trans

theorem ValidRows.mono {P : Platform} {asked asked' : List (Request × Committed)} {s : String}
    {r : SnapshotRows} (h : ValidRows P asked s r) (hasked : ∀ q ∈ asked, q ∈ asked') :
    ValidRows P asked' s r where
  binding := h.binding
  chunks := h.chunks
  tombstone := h.tombstone
  proposed w hw := by
    obtain ⟨q, hq, hrest⟩ := h.proposed w hw
    exact ⟨q, hasked q hq, hrest⟩

theorem nodup_passChunks {P : Platform} {asked : List (Request × Committed)} {s : String}
    {rows : Option SnapshotRows} (h : ∀ r, rows = some r → ValidRows P asked s r) (pass : ℕ) :
    (passChunks rows pass).Nodup := by
  cases rows with
  | none => exact List.nodup_nil
  | some r =>
    refine (h r rfl).chunks.filterMap ?_
    intro c c' i hi hi'
    obtain ⟨hc, rfl⟩ : c.1 = pass ∧ c.2 = i := by simpa using hi
    obtain ⟨hc', he⟩ : c'.1 = pass ∧ c'.2 = c.2 := by simpa using hi'
    exact Prod.ext (hc.trans hc'.symm) he.symm

theorem mem_passChunks {r : SnapshotRows} {pass i : ℕ} :
    i ∈ passChunks (some r) pass ↔ (pass, i) ∈ r.chunks := by
  simp only [passChunks, Option.elim_some, List.mem_filterMap, Option.ite_none_right_eq_some, Option.some.injEq]
  constructor
  · rintro ⟨⟨p, c⟩, hc, rfl, rfl⟩
    exact hc
  · exact fun h => ⟨(pass, i), h, rfl, rfl⟩

/-! ### Statements -/

section Statements

variable {D : DashboardPlatform} {dep : Deployment} {asked : List (Request × Committed)} {s : String}
  {r r' : SnapshotRows}

/-- A claim may insert the tombstone. -/
def Statement.Fits (D : DashboardPlatform) (asked : List (Request × Committed)) (s : String)
    (r : SnapshotRows) : Statement → Prop
  | .insertTerminal w => sanitizeTombstone D.toPlatform w r.binding = .ok w ∧
      Proposed D.toPlatform asked s r.binding w
  | _ => True

theorem ValidRows.same (h : ValidRows D.toPlatform asked s r) (hbinding : r'.binding = r.binding)
    (hchunks : r'.chunks = r.chunks) (hterminal : r'.terminal = r.terminal) :
    ValidRows D.toPlatform asked s r' ∧ r.Grows r' := by
  refine ⟨⟨?_, ?_, ?_, ?_⟩, ⟨hbinding, ?_, ?_⟩⟩
  · rw [hbinding]
    exact h.binding
  · rw [hchunks]
    exact h.chunks
  · rw [hterminal, hbinding]
    exact h.tombstone
  · rw [hterminal, hbinding]
    exact h.proposed
  · exact hchunks.symm ▸ List.prefix_rfl
  · exact fun _ hw => by rwa [hterminal]

/-- Statements only move the rows of the snapshot ahead. -/
theorem execute_grows {st : Statement} {a : st.Ans} (h : ValidRows D.toPlatform asked s r)
    (hfits : st.Fits D asked s r) (hrun : st.execute D dep r = .ok (a, r')) :
    ValidRows D.toPlatform asked s r' ∧ r.Grows r' := by
  cases st with
  | deleteIndex | bumpVersion _ =>
    cases hrun
    exact h.same rfl rfl rfl
  | upsertOutcomes batch =>
    simp only [Statement.execute] at hrun
    split at hrun
    · cases hrun
      exact h.same rfl rfl rfl
    · cases hrun
  | insertChunk pass chunkIndex =>
    obtain ⟨passColumn, -, hrun⟩ := bind_ok.1 hrun
    obtain ⟨chunkColumn, -, hrun⟩ := bind_ok.1 hrun
    cases hrun
    refine ⟨⟨h.binding, nodup_addOnce h.chunks, h.tombstone, h.proposed⟩, rfl, ?_, fun _ hw => hw⟩
    change r.chunks <+: addOnce _ r.chunks
    unfold addOnce
    split
    · exact List.prefix_rfl
    · exact List.prefix_append _ _
  | insertIndex _ | upsertProgress _ | deletePlan _ | insertPlan _ _ =>
    obtain ⟨_, -, hrun⟩ := bind_ok.1 hrun
    cases hrun
    exact h.same rfl rfl rfl
  | insertTerminal w =>
    simp only [Statement.execute] at hrun
    split at hrun
    · cases hrun
      exact ⟨h, .refl r⟩
    · rename_i hfree
      cases hrun
      refine ⟨⟨h.binding, h.chunks, ?_, ?_⟩, rfl, List.prefix_rfl, ?_⟩
      · rintro w' hw'
        obtain rfl := Option.some.inj hw'
        exact hfits.1
      · rintro w' hw'
        obtain rfl := Option.some.inj hw'
        exact hfits.2
      · simp [hfree]

end Statements

/-! ### What an answer owes -/

/-- What a call that began at some rows owes for its answer, at the rows when it answers. -/
def Right (call : StoreCall) (began : Committed) (a : StoreAnswer) (rows : Committed) : Prop :=
  match call with
  | .markChunkComplete s pass i => i ∈ passChunks (rows s) pass
  | .completedChunks s pass => ∃ cs, a = .chunks cs ∧ cs.Pairwise (· < ·) ∧
      (∀ i ∈ cs, i ∈ passChunks (rows s) pass) ∧ (passChunks (began s) pass).length ≤ cs.length
  | .claimTerminal s _ => ∃ w, a = .terminal (some w) ∧ terminalOf (rows s) = some w
  | .getTerminal s => ∃ found, a = .terminal found ∧
      (∀ w, found = some w → terminalOf (rows s) = some w) ∧
      ∀ w, terminalOf (began s) = some w → found = some w
  | _ => True

theorem Right.ahead {call : StoreCall} {began rows rows' : Committed} {a : StoreAnswer}
    (h : Right call began a rows) (hrows : ∀ s, Ahead (rows s) (rows' s)) : Right call began a rows' := by
  cases call with
  | markChunkComplete s pass i => exact ((hrows s).passChunks pass).subset h
  | completedChunks s pass =>
    obtain ⟨cs, ha, hsorted, hcs, hlength⟩ := h
    exact ⟨cs, ha, hsorted, fun i hi => ((hrows s).passChunks pass).subset (hcs i hi), hlength⟩
  | claimTerminal s t =>
    obtain ⟨w, ha, hw⟩ := h
    exact ⟨w, ha, (hrows s).terminal hw⟩
  | getTerminal s =>
    obtain ⟨found, ha, hfound, hbegan⟩ := h
    exact ⟨found, ha, fun w hw => (hrows s).terminal (hfound w hw), hbegan⟩
  | _ => trivial

/-! ### The contract -/

/-- The snapshot is bound so, for good. -/
def Bound (s : String) (b : SnapshotCheckpointBinding) (rows : Committed) : Prop :=
  b.snapshotId = s ∧ ∃ r, rows s = some r ∧ r.binding = b

theorem Bound.ahead {s : String} {b : SnapshotCheckpointBinding} {rows rows' : Committed}
    (h : Bound s b rows) (hrows : ∀ s, Ahead (rows s) (rows' s)) : Bound s b rows' := by
  obtain ⟨hs, r, hr, rfl⟩ := h
  obtain ⟨r', hr', hgrows⟩ := hrows s r hr
  exact ⟨hs, r', hr', hgrows.binding⟩

theorem Bound.rowOf {s : String} {b : SnapshotCheckpointBinding} {rows : Committed}
    (h : Bound s b rows) : rowOf b (rows b.snapshotId) = rows s := by
  obtain ⟨rfl, r, hr, rfl⟩ := h
  simp [Commands.rowOf, hr]

/-- What a store instance remembers. -/
def Instance.Knows (m : Instance) (rows : Committed) : Prop :=
  (∀ s b, m.durableBindings s = some b → Bound s b rows) ∧
    ∀ s b, m.bindings s = some b → Bound s b rows

theorem Instance.Knows.ahead {m : Instance} {rows rows' : Committed} (h : m.Knows rows)
    (hrows : ∀ s, Ahead (rows s) (rows' s)) : m.Knows rows' :=
  ⟨fun s b hb => (h.1 s b hb).ahead hrows, fun s b hb => (h.2 s b hb).ahead hrows⟩

/-- What a key may hold beside the durable rows: chunks that are complete, or the tombstone. -/
def Key.Holds (rows : Committed) : (k : Key) → k.Value → Prop
  | .chunks s pass, (found : List ℕ) => found.Nodup ∧ ∀ i ∈ found, i ∈ passChunks (rows s) pass
  | .terminal s, (w : SnapshotTerminalTombstone) => terminalOf (rows s) = some w
  | _, _ => True

def Cached (r : Redis) (rows : Committed) : Prop := ∀ k value, r k = some value → k.Holds rows value

theorem Cached.ahead {r : Redis} {rows rows' : Committed} (h : Cached r rows)
    (hrows : ∀ s, Ahead (rows s) (rows' s)) : Cached r rows' := by
  intro k value hvalue
  have hold := h k value hvalue
  cases k with
  | chunks s pass => exact ⟨hold.1, fun i hi => ((hrows s).passChunks pass).subset (hold.2 i hi)⟩
  | terminal s => exact (hrows s).terminal hold
  | _ => trivial

structure Inv (P : Platform) (st : State) : Prop where
  tables : RowLocks.Sound (discipline P st.started) st.tables
  cached : Cached st.redis st.tables.rows
  instances : ∀ n, (st.instances n).Knows st.tables.rows
  ids : (st.started.map fun q => q.1.id).Nodup
  began : ∀ q ∈ st.started, ∀ s, Ahead (q.2 s) (st.tables.rows s)
  answers : ∀ a ∈ st.answers, (a.request, a.began) ∈ st.started ∧
    Right a.request.call a.began a.answer a.ended ∧ ∀ s, Ahead (a.ended s) (st.tables.rows s)

theorem inv_initial (P : Platform) : Inv P State.initial where
  tables := RowLocks.sound_unlocked fun _ r hr => by cases hr
  cached := fun _ _ h => by cases h
  instances := fun _ => ⟨by simp [State.initial, Instance.fresh], by simp [State.initial, Instance.fresh]⟩
  ids := List.nodup_nil
  began := fun _ h => by cases h
  answers := fun _ h => by cases h

/-- The rows grow, and a call that started stays so. -/
structure Grows (st st' : State) : Prop where
  rows : ∀ s, Ahead (st.tables.rows s) (st'.tables.rows s)
  started : ∀ q ∈ st.started, q ∈ st'.started

theorem Grows.refl (st : State) : Grows st st := ⟨fun _ => Ahead.refl _, fun _ h => h⟩

theorem Grows.trans {st st' st'' : State} (h : Grows st st') (h' : Grows st' st'') : Grows st st'' :=
  ⟨fun s => (h.rows s).trans (h'.rows s), fun q hq => h'.started q (h.started q hq)⟩

section Contract

variable (D : DashboardPlatform) (dep : Deployment) (pages : ℕ)

/-- Requests differ in their ids, and none touches the locks of another. -/
def contract : Contract (store D dep pages) where
  inv := Inv D.toPlatform
  own t st := ∃ began, (t, began) ∈ st.started
  rely t st st' := st.tables.Spares t.id st'.tables ∧ Grows st st'
  grows := Grows
  apart t u := t.id ≠ u.id
  post _ _ _ := True
  rely_refl _ st := ⟨.refl _ _, .refl st⟩
  rely_trans _ _ _ _ h h' := ⟨h.1.trans h'.1, h.2.trans h'.2⟩
  rely_grows _ _ _ h := h.2
  rely_own _ _ _ h _ ho := ho.imp fun _ hb => h.2.started _ hb

/-! ### Awaits that keep the contract -/

variable {D dep pages} {P : Platform} {st st' : State} {t : Request}

theorem Inv.withTables (h : Inv P st) {d : Tables} (hsound : RowLocks.Sound (discipline P st.started) d)
    (hrows : ∀ s, Ahead (st.tables.rows s) (d.rows s)) : Inv P { st with tables := d } where
  tables := hsound
  cached := h.cached.ahead hrows
  instances n := (h.instances n).ahead hrows
  ids := h.ids
  began q hq s := (h.began q hq s).trans (hrows s)
  answers a ha := by
    obtain ⟨hstarted, hright, hended⟩ := h.answers a ha
    exact ⟨hstarted, hright, fun s => (hended s).trans (hrows s)⟩

theorem Inv.withRedis (h : Inv P st) {r : Redis} (hcached : Cached r st.tables.rows) :
    Inv P { st with redis := r } :=
  ⟨h.tables, hcached, h.instances, h.ids, h.began, h.answers⟩

theorem Inv.withInstance (h : Inv P st) {n : ℕ} {m : Instance} (hm : m.Knows st.tables.rows) :
    Inv P { st with instances := Function.update st.instances n m } := by
  refine ⟨h.tables, h.cached, fun n' => ?_, h.ids, h.began, h.answers⟩
  by_cases hn : n' = n
  · subst hn
    simpa using hm
  · simpa [Function.update_of_ne hn] using h.instances n'

/-- What changes no table keeps the contract with its invariant. -/
theorem keeps_of_tables (hinv : Inv D.toPlatform st') (ho : (contract D dep pages).own t st)
    (htables : st'.tables = st.tables) (hstarted : st'.started = st.started) :
    (contract D dep pages).Keeps t st st' := by
  have hgrows : Grows st st' := by
    refine ⟨fun s => ?_, fun q hq => ?_⟩
    · rw [htables]
      exact Ahead.refl _
    · rwa [hstarted]
  refine ⟨hinv, ho.imp fun _ hb => hgrows.started _ hb, hgrows, fun u _ => ⟨?_, hgrows⟩⟩
  rw [htables]
  exact RowLocks.Spares.refl _ _

/-- The rows that the transaction has locked fit the statement. -/
def SqlOp.Fits (D : DashboardPlatform) (asked : List (Request × Committed)) (t : ℕ) (d : Tables) :
    SqlOp → Prop
  | .execute s st => ∀ r, d.held s = some (t, some r) → st.Fits D asked s r
  | _ => True

/-- A SQL command is a change that read committed knows. -/
theorem change_of_perform {asked : List (Request × Committed)} {d d' : Tables} {n : ℕ} {o : SqlOp}
    {a : Checked o.Ans} (hd : RowLocks.Sound (discipline D.toPlatform asked) d)
    (hfits : o.Fits D asked n d) (h : o.perform D dep n d = some (a, d')) :
    RowLocks.Change (discipline D.toPlatform asked) n d d' := by
  cases o with
  | lock b =>
    simp only [SqlOp.perform] at h
    split at h
    · cases h
      exact .same
    · rename_i r hrow
      obtain ⟨d₁, hlock, he⟩ := Option.map_eq_some_iff.1 h
      cases he
      refine .locked hlock ?_
      have hsome : d.rows b.snapshotId = some r := (Option.filter_eq_some_iff.1 hrow).1
      simp [discipline, hsome]
  | execute s stmt =>
    simp only [SqlOp.perform] at h
    split at h
    · rename_i r hown
      have hheld := RowLocks.own?_eq.1 hown
      split at h
      · rename_i answer r' hrun
        cases h
        obtain ⟨hvalid, hgrows⟩ := execute_grows (hd.left s n _ hheld r rfl) (hfits r hheld) hrun
        refine .wrote s (some r') (fun r'' he => Option.some.inj he ▸ hvalid) ?_
        rw [RowLocks.seen_of_held hheld]
        exact fun r₀ he => ⟨r', rfl, Option.some.inj he ▸ hgrows⟩
      · cases h
        exact .same
    · cases h
      exact .same
  | commit s =>
    cases h
    exact .committed s
  | rollback s =>
    cases h
    exact .rolledBack s
  | insertCheckpoint b =>
    simp only [SqlOp.perform] at h
    split at h
    · cases h
      exact .same
    · rename_i hnone
      cases h
      refine .autocommitted b.snapshotId (some (SnapshotRows.fresh b)) ?_ ?_ ?_
      · cases hheld : d.held b.snapshotId with
        | none => rfl
        | some holder =>
          have hlocked := hd.locked b.snapshotId holder.1 holder.2 hheld
          simp [discipline, hnone] at hlocked
      · rintro r hr
        obtain rfl := Option.some.inj hr
        exact ⟨rfl, List.nodup_nil, by simp [SnapshotRows.fresh], by simp [SnapshotRows.fresh]⟩
      · rw [hnone]
        exact fun r hr => by cases hr
  | selectChunks _ _ _ | countChunks _ _ | selectPlan _ _ _ =>
    simp only [SqlOp.perform] at h
    split at h <;> cases h <;> exact .same
  | _ =>
    cases h
    exact .same

theorem keeps_sql {o : SqlOp} {c : Choice} {r : Checked o.Ans} (hi : Inv D.toPlatform st)
    (ho : (contract D dep pages).own t st) (hfits : o.Fits D st.started t.id st.tables)
    (h : perform D dep t st (.sql o) c = some (r, st')) : (contract D dep pages).Keeps t st st' := by
  have hkeeps : ∀ {d : Tables}, RowLocks.Sound (discipline D.toPlatform st.started) d →
      (∀ s, Ahead (st.tables.rows s) (d.rows s)) → (∀ u, t.id ≠ u → st.tables.Spares u d) →
      (contract D dep pages).Keeps t st { st with tables := d } := by
    intro d hsound hrows hspares
    have hgrows : Grows st { st with tables := d } := ⟨hrows, fun _ hq => hq⟩
    exact ⟨hi.withTables hsound hrows, ho, hgrows, fun u hne => ⟨hspares u.id hne, hgrows⟩⟩
  cases c with
  | done =>
    obtain ⟨⟨a, d⟩, hp, he⟩ := Option.map_eq_some_iff.1 h
    cases he
    have hchange := change_of_perform hi.tables hfits hp
    exact hkeeps (hchange.sound hi.tables) (hchange.advances hi.tables) fun u hne => hchange.spares hne
  | fails effective message =>
    obtain ⟨⟨a, d⟩, hp, he⟩ := Option.map_eq_some_iff.1 h
    cases he
    have hchange := change_of_perform hi.tables hfits hp
    cases effective with
    | true =>
      refine hkeeps ((hchange.sound hi.tables).abandon t.id) (hchange.advances hi.tables) fun u hne => ?_
      exact (hchange.spares hne).trans (RowLocks.spares_abandon hne)
    | false =>
      exact hkeeps (hi.tables.abandon t.id) (fun _ => Ahead.refl _) fun u hne => RowLocks.spares_abandon hne
  | lose k => cases h

theorem keeps_redis {o : RedisOp} {c : Choice} {r : Checked o.Ans} (hi : Inv D.toPlatform st)
    (ho : (contract D dep pages).own t st) (hcached : Cached (o.perform st.redis).2 st.tables.rows)
    (h : perform D dep t st (.redis o) c = some (r, st')) : (contract D dep pages).Keeps t st st' := by
  cases c with
  | done =>
    cases h
    exact keeps_of_tables (hi.withRedis hcached) ho rfl rfl
  | fails effective message =>
    cases h
    cases effective with
    | true => exact keeps_of_tables (hi.withRedis hcached) ho rfl rfl
    | false => exact keeps_of_tables hi ho rfl rfl
  | lose k => cases h

theorem keeps_memory {o : MemoryOp} {c : Choice} {r : Checked o.Ans} (hi : Inv D.toPlatform st)
    (ho : (contract D dep pages).own t st)
    (hm : (o.perform (st.instances t.worker)).2.Knows st.tables.rows)
    (h : perform D dep t st (.memory o) c = some (r, st')) : (contract D dep pages).Keeps t st st' := by
  cases c with
  | done =>
    cases h
    exact keeps_of_tables (hi.withInstance hm) ho rfl rfl
  | fails effective message => cases h
  | lose k => cases h

section Cached

variable {r : Redis} {rows : Committed}

theorem Cached.del (h : Cached r rows) (k : Key) : Cached (r.del k) rows := by
  intro k' value hvalue
  by_cases hk : k' = k
  · subst hk
    rw [Redis.del, Function.update_self] at hvalue
    cases hvalue
  · rw [Redis.del, Function.update_of_ne hk] at hvalue
    exact h k' value hvalue

theorem Cached.set (h : Cached r rows) {k : Key} {value : k.Value} (hvalue : k.Holds rows value) :
    Cached (r.set k value) rows := by
  intro k' value' hset
  by_cases hk : k' = k
  · subst hk
    rw [Redis.set, Function.update_self] at hset
    exact Option.some.inj hset ▸ hvalue
  · rw [Redis.set, Function.update_of_ne hk] at hset
    exact h k' value' hset

theorem Cached.setOf (h : Cached r rows) (s : String) (pass : ℕ) :
    (r.setOf s pass).Nodup ∧ ∀ i ∈ r.setOf s pass, i ∈ passChunks (rows s) pass := by
  unfold Redis.setOf
  cases hset : r (.chunks s pass) with
  | none => exact ⟨List.nodup_nil, fun i hi => absurd hi List.not_mem_nil⟩
  | some found => exact h _ found hset

theorem Cached.sadd (h : Cached r rows) {s : String} {pass i : ℕ} (hi : i ∈ passChunks (rows s) pass) :
    Cached (r.set (.chunks s pass) (addOnce i (r.setOf s pass))) rows := by
  obtain ⟨hnodup, hsets⟩ := h.setOf s pass
  refine h.set ⟨nodup_addOnce hnodup, fun j hj => ?_⟩
  rcases mem_addOnce.1 hj with hj | rfl
  · exact hsets j hj
  · exact hi

/-- Keys that are neither a set of chunks nor a tombstone. -/
def Key.Free : Key → Prop
  | .chunks .. => False
  | .terminal _ => False
  | _ => True

theorem Key.Free.holds {k : Key} (hk : k.Free) (value : k.Value) : k.Holds rows value := by
  cases k <;> trivial

end Cached

/-- The awaits that need no fact to keep the contract. -/
def Op.Plain : Op → Prop
  | .sql (.execute _ (.insertTerminal _)) => False
  | .sql _ => True
  | .redis (.set k _) => k.Free
  | .redis (.setNX k _) => k.Free
  | .redis (.sadd ..) => False
  | .redis _ => True
  | .memory (.rememberDurable ..) => False
  | .memory (.rememberTiered _) => False
  | .memory _ => True
  | .answer _ => False
  | .stall => True

theorem calm_of_plain {o : Op} (h : o.Plain) : (contract D dep pages).Calm t o := by
  intro st c r st' hi ho hp
  cases o with
  | sql o =>
    refine keeps_sql hi ho ?_ hp
    cases o with
    | execute s stmt =>
      intro r hr
      cases stmt with
      | insertTerminal w => exact h.elim
      | _ => trivial
    | _ => trivial
  | redis o =>
    refine keeps_redis hi ho ?_ hp
    cases o with
    | set k value => exact hi.cached.set (h.holds value)
    | setNX k value =>
      simp only [RedisOp.perform]
      split
      · exact hi.cached
      · exact hi.cached.set (h.holds value)
    | del k => exact hi.cached.del k
    | hset s o => exact hi.cached.set (k := .outcomes s) trivial
    | sadd s pass i => exact h.elim
    | _ => exact hi.cached
  | memory o =>
    refine keeps_memory hi ho ?_ hp
    cases o with
    | maps => exact hi.instances t.worker
    | noteVersion s part version =>
      simp only [MemoryOp.perform]
      split
      · exact hi.instances t.worker
      · exact hi.instances t.worker
    | _ => exact h.elim
  | answer a => exact h.elim
  | stall =>
    cases c <;> cases hp

end Contract

end CatalogSentinel.Checkpoint.Commands
