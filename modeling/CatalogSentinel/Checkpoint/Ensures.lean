import CatalogSentinel.Checkpoint.PlainCalls

/-!
Rules for the programs of the tiered store, on what holds of the committed rows for good: such a
fact survives every interference. Inside a transaction the rows that it has locked are known
besides, and become such a fact when it commits.
-/

namespace CatalogSentinel.Checkpoint.Commands

open CatalogSentinel.Data CatalogSentinel.Concurrent CatalogSentinel.Distrokid

/-- What holds of the rows for good. -/
class Persists (F : Committed → Prop) : Prop where
  ahead : ∀ rows rows' : Committed, (∀ s, Ahead (rows s) (rows' s)) → F rows → F rows'

section Persists

variable {F G : Committed → Prop} {ι : Sort*} {H : ι → Committed → Prop}

instance (p : Prop) : Persists fun _ => p := ⟨fun _ _ _ h => h⟩

instance [hF : Persists F] [hG : Persists G] : Persists fun rows => F rows ∧ G rows :=
  ⟨fun rows rows' h hFG => ⟨hF.ahead rows rows' h hFG.1, hG.ahead rows rows' h hFG.2⟩⟩

instance [hH : ∀ i, Persists (H i)] : Persists fun rows => ∀ i, H i rows :=
  ⟨fun rows rows' h hi i => (hH i).ahead rows rows' h (hi i)⟩

instance [hH : ∀ i, Persists (H i)] : Persists fun rows => ∃ i, H i rows :=
  ⟨fun rows rows' h hi => hi.imp fun i hi => (hH i).ahead rows rows' h hi⟩

instance (s : String) (b : SnapshotCheckpointBinding) : Persists (Bound s b) :=
  ⟨fun _ _ h hb => hb.ahead h⟩

instance (m : Instance) : Persists m.Knows := ⟨fun _ _ h hm => hm.ahead h⟩

instance (s : String) (pass i : ℕ) : Persists fun rows => i ∈ passChunks (rows s) pass :=
  ⟨fun _ _ h hi => ((h s).passChunks pass).subset hi⟩

instance (s : String) (w : SnapshotTerminalTombstone) :
    Persists fun rows => terminalOf (rows s) = some w := ⟨fun _ _ h hw => (h s).terminal hw⟩

instance (began : Committed) (s : String) : Persists fun rows => Ahead (began s) (rows s) :=
  ⟨fun _ _ h hs => hs.trans (h s)⟩

end Persists

section Ensures

variable (D : DashboardPlatform) (dep : Deployment) (pages : ℕ) (t : Request)

/-- From rows where `F` holds, the program keeps the contract and returns where `G` does. -/
def Ensures {α : Type} (F : Committed → Prop) (p : Store α) (G : α → Committed → Prop) : Prop :=
  (contract D dep pages).Triple t (fun st => F st.tables.rows) p (fun a st => G a st.tables.rows)
    (fun _ _ => True)

variable {D dep pages t} {α β : Type} {F F' : Committed → Prop} {G G' : α → Committed → Prop}
  {H : β → Committed → Prop}

theorem lasting_rows (F : Committed → Prop) [hF : Persists F] :
    (contract D dep pages).Lasting fun st => F st.tables.rows :=
  fun _ _ hgrows h => hF.ahead _ _ hgrows.rows h

theorem stable_rows (F : Committed → Prop) [Persists F] :
    (contract D dep pages).Stable t fun st => F st.tables.rows := (lasting_rows F).stable t

theorem stable_true : (contract D dep pages).Stable t fun _ => True := fun _ _ _ _ _ => trivial

/-- How a call ends by the rows is stable. -/
theorem stable_ends (G : α → Committed → Prop) [∀ a, Persists (G a)] (r : Checked α) :
    (contract D dep pages).Stable t (Contract.Ends (fun a st => G a st.tables.rows) (fun _ _ => True) r) := by
  cases r with
  | ok a => exact stable_rows (G a)
  | error e => exact stable_true

theorem Ensures.pre {p : Store α} (h : Ensures D dep pages t F p G) (hF : ∀ rows, F' rows → F rows) :
    Ensures D dep pages t F' p G :=
  Contract.Triple.pre h fun st _ hs => hF st.tables.rows hs

/-- What held before is at hand for what holds after. -/
theorem Ensures.post [Persists F] {p : Store α} (h : Ensures D dep pages t F p G)
    (hG : ∀ a rows, F rows → G a rows → G' a rows) : Ensures D dep pages t F p G' :=
  (Contract.Triple.frame h (lasting_rows F)).consequence (fun _ _ hs => ⟨hs, hs⟩)
    (fun a _ _ hs => hG a _ hs.2 hs.1) fun _ _ _ _ => trivial

theorem ensures_ret [Persists F] {a : α} (h : ∀ rows, F rows → G a rows) :
    Ensures D dep pages t F (Prog.ret a) G :=
  Contract.triple_ret (stable_rows F) fun st _ hs => h st.tables.rows hs

theorem ensures_raise [Persists F] {e : CheckpointError} : Ensures D dep pages t F (Prog.raise e) G :=
  Contract.triple_raise (stable_rows F) fun _ _ _ => trivial

theorem ensures_ofExcept [Persists F] {r : Checked α} (h : ∀ a rows, r = .ok a → F rows → G a rows) :
    Ensures D dep pages t F (Prog.ofExcept r) G := by
  cases r with
  | ok a => exact ensures_ret fun rows => h a rows rfl
  | error e => exact ensures_raise

/-- What is checked first is known from there on. -/
theorem ensures_check [Persists F] {r : Checked α} {f : α → Store β}
    (h : ∀ a, r = .ok a → Ensures D dep pages t F (f a) H) :
    Ensures D dep pages t F (Prog.ofExcept r >>= f) H := by
  cases r with
  | ok a => exact h a rfl
  | error e => exact ensures_raise

/-- Sequencing keeps what held before at hand. -/
theorem Ensures.bind [Persists F] {p : Store α} {f : α → Store β} (hp : Ensures D dep pages t F p G)
    (hf : ∀ a, Ensures D dep pages t (fun rows => G a rows ∧ F rows) (f a) H) :
    Ensures D dep pages t F (p >>= f) H :=
  Contract.Triple.andThen hp (lasting_rows F) hf

theorem Ensures.handle [Persists F] {p : Store α} {f : CheckpointError → Store α}
    (hp : Ensures D dep pages t F p G) (hf : ∀ e, Ensures D dep pages t F (f e) G) :
    Ensures D dep pages t F (p.handle f) G :=
  Contract.Triple.handle ((Contract.Triple.frame hp (lasting_rows F)).consequence (fun _ _ hs => ⟨hs, hs⟩)
    (fun _ _ _ hs => hs.1) fun _ _ _ hs => hs.2) hf

/-- What the rows imply may be taken for granted. -/
theorem ensures_of_known {p : Store α} (known : Prop) (hknown : ∀ rows, F rows → known)
    (h : known → Ensures D dep pages t F p G) : Ensures D dep pages t F p G :=
  fun st hi ho hs => h (hknown _ hs) st hi ho hs

theorem ensures_of_exists {ι : Type} {F : ι → Committed → Prop} {p : Store α}
    (h : ∀ i, Ensures D dep pages t (F i) p G) :
    Ensures D dep pages t (fun rows => ∃ i, F i rows) p G := by
  intro st hi ho hs
  obtain ⟨i, hs⟩ := hs
  exact h i st hi ho hs

/-- A program of plain awaits needs no fact and establishes none. -/
theorem ensures_of_plain {p : Store α} (h : p.Calls Op.Plain) : Ensures D dep pages t F p fun _ _ => True :=
  Contract.triple_of_calm (h.mono fun _ ho => calm_of_plain ho)

/-! A command that is answered took effect. -/

theorem perform_sql_ok {st st' : State} {o : SqlOp} {c : Choice} {a : o.Ans}
    (h : perform D dep t st (.sql o) c = some (.ok a, st')) :
    ∃ d, o.perform D dep t.id st.tables = some (.ok a, d) ∧ st' = { st with tables := d } := by
  cases c with
  | done =>
    obtain ⟨⟨a', d⟩, hrun, he⟩ := Option.map_eq_some_iff.1 h
    cases he
    exact ⟨d, hrun, rfl⟩
  | fails effective message =>
    obtain ⟨⟨a', d⟩, hrun, he⟩ := Option.map_eq_some_iff.1 h
    cases he
  | lose k => cases h

theorem perform_redis_ok {st st' : State} {o : RedisOp} {c : Choice} {a : o.Ans}
    (h : perform D dep t st (.redis o) c = some (.ok a, st')) :
    a = (o.perform st.redis).1 ∧ st'.tables = st.tables := by
  cases c <;> cases h
  exact ⟨rfl, rfl⟩

theorem perform_memory {st st' : State} {o : MemoryOp} {c : Choice} {r : Checked o.Ans}
    (h : perform D dep t st (.memory o) c = some (r, st')) :
    r = (o.perform (st.instances t.worker)).1 ∧ st'.tables = st.tables := by
  cases c <;> cases h
  exact ⟨rfl, rfl⟩

theorem ensures_sql [Persists F] {o : SqlOp} {G : o.Ans → Committed → Prop} [∀ a, Persists (G a)]
    (hplain : (Op.sql o).Plain)
    (h : ∀ d d' a asked, RowLocks.Sound (discipline D.toPlatform asked) d → F d.rows →
      o.perform D dep t.id d = some (.ok a, d') → G a d'.rows) :
    Ensures D dep pages t F (sql o) G := by
  refine Contract.triple_call (stable_rows F) (fun r => stable_ends G r) ?_
  intro st c r st' hi ho hs hp
  refine ⟨calm_of_plain hplain st c r st' hi ho hp, ?_⟩
  cases r with
  | error e => trivial
  | ok a =>
    obtain ⟨d, hrun, rfl⟩ := perform_sql_ok hp
    exact h _ _ _ _ hi.tables hs hrun

theorem ensures_redis [Persists F] {o : RedisOp} {G : o.Ans → Committed → Prop} [∀ a, Persists (G a)]
    (hkeep : ∀ r rows, Cached r rows → F rows → Cached (o.perform r).2 rows)
    (h : ∀ r (d : Tables) asked, RowLocks.Sound (discipline D.toPlatform asked) d → Cached r d.rows → F d.rows →
      G (o.perform r).1 d.rows) :
    Ensures D dep pages t F (redis o) G := by
  refine Contract.triple_call (stable_rows F) (fun r => stable_ends G r) ?_
  intro st c r st' hi ho hs hp
  refine ⟨keeps_redis hi ho (hkeep _ _ hi.cached hs) hp, ?_⟩
  cases r with
  | error e => trivial
  | ok a =>
    obtain ⟨rfl, htables⟩ := perform_redis_ok hp
    change G _ st'.tables.rows
    rw [htables]
    exact h _ _ _ hi.tables hi.cached hs

theorem ensures_memory [Persists F] {o : MemoryOp} {G : o.Ans → Committed → Prop} [∀ a, Persists (G a)]
    (hkeep : ∀ m rows, Instance.Knows m rows → F rows → (o.perform m).2.Knows rows)
    (h : ∀ m rows a, Instance.Knows m rows → F rows → (o.perform m).1 = .ok a → G a rows) :
    Ensures D dep pages t F (memory o) G := by
  refine Contract.triple_call (stable_rows F) (fun r => stable_ends G r) ?_
  intro st c r st' hi ho hs hp
  refine ⟨keeps_memory hi ho (hkeep _ _ (hi.instances t.worker) hs) hp, ?_⟩
  obtain ⟨hr, htables⟩ := perform_memory hp
  cases r with
  | error e => trivial
  | ok a =>
    change G a st'.tables.rows
    rw [htables]
    exact h _ _ a (hi.instances t.worker) hs hr.symm

theorem ensures_maps [Persists F] :
    Ensures D dep pages t F (memory .maps : Store Instance) Instance.Knows := by
  refine ensures_memory (fun _ _ hm _ => hm) ?_
  intro m rows a hm _ ha
  cases ha
  exact hm

/-- A page beyond those that are read is never answered. -/
theorem ensures_stall [Persists F] : Ensures D dep pages t F (stall : Store α) G := by
  refine Contract.Triple.bind (Q := fun never _ => never.elim) ?_ fun never => never.elim
  refine Contract.triple_call (stable_rows F) (fun r => ?_) fun st c r st' _ _ _ hp => ?_
  · cases r with
    | ok never => exact never.elim
    | error e => exact stable_true
  · cases c <;> cases hp

/-! ### Bindings -/

theorem ensures_durableBinding [Persists F] (s : String) :
    Ensures D dep pages t F (Postgres.binding s) fun b rows => Bound s b rows := by
  refine ensures_maps.bind fun (m : Instance) => ?_
  cases hb : m.durableBindings s with
  | none => exact ensures_raise
  | some b => exact ensures_ret fun rows h => h.1.1 s b hb

theorem ensures_binding [Persists F] (s : String) :
    Ensures D dep pages t F (binding s) fun b rows => Bound s b rows := by
  refine ensures_maps.bind fun (m : Instance) => ?_
  cases hb : m.bindings s with
  | none => exact ensures_raise
  | some b => exact ensures_ret fun rows h => h.1.2 s b hb

theorem ensures_throwIf [Persists F] {c : Prop} [Decidable c] {e : CheckpointError} {p : Store α}
    (h : ¬ c → Ensures D dep pages t F p G) :
    Ensures D dep pages t F (do
      if c then throw e
      p) G := by
  dsimp only
  split
  · exact ensures_raise
  · rename_i hc
    exact h hc

/-- What the cache is told may fail. -/
theorem Ensures.cacheWrite [Persists F] {work : Store Unit}
    (h : Ensures D dep pages t F work fun _ _ => True) :
    Ensures D dep pages t F (cacheWrite work) fun _ _ => True :=
  h.handle fun e => ensures_of_plain (calls_cacheError e)

theorem Ensures.cacheRead [Persists F] {read : Store α} {otherwise : α} (h : Ensures D dep pages t F read G)
    (hotherwise : ∀ rows, F rows → G otherwise rows) :
    Ensures D dep pages t F (cacheRead read otherwise) G :=
  h.handle fun e => (ensures_of_plain (calls_cacheError e)).bind fun _ =>
    ensures_ret fun rows hF => hotherwise rows hF.2

/-! ### Transactions -/

/-- The transaction has locked the rows of the snapshot, and left them so. -/
def Locked (t : Request) (s : String) (φ : SnapshotRows → Prop) (st : State) : Prop :=
  ∃ r, st.tables.held s = some (t.id, some r) ∧ φ r

variable {s : String} {φ ψ : SnapshotRows → Prop}

theorem stable_locked : (contract D dep pages).Stable t (Locked t s φ) := by
  rintro st st' ⟨hspares, -⟩ - ⟨r, hheld, hφ⟩
  exact ⟨r, hspares.held s _ hheld, hφ⟩

theorem triple_lock [Persists F] {b : SnapshotCheckpointBinding} (hb : ∀ rows, F rows → Bound s b rows) :
    (contract D dep pages).Triple t (fun st => F st.tables.rows) (Postgres.lock b)
      (fun _ => Locked t s fun r => r.binding = b) (fun _ _ => True) := by
  refine Contract.Triple.bind
    (Q := fun locked st => locked = true → Locked t s (fun r => r.binding = b) st) ?_ fun locked => ?_
  · refine Contract.triple_call (stable_rows F) (fun r => ?_) fun st c r st' hi ho hs hp => ?_
    · cases r with
      | ok locked => exact fun st st' hr hi h hl => stable_locked st st' hr hi (h hl)
      | error e => exact stable_true
    · refine ⟨calm_of_plain (o := .sql (.lock b)) trivial st c r st' hi ho hp, ?_⟩
      cases r with
      | error e => trivial
      | ok locked =>
        intro hlocked
        obtain ⟨d, hrun, rfl⟩ := perform_sql_ok hp
        obtain ⟨rfl, r, hr, rfl⟩ := hb _ hs
        simp only [SqlOp.perform] at hrun
        split at hrun
        · cases hrun
          cases hlocked
        · obtain ⟨d₁, hlock, he⟩ := Option.map_eq_some_iff.1 hrun
          cases he
          have hseen := (hi.tables.seen t.id r.binding.snapshotId).2 r hr
          obtain ⟨r', hr', hgrows⟩ := hseen
          exact ⟨r', hr' ▸ RowLocks.held_lock hlock, hgrows.binding⟩
  · have hstable : (contract D dep pages).Stable t
        fun st => locked = true → Locked t s (fun r => r.binding = b) st :=
      fun st st' hr hi h hl => stable_locked st st' hr hi (h hl)
    cases locked with
    | true => exact Contract.triple_ret hstable fun st _ h => h rfl
    | false => exact Contract.triple_raise hstable fun _ _ _ => trivial

/-- A statement of the transaction that holds the lock. -/
theorem triple_execute {stmt : Statement} {ψ : stmt.Ans → SnapshotRows → Prop}
    (hfits : ∀ st r, Inv D.toPlatform st → (contract D dep pages).own t st → φ r →
      ValidRows D.toPlatform st.started s r → stmt.Fits D st.started s r)
    (hrun : ∀ r a r', φ r → stmt.execute D dep r = .ok (a, r') → ψ a r') :
    (contract D dep pages).Triple t (Locked t s φ) (sql (.execute s stmt))
      (fun a => Locked t s (ψ a)) (fun _ _ => True) := by
  refine Contract.triple_call stable_locked (fun r => ?_) fun st c r st' hi ho hs hp => ?_
  · cases r with
    | ok a => exact stable_locked
    | error e => exact stable_true
  · obtain ⟨r₀, hheld, hφ⟩ := hs
    have hmine : SqlOp.Fits D st.started t.id st.tables (.execute s stmt) := by
      intro r hr
      obtain rfl : r₀ = r := by simpa [hheld] using hr
      exact hfits st r₀ hi ho hφ (hi.tables.left s t.id _ hheld r₀ rfl)
    refine ⟨keeps_sql hi ho hmine hp, ?_⟩
    cases r with
    | error e => trivial
    | ok a =>
      obtain ⟨d, hperform, rfl⟩ := perform_sql_ok hp
      simp only [SqlOp.perform, RowLocks.own?_eq.2 hheld] at hperform
      split at hperform
      · rename_i answer r' hexecute
        cases hperform
        exact ⟨r', RowLocks.held_write hheld, hrun r₀ _ r' hφ hexecute⟩
      · cases hperform

theorem triple_noteVersion {s' : String} {part : CheckpointPart} {version : ℕ} :
    (contract D dep pages).Triple t (Locked t s φ) (memory (.noteVersion s' part version))
      (fun _ => Locked t s φ) (fun _ _ => True) := by
  refine Contract.triple_call stable_locked (fun r => ?_) fun st c r st' hi ho hs hp => ?_
  · cases r with
    | ok a => exact stable_locked
    | error e => exact stable_true
  · refine ⟨calm_of_plain (o := .memory (.noteVersion s' part version)) trivial st c r st' hi ho hp, ?_⟩
    cases r with
    | error e => trivial
    | ok a =>
      change Locked t s φ st'
      unfold Locked
      rwa [(perform_memory hp).2]

theorem triple_bumpVersion {b : SnapshotCheckpointBinding} {part : CheckpointPart} (hb : b.snapshotId = s)
    (hφ : ∀ r versions, φ r → φ { r with versions }) :
    (contract D dep pages).Triple t (Locked t s φ) (Postgres.bumpVersion b part)
      (fun _ => Locked t s φ) (fun _ _ => True) := by
  subst hb
  refine Contract.Triple.bind (Q := fun _ => Locked t b.snapshotId φ) ?_ fun version => triple_noteVersion
  refine triple_execute (fun _ _ _ _ _ _ => trivial) fun r a r' hr hrun => ?_
  cases hrun
  exact hφ r _ hr

/-- What a transaction leaves in the rows that it has locked is committed. -/
theorem ensures_transaction [Persists F] [∀ a, Persists (G a)] {work : Store α}
    {φ : α → SnapshotRows → Prop}
    (hwork : (contract D dep pages).Triple t (fun st => F st.tables.rows) work
      (fun a => Locked t s (φ a)) (fun _ _ => True))
    (hφ : ∀ a (rows : Committed) r, rows s = some r → φ a r → G a rows) :
    Ensures D dep pages t F (Postgres.transaction s work) G := by
  have hbegin : ∀ o, (Op.sql o).Plain → Ensures D dep pages t F (sql o) fun _ => F := fun o ho =>
    (ensures_of_plain (plain_sql ho)).post fun _ _ h _ => h
  refine Contract.Triple.bind (hbegin .connect trivial) fun _ => ?_
  refine Contract.Triple.handle ?_ fun e => (?_ : (contract D dep pages).Triple t (fun _ => True) _ _ _)
  · refine Contract.Triple.bind (hbegin .begin trivial) fun _ => hwork.bind fun a => ?_
    refine Contract.Triple.bind (Q := fun _ st => G a st.tables.rows) ?_ fun _ =>
      Contract.triple_ret (stable_rows (G a)) fun _ _ h => h
    refine Contract.triple_call stable_locked (fun r => ?_) fun st c r st' hi ho hs hp => ?_
    · cases r with
      | ok _ => exact stable_rows (G a)
      | error e => exact stable_true
    · refine ⟨calm_of_plain (o := .sql (.commit s)) trivial st c r st' hi ho hp, ?_⟩
      obtain ⟨r₀, hheld, hr₀⟩ := hs
      cases r with
      | error e => trivial
      | ok _ =>
        obtain ⟨d, hrun, rfl⟩ := perform_sql_ok hp
        cases hrun
        exact hφ a _ r₀ (RowLocks.rows_commit hheld) hr₀
  · have hrollback : Prog.Calls Op.Plain (Prog.settle (sql (.rollback s))) :=
      Prog.Calls.handle (plain_sql trivial) fun _ => Prog.calls_ret _
    refine Contract.Triple.bind (Contract.triple_of_calm (hrollback.mono fun _ ho => calm_of_plain ho))
      fun _ => ?_
    exact Contract.triple_raise stable_true fun _ _ _ => trivial

end Ensures

end CatalogSentinel.Checkpoint.Commands
