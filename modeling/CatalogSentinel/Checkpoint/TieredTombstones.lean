import CatalogSentinel.Checkpoint.Ensures

/-!
Tombstones in both tiers. A claim inserts its proposal, in sanitized form, where there is none;
whatever tombstone is committed is what the claims answer and what Redis is told.
-/

namespace CatalogSentinel.Checkpoint.Commands

open CatalogSentinel.Data CatalogSentinel.Concurrent CatalogSentinel.Distrokid

variable {D : DashboardPlatform} {dep : Deployment} {pages : ℕ} {t : Request}
  {F : Committed → Prop} {s : String}

/-! ### Tombstones -/

theorem settles_sanitizeTombstone {P : Platform} (hP : P.Faithful) {b : SnapshotCheckpointBinding}
    {w w' w'' : SnapshotTerminalTombstone} (h : sanitizeTombstone P w b = .ok w')
    (h' : sanitizeTombstone P w' b = .ok w'') : w'' = w' := by
  cases w with
  | cancelled createdAt reason =>
    obtain ⟨created, hcreated, h⟩ := bind_ok.1 h
    obtain ⟨text, htext, h⟩ := bind_ok.1 h
    obtain rfl := Except.ok.inj h
    obtain ⟨created', hcreated', h'⟩ := bind_ok.1 h'
    obtain ⟨text', htext', h'⟩ := bind_ok.1 h'
    obtain rfl := Except.ok.inj h'
    rw [textValue_ok htext', redact_redact,
      settles_isoTimestamp hP.roundTrips "terminal createdAt" _ _ _ hcreated hcreated']
  | terminal job createdAt reason =>
    have hagain := (sanitizeTombstone_again hP h).2 trivial
    rw [h'] at hagain
    exact Except.ok.inj hagain

/-- What was found: the durable tombstone, and none only where none was known. -/
structure Winner (s : String) (known found : Option SnapshotTerminalTombstone) (rows : Committed) : Prop where
  durable : ∀ w, found = some w → terminalOf (rows s) = some w
  known : ∀ w, known = some w → found = some w

instance (known found : Option SnapshotTerminalTombstone) : Persists (Winner s known found) :=
  ⟨fun _ _ h hw => ⟨fun w hfound => (h s).terminal (hw.durable w hfound), hw.known⟩⟩

/-- A durable tombstone is accepted again as it is. -/
theorem sanitize_durable {d : Tables} {asked : List (Request × Committed)} {b : SnapshotCheckpointBinding}
    {w : SnapshotTerminalTombstone} (hd : RowLocks.Sound (discipline D.toPlatform asked) d)
    (hb : Bound s b d.rows) (hw : terminalOf (d.rows s) = some w) :
    sanitizeTombstone D.toPlatform w b = .ok w := by
  obtain ⟨-, r, hr, rfl⟩ := hb
  rw [hr] at hw
  exact (hd.rows s r hr).tombstone w hw

theorem ensures_durableTerminal (known : Option SnapshotTerminalTombstone) :
    Ensures D dep pages t (fun rows => ∀ w, known = some w → terminalOf (rows s) = some w)
      (Postgres.getTerminal D s) (Winner s known) := by
  refine (ensures_durableBinding s).bind fun b => ?_
  have hread : Ensures D dep pages t
      (fun rows => Bound s b rows ∧ ∀ w, known = some w → terminalOf (rows s) = some w)
      (sql (.selectTerminal b)) fun (raw : Option SnapshotTerminalTombstone) rows =>
        (∀ w, raw = some w → sanitizeTombstone D.toPlatform w b = .ok w) ∧ Winner s known raw rows := by
    refine ensures_sql trivial ?_
    intro d d' raw asked hd hF hrun
    cases hrun
    rw [hF.1.rowOf]
    exact ⟨fun w hw => sanitize_durable hd hF.1 hw, fun _ hw => hw, hF.2⟩
  refine hread.bind fun raw => ?_
  refine ensures_of_known _ (fun _ h => h.1.1) fun hsanitized => ?_
  cases raw with
  | none => exact ensures_ret fun rows h => h.1.2
  | some w =>
    dsimp only
    rw [hsanitized w rfl]
    exact ensures_ret fun rows h => h.1.2

/-- The claim proposes the tombstone, in sanitized form by now. -/
structure Proposes (D : DashboardPlatform) (t : Request) (s : String) (b : SnapshotCheckpointBinding)
    (w : SnapshotTerminalTombstone) : Prop where
  call : ∃ w₀, t.call = .claimTerminal s w₀ ∧ sanitizeTombstone D.toPlatform w₀ b = .ok w
  again : sanitizeTombstone D.toPlatform w b = .ok w

/-- What the transaction of a claim leaves: a tombstone, which is the proposed one if it was inserted. -/
def Settled (proposed : SnapshotTerminalTombstone) (inserted found : Option SnapshotTerminalTombstone) : Prop :=
  ∃ w, found = some w ∧ ∀ w', inserted = some w' → w' = w ∧ w' = proposed

theorem ensures_insertTerminal [Persists F] {b : SnapshotCheckpointBinding}
    {proposed : SnapshotTerminalTombstone} (hb : ∀ rows, F rows → Bound s b rows) (hs : b.snapshotId = s)
    (hproposes : Proposes D t s b proposed) :
    Ensures D dep pages t F (Postgres.transaction s (do
      Postgres.lock b
      let result : Option SnapshotTerminalTombstone ← sql (.execute s (.insertTerminal proposed))
      if result.isSome then Postgres.bumpVersion b .terminal
      return result)) fun inserted rows => Settled proposed inserted (terminalOf (rows s)) := by
  have hG : ∀ inserted, Persists fun rows => Settled proposed inserted (terminalOf (rows s)) :=
    fun inserted => by unfold Settled; infer_instance
  refine ensures_transaction (φ := fun inserted r => Settled proposed inserted r.terminal) ?_ ?_
  · refine (triple_lock hb).bind fun _ => ?_
    refine Contract.Triple.bind (Q := fun result => Locked t s fun r => Settled proposed result r.terminal) ?_
      fun result => ?_
    · refine triple_execute (fun st r hi ho hbinding hvalid => ?_) fun r a r' _ hrun => ?_
      · obtain ⟨began, hbegan⟩ := ho
        obtain ⟨w₀, hcall, hw₀⟩ := hproposes.call
        subst hbinding
        exact ⟨hproposes.again, (t, began), hbegan, w₀, hcall, hw₀⟩
      · simp only [Statement.execute] at hrun
        split at hrun
        · rename_i w hw
          cases hrun
          exact ⟨w, hw, fun _ h => by cases h⟩
        · cases hrun
          exact ⟨proposed, rfl, fun w' hw' => ⟨(Option.some.inj hw').symm, (Option.some.inj hw').symm⟩⟩
    · have hret : (contract D dep pages).Triple t (Locked t s fun r => Settled proposed result r.terminal)
          (Prog.ret result) (fun result => Locked t s fun r => Settled proposed result r.terminal)
          fun _ _ => True :=
        Contract.triple_ret stable_locked fun _ _ h => h
      cases result with
      | none => exact hret
      | some w => exact (triple_bumpVersion hs fun _ _ h => h).bind fun _ => hret
  · intro inserted rows r hr hsettled
    rw [hr]
    exact hsettled

theorem ensures_durableClaim (hP : D.toPlatform.Faithful) {b : SnapshotCheckpointBinding}
    {w₀ sanitized : SnapshotTerminalTombstone} (hcall : t.call = .claimTerminal s w₀)
    (hsanitized : sanitizeTombstone D.toPlatform w₀ b = .ok sanitized) :
    Ensures D dep pages t (Bound s b) (Postgres.claimTerminal D s sanitized)
      fun w rows => terminalOf (rows s) = some w := by
  refine (ensures_durableBinding s).bind fun b' => ?_
  refine ensures_of_known (b' = b ∧ b.snapshotId = s) ?_ ?_
  · rintro rows ⟨⟨-, r, hr, rfl⟩, hs, r', hr', rfl⟩
    rw [hr] at hr'
    exact ⟨by rw [Option.some.inj hr'], hs⟩
  rintro ⟨rfl, hs⟩
  refine ensures_check fun proposed hagain => ?_
  obtain rfl := settles_sanitizeTombstone hP hsanitized hagain
  refine (ensures_insertTerminal (F := fun rows => Bound s b' rows ∧ Bound s b' rows) (fun rows h => h.1) hs
    ⟨⟨w₀, hcall, hsanitized⟩, hagain⟩).bind fun inserted => ?_
  refine Ensures.pre (F := fun rows => ∃ w, terminalOf (rows s) = some w ∧
    ∀ w', inserted = some w' → w' = w ∧ w' = proposed) ?_ fun _ h => h.1
  refine ensures_of_exists fun winner => ?_
  cases inserted with
  | some raw =>
    refine ensures_ofExcept fun w rows hw h => ?_
    obtain ⟨hwinner, hsame⟩ := h
    obtain ⟨rfl, rfl⟩ := hsame raw rfl
    rw [hagain] at hw
    rw [hwinner, Except.ok.inj hw]
  | none =>
    refine Ensures.bind ((ensures_durableTerminal (some winner)).pre fun rows h w hw =>
      Option.some.inj hw ▸ h.1) fun found => ?_
    cases found with
    | none => exact ensures_raise
    | some existing => exact ensures_ret fun rows h => h.1.durable existing rfl

/-- The cache is told what is durable. -/
theorem ensures_tellTerminal [Persists F] {w : SnapshotTerminalTombstone}
    (hw : ∀ rows, F rows → terminalOf (rows s) = some w) :
    Ensures D dep pages t F (revisions.cacheProjection s .terminal (redis (.set (.terminal s) w))) fun _ _ => True := by
  refine (ensures_of_plain (plain_currentVersion s .terminal)).bind fun version => ?_
  refine Ensures.cacheWrite (Ensures.bind (G := fun _ _ => True) ?_ fun _ =>
    ensures_of_plain (plain_putVersion s (.part .terminal) version))
  exact ensures_redis (fun _ rows hc h => hc.set (hw rows h.2)) fun _ _ _ _ _ _ => trivial

theorem ensures_claimTerminal [Persists F] (hP : D.toPlatform.Faithful) {w₀ : SnapshotTerminalTombstone}
    (hcall : t.call = .claimTerminal s w₀) :
    Ensures D dep pages t F (claimTerminal D s w₀) fun w rows => terminalOf (rows s) = some w := by
  refine (ensures_binding s).bind fun b => ensures_check fun sanitized hsanitized => ?_
  refine Ensures.bind ((ensures_durableClaim hP hcall hsanitized).pre fun rows h => h.1) fun winner => ?_
  exact (ensures_tellTerminal fun rows h => h.1).bind fun _ => ensures_ret fun rows h => h.2.1

theorem ensures_cachedTerminal [Persists F] {b : SnapshotCheckpointBinding}
    (hb : ∀ rows, F rows → Bound s b rows) :
    Ensures D dep pages t F (cachedTerminal D s b)
      fun found rows => ∀ w, found = some w → terminalOf (rows s) = some w := by
  have hread : Ensures D dep pages t F (redis (.get (.terminal s)))
      fun (raw : Option SnapshotTerminalTombstone) rows =>
        (∀ w, raw = some w → sanitizeTombstone D.toPlatform w b = .ok w) ∧
          ∀ w, raw = some w → terminalOf (rows s) = some w := by
    refine ensures_redis (fun _ _ hc _ => hc) ?_
    intro r d asked hd hc h
    exact ⟨fun w hw => sanitize_durable hd (hb _ h) (hc (.terminal s) w hw), fun w hw => hc (.terminal s) w hw⟩
  refine hread.bind fun raw => ?_
  refine ensures_of_known _ (fun _ h => h.1.1) fun hsanitized => ?_
  cases raw with
  | none => exact ensures_ret fun rows h => h.1.2
  | some w =>
    dsimp only
    rw [hsanitized w rfl]
    exact ensures_ret fun rows h => h.1.2

theorem ensures_getTerminal (known : Option SnapshotTerminalTombstone) :
    Ensures D dep pages t (fun rows => ∀ w, known = some w → terminalOf (rows s) = some w)
      (getTerminal D s) (Winner s known) := by
  refine (ensures_binding s).bind fun b => (ensures_of_plain admitted_plain.hotMatchesDurable).bind fun hit => ?_
  refine Ensures.bind (G := fun found rows => ∀ w, found = some w → terminalOf (rows s) = some w) ?_ fun found => ?_
  · unfold cachedAt
    split
    · exact (ensures_cachedTerminal fun rows h => h.2.1).cacheRead fun _ _ w hw => by cases hw
    · exact ensures_ret fun rows _ w hw => by cases hw
  cases found with
  | some cached =>
    refine ensures_ret fun rows h => ⟨h.1, fun w hw => ?_⟩
    rw [← h.1 cached rfl, h.2.2.2 w hw]
  | none =>
    refine Ensures.bind ((ensures_durableTerminal known).pre fun rows h => h.2.2.2) fun durable => ?_
    cases durable with
    | none => exact ensures_ret fun rows h => h.1
    | some w =>
      exact (ensures_tellTerminal fun rows h => h.1.durable w rfl).bind fun _ => ensures_ret fun rows h => h.2.1

end CatalogSentinel.Checkpoint.Commands
