import Mathlib.Logic.Function.Basic
import Mathlib.Order.Defs.PartialOrder

/-!
Rows under read committed. A transaction locks a row before it changes it, sees its own
changes, and publishes them when it commits; everyone else sees the row as it was last
committed. What every change of a locked row keeps, every commit keeps.
-/

namespace CatalogSentinel.Concurrent

/-- The rows as committed, and for each locked row the transaction that holds it beside the
row as that transaction has left it. -/
structure RowLocks (κ ρ τ : Type) where
  rows : κ → ρ
  held : κ → Option (τ × ρ)

namespace RowLocks

variable {κ ρ τ : Type}

/-- Nothing is locked. -/
def unlocked (rows : κ → ρ) : RowLocks κ ρ τ := ⟨rows, fun _ => none⟩

section Operations

variable [DecidableEq κ] [DecidableEq τ] (d : RowLocks κ ρ τ) (t : τ) (k : κ)

/-- The transaction holds the row, and has left it so. -/
def own? : Option ρ := ((d.held k).filter fun h => h.1 = t).map Prod.snd

/-- What the transaction sees. -/
def seen : ρ := (d.own? t k).getD (d.rows k)

/-- `SELECT … FOR UPDATE` waits while another transaction holds the row. -/
def lock : Option (RowLocks κ ρ τ) :=
  match d.held k with
  | none => some { d with held := Function.update d.held k (some (t, d.rows k)) }
  | some (holder, _) => if holder = t then some d else none

/-- A statement of the transaction that holds the row. -/
def write (r : ρ) : RowLocks κ ρ τ :=
  if (d.own? t k).isSome then { d with held := Function.update d.held k (some (t, r)) } else d

def commit : RowLocks κ ρ τ :=
  match d.own? t k with
  | some r => ⟨Function.update d.rows k r, Function.update d.held k none⟩
  | none => d

def rollback : RowLocks κ ρ τ :=
  if (d.own? t k).isSome then { d with held := Function.update d.held k none } else d

/-- A statement outside any transaction. -/
def autocommit (r : ρ) : RowLocks κ ρ τ := { d with rows := Function.update d.rows k r }

/-- The connection of the transaction is lost. -/
def abandon : RowLocks κ ρ τ := { d with held := fun k => (d.held k).filter fun h => h.1 ≠ t }

end Operations

section Lemmas

variable [DecidableEq κ] [DecidableEq τ] {d d' : RowLocks κ ρ τ} {t u : τ} {k : κ} {r r' : ρ}

omit [DecidableEq κ] in
theorem own?_eq : d.own? t k = some r ↔ d.held k = some (t, r) := by
  unfold own?
  cases hheld : d.held k with
  | none => simp
  | some h =>
    by_cases ht : h.1 = t
    · subst ht
      simp [Option.filter_some, Prod.ext_iff]
    · simp [Option.filter_some, ht, Prod.ext_iff]

omit [DecidableEq κ] in
theorem seen_of_held (h : d.held k = some (t, r)) : d.seen t k = r := by
  simp [seen, own?_eq.2 h]

omit [DecidableEq κ] in
theorem seen_of_free (h : d.held k = none) : d.seen t k = d.rows k := by
  simp [seen, own?, h]

@[simp] theorem rows_write : (d.write t k r).rows = d.rows := by
  unfold write
  split <;> rfl

@[simp] theorem rows_rollback : (d.rollback t k).rows = d.rows := by
  unfold rollback
  split <;> rfl

theorem rows_lock (h : d.lock t k = some d') : d'.rows = d.rows := by
  unfold lock at h
  split at h
  · obtain rfl := Option.some.inj h
    rfl
  · split at h
    · obtain rfl := Option.some.inj h
      rfl
    · cases h

/-- A lock that is taken is held from the committed row on. -/
theorem held_lock (h : d.lock t k = some d') : d'.held k = some (t, d.seen t k) := by
  unfold lock at h
  split at h
  · rename_i hfree
    obtain rfl := Option.some.inj h
    simp [seen_of_free hfree]
  · rename_i holder r hheld
    split at h
    · rename_i ht
      subst ht
      obtain rfl := Option.some.inj h
      rw [hheld, seen_of_held hheld]
    · cases h

theorem held_write (h : d.held k = some (t, r)) : (d.write t k r').held k = some (t, r') := by
  simp [write, own?_eq.2 h]

theorem rows_commit (h : d.held k = some (t, r)) : (d.commit t k).rows k = r := by
  simp [commit, own?_eq.2 h]

/-- A transaction's lock survives what the others do. -/
structure Spares (t : τ) (d d' : RowLocks κ ρ τ) : Prop where
  held : ∀ k r, d.held k = some (t, r) → d'.held k = some (t, r)

omit [DecidableEq κ] [DecidableEq τ] in
theorem Spares.refl (t : τ) (d : RowLocks κ ρ τ) : Spares t d d := ⟨fun _ _ h => h⟩

omit [DecidableEq κ] [DecidableEq τ] in
theorem Spares.trans {d'' : RowLocks κ ρ τ} (h : Spares t d d') (h' : Spares t d' d'') :
    Spares t d d'' := ⟨fun k r hk => h'.held k r (h.held k r hk)⟩

theorem spares_lock (h : d.lock u k = some d') : Spares t d d' := by
  unfold lock at h
  split at h
  · rename_i hfree
    obtain rfl := Option.some.inj h
    refine ⟨fun k' r hk' => ?_⟩
    have hkk : k' ≠ k := by
      rintro rfl
      simp [hfree] at hk'
    simp [Function.update_of_ne hkk, hk']
  · split at h
    · obtain rfl := Option.some.inj h
      exact Spares.refl t _
    · cases h

omit [DecidableEq κ] [DecidableEq τ] in
/-- What changes nothing but a row that `u` holds spares the locks of the others. -/
theorem spares_update (hne : u ≠ t) (hown : d.held k = some (u, r))
    (hheld : ∀ k', k' ≠ k → d'.held k' = d.held k') : Spares t d d' := by
  refine ⟨fun k' r' hk' => ?_⟩
  have hkk : k' ≠ k := by
    rintro rfl
    rw [hown] at hk'
    simp at hk'
    exact hne hk'.1
  rw [hheld k' hkk, hk']

omit [DecidableEq κ] in
theorem spares_own (hne : u ≠ t) (hheld : ∀ k', k' ≠ k → d'.held k' = d.held k') :
    Spares t d (if (d.own? u k).isSome then d' else d) := by
  cases hown : d.own? u k with
  | none => exact Spares.refl t d
  | some r => exact spares_update hne (own?_eq.1 hown) hheld

theorem spares_write (hne : u ≠ t) : Spares t d (d.write u k r) :=
  spares_own hne fun k' hkk => by simp [Function.update_of_ne hkk]

theorem spares_rollback (hne : u ≠ t) : Spares t d (d.rollback u k) :=
  spares_own hne fun k' hkk => by simp [Function.update_of_ne hkk]

theorem spares_commit (hne : u ≠ t) : Spares t d (d.commit u k) := by
  unfold commit
  cases hown : d.own? u k with
  | none => exact Spares.refl t d
  | some r₀ =>
    apply spares_update hne (own?_eq.1 hown)
    intro k' hkk
    simp [Function.update_of_ne hkk]

omit [DecidableEq κ] in
theorem spares_abandon (hne : u ≠ t) : Spares t d (d.abandon u) := by
  refine ⟨fun k r hk => ?_⟩
  have htu : t ≠ u := hne.symm
  simp [abandon, hk, Option.filter_some, htu]

end Lemmas

/-! ### What the changes keep -/

/-- What holds of a row, which rows are locked, and how a row may change. -/
structure Discipline (κ ρ : Type) where
  valid : κ → ρ → Prop
  lockable : ρ → Prop
  ahead : ρ → ρ → Prop
  refl : ∀ r, ahead r r
  trans : ∀ a b c, ahead a b → ahead b c → ahead a c

section Discipline

variable [DecidableEq κ] [DecidableEq τ] (D : Discipline κ ρ)

/-- Every row is valid as committed and as left so far, and what is left is ahead of what is
committed. -/
structure Sound (d : RowLocks κ ρ τ) : Prop where
  rows : ∀ k, D.valid k (d.rows k)
  left : ∀ k t r, d.held k = some (t, r) → D.valid k r
  ahead : ∀ k t r, d.held k = some (t, r) → D.ahead (d.rows k) r
  locked : ∀ k t r, d.held k = some (t, r) → D.lockable (d.rows k)

/-- What one command of a transaction, or of nobody's, does. -/
inductive Change (t : τ) (d : RowLocks κ ρ τ) : RowLocks κ ρ τ → Prop
  | same : Change t d d
  | locked {k : κ} {d' : RowLocks κ ρ τ} (hlock : d.lock t k = some d')
      (hrow : D.lockable (d.rows k)) : Change t d d'
  | wrote (k : κ) (r : ρ) (hvalid : D.valid k r) (hahead : D.ahead (d.seen t k) r) :
      Change t d (d.write t k r)
  | committed (k : κ) : Change t d (d.commit t k)
  | rolledBack (k : κ) : Change t d (d.rollback t k)
  | autocommitted (k : κ) (r : ρ) (hfree : d.held k = none) (hvalid : D.valid k r)
      (hahead : D.ahead (d.rows k) r) : Change t d (d.autocommit k r)

variable {D} {d d' : RowLocks κ ρ τ} {t u : τ} {k : κ}

omit [DecidableEq κ] [DecidableEq τ] in
theorem sound_unlocked {rows : κ → ρ} (h : ∀ k, D.valid k (rows k)) :
    Sound D (unlocked rows : RowLocks κ ρ τ) where
  rows := h
  left := by simp [unlocked]
  ahead := by simp [unlocked]
  locked := by simp [unlocked]

omit [DecidableEq κ] [DecidableEq τ] in
/-- Where more is valid, what was sound still is. -/
theorem Sound.mono {D' : Discipline κ ρ} (h : Sound D d) (hvalid : ∀ k r, D.valid k r → D'.valid k r)
    (hlockable : ∀ r, D.lockable r → D'.lockable r) (hahead : ∀ r r', D.ahead r r' → D'.ahead r r') :
    Sound D' d where
  rows k := hvalid k _ (h.rows k)
  left k t r hk := hvalid k r (h.left k t r hk)
  ahead k t r hk := hahead _ _ (h.ahead k t r hk)
  locked k t r hk := hlockable _ (h.locked k t r hk)

omit [DecidableEq κ] in
theorem Sound.seen (h : Sound D d) (t : τ) (k : κ) :
    D.valid k (d.seen t k) ∧ D.ahead (d.rows k) (d.seen t k) := by
  unfold RowLocks.seen
  cases hown : d.own? t k with
  | none => exact ⟨h.rows k, D.refl _⟩
  | some r => exact ⟨h.left k t r (own?_eq.1 hown), h.ahead k t r (own?_eq.1 hown)⟩

omit [DecidableEq κ] [DecidableEq τ] in
/-- Where the committed rows stay, soundness is that of what is held. -/
theorem Sound.of_held (h : Sound D d) (hrows : d'.rows = d.rows)
    (hheld : ∀ k t r, d'.held k = some (t, r) →
      d.held k = some (t, r) ∨ D.valid k r ∧ D.ahead (d.rows k) r ∧ D.lockable (d.rows k)) :
    Sound D d' := by
  refine ⟨fun k => by rw [hrows]; exact h.rows k, fun k t r hk => ?_, fun k t r hk => ?_, fun k t r hk => ?_⟩
  · rcases hheld k t r hk with hold | ⟨hvalid, -, -⟩
    · exact h.left k t r hold
    · exact hvalid
  · rw [hrows]
    rcases hheld k t r hk with hold | ⟨-, hahead, -⟩
    · exact h.ahead k t r hold
    · exact hahead
  · rw [hrows]
    rcases hheld k t r hk with hold | ⟨-, -, hlocked⟩
    · exact h.locked k t r hold
    · exact hlocked

omit [DecidableEq τ] in
/-- Where one row that nobody holds any more moves ahead, the rest stays. -/
theorem Sound.of_row (h : Sound D d) {r : ρ} (hvalid : D.valid k r) {held : κ → Option (τ × ρ)}
    (hfree : held k = none) (hheld : ∀ k', k' ≠ k → held k' = d.held k') :
    Sound D ⟨Function.update d.rows k r, held⟩ := by
  have hne : ∀ k' t r', held k' = some (t, r') → k' ≠ k := by
    rintro k' t r' hk' rfl
    simp [hfree] at hk'
  refine ⟨fun k' => ?_, fun k' t r' hk' => ?_, fun k' t r' hk' => ?_, fun k' t r' hk' => ?_⟩
  · by_cases hkk : k' = k
    · subst hkk
      simpa using hvalid
    · simpa [Function.update_of_ne hkk] using h.rows k'
  · have hkk := hne k' t r' hk'
    exact h.left k' t r' (hheld k' hkk ▸ hk')
  · have hkk := hne k' t r' hk'
    simpa [Function.update_of_ne hkk] using h.ahead k' t r' (hheld k' hkk ▸ hk')
  · have hkk := hne k' t r' hk'
    simpa [Function.update_of_ne hkk] using h.locked k' t r' (hheld k' hkk ▸ hk')

theorem Change.sound (h : Change D t d d') (hd : Sound D d) : Sound D d' := by
  cases h with
  | same => exact hd
  | @locked k d' hlock hrow =>
    apply hd.of_held (rows_lock hlock)
    intro k' u r hk'
    unfold RowLocks.lock at hlock
    split at hlock
    · obtain rfl := Option.some.inj hlock
      by_cases hkk : k' = k
      · subst hkk
        simp at hk'
        obtain ⟨-, rfl⟩ := hk'
        exact .inr ⟨hd.rows k', D.refl _, hrow⟩
      · simp only [Function.update_of_ne hkk] at hk'
        exact .inl hk'
    · split at hlock
      · obtain rfl := Option.some.inj hlock
        exact .inl hk'
      · cases hlock
  | wrote k r hvalid hahead =>
    apply hd.of_held rows_write
    intro k' u r' hk'
    unfold RowLocks.write at hk'
    cases hown : d.own? t k with
    | none =>
      simp only [hown, Option.isSome_none, Bool.false_eq_true, if_false] at hk'
      exact .inl hk'
    | some r₀ =>
      simp only [hown, Option.isSome_some, if_true] at hk'
      by_cases hkk : k' = k
      · subst hkk
        simp at hk'
        obtain ⟨-, rfl⟩ := hk'
        have hheld := own?_eq.1 hown
        rw [seen_of_held hheld] at hahead
        exact .inr ⟨hvalid, D.trans _ _ _ (hd.ahead k' t r₀ hheld) hahead, hd.locked k' t r₀ hheld⟩
      · simp only [Function.update_of_ne hkk] at hk'
        exact .inl hk'
  | committed k =>
    unfold RowLocks.commit
    cases hown : d.own? t k with
    | none => exact hd
    | some r₀ =>
      apply hd.of_row (hd.left k t r₀ (own?_eq.1 hown)) (by simp)
      intro k' hkk
      simp [Function.update_of_ne hkk]
  | rolledBack k =>
    apply hd.of_held rows_rollback
    intro k' u r' hk'
    unfold RowLocks.rollback at hk'
    split at hk'
    · by_cases hkk : k' = k
      · subst hkk
        simp at hk'
      · simp only [Function.update_of_ne hkk] at hk'
        exact .inl hk'
    · exact .inl hk'
  | autocommitted k r hfree hvalid hahead =>
    exact hd.of_row hvalid hfree fun _ _ => rfl

/-- The committed rows only move ahead. -/
theorem Change.advances (h : Change D t d d') (hd : Sound D d) (k : κ) :
    D.ahead (d.rows k) (d'.rows k) := by
  cases h with
  | same => exact D.refl _
  | locked hlock hrow => simpa [rows_lock hlock] using D.refl _
  | wrote k' r hvalid hahead => simpa using D.refl _
  | committed k' =>
    unfold RowLocks.commit
    cases hown : d.own? t k' with
    | none => exact D.refl _
    | some r₀ =>
      by_cases hkk : k = k'
      · subst hkk
        simpa using hd.ahead k t r₀ (own?_eq.1 hown)
      · simpa [Function.update_of_ne hkk] using D.refl _
  | rolledBack k' => simpa using D.refl _
  | autocommitted k' r hfree hvalid hahead =>
    by_cases hkk : k = k'
    · subst hkk
      simpa [autocommit] using hahead
    · simpa [autocommit, Function.update_of_ne hkk] using D.refl _

/-- The locks of the other transactions survive. -/
theorem Change.spares (h : Change D u d d') (hne : u ≠ t) : Spares t d d' := by
  cases h with
  | same => exact Spares.refl t d
  | locked hlock hrow => exact spares_lock hlock
  | wrote k r hvalid hahead => exact spares_write hne
  | committed k => exact spares_commit hne
  | rolledBack k => exact spares_rollback hne
  | autocommitted k r hfree hvalid hahead => exact ⟨fun _ _ hk => hk⟩

omit [DecidableEq κ] in
theorem Sound.abandon (h : Sound D d) (t : τ) : Sound D (d.abandon t) := by
  have hheld : ∀ k u r, (d.abandon t).held k = some (u, r) → d.held k = some (u, r) := by
    intro k u r hk
    exact (Option.filter_eq_some_iff.1 hk).1
  exact h.of_held rfl fun k u r hk => .inl (hheld k u r hk)

end Discipline

end RowLocks

end CatalogSentinel.Concurrent
