import CatalogSentinel.Search.Stores

/-!
Both stores of saved searches against the law of concurrent updates. Each obeys it
with an admission of its own, which falls short of the law's in two places: a mutation
of the record with the largest safe revision, and in PostgreSQL a put of a record
without a revision onto a stored one without a revision.
-/

namespace CatalogSentinel.Search

open Concurrent
open Concurrent.Serial (Law Ledger Fresh Met Done Took)

variable {γ : Type}

theorem failed {V : Type} {stamp : SearchRecord γ → SearchRecord γ} {calls : ℕ → Call γ}
    {init : Option (SearchRecord γ)} {t : ℕ} {e : Fault} {s : Ledger V (Except Fault (Reply γ))}
    (h : Fresh t s) : Done (law stamp) calls init t (.error e) s :=
  h.failed fun v => met_error stamp (calls t) e v

variable [DecidableEq γ]

/-! ### Redis -/

namespace Redis

def Admits : Call γ → Option (SearchRecord γ) → Prop
  | .get, _ => False
  | .update _, stored => ∃ r, stored = some r
  | .put rec, stored => ∀ r, stored = some r → revisionOf r < revisionOf rec

variable {calls : ℕ → Call γ} {init : Option (SearchRecord γ)} {t : ℕ}

variable (calls init) in
abbrev contract := Serial.contract (law id) Admits (backend γ) program calls init Text.record

theorem swaps_compareAndSet (raw : Text γ) (next : SearchRecord γ) :
    Serial.Swaps (backend γ) (Cmd.compareAndSet raw next) (id : Bool → Bool) where
  ok v x a h := by
    simp only [backend, exec] at h ⊢
    split at h <;> rename_i hv <;> cases h <;> simp [hv]
  error v x e h := by
    simp only [backend, exec] at h
    split at h <;> cases h

theorem swaps_putIfAbsent (rec : SearchRecord γ) :
    Serial.Swaps (backend γ) (Cmd.putIfAbsent rec) (id : Bool → Bool) where
  ok v x a h := by
    cases v <;> cases h <;> rfl
  error v x e h := by
    cases v <;> cases h

theorem triple_getKey {P : Ledger (Text γ) (Except Fault (Reply γ)) → Prop}
    {E : Fault → Ledger (Text γ) (Except Fault (Reply γ)) → Prop}
    (hP : (contract calls init).Stable t P) :
    (contract calls init).Triple t P getKey
      (fun raw s => P s ∧ Met (law id) calls init (raw.map Text.record) s) E := by
  refine (Serial.triple_read (c := Cmd.get) (B := backend γ) id hP fun v x => rfl).post ?_
  rintro raw s - ⟨hs, v, rfl, hmet⟩
  exact ⟨hs, hmet⟩

theorem triple_compareAndSet {raw : Text γ} {next : SearchRecord γ}
    (hact : (law id).act (calls t) (some raw.record) = some next)
    (hadm : Admits (calls t) (some raw.record)) :
    (contract calls init).Triple t (Fresh t) (compareAndSet raw next)
      (fun b s => if b = true then Took (law id) calls init t next s else Fresh t s)
      (fun e => Done (law id) calls init t (.error e)) := by
  refine (Serial.triple_swap (swaps_compareAndSet raw next) (P := fun _ => True)
    (fun _ _ _ _ _ => trivial) fun s x v _ _ hw => ?_).consequence (fun _ _ h => ⟨h, trivial⟩)
    (fun _ _ _ h => h) fun e s _ h => failed h
  simp only [backend, exec] at hw
  split at hw
  · rename_i hraw
    cases hw
    rw [hraw]
    exact ⟨rfl, hact, hadm⟩
  · cases hw

theorem triple_update {mutate : SearchRecord γ → SearchRecord γ} (ht : calls t = .update mutate)
    (attempts : ℕ) :
    (contract calls init).Triple t (Fresh t) (update mutate attempts)
      (fun r => Done (law id) calls init t (.ok (.record r)))
      (fun e => Done (law id) calls init t (.error e)) := by
  induction attempts with
  | zero => exact Contract.triple_raise (Serial.stable_fresh t) fun s _ h => failed h
  | succ n ih =>
    refine (triple_getKey (Serial.stable_fresh t)).bind fun raw => ?_
    have hstable : (contract calls init).Stable t fun s =>
        Fresh t s ∧ Met (law id) calls init (raw.map Text.record) s := Serial.stable_fresh_met t _
    cases raw with
    | none =>
      refine Contract.triple_ret hstable fun s _ h => h.1.done h.2 ?_
      rw [ht]
      rfl
    | some raw =>
      have hact : (law id).act (calls t) (some raw.record) =
          some (applySearchMutation raw.record mutate) := by
        rw [ht]
        rfl
      refine (((triple_compareAndSet hact ?_).pre fun _ _ h => h.1).bind fun b => ?_)
      · rw [ht]
        exact ⟨raw.record, rfl⟩
      · cases b with
        | true =>
          refine Contract.triple_ret (Serial.stable_took t _) fun s _ h => h.done ?_
          rw [ht]
          rfl
        | false => exact ih.pre fun _ _ h => by simpa using h

theorem triple_putIfAbsent {rec : SearchRecord γ} (ht : calls t = .put rec) :
    (contract calls init).Triple t (Fresh t) (putIfAbsent rec)
      (fun b s => if b = true then Took (law id) calls init t rec s else Fresh t s)
      (fun e => Done (law id) calls init t (.error e)) := by
  refine (Serial.triple_swap (swaps_putIfAbsent rec) (P := fun _ => True)
    (fun _ _ _ _ _ => trivial) fun s x v _ _ hw => ?_).consequence (fun _ _ h => ⟨h, trivial⟩)
    (fun _ _ _ h => h) fun e s _ h => failed h
  rw [ht]
  cases hs : s.stored with
  | none =>
    rw [hs] at hw
    cases hw
    exact ⟨rfl, rfl, fun r hr => by cases hr⟩
  | some w =>
    rw [hs] at hw
    cases hw

theorem triple_indexRecord {rec : SearchRecord γ} :
    (contract calls init).Triple t (Took (law id) calls init t rec) indexRecord
      (fun _ => Took (law id) calls init t rec)
      (fun e => Done (law id) calls init t (.error e)) := by
  have hstable : (contract calls init).Stable t (Took (law id) calls init t rec) :=
    Serial.stable_took t rec
  have hindex : (contract calls init).Triple t (Took (law id) calls init t rec) index
      (fun _ => Took (law id) calls init t rec)
      (fun e => Done (law id) calls init t (.error e)) :=
    (Serial.triple_read (c := Cmd.index) (B := backend γ) (fun _ => ()) hstable
      fun v x => rfl).post fun _ _ _ h => h.1
  exact hindex.bind fun _ => hindex.bind fun _ => hindex

theorem triple_put {rec : SearchRecord γ} (ht : calls t = .put rec) (attempts : ℕ) :
    (contract calls init).Triple t (Fresh t) (put rec attempts)
      (fun _ => Done (law id) calls init t (.ok .done))
      (fun e => Done (law id) calls init t (.error e)) := by
  induction attempts with
  | zero => exact Contract.triple_raise (Serial.stable_fresh t) fun s _ h => failed h
  | succ n ih =>
    have took : ∀ s : Ledger (Text γ) (Except Fault (Reply γ)),
        Took (law id) calls init t rec s → Done (law id) calls init t (.ok .done) s := by
      intro s h
      refine h.done ?_
      rw [ht]
      trivial
    refine (triple_getKey (Serial.stable_fresh t)).bind fun raw => ?_
    have hstable : (contract calls init).Stable t fun s =>
        Fresh t s ∧ Met (law id) calls init (raw.map Text.record) s := Serial.stable_fresh_met t _
    cases raw with
    | none =>
      refine ((triple_putIfAbsent ht).pre fun _ _ h => h.1).bind fun b => ?_
      cases b with
      | true => exact (triple_indexRecord.pre fun _ _ h => h).post fun _ s _ h => took s h
      | false => exact ih.pre fun _ _ h => by simpa using h
    | some raw =>
      -- the stored record is not older than the one that is put
      have ignored : revisionOf rec ≤ revisionOf raw.record → (contract calls init).Triple t
          (fun s => Fresh t s ∧ Met (law id) calls init (some raw.record) s)
          (Prog.ret () : Run γ Unit) (fun _ => Done (law id) calls init t (.ok .done))
          (fun e => Done (law id) calls init t (.error e)) := by
        intro hle
        refine Contract.triple_ret hstable fun s _ h => h.1.done h.2 ?_
        rw [ht]
        exact ⟨raw.record, rfl, hle⟩
      have refused : ∀ e, (contract calls init).Triple t
          (fun s => Fresh t s ∧ Met (law id) calls init (some raw.record) s)
          (Prog.raise e : Run γ Unit) (fun _ => Done (law id) calls init t (.ok .done))
          (fun e => Done (law id) calls init t (.error e)) :=
        fun e => Contract.triple_raise hstable fun s _ h => failed h.1
      simp only [Option.map_some]
      split
      · exact refused _
      split
      · rename_i hlt
        exact ignored (Nat.le_of_lt hlt)
      split
      · rename_i heq
        split
        · exact ignored (Nat.le_of_eq heq)
        · exact refused _
      rename_i hge hne
      refine ((triple_compareAndSet ?_ ?_).pre fun _ _ h => h.1).bind fun b => ?_
      · rw [ht]
        rfl
      · rw [ht]
        intro r hr
        cases hr
        omega
      · cases b with
        | true => exact Contract.triple_ret (Serial.stable_took t _) fun s _ h => took s h
        | false => exact ih.pre fun _ _ h => by simpa using h

theorem triple_program :
    (contract calls init).Triple t (Fresh t) (program (calls t))
      (fun r => Done (law id) calls init t (.ok r))
      (fun e => Done (law id) calls init t (.error e)) := by
  cases ht : calls t with
  | get =>
    refine Contract.Triple.bind (Contract.Triple.bind (triple_getKey (Serial.stable_fresh t))
      fun raw => Contract.triple_ret (Serial.stable_fresh_met t _) fun s _ h => ?_)
      fun r => Contract.triple_ret (Serial.stable_done t (.ok (.record r))) fun s _ h => h
    refine h.1.done h.2 ?_
    rw [ht]
    rfl
  | update mutate =>
    exact (triple_update ht 8).bind fun r =>
      Contract.triple_ret (Serial.stable_done t _) fun s _ h => h
  | put rec =>
    exact (triple_put ht 8).bind fun _ =>
      Contract.triple_ret (Serial.stable_done t _) fun s _ h => h

end Redis

/-! ### PostgreSQL -/

namespace Postgres

def Admits : Call γ → Option (SearchRecord γ) → Prop
  | .get, _ => False
  | .update _, stored => ∃ r, stored = some r ∧ sqlRevision r = some (revisionOf r : ℤ)
  | .put rec, stored =>
    ∀ r, stored = some r → ∃ n, sqlRevision r = some n ∧ n < (ownedRevision rec : ℤ)

section Revisions

omit [DecidableEq γ]

theorem sqlRevision_natCast (record : SearchRecord γ) {n : ℕ} (h : n < 2 ^ 63) :
    sqlRevision { record with revision := some (n : ℚ) } = some (n : ℤ) := by
  unfold sqlRevision
  simp only [Rat.den_natCast, Rat.num_natCast]
  rw [if_pos ⟨trivial, by omega, by omega⟩]

theorem ownedRevision_le (rec : SearchRecord γ) : ownedRevision rec ≤ maxSafeInteger :=
  max_le (by unfold maxSafeInteger; omega) (revisionOf_le rec)

theorem revisionOf_owned (rec : SearchRecord γ) : revisionOf (owned rec) = ownedRevision rec := by
  rw [owned, revisionOf_natCast, if_pos (ownedRevision_le rec)]

theorem sqlRevision_owned (rec : SearchRecord γ) :
    sqlRevision (owned rec) = some (ownedRevision rec : ℤ) := by
  have := ownedRevision_le rec
  unfold maxSafeInteger at this
  exact sqlRevision_natCast rec (by omega)

theorem sqlRevision_applySearchMutation (r : SearchRecord γ)
    (mutate : SearchRecord γ → SearchRecord γ) :
    sqlRevision (applySearchMutation r mutate) = some ((revisionOf r + 1 : ℕ) : ℤ) := by
  have := revisionOf_le r
  unfold maxSafeInteger at this
  exact sqlRevision_natCast (applySearchMutation r mutate) (by omega)

theorem revisionOf_of_sqlRevision {r : SearchRecord γ} {n : ℤ} (h : sqlRevision r = some n) :
    (revisionOf r : ℤ) = if 0 ≤ n ∧ n ≤ maxSafeInteger then n else 0 := by
  unfold sqlRevision at h
  unfold revisionOf Checkpoint.isSafeInteger maxSafeInteger
  cases hr : r.revision with
  | none =>
    simp only [hr, Option.some.injEq] at h
    subst h
    rfl
  | some q =>
    simp only [hr] at h
    split at h
    · rename_i hq
      obtain ⟨hden, -, -⟩ := hq
      cases h
      have hnum : 0 ≤ q ↔ 0 ≤ q.num := Rat.num_nonneg.symm
      simp only [hden, true_and, decide_eq_true_eq, hnum]
      split <;> split <;> omega
    · cases h

/-- An admitted call leaves a record with a larger revision, and at least 1. -/
theorem sqlRevision_act {k : Call γ} {stored : Option (SearchRecord γ)} (hadm : Admits k stored) :
    ∃ r', (law owned).act k stored = some r' ∧ ∃ n' : ℤ, sqlRevision r' = some n' ∧ 1 ≤ n' ∧
      ∀ r, stored = some r → ∃ n, sqlRevision r = some n ∧ n < n' := by
  cases k with
  | get => exact absurd hadm id
  | update mutate =>
    obtain ⟨r, rfl, hr⟩ := hadm
    refine ⟨_, rfl, _, sqlRevision_applySearchMutation r mutate, by omega, fun q hq => ?_⟩
    cases hq
    exact ⟨_, hr, by omega⟩
  | put rec =>
    refine ⟨_, rfl, _, sqlRevision_owned rec, ?_, hadm⟩
    have : 1 ≤ ownedRevision rec := le_max_left _ _
    omega

end Revisions

variable {calls : ℕ → Call γ} {init : Option (SearchRecord γ)} {t : ℕ}

omit [DecidableEq γ] in
/-- What some calls left is stored still, or has given way to a larger revision. -/
theorem stored_or_newer {written past : List ℕ} {r : SearchRecord γ}
    (hord : (law owned).Ordered Admits calls init written) (hext : Data.Extends past written)
    (hr : (law owned).replay calls init past = some r) :
    ∃ r', (law owned).replay calls init written = some r' ∧ (r = r' ∨ ∃ n n' : ℤ,
      sqlRevision r = some n ∧ sqlRevision r' = some n' ∧ n < n' ∧ 1 ≤ n') := by
  obtain ⟨future, rfl⟩ := hext
  induction future with
  | nil => exact ⟨r, hr, .inl rfl⟩
  | cons u future ih =>
    obtain ⟨q, hq, hcase⟩ := ih hord.2
    obtain ⟨r', hr', n', hn', hpos, hlt⟩ := sqlRevision_act hord.1.2
    obtain ⟨m, hm, hmlt⟩ := hlt q hq
    refine ⟨r', hr', .inr ?_⟩
    rcases hcase with rfl | ⟨n, m', hn, hm', hnm, -⟩
    · exact ⟨m, n', hm, hn', hmlt, hpos⟩
    · have : m = m' := Option.some.inj (hm.symm.trans hm')
      exact ⟨n, n', hn, hn', by omega, hpos⟩

variable (calls init) in
abbrev contract := Serial.contract (law owned) Admits (backend γ) program calls init Row.record

omit [DecidableEq γ] in
theorem swaps_of_replace {c : Cmd γ} {wrote : c.Ans → Bool}
    (hwrote : ∀ v x, (∃ a w, exec c v x = (.ok a, some w) ∧ wrote a = true) ∨
      (∃ a, exec c v x = (.ok a, none) ∧ wrote a = false) ∨ ∃ e, exec c v x = (.error e, none)) :
    Serial.Swaps (backend γ) c wrote where
  ok v x a h := by
    rcases hwrote v x with ⟨b, w, he, hb⟩ | ⟨b, he, hb⟩ | ⟨e, he⟩ <;>
      simp only [backend, he] at h ⊢ <;> cases h <;> simp [hb]
  error v x e h := by
    rcases hwrote v x with ⟨b, w, he, -⟩ | ⟨b, he, -⟩ | ⟨e', he⟩
    · simp [backend, he] at h
    · simp [backend, he]
    · simp [backend, he]

omit [DecidableEq γ] in
/-- A replacement takes place where the row's user and revision allow it. -/
theorem replace_eq (row : Row γ) (userId : String) (allows : ℤ → Bool) (next : SearchRecord γ) :
    (∃ n, row.userId = userId ∧ sqlRevision row.record = some n ∧ allows n = true ∧
        replace row userId allows next = (.ok true, some { row with record := next })) ∨
      replace row userId allows next = (.ok false, none) ∨
      replace row userId allows next = (.error .invalidBigint, none) := by
  unfold replace
  split
  · rename_i hu
    split
    · exact .inr (.inr rfl)
    · rename_i n hn
      split
      · rename_i ha
        exact .inl ⟨n, hu, hn, ha, rfl⟩
      · exact .inr (.inl rfl)
  · exact .inr (.inl rfl)

omit [DecidableEq γ] in
theorem swaps_upsert (next : SearchRecord γ) (revision : ℕ) :
    Serial.Swaps (backend γ) (Cmd.upsert next revision) (id : Bool → Bool) := by
  refine swaps_of_replace fun v x => ?_
  cases v with
  | none => exact .inl ⟨true, _, rfl, rfl⟩
  | some row =>
    rcases replace_eq row next.userId (· < revision) next with ⟨n, -, -, -, he⟩ | he | he
    · exact .inl ⟨true, _, he, rfl⟩
    · exact .inr (.inl ⟨false, he, rfl⟩)
    · exact .inr (.inr ⟨_, he⟩)

omit [DecidableEq γ] in
theorem swaps_update (userId : String) (next : SearchRecord γ) (expected : ℕ) :
    Serial.Swaps (backend γ) (Cmd.update userId next expected) (id : Bool → Bool) := by
  refine swaps_of_replace fun v x => ?_
  cases v with
  | none => exact .inr (.inl ⟨false, rfl, rfl⟩)
  | some row =>
    rcases replace_eq row userId (· = expected) next with ⟨n, -, -, -, he⟩ | he | he
    · exact .inl ⟨true, _, he, rfl⟩
    · exact .inr (.inl ⟨false, he, rfl⟩)
    · exact .inr (.inr ⟨_, he⟩)

theorem triple_select {P : Ledger (Row γ) (Except Fault (Reply γ)) → Prop}
    {E : Fault → Ledger (Row γ) (Except Fault (Reply γ)) → Prop}
    (hP : (contract calls init).Stable t P) :
    (contract calls init).Triple t P select
      (fun row s => P s ∧ Met (law owned) calls init (row.map Row.record) s) E := by
  refine (Serial.triple_read (c := Cmd.select) (B := backend γ) id hP fun v x => rfl).post ?_
  rintro row s - ⟨hs, v, rfl, hmet⟩
  exact ⟨hs, hmet⟩

theorem triple_get {E : Fault → Ledger (Row γ) (Except Fault (Reply γ)) → Prop} :
    (contract calls init).Triple t (Fresh t) get
      (fun r s => Fresh t s ∧ Met (law owned) calls init r s) E :=
  (triple_select (Serial.stable_fresh t)).bind fun _ =>
    Contract.triple_ret (Serial.stable_fresh_met t _) fun _ _ h => h

/-- The row still has the record that was read when it has that record's revision. -/
theorem triple_updateRow {cur : SearchRecord γ} {mutate : SearchRecord γ → SearchRecord γ}
    (ht : calls t = .update mutate) :
    (contract calls init).Triple t
      (fun s => Fresh t s ∧ Met (law owned) calls init (some cur) s)
      (updateRow cur.userId (applySearchMutation cur mutate) (revisionOf cur))
      (fun b s => if b = true then
        Took (law owned) calls init t (applySearchMutation cur mutate) s else Fresh t s)
      (fun e => Done (law owned) calls init t (.error e)) := by
  refine (Serial.triple_swap (swaps_update _ _ _) ((Serial.lasting_met _).stable t)
    fun s x v hs hmet hw => ?_).consequence (fun _ _ h => h) (fun _ _ _ h => h)
    fun e s _ h => failed h
  obtain ⟨past, hext, hcur⟩ := hmet
  cases hv : s.stored with
  | none =>
    rw [hv] at hw
    cases hw
  | some row =>
    have hstored := hs.stored
    rw [hv] at hw hstored
    obtain ⟨r', hr', hcase⟩ := stored_or_newer hs.order hext hcur
    obtain rfl : row.record = r' := Option.some.inj (hstored.trans hr')
    rcases replace_eq row cur.userId (· = (revisionOf cur : ℤ)) (applySearchMutation cur mutate) with
      ⟨n, -, hn, heq, he⟩ | he | he
    · have hrev : n = revisionOf cur := by simpa using heq
      have hsame : cur = row.record := by
        rcases hcase with h | ⟨m, m', hm, hm', hlt, hpos⟩
        · exact h
        · have hm'n : m' = n := Option.some.inj (hm'.symm.trans hn)
          have := revisionOf_of_sqlRevision hm
          split at this <;> omega
      simp only [backend, exec, he] at hw
      cases hw
      rw [ht]
      refine ⟨rfl, ?_, row.record, rfl, ?_⟩
      · simp only [Option.map_some, hsame]
        rfl
      · rw [← hsame, ← hrev, hsame]
        exact hn
    · simp only [backend, exec, he] at hw
      cases hw
    · simp only [backend, exec, he] at hw
      cases hw

theorem triple_update {mutate : SearchRecord γ → SearchRecord γ} (ht : calls t = .update mutate)
    (attempts : ℕ) :
    (contract calls init).Triple t (Fresh t) (update mutate attempts)
      (fun r => Done (law owned) calls init t (.ok (.record r)))
      (fun e => Done (law owned) calls init t (.error e)) := by
  induction attempts with
  | zero => exact Contract.triple_raise (Serial.stable_fresh t) fun s _ h => failed h
  | succ n ih =>
    refine triple_get.bind fun r => ?_
    cases r with
    | none =>
      refine Contract.triple_ret (Serial.stable_fresh_met t none) fun s _ h => h.1.done h.2 ?_
      rw [ht]
      rfl
    | some cur =>
      refine (triple_updateRow ht).bind fun b => ?_
      cases b with
      | true =>
        refine Contract.triple_ret (Serial.stable_took t _) fun s _ h => h.done ?_
        rw [ht]
        rfl
      | false => exact ih.pre fun _ _ h => by simpa using h

theorem triple_upsertRow {rec : SearchRecord γ} (ht : calls t = .put rec) :
    (contract calls init).Triple t (Fresh t) (upsertRow (owned rec) (ownedRevision rec))
      (fun b s => if b = true then Took (law owned) calls init t (owned rec) s else Fresh t s)
      (fun e => Done (law owned) calls init t (.error e)) := by
  refine (Serial.triple_swap (swaps_upsert _ _) (P := fun _ => True)
    (fun _ _ _ _ _ => trivial) fun s x v _ _ hw => ?_).consequence (fun _ _ h => ⟨h, trivial⟩)
    (fun _ _ _ h => h) fun e s _ h => failed h
  rw [ht]
  cases hv : s.stored with
  | none =>
    rw [hv] at hw
    cases hw
    exact ⟨rfl, rfl, fun r hr => by cases hr⟩
  | some row =>
    rw [hv] at hw
    rcases replace_eq row (owned rec).userId (· < (ownedRevision rec : ℤ)) (owned rec) with
      ⟨n, -, hn, hlt, he⟩ | he | he
    · simp only [backend, exec, he] at hw
      cases hw
      refine ⟨rfl, rfl, fun r hr => ?_⟩
      cases hr
      exact ⟨n, hn, by simpa using hlt⟩
    · simp only [backend, exec, he] at hw
      cases hw
    · simp only [backend, exec, he] at hw
      cases hw

theorem triple_put {rec : SearchRecord γ} (ht : calls t = .put rec) :
    (contract calls init).Triple t (Fresh t) (put rec)
      (fun _ => Done (law owned) calls init t (.ok .done))
      (fun e => Done (law owned) calls init t (.error e)) := by
  refine (triple_upsertRow ht).bind fun b => ?_
  cases b with
  | true =>
    refine Contract.triple_ret (Serial.stable_took t _) fun s _ h => h.done ?_
    rw [ht]
    trivial
  | false =>
    refine ((triple_select (Serial.stable_fresh t)).pre fun _ _ h => by simpa using h).bind
      fun row => ?_
    have hstable : (contract calls init).Stable t fun s =>
        Fresh t s ∧ Met (law owned) calls init (row.map Row.record) s := Serial.stable_fresh_met t _
    have refused : ∀ e, (contract calls init).Triple t
        (fun s => Fresh t s ∧ Met (law owned) calls init (row.map Row.record) s)
        (Prog.raise e : Run γ Unit) (fun _ => Done (law owned) calls init t (.ok .done))
        (fun e => Done (law owned) calls init t (.error e)) :=
      fun e => Contract.triple_raise hstable fun s _ h => failed h.1
    cases row with
    | none => exact refused _
    | some existing =>
      have ignored : ownedRevision rec ≤ revisionOf existing.record →
          (contract calls init).Triple t
            (fun s => Fresh t s ∧ Met (law owned) calls init (some existing.record) s)
            (Prog.ret () : Run γ Unit) (fun _ => Done (law owned) calls init t (.ok .done))
            (fun e => Done (law owned) calls init t (.error e)) := by
        intro hle
        refine Contract.triple_ret hstable fun s _ h => h.1.done h.2 ?_
        rw [ht]
        exact ⟨existing.record, rfl, (le_max_right _ _).trans hle⟩
      simp only [Option.map_some]
      split
      · exact refused _
      split
      · rename_i hlt
        exact ignored (Nat.le_of_lt hlt)
      split
      · rename_i heq
        exact ignored (Nat.le_of_eq heq.1.symm)
      · exact refused _

theorem triple_program :
    (contract calls init).Triple t (Fresh t) (program (calls t))
      (fun r => Done (law owned) calls init t (.ok r))
      (fun e => Done (law owned) calls init t (.error e)) := by
  cases ht : calls t with
  | get =>
    refine triple_get.bind fun r =>
      Contract.triple_ret (Serial.stable_fresh_met t r) fun s _ h => h.1.done h.2 ?_
    rw [ht]
    rfl
  | update mutate =>
    exact (triple_update ht 8).bind fun r =>
      Contract.triple_ret (Serial.stable_done t _) fun s _ h => h
  | put rec =>
    exact (triple_put ht).bind fun _ =>
      Contract.triple_ret (Serial.stable_done t _) fun s _ h => h

end Postgres

/-! ### Both stores -/

/-- An update finds a revision that it can advance. -/
def Redis.Gate : Call γ → Option (SearchRecord γ) → Prop
  | .update _, stored => ∀ r, stored = some r → revisionOf r < maxSafeInteger
  | _, _ => True

/-- So does an update here, and a put that replaces a record has a revision. -/
def Postgres.Gate : Call γ → Option (SearchRecord γ) → Prop
  | .get, _ => True
  | .update _, stored => ∀ r, stored = some r → revisionOf r < maxSafeInteger
  | .put rec, stored => stored.isSome → 0 < revisionOf rec

omit [DecidableEq γ] in
theorem Redis.advances_iff {k : Call γ} {stored : Option (SearchRecord γ)}
    (h : Redis.Admits k stored) : Advances id k stored ↔ Redis.Gate k stored := by
  cases k with
  | get => exact absurd h id
  | update mutate =>
    obtain ⟨r, rfl⟩ := h
    simp [Advances, Redis.Gate, lt_revisionOf_applySearchMutation]
  | put rec => exact iff_of_true (fun r hr => ⟨h r hr, h r hr⟩) trivial

omit [DecidableEq γ] in
theorem Postgres.advances_iff {k : Call γ} {stored : Option (SearchRecord γ)}
    (h : Postgres.Admits k stored) : Advances Postgres.owned k stored ↔ Postgres.Gate k stored := by
  cases k with
  | get => exact absurd h id
  | update mutate =>
    obtain ⟨r, rfl, -⟩ := h
    simp [Advances, Postgres.Gate, lt_revisionOf_applySearchMutation]
  | put rec =>
    cases stored with
    | none => exact iff_of_true (fun r hr => by cases hr) fun hs => by cases hs
    | some r =>
      obtain ⟨n, hn, hlt⟩ := h r rfl
      have hr := Postgres.revisionOf_of_sqlRevision hn
      have hown : Postgres.ownedRevision rec = max 1 (revisionOf rec) := rfl
      have hmax := revisionOf_le rec
      constructor
      · intro hadv _
        exact Nat.zero_lt_of_lt (hadv r rfl).1
      · intro hpos q hq
        cases hq
        have hrec : 0 < revisionOf rec := hpos rfl
        rw [Postgres.revisionOf_owned]
        split at hr <;> omega

/-- The stored record is the sequential effect of exactly the updates that succeed and the
puts that are accepted, each advances the revision, and puts that are not newer change
nothing, throughout a run of either store just when each update that writes finds a revision
below the largest safe integer and, in PostgreSQL, each put that writes over a record has a
revision of its own. -/
theorem updates_serializable_iff (calls : ℕ → Call γ) :
    (∀ stored ms, Steps.Throughout (Serial.system (Redis.backend γ) Redis.program calls).step
        (fun w => (law id).Obeyed (Advances id) calls (stored.map Redis.Text.record)
          Redis.Text.record w.state) (World.idle (Ledger.init stored)) ms ↔
      Steps.Along (Serial.system (Redis.backend γ) Redis.program calls).step
        (Serial.Gated calls Redis.Text.record Redis.Gate) (World.idle (Ledger.init stored)) ms) ∧
    ∀ stored ms, Steps.Throughout (Serial.system (Postgres.backend γ) Postgres.program calls).step
        (fun w => (law Postgres.owned).Obeyed (Advances Postgres.owned) calls
          (stored.map Postgres.Row.record) Postgres.Row.record w.state)
        (World.idle (Ledger.init stored)) ms ↔
      Steps.Along (Serial.system (Postgres.backend γ) Postgres.program calls).step
        (Serial.Gated calls Postgres.Row.record Postgres.Gate)
        (World.idle (Ledger.init stored)) ms :=
  ⟨fun stored ms => Serial.obeyed_iff_gated stored (fun _ => Redis.triple_program)
      (fun _ _ => Redis.advances_iff) ms,
    fun stored ms => Serial.obeyed_iff_gated stored (fun _ => Postgres.triple_program)
      (fun _ _ => Postgres.advances_iff) ms⟩

/-! ### A put without a revision -/

/-- A record that was saved before records had revisions. -/
def legacy (note : Bool) : SearchRecord Bool where
  id := "search_1"
  revision := none
  userId := "alice"
  sourceSearchId := none
  createdAt := "2026-01-01T00:00:00.000Z"
  body := note

/-- One call puts a legacy record over another one. -/
theorem legacy_put_overwrites : ¬ ∀ (calls : ℕ → Call Bool) (stored : Option (Postgres.Row Bool))
    (ms : List (Move ℕ Unit)),
    Steps.Throughout (Serial.system (Postgres.backend Bool) Postgres.program calls).step
      (fun w => (law Postgres.owned).Obeyed (Advances Postgres.owned) calls
        (stored.map Postgres.Row.record) Postgres.Row.record w.state)
      (World.idle (Ledger.init stored)) ms := by
  intro h
  have hall := h (fun _ => .put (legacy true)) (some ⟨"alice", legacy false⟩)
    [.start 0, .go 0 ()]
  have hrun : ∃ w, Steps.run (Serial.system (Postgres.backend Bool) Postgres.program
      fun _ => .put (legacy true)).step
      (World.idle (Ledger.init (some ⟨"alice", legacy false⟩))) [.start 0, .go 0 ()] = some w ∧
      w.state.written = [0] := ⟨_, rfl, rfl⟩
  obtain ⟨w, hw, hwritten⟩ := hrun
  have hord := (hall.last hw).order
  rw [hwritten] at hord
  have hlt := (hord.1.2 (legacy false) rfl).1
  exact absurd hlt (by decide)

end CatalogSentinel.Search
