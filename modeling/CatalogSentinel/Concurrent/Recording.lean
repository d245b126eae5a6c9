import CatalogSentinel.Concurrent.Watch

/-!
A system whose awaits are recorded: who awaited what, and how it settled, newest
first. A tag stands for one program only, so what a tag has recorded is the past that
its program has followed; a watch that the code keeps therefore holds of every entry
of the record.
-/

namespace CatalogSentinel.Concurrent

variable {S : Signature} {ε σ τ ω : Type} [DecidableEq τ]

/-- A state with the record of the awaits that led to it. -/
structure Recording (S : Signature) (ε σ τ : Type) where
  state : σ
  record : List (τ × Settled S ε)

/-- The awaits that one tag has recorded. -/
def own (t : τ) (record : List (τ × Settled S ε)) : List (Settled S ε) :=
  (record.filter fun x => x.1 = t).map Prod.snd

@[simp] theorem own_nil (t : τ) : own t ([] : List (τ × Settled S ε)) = [] := rfl

@[simp] theorem own_cons_self (t : τ) (x : Settled S ε) (record : List (τ × Settled S ε)) :
    own t ((t, x) :: record) = x :: own t record := by
  simp [own]

theorem own_cons_ne {t u : τ} (h : u ≠ t) (x : Settled S ε) (record : List (τ × Settled S ε)) :
    own t ((u, x) :: record) = own t record := by
  simp [own, h]

theorem mem_own {t : τ} {x : Settled S ε} {record : List (τ × Settled S ε)} :
    x ∈ own t record ↔ (t, x) ∈ record := by
  simp [own]

theorem own_eq_nil {t : τ} {record : List (τ × Settled S ε)} (h : t ∉ record.map Prod.fst) :
    own t record = [] := by
  rw [own, List.map_eq_nil_iff, List.filter_eq_nil_iff]
  intro x hx he
  exact h (List.mem_map.2 ⟨x, hx, of_decide_eq_true he⟩)

namespace System

variable (sys : System S ε σ τ ω)

def recorded : System S ε (Recording S ε σ τ) τ ω where
  perform t s o c := (sys.perform t s.state o c).map fun r =>
    (r.1, ⟨r.2, (t, ⟨o, r.1⟩) :: s.record⟩)
  code := sys.code
  start s running t :=
    if t ∈ running ∨ t ∈ s.record.map Prod.fst then none
    else (sys.start s.state running t).map fun s' => ⟨s', s.record⟩
  settle s t r := ⟨sys.settle s.state t r, s.record⟩
  crash s t := ⟨sys.crash s.state t, s.record⟩
  env s c := (sys.env s.state c).map fun s' => ⟨s', s.record⟩

variable {sys} {W : Watch S ε}

abbrev RecordedWorld (S : Signature) (ε σ τ : Type) := World S ε (Recording S ε σ τ) τ

/-- Every running program has a tag of its own, and goes on from what that has recorded as
the watch demands. -/
structure Watching (W : Watch S ε) (w : RecordedWorld S ε σ τ) : Prop where
  apart : (w.procs.map Prod.fst).Nodup
  watched : ∀ q ∈ w.procs, W.Watched (fun _ _ => True) q.2 (own q.1 w.state.record)

theorem watching_idle (s : Recording S ε σ τ) : Watching W (World.idle s) :=
  ⟨List.nodup_nil, fun q hq => by cases hq⟩

/-- One step of a recorded system: a watched await that is recorded, or a change of the
state alone. -/
theorem Watching.step {w w' : RecordedWorld S ε σ τ} {m : Move τ ω} (hw : Watching W w)
    (hstart : ∀ running t s, sys.start w.state.state running t = some s →
      W.Watched (fun _ _ => True) (sys.code t) [])
    (hgo : ∀ past t o c r s, W.ok past o → sys.perform t w.state.state o c = some (r, s) →
      W.admits o r)
    (h : sys.recorded.step w m = some w') : Watching W w' := by
  obtain ⟨hapart, hwatched⟩ := hw
  have herase : ∀ i, Watching W (⟨w.state, w.procs.eraseIdx i⟩ : RecordedWorld S ε σ τ) := fun i =>
    ⟨hapart.sublist ((List.eraseIdx_sublist _ _).map _),
      fun q hq => hwatched q (List.mem_of_mem_eraseIdx hq)⟩
  cases m with
  | start t =>
    obtain ⟨s, hs, rfl⟩ := step_start h
    simp only [recorded] at hs
    split at hs
    · cases hs
    · rename_i hfresh
      obtain ⟨s', hs', rfl⟩ := Option.map_eq_some_iff.1 hs
      obtain ⟨hrun, hrec⟩ := not_or.1 hfresh
      refine ⟨?_, fun q hq => ?_⟩
      · rw [List.map_append, List.nodup_append]
        refine ⟨hapart, by simp, fun a ha b hb hab => hrun ?_⟩
        have hbt : b = t := by simpa using hb
        exact hbt ▸ hab ▸ ha
      · rcases List.mem_append.1 hq with hq | hq
        · exact hwatched q hq
        · rw [List.mem_singleton.1 hq, own_eq_nil hrec]
          exact hstart _ _ _ hs'
  | go i c =>
    obtain ⟨t, o, k, r₀, s₀, hi, hp, rfl⟩ := step_go h
    obtain ⟨⟨r, s⟩, hp', he⟩ := Option.map_eq_some_iff.1 hp
    cases he
    have hlt : i < w.procs.length := (List.getElem?_eq_some_iff.1 hi).1
    have hop := hwatched _ (List.mem_of_getElem? hi)
    have htags : (w.procs.set i (t, k r)).map Prod.fst = w.procs.map Prod.fst := by
      have hlen : i < (w.procs.map Prod.fst).length := by simpa using hlt
      have hget : (w.procs.map Prod.fst)[i] = t := by
        rw [List.getElem_map, (List.getElem_eq_iff hlt).2 hi]
      rw [List.map_set, ← hget, List.set_getElem_self]
    refine ⟨by rw [htags]; exact hapart, fun q hq => ?_⟩
    obtain ⟨j, hj⟩ := List.mem_iff_getElem?.1 hq
    by_cases hij : i = j
    · subst hij
      rw [List.getElem?_set_self hlt] at hj
      cases hj
      rw [own_cons_self]
      exact hop.2 r (hgo _ _ _ _ _ _ hop.1 hp')
    · rw [List.getElem?_set_ne hij] at hj
      -- The tags are apart, so the entry is not of this program.
      have hne : t ≠ q.1 := by
        intro he
        have hgi : (w.procs.map Prod.fst)[i]? = some t := by simp [hi]
        have hgj : (w.procs.map Prod.fst)[j]? = some t := by simp [hj, he]
        exact hij ((List.getElem?_inj (by simpa using hlt) hapart).1 (hgi.trans hgj.symm))
      rw [own_cons_ne hne]
      exact hwatched q (List.mem_of_getElem? hj)
  | settle i =>
    obtain ⟨t, r, hi, rfl⟩ := step_settle h
    exact ⟨(herase i).apart, (herase i).watched⟩
  | crash i =>
    obtain ⟨t, p, hi, rfl⟩ := step_crash h
    exact ⟨(herase i).apart, (herase i).watched⟩
  | env c =>
    obtain ⟨s, hs, rfl⟩ := step_env h
    obtain ⟨s', hs', rfl⟩ := Option.map_eq_some_iff.1 hs
    exact ⟨hapart, hwatched⟩

/-- The steps of a recorded system, as a watch sees them: the state alone changes, or a
watched await changes it and is recorded. -/
theorem Watching.step_cases {w w' : RecordedWorld S ε σ τ} {m : Move τ ω} (hw : Watching W w)
    (h : sys.recorded.step w m = some w') :
    (∃ t o k c r s, (∃ i, m = .go i c ∧ w.procs[i]? = some (t, .op o k)) ∧
      W.ok (own t w.state.record) o ∧ sys.perform t w.state.state o c = some (r, s) ∧
      w'.state = ⟨s, (t, ⟨o, r⟩) :: w.state.record⟩) ∨
    (w'.state.record = w.state.record ∧
      ((∃ running t, sys.start w.state.state running t = some w'.state.state) ∨
        (∃ t r, w'.state.state = sys.settle w.state.state t r) ∨
        (∃ t, w'.state.state = sys.crash w.state.state t) ∨
        ∃ c, sys.env w.state.state c = some w'.state.state)) := by
  cases m with
  | start t =>
    obtain ⟨s, hs, rfl⟩ := step_start h
    simp only [recorded] at hs
    split at hs
    · cases hs
    · obtain ⟨s', hs', rfl⟩ := Option.map_eq_some_iff.1 hs
      exact .inr ⟨rfl, .inl ⟨_, t, hs'⟩⟩
  | go i c =>
    obtain ⟨t, o, k, r₀, s₀, hi, hp, rfl⟩ := step_go h
    obtain ⟨⟨r, s⟩, hp', he⟩ := Option.map_eq_some_iff.1 hp
    cases he
    have hop := hw.watched _ (List.mem_of_getElem? hi)
    exact .inl ⟨t, o, k, c, r, s, ⟨i, rfl, hi⟩, hop.1, hp', rfl⟩
  | settle i =>
    obtain ⟨t, r, -, rfl⟩ := step_settle h
    exact .inr ⟨rfl, .inr (.inl ⟨t, r, rfl⟩)⟩
  | crash i =>
    obtain ⟨t, p, -, rfl⟩ := step_crash h
    exact .inr ⟨rfl, .inr (.inr (.inl ⟨t, rfl⟩))⟩
  | env c =>
    obtain ⟨s, hs, rfl⟩ := step_env h
    obtain ⟨s', hs', rfl⟩ := Option.map_eq_some_iff.1 hs
    exact .inr ⟨rfl, .inr (.inr (.inr ⟨c, hs'⟩))⟩

end System

/-- Every await of the record was one that the watch allowed after what its own program had
recorded before. -/
def Recording.Upholds (W : Watch S ε) (record : List (τ × Settled S ε)) : Prop :=
  ∀ newer t o r past, record = newer ++ (t, ⟨o, r⟩) :: past → W.ok (own t past) o

theorem upholds_nil (W : Watch S ε) : Recording.Upholds W ([] : List (τ × Settled S ε)) := by
  intro newer t o r past h
  cases newer <;> cases h

theorem upholds_cons {W : Watch S ε} {t : τ} {o : S.Op} {r : Except ε (S.Ans o)}
    {record : List (τ × Settled S ε)} (h : Recording.Upholds W record) (ho : W.ok (own t record) o) :
    Recording.Upholds W ((t, ⟨o, r⟩) :: record) := by
  intro newer u o' r' past he
  cases newer with
  | nil =>
    cases he
    exact ho
  | cons x newer =>
    obtain ⟨-, he'⟩ := List.cons.inj he
    exact h newer u o' r' past he'

end CatalogSentinel.Concurrent
