import CatalogSentinel.Concurrent.System

/-!
Writes that are fenced by a check. A program is poised when some answers lead it
to a fenced write with no further check on the way. A walk follows the last
check's verdict through a program: it may write only after a check passed, so a
program is never poised right after a check that did not pass.

In a world whose checks no longer pass, no fenced write takes place any more,
provided that no program was poised when they stopped passing.
-/

namespace CatalogSentinel.Concurrent

/-- Which awaits check, which answers let the program pass, and which awaits are
the fenced writes. -/
structure Fence (S : Signature) where
  check : S.Op → Bool
  passes : (o : S.Op) → S.Ans o → Bool
  write : S.Op → Bool

namespace Fence

variable {S : Signature} (F : Fence S) {ε α β : Type}

def Poised : Prog S ε α → Prop
  | .ret _ => False
  | .raise _ => False
  | .op o k => F.write o = true ∨ F.check o = false ∧ ∃ r, Poised (k r)

/-- Whether the last check passed, once `o` has been answered. -/
def after (passed : Bool) (o : S.Op) : Except ε (S.Ans o) → Bool
  | .ok a => if F.check o then F.passes o a else passed
  | .error _ => if F.check o then false else passed

/-- From the given verdict of the last check, every fenced write of the program
follows a passed check, and the program ends in `Q`. -/
def Walk (Q : Except ε α → Bool → Prop) : Prog S ε α → Bool → Prop
  | .ret a, m => Q (.ok a) m
  | .raise e, m => Q (.error e) m
  | .op o k, m => (F.write o = true → m = true) ∧ ∀ r, Walk Q (k r) (F.after m o r)

/-- A program all of whose fenced writes follow a passed check. -/
def Fenced (p : Prog S ε α) : Prop := F.Walk (fun _ _ => True) p true

variable {F}

theorem after_of_check {o : S.Op} (h : F.check o = true) (m m' : Bool)
    (r : Except ε (S.Ans o)) : F.after m o r = F.after m' o r := by
  cases r <;> simp [after, h]

theorem after_of_not_check {o : S.Op} (h : F.check o = false) (m : Bool)
    (r : Except ε (S.Ans o)) : F.after m o r = m := by
  cases r <;> simp [after, h]

theorem Walk.mono {Q Q' : Except ε α → Bool → Prop} {p : Prog S ε α} {m : Bool}
    (h : F.Walk Q p m) (hQ : ∀ r m, Q r m → Q' r m) : F.Walk Q' p m := by
  induction p generalizing m with
  | ret a => exact hQ _ _ h
  | raise e => exact hQ _ _ h
  | op o k ih => exact ⟨h.1, fun r => ih r (h.2 r)⟩

theorem Walk.fenced {Q : Except ε α → Bool → Prop} {p : Prog S ε α} {m : Bool}
    (h : F.Walk Q p m) : F.Fenced p := by
  unfold Fenced
  induction p generalizing m with
  | ret a => trivial
  | raise e => trivial
  | op o k ih =>
    refine ⟨fun _ => rfl, fun r => ?_⟩
    cases hc : F.check o with
    | true => exact (after_of_check hc m true r) ▸ (h.2 r).mono fun _ _ _ => trivial
    | false => exact (after_of_not_check hc true r).symm ▸ ih r (h.2 r)

theorem Walk.not_poised {Q : Except ε α → Bool → Prop} {p : Prog S ε α}
    (h : F.Walk Q p false) : ¬ F.Poised p := by
  induction p with
  | ret a => exact id
  | raise e => exact id
  | op o k ih =>
    rintro (hw | ⟨hc, r, hr⟩)
    · exact absurd (h.1 hw) (by simp)
    · exact ih r ((after_of_not_check hc false r) ▸ h.2 r) hr

theorem Fenced.next {o : S.Op} {k : Except ε (S.Ans o) → Prog S ε α}
    (h : F.Fenced (Prog.op o k)) (r : Except ε (S.Ans o)) : F.Fenced (k r) := (h.2 r).fenced

/-- The fence holds a program that its check did not let pass. -/
theorem Fenced.held {o : S.Op} {k : Except ε (S.Ans o) → Prog S ε α}
    (h : F.Fenced (Prog.op o k)) {r : Except ε (S.Ans o)} (hr : F.after true o r = false) :
    ¬ F.Poised (k r) := by
  have := h.2 r
  rw [hr] at this
  exact this.not_poised

theorem not_poised_of_calls {p : Prog S ε α} (h : p.Calls fun o => F.write o = false) :
    ¬ F.Poised p := by
  induction p with
  | ret a => exact id
  | raise e => exact id
  | op o k ih =>
    rintro (hw | ⟨-, r, hr⟩)
    · exact absurd (h.1.symm.trans hw) (by simp)
    · exact ih r (h.2 r) hr

theorem not_poised_next {o : S.Op} {k : Except ε (S.Ans o) → Prog S ε α}
    (h : ¬ F.Poised (Prog.op o k)) (hc : F.check o = false) (r : Except ε (S.Ans o)) :
    ¬ F.Poised (k r) := fun hr => h (.inr ⟨hc, r, hr⟩)

/-! ### Rules -/

variable {Q : Except ε β → Bool → Prop} {R : Except ε α → Bool → Prop} {m : Bool}

theorem Walk.bind {p : Prog S ε α} {f : α → Prog S ε β} (hp : F.Walk R p m)
    (hf : ∀ a m', R (.ok a) m' → F.Walk Q (f a) m')
    (he : ∀ e m', R (.error e) m' → Q (.error e) m') : F.Walk Q (p >>= f) m := by
  induction p generalizing m with
  | ret a => exact hf a m hp
  | raise e => exact he e m hp
  | op o k ih => exact ⟨hp.1, fun r => ih r (hp.2 r)⟩

theorem Walk.handle {p : Prog S ε α} {f : ε → Prog S ε α} {Q : Except ε α → Bool → Prop}
    (hp : F.Walk R p m) (ha : ∀ a m', R (.ok a) m' → Q (.ok a) m')
    (hf : ∀ e m', R (.error e) m' → F.Walk Q (f e) m') : F.Walk Q (p.handle f) m := by
  induction p generalizing m with
  | ret a => exact ha a m hp
  | raise e => exact hf e m hp
  | op o k ih => exact ⟨hp.1, fun r => ih r (hp.2 r)⟩

theorem Walk.attempt {p : Prog S ε α} (hp : F.Walk R p m) :
    F.Walk (fun r m' => ∃ r', r = .ok r' ∧ R r' m') p.attempt m := by
  induction p generalizing m with
  | ret a => exact ⟨_, rfl, hp⟩
  | raise e => exact ⟨_, rfl, hp⟩
  | op o k ih => exact ⟨hp.1, fun r => ih r (hp.2 r)⟩

theorem walk_call {o : S.Op} {Q : Except ε (S.Ans o) → Bool → Prop}
    (hw : F.write o = true → m = true) (hQ : ∀ r, Q r (F.after m o r)) :
    F.Walk Q (Prog.call o) m := by
  refine ⟨hw, fun r => ?_⟩
  cases r with
  | ok a => exact hQ (.ok a)
  | error e => exact hQ (.error e)

theorem walk_of_calls {p : Prog S ε α} (h : p.Calls fun o => F.write o = false) :
    F.Walk (fun _ _ => True) p m := by
  induction p generalizing m with
  | ret a => trivial
  | raise e => trivial
  | op o k ih => exact ⟨fun hw => absurd (h.1.symm.trans hw) (by simp), fun r => ih r (h.2 r)⟩

/-! ### Programs that check before every write -/

variable (F) in
/-- From any verdict of the last check, a check stands before every fenced write. -/
def Guarded (p : Prog S ε α) : Prop := ∀ m, F.Walk (fun _ _ => True) p m

theorem guarded_of_calls {p : Prog S ε α} (h : p.Calls fun o => F.write o = false) :
    F.Guarded p := fun _ => walk_of_calls h

theorem guarded_ret (a : α) : F.Guarded (Prog.ret a : Prog S ε α) := fun _ => trivial

theorem guarded_raise (e : ε) : F.Guarded (Prog.raise e : Prog S ε α) := fun _ => trivial

theorem Guarded.bind {p : Prog S ε α} {f : α → Prog S ε β} (hp : F.Guarded p)
    (hf : ∀ a, F.Guarded (f a)) : F.Guarded (p >>= f) :=
  fun m => (hp m).bind (fun a m' _ => hf a m') fun _ _ _ => trivial

theorem Guarded.handle {p : Prog S ε α} {f : ε → Prog S ε α} (hp : F.Guarded p)
    (hf : ∀ e, F.Guarded (f e)) : F.Guarded (p.handle f) :=
  fun m => (hp m).handle (fun _ _ _ => trivial) fun e m' _ => hf e m'

theorem Guarded.attempt {p : Prog S ε α} (hp : F.Guarded p) : F.Guarded p.attempt :=
  fun m => (hp m).attempt.mono fun _ _ _ => trivial

theorem compositional_guarded :
    Prog.Compositional fun {α} (p : Prog S ε α) => F.Guarded p :=
  ⟨guarded_ret, guarded_raise, Guarded.bind, Guarded.handle, Guarded.attempt⟩

variable (F) in
/-- The program makes no fenced write unguarded, and its success means that the check
passed. -/
def Confirms (p : Prog S ε α) : Prop :=
  ∀ m, F.Walk (fun r m' => r.toBool = true → m' = true) p m

theorem Confirms.guarded {p : Prog S ε α} (hp : F.Confirms p) : F.Guarded p :=
  fun m => (hp m).mono fun _ _ _ => trivial

theorem Guarded.confirms {p : Prog S ε α} {f : α → Prog S ε β} (hp : F.Guarded p)
    (hf : ∀ a, F.Confirms (f a)) : F.Confirms (p >>= f) :=
  fun m => (hp m).bind (fun a m' _ => hf a m') fun _ _ _ h => by cases h

/-- Awaits that neither check nor write leave the last check's verdict as it was. -/
theorem walk_idle {p : Prog S ε α} (h : p.Calls fun o => F.check o = false ∧ F.write o = false)
    (m : Bool) : F.Walk (fun _ m' => m' = m) p m := by
  induction p with
  | ret a => rfl
  | raise e => rfl
  | op o k ih =>
    refine ⟨fun hw => absurd (h.1.2.symm.trans hw) (by simp), fun r => ?_⟩
    rw [after_of_not_check h.1.1]
    exact ih r (h.2 r)

theorem Confirms.idle {p : Prog S ε α} {f : α → Prog S ε β} (hp : F.Confirms p)
    (hf : ∀ a, (f a).Calls fun o => F.check o = false ∧ F.write o = false) :
    F.Confirms (p >>= f) := by
  intro m
  refine (hp m).bind (fun a m' hm => ?_) fun _ _ _ h => by cases h
  exact (walk_idle (hf a) m').mono fun r m'' he _ => he.trans (hm rfl)

/-- What follows a program whose success means that the check passed. -/
theorem Confirms.bind {p : Prog S ε α} {f : α → Prog S ε β} (hp : F.Confirms p)
    (hf : ∀ a, F.Walk (fun _ _ => True) (f a) true) : F.Guarded (p >>= f) :=
  fun m => (hp m).bind (fun a _ hm => (hm rfl) ▸ hf a) fun _ _ _ => trivial

/-! ### Worlds whose checks have stopped passing -/

section Worlds

variable {σ τ ω : Type} {sys : System S ε σ τ ω} {shut : σ → Prop}

/-- Every program is fenced, and in a shut state none is poised. -/
structure Held (F : Fence S) (shut : σ → Prop) (w : World S ε σ τ) : Prop where
  fenced : ∀ q ∈ w.procs, F.Fenced q.2
  still : shut w.state → ∀ q ∈ w.procs, ¬ F.Poised q.2

theorem held_idle (s : σ) : F.Held shut (World.idle s : World S ε σ τ) :=
  ⟨fun q hq => by simp [World.idle] at hq, fun _ q hq => by simp [World.idle] at hq⟩

/-- A step keeps the programs fenced, and lets none become poised in a state that was
shut, or in one that it shuts while none is poised. -/
theorem Held.step (hcode : ∀ t, F.Guarded (sys.code t))
    (hpass : ∀ t s o c a s', shut s → F.check o = true →
      sys.perform t s o c = some (.ok a, s') → F.passes o a = false)
    {w w' : World S ε σ τ} {m : Move τ ω} (hw : F.Held shut w)
    (hshut : shut w'.state → shut w.state ∨ ∀ q ∈ w.procs, ¬ F.Poised q.2)
    (hopen : ∀ i c t o k, m = .go i c → w.procs[i]? = some (t, .op o k) → F.check o = true →
      shut w'.state → shut w.state)
    (h : sys.step w m = some w') : F.Held shut w' := by
  have hstill : shut w'.state → ∀ q ∈ w.procs, ¬ F.Poised q.2 := fun hs =>
    (hshut hs).elim hw.still id
  cases m with
  | start t =>
    obtain ⟨s, -, rfl⟩ := System.step_start h
    refine ⟨fun q hq => ?_, fun hs q hq => ?_⟩
    · rcases List.mem_append.1 hq with hq | hq
      · exact hw.fenced q hq
      · rw [List.mem_singleton.1 hq]
        exact hcode t true
    · rcases List.mem_append.1 hq with hq | hq
      · exact hstill hs q hq
      · rw [List.mem_singleton.1 hq]
        exact (hcode t false).not_poised
  | go i c =>
    obtain ⟨t, o, k, r, s, hi, hp, rfl⟩ := System.step_go h
    have hmem : (t, Prog.op o k) ∈ w.procs := List.mem_of_getElem? hi
    refine ⟨fun q hq => ?_, fun hs q hq => ?_⟩
    · rcases List.mem_or_eq_of_mem_set hq with hq | rfl
      · exact hw.fenced q hq
      · exact (hw.fenced _ hmem).next r
    · rcases List.mem_or_eq_of_mem_set hq with hq | rfl
      · exact hstill hs q hq
      · cases hc : F.check o with
        | false => exact not_poised_next (hstill hs _ hmem) hc r
        | true =>
          refine (hw.fenced _ hmem).held ?_
          cases r with
          | error e => simp [after, hc]
          | ok a =>
            have hs' := hopen i c t o k rfl hi hc hs
            simp [after, hc, hpass t w.state o c a s hs' hc hp]
  | settle i =>
    obtain ⟨t, r, -, rfl⟩ := System.step_settle h
    exact ⟨fun q hq => hw.fenced q (List.mem_of_mem_eraseIdx hq),
      fun hs q hq => hstill hs q (List.mem_of_mem_eraseIdx hq)⟩
  | crash i =>
    obtain ⟨t, p, -, rfl⟩ := System.step_crash h
    exact ⟨fun q hq => hw.fenced q (List.mem_of_mem_eraseIdx hq),
      fun hs q hq => hstill hs q (List.mem_of_mem_eraseIdx hq)⟩
  | env c =>
    obtain ⟨s, -, rfl⟩ := System.step_env h
    exact ⟨hw.fenced, fun hs => hstill hs⟩

/-- In a shut state no program is about to make a fenced write. -/
theorem Held.no_write {w : World S ε σ τ} (hw : F.Held shut w) (hs : shut w.state) {i : ℕ} {t : τ}
    {o : S.Op} {k : Except ε (S.Ans o) → Prog S ε Unit} (hi : w.procs[i]? = some (t, .op o k)) :
    F.write o = false := by
  cases ho : F.write o with
  | false => rfl
  | true => exact absurd (.inl ho) (hw.still hs _ (List.mem_of_getElem? hi))

end Worlds

end Fence

end CatalogSentinel.Concurrent
