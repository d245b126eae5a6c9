import CatalogSentinel.Concurrent.System

/-!
Rely/guarantee triples for awaiting programs. A contract fixes what every state
satisfies, what a program knows of the state while it runs, what the other
programs may do meanwhile, and what no step ever undoes. A triple is checked
await by await, with any permitted interference before each; programs whose
code meets its contract then keep the invariant in every reachable world.
-/

namespace CatalogSentinel.Concurrent

variable {S : Signature} {ε σ τ ω α β : Type}

/-- `inv` holds between any two awaits, `own t` as long as `t` runs. `rely t`
bounds what the programs running beside `t` do, `grows` what any step does, and
`apart t u` says that `t` and `u` may run at the same time. `post t` is what `t`
leaves to its settlement. -/
structure Contract (sys : System S ε σ τ ω) where
  inv : σ → Prop
  own : τ → σ → Prop
  rely : τ → σ → σ → Prop
  grows : σ → σ → Prop
  apart : τ → τ → Prop
  post : τ → Except ε Unit → σ → Prop
  rely_refl : ∀ t s, rely t s s
  rely_trans : ∀ t s₁ s₂ s₃, rely t s₁ s₂ → rely t s₂ s₃ → rely t s₁ s₃
  rely_grows : ∀ t s s', rely t s s' → grows s s'
  rely_own : ∀ t s s', rely t s s' → inv s' → own t s → own t s'

namespace Contract

variable {sys : System S ε σ τ ω} (C : Contract sys)

/-- What a step of `t` from `s` to `s'` owes: to the invariant, to itself and to
every program that may run beside it. -/
structure Keeps (t : τ) (s s' : σ) : Prop where
  inv : C.inv s'
  own : C.own t s'
  grows : C.grows s s'
  guar : ∀ u, C.apart t u → C.rely u s s'

variable {C} in
theorem Keeps.refl {t : τ} {s : σ} (hi : C.inv s) (ho : C.own t s) : C.Keeps t s s :=
  ⟨hi, ho, C.rely_grows t s s (C.rely_refl t s), fun u _ => C.rely_refl u s⟩

/-- From `s`, every await of `p` keeps the contract, and `p` ends in `Q`. -/
def Safe (t : τ) (Q : Except ε α → σ → Prop) : Prog S ε α → σ → Prop
  | .ret a, s => ∀ s', C.rely t s s' → C.inv s' → Q (.ok a) s'
  | .raise e, s => ∀ s', C.rely t s s' → C.inv s' → Q (.error e) s'
  | .op o k, s => ∀ s₁ c r s₂, C.rely t s s₁ → C.inv s₁ → C.own t s₁ →
      sys.perform t s₁ o c = some (r, s₂) → C.Keeps t s₁ s₂ ∧ Safe t Q (k r) s₂

variable {C}

theorem Safe.interfere {t : τ} {Q : Except ε α → σ → Prop} {p : Prog S ε α} {s s' : σ}
    (h : C.Safe t Q p s) (hr : C.rely t s s') : C.Safe t Q p s' := by
  cases p with
  | ret a => exact fun s'' h'' => h s'' (C.rely_trans _ _ _ _ hr h'')
  | raise e => exact fun s'' h'' => h s'' (C.rely_trans _ _ _ _ hr h'')
  | op o k => exact fun s₁ c r s₂ h₁ => h s₁ c r s₂ (C.rely_trans _ _ _ _ hr h₁)

theorem Safe.mono {t : τ} {Q Q' : Except ε α → σ → Prop} {p : Prog S ε α} {s : σ}
    (h : C.Safe t Q p s) (hQ : ∀ r s', C.inv s' → Q r s' → Q' r s') : C.Safe t Q' p s := by
  induction p generalizing s with
  | ret a => exact fun s' hr hi => hQ _ _ hi (h s' hr hi)
  | raise e => exact fun s' hr hi => hQ _ _ hi (h s' hr hi)
  | op o k ih =>
    intro s₁ c r s₂ h₁ hi ho hp
    obtain ⟨hk, hs⟩ := h s₁ c r s₂ h₁ hi ho hp
    exact ⟨hk, ih r hs⟩

/-- How a continuation carries on from the end of the first program. -/
def Bound (C : Contract sys) (t : τ) (f : α → Prog S ε β) (Q : Except ε β → σ → Prop) :
    Except ε α → σ → Prop
  | .ok a, s => C.own t s → C.Safe t Q (f a) s
  | .error e, s => Q (.error e) s

theorem Safe.bind {t : τ} {Q : Except ε β → σ → Prop} {p : Prog S ε α} {f : α → Prog S ε β}
    {s : σ} (hi : C.inv s) (ho : C.own t s) (h : C.Safe t (C.Bound t f Q) p s) :
    C.Safe t Q (p >>= f) s := by
  induction p generalizing s with
  | ret a => exact h s (C.rely_refl t s) hi ho
  | raise e => exact h
  | op o k ih =>
    intro s₁ c r s₂ h₁ hi₁ ho₁ hp
    obtain ⟨hk, hs⟩ := h s₁ c r s₂ h₁ hi₁ ho₁ hp
    exact ⟨hk, ih r hk.inv hk.own hs⟩

/-- How a handler carries on from the end of the guarded program. -/
def Caught (C : Contract sys) (t : τ) (f : ε → Prog S ε α) (Q : Except ε α → σ → Prop) :
    Except ε α → σ → Prop
  | .ok a, s => Q (.ok a) s
  | .error e, s => C.own t s → C.Safe t Q (f e) s

theorem Safe.handle {t : τ} {Q : Except ε α → σ → Prop} {p : Prog S ε α} {f : ε → Prog S ε α}
    {s : σ} (hi : C.inv s) (ho : C.own t s) (h : C.Safe t (C.Caught t f Q) p s) :
    C.Safe t Q (p.handle f) s := by
  induction p generalizing s with
  | ret a => exact h
  | raise e => exact h s (C.rely_refl t s) hi ho
  | op o k ih =>
    intro s₁ c r s₂ h₁ hi₁ ho₁ hp
    obtain ⟨hk, hs⟩ := h s₁ c r s₂ h₁ hi₁ ho₁ hp
    exact ⟨hk, ih r hk.inv hk.own hs⟩

theorem Safe.attempt {t : τ} {Q : Except ε (Except ε α) → σ → Prop} {p : Prog S ε α} {s : σ}
    (h : C.Safe t (fun r => Q (.ok r)) p s) : C.Safe t Q p.attempt s := by
  induction p generalizing s with
  | ret a => exact h
  | raise e => exact h
  | op o k ih =>
    intro s₁ c r s₂ h₁ hi₁ ho₁ hp
    obtain ⟨hk, hs⟩ := h s₁ c r s₂ h₁ hi₁ ho₁ hp
    exact ⟨hk, ih r hs⟩

/-! ### Triples -/

/-- The end of a program, by how it settled. -/
def Ends (Q : α → σ → Prop) (E : ε → σ → Prop) : Except ε α → σ → Prop
  | .ok a => Q a
  | .error e => E e

/-- From any state of the contract where `P` holds, `p` keeps the contract and
ends in `Q` with its value or in `E` with its error. -/
def Triple (C : Contract sys) (t : τ) (P : σ → Prop) (p : Prog S ε α) (Q : α → σ → Prop)
    (E : ε → σ → Prop) : Prop :=
  ∀ s, C.inv s → C.own t s → P s → C.Safe t (Ends Q E) p s

/-- Interference cannot falsify `P`. -/
def Stable (C : Contract sys) (t : τ) (P : σ → Prop) : Prop :=
  ∀ s s', C.rely t s s' → C.inv s' → P s → P s'

/-- No step whatsoever falsifies `P`. -/
def Lasting (C : Contract sys) (P : σ → Prop) : Prop :=
  ∀ s s', C.grows s s' → P s → P s'

theorem Lasting.stable {P : σ → Prop} (h : C.Lasting P) (t : τ) : C.Stable t P :=
  fun s s' hr _ hP => h s s' (C.rely_grows t s s' hr) hP

theorem lasting_pure (p : Prop) : C.Lasting fun _ => p := fun _ _ _ h => h

theorem Lasting.and {P P' : σ → Prop} (h : C.Lasting P) (h' : C.Lasting P') :
    C.Lasting fun s => P s ∧ P' s :=
  fun s s' hg hP => ⟨h s s' hg hP.1, h' s s' hg hP.2⟩

variable {t : τ} {P P' : σ → Prop} {Q Q' : α → σ → Prop} {E E' : ε → σ → Prop}

theorem Triple.consequence {p : Prog S ε α} (h : C.Triple t P' p Q' E')
    (hP : ∀ s, C.inv s → P s → P' s) (hQ : ∀ a s, C.inv s → Q' a s → Q a s)
    (hE : ∀ e s, C.inv s → E' e s → E e s) : C.Triple t P p Q E := by
  intro s hi ho hs
  refine (h s hi ho (hP s hi hs)).mono fun r s' hi' => ?_
  cases r with
  | ok a => exact hQ a s' hi'
  | error e => exact hE e s' hi'

theorem Triple.pre {p : Prog S ε α} (h : C.Triple t P' p Q E)
    (hP : ∀ s, C.inv s → P s → P' s) : C.Triple t P p Q E :=
  h.consequence hP (fun _ _ _ => id) fun _ _ _ => id

theorem Triple.post {p : Prog S ε α} (h : C.Triple t P p Q' E)
    (hQ : ∀ a s, C.inv s → Q' a s → Q a s) : C.Triple t P p Q E :=
  h.consequence (fun _ _ => id) hQ fun _ _ _ => id

theorem triple_ret {a : α} (hst : C.Stable t P) (h : ∀ s, C.inv s → P s → Q a s) :
    C.Triple t P (Prog.ret a : Prog S ε α) Q E :=
  fun s _ _ hs s' hr hi' => h s' hi' (hst s s' hr hi' hs)

theorem triple_raise {e : ε} (hst : C.Stable t P) (h : ∀ s, C.inv s → P s → E e s) :
    C.Triple t P (Prog.raise e : Prog S ε α) Q E :=
  fun s _ _ hs s' hr hi' => h s' hi' (hst s s' hr hi' hs)

theorem Triple.bind {p : Prog S ε α} {f : α → Prog S ε β} {R : β → σ → Prop}
    (hp : C.Triple t P p Q E) (hf : ∀ a, C.Triple t (Q a) (f a) R E) :
    C.Triple t P (p >>= f) R E := by
  intro s hi ho hs
  refine Safe.bind hi ho ((hp s hi ho hs).mono fun r s' hi' hr => ?_)
  cases r with
  | ok a => exact fun ho' => hf a s' hi' ho' hr
  | error e => exact hr

theorem Triple.handle {p : Prog S ε α} {f : ε → Prog S ε α} (hp : C.Triple t P p Q E')
    (hf : ∀ e, C.Triple t (E' e) (f e) Q E) : C.Triple t P (p.handle f) Q E := by
  intro s hi ho hs
  refine Safe.handle hi ho ((hp s hi ho hs).mono fun r s' hi' hr => ?_)
  cases r with
  | ok a => exact hr
  | error e => exact fun ho' => hf e s' hi' ho' hr

theorem Triple.attempt {p : Prog S ε α} (hp : C.Triple t P p Q E') :
    C.Triple t P p.attempt (Ends Q E') E := by
  intro s hi ho hs
  exact Safe.attempt ((hp s hi ho hs).mono fun r s' _ hr => hr)

theorem triple_ofExcept {r : Except ε α} (hQ : C.Stable t (Ends Q E r)) :
    C.Triple t (Ends Q E r) (Prog.ofExcept r : Prog S ε α) Q E := by
  cases r with
  | ok a => exact triple_ret hQ fun _ _ h => h
  | error e => exact triple_raise hQ fun _ _ h => h

/-- The rule for one await: each possible answer keeps the contract. -/
theorem triple_call {o : S.Op} {Q : S.Ans o → σ → Prop} (hst : C.Stable t P)
    (hQ : ∀ r, C.Stable t (Ends Q E r))
    (h : ∀ s c r s', C.inv s → C.own t s → P s → sys.perform t s o c = some (r, s') →
      C.Keeps t s s' ∧ Ends Q E r s') :
    C.Triple t P (Prog.call o : Prog S ε _) Q E := by
  intro s hi _ hs s₁ c r s₂ hr hi₁ ho₁ hp
  obtain ⟨hk, hend⟩ := h s₁ c r s₂ hi₁ ho₁ (hst s s₁ hr hi₁ hs) hp
  exact ⟨hk, triple_ofExcept (hQ r) s₂ hk.inv hk.own hend⟩

/-- Keeping a stable fact however a program ends. -/
theorem compositional_triple {R : σ → Prop} (hR : C.Stable t R) :
    Prog.Compositional fun {α} (p : Prog S ε α) => C.Triple t R p (fun _ => R) (fun _ => R) where
  ret _ := triple_ret hR fun _ _ h => h
  raise _ := triple_raise hR fun _ _ h => h
  bind hp hf := hp.bind hf
  handle hp hf := hp.handle hf
  attempt hp := hp.attempt.post fun r _ _ h => by cases r <;> exact h

theorem Safe.frame {R : σ → Prop} (hR : C.Lasting R) {Q : Except ε α → σ → Prop}
    {p : Prog S ε α} {s : σ} (h : C.Safe t Q p s) (hs : R s) :
    C.Safe t (fun r s' => Q r s' ∧ R s') p s := by
  induction p generalizing s with
  | ret a => exact fun s' hr hi => ⟨h s' hr hi, hR.stable t s s' hr hi hs⟩
  | raise e => exact fun s' hr hi => ⟨h s' hr hi, hR.stable t s s' hr hi hs⟩
  | op o k ih =>
    intro s₁ c r s₂ h₁ hi ho hp
    obtain ⟨hk, hsafe⟩ := h s₁ c r s₂ h₁ hi ho hp
    exact ⟨hk, ih r hsafe (hR _ _ hk.grows (hR.stable t s s₁ h₁ hi hs))⟩

/-- A lasting fact is carried past any program. -/
theorem Triple.frame {p : Prog S ε α} {R : σ → Prop} (h : C.Triple t P p Q E)
    (hR : C.Lasting R) :
    C.Triple t (fun s => P s ∧ R s) p (fun a s => Q a s ∧ R s) (fun e s => E e s ∧ R s) := by
  intro s hi ho hs
  refine ((h s hi ho hs.1).frame hR hs.2).mono fun r s' _ hr => ?_
  cases r with
  | ok a => exact hr
  | error e => exact hr

/-- Sequencing that keeps a lasting precondition at hand. -/
theorem Triple.andThen {p : Prog S ε α} {f : α → Prog S ε β} {R : β → σ → Prop}
    (hp : C.Triple t P p Q E) (hP : C.Lasting P)
    (hf : ∀ a, C.Triple t (fun s => Q a s ∧ P s) (f a) R E) : C.Triple t P (p >>= f) R E :=
  Triple.bind (((hp.frame hP).pre fun _ _ h => ⟨h, h⟩).consequence (fun _ _ => id)
    (fun _ _ _ => id) fun _ _ _ h => h.1) hf

/-- An await that keeps the contract from every state and any answer. -/
def Calm (C : Contract sys) (t : τ) (o : S.Op) : Prop :=
  ∀ s c r s', C.inv s → C.own t s → sys.perform t s o c = some (r, s') → C.Keeps t s s'

theorem safe_of_calm {p : Prog S ε α} (h : p.Calls (C.Calm t)) (s : σ) :
    C.Safe t (fun _ _ => True) p s := by
  induction p generalizing s with
  | ret a => exact fun _ _ _ => trivial
  | raise e => exact fun _ _ _ => trivial
  | op o k ih =>
    intro s₁ c r s₂ _ hi ho hp
    exact ⟨h.1 s₁ c r s₂ hi ho hp, ih r (h.2 r) s₂⟩

theorem triple_of_calm {p : Prog S ε α} (h : p.Calls (C.Calm t)) :
    C.Triple t P p (fun _ _ => True) (fun _ _ => True) :=
  fun s _ _ _ => (safe_of_calm h s).mono fun r _ _ _ => by cases r <;> trivial

theorem triple_true_of_calm {p : Prog S ε α} (h : p.Calls (C.Calm t)) (hP : C.Lasting P) :
    C.Triple t P p (fun _ => P) (fun _ => P) :=
  ((triple_of_calm h).frame hP).consequence (fun _ _ h => ⟨trivial, h⟩)
    (fun _ _ _ h => h.2) fun _ _ _ h => h.2

theorem lasting_imp {p : Prop} {R : σ → Prop} (hR : C.Lasting R) : C.Lasting fun s => p → R s :=
  fun s s' hg h hp => hR s s' hg (h hp)

theorem lasting_forall {γ : Type} {R : γ → σ → Prop} (hR : ∀ x, C.Lasting (R x)) :
    C.Lasting fun s => ∀ x, R x s :=
  fun s s' hg h x => hR x s s' hg (h x)

/-! ### Worlds -/

/-- The world keeps the contract: every running program is safe from here on, and
any two of them may run side by side. -/
structure Valid (C : Contract sys) (w : World S ε σ τ) : Prop where
  inv : C.inv w.state
  own : ∀ (i : ℕ) t p, w.procs[i]? = some (t, p) → C.own t w.state
  safe : ∀ (i : ℕ) t p, w.procs[i]? = some (t, p) → C.Safe t (C.post t) p w.state
  apart : ∀ (i j : ℕ) t u p q, i ≠ j → w.procs[i]? = some (t, p) → w.procs[j]? = some (u, q) →
    C.apart t u

/-- What the system itself owes to the contract: starting, settling and crashing
programs, and the environment. -/
structure Sound (C : Contract sys) : Prop where
  start : ∀ s ts t s', C.inv s → (∀ u ∈ ts, C.own u s) → sys.start s ts t = some s' →
    C.inv s' ∧ C.grows s s' ∧ C.own t s' ∧ C.Safe t (C.post t) (sys.code t) s' ∧
      ∀ u ∈ ts, C.apart t u ∧ C.apart u t ∧ C.rely u s s'
  settle : ∀ s t r, C.inv s → C.own t s → C.post t r s → C.inv (sys.settle s t r) ∧
    C.grows s (sys.settle s t r) ∧ ∀ u, C.apart t u → C.rely u s (sys.settle s t r)
  crash : ∀ s t, C.inv s → C.own t s → C.inv (sys.crash s t) ∧
    C.grows s (sys.crash s t) ∧ ∀ u, C.apart t u → C.rely u s (sys.crash s t)
  env : ∀ s c s', C.inv s → sys.env s c = some s' →
    C.inv s' ∧ C.grows s s' ∧ ∀ t, C.rely t s s'

theorem Safe.settled {Q : Except ε α → σ → Prop} {r : Except ε α} {s : σ}
    (h : C.Safe t Q (Prog.ofExcept r) s) (hi : C.inv s) : Q r s := by
  cases r with
  | ok a => exact h s (C.rely_refl t s) hi
  | error e => exact h s (C.rely_refl t s) hi

theorem valid_idle {s : σ} (h : C.inv s) : C.Valid (World.idle s : World S ε σ τ) :=
  ⟨h, fun _ _ _ h => by simp [World.idle] at h, fun _ _ _ h => by simp [World.idle] at h,
    fun _ _ _ _ _ _ _ h => by simp [World.idle] at h⟩

theorem Valid.interfere {w : World S ε σ τ} (hw : C.Valid w) {s : σ} (hi : C.inv s)
    (hr : ∀ t ∈ w.running, C.rely t w.state s) : C.Valid ⟨s, w.procs⟩ := by
  have hmem : ∀ (i : ℕ) t p, w.procs[i]? = some (t, p) → t ∈ w.running := fun i t p h =>
    List.mem_map.2 ⟨(t, p), List.mem_of_getElem? h, rfl⟩
  refine ⟨hi, fun i t p h => ?_, fun i t p h => ?_, hw.apart⟩
  · exact C.rely_own t _ _ (hr t (hmem i t p h)) hi (hw.own i t p h)
  · exact (hw.safe i t p h).interfere (hr t (hmem i t p h))

theorem Valid.start {w w' : World S ε σ τ} (hC : C.Sound) (hw : C.Valid w)
    (h : sys.step w (.start t) = some w') : C.Valid w' := by
  obtain ⟨s, hs, rfl⟩ := System.step_start h
  have hown : ∀ u ∈ w.running, C.own u w.state := by
    intro u hu
    obtain ⟨⟨u, q⟩, hq, rfl⟩ := List.mem_map.1 hu
    obtain ⟨i, hi⟩ := List.mem_iff_getElem?.1 hq
    exact hw.own i u q hi
  obtain ⟨hinv, -, hot, hsafe, hrest⟩ := hC.start _ _ _ _ hw.inv hown hs
  have hmid := hw.interfere hinv fun u hu => (hrest u hu).2.2
  have hmem : ∀ (i : ℕ) u q, w.procs[i]? = some (u, q) → u ∈ w.running := fun i u q h =>
    List.mem_map.2 ⟨(u, q), List.mem_of_getElem? h, rfl⟩
  have split : ∀ (i : ℕ) u q, (w.procs ++ [(t, sys.code t)])[i]? = some (u, q) →
      w.procs[i]? = some (u, q) ∨ (i = w.procs.length ∧ u = t ∧ q = sys.code t) := by
    intro i u q hi
    rw [List.getElem?_append] at hi
    split at hi
    · exact .inl hi
    · rename_i hlt
      rcases Nat.lt_or_ge i (w.procs.length + 1) with h1 | h1
      · have : i = w.procs.length := by omega
        subst this
        simp at hi
        exact .inr ⟨rfl, hi.1.symm, hi.2.symm⟩
      · rw [List.getElem?_eq_none (by simp; omega)] at hi
        cases hi
  refine ⟨hinv, fun i u q hi => ?_, fun i u q hi => ?_, fun i j u v q q' hij hi hj => ?_⟩
  · rcases split i u q hi with h1 | ⟨_, rfl, _⟩
    · exact hmid.own i u q h1
    · exact hot
  · rcases split i u q hi with h1 | ⟨_, rfl, rfl⟩
    · exact hmid.safe i u q h1
    · exact hsafe
  · rcases split i u q hi with h1 | ⟨h1, rfl, _⟩ <;> rcases split j v q' hj with h2 | ⟨h2, rfl, _⟩
    · exact hw.apart i j u v q q' hij h1 h2
    · exact (hrest u (hmem i u q h1)).2.1
    · exact (hrest v (hmem j v q' h2)).1
    · exact absurd (h1.trans h2.symm) hij

theorem Valid.go {w w' : World S ε σ τ} {i : ℕ} {c : ω} (hw : C.Valid w)
    (h : sys.step w (.go i c) = some w') : C.Valid w' := by
  obtain ⟨t, o, k, r, s, hi, hp, rfl⟩ := System.step_go h
  obtain ⟨hk, hsafe⟩ := hw.safe i t _ hi w.state c r s (C.rely_refl t _) hw.inv (hw.own i t _ hi) hp
  have hlt : i < w.procs.length := (List.getElem?_eq_some_iff.1 hi).1
  have split : ∀ (j : ℕ) u q, (w.procs.set i (t, k r))[j]? = some (u, q) →
      (j = i ∧ u = t ∧ q = k r) ∨ (i ≠ j ∧ w.procs[j]? = some (u, q)) := by
    intro j u q hj
    by_cases hij : i = j
    · subst hij
      rw [List.getElem?_set_self hlt] at hj
      cases hj
      exact .inl ⟨rfl, rfl, rfl⟩
    · rw [List.getElem?_set_ne hij] at hj
      exact .inr ⟨hij, hj⟩
  have hrely : ∀ (j : ℕ) u q, i ≠ j → w.procs[j]? = some (u, q) → C.rely u w.state s :=
    fun j u q hij hj => hk.guar u (hw.apart i j t u _ q hij hi hj)
  refine ⟨hk.inv, fun j u q hj => ?_, fun j u q hj => ?_, fun j l u v q q' hjl hj hl => ?_⟩
  · rcases split j u q hj with ⟨_, rfl, _⟩ | ⟨hij, hj⟩
    · exact hk.own
    · exact C.rely_own u _ _ (hrely j u q hij hj) hk.inv (hw.own j u q hj)
  · rcases split j u q hj with ⟨_, rfl, rfl⟩ | ⟨hij, hj⟩
    · exact hsafe
    · exact (hw.safe j u q hj).interfere (hrely j u q hij hj)
  · rcases split j u q hj with ⟨rfl, rfl, _⟩ | ⟨hij, hj'⟩ <;>
      rcases split l v q' hl with ⟨rfl, rfl, _⟩ | ⟨hil, hl'⟩
    · exact absurd rfl hjl
    · exact hw.apart _ l _ v _ q' hil hi hl'
    · exact hw.apart j _ u _ q _ (Ne.symm hij) hj' hi
    · exact hw.apart j l u v q q' hjl hj' hl'

/-- Removing program `i` from a valid world, when the others tolerate the change
that its removal makes to the state. -/
theorem Valid.remove {w : World S ε σ τ} (hw : C.Valid w) {i : ℕ} {p : Prog S ε Unit}
    (hi : w.procs[i]? = some (t, p)) {s : σ} (hinv : C.inv s)
    (hg : ∀ u, C.apart t u → C.rely u w.state s) : C.Valid ⟨s, w.procs.eraseIdx i⟩ := by
  have back : ∀ (j : ℕ), ∃ j', j' ≠ i ∧ (w.procs.eraseIdx i)[j]? = w.procs[j']? ∧
      (j' = j ∧ j < i ∨ j' = j + 1 ∧ i ≤ j) := by
    intro j
    rw [List.getElem?_eraseIdx]
    by_cases hj : j < i
    · exact ⟨j, by omega, by simp [hj], .inl ⟨rfl, hj⟩⟩
    · exact ⟨j + 1, by omega, by simp [hj], .inr ⟨rfl, by omega⟩⟩
  have hrely : ∀ (j : ℕ) u q, j ≠ i → w.procs[j]? = some (u, q) → C.rely u w.state s :=
    fun j u q hij hj => hg u (hw.apart i j t u p q (Ne.symm hij) hi hj)
  refine ⟨hinv, fun j u q hj => ?_, fun j u q hj => ?_, fun j l u v q q' hjl hj hl => ?_⟩
  · obtain ⟨j', hne, he, _⟩ := back j
    have hj' : w.procs[j']? = some (u, q) := he ▸ hj
    exact C.rely_own u _ _ (hrely j' u q hne hj') hinv (hw.own j' u q hj')
  · obtain ⟨j', hne, he, _⟩ := back j
    have hj' : w.procs[j']? = some (u, q) := he ▸ hj
    exact (hw.safe j' u q hj').interfere (hrely j' u q hne hj')
  · obtain ⟨j', hnej, hej, hcj⟩ := back j
    obtain ⟨l', hnel, hel, hcl⟩ := back l
    exact hw.apart j' l' u v q q' (by omega) (hej ▸ hj) (hel ▸ hl)

theorem Valid.step {w w' : World S ε σ τ} {m : Move τ ω} (hC : C.Sound) (hw : C.Valid w)
    (h : sys.step w m = some w') : C.Valid w' := by
  cases m with
  | start t => exact hw.start hC h
  | go i c => exact hw.go h
  | settle i =>
    obtain ⟨t, r, hi, rfl⟩ := System.step_settle h
    obtain ⟨hinv, -, hg⟩ := hC.settle _ t r hw.inv (hw.own i t _ hi)
      ((hw.safe i t _ hi).settled hw.inv)
    exact hw.remove hi hinv hg
  | crash i =>
    obtain ⟨t, p, hi, rfl⟩ := System.step_crash h
    obtain ⟨hinv, -, hg⟩ := hC.crash _ t hw.inv (hw.own i t p hi)
    exact hw.remove hi hinv hg
  | env c =>
    obtain ⟨s, hs, rfl⟩ := System.step_env h
    obtain ⟨hinv, -, hr⟩ := hC.env _ c s hw.inv hs
    exact hw.interfere hinv fun t _ => hr t

theorem Valid.grows {w w' : World S ε σ τ} {m : Move τ ω} (hC : C.Sound) (hw : C.Valid w)
    (h : sys.step w m = some w') : C.grows w.state w'.state := by
  cases m with
  | start t =>
    obtain ⟨s, hs, rfl⟩ := System.step_start h
    refine (hC.start _ _ _ _ hw.inv (fun u hu => ?_) hs).2.1
    obtain ⟨⟨u, q⟩, hq, rfl⟩ := List.mem_map.1 hu
    obtain ⟨i, hi⟩ := List.mem_iff_getElem?.1 hq
    exact hw.own i u q hi
  | go i c =>
    obtain ⟨t, o, k, r, s, hi, hp, rfl⟩ := System.step_go h
    exact (hw.safe i t _ hi w.state c r s (C.rely_refl t _) hw.inv (hw.own i t _ hi) hp).1.grows
  | settle i =>
    obtain ⟨t, r, hi, rfl⟩ := System.step_settle h
    exact (hC.settle _ t r hw.inv (hw.own i t _ hi) ((hw.safe i t _ hi).settled hw.inv)).2.1
  | crash i =>
    obtain ⟨t, p, hi, rfl⟩ := System.step_crash h
    exact (hC.crash _ t hw.inv (hw.own i t p hi)).2.1
  | env c =>
    obtain ⟨s, hs, rfl⟩ := System.step_env h
    exact (hC.env _ c s hw.inv hs).2.1

/-- The same contract, of which programs owe another end. -/
def withPost (C : Contract sys) (post : τ → Except ε Unit → σ → Prop) : Contract sys :=
  { C with post }

theorem safe_withPost {post : τ → Except ε Unit → σ → Prop} {Q : Except ε α → σ → Prop}
    {p : Prog S ε α} {s : σ} (h : C.Safe t Q p s) : (C.withPost post).Safe t Q p s := by
  induction p generalizing s with
  | ret a => exact h
  | raise e => exact h
  | op o k ih =>
    intro s₁ c r s₂ hr hi ho hp
    obtain ⟨hk, hrest⟩ := h s₁ c r s₂ hr hi ho hp
    exact ⟨⟨hk.inv, hk.own, hk.grows, hk.guar⟩, ih r hrest⟩

/-- Programs whose code meets the other end owe it in a contract that is as sound. -/
theorem Sound.withPost {post : τ → Except ε Unit → σ → Prop} (hC : C.Sound)
    (himp : ∀ t r s, post t r s → C.post t r s)
    (hcode : ∀ t s, C.inv s → C.own t s → C.Safe t (post t) (sys.code t) s) :
    (C.withPost post).Sound where
  start s ts t s' hi hown h := by
    obtain ⟨hinv, hg, hot, -, hrest⟩ := hC.start s ts t s' hi hown h
    exact ⟨hinv, hg, hot, safe_withPost (hcode t s' hinv hot), hrest⟩
  settle s t r hi ho hp := hC.settle s t r hi ho (himp t r s hp)
  crash := hC.crash
  env := hC.env

/-- A sound contract holds in every world reached from one where it holds. -/
theorem Valid.reaches {w w' : World S ε σ τ} (hC : C.Sound) (hw : C.Valid w)
    (h : sys.Reaches w w') : C.Valid w' :=
  h.invariant (fun _ _ _ hv hs => Valid.step hC hv hs) hw

/-- A lasting fact stays, whatever runs. -/
theorem Valid.lasting {w w' : World S ε σ τ} {P : σ → Prop} (hC : C.Sound) (hw : C.Valid w)
    (h : sys.Reaches w w') (hP : C.Lasting P) (hs : P w.state) : P w'.state :=
  (h.invariant (I := fun v => C.Valid v ∧ P v.state) (fun _ _ _ hv hstep =>
    ⟨hv.1.step hC hstep, hP _ _ (hv.1.grows hC hstep) hv.2⟩) ⟨hw, hs⟩).2

end Contract

end CatalogSentinel.Concurrent
