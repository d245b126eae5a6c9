import CatalogSentinel.Concurrent.System

/-!
What a program may await after the answers it has had. A watch names the answers a
program may rely on, and for every past the operations that it may await next; the
rules follow the program's syntax. In a system whose answers are relied on rightly,
every program that keeps the watch keeps the invariant that the watch stands for.
-/

namespace CatalogSentinel.Concurrent

/-- An await of the past: the operation, and how it settled. -/
abbrev Settled (S : Signature) (ε : Type) := (o : S.Op) × Except ε (S.Ans o)

structure Watch (S : Signature) (ε : Type) where
  admits : (o : S.Op) → Except ε (S.Ans o) → Prop
  ok : List (Settled S ε) → S.Op → Prop

variable {S : Signature} {ε α β σ τ ω : Type}

/-- What is left of a program after these awaits, the newest first. -/
inductive Prog.Follows (p : Prog S ε α) : List (Settled S ε) → Prog S ε α → Prop
  | start : Follows p [] p
  | settled {past : List (Settled S ε)} {o : S.Op} {k : Except ε (S.Ans o) → Prog S ε α}
      (h : Follows p past (.op o k)) (r : Except ε (S.Ans o)) : Follows p (⟨o, r⟩ :: past) (k r)

namespace Watch

variable (W : Watch S ε)

/-- From this past on the program awaits nothing but what it may, and ends as `Q` says. -/
def Watched (Q : List (Settled S ε) → Except ε α → Prop) :
    Prog S ε α → List (Settled S ε) → Prop
  | .ret a, past => Q past (.ok a)
  | .raise e, past => Q past (.error e)
  | .op o k, past => W.ok past o ∧ ∀ r, W.admits o r → Watched Q (k r) (⟨o, r⟩ :: past)

/-- From any past on the program awaits nothing but what it may. -/
def Keeps (p : Prog S ε α) : Prop := ∀ past, W.Watched (fun _ _ => True) p past

variable {W} {Q Q' : List (Settled S ε) → Except ε α → Prop}
variable {R : List (Settled S ε) → Except ε β → Prop} {past : List (Settled S ε)}

theorem Watched.mono {p : Prog S ε α} (hp : W.Watched Q p past)
    (h : ∀ past r, Q past r → Q' past r) : W.Watched Q' p past := by
  induction p generalizing past with
  | ret a => exact h _ _ hp
  | raise e => exact h _ _ hp
  | op o k ih => exact ⟨hp.1, fun r hr => ih r (hp.2 r hr)⟩

theorem watched_ofExcept {r : Except ε α} (h : Q past r) :
    W.Watched Q (Prog.ofExcept r) past := by
  cases r with
  | ok a => exact h
  | error e => exact h

theorem watched_call {o : S.Op} {Q : List (Settled S ε) → Except ε (S.Ans o) → Prop}
    (ho : W.ok past o) (h : ∀ r, W.admits o r → Q (⟨o, r⟩ :: past) r) :
    W.Watched Q (Prog.call o) past :=
  ⟨ho, fun r hr => watched_ofExcept (h r hr)⟩

theorem Watched.bind {p : Prog S ε α} {f : α → Prog S ε β} (hp : W.Watched Q p past)
    (hf : ∀ past a, Q past (.ok a) → W.Watched R (f a) past)
    (he : ∀ past e, Q past (.error e) → R past (.error e)) : W.Watched R (p >>= f) past := by
  induction p generalizing past with
  | ret a => exact hf _ a hp
  | raise e => exact he _ e hp
  | op o k ih => exact ⟨hp.1, fun r hr => ih r (hp.2 r hr)⟩

theorem Watched.handle {p : Prog S ε α} {f : ε → Prog S ε α} (hp : W.Watched Q p past)
    (ha : ∀ past a, Q past (.ok a) → Q' past (.ok a))
    (hf : ∀ past e, Q past (.error e) → W.Watched Q' (f e) past) :
    W.Watched Q' (p.handle f) past := by
  induction p generalizing past with
  | ret a => exact ha _ a hp
  | raise e => exact hf _ e hp
  | op o k ih => exact ⟨hp.1, fun r hr => ih r (hp.2 r hr)⟩

theorem Watched.attempt {p : Prog S ε α} (hp : W.Watched Q p past)
    {Q' : List (Settled S ε) → Except ε (Except ε α) → Prop}
    (h : ∀ past r, Q past r → Q' past (.ok r)) : W.Watched Q' p.attempt past := by
  induction p generalizing past with
  | ret a => exact h _ _ hp
  | raise e => exact h _ _ hp
  | op o k ih => exact ⟨hp.1, fun r hr => ih r (hp.2 r hr)⟩

/-- What a program has left to do is watched as the whole was. -/
theorem Watched.follows {p q : Prog S ε α} (hp : W.Watched Q p []) (h : p.Follows past q)
    (hadmits : ∀ x ∈ past, W.admits x.1 x.2) : W.Watched Q q past := by
  induction h with
  | start => exact hp
  | settled h r ih =>
    have hop := ih fun x hx => hadmits x (List.mem_cons_of_mem _ hx)
    exact hop.2 r (hadmits _ List.mem_cons_self)

/-! ### Keeping a watch from any past on -/

theorem compositional : Prog.Compositional fun {α} (p : Prog S ε α) => W.Keeps p where
  ret _ _ := trivial
  raise _ _ := trivial
  bind hp hf past := (hp past).bind (fun past a _ => hf a past) fun _ _ _ => trivial
  handle hp hf past := (hp past).handle (fun _ _ _ => trivial) fun past e _ => hf e past
  attempt hp past := (hp past).attempt fun _ _ _ => trivial

theorem keeps_call {o : S.Op} (ho : ∀ past, W.ok past o) :
    W.Keeps (Prog.call o : Prog S ε (S.Ans o)) :=
  fun past => watched_call (ho past) fun _ _ => trivial

/-- What follows an await may rely on its answer. -/
theorem keeps_await {o : S.Op} {f : S.Ans o → Prog S ε β} (ho : ∀ past, W.ok past o)
    (hf : ∀ a, W.admits o (.ok a) → W.Keeps (f a)) : W.Keeps (Prog.call o >>= f) := by
  intro past
  refine Watched.bind (Q := fun _ r => W.admits o r)
    (watched_call (ho past) fun r hr => hr) ?_ fun _ _ _ => trivial
  exact fun past a ha => hf a ha past

/-! ### Systems -/

variable {sys : System S ε σ τ ω} {s : σ} {w : World S ε σ τ}

/-- Every running program has followed its code. -/
theorem follows_of_reaches (h : sys.Reaches (World.idle s) w) :
    ∀ q ∈ w.procs, ∃ past, (sys.code q.1).Follows past q.2 := by
  refine h.invariant (I := fun w => ∀ q ∈ w.procs, ∃ past, (sys.code q.1).Follows past q.2)
    (fun w m w' hw hs => ?_) fun q hq => ?_
  · refine System.procs_invariant (J := fun t p => ∃ past, (sys.code t).Follows past p)
      (fun t => ⟨[], .start⟩) (fun t o k r hop => ?_) hw hs
    obtain ⟨past, hpast⟩ := hop
    exact ⟨⟨o, r⟩ :: past, hpast.settled r⟩
  · cases hq

/-- Where watched code is started and its watched awaits keep the invariant and answer what
the watch admits, the invariant holds in every state that is reached. -/
theorem invariant_of_reaches {J : σ → Prop}
    (hstart : ∀ s running t s', J s → sys.start s running t = some s' →
      J s' ∧ W.Keeps (sys.code t))
    (hgo : ∀ past t s o c r s', J s → W.ok past o → sys.perform t s o c = some (r, s') →
      J s' ∧ W.admits o r)
    (hsettle : ∀ s t r, J s → J (sys.settle s t r)) (hcrash : ∀ s t, J s → J (sys.crash s t))
    (henv : ∀ s c s', J s → sys.env s c = some s' → J s')
    (hs : J s) (h : sys.Reaches (World.idle s) w) : J w.state := by
  have hstep : ∀ (w : World S ε σ τ) m w',
      (J w.state ∧ ∀ q ∈ w.procs, ∃ past, W.Watched (fun _ _ => True) q.2 past) →
      sys.step w m = some w' →
      J w'.state ∧ ∀ q ∈ w'.procs, ∃ past, W.Watched (fun _ _ => True) q.2 past := by
    rintro w m w' ⟨hinv, hprocs⟩ hm
    cases m with
    | start t =>
      obtain ⟨s', hs', rfl⟩ := System.step_start hm
      obtain ⟨hinv', hcode⟩ := hstart _ _ t s' hinv hs'
      refine ⟨hinv', fun q hq => ?_⟩
      rcases List.mem_append.1 hq with hq | hq
      · exact hprocs q hq
      · rw [List.mem_singleton.1 hq]
        exact ⟨[], hcode []⟩
    | go i c =>
      obtain ⟨t, o, k, r, s', hi, hp, rfl⟩ := System.step_go hm
      obtain ⟨past, hok, hk⟩ := hprocs _ (List.mem_of_getElem? hi)
      obtain ⟨hinv', hr⟩ := hgo past t _ o c r s' hinv hok hp
      refine ⟨hinv', fun q hq => ?_⟩
      rcases List.mem_or_eq_of_mem_set hq with hq | rfl
      · exact hprocs q hq
      · exact ⟨_, hk r hr⟩
    | settle i =>
      obtain ⟨t, r, -, rfl⟩ := System.step_settle hm
      exact ⟨hsettle _ t r hinv, fun q hq => hprocs q (List.mem_of_mem_eraseIdx hq)⟩
    | crash i =>
      obtain ⟨t, p, -, rfl⟩ := System.step_crash hm
      exact ⟨hcrash _ t hinv, fun q hq => hprocs q (List.mem_of_mem_eraseIdx hq)⟩
    | env c =>
      obtain ⟨s', hs', rfl⟩ := System.step_env hm
      exact ⟨henv _ c s' hinv hs', hprocs⟩
  exact (h.invariant hstep ⟨hs, fun q hq => by cases hq⟩).1

end Watch

end CatalogSentinel.Concurrent
