import CatalogSentinel.Concurrent.Watch

/-!
What the running programs of a system know: beside an invariant of the shared state, facts that
hold of what each program has been answered, and that no step takes back. A watched program may
rest its awaits on them.
-/

namespace CatalogSentinel.Concurrent

variable {S : Signature} {ε σ τ ω : Type}

/-- An invariant of the state, what a program knows by what it was started for, and what it knows
of an await that it has had answered. -/
structure Knowledge (S : Signature) (ε σ τ : Type) where
  inv : σ → Prop
  own : τ → σ → Prop
  holds : τ → σ → Settled S ε → Prop

namespace Knowledge

variable (K : Knowledge S ε σ τ)

/-- The invariant holds again, and what was known is known. -/
structure Carries (s s' : σ) : Prop where
  inv : K.inv s'
  own : ∀ t, K.own t s → K.own t s'
  known : ∀ t x, K.holds t s x → K.holds t s' x

variable {K} in
theorem Carries.refl {s : σ} (h : K.inv s) : K.Carries s s := ⟨h, fun _ => id, fun _ _ => id⟩

variable (W : Watch S ε) (sys : System S ε σ τ ω)

/-- The program has followed its code, goes on as the watch demands, and knows what it was started
for and has been answered. -/
def Knows (s : σ) (q : τ × Prog S ε Unit) : Prop :=
  K.own q.1 s ∧ ∃ past, (sys.code q.1).Follows past q.2 ∧ W.Watched (fun _ _ => True) q.2 past ∧
    ∀ x ∈ past, K.holds q.1 s x

structure Kept (w : World S ε σ τ) : Prop where
  inv : K.inv w.state
  procs : ∀ q ∈ w.procs, K.Knows W sys w.state q

variable {K W sys}

theorem kept_idle {s : σ} (h : K.inv s) : K.Kept W sys (World.idle s) := ⟨h, fun _ hq => by cases hq⟩

theorem Knows.carried {s s' : σ} {q : τ × Prog S ε Unit} (hq : K.Knows W sys s q) (h : K.Carries s s') :
    K.Knows W sys s' q := by
  obtain ⟨hown, past, hfollows, hwatched, hknown⟩ := hq
  exact ⟨h.own _ hown, past, hfollows, hwatched, fun x hx => h.known _ x (hknown x hx)⟩

/-- One step, by what the system's parts carry on. -/
theorem Kept.step {w w' : World S ε σ τ} {m : Move τ ω} (hw : K.Kept W sys w)
    (hstart : ∀ running t s, sys.start w.state running t = some s →
      K.Carries w.state s ∧ W.Keeps (sys.code t) ∧ K.own t s)
    (hgo : ∀ i c t o k past r s, m = .go i c → w.procs[i]? = some (t, .op o k) → K.own t w.state →
      (sys.code t).Follows past (.op o k) → W.ok past o → (∀ x ∈ past, K.holds t w.state x) →
      sys.perform t w.state o c = some (r, s) → K.Carries w.state s ∧ W.admits o r ∧ K.holds t s ⟨o, r⟩)
    (hsettle : ∀ t r, K.Carries w.state (sys.settle w.state t r))
    (hcrash : ∀ t, K.Carries w.state (sys.crash w.state t))
    (henv : ∀ c s, sys.env w.state c = some s → K.Carries w.state s)
    (h : sys.step w m = some w') : K.Kept W sys w' := by
  cases m with
  | start t =>
    obtain ⟨s, hs, rfl⟩ := System.step_start h
    obtain ⟨hcarries, hcode, hown⟩ := hstart _ t s hs
    refine ⟨hcarries.inv, fun q hq => ?_⟩
    rcases List.mem_append.1 hq with hq | hq
    · exact (hw.procs q hq).carried hcarries
    · rw [List.mem_singleton.1 hq]
      exact ⟨hown, [], .start, hcode [], fun x hx => by cases hx⟩
  | go i c =>
    obtain ⟨t, o, k, r, s, hi, hp, rfl⟩ := System.step_go h
    obtain ⟨hown, past, hfollows, hwatched, hknown⟩ := hw.procs _ (List.mem_of_getElem? hi)
    obtain ⟨hcarries, hadmits, hholds⟩ := hgo i c t o k past r s rfl hi hown hfollows hwatched.1 hknown hp
    refine ⟨hcarries.inv, fun q hq => ?_⟩
    rcases List.mem_or_eq_of_mem_set hq with hq | rfl
    · exact (hw.procs q hq).carried hcarries
    · refine ⟨hcarries.own t hown, ⟨o, r⟩ :: past, hfollows.settled r, hwatched.2 r hadmits, fun x hx => ?_⟩
      rcases List.mem_cons.1 hx with rfl | hx
      · exact hholds
      · exact hcarries.known _ x (hknown x hx)
  | settle i =>
    obtain ⟨t, r, -, rfl⟩ := System.step_settle h
    exact ⟨(hsettle t r).inv, fun q hq => (hw.procs q (List.mem_of_mem_eraseIdx hq)).carried (hsettle t r)⟩
  | crash i =>
    obtain ⟨t, p, -, rfl⟩ := System.step_crash h
    exact ⟨(hcrash t).inv, fun q hq => (hw.procs q (List.mem_of_mem_eraseIdx hq)).carried (hcrash t)⟩
  | env c =>
    obtain ⟨s, hs, rfl⟩ := System.step_env h
    exact ⟨(henv c s hs).inv, fun q hq => (hw.procs q hq).carried (henv c s hs)⟩

end Knowledge

namespace Watch

variable {W : Watch S ε} {α β : Type} {past : List (Settled S ε)}

/-- The watch, and another of the same answers. -/
def also (W : Watch S ε) (ok : List (Settled S ε) → S.Op → Prop) : Watch S ε where
  admits := W.admits
  ok past o := W.ok past o ∧ ok past o

theorem Watched.also {ok : List (Settled S ε) → S.Op → Prop} {Q R : List (Settled S ε) → Except ε α → Prop}
    {p : Prog S ε α} (hp : W.Watched Q p past) (hok : Watched ⟨W.admits, ok⟩ R p past) :
    (W.also ok).Watched Q p past := by
  induction p generalizing past with
  | ret a => exact hp
  | raise e => exact hp
  | op o k ih => exact ⟨⟨hp.1, hok.1⟩, fun r hr => ih r (hp.2 r hr) (hok.2 r hr)⟩

/-- An await, and what follows each of its answers. -/
theorem watched_await {o : S.Op} {f : S.Ans o → Prog S ε β} (ho : W.ok past o)
    (hf : ∀ a, W.admits o (.ok a) → W.Watched (fun _ _ => True) (f a) (⟨o, .ok a⟩ :: past)) :
    W.Watched (fun _ _ => True) (Prog.call o >>= f) past := by
  refine ⟨ho, fun r hr => ?_⟩
  cases r with
  | ok a => exact hf a hr
  | error e => trivial

/-- A program only adds to its past. -/
theorem Watched.suffix {Q : List (Settled S ε) → Except ε α → Prop} {p : Prog S ε α} {first : List (Settled S ε)}
    (hfirst : first <:+ past) (hp : W.Watched Q p past) :
    W.Watched (fun past' r => Q past' r ∧ first <:+ past') p past := by
  induction p generalizing past with
  | ret a => exact ⟨hp, hfirst⟩
  | raise e => exact ⟨hp, hfirst⟩
  | op o k ih => exact ⟨hp.1, fun r hr => ih r (hfirst.trans (List.suffix_cons _ _)) (hp.2 r hr)⟩

/-- Keeping a watch from any past on of which `K` holds, and of all that is added to it. -/
theorem compositional_from {K : List (Settled S ε) → Prop}
    (hK : ∀ {past past'}, past <:+ past' → K past → K past') :
    Prog.Compositional fun {α} (p : Prog S ε α) => ∀ past, K past → W.Watched (fun _ _ => True) p past where
  ret _ _ _ := trivial
  raise _ _ _ := trivial
  bind hp hf past h := ((hp past h).suffix List.suffix_rfl).bind
    (fun past' a hpast => hf a past' (hK hpast.2 h)) fun _ _ _ => trivial
  handle hp hf past h := ((hp past h).suffix List.suffix_rfl).handle (fun _ _ _ => trivial)
    fun past' e hpast => hf e past' (hK hpast.2 h)
  attempt hp past h := (hp past h).attempt fun _ _ _ => trivial

end Watch

/-! ### To the end -/

/-- A running program whose awaits can each be answered well runs to its end, where it is never
left with an error. -/
theorem System.completes {sys : System S ε σ τ ω} {I : World S ε σ τ → Prop} {good : ω → Prop} {i : ℕ} {t : τ}
    (hraise : ∀ w e, I w → w.procs[i]? ≠ some (t, .raise e))
    (hgo : ∀ w o k, I w → w.procs[i]? = some (t, .op o k) →
      ∃ c w', good c ∧ sys.step w (.go i c) = some w' ∧ I w')
    {w : World S ε σ τ} {p : Prog S ε Unit} (hw : I w) (hi : w.procs[i]? = some (t, p)) :
    ∃ (cs : List ω) (w' : World S ε σ τ), (∀ c ∈ cs, good c) ∧ sys.run w (cs.map (.go i)) = some w' ∧
      w'.procs[i]? = some (t, .ret ()) := by
  induction p generalizing w with
  | ret a => exact ⟨[], w, fun c hc => absurd hc List.not_mem_nil, rfl, hi⟩
  | raise e => exact absurd hi (hraise w e hw)
  | op o k ih =>
    obtain ⟨c, w₁, hc, hstep, hw₁⟩ := hgo w o k hw hi
    obtain ⟨t', o', k', r, s, hi', -, rfl⟩ := System.step_go hstep
    obtain ⟨rfl, hop⟩ := Prod.mk.inj (Option.some.inj (hi.symm.trans hi'))
    cases hop
    have hlt : i < w.procs.length := (List.getElem?_eq_some_iff.1 hi).1
    obtain ⟨cs, w', hcs, hrun, hend⟩ := ih r hw₁ (List.getElem?_set_self hlt)
    refine ⟨c :: cs, w', fun c' hc' => ?_, ?_, hend⟩
    · rcases List.mem_cons.1 hc' with rfl | hc'
      · exact hc
      · exact hcs c' hc'
    · rw [List.map_cons, System.run, hstep]
      exact hrun

end CatalogSentinel.Concurrent
