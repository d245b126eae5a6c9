import CatalogSentinel.Concurrent.RelyGuarantee

/-!
Programs that run one after the other. Nothing happens beside a running program,
so a triple speaks of its awaits alone; what every program leaves as it found it
holds whenever the system rests. The runs meant are those in which each program
runs to its end and each await meets a condition of the reader's choice, which
the triples may use.
-/

namespace CatalogSentinel.Concurrent

variable {S : Signature} {ε σ τ ω α : Type}

namespace System

variable (sys : System S ε σ τ ω)

open Classical in
/-- The system whose awaits all meet the condition. -/
noncomputable def restrict (ok : τ → σ → S.Op → ω → Prop) : System S ε σ τ ω :=
  { sys with perform := fun t s o c => if ok t s o c then sys.perform t s o c else none }

/-- A step of a run whose programs all run to their end, by awaits that meet the condition. -/
def Meets (ok : τ → σ → S.Op → ω → Prop) (w : World S ε σ τ) : Move τ ω → World S ε σ τ → Prop
  | .go i c, _ => ∀ t o k, w.procs[i]? = some (t, .op o k) → ok t w.state o c
  | .crash _, _ => False
  | _, _ => True

instance decidableMeets (ok : τ → σ → S.Op → ω → Prop) [∀ t s o c, Decidable (ok t s o c)]
    (w : World S ε σ τ) (m : Move τ ω) (w' : World S ε σ τ) : Decidable (Meets ok w m w') :=
  match m with
  | .go i c =>
    match hi : w.procs[i]? with
    | some (t, .op o k) => decidable_of_iff (ok t w.state o c) <| by
        simp only [Meets, hi, Option.some.injEq, Prod.mk.injEq]
        refine ⟨fun h t' o' k' ht => ?_, fun h => h t o k ⟨rfl, rfl⟩⟩
        obtain ⟨rfl, hop⟩ := ht
        cases hop
        exact h
    | some (_, .ret _) => .isTrue fun _ _ _ h => by simp [hi] at h
    | some (_, .raise _) => .isTrue fun _ _ _ h => by simp [hi] at h
    | none => .isTrue fun _ _ _ h => by simp [hi] at h
  | .start _ => .isTrue trivial
  | .settle _ => .isTrue trivial
  | .crash _ => .isFalse id
  | .env _ => .isTrue trivial

instance decidableAlongMeets (ok : τ → σ → S.Op → ω → Prop) [∀ t s o c, Decidable (ok t s o c)]
    (w : World S ε σ τ) (ms : List (Move τ ω)) : Decidable (sys.Along (Meets ok) w ms) :=
  haveI : ∀ v m v', Decidable (Meets (ε := ε) ok v m v') := decidableMeets ok
  decidableAlong sys (Meets ok) w ms

end System

/-- The contract of programs that run alone: every await keeps `J`, and whatever else
holds in between holds of their own doing. -/
def alone (sys : System S ε σ τ ω) (J : σ → Prop) : Contract sys where
  inv := J
  own _ _ := True
  rely _ s s' := s' = s
  grows _ _ := True
  apart _ _ := False
  post _ _ _ := True
  rely_refl _ _ := rfl
  rely_trans _ _ _ _ h h' := h'.trans h
  rely_grows _ _ _ _ := trivial
  rely_own _ _ _ _ _ _ := trivial

namespace Contract

variable {sys : System S ε σ τ ω} {J : σ → Prop} {t : τ} {P : σ → Prop} {E : ε → σ → Prop}

theorem stable_alone (t : τ) (P : σ → Prop) : (alone sys J).Stable t P := by
  rintro s s' rfl - h
  exact h

/-- The rule for one await of a program that runs alone. -/
theorem alone_call {o : S.Op} {Q : S.Ans o → σ → Prop}
    (h : ∀ s c r s', J s → P s → sys.perform t s o c = some (r, s') → J s' ∧ Ends Q E r s') :
    (alone sys J).Triple t P (Prog.call o : Prog S ε _) Q E :=
  triple_call (stable_alone t P) (fun r => stable_alone t (Ends Q E r)) fun s c r s' hJ _ hP hp =>
    have hs' := h s c r s' hJ hP hp
    ⟨⟨hs'.1, trivial, trivial, fun _ h => h.elim⟩, hs'.2⟩

theorem alone_ret {a : α} {Q : α → σ → Prop} (h : ∀ s, P s → Q a s) :
    (alone sys J).Triple t P (Prog.ret a : Prog S ε α) Q E :=
  triple_ret (stable_alone t P) fun s _ => h s

theorem alone_raise {e : ε} {Q : α → σ → Prop} (h : ∀ s, P s → E e s) :
    (alone sys J).Triple t P (Prog.raise e : Prog S ε α) Q E :=
  triple_raise (stable_alone t P) fun s _ => h s

/-- A fact that every await of a program keeps. -/
theorem alone_calls {p : Prog S ε α} (h : p.Calls fun o =>
    ∀ s c r s', J s → P s → sys.perform t s o c = some (r, s') → J s' ∧ P s') :
    (alone sys J).Triple t P p (fun _ => P) (fun _ => P) := by
  induction p with
  | ret a => exact alone_ret fun _ h => h
  | raise e => exact alone_raise fun _ h => h
  | op o k ih =>
    intro s hi ho hs s₁ c r s₂ hr hi₁ ho₁ hp
    obtain rfl : s₁ = s := hr
    obtain ⟨hJ₂, hs₂⟩ := h.1 s₁ c r s₂ hi hs hp
    exact ⟨⟨hJ₂, trivial, trivial, fun _ h => h.elim⟩, ih r (h.2 r) s₂ hJ₂ trivial hs₂⟩

/-- At rest the invariant holds; one running program is on its way back to it. -/
inductive Resting (sys : System S ε σ τ ω) (J I : σ → Prop) : World S ε σ τ → Prop
  | idle (s : σ) (hJ : J s) (h : I s) : Resting sys J I ⟨s, []⟩
  | busy (s : σ) (t : τ) (p : Prog S ε Unit) (hJ : J s) (h : (alone sys J).Safe t (fun _ => I) p s) :
    Resting sys J I ⟨s, [(t, p)]⟩

theorem Resting.inv {I : σ → Prop} {w : World S ε σ τ} (h : Resting sys J I w) : J w.state := by
  cases h with
  | idle s hJ h => exact hJ
  | busy s t p hJ h => exact hJ

/-- What every program that starts at rest leaves as it found it holds after every run
of one program after the other. -/
theorem resting_run {I : σ → Prop} {ok : τ → σ → S.Op → ω → Prop}
    (hstart : ∀ s ts t s', sys.start s ts t = some s' → ts = [] ∧ s' = s)
    (hcode : ∀ t, (alone (sys.restrict ok) J).Triple t I (sys.code t) (fun _ => I) (fun _ => I))
    (hsettle : ∀ s t r, sys.settle s t r = s) (henv : ∀ s c, sys.env s c = none)
    {w w' : World S ε σ τ} {ms : List (Move τ ω)} (hw : Resting (sys.restrict ok) J I w)
    (hms : sys.Along (System.Meets ok) w ms) (h : sys.run w ms = some w') :
    Resting (sys.restrict ok) J I w' := by
  refine System.run_invariant (fun w m w' hw hm hstep => ?_) hw hms h
  cases m with
  | start t =>
    obtain ⟨s, hs, rfl⟩ := System.step_start hstep
    obtain ⟨hnil, rfl⟩ := hstart _ _ _ _ hs
    cases hw with
    | idle s hJ hi =>
      exact .busy _ _ _ hJ ((hcode t s hJ trivial hi).mono fun r _ _ hr => by cases r <;> exact hr)
    | busy s u p hJ hp => cases hnil
  | go i c =>
    obtain ⟨t, o, k, r, s, hi, hp, rfl⟩ := System.step_go hstep
    cases hw with
    | idle s₀ hJ h₀ => cases hi
    | busy s₀ u p hJ hsafe =>
      obtain rfl : i = 0 := by
        have := (List.getElem?_eq_some_iff.1 hi).1
        simpa using this
      cases hi
      have hok : ok t s₀ o c := hm t o k rfl
      obtain ⟨hkeeps, hsafe'⟩ := hsafe s₀ c r s rfl hJ trivial ((if_pos hok).trans hp)
      exact .busy _ _ _ hkeeps.inv hsafe'
  | settle i =>
    obtain ⟨t, r, hi, rfl⟩ := System.step_settle hstep
    cases hw with
    | idle s₀ hJ h₀ => cases hi
    | busy s₀ u p hJ hsafe =>
      obtain rfl : i = 0 := by
        have := (List.getElem?_eq_some_iff.1 hi).1
        simpa using this
      cases hi
      rw [hsettle]
      exact .idle _ hJ (hsafe.settled hJ)
  | crash i => exact hm.elim
  | env c =>
    obtain ⟨s, hs, rfl⟩ := System.step_env hstep
    rw [henv] at hs
    cases hs

end Contract

/-! ### A program left alone -/

namespace System

variable {sys : System S ε σ τ ω} {t : τ} {ok : S.Op → ω → Prop} {β : Type}

/-- Left alone, and with its awaits settled by choices that are `ok`, the program is never
stuck and ends in `Q`. -/
def Finishes (sys : System S ε σ τ ω) (t : τ) (ok : S.Op → ω → Prop)
    (Q : Except ε α → σ → Prop) : Prog S ε α → σ → Prop
  | .ret a, s => Q (.ok a) s
  | .raise e, s => Q (.error e) s
  | .op o k, s => (∃ c r, ok o c ∧ sys.perform t s o c = some r) ∧
      ∀ c r s', ok o c → sys.perform t s o c = some (r, s') → Finishes sys t ok Q (k r) s'

theorem finishes_call {o : S.Op} {Q : Except ε (S.Ans o) → σ → Prop} {s : σ}
    (hsome : ∃ c r, ok o c ∧ sys.perform t s o c = some r)
    (h : ∀ c r s', ok o c → sys.perform t s o c = some (r, s') → Q r s') :
    Finishes sys t ok Q (Prog.call o : Prog S ε _) s := by
  refine ⟨hsome, fun c r s' hc hp => ?_⟩
  have hr := h c r s' hc hp
  cases r <;> exact hr

theorem Finishes.bind {Q : Except ε β → σ → Prop} {p : Prog S ε α} {f : α → Prog S ε β} {s : σ}
    (h : Finishes sys t ok (fun r s' => match r with
      | .ok a => Finishes sys t ok Q (f a) s'
      | .error e => Q (.error e) s') p s) : Finishes sys t ok Q (p >>= f) s := by
  induction p generalizing s with
  | ret a => exact h
  | raise e => exact h
  | op o k ih => exact ⟨h.1, fun c r s' hc hp => ih r (h.2 c r s' hc hp)⟩

theorem Finishes.handle {Q : Except ε α → σ → Prop} {p : Prog S ε α} {f : ε → Prog S ε α} {s : σ}
    (h : Finishes sys t ok (fun r s' => match r with
      | .ok a => Q (.ok a) s'
      | .error e => Finishes sys t ok Q (f e) s') p s) : Finishes sys t ok Q (p.handle f) s := by
  induction p generalizing s with
  | ret a => exact h
  | raise e => exact h
  | op o k ih => exact ⟨h.1, fun c r s' hc hp => ih r (h.2 c r s' hc hp)⟩

theorem Finishes.attempt {Q : Except ε (Except ε α) → σ → Prop} {p : Prog S ε α} {s : σ}
    (h : Finishes sys t ok (fun r s' => Q (.ok r) s') p s) : Finishes sys t ok Q p.attempt s := by
  induction p generalizing s with
  | ret a => exact h
  | raise e => exact h
  | op o k ih => exact ⟨h.1, fun c r s' hc hp => ih r (h.2 c r s' hc hp)⟩

end System

end CatalogSentinel.Concurrent
