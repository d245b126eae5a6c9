import CatalogSentinel.Concurrent.Prog

/-!
A program under fixed answers, which depend on nothing but the operation: the
operations that it awaits, in order, and how it ends.
-/

namespace CatalogSentinel.Concurrent.Prog

variable {S : Signature} {ε α β : Type} (h : (o : S.Op) → Except ε (S.Ans o))

def trace : Prog S ε α → List S.Op × Except ε α
  | ret a => ([], .ok a)
  | raise e => ([], .error e)
  | op o k => (o :: (trace (k (h o))).1, (trace (k (h o))).2)

/-- The program awaits these operations and ends so. -/
def Traces (p : Prog S ε α) (os : List S.Op) (r : Except ε α) : Prop := trace h p = (os, r)

variable {h}

theorem traces_ret (a : α) : Traces h (ret a : Prog S ε α) [] (.ok a) := rfl

theorem traces_raise (e : ε) : Traces h (raise e : Prog S ε α) [] (.error e) := rfl

theorem traces_call (o : S.Op) : Traces h (call o : Prog S ε _) [o] (h o) := by
  show (o :: (trace h (ofExcept (h o))).1, (trace h (ofExcept (h o))).2) = ([o], h o)
  cases h o <;> rfl

theorem Traces.op {o : S.Op} {k : Except ε (S.Ans o) → Prog S ε α} {os : List S.Op}
    {r : Except ε α} (hk : Traces h (k (h o)) os r) : Traces h (.op o k) (o :: os) r := by
  show (o :: (trace h (k (h o))).1, (trace h (k (h o))).2) = (o :: os, r)
  rw [hk]

theorem traces_op {o : S.Op} {k : Except ε (S.Ans o) → Prog S ε α} {os : List S.Op}
    {r : Except ε α} (hp : Traces h (.op o k) os r) :
    ∃ os', os = o :: os' ∧ Traces h (k (h o)) os' r := by
  have hos : o :: (trace h (k (h o))).1 = os := congrArg Prod.fst hp
  have hr : (trace h (k (h o))).2 = r := congrArg Prod.snd hp
  exact ⟨(trace h (k (h o))).1, hos.symm, Prod.ext rfl hr⟩

theorem Traces.bind {p : Prog S ε α} {f : α → Prog S ε β} {os os' : List S.Op} {a : α}
    {r : Except ε β} (hp : Traces h p os (.ok a)) (hf : Traces h (f a) os' r) :
    Traces h (p >>= f) (os ++ os') r := by
  induction p generalizing os with
  | ret b =>
    cases hp
    exact hf
  | raise e => cases hp
  | op o k ih =>
    obtain ⟨rest, rfl, hk⟩ := traces_op hp
    exact (ih (h o) hk).op

theorem Traces.bind_error {p : Prog S ε α} {f : α → Prog S ε β} {os : List S.Op} {e : ε}
    (hp : Traces h p os (.error e)) : Traces h (p >>= f) os (.error e) := by
  induction p generalizing os with
  | ret b => cases hp
  | raise e' =>
    cases hp
    rfl
  | op o k ih =>
    obtain ⟨rest, rfl, hk⟩ := traces_op hp
    exact (ih (h o) hk).op

theorem Traces.attempt {p : Prog S ε α} {os : List S.Op} {r : Except ε α}
    (hp : Traces h p os r) : Traces h p.attempt os (.ok r) := by
  induction p generalizing os with
  | ret a =>
    cases hp
    rfl
  | raise e =>
    cases hp
    rfl
  | op o k ih =>
    obtain ⟨rest, rfl, hk⟩ := traces_op hp
    exact (ih (h o) hk).op

end CatalogSentinel.Concurrent.Prog
