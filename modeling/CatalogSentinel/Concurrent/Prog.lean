import Mathlib.Logic.Basic

/-! Programs that await operations, as free-monad terms over a signature. Every
operation is one await: it answers a value or throws. Sequencing, `try`/`catch`
and `try`/`finally` are structural, so a program is a finite tree whose nodes are
its awaits; what an await does is left to the system that runs it. -/

namespace CatalogSentinel.Concurrent

/-- The operations a program can await and the type each one answers. -/
structure Signature where
  Op : Type
  Ans : Op → Type

inductive Prog (S : Signature) (ε α : Type) : Type
  | ret (a : α)
  | raise (e : ε)
  | op (o : S.Op) (k : Except ε (S.Ans o) → Prog S ε α)

namespace Prog

variable {S : Signature} {ε α β : Type}

def bind : Prog S ε α → (α → Prog S ε β) → Prog S ε β
  | ret a, f => f a
  | raise e, _ => raise e
  | op o k, f => op o fun r => (k r).bind f

/-- `try p catch (e) { h e }`. -/
def handle : Prog S ε α → (ε → Prog S ε α) → Prog S ε α
  | ret a, _ => ret a
  | raise e, h => h e
  | op o k, h => op o fun r => (k r).handle h

/-- Run a program and keep how it settled. -/
def attempt : Prog S ε α → Prog S ε (Except ε α)
  | ret a => ret (.ok a)
  | raise e => ret (.error e)
  | op o k => op o fun r => (k r).attempt

def ofExcept : Except ε α → Prog S ε α
  | .ok a => ret a
  | .error e => raise e

instance : Monad (Prog S ε) where
  pure := ret
  bind := bind

instance : MonadExceptOf ε (Prog S ε) where
  throw := raise
  tryCatch := handle

/-- Await one operation. -/
def call (o : S.Op) : Prog S ε (S.Ans o) := op o ofExcept

/-- `try { p } finally { last }`. -/
def ensure (p : Prog S ε α) (last : Prog S ε Unit) : Prog S ε α :=
  p.attempt >>= fun r => last >>= fun _ => ofExcept r

/-- `p.catch(() => undefined)`. -/
def settle (p : Prog S ε Unit) : Prog S ε Unit := p.handle fun _ => ret ()

@[simp] theorem ret_bind (a : α) (f : α → Prog S ε β) : (ret a >>= f) = f a := rfl

@[simp] theorem raise_bind (e : ε) (f : α → Prog S ε β) : (raise e >>= f) = raise e := rfl

@[simp] theorem op_bind (o : S.Op) (k : Except ε (S.Ans o) → Prog S ε α) (f : α → Prog S ε β) :
    (op o k >>= f) = op o fun r => k r >>= f := rfl

@[simp] theorem pure_eq_ret (a : α) : (pure a : Prog S ε α) = ret a := rfl

@[simp] theorem throw_eq_raise (e : ε) : (throw e : Prog S ε α) = raise e := rfl

theorem bind_assoc {γ : Type} (p : Prog S ε α) (f : α → Prog S ε β) (g : β → Prog S ε γ) :
    (p >>= f >>= g) = p >>= fun a => f a >>= g := by
  induction p with
  | ret a => rfl
  | raise e => rfl
  | op o k ih =>
    simp only [op_bind]
    congr 1
    funext r
    exact ih r

theorem bind_ret (p : Prog S ε α) : (p >>= ret) = p := by
  induction p with
  | ret a => rfl
  | raise e => rfl
  | op o k ih =>
    simp only [op_bind]
    congr 1
    funext r
    exact ih r

instance : LawfulMonad (Prog S ε) :=
  LawfulMonad.mk' _ (fun p => bind_ret p) (fun _ _ => rfl) (fun p f g => bind_assoc p f g)

/-- Every operation the program may await satisfies `ok`, whatever it is answered. -/
def Calls (ok : S.Op → Prop) : Prog S ε α → Prop
  | ret _ => True
  | raise _ => True
  | op o k => ok o ∧ ∀ r, Calls ok (k r)

section Calls

variable {ok : S.Op → Prop}

@[simp] theorem calls_ret (a : α) : Calls ok (ret a : Prog S ε α) := trivial

@[simp] theorem calls_raise (e : ε) : Calls ok (raise e : Prog S ε α) := trivial

@[simp] theorem calls_ofExcept (r : Except ε α) : Calls ok (ofExcept r : Prog S ε α) := by
  cases r <;> trivial

theorem calls_call {o : S.Op} (ho : ok o) : Calls ok (call o : Prog S ε (S.Ans o)) :=
  ⟨ho, fun r => calls_ofExcept r⟩

theorem Calls.bind {p : Prog S ε α} {f : α → Prog S ε β} (hp : Calls ok p)
    (hf : ∀ a, Calls ok (f a)) : Calls ok (p >>= f) := by
  induction p with
  | ret a => exact hf a
  | raise e => trivial
  | op o k ih => exact ⟨hp.1, fun r => ih r (hp.2 r)⟩

theorem Calls.handle {p : Prog S ε α} {h : ε → Prog S ε α} (hp : Calls ok p)
    (hh : ∀ e, Calls ok (h e)) : Calls ok (p.handle h) := by
  induction p with
  | ret a => trivial
  | raise e => exact hh e
  | op o k ih => exact ⟨hp.1, fun r => ih r (hp.2 r)⟩

theorem Calls.attempt {p : Prog S ε α} (hp : Calls ok p) : Calls ok p.attempt := by
  induction p with
  | ret a => trivial
  | raise e => trivial
  | op o k ih => exact ⟨hp.1, fun r => ih r (hp.2 r)⟩

theorem Calls.mono {ok' : S.Op → Prop} (h : ∀ o, ok o → ok' o) {p : Prog S ε α}
    (hp : Calls ok p) : Calls ok' p := by
  induction p with
  | ret a => trivial
  | raise e => trivial
  | op o k ih => exact ⟨h o hp.1, fun r => ih r (hp.2 r)⟩

end Calls

/-! ### Properties that sequencing keeps -/

/-- A property of programs that returning and throwing have, and that sequencing,
`catch` and keeping an outcome preserve. -/
structure Compositional (Φ : ∀ {α : Type}, Prog S ε α → Prop) : Prop where
  ret : ∀ {α : Type} (a : α), Φ (Prog.ret a : Prog S ε α)
  raise : ∀ {α : Type} (e : ε), Φ (Prog.raise e : Prog S ε α)
  bind : ∀ {α β : Type} {p : Prog S ε α} {f : α → Prog S ε β}, Φ p → (∀ a, Φ (f a)) → Φ (p >>= f)
  handle : ∀ {α : Type} {p : Prog S ε α} {f : ε → Prog S ε α}, Φ p → (∀ e, Φ (f e)) → Φ (p.handle f)
  attempt : ∀ {α : Type} {p : Prog S ε α}, Φ p → Φ p.attempt

theorem compositional_calls (ok : S.Op → Prop) :
    Compositional fun {α} (p : Prog S ε α) => Calls ok p :=
  ⟨fun _ => trivial, fun _ => trivial, fun hp hf => hp.bind hf, fun hp hf => hp.handle hf,
    fun hp => hp.attempt⟩

namespace Compositional

variable {Φ : ∀ {α : Type}, Prog S ε α → Prop} (h : Compositional Φ)
include h

theorem ofExcept (r : Except ε α) : Φ (Prog.ofExcept r : Prog S ε α) := by
  cases r with
  | ok a => exact h.ret a
  | error e => exact h.raise e

theorem ensure {p : Prog S ε α} {last : Prog S ε Unit} (hp : Φ p) (hl : Φ last) :
    Φ (p.ensure last) :=
  h.bind (h.attempt hp) fun r => h.bind hl fun _ => h.ofExcept r

theorem settle {p : Prog S ε Unit} (hp : Φ p) : Φ p.settle :=
  h.handle hp fun _ => h.ret ()

theorem discard {p : Prog S ε α} (hp : Φ p) : Φ (Functor.discard p) :=
  h.bind hp fun _ => h.ret ()

end Compositional

end Prog

end CatalogSentinel.Concurrent
