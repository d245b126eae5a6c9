import CatalogSentinel.Concurrent.Watch

/-!
Programs of one signature as programs of a larger one. Every await is carried over,
and its answer is brought back; an error stays the error it is.
-/

namespace CatalogSentinel.Concurrent

/-- The operations of `S` among those of `T`. -/
structure Embedding (S T : Signature) where
  op : S.Op → T.Op
  back : ∀ o, T.Ans (op o) → S.Ans o

variable {S T : Signature} {ε α β : Type}

namespace Prog

def embed (E : Embedding S T) : Prog S ε α → Prog T ε α
  | ret a => ret a
  | raise e => raise e
  | op o k => op (E.op o) fun r => (k (r.map (E.back o))).embed E

variable {E : Embedding S T}

theorem embed_bind (p : Prog S ε α) (f : α → Prog S ε β) :
    (p >>= f).embed E = p.embed E >>= fun a => (f a).embed E := by
  induction p with
  | ret a => rfl
  | raise e => rfl
  | op o k ih =>
    simp only [op_bind, embed]
    congr 1
    funext r
    exact ih _

theorem embed_handle (p : Prog S ε α) (f : ε → Prog S ε α) :
    (p.handle f).embed E = (p.embed E).handle fun e => (f e).embed E := by
  induction p with
  | ret a => rfl
  | raise e => rfl
  | op o k ih =>
    simp only [handle, embed]
    congr 1
    funext r
    exact ih _

theorem embed_attempt (p : Prog S ε α) : p.attempt.embed E = (p.embed E).attempt := by
  induction p with
  | ret a => rfl
  | raise e => rfl
  | op o k ih =>
    simp only [attempt, embed]
    congr 1
    funext r
    exact ih _

/-- What sequencing keeps of the larger programs, it keeps of the embedded ones. -/
theorem Compositional.embed {Φ : ∀ {α : Type}, Prog T ε α → Prop} (h : Compositional Φ) :
    Compositional fun {α} (p : Prog S ε α) => Φ (p.embed E) where
  ret a := h.ret a
  raise e := h.raise e
  bind hp hf := by
    rw [embed_bind]
    exact h.bind hp hf
  handle hp hf := by
    rw [embed_handle]
    exact h.handle hp hf
  attempt hp := by
    rw [embed_attempt]
    exact h.attempt hp

end Prog

namespace Watch

variable {W : Watch T ε} {E : Embedding S T} {past : List (Settled T ε)}

theorem watched_embed_call {o : S.Op} {Q : List (Settled T ε) → Except ε (S.Ans o) → Prop}
    (ho : W.ok past (E.op o))
    (h : ∀ r, W.admits (E.op o) r → Q (⟨E.op o, r⟩ :: past) (r.map (E.back o))) :
    W.Watched Q ((Prog.call o : Prog S ε (S.Ans o)).embed E) past := by
  refine ⟨ho, fun r hr => ?_⟩
  have hend := h r hr
  cases r with
  | ok a => exact hend
  | error e => exact hend

/-- An embedded program adds to its past nothing but awaits of the smaller signature. -/
theorem Watched.embedded {Q : List (Settled T ε) → Except ε α → Prop} {p : Prog S ε α}
    (hp : W.Watched Q (p.embed E) past) :
    W.Watched (fun past' r => (∃ new, past' = new ++ past ∧ ∀ x ∈ new, ∃ o, x.1 = E.op o) ∧ Q past' r)
      (p.embed E) past := by
  induction p generalizing past with
  | ret a => exact ⟨⟨[], rfl, by simp⟩, hp⟩
  | raise e => exact ⟨⟨[], rfl, by simp⟩, hp⟩
  | op o k ih =>
    refine ⟨hp.1, fun r hr => (ih _ (hp.2 r hr)).mono ?_⟩
    rintro past' r' ⟨⟨new, rfl, hnew⟩, hQ⟩
    refine ⟨⟨new ++ [⟨E.op o, r⟩], by simp, fun x hx => ?_⟩, hQ⟩
    rcases List.mem_append.1 hx with hx | hx
    · exact hnew x hx
    · rw [List.mem_singleton.1 hx]
      exact ⟨o, rfl⟩

theorem keeps_embed_call {o : S.Op} (ho : ∀ past, W.ok past (E.op o)) :
    W.Keeps ((Prog.call o : Prog S ε (S.Ans o)).embed E) :=
  fun past => watched_embed_call (ho past) fun _ _ => trivial

end Watch

end CatalogSentinel.Concurrent
