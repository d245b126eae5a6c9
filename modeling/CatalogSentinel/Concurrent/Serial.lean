import CatalogSentinel.Concurrent.RelyGuarantee
import CatalogSentinel.Concurrent.Steps
import CatalogSentinel.Data.History

/-!
Concurrent calls on a store of one value. A call is a program of commands; a
command answers from the value that it finds and may replace it. A ledger notes
which calls have replaced the value, in order, and what the calls were answered.

A law gives each call its effect as a sequential operation. The ledger obeys the
law when the stored value is the effect of the noted calls, one after the other,
each at most once and where the law admits it, and when every reply reports an
effect in that order or a value the call met on its way.
-/

namespace CatalogSentinel.Concurrent.Serial

open Data

/-- A store reached by commands. From the stored value a command computes its answer
and, if it writes, the value that it leaves. -/
structure Backend (V ε : Type) where
  Cmd : Type
  Ans : Cmd → Type
  Choice : Type
  exec : (c : Cmd) → Option V → Choice → Except ε (Ans c) × Option V

variable {V R κ ρ ε α : Type}

namespace Backend

inductive Op (B : Backend V ε) (ρ : Type)
  | cmd (c : B.Cmd)
  | reply (r : Except ε ρ)

def signature (B : Backend V ε) (ρ : Type) : Signature where
  Op := B.Op ρ
  Ans
    | .cmd c => B.Ans c
    | .reply _ => Unit

end Backend

structure Ledger (V ρ : Type) where
  stored : Option V
  begun : List ℕ
  /-- The calls that have written, newest first. -/
  written : List ℕ
  replies : List (ℕ × ρ)

namespace Ledger

def init (v : Option V) : Ledger V ρ := ⟨v, [], [], []⟩

def write (s : Ledger V ρ) (t : ℕ) : Option V → Ledger V ρ
  | none => s
  | some v => { s with stored := some v, written := t :: s.written }

end Ledger

section System

variable (B : Backend V ε) (program : κ → Prog (B.signature ρ) ε ρ) (calls : ℕ → κ)

def perform (t : ℕ) (s : Ledger V (Except ε ρ)) : (o : (B.signature ρ).Op) → B.Choice →
    Option (Except ε ((B.signature ρ).Ans o) × Ledger V (Except ε ρ))
  | .cmd c, x => some ((B.exec c s.stored x).1, s.write t (B.exec c s.stored x).2)
  | .reply r, _ => some (.ok (), { s with replies := (t, r) :: s.replies })

def command (c : B.Cmd) : Prog (B.signature ρ) ε (B.Ans c) :=
  Prog.call (S := B.signature ρ) (Backend.Op.cmd c)

def answer (r : Except ε ρ) : Prog (B.signature ρ) ε Unit :=
  Prog.call (S := B.signature ρ) (Backend.Op.reply r)

/-- Any number of calls, each begun at most once; a crashed call never replies. -/
def system : System (B.signature ρ) ε (Ledger V (Except ε ρ)) ℕ B.Choice where
  perform := perform B
  code t := (program (calls t)).attempt >>= fun r => answer B r
  start s _ t := if t ∈ s.begun then none else some { s with begun := t :: s.begun }
  settle s _ _ := s
  crash s _ := s
  env _ _ := none

end System

/-- What the calls do when they run one after the other: the effect of a call, and which
replies report an effect, or the value met by a call that has none. -/
structure Law (κ R ρ : Type) where
  act : κ → Option R → Option R
  took : κ → ρ → Option R → Prop
  met : κ → ρ → Option R → Prop

namespace Law

variable (L : Law κ R ρ) (admits : κ → Option R → Prop) (calls : ℕ → κ) (init : Option R)

/-- The value after the calls, the newest of which stands first. -/
def replay : List ℕ → Option R
  | [] => init
  | t :: past => L.act (calls t) (replay past)

/-- The reply reports the call's effect at its place in the order, or the call has none
and met the value that some calls before had left. -/
def Fits (t : ℕ) (r : ρ) (written : List ℕ) : Prop :=
  (∃ past, Extends (t :: past) written ∧ L.took (calls t) r (L.replay calls init (t :: past))) ∨
    t ∉ written ∧ ∃ past, Extends past written ∧ L.met (calls t) r (L.replay calls init past)

/-- Each call stands once, where it is admitted. -/
def Ordered (written : List ℕ) : Prop :=
  Justified (fun t past => t ∉ past ∧ admits (calls t) (L.replay calls init past)) written

structure Obeyed (content : V → R) (s : Ledger V ρ) : Prop where
  stored : s.stored.map content = L.replay calls init s.written
  order : L.Ordered admits calls init s.written
  begun : ∀ t ∈ s.written, t ∈ s.begun
  replies : ∀ t r, (t, r) ∈ s.replies → t ∈ s.begun ∧ L.Fits calls init t r s.written

variable {L admits calls init}

theorem obeyed_init (content : V → R) (v : Option V) :
    L.Obeyed admits calls (v.map content) content (Ledger.init v : Ledger V ρ) :=
  ⟨rfl, trivial, by simp [Ledger.init], by simp [Ledger.init]⟩

/-- A call that did not write meanwhile keeps what its reply reported. -/
theorem Fits.extend {t : ℕ} {r : ρ} {written written' : List ℕ}
    (h : L.Fits calls init t r written) (hext : Extends written written')
    (hold : t ∈ written' → t ∈ written) : L.Fits calls init t r written' := by
  rcases h with ⟨past, hp, ht⟩ | ⟨hn, past, hp, hm⟩
  · exact .inl ⟨past, hp.trans hext, ht⟩
  · exact .inr ⟨fun h => hn (hold h), past, hp.trans hext, hm⟩

end Law

/-! ### The contract -/

section Contract

variable {L : Law κ R (Except ε ρ)} {admits : κ → Option R → Prop} {B : Backend V ε}
  {program : κ → Prog (B.signature ρ) ε ρ} {calls : ℕ → κ} {init : Option R} {content : V → R}

/-- Other calls add their own writes and replies. -/
structure Rely (t : ℕ) (s s' : Ledger V ρ) : Prop where
  written : Extends s.written s'.written
  mine : t ∈ s'.written → t ∈ s.written
  replies : ∀ r, (t, r) ∈ s'.replies → (t, r) ∈ s.replies
  begun : ∀ u ∈ s.begun, u ∈ s'.begun

variable (L admits B program calls init content) in
def contract : Contract (system B program calls) where
  inv := L.Obeyed admits calls init content
  own t s := t ∈ s.begun
  rely := Rely
  grows s s' := Extends s.written s'.written
  apart t u := t ≠ u
  post _ _ _ := True
  rely_refl _ _ := ⟨Extends.refl _, id, fun _ => id, fun _ => id⟩
  rely_trans _ _ _ _ h h' :=
    ⟨h.written.trans h'.written, h.mine ∘ h'.mine, fun r hr => h.replies r (h'.replies r hr),
      fun u hu => h'.begun u (h.begun u hu)⟩
  rely_grows _ _ _ h := h.written
  rely_own t _ _ h _ ho := h.begun t ho

/-- The call has not replied yet. -/
def Pending (t : ℕ) (s : Ledger V ρ) : Prop := ∀ r, (t, r) ∉ s.replies

def Fresh (t : ℕ) (s : Ledger V ρ) : Prop := Pending t s ∧ t ∉ s.written

variable (L calls init) in
/-- The call has written, and this is what it left. -/
def Took (t : ℕ) (r : R) (s : Ledger V (Except ε ρ)) : Prop :=
  Pending t s ∧ ∃ past, Extends (t :: past) s.written ∧ L.replay calls init (t :: past) = some r

variable (L calls init) in
/-- This is what some calls had left. -/
def Met (r : Option R) (s : Ledger V (Except ε ρ)) : Prop :=
  ∃ past, Extends past s.written ∧ L.replay calls init past = r

variable (L calls init) in
/-- The program has ended with a reply that fits. -/
def Done (t : ℕ) (r : Except ε ρ) (s : Ledger V (Except ε ρ)) : Prop :=
  Pending t s ∧ L.Fits calls init t r s.written

theorem Pending.rely {t : ℕ} {s s' : Ledger V ρ} (h : Pending t s) (hr : Rely t s s') :
    Pending t s' := fun r hmem => h r (hr.replies r hmem)

theorem stable_fresh (t : ℕ) :
    (contract L admits B program calls init content).Stable t (Fresh t) :=
  fun _ _ hr _ h => ⟨h.1.rely hr, fun hw => h.2 (hr.mine hw)⟩

theorem stable_took (t : ℕ) (r : R) :
    (contract L admits B program calls init content).Stable t (Took L calls init t r) := by
  rintro s s' hr - ⟨hp, past, hext, hreplay⟩
  exact ⟨hp.rely hr, past, hext.trans hr.written, hreplay⟩

theorem lasting_met (r : Option R) :
    (contract L admits B program calls init content).Lasting (Met L calls init r) :=
  fun _ _ hg ⟨past, hext, hreplay⟩ => ⟨past, hext.trans hg, hreplay⟩

theorem stable_fresh_met (t : ℕ) (r : Option R) :
    (contract L admits B program calls init content).Stable t
      fun s => Fresh t s ∧ Met L calls init r s :=
  fun s s' hr hi h => ⟨stable_fresh t s s' hr hi h.1, (lasting_met r).stable t s s' hr hi h.2⟩

theorem stable_done (t : ℕ) (r : Except ε ρ) :
    (contract L admits B program calls init content).Stable t (Done L calls init t r) :=
  fun _ _ hr _ h => ⟨h.1.rely hr, h.2.extend hr.written hr.mine⟩

theorem Took.done {t : ℕ} {target : R} {r : Except ε ρ} {s : Ledger V (Except ε ρ)}
    (h : Took L calls init t target s) (ht : L.took (calls t) r (some target)) :
    Done L calls init t r s := by
  obtain ⟨hp, past, hext, hreplay⟩ := h
  exact ⟨hp, .inl ⟨past, hext, hreplay ▸ ht⟩⟩

theorem Fresh.done {t : ℕ} {v : Option R} {r : Except ε ρ} {s : Ledger V (Except ε ρ)}
    (h : Fresh t s) (hv : Met L calls init v s) (hm : L.met (calls t) r v) :
    Done L calls init t r s := by
  obtain ⟨past, hext, hreplay⟩ := hv
  exact ⟨h.1, .inr ⟨h.2, past, hext, hreplay ▸ hm⟩⟩

/-- A call that has not written may end with a reply that fits any value. -/
theorem Fresh.failed {t : ℕ} {r : Except ε ρ} {s : Ledger V (Except ε ρ)} (h : Fresh t s)
    (hm : ∀ v, L.met (calls t) r v) : Done L calls init t r s :=
  ⟨h.1, .inr ⟨h.2, [], ⟨s.written, (List.append_nil _).symm⟩, hm _⟩⟩

/-- What a command by a call that has not written does to the ledger. -/
theorem keeps_write {t : ℕ} {s : Ledger V (Except ε ρ)} {v : V}
    (hs : L.Obeyed admits calls init content s) (ht : t ∈ s.begun) (hf : Fresh t s)
    (hact : L.act (calls t) (s.stored.map content) = some (content v))
    (hadm : admits (calls t) (s.stored.map content)) :
    (contract L admits B program calls init content).Keeps t s (s.write t (some v)) := by
  rw [hs.stored] at hact hadm
  have hext : Extends s.written (t :: s.written) := Extends.cons t s.written
  refine ⟨⟨hact.symm, ⟨⟨hf.2, hadm⟩, hs.order⟩, ?_, fun u r hr => ?_⟩, ht, hext, fun u hu => ?_⟩
  · exact List.forall_mem_cons.2 ⟨ht, hs.begun⟩
  · obtain ⟨hb, hfit⟩ := hs.replies u r hr
    refine ⟨hb, hfit.extend hext fun hu => ?_⟩
    rcases List.mem_cons.1 hu with rfl | hu
    · exact absurd hr (hf.1 r)
    · exact hu
  · refine ⟨hext, fun hmem => ?_, fun _ => id, fun _ => id⟩
    exact (List.mem_cons.1 hmem).resolve_left (Ne.symm hu)

/-- The rule for a command that only reads. -/
theorem triple_read {t : ℕ} {c : B.Cmd} {P : Ledger V (Except ε ρ) → Prop}
    {E : ε → Ledger V (Except ε ρ) → Prop} (f : Option V → B.Ans c)
    (hP : (contract L admits B program calls init content).Stable t P)
    (hread : ∀ v x, B.exec c v x = (.ok (f v), none)) :
    (contract L admits B program calls init content).Triple t P (command B c)
      (fun a s => P s ∧ ∃ v, a = f v ∧ Met L calls init (v.map content) s) E := by
  refine Contract.triple_call (E := fun _ _ => False) hP (fun r s s' hr hi h => ?_)
    (fun s x r s' hs ht hPs hstep => ?_) |>.consequence (fun _ _ => id) (fun _ _ _ => id)
    fun _ _ _ => False.elim
  · cases r with
    | ok a =>
      obtain ⟨hPs, v, hv, hmet⟩ := h
      exact ⟨hP s s' hr hi hPs, v, hv, (lasting_met _).stable t s s' hr hi hmet⟩
    | error e => exact h
  · cases hstep
    rw [hread]
    exact ⟨Contract.Keeps.refl hs ht, hPs, s.stored, rfl, s.written, Extends.refl _, hs.stored.symm⟩

/-- The command answers whether it wrote, and does not fail when it did. -/
structure Swaps (B : Backend V ε) (c : B.Cmd) (wrote : B.Ans c → Bool) : Prop where
  ok : ∀ v x a, (B.exec c v x).1 = .ok a → (B.exec c v x).2.isSome = wrote a
  error : ∀ v x e, (B.exec c v x).1 = .error e → (B.exec c v x).2 = none

/-- The rule for a command that may write: where it does, it leaves the effect of the
call on the stored value, and the call is admitted there. -/
theorem triple_swap {t : ℕ} {c : B.Cmd} {P : Ledger V (Except ε ρ) → Prop} {target : R}
    {wrote : B.Ans c → Bool} (hc : Swaps B c wrote)
    (hP : (contract L admits B program calls init content).Stable t P)
    (hwrite : ∀ s x v, L.Obeyed admits calls init content s → P s →
      (B.exec c s.stored x).2 = some v → content v = target ∧
        L.act (calls t) (s.stored.map content) = some target ∧
          admits (calls t) (s.stored.map content)) :
    (contract L admits B program calls init content).Triple t (fun s => Fresh t s ∧ P s)
      (command B c) (fun a s => if wrote a then Took L calls init t target s else Fresh t s)
      (fun _ => Fresh t) := by
  refine Contract.triple_call (fun s s' hr hi h => ⟨stable_fresh t s s' hr hi h.1,
    hP s s' hr hi h.2⟩) (fun r s s' hr hi h => ?_) fun s x r s' hs ht hfP hstep => ?_
  · cases r with
    | ok a =>
      simp only [Contract.Ends] at h ⊢
      split
      · rename_i hw
        rw [if_pos hw] at h
        exact stable_took t target s s' hr hi h
      · rename_i hw
        rw [if_neg hw] at h
        exact stable_fresh t s s' hr hi h
    | error e => exact stable_fresh t s s' hr hi h
  · obtain ⟨hf, hPs⟩ := hfP
    cases hstep
    cases hw : (B.exec c s.stored x).2 with
    | none =>
      refine ⟨Contract.Keeps.refl hs ht, ?_⟩
      cases ha : (B.exec c s.stored x).1 with
      | error e => exact hf
      | ok a =>
        have hno : wrote a = false := by rw [← hc.ok s.stored x a ha, hw, Option.isSome_none]
        simp only [Contract.Ends, hno, Bool.false_eq_true, if_false]
        exact hf
    | some v =>
      obtain ⟨hv, hact, hadm⟩ := hwrite s x v hs hPs hw
      refine ⟨keeps_write hs ht hf (hv ▸ hact) hadm, ?_⟩
      cases ha : (B.exec c s.stored x).1 with
      | error e => exact absurd (hc.error s.stored x e ha) (by simp [hw])
      | ok a =>
        have hyes : wrote a = true := by rw [← hc.ok s.stored x a ha, hw, Option.isSome_some]
        have hnow : L.replay calls init (t :: s.written) = some target := by
          rw [Law.replay, ← hs.stored]
          exact hact
        simp only [Contract.Ends, hyes]
        exact ⟨hf.1, s.written, Extends.refl _, hnow⟩

theorem triple_answer {t : ℕ} {r : Except ε ρ} :
    (contract L admits B program calls init content).Triple t (Done L calls init t r)
      (answer B r) (fun _ _ => True) (fun _ _ => True) := by
  refine Contract.triple_call (stable_done t r) (fun r' _ _ _ _ _ => by cases r' <;> trivial)
    fun s x r' s' hs ht hd hstep => ?_
  cases hstep
  refine ⟨⟨⟨hs.stored, hs.order, hs.begun, fun u q hq => ?_⟩, ht, Extends.refl _,
    fun u hu => ⟨Extends.refl _, id, fun q hq => ?_, fun _ => id⟩⟩, trivial⟩
  · rcases List.mem_cons.1 hq with hq | hq
    · cases hq
      exact ⟨ht, hd.2⟩
    · exact hs.replies u q hq
  · refine (List.mem_cons.1 hq).resolve_left fun he => ?_
    cases he
    exact hu rfl

/-- Programs that end with replies that fit make a store that obeys the law. -/
theorem sound (hprogram : ∀ t, (contract L admits B program calls init content).Triple t (Fresh t)
      (program (calls t)) (fun a => Done L calls init t (.ok a))
      (fun e => Done L calls init t (.error e))) :
    (contract L admits B program calls init content).Sound where
  start s ts t s' hs hown hstart := by
    have hnew : t ∉ s.begun := by
      intro hmem
      simp [system, hmem] at hstart
    simp only [system, if_neg hnew, Option.some.injEq] at hstart
    subst hstart
    have hinv : L.Obeyed admits calls init content { s with begun := t :: s.begun } :=
      ⟨hs.stored, hs.order, fun u hu => List.mem_cons_of_mem t (hs.begun u hu),
        fun u r hr => ⟨List.mem_cons_of_mem t (hs.replies u r hr).1, (hs.replies u r hr).2⟩⟩
    have hfresh : Fresh t { s with begun := t :: s.begun } :=
      ⟨fun r hr => hnew (hs.replies t r hr).1, fun hw => hnew (hs.begun t hw)⟩
    have hcode := (hprogram t).attempt.bind (fun r => (triple_answer (r := r)).pre
      fun s _ h => by cases r <;> exact h) (E := fun _ _ => True)
    refine ⟨hinv, Extends.refl _, List.mem_cons_self, ?_, fun u hu => ?_⟩
    · exact (hcode _ hinv List.mem_cons_self hfresh).mono fun _ _ _ _ => trivial
    · have hne : t ≠ u := fun he => hnew (he ▸ hown u hu)
      exact ⟨hne, Ne.symm hne, Extends.refl _, id, fun _ => id, fun v => List.mem_cons_of_mem t⟩
  settle s t r hs _ _ := ⟨hs, Extends.refl _, fun u _ => (contract L admits B program calls init
    content).rely_refl u s⟩
  crash s t hs _ := ⟨hs, Extends.refl _, fun u _ => (contract L admits B program calls init
    content).rely_refl u s⟩
  env s c s' _ h := by cases h

end Contract

/-! ### Runs -/

section Runs

variable {L : Law κ R (Except ε ρ)} {B : Backend V ε} {program : κ → Prog (B.signature ρ) ε ρ}
  {calls : ℕ → κ} {content : V → R}

/-- The call that a move lets write. -/
def writer (w : World (B.signature ρ) ε (Ledger V (Except ε ρ)) ℕ) :
    Move ℕ B.Choice → Option ℕ
  | .go i x =>
    match w.procs[i]? with
    | some (t, .op (.cmd c) _) => (B.exec c w.state.stored x).2.map fun _ => t
    | _ => none
  | _ => none

variable (calls content) in
/-- The call that writes meets the gate at the value that it replaces. -/
def Gated (gate : κ → Option R → Prop) (w : World (B.signature ρ) ε (Ledger V (Except ε ρ)) ℕ)
    (m : Move ℕ B.Choice) : Prop :=
  ∀ t ∈ writer w m, gate (calls t) (w.state.stored.map content)

theorem written_step {w w' : World (B.signature ρ) ε (Ledger V (Except ε ρ)) ℕ}
    {m : Move ℕ B.Choice} (h : (system B program calls).step w m = some w') :
    w'.state.written = (writer w m).toList ++ w.state.written := by
  cases m with
  | start t =>
    obtain ⟨s, hs, rfl⟩ := System.step_start h
    simp only [system] at hs
    split at hs
    · cases hs
    · cases hs
      rfl
  | go i x =>
    obtain ⟨t, o, k, r, s, hi, hp, rfl⟩ := System.step_go h
    cases o with
    | cmd c =>
      cases hp
      simp only [writer, hi]
      cases (B.exec c w.state.stored x).2 <;> rfl
    | reply q =>
      cases hp
      simp only [writer, hi]
      rfl
  | settle i =>
    obtain ⟨t, r, -, rfl⟩ := System.step_settle h
    rfl
  | crash i =>
    obtain ⟨t, p, -, rfl⟩ := System.step_crash h
    rfl
  | env c =>
    obtain ⟨s, hs, -⟩ := System.step_env h
    cases hs

/-- A store obeys the law with a stricter admission throughout a run just when each write
meets the gate that tells the stricter admission from its own. -/
theorem obeyed_iff_gated {admits admits' gate : κ → Option R → Prop} (v : Option V)
    (hprogram : ∀ t, (contract L admits B program calls (v.map content) content).Triple t (Fresh t)
      (program (calls t)) (fun a => Done L calls (v.map content) t (.ok a))
      (fun e => Done L calls (v.map content) t (.error e)))
    (hgate : ∀ k cur, admits k cur → (admits' k cur ↔ gate k cur)) (ms : List (Move ℕ B.Choice)) :
    Steps.Throughout (system B program calls).step
        (fun w => L.Obeyed admits' calls (v.map content) content w.state)
        (World.idle (Ledger.init v)) ms ↔
      Steps.Along (system B program calls).step (Gated calls content gate)
        (World.idle (Ledger.init v)) ms := by
  have hsound := sound hprogram
  refine Steps.throughout_iff_along (J := (contract L admits B program calls (v.map content)
    content).Valid) ms (Contract.valid_idle (Law.obeyed_init content v))
    (Law.obeyed_init content v) (fun w m w' hw h => hw.step hsound h) fun w m w' hw hs h => ?_
  have hw' := (hw.step hsound h).inv
  have hwritten := written_step h
  unfold Gated
  cases hm : writer w m with
  | none =>
    rw [hm, Option.toList_none, List.nil_append] at hwritten
    refine iff_of_true ⟨hw'.stored, ?_, hw'.begun, hw'.replies⟩ fun t ht => by cases ht
    rw [hwritten]
    exact hs.order
  | some t =>
    rw [hm, Option.toList_some, List.singleton_append] at hwritten
    have hstored := hs.stored
    have hnew := hw'.order
    rw [hwritten] at hnew
    have hsame := hgate _ _ hnew.1.2
    constructor
    · intro hlaw t' ht'
      obtain rfl : t = t' := Option.some.inj ht'
      have hord := hlaw.order
      rw [hwritten] at hord
      rw [hstored]
      exact hsame.1 hord.1.2
    · intro hall
      refine ⟨hw'.stored, ?_, hw'.begun, hw'.replies⟩
      rw [hwritten]
      have := hall t rfl
      rw [hstored] at this
      exact ⟨⟨hnew.1.1, hsame.2 this⟩, hs.order⟩

end Runs

end CatalogSentinel.Concurrent.Serial
