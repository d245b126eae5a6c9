import CatalogSentinel.Concurrent.Prog
import Mathlib.Data.List.Basic

/-!
Any number of programs running over one shared state. A move lets one running
program perform its next await, starts a program, lets one end or crash between
two awaits, or lets the environment change the state. Schedules are lists of
moves, so a run can be evaluated; an invariant is proved once, along every
schedule that meets a condition on its steps.
-/

namespace CatalogSentinel.Concurrent

/-- How the programs named by tags `τ` act on a shared state `σ`. A choice `ω`
settles what the state leaves open; `none` says that it is not a possible one. -/
structure System (S : Signature) (ε σ τ ω : Type) where
  perform : τ → σ → (o : S.Op) → ω → Option (Except ε (S.Ans o) × σ)
  code : τ → Prog S ε Unit
  start : σ → List τ → τ → Option σ
  settle : σ → τ → Except ε Unit → σ
  crash : σ → τ → σ
  env : σ → ω → Option σ

structure World (S : Signature) (ε σ τ : Type) where
  state : σ
  procs : List (τ × Prog S ε Unit)

inductive Move (τ ω : Type)
  | start (t : τ)
  | go (i : ℕ) (c : ω)
  | settle (i : ℕ)
  | crash (i : ℕ)
  | env (c : ω)

variable {S : Signature} {ε σ τ ω : Type}

namespace World

def running (w : World S ε σ τ) : List τ := w.procs.map Prod.fst

def idle (s : σ) : World S ε σ τ := ⟨s, []⟩

end World

namespace System

variable (sys : System S ε σ τ ω)

def step (w : World S ε σ τ) : Move τ ω → Option (World S ε σ τ)
  | .start t => (sys.start w.state w.running t).map fun s => ⟨s, w.procs ++ [(t, sys.code t)]⟩
  | .go i c =>
    match w.procs[i]? with
    | some (t, .op o k) => (sys.perform t w.state o c).map fun r =>
        ⟨r.2, w.procs.set i (t, k r.1)⟩
    | _ => none
  | .settle i =>
    match w.procs[i]? with
    | some (t, .ret a) => some ⟨sys.settle w.state t (.ok a), w.procs.eraseIdx i⟩
    | some (t, .raise e) => some ⟨sys.settle w.state t (.error e), w.procs.eraseIdx i⟩
    | _ => none
  | .crash i =>
    match w.procs[i]? with
    | some (t, _) => some ⟨sys.crash w.state t, w.procs.eraseIdx i⟩
    | none => none
  | .env c => (sys.env w.state c).map fun s => ⟨s, w.procs⟩

def run (w : World S ε σ τ) : List (Move τ ω) → Option (World S ε σ τ)
  | [] => some w
  | m :: ms => (sys.step w m).bind fun w' => run w' ms

/-- `w'` is reached from `w` by some schedule. -/
def Reaches (w w' : World S ε σ τ) : Prop := ∃ ms, sys.run w ms = some w'

/-- Every step the schedule takes from `w` meets the condition. -/
def Along (P : World S ε σ τ → Move τ ω → World S ε σ τ → Prop) :
    World S ε σ τ → List (Move τ ω) → Prop
  | _, [] => True
  | w, m :: ms => ∀ w', sys.step w m = some w' → P w m w' ∧ Along P w' ms

theorem along_true (w : World S ε σ τ) (ms : List (Move τ ω)) :
    sys.Along (fun _ _ _ => True) w ms := by
  induction ms generalizing w with
  | nil => trivial
  | cons m ms ih => exact fun w' _ => ⟨trivial, ih w'⟩

theorem Along.mono {P Q : World S ε σ τ → Move τ ω → World S ε σ τ → Prop} {w : World S ε σ τ}
    {ms : List (Move τ ω)} (h : sys.Along P w ms) (hPQ : ∀ w m w', P w m w' → Q w m w') :
    sys.Along Q w ms := by
  induction ms generalizing w with
  | nil => trivial
  | cons m ms ih => exact fun w' hw' => ⟨hPQ w m w' (h w' hw').1, ih (h w' hw').2⟩

instance decidableAlong (P : World S ε σ τ → Move τ ω → World S ε σ τ → Prop)
    [∀ w m w', Decidable (P w m w')] :
    (w : World S ε σ τ) → (ms : List (Move τ ω)) → Decidable (sys.Along P w ms)
  | _, [] => .isTrue trivial
  | w, m :: ms =>
    match hm : sys.step w m with
    | none => .isTrue fun w' hw' => by simp [hm] at hw'
    | some v =>
      haveI := decidableAlong P v ms
      decidable_of_iff (P w m v ∧ sys.Along P v ms)
        ⟨fun h w' hw' => (Option.some.inj (hm.symm.trans hw')) ▸ h, fun h => h v hm⟩

/-! ### Scripts -/

/-- A line of a script: it starts a program, lets one perform its next awaits, or lets
one end or crash. -/
inductive Cue (τ : Type)
  | start (t : τ)
  | awaits (i n : ℕ)
  | settle (i : ℕ)
  | crash (i : ℕ)

/-- The next `n` awaits of program `i`, answered as the script's answers say. -/
def performs (answers : τ → S.Op → ω) (i : ℕ) : ℕ → World S ε σ τ → Option (World S ε σ τ)
  | 0, w => some w
  | n + 1, w =>
    match w.procs[i]? with
    | some (t, .op o _) => (sys.step w (.go i (answers t o))).bind (performs answers i n)
    | _ => none

def cue (answers : τ → S.Op → ω) (w : World S ε σ τ) : Cue τ → Option (World S ε σ τ)
  | .start t => sys.step w (.start t)
  | .awaits i n => sys.performs answers i n w
  | .settle i => sys.step w (.settle i)
  | .crash i => sys.step w (.crash i)

def play (answers : τ → S.Op → ω) (w : World S ε σ τ) (cues : List (Cue τ)) :
    Option (World S ε σ τ) := cues.foldlM (sys.cue answers) w

variable {sys}

theorem step_start {w w' : World S ε σ τ} {t : τ} (h : sys.step w (.start t) = some w') :
    ∃ s, sys.start w.state w.running t = some s ∧ w' = ⟨s, w.procs ++ [(t, sys.code t)]⟩ := by
  obtain ⟨s, hs, rfl⟩ := Option.map_eq_some_iff.1 h
  exact ⟨s, hs, rfl⟩

theorem step_go {w w' : World S ε σ τ} {i : ℕ} {c : ω} (h : sys.step w (.go i c) = some w') :
    ∃ t o k r s, w.procs[i]? = some (t, .op o k) ∧ sys.perform t w.state o c = some (r, s) ∧
      w' = ⟨s, w.procs.set i (t, k r)⟩ := by
  simp only [step] at h
  split at h
  · rename_i t o k hi
    obtain ⟨⟨r, s⟩, hr, rfl⟩ := Option.map_eq_some_iff.1 h
    exact ⟨t, o, k, r, s, hi, hr, rfl⟩
  · cases h

theorem step_settle {w w' : World S ε σ τ} {i : ℕ} (h : sys.step w (.settle i) = some w') :
    ∃ t r, w.procs[i]? = some (t, .ofExcept r) ∧
      w' = ⟨sys.settle w.state t r, w.procs.eraseIdx i⟩ := by
  simp only [step] at h
  split at h
  · rename_i t a hi
    cases h
    exact ⟨t, .ok a, hi, rfl⟩
  · rename_i t e hi
    cases h
    exact ⟨t, .error e, hi, rfl⟩
  · cases h

theorem step_crash {w w' : World S ε σ τ} {i : ℕ} (h : sys.step w (.crash i) = some w') :
    ∃ t p, w.procs[i]? = some (t, p) ∧ w' = ⟨sys.crash w.state t, w.procs.eraseIdx i⟩ := by
  simp only [step] at h
  split at h
  · rename_i t p hi
    cases h
    exact ⟨t, p, hi, rfl⟩
  · cases h

theorem step_env {w w' : World S ε σ τ} {c : ω} (h : sys.step w (.env c) = some w') :
    ∃ s, sys.env w.state c = some s ∧ w' = ⟨s, w.procs⟩ := by
  obtain ⟨s, hs, rfl⟩ := Option.map_eq_some_iff.1 h
  exact ⟨s, hs, rfl⟩

theorem run_append (w : World S ε σ τ) (ms ns : List (Move τ ω)) :
    sys.run w (ms ++ ns) = (sys.run w ms).bind fun w' => sys.run w' ns := by
  induction ms generalizing w with
  | nil => rfl
  | cons m ms ih =>
    simp only [List.cons_append, run]
    cases sys.step w m with
    | none => rfl
    | some w' => exact ih w'

/-- What the code has from its start, and keeps with every answer, a running program has. -/
theorem procs_invariant {J : τ → Prog S ε Unit → Prop} (hcode : ∀ t, J t (sys.code t))
    (hnext : ∀ t o k r, J t (.op o k) → J t (k r)) {w w' : World S ε σ τ} {m : Move τ ω}
    (hw : ∀ q ∈ w.procs, J q.1 q.2) (h : sys.step w m = some w') : ∀ q ∈ w'.procs, J q.1 q.2 := by
  intro q hq
  cases m with
  | start t =>
    obtain ⟨s, -, rfl⟩ := step_start h
    rcases List.mem_append.1 hq with hq | hq
    · exact hw q hq
    · rw [List.mem_singleton.1 hq]
      exact hcode t
  | go i c =>
    obtain ⟨t, o, k, r, s, hi, -, rfl⟩ := step_go h
    rcases List.mem_or_eq_of_mem_set hq with hq | rfl
    · exact hw q hq
    · exact hnext t o k r (hw _ (List.mem_of_getElem? hi))
  | settle i =>
    obtain ⟨t, r, -, rfl⟩ := step_settle h
    exact hw q (List.mem_of_mem_eraseIdx hq)
  | crash i =>
    obtain ⟨t, p, -, rfl⟩ := step_crash h
    exact hw q (List.mem_of_mem_eraseIdx hq)
  | env c =>
    obtain ⟨s, -, rfl⟩ := step_env h
    exact hw q hq

/-- What every step meeting the condition keeps holds after every such run. -/
theorem run_invariant {P : World S ε σ τ → Move τ ω → World S ε σ τ → Prop}
    {I : World S ε σ τ → Prop}
    (hstep : ∀ w m w', I w → P w m w' → sys.step w m = some w' → I w')
    {w w' : World S ε σ τ} {ms : List (Move τ ω)} (hI : I w) (hP : sys.Along P w ms)
    (h : sys.run w ms = some w') : I w' := by
  induction ms generalizing w with
  | nil => cases h; exact hI
  | cons m ms ih =>
    obtain ⟨v, hv, hrun⟩ := Option.bind_eq_some_iff.1 h
    obtain ⟨hp, hrest⟩ := hP v hv
    exact ih (hstep w m v hI hp hv) hrest hrun

/-- One condition on the steps of a run from another, with an invariant between them. -/
theorem Along.transfer {P Q : World S ε σ τ → Move τ ω → World S ε σ τ → Prop}
    {I : World S ε σ τ → Prop}
    (hstep : ∀ w m w', I w → P w m w' → sys.step w m = some w' → Q w m w' ∧ I w')
    {w : World S ε σ τ} {ms : List (Move τ ω)} (hI : I w) (h : sys.Along P w ms) :
    sys.Along Q w ms := by
  induction ms generalizing w with
  | nil => trivial
  | cons m ms ih =>
    intro w' hw'
    obtain ⟨hp, hrest⟩ := h w' hw'
    obtain ⟨hq, hI'⟩ := hstep w m w' hI hp hw'
    exact ⟨hq, ih hI' hrest⟩

theorem Reaches.invariant {I : World S ε σ τ → Prop}
    (hstep : ∀ w m w', I w → sys.step w m = some w' → I w')
    {w w' : World S ε σ τ} (h : sys.Reaches w w') (hI : I w) : I w' := by
  obtain ⟨ms, hms⟩ := h
  exact run_invariant (fun w m w' hI _ hs => hstep w m w' hI hs) hI (sys.along_true w ms) hms

theorem Reaches.refl (w : World S ε σ τ) : sys.Reaches w w := ⟨[], rfl⟩

theorem Reaches.step {w v w' : World S ε σ τ} {m : Move τ ω} (h : sys.Reaches w v)
    (hm : sys.step v m = some w') : sys.Reaches w w' := by
  obtain ⟨ms, hms⟩ := h
  exact ⟨ms ++ [m], by simp [run_append, hms, run, hm]⟩

theorem Reaches.trans {u v w : World S ε σ τ} (h : sys.Reaches u v) (h' : sys.Reaches v w) :
    sys.Reaches u w := by
  obtain ⟨ms, hms⟩ := h
  obtain ⟨ns, hns⟩ := h'
  exact ⟨ms ++ ns, by rw [run_append, hms]; exact hns⟩

theorem Reaches.of_step {w w' : World S ε σ τ} {m : Move τ ω} (h : sys.step w m = some w') :
    sys.Reaches w w' := (Reaches.refl w).step h

theorem reaches_performs {answers : τ → S.Op → ω} {i n : ℕ} {w w' : World S ε σ τ}
    (h : sys.performs answers i n w = some w') : sys.Reaches w w' := by
  induction n generalizing w with
  | zero =>
    have he : w = w' := Option.some.inj h
    exact he ▸ Reaches.refl w
  | succ n ih =>
    rw [performs] at h
    split at h
    · obtain ⟨v, hv, hrest⟩ := Option.bind_eq_some_iff.1 h
      exact (Reaches.of_step hv).trans (ih hrest)
    · cases h

/-- What a script plays is reached. -/
theorem reaches_play {answers : τ → S.Op → ω} {cues : List (Cue τ)} {w w' : World S ε σ τ}
    (h : sys.play answers w cues = some w') : sys.Reaches w w' := by
  induction cues generalizing w with
  | nil =>
    have he : w = w' := Option.some.inj h
    exact he ▸ Reaches.refl w
  | cons c cues ih =>
    rw [play, List.foldlM_cons] at h
    obtain ⟨v, hv, hrest⟩ := Option.bind_eq_some_iff.1 h
    refine Reaches.trans ?_ (ih hrest)
    cases c with
    | start t => exact Reaches.of_step (m := .start t) hv
    | awaits i n => exact reaches_performs hv
    | settle i => exact Reaches.of_step (m := .settle i) hv
    | crash i => exact Reaches.of_step (m := .crash i) hv

end System

end CatalogSentinel.Concurrent
