import CatalogSentinel.Concurrent.Steps
import Mathlib.Data.Int.Order.Basic
import Mathlib.Tactic.Common

/-!
The lock of a distributor account: a Redis key with a time to live, and the
heartbeat by which its holder renews it and learns of its loss. Every worker
acts on one key. Ticks, the commands that Redis serves and their replies come in
any order and as late as they like; the clock counts milliseconds.
-/

namespace CatalogSentinel.Distrokid.Locks

open CatalogSentinel.Concurrent

/-! ### The key -/

/-- What Redis holds under the lock's key: the owner's token and when it expires. -/
abbrev Key := Option (ℕ × ℤ)

/-- `get`: a key is there until its expiry has passed. -/
def Key.get (key : Key) (now : ℤ) : Option ℕ :=
  key.bind fun (token, expiry) => if now ≤ expiry then some token else none

/-- `set key token PX duration NX`, and nothing where the key is there. -/
def Key.setNX (key : Key) (now : ℤ) (token duration : ℕ) : Option Key :=
  match key.get now with
  | none => some (some (token, now + duration))
  | some _ => none

def Key.extendScript (key : Key) (now : ℤ) (token ttlMs : ℕ) : Key × Bool :=
  if key.get now = some token then (some (token, now + ttlMs), true) else (key, false)

def Key.releaseScript (key : Key) (now : ℤ) (token : ℕ) : Key :=
  if key.get now = some token then none else key

/-! ### The heartbeat -/

/-- The variables that `startLockHeartbeat` closes over. -/
structure Heartbeat where
  stopped : Bool
  renewing : Bool
  lastConfirmedAt : ℤ

/-- What a callback of the heartbeat calls. -/
inductive Call
  | onLost
  | extend
deriving DecidableEq

def everyMs (ttlMs : ℕ) : ℕ := max 1000 (ttlMs / 3)

namespace Heartbeat

def start (now : ℤ) : Heartbeat := ⟨false, false, now⟩

/-- The timer's callback. -/
def tick (ttlMs : ℕ) (now : ℤ) (h : Heartbeat) : Heartbeat × Option Call :=
  if h.stopped = false ∧ ttlMs ≤ now - h.lastConfirmedAt then
    ({ h with stopped := true }, some .onLost)
  else if h.renewing then (h, none)
  else ({ h with renewing := true }, some .extend)

/-- `extend` answers. -/
def extended (now : ℤ) (ok : Bool) (h : Heartbeat) : Heartbeat × Option Call :=
  if ok = false ∧ h.stopped = false then
    ({ h with stopped := true, renewing := false }, some .onLost)
  else if ok then ({ h with lastConfirmedAt := now, renewing := false }, none)
  else ({ h with renewing := false }, none)

/-- `extend` throws; the next tick decides. -/
def extendFailed (h : Heartbeat) : Heartbeat := { h with renewing := false }

def stop (h : Heartbeat) : Heartbeat := { h with stopped := true }

end Heartbeat

/-! ### Workers around one key -/

/-- An `extend` under way: not served yet, or its answer on the way back. -/
inductive Flight
  | sent
  | answered (ok : Bool)

/-- A tick that ran, and the confirmation that it went by. -/
structure Tick where
  ranAt : ℤ
  confirmedAt : ℤ

/-- A heartbeat with its timer and its commands, whether it has called `onLost` and been
told to stop, and the ticks it has run. -/
structure Holder where
  beat : Heartbeat
  due : ℤ
  flight : Option Flight := none
  strays : ℕ := 0
  lost : Bool := false
  closed : Bool := false
  ticks : List Tick := []

/-- What became of a token: `acquire` returned the lock that bears it, and the heartbeat
of that lock was started. -/
inductive Session
  | unused
  | granted
  | beating (h : Holder)

structure World where
  now : ℤ
  key : Key
  sessions : ℕ → Session

def World.init : World := ⟨0, none, fun _ => .unused⟩

/-- The two times to live, that of `ConnectionLock` and that of its heartbeat. -/
structure Ttl where
  lockMs : ℕ := 120000
  ttlMs : ℕ := 120000
  lockMs_pos : 0 < lockMs := by decide
  ttlMs_pos : 0 < ttlMs := by decide

/-- One event, of the worker whose lock bears the token. -/
inductive Event
  | pass (ms : ℕ)
  | acquire (token : ℕ)
  | start (token : ℕ)
  | tick (token : ℕ)
  | serve (token : ℕ)
  | reply (token : ℕ)
  | fail (token : ℕ)
  | stray (token : ℕ)
  | stop (token : ℕ)
  | release (token : ℕ)

namespace World

def put (w : World) (token : ℕ) (h : Holder) : World :=
  { w with sessions := Function.update w.sessions token (.beating h) }

/-- An event of a heartbeat that has been started. -/
def beat (w : World) (token : ℕ) (act : Holder → Option (Key × Holder)) : Option World :=
  match w.sessions token with
  | .beating h => (act h).map fun r => { w.put token r.2 with key := r.1 }
  | _ => none

end World

namespace Holder

variable (T : Ttl) (now : ℤ) (token : ℕ) (key : Key) (h : Holder)

def started : Holder := { beat := .start now, due := now + everyMs T.ttlMs }

/-- The holder after a tick and what the tick called. -/
def ticked (r : Heartbeat × Option Call) : Holder :=
  { h with
    beat := r.1, due := now + everyMs T.ttlMs
    flight := if r.2 = some .extend then some .sent else h.flight
    lost := h.lost || r.2 = some .onLost
    ticks := ⟨now, h.beat.lastConfirmedAt⟩ :: h.ticks }

/-- A stopped heartbeat has cleared its timer. -/
def tick : Option (Key × Holder) :=
  if h.beat.stopped = false ∧ h.due ≤ now then
    some (key, h.ticked T now (h.beat.tick T.ttlMs now))
  else none

/-- Redis runs the extend script. -/
def serve : Option (Key × Holder) :=
  match h.flight with
  | some .sent =>
    let r := key.extendScript now token T.ttlMs
    some (r.1, { h with flight := some (.answered r.2) })
  | _ => none

def replied (r : Heartbeat × Option Call) : Holder :=
  { h with beat := r.1, flight := none, lost := h.lost || r.2 = some .onLost }

def reply : Option (Key × Holder) :=
  match h.flight with
  | some (.answered ok) => some (key, h.replied (h.beat.extended now ok))
  | _ => none

/-- The client gives up on an `extend`, whether Redis has run it, will or never does. -/
def fail : Option (Key × Holder) :=
  match h.flight with
  | some .sent => some (key, { h with beat := h.beat.extendFailed, flight := none,
                                      strays := h.strays + 1 })
  | some (.answered _) => some (key, { h with beat := h.beat.extendFailed, flight := none })
  | none => none

/-- Redis runs an extend script that its client has given up on. -/
def stray : Option (Key × Holder) :=
  if 0 < h.strays then
    some ((key.extendScript now token T.ttlMs).1, { h with strays := h.strays - 1 })
  else none

def stop : Option (Key × Holder) := some (key, { h with beat := h.beat.stop, closed := true })

/-- A lock is released once its heartbeat has been told to stop. -/
def release : Option (Key × Holder) :=
  if h.closed then some (key.releaseScript now token, h) else none

/-- A tick found the last confirmation a whole TTL old. -/
def Overdue : Prop := ∃ t ∈ h.ticks, t.confirmedAt + T.ttlMs ≤ t.ranAt

instance : Decidable (h.Overdue T) := by unfold Overdue; infer_instance

end Holder

variable (T : Ttl)

def step (w : World) : Event → Option World
  | .pass ms => some { w with now := w.now + ms }
  | .acquire token =>
    match w.sessions token, w.key.setNX w.now token T.lockMs with
    | .unused, some key =>
      some { w with key, sessions := Function.update w.sessions token .granted }
    | .unused, none => some w
    | _, _ => none
  | .start token =>
    match w.sessions token with
    | .granted => some (w.put token (Holder.started T w.now))
    | _ => none
  | .tick token => w.beat token (Holder.tick T w.now w.key)
  | .serve token => w.beat token (Holder.serve T w.now token w.key)
  | .reply token => w.beat token (Holder.reply w.now w.key)
  | .fail token => w.beat token (Holder.fail w.key)
  | .stray token => w.beat token (Holder.stray T w.now token w.key)
  | .stop token => w.beat token (Holder.stop w.key)
  | .release token => w.beat token (Holder.release w.now token w.key)

/-! ### Who believes to hold the lock -/

namespace World

variable (w : World)

/-- The key is in Redis for this token. -/
def HasKey (token : ℕ) : Prop := w.key.get w.now = some token

/-- A started heartbeat whose caller has not stopped it. -/
def Held (token : ℕ) (h : Holder) : Prop := w.sessions token = .beating h ∧ h.closed = false

/-- Wherever the key of a held lock is gone, `onLost` has been called. -/
def LossNoticed : Prop := ∀ token h, w.Held token h → ¬ w.HasKey token → h.lost = true

def Believes (token : ℕ) : Prop := ∃ h, w.Held token h ∧ h.lost = false

def OneHolder : Prop := ∀ i j, w.Believes i → w.Believes j → i = j

variable {w}

theorem hasKey_of_believes (hw : w.LossNoticed) {token : ℕ} (h : w.Believes token) :
    w.HasKey token := by
  obtain ⟨b, hb, hlost⟩ := h
  by_contra hkey
  have := hw token b hb hkey
  simp [hlost] at this

theorem LossNoticed.oneHolder (hw : w.LossNoticed) : w.OneHolder := by
  intro i j hi hj
  have hki : w.key.get w.now = some i := hasKey_of_believes hw hi
  have hkj : w.key.get w.now = some j := hasKey_of_believes hw hj
  rw [hki] at hkj
  exact Option.some.inj hkj

end World

/-- A heartbeat is started while its key is there, and the clock passes the expiry of a held
lock's key only when a tick has found the last confirmation a whole TTL old. -/
def InTime (w : World) : Event → Prop
  | .start token => w.HasKey token
  | .pass ms =>
    ∀ token expiry h, w.key = some (token, expiry) → w.Held token h → w.now ≤ expiry →
      expiry < w.now + ms → h.Overdue T
  | _ => True

/-! ### What each event does to a holder -/

/-- What a holder's past says: a loss was noticed by an overdue tick, or the key is gone; a
refused extend found the key gone. -/
structure Holder.Sound (T : Ttl) (hasKey : Prop) (h : Holder) : Prop where
  overdue : h.Overdue T → h.lost = true
  lost : h.lost = true → h.Overdue T ∨ ¬ hasKey
  refused : h.flight = some (.answered false) → ¬ hasKey

def World.Sound (w : World) : Prop :=
  ∀ token h, w.sessions token = .beating h → h.Sound T (w.HasKey token)

namespace Key

variable {key key' : Key} {now : ℤ} {token duration : ℕ}

@[simp] theorem get_some_self : Key.get (some (token, now + duration)) now = some token := by
  have : now ≤ now + duration := by omega
  simp [Key.get, this]

theorem get_eq_some : key.get now = some token ↔ ∃ expiry, key = some (token, expiry) ∧
    now ≤ expiry := by
  cases key with
  | none => simp [Key.get]
  | some k =>
    obtain ⟨owner, expiry⟩ := k
    simp [Key.get]
    tauto

theorem get_of_setNX (h : key.setNX now token duration = some key') :
    key.get now = none ∧ key'.get now = some token := by
  unfold Key.setNX at h
  split at h
  · rename_i hfree
    obtain rfl := Option.some.inj h
    exact ⟨hfree, get_some_self⟩
  · cases h

@[simp] theorem get_extendScript : (key.extendScript now token duration).1.get now = key.get now := by
  unfold Key.extendScript
  split
  · rename_i hown
    rw [get_some_self, hown]
  · rfl

theorem extendScript_refused (h : (key.extendScript now token duration).2 = false) :
    key.get now ≠ some token := by
  intro hown
  simp [Key.extendScript, hown] at h

theorem get_releaseScript (key : Key) (now : ℤ) (token : ℕ) :
    (key.releaseScript now token).get now = key.get now ∨
    (key.get now = some token ∧ (key.releaseScript now token).get now = none) := by
  unfold Key.releaseScript
  split
  · rename_i hown
    exact .inr ⟨hown, rfl⟩
  · exact .inl rfl

end Key

namespace Heartbeat

variable {ttlMs : ℕ} {now : ℤ} {h : Heartbeat}

theorem tick_onLost : (h.tick ttlMs now).2 = some .onLost ↔
    h.stopped = false ∧ ttlMs ≤ now - h.lastConfirmedAt := by
  unfold tick
  split_ifs with hover hrenew <;> simp [hover]

theorem extended_onLost {ok : Bool} (hlost : (h.extended now ok).2 = some .onLost) :
    ok = false := by
  unfold extended at hlost
  split_ifs at hlost with hcond hok
  exact hcond.1

end Heartbeat

/-- An event of one holder takes the key from nobody but a closed holder itself, undoes no
`onLost` and no `stop`, and keeps what its past says. -/
structure Keeps (now : ℤ) (token : ℕ) (key : Key) (h : Holder) (key' : Key) (h' : Holder) :
    Prop where
  owner : Key.get key' now = Key.get key now ∨
    (h.closed = true ∧ Key.get key now = some token ∧ Key.get key' now = none)
  closed : h.closed = true → h'.closed = true
  lost : h.lost = true → h'.lost = true
  sound : h.Sound T (Key.get key now = some token) → h'.Sound T (Key.get key' now = some token)

namespace Holder

variable {T} {now : ℤ} {token : ℕ} {key key' : Key} {h h' : Holder}

theorem keeps_tick (hstep : h.tick T now key = some (key', h')) :
    Keeps T now token key h key' h' := by
  unfold Holder.tick at hstep
  split at hstep
  · rename_i hdue
    obtain ⟨rfl, rfl⟩ := Prod.mk.inj (Option.some.inj hstep)
    refine ⟨.inl rfl, id, fun hl => by simp [ticked, hl], fun hs => ⟨?_, ?_, ?_⟩⟩
    · rintro ⟨t, ht, hover⟩
      rcases List.mem_cons.1 ht with rfl | ht
      · have hold : (T.ttlMs : ℤ) ≤ now - h.beat.lastConfirmedAt := by simp only at hover; omega
        have hcall := Heartbeat.tick_onLost.2 ⟨hdue.1, hold⟩
        simp [ticked, hcall]
      · have hl := hs.overdue ⟨t, ht, hover⟩
        simp [ticked, hl]
    · intro hl
      simp only [ticked, Bool.or_eq_true, decide_eq_true_eq] at hl
      rcases hl with hl | hcall
      · rcases hs.lost hl with ⟨t, ht, hover⟩ | hkey
        · exact .inl ⟨t, List.mem_cons_of_mem _ ht, hover⟩
        · exact .inr hkey
      · have hold := (Heartbeat.tick_onLost.1 hcall).2
        exact .inl ⟨_, List.mem_cons_self, by simp only; omega⟩
    · intro hf
      simp only [ticked] at hf
      split at hf
      · cases hf
      · exact hs.refused hf
  · cases hstep

theorem keeps_serve (hstep : h.serve T now token key = some (key', h')) :
    Keeps T now token key h key' h' := by
  unfold Holder.serve at hstep
  split at hstep
  · obtain ⟨rfl, rfl⟩ := Prod.mk.inj (Option.some.inj hstep)
    refine ⟨.inl Key.get_extendScript, id, id, fun hs => ?_⟩
    rw [Key.get_extendScript]
    refine ⟨hs.overdue, hs.lost, fun hf => ?_⟩
    exact Key.extendScript_refused (by simpa using hf)
  · cases hstep

theorem keeps_reply (hstep : h.reply now key = some (key', h')) :
    Keeps T now token key h key' h' := by
  unfold Holder.reply at hstep
  split at hstep
  · rename_i ok hflight
    obtain ⟨rfl, rfl⟩ := Prod.mk.inj (Option.some.inj hstep)
    refine ⟨.inl rfl, id, fun hl => by simp [replied, hl], fun hs => ⟨fun hover => ?_, ?_, ?_⟩⟩
    · have hl := hs.overdue hover
      simp [replied, hl]
    · intro hl
      simp only [replied, Bool.or_eq_true, decide_eq_true_eq] at hl
      rcases hl with hl | hcall
      · exact hs.lost hl
      · obtain rfl := Heartbeat.extended_onLost hcall
        exact .inr (hs.refused hflight)
    · intro hf
      cases hf
  · cases hstep

theorem keeps_fail (hstep : h.fail key = some (key', h')) : Keeps T now token key h key' h' := by
  unfold Holder.fail at hstep
  split at hstep
  · obtain ⟨rfl, rfl⟩ := Prod.mk.inj (Option.some.inj hstep)
    exact ⟨.inl rfl, id, id, fun hs => ⟨hs.overdue, hs.lost, fun hf => by cases hf⟩⟩
  · obtain ⟨rfl, rfl⟩ := Prod.mk.inj (Option.some.inj hstep)
    exact ⟨.inl rfl, id, id, fun hs => ⟨hs.overdue, hs.lost, fun hf => by cases hf⟩⟩
  · cases hstep

theorem keeps_stray (hstep : h.stray T now token key = some (key', h')) :
    Keeps T now token key h key' h' := by
  unfold Holder.stray at hstep
  split at hstep
  · obtain ⟨rfl, rfl⟩ := Prod.mk.inj (Option.some.inj hstep)
    refine ⟨.inl Key.get_extendScript, id, id, fun hs => ?_⟩
    rw [Key.get_extendScript]
    exact ⟨hs.overdue, hs.lost, hs.refused⟩
  · cases hstep

theorem keeps_stop (hstep : h.stop key = some (key', h')) : Keeps T now token key h key' h' := by
  obtain ⟨rfl, rfl⟩ := Prod.mk.inj (Option.some.inj hstep)
  exact ⟨.inl rfl, fun _ => rfl, id, fun hs => ⟨hs.overdue, hs.lost, hs.refused⟩⟩

theorem keeps_release (hstep : h.release now token key = some (key', h')) :
    Keeps T now token key h key' h' := by
  unfold Holder.release at hstep
  split at hstep
  · rename_i hclosed
    obtain ⟨rfl, rfl⟩ := Prod.mk.inj (Option.some.inj hstep)
    rcases Key.get_releaseScript key now token with heq | ⟨hown, hnone⟩
    · refine ⟨.inl heq, id, id, fun hs => ?_⟩
      rw [heq]
      exact hs
    · refine ⟨.inr ⟨hclosed, hown, hnone⟩, id, id, fun hs => ?_⟩
      have hgone : ¬ Key.get (Key.releaseScript key now token) now = some token := by
        rw [hnone]
        simp
      exact ⟨hs.overdue, fun _ => .inr hgone, fun _ => hgone⟩
  · cases hstep

end Holder

/-! ### One event of the whole system -/

section

variable {T} {w w' : World}

namespace World

theorem beat_inv {token : ℕ} {act : Holder → Option (Key × Holder)}
    (hstep : w.beat token act = some w') : ∃ h key' h', w.sessions token = .beating h ∧
      act h = some (key', h') ∧ w' = { w.put token h' with key := key' } := by
  unfold World.beat at hstep
  split at hstep
  · rename_i h hsess
    obtain ⟨⟨key', h'⟩, hact, rfl⟩ := Option.map_eq_some_iff.1 hstep
    exact ⟨h, key', h', hsess, hact, rfl⟩
  · cases hstep

theorem put_sessions {token i : ℕ} {h b : Holder} (hb : (w.put token h).sessions i = .beating b) :
    (i = token ∧ b = h) ∨ (i ≠ token ∧ w.sessions i = .beating b) := by
  by_cases hi : i = token
  · subst hi
    simp only [put, Function.update_self, Session.beating.injEq] at hb
    exact .inl ⟨rfl, hb.symm⟩
  · simp only [put, Function.update_of_ne hi] at hb
    exact .inr ⟨hi, hb⟩

theorem Sound.beat {token : ℕ} {act : Holder → Option (Key × Holder)} (hw : w.Sound T)
    (hkeeps : ∀ h key' h', act h = some (key', h') → Keeps T w.now token w.key h key' h')
    (hstep : w.beat token act = some w') : w'.Sound T := by
  obtain ⟨h, key', h', hsess, hact, rfl⟩ := beat_inv hstep
  have hk := hkeeps h key' h' hact
  intro i b hb
  rcases put_sessions hb with ⟨rfl, rfl⟩ | ⟨hi, hb⟩
  · exact hk.sound (hw i h hsess)
  · have hs := hw i b hb
    have hkey : Key.get key' w.now = some i → Key.get w.key w.now = some i := by
      intro hown
      rcases hk.owner with heq | ⟨-, -, hnone⟩
      · rwa [← heq]
      · rw [hnone] at hown
        cases hown
    exact ⟨hs.overdue, fun hl => (hs.lost hl).imp_right fun hgone hown => hgone (hkey hown),
      fun hf hown => hs.refused hf (hkey hown)⟩

theorem LossNoticed.beat {token : ℕ} {act : Holder → Option (Key × Holder)} (hw : w.LossNoticed)
    (hkeeps : ∀ h key' h', act h = some (key', h') → Keeps T w.now token w.key h key' h')
    (hstep : w.beat token act = some w') : w'.LossNoticed := by
  obtain ⟨h, key', h', hsess, hact, rfl⟩ := beat_inv hstep
  have hk := hkeeps h key' h' hact
  rintro i b ⟨hb, hopen⟩ hgone
  rcases put_sessions hb with ⟨rfl, rfl⟩ | ⟨hi, hb⟩
  · have hopen' : h.closed = false := by
      by_contra hc
      rw [hk.closed (by simpa using hc)] at hopen
      cases hopen
    refine hk.lost (hw i h ⟨hsess, hopen'⟩ fun hown => ?_)
    rcases hk.owner with heq | ⟨hc, -⟩
    · exact hgone (heq.trans hown)
    · rw [hc] at hopen'
      cases hopen'
  · refine hw i b ⟨hb, hopen⟩ fun hown => ?_
    rcases hk.owner with heq | ⟨-, hown', -⟩
    · exact hgone (heq.trans hown)
    · have hi' : some i = some token := hown.symm.trans hown'
      exact hi (Option.some.inj hi')

theorem get_pass {ms token : ℕ} (hown : Key.get w.key (w.now + ms) = some token) :
    Key.get w.key w.now = some token := by
  obtain ⟨expiry, hkey, hle⟩ := Key.get_eq_some.1 hown
  exact Key.get_eq_some.2 ⟨expiry, hkey, by omega⟩

theorem Sound.pass (hw : w.Sound T) (ms : ℕ) : World.Sound T { w with now := w.now + ms } := by
  intro i b hb
  have hs := hw i b hb
  exact ⟨hs.overdue, fun hl => (hs.lost hl).imp_right fun hgone hown => hgone (get_pass hown),
    fun hf hown => hs.refused hf (get_pass hown)⟩

theorem lossNoticed_pass (hs : w.Sound T) (hw : w.LossNoticed) (ms : ℕ) :
    World.LossNoticed { w with now := w.now + ms } ↔ InTime T w (.pass ms) := by
  constructor
  · intro h token expiry b hkey hb hle hlt
    have hown : w.HasKey token := Key.get_eq_some.2 ⟨expiry, hkey, hle⟩
    have hgone : ¬ Key.get w.key (w.now + ms) = some token := by
      intro hown'
      obtain ⟨expiry', hkey', hle'⟩ := Key.get_eq_some.1 hown'
      rw [hkey] at hkey'
      cases hkey'
      omega
    have hlost := h token b hb hgone
    rcases (hs token b hb.1).lost hlost with hover | hnot
    · exact hover
    · exact absurd hown hnot
  · intro h token b hb hgone
    by_cases hown : w.HasKey token
    · obtain ⟨expiry, hkey, hle⟩ := Key.get_eq_some.1 hown
      have hlt : expiry < w.now + ms := by
        by_contra hge
        have hle' : w.now + ms ≤ expiry := not_lt.1 hge
        exact hgone (Key.get_eq_some.2 ⟨expiry, hkey, hle'⟩)
      exact (hs token b hb.1).overdue (h token expiry b hkey hb hle hlt)
    · exact hw token b hb hown

theorem acquire_inv {token : ℕ} (hstep : step T w (.acquire token) = some w') :
    w' = w ∨ ∃ key, w.key.setNX w.now token T.lockMs = some key ∧
      w' = { w with key, sessions := Function.update w.sessions token .granted } := by
  simp only [step] at hstep
  split at hstep
  · rename_i key _ hset
    exact .inr ⟨key, hset, (Option.some.inj hstep).symm⟩
  · exact .inl (Option.some.inj hstep).symm
  · cases hstep

theorem granted_sessions {token i : ℕ} {b : Holder}
    (hb : Function.update w.sessions token .granted i = .beating b) :
    i ≠ token ∧ w.sessions i = .beating b := by
  by_cases hi : i = token
  · subst hi
    simp at hb
  · rw [Function.update_of_ne hi] at hb
    exact ⟨hi, hb⟩

theorem Sound.acquire {token : ℕ} (hw : w.Sound T)
    (hstep : step T w (.acquire token) = some w') : w'.Sound T := by
  rcases acquire_inv hstep with rfl | ⟨key, hset, rfl⟩
  · exact hw
  · obtain ⟨-, hown⟩ := Key.get_of_setNX hset
    intro i b hb
    obtain ⟨hi, hb⟩ := granted_sessions hb
    have hs := hw i b hb
    have hgone : ¬ Key.get key w.now = some i := by
      rw [hown]
      simpa using fun h => hi h.symm
    exact ⟨hs.overdue, fun _ => .inr hgone, fun _ => hgone⟩

theorem LossNoticed.acquire {token : ℕ} (hw : w.LossNoticed)
    (hstep : step T w (.acquire token) = some w') : w'.LossNoticed := by
  rcases acquire_inv hstep with rfl | ⟨key, hset, rfl⟩
  · exact hw
  · obtain ⟨hfree, -⟩ := Key.get_of_setNX hset
    rintro i b ⟨hb, hopen⟩ -
    obtain ⟨-, hb⟩ := granted_sessions hb
    refine hw i b ⟨hb, hopen⟩ fun hown => ?_
    have hnone : (none : Option ℕ) = some i := hfree.symm.trans hown
    cases hnone

theorem start_inv {token : ℕ} (hstep : step T w (.start token) = some w') :
    w' = w.put token (Holder.started T w.now) := by
  simp only [step] at hstep
  split at hstep
  · exact (Option.some.inj hstep).symm
  · cases hstep

theorem Sound.start {token : ℕ} (hw : w.Sound T) (hstep : step T w (.start token) = some w') :
    w'.Sound T := by
  obtain rfl := start_inv hstep
  intro i b hb
  rcases put_sessions hb with ⟨rfl, rfl⟩ | ⟨hi, hb⟩
  · constructor
    · rintro ⟨t, ht, -⟩
      cases ht
    · intro hl
      cases hl
    · intro hf
      cases hf
  · exact hw i b hb

theorem lossNoticed_start {token : ℕ} (hw : w.LossNoticed)
    (hstep : step T w (.start token) = some w') : w'.LossNoticed ↔ InTime T w (.start token) := by
  obtain rfl := start_inv hstep
  constructor
  · intro h
    by_contra hgone
    have hlost := h token _ ⟨Function.update_self .., rfl⟩ hgone
    cases hlost
  · rintro hown i b ⟨hb, hopen⟩ hgone
    rcases put_sessions hb with ⟨rfl, rfl⟩ | ⟨hi, hb⟩
    · exact absurd hown hgone
    · exact hw i b ⟨hb, hopen⟩ hgone

theorem sound_init : World.init.Sound T := fun _ _ hb => by cases hb

theorem lossNoticed_init : World.init.LossNoticed := by
  rintro i b ⟨hb, -⟩
  cases hb

theorem Sound.step {e : Event} (hw : w.Sound T) (hstep : step T w e = some w') :
    w'.Sound T := by
  cases e with
  | pass ms =>
    obtain rfl := Option.some.inj hstep
    exact hw.pass ms
  | acquire token => exact hw.acquire hstep
  | start token => exact hw.start hstep
  | tick token => exact hw.beat (fun _ _ _ => Holder.keeps_tick) hstep
  | serve token => exact hw.beat (fun _ _ _ => Holder.keeps_serve) hstep
  | reply token => exact hw.beat (fun _ _ _ => Holder.keeps_reply) hstep
  | fail token => exact hw.beat (fun _ _ _ => Holder.keeps_fail) hstep
  | stray token => exact hw.beat (fun _ _ _ => Holder.keeps_stray) hstep
  | stop token => exact hw.beat (fun _ _ _ => Holder.keeps_stop) hstep
  | release token => exact hw.beat (fun _ _ _ => Holder.keeps_release) hstep

/-- One event leaves every loss noticed just when it comes in time. -/
theorem lossNoticed_step {e : Event} (hs : w.Sound T) (hw : w.LossNoticed)
    (hstep : Locks.step T w e = some w') : w'.LossNoticed ↔ InTime T w e := by
  cases e with
  | pass ms =>
    obtain rfl := Option.some.inj hstep
    exact lossNoticed_pass hs hw ms
  | start token => exact lossNoticed_start hw hstep
  | acquire token => exact iff_of_true (hw.acquire hstep) trivial
  | tick token =>
    exact iff_of_true (hw.beat (fun _ _ _ => Holder.keeps_tick (T := T)) hstep) trivial
  | serve token => exact iff_of_true (hw.beat (fun _ _ _ => Holder.keeps_serve) hstep) trivial
  | reply token =>
    exact iff_of_true (hw.beat (fun _ _ _ => Holder.keeps_reply (T := T)) hstep) trivial
  | fail token =>
    exact iff_of_true (hw.beat (fun _ _ _ => Holder.keeps_fail (T := T)) hstep) trivial
  | stray token => exact iff_of_true (hw.beat (fun _ _ _ => Holder.keeps_stray) hstep) trivial
  | stop token =>
    exact iff_of_true (hw.beat (fun _ _ _ => Holder.keeps_stop (T := T)) hstep) trivial
  | release token =>
    exact iff_of_true (hw.beat (fun _ _ _ => Holder.keeps_release (T := T)) hstep) trivial

end World

end

/-- Every loss is noticed by the time the key is gone, and nobody else believes to hold the
lock, throughout a run just when all of its events come in time. -/
theorem loss_noticed_iff (es : List Event) :
    Steps.Throughout (step T) (fun w => w.LossNoticed ∧ w.OneHolder) World.init es ↔
      Steps.Along (step T) (InTime T) World.init es := by
  refine Steps.throughout_iff_along es World.sound_init
    ⟨World.lossNoticed_init, World.lossNoticed_init.oneHolder⟩
    (fun w e w' hs hstep => hs.step hstep) fun w e w' hs hw hstep => ?_
  rw [← World.lossNoticed_step hs hw.1 hstep]
  exact ⟨And.left, fun h => ⟨h, h.oneHolder⟩⟩

/-! ### A loss that comes unnoticed -/

/-- `SET` is answered after 100 ms, two renewals fail, and the key expires 99 ms before the
third tick; another worker takes it. -/
def lateReply : List Event :=
  [.acquire 0, .pass 100, .start 0, .pass 40000, .tick 0, .fail 0, .pass 40000, .tick 0, .fail 0,
    .pass 39901, .acquire 1, .start 1]

def Session.believes : Session → Bool
  | .beating h => !h.closed && !h.lost
  | _ => false

theorem believes_of {w : World} {token : ℕ} (h : (w.sessions token).believes = true) :
    w.Believes token := by
  cases hs : w.sessions token with
  | beating b =>
    simp only [hs, Session.believes, Bool.and_eq_true, Bool.not_eq_true'] at h
    exact ⟨b, ⟨hs, h.1⟩, h.2⟩
  | unused => simp [hs, Session.believes] at h
  | granted => simp [hs, Session.believes] at h

theorem loss_unnoticed : ¬ ∀ (T : Ttl) (es : List Event),
    Steps.Throughout (step T) (fun w => w.LossNoticed ∧ w.OneHolder) World.init es := by
  intro h
  have hboth : ∃ w, Steps.run (step {}) World.init lateReply = some w ∧
      (w.sessions 0).believes = true ∧ (w.sessions 1).believes = true := ⟨_, rfl, rfl, rfl⟩
  obtain ⟨w, hrun, h0, h1⟩ := hboth
  have hone := ((h {} lateReply).last hrun).2
  have h01 := hone 0 1 (believes_of h0) (believes_of h1)
  cases h01

end CatalogSentinel.Distrokid.Locks
