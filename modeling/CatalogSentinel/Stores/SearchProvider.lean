import CatalogSentinel.Concurrent.Steps
import CatalogSentinel.Data.Assoc
import Mathlib.Algebra.Order.Ring.Rat
import Mathlib.Data.Rat.Floor
import Mathlib.Tactic.Linarith

/-!
The search provider that spaces its upstream calls, stops them after repeated failures and
remembers results. Callers reserve a slot, wait for it and then call; the calls succeed or fail
in any order. Clock readings belong to the events and never go back.
-/

namespace CatalogSentinel.Stores.SearchProvider

open Concurrent

variable {β : Type}

structure ResilienceOptions where
  minIntervalMs : ℚ := 1100
  failureThreshold : ℚ := 5
  breakerResetMs : ℚ := 30000
  cacheTtlMs : ℚ := 300000

structure CacheEntry (β : Type) where
  query : String
  cachedAt : ℚ
  results : List β
  deriving DecidableEq

structure ResilientSearchProvider (β : Type) where
  nextAllowedAt : ℚ := 0
  failures : ℕ := 0
  breakerOpenUntil : ℚ := 0
  cache : List (CacheEntry β) := []
  deriving DecidableEq

inductive Breaker
  | closed
  | opened
  | halfOpen
  deriving DecidableEq

variable (o : ResilienceOptions) (p : ResilientSearchProvider β)

namespace ResilientSearchProvider

def breakerState (now : ℚ) : Breaker :=
  if p.breakerOpenUntil = 0 then .closed
  else if now ≥ p.breakerOpenUntil then .halfOpen
  else .opened

/-- The results that are remembered and still fresh. -/
def hit (query : String) (now : ℚ) : Option (List β) :=
  if o.cacheTtlMs > 0 then
    match Data.get? CacheEntry.query query p.cache with
    | some hit => if now - hit.cachedAt < o.cacheTtlMs then some hit.results else none
    | none => none
  else none

def slot (now : ℚ) : ℚ := max now p.nextAllowedAt

/-- A search up to the point where it waits for its slot: it returns at once, or the slot and the
provider are left. The breaker reads the clock again. -/
def reserve (query : String) (now asked : ℚ) : List β ⊕ ℚ × ResilientSearchProvider β :=
  match p.hit o query now with
  | some results => .inl results
  | none =>
    if p.breakerState asked = .opened then .inl []
    else .inr (p.slot now, { p with nextAllowedAt := p.slot now + o.minIntervalMs })

def succeed (query : String) (results : List β) (now : ℚ) : ResilientSearchProvider β :=
  { p with
    failures := 0
    breakerOpenUntil := 0
    cache := if o.cacheTtlMs > 0 then Data.put CacheEntry.query ⟨query, now, results⟩ p.cache else p.cache }

/-- This failure opens the breaker. -/
def Opens : Prop := ((p.failures + 1 : ℕ) : ℚ) ≥ o.failureThreshold

instance : Decidable (p.Opens o) := inferInstanceAs (Decidable (_ ≥ _))

def fail (now : ℚ) : ResilientSearchProvider β :=
  { p with
    failures := p.failures + 1
    breakerOpenUntil := if p.Opens o then now + o.breakerResetMs else p.breakerOpenUntil }

end ResilientSearchProvider

/-- The delay that a timer is set to: whole, and one where it is too short or too long. -/
def timerDelay (wait : ℚ) : ℚ := if wait < 1 ∨ wait > 2147483647 then 1 else (wait.floor : ℚ)

inductive Caller (β : Type)
  | waiting (query : String) (slot due : ℚ)
  | calling (query : String)
  | returned (results : List β)
  deriving DecidableEq

/-- An upstream call: its slot, when it starts, and the reset times of the openings before it. -/
structure UpstreamCall where
  slot : ℚ
  startedAt : ℚ
  resets : List ℚ
  deriving DecidableEq

/-- The provider with its callers, and what has been reserved, started and opened so far. -/
structure System (β : Type) where
  provider : ResilientSearchProvider β
  clock : ℚ
  callers : List (Caller β)
  slots : List ℚ
  calls : List UpstreamCall
  resets : List ℚ
  deriving DecidableEq

inductive Event (β : Type)
  | search (query : String) (now asked begun : ℚ)
  | resume (caller : ℕ) (now : ℚ)
  | succeed (caller : ℕ) (results : List β) (now : ℚ)
  | fail (caller : ℕ) (now : ℚ)

def start (clock : ℚ) : System β :=
  { provider := {}, clock := clock, callers := [], slots := [], calls := [], resets := [] }

def System.call (s : System β) (slot now : ℚ) : System β :=
  { s with clock := now, calls := ⟨slot, now, s.resets⟩ :: s.calls }

def step (s : System β) : Event β → Option (System β)
  | .search query now asked begun =>
    if s.clock ≤ now ∧ now ≤ asked ∧ asked ≤ begun then
      match s.provider.reserve o query now asked with
      | .inl results => some { s with clock := begun, callers := s.callers ++ [.returned results] }
      | .inr (slot, provider) =>
        let reserved := { s with provider := provider, clock := begun, slots := slot :: s.slots }
        if slot - now > 0 then
          some { reserved with
            callers := s.callers ++ [.waiting query slot (begun + timerDelay (slot - now))] }
        else some { reserved.call slot begun with callers := s.callers ++ [.calling query] }
    else none
  | .resume caller now =>
    match s.callers[caller]? with
    | some (.waiting query slot due) =>
      if s.clock ≤ now ∧ due ≤ now then
        some { s.call slot now with callers := s.callers.set caller (.calling query) }
      else none
    | _ => none
  | .succeed caller results now =>
    match s.callers[caller]? with
    | some (.calling query) =>
      if s.clock ≤ now then
        some { s with
          provider := s.provider.succeed o query results now
          clock := now
          callers := s.callers.set caller (.returned results) }
      else none
    | _ => none
  | .fail caller now =>
    match s.callers[caller]? with
    | some (.calling _) =>
      if s.clock ≤ now then
        some { s with
          provider := s.provider.fail o now
          clock := now
          callers := s.callers.set caller (.returned [])
          resets := if s.provider.Opens o then (now + o.breakerResetMs) :: s.resets else s.resets }
      else none
    | _ => none

/-- Slots are apart, no call starts before its slot, and none before an earlier opening is reset. -/
structure KeepsLaw (s : System β) : Prop where
  apart : s.slots.Pairwise fun a b => o.minIntervalMs ≤ |a - b|
  punctual : ∀ c ∈ s.calls, c.slot ≤ c.startedAt
  reset : ∀ c ∈ s.calls, ∀ r ∈ c.resets, r ≤ c.startedAt

/-- The timer of a search that waits is not cut short; no caller goes on to its call and no call
succeeds while the breaker is open; and no reset time reads as a closed breaker ahead of it. -/
def Guarded (s : System β) : Event β → Prop
  | .search query now asked _ => s.provider.hit o query now = none → s.provider.breakerState asked ≠ .opened →
      s.provider.nextAllowedAt - now ≤ timerDelay (s.provider.nextAllowedAt - now)
  | .resume _ now => s.provider.breakerState now ≠ .opened
  | .succeed _ _ now => s.provider.breakerState now ≠ .opened
  | .fail _ now => s.provider.Opens o → now + o.breakerResetMs = 0 → 0 ≤ now

instance (s : System β) : (e : Event β) → Decidable (Guarded o s e)
  | .search query now _ _ =>
    match hhit : s.provider.hit o query now with
    | some _ => .isTrue fun hnone => by simp [hhit] at hnone
    | none => decidable_of_iff (_ → _) ⟨fun h _ => h, fun h => h hhit⟩
  | .resume _ _ | .succeed _ _ _ => inferInstanceAs (Decidable (_ ≠ _))
  | .fail _ _ => inferInstanceAs (Decidable (_ → _ → _))

/-! ### What a step does -/

variable {o} {p} {s s' : System β} {e : Event β}

theorem reserve_eq_inr {query : String} {now asked slot : ℚ} {provider : ResilientSearchProvider β}
    (h : p.reserve o query now asked = .inr (slot, provider)) :
    p.hit o query now = none ∧ p.breakerState asked ≠ .opened ∧ slot = p.slot now ∧
      provider = { p with nextAllowedAt := slot + o.minIntervalMs } := by
  simp only [ResilientSearchProvider.reserve] at h
  split at h
  · cases h
  · next hhit =>
    split at h
    · cases h
    · next hstate =>
      obtain ⟨rfl, rfl⟩ := Prod.mk.inj (Sum.inr.inj h)
      exact ⟨hhit, hstate, rfl, rfl⟩

/-- A step leaves the slots, calls and openings as they are, reserves a slot, starts a call in
its slot, closes the breaker or counts a failure. -/
theorem step_cases (h : step o s e = some s') :
    (∃ query now asked begun callers, e = .search query now asked begun ∧ s.clock ≤ begun ∧
      s' = { s with clock := begun, callers := s.callers ++ [.returned callers] }) ∨
    (∃ query now asked begun, e = .search query now asked begun ∧ s.clock ≤ now ∧ now ≤ begun ∧
      s.provider.hit o query now = none ∧ s.provider.breakerState asked ≠ .opened ∧ asked ≤ begun ∧
      ((0 < s.provider.slot now - now ∧
        s' = { s with
          provider := { s.provider with nextAllowedAt := s.provider.slot now + o.minIntervalMs }
          clock := begun
          slots := s.provider.slot now :: s.slots
          callers := s.callers ++
            [.waiting query (s.provider.slot now) (begun + timerDelay (s.provider.slot now - now))] }) ∨
       (s.provider.slot now ≤ now ∧
        s' = { s.call (s.provider.slot now) begun with
          provider := { s.provider with nextAllowedAt := s.provider.slot now + o.minIntervalMs }
          slots := s.provider.slot now :: s.slots
          callers := s.callers ++ [.calling query] }))) ∨
    (∃ caller now query slot due, e = .resume caller now ∧ s.clock ≤ now ∧ due ≤ now ∧
      s.callers[caller]? = some (.waiting query slot due) ∧
      s' = { s.call slot now with callers := s.callers.set caller (.calling query) }) ∨
    (∃ caller results now query, e = .succeed caller results now ∧ s.clock ≤ now ∧
      s' = { s with
        provider := s.provider.succeed o query results now
        clock := now
        callers := s.callers.set caller (.returned results) }) ∨
    (∃ caller now, e = .fail caller now ∧ s.clock ≤ now ∧
      s' = { s with
        provider := s.provider.fail o now
        clock := now
        callers := s.callers.set caller (.returned [])
        resets := if s.provider.Opens o then (now + o.breakerResetMs) :: s.resets else s.resets }) := by
  cases e with
  | search query now asked begun =>
    simp only [step] at h
    split at h
    · next htimes =>
      obtain ⟨hnow, hasked, hbegun⟩ := htimes
      split at h
      · obtain rfl := Option.some.inj h
        exact .inl ⟨query, now, asked, begun, _, rfl, by linarith, rfl⟩
      · next hreserve =>
        obtain ⟨hhit, hstate, rfl, rfl⟩ := reserve_eq_inr hreserve
        refine .inr (.inl ⟨query, now, asked, begun, rfl, hnow, by linarith, hhit, hstate, hbegun, ?_⟩)
        split at h
        · next hwait => exact .inl ⟨hwait, (Option.some.inj h).symm⟩
        · next hwait => exact .inr ⟨by linarith, (Option.some.inj h).symm⟩
    · cases h
  | resume caller now =>
    simp only [step] at h
    split at h
    · next query slot due hcaller =>
      split at h
      · next htimes =>
        exact .inr (.inr (.inl ⟨caller, now, query, slot, due, rfl, htimes.1, htimes.2, hcaller,
          (Option.some.inj h).symm⟩))
      · cases h
    · cases h
  | succeed caller results now =>
    simp only [step] at h
    split at h
    · next query _ =>
      split at h
      · next hclock =>
        exact .inr (.inr (.inr (.inl ⟨caller, results, now, query, rfl, hclock, (Option.some.inj h).symm⟩)))
      · cases h
    · cases h
  | fail caller now =>
    simp only [step] at h
    split at h
    · split at h
      · next hclock =>
        exact .inr (.inr (.inr (.inr ⟨caller, now, rfl, hclock, (Option.some.inj h).symm⟩)))
      · cases h
    · cases h

/-! ### Slots -/

/-- Slots are apart, and the next one keeps its distance from all of them. -/
structure Spaced (o : ResilienceOptions) (s : System β) : Prop where
  apart : s.slots.Pairwise fun a b => o.minIntervalMs ≤ |a - b|
  next : 0 ≤ o.minIntervalMs → ∀ a ∈ s.slots, a + o.minIntervalMs ≤ s.provider.nextAllowedAt

theorem spaced_start (clock : ℚ) : Spaced o (start clock : System β) :=
  ⟨List.Pairwise.nil, fun _ _ ha => absurd ha List.not_mem_nil⟩

/-- A slot that is reserved keeps its distance from those before it. -/
theorem Spaced.slot (h : Spaced o s) (now : ℚ) {a : ℚ} (ha : a ∈ s.slots) :
    o.minIntervalMs ≤ |s.provider.slot now - a| := by
  rcases le_or_gt 0 o.minIntervalMs with hpos | hneg
  · have hnext := h.next hpos a ha
    have hslot : s.provider.nextAllowedAt ≤ s.provider.slot now := le_max_right _ _
    have habs := le_abs_self (s.provider.slot now - a)
    linarith
  · exact hneg.le.trans (abs_nonneg _)

theorem Spaced.reserve (h : Spaced o s) (now : ℚ) {t : System β}
    (hprovider : t.provider.nextAllowedAt = s.provider.slot now + o.minIntervalMs)
    (hslots : t.slots = s.provider.slot now :: s.slots) : Spaced o t where
  apart := by
    rw [hslots]
    exact List.pairwise_cons.2 ⟨fun a ha => h.slot now ha, h.apart⟩
  next := by
    intro hpos a ha
    rw [hslots] at ha
    rw [hprovider]
    have hslot : s.provider.nextAllowedAt ≤ s.provider.slot now := le_max_right _ _
    rcases List.mem_cons.1 ha with rfl | ha
    · exact le_rfl
    · have := h.next hpos a ha
      linarith

theorem Spaced.step (h : Spaced o s) (hstep : SearchProvider.step o s e = some s') : Spaced o s' := by
  obtain ⟨_, _, _, _, _, -, -, rfl⟩ | ⟨_, now, _, _, -, -, -, -, -, -, ⟨-, rfl⟩ | ⟨-, rfl⟩⟩ |
    ⟨_, _, _, _, _, -, -, -, -, rfl⟩ | ⟨_, _, _, _, -, -, rfl⟩ | ⟨_, _, -, -, rfl⟩ := step_cases hstep
  · exact ⟨h.apart, h.next⟩
  · exact h.reserve now rfl rfl
  · exact h.reserve now rfl rfl
  · exact ⟨h.apart, h.next⟩
  · exact ⟨h.apart, h.next⟩
  · exact ⟨h.apart, h.next⟩

/-! ### The breaker -/

/-- Callers wait out their slots, and an opening that lies ahead keeps the breaker open. -/
structure Timely (o : ResilienceOptions) (s : System β) : Prop where
  punctual : ∀ c ∈ s.calls, c.slot ≤ c.startedAt
  reset : ∀ c ∈ s.calls, ∀ r ∈ c.resets, r ≤ c.startedAt
  due : ∀ query slot due, .waiting query slot due ∈ s.callers → slot ≤ due
  ahead : ∀ r ∈ s.resets, r ≤ s.clock + o.breakerResetMs
  opened : ∀ r ∈ s.resets, r ≤ s.clock ∨ s.provider.breakerOpenUntil ≠ 0 ∧ r ≤ s.provider.breakerOpenUntil

theorem timely_start (clock : ℚ) : Timely o (start clock : System β) := by
  constructor <;> simp [start]

/-- Where the breaker is not open, no opening lies ahead. -/
theorem Timely.resets_le (h : Timely o s) {asked now : ℚ} (hclock : s.clock ≤ now) (hasked : asked ≤ now)
    (hstate : s.provider.breakerState asked ≠ .opened) : ∀ r ∈ s.resets, r ≤ now := by
  intro r hr
  obtain hpast | ⟨hne, hle⟩ := h.opened r hr
  · exact hpast.trans hclock
  · simp only [ResilientSearchProvider.breakerState, hne, if_false] at hstate
    split at hstate
    · next hreached => exact hle.trans (hreached.trans hasked)
    · exact absurd rfl hstate

/-- A call that starts in its slot while the breaker is not open keeps the law. -/
theorem Timely.call (h : Timely o s) {slot now : ℚ} {callers : List (Caller β)}
    {provider : ResilientSearchProvider β} {slots : List ℚ} (hclock : s.clock ≤ now) (hslot : slot ≤ now)
    (hresets : ∀ r ∈ s.resets, r ≤ now)
    (hdue : ∀ query slot due, .waiting query slot due ∈ callers → .waiting query slot due ∈ s.callers) :
    Timely o { s.call slot now with provider := provider, slots := slots, callers := callers } where
  punctual := by
    intro c hc
    rcases List.mem_cons.1 hc with rfl | hc
    · exact hslot
    · exact h.punctual c hc
  reset := by
    intro c hc
    rcases List.mem_cons.1 hc with rfl | hc
    · exact hresets
    · exact h.reset c hc
  due := fun query slot due hmem => h.due query slot due (hdue query slot due hmem)
  ahead := fun r hr => (h.ahead r hr).trans (by dsimp only [System.call]; linarith)
  opened := fun r hr => .inl (hresets r hr)

theorem mem_set_of_waiting {callers : List (Caller β)} {i : ℕ} {c : Caller β} {query : String} {slot due : ℚ}
    (hc : ∀ query slot due, c ≠ .waiting query slot due) (h : .waiting query slot due ∈ callers.set i c) :
    .waiting query slot due ∈ callers := by
  rcases List.mem_or_eq_of_mem_set h with h | h
  · exact h
  · exact absurd h.symm (hc _ _ _)

theorem mem_append_of_waiting {callers : List (Caller β)} {c : Caller β} {query : String} {slot due : ℚ}
    (hc : ∀ query slot due, c ≠ .waiting query slot due) (h : .waiting query slot due ∈ callers ++ [c]) :
    .waiting query slot due ∈ callers := by
  rcases List.mem_append.1 h with h | h
  · exact h
  · exact absurd (List.mem_singleton.1 h).symm (hc _ _ _)

/-- A timer that is not cut short is due no earlier than the slot. -/
theorem slot_le_due {now begun : ℚ} (hbegun : now ≤ begun)
    (hdelay : s.provider.nextAllowedAt - now ≤ timerDelay (s.provider.nextAllowedAt - now))
    (hwait : 0 < s.provider.slot now - now) :
    s.provider.slot now ≤ begun + timerDelay (s.provider.slot now - now) := by
  have hslot : s.provider.slot now = s.provider.nextAllowedAt := by
    rw [ResilientSearchProvider.slot] at hwait ⊢
    rcases le_total now s.provider.nextAllowedAt with hle | hle
    · exact max_eq_right hle
    · rw [max_eq_left hle, sub_self] at hwait
      exact absurd hwait (lt_irrefl _)
  rw [hslot]
  linarith

/-- A failure that opens the breaker keeps it open up to every earlier reset time. -/
theorem Timely.opened_fail (h : Timely o s) {now : ℚ} (hclock : s.clock ≤ now)
    (hguard : s.provider.Opens o → now + o.breakerResetMs = 0 → 0 ≤ now) :
    ∀ r ∈ (if s.provider.Opens o then (now + o.breakerResetMs) :: s.resets else s.resets),
      r ≤ now ∨ (s.provider.fail o now).breakerOpenUntil ≠ 0 ∧ r ≤ (s.provider.fail o now).breakerOpenUntil := by
  intro r hr
  simp only [ResilientSearchProvider.fail]
  split at hr
  · next hopens =>
    have hle : r ≤ now + o.breakerResetMs := by
      rcases List.mem_cons.1 hr with rfl | hr
      · exact le_rfl
      · exact (h.ahead r hr).trans (by linarith)
    rw [if_pos hopens]
    by_cases hzero : now + o.breakerResetMs = 0
    · have := hguard hopens hzero
      exact .inl (by linarith)
    · exact .inr ⟨hzero, hle⟩
  · next hopens =>
    rw [if_neg hopens]
    exact (h.opened r hr).imp_left fun hpast => hpast.trans hclock

theorem Timely.step (h : Timely o s) (hguard : Guarded o s e) (hstep : SearchProvider.step o s e = some s') :
    Timely o s' := by
  obtain ⟨_, _, _, begun, _, rfl, hclock, rfl⟩ |
    ⟨query, now, asked, begun, rfl, hclock, hbegun, hhit, hstate, hasked, ⟨hwait, rfl⟩ | ⟨hslot, rfl⟩⟩ |
    ⟨_, now, _, _, _, rfl, hclock, hdue, hcaller, rfl⟩ | ⟨_, _, now, _, rfl, hclock, rfl⟩ |
    ⟨_, now, rfl, hclock, rfl⟩ := step_cases hstep
  · refine ⟨h.punctual, h.reset, fun query slot due hmem => ?_, fun r hr => ?_, fun r hr => ?_⟩
    · exact h.due query slot due (mem_append_of_waiting (by simp) hmem)
    · exact (h.ahead r hr).trans (by linarith)
    · exact (h.opened r hr).imp_left fun hle => hle.trans hclock
  · refine ⟨h.punctual, h.reset, fun query' slot due hmem => ?_, fun r hr => ?_, fun r hr => ?_⟩
    · rcases List.mem_append.1 hmem with hmem | hmem
      · exact h.due query' slot due hmem
      · obtain ⟨rfl, rfl, rfl⟩ := Caller.waiting.inj (List.mem_singleton.1 hmem)
        exact slot_le_due hbegun (hguard hhit hstate) hwait
    · exact (h.ahead r hr).trans (by dsimp only; linarith)
    · exact (h.opened r hr).imp_left fun hle => hle.trans (hclock.trans hbegun)
  · exact h.call (hclock.trans hbegun) (hslot.trans hbegun)
      (h.resets_le (hclock.trans hbegun) hasked hstate) fun _ _ _ => mem_append_of_waiting (by simp)
  · exact h.call hclock ((h.due _ _ _ (List.mem_of_getElem? hcaller)).trans hdue)
      (h.resets_le hclock le_rfl hguard) fun _ _ _ => mem_set_of_waiting (by simp)
  · have hresets := h.resets_le hclock le_rfl hguard
    refine ⟨h.punctual, h.reset, fun query slot due hmem => ?_, fun r hr => ?_, fun r hr => .inl (hresets r hr)⟩
    · exact h.due query slot due (mem_set_of_waiting (by simp) hmem)
    · exact (h.ahead r hr).trans (by dsimp only; linarith)
  · refine ⟨h.punctual, h.reset, fun query slot due hmem => ?_, fun r hr => ?_, fun r hr => ?_⟩
    · exact h.due query slot due (mem_set_of_waiting (by simp) hmem)
    · dsimp only at hr ⊢
      split at hr
      · rcases List.mem_cons.1 hr with rfl | hr
        · exact le_rfl
        · exact (h.ahead r hr).trans (by linarith)
      · exact (h.ahead r hr).trans (by linarith)
    · exact h.opened_fail hclock hguard r hr

/-! ### Runs -/

/-- In every run whose steps meet the condition, slots are apart, no call starts before its slot
and none while an earlier opening lies ahead. -/
theorem keepsLaw_of_guarded (o : ResilienceOptions) (clock : ℚ) (events : List (Event β))
    (h : Steps.Along (step o) (Guarded o) (start clock) events) :
    Steps.Throughout (step o) (KeepsLaw o) (start clock) events := by
  have hinv : Steps.Throughout (step o) (fun s => Spaced o s ∧ Timely o s) (start clock) events :=
    Steps.throughout_of_along ⟨spaced_start clock, timely_start clock⟩ h
      fun _ _ _ hs hguard hstep => ⟨hs.1.step hstep, hs.2.step hguard hstep⟩
  exact hinv.mono fun s hs => ⟨hs.1.apart, hs.2.punctual, hs.2.reset⟩

/-- A failure opens the breaker, a search is turned away, and a trial call closes it again. -/
def trialCall : List (Event ℕ) :=
  [.search "a" 0 0 0, .search "b" 0 0 1, .resume 1 1101, .fail 0 1200, .fail 1 1300,
    .search "c" 1400 1400 1400, .search "c" 31300 31300 31301, .succeed 3 [7] 31400, .search "c" 31500 31500 31500]

theorem keepsLaw_trialCall :
    (Steps.run (step { failureThreshold := 1 }) (start 0) trialCall).isSome ∧
      Steps.Throughout (step { failureThreshold := 1 }) (KeepsLaw { failureThreshold := 1 }) (start 0) trialCall :=
  ⟨by decide +kernel, keepsLaw_of_guarded _ 0 trialCall (by decide +kernel)⟩

/-- Six searches at once, of which five fail while the sixth waits for its slot. -/
def sixthCaller : List (Event ℕ) :=
  [.search "a" 0 0 0, .search "b" 0 0 0, .search "c" 0 0 0, .search "d" 0 0 0, .search "e" 0 0 0,
    .search "f" 0 0 0, .fail 0 100, .resume 1 1100, .fail 1 1200, .resume 2 2200, .fail 2 2300,
    .resume 3 3300, .fail 3 3400, .resume 4 4400, .fail 4 4500, .resume 5 5500]

/-- The sixth call starts a second after the breaker has opened for thirty. -/
theorem sixthCaller_starts :
    ¬ Steps.Throughout (step {}) (KeepsLaw {}) (start 0) sixthCaller := by
  have hcalls : (Steps.run (step {}) (start 0) sixthCaller).bind (·.calls.head?) = some ⟨5500, 5500, [34500]⟩ := by
    decide +kernel
  intro h
  obtain ⟨s, hrun, hcall⟩ := Option.bind_eq_some_iff.1 hcalls
  have hreset := (h.last hrun).reset _ (List.mem_of_mem_head? hcall) 34500 List.mem_cons_self
  norm_num at hreset

end CatalogSentinel.Stores.SearchProvider
