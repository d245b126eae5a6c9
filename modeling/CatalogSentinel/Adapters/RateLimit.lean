import Mathlib.Algebra.Order.Field.Basic
import Mathlib.Data.Rat.Floor
import Mathlib.Tactic.Linarith
import Mathlib.Tactic.Positivity

/-!
The token bucket that every adapter is gated through. It is filled when it is asked, for the time that
has gone by, and never above its burst. What it holds together with what flows in until some moment
bounds what it can grant until then.
-/

namespace CatalogSentinel.Adapters.RateLimit

structure RateLimiter where
  ratePerMinute : ℚ
  burst : ℚ
  tokens : ℚ
  lastRefill : ℚ
  deriving DecidableEq, Repr

/-- `new RateLimiter(ratePerMinute, burst)` at `now` -/
def RateLimiter.create (ratePerMinute burst now : ℚ) : RateLimiter := ⟨ratePerMinute, burst, burst, now⟩

namespace RateLimiter

variable (l : RateLimiter) (now cost : ℚ)

def refill : RateLimiter :=
  let elapsedMin := (now - l.lastRefill) / 60000
  if elapsedMin ≤ 0 then l
  else { l with tokens := min l.burst (l.tokens + elapsedMin * l.ratePerMinute), lastRefill := now }

def tryRemove : RateLimiter × Bool :=
  let l := l.refill now
  if l.tokens ≥ cost then ({ l with tokens := l.tokens - cost }, true) else (l, false)

def msUntilAvailable : RateLimiter × ℤ :=
  let l := l.refill now
  if l.tokens ≥ cost then (l, 0) else (l, ⌈(cost - l.tokens) / l.ratePerMinute * 60000⌉)

def available : RateLimiter × ℚ := (l.refill now, (l.refill now).tokens)

end RateLimiter

inductive Call
  | tryRemove (cost : ℚ)
  | msUntilAvailable (cost : ℚ)
  | available
  deriving DecidableEq, Repr

/-- The limiter after a call, and the cost that the call was granted. -/
def RateLimiter.perform (l : RateLimiter) (now : ℚ) : Call → RateLimiter × ℚ
  | .tryRemove cost => ((l.tryRemove now cost).1, if (l.tryRemove now cost).2 then cost else 0)
  | .msUntilAvailable cost => ((l.msUntilAvailable now cost).1, 0)
  | .available => ((l.available now).1, 0)

/-- Calls with what the clock reads in them. -/
def RateLimiter.run (l : RateLimiter) (calls : List (ℚ × Call)) : RateLimiter :=
  calls.foldl (fun l call => (l.perform call.1 call.2).1) l

/-- The cost that is granted between two moments. -/
def RateLimiter.granted (start stop : ℚ) : RateLimiter → List (ℚ × Call) → ℚ
  | _, [] => 0
  | l, (now, call) :: calls =>
    (if start ≤ now ∧ now ≤ stop then (l.perform now call).2 else 0) +
      granted start stop (l.perform now call).1 calls

/-- The clock does not go back, from the moment at which the limiter was made. -/
def ClockRuns (t : ℚ) (calls : List (ℚ × Call)) : Prop := (t :: calls.map Prod.fst).Pairwise (· ≤ ·)

/-- Whenever the wait is over, the cost is granted. -/
def KeepsPromise (l : RateLimiter) (now cost : ℚ) : Prop :=
  ∀ later, now + (l.msUntilAvailable now cost).2 ≤ later →
    ((l.msUntilAvailable now cost).1.tryRemove later cost).2 = true

variable {l : RateLimiter} {now cost t start stop : ℚ} {calls : List (ℚ × Call)}

theorem clockRuns_cons {call : Call} :
    ClockRuns t ((now, call) :: calls) ↔ t ≤ now ∧ ClockRuns t calls ∧ ClockRuns now calls := by
  simp only [ClockRuns, List.map_cons, List.pairwise_cons, List.mem_cons, forall_eq_or_imp]
  tauto

/-! ### Filling -/

/-- A limiter of positive numbers that is not ahead of the clock. -/
structure RateLimiter.Sound (l : RateLimiter) (now : ℚ) : Prop where
  rate : 0 < l.ratePerMinute
  burst : 0 < l.burst
  tokens : 0 ≤ l.tokens
  lastRefill : l.lastRefill ≤ now

theorem refill_of_le (h : now ≤ l.lastRefill) : l.refill now = l := by
  rw [RateLimiter.refill, if_pos]
  exact div_nonpos_of_nonpos_of_nonneg (by linarith) (by norm_num)

theorem refill_of_lt (h : l.lastRefill < now) : l.refill now =
    { l with
      tokens := min l.burst (l.tokens + (now - l.lastRefill) / 60000 * l.ratePerMinute)
      lastRefill := now } := by
  have hpos : 0 < (now - l.lastRefill) / 60000 := by
    apply div_pos <;> linarith
  rw [RateLimiter.refill, if_neg (by linarith)]

@[simp] theorem refill_ratePerMinute : (l.refill now).ratePerMinute = l.ratePerMinute := by
  unfold RateLimiter.refill
  dsimp only
  split <;> rfl

@[simp] theorem refill_burst : (l.refill now).burst = l.burst := by
  unfold RateLimiter.refill
  dsimp only
  split <;> rfl

theorem refill_lastRefill (h : l.lastRefill ≤ now) : (l.refill now).lastRefill = now := by
  rcases h.lt_or_eq with hlt | heq
  · rw [refill_of_lt hlt]
  · rw [refill_of_le heq.ge, heq]

theorem refill_refill (h : l.lastRefill ≤ now) : (l.refill now).refill now = l.refill now :=
  refill_of_le (refill_lastRefill h).ge

theorem sound_refill (h : l.Sound now) : (l.refill now).Sound now := by
  refine ⟨by simp [h.rate], by simp [h.burst], ?_, (refill_lastRefill h.lastRefill).le⟩
  rcases h.lastRefill.lt_or_eq with hlt | heq
  · have hin : 0 ≤ (now - l.lastRefill) / 60000 * l.ratePerMinute :=
      mul_nonneg (div_nonneg (by linarith) (by norm_num)) h.rate.le
    rw [refill_of_lt hlt]
    exact le_min h.burst.le (by linarith [h.tokens])
  · rw [refill_of_le heq.ge]
    exact h.tokens

/-- What the limiter holds and what flows in until then. -/
def RateLimiter.supply (l : RateLimiter) (stop : ℚ) : ℚ :=
  l.tokens + (stop - l.lastRefill) / 60000 * l.ratePerMinute

theorem supply_refill_le (h : l.lastRefill ≤ now) : (l.refill now).supply stop ≤ l.supply stop := by
  rcases h.lt_or_eq with hlt | heq
  · have hmin := min_le_right l.burst (l.tokens + (now - l.lastRefill) / 60000 * l.ratePerMinute)
    have hsum : (now - l.lastRefill) / 60000 * l.ratePerMinute + (stop - now) / 60000 * l.ratePerMinute =
        (stop - l.lastRefill) / 60000 * l.ratePerMinute := by ring
    rw [refill_of_lt hlt]
    simp only [RateLimiter.supply]
    linarith
  · rw [refill_of_le heq.ge]

/-- A call takes what it grants from a limiter that holds as much. -/
theorem perform_eq (h : l.Sound now) (call : Call) : ∃ cost, cost ≤ (l.refill now).tokens ∧
    l.perform now call = ({ l.refill now with tokens := (l.refill now).tokens - cost }, cost) := by
  have htokens := (sound_refill h).tokens
  cases call with
  | tryRemove cost =>
    by_cases hcost : (l.refill now).tokens ≥ cost
    · exact ⟨cost, hcost, by simp [RateLimiter.perform, RateLimiter.tryRemove, hcost]⟩
    · exact ⟨0, htokens, by simp only [RateLimiter.perform, RateLimiter.tryRemove, if_neg hcost, sub_zero]; rfl⟩
  | msUntilAvailable cost =>
    refine ⟨0, htokens, ?_⟩
    simp only [RateLimiter.perform, RateLimiter.msUntilAvailable, sub_zero]
    split <;> rfl
  | available => exact ⟨0, htokens, by simp only [RateLimiter.perform, RateLimiter.available, sub_zero]⟩

theorem sound_perform (h : l.Sound now) (call : Call) : (l.perform now call).1.Sound now := by
  obtain ⟨cost, hcost, hperform⟩ := perform_eq h call
  have hrefill := sound_refill h
  rw [hperform]
  exact ⟨hrefill.rate, hrefill.burst, by simpa using hcost, hrefill.lastRefill⟩

theorem RateLimiter.Sound.later (h : l.Sound t) (hle : t ≤ now) : l.Sound now :=
  ⟨h.rate, h.burst, h.tokens, h.lastRefill.trans hle⟩

theorem sound_create {ratePerMinute burst : ℚ} (hrate : 0 < ratePerMinute) (hburst : 0 < burst) (t : ℚ) :
    (RateLimiter.create ratePerMinute burst t).Sound t := ⟨hrate, hburst, hburst.le, le_refl t⟩

/-- A run keeps the limiter sound, and its burst. -/
theorem sound_run (h : l.Sound t) (hclock : ClockRuns t calls) (hnow : ∀ call ∈ calls, call.1 ≤ now) (hle : t ≤ now) :
    (l.run calls).Sound now ∧ (l.run calls).burst = l.burst := by
  induction calls generalizing l t with
  | nil => exact ⟨h.later hle, rfl⟩
  | cons call calls ih =>
    obtain ⟨htime, -, hrest⟩ := clockRuns_cons.1 hclock
    have hperform := sound_perform (h.later htime) call.2
    obtain ⟨cost, -, heq⟩ := perform_eq (h.later htime) call.2
    have hburst : (l.perform call.1 call.2).1.burst = l.burst := by simp [heq]
    rw [← hburst]
    exact ih hperform hrest (fun c hc => hnow c (List.mem_cons_of_mem _ hc)) (hnow call List.mem_cons_self)

/-! ### What a window is granted -/

theorem granted_after (h : ∀ call ∈ calls, stop < call.1) (l : RateLimiter) : l.granted start stop calls = 0 := by
  induction calls generalizing l with
  | nil => rfl
  | cons call calls ih =>
    have hcall := h call List.mem_cons_self
    rw [RateLimiter.granted, if_neg (by intro hin; linarith [hin.2]),
      ih (fun c hc => h c (List.mem_cons_of_mem _ hc)), add_zero]

theorem supply_nonneg (h : l.Sound now) (hstop : now ≤ stop) : 0 ≤ l.supply stop := by
  have hin : 0 ≤ (stop - l.lastRefill) / 60000 * l.ratePerMinute :=
    mul_nonneg (div_nonneg (by linarith [h.lastRefill]) (by norm_num)) h.rate.le
  exact add_nonneg h.tokens hin

/-- Nothing is granted until then that is not in the supply. -/
theorem granted_le_supply (h : l.Sound t) (hclock : ClockRuns t calls) (hstart : start ≤ t) (hstop : t ≤ stop) :
    l.granted start stop calls ≤ l.supply stop := by
  induction calls generalizing l t with
  | nil => exact supply_nonneg h hstop
  | cons call calls ih =>
    obtain ⟨now, call⟩ := call
    obtain ⟨htime, -, hrest⟩ := clockRuns_cons.1 hclock
    rcases le_or_gt now stop with hin | hout
    · have hnow := h.later htime
      obtain ⟨cost, -, hperform⟩ := perform_eq hnow call
      have hih := ih (sound_perform hnow call) hrest (hstart.trans htime) hin
      have hsupply : (l.refill now).supply stop ≤ l.supply stop := supply_refill_le hnow.lastRefill
      have htaken : (l.perform now call).1.supply stop = (l.refill now).supply stop - cost := by
        simp only [hperform, RateLimiter.supply]
        ring
      rw [RateLimiter.granted, if_pos ⟨hstart.trans htime, hin⟩]
      have hcost : (l.perform now call).2 = cost := by rw [hperform]
      linarith
    · have hafter : ∀ c ∈ (now, call) :: calls, stop < c.1 := by
        intro c hc
        rcases List.mem_cons.1 hc with rfl | hc
        · exact hout
        · have hsorted := List.rel_of_pairwise_cons hrest (List.mem_map_of_mem hc)
          linarith
      rw [granted_after hafter]
      exact supply_nonneg h hstop

/-- Before the window begins, the bucket has been filled before it, or is no fuller than its burst. -/
structure RateLimiter.Before (l : RateLimiter) (t start : ℚ) : Prop extends l.Sound t where
  full : l.lastRefill < start ∨ l.tokens ≤ l.burst

theorem supply_refill_le_window (h : l.Before now start) (hstart : start ≤ now) :
    (l.refill now).supply stop ≤ l.burst + (stop - start) / 60000 * l.ratePerMinute := by
  have hinflow : (stop - now) / 60000 * l.ratePerMinute ≤ (stop - start) / 60000 * l.ratePerMinute := by
    apply mul_le_mul_of_nonneg_right _ h.rate.le
    apply div_le_div_of_nonneg_right _ (by norm_num)
    linarith
  rcases h.lastRefill.lt_or_eq with hlt | heq
  · have hmin := min_le_left l.burst (l.tokens + (now - l.lastRefill) / 60000 * l.ratePerMinute)
    rw [refill_of_lt hlt]
    simp only [RateLimiter.supply]
    linarith
  · have hfull : l.tokens ≤ l.burst := h.full.resolve_left (by linarith)
    rw [refill_of_le heq.ge]
    simp only [RateLimiter.supply, heq]
    linarith

theorem perform_refill (h : l.lastRefill ≤ now) (call : Call) :
    (l.refill now).perform now call = l.perform now call := by
  have hrefill := refill_refill h
  cases call with
  | tryRemove cost =>
    have htry : (l.refill now).tryRemove now cost = l.tryRemove now cost := by
      unfold RateLimiter.tryRemove
      rw [hrefill]
    rw [RateLimiter.perform, RateLimiter.perform, htry]
  | msUntilAvailable cost => simp only [RateLimiter.perform, RateLimiter.msUntilAvailable, hrefill]
  | available => simp only [RateLimiter.perform, RateLimiter.available, hrefill]

/-- A window is granted what a full bucket holds and what flows in meanwhile. -/
theorem granted_le_window (h : l.Before t start) (hclock : ClockRuns t calls) (hwindow : start ≤ stop) :
    l.granted start stop calls ≤ l.burst + (stop - start) / 60000 * l.ratePerMinute := by
  have hnonneg : 0 ≤ (stop - start) / 60000 * l.ratePerMinute :=
    mul_nonneg (div_nonneg (by linarith) (by norm_num)) h.rate.le
  induction calls generalizing l t with
  | nil => exact add_nonneg h.burst.le hnonneg
  | cons call calls ih =>
    obtain ⟨now, call⟩ := call
    obtain ⟨htime, -, hrest⟩ := clockRuns_cons.1 hclock
    have hnow : l.Sound now := h.toSound.later htime
    obtain ⟨cost, -, hperform⟩ := perform_eq hnow call
    rcases lt_or_ge now start with hearly | hin
    · -- a call before the window leaves the bucket filled before it
      have hbefore : (l.perform now call).1.Before now start := by
        refine ⟨sound_perform hnow call, .inl ?_⟩
        rw [hperform]
        exact (refill_lastRefill hnow.lastRefill).trans_lt hearly
      have hrate : (l.perform now call).1.ratePerMinute = l.ratePerMinute := by simp [hperform]
      have hburst : (l.perform now call).1.burst = l.burst := by simp [hperform]
      have hih := ih hbefore hrest (by rw [hrate]; exact hnonneg)
      rw [RateLimiter.granted, if_neg (by intro hin; linarith [hin.1]), zero_add]
      rwa [hrate, hburst] at hih
    · rcases le_or_gt now stop with hin' | hout
      · have hfilled : (l.refill now).granted start stop ((now, call) :: calls) =
            l.granted start stop ((now, call) :: calls) := by
          simp only [RateLimiter.granted, perform_refill hnow.lastRefill]
        have hclock' : ClockRuns now ((now, call) :: calls) :=
          clockRuns_cons.2 ⟨le_refl now, hrest, hrest⟩
        rw [← hfilled]
        exact (granted_le_supply (sound_refill hnow) hclock' hin hin').trans
          (supply_refill_le_window ⟨hnow, h.full⟩ hin)
      · have hafter : ∀ c ∈ (now, call) :: calls, stop < c.1 := by
          intro c hc
          rcases List.mem_cons.1 hc with rfl | hc
          · exact hout
          · have hsorted := List.rel_of_pairwise_cons hrest (List.mem_map_of_mem hc)
            linarith
        rw [granted_after hafter]
        exact add_nonneg h.burst.le hnonneg

/-! ### The wait -/

theorem tryRemove_snd : (l.tryRemove now cost).2 = true ↔ cost ≤ (l.refill now).tokens := by
  unfold RateLimiter.tryRemove
  dsimp only
  split <;> simp_all

/-- No more than the burst is there once time has gone by. -/
theorem not_keepsPromise (hcost : l.burst < cost) : ¬ KeepsPromise l now cost := by
  intro h
  have hrefilled : (l.msUntilAvailable now cost).1 = l.refill now := by
    unfold RateLimiter.msUntilAvailable
    dsimp only
    split <;> rfl
  set later := max (now + (l.msUntilAvailable now cost).2) ((l.refill now).lastRefill + 1)
  have hgranted := tryRemove_snd.1 (h later (le_max_left _ _))
  have hlast : (l.refill now).lastRefill < later := by
    have := le_max_right (now + ((l.msUntilAvailable now cost).2 : ℚ)) ((l.refill now).lastRefill + 1)
    linarith
  rw [hrefilled, refill_of_lt hlast] at hgranted
  have hburst : cost ≤ (l.refill now).burst := hgranted.trans (min_le_left _ _)
  rw [refill_burst] at hburst
  linarith

/-- The wait lets in what is missing. -/
theorem keepsPromise_of_le (h : l.Sound now) (hcost : cost ≤ l.burst) : KeepsPromise l now cost := by
  intro later hlater
  have hlast := refill_lastRefill h.lastRefill
  rw [tryRemove_snd]
  unfold RateLimiter.msUntilAvailable at hlater ⊢
  dsimp only at hlater ⊢
  split at hlater
  · rename_i htokens
    rw [if_pos htokens]
    have hin : 0 ≤ (later - (l.refill now).lastRefill) / 60000 * (l.refill now).ratePerMinute := by
      apply mul_nonneg _ (by simpa using h.rate.le)
      apply div_nonneg _ (by norm_num)
      rw [hlast]
      push_cast at hlater
      linarith
    rcases le_or_gt later (l.refill now).lastRefill with hle | hlt
    · rw [refill_of_le hle]
      exact htokens
    · rw [refill_of_lt hlt]
      exact le_min (by simpa using hcost) (by linarith)
  · rename_i htokens
    rw [if_neg htokens]
    have hrate : 0 < (l.refill now).ratePerMinute := by simpa using h.rate
    have hwait := Int.le_ceil ((cost - (l.refill now).tokens) / (l.refill now).ratePerMinute * 60000)
    have hmissing : 0 < (cost - (l.refill now).tokens) / (l.refill now).ratePerMinute * 60000 := by
      have : 0 < cost - (l.refill now).tokens := by linarith
      positivity
    have helapsed : (cost - (l.refill now).tokens) / (l.refill now).ratePerMinute ≤
        (later - (l.refill now).lastRefill) / 60000 := by
      rw [le_div_iff₀ (by norm_num), hlast]
      dsimp only at hlater
      linarith
    have hin : cost - (l.refill now).tokens ≤
        (later - (l.refill now).lastRefill) / 60000 * (l.refill now).ratePerMinute := by
      rwa [← div_le_iff₀ hrate]
    rw [refill_of_lt (by rw [hlast]; linarith)]
    exact le_min (by simpa using hcost) (by linarith)

/-- Over every run, a window is granted no more than the burst and what flows in meanwhile; the promise
of the wait is kept exactly for costs that the bucket can hold. -/
theorem rateLimiter_bounds {ratePerMinute burst : ℚ} (hrate : 0 < ratePerMinute) (hburst : 0 < burst) (t : ℚ)
    (calls : List (ℚ × Call)) (hclock : ClockRuns t calls) :
    (∀ start stop, start ≤ stop → (RateLimiter.create ratePerMinute burst t).granted start stop calls ≤
      burst + ratePerMinute * ((stop - start) / 60000)) ∧
    ∀ now cost, t ≤ now → (∀ call ∈ calls, call.1 ≤ now) →
      (KeepsPromise ((RateLimiter.create ratePerMinute burst t).run calls) now cost ↔ cost ≤ burst) := by
  have hsound : (RateLimiter.create ratePerMinute burst t).Sound t := sound_create hrate hburst t
  constructor
  · intro start stop hwindow
    rw [mul_comm ratePerMinute]
    exact granted_le_window ⟨hsound, .inr (le_refl burst)⟩ hclock hwindow
  · intro now cost hle hnow
    obtain ⟨hrun, hsame⟩ := sound_run hsound hclock hnow hle
    constructor
    · intro hkeeps
      by_contra hcost
      exact not_keepsPromise (by rw [hsame]; exact not_le.1 hcost) hkeeps
    · intro hcost
      exact keepsPromise_of_le hrun (by rw [hsame]; exact hcost)

theorem rateLimiter_bounds_oneASecond :
    (RateLimiter.create 60 1 0).granted 0 1000 [(0, .tryRemove 1), (400, .tryRemove 1), (1000, .tryRemove 1)] ≤
        1 + 60 * ((1000 - 0) / 60000) ∧
      (KeepsPromise ((RateLimiter.create 60 1 0).run
        [(0, .tryRemove 1), (400, .tryRemove 1), (1000, .tryRemove 1)]) 1500 1 ↔ (1 : ℚ) ≤ 1) := by
  have hclock : ClockRuns 0 [(0, .tryRemove 1), (400, .tryRemove 1), (1000, .tryRemove 1)] := by
    norm_num [ClockRuns]
  obtain ⟨hgranted, hpromise⟩ := rateLimiter_bounds (show (0 : ℚ) < 60 by norm_num) (show (0 : ℚ) < 1 by norm_num) 0 _ hclock
  exact ⟨hgranted 0 1000 (by norm_num), hpromise 1500 1 (by norm_num) (by norm_num)⟩

/-- A bucket of one token tells who asks for two of a wait of a second. -/
theorem promise_broken : ((RateLimiter.create 60 1 0).msUntilAvailable 0 2).2 = 1000 ∧
    (((RateLimiter.create 60 1 0).msUntilAvailable 0 2).1.tryRemove 1000 2).2 = false ∧
    ¬ KeepsPromise (RateLimiter.create 60 1 0) 0 2 := by
  refine ⟨by decide +kernel, by decide +kernel, ?_⟩
  exact not_keepsPromise (by norm_num [RateLimiter.create])

end CatalogSentinel.Adapters.RateLimit
