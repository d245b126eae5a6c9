import CatalogSentinel.Distrokid.Recovery

/-!
The deadline that the producer gives a catalogue read: the requested one or the whole budget,
capped by the budget from now and by the session's expiry less the cleanup grace.
-/

namespace CatalogSentinel.Distrokid

open CatalogSentinel.Data

/-- Numbers that are not finite are `none`. -/
structure DistroKidProducerOptions where
  production : Bool
  configured : Option ℚ
  cleanupGraceMs : ℚ
  deriving DecidableEq, Repr

namespace DistroKidProducerOptions

variable (options : DistroKidProducerOptions)

def maxDurationMs : ℤ :=
  match options.configured with
  | some configured => if 0 < configured then ⌊configured⌋ else 600000
  | none => 600000

def graceMs : ℤ := max 1 ⌊options.cleanupGraceMs⌋

end DistroKidProducerOptions

inductive DeadlineError
  | expiryRequired | invalidExpiry | budgetTooShort | invalidDeadline | leaseTooShort | invalidTime
  deriving DecidableEq, Repr

/-- The language says itself why a time has no text. -/
def DeadlineError.message : DeadlineError → Option String
  | expiryRequired => some "production DistroKid jobs require the actual Steel session expiry"
  | invalidExpiry => some "invalid Steel session expiry on DistroKid job"
  | budgetTooShort => some "Steel session does not have the full configured catalogue-read budget remaining"
  | invalidDeadline => some "invalid DistroKid pipeline deadline"
  | leaseTooShort => some "Steel session has too little lease remaining to start a DistroKid catalogue read"
  | invalidTime => none

variable (D : Dates)

/-- A text that is there and not empty. -/
def given (text : Option String) : Option String := text.filter (· ≠ "")

/-- `Math.min` of the deadlines; a session that does not expire bounds nothing. -/
def cappedDeadline (options : DistroKidProducerOptions) (now requested : ℤ) (expiry : Option ℤ) : ℤ :=
  match expiry with
  | none => min requested (now + options.maxDurationMs)
  | some expiry => min (min requested (now + options.maxDurationMs)) (expiry - options.graceMs)

def withDistroKidDeadline (options : DistroKidProducerOptions) (now : ℤ) (job : CatalogIndexJob) :
    Except DeadlineError CatalogIndexJob :=
  let expiry := (given job.sessionExpiresAt).bind D.parse
  if options.production && expiry = none then .error .expiryRequired
  else if (given job.sessionExpiresAt).isSome && expiry = none then .error .invalidExpiry
  -- Only a new scan needs the whole budget.
  else if given job.deadlineAt = none && expiry.any (· - now < options.maxDurationMs + options.graceMs) then
    .error .budgetTooShort
  else
    let requested := match given job.deadlineAt with
      | some deadlineAt => D.parse deadlineAt
      | none => some (now + options.maxDurationMs)
    match requested with
    | none => .error .invalidDeadline
    | some requested =>
      let deadline := cappedDeadline options now requested expiry
      if deadline ≤ now then .error .leaseTooShort
      else match D.toISOString deadline with
        | none => .error .invalidTime
        | some deadlineAt => .ok { job with deadlineAt := some deadlineAt }

variable {D}

/-- A deadline that is given lies ahead, and is one of the times that it may not pass. -/
theorem withDeadline_ok {options : DistroKidProducerOptions} {now : ℤ} {job job' : CatalogIndexJob}
    (h : withDistroKidDeadline D options now job = .ok job') :
    ∃ deadline deadlineAt requested, D.toISOString deadline = some deadlineAt ∧
      job' = { job with deadlineAt := some deadlineAt } ∧ now < deadline ∧
      deadline = cappedDeadline options now requested ((given job.sessionExpiresAt).bind D.parse) ∧
      ∀ text, given job.deadlineAt = some text → D.parse text = some requested := by
  unfold withDistroKidDeadline at h
  dsimp only at h
  split at h
  · cases h
  split at h
  · cases h
  split at h
  · cases h
  split at h
  · cases h
  rename_i requested hrequested
  split at h
  · cases h
  rename_i hlease
  split at h
  · cases h
  rename_i deadlineAt htext
  cases h
  refine ⟨_, deadlineAt, requested, htext, rfl, not_le.1 hlease, rfl, fun text hgiven => ?_⟩
  rw [hgiven] at hrequested
  exact hrequested

theorem capped_le_requested (options : DistroKidProducerOptions) (now requested : ℤ) (expiry : Option ℤ) :
    cappedDeadline options now requested expiry ≤ requested := by
  cases expiry with
  | none => exact min_le_left _ _
  | some expiry => exact (min_le_left _ _).trans (min_le_left _ _)

end CatalogSentinel.Distrokid
