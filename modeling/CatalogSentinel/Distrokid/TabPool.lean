import CatalogSentinel.Concurrent.Steps

/-!
A chunk's delivery under the account lock, with the tabs that extract its releases. The
tabs take releases from one queue and are joined by the first failure of any, while the
lock is released as soon as the delivery itself has settled.
-/

namespace CatalogSentinel.Distrokid.TabPool

open CatalogSentinel.Concurrent

/-- The outcomes after which a tab checkpoints. -/
def CHECKPOINT_BATCH : ℕ := 10

/-- The await at which a tab stands. -/
inductive Tab (Ref Outcome : Type)
  | gate (ref : Ref)
  | consenting (ref : Ref)
  | pacing (ref : Ref)
  | gateAgain (ref : Ref)
  | extracting (ref : Ref)
  | fencing (outcome : Outcome)
  | checkpointing (batch : List Outcome)
  | storing (batch : List Outcome)
  | returned
  | failed
  deriving DecidableEq, Repr

/-- The await at which the delivery stands. -/
inductive Stage (Outcome : Type)
  | entering
  | preparing
  | pooling
  | checkpointing (batch : List Outcome)
  | storing (batch : List Outcome)
  | closing (ok : Bool)
  | working
  | settled
  | released
  deriving DecidableEq, Repr

/-- What has been done, for others to see. -/
inductive Deed (Ref Outcome : Type)
  | extracting (ref : Ref)
  | onCheckpoint (batch : List Outcome)
  | stored (batch : List Outcome)
  | released
  deriving DecidableEq, Repr

structure Delivery (Ref Outcome : Type) where
  stage : Stage Outcome
  /-- The signal of the control: the lock was lost, the deadline is over, or the worker stops. -/
  aborted : Bool
  refs : List Ref
  next : ℕ
  tabs : List (Tab Ref Outcome)
  batch : List Outcome
  /-- The last first. -/
  deeds : List (Deed Ref Outcome)
  deriving DecidableEq, Repr

/-- How an await ends. -/
inductive Answer (Outcome : Type)
  | ok
  | outcome (o : Outcome)
  | failed
  deriving DecidableEq, Repr

inductive Event (Ref Outcome : Type)
  | abort
  /-- The tabs are open, and start on the queue. -/
  | opened (refs : List Ref) (concurrency : ℕ)
  /-- There is nothing to extract, or no session to extract it with. -/
  | returned
  | joined
  | delivery (ok : Bool)
  | tab (i : ℕ) (answer : Answer Outcome)
  deriving DecidableEq, Repr

namespace Tab

variable {Ref Outcome : Type}

def isDone : Tab Ref Outcome → Bool
  | .returned | .failed => true
  | _ => false

/-- The tab extracts a release, or calls `onCheckpoint`. -/
def isBusy : Tab Ref Outcome → Bool
  | .extracting _ | .checkpointing _ | .storing _ => true
  | _ => false

end Tab

namespace Delivery

variable {Ref Outcome : Type}

/-- The lock is held. -/
def locked : Delivery Ref Outcome :=
  { stage := .entering, aborted := false, refs := [], next := 0, tabs := [], batch := [], deeds := [] }

/-- `next` is read and incremented with no await between; a tab returns when the queue is empty. -/
def takeNext (d : Delivery Ref Outcome) : Tab Ref Outcome × Delivery Ref Outcome :=
  ((d.refs[d.next]?).elim .returned .gate, { d with next := d.next + 1 })

/-- Each tab runs to its first await, in turn. -/
def start (d : Delivery Ref Outcome) : ℕ → Delivery Ref Outcome
  | 0 => d
  | n + 1 =>
    let (tab, d) := d.takeNext
    { d with tabs := d.tabs ++ [tab] }.start n

/-- `batch.splice(0, batch.length)`, given to `onCheckpoint`. -/
def splice (d : Delivery Ref Outcome) : Delivery Ref Outcome :=
  { d with batch := [], deeds := .onCheckpoint d.batch :: d.deeds }

/-- The first failure of a tab ends the wait for all of them. -/
def reject (d : Delivery Ref Outcome) : Delivery Ref Outcome :=
  match d.stage with
  | .pooling => { d with stage := .closing false }
  | _ => d

/-- The tab goes on to its next await, or does not come to one. -/
def proceed (d : Delivery Ref Outcome) : Tab Ref Outcome → Answer Outcome →
    Option (Tab Ref Outcome × Delivery Ref Outcome)
  | .gate ref, .ok => if d.aborted then none else some (.consenting ref, d)
  | .consenting ref, .ok => some (.pacing ref, d)
  | .pacing ref, .ok => some (.gateAgain ref, d)
  | .gateAgain ref, .ok =>
    if d.aborted then none else some (.extracting ref, { d with deeds := .extracting ref :: d.deeds })
  | .extracting _, .outcome o => some (.fencing o, d)
  | .fencing o, .ok =>
    if d.aborted then none
    else
      let d := { d with batch := d.batch ++ [o] }
      if CHECKPOINT_BATCH ≤ d.batch.length then some (.checkpointing d.batch, d.splice)
      else some d.takeNext
  | .checkpointing batch, .ok => if d.aborted then none else some (.storing batch, d)
  | .storing batch, .ok => some { d with deeds := .stored batch :: d.deeds }.takeNext
  | .returned, _ | .failed, _ => none
  | _, .failed => some (.failed, d.reject)
  | _, _ => none

/-- The delivery goes on to its next await. -/
def goOn (d : Delivery Ref Outcome) (ok : Bool) : Option (Delivery Ref Outcome) :=
  match d.stage, ok with
  | .entering, true => if d.aborted then none else some { d with stage := .preparing }
  | .entering, false | .preparing, false => some { d with stage := .settled }
  | .checkpointing batch, true => if d.aborted then none else some { d with stage := .storing batch }
  | .storing batch, true => some { d with stage := .closing true, deeds := .stored batch :: d.deeds }
  | .checkpointing _, false | .storing _, false => some { d with stage := .closing false }
  | .closing completed, _ => some { d with stage := if completed then .working else .settled }
  | .working, _ => some { d with stage := .settled }
  | .settled, _ => some { d with stage := .released, deeds := .released :: d.deeds }
  | _, _ => none

def step (d : Delivery Ref Outcome) : Event Ref Outcome → Option (Delivery Ref Outcome)
  | .abort => some { d with aborted := true }
  | .opened refs concurrency =>
    match d.stage with
    | .preparing => some ({ d with stage := .pooling, refs := refs }.start concurrency)
    | _ => none
  | .returned =>
    match d.stage with
    | .preparing => some { d with stage := .working }
    | _ => none
  | .joined =>
    match d.stage with
    | .pooling =>
      if d.tabs.all (·.isDone) then
        if d.batch = [] then some { d with stage := .closing true }
        else some { d.splice with stage := .checkpointing d.batch }
      else none
    | _ => none
  | .delivery ok => d.goOn ok
  | .tab i answer => do
    let tab ← d.tabs[i]?
    let (tab, d) ← d.proceed tab answer
    return { d with tabs := d.tabs.set i tab }

/-! ### Quiescence -/

/-- Once the lock is released, no tab extracts or checkpoints, and nothing is done any more. -/
structure Quiescent (d : Delivery Ref Outcome) : Prop where
  tabs : .released ∈ d.deeds → ∀ tab ∈ d.tabs, tab.isBusy = false
  deeds : ∀ newer older, d.deeds = newer ++ .released :: older → newer = []

/-- A tab's work fails only when no other tab is still at work. -/
def FailsLast (d : Delivery Ref Outcome) : Event Ref Outcome → Prop
  | .tab i .failed => ∀ tab ∈ d.tabs.eraseIdx i, tab.isDone = true
  | _ => True

instance (d : Delivery Ref Outcome) : (e : Event Ref Outcome) → Decidable (d.FailsLast e)
  | .tab i .failed => inferInstanceAs (Decidable (∀ tab ∈ d.tabs.eraseIdx i, tab.isDone = true))
  | .tab _ .ok | .tab _ (.outcome _) | .abort | .opened _ _ | .returned | .joined | .delivery _ =>
    inferInstanceAs (Decidable True)

/-- The pool is over. -/
def isJoined : Stage Outcome → Bool
  | .entering | .preparing | .pooling => false
  | _ => true

/-- The delivery has failed, or is past the pool. -/
def isOver : Stage Outcome → Bool
  | .closing false | .working | .settled | .released => true
  | _ => false

/-- The lock is held as long as a tab is at work. -/
structure Inv (d : Delivery Ref Outcome) : Prop where
  opened : d.stage = .entering ∨ d.stage = .preparing → d.tabs = []
  joined : isJoined d.stage = true → ∀ tab ∈ d.tabs, tab.isDone = true
  released : .released ∈ d.deeds → d.stage = .released
  deeds : ∀ newer older, d.deeds = newer ++ .released :: older → newer = []

variable {d d' : Delivery Ref Outcome}

theorem Inv.quiescent (h : Inv d) : Quiescent d := by
  refine ⟨fun hreleased tab htab => ?_, h.deeds⟩
  have hdone : tab.isDone = true := by
    refine h.joined ?_ tab htab
    rw [h.released hreleased]
    rfl
  cases tab with
  | returned => rfl
  | failed => rfl
  | gate _ => rfl
  | consenting _ => rfl
  | pacing _ => rfl
  | gateAgain _ => rfl
  | fencing _ => rfl
  | extracting _ => cases hdone
  | checkpointing _ => cases hdone
  | storing _ => cases hdone

theorem inv_locked : Inv (locked : Delivery Ref Outcome) :=
  ⟨fun _ => rfl, fun _ _ htab => absurd htab List.not_mem_nil, fun h => absurd h List.not_mem_nil,
    fun newer older h => by cases newer <;> cases h⟩

/-- A deed is added while the lock is held. -/
theorem Inv.done (h : Inv d) (hheld : d.stage ≠ .released) {deed : Deed Ref Outcome}
    (hdeed : deed ≠ .released) : ∀ newer older, deed :: d.deeds ≠ newer ++ .released :: older := by
  intro newer older heq
  have hmem : .released ∈ deed :: d.deeds := by
    rw [heq]
    exact List.mem_append_right _ List.mem_cons_self
  rcases List.mem_cons.1 hmem with hhead | htail
  · exact hdeed hhead.symm
  · exact hheld (h.released htail)

/-- The stage changes within the delivery, before its lock is released. -/
theorem Inv.moved (h : Inv d) {stage : Stage Outcome} (hheld : d.stage ≠ .released)
    (hopened : stage = .entering ∨ stage = .preparing → d.tabs = [])
    (hjoined : isJoined stage = true → ∀ tab ∈ d.tabs, tab.isDone = true) : Inv { d with stage } := by
  refine ⟨hopened, hjoined, fun hreleased => ?_, h.deeds⟩
  exact absurd (h.released hreleased) hheld

theorem Inv.noted (h : Inv d) (hheld : d.stage ≠ .released) {deed : Deed Ref Outcome}
    (hdeed : deed ≠ .released) : Inv { d with deeds := deed :: d.deeds } := by
  refine ⟨h.opened, h.joined, fun hreleased => ?_, fun newer older heq => ?_⟩
  · rcases List.mem_cons.1 hreleased with hhead | htail
    · exact absurd hhead.symm hdeed
    · exact h.released htail
  · exact absurd heq (h.done hheld hdeed newer older)

theorem start_eq (d : Delivery Ref Outcome) (n : ℕ) :
    (d.start n).stage = d.stage ∧ (d.start n).deeds = d.deeds := by
  induction n generalizing d with
  | zero => exact ⟨rfl, rfl⟩
  | succ n ih =>
    have hrest := ih { d.takeNext.2 with tabs := d.takeNext.2.tabs ++ [d.takeNext.1] }
    exact hrest

/-- What a tab that is at work can do to the delivery: note deeds, or fail it. -/
theorem proceed_cases {tab tab' : Tab Ref Outcome} {answer : Answer Outcome}
    (h : d.proceed tab answer = some (tab', d')) :
    tab.isDone = false ∧ d'.tabs = d.tabs ∧ d'.refs = d.refs ∧
      (d'.stage = d.stage ∨ answer = .failed ∧ tab' = .failed ∧ d.stage = .pooling ∧ d'.stage = .closing false) ∧
      (d'.deeds = d.deeds ∨ ∃ deed, deed ≠ .released ∧ d'.deeds = deed :: d.deeds) := by
  unfold proceed at h
  split at h
  · obtain ⟨-, h⟩ := Option.ite_none_left_eq_some.1 h
    cases h
    exact ⟨rfl, rfl, rfl, .inl rfl, .inl rfl⟩
  · cases h
    exact ⟨rfl, rfl, rfl, .inl rfl, .inl rfl⟩
  · cases h
    exact ⟨rfl, rfl, rfl, .inl rfl, .inl rfl⟩
  · obtain ⟨-, h⟩ := Option.ite_none_left_eq_some.1 h
    cases h
    exact ⟨rfl, rfl, rfl, .inl rfl, .inr ⟨_, by simp, rfl⟩⟩
  · cases h
    exact ⟨rfl, rfl, rfl, .inl rfl, .inl rfl⟩
  · obtain ⟨-, h⟩ := Option.ite_none_left_eq_some.1 h
    dsimp only at h
    split at h
    · cases h
      exact ⟨rfl, rfl, rfl, .inl rfl, .inr ⟨_, by simp, rfl⟩⟩
    · cases h
      exact ⟨rfl, rfl, rfl, .inl rfl, .inl rfl⟩
  · obtain ⟨-, h⟩ := Option.ite_none_left_eq_some.1 h
    cases h
    exact ⟨rfl, rfl, rfl, .inl rfl, .inl rfl⟩
  · cases h
    exact ⟨rfl, rfl, rfl, .inl rfl, .inr ⟨_, by simp, rfl⟩⟩
  · cases h
  · cases h
  · rename_i hreturned hfailed
    have hwork : tab.isDone = false := by
      cases tab <;> first | rfl | exact absurd rfl hreturned | exact absurd rfl hfailed
    cases h
    unfold reject
    split
    · rename_i hpooling
      exact ⟨hwork, rfl, rfl, .inr ⟨rfl, rfl, hpooling, rfl⟩, .inl rfl⟩
    · exact ⟨hwork, rfl, rfl, .inl rfl, .inl rfl⟩
  · cases h

theorem Inv.tab (h : Inv d) {i : ℕ} {answer : Answer Outcome} (hlast : d.FailsLast (.tab i answer))
    (hstep : d.step (.tab i answer) = some d') : Inv d' := by
  obtain ⟨tab, htab, hstep⟩ := Option.bind_eq_some_iff.1 hstep
  obtain ⟨⟨tab', e⟩, hproceed, hstep⟩ := Option.bind_eq_some_iff.1 hstep
  obtain rfl := Option.some.inj hstep
  obtain ⟨hwork, htabs, -, hstage, hdeeds⟩ := proceed_cases hproceed
  have hmem := List.mem_of_getElem? htab
  have hnotjoined : isJoined d.stage = false := by
    rw [Bool.eq_false_iff]
    intro hjoined
    rw [h.joined hjoined tab hmem] at hwork
    cases hwork
  have hheld : d.stage ≠ .released := by
    intro hreleased
    rw [hreleased] at hnotjoined
    cases hnotjoined
  have hopen : ¬ (d.stage = .entering ∨ d.stage = .preparing) := by
    intro hearly
    rw [h.opened hearly] at hmem
    cases hmem
  have hreleased : .released ∉ d.deeds := fun hdone => hheld (h.released hdone)
  have hnone : .released ∉ e.deeds := by
    rcases hdeeds with heq | ⟨deed, hdeed, heq⟩
    · rw [heq]
      exact hreleased
    · rw [heq, List.mem_cons, not_or]
      exact ⟨hdeed.symm, hreleased⟩
  refine ⟨fun hearly => ?_, fun hjoined => ?_, fun hdone => absurd hdone hnone, fun newer older heq => ?_⟩
  · rcases hstage with heq | ⟨-, -, -, hclosing⟩
    · rw [heq] at hearly
      exact absurd hearly hopen
    · rw [hclosing] at hearly
      rcases hearly with hearly | hearly <;> cases hearly
  · rcases hstage with heq | ⟨rfl, rfl, hpooling, hclosing⟩
    · rw [heq, hnotjoined] at hjoined
      cases hjoined
    · -- the last tab at work fails, and only then the pool is over
      intro other hother
      obtain ⟨j, hj⟩ := List.mem_iff_getElem?.1 hother
      rw [htabs, List.getElem?_set] at hj
      split at hj
      · split at hj
        · obtain rfl := Option.some.inj hj
          rfl
        · cases hj
      · rename_i hne
        exact hlast other (List.mem_eraseIdx_iff_getElem?.2 ⟨j, Ne.symm hne, hj⟩)
  · refine absurd ?_ hnone
    rw [show e.deeds = _ from heq]
    exact List.mem_append_right _ List.mem_cons_self

theorem isJoined_of_isOver {stage : Stage Outcome} (hover : isOver stage = true) : isJoined stage = true := by
  cases stage <;> first | rfl | cases hover

/-- Where the pool is over, it has been opened. -/
theorem not_early {stage : Stage Outcome} (hjoined : isJoined stage = true) :
    ¬ (stage = .entering ∨ stage = .preparing) := by
  rintro (rfl | rfl) <;> cases hjoined

/-- The ways in which a delivery goes on. -/
inductive GoesOn (d : Delivery Ref Outcome) : Delivery Ref Outcome → Prop
  | prepares (hstage : d.stage = .entering) : GoesOn d { d with stage := .preparing }
  | gaveUp (hstage : d.stage = .entering ∨ d.stage = .preparing) : GoesOn d { d with stage := .settled }
  | stores {batch : List Outcome} (hstage : d.stage = .checkpointing batch) :
    GoesOn d { d with stage := .storing batch }
  | stored {batch : List Outcome} (hstage : d.stage = .storing batch) :
    GoesOn d { d with stage := .closing true, deeds := .stored batch :: d.deeds }
  | later {stage : Stage Outcome} (hjoined : isJoined d.stage = true) (hheld : d.stage ≠ .released)
    (hover : isOver stage = true) : GoesOn d { d with stage }
  | released (hstage : d.stage = .settled) : GoesOn d { d with stage := .released, deeds := .released :: d.deeds }

theorem goOn_cases {ok : Bool} (h : d.goOn ok = some d') : GoesOn d d' := by
  unfold Delivery.goOn at h
  split at h
  · rename_i hstage
    obtain ⟨-, h⟩ := Option.ite_none_left_eq_some.1 h
    exact Option.some.inj h ▸ .prepares hstage
  · rename_i hstage
    exact Option.some.inj h ▸ .gaveUp (.inl hstage)
  · rename_i hstage
    exact Option.some.inj h ▸ .gaveUp (.inr hstage)
  · rename_i hstage
    obtain ⟨-, h⟩ := Option.ite_none_left_eq_some.1 h
    exact Option.some.inj h ▸ .stores hstage
  · rename_i hstage
    exact Option.some.inj h ▸ .stored hstage
  · rename_i hstage
    exact Option.some.inj h ▸ .later (by rw [hstage]; rfl) (by simp [hstage]) rfl
  · rename_i hstage
    exact Option.some.inj h ▸ .later (by rw [hstage]; rfl) (by simp [hstage]) rfl
  · rename_i hstage
    exact Option.some.inj h ▸ .later (by rw [hstage]; rfl) (by simp [hstage]) (by split <;> rfl)
  · rename_i hstage
    exact Option.some.inj h ▸ .later (by rw [hstage]; rfl) (by simp [hstage]) rfl
  · rename_i hstage
    exact Option.some.inj h ▸ .released hstage
  · cases h

theorem Inv.goOn (h : Inv d) {ok : Bool} (hstep : d.goOn ok = some d') : Inv d' := by
  cases goOn_cases hstep with
  | prepares hstage => exact h.moved (by simp [hstage]) (fun _ => h.opened (.inl hstage)) nofun
  | gaveUp hstage =>
    refine h.moved ?_ (fun hearly => absurd hearly (not_early rfl)) fun _ tab htab => ?_
    · rcases hstage with hstage | hstage <;> simp [hstage]
    · rw [h.opened hstage] at htab
      cases htab
  | stores hstage =>
    exact h.moved (by simp [hstage]) (fun hearly => absurd hearly (not_early rfl)) fun _ =>
      h.joined (by rw [hstage]; rfl)
  | @stored batch hstage =>
    have hnoted : Inv { d with deeds := .stored batch :: d.deeds } := h.noted (by simp [hstage]) (by simp)
    exact hnoted.moved (by simp [hstage]) (fun hearly => absurd hearly (not_early rfl)) fun _ =>
      h.joined (by rw [hstage]; rfl)
  | later hjoined hheld hover =>
    exact h.moved hheld (fun hearly => absurd hearly (not_early (isJoined_of_isOver hover))) fun _ => h.joined hjoined
  | released hstage =>
    refine ⟨fun hearly => absurd hearly (not_early rfl), fun _ => h.joined (by rw [hstage]; rfl), fun _ => rfl,
      fun newer older heq => ?_⟩
    have hheld : .released ∉ d.deeds := by
      intro hreleased
      rw [h.released hreleased] at hstage
      cases hstage
    cases newer with
    | nil => rfl
    | cons deed newer =>
      refine absurd ?_ hheld
      rw [(List.cons.inj heq).2]
      exact List.mem_append_right _ List.mem_cons_self

theorem Inv.step (h : Inv d) {e : Event Ref Outcome} (hlast : d.FailsLast e) (hstep : d.step e = some d') :
    Inv d' := by
  cases e with
  | abort =>
    obtain rfl := Option.some.inj hstep
    exact ⟨h.opened, h.joined, h.released, h.deeds⟩
  | opened refs concurrency =>
    dsimp only [Delivery.step] at hstep
    split at hstep
    · rename_i hstage
      obtain rfl := Option.some.inj hstep
      obtain ⟨hpooling, hdeeds⟩ := start_eq { d with stage := .pooling, refs := refs } concurrency
      refine ⟨fun hearly => ?_, fun hjoined => ?_, fun hreleased => ?_, ?_⟩
      · rw [hpooling] at hearly
        rcases hearly with hearly | hearly <;> cases hearly
      · rw [hpooling] at hjoined
        cases hjoined
      · rw [hdeeds] at hreleased
        have hstage' := h.released hreleased
        rw [hstage] at hstage'
        cases hstage'
      · rw [hdeeds]
        exact h.deeds
    · cases hstep
  | returned =>
    dsimp only [Delivery.step] at hstep
    split at hstep
    · rename_i hstage
      obtain rfl := Option.some.inj hstep
      refine h.moved (by simp [hstage]) (fun hearly => absurd hearly (not_early rfl)) fun _ tab htab => ?_
      rw [h.opened (.inr hstage)] at htab
      cases htab
    · cases hstep
  | joined =>
    dsimp only [Delivery.step] at hstep
    split at hstep
    · rename_i hstage
      split at hstep
      · rename_i hall
        have hdone : ∀ tab ∈ d.tabs, tab.isDone = true := List.all_eq_true.1 hall
        split at hstep
        · obtain rfl := Option.some.inj hstep
          exact h.moved (by simp [hstage]) (fun hearly => absurd hearly (not_early rfl)) fun _ => hdone
        · obtain rfl := Option.some.inj hstep
          have hnoted : Inv { d with deeds := .onCheckpoint d.batch :: d.deeds } :=
            h.noted (by simp [hstage]) (by simp)
          have hmoved : Inv { d with
              deeds := .onCheckpoint d.batch :: d.deeds, stage := .checkpointing d.batch } :=
            hnoted.moved (by simp [hstage]) (fun hearly => absurd hearly (not_early rfl)) fun _ => hdone
          exact ⟨hmoved.opened, hmoved.joined, hmoved.released, hmoved.deeds⟩
      · cases hstep
    · cases hstep
  | delivery ok => exact h.goOn hstep
  | tab i answer => exact h.tab hlast hstep

/-- However many tabs there are and however they are scheduled, the lock is not released while one is
at work, if a tab's work only fails when no other tab is still at work. -/
theorem tabPool_quiescent (es : List (Event Ref Outcome))
    (h : Steps.Along step FailsLast (locked : Delivery Ref Outcome) es) :
    Steps.Throughout step Quiescent (locked : Delivery Ref Outcome) es := by
  have hinv : Steps.Throughout step Inv (locked : Delivery Ref Outcome) es :=
    Steps.throughout_of_along inv_locked h fun _ _ _ hs hlast hstep => hs.step hlast hstep
  exact hinv.mono fun _ hs => hs.quiescent

/-- One tab extracts the first release and returns, then the other fails. -/
def sampleFailsLast : List (Event String String) :=
  [.delivery true, .opened ["A1", "B2"] 2, .tab 0 .ok, .tab 0 .ok, .tab 0 .ok, .tab 0 .ok,
   .tab 0 (.outcome "A1"), .tab 0 .ok, .tab 1 .ok, .tab 1 .failed, .delivery true, .delivery true]

theorem tabPool_quiescent_sample :
    Steps.Throughout step Quiescent (locked : Delivery String String) sampleFailsLast ∧
      (Steps.run step (locked : Delivery String String) sampleFailsLast).map (·.deeds) =
        some [.released, .extracting "A1"] :=
  ⟨tabPool_quiescent sampleFailsLast (by decide), by decide⟩

/-- A tab's consent check fails and the lock is released; the other tab extracts ten releases. -/
def sampleFailsFirst : List (Event String String) :=
  [.delivery true, .opened ["A1", "B2", "C3", "D4", "E5", "F6", "G7", "H8", "I9", "J10", "K11"] 2, .tab 0 .ok,
   .tab 0 .failed, .delivery true, .delivery true] ++
  (List.replicate 10 [.tab 1 .ok, .tab 1 .ok, .tab 1 .ok, .tab 1 .ok, .tab 1 (.outcome "read"), .tab 1 .ok]).flatten ++
  [.tab 1 .ok, .tab 1 .ok]

/-- The lock is released, and then ten releases are extracted, checkpointed and stored. -/
theorem tabPool_failsFirst :
    ¬ Steps.Throughout step Quiescent (locked : Delivery String String) sampleFailsFirst := by
  intro h
  have hlate : ∃ d ∈ Steps.run step (locked : Delivery String String) sampleFailsFirst,
      d.deeds.head? = some (.stored (List.replicate 10 "read")) ∧ .released ∈ d.deeds := by
    decide +kernel
  obtain ⟨d, hrun, hhead, hreleased⟩ := hlate
  obtain ⟨newer, older, heq⟩ := List.append_of_mem hreleased
  obtain rfl : newer = [] := (h.last hrun).deeds newer older heq
  rw [heq] at hhead
  cases hhead

end Delivery

end CatalogSentinel.Distrokid.TabPool
