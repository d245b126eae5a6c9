import Mathlib.Algebra.BigOperators.Group.Multiset.Basic
import Mathlib.Tactic.Abel
import CatalogSentinel.Distrokid.TabPool

/-!
What the tab pool of a chunk answers. The tabs share the queue, the list of outcomes
and the batch that is not yet checkpointed. Every release that was taken from the queue
is in the hands of one tab, among the outcomes, or lost with a tab that failed; every
outcome is in the batch or has been given to `onCheckpoint`.
-/

namespace CatalogSentinel.Distrokid.TabPool

open CatalogSentinel.Concurrent

variable {Ref Outcome : Type}

/-- `outcomes.push(outcome)`, when the fence lets the outcome through. -/
def Tab.pushed : Tab Ref Outcome → Answer Outcome → List Outcome
  | .fencing o, .ok => [o]
  | _, _ => []

def Delivery.pushed (d : Delivery Ref Outcome) : Event Ref Outcome → List Outcome
  | .tab i answer => (d.tabs[i]?).elim [] fun tab => tab.pushed answer
  | _ => []

/-- A chunk's delivery, with the list that `extractChunk` returns. A release is known by
its place in the list of releases, and an outcome by the release it was extracted for. -/
structure Extraction (Ref Outcome : Type) where
  delivery : Delivery (Ref × ℕ) ((Ref × ℕ) × Outcome)
  outcomes : List ((Ref × ℕ) × Outcome)

namespace Extraction

def locked : Extraction Ref Outcome := ⟨.locked, []⟩

/-- The event, with the release that the answered extraction is for. -/
def labelled (d : Delivery (Ref × ℕ) ((Ref × ℕ) × Outcome)) :
    Event Ref Outcome → Option (Event (Ref × ℕ) ((Ref × ℕ) × Outcome))
  | .abort => some .abort
  | .opened refs concurrency => some (.opened refs.zipIdx concurrency)
  | .returned => some .returned
  | .joined => some .joined
  | .delivery ok => some (.delivery ok)
  | .tab i .ok => some (.tab i .ok)
  | .tab i .failed => some (.tab i .failed)
  | .tab i (.outcome o) =>
    match d.tabs[i]? with
    | some (.extracting ref) => some (.tab i (.outcome (ref, o)))
    | _ => none

def step (s : Extraction Ref Outcome) (e : Event Ref Outcome) : Option (Extraction Ref Outcome) := do
  let e ← labelled s.delivery e
  let delivery ← s.delivery.step e
  return ⟨delivery, s.outcomes ++ s.delivery.pushed e⟩

end Extraction

/-- The outcomes that `onCheckpoint` has been called with. -/
def Delivery.passed (d : Delivery Ref Outcome) : List Outcome :=
  d.deeds.flatMap fun
    | .onCheckpoint batch => batch
    | _ => []

/-- What `extractChunk` resolves with: the pool is over, and only its session is left to close. -/
def Extraction.resolves (s : Extraction Ref Outcome) : Option (List ((Ref × ℕ) × Outcome)) :=
  match s.delivery.stage with
  | .closing true => some s.outcomes
  | _ => none

/-! ### Where a release is -/

section Balance

/-- The release whose outcome the tab is to bring. -/
def Tab.held : Tab Ref (Ref × Outcome) → Multiset Ref
  | .gate ref | .consenting ref | .pacing ref | .gateAgain ref | .extracting ref => {ref}
  | .fencing o => {o.1}
  | .checkpointing _ | .storing _ | .returned | .failed => 0

def heldBy (tabs : List (Tab Ref (Ref × Outcome))) : Multiset Ref := (tabs.map Tab.held).sum

/-- Every release taken from the queue is with a tab, among the outcomes, or lost with a failed tab. -/
def Balanced (taken : List Ref) (tabs : List (Tab Ref (Ref × Outcome))) (outcomes : List (Ref × Outcome)) :
    Prop :=
  ∃ lost : Multiset Ref, lost + (outcomes.map Prod.fst : Multiset Ref) + heldBy tabs = (taken : Multiset Ref) ∧
    (lost ≠ 0 → .failed ∈ tabs)

variable {taken : List Ref} {tabs : List (Tab Ref (Ref × Outcome))} {outcomes : List (Ref × Outcome)}
  {i : ℕ} {tab tab' : Tab Ref (Ref × Outcome)}

theorem heldBy_append (tabs tabs' : List (Tab Ref (Ref × Outcome))) :
    heldBy (tabs ++ tabs') = heldBy tabs + heldBy tabs' := by
  rw [heldBy, List.map_append, List.sum_append, heldBy, heldBy]

theorem heldBy_set (tab' : Tab Ref (Ref × Outcome)) (h : tabs[i]? = some tab) :
    heldBy (tabs.set i tab') + tab.held = heldBy tabs + tab'.held := by
  induction tabs generalizing i with
  | nil => cases h
  | cons t tabs ih =>
    cases i with
    | zero =>
      obtain rfl := Option.some.inj h
      simp only [List.set_cons_zero, heldBy, List.map_cons, List.sum_cons]
      abel
    | succ i =>
      have hrest := ih h
      simp only [List.set_cons_succ, heldBy, List.map_cons, List.sum_cons] at hrest ⊢
      rw [add_assoc, hrest, add_assoc]

theorem failed_mem_set (h : tabs[i]? = some tab) (htab : tab ≠ .failed) (hmem : .failed ∈ tabs) :
    .failed ∈ tabs.set i tab' := by
  obtain ⟨j, hj⟩ := List.mem_iff_getElem?.1 hmem
  apply List.mem_iff_getElem?.2
  refine ⟨j, ?_⟩
  rw [List.getElem?_set_ne, hj]
  rintro rfl
  rw [h] at hj
  exact htab (Option.some.inj hj)

/-- The tab goes on with its release. -/
theorem Balanced.moved (hb : Balanced taken tabs outcomes) (h : tabs[i]? = some tab) (htab : tab ≠ .failed)
    (hheld : tab'.held = tab.held) : Balanced taken (tabs.set i tab') outcomes := by
  obtain ⟨lost, heq, hlost⟩ := hb
  refine ⟨lost, ?_, fun hne => failed_mem_set h htab (hlost hne)⟩
  have hset := heldBy_set tab' h
  rw [hheld, add_left_inj] at hset
  rwa [hset]

/-- The tab takes a release from the queue. -/
theorem Balanced.took (hb : Balanced taken tabs outcomes) (h : tabs[i]? = some tab) (htab : tab ≠ .failed)
    (hheld : tab.held = 0) {ref : Ref} (hheld' : tab'.held = {ref}) :
    Balanced (taken ++ [ref]) (tabs.set i tab') outcomes := by
  obtain ⟨lost, heq, hlost⟩ := hb
  refine ⟨lost, ?_, fun hne => failed_mem_set h htab (hlost hne)⟩
  have hset := heldBy_set tab' h
  rw [hheld, hheld', add_zero] at hset
  rw [hset, ← add_assoc, heq]
  rfl

/-- The tab's outcome joins the outcomes. -/
theorem Balanced.pushed (hb : Balanced taken tabs outcomes) {o : Ref × Outcome}
    (h : tabs[i]? = some (.fencing o)) (hheld : tab'.held = 0) :
    Balanced taken (tabs.set i tab') (outcomes ++ [o]) := by
  obtain ⟨lost, heq, hlost⟩ := hb
  refine ⟨lost, ?_, fun hne => failed_mem_set h (by simp) (hlost hne)⟩
  have hset := heldBy_set tab' h
  rw [hheld, add_zero] at hset
  rw [← heq, ← hset, List.map_append, ← Multiset.coe_add]
  simp only [List.map_cons, List.map_nil, Multiset.coe_singleton, Tab.held]
  abel

/-- The tab's release is lost with it. -/
theorem Balanced.failed (hb : Balanced taken tabs outcomes) (h : tabs[i]? = some tab) :
    Balanced taken (tabs.set i .failed) outcomes := by
  obtain ⟨lost, heq, hlost⟩ := hb
  have hset := heldBy_set .failed h
  have hlength := (List.getElem?_eq_some_iff.1 h).1
  refine ⟨lost + tab.held, ?_, fun _ => List.mem_set hlength _⟩
  rw [show (Tab.failed : Tab Ref (Ref × Outcome)).held = 0 from rfl, add_zero] at hset
  rw [← heq, ← hset]
  abel

/-- Where no tab failed and none holds a release, there is an outcome for each release taken. -/
theorem Balanced.exact (hb : Balanced taken tabs outcomes) (hfailed : .failed ∉ tabs)
    (hdone : ∀ tab ∈ tabs, tab.isDone = true) : (outcomes.map Prod.fst).Perm taken := by
  obtain ⟨lost, heq, hlost⟩ := hb
  have hnone : lost = 0 := by
    by_contra hne
    exact hfailed (hlost hne)
  have hheld : heldBy tabs = 0 := by
    apply List.sum_eq_zero
    intro m hm
    obtain ⟨tab, htab, rfl⟩ := List.mem_map.1 hm
    have hover := hdone tab htab
    cases tab <;> first | rfl | cases hover
  rw [hnone, hheld, zero_add, add_zero] at heq
  exact Multiset.coe_eq_coe.1 heq

/-- No release has two outcomes. -/
theorem Balanced.subperm (hb : Balanced taken tabs outcomes) : (outcomes.map Prod.fst).Subperm taken := by
  obtain ⟨lost, heq, -⟩ := hb
  rw [← Multiset.coe_le, ← heq]
  calc (outcomes.map Prod.fst : Multiset Ref) ≤ lost + (outcomes.map Prod.fst : Multiset Ref) :=
        Multiset.le_add_left _ _
    _ ≤ _ := Multiset.le_add_right _ _

end Balance

/-! ### What one step does -/

namespace Delivery

/-- The next release is taken, or the queue is empty. -/
theorem takeNext_cases (d : Delivery Ref Outcome) :
    (∃ ref, d.takeNext.1 = .gate ref ∧ d.refs.take (d.next + 1) = d.refs.take d.next ++ [ref]) ∨
      (d.takeNext.1 = .returned ∧ d.refs.length ≤ d.next) := by
  cases h : d.refs[d.next]? with
  | some ref =>
    refine .inl ⟨ref, by rw [takeNext, h]; rfl, ?_⟩
    rw [List.take_add_one, h]
    rfl
  | none => exact .inr ⟨by rw [takeNext, h]; rfl, List.getElem?_eq_none_iff.1 h⟩

/-- The releases, the outcomes and the batch add up. -/
structure Books (d : Delivery Ref (Ref × Outcome)) (tabs : List (Tab Ref (Ref × Outcome)))
    (outcomes : List (Ref × Outcome)) : Prop where
  balanced : Balanced (d.refs.take d.next) tabs outcomes
  passed : outcomes.Perm (d.passed ++ d.batch)
  returned : .returned ∈ tabs → d.refs.length ≤ d.next

variable {d d' : Delivery Ref (Ref × Outcome)} {outcomes : List (Ref × Outcome)}
  {tabs : List (Tab Ref (Ref × Outcome))} {i : ℕ} {tab tab' : Tab Ref (Ref × Outcome)}

theorem Books.moved (h : Books d tabs outcomes) (htab : tabs[i]? = some tab) (hwork : tab ≠ .failed)
    (hheld : tab'.held = tab.held) (hreturned : tab' ≠ .returned) : Books d (tabs.set i tab') outcomes := by
  refine ⟨h.balanced.moved htab hwork hheld, h.passed, fun hmem => ?_⟩
  rcases List.mem_or_eq_of_mem_set hmem with hmem | heq
  · exact h.returned hmem
  · exact absurd heq.symm hreturned

theorem Books.took (h : Books d tabs outcomes) (htab : tabs[i]? = some tab) (hwork : tab ≠ .failed)
    (hheld : tab.held = 0) : Books d.takeNext.2 (tabs.set i d.takeNext.1) outcomes := by
  rcases takeNext_cases d with ⟨ref, hgate, htake⟩ | ⟨hreturned, hempty⟩
  · refine ⟨?_, h.passed, fun hmem => ?_⟩
    · show Balanced (d.refs.take (d.next + 1)) _ _
      rw [htake]
      exact h.balanced.took htab hwork hheld (by rw [hgate]; rfl)
    · show d.refs.length ≤ d.next + 1
      rcases List.mem_or_eq_of_mem_set hmem with hmem | heq
      · exact Nat.le_succ_of_le (h.returned hmem)
      · rw [hgate] at heq
        cases heq
  · refine ⟨?_, h.passed, fun _ => Nat.le_succ_of_le hempty⟩
    show Balanced (d.refs.take (d.next + 1)) _ _
    rw [List.take_of_length_le (Nat.le_succ_of_le hempty), ← List.take_of_length_le hempty]
    exact h.balanced.moved htab hwork (by rw [hreturned, hheld]; rfl)

theorem Books.pushed (h : Books d tabs outcomes) {o : Ref × Outcome} (htab : tabs[i]? = some (.fencing o))
    (hheld : tab'.held = 0) (hreturned : tab' ≠ .returned) :
    Books { d with batch := d.batch ++ [o] } (tabs.set i tab') (outcomes ++ [o]) := by
  refine ⟨h.balanced.pushed htab hheld, ?_, fun hmem => ?_⟩
  · show (outcomes ++ [o]).Perm (d.passed ++ (d.batch ++ [o]))
    rw [← List.append_assoc]
    exact h.passed.append_right _
  · rcases List.mem_or_eq_of_mem_set hmem with hmem | heq
    · exact h.returned hmem
    · exact absurd heq.symm hreturned

theorem Books.failed (h : Books d tabs outcomes) (htab : tabs[i]? = some tab) :
    Books d (tabs.set i .failed) outcomes := by
  refine ⟨h.balanced.failed htab, h.passed, fun hmem => ?_⟩
  rcases List.mem_or_eq_of_mem_set hmem with hmem | heq
  · exact h.returned hmem
  · cases heq

/-- The batch is cleared, and given to `onCheckpoint`, in one go. -/
theorem Books.spliced (h : Books d tabs outcomes) : Books d.splice tabs outcomes := by
  refine ⟨h.balanced, ?_, h.returned⟩
  show outcomes.Perm (d.batch ++ d.passed ++ [])
  rw [List.append_nil]
  exact h.passed.trans List.perm_append_comm

theorem reject_eq (d : Delivery Ref Outcome) : d.reject.refs = d.refs ∧ d.reject.next = d.next ∧
    d.reject.batch = d.batch ∧ d.reject.deeds = d.deeds := by
  unfold reject
  split <;> exact ⟨rfl, rfl, rfl, rfl⟩

/-- What a tab does keeps the books, if an extraction's answer is for the tab's release. -/
theorem proceed_books {answer : Answer (Ref × Outcome)} (h : Books d tabs outcomes)
    (htab : tabs[i]? = some tab) (hlabel : ∀ ref o, tab = .extracting ref → answer = .outcome o → o.1 = ref)
    (hstep : d.proceed tab answer = some (tab', d')) :
    Books d' (tabs.set i tab') (outcomes ++ tab.pushed answer) := by
  -- the tab has as many releases in hand as before, and pushes nothing
  have hmoved {tab' : Tab Ref (Ref × Outcome)} (hpushed : tab.pushed answer = []) (hwork : tab ≠ .failed)
      (hheld : tab'.held = tab.held) (hreturned : tab' ≠ .returned) :
      Books d (tabs.set i tab') (outcomes ++ tab.pushed answer) := by
    rw [hpushed, List.append_nil]
    exact h.moved htab hwork hheld hreturned
  unfold proceed at hstep
  split at hstep
  · obtain ⟨-, hstep⟩ := Option.ite_none_left_eq_some.1 hstep
    cases hstep
    exact hmoved rfl (by simp) rfl (by simp)
  · cases hstep
    exact hmoved rfl (by simp) rfl (by simp)
  · cases hstep
    exact hmoved rfl (by simp) rfl (by simp)
  · rename_i ref
    obtain ⟨-, hstep⟩ := Option.ite_none_left_eq_some.1 hstep
    cases hstep
    have hextracting : Books d (tabs.set i (.extracting ref)) (outcomes ++ []) :=
      hmoved rfl (by simp) rfl (by simp)
    exact ⟨hextracting.balanced, hextracting.passed, hextracting.returned⟩
  · cases hstep
    obtain rfl := hlabel _ _ rfl rfl
    exact hmoved rfl (by simp) rfl (by simp)
  · rename_i o
    obtain ⟨-, hstep⟩ := Option.ite_none_left_eq_some.1 hstep
    dsimp only at hstep
    split at hstep
    · cases hstep
      have hpushed : Books { d with batch := d.batch ++ [o] }
          (tabs.set i (.checkpointing (d.batch ++ [o]))) (outcomes ++ [o]) :=
        h.pushed htab rfl (by simp)
      exact hpushed.spliced
    · cases hstep
      -- the outcome is pushed, and then the next release is taken
      have hpushed : Books { d with batch := d.batch ++ [o] } (tabs.set i (.storing []))
          (outcomes ++ [o]) := h.pushed htab rfl (by simp)
      have hidle : (tabs.set i (.storing []))[i]? = some (.storing []) :=
        List.getElem?_set_self (List.getElem?_eq_some_iff.1 htab).1
      have htook := hpushed.took hidle (by simp) rfl
      rwa [List.set_set] at htook
  · obtain ⟨-, hstep⟩ := Option.ite_none_left_eq_some.1 hstep
    cases hstep
    exact hmoved rfl (by simp) rfl (by simp)
  · rename_i batch
    cases hstep
    show Books _ _ (outcomes ++ [])
    rw [List.append_nil]
    have hstored : Books { d with deeds := .stored batch :: d.deeds } tabs outcomes :=
      ⟨h.balanced, h.passed, h.returned⟩
    exact hstored.took htab (by simp) rfl
  · cases hstep
  · cases hstep
  · cases hstep
    obtain ⟨hrefs, hnext, hbatch, hdeeds⟩ := reject_eq d
    have hnothing : tab.pushed (.failed : Answer (Ref × Outcome)) = [] := by cases tab <;> rfl
    have hfailed := h.failed htab
    rw [hnothing, List.append_nil]
    refine ⟨?_, ?_, ?_⟩
    · rw [hrefs, hnext]
      exact hfailed.balanced
    · rw [passed, hdeeds, hbatch]
      exact hfailed.passed
    · rw [hrefs, hnext]
      exact hfailed.returned
  · cases hstep

/-! ### The pool over a run -/

/-- The pool has come to its end without a failure. -/
def isFlushed : Stage Outcome → Bool
  | .checkpointing _ | .storing _ | .closing true => true
  | _ => false

structure Accounts (d : Delivery Ref (Ref × Outcome)) (outcomes : List (Ref × Outcome)) : Prop where
  books : Books d d.tabs outcomes
  unopened : d.stage = .entering ∨ d.stage = .preparing → d.tabs = [] ∧ d.next = 0
  unfailed : d.stage = .pooling ∨ isFlushed d.stage = true → .failed ∉ d.tabs
  flushed : isFlushed d.stage = true → (∀ tab ∈ d.tabs, tab.isDone = true) ∧ d.batch = []

theorem accounts_locked : Accounts (locked : Delivery Ref (Ref × Outcome)) [] := by
  refine ⟨⟨⟨0, rfl, fun h => absurd rfl h⟩, .nil, fun h => absurd h List.not_mem_nil⟩, fun _ => ⟨rfl, rfl⟩,
    fun _ h => absurd h List.not_mem_nil, fun h => by cases h⟩

/-- A tab that fails ends the pool. -/
theorem proceed_failed {answer : Answer (Ref × Outcome)} (hstep : d.proceed tab answer = some (.failed, d')) :
    d'.stage ≠ .pooling := by
  have hnext : ∀ d : Delivery Ref (Ref × Outcome), d.takeNext.1 ≠ .failed := by
    intro d heq
    rcases takeNext_cases d with ⟨ref, hgate, -⟩ | ⟨hreturned, -⟩
    · rw [hgate] at heq
      cases heq
    · rw [hreturned] at heq
      cases heq
  unfold Delivery.proceed at hstep
  split at hstep
  · obtain ⟨-, hstep⟩ := Option.ite_none_left_eq_some.1 hstep
    cases hstep
  · cases hstep
  · cases hstep
  · obtain ⟨-, hstep⟩ := Option.ite_none_left_eq_some.1 hstep
    cases hstep
  · cases hstep
  · obtain ⟨-, hstep⟩ := Option.ite_none_left_eq_some.1 hstep
    dsimp only at hstep
    split at hstep
    · cases hstep
    · exact absurd (congrArg Prod.fst (Option.some.inj hstep)) (hnext _)
  · obtain ⟨-, hstep⟩ := Option.ite_none_left_eq_some.1 hstep
    cases hstep
  · exact absurd (congrArg Prod.fst (Option.some.inj hstep)) (hnext _)
  · cases hstep
  · cases hstep
  · cases hstep
    unfold reject
    split
    · exact fun h => by cases h
    · assumption
  · cases hstep

theorem Accounts.proceed (h : Accounts d outcomes) {answer : Answer (Ref × Outcome)}
    (hlabel : ∀ ref o, d.tabs[i]? = some (.extracting ref) → answer = .outcome o → o.1 = ref)
    (hstep : d.step (.tab i answer) = some d') : Accounts d' (outcomes ++ d.pushed (.tab i answer)) := by
  obtain ⟨tab, htab, hstep⟩ := Option.bind_eq_some_iff.1 hstep
  obtain ⟨⟨tab', e⟩, hproceed, hstep⟩ := Option.bind_eq_some_iff.1 hstep
  obtain rfl := Option.some.inj hstep
  obtain ⟨hwork, htabs, -, hstage, -⟩ := proceed_cases hproceed
  have hmem := List.mem_of_getElem? htab
  have hunflushed : isFlushed d.stage = false := by
    rw [Bool.eq_false_iff]
    intro hflushed
    rw [(h.flushed hflushed).1 tab hmem] at hwork
    cases hwork
  have hopen : ¬ (d.stage = .entering ∨ d.stage = .preparing) := by
    intro hearly
    rw [(h.unopened hearly).1] at hmem
    cases hmem
  have hbooks := proceed_books h.books htab (fun ref o hextracting hanswer =>
    hlabel ref o (by rw [htab, hextracting]) hanswer) hproceed
  have hpushed : d.pushed (.tab i answer) = tab.pushed answer := by
    rw [pushed, htab]
    rfl
  rw [hpushed]
  refine ⟨?_, fun hearly => ?_, fun hwhole hfailed => ?_, fun hflushed => ?_⟩
  · rw [← htabs] at hbooks
    exact ⟨hbooks.balanced, hbooks.passed, hbooks.returned⟩
  · rcases hstage with heq | ⟨-, -, -, hclosing⟩
    · rw [heq] at hearly
      exact absurd hearly hopen
    · rw [hclosing] at hearly
      rcases hearly with hearly | hearly <;> cases hearly
  · have hpooling : e.stage = .pooling ∧ d.stage = .pooling := by
      rcases hstage with heq | ⟨-, -, -, hclosing⟩
      · rcases hwhole with hwhole | hwhole
        · exact ⟨hwhole, heq ▸ hwhole⟩
        · have hflushed : isFlushed e.stage = true := hwhole
          rw [heq, hunflushed] at hflushed
          cases hflushed
      · have hclosing : e.stage = .closing false := hclosing
        rcases hwhole with hwhole | hwhole
        · have hwhole : e.stage = .pooling := hwhole
          rw [hclosing] at hwhole
          cases hwhole
        · have hwhole : isFlushed e.stage = true := hwhole
          rw [hclosing] at hwhole
          cases hwhole
    rcases List.mem_or_eq_of_mem_set hfailed with hbefore | hnow
    · rw [htabs] at hbefore
      exact h.unfailed (.inl hpooling.2) hbefore
    · rw [← hnow] at hproceed
      exact proceed_failed hproceed hpooling.1
  · rcases hstage with heq | ⟨-, -, -, hclosing⟩
    · rw [heq, hunflushed] at hflushed
      cases hflushed
    · rw [hclosing] at hflushed
      cases hflushed

/-- Each tab that starts takes a release, or returns. -/
theorem Books.started (h : Books d d.tabs outcomes) (n : ℕ) : Books (d.start n) (d.start n).tabs outcomes := by
  induction n generalizing d with
  | zero => exact h
  | succ n ih =>
    have hone : Books { d.takeNext.2 with tabs := d.tabs ++ [d.takeNext.1] } (d.tabs ++ [d.takeNext.1]) outcomes := by
      -- a tab that has nothing in hand joins the pool, and takes the next release
      have hidle : Books d (d.tabs ++ [.storing []]) outcomes := by
        obtain ⟨lost, heq, hlost⟩ := h.balanced
        refine ⟨⟨lost, ?_, fun hne => List.mem_append_left _ (hlost hne)⟩, h.passed, fun hmem => ?_⟩
        · rw [heldBy_append, ← heq]
          exact congrArg _ (add_zero _)
        · rcases List.mem_append.1 hmem with hmem | hmem
          · exact h.returned hmem
          · cases List.mem_singleton.1 hmem
      have hlast : (d.tabs ++ [.storing []])[d.tabs.length]? = some (.storing []) :=
        List.getElem?_concat_length
      have htook := hidle.took hlast (by simp) rfl
      rw [List.set_append_right _ _ le_rfl, Nat.sub_self] at htook
      exact ⟨htook.balanced, htook.passed, htook.returned⟩
    exact ih (d := { d.takeNext.2 with tabs := d.tabs ++ [d.takeNext.1] }) hone

theorem start_tabs (d : Delivery Ref Outcome) (n : ℕ) : (d.start n).refs = d.refs ∧
    (d.start n).tabs.length = d.tabs.length + n ∧ (.failed ∈ (d.start n).tabs → .failed ∈ d.tabs) := by
  induction n generalizing d with
  | zero => exact ⟨rfl, rfl, id⟩
  | succ n ih =>
    obtain ⟨hrefs, hlength, hfailed⟩ := ih { d.takeNext.2 with tabs := d.tabs ++ [d.takeNext.1] }
    refine ⟨hrefs, ?_, fun hmem => ?_⟩
    · rw [show (d.start (n + 1)).tabs.length = _ from hlength, List.length_append]
      simp only [List.length_singleton]
      omega
    · rcases List.mem_append.1 (hfailed hmem) with hbefore | hnow
      · exact hbefore
      · rcases takeNext_cases d with ⟨ref, hgate, -⟩ | ⟨hreturned, -⟩
        · rw [hgate] at hnow
          cases List.mem_singleton.1 hnow
        · rw [hreturned] at hnow
          cases List.mem_singleton.1 hnow

theorem isFlushed_of_isOver {stage : Stage Outcome} (hover : isOver stage = true) : isFlushed stage = false := by
  cases stage with
  | closing ok =>
    cases ok with
    | false => rfl
    | true => cases hover
  | checkpointing batch => cases hover
  | storing batch => cases hover
  | _ => rfl

theorem Accounts.over (hbooks : Books d d.tabs outcomes) (hover : isOver d.stage = true) : Accounts d outcomes := by
  have hunflushed := isFlushed_of_isOver hover
  refine ⟨hbooks, fun hearly => ?_, fun hwhole => ?_, fun hflushed => ?_⟩
  · rcases hearly with hstage | hstage <;> rw [hstage] at hover <;> cases hover
  · rcases hwhole with hstage | hflushed
    · rw [hstage] at hover
      cases hover
    · rw [hunflushed] at hflushed
      cases hflushed
  · rw [hunflushed] at hflushed
    cases hflushed

/-- The pool is over without a failure, and the batch is cleared. -/
theorem Accounts.whole (hbooks : Books d d.tabs outcomes) (hflushed : isFlushed d.stage = true)
    (hfailed : .failed ∉ d.tabs) (hdone : ∀ tab ∈ d.tabs, tab.isDone = true) (hbatch : d.batch = []) :
    Accounts d outcomes := by
  refine ⟨hbooks, fun hearly => ?_, fun _ => hfailed, fun _ => ⟨hdone, hbatch⟩⟩
  rcases hearly with hstage | hstage <;> rw [hstage] at hflushed <;> cases hflushed

theorem Accounts.goOn (h : Accounts d outcomes) {ok : Bool} (hstep : d.goOn ok = some d') :
    Accounts d' outcomes := by
  have hbooks (stage : Stage (Ref × Outcome)) : Books { d with stage } d.tabs outcomes :=
    ⟨h.books.balanced, h.books.passed, h.books.returned⟩
  cases goOn_cases hstep with
  | prepares hstage =>
    refine ⟨hbooks _, fun _ => h.unopened (.inl hstage), fun hwhole => ?_, fun hflushed => by cases hflushed⟩
    rcases hwhole with hwhole | hwhole <;> cases hwhole
  | gaveUp _ => exact .over (hbooks _) rfl
  | stores hstage =>
    have hwas : isFlushed d.stage = true := by rw [hstage]; rfl
    exact .whole (hbooks _) rfl (h.unfailed (.inr hwas)) (h.flushed hwas).1 (h.flushed hwas).2
  | @stored batch hstage =>
    have hwas : isFlushed d.stage = true := by rw [hstage]; rfl
    have hstored : Books { d with stage := .closing true, deeds := .stored batch :: d.deeds } d.tabs outcomes :=
      ⟨h.books.balanced, h.books.passed, h.books.returned⟩
    exact .whole hstored rfl (h.unfailed (.inr hwas)) (h.flushed hwas).1 (h.flushed hwas).2
  | later _ _ hover => exact .over (hbooks _) hover
  | released _ =>
    have hreleased : Books { d with stage := .released, deeds := .released :: d.deeds } d.tabs outcomes :=
      ⟨h.books.balanced, h.books.passed, h.books.returned⟩
    exact .over hreleased rfl

/-- One step keeps the accounts, if an extraction's answer is for the release its tab extracts. -/
theorem Accounts.step (h : Accounts d outcomes) {e : Event Ref (Ref × Outcome)}
    (hlabel : ∀ i ref o, e = .tab i (.outcome o) → d.tabs[i]? = some (.extracting ref) → o.1 = ref)
    (hstep : d.step e = some d') : Accounts d' (outcomes ++ d.pushed e) := by
  cases e with
  | tab i answer =>
    refine h.proceed (fun ref o htab hanswer => hlabel i ref o ?_ htab) hstep
    rw [hanswer]
  | abort =>
    obtain rfl := Option.some.inj hstep
    show Accounts _ (outcomes ++ [])
    rw [List.append_nil]
    exact ⟨⟨h.books.balanced, h.books.passed, h.books.returned⟩, h.unopened, h.unfailed, h.flushed⟩
  | opened refs concurrency =>
    show Accounts _ (outcomes ++ [])
    rw [List.append_nil]
    dsimp only [Delivery.step] at hstep
    split at hstep
    · rename_i hstage
      obtain rfl := Option.some.inj hstep
      obtain ⟨htabs, hnext⟩ := h.unopened (.inr hstage)
      have hbooks : Books { d with stage := .pooling, refs := refs } d.tabs outcomes := by
        have hbalanced := h.books.balanced
        refine ⟨?_, h.books.passed, fun hmem => ?_⟩
        · rwa [hnext, List.take_zero] at hbalanced ⊢
        · rw [htabs] at hmem
          cases hmem
      obtain ⟨hpooling, -⟩ := start_eq { d with stage := .pooling, refs := refs } concurrency
      obtain ⟨-, -, hfailed⟩ := start_tabs { d with stage := .pooling, refs := refs } concurrency
      refine ⟨hbooks.started concurrency, fun hearly => ?_, fun _ hmem => ?_, fun hflushed => ?_⟩
      · rw [hpooling] at hearly
        rcases hearly with hearly | hearly <;> cases hearly
      · have hbefore := hfailed hmem
        rw [show _ = d.tabs from rfl, htabs] at hbefore
        cases hbefore
      · rw [hpooling] at hflushed
        cases hflushed
    · cases hstep
  | returned =>
    show Accounts _ (outcomes ++ [])
    rw [List.append_nil]
    dsimp only [Delivery.step] at hstep
    split at hstep
    · obtain rfl := Option.some.inj hstep
      have hbooks : Books { d with stage := .working } d.tabs outcomes :=
        ⟨h.books.balanced, h.books.passed, h.books.returned⟩
      exact .over hbooks rfl
    · cases hstep
  | joined =>
    show Accounts _ (outcomes ++ [])
    rw [List.append_nil]
    dsimp only [Delivery.step] at hstep
    split at hstep
    · rename_i hstage
      split at hstep
      · rename_i hall
        have hdone : ∀ tab ∈ d.tabs, tab.isDone = true := List.all_eq_true.1 hall
        split at hstep
        · rename_i hbatch
          obtain rfl := Option.some.inj hstep
          have hbooks : Books { d with stage := .closing true } d.tabs outcomes :=
            ⟨h.books.balanced, h.books.passed, h.books.returned⟩
          exact .whole hbooks rfl (h.unfailed (.inl hstage)) hdone hbatch
        · obtain rfl := Option.some.inj hstep
          have hspliced := h.books.spliced
          have hbooks : Books { d.splice with stage := .checkpointing d.batch } d.tabs outcomes :=
            ⟨hspliced.balanced, hspliced.passed, hspliced.returned⟩
          exact .whole hbooks rfl (h.unfailed (.inl hstage)) hdone rfl
      · cases hstep
    · cases hstep
  | delivery ok =>
    show Accounts _ (outcomes ++ [])
    rw [List.append_nil]
    exact h.goOn hstep

/-- The pool was opened with these releases and so many tabs. -/
structure OpenedWith (refs : List Ref) (concurrency : ℕ) (d : Delivery Ref (Ref × Outcome)) : Prop where
  refs : d.refs = refs
  tabs : d.tabs.length = concurrency
  opened : ¬ (d.stage = .entering ∨ d.stage = .preparing)

theorem OpenedWith.goOn {refs : List Ref} {concurrency : ℕ} (h : OpenedWith refs concurrency d) {ok : Bool}
    (hstep : d.goOn ok = some d') : OpenedWith refs concurrency d' := by
  cases goOn_cases hstep with
  | prepares hstage => exact absurd (.inl hstage) h.opened
  | gaveUp hstage => exact absurd hstage h.opened
  | stores _ | stored _ | released _ => exact ⟨h.refs, h.tabs, not_early rfl⟩
  | later _ _ hover => exact ⟨h.refs, h.tabs, not_early (isJoined_of_isOver hover)⟩

theorem OpenedWith.step {refs : List Ref} {concurrency : ℕ} (h : OpenedWith refs concurrency d)
    {e : Event Ref (Ref × Outcome)} (hstep : d.step e = some d') : OpenedWith refs concurrency d' := by
  cases e with
  | abort =>
    obtain rfl := Option.some.inj hstep
    exact ⟨h.refs, h.tabs, h.opened⟩
  | opened refs' concurrency' =>
    dsimp only [Delivery.step] at hstep
    split at hstep
    · rename_i hstage
      exact absurd (.inr hstage) h.opened
    · cases hstep
  | returned =>
    dsimp only [Delivery.step] at hstep
    split at hstep
    · rename_i hstage
      exact absurd (.inr hstage) h.opened
    · cases hstep
  | joined =>
    dsimp only [Delivery.step] at hstep
    split at hstep
    · split at hstep
      · split at hstep
        · obtain rfl := Option.some.inj hstep
          exact ⟨h.refs, h.tabs, by simp⟩
        · obtain rfl := Option.some.inj hstep
          exact ⟨h.refs, h.tabs, by simp⟩
      · cases hstep
    · cases hstep
  | delivery ok => exact h.goOn hstep
  | tab i answer =>
    obtain ⟨tab, -, hstep⟩ := Option.bind_eq_some_iff.1 hstep
    obtain ⟨⟨tab', e⟩, hproceed, hstep⟩ := Option.bind_eq_some_iff.1 hstep
    obtain rfl := Option.some.inj hstep
    obtain ⟨-, htabs, hrefs, hstage, -⟩ := proceed_cases hproceed
    refine ⟨hrefs.trans h.refs, ?_, fun hearly => ?_⟩
    · show (e.tabs.set i tab').length = concurrency
      rw [List.length_set, htabs, h.tabs]
    · rcases hstage with heq | ⟨-, -, -, hclosing⟩
      · exact h.opened (heq ▸ hearly)
      · rcases hearly with hearly | hearly <;> cases hearly.symm.trans hclosing

end Delivery

open CatalogSentinel.Distrokid.TabPool.Delivery

namespace Extraction

/-- Each event is one of the delivery's, whose answers are for the releases that were asked for. -/
theorem step_cases {s s' : Extraction Ref Outcome} {e : Event Ref Outcome} (hstep : step s e = some s') :
    ∃ e', labelled s.delivery e = some e' ∧ s.delivery.step e' = some s'.delivery ∧
      s'.outcomes = s.outcomes ++ s.delivery.pushed e' ∧
      ∀ i ref o, e' = .tab i (.outcome o) → s.delivery.tabs[i]? = some (.extracting ref) → o.1 = ref := by
  obtain ⟨e', he, hstep⟩ := Option.bind_eq_some_iff.1 hstep
  obtain ⟨d, hd, hstep⟩ := Option.bind_eq_some_iff.1 hstep
  obtain rfl := Option.some.inj hstep
  refine ⟨e', he, hd, rfl, ?_⟩
  rintro i ref o rfl htab
  cases e with
  | tab i' answer =>
    cases answer with
    | outcome o' =>
      dsimp only [labelled] at he
      split at he
      · rename_i htab'
        cases he
        cases htab.symm.trans htab'
        rfl
      · cases he
    | _ => cases he
  | _ => cases he

theorem accounts_step {s s' : Extraction Ref Outcome} {e : Event Ref Outcome}
    (h : Accounts s.delivery s.outcomes) (hstep : step s e = some s') : Accounts s'.delivery s'.outcomes := by
  obtain ⟨e', -, hd, houtcomes, hlabel⟩ := step_cases hstep
  rw [houtcomes]
  exact h.step hlabel hd

theorem accounts_run {es : List (Event Ref Outcome)} {s : Extraction Ref Outcome}
    (hrun : Steps.run step locked es = some s) : Accounts s.delivery s.outcomes := by
  have hinv : Steps.Throughout step (fun s => Accounts s.delivery s.outcomes) (locked : Extraction Ref Outcome) es :=
    Steps.throughout_of_step es accounts_locked fun _ _ _ hs hstep => accounts_step hs hstep
  exact hinv.last hrun

/-- The releases and the tabs are those that the pool was opened with. -/
theorem openedWith_run {es : List (Event Ref Outcome)} {s : Extraction Ref Outcome}
    (hrun : Steps.run step locked es = some s) {refs : List Ref} {concurrency : ℕ}
    (hopened : .opened refs concurrency ∈ es) : OpenedWith refs.zipIdx concurrency s.delivery := by
  obtain ⟨before, after, rfl⟩ := List.append_of_mem hopened
  rw [Steps.run_append] at hrun
  obtain ⟨s₁, hbefore, hrun⟩ := Option.bind_eq_some_iff.1 hrun
  obtain ⟨s₂, hopen, hafter⟩ := Option.bind_eq_some_iff.1 hrun
  have hinv : Steps.Throughout step (fun s => OpenedWith refs.zipIdx concurrency s.delivery) s₂ after := by
    refine Steps.throughout_of_step after ?_ fun _ _ _ hs hstep => ?_
    · obtain ⟨e', he, hd, -⟩ := step_cases hopen
      cases he
      dsimp only [Delivery.step] at hd
      split at hd
      · rename_i hstage
        obtain ⟨htabs, -⟩ := (accounts_run hbefore).unopened (.inr hstage)
        obtain ⟨hrefs, hlength, -⟩ :=
          start_tabs { s₁.delivery with stage := .pooling, refs := refs.zipIdx } concurrency
        obtain ⟨hpooling, -⟩ := start_eq { s₁.delivery with stage := .pooling, refs := refs.zipIdx } concurrency
        rw [← Option.some.inj hd]
        refine ⟨hrefs, ?_, ?_⟩
        · rw [hlength]
          show s₁.delivery.tabs.length + concurrency = concurrency
          rw [htabs]
          exact Nat.zero_add _
        · rw [hpooling]
          simp
      · cases hd
    · obtain ⟨e', -, hd, -⟩ := step_cases hstep
      exact hs.step hd
  exact hinv.last hafter

end Extraction

/-- Whatever the tabs do and in whatever order, no outcome is given to `onCheckpoint` twice; and what
`extractChunk` resolves with is one outcome for each place in the list of releases, each of which has
been given to `onCheckpoint`. -/
theorem extractChunk_exact (es : List (Event Ref Outcome)) (s : Extraction Ref Outcome)
    (hrun : Steps.run Extraction.step .locked es = some s) (refs : List Ref) (concurrency : ℕ)
    (hopened : .opened refs concurrency ∈ es) (htabs : 0 < concurrency) :
    (s.delivery.passed.map Prod.fst).Nodup ∧
      ∀ outcomes, s.resolves = some outcomes →
        (outcomes.map Prod.fst).Perm refs.zipIdx ∧ s.delivery.passed.Perm outcomes := by
  have haccounts := Extraction.accounts_run hrun
  have hwith := Extraction.openedWith_run hrun hopened
  have hpassed := haccounts.books.passed
  refine ⟨?_, fun outcomes hresolves => ?_⟩
  · have hplaces : refs.zipIdx.Nodup := by
      apply List.Nodup.of_map Prod.snd
      rw [List.zipIdx_map_snd]
      exact List.nodup_range'
    have hall : (s.outcomes.map Prod.fst).Nodup := by
      obtain ⟨l, hperm, hsub⟩ := haccounts.books.balanced.subperm
      rw [hwith.refs] at hsub
      exact hperm.nodup_iff.1 ((hsub.trans (List.take_sublist _ _)).nodup hplaces)
    have hboth := (hpassed.map Prod.fst).nodup_iff.1 hall
    rw [List.map_append] at hboth
    exact hboth.of_append_left
  · unfold Extraction.resolves at hresolves
    split at hresolves
    · rename_i hstage
      obtain rfl := Option.some.inj hresolves
      have hflushed : isFlushed s.delivery.stage = true := by rw [hstage]; rfl
      obtain ⟨hdone, hbatch⟩ := haccounts.flushed hflushed
      have hfailed := haccounts.unfailed (.inr hflushed)
      have hexact := haccounts.books.balanced.exact hfailed hdone
      -- some tab has returned, so the queue is empty
      have hempty : s.delivery.refs.length ≤ s.delivery.next := by
        have hsome : 0 < s.delivery.tabs.length := by rwa [hwith.tabs]
        obtain ⟨tab, htab⟩ := List.exists_mem_of_length_pos hsome
        have hover := hdone tab htab
        cases tab with
        | returned => exact haccounts.books.returned htab
        | failed => exact absurd htab hfailed
        | _ => cases hover
      rw [List.take_of_length_le hempty, hwith.refs] at hexact
      rw [hbatch, List.append_nil] at hpassed
      exact ⟨hexact, hpassed.symm⟩
    · cases hresolves

/-- Two tabs extract three releases. -/
def sampleResolves : List (Event String String) :=
  let passed (tab : ℕ) : List (Event String String) := List.replicate 4 (.tab tab .ok)
  let opened : List (Event String String) := [.delivery true, .opened ["A1", "B2", "B2"] 2]
  let outcomes : List (Event String String) :=
    [.tab 1 (.outcome "second"), .tab 0 (.outcome "first"), .tab 1 .ok, .tab 0 .ok]
  let ended : List (Event String String) :=
    [.tab 1 (.outcome "third"), .tab 1 .ok, .joined, .delivery true, .delivery true]
  opened ++ passed 0 ++ passed 1 ++ outcomes ++ passed 1 ++ ended

theorem extractChunk_exact_sample : ∃ s outcomes,
    Steps.run Extraction.step .locked sampleResolves = some s ∧ s.resolves = some outcomes ∧
      outcomes.map Prod.snd = ["second", "first", "third"] ∧ (s.delivery.passed.map Prod.fst).Nodup ∧
      (outcomes.map Prod.fst).Perm (["A1", "B2", "B2"].zipIdx) ∧ s.delivery.passed.Perm outcomes := by
  have hresult : (Steps.run Extraction.step .locked sampleResolves).bind Extraction.resolves =
      some [(("B2", 1), "second"), (("A1", 0), "first"), (("B2", 2), "third")] := by decide
  obtain ⟨s, hrun, hresolves⟩ := Option.bind_eq_some_iff.1 hresult
  obtain ⟨honce, hexact⟩ := extractChunk_exact sampleResolves s hrun ["A1", "B2", "B2"] 2 (by decide) (by decide)
  exact ⟨s, _, hrun, hresolves, rfl, honce, hexact _ hresolves⟩

end CatalogSentinel.Distrokid.TabPool
