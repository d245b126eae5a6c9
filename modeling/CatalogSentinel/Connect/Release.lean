import CatalogSentinel.Connect.Distributor
import CatalogSentinel.Connect.Holders

/-!
No scan on a session that was released. Where a session is released only when it is to be
cancelled, it is confirmed no more; and a call that was confirming it before has been
overtaken, so that it starts no scan as long as calls start scans under claims they hold.
-/

namespace CatalogSentinel.Connect.Distributor

open CatalogSentinel.Concurrent CatalogSentinel.Data

/-- The call may still come to start a scan. -/
def Stage.early : Stage → Bool
  | .authorizing | .recovering | .renewing | .storing | .renewingAgain | .starting => true
  | .handingOff | .renewingAfter | .cancelling | .releasing | .acknowledging | .deferring => false

/-- The call confirms the session and may still come to start a scan. -/
def Task.confirms (task : Task) (id : ℕ) : Prop :=
  task.stage.early ∧ task.claim.action = .confirm ∧ task.claim.connectId = id

section

variable {σ ι : Type} (registry : ConnectSessionRegistry σ ι)

/-- The session is to be cancelled, and who was confirming it holds it no more. -/
structure Sealed (sys : System σ) (id : ℕ) : Prop where
  doomed : (view registry sys.store).Doomed id
  overtaken : ∀ task ∈ sys.tasks, task.confirms id →
    ¬ (view registry sys.store).HeldBy id task.claim.token

/-- Since a session was released no claim to confirm it was given out, and no scan was started
on it. -/
structure ReleasedForGood (sys : System σ) : Prop where
  claims : ∀ id past, .released id past ∈ sys.deeds →
    ∃ new, (registry.past sys.store).log = new ++ past.log ∧ ∀ e ∈ new, e.confirm? id = none
  scans : ∀ new old id past, sys.deeds = new ++ .released id past :: old → .started id ∉ new

structure System.Sound (WellFormed : σ → Prop) (sys : System σ) : Prop where
  wellFormed : WellFormed sys.store
  lives : (view registry sys.store).Sound
  cancels : (view registry sys.store).Cancels
  granted : ∀ task ∈ sys.tasks, Granted registry sys.store task.claim
  tokens : (sys.tasks.map fun task => task.claim.token).Nodup
  confirming : ∀ task ∈ sys.tasks, task.stage.early → task.stage ≠ .recovering →
    task.claim.action = .confirm
  releasing : ∀ task ∈ sys.tasks, task.stage = .releasing → Sealed registry sys task.claim.connectId
  released : ∀ id past, .released id past ∈ sys.deeds → Sealed registry sys id

/-- The claim is the one that is stored. -/
def Holds (s : σ) (claim : ConnectSessionClaim) : Prop :=
  ∃ l ∈ registry.life s claim.connectId, l.holder.map Prod.fst = some claim.token

def Requested (s : σ) (id : ℕ) : Prop :=
  ∃ l ∈ registry.life s id, l.cancelRequested = true

def Kept (s : σ) (id : ℕ) : Prop :=
  ∃ l ∈ registry.life s id, l.cancelRequested = false

instance (s : σ) (claim : ConnectSessionClaim) : Decidable (Holds registry s claim) := by
  unfold Holds
  infer_instance

instance (s : σ) (id : ℕ) : Decidable (Requested registry s id) := by
  unfold Requested
  infer_instance

instance (s : σ) (id : ℕ) : Decidable (Kept registry s id) := by
  unfold Kept
  infer_instance

/-- A claim that confirms is completed as a cancellation only when one was requested, and a scan
is started only under a claim that is still stored, or while no cancellation was requested. -/
def Careful (sys : System σ) : Event ι → Prop
  | .proceed _ i _ => ∀ task ∈ sys.tasks[i]?,
    (task.stage = .cancelling → task.claim.action = .confirm → Holds registry sys.store task.claim →
      Requested registry sys.store task.claim.connectId) ∧
    (task.stage = .starting →
      Holds registry sys.store task.claim ∨ Kept registry sys.store task.claim.connectId)
  | _ => True

instance (sys : System σ) (e : Event ι) : Decidable (Careful registry sys e) := by
  cases e <;> unfold Careful <;> infer_instance

/-- What one step of a call does. -/
structure Proceeds (s : σ) (task : Task) (out : σ × Option Task × List Deed) : Prop where
  calls : out.1 = s ∨ ∃ call, step registry s call = some out.1
  claim : ∀ next ∈ out.2.1, next.claim = task.claim
  early : ∀ next ∈ out.2.1, next.stage.early → task.stage.early ∧ next.stage ≠ .recovering ∧
    (task.stage = .recovering → task.claim.action = .confirm)
  releasing : ∀ next ∈ out.2.1, next.stage = .releasing →
    task.stage = .cancelling ∧ (view registry s).HeldBy task.claim.connectId task.claim.token
  deeds : out.2.2 = [] ∨
    (out.2.2 = [.started task.claim.connectId] ∧ task.stage = .starting) ∨
    (out.2.2 = [.released task.claim.connectId (registry.past s)] ∧ task.stage = .releasing ∧ out.1 = s)

end

section

variable {σ ι : Type} {registry : ConnectSessionRegistry σ ι} {empty : σ} {WellFormed : σ → Prop}
  {required now : ℤ} {v : Option ℚ} {s t : σ} {task : Task} {sys next : System σ} {e : Event ι}
  {answer : Answer} {terminal : Bool} {id : ℕ}

theorem failed_spec {next : Task} (h : next ∈ task.failed terminal) :
    next.claim = task.claim ∧ next.stage.early = false ∧ next.stage ≠ .releasing := by
  unfold Task.failed at h
  split at h
  · obtain rfl := Option.some.inj h
    exact ⟨rfl, rfl, nofun⟩
  · obtain rfl := Option.some.inj h
    exact ⟨rfl, rfl, nofun⟩
  · obtain rfl := Option.some.inj h
    exact ⟨rfl, rfl, nofun⟩
  · cases h

theorem notCancelled_spec {next : Task} (h : next ∈ task.notCancelled terminal) :
    next.claim = task.claim ∧ next.stage.early = false ∧ next.stage ≠ .releasing := by
  unfold Task.notCancelled at h
  split at h
  · obtain rfl := Option.some.inj h
    exact ⟨rfl, rfl, nofun⟩
  · obtain rfl := Option.some.inj h
    exact ⟨rfl, rfl, nofun⟩
  · split at h
    · obtain rfl := Option.some.inj h
      exact ⟨rfl, rfl, nofun⟩
    · cases h
  · cases h
  · cases h

/-- The call is over, or has come to a stage that is neither early nor one of releasing. -/
theorem proceeds_late {next : Option Task} (hcalls : t = s ∨ ∃ call, step registry s call = some t)
    (hnext : ∀ task' ∈ next, task'.claim = task.claim ∧ task'.stage.early = false ∧ task'.stage ≠ .releasing) :
    Proceeds registry s task (t, next, []) := by
  refine ⟨hcalls, fun task' h => (hnext task' h).1, fun task' h hearly => ?_, fun task' h hreleasing => ?_,
    .inl rfl⟩
  · rw [(hnext task' h).2.1] at hearly
    cases hearly
  · exact absurd hreleasing (hnext task' h).2.2

/-- The call is over. -/
theorem proceeds_over (hcalls : t = s ∨ ∃ call, step registry s call = some t) :
    Proceeds registry s task (t, none, []) := by
  refine proceeds_late hcalls fun task' h => ?_
  cases h

/-- The call goes on to a stage. -/
theorem proceeds_to {stage : Stage} (hcalls : t = s ∨ ∃ call, step registry s call = some t)
    (hearly : stage.early → task.stage.early ∧ stage ≠ .recovering ∧
      (task.stage = .recovering → task.claim.action = .confirm))
    (hreleasing : stage ≠ .releasing) :
    Proceeds registry s task (t, some { task with stage }, []) := by
  refine ⟨hcalls, fun task' h => ?_, fun task' h => ?_, fun task' h => ?_, .inl rfl⟩
  · obtain rfl := Option.some.inj h
    rfl
  · obtain rfl := Option.some.inj h
    exact hearly
  · obtain rfl := Option.some.inj h
    exact fun h => absurd h hreleasing

theorem proceeds (hanswers : Answers registry WellFormed) (hs : WellFormed s)
    (hgranted : Granted registry s task.claim) :
    Proceeds registry s task (proceed registry required v s now task answer) := by
  have hrenew : ∃ call, step registry s call = some (registry.renew s now task.claim v).1 :=
    ⟨.renew now task.claim v, if_pos hgranted⟩
  have hack : ∃ call, step registry s call = some (registry.ack s now task.claim).1 :=
    ⟨.ack now task.claim, if_pos hgranted⟩
  have hdefer : ∃ call, step registry s call = some (registry.defer s now task.claim).1 :=
    ⟨.defer now task.claim, if_pos hgranted⟩
  have hheld := hanswers.renewed s now task.claim v hs
  -- From an early stage other than the first of a recovery a call goes on to one like it.
  have hon : ∀ {t : σ} {stage : Stage}, (t = s ∨ ∃ call, step registry s call = some t) →
      task.stage.early = true → task.stage ≠ .recovering → stage ≠ .recovering → stage ≠ .releasing →
      Proceeds registry s task (t, some { task with stage }, []) :=
    fun hcalls hearly hnot hstage hreleasing =>
      proceeds_to hcalls (fun _ => ⟨hearly, hstage, fun h => absurd h hnot⟩) hreleasing
  unfold proceed
  cases hstage : task.stage with
  | authorizing =>
    dsimp only
    cases answer with
    | failed terminal => exact proceeds_late (.inl rfl) fun _ => failed_spec
    | ok =>
      dsimp only
      split
      · exact proceeds_late (.inl rfl) fun _ => failed_spec
      · exact hon (.inl rfl) (by rw [hstage]; rfl) (by rw [hstage]; nofun) nofun nofun
  | recovering =>
    dsimp only
    split
    · exact proceeds_to (.inl rfl) nofun nofun
    · exact proceeds_to (.inl rfl) nofun nofun
    · exact proceeds_late (.inl rfl) fun _ => failed_spec
    · rename_i haction _
      split
      · exact proceeds_late (.inl rfl) fun _ => failed_spec
      · exact proceeds_to (.inl rfl) (fun _ => ⟨by rw [hstage]; rfl, nofun, fun _ => haction⟩) nofun
  | renewing | renewingAgain =>
    dsimp only
    generalize registry.renew s now task.claim v = out at hrenew
    obtain ⟨t, state⟩ := out
    cases state with
    | cancelled | lost => exact proceeds_late (.inr hrenew) fun _ => failed_spec
    | active => exact hon (.inr hrenew) (by rw [hstage]; rfl) (by rw [hstage]; nofun) nofun nofun
  | storing =>
    dsimp only
    split
    · exact proceeds_late (.inl rfl) fun _ => failed_spec
    · cases answer with
      | failed terminal => exact proceeds_late (.inl rfl) fun _ => failed_spec
      | ok => exact hon (.inl rfl) (by rw [hstage]; rfl) (by rw [hstage]; nofun) nofun nofun
  | starting =>
    dsimp only
    have hlate : ∀ next, Proceeds registry s task (s, next, []) →
        Proceeds registry s task (s, next, [.started task.claim.connectId]) := fun next h =>
      ⟨h.calls, h.claim, h.early, h.releasing, .inr (.inl ⟨rfl, hstage⟩)⟩
    cases answer with
    | failed terminal => exact hlate _ (proceeds_late (.inl rfl) fun _ => failed_spec)
    | ok => exact hlate _ (proceeds_to (.inl rfl) nofun nofun)
  | handingOff =>
    dsimp only
    generalize registry.ack s now task.claim = out at hack
    obtain ⟨t, done⟩ := out
    cases done with
    | true => exact proceeds_over (.inr hack)
    | false => exact proceeds_to (.inr hack) nofun nofun
  | renewingAfter =>
    dsimp only
    generalize registry.renew s now task.claim v = out at hrenew
    obtain ⟨t, state⟩ := out
    cases state <;> exact proceeds_late (.inr hrenew) fun _ => failed_spec
  | cancelling =>
    dsimp only
    generalize registry.renew s now task.claim v = out at hrenew hheld
    obtain ⟨t, state⟩ := out
    have hreleasing : state ≠ .lost →
        Proceeds registry s task (t, some { task with stage := .releasing }, []) := by
      intro hstate
      refine ⟨.inr hrenew, fun task' h => ?_, fun task' h hearly => ?_, fun task' h _ => ?_, .inl rfl⟩
      · obtain rfl := Option.some.inj h
        rfl
      · obtain rfl := Option.some.inj h
        cases hearly
      · exact ⟨hstage, hheld hstate⟩
    cases state with
    | lost => exact proceeds_late (.inr hrenew) fun _ => notCancelled_spec
    | active => exact hreleasing nofun
    | cancelled => exact hreleasing nofun
  | releasing =>
    dsimp only
    cases answer with
    | failed terminal => exact proceeds_late (.inl rfl) fun _ => notCancelled_spec
    | ok =>
      have hlate : Proceeds registry s task (s, some { task with stage := .acknowledging }, []) :=
        proceeds_to (.inl rfl) nofun nofun
      exact ⟨hlate.calls, hlate.claim, hlate.early, hlate.releasing, .inr (.inr ⟨rfl, hstage, rfl⟩)⟩
  | acknowledging => exact proceeds_over (.inr hack)
  | deferring => exact proceeds_over (.inr hdefer)

/-- The claim was given out from the one view to the other. -/
def GivenOut (a b : View) (claim : ConnectSessionClaim) : Prop :=
  ∃ new, b.past.log = new ++ a.past.log ∧ .granted claim ∈ new

theorem givenOut_of_handed {a b : View} {claims : List ConnectSessionClaim} (h : Handed a b claims)
    {claim : ConnectSessionClaim} (hclaim : claim ∈ claims) : GivenOut a b claim :=
  ⟨_, h.log, List.mem_map.2 ⟨claim, List.mem_reverse.2 hclaim, rfl⟩⟩

/-- No claim that confirms was given out for a session that no confirm claim was given out for. -/
theorem not_confirm_of_givenOut {a b : View} {claim : ConnectSessionClaim} (h : GivenOut a b claim)
    (hnone : a.NoConfirms b claim.connectId) : claim.action ≠ .confirm := by
  intro haction
  obtain ⟨new, hnew, hmem⟩ := h
  obtain ⟨new', hnew', hnone⟩ := hnone
  obtain rfl : new = new' := List.append_cancel_right (hnew.symm.trans hnew')
  have hconfirm := hnone _ hmem
  rw [Entry.confirm?, if_pos ⟨rfl, haction⟩] at hconfirm
  cases hconfirm

theorem System.Sound.token_lt (hs : sys.Sound registry WellFormed) (htask : task ∈ sys.tasks) :
    task.claim.token < (view registry sys.store).past.fresh :=
  hs.cancels.fresh task.claim (hs.granted task htask)

/-- What is sealed stays sealed: who holds a claim to confirm it had it before, and was overtaken. -/
theorem Sealed.later {mayGo : ℕ → Prop} (h : Sealed registry sys id) (hs : sys.Sound registry WellFormed)
    (hmoves : Moves mayGo (view registry sys.store) (view registry next.store))
    (htasks : ∀ task ∈ next.tasks, task.confirms id →
      GivenOut (view registry sys.store) (view registry next.store) task.claim ∨
        ∃ old ∈ sys.tasks, old.claim = task.claim ∧ old.confirms id) : Sealed registry next id := by
  obtain ⟨hdoomed, hnone⟩ := hmoves.doomed h.doomed
  refine ⟨hdoomed, fun task htask hconfirms hheld => ?_⟩
  rcases htasks task htask hconfirms with hgiven | ⟨old, hold, hclaim, hconfirms'⟩
  · obtain ⟨-, haction, hid⟩ := hconfirms
    exact not_confirm_of_givenOut hgiven (hid ▸ hnone) haction
  · rw [← hclaim] at hheld
    exact h.overtaken old hold hconfirms' (Moves.heldBy hmoves (hs.token_lt hold) hheld)

/-- New claims are carried by new calls, and nothing else is changed but the registry. -/
theorem System.Sound.begun {mayGo : ℕ → Prop} {claims : List ConnectSessionClaim}
    {begin : ConnectSessionClaim → Task} (hs : sys.Sound registry WellFormed)
    (hwell : WellFormed t) (hmoves : Moves mayGo (view registry sys.store) (view registry t))
    (hclaims : claims = [] ∨ Handed (view registry sys.store) (view registry t) claims)
    (hclaim : ∀ claim, (begin claim).claim = claim)
    (hstage : ∀ claim, (begin claim).stage ≠ .releasing ∧
      ((begin claim).stage.early → (begin claim).stage ≠ .recovering → claim.action = .confirm)) :
    System.Sound registry WellFormed
      { sys with store := t, tasks := sys.tasks ++ claims.map begin } := by
  have hhanded : ∀ claim ∈ claims, GivenOut (view registry sys.store) (view registry t) claim ∧
      (view registry sys.store).past.fresh ≤ claim.token := by
    rcases hclaims with rfl | hclaims
    · exact nofun
    · exact fun claim h => ⟨givenOut_of_handed hclaims h, (hclaims.fresh claim h).1⟩
  have htokens : (claims.map ConnectSessionClaim.token).Nodup := by
    rcases hclaims with rfl | hclaims
    · exact List.nodup_nil
    · exact hclaims.tokens
  have hmem : ∀ task ∈ sys.tasks ++ claims.map begin, task ∈ sys.tasks ∨
      ∃ claim ∈ claims, begin claim = task := fun task htask =>
    (List.mem_append.1 htask).imp_right List.mem_map.1
  have hsealed : ∀ id, Sealed registry sys id →
      Sealed registry { sys with store := t, tasks := sys.tasks ++ claims.map begin } id := by
    refine fun id h => h.later hs hmoves fun task htask hconfirms => ?_
    rcases hmem task htask with htask | ⟨claim, hmem, rfl⟩
    · exact .inr ⟨task, htask, rfl, hconfirms⟩
    · rw [hclaim]
      exact .inl (hhanded claim hmem).1
  refine ⟨hwell, hmoves.sound hs.lives, hmoves.cancels hs.lives hs.cancels, fun task htask => ?_, ?_,
    fun task htask => ?_, fun task htask hreleasing => ?_, fun id past hdeed => hsealed id (hs.released id past hdeed)⟩
  · rcases hmem task htask with htask | ⟨claim, hmem, rfl⟩
    · exact (Moves.log_grows hmoves).subset (hs.granted task htask)
    · obtain ⟨new, hnew, hnewmem⟩ := (hhanded claim hmem).1
      rw [hclaim, Granted]
      have hlog : (registry.past t).log = new ++ _ := hnew
      rw [hlog]
      exact List.mem_append_left _ hnewmem
  · have hcomp : (claims.map begin).map (fun task => task.claim.token) =
        claims.map ConnectSessionClaim.token := by
      rw [List.map_map]
      exact List.map_congr_left fun claim _ => congrArg ConnectSessionClaim.token (hclaim claim)
    rw [List.map_append, hcomp, List.nodup_append]
    refine ⟨hs.tokens, htokens, fun token htoken token' htoken' heq => ?_⟩
    obtain ⟨task, htask, rfl⟩ := List.mem_map.1 htoken
    obtain ⟨claim, hmem, rfl⟩ := List.mem_map.1 htoken'
    have hlt := hs.token_lt htask
    have hge := (hhanded claim hmem).2
    omega
  · rcases hmem task htask with htask | ⟨claim, hmem, rfl⟩
    · exact hs.confirming task htask
    · rw [hclaim]
      exact (hstage claim).2
  · rcases hmem task htask with htask | ⟨claim, hmem, rfl⟩
    · exact hsealed _ (hs.releasing task htask hreleasing)
    · exact absurd hreleasing (hstage claim).1

/-- Where calls only end, what holds of them holds still. -/
theorem System.Sound.fewer {tasks : List Task} (hs : sys.Sound registry WellFormed)
    (htasks : tasks.Sublist sys.tasks) : System.Sound registry WellFormed { sys with tasks } := by
  have hsealed : ∀ id, Sealed registry sys id → Sealed registry { sys with tasks } id :=
    fun id h => ⟨h.doomed, fun task htask => h.overtaken task (htasks.subset htask)⟩
  exact ⟨hs.wellFormed, hs.lives, hs.cancels, fun task htask => hs.granted task (htasks.subset htask),
    hs.tokens.sublist (htasks.map _), fun task htask => hs.confirming task (htasks.subset htask),
    fun task htask h => hsealed _ (hs.releasing task (htasks.subset htask) h),
    fun id past h => hsealed id (hs.released id past h)⟩

theorem holds_iff {claim : ConnectSessionClaim} :
    Holds registry s claim ↔ (view registry s).HeldBy claim.connectId claim.token := by
  constructor
  · rintro ⟨l, hl, hholder⟩
    obtain ⟨⟨t, action⟩, hholder, rfl⟩ := Option.map_eq_some_iff.1 hholder
    exact ⟨l, action, hl, hholder⟩
  · rintro ⟨l, action, hl, hholder⟩
    exact ⟨l, hl, congrArg (Option.map Prod.fst) hholder⟩

theorem doomed_of_requested (hlives : (view registry s).Sound) (h : Requested registry s id) :
    (view registry s).Doomed id := by
  obtain ⟨l, hl, hrequested⟩ := h
  refine ⟨hlives.mem_used hl, fun l' hl' => ?_⟩
  obtain rfl := Option.some.inj (hl.symm.trans hl')
  exact hrequested

/-- One token is stored on a session. -/
theorem heldBy_unique {a : View} {token token' : ℕ} (h : a.HeldBy id token) (h' : a.HeldBy id token') :
    token = token' := by
  obtain ⟨l, action, hl, hholder⟩ := h
  obtain ⟨l', action', hl', hholder'⟩ := h'
  obtain rfl := Option.some.inj (hl.symm.trans hl')
  exact congrArg Prod.fst (Option.some.inj (hholder.symm.trans hholder'))

theorem System.Sound.task_unique (hs : sys.Sound registry WellFormed) {task' : Task} (h : task ∈ sys.tasks)
    (h' : task' ∈ sys.tasks) (htoken : task.claim.token = task'.claim.token) : task = task' :=
  List.inj_on_of_nodup_map hs.tokens h h' htoken

/-- Who is about to release a session, and may, has overtaken who was confirming it. -/
theorem System.Sound.sealed_of_renewed (hs : sys.Sound registry WellFormed) (htask : task ∈ sys.tasks)
    (hstage : task.stage = .cancelling)
    (hcareful : task.claim.action = .confirm → Holds registry sys.store task.claim →
      Requested registry sys.store task.claim.connectId)
    (hheld : (view registry sys.store).HeldBy task.claim.connectId task.claim.token) :
    Sealed registry sys task.claim.connectId := by
  constructor
  · cases haction : task.claim.action with
    | cancel => exact hs.cancels.granted task.claim (hs.granted task htask) haction
    | confirm => exact doomed_of_requested hs.lives (hcareful haction (holds_iff.2 hheld))
  · intro task' htask' hconfirms hheld'
    obtain rfl := hs.task_unique htask htask' (heldBy_unique hheld hheld')
    have hearly := hconfirms.1
    rw [hstage] at hearly
    cases hearly

/-- A call has gone one step on. -/
structure Stepped (registry : ConnectSessionRegistry σ ι) (WellFormed : σ → Prop) (sys : System σ)
    (task : Task) (next : System σ) : Prop where
  wellFormed : WellFormed next.store
  moves : ∃ mayGo, Moves mayGo (view registry sys.store) (view registry next.store)
  tokens : (next.tasks.map fun task => task.claim.token).Sublist
    (sys.tasks.map fun task => task.claim.token)
  tasks : ∀ task' ∈ next.tasks, task' ∈ sys.tasks ∨ task'.claim = task.claim ∧
    (task'.stage.early → task.stage.early ∧ task'.stage ≠ .recovering ∧
      (task.stage = .recovering → task.claim.action = .confirm)) ∧
    (task'.stage = .releasing → task.stage = .cancelling ∧
      (view registry sys.store).HeldBy task.claim.connectId task.claim.token)
  deeds : next.deeds = sys.deeds ∨
    next.deeds = .started task.claim.connectId :: sys.deeds ∧ task.stage = .starting ∨
    next.deeds = .released task.claim.connectId (registry.past sys.store) :: sys.deeds ∧
      task.stage = .releasing ∧ next.store = sys.store

theorem map_set_token {i : ℕ} {tasks : List Task} (h : tasks[i]? = some task) {task' : Task}
    (hclaim : task'.claim = task.claim) :
    (tasks.set i task').map (fun task => task.claim.token) = tasks.map fun task => task.claim.token := by
  rw [List.map_set]
  refine List.ext_getElem? fun j => ?_
  rw [List.getElem?_set]
  split
  · rename_i hij
    subst hij
    rw [List.getElem?_map, h, hclaim]
    obtain ⟨hlt, -⟩ := List.getElem?_eq_some_iff.1 h
    simp [hlt]
  · rfl

theorem stepped (hlawful : Lawful registry empty WellFormed) (hanswers : Answers registry WellFormed)
    (hs : sys.Sound registry WellFormed) {i : ℕ} (htask : sys.tasks[i]? = some task)
    (h : happen registry required v sys (.proceed now i answer) = some next) :
    Stepped registry WellFormed sys task next := by
  have hmem : task ∈ sys.tasks := List.mem_of_getElem? htask
  have hproceeds : Proceeds registry sys.store task (proceed registry required v sys.store now task answer) :=
    proceeds hanswers hs.wellFormed (hs.granted task hmem)
  simp only [happen, htask, Option.bind_eq_bind, Option.bind_some] at h
  obtain rfl := Option.some.inj h
  generalize proceed registry required v sys.store now task answer = out at hproceeds
  obtain ⟨store, task', deeds⟩ := out
  obtain ⟨hcalls, hclaim, hearly, hreleasing, hdeeds⟩ := hproceeds
  have hmoves : WellFormed store ∧ ∃ mayGo, Moves mayGo (view registry sys.store) (view registry store) := by
    rcases hcalls with hsame | ⟨call, hcall⟩
    · obtain rfl : store = sys.store := hsame
      exact ⟨hs.wellFormed, fun _ => True, .refl⟩
    · obtain ⟨hwell, hmoves⟩ := hlawful.moves sys.store call store hs.wellFormed hcall
      exact ⟨hwell, _, hmoves⟩
  refine ⟨hmoves.1, hmoves.2, ?_, fun task'' htask'' => ?_, ?_⟩
  · cases task' with
    | none => exact (List.eraseIdx_sublist _ _).map _
    | some task' => rw [map_set_token htask (hclaim task' rfl)]
  · cases task' with
    | none => exact .inl (List.mem_of_mem_eraseIdx htask'')
    | some task' =>
      refine (List.mem_or_eq_of_mem_set htask'').imp_right ?_
      rintro rfl
      exact ⟨hclaim task'' rfl, hearly task'' rfl, hreleasing task'' rfl⟩
  · rcases hdeeds with hdeeds | ⟨hdeeds, hstage⟩ | ⟨hdeeds, hstage, hsame⟩
    · obtain rfl : deeds = [] := hdeeds
      exact .inl rfl
    · obtain rfl : deeds = _ := hdeeds
      exact .inr (.inl ⟨rfl, hstage⟩)
    · obtain rfl : deeds = _ := hdeeds
      exact .inr (.inr ⟨rfl, hstage, hsame⟩)

theorem System.Sound.stepped (hs : sys.Sound registry WellFormed) (htask : task ∈ sys.tasks)
    (hcareful : task.stage = .cancelling → task.claim.action = .confirm →
      Holds registry sys.store task.claim → Requested registry sys.store task.claim.connectId)
    (h : Stepped registry WellFormed sys task next) : next.Sound registry WellFormed := by
  obtain ⟨mayGo, hmoves⟩ := h.moves
  have hsealed : ∀ id, Sealed registry sys id → Sealed registry next id := by
    refine fun id hid => hid.later hs hmoves fun task' htask' hconfirms => .inr ?_
    rcases h.tasks task' htask' with hold | ⟨hclaim, hearly, -⟩
    · exact ⟨task', hold, rfl, hconfirms⟩
    · refine ⟨task, htask, hclaim.symm, (hearly hconfirms.1).1, ?_⟩
      rw [← hclaim]
      exact hconfirms.2
  refine ⟨h.wellFormed, hmoves.sound hs.lives, hmoves.cancels hs.lives hs.cancels,
    fun task' htask' => ?_, hs.tokens.sublist h.tokens, fun task' htask' hearly' hstage => ?_,
    fun task' htask' hreleasing' => ?_, fun id past hdeed => ?_⟩
  · have hgrows := Moves.log_grows hmoves
    rcases h.tasks task' htask' with hold | ⟨hclaim, -⟩
    · exact hgrows.subset (hs.granted task' hold)
    · rw [hclaim]
      exact hgrows.subset (hs.granted task htask)
  · rcases h.tasks task' htask' with hold | ⟨hclaim, hearly, -⟩
    · exact hs.confirming task' hold hearly' hstage
    · obtain ⟨hwas, -, hrecovering⟩ := hearly hearly'
      rw [hclaim]
      by_cases hrec : task.stage = .recovering
      · exact hrecovering hrec
      · exact hs.confirming task htask hwas hrec
  · rcases h.tasks task' htask' with hold | ⟨hclaim, -, hreleasing⟩
    · exact hsealed _ (hs.releasing task' hold hreleasing')
    · obtain ⟨hstage, hheld⟩ := hreleasing hreleasing'
      rw [hclaim]
      exact hsealed _ (hs.sealed_of_renewed htask hstage (hcareful hstage) hheld)
  · rcases h.deeds with hdeeds | ⟨hdeeds, -⟩ | ⟨hdeeds, hstage, -⟩ <;> rw [hdeeds] at hdeed
    · exact hsealed id (hs.released id past hdeed)
    · exact hsealed id (hs.released id past ((List.mem_cons.1 hdeed).resolve_left nofun))
    · rcases List.mem_cons.1 hdeed with heq | hdeed
      · obtain ⟨rfl, -⟩ := Deed.released.inj heq
        exact hsealed _ (hs.releasing task htask hstage)
      · exact hsealed id (hs.released id past hdeed)

/-- One event on the whole: what it does to the registry, and what was done to Steel. -/
structure Follows (registry : ConnectSessionRegistry σ ι) (WellFormed : σ → Prop) (sys next : System σ) :
    Prop where
  sound : next.Sound registry WellFormed
  moves : ∃ mayGo, Moves mayGo (view registry sys.store) (view registry next.store)
  deeds : next.deeds = sys.deeds ∨
    (∃ task ∈ sys.tasks, next.deeds = .started task.claim.connectId :: sys.deeds ∧ task.stage = .starting ∧
      (Holds registry sys.store task.claim ∨ Kept registry sys.store task.claim.connectId)) ∨
    ∃ id, next.deeds = .released id (registry.past sys.store) :: sys.deeds ∧ next.store = sys.store

theorem confirmTask_stage (claim : ConnectSessionClaim) : (confirmTask claim).stage ≠ .releasing ∧
    ((confirmTask claim).stage.early → (confirmTask claim).stage ≠ .recovering →
      claim.action = .confirm) := by
  unfold confirmTask
  split
  · exact ⟨nofun, nofun⟩
  · rename_i haction
    refine ⟨nofun, fun _ _ => ?_⟩
    cases hclaim : claim.action with
    | cancel => exact absurd hclaim haction
    | confirm => rfl

theorem follows_begin {result : σ × ConnectSessionClaimResult} (call : Call ι)
    {task : ConnectSessionClaim → Task} (hlawful : Lawful registry empty WellFormed)
    (hs : sys.Sound registry WellFormed) (hcall : step registry sys.store call = some result.1)
    (hclaimed : ∀ claim, result.2 = .claimed claim →
      Handed (view registry sys.store) (view registry result.1) [claim])
    (hclaim : ∀ claim, (task claim).claim = claim)
    (hstage : ∀ claim, (task claim).stage ≠ .releasing ∧
      ((task claim).stage.early → (task claim).stage ≠ .recovering → claim.action = .confirm)) :
    Follows registry WellFormed sys (sys.begin result task) := by
  obtain ⟨hwell, hmoves⟩ := hlawful.moves sys.store call result.1 hs.wellFormed hcall
  have hbegun : ∀ claims, claims = [] ∨ Handed (view registry sys.store) (view registry result.1) claims →
      Follows registry WellFormed sys { sys with store := result.1, tasks := sys.tasks ++ claims.map task } :=
    fun claims hclaims => ⟨hs.begun hwell hmoves hclaims hclaim hstage, ⟨_, hmoves⟩, .inl rfl⟩
  unfold System.begin
  cases hresult : result.2 with
  | claimed claim => exact hbegun [claim] (.inr (hclaimed claim hresult))
  | busy | notFound | ownershipMismatch | failed message =>
    have hnone := hbegun [] (.inl rfl)
    rw [List.map_nil, List.append_nil] at hnone
    exact hnone

theorem follows (hlawful : Lawful registry empty WellFormed) (hanswers : Answers registry WellFormed)
    (hs : sys.Sound registry WellFormed) (hcareful : Careful registry sys e)
    (h : happen registry required v sys e = some next) : Follows registry WellFormed sys next := by
  -- Where only the registry is called, the calls under way are the same.
  have hcalled : ∀ call t, step registry sys.store call = some t →
      Follows registry WellFormed sys { sys with store := t } := fun call t hcall => by
    obtain ⟨hwell, hmoves⟩ := hlawful.moves sys.store call t hs.wellFormed hcall
    have hsound : System.Sound registry WellFormed
        { sys with store := t, tasks := sys.tasks ++ [].map confirmTask } :=
      hs.begun hwell hmoves (.inl rfl) (fun _ => rfl) confirmTask_stage
    rw [List.map_nil, List.append_nil] at hsound
    exact ⟨hsound, ⟨_, hmoves⟩, .inl rfl⟩
  cases e with
  | put now connectId session =>
    simp only [happen] at h
    split at h
    · cases h
    · rename_i hnew
      obtain rfl := Option.some.inj h
      exact hcalled (.put now connectId session) _ (if_neg hnew)
  | confirmAndScan now connectId principal proposedWork decrypts =>
    obtain rfl := Option.some.inj h
    exact follows_begin (.claim now principal
      ⟨connectId, "", .confirm, v, some proposedWork, none, decrypts⟩) hlawful hs rfl
      (fun claim hclaim => hanswers.claimed _ _ _ claim hs.wellFormed hclaim) (fun _ => rfl)
      confirmTask_stage
  | cancel now connectId principal decrypts =>
    obtain rfl := Option.some.inj h
    exact follows_begin (.claim now principal ⟨connectId, "", .cancel, v, none, none, decrypts⟩)
      hlawful hs rfl (fun claim hclaim => hanswers.claimed _ _ _ claim hs.wellFormed hclaim) (fun _ => rfl)
      fun claim => ⟨nofun, nofun⟩
  | markConsentRevoked now consentId tenantId ttlMs =>
    obtain rfl := Option.some.inj h
    exact hcalled (.markConsentRevoked now consentId tenantId ttlMs) _ rfl
  | claimByConsent now connectId tenantId due decrypts =>
    obtain rfl := Option.some.inj h
    exact follows_begin (.claimForSystem now
      ⟨connectId, tenantId, .cancel, v, none, none, decrypts⟩) hlawful hs rfl
      (fun claim hclaim => hanswers.claimed _ _ _ claim hs.wellFormed hclaim) (fun _ => rfl)
      fun claim => ⟨nofun, nofun⟩
  | recoverAbandoned now sweep =>
    obtain rfl := Option.some.inj h
    obtain ⟨hwell, hmoves⟩ := hlawful.moves sys.store (.claimExpired now sweep v) _ hs.wellFormed rfl
    refine ⟨hs.begun hwell hmoves (.inr (hanswers.expired _ _ _ _ hs.wellFormed)) (fun _ => rfl)
      fun claim => ⟨nofun, fun _ h => absurd rfl h⟩, ⟨_, hmoves⟩, .inl rfl⟩
  | expire now connectId =>
    obtain rfl := Option.some.inj h
    exact hcalled (.expire now connectId) _ rfl
  | proceed now i answer =>
    obtain ⟨task, htask, -⟩ := Option.bind_eq_some_iff.1 h
    have hmem : task ∈ sys.tasks := List.mem_of_getElem? htask
    obtain ⟨hcancelling, hstarting⟩ := hcareful task htask
    have hstepped : Stepped registry WellFormed sys task next := stepped hlawful hanswers hs htask h
    refine ⟨hs.stepped hmem hcancelling hstepped, hstepped.moves, ?_⟩
    rcases hstepped.deeds with hdeeds | ⟨hdeeds, hstage⟩ | ⟨hdeeds, -, hsame⟩
    · exact .inl hdeeds
    · exact .inr (.inl ⟨task, hmem, hdeeds, hstage, hstarting hstage⟩)
    · exact .inr (.inr ⟨_, hdeeds, hsame⟩)
  | crash i =>
    obtain rfl := Option.some.inj h
    exact ⟨hs.fewer (List.eraseIdx_sublist _ _), ⟨fun _ => True, .refl⟩, .inl rfl⟩

/-- A sealed session was released for good: a scan on it would be started under a claim that is
neither stored nor one of a session to be kept. -/
theorem releasedForGood_of_follows (hs : sys.Sound registry WellFormed) (hgood : ReleasedForGood registry sys)
    (h : Follows registry WellFormed sys next) : ReleasedForGood registry next := by
  obtain ⟨mayGo, hmoves⟩ := h.moves
  have hclaims : ∀ id past, .released id past ∈ sys.deeds →
      ∃ new, (registry.past next.store).log = new ++ past.log ∧ ∀ e ∈ new, e.confirm? id = none := by
    intro id past hdeed
    obtain ⟨new, hnew, hnone⟩ := hgood.claims id past hdeed
    obtain ⟨-, new', hnew', hnone'⟩ := hmoves.doomed (hs.released id past hdeed).doomed
    have hlog : (registry.past next.store).log = new' ++ (registry.past sys.store).log := hnew'
    refine ⟨new' ++ new, by rw [hlog, hnew, List.append_assoc], fun e he => ?_⟩
    rcases List.mem_append.1 he with he | he
    · exact hnone' e he
    · exact hnone e he
  -- Where the deeds go on by one, a release is the last or was one of those before.
  have hscans : ∀ deed, (∀ id past, .released id past ∈ sys.deeds → deed ≠ .started id) →
      ∀ new old id past, deed :: sys.deeds = new ++ .released id past :: old → .started id ∉ new := by
    intro deed hnot new old id past hdeeds
    cases new with
    | nil => exact List.not_mem_nil
    | cons deed' new =>
      obtain ⟨rfl, hrest⟩ := List.cons.inj hdeeds
      have hmem : .released id past ∈ sys.deeds := by
        rw [hrest]
        exact List.mem_append_right _ List.mem_cons_self
      rw [List.mem_cons, not_or]
      exact ⟨Ne.symm (hnot id past hmem), hgood.scans new old id past hrest⟩
  rcases h.deeds with hdeeds | ⟨task, htask, hdeeds, hstage, hstarts⟩ | ⟨id, hdeeds, hsame⟩
  · exact ⟨by rw [hdeeds]; exact hclaims, by rw [hdeeds]; exact hgood.scans⟩
  · refine ⟨fun id past hdeed => ?_, ?_⟩
    · rw [hdeeds] at hdeed
      exact hclaims id past ((List.mem_cons.1 hdeed).resolve_left nofun)
    · rw [hdeeds]
      refine hscans _ fun id past hdeed hid => ?_
      obtain rfl := Deed.started.inj hid
      have hsealed := hs.released _ past hdeed
      have hconfirms : task.confirms task.claim.connectId := by
        have hearly : task.stage.early := by rw [hstage]; rfl
        refine ⟨hearly, hs.confirming task htask hearly ?_, rfl⟩
        rw [hstage]
        nofun
      rcases hstarts with hholds | ⟨l, hl, hkept⟩
      · exact hsealed.overtaken task htask hconfirms (holds_iff.1 hholds)
      · have hrequested := hsealed.doomed.2 l hl
        rw [hkept] at hrequested
        cases hrequested
  · refine ⟨fun id' past hdeed => ?_, ?_⟩
    · rw [hdeeds] at hdeed
      rcases List.mem_cons.1 hdeed with heq | hdeed
      · obtain ⟨-, rfl⟩ := Deed.released.inj heq
        exact ⟨[], by rw [hsame]; rfl, nofun⟩
      · exact hclaims id' past hdeed
    · rw [hdeeds]
      exact hscans _ fun _ _ _ => nofun

theorem sound_begin (hlawful : Lawful registry empty WellFormed) :
    (begin empty).Sound registry WellFormed ∧ ReleasedForGood registry (begin empty) := by
  obtain ⟨hwell, hpast, hlife⟩ := hlawful.empty
  have hlog : ∀ claim, .granted claim ∉ (view registry empty).past.log := fun claim h => by
    rw [view, hpast] at h
    cases h
  have htasks : ∀ task, task ∉ (begin empty).tasks := fun _ => List.not_mem_nil
  have hdeeds : ∀ deed, deed ∉ (begin empty).deeds := fun _ => List.not_mem_nil
  have hcancels : (view registry (begin empty).store).Cancels := by
    refine ⟨fun id l t hl => ?_, fun claim h => absurd h (hlog claim), fun claim h => absurd h (hlog claim)⟩
    have hnone : (view registry empty).life id = none := hlife id
    rw [begin, hnone] at hl
    cases hl
  refine ⟨⟨hwell, hlawful.sound_empty, hcancels, fun task h => absurd h (htasks task), List.nodup_nil,
    fun task h => absurd h (htasks task), fun task h => absurd h (htasks task),
    fun id past h => absurd h (hdeeds _)⟩, fun id past h => absurd h (hdeeds _), fun new old id past h => ?_⟩
  have hmem : .released id past ∈ (begin empty).deeds := by
    rw [h]
    exact List.mem_append_right _ List.mem_cons_self
  exact absurd hmem (hdeeds _)

theorem releasedForGood_of_careful (hlawful : Lawful registry empty WellFormed)
    (hanswers : Answers registry WellFormed) {events : List (Event ι)}
    (hcareful : Steps.Along (happen registry required v) (Careful registry) (begin empty) events)
    (h : Steps.run (happen registry required v) (begin empty) events = some sys) :
    ReleasedForGood registry sys := by
  have hrun : sys.Sound registry WellFormed ∧ ReleasedForGood registry sys := by
    refine (Steps.throughout_of_along (P := fun sys => sys.Sound registry WellFormed ∧
      ReleasedForGood registry sys) (sound_begin hlawful) hcareful fun sys e next hs he hnext => ?_).last h
    have hfollows := follows hlawful hanswers hs.1 he hnext
    exact ⟨hfollows.sound, releasedForGood_of_follows hs.1 hs.2 hfollows⟩
  exact hrun.2

end

/-- In memory and on Redis, and whether or not sessions are used again: where every call is
careful, a session that was released is confirmed no more and no scan is started on it. -/
theorem no_scan_after_release (sha256 : String → String) (warm : Bool) (required : ℤ) (v : Option ℚ) :
    (∀ events sys, Steps.Along (happen (InMemory.registry warm) required v)
        (Careful (InMemory.registry warm)) (begin InMemory.empty) events →
      Steps.run (happen (InMemory.registry warm) required v) (begin InMemory.empty) events = some sys →
      ReleasedForGood (InMemory.registry warm) sys) ∧
    ∀ events sys, Steps.Along (happen (Redis.registry sha256 warm) required v)
        (Careful (Redis.registry sha256 warm)) (begin Redis.empty) events →
      Steps.run (happen (Redis.registry sha256 warm) required v) (begin Redis.empty) events = some sys →
      ReleasedForGood (Redis.registry sha256 warm) sys :=
  ⟨fun _ _ hcareful h => releasedForGood_of_careful InMemory.lawful InMemory.answers hcareful h,
    fun _ _ hcareful h => releasedForGood_of_careful Redis.lawful Redis.answers hcareful h⟩

section

def attended : DurableConnectSession :=
  ⟨"tenant", "owner", ["artist"], "steel", none, "owner", some 3600000⟩

def theOwner : ConnectSessionPrincipal := ⟨"tenant", "owner", false⟩

/-- A confirmation is cancelled while it is under way, and is tried again. -/
def cancelledMeanwhile (ι : Type) : List (Event ι) :=
  [.put 0 0 attended,
   .confirmAndScan 1 0 theOwner ⟨"first", "now"⟩ true,
   .cancel 2 0 theOwner true,
   .proceed 3 0 .ok,
   .proceed 4 0 .ok,
   .proceed 5 0 .ok,
   .proceed 6 0 .ok,
   .proceed 7 0 .ok,
   .confirmAndScan 8 0 theOwner ⟨"second", "now"⟩ true]

theorem no_scan_after_release_cancelledMeanwhile :
    (∃ sys, Steps.run (happen (InMemory.registry true) 660000 (some 60000)) (begin InMemory.empty)
      (cancelledMeanwhile ℚ) = some sys ∧ ReleasedForGood (InMemory.registry true) sys) ∧
    ∃ sys, Steps.run (happen (Redis.registry (fun text => text) true) 660000 (some 60000))
      (begin Redis.empty) (cancelledMeanwhile Redis.Sweep) = some sys ∧
        ReleasedForGood (Redis.registry (fun text => text) true) sys := by
  have hmemory : (Steps.run (happen (InMemory.registry true) 660000 (some 60000))
      (begin InMemory.empty) (cancelledMeanwhile ℚ)).isSome := by
    decide +kernel
  have hredis : (Steps.run (happen (Redis.registry (fun text => text) true) 660000 (some 60000))
      (begin Redis.empty) (cancelledMeanwhile Redis.Sweep)).isSome := by
    decide +kernel
  obtain ⟨s, hs⟩ := Option.isSome_iff_exists.1 hmemory
  obtain ⟨t, ht⟩ := Option.isSome_iff_exists.1 hredis
  exact ⟨⟨s, hs, (no_scan_after_release (fun text => text) true _ _).1 _ s (by decide +kernel) hs⟩,
    t, ht, (no_scan_after_release (fun text => text) true _ _).2 _ t (by decide +kernel) ht⟩

/-- The owner may not edit the workspace when the login is confirmed, and may when it is confirmed
again. -/
def refusedThenAllowed (ι : Type) : List (Event ι) :=
  [.put 0 0 attended,
   .confirmAndScan 1 0 theOwner ⟨"first", "now"⟩ true,
   .proceed 2 0 (.failed true),
   .proceed 3 0 .ok,
   .proceed 4 0 .ok,
   .proceed 5 0 .ok,
   .confirmAndScan 6 0 theOwner ⟨"second", "now"⟩ true,
   .proceed 7 0 .ok,
   .proceed 8 0 .ok,
   .proceed 9 0 .ok,
   .proceed 10 0 .ok,
   .proceed 11 0 .ok]

/-- The call crashes after it has released the session that the owner may not scan, and what it
leaves is recovered. -/
def refusedThenCrashed : List (Event Redis.Sweep) :=
  [.put 0 0 attended,
   .confirmAndScan 1 0 theOwner ⟨"first", "now"⟩ true,
   .proceed 2 0 (.failed true),
   .proceed 3 0 .ok,
   .proceed 4 0 .ok,
   .crash 0,
   .recoverAbandoned 100000 ⟨0, true⟩,
   .proceed 100001 0 .ok,
   .proceed 100002 0 .ok,
   .proceed 100003 0 .ok,
   .proceed 100004 0 .ok,
   .proceed 100005 0 .ok]

/-- A scan was started on the session after its release. -/
def scannedAfter : List Deed → Bool
  | [.started 0, .released 0 _] => true
  | _ => false

theorem not_releasedForGood {σ ι : Type} {registry : ConnectSessionRegistry σ ι} {sys : System σ}
    (h : scannedAfter sys.deeds) : ¬ ReleasedForGood registry sys := by
  intro hgood
  unfold scannedAfter at h
  split at h
  · rename_i past hdeeds
    exact hgood.scans [.started 0] [] 0 past hdeeds List.mem_cons_self
  · cases h

theorem scanned_after_release :
    (∃ events sys, Steps.run (happen (InMemory.registry true) 660000 (some 60000))
      (begin InMemory.empty) events = some sys ∧ ¬ ReleasedForGood (InMemory.registry true) sys) ∧
    ∃ events sys, Steps.run (happen (Redis.registry (fun text => text) false) 660000 (some 60000))
      (begin Redis.empty) events = some sys ∧
        ¬ ReleasedForGood (Redis.registry (fun text => text) false) sys := by
  have hmemory : ∃ sys ∈ Steps.run (happen (InMemory.registry true) 660000 (some 60000))
      (begin InMemory.empty) (refusedThenAllowed ℚ), scannedAfter sys.deeds := by
    decide +kernel
  have hredis : ∃ sys ∈ Steps.run (happen (Redis.registry (fun text => text) false) 660000 (some 60000))
      (begin Redis.empty) refusedThenCrashed, scannedAfter sys.deeds := by
    decide +kernel
  obtain ⟨s, hs, hscanned⟩ := hmemory
  obtain ⟨t, ht, hscanned'⟩ := hredis
  exact ⟨⟨_, s, hs, not_releasedForGood hscanned⟩, _, t, ht, not_releasedForGood hscanned'⟩

end

end CatalogSentinel.Connect.Distributor
