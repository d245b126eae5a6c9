import CatalogSentinel.Connect.Sessions
import Mathlib.Logic.Relation

/-!
The life of a session in a registry. A cancellation that was requested is never taken
back and turns every later claim into one that cancels; the search that a confirmation
starts is chosen once, until a hand-off is acknowledged.
-/

namespace CatalogSentinel.Connect

/-- The confirm claim on the session that the entry gave out. -/
def Entry.confirm? (id : ℕ) : Entry → Option ConnectSessionClaim
  | .granted claim => if claim.connectId = id ∧ claim.action = .confirm then some claim else none
  | .handedOff _ => none

/-- The confirm claims on the session that were given out since its last hand-off. -/
def confirmsSince (id : ℕ) (log : List Entry) : List ConnectSessionClaim :=
  (log.takeWhile fun e => e ≠ .handedOff id).filterMap (Entry.confirm? id)

def ConnectSessionClaim.searchId (claim : ConnectSessionClaim) : Option String :=
  claim.confirmation.map ConnectConfirmationWork.searchId

/-- What there is to see of a registry: the lives of its sessions, and its past. -/
structure View where
  life : ℕ → Option Life
  past : Past

/-- The session with this id now has the life `l`, and nothing else was changed. -/
def View.Writes (a b : View) (id : ℕ) (l : Option Life) : Prop :=
  b.life id = l ∧ ∀ j, j ≠ id → b.life j = a.life j

/-- The claim may be one that confirms: no cancellation was requested, and it is for a search
that is new, or goes on for a claim whose holder is gone. -/
def Confirmable (l : Life) (claim : ConnectSessionClaim) : Prop :=
  l.cancelRequested = false ∧ ((∃ t, l.holder = some (t, .confirm)) ∨ l.handedOff = false) ∧
    (claim.searchId.isSome ∨ (claim.searchId = l.searchId ∧ ∃ t, l.holder = some (t, .confirm)))

/-- One thing that happens to one session. A session is gone only where it may go. -/
inductive Move (mayGo : ℕ → Prop) (a b : View) : Prop
  | same (hlife : b.life = a.life) (hpast : b.past = a.past)
  | opened (id : ℕ) (hnew : id ∉ a.past.used) (hlife : a.Writes b id (some ⟨none, none, false, false⟩))
      (hpast : b.past = { a.past with used := id :: a.past.used })
  | gone (id : ℕ) (l : Life) (hgo : mayGo id) (hl : a.life id = some l) (hlife : a.Writes b id none)
      (hpast : b.past = a.past)
  | requested (id : ℕ) (l : Life) (hl : a.life id = some l)
      (hlife : a.Writes b id (some { l with cancelRequested := true })) (hpast : b.past = a.past)
  | rewarmed (id : ℕ) (l : Life) (hl : a.life id = some l) (hhandedOff : l.handedOff = true)
      (hrequested : l.cancelRequested = false)
      (hlife : a.Writes b id (some { l with handedOff := false, searchId := none }))
      (hpast : b.past = a.past)
  | granted (id : ℕ) (l : Life) (claim : ConnectSessionClaim) (hl : a.life id = some l)
      (hid : claim.connectId = id) (htoken : claim.token = a.past.fresh)
      (hsearch : l.searchId = none ∨ claim.searchId = l.searchId)
      (hconfirm : claim.action = .confirm → Confirmable l claim)
      (hcancel : claim.action = .cancel → l.cancelRequested = true ∨ ∃ t, l.holder = some (t, .cancel))
      (hlife : a.Writes b id (some { l with
        holder := some (claim.token, claim.action), searchId := claim.searchId }))
      (hfresh : b.past.fresh = a.past.fresh + 1) (hused : b.past.used = a.past.used)
      (hlog : b.past.log = a.past.log ∨ b.past.log = .granted claim :: a.past.log)
  | acked (id : ℕ) (l : Life) (t : ℕ) (action : ConnectSessionAction) (hl : a.life id = some l)
      (hholder : l.holder = some (t, action))
      (hlife : a.Writes b id (some { l with
        handedOff := true
        holder := if l.cancelRequested then some (t, .cancel) else none }))
      (hpast : b.past = { a.past with log := .handedOff id :: a.past.log })

abbrev Moves (mayGo : ℕ → Prop) : View → View → Prop := Relation.ReflTransGen (Move mayGo)

/-- The confirm claims since the last hand-off are for one search, which is the one the
session has; while a hand-off stands there are none. -/
structure SoundAt (life : Option Life) (since : List ConnectSessionClaim) : Prop where
  one_search : ∃ searchId, ∀ c ∈ since, c.searchId = some searchId
  search : ∀ l, life = some l → ∀ c ∈ since, c.searchId = l.searchId
  handedOff : ∀ l, life = some l → l.handedOff = true → since = []
  confirming : ∀ l t, life = some l → l.holder = some (t, .confirm) → l.cancelRequested = false →
    l.handedOff = false ∧ l.searchId.isSome

structure View.Sound (v : View) : Prop where
  sound : ∀ id, SoundAt (v.life id) (confirmsSince id v.past.log)
  unused : ∀ id, id ∉ v.past.used → v.life id = none ∧ confirmsSince id v.past.log = []

/-- The session was there, and is gone or is to be cancelled. -/
def View.Doomed (v : View) (id : ℕ) : Prop :=
  id ∈ v.past.used ∧ ∀ l, v.life id = some l → l.cancelRequested = true

/-- No confirm claim on the session was given out in between. -/
def View.NoConfirms (a b : View) (id : ℕ) : Prop :=
  ∃ new, b.past.log = new ++ a.past.log ∧ ∀ e ∈ new, e.confirm? id = none

section

variable {a b c : View} {id : ℕ} {l : Option Life} {log : List Entry}
  {claim : ConnectSessionClaim} {mayGo : ℕ → Prop}

@[simp] theorem confirmsSince_nil : confirmsSince id [] = [] := rfl

@[simp] theorem confirmsSince_handedOff : confirmsSince id (.handedOff id :: log) = [] := by
  simp [confirmsSince]

theorem confirmsSince_handedOff_of_ne {j : ℕ} (h : j ≠ id) :
    confirmsSince id (.handedOff j :: log) = confirmsSince id log := by
  simp only [confirmsSince]
  rw [List.takeWhile_cons_of_pos (by simpa using h), List.filterMap_cons_none (by rfl)]

theorem confirmsSince_granted_of_none (h : (Entry.granted claim).confirm? id = none) :
    confirmsSince id (.granted claim :: log) = confirmsSince id log := by
  simp only [confirmsSince]
  rw [List.takeWhile_cons_of_pos (by simp), List.filterMap_cons_none h]

theorem confirmsSince_granted_of_some (h : (Entry.granted claim).confirm? id = some claim) :
    confirmsSince id (.granted claim :: log) = claim :: confirmsSince id log := by
  simp only [confirmsSince]
  rw [List.takeWhile_cons_of_pos (by simp), List.filterMap_cons_some h]

/-- An entry about one session says nothing of another. -/
theorem confirm?_of_ne {j : ℕ} (h : claim.connectId = id) (hne : j ≠ id) :
    (Entry.granted claim).confirm? j = none := by
  rw [Entry.confirm?, if_neg fun h' => hne (h'.1.symm.trans h)]

theorem soundAt_some {l : Life} {since : List ConnectSessionClaim}
    (hone : ∃ searchId, ∀ c ∈ since, c.searchId = some searchId)
    (hsearch : ∀ c ∈ since, c.searchId = l.searchId) (hoff : l.handedOff = true → since = [])
    (hconfirming : ∀ t, l.holder = some (t, .confirm) → l.cancelRequested = false →
      l.handedOff = false ∧ l.searchId.isSome) : SoundAt (some l) since := by
  refine ⟨hone, fun m hm => ?_, fun m hm => ?_, fun m t hm => ?_⟩ <;> obtain rfl := Option.some.inj hm
  · exact hsearch
  · exact hoff
  · exact hconfirming t

theorem View.NoConfirms.same (h : b.past = a.past) : a.NoConfirms b id :=
  ⟨[], by rw [h]; rfl, nofun⟩

theorem View.NoConfirms.trans (hab : a.NoConfirms b id) (hbc : b.NoConfirms c id) :
    a.NoConfirms c id := by
  obtain ⟨new, hnew, hnone⟩ := hab
  obtain ⟨new', hnew', hnone'⟩ := hbc
  refine ⟨new' ++ new, by rw [hnew', hnew, List.append_assoc], fun e he => ?_⟩
  rcases List.mem_append.1 he with he | he
  · exact hnone' e he
  · exact hnone e he

/-- Where one session is written and the entries are about it, the others are sound as before. -/
theorem View.Sound.write (ha : a.Sound) {l : Option Life} (hlife : a.Writes b id l)
    (hused : ∀ j, j ∈ b.past.used ↔ j = id ∨ j ∈ a.past.used)
    (hlog : ∀ j, j ≠ id → confirmsSince j b.past.log = confirmsSince j a.past.log)
    (hsound : SoundAt l (confirmsSince id b.past.log)) : b.Sound := by
  refine ⟨fun j => ?_, fun j hj => ?_⟩
  · by_cases hne : j = id
    · subst hne
      rw [hlife.1]
      exact hsound
    · rw [hlife.2 j hne, hlog j hne]
      exact ha.sound j
  · rw [hused] at hj
    push Not at hj
    rw [hlife.2 j hj.1, hlog j hj.1]
    exact ha.unused j hj.2

theorem View.Sound.mem_used (ha : a.Sound) {l : Life} (hl : a.life id = some l) :
    id ∈ a.past.used := by
  by_contra hnot
  rw [(ha.unused id hnot).1] at hl
  cases hl

theorem View.Sound.mem_used_iff (ha : a.Sound) {l : Life} (hl : a.life id = some l) (j : ℕ) :
    j ∈ a.past.used ↔ j = id ∨ j ∈ a.past.used := by
  constructor
  · exact fun h => .inr h
  · rintro (rfl | h)
    · exact ha.mem_used hl
    · exact h

/-- The session is written over and nothing is entered. -/
theorem View.Sound.rewrite (ha : a.Sound) {l : Life} {l' : Option Life} (hl : a.life id = some l)
    (hlife : a.Writes b id l') (hpast : b.past = a.past)
    (hsound : SoundAt l' (confirmsSince id a.past.log)) : b.Sound := by
  refine ha.write hlife (fun j => ?_) (fun j _ => by rw [hpast]) (by rw [hpast]; exact hsound)
  rw [hpast]
  exact ha.mem_used_iff hl j

/-- The claims that were given out are for the search of the next one. -/
theorem View.Sound.same_search (ha : a.Sound) {l : Life} (hl : a.life id = some l)
    (hsearch : l.searchId = none ∨ claim.searchId = l.searchId) :
    ∀ c ∈ confirmsSince id a.past.log, c.searchId = claim.searchId := by
  intro c hc
  have hsame := (ha.sound id).search l hl c hc
  rcases hsearch with hnone | hsearch
  · obtain ⟨searchId, hone⟩ := (ha.sound id).one_search
    have hsome := hone c hc
    rw [hsame, hnone] at hsome
    cases hsome
  · rw [hsame, hsearch]

/-- A confirm claim is given out for a session that is not handed off, and for a search. -/
theorem View.Sound.confirmable (ha : a.Sound) {l : Life} (hl : a.life id = some l)
    (hconfirm : claim.action = .confirm → Confirmable l claim) :
    claim.action = .confirm → l.handedOff = false ∧ claim.searchId.isSome := by
  intro haction
  obtain ⟨hrequested, hoff, hsome⟩ := hconfirm haction
  have hheld : ∀ t, l.holder = some (t, .confirm) → l.handedOff = false ∧ l.searchId.isSome :=
    fun t ht => (ha.sound id).confirming l t hl ht hrequested
  constructor
  · rcases hoff with ⟨t, ht⟩ | hoff
    · exact (hheld t ht).1
    · exact hoff
  · rcases hsome with hsome | ⟨hsame, t, ht⟩
    · exact hsome
    · rw [hsame]
      exact (hheld t ht).2

theorem Move.sound (h : Move mayGo a b) (ha : a.Sound) : b.Sound := by
  cases h with
  | same hlife hpast =>
    exact ⟨by rw [hlife, hpast]; exact ha.sound, by rw [hlife, hpast]; exact ha.unused⟩
  | opened id hnew hlife hpast =>
    refine ha.write hlife (fun j => ?_) (fun j _ => by rw [hpast]) ?_
    · rw [hpast, List.mem_cons]
    · rw [hpast]
      have hnone : confirmsSince id a.past.log = [] := (ha.unused id hnew).2
      rw [hnone]
      exact soundAt_some ⟨"", nofun⟩ nofun (fun _ => rfl) nofun
  | gone id l hgo hl hlife hpast =>
    exact ha.rewrite hl hlife hpast ⟨(ha.sound id).one_search, nofun, nofun, nofun⟩
  | requested id l hl hlife hpast =>
    obtain ⟨hone, hsearch, hoff, -⟩ := ha.sound id
    exact ha.rewrite hl hlife hpast (soundAt_some hone (hsearch l hl) (hoff l hl) nofun)
  | rewarmed id l hl hhandedOff hrequested hlife hpast =>
    obtain ⟨hone, hsearch, hoff, hconfirming⟩ := ha.sound id
    have hnone := hoff l hl hhandedOff
    refine ha.rewrite hl hlife hpast (soundAt_some hone ?_ nofun fun t hholder hreq => ?_)
    · rw [hnone]
      exact nofun
    · have hnot := (hconfirming l t hl hholder hreq).1
      rw [hhandedOff] at hnot
      cases hnot
  | granted id l claim hl hid htoken hsearch hconfirm hcancel hlife hfresh hused hlog =>
    refine ha.write hlife (fun j => by rw [hused]; exact ha.mem_used_iff hl j) (fun j hne => ?_) ?_
    · rcases hlog with hlog | hlog <;> rw [hlog]
      exact confirmsSince_granted_of_none (confirm?_of_ne hid hne)
    · have hgood := ha.confirmable hl hconfirm
      obtain ⟨hone, -, hoff, -⟩ := ha.sound id
      have hsame := ha.same_search hl hsearch
      have hkept : SoundAt (some { l with
          holder := some (claim.token, claim.action), searchId := claim.searchId })
          (confirmsSince id a.past.log) := by
        refine soundAt_some hone hsame (hoff l hl) fun t hholder _ => ?_
        have haction : claim.action = .confirm := congrArg Prod.snd (Option.some.inj hholder)
        exact hgood haction
      rcases hlog with hlog | hlog <;> rw [hlog]
      · exact hkept
      · by_cases haction : claim.action = .confirm
        · rw [confirmsSince_granted_of_some (if_pos ⟨hid, haction⟩)]
          obtain ⟨hnot, hsome⟩ := hgood haction
          obtain ⟨searchId, hsearchId⟩ := Option.isSome_iff_exists.1 hsome
          refine soundAt_some ⟨searchId, ?_⟩ ?_ ?_ fun _ _ _ => ⟨hnot, hsome⟩
          · rintro c (_ | ⟨_, hc⟩)
            · exact hsearchId
            · exact (hsame c hc).trans hsearchId
          · rintro c (_ | ⟨_, hc⟩)
            · rfl
            · exact hsame c hc
          · intro hoff'
            rw [hnot] at hoff'
            cases hoff'
        · rw [confirmsSince_granted_of_none (if_neg fun h => haction h.2)]
          exact hkept
  | acked id l t action hl hholder hlife hpast =>
    refine ha.write hlife (fun j => ?_) (fun j hne => ?_) ?_
    · rw [hpast]
      exact ha.mem_used_iff hl j
    · rw [hpast]
      exact confirmsSince_handedOff_of_ne (Ne.symm hne)
    · rw [hpast, confirmsSince_handedOff]
      refine soundAt_some ⟨"", nofun⟩ nofun (fun _ => rfl) fun t' hholder' hreq => ?_
      dsimp only at hholder'
      split at hholder' <;> cases hholder'

theorem Moves.sound (h : Moves mayGo a b) (ha : a.Sound) : b.Sound := by
  induction h with
  | refl => exact ha
  | tail _ hmove ih => exact hmove.sound ih

theorem View.Writes.doomed (h : a.Writes b id l) (hused : b.past.used = a.past.used) {j : ℕ}
    (hl : ∀ l', l = some l' → id = j → l'.cancelRequested = true) (ha : a.Doomed j) :
    b.Doomed j := by
  refine ⟨hused ▸ ha.1, fun m hm => ?_⟩
  by_cases hne : j = id
  · subst hne
    exact hl m (h.1.symm.trans hm) rfl
  · exact ha.2 m ((h.2 j hne).symm.trans hm)

/-- A doomed session stays doomed, and no confirm claim on it is given out. -/
theorem Move.doomed (h : Move mayGo a b) (ha : a.Doomed id) : b.Doomed id ∧ a.NoConfirms b id := by
  cases h with
  | same hlife hpast => exact ⟨by rw [View.Doomed, hlife, hpast]; exact ha, .same hpast⟩
  | opened j hnew hlife hpast =>
    have hne : id ≠ j := fun h => hnew (h ▸ ha.1)
    refine ⟨⟨?_, fun m hm => ha.2 m ((hlife.2 id hne).symm.trans hm)⟩, [], ?_, nofun⟩
    · rw [hpast]
      exact List.mem_cons_of_mem j ha.1
    · rw [hpast]
      rfl
  | gone j l hgo hl hlife hpast => exact ⟨hlife.doomed (by rw [hpast]) nofun ha, .same hpast⟩
  | requested j l hl hlife hpast =>
    refine ⟨hlife.doomed (by rw [hpast]) (fun m hm _ => ?_) ha, .same hpast⟩
    obtain rfl := Option.some.inj hm
    rfl
  | rewarmed j l hl hhandedOff hrequested hlife hpast =>
    refine ⟨hlife.doomed (by rw [hpast]) (fun m hm hid => ?_) ha, .same hpast⟩
    obtain rfl := Option.some.inj hm
    exact ha.2 l (hid ▸ hl)
  | granted j l claim hl hid htoken hsearch hconfirm hcancel hlife hfresh hused hlog =>
    refine ⟨hlife.doomed hused (fun m hm hid' => ?_) ha, ?_⟩
    · obtain rfl := Option.some.inj hm
      exact ha.2 l (hid' ▸ hl)
    · rcases hlog with hlog | hlog
      · exact ⟨[], hlog, nofun⟩
      · refine ⟨[.granted claim], hlog, fun e he => ?_⟩
        obtain rfl := List.mem_singleton.1 he
        refine if_neg fun ⟨hclaim, haction⟩ => ?_
        have hdoomed := ha.2 l ((hclaim.symm.trans hid) ▸ hl)
        rw [(hconfirm haction).1] at hdoomed
        cases hdoomed
  | acked j l t action hl hholder hlife hpast =>
    refine ⟨hlife.doomed (by rw [hpast]) (fun m hm hid => ?_) ha, [.handedOff j], ?_, fun e he => ?_⟩
    · obtain rfl := Option.some.inj hm
      exact ha.2 l (hid ▸ hl)
    · rw [hpast]
      rfl
    · obtain rfl := List.mem_singleton.1 he
      rfl

theorem Moves.doomed (h : Moves mayGo a b) (ha : a.Doomed id) : b.Doomed id ∧ a.NoConfirms b id := by
  induction h with
  | refl => exact ⟨ha, .same rfl⟩
  | tail _ hmove ih =>
    obtain ⟨hdoomed, hnone⟩ := hmove.doomed ih.1
    exact ⟨hdoomed, ih.2.trans hnone⟩

theorem View.Writes.isSome {l : Life} (h : a.Writes b id (some l)) {j : ℕ}
    (hj : (a.life j).isSome) : (b.life j).isSome := by
  by_cases hne : j = id
  · subst hne
    rw [h.1]
    rfl
  · rw [h.2 j hne]
    exact hj

/-- A session that is gone was one that may go. -/
theorem Move.gone_of (h : Move mayGo a b) (hsome : (a.life id).isSome) (hnone : b.life id = none) :
    mayGo id := by
  have hnot : ¬ (b.life id).isSome := by rw [hnone]; simp
  cases h with
  | same hlife hpast => exact absurd (hlife ▸ hsome) hnot
  | opened j hnew hlife hpast => exact absurd (hlife.isSome hsome) hnot
  | gone j l hgo hl hlife hpast =>
    by_cases hne : id = j
    · exact hne ▸ hgo
    · rw [hlife.2 id hne] at hnot
      exact absurd hsome hnot
  | requested j l hl hlife hpast => exact absurd (hlife.isSome hsome) hnot
  | rewarmed j l hl hhandedOff hrequested hlife hpast => exact absurd (hlife.isSome hsome) hnot
  | granted j l claim hl hid htoken hsearch hconfirm hcancel hlife hfresh hused hlog =>
    exact absurd (hlife.isSome hsome) hnot
  | acked j l t action hl hholder hlife hpast => exact absurd (hlife.isSome hsome) hnot

theorem Moves.gone_of (h : Moves mayGo a b) (hsome : (a.life id).isSome)
    (hnone : b.life id = none) : mayGo id := by
  induction h with
  | refl =>
    rw [hnone] at hsome
    cases hsome
  | @tail b c _ hmove ih =>
    cases hb : b.life id with
    | none => exact ih hb
    | some l => exact hmove.gone_of (by rw [hb]; rfl) hnone

end

section

variable {σ ι : Type} (registry : ConnectSessionRegistry σ ι)

def view (s : σ) : View := ⟨registry.life s, registry.past s⟩

/-- The call may take the session out of the registry: it acknowledges a claim to cancel
it, or it finds the session expired. -/
def LeavesBy (s : σ) (call : Call ι) (id : ℕ) : Prop :=
  match call with
  | .ack _ claim => claim.connectId = id ∧ claim.action = .cancel
  | .claim now .. | .claimForSystem now .. | .expire now .. =>
    ∃ session, registry.session s id = some session ∧ session.expired now = true
  | _ => False

/-- A registry whose calls are lives going on, from states that it keeps well formed. -/
structure Lawful (empty : σ) (WellFormed : σ → Prop) : Prop where
  empty : WellFormed empty ∧ registry.past empty = ⟨0, [], []⟩ ∧ ∀ id, registry.life empty id = none
  moves : ∀ s call s', WellFormed s → step registry s call = some s' →
    WellFormed s' ∧ Moves (LeavesBy registry s call) (view registry s) (view registry s')

end

end CatalogSentinel.Connect
