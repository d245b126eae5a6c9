import CatalogSentinel.Connect.Claims

/-!
Who holds a session. A token that was overtaken by another one is never stored again, a
claim that cancels was given out for a session that is doomed, and what a registry answers
tells who holds the session then.
-/

namespace CatalogSentinel.Connect

open CatalogSentinel.Concurrent CatalogSentinel.Data

/-- The session is there and carries this token. -/
def View.HeldBy (v : View) (id token : ℕ) : Prop :=
  ∃ l action, v.life id = some l ∧ l.holder = some (token, action)

/-- The claims that were given out from the one view to the other, under tokens of their own. -/
structure Handed (a b : View) (claims : List ConnectSessionClaim) : Prop where
  log : b.past.log = claims.reverse.map Entry.granted ++ a.past.log
  tokens : (claims.map ConnectSessionClaim.token).Nodup
  fresh : ∀ claim ∈ claims, a.past.fresh ≤ claim.token ∧ claim.token < b.past.fresh

/-- Claims that cancel were given out for doomed sessions, and every token was fresh once. -/
structure View.Cancels (v : View) : Prop where
  held : ∀ id l t, v.life id = some l → l.holder = some (t, .cancel) → l.cancelRequested = true
  granted : ∀ claim, .granted claim ∈ v.past.log → claim.action = .cancel → v.Doomed claim.connectId
  fresh : ∀ claim, .granted claim ∈ v.past.log → claim.token < v.past.fresh

section

variable {a b c : View} {id token : ℕ} {mayGo : ℕ → Prop} {claims claims' : List ConnectSessionClaim}

theorem Handed.none (h : b.past.log = a.past.log) : Handed a b [] := ⟨h, List.nodup_nil, nofun⟩

theorem Handed.trans (hab : Handed a b claims) (hbc : Handed b c claims') (hle : a.past.fresh ≤ b.past.fresh)
    (hle' : b.past.fresh ≤ c.past.fresh) : Handed a c (claims ++ claims') := by
  refine ⟨?_, ?_, fun claim hclaim => ?_⟩
  · rw [hbc.log, hab.log, List.reverse_append, List.map_append, List.append_assoc]
  · rw [List.map_append, List.nodup_append]
    refine ⟨hab.tokens, hbc.tokens, fun t ht t' ht' heq => ?_⟩
    obtain ⟨claim, hclaim, rfl⟩ := List.mem_map.1 ht
    obtain ⟨claim', hclaim', rfl⟩ := List.mem_map.1 ht'
    have hlt := (hab.fresh claim hclaim).2
    have hge := (hbc.fresh claim' hclaim').1
    omega
  · rcases List.mem_append.1 hclaim with hclaim | hclaim
    · have hfresh := hab.fresh claim hclaim
      exact ⟨hfresh.1, lt_of_lt_of_le hfresh.2 hle'⟩
    · have hfresh := hbc.fresh claim hclaim
      exact ⟨hle.trans hfresh.1, hfresh.2⟩

theorem Move.fresh_le (h : Move mayGo a b) : a.past.fresh ≤ b.past.fresh := by
  cases h with
  | same hlife hpast => rw [hpast]
  | opened id hnew hlife hpast => rw [hpast]
  | gone id l hgo hl hlife hpast => rw [hpast]
  | requested id l hl hlife hpast => rw [hpast]
  | rewarmed id l hl hhandedOff hrequested hlife hpast => rw [hpast]
  | granted id l claim hl hid htoken hsearch hconfirm hcancel hlife hfresh hused hlog =>
    rw [hfresh]
    exact Nat.le_succ _
  | acked id l t action hl hholder hlife hpast => rw [hpast]

theorem Moves.fresh_le (h : Moves mayGo a b) : a.past.fresh ≤ b.past.fresh := by
  induction h with
  | refl => exact le_refl _
  | tail _ hmove ih => exact ih.trans hmove.fresh_le

theorem Move.log_grows (h : Move mayGo a b) : a.past.log <:+ b.past.log := by
  cases h with
  | same hlife hpast | opened id hnew hlife hpast | gone id l hgo hl hlife hpast
  | requested id l hl hlife hpast | rewarmed id l hl hhandedOff hrequested hlife hpast =>
    have hlog : a.past.log = b.past.log := by simp only [hpast]
    exact hlog ▸ List.suffix_refl a.past.log
  | granted id l claim hl hid htoken hsearch hconfirm hcancel hlife hfresh hused hlog =>
    rcases hlog with hlog | hlog
    · exact hlog ▸ List.suffix_refl a.past.log
    · exact hlog ▸ List.suffix_cons (.granted claim) a.past.log
  | acked id l t action hl hholder hlife hpast =>
    have hlog : b.past.log = .handedOff id :: a.past.log := by simp only [hpast]
    exact hlog ▸ List.suffix_cons (.handedOff id) a.past.log

theorem Moves.log_grows (h : Moves mayGo a b) : a.past.log <:+ b.past.log := by
  induction h with
  | refl => exact List.suffix_refl _
  | tail _ hmove ih => exact ih.trans hmove.log_grows

/-- Where one session is written, who holds it after is who is written. -/
theorem View.Writes.heldBy {j : ℕ} {l : Option Life} (h : a.Writes b j l) (hb : b.HeldBy id token) :
    a.HeldBy id token ∨ id = j ∧ ∃ l' action, l = some l' ∧ l'.holder = some (token, action) := by
  obtain ⟨l', action, hl', hholder⟩ := hb
  by_cases hid : id = j
  · subst hid
    exact .inr ⟨rfl, l', action, h.1.symm.trans hl', hholder⟩
  · exact .inl ⟨l', action, (h.2 id hid).symm.trans hl', hholder⟩

/-- A token that is not stored comes back no more. -/
theorem Move.heldBy (h : Move mayGo a b) (htoken : token < a.past.fresh) (hb : b.HeldBy id token) :
    a.HeldBy id token := by
  cases h with
  | same hlife hpast =>
    obtain ⟨l, action, hl, hholder⟩ := hb
    exact ⟨l, action, hlife ▸ hl, hholder⟩
  | opened j hnew hlife hpast =>
    rcases hlife.heldBy hb with ha | ⟨-, l, action, hl, hholder⟩
    · exact ha
    · obtain rfl := Option.some.inj hl
      cases hholder
  | gone j l hgo hl hlife hpast =>
    rcases hlife.heldBy hb with ha | ⟨-, l', action, hl', -⟩
    · exact ha
    · cases hl'
  | requested j l hl hlife hpast =>
    rcases hlife.heldBy hb with ha | ⟨rfl, l', action, hl', hholder⟩
    · exact ha
    · obtain rfl := Option.some.inj hl'
      exact ⟨l, action, hl, hholder⟩
  | rewarmed j l hl hhandedOff hrequested hlife hpast =>
    rcases hlife.heldBy hb with ha | ⟨rfl, l', action, hl', hholder⟩
    · exact ha
    · obtain rfl := Option.some.inj hl'
      exact ⟨l, action, hl, hholder⟩
  | granted j l claim hl hid htoken' hsearch hconfirm hcancel hlife hfresh hused hlog =>
    rcases hlife.heldBy hb with ha | ⟨rfl, l', action, hl', hholder⟩
    · exact ha
    · obtain rfl := Option.some.inj hl'
      have hsame : claim.token = token := congrArg Prod.fst (Option.some.inj hholder)
      omega
  | acked j l t action hl hholder hlife hpast =>
    rcases hlife.heldBy hb with ha | ⟨rfl, l', action', hl', hholder'⟩
    · exact ha
    · obtain rfl := Option.some.inj hl'
      dsimp only at hholder'
      split at hholder'
      · obtain rfl : t = token := congrArg Prod.fst (Option.some.inj hholder')
        exact ⟨l, action, hl, hholder⟩
      · cases hholder'

theorem Moves.heldBy (h : Moves mayGo a b) (htoken : token < a.past.fresh) (hb : b.HeldBy id token) :
    a.HeldBy id token := by
  induction h with
  | refl => exact hb
  | @tail b c hmoves hmove ih => exact ih (hmove.heldBy (lt_of_lt_of_le htoken (Moves.fresh_le hmoves)) hb)

/-- Nothing is given out, and one session is written that was to be cancelled when held so. -/
theorem View.Cancels.write {j : ℕ} {l : Option Life} (ha : a.Cancels) (hlife : a.Writes b j l)
    (hfresh : a.past.fresh ≤ b.past.fresh) (hlog : ∀ claim, .granted claim ∈ b.past.log → .granted claim ∈ a.past.log)
    (hdoomed : ∀ id, a.Doomed id → b.Doomed id)
    (hheld : ∀ l' t, l = some l' → l'.holder = some (t, .cancel) → l'.cancelRequested = true) :
    b.Cancels := by
  refine ⟨fun id l' t hl' hholder => ?_, fun claim hclaim haction => ?_, fun claim hclaim => ?_⟩
  · by_cases hid : id = j
    · subst hid
      exact hheld l' t (hlife.1.symm.trans hl') hholder
    · exact ha.held id l' t ((hlife.2 id hid).symm.trans hl') hholder
  · exact hdoomed _ (ha.granted claim (hlog claim hclaim) haction)
  · exact lt_of_lt_of_le (ha.fresh claim (hlog claim hclaim)) hfresh

theorem Move.cancels (h : Move mayGo a b) (hsound : a.Sound) (ha : a.Cancels) : b.Cancels := by
  have hdoomed : ∀ id, a.Doomed id → b.Doomed id := fun id hid => (h.doomed hid).1
  have hle := h.fresh_le
  cases h with
  | same hlife hpast =>
    refine ⟨by rw [hlife]; exact ha.held, fun claim hclaim haction => ?_, by rw [hpast]; exact ha.fresh⟩
    exact hdoomed _ (ha.granted claim (hpast ▸ hclaim) haction)
  | opened j hnew hlife hpast =>
    refine ha.write hlife hle (fun claim hclaim => by rw [hpast] at hclaim; exact hclaim) hdoomed
      fun l' t hl' hholder => ?_
    obtain rfl := Option.some.inj hl'
    cases hholder
  | gone j l hgo hl hlife hpast =>
    exact ha.write hlife hle (fun claim hclaim => hpast ▸ hclaim) hdoomed nofun
  | requested j l hl hlife hpast =>
    refine ha.write hlife hle (fun claim hclaim => hpast ▸ hclaim) hdoomed fun l' t hl' hholder => ?_
    obtain rfl := Option.some.inj hl'
    rfl
  | rewarmed j l hl hhandedOff hrequested hlife hpast =>
    refine ha.write hlife hle (fun claim hclaim => hpast ▸ hclaim) hdoomed fun l' t hl' hholder => ?_
    obtain rfl := Option.some.inj hl'
    exact ha.held j l t hl hholder
  | acked j l t action hl hholder hlife hpast =>
    refine ha.write hlife hle (fun claim hclaim => ?_) hdoomed fun l' t' hl' hholder' => ?_
    · rw [hpast] at hclaim
      rcases List.mem_cons.1 hclaim with hclaim | hclaim
      · cases hclaim
      · exact hclaim
    · obtain rfl := Option.some.inj hl'
      dsimp only at hholder' ⊢
      split at hholder'
      · assumption
      · cases hholder'
  | granted j l claim hl hid htoken hsearch hconfirm hcancel hlife hfresh hused hlog =>
    have hrequested : claim.action = .cancel → l.cancelRequested = true := fun haction =>
      (hcancel haction).elim (fun h => h) fun ⟨t, ht⟩ => ha.held j l t hl ht
    have hmem : ∀ claim', .granted claim' ∈ b.past.log → claim' = claim ∨ .granted claim' ∈ a.past.log := by
      intro claim' hclaim'
      rcases hlog with hlog | hlog <;> rw [hlog] at hclaim'
      · exact .inr hclaim'
      · exact (List.mem_cons.1 hclaim').imp_left fun h => Entry.granted.inj h
    refine ⟨fun id l' t hl' hholder => ?_, fun claim' hclaim' haction => ?_, fun claim' hclaim' => ?_⟩
    · by_cases hne : id = j
      · subst hne
        obtain rfl := Option.some.inj (hlife.1.symm.trans hl')
        exact hrequested (congrArg Prod.snd (Option.some.inj hholder))
      · exact ha.held id l' t ((hlife.2 id hne).symm.trans hl') hholder
    · rcases hmem claim' hclaim' with rfl | hclaim'
      · have hdoom : a.Doomed j := by
          refine ⟨hsound.mem_used hl, fun l' hl' => ?_⟩
          obtain rfl := Option.some.inj (hl.symm.trans hl')
          exact hrequested haction
        exact hid ▸ hdoomed j hdoom
      · exact hdoomed _ (ha.granted claim' hclaim' haction)
    · rcases hmem claim' hclaim' with rfl | hclaim'
      · omega
      · have hlt := ha.fresh claim' hclaim'
        omega

theorem Moves.cancels (h : Moves mayGo a b) (hsound : a.Sound) (ha : a.Cancels) : b.Cancels := by
  induction h with
  | refl => exact ha
  | tail hmoves hmove ih => exact hmove.cancels (Moves.sound hmoves hsound) ih

end

/-- What a registry answers tells who holds the session. -/
structure Answers {σ ι : Type} (registry : ConnectSessionRegistry σ ι) (WellFormed : σ → Prop) : Prop where
  claimed : ∀ s now request claim, WellFormed s →
    (registry.claimAuthorized s now request).2 = .claimed claim →
    Handed (view registry s) (view registry (registry.claimAuthorized s now request).1) [claim]
  expired : ∀ s now sweep v, WellFormed s →
    Handed (view registry s) (view registry (registry.claimExpired s now sweep v).1)
      (registry.claimExpired s now sweep v).2
  renewed : ∀ s now claim v, WellFormed s → (registry.renew s now claim v).2 ≠ .lost →
    (view registry s).HeldBy claim.connectId claim.token

theorem handed_one {a b : View} {claim : ConnectSessionClaim} (hpast : b.past = a.past.grant claim)
    (htoken : claim.token = a.past.fresh) : Handed a b [claim] := by
  refine ⟨by rw [hpast]; rfl, List.nodup_singleton _, fun claim' hclaim' => ?_⟩
  obtain rfl := List.mem_singleton.1 hclaim'
  rw [hpast, htoken]
  exact ⟨le_refl _, Nat.lt_succ_self _⟩

namespace InMemory

variable {warm : Bool} {s : State} {now : ℤ}

theorem handed_lease (visibilityTimeoutMs : Option ℚ) (record : Record) (action : ConnectSessionAction) :
    Handed (view (registry warm) s) (view (registry warm) (lease s now visibilityTimeoutMs record action).1)
      [(lease s now visibilityTimeoutMs record action).2] :=
  handed_one rfl rfl

/-- What the call gives out is a claim under the next token. -/
def HandsOut (warm : Bool) (s : State) (out : State × ConnectSessionClaimResult) : Prop :=
  ∀ claim, out.2 = .claimed claim →
    Handed (view (registry warm) s) (view (registry warm) out.1) [claim]

theorem handsOut_lease (visibilityTimeoutMs : Option ℚ) (record : Record) (action : ConnectSessionAction) :
    HandsOut warm s ((lease s now visibilityTimeoutMs record action).1,
      .claimed (lease s now visibilityTimeoutMs record action).2) := by
  intro claim hclaim
  obtain rfl := ConnectSessionClaimResult.claimed.inj hclaim
  exact handed_lease visibilityTimeoutMs record action

theorem handsOut_claimAuthorized (request : ClaimRequest) :
    HandsOut warm s (claimAuthorized warm s now request) := by
  unfold claimAuthorized
  split
  · exact nofun
  split
  · exact nofun
  split
  · exact nofun
  dsimp only
  split
  · exact nofun
  generalize (Record.requested _ request.action).rewarmed request.action = record
  split
  · exact nofun
  generalize (if record.cancelRequested then ConnectSessionAction.cancel else request.action) = action
  split
  · cases request.confirmation with
    | none => exact nofun
    | some confirmation => exact handsOut_lease _ _ action
  · exact handsOut_lease _ record action

theorem handed_reclaim (visibilityTimeoutMs : Option ℚ) (done : State × List ConnectSessionClaim)
    (connectId : ℕ) : ∃ claims, (reclaim now visibilityTimeoutMs done connectId).2 = done.2 ++ claims ∧
      Handed (view (registry warm) done.1)
        (view (registry warm) (reclaim now visibilityTimeoutMs done connectId).1) claims := by
  unfold reclaim
  split
  · exact ⟨[], (List.append_nil _).symm, .none rfl⟩
  split
  · exact ⟨[], (List.append_nil _).symm, .none rfl⟩
  · exact ⟨_, rfl, handed_lease visibilityTimeoutMs _ _⟩

theorem handed_claimExpired (limit : ℚ) (visibilityTimeoutMs : Option ℚ) :
    Handed (view (registry warm) s) (view (registry warm) (claimExpired s now limit visibilityTimeoutMs).1)
      (claimExpired s now limit visibilityTimeoutMs).2 := by
  have hfold : ∀ (ids : List ℕ) (done : State × List ConnectSessionClaim), ∃ claims,
      (ids.foldl (reclaim now visibilityTimeoutMs) done).2 = done.2 ++ claims ∧
        Handed (view (registry warm) done.1)
          (view (registry warm) (ids.foldl (reclaim now visibilityTimeoutMs) done).1) claims ∧
        done.1.past.fresh ≤ (ids.foldl (reclaim now visibilityTimeoutMs) done).1.past.fresh := by
    intro ids
    induction ids with
    | nil => exact fun done => ⟨[], (List.append_nil _).symm, .none rfl, le_refl _⟩
    | cons connectId ids ih =>
      intro done
      obtain ⟨claims, hclaims, hhanded⟩ : ∃ claims,
          (reclaim now visibilityTimeoutMs done connectId).2 = done.2 ++ claims ∧
            Handed (view (registry warm) done.1) _ claims :=
        handed_reclaim visibilityTimeoutMs done connectId
      obtain ⟨rest, hrest, hhanded', hle⟩ := ih (reclaim now visibilityTimeoutMs done connectId)
      have hmove : Move (fun _ => True) (lives warm done.1)
          (lives warm (reclaim now visibilityTimeoutMs done connectId).1) :=
        move_reclaim visibilityTimeoutMs done connectId
      refine ⟨claims ++ rest, ?_, hhanded.trans hhanded' hmove.fresh_le hle, hmove.fresh_le.trans hle⟩
      rw [List.foldl_cons, hrest, hclaims, List.append_assoc]
  obtain ⟨claims, hclaims, hhanded, -⟩ := hfold _ (s, [])
  rw [List.nil_append] at hclaims
  rw [claimExpired, hclaims]
  exact hhanded

theorem answers : Answers (registry warm) fun _ => True where
  claimed s now request claim _ h := handsOut_claimAuthorized request claim h
  expired s now sweep v _ := handed_claimExpired sweep v
  renewed s now claim v _ h := by
    cases howned : owned s claim with
    | none =>
      refine absurd ?_ h
      show (renew s now claim v).2 = .lost
      rw [renew, howned]
    | some pair =>
      obtain ⟨record, held⟩ := pair
      obtain ⟨hrecord, hheld, htoken⟩ := owned_some howned
      refine ⟨record.life, held.action, congrArg (Option.map Record.life) hrecord, ?_⟩
      rw [Record.life, hheld, ← htoken]
      rfl

end InMemory

namespace Redis

variable {sha256 : String → String} {warm : Bool} {s : State} {now : ℤ}

/-- The script stores the token that it is given, and gives no token out. -/
def Stores (s : State) (token : ℕ) (out : State × Option Value) : Prop :=
  out.1.past = s.past ∧ ∀ value, out.2 = some value → value.claimToken = some token

theorem Stores.none {t : State} {token : ℕ} (h : t.past = s.past) : Stores s token (t, none) := by
  refine ⟨h, fun value hvalue => ?_⟩
  cases hvalue

theorem stores_claimScript (a : ClaimScript) :
    Stores s a.token (Prod.map (fun t => t) ClaimReply.value? (claimScript s a)) := by
  have hnone : Stores s a.token (s, none) := .none rfl
  unfold claimScript
  split
  · exact hnone
  split
  · exact hnone
  split
  · exact hnone
  dsimp only
  split
  · exact hnone
  generalize (Value.requested _ a.action).rewarmed a.action = value
  split
  · exact .none rfl
  generalize (if value.cancelRequested then ConnectSessionAction.cancel else a.action) = action
  split
  · exact hnone
  · refine ⟨rfl, fun w hw => ?_⟩
    obtain rfl := Option.some.inj hw
    rfl

theorem stores_reclaimScript (connectId token : ℕ) (leaseUntil : ℤ) :
    Stores s token (reclaimScript s connectId now token leaseUntil) := by
  unfold reclaimScript
  split
  · exact .none rfl
  split
  · exact .none rfl
  split
  · exact .none rfl
  split
  · exact .none rfl
  · refine ⟨rfl, fun w hw => ?_⟩
    obtain rfl := Option.some.inj hw
    rfl

theorem storedClaim_token {connectId token : ℕ} {session : DurableConnectSession} {value : Value}
    {claim : ConnectSessionClaim} (h : storedClaim connectId session value = some claim)
    (htoken : value.claimToken = some token) : claim.token = token := by
  simp only [storedClaim, htoken, Option.bind_eq_bind, Option.bind_some] at h
  obtain ⟨action, -, h⟩ := Option.bind_eq_some_iff.1 h
  obtain rfl := Option.some.inj h
  rfl

theorem handed_claimAuthorized (request : ClaimRequest) (claim : ConnectSessionClaim)
    (h : (claimAuthorized sha256 warm s now request).2 = .claimed claim) :
    Handed (view (registry sha256 warm) s)
      (view (registry sha256 warm) (claimAuthorized sha256 warm s now request).1) [claim] := by
  have hstores : Stores s s.past.fresh (Prod.map (fun t => t) ClaimReply.value?
      (claimScript s (ClaimRequest.script sha256 warm s now request))) := stores_claimScript _
  unfold claimAuthorized at h ⊢
  generalize claimScript s (ClaimRequest.script sha256 warm s now request) = out at h hstores ⊢
  obtain ⟨t, reply⟩ := out
  cases reply with
  | missing | ownershipMismatch | handedOff | busy | missingConfirmationWork => cases h
  | encoded value =>
    obtain ⟨hpast, htoken⟩ := hstores
    dsimp only at h ⊢
    cases hsession : parseStoredSession sha256 request.decrypts value with
    | none =>
      rw [hsession] at h
      cases h
    | some session =>
      rw [hsession] at h
      dsimp only at h ⊢
      cases hclaim : storedClaim request.connectId session value with
      | none =>
        rw [hclaim] at h
        cases h
      | some claim' =>
        rw [hclaim] at h
        obtain rfl := ConnectSessionClaimResult.claimed.inj h
        refine handed_one ?_ (storedClaim_token hclaim (htoken value rfl))
        show t.past.grant claim' = s.past.grant claim'
        rw [show t.past = s.past from hpast]

theorem handed_claimExpired (sweep : Sweep) (visibilityTimeoutMs : Option ℚ) :
    Handed (view (registry sha256 warm) s)
      (view (registry sha256 warm) (claimExpired sha256 s now sweep visibilityTimeoutMs).1)
      (claimExpired sha256 s now sweep visibilityTimeoutMs).2 := by
  have hstores : Stores s s.past.fresh (reclaimScript s sweep.connectId now s.past.fresh
      (now + positiveVisibility visibilityTimeoutMs)) := stores_reclaimScript _ _ _
  unfold claimExpired
  generalize reclaimScript s sweep.connectId now s.past.fresh
    (now + positiveVisibility visibilityTimeoutMs) = out at hstores
  obtain ⟨t, reply⟩ := out
  obtain ⟨hpast, htoken⟩ := hstores
  cases reply with
  | none =>
    have hlog : t.past.log = s.past.log := congrArg Past.log hpast
    exact .none hlog
  | some value =>
    dsimp only
    cases hclaim : (parseStoredSession sha256 sweep.decrypts value).bind fun session =>
        storedClaim sweep.connectId session value with
    | none =>
      have hlog : t.past.log = s.past.log := congrArg Past.log hpast
      exact .none hlog
    | some claim =>
      obtain ⟨session, -, hstored⟩ := Option.bind_eq_some_iff.1 hclaim
      refine handed_one ?_ (storedClaim_token hstored (htoken value rfl))
      show t.past.grant claim = s.past.grant claim
      rw [show t.past = s.past from hpast]

theorem answers : Answers (registry sha256 warm) (State.WellFormed sha256) where
  claimed s now request claim _ h := handed_claimAuthorized request claim h
  expired s now sweep v _ := handed_claimExpired sweep v
  renewed s now claim v hs h := by
    cases howned : owned s claim with
    | none =>
      refine absurd ?_ h
      show (renew s now claim v).2 = .lost
      rw [renew, howned]
    | some key =>
      obtain ⟨hkey, htoken⟩ := owned_some howned
      obtain ⟨action, hholder⟩ := holder_of (hs _ _ hkey).paired htoken
      exact ⟨key.value.life, action, life_of hkey, hholder⟩

end Redis

end CatalogSentinel.Connect
