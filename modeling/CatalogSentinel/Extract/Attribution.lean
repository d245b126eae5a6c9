import CatalogSentinel.Extract.Tabs

/-!
Whose data a release is completed from. A listener notes its release and epoch at the
response's event, so what it captures is the current release's own if the request can be
told apart; the debugging session keeps that only where each body is fresh when it comes.
-/

namespace CatalogSentinel.Extract

open CatalogSentinel.Data CatalogSentinel.Distrokid CatalogSentinel.Capture CatalogSentinel.Concurrent
open CatalogSentinel.Capture.Discovery (Sound Current)

/-! ### Listening -/

section Listening

variable {S : Session} {identifier : Char → Bool} {catalogue : List String}

/-- Where the capture is not flagged as another release's, it is not one. -/
def Flagged (identifier : Char → Bool) (catalogue : List String) (releaseId : Option String)
    (c : CapturedResponse Traced) : Prop :=
  c.namesOtherRelease = false → Owns identifier catalogue releaseId c

/-- The listener is of an earlier epoch or of this release, and tells its response apart. -/
structure Noticed (S : Session) (identifier : Char → Bool) (catalogue : List String) (epoch : ℕ)
    (releaseId : Option String) (l : Listener Traced) : Prop where
  current : l.responseEpoch = epoch → l.responseRelease = releaseId
  toldApart : ToldApart identifier catalogue S.discovery.knownReleaseIds l.responseRelease l.response
  written : ∀ c, l.stage = .writing c → Flagged identifier catalogue l.responseRelease c

/-- All that the context's listener has captured and given out is flagged where it is another's. -/
structure Attributed (S : Session) (identifier : Char → Bool) (catalogue : List String)
    (d : Discovery Traced) : Prop where
  listeners : ∀ l ∈ d.listeners, Noticed S identifier catalogue d.epoch d.currentRelease l
  captures : ∀ c ∈ d.captures, Flagged identifier catalogue d.currentRelease c
  answers : ∀ w c, .settled w (some c) ∈ d.log → lastReset d.log ≤ w →
    SinceLastReset d.log (.responded c.event) ∧ Flagged identifier catalogue d.currentRelease c

variable {d d' : Discovery Traced}

theorem flagged_captured {l : Listener Traced}
    (h : ToldApart identifier catalogue S.discovery.knownReleaseIds l.responseRelease l.response)
    (json : Json) : Flagged identifier catalogue l.responseRelease
      (Discovery.captured S.discovery S.traced l ⟨json, l.response.url, l.response.postData⟩) := by
  intro hflag hanother
  obtain ⟨hknown, hwithin⟩ := h hanother
  have hright : NamesTheRightRelease identifier l.response.url l.response.postData l.responseRelease
      S.discovery.knownReleaseIds := namesTheRightRelease_iff.2 fun hboth => hwithin hboth.2
  have hother : (Discovery.captured S.discovery S.traced l
      ⟨json, l.response.url, l.response.postData⟩).namesOtherRelease = true := (hright hknown hanother.2).2
  rw [hother] at hflag
  cases hflag

/-- Entries other than resets are added, the answers among them flagged where they are another's. -/
theorem Attributed.noted (h : Attributed S identifier catalogue d) (more : List (Entry Traced))
    (hreset : ∀ e ∈ more, e.isReset = false) (hrelease : d'.currentRelease = d.currentRelease)
    (hlisteners : ∀ l ∈ d'.listeners, Noticed S identifier catalogue d'.epoch d.currentRelease l)
    (hcaptures : ∀ c ∈ d'.captures, c ∈ d.captures ∨ Flagged identifier catalogue d.currentRelease c)
    (hsettled : ∀ w c, .settled w (some c) ∈ more →
      SinceLastReset d.log (.responded c.event) ∧ Flagged identifier catalogue d.currentRelease c)
    (hlog : d'.log = more ++ d.log) : Attributed S identifier catalogue d' := by
  have hlater : Later d.log d'.log := ⟨more, hreset, hlog⟩
  refine ⟨fun l hl => ?_, fun c hc => ?_, fun w c hmem hlast => ?_⟩
  · rw [hrelease]
    exact hlisteners l hl
  · rw [hrelease]
    exact (hcaptures c hc).elim (h.captures c) id
  · rw [hrelease]
    rw [hlater.lastReset] at hlast
    have hgiven : SinceLastReset d.log (.responded c.event) ∧
        Flagged identifier catalogue d.currentRelease c := by
      rw [hlog] at hmem
      rcases List.mem_append.1 hmem with hnew | hold
      · exact hsettled w c hnew
      · exact h.answers w c hold hlast
    exact ⟨hlater.sinceLastReset hgiven.1, hgiven.2⟩

theorem attributed_installed : Attributed S identifier catalogue Discovery.installed :=
  ⟨fun _ hl => absurd hl List.not_mem_nil, fun _ hc => absurd hc List.not_mem_nil,
    fun _ _ hmem => absurd hmem List.not_mem_nil⟩

theorem sinceLastReset_of_epoch (h : Sound d) {event : ℕ} (hin : InEpoch d.log (.responded event) d.epoch) :
    SinceLastReset d.log (.responded event) := by
  rw [h.epoch] at hin
  exact sinceLastReset_of_inEpoch hin

theorem Attributed.onResponse (h : Attributed S identifier catalogue d) {r : Response}
    (htold : d.reads S.discovery S.traced r = true →
      ToldApart identifier catalogue S.discovery.knownReleaseIds d.currentRelease r) :
    Attributed S identifier catalogue (d.onResponse S.discovery S.traced r) := by
  have hresponded : ∀ e ∈ [(.responded d.log.length : Entry Traced)], e.isReset = false := by
    intro e he
    rw [List.mem_singleton.1 he]
    rfl
  have hnone : ∀ w c, .settled w (some c) ∈ [(.responded d.log.length : Entry Traced)] →
      SinceLastReset d.log (.responded c.event) ∧ Flagged identifier catalogue d.currentRelease c := by
    intro w c hmem
    cases List.mem_singleton.1 hmem
  unfold Discovery.onResponse
  dsimp only
  split
  · rename_i hreads
    refine h.noted _ hresponded rfl (fun l hl => ?_) (fun c hc => .inl hc) hnone rfl
    rcases List.mem_append.1 hl with hl | hl
    · exact h.listeners l hl
    · obtain rfl := List.mem_singleton.1 hl
      exact ⟨fun _ => rfl, htold hreads, fun c hc => by cases hc⟩
  · exact h.noted _ hresponded rfl h.listeners (fun c hc => .inl hc) hnone rfl

theorem Attributed.deliver (h : Attributed S identifier catalogue d) (hsound : Sound d)
    {captured : CapturedResponse Traced} {n : ℕ} (hfired : InEpoch d.log (.responded captured.event) n)
    (hflagged : n = d.epoch → Flagged identifier catalogue d.currentRelease captured) :
    Attributed S identifier catalogue (d.deliver S.discovery n captured) := by
  unfold Discovery.deliver
  split
  · exact h
  split
  · exact h
  rename_i hepoch
  obtain rfl : n = d.epoch := not_not.1 hepoch
  refine h.noted _ (fun e he => ?_) rfl h.listeners (fun c hc => ?_) (fun w c hmem => ?_) rfl
  · obtain ⟨w, -, rfl⟩ := List.mem_map.1 (List.mem_reverse.1 he)
    rfl
  · rcases List.mem_append.1 hc with hc | hc
    · exact .inl hc
    · obtain rfl := List.mem_singleton.1 hc
      exact .inr (hflagged rfl)
  · obtain ⟨v, -, heq⟩ := List.mem_map.1 (List.mem_reverse.1 hmem)
    obtain rfl := Option.some.inj (Entry.settled.inj heq).2
    exact ⟨sinceLastReset_of_epoch hsound hfired, hflagged rfl⟩

/-- Listeners may go, or come to write what is flagged. -/
theorem Attributed.listening (h : Attributed S identifier catalogue d) (hlog : d'.log = d.log)
    (hepoch : d'.epoch = d.epoch) (hrelease : d'.currentRelease = d.currentRelease)
    (hcaptures : d'.captures = d.captures)
    (hlisteners : ∀ l ∈ d'.listeners, Noticed S identifier catalogue d.epoch d.currentRelease l) :
    Attributed S identifier catalogue d' := by
  refine h.noted [] (fun e he => absurd he List.not_mem_nil) hrelease (fun l hl => ?_)
    (fun c hc => .inl (hcaptures ▸ hc)) (fun _ _ hmem => absurd hmem List.not_mem_nil) hlog
  rw [hepoch]
  exact hlisteners l hl

theorem Attributed.onBody (h : Attributed S identifier catalogue d) (hsound : Sound d)
    {l : Listener Traced} (hl : l ∈ d.listeners) (body : Body Json) :
    Attributed S identifier catalogue (d.onBody S.discovery S.traced l
      ⟨body.length, body.payload.map fun json => ⟨json, l.response.url, l.response.postData⟩⟩) := by
  have hnoticed := h.listeners l hl
  have hrest : ∀ l' ∈ d.listeners.filter (·.event ≠ l.event),
      Noticed S identifier catalogue d.epoch d.currentRelease l' :=
    fun l' hl' => h.listeners l' (List.mem_of_mem_filter hl')
  have hgone : ∀ reads bytes flying,
      Attributed S identifier catalogue { d with
        inFlightBodyReads := flying, bodiesRead := reads, totalBodyBytes := bytes
        listeners := d.listeners.filter (·.event ≠ l.event) } :=
    fun _ _ _ => h.listening rfl rfl rfl rfl hrest
  unfold Discovery.onBody
  dsimp only
  split
  · exact hgone _ _ _
  split
  · exact hgone _ _ _
  cases body.payload with
  | none => exact hgone _ _ _
  | some json =>
    have hflagged := flagged_captured hnoticed.toldApart json
    dsimp only [Option.map_some]
    split
    · exact hgone _ _ _
    split
    · refine h.listening rfl rfl rfl rfl fun l' hl' => ?_
      rcases List.mem_append.1 hl' with hl' | hl'
      · exact hrest l' hl'
      · obtain rfl := List.mem_singleton.1 hl'
        refine ⟨hnoticed.current, hnoticed.toldApart, fun c hc => ?_⟩
        obtain rfl := ListenerStage.writing.inj hc
        exact hflagged
    · have hsound' : Sound { d with
          inFlightBodyReads := d.inFlightBodyReads - 1, bodiesRead := d.bodiesRead + 1
          totalBodyBytes := d.totalBodyBytes + body.length
          listeners := d.listeners.filter (·.event ≠ l.event) } :=
        hsound.listening rfl rfl rfl rfl fun l' hl' => hsound.listeners l' (List.mem_of_mem_filter hl')
      refine (hgone _ _ _).deliver hsound' (hsound.listeners l hl).1 fun hepoch => ?_
      have hrelease : l.responseRelease = d.currentRelease := hnoticed.current hepoch
      rw [← hrelease]
      exact hflagged

theorem Attributed.waitFor (h : Attributed S identifier catalogue d) (hinv : Sound d ∧ Current d)
    (wanted : Wanted) : Attributed S identifier catalogue (d.waitFor wanted) := by
  unfold Discovery.waitFor
  dsimp only
  cases hexisting : wanted.existing d.captures with
  | some c =>
    have hmem := (Wanted.existing_mem hexisting).1
    refine h.noted [.settled d.log.length (some c), .called d.log.length wanted] (fun e he => ?_)
      rfl h.listeners (fun c hc => .inl hc) (fun w c' hsettled => ?_) rfl
    · simp only [List.mem_cons, List.not_mem_nil, or_false] at he
      rcases he with rfl | rfl <;> rfl
    · simp only [List.mem_cons, List.not_mem_nil, or_false, Entry.settled.injEq] at hsettled
      rcases hsettled with ⟨-, hsome⟩ | hcalled
      · obtain rfl := Option.some.inj hsome
        exact ⟨sinceLastReset_of_epoch hinv.1 (hinv.2.captures _ hmem), h.captures _ hmem⟩
      · cases hcalled
  | none =>
    refine h.noted [.called d.log.length wanted] (fun e he => ?_) rfl h.listeners
      (fun c hc => .inl hc) (fun w c' hsettled => ?_) rfl
    · rw [List.mem_singleton.1 he]
      rfl
    · cases List.mem_singleton.1 hsettled

/-- No listener is of the new epoch yet, and no caller since the reset has been given anything. -/
theorem Attributed.resetCaptures (h : Attributed S identifier catalogue d) (hsound : Sound d)
    (releaseId : Option String) :
    Attributed S identifier catalogue { d with currentRelease := releaseId }.resetCaptures := by
  have hlast : lastReset ({ d with currentRelease := releaseId }.resetCaptures).log = d.log.length + 1 := by
    have hlater : Later (.reset :: d.log) ({ d with currentRelease := releaseId }.resetCaptures).log := by
      refine ⟨_, fun e he => ?_, rfl⟩
      obtain ⟨w, -, rfl⟩ := List.mem_map.1 (List.mem_reverse.1 he)
      rfl
    rw [hlater.lastReset, lastReset_reset]
  refine ⟨fun l hl => ?_, fun c hc => absurd hc List.not_mem_nil, fun w c hmem hsince => ?_⟩
  · have hnoticed := h.listeners l hl
    refine ⟨fun hepoch => ?_, hnoticed.toldApart, hnoticed.written⟩
    obtain ⟨newer, older, hlog, hn⟩ := (hsound.listeners l hl).1
    have hle : resets older ≤ resets d.log := by
      unfold resets
      rw [hlog, List.countP_append, List.countP_cons]
      omega
    have hnew : l.responseEpoch = d.epoch + 1 := hepoch
    have hold := hsound.epoch
    omega
  · rw [hlast] at hsince
    rcases List.mem_append.1 hmem with hnew | hold
    · obtain ⟨v, -, heq⟩ := List.mem_map.1 (List.mem_reverse.1 hnew)
      cases (Entry.settled.inj heq).2
    · rcases List.mem_cons.1 hold with heq | hold
      · cases heq
      · have hlt := hsound.settled_lt hold
        omega

theorem context_step {e : Event Json} {e' : Event Traced} (h : Attributed S identifier catalogue d)
    (hinv : Sound d ∧ Current d) (htrace : traceContext d e = some e')
    (hstep : d.step S.discovery S.traced e' = some d') :
    Attributed S identifier catalogue d' ∧ Discovery.Continues d d' := by
  cases e with
  | bodyRead event body =>
    obtain ⟨l, hl, rfl⟩ := Option.map_eq_some_iff.1 htrace
    obtain ⟨l', hl', hstep⟩ := Option.bind_eq_some_iff.1 hstep
    obtain rfl : l = l' := Option.some.inj (hl.symm.trans hl')
    split at hstep
    · obtain rfl := Option.some.inj hstep
      exact ⟨h.onBody hinv.1 (Discovery.mem_listenerAt hl) body, Discovery.continues_onBody _ _⟩
    · cases hstep
  | readFailed event =>
    obtain rfl := Option.some.inj htrace
    obtain ⟨l, -, hstep⟩ := Option.bind_eq_some_iff.1 hstep
    split at hstep
    · obtain rfl := Option.some.inj hstep
      exact ⟨h.listening rfl rfl rfl rfl fun l' hl' => h.listeners l' (List.mem_of_mem_filter hl'),
        Later.refl _, rfl⟩
    · cases hstep
  | candidateWritten event =>
    obtain rfl := Option.some.inj htrace
    obtain ⟨l, hl, hstep⟩ := Option.bind_eq_some_iff.1 hstep
    split at hstep
    · cases hstep
    · rename_i captured hwriting
      obtain rfl := Option.some.inj hstep
      have hmem := Discovery.mem_listenerAt hl
      obtain ⟨hfired, hevent⟩ := hinv.1.listeners l hmem
      have hgone : Attributed S identifier catalogue
          { d with listeners := d.listeners.filter (·.event ≠ l.event) } :=
        h.listening rfl rfl rfl rfl fun l' hl' => h.listeners l' (List.mem_of_mem_filter hl')
      have hsound : Sound { d with listeners := d.listeners.filter (·.event ≠ l.event) } :=
        hinv.1.listening rfl rfl rfl rfl fun l' hl' => hinv.1.listeners l' (List.mem_of_mem_filter hl')
      refine ⟨hgone.deliver hsound ?_ fun hepoch => ?_, Discovery.continues_deliver _ _⟩
      · rw [hevent captured hwriting]
        exact hfired
      · have hrelease : l.responseRelease = d.currentRelease := (h.listeners l hmem).current hepoch
        have hflagged := (h.listeners l hmem).written captured hwriting
        rw [hrelease] at hflagged
        exact hflagged
  | timeout waiter =>
    obtain rfl := Option.some.inj htrace
    obtain ⟨-, rfl⟩ := Option.ite_some_none_eq_some.1 hstep
    refine ⟨h.noted [.settled waiter none] (fun e he => ?_) rfl h.listeners
      (fun c hc => .inl hc) (fun w c hmem => ?_) rfl, Later.cons rfl, rfl⟩
    · rw [List.mem_singleton.1 he]
      rfl
    · cases List.mem_singleton.1 hmem
  | setCurrentRelease _ => cases htrace
  | resetCaptures => cases htrace
  | response _ => cases htrace
  | waitForCatalogResponse _ => cases htrace
  | waitForMatchingResponse _ => cases htrace
  | waitForDifferentEndpoint _ => cases htrace
  | dispose => cases htrace

theorem page_step {cdp cdp' : Cdp Traced} {e : CdpEvent Json} {e' : CdpEvent Traced}
    {good : CapturedResponse Traced → Prop} (h : cdp.Kept good) (htrace : tracePage cdp e = some e')
    (hfresh : cdp.Fresh S.cdp S.traced good e') (hstep : cdp.step S.cdp S.traced e' = some cdp') :
    cdp'.Kept good ∧ Cdp.Continues cdp cdp' := by
  have hkept : e' ≠ .resetCaptures → cdp'.Kept good := fun hreset => h.step hreset hfresh hstep
  cases e with
  | requestWillBeSent request =>
    obtain rfl := Option.some.inj htrace
    refine ⟨hkept (by simp), ?_⟩
    obtain rfl := Option.some.inj hstep
    unfold Cdp.onRequestWillBeSent
    split
    · exact ⟨Later.refl _, rfl⟩
    · exact ⟨Later.refl _, rfl⟩
  | responseReceived response =>
    obtain rfl := Option.some.inj htrace
    refine ⟨hkept (by simp), ?_⟩
    obtain rfl := Option.some.inj hstep
    unfold Cdp.onResponseReceived
    dsimp only
    split
    · exact ⟨Later.cons rfl, rfl⟩
    · exact ⟨Later.cons rfl, rfl⟩
  | loadingFinished requestId =>
    obtain rfl := Option.some.inj htrace
    refine ⟨hkept (by simp), ?_⟩
    obtain rfl := Option.some.inj hstep
    unfold Cdp.onLoadingFinished
    split
    · exact ⟨Later.refl _, rfl⟩
    · split
      · exact ⟨Later.refl _, rfl⟩
      · exact ⟨Later.refl _, rfl⟩
  | loadingFailed requestId =>
    obtain rfl := Option.some.inj htrace
    refine ⟨hkept (by simp), ?_⟩
    obtain rfl := Option.some.inj hstep
    exact ⟨Later.refl _, rfl⟩
  | bodyFetched fetch body =>
    obtain ⟨p, -, rfl⟩ := Option.map_eq_some_iff.1 htrace
    refine ⟨hkept (by simp), ?_⟩
    obtain ⟨candidate, -, rfl⟩ := Option.map_eq_some_iff.1 hstep
    unfold Cdp.onBody
    dsimp only
    split
    · exact ⟨Later.refl _, rfl⟩
    · exact Cdp.continues_deliver _
  | fetchFailed fetch =>
    obtain rfl := Option.some.inj htrace
    refine ⟨hkept (by simp), ?_⟩
    obtain ⟨candidate, -, rfl⟩ := Option.map_eq_some_iff.1 hstep
    exact ⟨Later.refl _, rfl⟩
  | timeout waiter =>
    obtain rfl := Option.some.inj htrace
    refine ⟨hkept (by simp), ?_⟩
    obtain ⟨-, rfl⟩ := Option.ite_some_none_eq_some.1 hstep
    exact ⟨Later.cons rfl, rfl⟩
  | setCurrentRelease _ => cases htrace
  | resetCaptures => cases htrace
  | waitForCatalogResponse _ => cases htrace
  | dispose => cases htrace

end Listening

/-! ### A tab -/

namespace Tab

variable {S : Session} {identifier : Char → Bool} {catalogue : List String} {t t' : Tab}

/-- The extraction is of the current release, has waited since the last reset, and has taken what is
the release's own. -/
def Attends (identifier : Char → Bool) (catalogue : List String) (t : Tab) : Prop :=
  match t.stage with
  | .idle => True
  | .navigating ref => t.discovery.currentRelease = some ref.releaseId
  | .matching ref _ waiter => t.discovery.currentRelease = some ref.releaseId ∧
      lastReset (t.log .context) ≤ waiter ∧
      ∃ policy, .called waiter (.matchingResponse policy) ∈ t.log .context
  | .matchingCdp ref _ waiter => t.discovery.currentRelease = some ref.releaseId ∧
      lastReset (t.log .cdp) ≤ waiter
  | .settling ref _ hit _ => t.discovery.currentRelease = some ref.releaseId ∧
      ∀ path c, hit = some (path, c) → SinceLastReset (t.log path) (.responded c.event) ∧
        Owns identifier catalogue (some ref.releaseId) c

structure Inv (S : Session) (identifier : Char → Bool) (catalogue : List String) (t : Tab) : Prop where
  discovery : Sound t.discovery ∧ Current t.discovery
  attributed : Attributed S identifier catalogue t.discovery
  cdp : ∀ cdp ∈ t.cdp, cdp.currentRelease = t.discovery.currentRelease ∧
    cdp.Kept (Owns identifier catalogue t.discovery.currentRelease)
  attends : t.Attends identifier catalogue
  completions : ∀ c ∈ t.completions, c.Own identifier catalogue

theorem settledWith_mem {waiter : ℕ} {log : List (Entry Traced)}
    {result : Option (CapturedResponse Traced)} (h : settledWith waiter log = some result) :
    .settled waiter result ∈ log := by
  obtain ⟨e, he, hresult⟩ := List.exists_of_findSome?_eq_some h
  cases e with
  | settled w r =>
    obtain ⟨hw, rfl⟩ := Option.ite_some_none_eq_some.1 hresult
    exact hw ▸ he
  | reset => cases hresult
  | responded event => cases hresult
  | called w wanted => cases hresult

theorem inv_installed (withCdp : Bool) : (installed withCdp).Inv S identifier catalogue := by
  refine ⟨⟨Discovery.sound_installed, Discovery.current_installed⟩, attributed_installed, fun cdp hcdp => ?_,
    trivial, fun c hc => absurd hc List.not_mem_nil⟩
  cases withCdp with
  | true =>
    obtain rfl := Option.some.inj hcdp
    exact ⟨rfl, Cdp.kept_attached _⟩
  | false => cases hcdp

theorem Attends.later (h : t.Attends identifier catalogue) (hstage : t'.stage = t.stage)
    (hrelease : t'.discovery.currentRelease = t.discovery.currentRelease)
    (hlog : ∀ path, Later (t.log path) (t'.log path)) : t'.Attends identifier catalogue := by
  unfold Attends at h ⊢
  rw [hstage, hrelease, (hlog .context).lastReset, (hlog .cdp).lastReset]
  split at h
  · trivial
  · exact h
  · obtain ⟨hcurrent, hlast, policy, hcalled⟩ := h
    exact ⟨hcurrent, hlast, policy, (hlog .context).mem hcalled⟩
  · exact h
  · exact ⟨h.1, fun path c hhit => ⟨(hlog path).sinceLastReset (h.2 path c hhit).1, (h.2 path c hhit).2⟩⟩

/-- The context's listener goes on, within a release. -/
theorem Inv.listen (h : t.Inv S identifier catalogue) {d : Discovery Traced}
    (hd : Sound d ∧ Current d) (hattributed : Attributed S identifier catalogue d)
    (hcontinues : Discovery.Continues t.discovery d) : Inv S identifier catalogue { t with discovery := d } := by
  refine ⟨hd, hattributed, fun cdp hcdp => ?_, ?_, h.completions⟩
  · rw [show _ = t.discovery.currentRelease from hcontinues.2]
    exact h.cdp cdp hcdp
  · refine h.attends.later rfl hcontinues.2 fun path => ?_
    cases path with
    | context => exact hcontinues.1
    | cdp => exact Later.refl _

/-- The page's session goes on, within a release. -/
theorem Inv.attend (h : t.Inv S identifier catalogue) {cdp cdp' : Cdp Traced} (hcdp : t.cdp = some cdp)
    (hkept : cdp'.Kept (Owns identifier catalogue t.discovery.currentRelease))
    (hcontinues : Cdp.Continues cdp cdp') : Inv S identifier catalogue { t with cdp := some cdp' } := by
  refine ⟨h.discovery, h.attributed, fun c hc => ?_, ?_, h.completions⟩
  · obtain rfl := Option.some.inj hc
    exact ⟨hcontinues.2.trans (h.cdp cdp hcdp).1, hkept⟩
  · refine h.attends.later rfl rfl fun path => ?_
    cases path with
    | context => exact Later.refl _
    | cdp =>
      show Later ((t.cdp.map (·.log)).getD []) cdp'.log
      rw [hcdp]
      exact hcontinues.1

theorem Inv.stage (h : t.Inv S identifier catalogue) {stage : Stage}
    (hattends : Attends identifier catalogue { t with stage }) :
    Inv S identifier catalogue { t with stage } :=
  ⟨h.discovery, h.attributed, h.cdp, hattends, h.completions⟩

theorem Inv.waitFor (h : t.Inv S identifier catalogue) (wanted : Wanted) :
    Inv S identifier catalogue { t with discovery := t.discovery.waitFor wanted } :=
  h.listen (Discovery.inv_waitFor h.discovery wanted) (h.attributed.waitFor h.discovery wanted)
    (Discovery.continues_waitFor wanted)

theorem Inv.begin (h : t.Inv S identifier catalogue) (ref : ReleaseRefRecord) :
    (t.begin S ref).Inv S identifier catalogue := by
  have hnamed : ∀ d, t.discovery.step S.discovery S.traced (.setCurrentRelease (some ref.releaseId)) = some d →
      Sound d ∧ Current d := fun d hstep => Discovery.inv_step h.discovery hstep
  have hreset : ∀ d d', Sound d ∧ Current d → d.step S.discovery S.traced .resetCaptures = some d' →
      Sound d' ∧ Current d' := fun d d' hd hstep => Discovery.inv_step hd hstep
  refine ⟨hreset _ _ (hnamed _ rfl) rfl, h.attributed.resetCaptures h.discovery.1 _, fun cdp hcdp => ?_, ?_, h.completions⟩
  · obtain ⟨cdp, hmem, rfl⟩ := Option.map_eq_some_iff.1 hcdp
    exact ⟨rfl, (h.cdp cdp hmem).2.resetCaptures _ _⟩
  · unfold Attends Tab.begin
    dsimp only
    split <;> rename_i hstage <;> split at hstage <;> cases hstage
    · trivial
    · rfl

theorem Inv.landed (h : t.Inv S identifier catalogue) {ref : ReleaseRefRecord}
    (hrelease : t.discovery.currentRelease = some ref.releaseId) (url : Except String String)
    (activeFingerprints : List String) (anyDegraded : Bool) :
    (t.landed S ref url activeFingerprints anyDegraded).Inv S identifier catalogue := by
  unfold Tab.landed
  split
  · exact h.stage trivial
  · split
    · have hcontinues := Discovery.continues_waitFor (d := t.discovery) (.matchingResponse
        ⟨activeFingerprints, some ref.releaseId, activeFingerprints.isEmpty || anyDegraded, some S.discovery.minScore⟩)
      refine (h.waitFor _).stage ⟨hcontinues.2.trans hrelease, ?_, _, Discovery.called_mem_waitFor _⟩
      show lastReset (t.discovery.waitFor _).log ≤ _
      rw [hcontinues.1.lastReset]
      exact lastReset_le _
    · exact h.stage trivial

theorem Inv.read (h : t.Inv S identifier catalogue) {ref : ReleaseRefRecord} {path : CapturePath}
    {hit : CapturedResponse Traced} (hrelease : t.discovery.currentRelease = some ref.releaseId)
    (hhit : SinceLastReset (t.log path) (.responded hit.event) ∧ Owns identifier catalogue (some ref.releaseId) hit)
    (landed : String) : (t.read S ref landed path hit).Inv S identifier catalogue := by
  have hsettling : ∀ {t' : Tab}, t'.discovery.currentRelease = some ref.releaseId →
      Later (t.log path) (t'.log path) → ∀ sibling,
      Attends identifier catalogue { t' with stage := .settling ref landed (some (path, hit)) sibling } := by
    intro t' hrelease' hlater sibling
    refine ⟨hrelease', fun path' c heq => ?_⟩
    obtain ⟨rfl, rfl⟩ := Prod.mk.inj (Option.some.inj heq)
    exact ⟨hlater.sinceLastReset hhit.1, hhit.2⟩
  unfold Tab.read
  split
  · exact h.stage (hsettling hrelease (Later.refl _) none)
  · split
    · have hcontinues := Discovery.continues_waitFor (d := t.discovery) (.differentEndpoint hit.fingerprint)
      refine (h.waitFor _).stage (hsettling (hcontinues.2.trans hrelease) ?_ _)
      cases path with
      | context => exact hcontinues.1
      | cdp => exact Later.refl _
    · exact h.stage (hsettling hrelease (Later.refl _) none)

theorem Inv.askCdp (h : t.Inv S identifier catalogue) {ref : ReleaseRefRecord}
    (hrelease : t.discovery.currentRelease = some ref.releaseId) (landed : String) :
    (t.askCdp S ref landed).Inv S identifier catalogue := by
  unfold Tab.askCdp
  split
  · exact h.stage ⟨hrelease, fun path c hnone => by cases hnone⟩
  · rename_i cdp hcdp
    have hcontinues := Cdp.continues_waitForCatalogResponse (d := cdp) S.cdp.minScore
    refine (h.attend hcdp ((h.cdp cdp hcdp).2.waitForCatalogResponse _) hcontinues).stage ⟨hrelease, ?_⟩
    show lastReset (cdp.waitForCatalogResponse _).log ≤ _
    rw [hcontinues.1.lastReset]
    exact lastReset_le _

/-- What a release is completed from is its own. -/
theorem Inv.own_completion (h : t.Inv S identifier catalogue) {ref : ReleaseRefRecord}
    {hit : Option (CapturePath × CapturedResponse Traced)} {outcome : ReleaseExtractionOutcome}
    (hrelease : t.discovery.currentRelease = some ref.releaseId)
    (hhit : ∀ path c, hit = some (path, c) → SinceLastReset (t.log path) (.responded c.event) ∧
      Owns identifier catalogue (some ref.releaseId) c)
    {c : Completion} (hc : t.completion S ref hit outcome = some c) : c.Own identifier catalogue := by
  unfold Tab.completion at hc
  split at hc
  · rename_i path captured _ _ _
    split at hc
    · cases hc
    · obtain rfl := Option.some.inj hc
      refine ⟨hhit path captured rfl, fun sibling hsibling => ?_⟩
      obtain ⟨hmem, hdonates⟩ := List.mem_filter.1 hsibling
      unfold donates at hdonates
      have hother := (Bool.and_eq_true_iff.1 (Bool.and_eq_true_iff.1 hdonates).1).2
      have hflagged := h.attributed.captures sibling hmem
      rw [hrelease] at hflagged
      exact ⟨sinceLastReset_of_epoch h.discovery.1 (h.discovery.2.captures sibling hmem),
        hflagged (by simpa [untraced] using hother)⟩
  · cases hc

theorem Inv.finish (h : t.Inv S identifier catalogue) {ref : ReleaseRefRecord}
    {hit : Option (CapturePath × CapturedResponse Traced)}
    (hrelease : t.discovery.currentRelease = some ref.releaseId)
    (hhit : ∀ path c, hit = some (path, c) → SinceLastReset (t.log path) (.responded c.event) ∧
      Owns identifier catalogue (some ref.releaseId) c)
    (landed : String) (rest : Observed) : (t.finish S ref landed hit rest).Inv S identifier catalogue := by
  refine ⟨h.discovery, h.attributed, h.cdp, trivial, fun c hc => ?_⟩
  rcases List.mem_append.1 hc with hc | hc
  · exact h.completions c hc
  · exact h.own_completion hrelease hhit (Option.mem_toList.1 hc)

/-- What the listener at the context has given to the extraction is the release's own. -/
theorem Inv.matched (h : t.Inv S identifier catalogue) {ref : ReleaseRefRecord} {waiter : ℕ}
    {policy : ResponseMatchPolicy} {hit : CapturedResponse Traced}
    (hrelease : t.discovery.currentRelease = some ref.releaseId)
    (hlast : lastReset (t.log .context) ≤ waiter)
    (hcalled : .called waiter (.matchingResponse policy) ∈ t.log .context)
    (hsettled : settledWith waiter (t.log .context) = some (some hit)) :
    SinceLastReset (t.log .context) (.responded hit.event) ∧
      Owns identifier catalogue (some ref.releaseId) hit := by
  have hmem := settledWith_mem hsettled
  obtain ⟨hcame, hflagged⟩ := h.attributed.answers waiter hit hmem hlast
  rw [hrelease] at hflagged
  exact ⟨hcame, hflagged (h.discovery.1.matchingResponse hcalled hmem)⟩

theorem Inv.matchedCdp (h : t.Inv S identifier catalogue) {ref : ReleaseRefRecord} {waiter : ℕ}
    {hit : CapturedResponse Traced} (hrelease : t.discovery.currentRelease = some ref.releaseId)
    (hlast : lastReset (t.log .cdp) ≤ waiter) (hsettled : settledWith waiter (t.log .cdp) = some (some hit)) :
    SinceLastReset (t.log .cdp) (.responded hit.event) ∧ Owns identifier catalogue (some ref.releaseId) hit := by
  have hmem := settledWith_mem hsettled
  unfold Tab.log at hlast hmem ⊢
  cases hcdp : t.cdp with
  | none =>
    rw [hcdp] at hmem
    cases hmem
  | some cdp =>
    rw [hcdp] at hlast hmem
    have hanswer := (h.cdp cdp hcdp).2.answers waiter hit hmem hlast
    rw [hrelease] at hanswer
    exact hanswer

/-- A body that the page's session captures is fresh. -/
def Fresh (S : Session) (identifier : Char → Bool) (catalogue : List String) (t : Tab) : TabEvent → Prop
  | .page e => ∀ cdp ∈ t.cdp, ∀ e' ∈ tracePage cdp e,
      cdp.Fresh S.cdp S.traced (Owns identifier catalogue cdp.currentRelease) e'
  | _ => True

theorem Inv.step (h : t.Inv S identifier catalogue) {e : TabEvent} (hfresh : t.Fresh S identifier catalogue e)
    (hstep : t.step S e = some t') : t'.Inv S identifier catalogue := by
  have hattends := h.attends
  unfold Attends at hattends
  cases e with
  | begin ref =>
    dsimp only [Tab.step] at hstep
    split at hstep
    · obtain rfl := Option.some.inj hstep
      exact h.begin ref
    · cases hstep
  | landed url activeFingerprints anyDegraded =>
    dsimp only [Tab.step] at hstep
    split at hstep
    · rename_i ref hstage
      rw [hstage] at hattends
      obtain rfl := Option.some.inj hstep
      exact h.landed hattends url activeFingerprints anyDegraded
    · cases hstep
  | matched =>
    dsimp only [Tab.step] at hstep
    split at hstep
    · rename_i ref landed waiter hstage
      rw [hstage] at hattends
      obtain ⟨hrelease, hlast, policy, hcalled⟩ := hattends
      obtain ⟨result, hsettled, rfl⟩ := Option.map_eq_some_iff.1 hstep
      cases result with
      | some hit => exact h.read hrelease (h.matched hrelease hlast hcalled hsettled) landed
      | none => exact h.askCdp hrelease landed
    · cases hstep
  | matchedCdp =>
    dsimp only [Tab.step] at hstep
    split at hstep
    · rename_i ref landed waiter hstage
      rw [hstage] at hattends
      obtain ⟨hrelease, hlast⟩ := hattends
      obtain ⟨result, hsettled, rfl⟩ := Option.map_eq_some_iff.1 hstep
      cases result with
      | some hit => exact h.read hrelease (h.matchedCdp hrelease hlast hsettled) landed
      | none => exact h.stage ⟨hrelease, fun path c hnone => by cases hnone⟩
    · cases hstep
  | finish rest =>
    dsimp only [Tab.step] at hstep
    split at hstep
    · rename_i ref landed hit sibling hstage
      rw [hstage] at hattends
      obtain ⟨-, rfl⟩ := Option.ite_some_none_eq_some.1 hstep
      exact h.finish hattends.1 hattends.2 landed rest
    · cases hstep
  | context e =>
    obtain ⟨e', htrace, hstep⟩ := Option.bind_eq_some_iff.1 hstep
    obtain ⟨d, hd, hstep⟩ := Option.bind_eq_some_iff.1 hstep
    obtain rfl := Option.some.inj hstep
    obtain ⟨hattributed, hcontinues⟩ := context_step h.attributed h.discovery htrace hd
    exact h.listen (Discovery.inv_step h.discovery hd) hattributed hcontinues
  | page e =>
    obtain ⟨cdp, hcdp, hstep⟩ := Option.bind_eq_some_iff.1 hstep
    obtain ⟨e', htrace, hstep⟩ := Option.bind_eq_some_iff.1 hstep
    obtain ⟨cdp', hcdp', hstep⟩ := Option.bind_eq_some_iff.1 hstep
    obtain rfl := Option.some.inj hstep
    obtain ⟨hrelease, hkept⟩ := h.cdp cdp hcdp
    have hbody := hfresh cdp hcdp e' htrace
    rw [hrelease] at hbody
    obtain ⟨hkept', hcontinues⟩ := page_step hkept htrace hbody hcdp'
    exact h.attend hcdp hkept' hcontinues

end Tab

/-! ### The tabs of a chunk -/

section Chunk

variable {S : Session} {identifier : Char → Bool} {catalogue : List String}

theorem inv_chunk_step {tabs tabs' : List Tab} {e : ChunkEvent} (h : ∀ t ∈ tabs, t.Inv S identifier catalogue)
    (hattributable : Attributable identifier catalogue S tabs e) (hstep : Chunk.step S tabs e = some tabs') :
    ∀ t ∈ tabs', t.Inv S identifier catalogue := by
  cases e with
  | response r =>
    obtain rfl := Option.some.inj hstep
    intro t' ht'
    obtain ⟨t, ht, rfl⟩ := List.mem_map.1 ht'
    have hinv := h t ht
    exact hinv.listen ⟨hinv.discovery.1.onResponse r, hinv.discovery.2.onResponse r⟩
      (hinv.attributed.onResponse (hattributable t ht)) (Discovery.continues_onResponse r)
  | tab i e =>
    obtain ⟨t, ht, hstep⟩ := Option.bind_eq_some_iff.1 hstep
    obtain ⟨t', ht', hstep⟩ := Option.bind_eq_some_iff.1 hstep
    obtain rfl := Option.some.inj hstep
    have hfresh : t.Fresh S identifier catalogue e := by
      cases e with
      | page e => exact hattributable t ht
      | begin _ => trivial
      | landed _ _ _ => trivial
      | matched => trivial
      | matchedCdp => trivial
      | finish _ => trivial
      | context _ => trivial
    intro t'' ht''
    rcases List.mem_or_eq_of_mem_set ht'' with hold | rfl
    · exact h t'' hold
    · exact (h t (List.mem_of_getElem? ht)).step hfresh ht'

/-- However many tabs share the context and whatever happens to them in whatever order, no release is
completed from the data of another, if each response can be told apart and each body that the page's
session captures is fresh. -/
theorem tabs_noCrossRelease (S : Session) (identifier : Char → Bool) (catalogue : List String)
    (withCdp : List Bool) (es : List ChunkEvent)
    (h : Steps.Along (Chunk.step S) (Attributable identifier catalogue S) (withCdp.map Tab.installed) es) :
    Steps.Throughout (Chunk.step S) (NoCrossRelease identifier catalogue) (withCdp.map Tab.installed) es := by
  have hinstalled : ∀ t ∈ withCdp.map Tab.installed, t.Inv S identifier catalogue := by
    intro t ht
    obtain ⟨b, -, rfl⟩ := List.mem_map.1 ht
    exact Tab.inv_installed b
  have hinv := Steps.throughout_of_along (P := fun tabs => ∀ t ∈ tabs, t.Inv S identifier catalogue)
    hinstalled h fun _ _ _ hs hC hstep => inv_chunk_step hs hC hstep
  exact hinv.mono fun tabs htabs t ht => (htabs t ht).completions

end Chunk

/-! ### Runs of two releases -/

def sampleSession : Session where
  browser := { sampleBrowser with
    parsePageUrl := fun url =>
      if "https://distrokid.com/".toList <+: url.toList then some ⟨"https:", "", "", "distrokid.com", ""⟩
      else none }
  options := sampleOptions
  discovery :=
    { knownReleaseIds := ["A1", "B2"], minScore := 10, maxBodies := 2000
      maxTotalBodyBytes := 32 * 1024 * 1024, maxConcurrentBodyReads := 4, writesCandidates := false }
  reading := { isInspectableUrl := fun _ => true, score := fun _ => 10, fingerprint := (·.url) }

def otherReleaseRef : ReleaseRefRecord :=
  ⟨"B2", "https://distrokid.com/dashboard/album/?albumuuid=B2", some "Other song", none, none⟩

/-- A release as its endpoint gives it. -/
def samplePage (title : String) : Body Json :=
  ⟨500, some (.obj [("title", .str title), ("tracks", .arr [.obj [("title", .str title)]])])⟩

def sampleResponse (url : String) : Response :=
  ⟨"GET", url, none, "fetch", 200, "application/json", none⟩

/-- Each of two tabs reads its own release, and sees the response of the other's. -/
def sampleTabs : List ChunkEvent :=
  [.tab 0 (.begin sampleReleaseRef), .tab 1 (.begin otherReleaseRef),
   .tab 0 (.landed (.ok sampleReleaseRef.dashboardUrl) [] false),
   .tab 1 (.landed (.ok otherReleaseRef.dashboardUrl) [] false),
   .response (sampleResponse "https://distrokid.com/api/album/B2"),
   .response (sampleResponse "https://distrokid.com/api/album/A1"),
   .tab 0 (.context (.bodyRead 2 (samplePage "Other song"))),
   .tab 1 (.context (.bodyRead 2 (samplePage "Other song"))),
   .tab 0 (.context (.bodyRead 3 (samplePage "Song"))),
   .tab 1 (.context (.bodyRead 3 (samplePage "Song"))),
   .tab 0 .matched, .tab 1 .matched,
   .tab 0 (.finish (sampleObserved .null)), .tab 1 (.finish (sampleObserved .null))]

/-- The navigation to one release fails while its response's body is fetched, and the body comes when
the next release asks the page's session. -/
def sampleLateBody : List ChunkEvent :=
  [.tab 0 (.begin otherReleaseRef),
   .tab 0 (.page (.requestWillBeSent ⟨"7", "GET", "https://distrokid.com/api/album/B2", none⟩)),
   .tab 0 (.page (.responseReceived ⟨"7", "https://distrokid.com/api/album/B2", "application/json", 200, none⟩)),
   .tab 0 (.page (.loadingFinished "7")),
   .tab 0 (.landed (.error "page.goto: Timeout 30000ms exceeded.") [] false),
   .tab 0 (.begin sampleReleaseRef),
   .tab 0 (.landed (.ok sampleReleaseRef.dashboardUrl) [] false),
   .tab 0 (.context (.timeout 2)),
   .tab 0 .matched,
   .tab 0 (.page (.bodyFetched 0 (samplePage "Other song"))),
   .tab 0 .matchedCdp,
   .tab 0 (.context (.timeout 4)),
   .tab 0 (.finish (sampleObserved .null))]

theorem tabs_noCrossRelease_sample :
    Steps.Throughout (Chunk.step sampleSession) (NoCrossRelease Char.isAlphanum ["A1", "B2"])
        ([true, true].map Tab.installed) sampleTabs ∧
      (Steps.run (Chunk.step sampleSession) ([true, true].map Tab.installed) sampleTabs).map
        (·.map fun t => t.completions.map fun c => (c.ref.releaseId, c.release.title)) =
          some [[("A1", "Song")], [("B2", "Other song")]] :=
  ⟨tabs_noCrossRelease sampleSession Char.isAlphanum ["A1", "B2"] [true, true] sampleTabs (by decide +kernel),
    by decide +kernel⟩

/-- The release is completed from the late body of the one before, whose request the capture is known
to name. -/
theorem extractRelease_lateBody :
    ¬ Steps.Throughout (Chunk.step sampleSession) (NoCrossRelease Char.isAlphanum ["A1", "B2"])
        ([true].map Tab.installed) sampleLateBody := by
  intro h
  have hleaks : ∃ tabs ∈ Steps.run (Chunk.step sampleSession) ([true].map Tab.installed) sampleLateBody,
      ∃ t ∈ tabs, ∃ c ∈ t.completions, NamesAnother Char.isAlphanum ["A1", "B2"] c.hit.payload.url
        c.hit.payload.postData (some c.ref.releaseId) := by
    decide +kernel
  obtain ⟨tabs, hrun, t, ht, c, hc, hanother⟩ := hleaks
  exact (h.last hrun t ht c hc).1.2 hanother

end CatalogSentinel.Extract
