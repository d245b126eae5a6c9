import CatalogSentinel.Fixer.Plan
import Mathlib.Data.List.Pairwise

/-!
When the ids of a plan tell its fixes. An id ends in what is wrong, so only fixes of one kind can have
one id: tracks of one release whose numbers are written alike, and stores whose names take up what
another release's id goes on with.
-/

namespace CatalogSentinel.Fixer

open Data
open Data.Utf16 (ofString unit)

/-! ### Lists -/

section Lists

variable {α β κ : Type}

theorem flatMap_ite (p : α → Bool) (f : α → β) (l : List α) :
    (l.flatMap fun x => if p x then [f x] else []) = (l.filter p).map f := by
  induction l with
  | nil => rfl
  | cons x l ih =>
    rw [List.flatMap_cons, ih]
    cases hp : p x <;> simp [hp]

/-- What is listed of some is listed once if no two of them give the same. -/
theorem nodup_flatMap_ite {p : α → Bool} {f : α → β} {l : List α} :
    (l.flatMap fun x => if p x then [f x] else []).Nodup ↔
      l.Pairwise fun x y => p x = true → p y = true → f x ≠ f y := by
  rw [flatMap_ite, List.Nodup, List.pairwise_map, List.pairwise_filter]

/-- Pairs are listed once if those of each kind are. -/
theorem nodup_iff_of_kind [DecidableEq κ] {l : List (κ × β)} :
    l.Nodup ↔ ∀ k, ((l.filter fun x => x.1 = k).map Prod.snd).Nodup := by
  constructor
  · intro h k
    refine (h.filter _).map_on fun x hx y hy heq => ?_
    simp only [List.mem_filter, decide_eq_true_eq] at hx hy
    exact Prod.ext (hx.2.trans hy.2.symm) heq
  · intro h
    rw [List.nodup_iff_sublist]
    intro x hx
    have hkind : [x, x].Sublist (l.filter fun y => y.1 = x.1) := by
      simpa using hx.filter fun y => decide (y.1 = x.1)
    exact List.nodup_iff_sublist.1 (h x.1) x.2 (hkind.map Prod.snd)

end Lists

/-! ### What the ids are made of -/

inductive Gap
  | upc | art | marked | isrc | wrong | missing | lyricsStore | lyricsDk
  deriving DecidableEq

def Gap.word : Gap → String
  | upc => "upc"
  | art => "art"
  | marked => "marked-missing"
  | isrc => "isrc"
  | wrong => "wrong"
  | missing => "missing"
  | lyricsStore => "lyrics-store"
  | lyricsDk => "lyrics-dk"

variable {N : Type} (toUpperCase : Utf16 → Utf16) (numerals : Numerals N)

def CatRelease.lacks (r : CatRelease N) : Gap → Bool
  | .upc => r.upcStatus ≠ ofString "PRESENT" && !given r.upc
  | .art => r.artworkStatus ≠ ofString "PRESENT"
  | _ => false

/-- The gaps of a track that are about no store in particular. -/
def CatTrack.has (t : CatTrack N) : Gap → Bool
  | .marked => markedMissing t
  | .isrc => lacksIsrc t
  | .lyricsStore => storeChecked t && dkHasLyrics t && !storeHasLyrics t
  | .lyricsDk => storeChecked t && !dkHasLyrics t && storeHasLyrics t
  | _ => false

def PerStore.reports (c : PerStore) : Gap → Bool
  | .wrong => c.status = ofString "wrong-profile"
  | .missing => c.status = ofString "not-live"
  | _ => false

/-- `${r.releaseId}:${num}` -/
def trackBody (r : CatRelease N) (t : CatTrack N) : Utf16 :=
  r.releaseId ++ unit 58 :: numberText numerals t.trackNumber

/-- `${r.releaseId}:${num}:${c.store}` -/
def storeBody (r : CatRelease N) (t : CatTrack N) (c : PerStore) : Utf16 :=
  r.releaseId ++ unit 58 :: (numberText numerals t.trackNumber ++ unit 58 :: c.store)

def idOf (x : Gap × Utf16) : Utf16 := x.2 ++ unit 58 :: ofString x.1.word

/-- What was found, where it was found. -/
def findings (catalogue : Catalogue N) (record : Option RecordView) : List (Gap × Utf16) :=
  catalogue.releases.flatMap fun r =>
    (if r.lacks .upc then [(.upc, r.releaseId)] else []) ++ (if r.lacks .art then [(.art, r.releaseId)] else []) ++
      r.tracks.flatMap fun t =>
        (if t.has .marked then [(.marked, trackBody numerals r t)] else []) ++
          (if t.has .isrc then [(.isrc, trackBody numerals r t)] else []) ++
          ((perStoreOf toUpperCase record t).flatMap fun c =>
            (if c.reports .wrong then [(.wrong, storeBody numerals r t c)] else []) ++
              if c.reports .missing then [(.missing, storeBody numerals r t c)] else []) ++
          (if t.has .lyricsStore then [(.lyricsStore, trackBody numerals r t)] else []) ++
          if t.has .lyricsDk then [(.lyricsDk, trackBody numerals r t)] else []

theorem colon_notMem_word (gap : Gap) : unit 58 ∉ ofString gap.word := by
  cases gap <;> decide

theorem word_inj {gap other : Gap} (h : ofString gap.word = ofString other.word) : gap = other := by
  revert h
  cases gap <;> cases other <;> decide

theorem idOf_injective : Function.Injective idOf := by
  intro x y h
  obtain ⟨hbody, hword⟩ := cut_at_last (colon_notMem_word x.1) (colon_notMem_word y.1) h
  exact Prod.ext (word_inj hword) hbody

variable {toUpperCase numerals} {catalogue : Catalogue N} {record : Option RecordView}

theorem ofString_colon : ofString ":" = [unit 58] := by decide

theorem releaseFixId_eq (r : CatRelease N) (gap : Gap) : releaseFixId r gap.word = idOf (gap, r.releaseId) := by
  simp [releaseFixId, idOf, ofString_colon]

theorem trackFixId_eq (r : CatRelease N) (t : CatTrack N) (gap : Gap) :
    trackFixId numerals r t gap.word = idOf (gap, trackBody numerals r t) := by
  simp [trackFixId, idOf, trackBody, ofString_colon]

theorem storeFixId_eq (r : CatRelease N) (t : CatTrack N) (c : PerStore) (gap : Gap) :
    storeFixId numerals r t c gap.word = idOf (gap, storeBody numerals r t c) := by
  simp [storeFixId, idOf, storeBody, ofString_colon]

theorem ids_releaseFixes (r : CatRelease N) : (releaseFixes r).map Fix.id =
    ((if r.lacks .upc then [(Gap.upc, r.releaseId)] else []) ++
      if r.lacks .art then [(Gap.art, r.releaseId)] else []).map idOf := by
  have hupc : releaseFixId r "upc" = _ := releaseFixId_eq r .upc
  have hart : releaseFixId r "art" = _ := releaseFixId_eq r .art
  unfold releaseFixes CatRelease.lacks
  by_cases hcover : r.artworkStatus = ofString "PRESENT" <;>
    cases decide (r.upcStatus ≠ ofString "PRESENT") && !given r.upc <;> simp [hcover, hupc, hart]

theorem ids_gapFixes (r : CatRelease N) (t : CatTrack N) : (gapFixes numerals r t).map Fix.id =
    ((if t.has .marked then [(Gap.marked, trackBody numerals r t)] else []) ++
      if t.has .isrc then [(Gap.isrc, trackBody numerals r t)] else []).map idOf := by
  have hmarked : trackFixId numerals r t "marked-missing" = _ := trackFixId_eq r t .marked
  have hisrc : trackFixId numerals r t "isrc" = _ := trackFixId_eq r t .isrc
  simp only [gapFixes, List.map_append, apply_ite (List.map Fix.id), apply_ite (List.map idOf), List.map_cons,
    List.map_nil, hmarked, hisrc]
  rfl

theorem ids_storeFixes (r : CatRelease N) (t : CatTrack N) (c : PerStore) : (storeFixes numerals r t c).map Fix.id =
    ((if c.reports .wrong then [(Gap.wrong, storeBody numerals r t c)] else []) ++
      if c.reports .missing then [(Gap.missing, storeBody numerals r t c)] else []).map idOf := by
  have hwrong : storeFixId numerals r t c "wrong" = _ := storeFixId_eq r t c .wrong
  have hmissing : storeFixId numerals r t c "missing" = _ := storeFixId_eq r t c .missing
  have hstatus : ofString "wrong-profile" ≠ ofString "not-live" := by decide
  unfold storeFixes
  by_cases hreports : c.status = ofString "wrong-profile"
  · simp [PerStore.reports, hreports, hstatus, hwrong]
  · by_cases hreports' : c.status = ofString "not-live" <;> simp [PerStore.reports, hreports, hreports', hstatus.symm, hmissing]

theorem ids_lyricsFixes (r : CatRelease N) (t : CatTrack N) : (lyricsFixes numerals r t).map Fix.id =
    ((if t.has .lyricsStore then [(Gap.lyricsStore, trackBody numerals r t)] else []) ++
      if t.has .lyricsDk then [(Gap.lyricsDk, trackBody numerals r t)] else []).map idOf := by
  have hstore : trackFixId numerals r t "lyrics-store" = _ := trackFixId_eq r t .lyricsStore
  have hdk : trackFixId numerals r t "lyrics-dk" = _ := trackFixId_eq r t .lyricsDk
  unfold lyricsFixes CatTrack.has
  cases storeChecked t <;> cases dkHasLyrics t <;> cases storeHasLyrics t <;> simp [hstore, hdk]

/-- The fixes have the ids of the findings, in their order. -/
theorem ids_foundFixes : (foundFixes toUpperCase numerals catalogue record).map Fix.id =
    (findings toUpperCase numerals catalogue record).map idOf := by
  simp only [foundFixes, findings, List.map_flatMap, List.map_append, ids_releaseFixes, ids_gapFixes, ids_storeFixes,
    ids_lyricsFixes, List.append_assoc]

theorem nodup_ids : ((planFixes toUpperCase numerals catalogue record).map Fix.id).Nodup ↔
    (findings toUpperCase numerals catalogue record).Nodup := by
  have hsorted : (planFixes toUpperCase numerals catalogue record).Perm
      (foundFixes toUpperCase numerals catalogue record) := List.mergeSort_perm _ _
  rw [(hsorted.map Fix.id).nodup_iff, ids_foundFixes, List.nodup_map_iff idOf_injective]

/-! ### Findings of a kind -/

/-- The findings of a kind about releases, about tracks, or about stores. -/
def bodies (toUpperCase : Utf16 → Utf16) (numerals : Numerals N) (catalogue : Catalogue N) (record : Option RecordView)
    (gap : Gap) : List Utf16 :=
  ((findings toUpperCase numerals catalogue record).filter fun x => x.1 = gap).map Prod.snd

theorem bodies_ite (p : Bool) (found gap : Gap) (body : Utf16) :
    ((if p then [(found, body)] else []).filter fun x => x.1 = gap).map Prod.snd =
      if p && found = gap then [body] else [] := by
  cases p <;> by_cases h : found = gap <;> simp [h]

theorem bodies_eq (gap : Gap) : bodies toUpperCase numerals catalogue record gap =
    catalogue.releases.flatMap fun r =>
      (if r.lacks gap then [r.releaseId] else []) ++ r.tracks.flatMap fun t =>
        (if t.has gap then [trackBody numerals r t] else []) ++ (perStoreOf toUpperCase record t).flatMap fun c =>
          if c.reports gap then [storeBody numerals r t c] else [] := by
  have hnone : ∀ stores : List PerStore, (stores.flatMap fun _ => ([] : List Utf16)) = [] := by simp
  simp only [bodies, findings, List.filter_flatMap, List.map_flatMap, List.filter_append, List.map_append, bodies_ite]
  cases gap <;> simp [CatRelease.lacks, CatTrack.has, PerStore.reports, hnone] <;> rfl

/-! ### Apart -/

/-- Fixes of one kind that are about two stores of two releases have one id: the other's release id goes
on with what this store is written after, and this store's name with the rest. -/
def Continues (numerals : Numerals N) (r : CatRelease N) (t : CatTrack N) (c : PerStore) (r' : CatRelease N)
    (t' : CatTrack N) (c' : PerStore) : Prop :=
  ∃ rest, r'.releaseId = r.releaseId ++ unit 58 :: (numberText numerals t.trackNumber ++ rest) ∧
    unit 58 :: c.store = rest ++ unit 58 :: (numberText numerals t'.trackNumber ++ unit 58 :: c'.store)

/-- What a release id goes on with makes it another. -/
theorem Continues.ne {r r' : CatRelease N} {t t' : CatTrack N} {c c' : PerStore}
    (h : Continues numerals r t c r' t' c') : r.releaseId ≠ r'.releaseId := by
  obtain ⟨rest, hrest, -⟩ := h
  intro heq
  rw [heq] at hrest
  simpa using congrArg List.length hrest

theorem colon_notMem_numberText (num : Option N) : unit 58 ∉ numberText numerals num := by
  cases num with
  | none => exact (by decide : unit 58 ∉ ofString "null")
  | some n => exact numerals.plain n

theorem trackBody_inj {r r' : CatRelease N} {t t' : CatTrack N} (h : trackBody numerals r t = trackBody numerals r' t') :
    r.releaseId = r'.releaseId ∧ numberText numerals t.trackNumber = numberText numerals t'.trackNumber :=
  cut_at_last (colon_notMem_numberText _) (colon_notMem_numberText _) h

theorem storeBody_same {r : CatRelease N} {t t' : CatTrack N} {c c' : PerStore} :
    storeBody numerals r t c = storeBody numerals r t' c' ↔
      numberText numerals t.trackNumber = numberText numerals t'.trackNumber ∧ c.store = c'.store := by
  unfold storeBody
  rw [List.append_right_inj, List.cons_inj_right]
  constructor
  · exact cut_at_first (colon_notMem_numberText _) (colon_notMem_numberText _)
  · rintro ⟨hnumber, hstore⟩
    rw [hnumber, hstore]

theorem continues_of_shared {r r' : CatRelease N} {t t' : CatTrack N} {c c' : PerStore} {rest : Utf16}
    (hne : r.releaseId ≠ r'.releaseId) (hrest : r'.releaseId = r.releaseId ++ rest)
    (h : unit 58 :: (numberText numerals t.trackNumber ++ unit 58 :: c.store) =
      rest ++ unit 58 :: (numberText numerals t'.trackNumber ++ unit 58 :: c'.store)) :
    Continues numerals r t c r' t' c' := by
  cases rest with
  | nil => exact absurd (by rw [hrest, List.append_nil]) hne
  | cons u rest =>
    obtain ⟨rfl, hnumber⟩ := List.cons.inj h
    rcases List.append_eq_append_iff.1 hnumber with ⟨more, rfl, hstore⟩ | ⟨more, hmore, hstore⟩
    · exact ⟨more, hrest, hstore⟩
    · cases more with
      | nil =>
        rw [List.append_nil] at hmore
        exact ⟨[], by rw [hrest, hmore, List.append_nil], hstore.symm⟩
      | cons v more =>
        obtain ⟨rfl, -⟩ := List.cons.inj hstore
        have hcolon : unit 58 ∉ numberText numerals t.trackNumber := colon_notMem_numberText t.trackNumber
        exact absurd (by rw [hmore]; simp) hcolon

/-- Stores of two releases are named alike if the one's or the other's release id goes on so. -/
theorem storeBody_eq_iff {r r' : CatRelease N} {t t' : CatTrack N} {c c' : PerStore} (hne : r.releaseId ≠ r'.releaseId) :
    storeBody numerals r t c = storeBody numerals r' t' c' ↔
      Continues numerals r t c r' t' c' ∨ Continues numerals r' t' c' r t c := by
  constructor
  · intro h
    rcases List.append_eq_append_iff.1 h with ⟨rest, hrest, heq⟩ | ⟨rest, hrest, heq⟩
    · exact .inl (continues_of_shared hne hrest heq)
    · exact .inr (continues_of_shared hne.symm hrest heq)
  · have hgoes : ∀ {r r' : CatRelease N} {t t' : CatTrack N} {c c' : PerStore}, Continues numerals r t c r' t' c' →
        storeBody numerals r t c = storeBody numerals r' t' c' := by
      rintro r r' t t' c c' ⟨rest, hrest, hstore⟩
      rw [storeBody, storeBody, hrest, hstore]
      simp
    rintro (h | h)
    · exact hgoes h
    · exact (hgoes h).symm

/-- What a store is found to be for a track. -/
def Found (toUpperCase : Utf16 → Utf16) (record : Option RecordView) (gap : Gap) (r : CatRelease N) (t : CatTrack N)
    (c : PerStore) : Prop := t ∈ r.tracks ∧ c ∈ perStoreOf toUpperCase record t ∧ c.reports gap = true

/-- No two tracks of a release whose numbers are written alike have the gap in common, nor a store that
says it of both, and no two stores of two releases that say it are written alike. -/
structure ApartAt (toUpperCase : Utf16 → Utf16) (numerals : Numerals N) (catalogue : Catalogue N)
    (record : Option RecordView) (gap : Gap) : Prop where
  tracks : ∀ r ∈ catalogue.releases, r.tracks.Pairwise fun t t' => t.has gap = true → t'.has gap = true →
    numberText numerals t.trackNumber ≠ numberText numerals t'.trackNumber
  stores : ∀ r ∈ catalogue.releases, r.tracks.Pairwise fun t t' =>
    numberText numerals t.trackNumber = numberText numerals t'.trackNumber →
      ∀ c ∈ perStoreOf toUpperCase record t, ∀ c' ∈ perStoreOf toUpperCase record t',
        c.reports gap = true → c'.reports gap = true → c.store ≠ c'.store
  releases : ∀ r ∈ catalogue.releases, ∀ r' ∈ catalogue.releases, ∀ t t' c c', Found toUpperCase record gap r t c →
    Found toUpperCase record gap r' t' c' → ¬ Continues numerals r t c r' t' c'

theorem nodup_bodies_of_releases (hreleases : (catalogue.releases.map CatRelease.releaseId).Nodup) {gap : Gap}
    (hhas : ∀ t : CatTrack N, t.has gap = false) (hreports : ∀ c : PerStore, c.reports gap = false) :
    (bodies toUpperCase numerals catalogue record gap).Nodup := by
  rw [bodies_eq]
  simp only [hhas, hreports, Bool.false_eq_true, if_false, List.flatMap_eq_nil_iff.2 fun _ _ => rfl, List.append_nil]
  rw [nodup_flatMap_ite]
  exact (List.pairwise_map.1 hreleases).imp fun hne _ _ => hne

/-- The gaps of tracks are told apart within a release. -/
theorem nodup_bodies_of_tracks (hreleases : (catalogue.releases.map CatRelease.releaseId).Nodup) {gap : Gap}
    (hlacks : ∀ r : CatRelease N, r.lacks gap = false) (hreports : ∀ c : PerStore, c.reports gap = false) :
    (bodies toUpperCase numerals catalogue record gap).Nodup ↔
      ∀ r ∈ catalogue.releases, r.tracks.Pairwise fun t t' => t.has gap = true → t'.has gap = true →
        numberText numerals t.trackNumber ≠ numberText numerals t'.trackNumber := by
  have hbody : ∀ (r : CatRelease N) (t t' : CatTrack N), trackBody numerals r t ≠ trackBody numerals r t' ↔
      numberText numerals t.trackNumber ≠ numberText numerals t'.trackNumber := fun r t t' =>
    not_congr ⟨fun h => (trackBody_inj h).2, fun h => by rw [trackBody, trackBody, h]⟩
  rw [bodies_eq]
  simp only [hlacks, hreports, Bool.false_eq_true, if_false, List.nil_append, List.flatMap_eq_nil_iff.2 fun _ _ => rfl,
    List.append_nil]
  rw [List.nodup_flatMap]
  simp only [nodup_flatMap_ite, hbody]
  refine and_iff_left ((List.pairwise_map.1 hreleases).imp fun {r r'} hne => ?_)
  simp only [Function.onFun, flatMap_ite, List.disjoint_left, List.mem_map, not_exists, not_and]
  rintro _ ⟨t, -, rfl⟩ t' - heq
  exact hne (trackBody_inj heq).1.symm

/-- The stores of a track are named apart, as those of every track of the record are. -/
theorem nodup_perStoreOf
    (hstores : ∀ view ∈ record, ∀ rec ∈ view.tracks, (rec.perStore.map PerStore.store).Nodup) (t : CatTrack N) :
    ((perStoreOf toUpperCase record t).map PerStore.store).Nodup := by
  unfold perStoreOf
  split
  · cases hrec : get? (fun t => isrcKey toUpperCase t.isrc) (isrcKey toUpperCase t.isrc) (byIsrc toUpperCase record) with
    | none => simp
    | some rec =>
      rcases mem_putAll (mem_of_get? hrec) with hnil | hmem
      · cases hnil
      · have htracks := List.mem_of_mem_filter hmem
        cases record with
        | none => cases htracks
        | some view => exact hstores view rfl rec htracks
  · simp

/-- What stores say is told apart within a release, and between two releases. -/
theorem nodup_bodies_of_stores (hreleases : (catalogue.releases.map CatRelease.releaseId).Nodup)
    (hstores : ∀ view ∈ record, ∀ rec ∈ view.tracks, (rec.perStore.map PerStore.store).Nodup) {gap : Gap}
    (hlacks : ∀ r : CatRelease N, r.lacks gap = false) (hhas : ∀ t : CatTrack N, t.has gap = false) :
    (bodies toUpperCase numerals catalogue record gap).Nodup ↔
      (∀ r ∈ catalogue.releases, r.tracks.Pairwise fun t t' =>
        numberText numerals t.trackNumber = numberText numerals t'.trackNumber →
          ∀ c ∈ perStoreOf toUpperCase record t, ∀ c' ∈ perStoreOf toUpperCase record t',
            c.reports gap = true → c'.reports gap = true → c.store ≠ c'.store) ∧
      ∀ r ∈ catalogue.releases, ∀ r' ∈ catalogue.releases, ∀ t t' c c', Found toUpperCase record gap r t c →
        Found toUpperCase record gap r' t' c' → ¬ Continues numerals r t c r' t' c' := by
  rw [bodies_eq]
  simp only [hlacks, hhas, Bool.false_eq_true, if_false, List.nil_append]
  have hmem : ∀ (r : CatRelease N) (body : Utf16), (body ∈ r.tracks.flatMap fun t =>
      (perStoreOf toUpperCase record t).flatMap fun c => if c.reports gap then [storeBody numerals r t c] else []) ↔
        ∃ t c, Found toUpperCase record gap r t c ∧ storeBody numerals r t c = body := by
    intro r body
    simp only [List.mem_flatMap, flatMap_ite, List.mem_map, List.mem_filter, Found]
    constructor
    · rintro ⟨t, ht, c, ⟨hc, hreports⟩, heq⟩
      exact ⟨t, c, ⟨ht, hc, hreports⟩, heq⟩
    · rintro ⟨t, c, ⟨ht, hc, hreports⟩, heq⟩
      exact ⟨t, ht, c, ⟨hc, hreports⟩, heq⟩
  rw [List.nodup_flatMap]
  refine and_congr (forall₂_congr fun r _ => ?_) ⟨fun h => ?_, fun h => ?_⟩
  · rw [List.nodup_flatMap]
    have hone : ∀ t ∈ r.tracks, ((perStoreOf toUpperCase record t).flatMap fun c =>
        if c.reports gap then [storeBody numerals r t c] else []).Nodup := by
      intro t _
      rw [nodup_flatMap_ite]
      have hnodup : ((perStoreOf toUpperCase record t).map PerStore.store).Nodup := nodup_perStoreOf hstores t
      refine (List.pairwise_map.1 hnodup).imp ?_
      intro c c' hne _ _ heq
      exact hne (storeBody_same.1 heq).2
    rw [and_iff_right hone]
    refine List.Pairwise.iff fun t t' => ?_
    simp only [Function.onFun, flatMap_ite, List.disjoint_left, List.mem_map, List.mem_filter, not_exists, not_and]
    constructor
    · intro h hnumber c hc c' hc' hreports hreports' hstore
      exact h ⟨c, ⟨hc, hreports⟩, rfl⟩ c' ⟨hc', hreports'⟩ (storeBody_same.2 ⟨hnumber.symm, hstore.symm⟩)
    · rintro h _ ⟨c, ⟨hc, hreports⟩, rfl⟩ c' ⟨hc', hreports'⟩ heq
      obtain ⟨hnumber, hstore⟩ := storeBody_same.1 heq
      exact h hnumber.symm c hc c' hc' hreports hreports' hstore.symm
  · rintro r hr r' hr' t t' c c' hfound hfound' hgoes
    have hdistinct : r ≠ r' := fun heq => hgoes.ne (by rw [heq])
    have hsymm : Std.Symm (Function.onFun List.Disjoint fun r : CatRelease N => r.tracks.flatMap fun t =>
        (perStoreOf toUpperCase record t).flatMap fun c => if c.reports gap then [storeBody numerals r t c] else []) :=
      ⟨fun _ _ hdisjoint body hbody hbody' => hdisjoint hbody' hbody⟩
    refine h.forall hr hr' hdistinct ((hmem r _).2 ⟨t, c, hfound, rfl⟩) ((hmem r' _).2 ⟨t', c', hfound', ?_⟩)
    exact ((storeBody_eq_iff hgoes.ne).2 (.inl hgoes)).symm
  · refine (List.pairwise_map.1 hreleases).imp_of_mem fun {r r'} hr hr' hne => ?_
    intro body hbody hbody'
    obtain ⟨t, c, hfound, rfl⟩ := (hmem r body).1 hbody
    obtain ⟨t', c', hfound', heq⟩ := (hmem r' _).1 hbody'
    rcases (storeBody_eq_iff hne).1 heq.symm with hgoes | hgoes
    · exact h r hr r' hr' t t' c c' hfound hfound' hgoes
    · exact h r' hr' r hr t' t c' c hfound' hfound hgoes

/-- A gap is one of releases, one of tracks, or one that stores tell of. -/
theorem gap_cases (N : Type) (gap : Gap) :
    ((∀ t : CatTrack N, t.has gap = false) ∧ ∀ c : PerStore, c.reports gap = false) ∨
    ((∀ r : CatRelease N, r.lacks gap = false) ∧ ∀ c : PerStore, c.reports gap = false) ∨
    ((∀ r : CatRelease N, r.lacks gap = false) ∧ ∀ t : CatTrack N, t.has gap = false) := by
  cases gap with
  | upc | art => exact .inl ⟨fun _ => rfl, fun _ => rfl⟩
  | marked | isrc | lyricsStore | lyricsDk => exact .inr (.inl ⟨fun _ => rfl, fun _ => rfl⟩)
  | wrong | missing => exact .inr (.inr ⟨fun _ => rfl, fun _ => rfl⟩)

theorem nodup_bodies_iff (hreleases : (catalogue.releases.map CatRelease.releaseId).Nodup)
    (hstores : ∀ view ∈ record, ∀ rec ∈ view.tracks, (rec.perStore.map PerStore.store).Nodup) (gap : Gap) :
    (bodies toUpperCase numerals catalogue record gap).Nodup ↔ ApartAt toUpperCase numerals catalogue record gap := by
  have hsilent : (∀ c : PerStore, c.reports gap = false) → ∀ r t c, ¬ Found (N := N) toUpperCase record gap r t c := by
    intro hreports r t c hfound
    rw [Found, hreports c] at hfound
    exact Bool.false_ne_true hfound.2.2
  rcases gap_cases N gap with ⟨hhas, hreports⟩ | ⟨hlacks, hreports⟩ | ⟨hlacks, hhas⟩
  · refine iff_of_true (nodup_bodies_of_releases hreleases hhas hreports) ⟨fun r _ => ?_, fun r _ => ?_, ?_⟩
    · exact List.pairwise_of_forall fun t t' h => by simp [hhas] at h
    · exact List.pairwise_of_forall fun t t' _ c _ c' _ h => by simp [hreports] at h
    · exact fun r _ r' _ t t' c c' hfound => absurd hfound (hsilent hreports r t c)
  · rw [nodup_bodies_of_tracks hreleases hlacks hreports]
    refine ⟨fun h => ⟨h, fun r _ => ?_, ?_⟩, ApartAt.tracks⟩
    · exact List.pairwise_of_forall fun t t' _ c _ c' _ h => by simp [hreports] at h
    · exact fun r _ r' _ t t' c c' hfound => absurd hfound (hsilent hreports r t c)
  · rw [nodup_bodies_of_stores hreleases hstores hlacks hhas]
    refine ⟨fun h => ⟨fun r _ => ?_, h.1, h.2⟩, fun h => ⟨h.stores, h.releases⟩⟩
    exact List.pairwise_of_forall fun t t' h => by simp [hhas] at h

/-! ### Toggling -/

/-- To be done with a fix that was open hides this one and no other. -/
def TogglesOne (fixes : List (Fix N)) : Prop :=
  ∀ (d : Done) (keeps : Bool) (i : ℕ) (fix : Fix N), fixes[i]? = some fix → fix.id ∉ d.done →
    openFixes fixes (toggleDone fix.id keeps d) = openFixes (fixes.eraseIdx i) d

theorem eraseIdx_eq_filter {fixes : List (Fix N)} {i : ℕ} {fix : Fix N} (hids : (fixes.map Fix.id).Nodup)
    (hfix : fixes[i]? = some fix) : fixes.eraseIdx i = fixes.filter fun f => f.id ≠ fix.id := by
  induction fixes generalizing i with
  | nil => simp at hfix
  | cons f fixes ih =>
    obtain ⟨hnew, hids⟩ := List.nodup_cons.1 hids
    cases i with
    | zero =>
      obtain rfl := Option.some.inj hfix
      rw [List.eraseIdx_cons_zero, List.filter_cons_of_neg (by simp), List.filter_eq_self.2]
      intro f' hf'
      simp only [decide_eq_true_eq]
      exact fun heq => hnew (heq ▸ List.mem_map_of_mem hf')
    | succ i =>
      rw [List.getElem?_cons_succ] at hfix
      have hne : f.id ≠ fix.id := fun heq => hnew (heq ▸ List.mem_map_of_mem (List.mem_of_getElem? hfix))
      rw [List.eraseIdx_cons_succ, ih hids hfix, List.filter_cons_of_pos (by simpa using hne)]

theorem togglesOne_of_nodup {fixes : List (Fix N)} (hids : (fixes.map Fix.id).Nodup) : TogglesOne fixes := by
  intro d keeps i fix hfix hopen
  rw [eraseIdx_eq_filter hids hfix, openFixes, openFixes, List.filter_filter]
  apply List.filter_congr
  intro f _
  simp [toggleDone, hopen]

/-! ### The law -/

/-- The ids of a plan tell its fixes, and each is toggled alone, exactly if for no kind of gap two tracks
or stores that have it are written alike. -/
theorem planFixes_distinct (hreleases : (catalogue.releases.map CatRelease.releaseId).Nodup)
    (hstores : ∀ view ∈ record, ∀ rec ∈ view.tracks, (rec.perStore.map PerStore.store).Nodup) :
    (((planFixes toUpperCase numerals catalogue record).map Fix.id).Nodup ∧
      TogglesOne (planFixes toUpperCase numerals catalogue record)) ↔
    ∀ gap, ApartAt toUpperCase numerals catalogue record gap := by
  rw [and_iff_left_of_imp togglesOne_of_nodup, nodup_ids, nodup_iff_of_kind]
  exact forall_congr' fun gap => nodup_bodies_iff hreleases hstores gap

/-! ### Numbered and unnumbered tracks -/

/-- No number is written with a colon. -/
theorem colon_notMem_decimal (n : ℕ) : unit 58 ∉ ofString (toString n) := by
  intro hmem
  obtain ⟨ch, hch, hcolon⟩ := List.mem_flatMap.1 hmem
  have hdigit : ch.isDigit = true := by
    rw [Nat.toString_eq_repr, Nat.toList_repr] at hch
    exact Nat.isDigit_of_mem_toDigits (by decide) (by decide) hch
  simp only [Char.isDigit, Bool.and_eq_true, decide_eq_true_eq] at hdigit
  have hlow : 48 ≤ ch.toNat := hdigit.1
  have hhigh : ch.toNat ≤ 57 := hdigit.2
  rw [Utf16.ofChar, if_pos (by omega), List.mem_singleton] at hcolon
  have hval := congrArg Fin.val hcolon
  rw [Utf16.unit_val (by omega), Utf16.unit_val (by omega)] at hval
  omega

def decimal : Numerals ℕ := ⟨fun n => ofString (toString n), 1, colon_notMem_decimal⟩

def track (number : Option ℕ) (isrc : Option Utf16) : CatTrack ℕ where
  title := none
  isrc := isrc
  isrcStatus := ofString "NOT_FOUND"
  trackNumber := number
  plainLyrics := none
  syncedLyrics := none
  storeLyricStatus := none
  storeHasPlain := false
  storeHasSynced := false
  mark := none

def catalogueOf (tracks : List (CatTrack ℕ)) : Catalogue ℕ where
  releases := [{ releaseId := ofString "r1", distributorReleaseId := ofString "r1", title := none, upc := none
                 upcStatus := ofString "PRESENT", artworkStatus := ofString "PRESENT", tracks }]

def notLive : RecordView where
  stores := [ofString "Deezer"]
  tracks := [{ title := none, isrc := some (ofString "USABC2600001")
               perStore := [⟨ofString "Deezer", ofString "not-live", none, none⟩] }]

theorem planFixes_distinct_numbered :
    ((planFixes id decimal (catalogueOf [track (some 1) (some (ofString "USABC2600001")), track (some 2) none])
      (some notLive)).map Fix.id).Nodup := by
  have hreleases : ((catalogueOf [track (some 1) (some (ofString "USABC2600001")), track (some 2) none]).releases.map
      CatRelease.releaseId).Nodup := by decide
  have hstores : ∀ view ∈ some notLive, ∀ rec ∈ view.tracks, (rec.perStore.map PerStore.store).Nodup := by
    simp [notLive]
  have hnumber : numberText decimal (some 1) ≠ numberText decimal (some 2) := by decide
  refine ((planFixes_distinct hreleases hstores).2 fun gap => ⟨?_, ?_, ?_⟩).1
  · simp [catalogueOf, track, hnumber]
  · simp [catalogueOf, track, hnumber]
  · simp only [catalogueOf, List.mem_singleton]
    rintro r rfl r' rfl t t' c c' - - hgoes
    exact hgoes.ne rfl

/-- Two tracks without a number and without an ISRC: to be done with the one is to be done with both. -/
theorem planFixes_unnumbered :
    (planFixes id decimal (catalogueOf [track none none, track none none]) none).length = 2 ∧
    openFixes (planFixes id decimal (catalogueOf [track none none, track none none]) none)
      (toggleDone (ofString "r1:null:isrc") true ⟨[], []⟩) = [] ∧
    ¬ ((planFixes id decimal (catalogueOf [track none none, track none none]) none).map Fix.id).Nodup := by
  have hfound : (foundFixes id decimal (catalogueOf [track none none, track none none]) none).map Fix.id =
      [ofString "r1:null:isrc", ofString "r1:null:isrc"] := by decide
  have hsorted := List.mergeSort_perm (foundFixes id decimal (catalogueOf [track none none, track none none]) none)
    fun a b => decide (SEVERITY_RANK a.severity ≤ SEVERITY_RANK b.severity)
  have hids := hsorted.map Fix.id
  rw [hfound] at hids
  refine ⟨?_, ?_, ?_⟩
  · have hlength := hids.length_eq
    rwa [List.length_map] at hlength
  · rw [openFixes, List.filter_eq_nil_iff]
    intro f hf
    have hid := hids.mem_iff.1 (List.mem_map_of_mem hf)
    simp only [List.mem_cons, List.not_mem_nil, or_false, or_self] at hid
    simp [toggleDone, hid]
  · intro hnodup
    exact absurd (hids.nodup_iff.1 hnodup) (by decide)

end CatalogSentinel.Fixer
