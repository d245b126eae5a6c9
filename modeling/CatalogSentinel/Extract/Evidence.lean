import CatalogSentinel.Extract.Bounds

/-!
What the status of a parsed field says about the payload. A field is read from the first of
its names that carries text; its status tells whether there is such a name, whether the text
has the field's format, and whether any of the names was there at all.
-/

namespace CatalogSentinel.Extract

open CatalogSentinel.Data CatalogSentinel.Distrokid CatalogSentinel.Checkpoint
open CatalogSentinel.Data.Json (property hasOwnAny isThere string? number? items)

/-! ### What a name carries -/

/-- Text that is not blank, or a number. -/
def carried : Option Json → Option String
  | some (.str s) => if isBlank s then none else some (trim s)
  | some (.num n) => some n.text
  | _ => none

/-- The property is there, whatever its value. -/
def Supplied (o : List (String × Json)) (name : String) : Prop := (property name o).isSome = true

def Carries (o : List (String × Json)) (name : String) : Prop := (carried (property name o)).isSome = true

/-- What the first of the names carries that carries anything. -/
def carriedBy (names : List String) (o : List (String × Json)) : Option String :=
  names.findSome? fun name => carried (property name o)

theorem firstStr_eq (vals : List (Option Json)) : firstStr vals = vals.findSome? carried := by
  fun_induction firstStr vals with
  | case1 => rfl
  | case2 vals s hblank ih => rw [ih, List.findSome?_cons, carried, if_pos hblank]
  | case3 vals s hblank => rw [List.findSome?_cons, carried, if_neg hblank]
  | case4 vals n => rfl
  | case5 val vals hstr hnum ih =>
    have hnone : carried val = none := by
      unfold carried
      split
      · exact absurd rfl (hstr _)
      · exact absurd rfl (hnum _)
      · rfl
    rw [ih, List.findSome?_cons, hnone]

theorem firstStr_map (names : List String) (o : List (String × Json)) :
    firstStr (names.map fun name => property name o) = carriedBy names o := by
  rw [firstStr_eq, List.findSome?_map]
  rfl

theorem carriedBy_eq_none {names : List String} {o : List (String × Json)} :
    carriedBy names o = none ↔ ∀ name ∈ names, ¬Carries o name := by
  simp [carriedBy, Carries]

theorem hasOwnAny_iff {names : List String} {o : List (String × Json)} :
    hasOwnAny o names = true ↔ ∃ name ∈ names, Supplied o name := by
  simp [hasOwnAny, Supplied]

/-- What carries text is there. -/
theorem Carries.supplied {o : List (String × Json)} {name : String} (h : Carries o name) : Supplied o name := by
  unfold Carries carried at h
  unfold Supplied
  cases hproperty : property name o with
  | none =>
    rw [hproperty] at h
    cases h
  | some value => rfl

/-! ### The status of a field -/

/-- The field, read under these names of the object, says what was there. -/
structure Truthful (o : List (String × Json)) (names : List String) (wellFormed : String → Bool)
    (normal : String → String) (field : MetadataField String) : Prop where
  present : field.status = .present ↔ ∃ text, carriedBy names o = some text ∧ wellFormed text = true
  value : field.status = .present → ∃ text, carriedBy names o = some text ∧ wellFormed text = true ∧
    field.value = some (normal text)
  absent : field.status = .absentAtSource ↔
    (∃ name ∈ names, Supplied o name) ∧ ∀ name ∈ names, ¬Carries o name
  malformed : field.status = .parseFailed ↔ ∃ text, carriedBy names o = some text ∧ wellFormed text = false
  uncaptured : field.status = .notCaptured ↔ ∀ name ∈ names, ¬Supplied o name

variable {H : Host} {source : MetadataSource}

theorem truthful_readField (o : List (String × Json)) (names : List String) (wellFormed : String → Bool)
    (normal : String → String) :
    Truthful o names wellFormed normal (readField H source (((carriedBy names o).filter wellFormed).map normal)
      (carriedBy names o) (hasOwnAny o names)) := by
  have hcarries : ∀ text, carriedBy names o = some text → ∃ name ∈ names, Carries o name := by
    intro text htext
    by_contra hnone
    rw [carriedBy_eq_none.2 fun name hname hc => hnone ⟨name, hname, hc⟩] at htext
    cases htext
  cases hraw : carriedBy names o with
  | some text =>
    obtain ⟨name, hname, hc⟩ := hcarries text hraw
    have hnot : ¬∀ name ∈ names, ¬Carries o name := fun h => h name hname hc
    have hthere : ¬∀ name ∈ names, ¬Supplied o name := fun h => h name hname hc.supplied
    cases hformed : wellFormed text with
    | true =>
      rw [Option.filter_some_pos hformed]
      refine ⟨?_, ?_, ?_, ?_, ?_⟩
      · exact iff_of_true rfl ⟨text, hraw, hformed⟩
      · exact fun _ => ⟨text, hraw, hformed, rfl⟩
      · exact iff_of_false nofun fun h => hnot h.2
      · refine iff_of_false nofun ?_
        rintro ⟨text', htext', hmalformed⟩
        rw [hraw, Option.some.injEq] at htext'
        rw [← htext', hformed] at hmalformed
        cases hmalformed
      · exact iff_of_false nofun hthere
    | false =>
      rw [Option.filter_some_neg hformed]
      have hformat : ¬∃ text', carriedBy names o = some text' ∧ wellFormed text' = true := by
        rintro ⟨text', htext', hwell⟩
        rw [hraw, Option.some.injEq] at htext'
        rw [← htext', hformed] at hwell
        cases hwell
      refine ⟨?_, ?_, ?_, ?_, ?_⟩
      · exact iff_of_false nofun hformat
      · exact nofun
      · exact iff_of_false nofun fun h => hnot h.2
      · exact iff_of_true rfl ⟨text, hraw, hformed⟩
      · exact iff_of_false nofun hthere
  | none =>
    have hnone := carriedBy_eq_none.1 hraw
    have hno : ∀ p : String → Prop, ¬∃ text, carriedBy names o = some text ∧ p text := by
      rintro p ⟨text, htext, -⟩
      rw [hraw] at htext
      cases htext
    cases hsupplied : hasOwnAny o names with
    | true =>
      have hthere := hasOwnAny_iff.1 hsupplied
      refine ⟨iff_of_false nofun (hno _), nofun, iff_of_true rfl ⟨hthere, hnone⟩,
        iff_of_false nofun (hno _), iff_of_false nofun fun h => ?_⟩
      obtain ⟨name, hname, hs⟩ := hthere
      exact h name hname hs
    | false =>
      have hthere : ∀ name ∈ names, ¬Supplied o name := by
        intro name hname hs
        rw [hasOwnAny_iff.2 ⟨name, hname, hs⟩] at hsupplied
        cases hsupplied
      refine ⟨iff_of_false nofun (hno _), nofun, iff_of_false nofun fun h => ?_,
        iff_of_false nofun (hno _), iff_of_true rfl hthere⟩
      obtain ⟨name, hname, hs⟩ := h.1
      exact hthere name hname hs

theorem upper_of_graphic {c : Char} (hc : c.toNat ≤ 126) :
    isAsciiLetter c.toUpper = isAsciiLetter c ∧ isAsciiDigit c.toUpper = isAsciiDigit c := by
  have hall : ∀ n < 127, isAsciiLetter (Char.ofNat n).toUpper = isAsciiLetter (Char.ofNat n) ∧
      isAsciiDigit (Char.ofNat n).toUpper = isAsciiDigit (Char.ofNat n) := by decide
  have hupper := hall c.toNat (by omega)
  rwa [Char.ofNat_toNat] at hupper

/-- A code in capitals is still one. -/
theorem isrc_toUpperCase {s : String} (h : ISRC_RE s = true) : ISRC_RE (toUpperCase s) = true := by
  have hgraphic := graphic_of_isrc h
  have hlist : (toUpperCase s).toList = s.toList.map Char.toUpper := String.toList_ofList
  simp only [ISRC_RE, Bool.and_eq_true, decide_eq_true_eq, List.all_eq_true, Bool.or_eq_true] at h ⊢
  obtain ⟨⟨⟨hlength, hcountry⟩, howner⟩, hdigits⟩ := h
  have htake : ∀ {n c}, c ∈ s.toList.take n → c.toNat ≤ 126 := fun hc => (hgraphic _ (List.mem_of_mem_take hc)).2
  have hdrop : ∀ {n c}, c ∈ s.toList.drop n → c.toNat ≤ 126 := fun hc => (hgraphic _ (List.mem_of_mem_drop hc)).2
  rw [hlist, List.length_map, ← List.map_take, ← List.map_drop, ← List.map_take, ← List.map_drop]
  refine ⟨⟨⟨hlength, fun c hc => ?_⟩, fun c hc => ?_⟩, fun c hc => ?_⟩
  · obtain ⟨d, hd, rfl⟩ := List.mem_map.1 hc
    rw [(upper_of_graphic (htake hd)).1]
    exact hcountry d hd
  · obtain ⟨d, hd, rfl⟩ := List.mem_map.1 hc
    have hle := hdrop (List.mem_of_mem_take hd)
    rw [(upper_of_graphic hle).1, (upper_of_graphic hle).2]
    exact howner d hd
  · obtain ⟨d, hd, rfl⟩ := List.mem_map.1 hc
    rw [(upper_of_graphic (hdrop hd)).2]
    exact hdigits d hd

/-! ### A release -/

def upcNames : List String := ["upc", "barcode", "ean"]

def artworkNames : List String := ["artworkUrl", "coverArt", "coverUrl", "cover", "artwork"]

def uploadDateNames : List String := ["uploadDate", "createdAt"]

/-- The objects and names that the audited fields of a release are read from. -/
def auditedSources (r : List (String × Json)) : List (List (String × Json) × List String) :=
  [(r, upcNames), (r, artworkNames), (r, ["releaseDate"]), (r, uploadDateNames), (r, ["label"])] ++
    (rawTracks r).map fun row => (rowFields row, ["isrc"])

/-- One of the names is there, and none carries anything. -/
def isGap (o : List (String × Json)) (names : List String) : Bool :=
  names.any (fun name => (property name o).isSome) && names.all fun name => (carried (property name o)).isNone

/-- Every field of the release says what was there, and those that are present have their format. -/
structure TruthfulRelease (H : Host) (r : List (String × Json)) (release : CanonicalDistributorRelease) :
    Prop where
  upc : Truthful r upcNames UPC_RE id release.upc
  artworkUrl : Truthful r artworkNames (isHttpUrl H.platform) id release.artworkUrl
  releaseDate : Truthful r ["releaseDate"] (fun _ => true) id release.releaseDate
  uploadDate : ∃ field, release.uploadDate = some field ∧ Truthful r uploadDateNames (fun _ => true) id field
  label : ∃ field, release.label = some field ∧ Truthful r ["label"] (fun _ => true) id field
  isrc : List.Forall₂ (fun row track => Truthful (rowFields row) ["isrc"] ISRC_RE toUpperCase track.isrc)
    (rawTracks r) release.tracks
  upcFormat : release.upc.status = .present → ∃ v, release.upc.value = some v ∧ UPC_RE v = true
  artworkFormat : release.artworkUrl.status = .present →
    ∃ v, release.artworkUrl.value = some v ∧ isHttpUrl H.platform v = true
  isrcFormat : ∀ track ∈ release.tracks, track.isrc.status = .present →
    ∃ v, track.isrc.value = some v ∧ ISRC_RE v = true
  gaps : (auditReleaseMetadata release).absentAtSource =
    (auditedSources r).countP fun (o, names) => isGap o names

variable (H source) in
/-- A field whose text is kept as it is. -/
theorem truthful_plain (o : List (String × Json)) (names : List String) (wellFormed : String → Bool) :
    Truthful o names wellFormed id (readField H source ((carriedBy names o).filter wellFormed)
      (carriedBy names o) (hasOwnAny o names)) := by
  have h : Truthful o names wellFormed id (readField H source (((carriedBy names o).filter wellFormed).map id)
      (carriedBy names o) (hasOwnAny o names)) := truthful_readField o names wellFormed id
  rwa [Option.map_id] at h

theorem truthful_any (o : List (String × Json)) (names : List String) :
    Truthful o names (fun _ => true) id (readField H source (carriedBy names o) (carriedBy names o)
      (hasOwnAny o names)) := by
  have h : Truthful o names (fun _ => true) id (readField H source ((carriedBy names o).filter fun _ => true)
      (carriedBy names o) (hasOwnAny o names)) := truthful_plain H source o names fun _ => true
  have hfilter : (carriedBy names o).filter (fun _ => true) = carriedBy names o := by
    cases carriedBy names o <;> rfl
  rwa [hfilter] at h

theorem Truthful.format {o : List (String × Json)} {names : List String} {wellFormed : String → Bool}
    {normal : String → String} {field : MetadataField String} (h : Truthful o names wellFormed normal field)
    (hnormal : ∀ text, wellFormed text = true → wellFormed (normal text) = true)
    (hpresent : field.status = .present) : ∃ v, field.value = some v ∧ wellFormed v = true := by
  obtain ⟨text, -, hwell, hvalue⟩ := h.value hpresent
  exact ⟨normal text, hvalue, hnormal text hwell⟩

theorem Truthful.gap {o : List (String × Json)} {names : List String} {wellFormed : String → Bool}
    {normal : String → String} {field : MetadataField String} (h : Truthful o names wellFormed normal field) :
    field.isAbsentAtSource = isGap o names := by
  have habsent : field.isAbsentAtSource = true ↔ field.status = .absentAtSource := decide_eq_true_iff
  rw [Bool.eq_iff_iff, habsent, h.absent, isGap, Bool.and_eq_true, List.any_eq_true, List.all_eq_true]
  simp [Supplied, Carries]

theorem truthful_isrc {row : List (String × Json)} {i : ℕ} {track : CanonicalDistributorTrack}
    (h : parseTrack H source row i = .ok track) : Truthful row ["isrc"] ISRC_RE toUpperCase track.isrc := by
  unfold parseTrack at h
  dsimp only at h
  split at h
  · cases h
  · obtain rfl := Except.ok.inj h
    have hraw : firstStr [property "isrc" row] = carriedBy ["isrc"] row := firstStr_map ["isrc"] row
    rw [hraw]
    exact truthful_readField row ["isrc"] ISRC_RE toUpperCase

theorem truthful_tracks {r : List (String × Json)} {tracks : List CanonicalDistributorTrack}
    (h : parseTracks H source r = .ok tracks) :
    List.Forall₂ (fun row track => Truthful (rowFields row) ["isrc"] ISRC_RE toUpperCase track.isrc)
      (rawTracks r) tracks := by
  have hrows := (forall₂_of_mapM h).imp fun (row : Json × ℕ) track hrow =>
    (truthful_isrc hrow : Truthful (rowFields row.1) ["isrc"] ISRC_RE toUpperCase track.isrc)
  have hmap : List.Forall₂ (fun row track => Truthful (rowFields row) ["isrc"] ISRC_RE toUpperCase track.isrc)
      ((rawTracks r).zipIdx.map Prod.fst) tracks := List.forall₂_map_left_iff.2 hrows
  rwa [List.zipIdx_map_fst] at hmap

theorem countP_of_forall₂ {α β : Type} {p : α → Bool} {q : β → Bool} {xs : List α} {ys : List β}
    (h : List.Forall₂ (fun x y => q y = p x) xs ys) : ys.countP q = xs.countP p := by
  induction h with
  | nil => rfl
  | cons hxy _ ih => rw [List.countP_cons, List.countP_cons, ih, hxy]

theorem truthfulRelease_readRelease {r : List (String × Json)} {tracks : List CanonicalDistributorTrack}
    (h : parseTracks H source r = .ok tracks) : TruthfulRelease H r (readRelease H source r tracks) := by
  have htracks := truthful_tracks h
  have hupc : Truthful r upcNames UPC_RE id (readRelease H source r tracks).upc := by
    have hplain := truthful_plain H source r upcNames UPC_RE
    rw [← firstStr_map] at hplain
    exact hplain
  have hartwork : Truthful r artworkNames (isHttpUrl H.platform) id (readRelease H source r tracks).artworkUrl := by
    have hplain := truthful_plain H source r artworkNames (isHttpUrl H.platform)
    rw [← firstStr_map] at hplain
    exact hplain
  have hany : ∀ names, Truthful r names (fun _ => true) id (readField H source
      (firstStr (names.map fun name => property name r)) (firstStr (names.map fun name => property name r))
      (hasOwnAny r names)) := by
    intro names
    rw [firstStr_map]
    exact truthful_any r names
  have hdate := hany ["releaseDate"]
  have hupload := hany uploadDateNames
  have hlabel := hany ["label"]
  refine ⟨hupc, hartwork, hdate, ⟨_, rfl, hupload⟩, ⟨_, rfl, hlabel⟩, htracks, hupc.format fun _ hv => hv,
    hartwork.format fun _ hv => hv, fun track htrack => ?_, ?_⟩
  · obtain ⟨row, -, hrow⟩ := mem_of_forall₂ htracks track htrack
    exact hrow.format fun _ hv => isrc_toUpperCase hv
  · have hisrc : List.Forall₂ (fun (src : List (String × Json) × List String) (field : MetadataField String) =>
        field.isAbsentAtSource = isGap src.1 src.2)
        ((rawTracks r).map fun row => (rowFields row, ["isrc"])) (tracks.map (·.isrc)) :=
      List.forall₂_map_left_iff.2 (List.forall₂_map_right_iff.2 (htracks.imp fun _ _ hrow => hrow.gap))
    exact countP_of_forall₂ (.cons hupc.gap (.cons hartwork.gap (.cons hdate.gap (.cons hupload.gap
      (.cons hlabel.gap hisrc)))))

/-- A release that the parser returns is truthful about the object that it was read from. -/
theorem parse_truthful {payload : Json} {release : CanonicalDistributorRelease}
    (h : parseDistroKidReleaseV1 H source payload = .ok release) :
    ∃ r, locateReleaseObject payload = some r ∧ TruthfulRelease H r release := by
  obtain ⟨r, tracks, hlocate, htracks, rfl⟩ := parseDistroKidReleaseV1_ok h
  exact ⟨r, hlocate, truthfulRelease_readRelease htracks⟩

/-- A UPC, an empty artwork, no release date, a malformed ISRC. -/
def mixedPayload : Json :=
  .obj [("data", .obj [("upc", .null), ("barcode", .str "036000291452"), ("coverArt", .str " "),
    ("tracks", .arr [.obj [("title", .str "Song"), ("isrc", .str "not a code")]])])]

theorem parse_truthful_sample : ∃ release,
    parseDistroKidReleaseV1 sampleBrowser.toHost .networkJson mixedPayload = .ok release ∧
      ∃ r, locateReleaseObject mixedPayload = some r ∧ TruthfulRelease sampleBrowser.toHost r release := by
  cases hparse : parseDistroKidReleaseV1 sampleBrowser.toHost .networkJson mixedPayload with
  | ok release => exact ⟨release, rfl, parse_truthful hparse⟩
  | error e =>
    have hok : (parseDistroKidReleaseV1 sampleBrowser.toHost .networkJson mixedPayload).toOption.isSome = true := by
      decide +kernel
    rw [hparse] at hok
    cases hok

end CatalogSentinel.Extract
