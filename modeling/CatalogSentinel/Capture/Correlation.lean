import Mathlib.Data.List.Infix
import Mathlib.Tactic.Common

/-!
Which release a captured response belongs to, as read off its request. A release
id is looked for anywhere in the decoded URL and the body, so the id of one
release is also found inside a longer id.
-/

namespace CatalogSentinel.Capture

/-! ### Reading the request -/

def hexValue (c : Char) : Option ℕ :=
  if '0' ≤ c ∧ c ≤ '9' then some (c.toNat - '0'.toNat)
  else if 'a' ≤ c ∧ c ≤ 'f' then some (c.toNat - 'a'.toNat + 10)
  else if 'A' ≤ c ∧ c ≤ 'F' then some (c.toNat - 'A'.toNat + 10)
  else none

/-- The byte that `%XY` stands for, and what follows it. -/
def percentByte : List Char → Option (ℕ × List Char)
  | '%' :: high :: low :: rest => do
    let x ← hexValue high
    let y ← hexValue low
    return (16 * x + y, rest)
  | _ => none

def continuationBytes : ℕ → ℕ → List Char → Option (ℕ × List Char)
  | 0, point, rest => some (point, rest)
  | n + 1, point, rest => do
    let (byte, rest) ← percentByte rest
    if byte / 64 = 2 then continuationBytes n (64 * point + byte % 64) rest else none

/-- One UTF-8 sequence of `%XY` bytes. -/
def percentChar (text : List Char) : Option (Char × List Char) := do
  let (byte, rest) ← percentByte text
  let (least, point, rest) ←
    if byte < 0x80 then some (0, byte, rest)
    else if 0xC0 ≤ byte ∧ byte < 0xE0 then
      (continuationBytes 1 (byte % 32) rest).map (Prod.mk 0x80)
    else if 0xE0 ≤ byte ∧ byte < 0xF0 then
      (continuationBytes 2 (byte % 16) rest).map (Prod.mk 0x800)
    else if 0xF0 ≤ byte ∧ byte < 0xF8 then
      (continuationBytes 3 (byte % 8) rest).map (Prod.mk 0x10000)
    else none
  if least ≤ point ∧ point.isValidChar then some (Char.ofNat point, rest) else none

/-- Decodes from any point, with a step for each character at most. -/
def decodeFrom : ℕ → List Char → Option (List Char)
  | _, [] => some []
  | 0, _ :: _ => none
  | n + 1, c :: rest =>
    if c = '%' then do
      let (point, rest) ← percentChar (c :: rest)
      return point :: (← decodeFrom n rest)
    else do
      return c :: (← decodeFrom n rest)

/-- `none` where `decodeURIComponent` throws. -/
def decodeURIComponent (text : String) : Option String :=
  (decodeFrom text.toList.length text.toList).map String.ofList

/-- `text.includes(id)` -/
def includes (text id : String) : Bool := decide (id.toList <:+: text.toList)

/-- The URL decoded, or as it stands where it cannot be. -/
def readUrl (url : String) : String := (decodeURIComponent url).getD url

def bodyText (postData : Option String) : String :=
  match postData with
  | some body => if body ≠ "" then " " ++ body else ""
  | none => ""

/-! ### Correlation -/

inductive CorrelationKind
  | requestIdMatch | profileMatchOnly | temporalAssociation | noCorrelation
  deriving DecidableEq, Repr

structure RequestCorrelation where
  kind : CorrelationKind
  namesOtherRelease : Bool
  deriving DecidableEq, Repr

/-- Which release (if any) a request actually names. -/
def correlateRequest (url : String) (postData : Option String) (expectedReleaseId : Option String)
    (knownReleaseIds : List String) : RequestCorrelation :=
  let haystack := readUrl url ++ bodyText postData
  if expectedReleaseId.any fun id => id ≠ "" && includes haystack id then
    ⟨.requestIdMatch, false⟩
  else if knownReleaseIds.any fun id => some id ≠ expectedReleaseId && includes haystack id then
    ⟨.noCorrelation, true⟩
  else
    ⟨if expectedReleaseId.any (· ≠ "") then .temporalAssociation else .noCorrelation, false⟩

/-! ### Whole identifiers -/

section Whole

variable (identifier : Char → Bool)

/-- `id` stands in `text` with no character of an identifier on either side. -/
def OccursWhole (id text : String) : Prop :=
  ∃ before after, text.toList = before ++ id.toList ++ after ∧
    (∀ c ∈ before.getLast?, identifier c = false) ∧ ∀ c ∈ after.head?, identifier c = false

/-- The request names the release, in its URL or its body. -/
def Names (url : String) (postData : Option String) (id : String) : Prop :=
  OccursWhole identifier id (readUrl url) ∨ ∃ body ∈ postData, OccursWhole identifier id body

/-- A request that names a known release and not the current one is taken for another's. -/
def NamesTheRightRelease (url : String) (postData : Option String) (expectedReleaseId : Option String)
    (knownReleaseIds : List String) : Prop :=
  (∃ id ∈ knownReleaseIds, Names identifier url postData id) →
    (∀ id ∈ expectedReleaseId, ¬ Names identifier url postData id) →
    (correlateRequest url postData expectedReleaseId knownReleaseIds).kind ≠ .requestIdMatch ∧
      (correlateRequest url postData expectedReleaseId knownReleaseIds).namesOtherRelease = true

/-- The current release's id occurs in the request, but only as part of something longer. -/
def OccursWithin (url : String) (postData : Option String) (expectedReleaseId : Option String) : Prop :=
  ∃ id ∈ expectedReleaseId, id ≠ "" ∧ includes (readUrl url ++ bodyText postData) id = true ∧
    ¬ Names identifier url postData id

variable {identifier} {url : String} {postData expectedReleaseId : Option String}
  {knownReleaseIds : List String}

theorem occursWhole_iff (id text : String) :
    OccursWhole identifier id text ↔
      ∃ k < text.toList.length + 1, id.toList <+: text.toList.drop k ∧
        ((text.toList.take k).getLast?.all fun c => !identifier c) = true ∧
        ((text.toList.drop (k + id.toList.length)).head?.all fun c => !identifier c) = true := by
  have hall : ∀ o : Option Char, (o.all fun c => !identifier c) = true ↔ ∀ c ∈ o, identifier c = false := by
    intro o
    cases o <;> simp
  simp only [hall]
  constructor
  · rintro ⟨before, after, heq, hbefore, hafter⟩
    have htake : text.toList.take before.length = before := by simp [heq, List.append_assoc]
    have hdrop : text.toList.drop before.length = id.toList ++ after := by
      simp [heq, List.append_assoc]
    have hrest : text.toList.drop (before.length + id.toList.length) = after := by
      rw [← List.drop_drop, hdrop, List.drop_left]
    have hlength : before.length < text.toList.length + 1 := by
      rw [heq, List.length_append, List.length_append]
      omega
    exact ⟨before.length, hlength, hdrop ▸ List.prefix_append _ _, htake.symm ▸ hbefore, hrest.symm ▸ hafter⟩
  · rintro ⟨k, -, ⟨after, hdrop⟩, hbefore, hafter⟩
    have hrest : text.toList.drop (k + id.toList.length) = after := by
      rw [← List.drop_drop, ← hdrop, List.drop_left]
    refine ⟨text.toList.take k, after, ?_, hbefore, hrest ▸ hafter⟩
    rw [List.append_assoc, hdrop, List.take_append_drop]

instance (id text : String) : Decidable (OccursWhole identifier id text) :=
  decidable_of_iff _ (occursWhole_iff id text).symm

instance (id : String) : Decidable (Names identifier url postData id) :=
  match postData with
  | none => decidable_of_iff (OccursWhole identifier id (readUrl url)) (by simp [Names])
  | some body => decidable_of_iff
      (OccursWhole identifier id (readUrl url) ∨ OccursWhole identifier id body) (by simp [Names])

theorem includes_iff (text id : String) : includes text id = true ↔ id.toList <:+: text.toList :=
  decide_eq_true_iff

theorem includes_of_occursWhole {id text : String} (h : OccursWhole identifier id text) :
    includes text id = true := by
  obtain ⟨before, after, heq, -⟩ := h
  rw [includes_iff]
  exact ⟨before, after, heq.symm⟩

theorem includes_append_left {id text : String} (more : String) (h : includes text id = true) :
    includes (text ++ more) id = true := by
  rw [includes_iff] at h ⊢
  rw [String.toList_append]
  exact h.trans (List.prefix_append _ _).isInfix

theorem includes_append_right {id text : String} (more : String) (h : includes text id = true) :
    includes (more ++ text) id = true := by
  rw [includes_iff] at h ⊢
  rw [String.toList_append]
  exact h.trans (List.suffix_append _ _).isInfix

theorem includes_of_names {id : String} (h : Names identifier url postData id) :
    includes (readUrl url ++ bodyText postData) id = true := by
  rcases h with h | ⟨body, rfl, h⟩
  · exact includes_append_left _ (includes_of_occursWhole h)
  · apply includes_append_right
    have hbody : includes body id = true := includes_of_occursWhole h
    by_cases hempty : body = ""
    · subst hempty
      exact hbody
    · have htext : bodyText (some body) = " " ++ body := if_pos hempty
      rw [htext]
      exact includes_append_right _ hbody

theorem kind_eq_requestIdMatch :
    (correlateRequest url postData expectedReleaseId knownReleaseIds).kind = .requestIdMatch ↔
      ∃ id ∈ expectedReleaseId, id ≠ "" ∧ includes (readUrl url ++ bodyText postData) id = true := by
  have hany : (expectedReleaseId.any fun id => id ≠ "" && includes (readUrl url ++ bodyText postData) id) =
      true ↔ ∃ id ∈ expectedReleaseId, id ≠ "" ∧ includes (readUrl url ++ bodyText postData) id = true := by
    rcases expectedReleaseId with _ | id <;> simp
  rw [← hany]
  simp only [correlateRequest]
  by_cases h : (expectedReleaseId.any fun id =>
      id ≠ "" && includes (readUrl url ++ bodyText postData) id) = true
  · rw [if_pos h]
    exact iff_of_true rfl h
  · rw [if_neg h]
    refine iff_of_false (fun hkind => ?_) h
    split at hkind
    · cases hkind
    · dsimp only at hkind
      split at hkind <;> cases hkind

theorem namesOtherRelease_of_known {id : String} (hknown : id ∈ knownReleaseIds)
    (hother : some id ≠ expectedReleaseId)
    (hincludes : includes (readUrl url ++ bodyText postData) id = true)
    (hkind : (correlateRequest url postData expectedReleaseId knownReleaseIds).kind ≠ .requestIdMatch) :
    (correlateRequest url postData expectedReleaseId knownReleaseIds).namesOtherRelease = true := by
  have hany : (knownReleaseIds.any fun id => some id ≠ expectedReleaseId &&
      includes (readUrl url ++ bodyText postData) id) = true :=
    List.any_eq_true.2 ⟨id, hknown, by simp [hother, hincludes]⟩
  simp only [correlateRequest] at hkind ⊢
  by_cases h : (expectedReleaseId.any fun id =>
      id ≠ "" && includes (readUrl url ++ bodyText postData) id) = true
  · rw [if_pos h] at hkind
    exact absurd rfl hkind
  · rw [if_neg h, if_pos hany]

/-- A request that names another known release is told apart unless the current release's id occurs
within something longer. -/
theorem namesTheRightRelease_iff :
    NamesTheRightRelease identifier url postData expectedReleaseId knownReleaseIds ↔
      ¬ ((∃ id ∈ knownReleaseIds, Names identifier url postData id) ∧
        OccursWithin identifier url postData expectedReleaseId) := by
  constructor
  · rintro h ⟨hknown, id, rfl, hne, hincludes, hnot⟩
    have hnone : ∀ other ∈ some id, ¬ Names identifier url postData other := by
      rintro other ⟨⟩
      exact hnot
    exact (h hknown hnone).1 (kind_eq_requestIdMatch.2 ⟨id, rfl, hne, hincludes⟩)
  · intro h hknown hnone
    have hkind : (correlateRequest url postData expectedReleaseId knownReleaseIds).kind ≠
        .requestIdMatch := by
      intro hkind
      obtain ⟨id, hid, hne, hincludes⟩ := kind_eq_requestIdMatch.1 hkind
      exact h ⟨hknown, id, hid, hne, hincludes, hnone id hid⟩
    obtain ⟨id, hid, hnames⟩ := hknown
    have hother : some id ≠ expectedReleaseId := fun heq => hnone id heq.symm hnames
    exact ⟨hkind, namesOtherRelease_of_known hid hother (includes_of_names hnames) hkind⟩

/-- The id of the first release is the beginning of that of the tenth, which the request names. -/
theorem correlateRequest_longerId :
    ¬ NamesTheRightRelease Char.isAlphanum "https://distrokid.com/api/album/R10" none (some "R1")
      ["R1", "R10"] := by
  intro h
  have hnames : Names Char.isAlphanum "https://distrokid.com/api/album/R10" none "R10" := by decide
  have hcurrent : ¬ Names Char.isAlphanum "https://distrokid.com/api/album/R10" none "R1" := by decide
  have hright := h ⟨"R10", by simp, hnames⟩ fun id hid => Option.some.inj hid ▸ hcurrent
  revert hright
  decide

end Whole

end CatalogSentinel.Capture
