import CatalogSentinel.Data.Buffers
import CatalogSentinel.Engine.AudiomackAudit
import CatalogSentinel.Tenancy.Service

/-!
Stable ids: a prefix and the beginning of a digest of the parts, joined by a control character. Parts
without such characters are told from each other as the texts that are hashed, so numbers count as they
are written, a lone surrogate counts as the replacement character, and no part counts as one that is
empty.
-/

namespace CatalogSentinel.Core

open Data Data.Utf16
open Matching (Numbers)

/-- The platform's SHA-256, of thirty-two bytes. -/
structure Sha256 where
  digest : List Byte → List Byte
  length_digest : ∀ bytes, (digest bytes).length = 32

def hexDigit (n : ℕ) : CodeUnit := if n < 10 then unit (48 + n) else unit (87 + n)

/-- `buffer.toString('hex')` -/
def hex (buffer : List Byte) : Utf16 := buffer.flatMap fun byte => [hexDigit (byte / 16), hexDigit (byte % 16)]

variable (sha256 : Sha256) {F : Type} [Numbers F]

/-- `string | number` -/
inductive Part (F : Type)
  | text (text : Utf16)
  | number (n : F)

def Part.written : Part F → Utf16
  | .text s => s
  | .number n => ofString (Numbers.text n)

def separator : CodeUnit := 1

/-- `parts.join('\u0001')` -/
def joined (parts : List (Part F)) : Utf16 := [separator].intercalate (parts.map Part.written)

def shortHash (text : Utf16) : Utf16 := (hex (sha256.digest (utf8 text))).take 24

def stableId (kind : Utf16) (parts : List (Part F)) : Utf16 :=
  kind ++ ofString "_" ++ shortHash sha256 (joined parts)

/-! ### Memberships -/

structure Membership where
  id : Utf16
  tenantId : Utf16
  userId : Option Utf16
  role : Tenancy.UserRole
  status : Tenancy.MembershipStatus
  invitedEmail : Option Utf16
  invitedByUserId : Option Utf16
  createdAt : Utf16
  updatedAt : Utf16
  deriving DecidableEq

def membershipIdFor (userId tenantId : Utf16) : Utf16 :=
  stableId (F := ℚ) sha256 (ofString "mbr") [.text userId, .text tenantId]

def getActive (userId tenantId : Utf16) (store : List Membership) : Option Membership :=
  store.find? fun m => m.status = .active ∧ m.userId = some userId ∧ m.tenantId = tenantId

/-- A user's personal tenant is named as the user is. -/
def ensurePersonalMembership (store : List Membership) (userId now : Utf16) : List Membership × Membership :=
  match getActive userId userId store with
  | some existing => (store, existing)
  | none =>
    let membership := ⟨membershipIdFor sha256 userId userId, userId, some userId, .owner, .active, none, none, now, now⟩
    (put Membership.id membership store, membership)

/-! ### Parts apart -/

/-- The C0 and the C1 control characters, and the one between them. -/
def IsControl (u : CodeUnit) : Prop := u.val < 32 ∨ (127 ≤ u.val ∧ u.val < 160)

instance : DecidablePred IsControl := fun _ => inferInstanceAs (Decidable (_ ∨ _))

def ControlFree (text : Utf16) : Prop := ∀ u ∈ text, ¬ IsControl u

instance (text : Utf16) : Decidable (ControlFree text) := List.decidableBAll (¬ IsControl ·) text

/-- The first digits of the digests tell these two texts apart, if they are not the same bytes. -/
def CollisionFree (text other : Utf16) : Prop :=
  shortHash sha256 text = shortHash sha256 other → utf8 text = utf8 other

/-- The same texts are hashed as parts; no part is hashed as one empty part is. -/
def SameParts (parts other : List (Part F)) : Prop :=
  Indistinct (parts.map fun part => toWellFormed part.written) (other.map fun part => toWellFormed part.written)

theorem separator_plain : isHigh separator = false ∧ isLow separator = false := by decide

theorem single_separator : single separator = '\x01' := by decide

theorem separator_notMem_toChars {text : Utf16} (h : ControlFree text) : '\x01' ∉ toChars text := by
  intro hmem
  have hunit : unit 1 ∈ text := mem_of_mem_toChars (by decide) hmem
  exact h (unit 1) hunit (.inl (by decide))

/-- To be told apart is the same for lists and for what stands for them. -/
theorem indistinct_map {α β : Type} {f : List α → List β} (hf : Function.Injective f) (hnil : f [] = [])
    {parts other : List (List α)} : Indistinct (parts.map f) (other.map f) ↔ Indistinct parts other := by
  have hone : ∀ xs : List (List α), xs.map f = [[]] ↔ xs = [[]] := by
    intro xs
    rw [← hnil, ← List.map_singleton, hf.list_map.eq_iff]
  simp only [Indistinct, List.map_eq_nil_iff, hone, hf.list_map.eq_iff]

theorem flatMap_ofChar_injective : Function.Injective fun chars : List Char => chars.flatMap ofChar :=
  Function.LeftInverse.injective toChars_flatMap_ofChar

/-- Two joined lists are one buffer exactly if they have the same parts. -/
theorem utf8_joined_inj {parts other : List (Part F)} (hparts : ∀ part ∈ parts, ControlFree part.written)
    (hother : ∀ part ∈ other, ControlFree part.written) :
    utf8 (joined parts) = utf8 (joined other) ↔ SameParts parts other := by
  have hfree : ∀ {parts : List (Part F)}, (∀ part ∈ parts, ControlFree part.written) →
      ∀ chars ∈ (parts.map Part.written).map toChars, '\x01' ∉ chars := by
    intro parts h chars hchars
    simp only [List.map_map, List.mem_map, Function.comp_apply] at hchars
    obtain ⟨part, hpart, rfl⟩ := hchars
    exact separator_notMem_toChars (h part hpart)
  have hwell : ∀ parts : List (Part F), (parts.map fun part => toWellFormed part.written) =
      ((parts.map Part.written).map toChars).map fun chars => chars.flatMap ofChar := by
    intro parts
    simp [toWellFormed]
  rw [utf8, utf8, Utf8.encode_injective.eq_iff, joined, joined, toChars_intercalate separator_plain.1 separator_plain.2,
    toChars_intercalate separator_plain.1 separator_plain.2, single_separator,
    intercalate_eq_iff (hfree hparts) (hfree hother), SameParts, hwell, hwell,
    indistinct_map flatMap_ofChar_injective rfl]

/-- Parts without control characters whose digests tell them apart. -/
structure Told (parts other : List (Part F)) : Prop where
  controlFree : ∀ part ∈ parts, ControlFree part.written
  controlFree' : ∀ part ∈ other, ControlFree part.written
  collisionFree : CollisionFree sha256 (joined parts) (joined other)

variable {sha256}

theorem stableId_eq_iff (kind : Utf16) {parts other : List (Part F)} (h : Told sha256 parts other) :
    stableId sha256 kind parts = stableId sha256 kind other ↔ SameParts parts other := by
  rw [← utf8_joined_inj h.controlFree h.controlFree', stableId, stableId, List.append_right_inj]
  constructor
  · exact h.collisionFree
  · intro hsame
    rw [shortHash, shortHash, hsame]

/-- Lists of as many parts, not none, are told apart part by part. -/
theorem sameParts_iff {parts other : List (Part F)} (hne : parts ≠ []) (hlength : parts.length = other.length) :
    SameParts parts other ↔
      (parts.map fun part => toWellFormed part.written) = other.map fun part => toWellFormed part.written := by
  constructor
  · rintro (h | ⟨hparts, hother⟩)
    · exact h
    · have hempty : ∀ {parts : List (Part F)}, parts ≠ [] →
          ((parts.map fun part => toWellFormed part.written) = [] ∨
            (parts.map fun part => toWellFormed part.written) = [[]]) →
          (parts.map fun part => toWellFormed part.written) = [[]] := by
        intro parts hne h
        apply h.resolve_left
        simpa using hne
      have hne' : other ≠ [] := by
        rintro rfl
        exact hne (List.length_eq_zero_iff.1 hlength)
      rw [hempty hne hparts, hempty hne' hother]
  · exact .inl

/-! ### Membership rows -/

/-- The two parts of a membership's id. -/
def pairParts (userId tenantId : Utf16) : List (Part ℚ) := [.text userId, .text tenantId]

theorem membershipIdFor_eq_iff {userId tenantId userId' tenantId' : Utf16}
    (h : Told sha256 (pairParts userId tenantId) (pairParts userId' tenantId')) :
    membershipIdFor sha256 userId tenantId = membershipIdFor sha256 userId' tenantId' ↔
      toWellFormed userId = toWellFormed userId' ∧ toWellFormed tenantId = toWellFormed tenantId' := by
  have hsame : SameParts (pairParts userId tenantId) (pairParts userId' tenantId') ↔ _ :=
    sameParts_iff (by simp [pairParts]) rfl
  rw [membershipIdFor, membershipIdFor]
  simpa [pairParts, Part.written] using (stableId_eq_iff (ofString "mbr") h).trans hsame

/-- A personal membership that is put leaves the row of another pair. -/
theorem get?_ensurePersonalMembership {store : List Membership} {userId now : Utf16} {id : Utf16}
    (hid : membershipIdFor sha256 userId userId ≠ id) :
    get? Membership.id id (ensurePersonalMembership sha256 store userId now).1 = get? Membership.id id store := by
  unfold ensurePersonalMembership
  cases getActive userId userId store with
  | some existing => rfl
  | none => exact get?_put_of_ne (by exact hid) store

/-! ### The ids of a catalogue -/

/-- The digests of the engine are the beginnings of SHA-256 digests. -/
def Hashes (sha256 : Sha256) (texts : Engine.Texts) : Prop :=
  ∀ text, ofString (texts.digest text) = shortHash sha256 (ofString text)

def textParts (parts : List String) : List (Part ℚ) := parts.map fun part => .text (ofString part)

theorem ofString_injective : Function.Injective ofString := by
  intro s t h
  have hchars := toChars_ofString s []
  rw [h, toChars_ofString] at hchars
  simpa [String.toList_inj] using hchars.symm

theorem ofString_intercalate (parts : List String) :
    ofString ("\x01".intercalate parts) = joined (textParts parts) := by
  have hseparator : ofString "\x01" = [separator] := by decide
  induction parts with
  | nil => rfl
  | cons part parts ih =>
    cases parts with
    | nil => simp [joined, textParts, Part.written]
    | cons next parts =>
      rw [String.intercalate_cons_cons, ofString_append, ofString_append, ih, hseparator]
      simp [joined, textParts, Part.written, List.intercalate_cons_cons]

theorem ofString_stableId {texts : Engine.Texts} (h : Hashes sha256 texts) (kind : String) (parts : List String) :
    ofString (Engine.stableId texts kind parts) = stableId sha256 (ofString kind) (textParts parts) := by
  rw [Engine.stableId, ofString_append, ofString_append, h, ofString_intercalate, stableId]

/-- Ids of as many texts are one id exactly if these are the same. -/
theorem engine_stableId_eq_iff {texts : Engine.Texts} (hhashes : Hashes sha256 texts) (kind : String)
    {parts other : List String} (h : Told sha256 (textParts parts) (textParts other)) (hne : parts ≠ [])
    (hlength : parts.length = other.length) :
    Engine.stableId texts kind parts = Engine.stableId texts kind other ↔ parts = other := by
  have hwell : ∀ parts : List String,
      ((textParts parts).map fun part => toWellFormed part.written) = parts.map ofString := by
    intro parts
    simp only [textParts, List.map_map]
    exact List.map_congr_left fun part _ => isWellFormed_ofString part
  rw [← ofString_injective.eq_iff, ofString_stableId hhashes, ofString_stableId hhashes, stableId_eq_iff _ h,
    sameParts_iff (by simpa [textParts] using hne) (by simpa [textParts] using hlength), hwell, hwell,
    ofString_injective.list_map.eq_iff]

/-! ### The law -/

/-- Ids of parts without control characters tell the parts as they are hashed: those of memberships the
pair, so that no personal membership takes the place of another pair's row, and those of releases, of
tracks and of issues the workspace and the key. -/
theorem stableId_separates (sha256 : Sha256) :
    (∀ (F : Type) [Numbers F] (kind : Utf16) (parts other : List (Part F)), Told sha256 parts other →
      (stableId sha256 kind parts = stableId sha256 kind other ↔ SameParts parts other)) ∧
    (∀ userId tenantId userId' tenantId' : Utf16,
      Told sha256 (pairParts userId tenantId) (pairParts userId' tenantId') →
      (membershipIdFor sha256 userId tenantId = membershipIdFor sha256 userId' tenantId' ↔
        toWellFormed userId = toWellFormed userId' ∧ toWellFormed tenantId = toWellFormed tenantId')) ∧
    (∀ (store : List Membership) (now user userId tenantId : Utf16),
      Told sha256 (pairParts user user) (pairParts userId tenantId) →
      ¬ (toWellFormed user = toWellFormed userId ∧ toWellFormed user = toWellFormed tenantId) →
      get? Membership.id (membershipIdFor sha256 userId tenantId) (ensurePersonalMembership sha256 store user now).1 =
        get? Membership.id (membershipIdFor sha256 userId tenantId) store) ∧
    ∀ texts, Hashes sha256 texts → ∀ workspaceId workspaceId' : String,
      (∀ (F : Type) [Numbers F] (release release' : Engine.RawDistributorRelease F),
        Told sha256 (textParts [workspaceId, release.releaseKey]) (textParts [workspaceId', release'.releaseKey]) →
        (Engine.releaseIdOf texts workspaceId release = Engine.releaseIdOf texts workspaceId' release' ↔
          workspaceId = workspaceId' ∧ release.releaseKey = release'.releaseKey)) ∧
      (∀ trackKey trackKey' : String,
        Told sha256 (textParts [workspaceId, trackKey]) (textParts [workspaceId', trackKey']) →
        (Engine.stableId texts "trk" [workspaceId, trackKey] = Engine.stableId texts "trk" [workspaceId', trackKey'] ↔
          workspaceId = workspaceId' ∧ trackKey = trackKey')) ∧
      ∀ (code code' : Engine.IssueReasonCode) (trackId trackId' releaseId releaseId' : Option String),
        Told sha256 (textParts [workspaceId, code.text, (trackId.or releaseId).getD "ws"])
          (textParts [workspaceId', code'.text, (trackId'.or releaseId').getD "ws"]) →
        (Engine.issueIdOf texts workspaceId code trackId releaseId =
            Engine.issueIdOf texts workspaceId' code' trackId' releaseId' ↔
          workspaceId = workspaceId' ∧ code = code' ∧
            (trackId.or releaseId).getD "ws" = (trackId'.or releaseId').getD "ws") := by
  refine ⟨fun F _ kind parts other => stableId_eq_iff kind, fun _ _ _ _ => membershipIdFor_eq_iff, ?_, ?_⟩
  · intro store now user userId tenantId htold hother
    apply get?_ensurePersonalMembership
    rw [ne_eq, membershipIdFor_eq_iff htold]
    exact hother
  · intro texts hhashes workspaceId workspaceId'
    refine ⟨fun F _ release release' htold => ?_, fun trackKey trackKey' htold => ?_,
      fun code code' trackId trackId' releaseId releaseId' htold => ?_⟩
    · rw [Engine.releaseIdOf, Engine.releaseIdOf, engine_stableId_eq_iff hhashes "rel" htold (by simp) rfl]
      simp
    · rw [engine_stableId_eq_iff hhashes "trk" htold (by simp) rfl]
      simp
    · rw [Engine.issueIdOf, Engine.issueIdOf, engine_stableId_eq_iff hhashes "iss" htold (by simp) rfl]
      have hcode : code.text = code'.text ↔ code = code' := ⟨Engine.text_inj, congrArg _⟩
      simp [hcode]

/-- Some texts with their digests. -/
def listed : List (List Byte × List Byte) := [
    (utf8 (ofString "ada\x01ada"),
      [205, 90, 229, 69, 162, 8, 42, 180, 250, 30, 89, 232, 218, 218, 106, 26, 204,
        227, 62, 142, 132, 0, 95, 130, 24, 137, 158, 140, 33, 254, 235, 106]),
    (utf8 (ofString "bob\x01bob"),
      [170, 236, 8, 202, 33, 3, 39, 52, 183, 223, 77, 101, 31, 118, 46, 178, 132,
        11, 92, 250, 222, 27, 238, 230, 25, 56, 209, 151, 110, 218, 94, 84]),
    (utf8 ([]),
      [227, 176, 196, 66, 152, 252, 28, 20, 154, 251, 244, 200, 153, 111, 185, 36, 39,
        174, 65, 228, 100, 155, 147, 76, 164, 149, 153, 27, 120, 82, 184, 85]),
    (utf8 (ofString "1"),
      [107, 134, 178, 115, 255, 52, 252, 225, 157, 107, 128, 78, 255, 90, 63, 87, 71,
        173, 164, 234, 162, 47, 29, 73, 192, 30, 82, 221, 183, 135, 91, 75]),
    (utf8 (ofString "\uFFFD\x01t"),
      [203, 182, 113, 202, 244, 79, 134, 191, 187, 39, 212, 154, 67, 212, 41, 164, 42,
        180, 17, 115, 216, 189, 158, 114, 200, 162, 27, 58, 106, 41, 125, 1])
  ]

def listedSha256 : Sha256 := ⟨listedDigest listed, length_listedDigest listed⟩

theorem told_listedSha256 :
    Told listedSha256 (pairParts (ofString "ada") (ofString "ada")) (pairParts (ofString "bob") (ofString "bob")) where
  controlFree := by
    have hfree : ControlFree (ofString "ada") := by decide
    simpa [pairParts, Part.written] using hfree
  controlFree' := by
    have hfree : ControlFree (ofString "bob") := by decide
    simpa [pairParts, Part.written] using hfree
  collisionFree h := absurd h (by decide +kernel)

/-- Two users own two rows. -/
theorem stableId_separates_users :
    membershipIdFor listedSha256 (ofString "ada") (ofString "ada") ≠
      membershipIdFor listedSha256 (ofString "bob") (ofString "bob") := by
  rw [ne_eq, (stableId_separates listedSha256).2.1 _ _ _ _ told_listedSha256]
  decide

/-- No part is hashed as an empty one is, a number as its text, and one lone surrogate as another. -/
theorem stableId_confuses :
    stableId (F := ℚ) listedSha256 (ofString "id") [] = stableId (F := ℚ) listedSha256 (ofString "id") [.text []] ∧
    stableId (F := ℚ) listedSha256 (ofString "id") [.number 1] =
      stableId (F := ℚ) listedSha256 (ofString "id") [.text (ofString "1")] ∧
    membershipIdFor listedSha256 [unit 0xD800] (ofString "t") =
      membershipIdFor listedSha256 [unit 0xD801] (ofString "t") := by
  refine ⟨rfl, ?_, ?_⟩
  · have hone : (Part.number (1 : ℚ)).written = (Part.text (F := ℚ) (ofString "1")).written := by decide +kernel
    simp only [stableId, joined, List.map_cons, hone, List.map_nil]
  · have hbytes : utf8 (joined (pairParts [unit 0xD800] (ofString "t"))) =
        utf8 (joined (pairParts [unit 0xD801] (ofString "t"))) := by decide +kernel
    rw [membershipIdFor, membershipIdFor, ← pairParts, ← pairParts, stableId, stableId, shortHash, hbytes, shortHash]

end CatalogSentinel.Core
