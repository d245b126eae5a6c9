import Mathlib.Data.List.Sort
import CatalogSentinel.Data.Buffers
import CatalogSentinel.Data.JsonText
import CatalogSentinel.Search.History

/-!
The cursors of a search history as their readers hold them: a position and the scope it was issued in
as JSON, as bytes, in sixty-four letters, and a tag. Subjects that differ in lone surrogates only have
one scope.
-/

namespace CatalogSentinel.Search

open CatalogSentinel.Data
open CatalogSentinel.Data.JsonText (Value)

/-- The platform's digests, of thirty-two bytes. -/
structure Digests (K : Type) where
  sha256 : List Byte → List Byte
  hmac : K → List Byte → List Byte
  length_sha256 : ∀ bytes, (sha256 bytes).length = 32
  length_hmac : ∀ key bytes, (hmac key bytes).length = 32

/-- The platform's dates; `parse` is `none` where the time is not a number. A date is written in
twenty-four characters, or in twenty-seven where its year has six digits. -/
structure Dates (Moment : Type) where
  parse : Utf16 → Option Moment
  toISOString : Moment → Utf16
  parse_toISOString : ∀ moment, parse (toISOString moment) = some moment
  length_toISOString : ∀ moment, (toISOString moment).length ≤ 27

/-- The text of `Error.message`. -/
structure InvalidSearchHistoryPageError where
  message : String := "invalid search history pagination"
deriving DecidableEq, Repr

variable {K Moment : Type} (digests : Digests K) (dates : Dates Moment)

/-! ### Scopes and tags -/

def historyCursorVersion : ℕ := 1

def historyCursorMaxLength : ℕ := 768

/-- What the scope is a digest of. -/
def scopeText (sub : Utf16) : Utf16 :=
  Utf16.ofString s!"user:{sub.length}:" ++ sub

def historyCursorScope (sub : Utf16) : Utf16 := base64url (digests.sha256 (utf8 (scopeText sub)))

def cursorChecksum (body : Utf16) (signingKey : K) : Utf16 :=
  (base64url (digests.hmac signingKey (utf8 body))).take 22

/-! ### Writing -/

def cursorText (position : SearchPageCursor) (scope : Utf16) : List Char :=
  JsonText.writeObject
    [(Utf16.ofString "v", (toString historyCursorVersion).toList),
      (Utf16.ofString "s", JsonText.quote scope),
      (Utf16.ofString "a", JsonText.quote position.createdAt),
      (Utf16.ofString "i", JsonText.quote position.id)]

def cursorBody (position : SearchPageCursor) (scope : Utf16) : Utf16 :=
  base64url (Utf8.encode (cursorText position scope))

def dot : CodeUnit := 46

def encodeHistoryCursor (position : SearchPageCursor) (scope : Utf16) (signingKey : K) : Utf16 :=
  cursorBody position scope ++ dot :: cursorChecksum digests (cursorBody position scope) signingKey

/-! ### Reading -/

def isAlphanumeric (u : CodeUnit) : Bool :=
  (65 ≤ u.val && u.val ≤ 90) || (97 ≤ u.val && u.val ≤ 122) || (48 ≤ u.val && u.val ≤ 57)

/-- `/^[A-Za-z0-9_-]{22}$/` -/
def isChecksum (text : Utf16) : Bool :=
  text.length = 22 && text.all fun u => isAlphanumeric u || u.val = 95 || u.val = 45

/-- `/^[A-Za-z0-9][A-Za-z0-9_.:-]{0,199}$/` -/
def isCursorId : Utf16 → Bool
  | [] => false
  | u :: rest => isAlphanumeric u && rest.length ≤ 199 &&
      rest.all fun u => isAlphanumeric u || u.val = 95 || u.val = 46 || u.val = 58 || u.val = 45

def indices (length : ℕ) : List Utf16 := (List.range length).map fun n => Utf16.ofString (toString n)

/-- `Object.keys(value)`, which throws for `null`. -/
def objectKeys : Value → Option (List Utf16)
  | .null => none
  | .bool _ | .num _ => some []
  | .str text => some (indices text.length)
  | .arr items => some (indices items.length)
  | .obj fields => some (fields.map Prod.fst).dedup

/-- `value[key]` of a parsed object, in which the last field of a name counts. -/
def property (value : Value) (key : String) : Option Value :=
  match value with
  | .obj fields => (fields.reverse.find? fun field => field.1 = Utf16.ofString key).map Prod.snd
  | _ => none

/-- `keys.sort().join(',')` -/
def joinedKeys (keys : List Utf16) : Utf16 :=
  (Utf16.ofString ",").intercalate (keys.insertionSort (· ≤ ·))

/-- Whether the number nearest to this one is the version. -/
def isVersion : Value → Bool
  | .num n => historyCursorVersion - 1 / 2 ^ 54 ≤ n && n ≤ historyCursorVersion + 1 / 2 ^ 53
  | _ => false

def isText (text : Utf16) : Value → Bool
  | .str other => other = text
  | _ => false

inductive CursorError
  | length | shape | checksum | encoding | syntaxError | nullish | scope | timestamp | date | id
  deriving DecidableEq, Repr

/-- What the body of a cursor says. -/
def readCursorValue (value : Value) (scope : Utf16) : Except CursorError SearchPageCursor :=
  match objectKeys value with
  | none => .error .nullish
  | some keys =>
    if joinedKeys keys ≠ Utf16.ofString "a,i,s,v" ∨ ¬ (property value "v").any isVersion ∨
        ¬ (property value "s").any (isText scope) then .error .scope
    else
      match property value "a" with
      | some (.str createdAt) =>
        if createdAt.length > 40 then .error .timestamp
        else if (dates.parse createdAt).all fun date => dates.toISOString date ≠ createdAt then .error .date
        else
          match property value "i" with
          | some (.str id) => if isCursorId id then .ok ⟨createdAt, id⟩ else .error .id
          | _ => .error .id
      | _ => .error .timestamp

/-- What is tried before anything that was thrown becomes one error. Tags of different lengths make
the comparison throw. -/
def tryDecodeHistoryCursor (cursor scope : Utf16) (signingKey : K) : Except CursorError SearchPageCursor :=
  if cursor = [] ∨ cursor.length > historyCursorMaxLength then .error .length
  else
    match cursor.splitOn dot with
    | [body, suppliedChecksum] =>
      if body = [] ∨ ¬ isChecksum suppliedChecksum then .error .shape
      else if utf8 suppliedChecksum ≠ utf8 (cursorChecksum digests body signingKey) then .error .checksum
      else
        let decoded := Base64Url.decode (body.map Fin.val)
        if decoded = [] ∨ base64url decoded ≠ body then .error .encoding
        else
          match JsonText.parse (Utf8.decode decoded) with
          | none => .error .syntaxError
          | some value => readCursorValue dates value scope
    | _ => .error .shape

def decodeHistoryCursor (cursor scope : Utf16) (signingKey : K) :
    Except InvalidSearchHistoryPageError SearchPageCursor :=
  match tryDecodeHistoryCursor digests dates cursor scope signingKey with
  | .ok position => .ok position
  | .error _ => .error { }

/-! ### Letters -/

omit digests dates

theorem base64url_injective : Function.Injective base64url := by
  intro buffer other h
  have hcodes := congrArg (List.map Fin.val) h
  rw [base64url_codes, base64url_codes] at hcodes
  exact Base64Url.encode_injective hcodes

theorem length_base64url (buffer : List Byte) : (base64url buffer).length = (buffer.length * 4 + 2) / 3 := by
  rw [base64url, List.length_map, Base64Url.length_encode]

/-- The letters of the alphabet. -/
def IsLetter (u : CodeUnit) : Prop := isAlphanumeric u ∨ u.val = 95 ∨ u.val = 45

theorem isLetter_of_mem {buffer : List Byte} {u : CodeUnit} (h : u ∈ base64url buffer) : IsLetter u := by
  have hmem : u.val ∈ Base64Url.encode buffer := by
    rw [← base64url_codes]
    exact List.mem_map_of_mem h
  obtain ⟨n, hn, hcode⟩ := List.mem_map.1 hmem
  have hcases := Base64Url.letter_cases (Base64Url.digits_lt buffer n hn)
  rw [hcode] at hcases
  unfold IsLetter isAlphanumeric
  simp only [Bool.or_eq_true, Bool.and_eq_true, decide_eq_true_eq]
  omega

theorem IsLetter.plain {u : CodeUnit} (h : IsLetter u) : JsonText.Plain u := by
  unfold IsLetter isAlphanumeric at h
  simp only [Bool.or_eq_true, Bool.and_eq_true, decide_eq_true_eq] at h
  unfold JsonText.Plain
  omega

theorem IsLetter.ne_dot {u : CodeUnit} (h : IsLetter u) : dot ≠ u := by
  rintro rfl
  revert h
  unfold IsLetter
  decide

theorem dot_notMem_base64url (buffer : List Byte) : dot ∉ base64url buffer :=
  fun h => (isLetter_of_mem h).ne_dot rfl

theorem isChecksum_iff {text : Utf16} : isChecksum text = true ↔ text.length = 22 ∧ ∀ u ∈ text, IsLetter u := by
  unfold isChecksum IsLetter
  simp only [Bool.and_eq_true, decide_eq_true_eq, List.all_eq_true, Bool.or_eq_true, or_assoc]

theorem toChars_plain {text : Utf16} (h : ∀ u ∈ text, JsonText.Plain u) :
    (Utf16.toChars text).map Char.toNat = text.map Fin.val := by
  have hchars := Utf16.toChars_append (fun u hu => (h u hu).notHigh) []
  rw [List.append_nil] at hchars
  rw [hchars, Utf16.toChars, List.append_nil, List.map_map]
  exact List.map_congr_left fun u hu => Utf16.single_toNat (h u hu).notHigh (h u hu).notLow

/-- Texts of plain units are one text if they are the same bytes. -/
theorem eq_of_utf8 {text other : Utf16} (htext : ∀ u ∈ text, JsonText.Plain u)
    (hother : ∀ u ∈ other, JsonText.Plain u) (h : utf8 text = utf8 other) : text = other := by
  have hchars := congrArg (List.map Char.toNat) (Utf8.encode_injective h)
  rw [toChars_plain htext, toChars_plain hother] at hchars
  exact Fin.val_injective.list_map hchars

theorem isChecksum_cursorChecksum (digests : Digests K) (body : Utf16) (signingKey : K) :
    isChecksum (cursorChecksum digests body signingKey) = true := by
  refine isChecksum_iff.2 ⟨?_, fun u hu => isLetter_of_mem (List.mem_of_mem_take hu)⟩
  rw [cursorChecksum, List.length_take, length_base64url, digests.length_hmac]
  rfl

/-! ### What a written cursor says -/

def cursorValue (position : SearchPageCursor) (scope : Utf16) : Value :=
  .obj [(Utf16.ofString "v", .num historyCursorVersion), (Utf16.ofString "s", .str scope),
    (Utf16.ofString "a", .str position.createdAt), (Utf16.ofString "i", .str position.id)]

theorem parse_cursorText (position : SearchPageCursor) (scope : Utf16) :
    JsonText.parse (cursorText position scope) = some (cursorValue position scope) :=
  JsonText.parse_writeObject ⟨Utf16.ofString "v", _, _, JsonText.reads_one⟩
    [⟨Utf16.ofString "s", _, _, JsonText.reads_quote scope⟩,
      ⟨Utf16.ofString "a", _, _, JsonText.reads_quote position.createdAt⟩,
      ⟨Utf16.ofString "i", _, _, JsonText.reads_quote position.id⟩]

theorem readCursorValue_cursorValue (dates : Dates Moment) (position : SearchPageCursor) (written scope : Utf16) :
    readCursorValue dates (cursorValue position written) scope =
      if written ≠ scope then .error .scope
      else if position.createdAt.length > 40 then .error .timestamp
      else if (dates.parse position.createdAt).all fun date => dates.toISOString date ≠ position.createdAt then
        .error .date
      else if isCursorId position.id then .ok position else .error .id := by
  have hkeys : objectKeys (cursorValue position written) =
      some [Utf16.ofString "v", Utf16.ofString "s", Utf16.ofString "a", Utf16.ofString "i"] := rfl
  have hjoined : joinedKeys [Utf16.ofString "v", Utf16.ofString "s", Utf16.ofString "a", Utf16.ofString "i"] =
      Utf16.ofString "a,i,s,v" := by
    decide
  have hv : property (cursorValue position written) "v" = some (.num historyCursorVersion) := rfl
  have hs : property (cursorValue position written) "s" = some (.str written) := rfl
  have ha : property (cursorValue position written) "a" = some (.str position.createdAt) := rfl
  have hi : property (cursorValue position written) "i" = some (.str position.id) := rfl
  have hversion : isVersion (.num historyCursorVersion) = true := by
    rw [isVersion, Bool.and_eq_true, decide_eq_true_eq, decide_eq_true_eq]
    norm_num [historyCursorVersion]
  unfold readCursorValue
  rw [hkeys, hv, hs, ha, hi]
  simp only [hjoined, ne_eq, not_true_eq_false, false_or, Option.any_some, hversion, isText, decide_eq_true_eq]

/-! ### What is accepted -/

variable {digests : Digests K} {dates : Dates Moment}

theorem decode_cursorBody (position : SearchPageCursor) (scope : Utf16) :
    Base64Url.decode ((cursorBody position scope).map Fin.val) = Utf8.encode (cursorText position scope) := by
  rw [cursorBody, base64url_codes, Base64Url.decode_encode]

theorem encode_cursorText_ne_nil (position : SearchPageCursor) (scope : Utf16) :
    Utf8.encode (cursorText position scope) ≠ [] := by
  have hbrace : Utf8.encodePoint '\x7b'.toNat = [123] := by decide
  rw [cursorText, JsonText.writeObject, Utf8.encode_cons, hbrace]
  exact List.cons_ne_nil _ _

theorem cursorBody_ne_nil (position : SearchPageCursor) (scope : Utf16) : cursorBody position scope ≠ [] := by
  intro h
  have hdecode := decode_cursorBody position scope
  rw [h] at hdecode
  exact encode_cursorText_ne_nil position scope hdecode.symm

/-- A cursor of two segments of which the second is the tag of the first. -/
theorem tryDecodeHistoryCursor_tagged {body scope : Utf16} {signingKey : K} {position : SearchPageCursor}
    {written : Utf16} (hbody : body = cursorBody position written)
    (hlength : (body ++ dot :: cursorChecksum digests body signingKey).length ≤ historyCursorMaxLength) :
    tryDecodeHistoryCursor digests dates (body ++ dot :: cursorChecksum digests body signingKey) scope signingKey =
      readCursorValue dates (cursorValue position written) scope := by
  subst hbody
  have hchecksum := isChecksum_cursorChecksum digests (cursorBody position written) signingKey
  have hbody : dot ∉ cursorBody position written := dot_notMem_base64url _
  have hcanonical : base64url (Utf8.encode (cursorText position written)) = cursorBody position written := rfl
  have hnone : dot ∉ cursorChecksum digests (cursorBody position written) signingKey :=
    fun h => ((isChecksum_iff.1 hchecksum).2 dot h).ne_dot rfl
  have hsplit : (cursorBody position written ++
      dot :: cursorChecksum digests (cursorBody position written) signingKey).splitOn dot =
        [cursorBody position written, cursorChecksum digests (cursorBody position written) signingKey] := by
    rw [List.splitOn_append_cons_self_of_not_mem hbody, List.splitOn_eq_singleton hnone]
  have hnonempty : cursorBody position written ++
      dot :: cursorChecksum digests (cursorBody position written) signingKey ≠ [] :=
    List.append_ne_nil_of_left_ne_nil (cursorBody_ne_nil position written) _
  unfold tryDecodeHistoryCursor
  rw [if_neg (not_or.2 ⟨hnonempty, Nat.not_lt.2 hlength⟩), hsplit]
  dsimp only
  rw [if_neg (not_or.2 ⟨cursorBody_ne_nil position written, not_not.2 hchecksum⟩), if_neg (not_not.2 rfl),
    decode_cursorBody, if_neg (not_or.2 ⟨encode_cursorText_ne_nil position written, not_not.2 hcanonical⟩),
    Utf8.decode_encode, parse_cursorText]

/-- What is accepted has the right tag. -/
theorem tagged_of_tryDecode {cursor scope : Utf16} {signingKey : K} {position : SearchPageCursor}
    (h : tryDecodeHistoryCursor digests dates cursor scope signingKey = .ok position) :
    cursor.length ≤ historyCursorMaxLength ∧
      ∃ body, cursor = body ++ dot :: cursorChecksum digests body signingKey := by
  unfold tryDecodeHistoryCursor at h
  split at h
  · cases h
  · rename_i hlength
    refine ⟨Nat.not_lt.1 (not_or.1 hlength).2, ?_⟩
    split at h
    · rename_i body supplied hsplit
      have hcursor : [dot].intercalate (cursor.splitOn dot) = cursor := List.intercalate_splitOn dot
      rw [hsplit, List.intercalate_cons_cons, List.intercalate_singleton, List.append_assoc,
        List.singleton_append] at hcursor
      split at h
      · cases h
      · rename_i hshape
        have hsupplied := not_not.1 (not_or.1 hshape).2
        have hexpected := isChecksum_cursorChecksum digests body signingKey
        split at h
        · cases h
        · rename_i htags
          have heq : supplied = cursorChecksum digests body signingKey :=
            eq_of_utf8 (fun u hu => ((isChecksum_iff.1 hsupplied).2 u hu).plain)
              (fun u hu => ((isChecksum_iff.1 hexpected).2 u hu).plain) (not_not.1 htags)
          exact ⟨body, by rw [← heq, hcursor]⟩
    · cases h

/-- The right tag of a body is known only where the body has been signed. -/
def Unforged (digests : Digests K) (signingKey : K) (cursor : Utf16) : Prop :=
  ∀ body, cursor = body ++ dot :: cursorChecksum digests body signingKey →
    ∃ position scope, body = cursorBody position scope

/-- A position that a page can end at. -/
structure Issuable (dates : Dates Moment) (position : SearchPageCursor) : Prop where
  createdAt : ∃ moment, position.createdAt = dates.toISOString moment
  id : isCursorId position.id = true

theorem readCursorValue_issuable {position : SearchPageCursor} (h : Issuable dates position) (scope : Utf16) :
    readCursorValue dates (cursorValue position scope) scope = .ok position := by
  obtain ⟨moment, hmoment⟩ := h.createdAt
  have hlength := dates.length_toISOString moment
  have hcanonical : ¬ ((dates.parse position.createdAt).all fun date =>
      decide (dates.toISOString date ≠ position.createdAt)) = true := by
    rw [hmoment, dates.parse_toISOString, Option.all_some, decide_eq_true_eq]
    exact not_not.2 rfl
  rw [readCursorValue_cursorValue, if_neg (not_not.2 rfl), if_neg (by rw [hmoment]; omega), if_neg hcanonical,
    if_pos h.id]

theorem readCursorValue_ok {position read : SearchPageCursor} {written scope : Utf16}
    (h : readCursorValue dates (cursorValue position written) scope = .ok read) :
    written = scope ∧ read = position := by
  rw [readCursorValue_cursorValue] at h
  split_ifs at h with hscope
  · cases h
    exact ⟨not_not.1 hscope, rfl⟩

/-! ### How long a cursor is -/

theorem cursorText_eq (position : SearchPageCursor) (scope : Utf16) :
    cursorText position scope = "\x7b\x22v\x22:1,\x22s\x22:\x22".toList ++ (JsonText.writeUnits scope ++
      ("\x22,\x22a\x22:\x22".toList ++ (JsonText.writeUnits position.createdAt ++
        ("\x22,\x22i\x22:\x22".toList ++ (JsonText.writeUnits position.id ++ "\x22\x7d".toList))))) := by
  unfold cursorText JsonText.writeObject JsonText.quote
  simp only [List.map_cons, List.map_nil, List.intercalate_cons_cons, List.intercalate_singleton, List.append_assoc,
    List.cons_append, List.nil_append]
  rfl

theorem plain_of_isAlphanumeric {u : CodeUnit} (h : isAlphanumeric u = true) : JsonText.Plain u :=
  IsLetter.plain (Or.inl h)

theorem isCursorId_plain {id : Utf16} (h : isCursorId id = true) :
    id.length ≤ 200 ∧ ∀ u ∈ id, JsonText.Plain u := by
  cases id with
  | nil => cases h
  | cons first rest =>
    simp only [isCursorId, Bool.and_eq_true, decide_eq_true_eq, List.all_eq_true, Bool.or_eq_true] at h
    obtain ⟨⟨hfirst, hlength⟩, hrest⟩ := h
    refine ⟨Nat.succ_le_succ hlength, fun u hu => ?_⟩
    rcases List.mem_cons.1 hu with rfl | hu
    · exact plain_of_isAlphanumeric hfirst
    · have hunit := hrest u hu
      by_cases halpha : isAlphanumeric u = true
      · exact plain_of_isAlphanumeric halpha
      · unfold JsonText.Plain
        simp only [halpha, Bool.false_eq_true, false_or] at hunit
        omega

theorem historyCursorScope_plain (sub : Utf16) : (historyCursorScope digests sub).length = 43 ∧
    ∀ u ∈ historyCursorScope digests sub, JsonText.Plain u := by
  refine ⟨?_, fun u hu => (isLetter_of_mem hu).plain⟩
  rw [historyCursorScope, length_base64url, digests.length_sha256]

theorem length_encodeHistoryCursor {position : SearchPageCursor} (h : Issuable dates position) (sub : Utf16)
    (signingKey : K) :
    (encodeHistoryCursor digests position (historyCursorScope digests sub) signingKey).length ≤
      historyCursorMaxLength := by
  obtain ⟨moment, hmoment⟩ := h.createdAt
  obtain ⟨hscope, hscopePlain⟩ : (historyCursorScope digests sub).length = 43 ∧ _ :=
    historyCursorScope_plain sub
  obtain ⟨hid, hidPlain⟩ := isCursorId_plain h.id
  have hdate : position.createdAt.length ≤ 27 := by
    rw [hmoment]
    exact dates.length_toISOString moment
  have hcreatedAt := JsonText.length_encode_writeUnits position.createdAt
  have htag := (isChecksum_iff.1 (isChecksum_cursorChecksum digests
    (cursorBody position (historyCursorScope digests sub)) signingKey)).1
  have hopen : (Utf8.encode "\x7b\x22v\x22:1,\x22s\x22:\x22".toList).length = 12 := by decide
  have hthen : (Utf8.encode "\x22,\x22a\x22:\x22".toList).length = 7 := by decide
  have hlast : (Utf8.encode "\x22,\x22i\x22:\x22".toList).length = 7 := by decide
  have hclose : (Utf8.encode "\x22\x7d".toList).length = 2 := by decide
  have hbytes : (Utf8.encode (cursorText position (historyCursorScope digests sub))).length ≤
      12 + (43 + (7 + (6 * 27 + (7 + (200 + 2))))) := by
    rw [cursorText_eq]
    simp only [Utf8.encode_append, List.length_append, JsonText.length_encode_plain hscopePlain,
      JsonText.length_encode_plain hidPlain, hopen, hthen, hlast, hclose]
    omega
  rw [encodeHistoryCursor, List.length_append, List.length_cons, htag, cursorBody, length_base64url,
    historyCursorMaxLength]
  omega

/-! ### Scopes -/

theorem scopeText_toChars (sub : Utf16) : Utf16.toChars (scopeText sub) =
    "user:".toList ++ ((toString sub.length).toList ++ ':' :: Utf16.toChars sub) := by
  have hprefix : (s!"user:{sub.length}:" : String).toList =
      "user:".toList ++ ((toString sub.length).toList ++ [':']) := by
    show (("user:" ++ toString sub.length) ++ ":" : String).toList = _
    rw [String.toList_append, String.toList_append, List.append_assoc]
    rfl
  rw [scopeText, Utf16.toChars_ofString, hprefix, List.append_assoc, List.append_assoc, List.singleton_append]

theorem colon_notMem_length (sub : Utf16) : ':' ∉ (toString sub.length).toList := by
  intro h
  rw [Nat.toString_eq_repr, Nat.toList_repr] at h
  have hdigit : (':' : Char).isDigit = true := Nat.isDigit_of_mem_toDigits (by decide) (by decide) h
  exact absurd hdigit (by decide)

/-- Subjects have one scope if they are the same characters; each lone surrogate is the replacement
character. -/
theorem utf8_scopeText_inj {sub other : Utf16} :
    utf8 (scopeText sub) = utf8 (scopeText other) ↔ Utf16.toChars sub = Utf16.toChars other := by
  constructor
  · intro h
    have hchars := Utf8.encode_injective h
    rw [scopeText_toChars, scopeText_toChars] at hchars
    exact (cut_at_first (colon_notMem_length sub) (colon_notMem_length other)
      (List.append_cancel_left hchars)).2
  · intro h
    have hlength : sub.length = other.length := by
      rw [← Utf16.length_toChars sub, ← Utf16.length_toChars other, h]
    rw [utf8, utf8, scopeText_toChars, scopeText_toChars, h, hlength]

/-- SHA-256 tells these two scopes apart if they are not the same bytes. -/
def CollisionFree (digests : Digests K) (sub other : Utf16) : Prop :=
  digests.sha256 (utf8 (scopeText sub)) = digests.sha256 (utf8 (scopeText other)) →
    utf8 (scopeText sub) = utf8 (scopeText other)

theorem historyCursorScope_inj {sub other : Utf16} (h : CollisionFree digests sub other) :
    historyCursorScope digests sub = historyCursorScope digests other ↔
      Utf16.toChars sub = Utf16.toChars other := by
  rw [← utf8_scopeText_inj]
  exact ⟨fun hscope => h (base64url_injective hscope), fun hbytes => congrArg (base64url ∘ digests.sha256) hbytes⟩

/-! ### Round trip -/

theorem decodeHistoryCursor_encodeHistoryCursor {position : SearchPageCursor} (h : Issuable dates position)
    (sub : Utf16) (signingKey : K) :
    decodeHistoryCursor digests dates
      (encodeHistoryCursor digests position (historyCursorScope digests sub) signingKey)
      (historyCursorScope digests sub) signingKey = .ok position := by
  unfold decodeHistoryCursor
  rw [encodeHistoryCursor, tryDecodeHistoryCursor_tagged rfl (length_encodeHistoryCursor h sub signingKey),
    readCursorValue_issuable h]

/-- A cursor that was signed is accepted in the scope it was signed for, if at all. -/
theorem tryDecode_cursorBody {position read : SearchPageCursor} {written scope : Utf16} {signingKey : K}
    (h : tryDecodeHistoryCursor digests dates (encodeHistoryCursor digests position written signingKey) scope
      signingKey = .ok read) : written = scope ∧ read = position := by
  have hlength := (tagged_of_tryDecode h).1
  rw [encodeHistoryCursor] at h hlength
  rw [tryDecodeHistoryCursor_tagged rfl hlength] at h
  exact readCursorValue_ok h

theorem decodeHistoryCursor_cases (cursor scope : Utf16) (signingKey : K) :
    decodeHistoryCursor digests dates cursor scope signingKey = .error { } ∨
      ∃ position, tryDecodeHistoryCursor digests dates cursor scope signingKey = .ok position ∧
        decodeHistoryCursor digests dates cursor scope signingKey = .ok position := by
  unfold decodeHistoryCursor
  cases tryDecodeHistoryCursor digests dates cursor scope signingKey with
  | error error => exact Or.inl rfl
  | ok position => exact Or.inr ⟨position, rfl, rfl⟩

/-- A cursor that was issued has not been forged. -/
theorem unforged_encode (position : SearchPageCursor) (scope : Utf16) (signingKey : K) :
    Unforged digests signingKey (encodeHistoryCursor digests position scope signingKey) := by
  intro body hbody
  have hlength := isChecksum_iff.1 (isChecksum_cursorChecksum digests body signingKey)
  have hissued := isChecksum_iff.1 (isChecksum_cursorChecksum digests (cursorBody position scope) signingKey)
  have hsame := (List.append_inj' hbody (by rw [List.length_cons, List.length_cons, hlength.1, hissued.1])).1
  exact ⟨position, scope, hsame.symm⟩

theorem decodeHistoryCursor_sound {cursor : Utf16} {signingKey : K} (h : Unforged digests signingKey cursor)
    (scope : Utf16) :
    decodeHistoryCursor digests dates cursor scope signingKey = .error { } ∨
      ∃ position, decodeHistoryCursor digests dates cursor scope signingKey = .ok position ∧
        encodeHistoryCursor digests position scope signingKey = cursor := by
  refine (decodeHistoryCursor_cases cursor scope signingKey).imp_right fun ⟨read, htry, hdecode⟩ => ?_
  obtain ⟨_, body, rfl⟩ := tagged_of_tryDecode htry
  obtain ⟨position, written, rfl⟩ := h body rfl
  rw [← encodeHistoryCursor] at htry
  obtain ⟨rfl, rfl⟩ := tryDecode_cursorBody htry
  exact ⟨read, hdecode, rfl⟩

/-- Where a scope is another, every cursor is rejected. -/
theorem decodeHistoryCursor_rejects {written scope : Utf16} (h : written ≠ scope) (position : SearchPageCursor)
    (signingKey : K) : decodeHistoryCursor digests dates
      (encodeHistoryCursor digests position written signingKey) scope signingKey = .error { } := by
  refine (decodeHistoryCursor_cases _ scope signingKey).resolve_right fun ⟨read, htry, _⟩ => ?_
  exact h (tryDecode_cursorBody htry).1

/-- Cursors round trip, and what is accepted has been issued in the scope. A subject's cursors are
rejected for another subject if and only if the two differ when their lone surrogates are replaced. -/
theorem historyCursor_scoped [Inhabited Moment] (digests : Digests K) (dates : Dates Moment) (signingKey : K) :
    (∀ sub position, Issuable dates position → decodeHistoryCursor digests dates
      (encodeHistoryCursor digests position (historyCursorScope digests sub) signingKey)
      (historyCursorScope digests sub) signingKey = .ok position) ∧
    (∀ cursor scope, Unforged digests signingKey cursor →
      decodeHistoryCursor digests dates cursor scope signingKey = .error { } ∨
        ∃ position, decodeHistoryCursor digests dates cursor scope signingKey = .ok position ∧
          encodeHistoryCursor digests position scope signingKey = cursor) ∧
    (∀ sub other, CollisionFree digests sub other →
      ((∀ position, decodeHistoryCursor digests dates
        (encodeHistoryCursor digests position (historyCursorScope digests sub) signingKey)
        (historyCursorScope digests other) signingKey = .error { }) ↔
          Utf16.toChars sub ≠ Utf16.toChars other)) := by
  refine ⟨fun sub position h => decodeHistoryCursor_encodeHistoryCursor h sub signingKey,
    fun cursor scope h => decodeHistoryCursor_sound h scope, fun sub other hsha => ⟨fun hall heq => ?_, fun hne => ?_⟩⟩
  · have hid : isCursorId (Utf16.ofString "0") = true := by decide
    have hissuable : Issuable dates ⟨dates.toISOString default, Utf16.ofString "0"⟩ := ⟨⟨default, rfl⟩, hid⟩
    have haccepted : decodeHistoryCursor digests dates _ _ signingKey = _ :=
      decodeHistoryCursor_encodeHistoryCursor hissuable sub signingKey
    have hrejected := hall ⟨dates.toISOString default, Utf16.ofString "0"⟩
    rw [← (historyCursorScope_inj hsha).2 heq, haccepted] at hrejected
    cases hrejected
  · exact fun position => decodeHistoryCursor_rejects (fun hscope => hne ((historyCursorScope_inj hsha).1 hscope))
      position signingKey

/-! ### Two subjects, and two of one scope -/

def newYear : Utf16 := Utf16.ofString "2026-01-01T00:00:00.000Z"

def newYearOnly : Dates Unit where
  parse text := if text = newYear then some () else none
  toISOString _ := newYear
  parse_toISOString _ := if_pos rfl
  length_toISOString _ := by decide

def ada : Utf16 := Utf16.ofString "ada"

def bob : Utf16 := Utf16.ofString "bob"

/-- The scopes of three subjects, the last of whom is a lone surrogate. -/
def listedScopes : List (List Byte × List Byte) := [
  (utf8 (Utf16.ofString "user:3:ada"),
    [141, 45, 23, 55, 248, 24, 106, 125, 84, 186, 62, 110, 230, 43, 255, 18, 124, 220, 102, 182,
      53, 100, 124, 144, 249, 139, 224, 203, 2, 116, 96, 67]),
  (utf8 (Utf16.ofString "user:3:bob"),
    [105, 29, 168, 139, 136, 23, 40, 255, 164, 46, 123, 203, 167, 204, 178, 4, 134, 40, 117, 51,
      220, 234, 169, 218, 127, 150, 44, 179, 65, 154, 206, 192]),
  (utf8 (Utf16.ofString "user:1:\uFFFD"),
    [66, 187, 106, 192, 90, 185, 135, 132, 20, 103, 213, 188, 69, 98, 5, 40, 92, 31, 198, 27, 244,
      247, 209, 180, 64, 152, 220, 105, 190, 164, 214, 130])]

/-- The body of the first subject's cursor, and its tag under a key of zeros. -/
def listedTags : List (List Byte × List Byte) := [
  (utf8 (Utf16.ofString ("eyJ2IjoxLCJzIjoialMwWE5fZ1lhbjFVdWo1dTVpdl9FbnpjWnJZMVpIeVEtWXZneXdKMFlFTSIs" ++
      "ImEiOiIyMDI2LTAxLTAxVDAwOjAwOjAwLjAwMFoiLCJpIjoiczEifQ")),
    [87, 5, 198, 117, 183, 33, 85, 138, 48, 139, 134, 90, 101, 152, 245, 193, 7, 133, 13, 228,
      229, 238, 86, 123, 160, 2, 52, 73, 196, 17, 80, 29])]

def listedDigests : Digests Unit :=
  ⟨listedDigest listedScopes, fun _ => listedDigest listedTags, length_listedDigest listedScopes,
    fun _ => length_listedDigest listedTags⟩

def firstPage : SearchPageCursor := ⟨newYear, Utf16.ofString "s1"⟩

theorem issuable_firstPage : Issuable newYearOnly firstPage := by
  have hid : isCursorId (Utf16.ofString "s1") = true := by decide
  exact ⟨⟨(), rfl⟩, hid⟩

/-- A cursor of one subject, for the subject and for another. -/
theorem historyCursor_scoped_users :
    let cursor := encodeHistoryCursor listedDigests firstPage (historyCursorScope listedDigests ada) ()
    decodeHistoryCursor listedDigests newYearOnly cursor (historyCursorScope listedDigests ada) () = .ok firstPage ∧
    (∃ position, decodeHistoryCursor listedDigests newYearOnly cursor (historyCursorScope listedDigests ada) () =
        .ok position ∧ encodeHistoryCursor listedDigests position (historyCursorScope listedDigests ada) () = cursor) ∧
    decodeHistoryCursor listedDigests newYearOnly cursor (historyCursorScope listedDigests bob) () = .error { } := by
  obtain ⟨hround, hsound, hapart⟩ := historyCursor_scoped listedDigests newYearOnly ()
  have haccepted := hround ada firstPage issuable_firstPage
  have hfree : CollisionFree listedDigests ada bob := fun h => absurd h (by decide +kernel)
  refine ⟨haccepted, ?_, (hapart ada bob hfree).2 (by decide) firstPage⟩
  obtain hrejected | hread := hsound _ (historyCursorScope listedDigests ada) (unforged_encode firstPage _ ())
  · rw [haccepted] at hrejected
    cases hrejected
  · exact hread

/-- The subject is one surrogate, and the other is another one. -/
theorem loneSurrogate_accepted : (Utf16.unit 0xD800 :: []) ≠ (Utf16.unit 0xD801 :: []) ∧
    CollisionFree listedDigests [Utf16.unit 0xD800] [Utf16.unit 0xD801] ∧
    decodeHistoryCursor listedDigests newYearOnly
      (encodeHistoryCursor listedDigests firstPage
        (historyCursorScope listedDigests [Utf16.unit 0xD800]) ())
      (historyCursorScope listedDigests [Utf16.unit 0xD801]) () = .ok firstPage := by
  have hchars : Utf16.toChars [Utf16.unit 0xD800] = Utf16.toChars [Utf16.unit 0xD801] := by decide
  have hfree : CollisionFree listedDigests [Utf16.unit 0xD800] [Utf16.unit 0xD801] := fun _ =>
    utf8_scopeText_inj.2 hchars
  refine ⟨by decide, hfree, ?_⟩
  rw [← (historyCursorScope_inj hfree).2 hchars]
  exact decodeHistoryCursor_encodeHistoryCursor issuable_firstPage _ ()

end CatalogSentinel.Search
