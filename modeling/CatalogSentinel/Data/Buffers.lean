import CatalogSentinel.Data.Base64Url
import CatalogSentinel.Data.Joining
import CatalogSentinel.Data.Text
import CatalogSentinel.Data.Utf16

/-!
Strings as buffers of UTF-8 and back. A lone surrogate is written as the replacement character, so two
strings are one buffer exactly if they are the same once their lone surrogates are replaced.
-/

namespace CatalogSentinel.Data

/-- `Buffer.from(text, 'utf8')` -/
def utf8 (text : Utf16) : List Byte := Utf8.encode (Utf16.toChars text)

/-- `buffer.toString('utf8')` -/
def ofUtf8 (buffer : List Byte) : Utf16 := (Utf8.decode buffer).flatMap Utf16.ofChar

/-- `buffer.toString('base64url')` -/
def base64url (buffer : List Byte) : Utf16 := (Base64Url.encode buffer).map Utf16.unit

theorem base64url_codes (buffer : List Byte) : (base64url buffer).map Fin.val = Base64Url.encode buffer := by
  have hcode : ∀ code ∈ Base64Url.encode buffer, (Utf16.unit code).val = code := fun code hcode =>
    Utf16.unit_val (Nat.lt_trans (Base64Url.encode_lt hcode) (by decide))
  rw [base64url, List.map_map]
  exact (List.map_congr_left hcode).trans (List.map_id' _)

namespace Utf16

/-- White space and line ends, as `\s` has them. -/
def isSpace (u : CodeUnit) : Bool :=
  (9 ≤ u.val && u.val ≤ 13) || u.val = 32 || u.val = 160 || u.val = 0x1680 || (0x2000 ≤ u.val && u.val ≤ 0x200A) ||
    u.val = 0x2028 || u.val = 0x2029 || u.val = 0x202F || u.val = 0x205F || u.val = 0x3000 || u.val = 0xFEFF

/-- `text.trim()` -/
def trim (text : Utf16) : Utf16 := trimBy isSpace text

/-- The string with each of its lone surrogates replaced. -/
def toWellFormed (text : Utf16) : Utf16 := (toChars text).flatMap ofChar

/-- No surrogate is alone. -/
def IsWellFormed (text : Utf16) : Prop := toWellFormed text = text

theorem toWellFormed_ofString_append (s : String) (text : Utf16) :
    toWellFormed (ofString s ++ text) = ofString s ++ toWellFormed text := by
  rw [toWellFormed, toChars_ofString, List.flatMap_append]
  rfl

/-- No unit is left out. -/
theorem toWellFormed_eq_nil {text : Utf16} : toWellFormed text = [] ↔ text = [] := by
  rw [← List.length_eq_zero_iff, ← List.length_eq_zero_iff, toWellFormed, length_toChars]

theorem toChars_flatMap_ofChar (chars : List Char) : toChars (chars.flatMap ofChar) = chars := by
  induction chars with
  | nil => rfl
  | cons ch chars ih => rw [List.flatMap_cons, toChars_ofChar, ih]

theorem isWellFormed_ofString (s : String) : IsWellFormed (ofString s) := by
  rw [IsWellFormed, toWellFormed, ofString, toChars_flatMap_ofChar]

/-- A unit that is no surrogate stands for itself between any others. -/
theorem toChars_append_cons {u : CodeUnit} (hhigh : isHigh u = false) (hlow : isLow u = false) (before after : Utf16) :
    toChars (before ++ u :: after) = toChars before ++ single u :: toChars after := by
  have hnext : toChars (u :: after) = single u :: toChars after := by
    cases after with
    | nil => rfl
    | cons v after => simp [toChars, hhigh]
  induction before using toChars.induct with
  | case1 v w rest hpair ih => simp only [List.cons_append, toChars, if_pos hpair, ih]
  | case2 v w rest hpair ih =>
    rw [List.cons_append] at ih
    simp only [List.cons_append, toChars, if_neg hpair, ih]
  | case3 v => simp [toChars, hlow, hnext]
  | case4 => exact hnext

theorem toChars_intercalate {u : CodeUnit} (hhigh : isHigh u = false) (hlow : isLow u = false) (parts : List Utf16) :
    toChars ([u].intercalate parts) = [single u].intercalate (parts.map toChars) := by
  induction parts with
  | nil => rfl
  | cons part parts ih =>
    cases parts with
    | nil => simp
    | cons next parts =>
      rw [List.intercalate_cons_cons, List.append_assoc, List.singleton_append, toChars_append_cons hhigh hlow, ih]
      simp [List.intercalate_cons_cons]

/-- A character below the surrogates comes from its own unit. -/
theorem mem_of_mem_toChars {text : Utf16} {ch : Char} (hch : ch.toNat < 0xD800) (h : ch ∈ toChars text) :
    unit ch.toNat ∈ text := by
  have hsingle : ∀ u : CodeUnit, ch = single u → unit ch.toNat = u := by
    rintro u rfl
    unfold single at hch ⊢
    split at hch
    · have hreplacement : (Char.ofNat 0xFFFD).toNat = 0xFFFD := rfl
      omega
    · rename_i hsurrogate
      rw [if_neg hsurrogate]
      simp only [Bool.or_eq_true, not_or, Bool.not_eq_true] at hsurrogate
      have hnat := single_toNat hsurrogate.1 hsurrogate.2
      rw [single, if_neg (by simp [hsurrogate])] at hnat
      exact unit_of_val hnat
  induction text using toChars.induct with
  | case1 u v rest hpair ih =>
    obtain ⟨hhigh, hlow⟩ := Bool.and_eq_true_iff.1 hpair
    rw [toChars, if_pos hpair] at h
    rcases List.mem_cons.1 h with h | h
    · rw [h, pair_toNat hhigh hlow] at hch
      omega
    · simp [ih h]
  | case2 u v rest hpair ih =>
    rw [toChars, if_neg hpair] at h
    rcases List.mem_cons.1 h with h | h
    · simp [hsingle u h]
    · exact List.mem_cons_of_mem _ (ih h)
  | case3 u => simp [hsingle u (List.mem_singleton.1 h)]
  | case4 => cases h

end Utf16

open Utf16

/-- What comes back has its lone surrogates replaced. -/
theorem ofUtf8_utf8 (text : Utf16) : ofUtf8 (utf8 text) = toWellFormed text := by
  rw [ofUtf8, utf8, Utf8.decode_encode, toWellFormed]

/-! ### Digests of some texts -/

/-- The digest of thirty-two bytes that is listed for some bytes, or one of zeros. -/
def listedDigest (rows : List (List Byte × List Byte)) (bytes : List Byte) : List Byte :=
  ((rows.find? fun row => row.1 = bytes ∧ row.2.length = 32).map Prod.snd).getD (List.replicate 32 0)

theorem length_listedDigest (rows : List (List Byte × List Byte)) (bytes : List Byte) :
    (listedDigest rows bytes).length = 32 := by
  rw [listedDigest]
  cases hrow : rows.find? fun row => row.1 = bytes ∧ row.2.length = 32 with
  | none => simp
  | some row =>
    have hfound := List.find?_some hrow
    simp only [decide_eq_true_eq] at hfound
    exact hfound.2

end CatalogSentinel.Data
