import CatalogSentinel.Data.Base64Url

/-!
Bytes as text of the alphabet with `+` and `/`, padded to groups of four. Reading is as lenient as it is
for the other alphabet, so a text is canonical if writing what was read of it gives it back.
-/

namespace CatalogSentinel.Data.Base64

open Base64Url (digits value?)

/-- `A-Za-z0-9+/` -/
def letter (n : ℕ) : ℕ := if n = 62 then 43 else if n = 63 then 47 else Base64Url.letter n

/-- `buffer.toString('base64')` -/
def encode (buffer : List Byte) : List ℕ :=
  (digits buffer).map letter ++ List.replicate ((3 - buffer.length % 3) % 3) 61

/-- `Buffer.from(text, 'base64')` -/
def decode (text : List ℕ) : List Byte := Base64Url.decode text

def isLetter (code : ℕ) : Bool :=
  (65 ≤ code && code ≤ 90) || (97 ≤ code && code ≤ 122) || (48 ≤ code && code ≤ 57) || code = 43 || code = 47

/-- `/^(?:[A-Za-z0-9+/]{4})*(?:[A-Za-z0-9+/]{2}==|[A-Za-z0-9+/]{3}=)?$/` -/
def isPadded : List ℕ → Bool
  | [] => true
  | w :: x :: y :: z :: rest =>
    (isLetter w && isLetter x && isLetter y && isLetter z && isPadded rest) ||
      (rest.isEmpty && isLetter w && isLetter x && (isLetter y || y = 61) && z = 61)
  | _ => false

theorem isLetter_letter {n : ℕ} (h : n < 64) : isLetter (letter n) = true := by
  have hall : ∀ n < 64, isLetter (letter n) = true := by decide
  exact hall n h

theorem value?_letter {n : ℕ} (h : n < 64) : value? (letter n) = some n := by
  have hall : ∀ n < 64, value? (letter n) = some n := by decide
  exact hall n h

theorem ne_of_isLetter {code : ℕ} (h : isLetter code = true) : code ≠ 61 ∧ code ≠ 46 := by
  constructor <;> rintro rfl <;> simp [isLetter] at h

theorem isPadded_encode (buffer : List Byte) : isPadded (encode buffer) = true := by
  induction buffer using Base64Url.digits.induct with
  | case1 a b c rest ih =>
    have ha := a.isLt
    have hb := b.isLt
    have hc := c.isLt
    have hcons : encode (a :: b :: c :: rest) = letter (a.val / 4) :: letter (a.val % 4 * 16 + b.val / 16) ::
        letter (b.val % 16 * 4 + c.val / 64) :: letter (c.val % 64) :: encode rest := by
      simp [encode, digits, show (rest.length + 1 + 1 + 1) % 3 = rest.length % 3 by omega]
    rw [hcons, isPadded, isLetter_letter (by omega), isLetter_letter (by omega), isLetter_letter (by omega),
      isLetter_letter (by omega), ih]
    rfl
  | case2 a b =>
    have ha := a.isLt
    have hb := b.isLt
    show isPadded [letter (a.val / 4), letter (a.val % 4 * 16 + b.val / 16), letter (b.val % 16 * 4), 61] = true
    rw [isPadded, isLetter_letter (by omega), isLetter_letter (by omega), isLetter_letter (by omega)]
    simp
  | case3 a =>
    have ha := a.isLt
    show isPadded [letter (a.val / 4), letter (a.val % 4 * 16), 61, 61] = true
    rw [isPadded, isLetter_letter (by omega), isLetter_letter (by omega)]
    simp
  | case4 => rfl

theorem length_encode_mod (buffer : List Byte) : (encode buffer).length % 4 = 0 := by
  rw [encode, List.length_append, List.length_map, List.length_replicate, Base64Url.length_digits]
  have hmod : buffer.length % 3 = 0 ∨ buffer.length % 3 = 1 ∨ buffer.length % 3 = 2 := by omega
  obtain h | h | h := hmod <;> rw [h] <;> omega

theorem encode_eq_nil {buffer : List Byte} : encode buffer = [] ↔ buffer = [] := by
  cases buffer using Base64Url.digits.induct <;> simp [encode, digits]

/-- Letters and a padding is all that is written. -/
theorem mem_encode {buffer : List Byte} {code : ℕ} (h : code ∈ encode buffer) :
    isLetter code = true ∨ code = 61 := by
  obtain h | h := List.mem_append.1 h
  · obtain ⟨n, hn, rfl⟩ := List.mem_map.1 h
    exact .inl (isLetter_letter (Base64Url.digits_lt buffer n hn))
  · exact .inr (List.eq_of_mem_replicate h)

theorem encode_lt {buffer : List Byte} {code : ℕ} (h : code ∈ encode buffer) : code < 65536 := by
  rcases mem_encode h with hletter | rfl
  · simp only [isLetter, Bool.or_eq_true, Bool.and_eq_true, decide_eq_true_eq] at hletter
    omega
  · omega

/-- The padding ends what is read. -/
theorem takeWhile_encode (buffer : List Byte) :
    (encode buffer).takeWhile (· ≠ 61) = (digits buffer).map letter := by
  have hletters : ∀ code ∈ (digits buffer).map letter, decide (code ≠ 61) = true := by
    intro code hcode
    obtain ⟨n, hn, rfl⟩ := List.mem_map.1 hcode
    exact decide_eq_true (ne_of_isLetter (isLetter_letter (Base64Url.digits_lt buffer n hn))).1
  rw [encode, List.takeWhile_append_of_pos hletters, List.takeWhile_replicate]
  simp

/-- What was written is read back. -/
theorem decode_encode (buffer : List Byte) : decode (encode buffer) = buffer := by
  have hdigits : ((digits buffer).map letter).filterMap value? = digits buffer := by
    rw [List.filterMap_map]
    refine (List.filterMap_congr fun n hn => ?_).trans List.filterMap_some
    exact value?_letter (Base64Url.digits_lt buffer n hn)
  rw [decode, Base64Url.decode, takeWhile_encode, hdigits, Base64Url.bytes_digits]

end CatalogSentinel.Data.Base64
