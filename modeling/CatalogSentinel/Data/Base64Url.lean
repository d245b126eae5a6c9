import CatalogSentinel.Data.Utf8
import Mathlib.Data.List.TakeWhile

/-!
Bytes as text of sixty-four letters, and that text as bytes. Texts are the codes of their characters.
Reading is lenient: both alphabets are read, other characters passed over, and a padding ends the text.
-/

namespace CatalogSentinel.Data.Base64Url

/-- `A-Za-z0-9-_` -/
def letter (n : ℕ) : ℕ :=
  if n < 26 then 65 + n
  else if n < 52 then 71 + n
  else if n < 62 then n - 4
  else if n = 62 then 45
  else 95

/-- What a letter stands for, also one of the alphabet that has `+` and `/`. -/
def value? (code : ℕ) : Option ℕ :=
  if 65 ≤ code ∧ code ≤ 90 then some (code - 65)
  else if 97 ≤ code ∧ code ≤ 122 then some (code - 71)
  else if 48 ≤ code ∧ code ≤ 57 then some (code + 4)
  else if code = 45 ∨ code = 43 then some 62
  else if code = 95 ∨ code = 47 then some 63
  else none

/-- Three bytes are four digits; what is left at the end is padded with zero bits. -/
def digits : List Byte → List ℕ
  | a :: b :: c :: rest =>
    a.val / 4 :: (a.val % 4 * 16 + b.val / 16) :: (b.val % 16 * 4 + c.val / 64) :: c.val % 64 :: digits rest
  | [a, b] => [a.val / 4, a.val % 4 * 16 + b.val / 16, b.val % 16 * 4]
  | [a] => [a.val / 4, a.val % 4 * 16]
  | [] => []

def bytes : List ℕ → List Byte
  | w :: x :: y :: z :: rest =>
    Utf8.byte (w * 4 + x / 16) :: Utf8.byte (x % 16 * 16 + y / 4) :: Utf8.byte (y % 4 * 64 + z) :: bytes rest
  | [w, x, y] => [Utf8.byte (w * 4 + x / 16), Utf8.byte (x % 16 * 16 + y / 4)]
  | [w, x] => [Utf8.byte (w * 4 + x / 16)]
  | _ => []

/-- `buffer.toString('base64url')` -/
def encode (buffer : List Byte) : List ℕ := (digits buffer).map letter

/-- `Buffer.from(text, 'base64url')` -/
def decode (text : List ℕ) : List Byte := bytes ((text.takeWhile (· ≠ 61)).filterMap value?)

theorem value?_letter {n : ℕ} (h : n < 64) : value? (letter n) = some n := by
  have hall : ∀ n < 64, value? (letter n) = some n := by decide
  exact hall n h

/-- A letter is none of the other characters of the printed alphabet. -/
theorem letter_cases {n : ℕ} (h : n < 64) : (65 ≤ letter n ∧ letter n ≤ 90) ∨ (97 ≤ letter n ∧ letter n ≤ 122) ∨
    (48 ≤ letter n ∧ letter n ≤ 57) ∨ letter n = 45 ∨ letter n = 95 := by
  unfold letter
  split
  · omega
  · split
    · omega
    · split
      · omega
      · split <;> omega

theorem digits_lt (buffer : List Byte) : ∀ n ∈ digits buffer, n < 64 := by
  induction buffer using digits.induct with
  | case1 a b c rest ih =>
    intro n hn
    rw [digits] at hn
    have ha := a.isLt
    have hb := b.isLt
    have hc := c.isLt
    simp only [List.mem_cons] at hn
    rcases hn with rfl | rfl | rfl | rfl | hn
    · omega
    · omega
    · omega
    · omega
    · exact ih n hn
  | case2 a b =>
    intro n hn
    have ha := a.isLt
    have hb := b.isLt
    simp only [digits, List.mem_cons, List.not_mem_nil, or_false] at hn
    omega
  | case3 a =>
    intro n hn
    have ha := a.isLt
    simp only [digits, List.mem_cons, List.not_mem_nil, or_false] at hn
    omega
  | case4 => exact fun n hn => absurd hn List.not_mem_nil

theorem encode_lt {buffer : List Byte} {code : ℕ} (h : code ∈ encode buffer) : code < 128 := by
  obtain ⟨n, hn, rfl⟩ := List.mem_map.1 h
  have hcases := letter_cases (digits_lt buffer n hn)
  omega

theorem byte_of_val {a : Byte} {n : ℕ} (h : n = a.val) : Utf8.byte n = a := by
  subst h
  exact Fin.ext (Utf8.byte_val a.isLt)

theorem bytes_digits (buffer : List Byte) : bytes (digits buffer) = buffer := by
  induction buffer using digits.induct with
  | case1 a b c rest ih =>
    have ha := a.isLt
    have hb := b.isLt
    have hc := c.isLt
    rw [digits, bytes, ih, byte_of_val (a := a) (by omega), byte_of_val (a := b) (by omega),
      byte_of_val (a := c) (by omega)]
  | case2 a b =>
    have ha := a.isLt
    have hb := b.isLt
    rw [digits, bytes, byte_of_val (a := a) (by omega), byte_of_val (a := b) (by omega)]
  | case3 a =>
    have ha := a.isLt
    rw [digits, bytes, byte_of_val (a := a) (by omega)]
  | case4 => rfl

/-- What was written is read back. -/
theorem decode_encode (buffer : List Byte) : decode (encode buffer) = buffer := by
  have hlt := digits_lt buffer
  unfold decode encode
  have hwhole : ((digits buffer).map letter).takeWhile (· ≠ 61) = (digits buffer).map letter := by
    refine List.takeWhile_eq_self_iff.2 fun code hcode => ?_
    obtain ⟨n, hn, rfl⟩ := List.mem_map.1 hcode
    have hcases := letter_cases (hlt n hn)
    exact decide_eq_true (by omega)
  have hdigits : ((digits buffer).map letter).filterMap value? = digits buffer := by
    rw [List.filterMap_map]
    refine (List.filterMap_congr fun n hn => ?_).trans List.filterMap_some
    exact value?_letter (hlt n hn)
  rw [hwhole, hdigits, bytes_digits]

theorem encode_injective : Function.Injective encode := Function.LeftInverse.injective decode_encode

theorem length_digits (buffer : List Byte) : (digits buffer).length = (buffer.length * 4 + 2) / 3 := by
  induction buffer using digits.induct with
  | case1 a b c rest ih =>
    simp only [digits, List.length_cons, ih]
    omega
  | case2 a b => simp only [digits, List.length_cons, List.length_nil]
  | case3 a => simp only [digits, List.length_cons, List.length_nil]
  | case4 => rfl

theorem length_encode (buffer : List Byte) : (encode buffer).length = (buffer.length * 4 + 2) / 3 := by
  rw [encode, List.length_map, length_digits]

end CatalogSentinel.Data.Base64Url
