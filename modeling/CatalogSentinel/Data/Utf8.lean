import Mathlib.Data.List.Basic
import Mathlib.Tactic.Common

/-!
Text as bytes, and bytes as text. What is no text is read as replacement characters, one for each
longest beginning of a sequence.
-/

namespace CatalogSentinel.Data

abbrev Byte := Fin 256

instance Byte.neZero : @NeZero ℕ Zero.ofOfNat0 256 := ⟨by decide⟩

namespace Utf8

def byte (n : ℕ) : Byte := Fin.ofNat 256 n

def encodePoint (n : ℕ) : List Byte :=
  if n < 0x80 then [byte n]
  else if n < 0x800 then [byte (0xC0 + n / 0x40), byte (0x80 + n % 0x40)]
  else if n < 0x10000 then
    [byte (0xE0 + n / 0x1000), byte (0x80 + n / 0x40 % 0x40), byte (0x80 + n % 0x40)]
  else
    [byte (0xF0 + n / 0x40000), byte (0x80 + n / 0x1000 % 0x40), byte (0x80 + n / 0x40 % 0x40),
      byte (0x80 + n % 0x40)]

def encode (text : List Char) : List Byte := text.flatMap fun ch => encodePoint ch.toNat

/-- A sequence that has begun: how many bytes are missing, between which bounds the next one lies,
and what has been read of its code point. -/
structure Pending where
  missing : ℕ
  lower : ℕ
  upper : ℕ
  point : ℕ

def replacement : Char := Char.ofNat 0xFFFD

/-- A byte that nothing precedes is a character, or begins a sequence. -/
def first (b : Byte) : Char ⊕ Pending :=
  if b.val < 0x80 then .inl (Char.ofNat b)
  else if 0xC2 ≤ b.val ∧ b.val ≤ 0xDF then .inr ⟨1, 0x80, 0xBF, b - 0xC0⟩
  else if 0xE0 ≤ b.val ∧ b.val ≤ 0xEF then
    .inr ⟨2, if b.val = 0xE0 then 0xA0 else 0x80, if b.val = 0xED then 0x9F else 0xBF, b - 0xE0⟩
  else if 0xF0 ≤ b.val ∧ b.val ≤ 0xF4 then
    .inr ⟨3, if b.val = 0xF0 then 0x90 else 0x80, if b.val = 0xF4 then 0x8F else 0xBF, b - 0xF0⟩
  else .inl replacement

def Pending.next (p : Pending) (b : Byte) : Char ⊕ Pending :=
  if p.missing = 1 then .inl (Char.ofNat (p.point * 0x40 + b % 0x40))
  else .inr ⟨p.missing - 1, 0x80, 0xBF, p.point * 0x40 + b % 0x40⟩

def decodeFrom : Option Pending → List Byte → List Char
  | none, [] => []
  | some _, [] => [replacement]
  | none, b :: rest =>
    match first b with
    | .inl ch => ch :: decodeFrom none rest
    | .inr p => decodeFrom (some p) rest
  | some p, b :: rest =>
    if p.lower ≤ b.val ∧ b.val ≤ p.upper then
      match p.next b with
      | .inl ch => ch :: decodeFrom none rest
      | .inr p => decodeFrom (some p) rest
    else
      match first b with
      | .inl ch => replacement :: ch :: decodeFrom none rest
      | .inr p => replacement :: decodeFrom (some p) rest

def decode (bytes : List Byte) : List Char := decodeFrom none bytes

/-! ### Text is read back -/

theorem byte_val {n : ℕ} (h : n < 256) : (byte n).val = n := Nat.mod_eq_of_lt h

/-- A code point that is no surrogate. -/
def IsScalar (n : ℕ) : Prop := n < 0xD800 ∨ (0xDFFF < n ∧ n < 0x110000)

theorem isScalar_char (ch : Char) : IsScalar ch.toNat := ch.valid

theorem first_two {m : ℕ} (h : 2 ≤ m) (hm : m < 0x20) : first (byte (0xC0 + m)) = .inr ⟨1, 0x80, 0xBF, m⟩ := by
  unfold first
  rw [byte_val (by omega), if_neg (by omega), if_pos (by omega), Nat.add_sub_cancel_left]

theorem first_three {m : ℕ} (hm : m < 0x10) : first (byte (0xE0 + m)) =
    .inr ⟨2, if m = 0 then 0xA0 else 0x80, if m = 0xD then 0x9F else 0xBF, m⟩ := by
  have hzero : 0xE0 + m = 0xE0 ↔ m = 0 := by omega
  have hlast : 0xE0 + m = 0xED ↔ m = 0xD := by omega
  unfold first
  simp only [byte_val (show 0xE0 + m < 256 by omega), hzero, hlast, Nat.add_sub_cancel_left]
  rw [if_neg (by omega), if_neg (by omega), if_pos (by omega)]

theorem first_four {m : ℕ} (hm : m ≤ 4) : first (byte (0xF0 + m)) =
    .inr ⟨3, if m = 0 then 0x90 else 0x80, if m = 4 then 0x8F else 0xBF, m⟩ := by
  have hzero : 0xF0 + m = 0xF0 ↔ m = 0 := by omega
  have hlast : 0xF0 + m = 0xF4 ↔ m = 4 := by omega
  unfold first
  simp only [byte_val (show 0xF0 + m < 256 by omega), hzero, hlast, Nat.add_sub_cancel_left]
  rw [if_neg (by omega), if_neg (by omega), if_neg (by omega), if_pos (by omega)]

/-- The last byte of a sequence. -/
theorem decodeFrom_last {lower upper point m : ℕ} (rest : List Byte) (hm : m < 0x40) (hlower : lower ≤ 0x80 + m)
    (hupper : 0x80 + m ≤ upper) : decodeFrom (some ⟨1, lower, upper, point⟩) (byte (0x80 + m) :: rest) =
      Char.ofNat (point * 0x40 + m) :: decodeFrom none rest := by
  have hval := byte_val (show 0x80 + m < 256 by omega)
  have hmod : (0x80 + m) % 0x40 = m := by omega
  simp only [decodeFrom, hval, hlower, hupper, and_self, if_true, Pending.next, hmod]

/-- A byte that others follow. -/
theorem decodeFrom_next {k lower upper point m : ℕ} (rest : List Byte) (hm : m < 0x40)
    (hlower : lower ≤ 0x80 + m) (hupper : 0x80 + m ≤ upper) :
    decodeFrom (some ⟨k + 2, lower, upper, point⟩) (byte (0x80 + m) :: rest) =
      decodeFrom (some ⟨k + 1, 0x80, 0xBF, point * 0x40 + m⟩) rest := by
  have hval := byte_val (show 0x80 + m < 256 by omega)
  have hmod : (0x80 + m) % 0x40 = m := by omega
  simp only [decodeFrom, hval, hlower, hupper, and_self, if_true, Pending.next, hmod, Nat.reduceEqDiff,
    if_false, Nat.add_one_sub_one]

theorem decodeFrom_first {b : Byte} {p : Pending} (rest : List Byte) (h : first b = .inr p) :
    decodeFrom none (b :: rest) = decodeFrom (some p) rest := by
  rw [decodeFrom, h]

theorem decodeFrom_encodePoint {n : ℕ} (hn : IsScalar n) (rest : List Byte) :
    decodeFrom none (encodePoint n ++ rest) = Char.ofNat n :: decodeFrom none rest := by
  unfold IsScalar at hn
  unfold encodePoint
  split
  · rename_i hlt
    rw [List.cons_append, List.nil_append, decodeFrom, first, if_pos (by rw [byte_val (by omega)]; exact hlt),
      byte_val (by omega)]
  · split
    · have hpoint : n / 0x40 * 0x40 + n % 0x40 = n := by omega
      simp only [List.cons_append, List.nil_append]
      rw [decodeFrom_first _ (first_two (by omega) (by omega)),
        decodeFrom_last rest (by omega) (by omega) (by omega), hpoint]
    · split
      · have hpoint : (n / 0x1000 * 0x40 + n / 0x40 % 0x40) * 0x40 + n % 0x40 = n := by omega
        have hlower : (if n / 0x1000 = 0 then 0xA0 else 0x80) ≤ 0x80 + n / 0x40 % 0x40 := by
          split <;> omega
        have hupper : 0x80 + n / 0x40 % 0x40 ≤ if n / 0x1000 = 0xD then 0x9F else 0xBF := by
          split <;> omega
        simp only [List.cons_append, List.nil_append]
        rw [decodeFrom_first _ (first_three (by omega)), decodeFrom_next _ (by omega) hlower hupper,
          decodeFrom_last rest (by omega) (by omega) (by omega), hpoint]
      · have hpoint : ((n / 0x40000 * 0x40 + n / 0x1000 % 0x40) * 0x40 + n / 0x40 % 0x40) * 0x40 +
            n % 0x40 = n := by
          omega
        have hlower : (if n / 0x40000 = 0 then 0x90 else 0x80) ≤ 0x80 + n / 0x1000 % 0x40 := by
          split <;> omega
        have hupper : 0x80 + n / 0x1000 % 0x40 ≤ if n / 0x40000 = 4 then 0x8F else 0xBF := by
          split <;> omega
        simp only [List.cons_append, List.nil_append]
        rw [decodeFrom_first _ (first_four (by omega)), decodeFrom_next _ (by omega) hlower hupper,
          decodeFrom_next _ (by omega) (by omega) (by omega),
          decodeFrom_last rest (by omega) (by omega) (by omega), hpoint]

/-- What was text is read back. -/
theorem decode_encode (text : List Char) : decode (encode text) = text := by
  unfold decode encode
  induction text with
  | nil => rfl
  | cons ch text ih =>
    rw [List.flatMap_cons, decodeFrom_encodePoint (isScalar_char ch), Char.ofNat_toNat, ih]

theorem encode_injective : Function.Injective encode := Function.LeftInverse.injective decode_encode

/-! ### How many bytes -/

theorem length_encodePoint_ascii {n : ℕ} (h : n < 0x80) : (encodePoint n).length = 1 := by
  rw [encodePoint, if_pos h, List.length_singleton]

theorem length_encodePoint_basic {n : ℕ} (h : n < 0x10000) : (encodePoint n).length ≤ 3 := by
  unfold encodePoint
  split
  · exact Nat.le_add_left 1 2
  · split
    · exact Nat.le_add_left 2 1
    · exact Nat.le_refl 3

theorem length_encodePoint_le (n : ℕ) : (encodePoint n).length ≤ 4 := by
  by_cases h : n < 0x10000
  · exact Nat.le_succ_of_le (length_encodePoint_basic h)
  · rw [encodePoint, if_neg (by omega), if_neg (by omega), if_neg h]
    exact Nat.le_refl 4

theorem encode_cons (ch : Char) (text : List Char) : encode (ch :: text) = encodePoint ch.toNat ++ encode text :=
  List.flatMap_cons

theorem encode_append (text more : List Char) : encode (text ++ more) = encode text ++ encode more :=
  List.flatMap_append

theorem length_encode_ascii {text : List Char} (h : ∀ ch ∈ text, ch.toNat < 0x80) :
    (encode text).length = text.length := by
  induction text with
  | nil => rfl
  | cons ch text ih =>
    rw [encode_cons, List.length_append, length_encodePoint_ascii (h ch List.mem_cons_self),
      ih fun other hother => h other (List.mem_cons_of_mem ch hother), List.length_cons, Nat.add_comm]

end Utf8

end CatalogSentinel.Data
