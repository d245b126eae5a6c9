import CatalogSentinel.Data.Utf16
import CatalogSentinel.Data.Utf8
import Mathlib.Data.Rat.Defs
import Mathlib.Algebra.Order.Field.Rat

/-!
JSON as text. Texts are characters: a surrogate that is part of no pair is escaped when it is written.
The strings in a value are code units, paired or not, and its numbers are exact.
-/

namespace CatalogSentinel.Data.JsonText

inductive Value
  | null
  | bool (value : Bool)
  | num (value : ℚ)
  | str (value : Utf16)
  | arr (items : List Value)
  | obj (fields : List (Utf16 × Value))

/-! ### Writing -/

/-- The letter that stands for a unit after a backslash. -/
def shortEscape? (code : ℕ) : Option Char :=
  if code = 0x08 then some 'b'
  else if code = 0x09 then some 't'
  else if code = 0x0A then some 'n'
  else if code = 0x0C then some 'f'
  else if code = 0x0D then some 'r'
  else if code = 0x22 then some '\x22'
  else if code = 0x5C then some '\x5c'
  else none

def hexLetter (n : ℕ) : Char := if n < 10 then Char.ofNat (48 + n) else Char.ofNat (87 + n)

/-- A unit that is part of no pair. -/
def writeUnit (u : CodeUnit) : List Char :=
  match shortEscape? u with
  | some letter => ['\x5c', letter]
  | none =>
    if u.val < 0x20 || Utf16.isHigh u || Utf16.isLow u then
      ['\x5c', 'u', hexLetter (u / 0x1000), hexLetter (u / 0x100 % 0x10), hexLetter (u / 0x10 % 0x10),
        hexLetter (u % 0x10)]
    else [Utf16.single u]

def writeUnits : Utf16 → List Char
  | u :: v :: rest =>
    if Utf16.isHigh u && Utf16.isLow v then Utf16.pair u v :: writeUnits rest
    else writeUnit u ++ writeUnits (v :: rest)
  | [u] => writeUnit u
  | [] => []

/-- `JSON.stringify(s)` -/
def quote (s : Utf16) : List Char := '\x22' :: (writeUnits s ++ ['\x22'])

/-- `JSON.stringify` of an object whose values have been written. -/
def writeObject (fields : List (Utf16 × List Char)) : List Char :=
  '\x7b' :: ([','].intercalate (fields.map fun field => quote field.1 ++ ':' :: field.2) ++ ['\x7d'])

/-! ### Reading strings -/

def escape? (letter : Char) : Option ℕ :=
  if letter = 'b' then some 0x08
  else if letter = 't' then some 0x09
  else if letter = 'n' then some 0x0A
  else if letter = 'f' then some 0x0C
  else if letter = 'r' then some 0x0D
  else if letter = '\x22' then some 0x22
  else if letter = '\x5c' then some 0x5C
  else if letter = '/' then some 0x2F
  else none

def hexDigit? (letter : Char) : Option ℕ :=
  let code := letter.toNat
  if 48 ≤ code ∧ code ≤ 57 then some (code - 48)
  else if 97 ≤ code ∧ code ≤ 102 then some (code - 87)
  else if 65 ≤ code ∧ code ≤ 70 then some (code - 55)
  else none

def readHex : List Char → Option (ℕ × List Char)
  | a :: b :: c :: d :: rest => do
    let a ← hexDigit? a
    let b ← hexDigit? b
    let c ← hexDigit? c
    let d ← hexDigit? d
    return (((a * 0x10 + b) * 0x10 + c) * 0x10 + d, rest)
  | _ => none

def readEscape : List Char → Option (ℕ × List Char)
  | [] => none
  | letter :: rest =>
    match escape? letter with
    | some code => some (code, rest)
    | none => if letter = 'u' then readHex rest else none

/-- The units of one character of a string, or none where it ends. -/
def readUnit : List Char → Option (Option Utf16 × List Char)
  | [] => none
  | ch :: rest =>
    if ch = '\x22' then some (none, rest)
    else if ch = '\x5c' then (readEscape rest).map fun r => (some [Utf16.unit r.1], r.2)
    else if ch.toNat < 0x20 then none
    else some (some (Utf16.ofChar ch), rest)

def readString : ℕ → List Char → Option (Utf16 × List Char)
  | 0, _ => none
  | fuel + 1, text =>
    match readUnit text with
    | none => none
    | some (none, rest) => some ([], rest)
    | some (some units, rest) => (readString fuel rest).map fun r => (units ++ r.1, r.2)

/-! ### Reading numbers -/

def digitsOf (digits : List Char) : ℕ := Nat.ofDigitChars 10 digits 0

/-- `0`, or digits of which the first is none. -/
def readInteger (text : List Char) : Option (ℕ × List Char) :=
  match text with
  | '0' :: rest => some (0, rest)
  | _ =>
    let digits := text.takeWhile Char.isDigit
    if digits = [] then none else some (digitsOf digits, text.drop digits.length)

/-- What a fraction adds. -/
def readFraction (text : List Char) : Option (ℚ × List Char) :=
  match text with
  | '.' :: rest =>
    let digits := rest.takeWhile Char.isDigit
    if digits = [] then none
    else some ((digitsOf digits : ℚ) / 10 ^ digits.length, rest.drop digits.length)
  | _ => some (0, text)

/-- What an exponent multiplies by. -/
def readExponent (text : List Char) : Option (ℚ × List Char) :=
  match text with
  | e :: rest =>
    if e = 'e' ∨ e = 'E' then
      let signed := rest.head? = some '+' ∨ rest.head? = some '-'
      let rest' := if signed then rest.drop 1 else rest
      let digits := rest'.takeWhile Char.isDigit
      if digits = [] then none
      else if rest.head? = some '-' then some (1 / 10 ^ digitsOf digits, rest'.drop digits.length)
      else some (10 ^ digitsOf digits, rest'.drop digits.length)
    else some (1, text)
  | [] => some (1, text)

def readNumber (text : List Char) : Option (ℚ × List Char) := do
  let negative := text.head? = some '-'
  let (whole, rest) ← readInteger (if negative then text.drop 1 else text)
  let (fraction, rest) ← readFraction rest
  let (power, rest) ← readExponent rest
  return ((if negative then -1 else 1) * ((whole + fraction) * power), rest)

/-! ### Reading values -/

def isSpace (ch : Char) : Bool := ch = ' ' || ch = '\t' || ch = '\n' || ch = '\r'

def skip (text : List Char) : List Char := text.dropWhile isSpace

/-- What follows this character. -/
def expect (ch : Char) (text : List Char) : Option (List Char) :=
  match skip text with
  | [] => none
  | c :: rest => if c = ch then some rest else none

def readLiteral (text : List Char) : Option (Value × List Char) :=
  if "null".toList.isPrefixOf text then some (.null, text.drop 4)
  else if "true".toList.isPrefixOf text then some (.bool true, text.drop 4)
  else if "false".toList.isPrefixOf text then some (.bool false, text.drop 5)
  else (readNumber text).map fun r => (.num r.1, r.2)

mutual

def readValue : ℕ → List Char → Option (Value × List Char)
  | 0, _ => none
  | fuel + 1, text =>
    match skip text with
    | [] => none
    | ch :: rest =>
      if ch = '\x22' then (readString fuel rest).map fun r => (.str r.1, r.2)
      else if ch = '\x7b' then
        match expect '\x7d' rest with
        | some rest' => some (.obj [], rest')
        | none => (readMembers fuel rest).map fun r => (.obj r.1, r.2)
      else if ch = '[' then
        match expect ']' rest with
        | some rest' => some (.arr [], rest')
        | none => (readElements fuel rest).map fun r => (.arr r.1, r.2)
      else readLiteral (ch :: rest)

def readMembers : ℕ → List Char → Option (List (Utf16 × Value) × List Char)
  | 0, _ => none
  | fuel + 1, text => do
    let rest ← expect '\x22' text
    let (key, rest) ← readString fuel rest
    let rest ← expect ':' rest
    let (value, rest) ← readValue fuel rest
    match expect ',' rest with
    | some rest => (readMembers fuel rest).map fun r => ((key, value) :: r.1, r.2)
    | none => (expect '\x7d' rest).map fun rest => ([(key, value)], rest)

def readElements : ℕ → List Char → Option (List Value × List Char)
  | 0, _ => none
  | fuel + 1, text => do
    let (value, rest) ← readValue fuel text
    match expect ',' rest with
    | some rest => (readElements fuel rest).map fun r => (value :: r.1, r.2)
    | none => (expect ']' rest).map fun rest => ([value], rest)

end

/-- `JSON.parse(text)`. Every two steps read a character. -/
def parse (text : List Char) : Option Value :=
  match readValue (2 * text.length + 2) text with
  | some (value, rest) => if skip rest = [] then some value else none
  | none => none

/-! ### What was written is read back -/

theorem escape?_of_shortEscape? {code : ℕ} {letter : Char} (h : shortEscape? code = some letter) :
    escape? letter = some code := by
  unfold shortEscape? at h
  split_ifs at h with h8 h9 hA hC hD h22 h5C <;> cases h <;> subst_vars <;> rfl

theorem hexDigit?_hexLetter {n : ℕ} (h : n < 16) : hexDigit? (hexLetter n) = some n := by
  have hall : ∀ n < 16, hexDigit? (hexLetter n) = some n := by decide
  exact hall n h

theorem readUnit_backslash (text : List Char) :
    readUnit ('\x5c' :: text) = (readEscape text).map fun r => (some [Utf16.unit r.1], r.2) := by
  rw [readUnit, if_neg (by decide), if_pos rfl]

theorem readUnit_plain {ch : Char} (hcode : 0x20 ≤ ch.toNat) (hquote : ch.toNat ≠ 0x22)
    (hbackslash : ch.toNat ≠ 0x5C) (rest : List Char) :
    readUnit (ch :: rest) = some (some (Utf16.ofChar ch), rest) := by
  have hne : ∀ other : Char, ch.toNat ≠ other.toNat → ch ≠ other := fun other h hch => h (hch ▸ rfl)
  rw [readUnit, if_neg (hne '\x22' hquote), if_neg (hne '\x5c' hbackslash), if_neg (by omega)]

theorem readHex_hexLetters {n : ℕ} (h : n < 65536) (rest : List Char) :
    readHex (hexLetter (n / 0x1000) :: hexLetter (n / 0x100 % 0x10) :: hexLetter (n / 0x10 % 0x10) ::
      hexLetter (n % 0x10) :: rest) = some (n, rest) := by
  rw [readHex, hexDigit?_hexLetter (by omega), hexDigit?_hexLetter (by omega), hexDigit?_hexLetter (by omega),
    hexDigit?_hexLetter (by omega)]
  show some (((n / 0x1000 * 0x10 + n / 0x100 % 0x10) * 0x10 + n / 0x10 % 0x10) * 0x10 + n % 0x10, rest) = _
  rw [show ((n / 0x1000 * 0x10 + n / 0x100 % 0x10) * 0x10 + n / 0x10 % 0x10) * 0x10 + n % 0x10 = n by omega]

/-- A unit that is not written as half of a pair. -/
theorem readUnit_writeUnit (u : CodeUnit) (rest : List Char) :
    readUnit (writeUnit u ++ rest) = some (some [u], rest) := by
  unfold writeUnit
  cases hshort : shortEscape? u with
  | some letter =>
    have hread : readEscape (letter :: rest) = some (u.val, rest) := by
      rw [readEscape, escape?_of_shortEscape? hshort]
    show readUnit ('\x5c' :: letter :: rest) = _
    rw [readUnit_backslash, hread, Option.map_some, Utf16.unit_of_val rfl]
  | none =>
    dsimp only
    split
    · show readUnit ('\x5c' :: 'u' :: _ :: _ :: _ :: _ :: rest) = _
      have hescape : escape? 'u' = none := by decide
      rw [readUnit_backslash, readEscape, hescape]
      dsimp only
      rw [if_pos rfl, readHex_hexLetters u.isLt, Option.map_some, Utf16.unit_of_val rfl]
    · rename_i hplain
      simp only [Bool.or_eq_true, decide_eq_true_eq, not_or, Bool.not_eq_true] at hplain
      obtain ⟨⟨hcode, hhigh⟩, hlow⟩ := hplain
      have hchars := Utf16.ofChar_single hhigh hlow
      have hnat : (Utf16.single u).toNat = u.val := Utf16.single_toNat hhigh hlow
      have hquote : u.val ≠ 0x22 := by
        intro h
        rw [h] at hshort
        cases hshort
      have hbackslash : u.val ≠ 0x5C := by
        intro h
        rw [h] at hshort
        cases hshort
      show readUnit (Utf16.single u :: rest) = _
      rw [readUnit_plain (by omega) (by omega) (by omega), hchars]

theorem readUnit_pair {u v : CodeUnit} (hhigh : Utf16.isHigh u = true) (hlow : Utf16.isLow v = true)
    (rest : List Char) : readUnit (Utf16.pair u v :: rest) = some (some [u, v], rest) := by
  have hnat := Utf16.pair_toNat hhigh hlow
  rw [readUnit_plain (by omega) (by omega) (by omega), Utf16.ofChar_pair hhigh hlow]

/-- A string is read back, with a step of fuel for each of its units. -/
theorem readString_writeUnits (s : Utf16) {fuel : ℕ} (hfuel : s.length < fuel) (rest : List Char) :
    readString fuel (writeUnits s ++ '\x22' :: rest) = some (s, rest) := by
  induction s using writeUnits.induct generalizing fuel with
  | case1 u v tail hpair ih =>
    obtain ⟨hhigh, hlow⟩ := Bool.and_eq_true_iff.1 hpair
    simp only [List.length_cons] at hfuel
    obtain ⟨fuel, rfl⟩ := Nat.exists_eq_succ_of_ne_zero (show fuel ≠ 0 by omega)
    rw [writeUnits, if_pos hpair, List.cons_append, readString, readUnit_pair hhigh hlow]
    dsimp only
    rw [ih (by omega), Option.map_some]
    rfl
  | case2 u v tail hpair ih =>
    simp only [List.length_cons] at hfuel
    obtain ⟨fuel, rfl⟩ := Nat.exists_eq_succ_of_ne_zero (show fuel ≠ 0 by omega)
    rw [writeUnits, if_neg hpair, List.append_assoc, readString, readUnit_writeUnit]
    dsimp only
    rw [ih (by rw [List.length_cons]; omega), Option.map_some]
    rfl
  | case3 u =>
    simp only [List.length_cons, List.length_nil] at hfuel
    obtain ⟨fuel, rfl⟩ := Nat.exists_eq_succ_of_ne_zero (show fuel ≠ 0 by omega)
    obtain ⟨fuel, rfl⟩ := Nat.exists_eq_succ_of_ne_zero (show fuel ≠ 0 by omega)
    rw [writeUnits, readString, readUnit_writeUnit]
    rfl
  | case4 =>
    obtain ⟨fuel, rfl⟩ := Nat.exists_eq_succ_of_ne_zero (Nat.ne_of_gt hfuel)
    rfl

theorem length_le_writeUnits (s : Utf16) : s.length ≤ 2 * (writeUnits s).length := by
  have hunit : ∀ u, 1 ≤ (writeUnit u).length := fun u => by
    unfold writeUnit
    split
    · simp only [List.length_cons, List.length_nil]
      omega
    · split <;> simp only [List.length_cons, List.length_nil] <;> omega
  induction s using writeUnits.induct with
  | case1 u v tail hpair ih =>
    rw [writeUnits, if_pos hpair]
    simp only [List.length_cons]
    omega
  | case2 u v tail hpair ih =>
    have hu := hunit u
    rw [writeUnits, if_neg hpair, List.length_append]
    simp only [List.length_cons] at ih ⊢
    omega
  | case3 u =>
    have hu := hunit u
    simp only [writeUnits, List.length_cons, List.length_nil]
    omega
  | case4 => exact Nat.zero_le _

/-! ### How many bytes are written -/

theorem shortEscape?_ascii {code : ℕ} {letter : Char} (h : shortEscape? code = some letter) :
    letter.toNat < 0x80 := by
  unfold shortEscape? at h
  split_ifs at h <;> cases h <;> decide

theorem hexLetter_ascii {n : ℕ} (h : n < 16) : (hexLetter n).toNat < 0x80 := by
  have hall : ∀ n < 16, (hexLetter n).toNat < 0x80 := by decide
  exact hall n h

theorem length_encode_writeUnit (u : CodeUnit) : (Utf8.encode (writeUnit u)).length ≤ 6 := by
  have hu := u.isLt
  unfold writeUnit
  cases hshort : shortEscape? u with
  | some letter =>
    have hletter := shortEscape?_ascii hshort
    have hascii : ∀ ch ∈ ['\x5c', letter], ch.toNat < 0x80 := by
      intro ch hch
      rcases List.mem_pair.1 hch with rfl | rfl
      · decide
      · exact hletter
    rw [Utf8.length_encode_ascii hascii]
    exact Nat.le_add_left 2 4
  | none =>
    dsimp only
    split
    · have hascii : ∀ ch ∈ ['\x5c', 'u', hexLetter (u / 0x1000), hexLetter (u / 0x100 % 0x10),
          hexLetter (u / 0x10 % 0x10), hexLetter (u % 0x10)], ch.toNat < 0x80 := by
        intro ch hch
        simp only [List.mem_cons, List.not_mem_nil, or_false] at hch
        rcases hch with rfl | rfl | rfl | rfl | rfl | rfl
        · decide
        · decide
        · exact hexLetter_ascii (by omega)
        · exact hexLetter_ascii (by omega)
        · exact hexLetter_ascii (by omega)
        · exact hexLetter_ascii (by omega)
      exact Nat.le_of_eq (Utf8.length_encode_ascii hascii)
    · rw [Utf8.encode_cons, List.length_append]
      have hpoint := Utf8.length_encodePoint_le (Utf16.single u).toNat
      exact Nat.le_trans (Nat.add_le_add_right hpoint _) (by decide)

/-- Six bytes for a unit at most. -/
theorem length_encode_writeUnits (s : Utf16) : (Utf8.encode (writeUnits s)).length ≤ 6 * s.length := by
  induction s using writeUnits.induct with
  | case1 u v tail hpair ih =>
    have hpoint := Utf8.length_encodePoint_le (Utf16.pair u v).toNat
    rw [writeUnits, if_pos hpair, Utf8.encode_cons, List.length_append]
    simp only [List.length_cons]
    omega
  | case2 u v tail hpair ih =>
    have hunit := length_encode_writeUnit u
    rw [writeUnits, if_neg hpair, Utf8.encode_append, List.length_append]
    simp only [List.length_cons] at ih ⊢
    omega
  | case3 u => exact length_encode_writeUnit u
  | case4 => exact Nat.zero_le _

/-- A unit that is written as it is, in one byte. -/
def Plain (u : CodeUnit) : Prop := 0x20 ≤ u.val ∧ u.val < 0x80 ∧ u.val ≠ 0x22 ∧ u.val ≠ 0x5C

theorem Plain.notHigh {u : CodeUnit} (h : Plain u) : Utf16.isHigh u = false := by
  unfold Plain at h
  rw [Utf16.isHigh, Bool.and_eq_false_iff, decide_eq_false_iff_not]
  omega

theorem Plain.notLow {u : CodeUnit} (h : Plain u) : Utf16.isLow u = false := by
  unfold Plain at h
  rw [Utf16.isLow, Bool.and_eq_false_iff, decide_eq_false_iff_not]
  omega

theorem writeUnit_plain {u : CodeUnit} (h : Plain u) : writeUnit u = [Utf16.single u] := by
  have hshort : shortEscape? u = none := by
    unfold Plain at h
    rw [shortEscape?, if_neg (by omega), if_neg (by omega), if_neg (by omega), if_neg (by omega), if_neg (by omega),
      if_neg (by omega), if_neg (by omega)]
  have hcode : ¬ u.val < 0x20 := Nat.not_lt.2 h.1
  unfold writeUnit
  rw [hshort, h.notHigh, h.notLow, Bool.or_false, Bool.or_false]
  exact if_neg fun hlt => hcode (of_decide_eq_true hlt)

theorem length_encode_plain {s : Utf16} (h : ∀ u ∈ s, Plain u) :
    (Utf8.encode (writeUnits s)).length = s.length := by
  have hwritten : writeUnits s = s.map Utf16.single := by
    induction s using writeUnits.induct with
    | case1 u v tail hpair ih =>
      rw [(h u List.mem_cons_self).notHigh] at hpair
      cases hpair
    | case2 u v tail hpair ih =>
      rw [writeUnits, if_neg hpair, writeUnit_plain (h u List.mem_cons_self),
        ih fun w hw => h w (List.mem_cons_of_mem u hw)]
      rfl
    | case3 u => exact writeUnit_plain (h u List.mem_cons_self)
    | case4 => rfl
  have hascii : ∀ ch ∈ s.map Utf16.single, ch.toNat < 0x80 := by
    intro ch hch
    obtain ⟨u, hu, rfl⟩ := List.mem_map.1 hch
    rw [Utf16.single_toNat (h u hu).notHigh (h u hu).notLow]
    exact (h u hu).2.1
  rw [hwritten, Utf8.length_encode_ascii hascii, List.length_map]

/-! ### Objects -/

/-- What may follow a value among the members of an object. -/
def Follows (rest : List Char) : Prop := ∃ tail, rest = ',' :: tail ∨ rest = '\x7d' :: tail

/-- This text is read as this value wherever it is a member's. -/
def Reads (text : List Char) (value : Value) : Prop :=
  ∀ (fuel : ℕ) (rest : List Char), 2 * text.length ≤ fuel → Follows rest →
    readValue fuel (text ++ rest) = some (value, rest)

theorem skip_cons {ch : Char} (hch : isSpace ch = false) (rest : List Char) : skip (ch :: rest) = ch :: rest := by
  rw [skip, List.dropWhile_cons, hch]
  rfl

theorem expect_cons {ch : Char} (hch : isSpace ch = false) (rest : List Char) : expect ch (ch :: rest) = some rest := by
  rw [expect, skip_cons hch]
  exact if_pos rfl

theorem expect_other {ch other : Char} (hch : isSpace ch = false) (hne : ch ≠ other) (rest : List Char) :
    expect other (ch :: rest) = none := by
  rw [expect, skip_cons hch]
  exact if_neg hne

theorem reads_quote (s : Utf16) : Reads (quote s) (.str s) := by
  intro fuel rest hfuel _
  have hlength := length_le_writeUnits s
  simp only [quote, List.length_cons, List.length_append, List.length_nil] at hfuel
  obtain ⟨fuel, rfl⟩ := Nat.exists_eq_succ_of_ne_zero (show fuel ≠ 0 by omega)
  rw [quote, List.cons_append, readValue, skip_cons (by decide)]
  dsimp only
  rw [if_pos rfl, List.append_assoc, List.cons_append, List.nil_append,
    readString_writeUnits s (by omega), Option.map_some]

theorem reads_one : Reads ['1'] (.num 1) := by
  intro fuel rest hfuel hrest
  simp only [List.length_cons, List.length_nil] at hfuel
  obtain ⟨fuel, rfl⟩ := Nat.exists_eq_succ_of_ne_zero (show fuel ≠ 0 by omega)
  have hone : ((1 : ℚ) * (((1 : ℕ) + 0) * 1)) = 1 := by
    rw [Nat.cast_one, add_zero, mul_one, mul_one]
  obtain ⟨tail, rfl | rfl⟩ := hrest
  · show some (Value.num (1 * (((1 : ℕ) + 0) * 1)), ',' :: tail) = _
    rw [hone]
  · show some (Value.num (1 * (((1 : ℕ) + 0) * 1)), '\x7d' :: tail) = _
    rw [hone]

/-- A member of an object: its key, its written value and that value. -/
structure Member where
  key : Utf16
  text : List Char
  value : Value
  reads : Reads text value

def Member.written (m : Member) : Utf16 × List Char := (m.key, m.text)

def Member.field (m : Member) : Utf16 × Value := (m.key, m.value)

/-- A key, and then the value. -/
theorem readMembers_member (m : Member) {fuel : ℕ} {rest : List Char}
    (hfuel : 2 * (quote m.key ++ ':' :: m.text).length ≤ fuel) (hrest : Follows rest) :
    readMembers (fuel + 1) (quote m.key ++ ':' :: (m.text ++ rest)) =
      match expect ',' rest with
      | some rest => (readMembers fuel rest).map fun r => (m.field :: r.1, r.2)
      | none => (expect '\x7d' rest).map fun rest => ([m.field], rest) := by
  have hlength := length_le_writeUnits m.key
  simp only [quote, List.length_cons, List.length_append, List.length_nil] at hfuel
  have hkey : readString fuel (writeUnits m.key ++ '\x22' :: ':' :: (m.text ++ rest)) =
      some (m.key, ':' :: (m.text ++ rest)) :=
    readString_writeUnits m.key (by omega) _
  have hvalue := m.reads fuel rest (by omega) hrest
  rw [readMembers, quote, List.cons_append, List.append_assoc, List.cons_append, List.nil_append,
    expect_cons (by decide)]
  simp only [Option.bind_eq_bind, Option.bind_some, hkey, expect_cons (show isSpace ':' = false by decide), hvalue]
  rfl

theorem readMembers_writeObject (m : Member) (more : List Member) {fuel : ℕ} (rest : List Char)
    (hfuel : 2 * ([','].intercalate (((m :: more).map Member.written).map
      fun field => quote field.1 ++ ':' :: field.2)).length < fuel) :
    readMembers fuel ([','].intercalate (((m :: more).map Member.written).map
      fun field => quote field.1 ++ ':' :: field.2) ++ '\x7d' :: rest) = some ((m :: more).map Member.field, rest) := by
  induction more generalizing m fuel with
  | nil =>
    simp only [List.map_cons, List.map_nil, List.intercalate_singleton, Member.written] at hfuel ⊢
    obtain ⟨fuel, rfl⟩ := Nat.exists_eq_succ_of_ne_zero (show fuel ≠ 0 by omega)
    rw [List.append_assoc, List.cons_append, readMembers_member m (by omega) ⟨rest, Or.inr rfl⟩,
      expect_other (by decide) (by decide), expect_cons (by decide)]
    rfl
  | cons next more ih =>
    simp only [List.map_cons, List.intercalate_cons_cons, Member.written, List.length_append] at hfuel ih ⊢
    obtain ⟨fuel, rfl⟩ := Nat.exists_eq_succ_of_ne_zero (show fuel ≠ 0 by omega)
    rw [List.append_assoc, List.append_assoc, List.append_assoc, List.cons_append, List.singleton_append,
      readMembers_member m (by simp only [List.length_append, List.length_cons] at hfuel ⊢; omega) ⟨_, Or.inl rfl⟩,
      expect_cons (by decide)]
    dsimp only
    rw [ih next (by rw [List.length_singleton] at hfuel; omega), Option.map_some]

/-- An object that was written is read back. -/
theorem parse_writeObject (m : Member) (more : List Member) :
    parse (writeObject ((m :: more).map Member.written)) = some (.obj ((m :: more).map Member.field)) := by
  have hread := fun fuel => @readMembers_writeObject m more fuel []
  unfold parse writeObject
  generalize hmembers : [','].intercalate (((m :: more).map Member.written).map
    fun field => quote field.1 ++ ':' :: field.2) = members at hread
  have hnonempty : ∃ tail, members = '\x22' :: tail := by
    subst hmembers
    cases more with
    | nil => exact ⟨_, by rw [List.map_cons, List.map_nil, List.map_cons, List.map_nil, List.intercalate_singleton]; rfl⟩
    | cons next more => exact ⟨_, by simp only [List.map_cons, List.intercalate_cons_cons]; rfl⟩
  obtain ⟨tail, rfl⟩ := hnonempty
  rw [readValue, skip_cons (by decide)]
  dsimp only
  rw [if_neg (by decide), if_pos rfl, List.cons_append, expect_other (by decide) (by decide)]
  dsimp only
  rw [← List.cons_append, hread _ (by simp only [List.length_cons, List.length_append, List.length_nil]; omega)]
  rfl

end CatalogSentinel.Data.JsonText
