import Mathlib.Data.List.Lex
import Mathlib.Order.Fin.Basic
import Mathlib.Tactic.Common

/-!
Strings as sequences of code units of sixteen bits, whether or not the surrogates among them
are paired.
-/

namespace CatalogSentinel.Data

abbrev CodeUnit := Fin 65536

instance CodeUnit.neZero : @NeZero ℕ Zero.ofOfNat0 65536 := ⟨by decide⟩

abbrev Utf16 := List CodeUnit

namespace Utf16

def unit (n : ℕ) : CodeUnit := Fin.ofNat 65536 n

/-- A character beyond the basic plane is a pair of surrogates. -/
def ofChar (ch : Char) : Utf16 :=
  if ch.toNat < 0x10000 then [unit ch.toNat]
  else [unit (0xD800 + (ch.toNat - 0x10000) / 0x400), unit (0xDC00 + (ch.toNat - 0x10000) % 0x400)]

def ofString (s : String) : Utf16 := s.toList.flatMap ofChar

theorem ofString_append (s t : String) : ofString (s ++ t) = ofString s ++ ofString t := by
  simp [ofString]

/-! ### As characters -/

def isHigh (u : CodeUnit) : Bool := 0xD800 ≤ u.val && u.val ≤ 0xDBFF

def isLow (u : CodeUnit) : Bool := 0xDC00 ≤ u.val && u.val ≤ 0xDFFF

/-- A unit that is part of no pair; a surrogate becomes the replacement character. -/
def single (u : CodeUnit) : Char :=
  if isHigh u || isLow u then Char.ofNat 0xFFFD else Char.ofNat u

def pair (u v : CodeUnit) : Char := Char.ofNat (0x10000 + (u - 0xD800) * 0x400 + (v - 0xDC00))

def toChars : Utf16 → List Char
  | u :: v :: rest => if isHigh u && isLow v then pair u v :: toChars rest else single u :: toChars (v :: rest)
  | [u] => [single u]
  | [] => []

/-! ### Characters and units -/

theorem unit_val {n : ℕ} (h : n < 65536) : (unit n).val = n := Nat.mod_eq_of_lt h

theorem unit_of_val {u : CodeUnit} {n : ℕ} (h : n = u.val) : unit n = u := by
  subst h
  exact Fin.ext (unit_val u.isLt)

theorem ofNat_toNat {n : ℕ} (h : n.isValidChar) : (Char.ofNat n).toNat = n := by
  rw [Char.ofNat, dif_pos h]
  rfl

theorem single_toNat {u : CodeUnit} (hhigh : isHigh u = false) (hlow : isLow u = false) :
    (single u).toNat = u.val := by
  have hlt := u.isLt
  have hsingle : single u = Char.ofNat u := by
    unfold single
    rw [hhigh, hlow]
    rfl
  simp only [isHigh, isLow, Bool.and_eq_false_iff, decide_eq_false_iff_not] at hhigh hlow
  have hvalid : u.val.isValidChar := by
    unfold Nat.isValidChar
    omega
  rw [hsingle, ofNat_toNat hvalid]

theorem ofChar_single {u : CodeUnit} (hhigh : isHigh u = false) (hlow : isLow u = false) :
    ofChar (single u) = [u] := by
  rw [ofChar, single_toNat hhigh hlow, if_pos u.isLt, unit_of_val rfl]

/-- A pair is a character beyond the basic plane. -/
theorem pair_toNat {u v : CodeUnit} (hhigh : isHigh u = true) (hlow : isLow v = true) :
    (pair u v).toNat = 0x10000 + (u.val - 0xD800) * 0x400 + (v.val - 0xDC00) := by
  simp only [isHigh, isLow, Bool.and_eq_true, decide_eq_true_eq] at hhigh hlow
  have hvalid : (0x10000 + (u.val - 0xD800) * 0x400 + (v.val - 0xDC00)).isValidChar := by
    unfold Nat.isValidChar
    omega
  exact ofNat_toNat hvalid

theorem ofChar_pair {u v : CodeUnit} (hhigh : isHigh u = true) (hlow : isLow v = true) :
    ofChar (pair u v) = [u, v] := by
  have hnat := pair_toNat hhigh hlow
  simp only [isHigh, isLow, Bool.and_eq_true, decide_eq_true_eq] at hhigh hlow
  unfold ofChar
  rw [hnat, if_neg (by omega), unit_of_val (u := u) (by omega), unit_of_val (u := v) (by omega)]

/-- Each unit on its own is one unit again, though it may be another. -/
theorem length_ofChar_single (u : CodeUnit) : (ofChar (single u)).length = 1 := by
  cases hhigh : isHigh u with
  | false =>
    cases hlow : isLow u with
    | false => rw [ofChar_single hhigh hlow, List.length_singleton]
    | true =>
      have hsingle : single u = Char.ofNat 0xFFFD := by
        unfold single
        rw [hlow, Bool.or_true]
        rfl
      rw [hsingle]
      rfl
  | true =>
    have hsingle : single u = Char.ofNat 0xFFFD := by
      unfold single
      rw [hhigh]
      rfl
    rw [hsingle]
    rfl

theorem length_toChars (s : Utf16) : ((toChars s).flatMap ofChar).length = s.length := by
  induction s using toChars.induct with
  | case1 u v rest hpair ih =>
    obtain ⟨hhigh, hlow⟩ := Bool.and_eq_true_iff.1 hpair
    rw [toChars, if_pos hpair, List.flatMap_cons, List.length_append, ofChar_pair hhigh hlow, ih]
    simp only [List.length_cons, List.length_nil]
    omega
  | case2 u v rest hpair ih =>
    rw [toChars, if_neg hpair, List.flatMap_cons, List.length_append, length_ofChar_single, ih,
      List.length_cons (a := u), Nat.add_comm]
  | case3 u =>
    rw [toChars, List.flatMap_cons, List.length_append, length_ofChar_single]
    rfl
  | case4 => rfl

/-- Units that are no surrogates stand for themselves, whatever follows. -/
theorem toChars_append {plain : Utf16} (hplain : ∀ u ∈ plain, isHigh u = false) (s : Utf16) :
    toChars (plain ++ s) = plain.map single ++ toChars s := by
  induction plain with
  | nil => rfl
  | cons u plain ih =>
    have hu := hplain u List.mem_cons_self
    have hrest := ih fun v hv => hplain v (List.mem_cons_of_mem _ hv)
    rw [List.cons_append, List.map_cons, List.cons_append, ← hrest]
    cases hnext : plain ++ s with
    | nil => rfl
    | cons v rest =>
      rw [toChars, if_neg (by rw [hu]; exact Bool.false_ne_true)]

/-- What was a character is one, whatever follows. -/
theorem toChars_ofChar (ch : Char) (s : Utf16) : toChars (ofChar ch ++ s) = ch :: toChars s := by
  have hvalid : ch.toNat < 0xD800 ∨ (0xDFFF < ch.toNat ∧ ch.toNat < 0x110000) := ch.valid
  unfold ofChar
  split
  · rename_i hbasic
    have hval := unit_val hbasic
    have hhigh : isHigh (unit ch.toNat) = false := by
      rw [isHigh, hval, Bool.and_eq_false_iff, decide_eq_false_iff_not, decide_eq_false_iff_not]
      omega
    have hlow : isLow (unit ch.toNat) = false := by
      rw [isLow, hval, Bool.and_eq_false_iff, decide_eq_false_iff_not, decide_eq_false_iff_not]
      omega
    have hsingle : single (unit ch.toNat) = ch := by
      rw [← Char.toNat_inj, single_toNat hhigh hlow, hval]
    have hplain : ∀ u ∈ [unit ch.toNat], isHigh u = false := fun u hu => List.mem_singleton.1 hu ▸ hhigh
    rw [toChars_append hplain, List.map_singleton, hsingle, List.singleton_append]
  · have hfirst : (unit (0xD800 + (ch.toNat - 0x10000) / 0x400)).val = 0xD800 + (ch.toNat - 0x10000) / 0x400 :=
      unit_val (by omega)
    have hsecond : (unit (0xDC00 + (ch.toNat - 0x10000) % 0x400)).val = 0xDC00 + (ch.toNat - 0x10000) % 0x400 :=
      unit_val (by omega)
    have hhigh : isHigh (unit (0xD800 + (ch.toNat - 0x10000) / 0x400)) = true := by
      rw [isHigh, hfirst, Bool.and_eq_true, decide_eq_true_eq, decide_eq_true_eq]
      omega
    have hlow : isLow (unit (0xDC00 + (ch.toNat - 0x10000) % 0x400)) = true := by
      rw [isLow, hsecond, Bool.and_eq_true, decide_eq_true_eq, decide_eq_true_eq]
      omega
    have hpair : pair (unit (0xD800 + (ch.toNat - 0x10000) / 0x400))
        (unit (0xDC00 + (ch.toNat - 0x10000) % 0x400)) = ch := by
      rw [← Char.toNat_inj, pair_toNat hhigh hlow, hfirst, hsecond]
      omega
    rw [List.cons_append, List.singleton_append, toChars, if_pos (Bool.and_eq_true_iff.2 ⟨hhigh, hlow⟩), hpair]

theorem toChars_ofString (text : String) (s : Utf16) : toChars (ofString text ++ s) = text.toList ++ toChars s := by
  unfold ofString
  induction text.toList with
  | nil => rfl
  | cons ch chars ih => rw [List.flatMap_cons, List.append_assoc, toChars_ofChar, ih, List.cons_append]

end Utf16

end CatalogSentinel.Data
