import Mathlib.Data.List.Basic

/-! Texts, as the language trims them and chooses between them. -/

namespace CatalogSentinel.Data

/-- The code points that `/\s/` matches and `String.prototype.trim` strips. -/
def isJsSpace (c : Char) : Bool :=
  c.toNat ∈ [0x9, 0xA, 0xB, 0xC, 0xD, 0x20, 0xA0, 0x1680, 0x2028, 0x2029, 0x202F, 0x205F, 0x3000,
    0xFEFF] || (0x2000 ≤ c.toNat && c.toNat ≤ 0x200A)

theorem isJsSpace_of_graphic {c : Char} (hlow : 33 ≤ c.toNat) (hhigh : c.toNat ≤ 126) :
    isJsSpace c = false := by
  simp only [isJsSpace, List.mem_cons, List.not_mem_nil, or_false, Bool.or_eq_false_iff,
    decide_eq_false_iff_not, Bool.and_eq_false_iff]
  omega

/-- `!text.trim()` -/
def isBlank (text : String) : Bool := text.toList.all isJsSpace

/-- A sequence without its spaces at either end. -/
def trimBy {α : Type} (isSpace : α → Bool) (text : List α) : List α :=
  ((text.dropWhile isSpace).reverse.dropWhile isSpace).reverse

def trim (text : String) : String := String.ofList (trimBy isJsSpace text.toList)

/-- `value || other`: the empty text gives way. -/
def orElse {α : Type} [Inhabited α] [DecidableEq α] (value other : α) : α :=
  if value = default then other else value

end CatalogSentinel.Data
