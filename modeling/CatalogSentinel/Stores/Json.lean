import Mathlib.Algebra.Order.Ring.Rat
import Mathlib.Data.List.Basic
import Mathlib.Data.Rat.Defs
import Mathlib.Tactic.Common

/-!
Values as `JSON.parse` gives them, and how the code reads them without having checked them:
properties that may be missing, values that count as false, values made into text, and the
errors of reading a property of nothing or of calling what is no function. `none` stands for
`undefined`.
-/

namespace CatalogSentinel.Stores

structure TypeError where
  deriving DecidableEq, Repr

/-- A number, with the text that `String` makes of it. -/
structure JsNumber where
  value : ℚ
  text : String
  deriving DecidableEq, Repr

inductive Json
  | null
  | bool (value : Bool)
  | num (value : JsNumber)
  | str (value : String)
  | arr (items : List Json)
  | obj (fields : List (String × Json))

namespace Json

def throw {α : Type} : Except TypeError α := .error ⟨⟩

/-- The property of a value that is there. -/
def field (name : String) : Json → Option Json
  | .obj fields => (fields.find? fun field => field.1 = name).map Prod.snd
  | _ => none

/-- `x.name`, an error for what is `null` or `undefined` -/
def read (name : String) : Option Json → Except TypeError (Option Json)
  | none | some .null => throw
  | some value => .ok (value.field name)

/-- `x?.name` -/
def readIf (name : String) : Option Json → Option Json
  | none | some .null => none
  | some value => value.field name

/-- `x?.[0]` -/
def firstIf : Option Json → Option Json
  | some (.arr items) => items.head?
  | some (.str value) => value.toList.head?.map fun ch => .str (String.singleton ch)
  | some (.obj fields) => (Json.obj fields).field "0"
  | _ => none

/-- `x ?? fallback` -/
def orElse (fallback : Json) : Option Json → Json
  | none | some .null => fallback
  | some value => value

/-- `x ?? y` -/
def orElseRead (value fallback : Option Json) : Option Json :=
  match value with
  | none | some .null => fallback
  | some value => some value

/-- Not `null` and not `undefined`. -/
def given : Option Json → Bool
  | none | some .null => false
  | some _ => true

def truthy : Option Json → Bool
  | none | some .null => false
  | some (.bool value) => value
  | some (.num value) => value.value ≠ 0
  | some (.str value) => value ≠ ""
  | some (.arr _) | some (.obj _) => true

mutual

/-- `String(x)` of a value that is there; an object's own `toString` is no function. -/
def text : Json → Except TypeError String
  | .null => .ok "null"
  | .bool value => .ok (if value then "true" else "false")
  | .num value => .ok value.text
  | .str value => .ok value
  | .arr items => (itemTexts items).map (String.intercalate ",")
  | .obj fields => if fields.any (·.1 = "toString") then throw else .ok "[object Object]"

/-- The texts that `join` puts together: `null` adds nothing. -/
def itemTexts : List Json → Except TypeError (List String)
  | [] => .ok []
  | .null :: items => (itemTexts items).map ("" :: ·)
  | item :: items => do return (← text item) :: (← itemTexts items)

end

mutual

/-- `JSON.stringify` writes the same text for both. -/
def same : Json → Json → Bool
  | .null, .null => true
  | .bool a, .bool b => a = b
  | .num a, .num b => a.text = b.text
  | .str a, .str b => a = b
  | .arr a, .arr b => sameItems a b
  | .obj a, .obj b => sameFields a b
  | _, _ => false

def sameItems : List Json → List Json → Bool
  | [], [] => true
  | a :: as, b :: bs => same a b && sameItems as bs
  | _, _ => false

def sameFields : List (String × Json) → List (String × Json) → Bool
  | [], [] => true
  | (name, a) :: as, (name', b) :: bs => name = name' && same a b && sameFields as bs
  | _, _ => false

end

/-- `String(x)` -/
def toText : Option Json → Except TypeError String
  | none => .ok "undefined"
  | some value => value.text

/-- The text on which a method is called that only texts have. -/
def asText : Option Json → Except TypeError String
  | some (.str value) => .ok value
  | _ => throw

/-- `x === text` -/
def isText (value : Option Json) (text : String) : Bool :=
  match value with
  | some (.str value) => value = text
  | _ => false

/-- `typeof x === 'number'` -/
def number? : Option Json → Option ℚ
  | some (.num value) => some value.value
  | _ => none

/-- What a method of arrays is called on. -/
def asArray : Option Json → Except TypeError (List Json)
  | some (.arr items) => .ok items
  | _ => throw

/-- `x ?? []` of a list, where an array is needed. -/
def rows (value : Option Json) : Except TypeError (List Json) :=
  if given value then asArray value else .ok []

/-- `for (const row of x ?? [])`: texts are gone through as well, by their characters. -/
def iterate : Option Json → Except TypeError (List Json)
  | none | some .null => .ok []
  | some (.arr items) => .ok items
  | some (.str value) => .ok (value.toList.map fun ch => .str (String.singleton ch))
  | some _ => throw

end Json

/-! ### Lists of which every row can be read -/

variable {α β σ ε : Type}

theorem mapM_ok {f : α → Except ε β} {g : α → β} {xs : List α} (h : ∀ x ∈ xs, f x = .ok (g x)) :
    xs.mapM f = .ok (xs.map g) := by
  induction xs with
  | nil => rfl
  | cons x xs ih =>
    rw [List.mapM_cons, h x List.mem_cons_self, ih fun z hz => h z (List.mem_cons_of_mem x hz)]
    rfl

theorem mapM_total {f : α → Except ε β} (xs : List α) (h : ∀ x ∈ xs, ∃ y, f x = .ok y) :
    ∃ ys, xs.mapM f = .ok ys ∧ ∀ y ∈ ys, ∃ x ∈ xs, f x = .ok y := by
  induction xs with
  | nil => exact ⟨[], rfl, fun y hy => absurd hy List.not_mem_nil⟩
  | cons x xs ih =>
    obtain ⟨y, hy⟩ := h x List.mem_cons_self
    obtain ⟨ys, hys, hmem⟩ := ih fun z hz => h z (List.mem_cons_of_mem x hz)
    refine ⟨y :: ys, by simp [List.mapM_cons, hy, hys, bind, Except.bind, pure, Except.pure], fun z hz => ?_⟩
    rcases List.mem_cons.1 hz with rfl | hz
    · exact ⟨x, List.mem_cons_self, hy⟩
    · obtain ⟨w, hw, hfw⟩ := hmem z hz
      exact ⟨w, List.mem_cons_of_mem x hw, hfw⟩

theorem foldlM_total {f : σ → α → Except ε σ} (xs : List α) (h : ∀ s, ∀ x ∈ xs, ∃ s', f s x = .ok s') (s : σ) :
    ∃ s', xs.foldlM f s = .ok s' := by
  induction xs generalizing s with
  | nil => exact ⟨s, rfl⟩
  | cons x xs ih =>
    obtain ⟨s', hs'⟩ := h s x List.mem_cons_self
    obtain ⟨s'', hs''⟩ := ih (fun s z hz => h s z (List.mem_cons_of_mem x hz)) s'
    exact ⟨s'', by simpa [List.foldlM_cons, hs', bind, Except.bind] using hs''⟩

namespace Json

/-- A text, or nothing. -/
def textOrNothing : Option Json → Bool
  | none | some .null | some (.str _) => true
  | some _ => false

/-- A text, or what counts as false. -/
def textOrFalse (value : Option Json) : Bool := !truthy value || (asText value).isOk

theorem read_ok {name : String} {value : Json} (h : given (some value) = true) :
    read name (some value) = .ok (value.field name) := by
  cases value with
  | null => simp [given] at h
  | bool | num | str | arr | obj => rfl

theorem exists_of_isOk {value : Except ε α} (h : value.isOk = true) : ∃ a, value = .ok a := by
  cases value with
  | error e => simp [Except.isOk, Except.toBool] at h
  | ok a => exact ⟨a, rfl⟩

end Json

end CatalogSentinel.Stores
