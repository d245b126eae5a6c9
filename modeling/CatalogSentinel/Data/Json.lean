import Mathlib.Data.Rat.Defs
import Mathlib.Data.List.Basic

/-!
Values as `JSON.parse` gives them, and their schemas. An object is its properties
in the order in which they are enumerated, and a number carries the text that
`String` makes of it. A schema says where a value breaks it.
-/

namespace CatalogSentinel.Data

structure JsNumber where
  value : ℚ
  text : String
  deriving DecidableEq, Repr

inductive Json
  | null
  | bool (value : Bool)
  | num (value : JsNumber)
  | str (value : String)
  | arr (items : List Json)
  | obj (fields : List (String × Json))

namespace Json

/-- A property, where the object has one of that name. -/
def property (name : String) (fields : List (String × Json)) : Option Json :=
  (fields.find? fun field => field.1 = name).map Prod.snd

def hasOwnAny (fields : List (String × Json)) (keys : List String) : Bool :=
  keys.any fun key => (property key fields).isSome

/-- Neither `undefined` nor `null`. -/
def isThere : Option Json → Bool
  | none | some .null => false
  | some _ => true

def isArray : Option Json → Bool
  | some (.arr _) => true
  | _ => false

def string? : Option Json → Option String
  | some (.str value) => some value
  | _ => none

def number? : Option Json → Option ℚ
  | some (.num value) => some value.value
  | _ => none

def items : Option Json → List Json
  | some (.arr items) => items
  | _ => []

def truthy : Json → Bool
  | .null => false
  | .bool value => value
  | .num value => value.value ≠ 0
  | .str value => value ≠ ""
  | .arr _ | .obj _ => true

/-! ### Schemas -/

/-- The paths of what breaks the schema, in the order in which it is checked. -/
abbrev Schema := List String → Option Json → List (List String)

namespace Schema

def ofType (accepts : Json → Bool) : Schema := fun path value =>
  if value.any accepts then [] else [path]

def string : Schema := ofType fun value => (string? (some value)).isSome

def number : Schema := ofType fun value => (number? (some value)).isSome

def optional (schema : Schema) : Schema := fun path value =>
  if value.isSome then schema path value else []

def nullish (schema : Schema) : Schema := fun path value =>
  if isThere value then schema path value else []

def array (schema : Schema) : Schema := fun path value =>
  if isArray value then
    (items value).zipIdx.flatMap fun (item, index) => schema (path ++ [toString index]) (some item)
  else [path]

def object (shape : List (String × Schema)) : Schema := fun path value =>
  match value with
  | some (.obj fields) =>
    shape.flatMap fun (name, schema) => schema (path ++ [name]) (property name fields)
  | _ => [path]

/-- A value that none of the schemas accepts breaks the union itself. -/
def union (schemas : List Schema) : Schema := fun path value =>
  if schemas.any fun schema => (schema path value).isEmpty then [] else [path]

end Schema

end Json

end CatalogSentinel.Data
