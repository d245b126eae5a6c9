import Mathlib.Data.List.Basic

/-!
The lexical grammar of GraphQL, in its edition of October 2021. A document is read token by
token, each as long as it can be; whitespace, line ends, commas, comments and the byte
order mark are ignored. Only what tells tokens apart is kept of them.
-/

namespace CatalogSentinel.Graphql

inductive Token
  | name (value : String)
  | punctuator (c : Char)
  | spread
  | number
  | string
  /-- With its text as it stands between the quotes. -/
  | blockString (raw : List Char)
  deriving DecidableEq, Repr

def isLetter (c : Char) : Bool := ('A' ≤ c && c ≤ 'Z') || ('a' ≤ c && c ≤ 'z')

def isDigit (c : Char) : Bool := '0' ≤ c && c ≤ '9'

def isNameStart (c : Char) : Bool := isLetter c || c = '_'

def isNameContinue (c : Char) : Bool := isLetter c || isDigit c || c = '_'

def isLineTerminator (c : Char) : Bool := c = '\n' || c = '\r'

def isIgnored (c : Char) : Bool :=
  c = '\t' || c = ' ' || isLineTerminator c || c = ',' || c = '\uFEFF'

def punctuators : List Char := ['!', '$', '&', '(', ')', ':', '=', '@', '[', ']', '{', '|', '}']

def isHexDigit (c : Char) : Bool := isDigit c || ('A' ≤ c && c ≤ 'F') || ('a' ≤ c && c ≤ 'f')

/-- What follows a string whose opening quote has been read. -/
def endString : List Char → Option (List Char)
  | [] => none
  | '"' :: rest => some rest
  | '\\' :: 'u' :: a :: b :: c :: d :: rest =>
    if isHexDigit a && isHexDigit b && isHexDigit c && isHexDigit d then endString rest else none
  | '\\' :: c :: rest =>
    if c ∈ ['"', '\\', '/', 'b', 'f', 'n', 'r', 't'] then endString rest else none
  | c :: rest => if c = '\\' || isLineTerminator c then none else endString rest

/-- A block string whose opening quotes have been read, and what follows it; `\"""` is its only
escape sequence. -/
def endBlock : List Char → Option (List Char × List Char)
  | [] => none
  | '"' :: '"' :: '"' :: rest => some ([], rest)
  | '\\' :: '"' :: '"' :: '"' :: rest =>
    (endBlock rest).map fun (raw, rest) => ('\\' :: '"' :: '"' :: '"' :: raw, rest)
  | c :: rest => (endBlock rest).map fun (raw, rest) => (c :: raw, rest)

def integerPart (text : List Char) : Option (List Char) :=
  let text := if text.head? = some '-' then text.tail else text
  match text with
  | [] => none
  | c :: rest =>
    if c = '0' then some rest else if isDigit c then some (rest.dropWhile isDigit) else none

/-- The fractional part, where there is one. -/
def fractionalPart : List Char → List Char
  | '.' :: c :: rest => if isDigit c then rest.dropWhile isDigit else '.' :: c :: rest
  | text => text

/-- The exponent part, where there is one. -/
def exponentPart (text : List Char) : List Char :=
  match text with
  | [] => []
  | e :: rest =>
    if e = 'e' || e = 'E' then
      let digits := if rest.head? = some '+' || rest.head? = some '-' then rest.tail else rest
      match digits with
      | [] => text
      | c :: rest => if isDigit c then rest.dropWhile isDigit else text
    else text

/-- No number is followed by a digit, a point or the start of a name. -/
def endNumber (text : List Char) : Option (List Char) := do
  let rest ← integerPart text
  let rest := exponentPart (fractionalPart rest)
  if rest.head?.any fun c => isDigit c || c = '.' || isNameStart c then none else some rest

def readToken : List Char → Option (Token × List Char)
  | [] => none
  | '"' :: '"' :: '"' :: rest => (endBlock rest).map fun (raw, rest) => (.blockString raw, rest)
  | '"' :: rest => (endString rest).map fun rest => (.string, rest)
  | '.' :: '.' :: '.' :: rest => some (.spread, rest)
  | c :: rest =>
    if c ∈ punctuators then some (.punctuator c, rest)
    else if isNameStart c then
      some (.name (String.ofList (c :: rest.takeWhile isNameContinue)), rest.dropWhile isNameContinue)
    else (endNumber (c :: rest)).map fun rest => (.number, rest)

/-- Reads from any point, with a step for each character at most. -/
def lexFrom : ℕ → List Char → Option (List Token)
  | _, [] => some []
  | 0, _ :: _ => none
  | n + 1, c :: rest =>
    if isIgnored c then lexFrom n rest
    else if c = '#' then lexFrom n (rest.dropWhile fun c => !isLineTerminator c)
    else do
      let (token, rest) ← readToken (c :: rest)
      return token :: (← lexFrom n rest)

def lex (text : String) : Option (List Token) := lexFrom text.toList.length text.toList

end CatalogSentinel.Graphql
