import CatalogSentinel.Data.Json
import CatalogSentinel.Distrokid.Metadata
import CatalogSentinel.Graphql.Document

/-!
The read-only guard of the browser: which requests it blocks, and the document scanner by
which it tells a GraphQL query from anything else. The scanner is called with enough steps:
no token and no definition is empty.
-/

namespace CatalogSentinel.Guard

open CatalogSentinel.Data
open CatalogSentinel.Graphql (OperationType Operation operationType isNameStart isNameContinue)

/-! ### Tokens -/

inductive TokenKind
  | name | punct | literal
  deriving DecidableEq, Repr

structure GraphqlToken where
  kind : TokenKind
  value : String
  deriving DecidableEq, Repr

/-- What follows a string whose opening quote has been read. -/
def closeString : List Char → Option (List Char)
  | [] => none
  | '"' :: rest => some rest
  | '\\' :: _ :: rest => closeString rest
  | _ :: rest => closeString rest

/-- What follows a block string whose opening quotes have been read. -/
def closeBlock : List Char → Option (List Char)
  | [] => none
  | '"' :: '"' :: '"' :: rest => some rest
  | '\\' :: _ :: rest => closeBlock rest
  | _ :: rest => closeBlock rest

def closeLiteral : List Char → Option (List Char)
  | '"' :: '"' :: rest => closeBlock rest
  | rest => closeString rest

def puncts : List Char := ['!', '$', '(', ')', ':', '=', '@', '[', ']', '{', '}', '|', '&', '.']

def startsNumber (c : Char) : Bool := c = '+' || Graphql.isDigit c || c = '-'

def continuesNumber (c : Char) : Bool := startsNumber c || c = '.' || c = 'e' || c = 'E'

def tokenizeFrom : ℕ → List Char → Option (List GraphqlToken)
  | _, [] => some []
  | 0, _ :: _ => none
  | n + 1, char :: rest =>
    if isJsSpace char || char = ',' then tokenizeFrom n rest
    else if char = '#' then tokenizeFrom n (rest.dropWhile fun c => c ≠ '\n' && c ≠ '\r')
    else if char = '"' then do
      let rest ← closeLiteral rest
      return ⟨.literal, "<string>"⟩ :: (← tokenizeFrom n rest)
    else if isNameStart char then do
      let value := String.ofList (char :: rest.takeWhile isNameContinue)
      return ⟨.name, value⟩ :: (← tokenizeFrom n (rest.dropWhile isNameContinue))
    else if char ∈ puncts then do
      return ⟨.punct, String.ofList [char]⟩ :: (← tokenizeFrom n rest)
    else if startsNumber char then do
      let value := String.ofList (char :: rest.takeWhile continuesNumber)
      return ⟨.literal, value⟩ :: (← tokenizeFrom n (rest.dropWhile continuesNumber))
    else none

def tokenizeGraphql (source : String) : Option (List GraphqlToken) :=
  tokenizeFrom source.toList.length source.toList

/-! ### Operations -/

def valueIs (value : String) (t : GraphqlToken) : Bool := t.value = value

def startsWith (value : String) (tokens : List GraphqlToken) : Bool := tokens.head?.any (valueIs value)

/-- What follows the bracket that closes the first token. -/
def skipBalanced (tokens : List GraphqlToken) (opening closing : String) : Option (List GraphqlToken) :=
  if startsWith opening tokens then Brackets.skip (valueIs opening) (valueIs closing) 0 tokens else none

/-- Arguments or variables may be left out. -/
def skipParens (tokens : List GraphqlToken) : Option (List GraphqlToken) :=
  if startsWith "(" tokens then skipBalanced tokens "(" ")" else some tokens

def skipDirectives : ℕ → List GraphqlToken → Option (List GraphqlToken)
  | 0, _ => none
  | n + 1, tokens =>
    if startsWith "@" tokens then
      match tokens with
      | _ :: ⟨.name, _⟩ :: rest => do skipDirectives n (← skipParens rest)
      | _ => none
    else some tokens

/-- The selection set after the directives. -/
def skipSelection (tokens : List GraphqlToken) : Option (List GraphqlToken) := do
  skipBalanced (← skipDirectives (tokens.length + 1) tokens) "\x7b" "\x7d"

def optionalName : List GraphqlToken → Option String × List GraphqlToken
  | ⟨.name, value⟩ :: rest => (some value, rest)
  | tokens => (none, tokens)

def parseDefinition (tokens : List GraphqlToken) : Option (Option Operation × List GraphqlToken) :=
  match tokens with
  | [] => none
  | token :: rest =>
    if token.value = "\x7b" then do return (some ⟨.query, none⟩, ← skipBalanced tokens "\x7b" "\x7d")
    else if token.kind ≠ .name then none
    else if token.value = "fragment" then
      match rest with
      | ⟨.name, _⟩ :: on :: ⟨.name, _⟩ :: rest =>
        if on.value = "on" then do return (none, ← skipSelection rest) else none
      | _ => none
    else do
      let type ← operationType token.value
      let found := optionalName rest
      return (some ⟨type, found.1⟩, ← skipSelection (← skipParens found.2))

def parseFrom : ℕ → List GraphqlToken → Option (List Operation)
  | _, [] => some []
  | 0, _ :: _ => none
  | n + 1, token :: rest => do
    let (operation, rest) ← parseDefinition (token :: rest)
    return operation.toList ++ (← parseFrom n rest)

def parseGraphqlOperations (source : String) : Option (List Operation) := do
  let tokens ← tokenizeGraphql source
  parseFrom tokens.length tokens

/-! ### Enough steps -/

theorem closeString_length {text rest : List Char} (h : closeString text = some rest) :
    rest.length < text.length := by
  fun_induction closeString text with
  | case1 => cases h
  | case2 rest' =>
    rw [← Option.some.inj h]
    exact Nat.lt_succ_self _
  | case3 c rest' ih => exact (ih h).trans (Nat.lt_add_of_pos_right Nat.two_pos)
  | case4 c rest' _ _ ih => exact (ih h).trans (Nat.lt_succ_self _)

theorem closeBlock_length {text rest : List Char} (h : closeBlock text = some rest) :
    rest.length < text.length := by
  fun_induction closeBlock text with
  | case1 => cases h
  | case2 rest' =>
    rw [← Option.some.inj h]
    simp only [List.length_cons]
    omega
  | case3 c rest' ih => exact (ih h).trans (Nat.lt_add_of_pos_right Nat.two_pos)
  | case4 c rest' _ _ ih => exact (ih h).trans (Nat.lt_succ_self _)

theorem closeLiteral_length {text rest : List Char} (h : closeLiteral text = some rest) :
    rest.length < text.length := by
  unfold closeLiteral at h
  split at h
  · exact (closeBlock_length h).trans (Nat.lt_add_of_pos_right Nat.two_pos)
  · exact closeString_length h

theorem dropWhile_length (p : Char → Bool) (text : List Char) : (text.dropWhile p).length ≤ text.length :=
  (List.dropWhile_sublist p).length_le

/-- More steps change nothing: every token and all that is ignored takes a character at least. -/
theorem tokenizeFrom_enough {n m : ℕ} {text : List Char} (hn : text.length ≤ n) (hm : text.length ≤ m) :
    tokenizeFrom n text = tokenizeFrom m text := by
  induction n generalizing m text with
  | zero =>
    rw [List.length_eq_zero_iff.1 (Nat.le_zero.1 hn)]
    cases m <;> rfl
  | succ n ih =>
    cases text with
    | nil => cases m <;> rfl
    | cons char rest =>
      cases m with
      | zero => cases hm
      | succ m =>
        have hn' : rest.length ≤ n := Nat.le_of_succ_le_succ hn
        have hm' : rest.length ≤ m := Nat.le_of_succ_le_succ hm
        have hdrop : ∀ p : Char → Bool, tokenizeFrom n (rest.dropWhile p) = tokenizeFrom m (rest.dropWhile p) :=
          fun p => ih ((dropWhile_length p rest).trans hn') ((dropWhile_length p rest).trans hm')
        have hclose : ∀ rest', closeLiteral rest = some rest' → tokenizeFrom n rest' = tokenizeFrom m rest' := by
          intro rest' hrest
          have hlength := closeLiteral_length hrest
          exact ih (by omega) (by omega)
        simp only [tokenizeFrom, ih hn' hm', hdrop]
        cases hliteral : closeLiteral rest with
        | none => rfl
        | some rest' => simp only [Option.bind_eq_bind, Option.bind_some, hclose rest' hliteral]

theorem skipBalanced_length {tokens rest : List GraphqlToken} {opening closing : String}
    (h : skipBalanced tokens opening closing = some rest) : rest.length < tokens.length := by
  unfold skipBalanced at h
  split at h
  · exact Brackets.skip_length h
  · cases h

theorem skipParens_length {tokens rest : List GraphqlToken} (h : skipParens tokens = some rest) :
    rest.length ≤ tokens.length := by
  unfold skipParens at h
  split at h
  · exact (skipBalanced_length h).le
  · rw [Option.some.inj h]

theorem skipDirectives_length {n : ℕ} {tokens rest : List GraphqlToken}
    (h : skipDirectives n tokens = some rest) : rest.length ≤ tokens.length := by
  induction n generalizing tokens with
  | zero => cases h
  | succ n ih =>
    dsimp only [skipDirectives] at h
    split at h
    · split at h
      · obtain ⟨mid, hmid, h⟩ := Option.bind_eq_some_iff.1 h
        have hlength := skipParens_length hmid
        have hrest := ih h
        rw [List.length_cons, List.length_cons]
        omega
      · cases h
    · rw [Option.some.inj h]

theorem skipSelection_length {tokens rest : List GraphqlToken} (h : skipSelection tokens = some rest) :
    rest.length < tokens.length := by
  obtain ⟨mid, hmid, h⟩ := Option.bind_eq_some_iff.1 h
  exact (skipBalanced_length h).trans_le (skipDirectives_length hmid)

theorem optionalName_length (tokens : List GraphqlToken) : (optionalName tokens).2.length ≤ tokens.length := by
  unfold optionalName
  split
  · exact Nat.le_succ _
  · exact le_rfl

/-- No definition is empty. -/
theorem parseDefinition_length {tokens rest : List GraphqlToken} {operation : Option Operation}
    (h : parseDefinition tokens = some (operation, rest)) : rest.length < tokens.length := by
  unfold parseDefinition at h
  split at h
  · cases h
  · split at h
    · obtain ⟨rest', hrest, h⟩ := Option.bind_eq_some_iff.1 h
      cases h
      exact skipBalanced_length hrest
    · split at h
      · cases h
      · split at h
        · split at h
          · split at h
            · obtain ⟨rest', hrest, h⟩ := Option.bind_eq_some_iff.1 h
              cases h
              have := skipSelection_length hrest
              simp only [List.length_cons]
              omega
            · cases h
          · cases h
        · rename_i token more _ _ _
          obtain ⟨type, _, h⟩ := Option.bind_eq_some_iff.1 h
          obtain ⟨mid, hmid, h⟩ := Option.bind_eq_some_iff.1 h
          obtain ⟨rest', hrest, h⟩ := Option.bind_eq_some_iff.1 h
          cases h
          have hname := optionalName_length more
          have hparens := skipParens_length hmid
          have hselection := skipSelection_length hrest
          rw [List.length_cons]
          omega

/-- More steps change nothing. -/
theorem parseFrom_enough {n m : ℕ} {tokens : List GraphqlToken} (hn : tokens.length ≤ n)
    (hm : tokens.length ≤ m) : parseFrom n tokens = parseFrom m tokens := by
  induction n generalizing m tokens with
  | zero =>
    rw [List.length_eq_zero_iff.1 (Nat.le_zero.1 hn)]
    cases m <;> rfl
  | succ n ih =>
    cases tokens with
    | nil => cases m <;> rfl
    | cons token rest =>
      cases m with
      | zero => cases hm
      | succ m =>
        rw [parseFrom, parseFrom]
        cases hdefinition : parseDefinition (token :: rest) with
        | none => rfl
        | some found =>
          have hlength : found.2.length < (token :: rest).length := parseDefinition_length hdefinition
          have heq : parseFrom n found.2 = parseFrom m found.2 := ih (by omega) (by omega)
          change (do return found.1.toList ++ (← parseFrom n found.2)) =
            do return found.1.toList ++ (← parseFrom m found.2)
          rw [heq]

/-! ### Requests -/

/-- The upper case of a character, where it has no letters beyond A to Z. -/
def upperCase (c : Char) : List Char :=
  if c = 'ı' then ['I']
  else if c = 'ſ' then ['S']
  else if c = 'ß' then ['S', 'S']
  else if c = 'ﬀ' then ['F', 'F']
  else if c = 'ﬁ' then ['F', 'I']
  else if c = 'ﬂ' then ['F', 'L']
  else if c = 'ﬃ' then ['F', 'F', 'I']
  else if c = 'ﬄ' then ['F', 'F', 'L']
  else if c = 'ﬅ' || c = 'ﬆ' then ['S', 'T']
  else [c.toUpper]

def toUpperCase (s : String) : List Char := s.toList.flatMap upperCase

def mutationMethods : List (List Char) :=
  ["POST".toList, "PUT".toList, "PATCH".toList, "DELETE".toList]

/-- An expression of words only finds one of them, in either case. -/
def contains (words : List String) (url : String) : Bool :=
  (url.toList.map Char.toLower).tails.any fun text => words.any fun word => word.toList.isPrefixOf text

def mutationPathWords : List String :=
  ["delete", "remove", "takedown", "take-down", "update", "edit", "create", "add", "upload",
    "store/add", "store/select", "store/update", "stores/add", "stores/select", "stores/update",
    "move", "transfer", "publish", "unpublish", "withdraw", "takedowns", "deliver", "redeliver"]

def authAllowWords : List String :=
  ["signin", "sign-in", "login", "log-in", "auth", "session", "oauth", "token", "captcha",
    "challenge", "cdn-cgi", "recaptcha", "turnstile"]

def isGraphqlEndpoint (url : String) : Bool :=
  (url.toList.map Char.toLower).tails.any fun text =>
    "/graphql".toList.isPrefixOf text && (text.drop 8).head?.all (· ∈ ['/', '?', '#'])

/-- A property of a value that is not `null`. -/
def bodyProperty (name : String) : Json → Option Json
  | .obj fields => Json.property name fields
  | _ => none

/-- The operation name of a body, unless it is empty. -/
def operationName (body : Json) : Option String :=
  (Json.string? (bodyProperty "operationName" body)).filter (· ≠ "")

variable (parseJson : String → Option Json)

/-- `JSON.parse` gives no value where it throws. -/
def isExplicitReadQuery (url : String) (postData : Option String) : Bool :=
  if !isGraphqlEndpoint url then false
  else
    match postData.filter (· ≠ "") with
    | none => false
    | some postData =>
      match parseJson postData with
      | none => false
      | some body =>
        match Json.string? (bodyProperty "query" body) with
        | none => false
        | some query =>
          if isBlank query then false
          else
            match parseGraphqlOperations query with
            | none | some [] => false
            | some operations =>
              match operationName body with
              | some selectedName =>
                let selected := operations.filter fun operation => operation.name = some selectedName
                selected.length = 1 && selected.head?.any (·.type = .query)
              | none => operations.length = 1 && operations.head?.any (·.type = .query)

def shouldBlockRequest (method url : String) (extractionMode : Bool) (postData : Option String) : Bool :=
  let upper := toUpperCase method
  if upper ∉ mutationMethods then false
  else
    let looksLikeMutation := contains mutationPathWords url
    let isAuth := contains authAllowWords url
    if extractionMode then
      if upper ≠ "POST".toList then true
      else if isGraphqlEndpoint url then !isExplicitReadQuery parseJson url postData
      else looksLikeMutation
    else looksLikeMutation && !isAuth

end CatalogSentinel.Guard
