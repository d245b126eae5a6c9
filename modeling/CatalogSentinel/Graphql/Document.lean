import CatalogSentinel.Data.Brackets
import CatalogSentinel.Graphql.Lexer

/-!
The grammar of executable GraphQL documents, in its edition of October 2021, and the
operation that a request selects. What is read of an operation is its type and name; what
the grammar wraps in brackets is balanced.
-/

namespace CatalogSentinel.Graphql

open CatalogSentinel.Data

/-! ### The grammar -/

/-- The parts of a definition; what comes in a list is read with the bracket that closes it. -/
inductive Part
  | value (const : Bool)
  | values (const : Bool)
  | objectFields (const : Bool)
  | arguments (const : Bool)
  | moreArguments (const : Bool)
  | directives (const : Bool)
  | type
  | variableDefinitions
  | variableDefinition
  | moreVariableDefinitions
  | defaultValue
  | selectionSet
  | optionalSelectionSet
  | selection
  | moreSelections
  deriving DecidableEq, Repr

/-- A type may be non-null. -/
def afterType : List Token → List Token
  | .punctuator '!' :: rest => rest
  | ts => ts

/-- What follows the part, read with so many steps at most. -/
def parse : ℕ → Part → List Token → Option (List Token)
  | 0, _, _ => none
  | n + 1, .value const, ts =>
    match ts with
    | .punctuator '$' :: .name _ :: rest => if const then none else some rest
    | .number :: rest | .string :: rest | .blockString _ :: rest | .name _ :: rest => some rest
    | .punctuator '[' :: rest => parse n (.values const) rest
    | .punctuator '{' :: rest => parse n (.objectFields const) rest
    | _ => none
  | n + 1, .values const, ts =>
    match ts with
    | .punctuator ']' :: rest => some rest
    | ts => do parse n (.values const) (← parse n (.value const) ts)
  | n + 1, .objectFields const, ts =>
    match ts with
    | .punctuator '}' :: rest => some rest
    | .name _ :: .punctuator ':' :: rest => do parse n (.objectFields const) (← parse n (.value const) rest)
    | _ => none
  | n + 1, .arguments const, ts =>
    match ts with
    | .punctuator '(' :: .name _ :: .punctuator ':' :: rest => do
      parse n (.moreArguments const) (← parse n (.value const) rest)
    | .punctuator '(' :: _ => none
    | ts => some ts
  | n + 1, .moreArguments const, ts =>
    match ts with
    | .punctuator ')' :: rest => some rest
    | .name _ :: .punctuator ':' :: rest => do parse n (.moreArguments const) (← parse n (.value const) rest)
    | _ => none
  | n + 1, .directives const, ts =>
    match ts with
    | .punctuator '@' :: .name _ :: rest => do parse n (.directives const) (← parse n (.arguments const) rest)
    | ts => some ts
  | n + 1, .type, ts =>
    match ts with
    | .name _ :: rest => some (afterType rest)
    | .punctuator '[' :: rest => do
      match ← parse n .type rest with
      | .punctuator ']' :: rest => some (afterType rest)
      | _ => none
    | _ => none
  | n + 1, .variableDefinitions, ts =>
    match ts with
    | .punctuator '(' :: rest => do parse n .moreVariableDefinitions (← parse n .variableDefinition rest)
    | ts => some ts
  | n + 1, .variableDefinition, ts =>
    match ts with
    | .punctuator '$' :: .name _ :: .punctuator ':' :: rest => do
      parse n (.directives true) (← parse n .defaultValue (← parse n .type rest))
    | _ => none
  | n + 1, .moreVariableDefinitions, ts =>
    match ts with
    | .punctuator ')' :: rest => some rest
    | ts => do parse n .moreVariableDefinitions (← parse n .variableDefinition ts)
  | n + 1, .defaultValue, ts =>
    match ts with
    | .punctuator '=' :: rest => parse n (.value true) rest
    | ts => some ts
  | n + 1, .selectionSet, ts =>
    match ts with
    | .punctuator '{' :: rest => do parse n .moreSelections (← parse n .selection rest)
    | _ => none
  | n + 1, .optionalSelectionSet, ts =>
    match ts with
    | .punctuator '{' :: rest => do parse n .moreSelections (← parse n .selection rest)
    | ts => some ts
  | n + 1, .selection, ts =>
    match ts with
    | .name _ :: .punctuator ':' :: .name _ :: rest | .name _ :: rest => do
      parse n .optionalSelectionSet (← parse n (.directives false) (← parse n (.arguments false) rest))
    | .spread :: .name v :: rest =>
      if v = "on" then
        match rest with
        | .name _ :: rest => do parse n .selectionSet (← parse n (.directives false) rest)
        | _ => none
      else parse n (.directives false) rest
    | .spread :: rest => do parse n .selectionSet (← parse n (.directives false) rest)
    | _ => none
  | n + 1, .moreSelections, ts =>
    match ts with
    | .punctuator '}' :: rest => some rest
    | ts => do parse n .moreSelections (← parse n .selection ts)

inductive OperationType
  | query | mutation | subscription
  deriving DecidableEq, Repr

structure Operation where
  type : OperationType
  name : Option String
  deriving DecidableEq, Repr

def operationType (keyword : String) : Option OperationType :=
  if keyword = "query" then some .query
  else if keyword = "mutation" then some .mutation
  else if keyword = "subscription" then some .subscription
  else none

def optionalName : List Token → Option String × List Token
  | .name v :: rest => (some v, rest)
  | ts => (none, ts)

/-- A definition, with its operation if it is not a fragment. -/
def parseDefinition (n : ℕ) (ts : List Token) : Option (Option Operation × List Token) :=
  match ts with
  | .punctuator '{' :: _ => do return (some ⟨.query, none⟩, ← parse n .selectionSet ts)
  | .name keyword :: rest =>
    if keyword = "fragment" then
      match rest with
      | .name v :: .name on :: .name _ :: rest =>
        if v ≠ "on" ∧ on = "on" then do
          return (none, ← parse n .selectionSet (← parse n (.directives false) rest))
        else none
      | _ => none
    else do
      let type ← operationType keyword
      let found := optionalName rest
      let rest ← parse n .variableDefinitions found.2
      return (some ⟨type, found.1⟩, ← parse n .selectionSet (← parse n (.directives false) rest))
  | _ => none

/-- The operations of all definitions, each read with `n` steps at most. -/
def parseDefinitions (n : ℕ) : ℕ → List Token → Option (List Operation)
  | _, [] => some []
  | 0, _ :: _ => none
  | k + 1, t :: ts => do
    let (operation, rest) ← parseDefinition n (t :: ts)
    return operation.toList ++ (← parseDefinitions n k rest)

/-- The text is an executable document with these operations, in their order. -/
def IsDocument (text : String) (operations : List Operation) : Prop :=
  ∃ ts n, lex text = some ts ∧ ts ≠ [] ∧ parseDefinitions n ts.length ts = some operations

/-- The operation that is executed: the one of the name, or the only one if no name is given. -/
def Selects (operations : List Operation) (operationName : Option String) (operation : Operation) : Prop :=
  match operationName with
  | some name => operation ∈ operations ∧ operation.name = some name
  | none => operations = [operation]

/-! ### Brackets -/

/-- The two kinds of brackets that are counted. -/
inductive Bracket
  | paren | brace
  deriving DecidableEq, Repr

def Bracket.open : Bracket → Char
  | paren => '('
  | brace => '{'

def Bracket.close : Bracket → Char
  | paren => ')'
  | brace => '}'

def isOpen (b : Bracket) (t : Token) : Bool := t = .punctuator b.open

def isClose (b : Bracket) (t : Token) : Bool := t = .punctuator b.close

/-- Of neither kind does the text change the count. -/
def Neutral (text : List Token) : Prop := ∀ b, Brackets.Neutral (isOpen b) (isClose b) text

/-- Anything but one of the brackets. -/
def IsPlain (t : Token) : Prop := ∀ b, isOpen b t = false ∧ isClose b t = false

theorem neutral_nil : Neutral [] := fun _ => Brackets.neutral_nil

theorem Neutral.append {text more : List Token} (h : Neutral text) (h' : Neutral more) :
    Neutral (text ++ more) := fun b => (h b).append (h' b)

theorem Neutral.cons {t : Token} {text : List Token} (h : Neutral text) (ht : IsPlain t) :
    Neutral (t :: text) := fun b => (h b).cons (ht b).1 (ht b).2

theorem Neutral.group {inner : List Token} (h : Neutral inner) (b : Bracket) :
    Neutral (.punctuator b.open :: (inner ++ [.punctuator b.close])) := by
  intro b'
  by_cases hb : b' = b
  · subst hb
    refine (h b').group (decide_eq_true rfl) ?_ (decide_eq_true rfl)
    cases b' <;> rfl
  · have hopen : ∀ t, t = Token.punctuator b.open ∨ t = .punctuator b.close →
        isOpen b' t = false ∧ isClose b' t = false := by
      rintro t (rfl | rfl) <;> cases b <;> cases b' <;> first | exact absurd rfl hb | exact ⟨rfl, rfl⟩
    obtain ⟨ho, ho'⟩ := hopen _ (.inl rfl)
    obtain ⟨hc, hc'⟩ := hopen _ (.inr rfl)
    exact Brackets.Neutral.cons ((h b').append (Brackets.neutral_single hc hc')) ho ho'

theorem isPlain_name (v : String) : IsPlain (.name v) := fun b => by cases b <;> exact ⟨rfl, rfl⟩

theorem isPlain_number : IsPlain .number := fun b => by cases b <;> exact ⟨rfl, rfl⟩

theorem isPlain_string : IsPlain .string := fun b => by cases b <;> exact ⟨rfl, rfl⟩

theorem isPlain_blockString (raw : List Char) : IsPlain (.blockString raw) :=
  fun b => by cases b <;> exact ⟨rfl, rfl⟩

theorem isPlain_spread : IsPlain .spread := fun b => by cases b <;> exact ⟨rfl, rfl⟩

theorem isPlain_punctuator {c : Char} (h : c ∉ ['(', ')', '{', '}']) : IsPlain (.punctuator c) := by
  intro b
  simp only [List.mem_cons, List.not_mem_nil, or_false, not_or] at h
  unfold isOpen isClose
  cases b <;> simp [Bracket.open, Bracket.close, h]

/-- The bracket that the part is read with. -/
def Part.closing : Part → List Token
  | .values _ => [.punctuator ']']
  | .objectFields _ | .moreSelections => [.punctuator '}']
  | .moreArguments _ | .moreVariableDefinitions => [.punctuator ')']
  | _ => []

/-- What is read of a part is balanced, up to the bracket that closes it. -/
def Reads (part : Part) (ts rest : List Token) : Prop :=
  ∃ inner, ts = inner ++ part.closing ++ rest ∧ Neutral inner

theorem reads_closing {part : Part} {rest : List Token} : Reads part (part.closing ++ rest) rest :=
  ⟨[], rfl, neutral_nil⟩

theorem reads_nothing {part : Part} {ts : List Token} (h : part.closing = []) : Reads part ts ts :=
  ⟨[], by rw [h]; rfl, neutral_nil⟩

/-- A part that is read on its own stands before another. -/
theorem Reads.then {part next : Part} {ts mid rest : List Token} (h : Reads part ts mid)
    (hclosing : part.closing = []) (h' : Reads next mid rest) : Reads next ts rest := by
  obtain ⟨inner, rfl, hinner⟩ := h
  obtain ⟨more, rfl, hmore⟩ := h'
  refine ⟨inner ++ more, ?_, hinner.append hmore⟩
  rw [hclosing, List.append_nil, List.append_assoc, List.append_assoc, List.append_assoc]

theorem Reads.plain {part : Part} {t : Token} {ts rest : List Token} (h : Reads part ts rest)
    (ht : IsPlain t) : Reads part (t :: ts) rest := by
  obtain ⟨inner, rfl, hinner⟩ := h
  exact ⟨t :: inner, rfl, hinner.cons ht⟩

/-- A list in brackets is read as a whole. -/
theorem Reads.bracketed {part whole : Part} {ts rest : List Token} (b : Bracket)
    (h : Reads part ts rest) (hclosing : part.closing = [.punctuator b.close]) (hwhole : whole.closing = []) :
    Reads whole (.punctuator b.open :: ts) rest := by
  obtain ⟨inner, rfl, hinner⟩ := h
  refine ⟨.punctuator b.open :: (inner ++ [.punctuator b.close]), ?_, hinner.group b⟩
  rw [hclosing, hwhole, List.append_nil]
  rfl

theorem Reads.same {part part' : Part} {ts rest : List Token} (h : Reads part ts rest)
    (hclosing : part.closing = part'.closing) : Reads part' ts rest := by
  obtain ⟨inner, rfl, hinner⟩ := h
  exact ⟨inner, by rw [hclosing], hinner⟩

theorem reads_afterType {part : Part} (h : part.closing = []) (ts : List Token) :
    Reads part ts (afterType ts) := by
  unfold afterType
  split
  · exact (reads_nothing h).plain (isPlain_punctuator (by decide))
  · exact reads_nothing h

/-- A list in square brackets is read as a whole. -/
theorem Reads.listed {part whole : Part} {ts rest : List Token} (h : Reads part ts rest)
    (hclosing : part.closing = [.punctuator ']']) (hwhole : whole.closing = []) :
    Reads whole (.punctuator '[' :: ts) rest := by
  obtain ⟨inner, rfl, hinner⟩ := h
  refine ⟨.punctuator '[' :: (inner ++ [.punctuator ']']), ?_, ?_⟩
  · rw [hclosing, hwhole, List.append_nil]
    rfl
  · exact (hinner.append (neutral_nil.cons (isPlain_punctuator (by decide)))).cons
      (isPlain_punctuator (by decide))

/-- Two parts are read one after the other. -/
theorem reads_both {n : ℕ} {part next : Part} {ts rest : List Token}
    (hread : ∀ {part ts rest}, parse n part ts = some rest → Reads part ts rest)
    (hclosing : part.closing = []) (h : (parse n part ts).bind (parse n next) = some rest) :
    Reads next ts rest := by
  obtain ⟨mid, hmid, hnext⟩ := Option.bind_eq_some_iff.1 h
  exact (hread hmid).then hclosing (hread hnext)

/-- What the grammar reads of a part is balanced. -/
theorem parse_reads (n : ℕ) {part : Part} {ts rest : List Token} (h : parse n part ts = some rest) :
    Reads part ts rest := by
  induction n generalizing part ts rest with
  | zero => cases h
  | succ n ih =>
    have hname : ∀ v, IsPlain (.name v) := isPlain_name
    have hcolon : IsPlain (.punctuator ':') := isPlain_punctuator (by decide)
    have hdollar : IsPlain (.punctuator '$') := isPlain_punctuator (by decide)
    have hat : IsPlain (.punctuator '@') := isPlain_punctuator (by decide)
    have hequals : IsPlain (.punctuator '=') := isPlain_punctuator (by decide)
    cases part with
    | value const =>
      dsimp only [parse] at h
      split at h
      · rename_i v rest'
        cases const with
        | true => cases h
        | false =>
          cases h
          exact ((reads_nothing rfl).plain (hname v)).plain hdollar
      · cases h
        exact (reads_nothing rfl).plain isPlain_number
      · cases h
        exact (reads_nothing rfl).plain isPlain_string
      · cases h
        exact (reads_nothing rfl).plain (isPlain_blockString _)
      · cases h
        exact (reads_nothing rfl).plain (hname _)
      · exact (ih h).listed rfl rfl
      · exact (ih h).bracketed .brace rfl rfl
      · cases h
    | values const =>
      dsimp only [parse] at h
      split at h
      · cases h
        exact reads_closing
      · exact reads_both ih rfl h
    | objectFields const =>
      dsimp only [parse] at h
      split at h
      · cases h
        exact reads_closing
      · exact ((reads_both ih rfl h).plain hcolon).plain (hname _)
      · cases h
    | arguments const =>
      dsimp only [parse] at h
      split at h
      · exact (((reads_both ih rfl h).plain hcolon).plain (hname _)).bracketed .paren rfl rfl
      · cases h
      · cases h
        exact reads_nothing rfl
    | moreArguments const =>
      dsimp only [parse] at h
      split at h
      · cases h
        exact reads_closing
      · exact ((reads_both ih rfl h).plain hcolon).plain (hname _)
      · cases h
    | directives const =>
      dsimp only [parse] at h
      split at h
      · exact ((reads_both ih rfl h).plain (hname _)).plain hat
      · cases h
        exact reads_nothing rfl
    | type =>
      dsimp only [parse] at h
      split at h
      · cases h
        exact (reads_afterType rfl _).plain (hname _)
      · obtain ⟨mid, hmid, h⟩ := Option.bind_eq_some_iff.1 h
        split at h
        · rename_i rest'
          cases h
          have hclose : Reads .type (.punctuator ']' :: rest') (afterType rest') :=
            (reads_afterType rfl rest').plain (isPlain_punctuator (by decide))
          exact ((ih hmid).then rfl hclose).plain (isPlain_punctuator (by decide))
        · cases h
      · cases h
    | variableDefinitions =>
      dsimp only [parse] at h
      split at h
      · exact (reads_both ih rfl h).bracketed .paren rfl rfl
      · cases h
        exact reads_nothing rfl
    | variableDefinition =>
      dsimp only [parse] at h
      split at h
      · obtain ⟨mid, hmid, h⟩ := Option.bind_eq_some_iff.1 h
        have hread := (ih hmid).then rfl (reads_both ih rfl h)
        exact ((((hread.same rfl).plain hcolon).plain (hname _)).plain hdollar)
      · cases h
    | moreVariableDefinitions =>
      dsimp only [parse] at h
      split at h
      · cases h
        exact reads_closing
      · exact reads_both ih rfl h
    | defaultValue =>
      dsimp only [parse] at h
      split at h
      · exact ((ih h).same rfl).plain hequals
      · cases h
        exact reads_nothing rfl
    | selectionSet =>
      dsimp only [parse] at h
      split at h
      · exact (reads_both ih rfl h).bracketed .brace rfl rfl
      · cases h
    | optionalSelectionSet =>
      dsimp only [parse] at h
      split at h
      · exact (reads_both ih rfl h).bracketed .brace rfl rfl
      · cases h
        exact reads_nothing rfl
    | selection =>
      dsimp only [parse] at h
      split at h
      · obtain ⟨mid, hmid, h⟩ := Option.bind_eq_some_iff.1 h
        have hread := (ih hmid).then rfl (reads_both ih rfl h)
        exact (((hread.same rfl).plain (hname _)).plain hcolon).plain (hname _)
      · obtain ⟨mid, hmid, h⟩ := Option.bind_eq_some_iff.1 h
        have hread := (ih hmid).then rfl (reads_both ih rfl h)
        exact (hread.same rfl).plain (hname _)
      · split at h
        · split at h
          · have hread := reads_both ih rfl h
            exact (((hread.same rfl).plain (hname _)).plain (hname _)).plain isPlain_spread
          · cases h
        · exact (((ih h).same rfl).plain (hname _)).plain isPlain_spread
      · exact ((reads_both ih rfl h).same rfl).plain isPlain_spread
      · cases h
    | moreSelections =>
      dsimp only [parse] at h
      split at h
      · cases h
        exact reads_closing
      · exact reads_both ih rfl h

/-! ### Groups -/

/-- A text in brackets, and what follows it. -/
def Grouped (b : Bracket) (ts rest : List Token) : Prop :=
  ∃ more, ts = .punctuator b.open :: more ∧ Brackets.skip (isOpen b) (isClose b) 1 more = some rest

theorem Grouped.head {b : Bracket} {ts rest : List Token} (h : Grouped b ts rest) :
    ts.head? = some (.punctuator b.open) := by
  obtain ⟨more, rfl, -⟩ := h
  rfl

theorem Reads.grouped {part : Part} {ts rest : List Token} (h : Reads part ts rest) (b : Bracket)
    (hclosing : part.closing = [.punctuator b.close]) : Grouped b (.punctuator b.open :: ts) rest := by
  obtain ⟨inner, rfl, hinner⟩ := h
  refine ⟨_, rfl, ?_⟩
  rw [hclosing, List.append_assoc, List.singleton_append]
  have hopen : isOpen b (.punctuator b.close) = false := by cases b <;> rfl
  exact (hinner b).skip_group hopen (decide_eq_true rfl) 0 rest

theorem grouped_selectionSet {n : ℕ} {ts rest : List Token} (h : parse n .selectionSet ts = some rest) :
    Grouped .brace ts rest := by
  cases n with
  | zero => cases h
  | succ n =>
    dsimp only [parse] at h
    split at h
    · exact (reads_both (parse_reads n) rfl h).grouped .brace rfl
    · cases h

theorem grouped_arguments {n : ℕ} {const : Bool} {ts rest : List Token}
    (h : parse n (.arguments const) ts = some rest) :
    Grouped .paren ts rest ∨ rest = ts ∧ ts.head? ≠ some (.punctuator '(') := by
  cases n with
  | zero => cases h
  | succ n =>
    dsimp only [parse] at h
    split at h
    · have hcolon : IsPlain (.punctuator ':') := isPlain_punctuator (by decide)
      have hread := reads_both (parse_reads n) rfl h
      exact .inl (((hread.plain hcolon).plain (isPlain_name _)).grouped .paren rfl)
    · cases h
    · rename_i hne
      refine .inr ⟨(Option.some.inj h).symm, fun hhead => ?_⟩
      obtain ⟨rest', rfl⟩ := List.head?_eq_some_iff.1 hhead
      exact hne rest' rfl

theorem grouped_variableDefinitions {n : ℕ} {ts rest : List Token}
    (h : parse n .variableDefinitions ts = some rest) :
    Grouped .paren ts rest ∨ rest = ts ∧ ts.head? ≠ some (.punctuator '(') := by
  cases n with
  | zero => cases h
  | succ n =>
    dsimp only [parse] at h
    split at h
    · exact .inl ((reads_both (parse_reads n) rfl h).grouped .paren rfl)
    · rename_i hne
      refine .inr ⟨(Option.some.inj h).symm, fun hhead => ?_⟩
      obtain ⟨rest', rfl⟩ := List.head?_eq_some_iff.1 hhead
      exact hne rest' rfl

end CatalogSentinel.Graphql
