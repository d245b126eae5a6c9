import CatalogSentinel.Guard.Scanning

/-!
The guard against GraphQL. From tokens that match the grammar's the scanner reads the grammar's
operations, so that a request it lets through executes a query, wherever the scanner ends each
block string with the grammar.
-/

namespace CatalogSentinel.Guard

open CatalogSentinel.Data
open CatalogSentinel.Graphql

/-! ### Brackets -/

theorem IsLiteral.isPlain {t : Token} (h : IsLiteral t) : IsPlain t := by
  obtain rfl | rfl | ⟨raw, rfl⟩ := h
  · exact isPlain_number
  · exact isPlain_string
  · exact isPlain_blockString raw

theorem Ordinary.valueIs {v : String} (h : Ordinary v) {c : Char} (hc : c ∈ ['(', ')', '{', '}', '@'])
    (kind : TokenKind) : valueIs (String.ofList [c]) ⟨kind, v⟩ = false :=
  decide_eq_false (h c hc)

theorem open_mem (b : Bracket) : b.open ∈ ['(', ')', '{', '}', '@'] := by
  cases b <;> decide

theorem close_mem (b : Bracket) : b.close ∈ ['(', ')', '{', '}', '@'] := by
  cases b <;> decide

theorem valueIs_open (b : Bracket) (c : Char) :
    valueIs (String.ofList [b.open]) ⟨.punct, String.ofList [c]⟩ = isOpen b (.punctuator c) := by
  simp [valueIs, isOpen]

theorem valueIs_close (b : Bracket) (c : Char) :
    valueIs (String.ofList [b.close]) ⟨.punct, String.ofList [c]⟩ = isClose b (.punctuator c) := by
  simp [valueIs, isClose]

theorem skip_dot (b : Bracket) (depth : ℕ) (gs : List GraphqlToken) :
    Brackets.skip (valueIs (String.ofList [b.open])) (valueIs (String.ofList [b.close])) depth
      (⟨.punct, "."⟩ :: gs) =
    Brackets.skip (valueIs (String.ofList [b.open])) (valueIs (String.ofList [b.close])) depth gs := by
  have hdot : IsPlain (.punctuator '.') := isPlain_punctuator (by decide)
  apply Brackets.skip_plain
  · exact (valueIs_open b '.').trans (hdot b).1
  · exact (valueIs_close b '.').trans (hdot b).2

/-- The closing bracket is found at the same place. -/
theorem Matches.skip (b : Bracket) {ts : List Token} {gs : List GraphqlToken} (h : Matches ts gs)
    {depth : ℕ} {rest : List Token} (hskip : Brackets.skip (isOpen b) (isClose b) depth ts = some rest) :
    ∃ grest, Brackets.skip (valueIs (String.ofList [b.open])) (valueIs (String.ofList [b.close])) depth gs =
      some grest ∧ Matches rest grest := by
  induction h generalizing depth with
  | nil => cases hskip
  | name hv h ih =>
    rw [Brackets.skip_plain (isPlain_name _ b).1 (isPlain_name _ b).2] at hskip
    rw [Brackets.skip_plain (hv.valueIs (open_mem b) _) (hv.valueIs (close_mem b) _)]
    exact ih hskip
  | punctuator c h ih =>
    rw [Brackets.skip] at hskip ⊢
    rw [valueIs_open, valueIs_close]
    split at hskip
    · rename_i hopen
      rw [if_pos hopen]
      exact ih hskip
    · rename_i hopen
      rw [if_neg hopen]
      split at hskip
      · rename_i hclose
        rw [if_pos hclose]
        split at hskip
        · rename_i hdepth
          rw [if_pos hdepth, ← Option.some.inj hskip]
          exact ⟨_, rfl, h⟩
        · rename_i hdepth
          rw [if_neg hdepth]
          exact ih hskip
      · rename_i hclose
        rw [if_neg hclose]
        exact ih hskip
  | spread h ih =>
    rw [Brackets.skip_plain (isPlain_spread b).1 (isPlain_spread b).2] at hskip
    rw [skip_dot, skip_dot, skip_dot]
    exact ih hskip
  | literal ht hv h ih =>
    rw [Brackets.skip_plain (ht.isPlain b).1 (ht.isPlain b).2] at hskip
    rw [Brackets.skip_plain (hv.valueIs (open_mem b) _) (hv.valueIs (close_mem b) _)]
    exact ih hskip
  | number h ih =>
    rw [Brackets.skip_plain (isPlain_number b).1 (isPlain_number b).2] at hskip
    exact ih hskip

/-! ### Operations -/

/-- What can follow the variables or the arguments of a directive. -/
def Opens (ts : List Token) : Prop :=
  ts.head? = some (.punctuator '{') ∨ ts.head? = some (.punctuator '@')

theorem Matches.startsWith {c d : Char} {ts : List Token} {gs : List GraphqlToken} (h : Matches ts gs)
    (hhead : ts.head? = some (.punctuator d)) : startsWith (String.ofList [c]) gs = decide (d = c) := by
  obtain ⟨rest, rfl⟩ := List.head?_eq_some_iff.1 hhead
  cases h with
  | punctuator _ h =>
    unfold Guard.startsWith Guard.valueIs
    simp
  | literal ht _ _ => obtain ht | ht | ⟨raw, ht⟩ := ht <;> cases ht

theorem Matches.skipBalanced (b : Bracket) {ts rest : List Token} {gs : List GraphqlToken}
    (h : Matches ts gs) (hgroup : Grouped b ts rest) :
    ∃ grest, skipBalanced gs (String.ofList [b.open]) (String.ofList [b.close]) = some grest ∧
      Matches rest grest := by
  obtain ⟨more, rfl, hskip⟩ := hgroup
  have hstart : Guard.startsWith (String.ofList [b.open]) gs = true := by
    rw [h.startsWith (d := b.open) rfl]
    exact decide_eq_true rfl
  have hopen : isOpen b (.punctuator b.open) = true := decide_eq_true rfl
  unfold Guard.skipBalanced
  rw [if_pos hstart]
  apply h.skip b
  rw [Brackets.skip, hopen, if_pos rfl]
  exact hskip

theorem Matches.skipParens {ts rest : List Token} {gs : List GraphqlToken} (h : Matches ts gs)
    (hgroup : Grouped .paren ts rest ∨ rest = ts ∧ ts.head? ≠ some (.punctuator '('))
    (hopens : Opens rest) : ∃ grest, skipParens gs = some grest ∧ Matches rest grest := by
  unfold Guard.skipParens
  obtain hgroup | ⟨rfl, -⟩ := hgroup
  · obtain ⟨grest, hgrest, hmatches⟩ := h.skipBalanced .paren hgroup
    have hstart : Guard.startsWith "(" gs = true := by
      obtain ⟨more, rfl, -⟩ := hgroup
      exact h.startsWith (d := '(') rfl
    rw [if_pos hstart]
    exact ⟨grest, hgrest, hmatches⟩
  · have hstart : Guard.startsWith "(" gs = false := by
      obtain hopens | hopens := hopens
      · exact h.startsWith hopens
      · exact h.startsWith hopens
    rw [hstart]
    exact ⟨gs, rfl, h⟩

theorem opens_of_directives {n : ℕ} {const : Bool} {ts rest : List Token}
    (h : parse n (.directives const) ts = some rest) (hbrace : rest.head? = some (.punctuator '{')) :
    Opens ts := by
  cases n with
  | zero => cases h
  | succ n =>
    dsimp only [parse] at h
    split at h
    · exact .inr rfl
    · cases h
      exact .inl hbrace

theorem Matches.skipDirectives {n m : ℕ} {const : Bool} {ts rest : List Token} {gs : List GraphqlToken}
    (h : Matches ts gs) (hparse : parse n (.directives const) ts = some rest)
    (hbrace : rest.head? = some (.punctuator '{')) (hm : gs.length < m) :
    ∃ grest, skipDirectives m gs = some grest ∧ Matches rest grest := by
  induction n generalizing ts gs m with
  | zero => cases hparse
  | succ n ih =>
    cases m with
    | zero => cases hm
    | succ m =>
      dsimp only [parse] at hparse
      dsimp only [Guard.skipDirectives]
      split at hparse
      · rename_i v more
        obtain ⟨mid, hmid, hparse⟩ := Option.bind_eq_some_iff.1 hparse
        rw [h.startsWith (d := '@') (c := '@') rfl]
        cases h with
        | literal ht _ _ => obtain ht | ht | ⟨raw, ht⟩ := ht <;> cases ht
        | punctuator _ h =>
          cases h with
          | literal ht _ _ => obtain ht | ht | ⟨raw, ht⟩ := ht <;> cases ht
          | name _ h =>
            obtain ⟨gmid, hgmid, hmatches⟩ :=
              h.skipParens (grouped_arguments hmid) (opens_of_directives hparse hbrace)
            have hlength := skipParens_length hgmid
            simp only [List.length_cons] at hm
            obtain ⟨grest, hgrest, hrest⟩ := ih hmatches hparse (m := m) (by omega)
            refine ⟨grest, ?_, hrest⟩
            simp [hgmid, hgrest]
      · cases hparse
        have hstart : Guard.startsWith "@" gs = false := h.startsWith hbrace
        rw [hstart]
        exact ⟨gs, rfl, h⟩

theorem Matches.skipSelection {n : ℕ} {const : Bool} {ts mid rest : List Token} {gs : List GraphqlToken}
    (h : Matches ts gs) (hdirectives : parse n (.directives const) ts = some mid)
    (hselection : parse n .selectionSet mid = some rest) :
    ∃ grest, skipSelection gs = some grest ∧ Matches rest grest := by
  have hgroup := grouped_selectionSet hselection
  obtain ⟨gmid, hgmid, hmatches⟩ := h.skipDirectives hdirectives hgroup.head (Nat.lt_succ_self _)
  obtain ⟨grest, hgrest, hrest⟩ := hmatches.skipBalanced .brace hgroup
  refine ⟨grest, ?_, hrest⟩
  unfold Guard.skipSelection
  rw [hgmid]
  exact hgrest

theorem Matches.of_name {v : String} {ts : List Token} {gs : List GraphqlToken}
    (h : Matches (.name v :: ts) gs) : ∃ rest, gs = ⟨.name, v⟩ :: rest ∧ Ordinary v ∧ Matches ts rest := by
  cases h with
  | name hv h => exact ⟨_, rfl, hv, h⟩
  | literal ht _ _ => obtain ht | ht | ⟨raw, ht⟩ := ht <;> cases ht

theorem Matches.optionalName {d : Char} {ts : List Token} {gs : List GraphqlToken} (h : Matches ts gs)
    (hhead : (Graphql.optionalName ts).2.head? = some (.punctuator d)) :
    ∃ rest, optionalName gs = ((Graphql.optionalName ts).1, rest) ∧ Matches (Graphql.optionalName ts).2 rest := by
  unfold Graphql.optionalName at hhead ⊢
  split at hhead
  · obtain ⟨rest, rfl, -, h⟩ := h.of_name
    exact ⟨rest, rfl, h⟩
  · obtain ⟨more, rfl⟩ := List.head?_eq_some_iff.1 hhead
    cases h with
    | punctuator _ h => exact ⟨_, rfl, .punctuator d h⟩
    | literal ht _ _ => obtain ht | ht | ⟨raw, ht⟩ := ht <;> cases ht

/-- From matching tokens the scanner reads what the grammar reads. -/
theorem Matches.parseDefinition {n : ℕ} {ts rest : List Token} {gs : List GraphqlToken}
    {operation : Option Operation} (h : Matches ts gs)
    (hparse : Graphql.parseDefinition n ts = some (operation, rest)) :
    ∃ grest, parseDefinition gs = some (operation, grest) ∧ Matches rest grest := by
  unfold Graphql.parseDefinition at hparse
  split at hparse
  · rename_i more
    obtain ⟨rest', hrest, hparse⟩ := Option.bind_eq_some_iff.1 hparse
    cases hparse
    obtain ⟨grest, hgrest, hmatches⟩ := h.skipBalanced .brace (grouped_selectionSet hrest)
    refine ⟨grest, ?_, hmatches⟩
    have hstart : Guard.startsWith "\x7b" gs = true := h.startsWith (d := '{') rfl
    cases gs with
    | nil => cases hstart
    | cons g gs =>
      have hvalue : g.value = "\x7b" := of_decide_eq_true hstart
      have hgrest' : Guard.skipBalanced (g :: gs) "\x7b" "\x7d" = some grest := hgrest
      unfold Guard.parseDefinition
      dsimp only
      rw [if_pos hvalue, hgrest']
      rfl
  · rename_i keyword more
    obtain ⟨gmore, rfl, hkeyword, hmore⟩ := h.of_name
    have hvalue : keyword ≠ "\x7b" := hkeyword '{' (by decide)
    unfold Guard.parseDefinition
    dsimp only
    rw [if_neg hvalue, if_neg (by decide)]
    split at hparse
    · rename_i hfragment
      rw [if_pos hfragment]
      split at hparse
      · rename_i v on w more
        split at hparse
        · rename_i hon
          obtain ⟨mid, hmid, hparse⟩ := Option.bind_eq_some_iff.1 hparse
          obtain ⟨rest', hrest, hparse⟩ := Option.bind_eq_some_iff.1 hparse
          cases hparse
          obtain ⟨_, rfl, -, hmore⟩ := hmore.of_name
          obtain ⟨_, rfl, -, hmore⟩ := hmore.of_name
          obtain ⟨_, rfl, -, hmore⟩ := hmore.of_name
          obtain ⟨grest, hgrest, hmatches⟩ := hmore.skipSelection hmid hrest
          refine ⟨grest, ?_, hmatches⟩
          dsimp only
          rw [if_pos hon.2, hgrest]
          rfl
        · cases hparse
      · cases hparse
    · rename_i hfragment
      rw [if_neg hfragment]
      obtain ⟨type, htype, hparse⟩ := Option.bind_eq_some_iff.1 hparse
      obtain ⟨mid, hmid, hparse⟩ := Option.bind_eq_some_iff.1 hparse
      obtain ⟨mid', hmid', hparse⟩ := Option.bind_eq_some_iff.1 hparse
      obtain ⟨rest', hrest, hparse⟩ := Option.bind_eq_some_iff.1 hparse
      cases hparse
      have hvariables := grouped_variableDefinitions hmid
      have hopens := opens_of_directives hmid' (grouped_selectionSet hrest).head
      obtain ⟨d, hhead⟩ : ∃ d, (Graphql.optionalName more).2.head? = some (.punctuator d) := by
        obtain hgroup | ⟨hsame, -⟩ := hvariables
        · exact ⟨_, hgroup.head⟩
        · rw [hsame] at hopens
          obtain hopens | hopens := hopens
          · exact ⟨_, hopens⟩
          · exact ⟨_, hopens⟩
      obtain ⟨gname, hgname, hname⟩ := hmore.optionalName hhead
      obtain ⟨gmid, hgmid, hparens⟩ := hname.skipParens hvariables hopens
      obtain ⟨grest, hgrest, hmatches⟩ := hparens.skipSelection hmid' hrest
      refine ⟨grest, ?_, hmatches⟩
      simp [htype, hgname, hgmid, hgrest]
  · cases hparse

theorem Matches.parseFrom {n k m : ℕ} {ts : List Token} {gs : List GraphqlToken}
    {operations : List Operation} (h : Matches ts gs)
    (hparse : parseDefinitions n k ts = some operations) (hm : gs.length ≤ m) :
    parseFrom m gs = some operations := by
  induction k generalizing ts gs m operations with
  | zero =>
    cases ts with
    | nil =>
      cases hparse
      cases h
      cases m <;> rfl
    | cons t ts => cases hparse
  | succ k ih =>
    cases ts with
    | nil =>
      cases hparse
      cases h
      cases m <;> rfl
    | cons t ts =>
      obtain ⟨⟨operation, rest⟩, hdefinition, hparse⟩ := Option.bind_eq_some_iff.1 hparse
      obtain ⟨more, hmore, hparse⟩ := Option.bind_eq_some_iff.1 hparse
      cases hparse
      obtain ⟨grest, hgrest, hmatches⟩ := h.parseDefinition hdefinition
      have hlength := parseDefinition_length hgrest
      cases gs with
      | nil => cases hlength
      | cons g gs =>
        cases m with
        | zero => cases hm
        | succ m =>
          simp only [List.length_cons] at hm hlength
          rw [Guard.parseFrom, hgrest]
          simp [ih hmatches hmore (m := m) (by omega)]

/-! ### Requests -/

/-- A document is read as the grammar reads it. -/
theorem parseGraphqlOperations_of_isDocument {text : String} {operations : List Operation}
    (h : IsDocument text operations) (hblocks : ∀ ts, lex text = some ts → BlocksEnd ts) :
    parseGraphqlOperations text = some operations := by
  obtain ⟨ts, n, hlex, -, hparse⟩ := h
  obtain ⟨gs, hgs, hmatches⟩ := lex_matches _ hlex (hblocks ts hlex) le_rfl
  unfold parseGraphqlOperations
  have htokens : tokenizeGraphql text = some gs := hgs
  rw [htokens]
  exact hmatches.parseFrom hparse le_rfl

variable (parseJson : String → Option Json)

/-- The request has the document executed, and this is the operation that is selected: a
document is taken from the body of a `POST` only. -/
def Executes (method : String) (postData : Option String) (query : String) (operation : Operation) : Prop :=
  toUpperCase method = "POST".toList ∧
    ∃ text body operations, postData = some text ∧ parseJson text = some body ∧
      Json.string? (bodyProperty "query" body) = some query ∧ IsDocument query operations ∧
      Selects operations (operationName body) operation

theorem type_of_lone {operations : List Operation} {operation : Operation}
    (h : (decide (operations.length = 1) && operations.head?.any (·.type = .query)) = true)
    (hmem : operation ∈ operations) : operation.type = .query := by
  obtain ⟨hlength, htype⟩ := Bool.and_eq_true_iff.1 h
  obtain ⟨found, rfl⟩ := List.length_eq_one_iff.1 (of_decide_eq_true hlength)
  rw [List.mem_singleton.1 hmem]
  exact of_decide_eq_true htype

/-- A request that is let through reads only, if the scanner ends the block strings of its document
where GraphQL ends them. -/
theorem shouldBlockRequest_reads {method url query : String} {postData : Option String}
    {operation : Operation} (hurl : isGraphqlEndpoint url = true)
    (hpass : shouldBlockRequest parseJson method url true postData = false)
    (hblocks : ∀ ts, lex query = some ts → BlocksEnd ts)
    (hexecutes : Executes parseJson method postData query operation) : operation.type = .query := by
  obtain ⟨hmethod, text, body, operations, rfl, hbody, hquery, hdocument, hselects⟩ := hexecutes
  have hread : isExplicitReadQuery parseJson url (some text) = true := by
    unfold shouldBlockRequest at hpass
    dsimp only at hpass
    rw [hmethod, if_neg (by decide), if_pos rfl, if_neg (by decide), if_pos hurl] at hpass
    cases hread : isExplicitReadQuery parseJson url (some text) with
    | true => rfl
    | false =>
      rw [hread] at hpass
      cases hpass
  have hoperations := parseGraphqlOperations_of_isDocument hdocument hblocks
  unfold isExplicitReadQuery at hread
  simp only [hurl, Bool.not_true, Bool.false_eq_true, if_false] at hread
  split at hread
  · cases hread
  · rename_i text' htext
    obtain ⟨hsome, -⟩ := Option.filter_eq_some_iff.1 htext
    obtain rfl := Option.some.inj hsome
    simp only [hbody, hquery, hoperations] at hread
    split at hread
    · cases hread
    · split at hread
      · cases hread
      · cases hread
      · rename_i hsome
        obtain rfl := Option.some.inj hsome
        cases hname : operationName body with
        | none =>
          rw [hname] at hread hselects
          have hlone : operation ∈ operations := by
            rw [show operations = [operation] from hselects]
            exact List.mem_singleton_self operation
          exact type_of_lone hread hlone
        | some name =>
          rw [hname] at hread hselects
          exact type_of_lone hread (List.mem_filter.2 ⟨hselects.1, decide_eq_true hselects.2⟩)

theorem isDocument_of_eq {text : String} {ts : List Token} {operations : List Operation} (n : ℕ)
    (hlex : lex text = some ts) (hne : ts ≠ []) (h : parseDefinitions n ts.length ts = some operations) :
    IsDocument text operations := ⟨ts, n, hlex, hne, h⟩

/-- A query with the block string `b\"""c`. -/
def quoting : String := "query($a:T=\"\"\"b\\\"\"\"c\"\"\")\x7bx\x7d"

def quotingBody : String :=
  "\x7b\"query\":\"query($a:T=\\\"\\\"\\\"b\\\\\\\"\\\"\\\"c\\\"\\\"\\\")\x7bx\x7d\"\x7d"

/-- To GraphQL the string ends after the number sign, to the scanner before it. -/
def smuggling : String :=
  "fragment F on T @d(a:\"\"\"\\\\\"\"\")\x7bx\x7d\x7by\x7d#\"\"\")\x7bx\x7dmutation\x7bdel\x7d"

def smugglingBody : String :=
  "\x7b\"query\":\"fragment F on T @d(a:\\\"\\\"\\\"\\\\\\\\\\\"\\\"\\\")" ++
    "\x7bx\x7d\x7by\x7d#\\\"\\\"\\\")\x7bx\x7dmutation\x7bdel\x7d\"\x7d"

/-- What `JSON.parse` makes of the two bodies. -/
def parseBody (text : String) : Option Json :=
  if text = quotingBody then some (.obj [("query", .str quoting)])
  else if text = smugglingBody then some (.obj [("query", .str smuggling)])
  else none

def quotingTokens : List Token :=
  [.name "query", .punctuator '(', .punctuator '$', .name "a", .punctuator ':', .name "T", .punctuator '=',
    .blockString ['b', '\\', '"', '"', '"', 'c'], .punctuator ')', .punctuator '{', .name "x", .punctuator '}']

theorem shouldBlockRequest_reads_sample :
    ∃ operation, Executes parseBody "POST" (some quotingBody) quoting operation ∧ operation.type = .query := by
  have hlex : lex quoting = some quotingTokens := by decide +kernel
  have hblocks : ∀ ts, lex quoting = some ts → BlocksEnd ts := by
    intro ts hts raw hraw
    rw [← Option.some.inj (hlex.symm.trans hts)] at hraw
    simp only [quotingTokens, List.mem_cons, Token.blockString.injEq, reduceCtorEq, List.not_mem_nil, or_false,
      false_or] at hraw
    rw [hraw]
    rfl
  have hexecutes : Executes parseBody "POST" (some quotingBody) quoting ⟨.query, none⟩ :=
    ⟨by decide, _, _, [⟨.query, none⟩], rfl, rfl, rfl,
      isDocument_of_eq 20 hlex (by decide) (by decide), rfl⟩
  have hurl : isGraphqlEndpoint "https://api.example/graphql" = true := by decide
  have hpass : shouldBlockRequest parseBody "POST" "https://api.example/graphql" true (some quotingBody) = false := by
    decide +kernel
  exact ⟨_, hexecutes, shouldBlockRequest_reads parseBody hurl hpass hblocks hexecutes⟩

theorem shouldBlockRequest_smuggles :
    shouldBlockRequest parseBody "POST" "https://api.example/graphql" true (some smugglingBody) = false ∧
    isGraphqlEndpoint "https://api.example/graphql" = true ∧
    Executes parseBody "POST" (some smugglingBody) smuggling ⟨.mutation, none⟩ := by
  have hlex : lex smuggling = some ((lex smuggling).getD []) := by decide +kernel
  have hdocument : IsDocument smuggling [⟨.mutation, none⟩] :=
    isDocument_of_eq 20 hlex (by decide +kernel) (by decide +kernel)
  exact ⟨by decide +kernel, by decide, by decide, _, _, _, rfl, rfl, rfl, hdocument, rfl⟩

end CatalogSentinel.Guard
