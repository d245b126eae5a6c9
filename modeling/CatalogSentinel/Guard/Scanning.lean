import CatalogSentinel.Guard.ReadOnly

/-!
The guard's scanner against the lexical grammar of GraphQL. The scanner finds the tokens of the
grammar, up to what literals it makes of numbers, wherever it ends each block string with the
grammar.
-/

namespace CatalogSentinel.Guard

open CatalogSentinel.Graphql
open CatalogSentinel.Data (isJsSpace isJsSpace_of_graphic)

/-! ### Tokens that match -/

/-- The value is taken neither for a bracket nor for the start of a directive. -/
def Ordinary (value : String) : Prop := ∀ c ∈ ['(', ')', '{', '}', '@'], value ≠ String.ofList [c]

def IsLiteral (t : Token) : Prop := t = .number ∨ t = .string ∨ ∃ raw, t = .blockString raw

/-- What the scanner makes of the tokens. A number may be part of the literal before it. -/
inductive Matches : List Token → List GraphqlToken → Prop
  | nil : Matches [] []
  | name {v : String} {ts : List Token} {gs : List GraphqlToken} (hv : Ordinary v) (h : Matches ts gs) :
    Matches (.name v :: ts) (⟨.name, v⟩ :: gs)
  | punctuator {ts : List Token} {gs : List GraphqlToken} (c : Char) (h : Matches ts gs) :
    Matches (.punctuator c :: ts) (⟨.punct, String.ofList [c]⟩ :: gs)
  | spread {ts : List Token} {gs : List GraphqlToken} (h : Matches ts gs) :
    Matches (.spread :: ts) (⟨.punct, "."⟩ :: ⟨.punct, "."⟩ :: ⟨.punct, "."⟩ :: gs)
  | literal {t : Token} {v : String} {ts : List Token} {gs : List GraphqlToken} (ht : IsLiteral t)
    (hv : Ordinary v) (h : Matches ts gs) : Matches (t :: ts) (⟨.literal, v⟩ :: gs)
  | number {ts : List Token} {gs : List GraphqlToken} (h : Matches ts gs) : Matches (.number :: ts) gs

/-! ### Characters -/

theorem toNat_of_isDigit {c : Char} (h : isDigit c = true) : 48 ≤ c.toNat ∧ c.toNat ≤ 57 := by
  simp only [isDigit, Bool.and_eq_true, decide_eq_true_eq] at h
  exact h

theorem toNat_of_isNameStart {c : Char} (h : isNameStart c = true) : 65 ≤ c.toNat ∧ c.toNat ≤ 122 := by
  simp only [isNameStart, isLetter, Bool.or_eq_true, Bool.and_eq_true, decide_eq_true_eq] at h
  obtain (⟨hlow, hhigh⟩ | ⟨hlow, hhigh⟩) | rfl := h
  · have hlow : 65 ≤ c.toNat := hlow
    have hhigh : c.toNat ≤ 90 := hhigh
    omega
  · have hlow : 97 ≤ c.toNat := hlow
    have hhigh : c.toNat ≤ 122 := hhigh
    omega
  · decide

theorem isJsSpace_of_isIgnored {c : Char} (h : isIgnored c = true) : (isJsSpace c || decide (c = ',')) = true := by
  simp only [isIgnored, isLineTerminator, Bool.or_eq_true, decide_eq_true_eq] at h
  obtain (((rfl | rfl) | rfl | rfl) | rfl) | rfl := h <;> decide

theorem closeString_plain {c : Char} (hquote : c ≠ '"') (hslash : c ≠ '\\') (rest : List Char) :
    closeString (c :: rest) = closeString rest := by
  rw [closeString]
  · exact hquote
  · intro d rest' hc _
    exact hslash hc

theorem closeString_of_endString {text rest : List Char} (h : endString text = some rest) :
    closeString text = some rest := by
  fun_induction endString text with
  | case1 => cases h
  | case2 rest' => exact h
  | case3 a b c d rest' hhex ih =>
    have hplain : ∀ c : Char, isHexDigit c = true → ∀ rest, closeString (c :: rest) = closeString rest := by
      intro c hc rest
      apply closeString_plain
      · rintro rfl
        exact absurd hc (by decide)
      · rintro rfl
        exact absurd hc (by decide)
    simp only [Bool.and_eq_true] at hhex
    obtain ⟨⟨⟨ha, hb⟩, hc⟩, hd⟩ := hhex
    rw [closeString, hplain a ha, hplain b hb, hplain c hc, hplain d hd]
    exact ih h
  | case4 => cases h
  | case5 c rest' _ hc ih => exact ih h
  | case6 => cases h
  | case7 => cases h
  | case8 c rest' hquote _ _ hc ih =>
    have hslash : c ≠ '\\' := fun h => hc (by simp [h])
    rw [closeString_plain hquote hslash]
    exact ih h

theorem closeBlock_append {text rest : List Char} (h : closeBlock text = some rest) (more : List Char) :
    closeBlock (text ++ more) = some (rest ++ more) := by
  fun_induction closeBlock text with
  | case1 => cases h
  | case2 rest' =>
    cases h
    rfl
  | case3 c rest' ih => exact ih h
  | case4 c rest' hblock hslash ih =>
    have hrest := ih h
    rw [List.cons_append, closeBlock]
    · exact hrest
    · intro more' hc hmore
      -- The quotes are not cut off: a text that ends with fewer of them is not closed.
      obtain _ | ⟨a, _ | ⟨b, rest''⟩⟩ := rest'
      · cases h
      · obtain ⟨rfl, -⟩ := List.cons.inj hmore
        cases h
      · obtain ⟨rfl, hmore'⟩ := List.cons.inj hmore
        obtain ⟨rfl, -⟩ := List.cons.inj hmore'
        exact hblock rest'' hc rfl
    · intro d more' hc hmore
      obtain _ | ⟨a, rest''⟩ := rest'
      · cases h
      · exact hslash a rest'' hc rfl

theorem endBlock_eq {text raw rest : List Char} (h : endBlock text = some (raw, rest)) :
    text = raw ++ ['"', '"', '"'] ++ rest := by
  fun_induction endBlock text generalizing raw rest with
  | case1 => cases h
  | case2 rest' =>
    cases h
    rfl
  | case3 rest' ih =>
    obtain ⟨⟨raw', rest''⟩, hend, heq⟩ := Option.map_eq_some_iff.1 h
    cases heq
    rw [ih hend]
    rfl
  | case4 c rest' _ _ ih =>
    obtain ⟨⟨raw', rest''⟩, hend, heq⟩ := Option.map_eq_some_iff.1 h
    cases heq
    rw [ih hend]
    rfl

/-! ### Numbers -/

theorem dropWhile_dropWhile {p q : Char → Bool} (h : ∀ c, p c = true → q c = true) (text : List Char) :
    (text.dropWhile p).dropWhile q = text.dropWhile q := by
  induction text with
  | nil => rfl
  | cons c text ih =>
    cases hc : p c with
    | false => rw [List.dropWhile_cons_of_neg (Bool.eq_false_iff.1 hc)]
    | true => rw [List.dropWhile_cons_of_pos hc, List.dropWhile_cons_of_pos (h c hc), ih]

theorem continuesNumber_of_isDigit {c : Char} (h : isDigit c = true) : continuesNumber c = true := by
  simp [continuesNumber, startsNumber, h]

theorem dropWhile_isDigit (text : List Char) :
    (text.dropWhile isDigit).dropWhile continuesNumber = text.dropWhile continuesNumber :=
  dropWhile_dropWhile (fun _ => continuesNumber_of_isDigit) text

theorem integerPart_dropWhile {text rest : List Char} (h : integerPart text = some rest) :
    text.dropWhile continuesNumber = rest.dropWhile continuesNumber := by
  have hsign : (if text.head? = some '-' then text.tail else text).dropWhile continuesNumber =
      text.dropWhile continuesNumber := by
    split
    · rename_i hhead
      obtain ⟨more, rfl⟩ := List.head?_eq_some_iff.1 hhead
      rfl
    · rfl
  unfold integerPart at h
  dsimp only at h
  rw [← hsign]
  split at h
  · cases h
  · rename_i c more heq
    rw [heq]
    split at h
    · rename_i hc
      cases h
      rw [hc]
      rfl
    · split at h
      · rename_i hc
        cases h
        rw [List.dropWhile_cons_of_pos (continuesNumber_of_isDigit hc), dropWhile_isDigit]
      · cases h

theorem fractionalPart_dropWhile (text : List Char) :
    (fractionalPart text).dropWhile continuesNumber = text.dropWhile continuesNumber := by
  unfold fractionalPart
  split
  · rename_i c rest
    split
    · rename_i hc
      rw [dropWhile_isDigit, List.dropWhile_cons_of_pos (by rfl),
        List.dropWhile_cons_of_pos (continuesNumber_of_isDigit hc)]
    · rfl
  · rfl

theorem exponentPart_dropWhile (text : List Char) :
    (exponentPart text).dropWhile continuesNumber = text.dropWhile continuesNumber := by
  unfold exponentPart
  split
  · rfl
  · rename_i e rest
    split
    · rename_i he
      have he : continuesNumber e = true := by
        simp only [Bool.or_eq_true, decide_eq_true_eq] at he
        obtain rfl | rfl := he <;> rfl
      have hsign : (if rest.head? = some '+' || rest.head? = some '-' then rest.tail else rest).dropWhile
          continuesNumber = rest.dropWhile continuesNumber := by
        split
        · rename_i hhead
          simp only [Bool.or_eq_true, decide_eq_true_eq] at hhead
          obtain hhead | hhead := hhead
          · obtain ⟨more, rfl⟩ := List.head?_eq_some_iff.1 hhead
            rfl
          · obtain ⟨more, rfl⟩ := List.head?_eq_some_iff.1 hhead
            rfl
        · rfl
      dsimp only
      split
      · rfl
      · rename_i c more heq
        split
        · rename_i hc
          rw [List.dropWhile_cons_of_pos he, ← hsign, heq,
            List.dropWhile_cons_of_pos (continuesNumber_of_isDigit hc), dropWhile_isDigit]
        · rfl
    · rfl

/-- What may come right after a number without being part of it. -/
def Ends (text : List Char) : Prop :=
  ∀ c, text.head? = some c → isDigit c = false ∧ c ≠ '.' ∧ isNameStart c = false

theorem endNumber_spec {text rest : List Char} (h : endNumber text = some rest) :
    text.dropWhile continuesNumber = rest.dropWhile continuesNumber ∧ Ends rest := by
  obtain ⟨mid, hmid, h⟩ := Option.bind_eq_some_iff.1 h
  dsimp only at h
  split at h
  · cases h
  · rename_i hends
    cases h
    refine ⟨?_, fun c hc => ?_⟩
    · rw [exponentPart_dropWhile, fractionalPart_dropWhile, integerPart_dropWhile hmid]
    · rw [hc] at hends
      simp only [Option.any_some, Bool.or_eq_true, decide_eq_true_eq, not_or, Bool.not_eq_true] at hends
      exact ⟨hends.1.1, hends.1.2, hends.2⟩

theorem endNumber_head {c : Char} {rest rest' : List Char} (h : endNumber (c :: rest) = some rest') :
    isDigit c = true ∨ c = '-' := by
  obtain ⟨mid, hmid, -⟩ := Option.bind_eq_some_iff.1 h
  by_cases hc : c = '-'
  · exact .inr hc
  · have hhead : (c :: rest).head? ≠ some '-' := fun hhead => hc (Option.some.inj hhead)
    unfold integerPart at hmid
    rw [if_neg hhead] at hmid
    dsimp only at hmid
    split at hmid
    · rename_i hzero
      rw [hzero]
      exact .inl (by decide)
    · split at hmid
      · rename_i hdigit
        exact .inl hdigit
      · cases hmid

/-- How each token starts. -/
theorem readToken_cases {c : Char} {rest rest' : List Char} {t : Token}
    (h : readToken (c :: rest) = some (t, rest')) :
    (∃ more raw, c = '"' ∧ rest = '"' :: '"' :: more ∧ endBlock more = some (raw, rest') ∧
      t = .blockString raw) ∨
    (c = '"' ∧ (∀ more, rest ≠ '"' :: '"' :: more) ∧ endString rest = some rest' ∧ t = .string) ∨
    (c = '.' ∧ rest = '.' :: '.' :: rest' ∧ t = .spread) ∨
    (c ∈ punctuators ∧ t = .punctuator c ∧ rest' = rest) ∨
    (isNameStart c = true ∧ t = .name (String.ofList (c :: rest.takeWhile isNameContinue)) ∧
      rest' = rest.dropWhile isNameContinue) ∨
    ((isDigit c = true ∨ c = '-') ∧ endNumber (c :: rest) = some rest' ∧ t = .number) := by
  unfold readToken at h
  split at h
  · rename_i heq
    cases heq
  · rename_i more heq
    obtain ⟨⟨raw, rest''⟩, hend, hsome⟩ := Option.map_eq_some_iff.1 h
    cases heq
    cases hsome
    exact .inl ⟨more, raw, rfl, rfl, hend, rfl⟩
  · rename_i more hblock heq
    obtain ⟨rest'', hend, hsome⟩ := Option.map_eq_some_iff.1 h
    cases heq
    cases hsome
    exact .inr (.inl ⟨rfl, fun more' hmore => hblock more' (by rw [hmore]), hend, rfl⟩)
  · rename_i more heq
    cases heq
    cases h
    exact .inr (.inr (.inl ⟨rfl, rfl, rfl⟩))
  · rename_i c' more _ _ _ heq
    cases heq
    split at h
    · rename_i hpunct
      cases h
      exact .inr (.inr (.inr (.inl ⟨hpunct, rfl, rfl⟩)))
    · split at h
      · rename_i hname
        cases h
        exact .inr (.inr (.inr (.inr (.inl ⟨hname, rfl, rfl⟩))))
      · obtain ⟨rest'', hend, hsome⟩ := Option.map_eq_some_iff.1 h
        cases hsome
        exact .inr (.inr (.inr (.inr (.inr ⟨endNumber_head hend, hend, rfl⟩))))

/-! ### The scanner's tokens -/

/-- A character that is neither skipped nor starts a string. -/
structure Plain (c : Char) : Prop where
  space : isJsSpace c = false
  comma : c ≠ ','
  hash : c ≠ '#'
  quote : c ≠ '"'

theorem plain_of_toNat {c : Char} (hlow : 45 ≤ c.toNat) (hhigh : c.toNat ≤ 126) : Plain c where
  space := isJsSpace_of_graphic (by omega) hhigh
  comma := by
    rintro rfl
    exact absurd hlow (by decide)
  hash := by
    rintro rfl
    exact absurd hlow (by decide)
  quote := by
    rintro rfl
    exact absurd hlow (by decide)

theorem tokenizeFrom_plain {c : Char} (h : Plain c) (m : ℕ) (rest : List Char) :
    tokenizeFrom (m + 1) (c :: rest) =
      if isNameStart c then
        (tokenizeFrom m (rest.dropWhile isNameContinue)).map
          (⟨.name, String.ofList (c :: rest.takeWhile isNameContinue)⟩ :: ·)
      else if c ∈ puncts then (tokenizeFrom m rest).map (⟨.punct, String.ofList [c]⟩ :: ·)
      else if startsNumber c then
        (tokenizeFrom m (rest.dropWhile continuesNumber)).map
          (⟨.literal, String.ofList (c :: rest.takeWhile continuesNumber)⟩ :: ·)
      else none := by
  have hskip : ¬(isJsSpace c || decide (c = ',')) = true := by simp [h.space, h.comma]
  rw [Guard.tokenizeFrom, if_neg hskip, if_neg h.hash, if_neg h.quote]
  split
  · cases tokenizeFrom m (rest.dropWhile isNameContinue) <;> rfl
  · split
    · cases tokenizeFrom m rest <;> rfl
    · split
      · cases tokenizeFrom m (rest.dropWhile continuesNumber) <;> rfl
      · rfl

theorem not_isNameStart {c : Char} (h : c.toNat < 65 ∨ 122 < c.toNat) : isNameStart c = false := by
  cases hc : isNameStart c with
  | false => rfl
  | true =>
    have := toNat_of_isNameStart hc
    omega

theorem tokenizeFrom_punct {c : Char} (hc : c ∈ puncts) (m : ℕ) (rest : List Char) :
    tokenizeFrom (m + 1) (c :: rest) = (tokenizeFrom m rest).map (⟨.punct, String.ofList [c]⟩ :: ·) := by
  have hall : (puncts.all fun c => !isNameStart c && !isJsSpace c && decide (c ≠ ',') && decide (c ≠ '#') &&
      decide (c ≠ '"')) = true := by decide
  have hfacts := List.all_eq_true.1 hall c hc
  simp only [Bool.and_eq_true, Bool.not_eq_true', decide_eq_true_eq] at hfacts
  obtain ⟨⟨⟨⟨hname, hspace⟩, hcomma⟩, hhash⟩, hquote⟩ := hfacts
  have hplain : Plain c := ⟨hspace, hcomma, hhash, hquote⟩
  rw [tokenizeFrom_plain hplain, hname, if_neg Bool.false_ne_true, if_pos hc]

theorem mem_puncts {c : Char} (hc : c ∈ punctuators) : c ∈ puncts := by
  have hall : (punctuators.all fun c => decide (c ∈ puncts)) = true := by decide
  exact of_decide_eq_true (List.all_eq_true.1 hall c hc)

theorem tokenizeFrom_name {c : Char} (hc : isNameStart c = true) (m : ℕ) (rest : List Char) :
    tokenizeFrom (m + 1) (c :: rest) =
      (tokenizeFrom m (rest.dropWhile isNameContinue)).map
        (⟨.name, String.ofList (c :: rest.takeWhile isNameContinue)⟩ :: ·) := by
  obtain ⟨hlow, hhigh⟩ := toNat_of_isNameStart hc
  have hplain : Plain c := plain_of_toNat (by omega) (by omega)
  rw [tokenizeFrom_plain hplain, if_pos hc]

theorem toNat_of_number {c : Char} (hc : isDigit c = true ∨ c = '-') :
    (48 ≤ c.toNat ∧ c.toNat ≤ 57) ∨ c.toNat = 45 := by
  obtain hc | rfl := hc
  · exact .inl (toNat_of_isDigit hc)
  · exact .inr rfl

theorem startsNumber_of_number {c : Char} (hc : isDigit c = true ∨ c = '-') : startsNumber c = true := by
  obtain hc | rfl := hc
  · simp [startsNumber, hc]
  · rfl

theorem tokenizeFrom_number {c : Char} (hc : isDigit c = true ∨ c = '-') (m : ℕ) (rest : List Char) :
    tokenizeFrom (m + 1) (c :: rest) =
      (tokenizeFrom m (rest.dropWhile continuesNumber)).map
        (⟨.literal, String.ofList (c :: rest.takeWhile continuesNumber)⟩ :: ·) := by
  have hrange := toNat_of_number hc
  have hplain : Plain c := plain_of_toNat (by omega) (by omega)
  have hname : isNameStart c = false := not_isNameStart (by omega)
  have hstart := startsNumber_of_number hc
  have hpuncts : c ∉ puncts := by
    have hall : (puncts.all fun d => !startsNumber d) = true := by decide
    intro hmem
    have := List.all_eq_true.1 hall c hmem
    rw [hstart] at this
    cases this
  rw [tokenizeFrom_plain hplain, hname, if_neg Bool.false_ne_true, if_neg hpuncts, if_pos hstart]

theorem tokenizeFrom_literal {rest rest' : List Char} (h : closeLiteral rest = some rest') (m : ℕ) :
    tokenizeFrom (m + 1) ('"' :: rest) = (tokenizeFrom m rest').map (⟨.literal, "<string>"⟩ :: ·) := by
  have hskip : ¬(isJsSpace '"' || decide ('"' = ',')) = true := by decide
  rw [Guard.tokenizeFrom, if_neg hskip, if_neg (by decide), if_pos rfl, h]
  simp only [Option.bind_eq_bind, Option.bind_some]
  cases tokenizeFrom m rest' <;> rfl

theorem lexFrom_token {c : Char} (hignored : isIgnored c = false) (hhash : c ≠ '#') {n : ℕ} {rest : List Char}
    {ts : List Token} (h : lexFrom (n + 1) (c :: rest) = some ts) :
    ∃ t rest' ts', readToken (c :: rest) = some (t, rest') ∧ lexFrom n rest' = some ts' ∧ ts = t :: ts' := by
  rw [lexFrom, if_neg (Bool.eq_false_iff.1 hignored), if_neg hhash] at h
  obtain ⟨⟨t, rest'⟩, hread, h⟩ := Option.bind_eq_some_iff.1 h
  obtain ⟨ts', hlex, h⟩ := Option.bind_eq_some_iff.1 h
  exact ⟨t, rest', ts', hread, hlex, (Option.some.inj h).symm⟩

theorem Plain.isIgnored {c : Char} (h : Plain c) : isIgnored c = false := by
  cases hc : Graphql.isIgnored c with
  | false => rfl
  | true =>
    have hspace := isJsSpace_of_isIgnored hc
    simp [h.space, h.comma] at hspace

/-- What starts like a number is one. -/
theorem lexFrom_number {c : Char} (hc : isDigit c = true ∨ c = '-') {n : ℕ} {rest : List Char}
    {ts : List Token} (h : lexFrom (n + 1) (c :: rest) = some ts) :
    ∃ rest' ts', endNumber (c :: rest) = some rest' ∧ lexFrom n rest' = some ts' ∧ ts = .number :: ts' := by
  have hrange := toNat_of_number hc
  have hplain : Plain c := plain_of_toNat (by omega) (by omega)
  obtain ⟨t, rest', ts', hread, hlex, rfl⟩ := lexFrom_token hplain.isIgnored hplain.hash h
  obtain ⟨_, _, hquote, -⟩ | ⟨hquote, -⟩ | ⟨rfl, -⟩ | ⟨hpunct, -⟩ | ⟨hname, -⟩ | ⟨-, hend, rfl⟩ :=
    readToken_cases hread
  · exact absurd hquote hplain.quote
  · exact absurd hquote hplain.quote
  · exact absurd hrange (by decide)
  · have hall : (punctuators.all fun d => !startsNumber d) = true := by decide
    have hstart := List.all_eq_true.1 hall c hpunct
    rw [startsNumber_of_number hc] at hstart
    cases hstart
  · have := toNat_of_isNameStart hname
    omega
  · exact ⟨rest', ts', hend, hlex, rfl⟩

theorem lexFrom_plus (n : ℕ) (rest : List Char) : lexFrom n ('+' :: rest) = none := by
  cases hlex : lexFrom n ('+' :: rest) with
  | none => rfl
  | some ts =>
    cases n with
    | zero => cases hlex
    | succ n =>
      obtain ⟨t, rest', ts', hread, -, -⟩ := lexFrom_token (by decide) (by decide) hlex
      obtain ⟨_, _, hc, -⟩ | ⟨hc, -⟩ | ⟨hc, -⟩ | ⟨hc, -⟩ | ⟨hc, -⟩ | ⟨hc | hc, -⟩ := readToken_cases hread
      · cases hc
      · cases hc
      · cases hc
      · exact absurd hc (by decide)
      · cases hc
      · cases hc
      · cases hc

/-- What the scanner would add to a number that has ended is the next number. -/
theorem Ends.starts {text : List Char} (h : Ends text) {n : ℕ} {ts : List Token} (hlex : lexFrom n text = some ts)
    (c : Char) (hc : text.head? = some c) (hcontinues : continuesNumber c = true) :
    isDigit c = true ∨ c = '-' := by
  obtain ⟨more, rfl⟩ := List.head?_eq_some_iff.1 hc
  obtain ⟨hdigit, hpoint, hname⟩ := h c rfl
  simp only [continuesNumber, startsNumber, hdigit, Bool.or_eq_true, decide_eq_true_eq,
    Bool.false_eq_true, or_false] at hcontinues
  obtain (((rfl | rfl) | rfl) | rfl) | rfl := hcontinues
  · rw [lexFrom_plus] at hlex
    cases hlex
  · exact .inr rfl
  · exact absurd rfl hpoint
  · cases hname
  · cases hname

/-- Numbers with nothing between them are one literal to the scanner. -/
theorem number_run {n : ℕ} {text : List Char} {ts : List Token} (h : lexFrom n text = some ts)
    (hstart : ∀ c, text.head? = some c → continuesNumber c = true → isDigit c = true ∨ c = '-') :
    ∃ n' ≤ n, ∃ k ts', lexFrom n' (text.dropWhile continuesNumber) = some ts' ∧
      ts = List.replicate k .number ++ ts' := by
  induction n generalizing text ts with
  | zero =>
    cases text with
    | nil => exact ⟨0, le_rfl, 0, ts, h, rfl⟩
    | cons c rest => cases h
  | succ n ih =>
    cases text with
    | nil => exact ⟨n + 1, le_rfl, 0, ts, h, rfl⟩
    | cons c rest =>
      cases hc : continuesNumber c with
      | false =>
        rw [List.dropWhile_cons_of_neg (Bool.eq_false_iff.1 hc)]
        exact ⟨n + 1, le_rfl, 0, ts, h, rfl⟩
      | true =>
        have hnumber := hstart c rfl hc
        obtain ⟨rest', ts', hend, hlex, rfl⟩ := lexFrom_number hnumber h
        obtain ⟨hdrop, hends⟩ := endNumber_spec hend
        obtain ⟨n', hn', k, ts'', hlex', rfl⟩ := ih hlex (hends.starts hlex)
        rw [hdrop]
        exact ⟨n', by omega, k + 1, ts'', hlex', rfl⟩

/-! ### Texts -/

theorem ordinary_ofList {c : Char} (hc : c ∉ ['(', ')', '{', '}', '@']) (text : List Char) :
    Ordinary (String.ofList (c :: text)) := by
  intro d hd heq
  have hlist := congrArg String.toList heq
  rw [String.toList_ofList, String.toList_ofList] at hlist
  exact hc ((List.cons.inj hlist).1 ▸ hd)

theorem ordinary_number {c : Char} (hc : isDigit c = true ∨ c = '-') (text : List Char) :
    Ordinary (String.ofList (c :: text)) := by
  refine ordinary_ofList (fun hmem => ?_) text
  have hall : (['(', ')', '{', '}', '@'].all fun d => !startsNumber d) = true := by decide
  have hstart := List.all_eq_true.1 hall c hmem
  rw [startsNumber_of_number hc] at hstart
  cases hstart

theorem ordinary_name {c : Char} (hc : isNameStart c = true) (text : List Char) :
    Ordinary (String.ofList (c :: text)) := by
  refine ordinary_ofList (fun hmem => ?_) text
  have hall : (['(', ')', '{', '}', '@'].all fun d => !isNameStart d) = true := by decide
  have hstart := List.all_eq_true.1 hall c hmem
  rw [hc] at hstart
  cases hstart

/-- The scanner ends each block string where the grammar ends it. -/
def BlocksEnd (ts : List Token) : Prop :=
  ∀ raw, .blockString raw ∈ ts → closeBlock (raw ++ ['"', '"', '"']) = some []

theorem Matches.numbers {ts : List Token} {gs : List GraphqlToken} (h : Matches ts gs) (k : ℕ) :
    Matches (List.replicate k .number ++ ts) gs := by
  induction k with
  | zero => exact h
  | succ k ih =>
    rw [List.replicate_succ]
    exact .number ih

/-- The scanner finds the tokens of the grammar. -/
theorem lex_matches (n : ℕ) {text : List Char} {ts : List Token} (h : lexFrom n text = some ts)
    (hblocks : BlocksEnd ts) {m : ℕ} (hm : text.length ≤ m) :
    ∃ gs, tokenizeFrom m text = some gs ∧ Matches ts gs := by
  induction n using Nat.strong_induction_on generalizing text ts m with
  | _ n ih =>
    cases text with
    | nil =>
      have hts : ts = [] := by cases n <;> exact (Option.some.inj h).symm
      rw [hts]
      exact ⟨[], by cases m <;> rfl, .nil⟩
    | cons c rest =>
      obtain _ | n := n
      · cases h
      obtain _ | m := m
      · cases hm
      replace hm : rest.length ≤ m := Nat.le_of_succ_le_succ hm
      cases hignored : isIgnored c with
      | true =>
        rw [lexFrom, if_pos hignored] at h
        rw [tokenizeFrom, if_pos (isJsSpace_of_isIgnored hignored)]
        exact ih n (Nat.lt_succ_self n) h hblocks hm
      | false =>
        by_cases hhash : c = '#'
        · subst hhash
          have hline : (fun c => !isLineTerminator c) =
              fun c : Char => decide (c ≠ '\n') && decide (c ≠ '\r') := by
            funext c
            simp [isLineTerminator]
          rw [lexFrom, if_neg (by decide), if_pos rfl, hline] at h
          rw [tokenizeFrom, if_neg (by decide), if_pos rfl]
          exact ih n (Nat.lt_succ_self n) h hblocks ((dropWhile_length _ rest).trans hm)
        · obtain ⟨t, rest', ts', hread, hlex, rfl⟩ := lexFrom_token hignored hhash h
          have hblocks' : BlocksEnd ts' := fun raw hraw => hblocks raw (List.mem_cons_of_mem t hraw)
          obtain ⟨more, raw, rfl, rfl, hend, rfl⟩ | ⟨rfl, hblock, hend, rfl⟩ | ⟨rfl, rfl, rfl⟩ |
            ⟨hpunct, rfl, rfl⟩ | ⟨hname, rfl, rfl⟩ | ⟨hnumber, hend, rfl⟩ := readToken_cases hread
          · have hclose := closeBlock_append (hblocks raw List.mem_cons_self) rest'
            rw [← endBlock_eq hend, List.nil_append] at hclose
            have hlength := closeBlock_length hclose
            simp only [List.length_cons] at hm
            have hm' : rest'.length ≤ m := by omega
            obtain ⟨gs, hgs, hmatches⟩ := ih n (Nat.lt_succ_self n) hlex hblocks' hm'
            have hliteral : closeLiteral ('"' :: '"' :: more) = some rest' := hclose
            rw [tokenizeFrom_literal hliteral, hgs]
            exact ⟨_, rfl, .literal (.inr (.inr ⟨raw, rfl⟩)) (ordinary_ofList (by decide) _) hmatches⟩
          · have hclose : closeLiteral rest = some rest' := by
              unfold closeLiteral
              split
              · exact absurd rfl (hblock _)
              · exact closeString_of_endString hend
            have hm' : rest'.length ≤ m := (closeLiteral_length hclose).le.trans hm
            obtain ⟨gs, hgs, hmatches⟩ := ih n (Nat.lt_succ_self n) hlex hblocks' hm'
            rw [tokenizeFrom_literal hclose, hgs]
            exact ⟨_, rfl, .literal (.inr (.inl rfl)) (ordinary_ofList (by decide) _) hmatches⟩
          · simp only [List.length_cons] at hm
            obtain ⟨k, rfl⟩ : ∃ k, m = k + 2 := ⟨m - 2, by omega⟩
            have hk : rest'.length ≤ k := by omega
            obtain ⟨gs, hgs, hmatches⟩ := ih n (Nat.lt_succ_self n) hlex hblocks' hk
            have hdot : '.' ∈ puncts := by decide
            rw [tokenizeFrom_punct hdot, tokenizeFrom_punct hdot, tokenizeFrom_punct hdot, hgs]
            exact ⟨_, rfl, .spread hmatches⟩
          · obtain ⟨gs, hgs, hmatches⟩ := ih n (Nat.lt_succ_self n) hlex hblocks' hm
            rw [tokenizeFrom_punct (mem_puncts hpunct), hgs]
            exact ⟨_, rfl, .punctuator c hmatches⟩
          · obtain ⟨gs, hgs, hmatches⟩ :=
              ih n (Nat.lt_succ_self n) hlex hblocks' ((dropWhile_length _ rest).trans hm)
            rw [tokenizeFrom_name hname, hgs]
            exact ⟨_, rfl, .name (ordinary_name hname _) hmatches⟩
          · obtain ⟨hdrop, hends⟩ := endNumber_spec hend
            obtain ⟨n', hn', k, ts'', hlex', rfl⟩ := number_run hlex (hends.starts hlex)
            have hcontinues : continuesNumber c = true := by
              simp [continuesNumber, startsNumber_of_number hnumber]
            rw [List.dropWhile_cons_of_pos hcontinues] at hdrop
            have hblocks'' : BlocksEnd ts'' := fun raw hraw => hblocks' raw (List.mem_append_right _ hraw)
            rw [← hdrop] at hlex'
            obtain ⟨gs, hgs, hmatches⟩ :=
              ih n' (Nat.lt_succ_of_le hn') hlex' hblocks'' ((dropWhile_length _ rest).trans hm)
            rw [tokenizeFrom_number hnumber, hgs]
            exact ⟨_, rfl, .literal (.inl rfl) (ordinary_number hnumber _) (hmatches.numbers k)⟩

end CatalogSentinel.Guard
