import Mathlib.Data.List.Basic
import Mathlib.Tactic.Common

/-!
Tables as comma-separated text. The writer quotes a cell that holds a quote, a comma or a
line feed; the reader first takes every carriage return for a line break. The two agree on a
table exactly if no cell of it holds a carriage return on its own.
-/

namespace CatalogSentinel.Adapters.Csv

/-- Everything that the reader and the writer look for is a character of one unit. -/
abbrev Text := List Char

/-! ### The reader -/

/-- `replace(/\r\n?/g, '\n')` -/
def normalizeBreaks : Text → Text
  | '\r' :: '\n' :: rest => '\n' :: normalizeBreaks rest
  | '\r' :: rest => '\n' :: normalizeBreaks rest
  | ch :: rest => ch :: normalizeBreaks rest
  | [] => []

structure Reader where
  records : List (List Text)
  record : List Text
  field : Text
  inQuotes : Bool
  deriving DecidableEq

def Reader.push (r : Reader) (ch : Char) : Reader := { r with field := r.field ++ [ch] }

def Reader.endField (r : Reader) : Reader := { r with record := r.record ++ [r.field], field := [] }

def Reader.endRecord (r : Reader) : Reader :=
  { r.endField with records := r.records ++ [r.endField.record], record := [] }

def Reader.read (r : Reader) : Text → Reader
  | [] => r
  | ch :: src =>
    if r.inQuotes then
      if ch = '"' then
        match src with
        | '"' :: src => (r.push '"').read src
        | src => { r with inQuotes := false }.read src
      else (r.push ch).read src
    else if ch = '"' then { r with inQuotes := true }.read src
    else if ch = ',' then r.endField.read src
    else if ch = '\n' then r.endRecord.read src
    else (r.push ch).read src

def Reader.start : Reader := ⟨[], [], [], false⟩

def parseCsvRecords (text : Text) : List (List Text) :=
  let r := Reader.start.read (normalizeBreaks text)
  if r.field ≠ [] ∨ r.record ≠ [] then r.endRecord.records else r.records

/-! ### The writer -/

/-- `/[",\n]/` -/
def needsQuotes (value : Text) : Bool := value.any fun ch => ch = '"' || ch = ',' || ch = '\n'

/-- `replace(/"/g, '""')` -/
def doubleQuotes (value : Text) : Text := value.flatMap fun ch => if ch = '"' then ['"', '"'] else [ch]

def escapeCell (value : Text) : Text :=
  if needsQuotes value then '"' :: (doubleQuotes value ++ ['"']) else value

def writeLine (cells : List Text) : Text := List.intercalate [','] (cells.map escapeCell)

/-- A row is read by the names of its columns. -/
def cells (columns : List Text) (row : Text → Option Text) : List Text :=
  columns.map fun col => (row col).getD []

def table (columns : List Text) (rows : List (Text → Option Text)) : List (List Text) :=
  columns :: rows.map (cells columns)

def toCsv (columns : List Text) (rows : List (Text → Option Text)) : Text :=
  List.intercalate ['\r', '\n'] ((table columns rows).map writeLine) ++ ['\r', '\n']

/-! ### Line breaks -/

/-- CRLF as LF, and nothing else. -/
def crlfToLf : Text → Text
  | '\r' :: '\n' :: rest => '\n' :: crlfToLf rest
  | ch :: rest => ch :: crlfToLf rest
  | [] => []

/-- A carriage return that no line feed follows. -/
def LoneReturn (t : Text) : Prop := ∃ before after, t = before ++ '\r' :: after ∧ after.head? ≠ some '\n'

variable {t u : Text}

theorem normalizeBreaks_return (h : u.head? ≠ some '\n') :
    normalizeBreaks ('\r' :: u) = '\n' :: normalizeBreaks u := by
  cases u with
  | nil => rfl
  | cons ch u =>
    have hch : ch ≠ '\n' := fun heq => h (congrArg some heq)
    rw [normalizeBreaks]
    exact fun _ heq => hch (List.cons.inj heq).1

theorem normalizeBreaks_cons {ch : Char} (h : ch ≠ '\r') :
    normalizeBreaks (ch :: u) = ch :: normalizeBreaks u := by
  rw [normalizeBreaks]
  · exact fun _ heq => absurd heq h
  · exact h

/-- No carriage return is left. -/
theorem return_not_mem_normalizeBreaks (t : Text) : '\r' ∉ normalizeBreaks t := by
  fun_induction normalizeBreaks t with
  | case1 rest ih => simpa using ih
  | case2 rest hrest ih => simpa using ih
  | case3 ch rest hpair hch ih =>
    rw [List.mem_cons, not_or]
    exact ⟨fun heq => hch heq.symm, ih⟩
  | case4 => exact List.not_mem_nil

/-- Breaks are found apart in two texts that no CRLF straddles. -/
theorem normalizeBreaks_append (h : t.getLast? ≠ some '\r' ∨ u.head? ≠ some '\n') :
    normalizeBreaks (t ++ u) = normalizeBreaks t ++ normalizeBreaks u := by
  fun_induction normalizeBreaks t with
  | case1 rest ih =>
    have hrest : rest.getLast? ≠ some '\r' ∨ u.head? ≠ some '\n' := by
      refine h.imp_left fun hlast heq => hlast ?_
      simp [List.getLast?_cons, heq]
    rw [List.cons_append, List.cons_append, normalizeBreaks, ih hrest, List.cons_append]
  | case2 rest hrest ih =>
    cases rest with
    | nil =>
      have hu : u.head? ≠ some '\n' := h.resolve_left (by simp)
      exact normalizeBreaks_return hu
    | cons ch rest =>
      have hch : ch ≠ '\n' := fun heq => hrest rest (by rw [heq])
      have hlast : (ch :: rest).getLast? ≠ some '\r' ∨ u.head? ≠ some '\n' :=
        h.imp_left fun hlast heq => hlast (by rw [List.getLast?_cons_cons]; exact heq)
      rw [List.cons_append, normalizeBreaks_return (by simpa using hch), ih hlast, List.cons_append]
  | case3 ch rest hpair hch ih =>
    have hch' : ch ≠ '\r' := hch
    rw [List.cons_append, normalizeBreaks_cons hch', List.cons_append]
    cases rest with
    | nil => rfl
    | cons x rest =>
      rw [ih (h.imp_left fun hlast heq => hlast (by rw [List.getLast?_cons_cons]; exact heq))]
  | case4 => rfl

theorem loneReturn_cons {ch : Char} (h : ch ≠ '\r') : LoneReturn (ch :: u) ↔ LoneReturn u := by
  constructor
  · rintro ⟨before, after, heq, hafter⟩
    cases before with
    | nil => exact absurd (List.cons.inj heq).1 h
    | cons x before => exact ⟨before, after, (List.cons.inj heq).2, hafter⟩
  · rintro ⟨before, after, rfl, hafter⟩
    exact ⟨ch :: before, after, rfl, hafter⟩

theorem loneReturn_crlf : LoneReturn ('\r' :: '\n' :: u) ↔ LoneReturn u := by
  constructor
  · rintro ⟨before, after, heq, hafter⟩
    cases before with
    | nil =>
      obtain rfl := (List.cons.inj heq).2
      exact absurd rfl hafter
    | cons x before => exact (loneReturn_cons (by decide)).1 ⟨before, after, (List.cons.inj heq).2, hafter⟩
  · rintro ⟨before, after, rfl, hafter⟩
    exact ⟨'\r' :: '\n' :: before, after, rfl, hafter⟩

/-- A return on its own is what is left of the returns when CRLF is one break. -/
theorem return_mem_crlfToLf (t : Text) : '\r' ∈ crlfToLf t ↔ LoneReturn t := by
  fun_induction crlfToLf t with
  | case1 rest ih => rw [loneReturn_crlf, ← ih]; simp
  | case2 ch rest hpair ih =>
    by_cases hch : ch = '\r'
    · subst hch
      refine iff_of_true List.mem_cons_self ⟨[], rest, rfl, fun hhead => ?_⟩
      obtain ⟨rest', rfl⟩ := List.head?_eq_some_iff.1 hhead
      exact hpair rest' rfl rfl
    · rw [loneReturn_cons hch, ← ih, List.mem_cons]
      exact or_iff_right fun heq => hch heq.symm
  | case3 => exact iff_of_false List.not_mem_nil fun ⟨before, after, heq, _⟩ => by cases before <;> cases heq

theorem normalizeBreaks_eq_crlfToLf (h : ¬ LoneReturn t) : normalizeBreaks t = crlfToLf t := by
  fun_induction crlfToLf t with
  | case1 rest ih => rw [normalizeBreaks, ih (mt loneReturn_crlf.2 h)]
  | case2 ch rest hpair ih =>
    have hch : ch ≠ '\r' := by
      rintro rfl
      refine h ⟨[], rest, rfl, fun hhead => ?_⟩
      obtain ⟨rest', rfl⟩ := List.head?_eq_some_iff.1 hhead
      exact hpair rest' rfl rfl
    rw [normalizeBreaks_cons hch, ih (mt (loneReturn_cons hch).2 h)]
  | case3 => rfl

/-! ### Cells, once the breaks are normalized -/

theorem getLast?_of_not_loneReturn (h : ¬ LoneReturn t) : t.getLast? ≠ some '\r' := by
  intro hlast
  obtain ⟨before, rfl⟩ := List.getLast?_eq_some_iff.1 hlast
  exact h ⟨before, [], rfl, by simp⟩

/-- Quotes stand in no break. -/
theorem normalizeBreaks_doubleQuotes (t : Text) :
    normalizeBreaks (doubleQuotes t) = doubleQuotes (normalizeBreaks t) := by
  fun_induction normalizeBreaks t with
  | case1 rest ih =>
    show normalizeBreaks ('\r' :: '\n' :: doubleQuotes rest) = '\n' :: doubleQuotes (normalizeBreaks rest)
    rw [normalizeBreaks, ih]
  | case2 rest hrest ih =>
    have hhead : (doubleQuotes rest).head? ≠ some '\n' := by
      cases rest with
      | nil => simp [doubleQuotes]
      | cons ch rest =>
        have hch : ch ≠ '\n' := fun heq => hrest rest (by rw [heq])
        by_cases hquote : ch = '"' <;> simp [doubleQuotes, hquote, hch]
    show normalizeBreaks ('\r' :: doubleQuotes rest) = '\n' :: doubleQuotes (normalizeBreaks rest)
    rw [normalizeBreaks_return hhead, ih]
  | case3 ch rest hpair hch ih =>
    have hcons : ∀ v, doubleQuotes (ch :: v) = (if ch = '"' then ['"', '"'] else [ch]) ++ doubleQuotes v :=
      fun v => List.flatMap_cons
    rw [hcons, hcons, ← ih]
    split
    · rw [List.cons_append, List.cons_append, List.nil_append, normalizeBreaks_cons (by decide),
        normalizeBreaks_cons (by decide)]
      rfl
    · rw [List.cons_append, List.nil_append, normalizeBreaks_cons hch]
      rfl
  | case4 => rfl

/-- A cell that is quoted is quoted for what it is once its breaks are normalized. -/
theorem needsQuotes_normalizeBreaks (h : ¬ LoneReturn t) :
    needsQuotes (normalizeBreaks t) = needsQuotes t := by
  rw [normalizeBreaks_eq_crlfToLf h]
  fun_induction crlfToLf t with
  | case1 rest ih => rfl
  | case2 ch rest hpair ih =>
    by_cases hch : ch = '\r'
    · subst hch
      refine absurd ⟨[], rest, rfl, fun hhead => ?_⟩ h
      obtain ⟨rest', rfl⟩ := List.head?_eq_some_iff.1 hhead
      exact hpair rest' rfl rfl
    · have hrest := ih (mt (loneReturn_cons hch).2 h)
      simp only [needsQuotes, List.any_cons] at hrest ⊢
      rw [hrest]
  | case3 => rfl

theorem normalizeBreaks_escapeCell (h : ¬ LoneReturn t) :
    normalizeBreaks (escapeCell t) = escapeCell (normalizeBreaks t) := by
  unfold escapeCell
  rw [needsQuotes_normalizeBreaks h]
  split
  · rw [normalizeBreaks_cons (by decide), normalizeBreaks_append (.inr (by simp)),
      normalizeBreaks_doubleQuotes]
    rfl
  · rfl

theorem getLast?_escapeCell (h : ¬ LoneReturn t) : (escapeCell t).getLast? ≠ some '\r' := by
  unfold escapeCell
  split
  · rw [List.getLast?_cons, List.getLast?_append]
    simp
  · exact getLast?_of_not_loneReturn h

/-- The lines as the reader sees them. -/
def readLines (lines : List (List Text)) : Text := lines.flatMap fun line => writeLine line ++ ['\n']

theorem getLast?_writeLine : ∀ {line : List Text}, (∀ cell ∈ line, ¬ LoneReturn cell) →
    (writeLine line).getLast? ≠ some '\r'
  | [], _ => by simp [writeLine]
  | [cell], h => by
    have hcell : ¬ LoneReturn cell := h cell List.mem_cons_self
    simpa [writeLine] using getLast?_escapeCell hcell
  | cell :: next :: line, h => by
    have hline := getLast?_writeLine fun c hc => h c (List.mem_cons_of_mem cell hc)
    rw [writeLine, List.map_cons, List.map_cons, List.intercalate_cons_cons, ← List.map_cons]
    show (escapeCell cell ++ [','] ++ writeLine (next :: line)).getLast? ≠ _
    rw [List.getLast?_append, List.getLast?_append]
    cases hlast : (writeLine (next :: line)).getLast? with
    | none => simp
    | some ch => rw [hlast] at hline; simpa using hline

theorem normalizeBreaks_writeLine : ∀ {line : List Text}, (∀ cell ∈ line, ¬ LoneReturn cell) →
    normalizeBreaks (writeLine line) = writeLine (line.map normalizeBreaks)
  | [], _ => rfl
  | [cell], h => by
    have hcell : ¬ LoneReturn cell := h cell List.mem_cons_self
    simpa [writeLine] using normalizeBreaks_escapeCell hcell
  | cell :: next :: line, h => by
    have hline := normalizeBreaks_writeLine fun c hc => h c (List.mem_cons_of_mem cell hc)
    have hcell : ¬ LoneReturn cell := h cell List.mem_cons_self
    have hsplit : ∀ c d l, writeLine (c :: d :: l) = escapeCell c ++ [','] ++ writeLine (d :: l) := by
      intro c d l
      simp [writeLine, List.intercalate_cons_cons]
    rw [hsplit, List.map_cons, List.map_cons, hsplit, List.append_assoc,
      normalizeBreaks_append (.inl (getLast?_escapeCell hcell)), normalizeBreaks_append (.inl (by simp)),
      normalizeBreaks_escapeCell hcell, hline, List.append_assoc]
    rfl

/-- The reader's line breaks are those between the lines. -/
theorem normalizeBreaks_lines {lines : List (List Text)} (hlines : lines ≠ [])
    (h : ∀ line ∈ lines, ∀ cell ∈ line, ¬ LoneReturn cell) :
    normalizeBreaks (List.intercalate ['\r', '\n'] (lines.map writeLine) ++ ['\r', '\n']) =
      readLines (lines.map (·.map normalizeBreaks)) := by
  induction lines with
  | nil => exact absurd rfl hlines
  | cons line lines ih =>
    have hline := h line List.mem_cons_self
    have hlast := getLast?_writeLine hline
    have hbreak : ∀ u, normalizeBreaks (writeLine line ++ '\r' :: '\n' :: u) =
        writeLine (line.map normalizeBreaks) ++ '\n' :: normalizeBreaks u := by
      intro u
      rw [normalizeBreaks_append (.inl hlast), normalizeBreaks_writeLine hline, normalizeBreaks]
    cases lines with
    | nil => simpa [readLines, normalizeBreaks] using hbreak []
    | cons next lines =>
      have hrest := ih (List.cons_ne_nil next lines) fun l hl => h l (List.mem_cons_of_mem line hl)
      rw [List.map_cons, List.map_cons, List.intercalate_cons_cons, ← List.map_cons, List.append_assoc,
        List.append_assoc]
      show normalizeBreaks (writeLine line ++ '\r' :: '\n' :: (List.intercalate ['\r', '\n']
        ((next :: lines).map writeLine) ++ ['\r', '\n'])) = _
      rw [hbreak, hrest]
      simp [readLines]

/-! ### Reading back -/

section Reading

variable {r : Reader} {ch : Char}

theorem read_outside (hr : r.inQuotes = false) : r.read (ch :: u) =
    if ch = '"' then { r with inQuotes := true }.read u
    else if ch = ',' then r.endField.read u
    else if ch = '\n' then r.endRecord.read u
    else (r.push ch).read u := by
  rw [Reader.read.eq_def]
  simp only [hr, Bool.false_eq_true, if_false]

theorem read_inside (hr : r.inQuotes = true) (hch : ch ≠ '"') : r.read (ch :: u) = (r.push ch).read u := by
  rw [Reader.read.eq_def]
  simp only [hr, hch, if_true, if_false]

theorem read_doubled (hr : r.inQuotes = true) : r.read ('"' :: '"' :: u) = (r.push '"').read u := by
  rw [Reader.read.eq_def]
  simp only [hr, if_true]

theorem read_close (hr : r.inQuotes = true) (hu : u.head? ≠ some '"') :
    r.read ('"' :: u) = { r with inQuotes := false }.read u := by
  rw [Reader.read.eq_def]
  simp only [hr, if_true]
  split
  · exact absurd rfl hu
  · rfl

variable {records : List (List Text)} {record : List Text} {field : Text}

theorem read_plain (h : needsQuotes t = false) :
    Reader.read ⟨records, record, field, false⟩ (t ++ u) =
      Reader.read ⟨records, record, field ++ t, false⟩ u := by
  induction t generalizing field with
  | nil => rw [List.nil_append, List.append_nil]
  | cons ch t ih =>
    have hch : (ch ≠ '"' ∧ ch ≠ ',' ∧ ch ≠ '\n') ∧ needsQuotes t = false := by
      simpa [needsQuotes, and_assoc] using h
    obtain ⟨⟨hquote, hcomma, hbreak⟩, ht⟩ := hch
    rw [List.cons_append, read_outside rfl, if_neg hquote, if_neg hcomma, if_neg hbreak, Reader.push, ih ht,
      List.append_assoc]
    rfl

theorem read_quoted (h : u.head? ≠ some '"') :
    Reader.read ⟨records, record, field, true⟩ (doubleQuotes t ++ '"' :: u) =
      Reader.read ⟨records, record, field ++ t, false⟩ u := by
  induction t generalizing field with
  | nil =>
    rw [List.append_nil]
    exact read_close rfl h
  | cons ch t ih =>
    have hcons : doubleQuotes (ch :: t) = (if ch = '"' then ['"', '"'] else [ch]) ++ doubleQuotes t :=
      List.flatMap_cons
    have hpush : field ++ [ch] ++ t = field ++ ch :: t := by simp
    rw [hcons, ← hpush, ← ih, List.append_assoc]
    by_cases hch : ch = '"'
    · rw [if_pos hch, hch]
      exact read_doubled rfl
    · rw [if_neg hch]
      exact read_inside rfl hch

theorem read_escapeCell (h : u.head? ≠ some '"') :
    Reader.read ⟨records, record, [], false⟩ (escapeCell t ++ u) =
      Reader.read ⟨records, record, t, false⟩ u := by
  unfold escapeCell
  split
  · have hopen : ∀ v, Reader.read ⟨records, record, [], false⟩ ('"' :: v) =
        Reader.read ⟨records, record, [], true⟩ v := fun v => read_outside rfl
    rw [List.cons_append, hopen, List.append_assoc]
    exact read_quoted h
  · rename_i hplain
    exact read_plain (by simpa using hplain)

theorem read_writeLine {line : List Text} (hline : line ≠ []) :
    Reader.read ⟨records, record, [], false⟩ (writeLine line ++ '\n' :: u) =
      Reader.read ⟨records ++ [record ++ line], [], [], false⟩ u := by
  induction line generalizing record with
  | nil => exact absurd rfl hline
  | cons cell line ih =>
    cases line with
    | nil =>
      have hcell : writeLine [cell] = escapeCell cell := by simp [writeLine]
      rw [hcell, read_escapeCell (by simp)]
      exact read_outside rfl
    | cons next line =>
      have hsplit : writeLine (cell :: next :: line) ++ '\n' :: u =
          escapeCell cell ++ ',' :: (writeLine (next :: line) ++ '\n' :: u) := by
        simp [writeLine, List.intercalate_cons_cons]
      have hcomma : ∀ v, Reader.read ⟨records, record, cell, false⟩ (',' :: v) =
          Reader.read ⟨records, record ++ [cell], [], false⟩ v := fun v => read_outside rfl
      rw [hsplit, read_escapeCell (by simp), hcomma, ih (List.cons_ne_nil next line), List.append_assoc]
      rfl

theorem read_readLines {lines : List (List Text)} (h : ∀ line ∈ lines, line ≠ []) :
    Reader.read ⟨records, [], [], false⟩ (readLines lines) = ⟨records ++ lines, [], [], false⟩ := by
  induction lines generalizing records with
  | nil => rw [List.append_nil]; rfl
  | cons line lines ih =>
    have hcons : readLines (line :: lines) = writeLine line ++ '\n' :: readLines lines := by
      simp [readLines]
    rw [hcons, read_writeLine (h line List.mem_cons_self), List.nil_append,
      ih fun l hl => h l (List.mem_cons_of_mem line hl), List.append_assoc]
    rfl

end Reading

/-! ### Nothing is read but what is written -/

/-- No cell that has been read holds the character. -/
structure Reader.Free (ch : Char) (r : Reader) : Prop where
  records : ∀ record ∈ r.records, ∀ cell ∈ record, ch ∉ cell
  record : ∀ cell ∈ r.record, ch ∉ cell
  field : ch ∉ r.field

section Free

variable {ch : Char} {r : Reader}

theorem Reader.Free.push (h : r.Free ch) {x : Char} (hx : ch ≠ x) : (r.push x).Free ch :=
  ⟨h.records, h.record, by
    show ch ∉ r.field ++ [x]
    rw [List.mem_append, List.mem_singleton, not_or]
    exact ⟨h.field, hx⟩⟩

theorem Reader.Free.endField (h : r.Free ch) : r.endField.Free ch := by
  refine ⟨h.records, fun cell hcell => ?_, List.not_mem_nil⟩
  obtain hcell | hcell := List.mem_append.1 hcell
  · exact h.record cell hcell
  · rw [List.mem_singleton.1 hcell]
    exact h.field

theorem Reader.Free.endRecord (h : r.Free ch) : r.endRecord.Free ch := by
  refine ⟨fun record hrecord => ?_, fun _ hcell => absurd hcell List.not_mem_nil, List.not_mem_nil⟩
  obtain hrecord | hrecord := List.mem_append.1 hrecord
  · exact h.records record hrecord
  · rw [List.mem_singleton.1 hrecord]
    exact h.endField.record

theorem Reader.Free.read (h : r.Free ch) {src : Text} (hsrc : ch ∉ src) : (r.read src).Free ch := by
  fun_induction Reader.read r src with
  | case1 r => exact h
  | case2 r hquotes src ih =>
    simp only [List.mem_cons, not_or] at hsrc
    exact ih (h.push hsrc.1) hsrc.2.2
  | case3 r src hquotes hsrc' ih =>
    exact ih ⟨h.records, h.record, h.field⟩ fun hmem => hsrc (List.mem_cons_of_mem _ hmem)
  | case4 r x src hquotes hx ih =>
    simp only [List.mem_cons, not_or] at hsrc
    exact ih (h.push hsrc.1) hsrc.2
  | case5 r src hquotes ih =>
    exact ih ⟨h.records, h.record, h.field⟩ fun hmem => hsrc (List.mem_cons_of_mem _ hmem)
  | case6 r src hquotes hx ih => exact ih h.endField fun hmem => hsrc (List.mem_cons_of_mem _ hmem)
  | case7 r src hquotes hx hx' ih => exact ih h.endRecord fun hmem => hsrc (List.mem_cons_of_mem _ hmem)
  | case8 r x src hquotes hx hx' hx'' ih =>
    simp only [List.mem_cons, not_or] at hsrc
    exact ih (h.push hsrc.1) hsrc.2

end Free

theorem return_not_mem_parseCsvRecords (text : Text) :
    ∀ record ∈ parseCsvRecords text, ∀ cell ∈ record, '\r' ∉ cell := by
  have hstart : Reader.start.Free '\r' := by
    refine ⟨?_, ?_, List.not_mem_nil⟩ <;> exact fun _ h => absurd h List.not_mem_nil
  have hread := hstart.read (return_not_mem_normalizeBreaks text)
  unfold parseCsvRecords
  dsimp only
  split
  · exact hread.endRecord.records
  · exact hread.records

/-! ### The round trip -/

/-- What is read back from a table is the table, with CRLF as LF, exactly if no carriage return of
it stands on its own. -/
theorem parseCsvRecords_toCsv {columns : List Text} (hcolumns : columns ≠ [])
    (rows : List (Text → Option Text)) :
    parseCsvRecords (toCsv columns rows) = (table columns rows).map (·.map crlfToLf) ↔
      ∀ line ∈ table columns rows, ∀ cell ∈ line, ¬ LoneReturn cell := by
  constructor
  · intro heq line hline cell hcell hlone
    have hread := return_not_mem_parseCsvRecords (toCsv columns rows)
    rw [heq] at hread
    refine hread _ (List.mem_map_of_mem hline) _ (List.mem_map_of_mem hcell) ?_
    exact (return_mem_crlfToLf cell).2 hlone
  · intro h
    have hnonempty : ∀ line ∈ (table columns rows).map (·.map normalizeBreaks), line ≠ [] := by
      intro line hline
      obtain ⟨line, hmem, rfl⟩ := List.mem_map.1 hline
      obtain rfl | hmem := List.mem_cons.1 hmem
      · simpa using hcolumns
      · obtain ⟨row, -, rfl⟩ := List.mem_map.1 hmem
        simpa [cells] using hcolumns
    have hsame : (table columns rows).map (·.map normalizeBreaks) =
        (table columns rows).map (·.map crlfToLf) :=
      List.map_congr_left fun line hline => List.map_congr_left fun cell hcell =>
        normalizeBreaks_eq_crlfToLf (h line hline cell hcell)
    have hlines : table columns rows ≠ [] := List.cons_ne_nil _ _
    have hread : Reader.start.read (normalizeBreaks (toCsv columns rows)) =
        ⟨(table columns rows).map (·.map normalizeBreaks), [], [], false⟩ := by
      rw [toCsv, normalizeBreaks_lines hlines h]
      exact read_readLines hnonempty
    rw [parseCsvRecords, hread, ← hsame]
    rfl

def sampleColumns : List Text := ["title".toList, "note".toList]

def sampleRow (title note : String) : Text → Option Text := fun col =>
  if col = "title".toList then some title.toList else if col = "note".toList then some note.toList else none

/-- A quote, a comma and a CRLF in a cell come back, the CRLF as a line feed. -/
theorem parseCsvRecords_toCsv_quoted :
    parseCsvRecords (toCsv sampleColumns [sampleRow "a \"b\", c" "d\r\ne"]) =
      [sampleColumns, ["a \"b\", c".toList, "d\ne".toList]] := by
  have hlone : ∀ line ∈ table sampleColumns [sampleRow "a \"b\", c" "d\r\ne"], ∀ cell ∈ line,
      ¬ LoneReturn cell := by
    have hfree : ∀ line ∈ table sampleColumns [sampleRow "a \"b\", c" "d\r\ne"], ∀ cell ∈ line,
        '\r' ∉ crlfToLf cell := by decide +kernel
    exact fun line hline cell hcell => mt (return_mem_crlfToLf cell).2 (hfree line hline cell hcell)
  rw [(parseCsvRecords_toCsv (by decide +kernel) _).2 hlone]
  decide +kernel

/-- The row falls apart at a carriage return in its first cell. -/
theorem parseCsvRecords_loneReturn :
    2 ≤ sampleColumns.length ∧ sampleColumns.Nodup ∧
      (∀ col ∈ sampleColumns, ∀ ch ∈ col, ch.isWhitespace = false) ∧
      parseCsvRecords (toCsv sampleColumns [sampleRow "a\rb" "c"]) =
        [sampleColumns, ["a".toList], ["b".toList, "c".toList]] ∧
      parseCsvRecords (toCsv sampleColumns [sampleRow "a\rb" "c"]) ≠
        (table sampleColumns [sampleRow "a\rb" "c"]).map (·.map crlfToLf) := by
  have hparse : parseCsvRecords (toCsv sampleColumns [sampleRow "a\rb" "c"]) =
      [sampleColumns, ["a".toList], ["b".toList, "c".toList]] := by decide +kernel
  have hblank : (sampleColumns.all fun col => col.all fun ch => !ch.isWhitespace) = true := by decide
  simp only [List.all_eq_true, Bool.not_eq_true'] at hblank
  refine ⟨by decide, by decide, hblank, hparse, ?_⟩
  rw [hparse]
  decide

end CatalogSentinel.Adapters.Csv
