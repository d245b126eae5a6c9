import CatalogSentinel.Data.Text
import Mathlib.Tactic.Common

/-!
The names under which tracks and artists are the same: an ISRC in its canonical form, a title
without brackets, versions, marks and spelling, an artist credit and the members it lists. What
Unicode says of letters is given from outside.
-/

namespace CatalogSentinel.Stores

open Data

/-- `toUpperCase`, and `toLowerCase` with `normalize('NFKD')` and without diacritics. -/
structure Letters where
  upper : String → String
  fold : String → String

def isUpperAscii (ch : Char) : Bool := 'A' ≤ ch ∧ ch ≤ 'Z'

def isLowerAscii (ch : Char) : Bool := 'a' ≤ ch ∧ ch ≤ 'z'

def isDigitAscii (ch : Char) : Bool := '0' ≤ ch ∧ ch ≤ '9'

/-- `\w` -/
def isWordAscii (ch : Char) : Bool := isUpperAscii ch || isLowerAscii ch || isDigitAscii ch || ch = '_'

/-- What `.` does not match. -/
def isLineTerminator (ch : Char) : Bool := ch ∈ ['\n', '\r', '\u2028', '\u2029']

/-! ### Titles -/

/-- What follows the first `close` on the line, if there is one. -/
def afterClose (close : Char) : List Char → Option (List Char)
  | [] => none
  | ch :: cs => if ch = close then some cs else if isLineTerminator ch then none else afterClose close cs

/-- `.replace(/\(.*?\)|\[.*?\]/g, ' ')`, in at most so many steps as there are characters -/
def stripBrackets : ℕ → List Char → List Char
  | 0, cs => cs
  | _ + 1, [] => []
  | n + 1, ch :: cs =>
    let closed := if ch = '(' then afterClose ')' cs else if ch = '[' then afterClose ']' cs else none
    match closed with
    | some rest => ' ' :: stripBrackets n rest
    | none => ch :: stripBrackets n cs

def versionWords : List String :=
  ["feat", "ft", "featuring", "prod", "remix", "version", "edit", "radio", "extended", "original mix"]

/-- The word stands here, in any case. -/
def wordHere (word cs : List Char) : Bool := (cs.take word.length).map Char.toLower = word

/-- No word character stands here. -/
def wordEnds (cs : List Char) : Bool := !cs.head?.any isWordAscii

/-- `.replace(/\b(feat|…|original mix)\b.*$/i, ' ')`, after a character of a word or not -/
def stripVersion : Bool → List Char → List Char
  | _, [] => []
  | afterWord, ch :: cs =>
    if !afterWord &&
        versionWords.any (fun word =>
          wordHere word.toList (ch :: cs) && wordEnds ((ch :: cs).drop word.length)) &&
        !(ch :: cs).any isLineTerminator then [' ']
    else ch :: stripVersion (isWordAscii ch) cs

/-- `.replace(/[^a-z0-9]+/g, ' ')`, after a character that is replaced or not -/
def squeeze : Bool → List Char → List Char
  | _, [] => []
  | afterOther, ch :: cs =>
    if isLowerAscii ch || isDigitAscii ch then ch :: squeeze false cs
    else if afterOther then squeeze true cs
    else ' ' :: squeeze true cs

def normalizeTitle (letters : Letters) (s : String) : String :=
  let folded := (letters.fold s).toList
  String.ofList (trimBy isJsSpace (squeeze false (stripVersion false (stripBrackets folded.length folded))))

/-! ### Recordings -/

/-- `/^[A-Z]{2}[A-Z0-9]{3}\d{7}$/.test(v)`, of a text of capitals and digits -/
def isIsrc (v : List Char) : Bool :=
  v.length = 12 && (v.take 2).all isUpperAscii && (v.drop 5).all isDigitAscii

def normalizeIsrc (letters : Letters) (s : Option String) : Option String :=
  match s with
  | none => none
  | some s =>
    if s = "" then none
    else
      let v := (letters.upper s).toList.filter fun ch => isUpperAscii ch || isDigitAscii ch
      if isIsrc v then some (String.ofList v) else none

/-! ### Artists -/

def normalizeArtist (letters : Letters) (s : String) : String :=
  String.ofList (trimBy isJsSpace (squeeze false (letters.fold s).toList))

def creditWords : List String := ["featuring", "feat", "ft", "with", "x"]

/-- `\.?\b` after a word: a full stop belongs to it if a word character follows. -/
def creditEnd : List Char → Option (List Char)
  | '.' :: cs => if wordEnds cs then some ('.' :: cs) else some cs
  | cs => if wordEnds cs then some cs else none

/-- `&|,|;|\/|\b(?:feat(?:uring)?|ft|with|x)\.?\b`, and what follows it -/
def creditMark (afterWord : Bool) (cs : List Char) : Option (List Char) :=
  match cs with
  | [] => none
  | ch :: rest =>
    if ch ∈ ['&', ',', ';', '/'] then some rest
    else if afterWord then none
    else creditWords.findSome? fun word =>
      if wordHere word.toList cs then creditEnd (cs.drop word.length) else none

/-- The mark with the space around it. -/
def creditBreak (afterWord : Bool) (cs : List Char) : Option (List Char) :=
  let marked := cs.dropWhile isJsSpace
  (creditMark (afterWord && marked.length = cs.length) marked).map (·.dropWhile isJsSpace)

/-- `value.split(…)`, in at most so many steps as there are characters -/
def splitCredits : ℕ → Bool → List Char → List Char → List (List Char)
  | 0, _, piece, cs => [piece ++ cs]
  | _ + 1, _, piece, [] => [piece]
  | n + 1, afterWord, piece, ch :: cs =>
    match creditBreak afterWord (ch :: cs) with
    | some rest =>
      let matched := (ch :: cs).take ((ch :: cs).length - rest.length)
      piece :: splitCredits n (matched.getLast?.any isWordAscii) [] rest
    | none => splitCredits n (isWordAscii ch) (piece ++ [ch]) cs

def artistCredits (letters : Letters) (value : String) : List String :=
  let pieces := (splitCredits value.toList.length false [] value.toList).map String.ofList
  (((value :: pieces).map (normalizeArtist letters)).filter (· ≠ "")).eraseDups

def sameArtist (letters : Letters) (a b : Option String) : Bool :=
  match a, b with
  | some a, some b =>
    if a = "" ∨ b = "" then false
    else (artistCredits letters a).any fun name => (artistCredits letters b).contains name
  | _, _ => false

/-! ### Which credits agree with themselves -/

variable {letters : Letters}

theorem sameArtist_comm (a b : Option String) : sameArtist letters a b = sameArtist letters b a := by
  cases a with
  | none => cases b <;> rfl
  | some a =>
    cases b with
    | none => rfl
    | some b =>
      simp only [sameArtist, or_comm (a := a = "")]
      split
      · rfl
      · rw [Bool.eq_iff_iff, List.any_eq_true, List.any_eq_true]
        constructor
        · rintro ⟨name, hname, hmem⟩
          exact ⟨name, List.contains_iff_mem.1 hmem, List.contains_iff_mem.2 hname⟩
        · rintro ⟨name, hname, hmem⟩
          exact ⟨name, List.contains_iff_mem.1 hmem, List.contains_iff_mem.2 hname⟩

/-- A name agrees with itself if anything is left of it. -/
theorem sameArtist_self (a : String) :
    sameArtist letters (some a) (some a) = true ↔ a ≠ "" ∧ artistCredits letters a ≠ [] := by
  simp only [sameArtist, or_self]
  split
  · next hempty => simp [hempty]
  · next hne =>
    rw [List.any_eq_true]
    constructor
    · rintro ⟨name, hname, -⟩
      exact ⟨hne, List.ne_nil_of_mem hname⟩
    · rintro ⟨-, hcredits⟩
      obtain ⟨name, hname⟩ := List.exists_mem_of_ne_nil _ hcredits
      exact ⟨name, hname, List.contains_iff_mem.2 hname⟩

/-- A name that does not agree with itself agrees with none. -/
theorem sameArtist_of_self {a : String} (h : sameArtist letters (some a) (some a) = false) (b : Option String) :
    sameArtist letters b (some a) = false := by
  have hself := mt (sameArtist_self a).2 (ne_true_of_eq_false h)
  cases b with
  | none => rfl
  | some b =>
    simp only [sameArtist]
    split
    · rfl
    · next hne =>
      have hcredits : artistCredits letters a = [] := by
        by_contra hcredits
        exact hself ⟨fun ha => hne (.inr ha), hcredits⟩
      simp [hcredits]

end CatalogSentinel.Stores
