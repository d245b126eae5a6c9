import Mathlib.Data.Nat.Digits.Lemmas
import CatalogSentinel.Distrokid.Jobs

/-!
The text of a job id: the queue and the sanitized segments, joined, and a short hash of
the segments as they are. Sanitizing keeps neither a character that is not allowed nor
the place of a separator, so only the hash tells some ids apart, and it has 32 bits. Within
one snapshot the numbers do.
-/

namespace CatalogSentinel.Distrokid

/-! ### The hash -/

def FNV_OFFSET : BitVec 32 := 0x811c9dc5#32

def FNV_PRIME : BitVec 32 := 0x01000193#32

/-- FNV-1a over the code points of the joined parts. -/
def fnv1a (parts : List String) : BitVec 32 :=
  ("\x00".intercalate parts).toList.foldl
    (fun h c => (h ^^^ BitVec.ofNat 32 c.toNat) * FNV_PRIME) FNV_OFFSET

/-- A digit of `toString(36)`. -/
def base36Digit (d : ℕ) : Char := Char.ofNat (if d < 10 then 48 + d else 87 + d)

def base36 (n : ℕ) : List Char :=
  if n = 0 then ['0'] else ((Nat.digits 36 n).map base36Digit).reverse

def padStart (width : ℕ) (text : List Char) : List Char :=
  List.replicate (width - text.length) '0' ++ text

def shortHash (parts : List String) : String :=
  String.ofList (padStart 7 (base36 (fnv1a parts).toNat))

/-! ### Ids -/

def SEP : String := "__"

def isSafe (c : Char) : Bool := c.isAlphanum || c = '_' || c = '-'

/-- Replaced by UTF-16 units: a character outside the basic plane has two. -/
def safeChar (c : Char) : List Char :=
  if isSafe c then [c] else if c.toNat < 0x10000 then ['-'] else ['-', '-']

def safeSegment (s : String) : String := String.ofList (s.toList.flatMap safeChar)

/-- The part of an id that can be read. -/
def readablePart (queue : String) (segments : List String) : String :=
  SEP.intercalate (queue :: segments.map safeSegment)

def buildId (queue : String) (segments : List String) : String :=
  SEP.intercalate (queue :: segments.map safeSegment ++ [shortHash segments])

/-- The segments of a stage job's id. -/
def StageJob.segments (j : StageJob) : List String :=
  [j.ref.tenantId, j.ref.connectionId, j.ref.snapshotId] ++
    match j with
    | .index _ => []
    | .plan _ => []
    | .chunk job => [s!"p{job.pass.getD 1}", toString job.chunkIndex] ++
        (if job.deferAttempt.getD 0 > 0 then [s!"d{job.deferAttempt.getD 0}"] else [])
    | .retry job => [toString job.attempt]
    | .reconcile job => [s!"p{job.pass.getD 1}"]
    | .finalize job => [s!"p{job.pass.getD 1}"]

/-- `jobIds`, with what the enqueuers pass to it. -/
def StageJob.idText (j : StageJob) : String := buildId j.queue j.segments

/-! ### The hash can be read back -/

def base36DigitValue (c : Char) : ℕ := if c.toNat < 58 then c.toNat - 48 else c.toNat - 87

def base36Value (text : List Char) : ℕ :=
  text.foldl (fun acc c => acc * 36 + base36DigitValue c) 0

theorem base36DigitValue_base36Digit {d : ℕ} (h : d < 36) :
    base36DigitValue (base36Digit d) = d := by
  revert d
  decide

theorem base36Value_reverse {ds : List ℕ} (h : ∀ d ∈ ds, d < 36) :
    base36Value (ds.map base36Digit).reverse = Nat.ofDigits 36 ds := by
  induction ds with
  | nil => rfl
  | cons d ds ih =>
    have hd := base36DigitValue_base36Digit (h d List.mem_cons_self)
    have hds := ih fun d' hd' => h d' (List.mem_cons_of_mem d hd')
    unfold base36Value at hds ⊢
    rw [List.map_cons, List.reverse_cons, List.foldl_append, List.foldl_cons, List.foldl_nil, hds, hd,
      Nat.ofDigits_cons]
    show Nat.ofDigits 36 ds * 36 + d = d + 36 * Nat.ofDigits 36 ds
    omega

theorem base36Value_base36 (n : ℕ) : base36Value (base36 n) = n := by
  unfold base36
  split
  · rename_i h
    rw [h]
    decide
  · rw [base36Value_reverse fun d hd => Nat.digits_lt_base (by decide) hd, Nat.ofDigits_digits]

theorem base36Value_padStart (width : ℕ) (text : List Char) :
    base36Value (padStart width text) = base36Value text := by
  unfold padStart
  induction width - text.length with
  | zero => rfl
  | succ k ih =>
    rw [List.replicate_succ, List.cons_append]
    exact ih

theorem length_base36 {n : ℕ} (h : n < 36 ^ 7) : (base36 n).length ≤ 7 := by
  unfold base36
  split
  · decide
  · rw [List.length_reverse, List.length_map]
    exact (Nat.digits_length_le_iff (by decide) n).2 h

theorem length_shortHash (parts : List String) : (shortHash parts).toList.length = 7 := by
  have hlt : (fnv1a parts).toNat < 36 ^ 7 := (fnv1a parts).isLt.trans (by decide)
  have hle := length_base36 hlt
  rw [shortHash, String.toList_ofList, padStart, List.length_append, List.length_replicate]
  omega

theorem shortHash_inj {parts parts' : List String} :
    shortHash parts = shortHash parts' ↔ fnv1a parts = fnv1a parts' := by
  constructor
  · intro h
    have hvalue := congrArg (fun s : String => base36Value s.toList) h
    simp only [shortHash, String.toList_ofList, base36Value_padStart, base36Value_base36] at hvalue
    exact BitVec.eq_of_toNat_eq hvalue
  · intro h
    rw [shortHash, shortHash, h]

/-! ### Ids apart -/

theorem intercalate_concat {α : Type} (sep y : List α) {xs : List (List α)} (h : xs ≠ []) :
    sep.intercalate (xs ++ [y]) = sep.intercalate xs ++ (sep ++ y) := by
  induction xs with
  | nil => exact absurd rfl h
  | cons x xs ih =>
    cases xs with
    | nil => simp [List.intercalate]
    | cons x' xs =>
      have hrest := ih (List.cons_ne_nil x' xs)
      rw [List.cons_append, List.cons_append, List.intercalate_cons_cons, List.intercalate_cons_cons,
        ← List.cons_append, hrest]
      simp only [List.append_assoc]

theorem toList_buildId (queue : String) (segments : List String) :
    (buildId queue segments).toList =
      (readablePart queue segments).toList ++ (SEP.toList ++ (shortHash segments).toList) := by
  unfold buildId readablePart
  rw [String.toList_intercalate, String.toList_intercalate, List.map_append]
  exact intercalate_concat _ _ (List.cons_ne_nil _ _)

theorem buildId_inj {queue queue' : String} {segments segments' : List String} :
    buildId queue segments = buildId queue' segments' ↔
      readablePart queue segments = readablePart queue' segments' ∧
        fnv1a segments = fnv1a segments' := by
  rw [← String.toList_inj, toList_buildId, toList_buildId, ← shortHash_inj]
  constructor
  · intro h
    have hlength : (SEP.toList ++ (shortHash segments).toList).length =
        (SEP.toList ++ (shortHash segments').toList).length := by
      rw [List.length_append, List.length_append, length_shortHash, length_shortHash]
    obtain ⟨hreadable, hhash⟩ := List.append_inj' h hlength
    exact ⟨String.toList_inj.1 hreadable, String.toList_inj.1 (List.append_cancel_left hhash)⟩
  · rintro ⟨hreadable, hhash⟩
    rw [hreadable, hhash]

/-- The account and the snapshot that a job belongs to. -/
def StageJob.triple (j : StageJob) : String × String × String :=
  (j.ref.tenantId, j.ref.connectionId, j.ref.snapshotId)

/-- The ids of two jobs differ unless neither the sanitized segments nor the hash tells
them apart. -/
theorem idText_ne_iff (j j' : StageJob) :
    j.idText ≠ j'.idText ↔
      ¬ (readablePart j.queue j.segments = readablePart j'.queue j'.segments ∧
        fnv1a j.segments = fnv1a j'.segments) :=
  not_congr buildId_inj

/-- An index job of one artist for this connection. -/
def indexOf (connectionId : String) : StageJob :=
  .index { tenantId := "tenant", connectionId := connectionId, snapshotId := "snapshot",
           distributor := "distrokid", consentId := none, artistWorkspaceId := none,
           steelSessionId := none, sessionExpiresAt := none, deadlineAt := none,
           schemaVersion := none, artists := ["Artist"] }

/-- Two connections of one tenant that sanitize to the same text and hash alike. -/
theorem idText_collides : ¬ ∀ j j' : StageJob, j.triple ≠ j'.triple → j.idText ≠ j'.idText := by
  intro h
  refine h (indexOf "a;b/c&d<") (indexOf "a?b#c#d!") (by decide) ?_
  decide +kernel

/-! ### Ids of one snapshot -/

namespace jobIds

variable (r : SnapshotRef)

def index : String := buildId "distrokid-catalog-index" [r.tenantId, r.connectionId, r.snapshotId]

def plan : String := buildId "distrokid-plan-chunks" [r.tenantId, r.connectionId, r.snapshotId]

def chunk (chunkIndex deferAttempt pass : ℤ) : String :=
  buildId "distrokid-release-chunk"
    ([r.tenantId, r.connectionId, r.snapshotId, s!"p{pass}", toString chunkIndex] ++
      (if deferAttempt > 0 then [s!"d{deferAttempt}"] else []))

def retry (attempt : ℤ) : String :=
  buildId "distrokid-retry-failed" [r.tenantId, r.connectionId, r.snapshotId, toString attempt]

def reconcile (pass : ℤ) : String :=
  buildId "distrokid-reconcile" [r.tenantId, r.connectionId, r.snapshotId, s!"p{pass}"]

def finalize (pass : ℤ) : String :=
  buildId "distrokid-finalize" [r.tenantId, r.connectionId, r.snapshotId, s!"p{pass}"]

end jobIds

/-- BullMQ's constraint. -/
def isValidBullJobId (id : String) : Bool := ':' ∉ id.toList && id.toList.length > 0

/-- The arguments of an id, beside the snapshot. -/
inductive StageKey
  | index
  | plan
  | chunk (chunkIndex deferAttempt pass : ℤ)
  | retry (attempt : ℤ)
  | reconcile (pass : ℤ)
  | finalize (pass : ℤ)
  deriving DecidableEq, Repr

namespace StageKey

def id (r : SnapshotRef) : StageKey → String
  | index => jobIds.index r
  | plan => jobIds.plan r
  | chunk chunkIndex deferAttempt pass => jobIds.chunk r chunkIndex deferAttempt pass
  | retry attempt => jobIds.retry r attempt
  | reconcile pass => jobIds.reconcile r pass
  | finalize pass => jobIds.finalize r pass

/-- No deferral is a deferral of zero. -/
def exact : StageKey → StageKey
  | chunk chunkIndex deferAttempt pass => chunk chunkIndex (max deferAttempt 0) pass
  | k => k

def queue : StageKey → String
  | index => "distrokid-catalog-index"
  | plan => "distrokid-plan-chunks"
  | chunk _ _ _ => "distrokid-release-chunk"
  | retry _ => "distrokid-retry-failed"
  | reconcile _ => "distrokid-reconcile"
  | finalize _ => "distrokid-finalize"

/-- The segments after those of the snapshot. -/
def segments : StageKey → List String
  | index | plan => []
  | chunk chunkIndex deferAttempt pass =>
    [s!"p{pass}", toString chunkIndex] ++ (if deferAttempt > 0 then [s!"d{deferAttempt}"] else [])
  | retry attempt => [toString attempt]
  | reconcile pass | finalize pass => [s!"p{pass}"]

theorem id_eq (r : SnapshotRef) (k : StageKey) :
    k.id r = buildId k.queue ([r.tenantId, r.connectionId, r.snapshotId] ++ k.segments) := by
  cases k <;> rfl

end StageKey

/-! ### Numbers in ids -/

/-- A segment that is kept as it is and has no part of a separator. -/
def IsPlainSegment (s : String) : Prop := ∀ c ∈ s.toList, isSafe c = true ∧ c ≠ '_'

theorem isPlainSegment_natRepr (n : ℕ) : IsPlainSegment (toString n) := by
  intro c hc
  rw [Nat.toString_eq_repr, Nat.toList_repr] at hc
  have hdigit : c.isDigit = true := Nat.isDigit_of_mem_toDigits (by decide) (by decide) hc
  refine ⟨?_, ?_⟩
  · simp [isSafe, Char.isAlphanum, hdigit]
  · rintro rfl
    exact absurd hdigit (by decide)

theorem natRepr_inj {n m : ℕ} (h : (toString n : String) = toString m) : n = m := by
  have hlist := congrArg String.toList h
  rw [Nat.toString_eq_repr, Nat.toString_eq_repr, Nat.toList_repr, Nat.toList_repr] at hlist
  have hvalue := congrArg (fun digits => Nat.ofDigitChars 10 digits 0) hlist
  simpa using hvalue

theorem isPlainSegment_intRepr (n : ℤ) : IsPlainSegment (toString n) := by
  cases n with
  | ofNat n => exact isPlainSegment_natRepr n
  | negSucc n =>
    intro c hc
    have hc' : c ∈ ("-" ++ toString (n + 1) : String).toList := hc
    rw [String.toList_append, List.mem_append] at hc'
    obtain hc' | hc' := hc'
    · have hc'' : c = '-' := by simpa using hc'
      rw [hc'']
      decide
    · exact isPlainSegment_natRepr (n + 1) c hc'

theorem intRepr_inj {n m : ℤ} (h : (toString n : String) = toString m) : n = m := by
  have hdash : ∀ k l : ℕ, (toString k : String) ≠ "-" ++ toString l := by
    intro k l heq
    have hmem : '-' ∈ (toString k : String).toList := by
      rw [heq, String.toList_append]
      exact List.mem_append_left _ (by decide)
    rw [Nat.toString_eq_repr, Nat.toList_repr] at hmem
    exact absurd (Nat.isDigit_of_mem_toDigits (by decide) (by decide) hmem) (by decide)
  cases n with
  | ofNat n =>
    cases m with
    | ofNat m => exact congrArg Int.ofNat (natRepr_inj h)
    | negSucc m => exact absurd h (hdash n (m + 1))
  | negSucc n =>
    cases m with
    | ofNat m => exact absurd h.symm (hdash m (n + 1))
    | negSucc m =>
      have h' : ("-" ++ toString (n + 1) : String) = "-" ++ toString (m + 1) := h
      have hlist := congrArg String.toList h'
      rw [String.toList_append, String.toList_append] at hlist
      have hnat := natRepr_inj (String.toList_inj.1 (List.append_cancel_left hlist))
      rw [Nat.succ.inj hnat]

/-- What a plain segment adds to an id. -/
def segmentText (s : String) : List Char := SEP.toList ++ (safeSegment s).toList

theorem intercalate_eq {α : Type} (sep x : List α) (xs : List (List α)) :
    sep.intercalate (x :: xs) = x ++ xs.flatMap (sep ++ ·) := by
  induction xs generalizing x with
  | nil => simp [List.intercalate]
  | cons y xs ih => rw [List.intercalate_cons_cons, ih, List.flatMap_cons, List.append_assoc, List.append_assoc]

theorem toList_readablePart (queue : String) (segments : List String) :
    (readablePart queue segments).toList = queue.toList ++ segments.flatMap segmentText := by
  rw [readablePart, String.toList_intercalate, List.map_cons, intercalate_eq, List.map_map, List.flatMap_map]
  rfl

theorem segmentText_plain {s : String} (h : IsPlainSegment s) : segmentText s = '_' :: '_' :: s.toList := by
  have hsafe : s.toList.flatMap safeChar = s.toList := by
    have hall := fun c hc => (h c hc).1
    generalize s.toList = text at hall
    induction text with
    | nil => rfl
    | cons c text ih =>
      rw [List.flatMap_cons, ih fun d hd => hall d (List.mem_cons_of_mem c hd), safeChar,
        if_pos (hall c List.mem_cons_self)]
      rfl
  rw [segmentText, safeSegment, String.toList_ofList, hsafe]
  rfl

/-- A text without an underscore ends where the next segment starts. -/
theorem append_underscore_inj {text text' rest rest' : List Char} (h : '_' ∉ text) (h' : '_' ∉ text')
    (hrest : rest = [] ∨ rest.head? = some '_') (hrest' : rest' = [] ∨ rest'.head? = some '_')
    (heq : text ++ rest = text' ++ rest') : text = text' ∧ rest = rest' := by
  have htake : ∀ {text rest : List Char}, '_' ∉ text → rest = [] ∨ rest.head? = some '_' →
      (text ++ rest).takeWhile (· ≠ '_') = text := by
    intro text rest htext hrest
    have hall : ∀ c ∈ text, decide (c ≠ '_') = true := fun c hc => decide_eq_true fun h => htext (h ▸ hc)
    rw [List.takeWhile_append_of_pos hall]
    obtain rfl | hrest := hrest
    · exact List.append_nil text
    · obtain ⟨more, rfl⟩ := List.head?_eq_some_iff.1 hrest
      exact List.append_nil text
  have htext : text = text' := by rw [← htake h hrest, ← htake h' hrest', heq]
  subst htext
  exact ⟨rfl, List.append_cancel_left heq⟩

/-- Plain segments can be read back from an id. -/
theorem flatMap_segmentText_inj {segments segments' : List String}
    (h : ∀ s ∈ segments, IsPlainSegment s) (h' : ∀ s ∈ segments', IsPlainSegment s)
    (heq : segments.flatMap segmentText = segments'.flatMap segmentText) : segments = segments' := by
  have hstart : ∀ {segments : List String}, (∀ s ∈ segments, IsPlainSegment s) →
      segments.flatMap segmentText = [] ∨ (segments.flatMap segmentText).head? = some '_' := by
    intro segments hplain
    cases segments with
    | nil => exact .inl rfl
    | cons s segments =>
      rw [List.flatMap_cons, segmentText_plain (hplain s List.mem_cons_self)]
      exact .inr rfl
  induction segments generalizing segments' with
  | nil =>
    cases segments' with
    | nil => rfl
    | cons s' segments' =>
      rw [List.flatMap_cons, segmentText_plain (h' s' List.mem_cons_self)] at heq
      cases heq
  | cons s segments ih =>
    cases segments' with
    | nil =>
      rw [List.flatMap_cons, segmentText_plain (h s List.mem_cons_self)] at heq
      cases heq
    | cons s' segments' =>
      have hs := h s List.mem_cons_self
      have hs' := h' s' List.mem_cons_self
      have hsegments := fun t ht => h t (List.mem_cons_of_mem s ht)
      have hsegments' := fun t ht => h' t (List.mem_cons_of_mem s' ht)
      rw [List.flatMap_cons, List.flatMap_cons, segmentText_plain hs, segmentText_plain hs'] at heq
      obtain ⟨htext, hrest⟩ := append_underscore_inj (fun hc => (hs _ hc).2 rfl) (fun hc => (hs' _ hc).2 rfl)
        (hstart hsegments) (hstart hsegments') (List.cons.inj (List.cons.inj heq).2).2
      rw [String.toList_inj.1 htext, ih hsegments hsegments' hrest]

namespace StageKey

theorem isPlainSegment_append {c : Char} (hc : isSafe c = true ∧ c ≠ '_') {s : String} (h : IsPlainSegment s) :
    IsPlainSegment (String.ofList [c] ++ s) := by
  intro d hd
  rw [String.toList_append, String.toList_ofList, List.mem_append, List.mem_singleton] at hd
  obtain rfl | hd := hd
  · exact hc
  · exact h d hd

theorem segments_plain (k : StageKey) : ∀ s ∈ k.segments, IsPlainSegment s := by
  have hpass : ∀ n : ℤ, IsPlainSegment s!"p{n}" :=
    fun n => isPlainSegment_append (by decide) (isPlainSegment_intRepr n)
  have hdefer : ∀ n : ℤ, IsPlainSegment s!"d{n}" :=
    fun n => isPlainSegment_append (by decide) (isPlainSegment_intRepr n)
  intro s hs
  cases k with
  | index => cases hs
  | plan => cases hs
  | chunk chunkIndex deferAttempt pass =>
    obtain hs | hs := List.mem_append.1 hs
    · simp only [List.mem_cons, List.not_mem_nil, or_false] at hs
      obtain rfl | rfl := hs
      · exact hpass pass
      · exact isPlainSegment_intRepr chunkIndex
    · split at hs
      · rw [List.mem_singleton.1 hs]
        exact hdefer deferAttempt
      · cases hs
  | retry attempt =>
    rw [List.mem_singleton.1 hs]
    exact isPlainSegment_intRepr attempt
  | reconcile pass =>
    rw [List.mem_singleton.1 hs]
    exact hpass pass
  | finalize pass =>
    rw [List.mem_singleton.1 hs]
    exact hpass pass

theorem segments_exact (k : StageKey) : k.exact.segments = k.segments := by
  cases k with
  | chunk chunkIndex deferAttempt pass =>
    by_cases h : deferAttempt > 0
    · rw [exact, max_eq_left h.le]
    · rw [exact, max_eq_right (not_lt.1 h)]
      simp only [segments, if_neg h, gt_iff_lt, lt_irrefl, if_false]
  | _ => rfl

theorem queue_exact (k : StageKey) : k.exact.queue = k.queue := by
  cases k <;> rfl

theorem id_exact (r : SnapshotRef) (k : StageKey) : k.exact.id r = k.id r := by
  rw [id_eq, id_eq, segments_exact, queue_exact]

theorem letter_inj {c : Char} {n m : ℤ} (h : String.ofList [c] ++ toString n = String.ofList [c] ++ toString m) :
    n = m := by
  have hlist := congrArg String.toList h
  rw [String.toList_append, String.toList_append] at hlist
  exact intRepr_inj (String.toList_inj.1 (List.append_cancel_left hlist))

/-- The queue and the segments tell the stages and their numbers apart. -/
theorem exact_eq {k k' : StageKey} (hqueue : k.queue = k'.queue) (hsegments : k.segments = k'.segments) :
    k.exact = k'.exact := by
  have hpass : ∀ n m : ℤ, s!"p{n}" = s!"p{m}" → n = m := fun _ _ => letter_inj (c := 'p')
  have hdefer : ∀ n m : ℤ, s!"d{n}" = s!"d{m}" → n = m := fun _ _ => letter_inj (c := 'd')
  cases k with
  | index => cases k' <;> first | rfl | exact absurd hqueue (by simp [queue])
  | plan => cases k' <;> first | rfl | exact absurd hqueue (by simp [queue])
  | chunk chunkIndex deferAttempt pass =>
    cases k' with
    | chunk otherIndex otherAttempt otherPass =>
      obtain ⟨hp, hrest⟩ := List.cons.inj hsegments
      obtain ⟨hi, hrest⟩ := List.cons.inj hrest
      have hd : max deferAttempt 0 = max otherAttempt 0 := by
        replace hrest : (if deferAttempt > 0 then [s!"d{deferAttempt}"] else []) =
          if otherAttempt > 0 then [s!"d{otherAttempt}"] else [] := hrest
        split at hrest
        · split at hrest
          · rw [hdefer _ _ (List.cons.inj hrest).1]
          · cases hrest
        · split at hrest
          · cases hrest
          · omega
      rw [exact, exact, hpass _ _ hp, intRepr_inj hi, hd]
    | _ => exact absurd hqueue (by simp [queue])
  | retry attempt =>
    cases k' with
    | retry attempt' => rw [intRepr_inj (List.cons.inj hsegments).1]
    | _ => exact absurd hqueue (by simp [queue])
  | reconcile pass =>
    cases k' with
    | reconcile pass' => rw [hpass _ _ (List.cons.inj hsegments).1]
    | _ => exact absurd hqueue (by simp [queue])
  | finalize pass =>
    cases k' with
    | finalize pass' => rw [hpass _ _ (List.cons.inj hsegments).1]
    | _ => exact absurd hqueue (by simp [queue])

theorem queue_mem (k : StageKey) : k.queue ∈ DK_QUEUE_NAMES := by
  cases k <;> simp [queue, DK_QUEUE_NAMES]

theorem queue_chars (k : StageKey) : '_' ∉ k.queue.toList ∧ ':' ∉ k.queue.toList := by
  have hall : (DK_QUEUE_NAMES.all fun q => decide ('_' ∉ q.toList) && decide (':' ∉ q.toList)) = true := by
    decide
  have hqueue := List.all_eq_true.1 hall k.queue k.queue_mem
  simpa only [Bool.and_eq_true, decide_eq_true_eq] using hqueue

end StageKey

theorem isSafe_safeSegment (s : String) : ∀ c ∈ (safeSegment s).toList, isSafe c = true := by
  intro c hc
  rw [safeSegment, String.toList_ofList, List.mem_flatMap] at hc
  obtain ⟨d, -, hd⟩ := hc
  unfold safeChar at hd
  split at hd
  · rename_i hsafe
    rw [List.mem_singleton.1 hd]
    exact hsafe
  · split at hd
    · rw [List.mem_singleton.1 hd]
      decide
    · simp only [List.mem_cons, List.not_mem_nil, or_false, or_self] at hd
      rw [hd]
      decide

theorem colon_shortHash (parts : List String) : ':' ∉ (shortHash parts).toList := by
  intro h
  rw [shortHash, String.toList_ofList, padStart, List.mem_append] at h
  obtain h | h := h
  · exact absurd (List.eq_of_mem_replicate h) (by decide)
  · unfold base36 at h
    split at h
    · exact absurd h (by decide)
    · rw [List.mem_reverse, List.mem_map] at h
      obtain ⟨d, hd, hcolon⟩ := h
      have hlt : d < 36 := Nat.digits_lt_base (by decide) hd
      have hne : ∀ d < 36, base36Digit d ≠ ':' := by decide
      exact hne d hlt hcolon

/-- Ids of one snapshot coincide for the same stage and numbers only, and BullMQ takes them all. -/
theorem jobIds_exact (r : SnapshotRef) (k k' : StageKey) :
    (k.id r = k'.id r ↔ k.exact = k'.exact) ∧ isValidBullJobId (k.id r) = true := by
  constructor
  · constructor
    · intro h
      rw [StageKey.id_eq, StageKey.id_eq, buildId_inj] at h
      have hlists := congrArg String.toList h.1
      rw [toList_readablePart, toList_readablePart] at hlists
      obtain ⟨hqueue, hsegments⟩ := append_underscore_inj k.queue_chars.1 k'.queue_chars.1
        (.inr rfl) (.inr rfl) hlists
      rw [List.flatMap_append, List.flatMap_append] at hsegments
      have hmore := flatMap_segmentText_inj k.segments_plain k'.segments_plain (List.append_cancel_left hsegments)
      exact StageKey.exact_eq (String.toList_inj.1 hqueue) hmore
    · intro h
      rw [← StageKey.id_exact r k, h, StageKey.id_exact]
  · rw [StageKey.id_eq, isValidBullJobId, toList_buildId, toList_readablePart]
    have hcolon : ':' ∉ k.queue.toList ++ ([r.tenantId, r.connectionId, r.snapshotId] ++ k.segments).flatMap
        segmentText ++ (SEP.toList ++ (shortHash ([r.tenantId, r.connectionId, r.snapshotId] ++
          k.segments)).toList) := by
      simp only [List.mem_append, not_or]
      refine ⟨⟨k.queue_chars.2, fun h => ?_⟩, by decide, colon_shortHash _⟩
      obtain ⟨s, -, hs⟩ := List.mem_flatMap.1 h
      obtain hs | hs := List.mem_append.1 hs
      · exact absurd hs (by decide)
      · exact absurd (isSafe_safeSegment s ':' hs) (by decide)
    rw [decide_eq_true hcolon, Bool.true_and, decide_eq_true_eq]
    simp only [List.length_append, length_shortHash]
    omega

end CatalogSentinel.Distrokid
