import Mathlib.Data.Prod.Lex
import Mathlib.Data.Rat.Init
import CatalogSentinel.Data.SeekPaging
import CatalogSentinel.Data.Utf16
import CatalogSentinel.Search.Record

/-!
The pages of a search history. The summaries are sorted by the collation of the locale, the
cursor compares code units. Following the cursors is exact if and only if the two agree at
every page boundary.
-/

namespace CatalogSentinel.Search

open Checkpoint (isSafeInteger)
open Data (Utf16)

variable {γ : Type}

/-- `String.prototype.localeCompare`, of which the standard asks for a consistent order. -/
structure Collation where
  localeCompare : Utf16 → Utf16 → Ordering
  consistent : Std.TransCmp localeCompare

structure SearchSummary (γ : Type) where
  id : Utf16
  createdAt : Utf16
  details : γ
deriving DecidableEq

structure SearchPageCursor where
  createdAt : Utf16
  id : Utf16
deriving DecidableEq

structure SearchPageOptions where
  limit : ℚ
  after : Option SearchPageCursor

structure SearchPage (γ : Type) where
  items : List (SearchSummary γ)
  nextCursor : Option SearchPageCursor
deriving DecidableEq

structure RangeError where
  message : String
deriving DecidableEq

def searchHistoryMaxPageSize : ℕ := 100

def validateSearchPageOptions (options : SearchPageOptions) : Except RangeError Unit :=
  if !isSafeInteger options.limit || options.limit < 1 || options.limit > searchHistoryMaxPageSize then
    .error ⟨s!"search history page size must be between 1 and {searchHistoryMaxPageSize}"⟩
  else .ok ()

def compareNewestFirst (collation : Collation) (a b : SearchSummary γ) : Ordering :=
  (collation.localeCompare b.createdAt a.createdAt).then (collation.localeCompare b.id a.id)

def isAfterCursor (item : SearchSummary γ) (cursor : SearchPageCursor) : Bool :=
  item.createdAt < cursor.createdAt || (item.createdAt = cursor.createdAt && item.id < cursor.id)

/-- The first summary of every id. -/
def unique (items : List (SearchSummary γ)) : List (SearchSummary γ) :=
  items.foldl (fun unique item => if unique.any (·.id = item.id) then unique else unique ++ [item]) []

def newestFirst (collation : Collation) (items : List (SearchSummary γ)) : List (SearchSummary γ) :=
  (unique items).mergeSort fun a b => (compareNewestFirst collation a b).isLE

def cursorOf (item : SearchSummary γ) : SearchPageCursor := ⟨item.createdAt, item.id⟩

def paginateSearchSummaries (collation : Collation) (items : List (SearchSummary γ))
    (options : SearchPageOptions) : Except RangeError (SearchPage γ) := do
  validateSearchPageOptions options
  let ordered := (newestFirst collation items).filter fun item => options.after.all (isAfterCursor item)
  let pageItems := ordered.take options.limit.num.toNat
  return {
    items := pageItems
    nextCursor := if ordered.length > options.limit then pageItems.getLast?.map cursorOf else none }

/-- From one page to the next, until a page names no next one. -/
def followCursors (collation : Collation) (items : List (SearchSummary γ)) (limit : ℚ) :
    ℕ → Option SearchPageCursor → Option (List (SearchSummary γ))
  | 0, _ => none
  | fuel + 1, after =>
    match paginateSearchSummaries collation items ⟨limit, after⟩ with
    | .error _ => none
    | .ok page =>
      match page.nextCursor with
      | none => some page.items
      | some next => (followCursors collation items limit fuel (some next)).map (page.items ++ ·)

/-- Every summary once, newest first. -/
structure VisitsAll (items visited : List (SearchSummary γ)) : Prop where
  once : visited.Perm (unique items)
  newestFirst : visited.Pairwise fun a b => b.createdAt ≤ a.createdAt

/-- The order in which cursors compare. -/
def SearchSummary.position (item : SearchSummary γ) : Utf16 ×ₗ Utf16 := toLex (item.createdAt, item.id)

def SearchPageCursor.position (cursor : SearchPageCursor) : Utf16 ×ₗ Utf16 :=
  toLex (cursor.createdAt, cursor.id)

/-- The collation sorts by creation time, and parts the summaries where the cursors part them. -/
structure Agrees (collation : Collation) (items : List (SearchSummary γ)) (size : ℕ) : Prop where
  times : (newestFirst collation items).Pairwise fun a b => b.createdAt ≤ a.createdAt
  boundaries : Data.Aligned SearchSummary.position size (newestFirst collation items)

/-! ### Pages of a sorted list -/

theorem isAfterCursor_eq (item : SearchSummary γ) (cursor : SearchPageCursor) :
    isAfterCursor item cursor = decide (item.position < cursor.position) := by
  have hlex : item.position < cursor.position ↔
      item.createdAt < cursor.createdAt ∨ item.createdAt = cursor.createdAt ∧ item.id < cursor.id :=
    Prod.Lex.toLex_lt_toLex
  rw [isAfterCursor, ← Bool.decide_and, ← Bool.decide_or]
  exact decide_eq_decide.2 hlex.symm

theorem validate_ok {limit : ℚ} {after : Option SearchPageCursor} :
    validateSearchPageOptions ⟨limit, after⟩ = .ok () ↔ isSafeInteger limit = true ∧ 1 ≤ limit ∧ limit ≤ 100 := by
  have hmax : ((searchHistoryMaxPageSize : ℕ) : ℚ) = 100 := by
    rw [searchHistoryMaxPageSize]
    norm_num
  rw [validateSearchPageOptions]
  split
  · next hbad =>
    simp only [hmax, Bool.or_eq_true, Bool.not_eq_true', decide_eq_true_eq] at hbad
    refine ⟨fun h => absurd h (by simp), fun h => ?_⟩
    rcases hbad with (hsafe | hlow) | hhigh
    · exact absurd h.1 (by simp [hsafe])
    · exact absurd h.2.1 (not_le.2 hlow)
    · exact absurd h.2.2 (not_le.2 hhigh)
  · next hgood =>
    simp only [hmax, Bool.or_eq_true, Bool.not_eq_true', decide_eq_true_eq, not_or, Bool.not_eq_false,
      not_lt] at hgood
    exact ⟨fun _ => ⟨hgood.1.1, hgood.1.2, hgood.2⟩, fun _ => rfl⟩

/-- The page sizes that are let through are the numbers from one to a hundred. -/
theorem exists_of_validate {limit : ℚ} {after : Option SearchPageCursor}
    (h : validateSearchPageOptions ⟨limit, after⟩ = .ok ()) : ∃ n : ℕ, 0 < n ∧ limit = n := by
  obtain ⟨hsafe, hone, -⟩ := validate_ok.1 h
  simp only [isSafeInteger, decide_eq_true_eq] at hsafe
  have hint : ((limit.num : ℤ) : ℚ) = limit := Rat.coe_int_num_of_den_eq_one hsafe.1
  have hone' : 1 ≤ limit.num := by
    rw [← hint] at hone
    exact_mod_cast hone
  obtain ⟨n, hn⟩ := Int.eq_ofNat_of_zero_le (by omega : 0 ≤ limit.num)
  exact ⟨n, by omega, by rw [← hint, hn]; rfl⟩

variable {collation : Collation} {items : List (SearchSummary γ)} {n : ℕ}

theorem filter_isAfterCursor (after : Option SearchPageCursor) (ordered : List (SearchSummary γ)) :
    ordered.filter (fun item => after.all (isAfterCursor item)) =
      Data.below SearchSummary.position (after.map SearchPageCursor.position) ordered := by
  rw [Data.below]
  apply List.filter_congr
  intro item _
  cases after with
  | none => rfl
  | some cursor => exact isAfterCursor_eq item cursor

variable (collation items) in
theorem paginate_eq {after : Option SearchPageCursor}
    (h : validateSearchPageOptions ⟨(n : ℚ), after⟩ = .ok ()) :
    ∃ next : Option SearchPageCursor,
      paginateSearchSummaries collation items ⟨(n : ℚ), after⟩ =
        .ok ⟨(Data.seekPage SearchSummary.position n (after.map SearchPageCursor.position)
          (newestFirst collation items)).items, next⟩ ∧
      next.map SearchPageCursor.position =
        (Data.seekPage SearchSummary.position n (after.map SearchPageCursor.position)
          (newestFirst collation items)).next := by
  have hcast (k : ℕ) : ((k : ℚ) > (n : ℚ)) ↔ n < k := Nat.cast_lt
  simp only [paginateSearchSummaries, h, filter_isAfterCursor, Rat.num_natCast, Int.toNat_natCast, hcast,
    Data.seekPage]
  refine ⟨_, rfl, ?_⟩
  split
  · rw [Option.map_map]
    rfl
  · rfl

theorem followCursors_eq (h : validateSearchPageOptions ⟨(n : ℚ), none⟩ = .ok ()) (fuel : ℕ)
    (after : Option SearchPageCursor) :
    followCursors collation items n fuel after =
      Data.follow SearchSummary.position n (newestFirst collation items) fuel
        (after.map SearchPageCursor.position) := by
  induction fuel generalizing after with
  | zero => rfl
  | succ fuel ih =>
    have hvalid : validateSearchPageOptions ⟨(n : ℚ), after⟩ = .ok () := validate_ok.2 (validate_ok.1 h)
    obtain ⟨next, hpage, hnext⟩ := paginate_eq collation items hvalid
    simp only [followCursors, Data.follow, hpage, ← hnext]
    cases next with
    | none => rfl
    | some cursor => simp only [Option.map_some, ih]

/-! ### What the sort keeps -/

theorem unique_step (kept : List (SearchSummary γ)) (item : SearchSummary γ)
    (h : (kept.map (·.id)).Nodup) :
    ((if kept.any (·.id = item.id) then kept else kept ++ [item]).map (·.id)).Nodup := by
  split
  · exact h
  · next hnew =>
    rw [List.map_append, List.nodup_append]
    refine ⟨h, List.nodup_singleton _, fun x hx y hy hxy => hnew ?_⟩
    obtain ⟨other, hother, rfl⟩ := List.mem_map.1 hx
    rw [List.map_singleton, List.mem_singleton] at hy
    exact List.any_eq_true.2 ⟨other, hother, decide_eq_true (hxy.trans hy)⟩

/-- No id is kept twice. -/
theorem nodup_unique (items : List (SearchSummary γ)) : ((unique items).map (·.id)).Nodup := by
  have hfold : ∀ kept : List (SearchSummary γ), (kept.map (·.id)).Nodup →
      ((items.foldl (fun unique item => if unique.any (·.id = item.id) then unique else unique ++ [item])
        kept).map (·.id)).Nodup := by
    induction items with
    | nil => exact fun kept h => h
    | cons item items ih => exact fun kept h => ih _ (unique_step kept item h)
  exact hfold [] List.nodup_nil

theorem perm_newestFirst (collation : Collation) (items : List (SearchSummary γ)) :
    (newestFirst collation items).Perm (unique items) := List.mergeSort_perm _ _

theorem nodup_newestFirst (collation : Collation) (items : List (SearchSummary γ)) :
    (newestFirst collation items).Nodup :=
  (perm_newestFirst collation items).nodup_iff.2 (nodup_unique items).of_map

/-- Every run over the cursors ends. -/
theorem followCursors_ends (h : validateSearchPageOptions ⟨(n : ℚ), none⟩ = .ok ())
    {fuel : ℕ} (hfuel : (unique items).length < fuel) :
    ∃ visited, followCursors collation items n fuel none = some visited := by
  have hpos : 0 < n := by
    have := (validate_ok.1 h).2.1
    exact_mod_cast this
  rw [followCursors_eq h]
  apply Data.exists_follow hpos
  rw [(perm_newestFirst collation items).length_eq]
  exact hfuel

/-- Following the cursors is exact if and only if the two orders agree at the page boundaries. -/
theorem visitsAll_iff (collation : Collation) (items : List (SearchSummary γ)) (limit : ℚ)
    (hlimit : validateSearchPageOptions ⟨limit, none⟩ = .ok ()) :
    (∃ fuel visited, followCursors collation items limit fuel none = some visited ∧ VisitsAll items visited) ↔
      Agrees collation items limit.num.toNat := by
  obtain ⟨n, hpos, rfl⟩ := exists_of_validate hlimit
  have hsorted := perm_newestFirst collation items
  have hnodup := nodup_newestFirst collation items
  rw [Rat.num_natCast, Int.toNat_natCast]
  constructor
  · rintro ⟨fuel, visited, hvisited, honce, hnewest⟩
    rw [followCursors_eq hlimit] at hvisited
    have haligned := (Data.follow_perm_iff hpos hnodup hvisited).1 (honce.trans hsorted.symm)
    rw [Data.follow_of_aligned hpos haligned hvisited] at hnewest
    exact ⟨hnewest, haligned⟩
  · rintro ⟨htimes, haligned⟩
    obtain ⟨visited, hvisited⟩ := followCursors_ends hlimit (Nat.lt_succ_self _)
    have hall := hvisited
    rw [followCursors_eq hlimit] at hall
    obtain rfl := Data.follow_of_aligned hpos haligned hall
    exact ⟨_, _, hvisited, hsorted, htimes⟩

/-- English puts letters in the order of the alphabet and a small letter before its capital. -/
def english : Collation where
  localeCompare := compareLex
    (compareOn fun s : Utf16 => s.map fun u => if 65 ≤ u ∧ u ≤ 90 then u + 32 else u)
    (compareOn fun s : Utf16 => s.map fun u => if 65 ≤ u ∧ u ≤ 90 then u + 32 else if 97 ≤ u ∧ u ≤ 122 then u - 32 else u)
  consistent := inferInstance

def summariesOf (ids : List String) : List (SearchSummary Unit) :=
  ids.map fun id => ⟨Utf16.ofString id, Utf16.ofString "2026-07-22T12:00:00.000Z", ()⟩

theorem newestFirst_pair {a b : String} (hunique : unique (summariesOf [a, b]) = summariesOf [a, b])
    (hle : (compareNewestFirst english ⟨Utf16.ofString a, Utf16.ofString "2026-07-22T12:00:00.000Z", ()⟩
      ⟨Utf16.ofString b, Utf16.ofString "2026-07-22T12:00:00.000Z", ()⟩).isLE = false) :
    newestFirst english (summariesOf [a, b]) = summariesOf [b, a] := by
  rw [newestFirst, hunique]
  simp [summariesOf, List.mergeSort, List.MergeSort.Internal.splitInTwo, hle]

theorem newestFirst_capital : newestFirst english (summariesOf ["a", "B"]) = summariesOf ["B", "a"] :=
  newestFirst_pair (by decide) (by decide)

theorem newestFirst_small : newestFirst english (summariesOf ["a", "b"]) = summariesOf ["b", "a"] :=
  newestFirst_pair (by decide) (by decide)

/-- Small letters alone are visited, each on its page. -/
theorem visitsAll_small : ∃ fuel visited,
    followCursors english (summariesOf ["a", "b"]) 1 fuel none = some visited ∧
      VisitsAll (summariesOf ["a", "b"]) visited := by
  apply (visitsAll_iff english _ 1 (validate_ok.2 ⟨by decide, by norm_num, by norm_num⟩)).2
  have hone : (1 : ℚ).num.toNat = 1 := rfl
  rw [hone]
  constructor
  · rw [newestFirst_small]
    decide
  · rw [newestFirst_small]
    intro m hm last hlast
    obtain rfl : m = 0 := by
      have hlen : (summariesOf ["b", "a"]).length = 2 := rfl
      omega
    obtain rfl := Option.some.inj hlast
    constructor <;> decide

/-- A capital sorts among the small letters, but its code precedes theirs: the small one is skipped. -/
theorem followCursors_skips :
    validateSearchPageOptions ⟨1, none⟩ = .ok () ∧
      followCursors english (summariesOf ["a", "B"]) 1 2 none = some (summariesOf ["B"]) ∧
      ¬ ∃ fuel visited, followCursors english (summariesOf ["a", "B"]) 1 fuel none = some visited ∧
        VisitsAll (summariesOf ["a", "B"]) visited := by
  have hlimit : validateSearchPageOptions ⟨((1 : ℕ) : ℚ), none⟩ = .ok () :=
    validate_ok.2 ⟨by decide, by norm_num, by norm_num⟩
  have heq (fuel : ℕ) : followCursors english (summariesOf ["a", "B"]) ((1 : ℕ) : ℚ) fuel none = _ :=
    followCursors_eq hlimit fuel none
  rw [Nat.cast_one] at hlimit heq
  refine ⟨hlimit, by rw [heq, newestFirst_capital]; decide, ?_⟩
  rintro ⟨fuel, visited, hvisited, honce, -⟩
  have hnodup := nodup_newestFirst english (summariesOf ["a", "B"])
  rw [heq] at hvisited
  have haligned := (Data.follow_perm_iff Nat.one_pos hnodup hvisited).1
    (honce.trans (perm_newestFirst english _).symm)
  rw [newestFirst_capital] at haligned
  have hsplits := (haligned 0 (by decide) _ (Option.mem_def.2 rfl)).2 _ List.mem_cons_self
  revert hsplits
  decide

end CatalogSentinel.Search
