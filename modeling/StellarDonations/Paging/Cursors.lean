import Mathlib.Data.Prod.Lex
import Mathlib.Data.String.Basic
import StellarDonations.Containers.Descending
import StellarDonations.Containers.Pages
import StellarDonations.Containers.Windows
import StellarDonations.Errors

/-!
# Pages by cursor

`utils/pagination`. A cursor holds the time and the id of an entry; `encodeCursor` and
`decodeCursor`, which write it down, give it back. A page is cut out of a collection in memory
(`paginateCollection`) or fetched by a query to which the cursor adds a condition
(`cursorWhere`), and `buildCursorMeta` finds the cursors of a page that was fetched.
-/

namespace StellarDonations.Paging

open Descending

/-- `PAGINATION_DIRECTIONS`. -/
inductive Direction where
  | next
  | prev
  deriving DecidableEq, Repr

/-- `direction === 'next' ? next : prev`. -/
def Direction.pick {β : Type*} (next prev : β) : Direction → β
  | .next => next
  | .prev => prev

structure Cursor (τ ι : Type*) where
  timestamp : τ
  id : ι
  deriving DecidableEq

/-- The part of `meta` that all pages have. -/
structure PageMeta (γ : Type*) where
  limit : ℕ
  direction : Direction
  nextCursor : Option γ
  prevCursor : Option γ

structure Paged (α γ : Type*) where
  data : List α
  totalCount : ℕ
  pageMeta : PageMeta γ

def invalidCursor : AppError := .validationWith .invalidRequest "Invalid cursor parameter"

variable {α τ ι : Type*}

/-! ## Collections in memory -/

section Collection

variable [LinearOrder τ] [LinearOrder ι] (timestamp : α → τ) (id : α → ι)

/-- Time and id, in the order of the comparison. -/
def key (a : α) : τ ×ₗ ι := toLex (timestamp a, id a)

def Cursor.key (c : Cursor τ ι) : τ ×ₗ ι := toLex (c.timestamp, c.id)

def createCursorFromItem (item : α) : Cursor τ ι := ⟨timestamp item, id item⟩

def compareItemsDescending (left right : α) : Ordering :=
  if timestamp left ≠ timestamp right then compare (timestamp right) (timestamp left)
  else compare (id right) (id left)

/-- The collection as `paginateCollection` sorts it. -/
def sortedItems (items : List α) : List α :=
  items.insertionSort fun left right ↦ compareItemsDescending timestamp id left right ≠ .gt

def snapshotItems (items : List α) : Option τ → List α
  | none => items
  | some at_ => items.filter (timestamp · ≤ at_)

/-- The part of `paginateCollection` after the indices are known. -/
def slicePage (sorted : List α) (limit : ℕ) (direction : Direction) (startIndex endIndex : ℕ) :
    Paged α (Cursor τ ι) :=
  let pageItems := (sorted.take endIndex).drop startIndex
  { data := pageItems
    totalCount := sorted.length
    pageMeta :=
      { limit
        direction
        nextCursor := if endIndex < sorted.length then
          pageItems.getLast?.map (createCursorFromItem timestamp id) else none
        prevCursor := if 0 < startIndex then
          pageItems.head?.map (createCursorFromItem timestamp id) else none } }

def paginateCollection (items : List α) (cursor : Option (Cursor τ ι)) (limit : ℕ)
    (direction : Direction) (snapshotAt : Option τ) : Except AppError (Paged α (Cursor τ ι)) :=
  let sorted := sortedItems timestamp id (snapshotItems timestamp items snapshotAt)
  match cursor with
  | none => .ok (slicePage timestamp id sorted limit direction 0 limit)
  | some c =>
    match sorted.findIdx? fun item ↦ timestamp item = c.timestamp ∧ id item = c.id with
    | none => .error invalidCursor
    | some cursorIndex =>
      match direction with
      | .next => .ok (slicePage timestamp id sorted limit direction (cursorIndex + 1)
          (cursorIndex + 1 + limit))
      | .prev => .ok (slicePage timestamp id sorted limit direction (cursorIndex - limit)
          cursorIndex)

variable {timestamp id}

theorem key_lt_iff {a b : α} : key timestamp id a < key timestamp id b ↔
    timestamp a < timestamp b ∨ timestamp a = timestamp b ∧ id a < id b :=
  Prod.Lex.toLex_lt_toLex

theorem compareItemsDescending_ne_gt_iff (left right : α) :
    compareItemsDescending timestamp id left right ≠ .gt ↔
      key timestamp id right ≤ key timestamp id left := by
  rw [compareItemsDescending, key, key, Prod.Lex.toLex_le_toLex]
  split_ifs with hne
  · rw [ne_eq, compare_gt_iff_gt, not_lt]
    exact ⟨fun h ↦ .inl (lt_of_le_of_ne h hne.symm), fun h ↦ h.elim le_of_lt fun h ↦ h.1.le⟩
  · rw [ne_eq, compare_gt_iff_gt, not_lt]
    have heq : timestamp left = timestamp right := not_not.mp hne
    simp [heq]

theorem sortedItems_eq (items : List α) :
    sortedItems timestamp id items = sortDesc (key timestamp id) items := by
  unfold sortedItems sortDesc
  congr 1
  funext left right
  exact propext (compareItemsDescending_ne_gt_iff left right)

variable {items : List α} {snapshotAt : Option τ} {c : Cursor τ ι}

variable (timestamp id items snapshotAt) in
/-- The entries of all pages, the newest first. -/
def pageOrder : List α := sortDesc (key timestamp id) (snapshotItems timestamp items snapshotAt)

theorem pageOrder_of_perm {items' : List α} (hperm : items'.Perm items)
    (hdistinct : Distinct (key timestamp id) (snapshotItems timestamp items snapshotAt)) :
    pageOrder timestamp id items' snapshotAt = pageOrder timestamp id items snapshotAt := by
  have hsnapshot : (snapshotItems timestamp items' snapshotAt).Perm
      (snapshotItems timestamp items snapshotAt) := by
    cases snapshotAt with
    | none => exact hperm
    | some at_ => exact hperm.filter _
  exact sortDesc_eq (descending_sortDesc hdistinct) ((perm_sortDesc _).trans hsnapshot.symm)

theorem paginateCollection_none (limit : ℕ) (direction : Direction) :
    paginateCollection timestamp id items none limit direction snapshotAt =
      .ok (slicePage timestamp id (pageOrder timestamp id items snapshotAt) limit direction 0
        limit) := by
  rw [paginateCollection, sortedItems_eq]
  rfl

theorem paginateCollection_some
    (hdistinct : Distinct (key timestamp id) (snapshotItems timestamp items snapshotAt)) {i : ℕ}
    (hi : i < (pageOrder timestamp id items snapshotAt).length)
    (hc : c.key = key timestamp id (pageOrder timestamp id items snapshotAt)[i]) (limit : ℕ)
    (direction : Direction) :
    paginateCollection timestamp id items (some c) limit direction snapshotAt =
      .ok (match direction with
        | .next => slicePage timestamp id (pageOrder timestamp id items snapshotAt) limit .next
            (i + 1) (i + 1 + limit)
        | .prev => slicePage timestamp id (pageOrder timestamp id items snapshotAt) limit .prev
            (i - limit) i) := by
  have hfind : (pageOrder timestamp id items snapshotAt).findIdx?
      (fun item ↦ timestamp item = c.timestamp ∧ id item = c.id) = some i := by
    refine findIdx?_of_key (descending_sortDesc hdistinct) hi fun a ↦ ?_
    rw [decide_eq_true_iff]
    refine Iff.trans ?_ (Eq.congr_right hc)
    exact Prod.mk_inj.symm
  rw [paginateCollection, sortedItems_eq, ← pageOrder, hfind]
  cases direction <;> rfl

theorem paginateCollection_invalid
    (hc : ∀ a ∈ snapshotItems timestamp items snapshotAt, key timestamp id a ≠ c.key) (limit : ℕ)
    (direction : Direction) :
    paginateCollection timestamp id items (some c) limit direction snapshotAt =
      .error invalidCursor := by
  have hfind : (pageOrder timestamp id items snapshotAt).findIdx?
      (fun item ↦ timestamp item = c.timestamp ∧ id item = c.id) = none := by
    rw [List.findIdx?_eq_none_iff]
    refine fun a ha ↦ decide_eq_false fun heq ↦ hc a (mem_sortDesc.mp ha) ?_
    exact Prod.mk_inj.mpr heq
  rw [paginateCollection, sortedItems_eq, ← pageOrder, hfind]

/-! ## From page to page -/

/-- The cursor after the first `k` windows of a list. -/
def windowCursor (timestamp : α → τ) (id : α → ι) (limit : ℕ) (s : List α) (k : ℕ) :
    Option (Cursor τ ι) :=
  if k = 0 then none else s[k * limit - 1]?.map (createCursorFromItem timestamp id)

omit [LinearOrder τ] [LinearOrder ι] in
theorem isSome_windowCursor {limit : ℕ} {s : List α} (hlimit : 0 < limit) {k : ℕ}
    (hk : k + 1 < Windows.count limit s.length) :
    (windowCursor timestamp id limit s (k + 1)).isSome := by
  have hlt := (Windows.succ_lt_count_iff hlimit).mp hk
  rw [windowCursor, if_neg (Nat.succ_ne_zero k), List.getElem?_eq_getElem (by omega)]
  rfl

/-- The page at the cursor after the first windows is the next window. -/
theorem paginateCollection_windowCursor
    (hdistinct : Distinct (key timestamp id) (snapshotItems timestamp items snapshotAt))
    {limit : ℕ} (hlimit : 0 < limit) {k : ℕ}
    (hk : k < Windows.count limit (pageOrder timestamp id items snapshotAt).length) :
    paginateCollection timestamp id items
        (windowCursor timestamp id limit (pageOrder timestamp id items snapshotAt) k) limit .next
        snapshotAt =
      .ok (slicePage timestamp id (pageOrder timestamp id items snapshotAt) limit .next (k * limit)
        (k * limit + limit)) := by
  cases k with
  | zero =>
    rw [windowCursor, if_pos rfl, paginateCollection_none, Nat.zero_mul, Nat.zero_add]
  | succ k =>
    have hlt := (Windows.succ_lt_count_iff hlimit).mp hk
    have hpos : 0 < (k + 1) * limit := Nat.mul_pos (Nat.succ_pos k) hlimit
    have hi : (k + 1) * limit - 1 < (pageOrder timestamp id items snapshotAt).length := by omega
    rw [windowCursor, if_neg (Nat.succ_ne_zero k), List.getElem?_eq_getElem hi, Option.map_some,
      paginateCollection_some hdistinct hi rfl, Nat.sub_add_cancel hpos]

variable (timestamp id) in
omit [LinearOrder τ] [LinearOrder ι] in
theorem slicePage_window {limit : ℕ} (hlimit : 0 < limit) (s : List α) (k : ℕ) :
    (slicePage timestamp id s limit .next (k * limit) (k * limit + limit)).data =
        Windows.window limit s k ∧
      (slicePage timestamp id s limit .next (k * limit) (k * limit + limit)).pageMeta.nextCursor =
        if k + 1 < Windows.count limit s.length then
          windowCursor timestamp id limit s (k + 1) else none := by
  have hdata : (s.take (k * limit + limit)).drop (k * limit) = Windows.window limit s k := by
    rw [List.drop_take, Nat.add_sub_cancel_left, Windows.window]
  refine ⟨hdata, ?_⟩
  have hmul : (k + 1) * limit = k * limit + limit := Nat.succ_mul k limit
  simp only [slicePage, Windows.succ_lt_count_iff hlimit, hmul]
  split_ifs with hlt
  · rw [hdata, Windows.window, Pages.getLast?_take_drop hlimit hlt, windowCursor,
      if_neg (Nat.succ_ne_zero k), hmul, List.getElem?_eq_getElem (by omega)]
  · rfl

end Collection

/-! ## Queries -/

/-- The condition of a cursor on the columns of a row. Times are compared as texts and ids as
numbers, since the column of the ids has the affinity of an integer. -/
def beyondCursor (direction : Direction) (cursor : Cursor String ℕ) (timestamp : String) (id : ℕ) :
    Bool :=
  match direction with
  | .prev => cursor.timestamp < timestamp || (timestamp = cursor.timestamp && cursor.id < id)
  | .next => timestamp < cursor.timestamp || (timestamp = cursor.timestamp && id < cursor.id)

/-- `buildCursorWhereClause`. -/
def cursorWhere (cursor : Option (Cursor String ℕ)) (direction : Direction)
    (snapshotAt : Option String) (timestamp : String) (id : ℕ) : Bool :=
  cursor.all (fun c ↦ beyondCursor direction c timestamp id) &&
    snapshotAt.all fun at_ ↦ timestamp ≤ at_

structure FetchedMeta (γ : Type*) extends PageMeta γ where
  snapshotAt : Option String

def buildCursorMeta {γ : Type*} (cursorOf : α → γ) (items : List α) (limit : ℕ)
    (direction : Direction) (hasMore hasCursor : Bool) (snapshotAt : Option String) :
    FetchedMeta γ where
  limit := limit
  direction := direction
  nextCursor :=
    if direction.pick hasMore hasCursor then
      items.getLast?.map cursorOf else none
  prevCursor :=
    if direction.pick hasCursor hasMore then
      items.head?.map cursorOf else none
  snapshotAt := snapshotAt

/-- One row more than the limit is asked for, to know whether there is more: the rows of the page,
and whether there is. -/
def fetchPage (ordered : List α) (limit : ℕ) : List α × Bool :=
  let rows := ordered.take (limit + 1)
  let hasMore : Bool := limit < rows.length
  (if hasMore then rows.take limit else rows, hasMore)

theorem fetchPage_eq (ordered : List α) (limit : ℕ) :
    fetchPage ordered limit = (ordered.take limit, decide (limit < ordered.length)) := by
  have hmore : limit < (ordered.take (limit + 1)).length ↔ limit < ordered.length := by
    rw [List.length_take]
    omega
  unfold fetchPage
  simp only [hmore, decide_eq_true_eq]
  split_ifs with h
  · rw [List.take_take, Nat.min_eq_left (Nat.le_succ limit)]
  · rw [List.take_of_length_le (by omega), List.take_of_length_le (by omega)]

/-- The cursors of a page that was fetched are those of the same page cut out of a collection, when
what is asked agrees. -/
theorem buildCursorMeta_eq [LinearOrder τ] [LinearOrder ι] {timestamp : α → τ} {id : α → ι}
    {s : List α} {limit startIndex endIndex : ℕ} {direction : Direction} {hasMore hasCursor : Bool}
    (hnext : direction.pick hasMore hasCursor =
      decide (endIndex < s.length))
    (hprev : direction.pick hasCursor hasMore =
      decide (0 < startIndex)) :
    buildCursorMeta (createCursorFromItem timestamp id) ((s.take endIndex).drop startIndex) limit
        direction hasMore hasCursor none =
      { (slicePage timestamp id s limit direction startIndex endIndex).pageMeta with
        snapshotAt := none } := by
  simp only [buildCursorMeta, slicePage, hnext, hprev, decide_eq_true_eq]

section Texts

variable [LinearOrder τ] {text : τ → String} (htext : StrictMono text)
include htext

/-- Where texts compare like times, the condition for the next page is the order of the keys. -/
theorem beyondCursor_next (timestamp : α → τ) (id : α → ℕ) (c : Cursor τ ℕ)
    (a : α) :
    beyondCursor .next ⟨text c.timestamp, c.id⟩ (text (timestamp a)) (id a) =
      decide (key timestamp id a < c.key) := by
  rw [beyondCursor, Cursor.key, key, Bool.eq_iff_iff, decide_eq_true_iff, Prod.Lex.toLex_lt_toLex]
  simp [htext.lt_iff_lt, htext.injective.eq_iff]

theorem beyondCursor_prev (timestamp : α → τ) (id : α → ℕ) (c : Cursor τ ℕ) (a : α) :
    beyondCursor .prev ⟨text c.timestamp, c.id⟩ (text (timestamp a)) (id a) =
      decide (c.key < key timestamp id a) := by
  rw [beyondCursor, Cursor.key, key, Bool.eq_iff_iff, decide_eq_true_iff, Prod.Lex.toLex_lt_toLex]
  simp [htext.lt_iff_lt, htext.injective.eq_iff, @eq_comm τ (timestamp a)]

end Texts

end StellarDonations.Paging
