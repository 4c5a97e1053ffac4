import Mathlib.Data.List.Pairwise
import StellarDonations.Containers.Comparator
import StellarDonations.Paging.CursorText

/-!
# From page to page of a collection

`paginateCollection` as clients use it: the cursors of a page are texts, and the next request brings
one of them back. The ids are compared by the locale, which may take different texts for the same,
so only a collection that the comparison puts in a total order has pages that can be followed
(`TotallyOrdered`). There `next_cursor` leads through all entries up to the snapshot, the newest
first, and `prev_cursor` to the entries immediately before a page (`paginateCollection_walk`).
-/

namespace StellarDonations.Paging.Slices

open Comparator Timestamps

variable {α ν : Type}

/-- What `paginateCollection` uses of the entries: `new Date(item[timestampField]).getTime()`,
`String(item[idField])`, and how the locale compares such texts. -/
structure Fields (α : Type) where
  time : α → ℤ
  id : α → String
  localeCompare : String → String → Ordering

variable (f : Fields α)

def compareItemsDescending (left right : α) : Ordering :=
  if f.time left ≠ f.time right then compare (f.time right) (f.time left)
  else f.localeCompare (f.id right) (f.id left)

/-- The collection as `paginateCollection` sorts it. -/
def sortedItems (items : List α) : List α :=
  items.insertionSort fun left right ↦ compareItemsDescending f left right ≠ .gt

def filteredItems (items : List α) : Option ℤ → List α
  | none => items
  | some snapshotMs => items.filter (f.time · ≤ snapshotMs)

/-- `new Date(item[timestampField]).toISOString()`. -/
def isoTime (a : α) : String := toISOString (f.time a)

def encodePage (rt : Runtime ν) (page : Paged α (Cursor String String)) : Paged α String :=
  { data := page.data
    totalCount := page.totalCount
    pageMeta :=
      { limit := page.pageMeta.limit
        direction := page.pageMeta.direction
        nextCursor := page.pageMeta.nextCursor.map (encodeCursor rt)
        prevCursor := page.pageMeta.prevCursor.map (encodeCursor rt) } }

def paginateCollection (rt : Runtime ν) (items : List α) (cursor : Option (Cursor String String))
    (limit : ℕ) (direction : Direction) (snapshotAt : Option ℤ) :
    Except AppError (Paged α String) :=
  let sorted := sortedItems f (filteredItems f items snapshotAt)
  match cursor with
  | none => .ok (encodePage rt (slicePage (isoTime f) f.id sorted limit direction 0 limit))
  | some c =>
    match sorted.findIdx? fun item ↦ isoTime f item = c.timestamp ∧ f.id item = c.id with
    | none => .error invalidCursor
    | some cursorIndex =>
      let (startIndex, endIndex) := match direction with
        | .next => (cursorIndex + 1, cursorIndex + 1 + limit)
        | .prev => (cursorIndex - limit, cursorIndex)
      .ok (encodePage rt (slicePage (isoTime f) f.id sorted limit direction startIndex endIndex))

def requestPage (rt : Runtime ν) (items : List α) (limit : ℕ) (direction : Direction)
    (snapshotAt : Option ℤ) (cursor : Option String) : Except AppError (Paged α String) :=
  match decodeCursor rt cursor with
  | .ok c => paginateCollection f rt items c limit direction snapshotAt
  | .error e => .error e

def nextPage (rt : Runtime ν) (items : List α) (limit : ℕ) (snapshotAt : Option ℤ)
    (cursor : Option String) : Except AppError (List α × Option String) :=
  (requestPage f rt items limit .next snapshotAt cursor).map fun page ↦
    (page.data, page.pageMeta.nextCursor)

/-! ## The order -/

def Before (a b : α) : Prop := compareItemsDescending f a b = .lt

instance (a b : α) : Decidable (Before f a b) := inferInstanceAs (Decidable (_ = _))

/-- The comparison puts the entries in a total order, with no two in the same place. -/
structure TotallyOrdered (items : List α) : Prop where
  oriented : ∀ a ∈ items, ∀ b ∈ items,
    compareItemsDescending f b a = (compareItemsDescending f a b).swap
  transitive : ∀ a ∈ items, ∀ b ∈ items, ∀ c ∈ items, Before f a b → Before f b c → Before f a c
  distinct : items.Pairwise fun a b ↦ compareItemsDescending f a b ≠ .eq

variable {f} {items : List α}

namespace TotallyOrdered

theorem sublist (h : TotallyOrdered f items) {l : List α} (hl : l.Sublist items) :
    TotallyOrdered f l where
  oriented := fun a ha b hb ↦ h.oriented a (hl.subset ha) b (hl.subset hb)
  transitive := fun a ha b hb c hc ↦
    h.transitive a (hl.subset ha) b (hl.subset hb) c (hl.subset hc)
  distinct := h.distinct.sublist hl

theorem filteredItems (h : TotallyOrdered f items) (snapshotAt : Option ℤ) :
    TotallyOrdered f (filteredItems f items snapshotAt) := by
  cases snapshotAt with
  | none => exact h
  | some snapshotMs => exact h.sublist List.filter_sublist

theorem compare_self (h : TotallyOrdered f items) {a : α} (ha : a ∈ items) :
    compareItemsDescending f a a = .eq := by
  have hswap := h.oriented a ha a ha
  cases hcompare : compareItemsDescending f a a with
  | eq => rfl
  | lt =>
    rw [hcompare] at hswap
    cases hswap
  | gt =>
    rw [hcompare] at hswap
    cases hswap

theorem nodup (h : TotallyOrdered f items) : items.Nodup := by
  refine h.distinct.imp_of_mem fun {a b} ha _ hne heq ↦ hne ?_
  rw [← heq]
  exact h.compare_self ha

theorem eq_of_compare_eq (h : TotallyOrdered f items) {a b : α} (ha : a ∈ items) (hb : b ∈ items)
    (heq : compareItemsDescending f a b = .eq) : a = b := by
  by_contra hne
  have hboth : items.Pairwise fun x y ↦
      compareItemsDescending f x y ≠ .eq ∧ compareItemsDescending f y x ≠ .eq := by
    refine h.distinct.imp_of_mem fun {x y} hx hy hxy ↦ ⟨hxy, ?_⟩
    rw [h.oriented x hx y hy, ne_eq, Ordering.swap_eq_eq]
    exact hxy
  have : Std.Symm fun x y ↦
      compareItemsDescending f x y ≠ .eq ∧ compareItemsDescending f y x ≠ .eq :=
    ⟨fun _ _ hand ↦ hand.symm⟩
  exact (hboth.forall ha hb hne).1 heq

theorem ne_gt_trans (h : TotallyOrdered f items) {a b c : α} (ha : a ∈ items) (hb : b ∈ items)
    (hc : c ∈ items) (hab : compareItemsDescending f a b ≠ .gt)
    (hbc : compareItemsDescending f b c ≠ .gt) : compareItemsDescending f a c ≠ .gt := by
  cases hab' : compareItemsDescending f a b with
  | gt => exact absurd hab' hab
  | eq => rwa [h.eq_of_compare_eq ha hb hab']
  | lt =>
    cases hbc' : compareItemsDescending f b c with
    | gt => exact absurd hbc' hbc
    | eq =>
      rw [← h.eq_of_compare_eq hb hc hbc', hab']
      exact nofun
    | lt =>
      rw [h.transitive a ha b hb c hc hab' hbc']
      exact nofun

theorem ne_gt_total (h : TotallyOrdered f items) {a b : α} (ha : a ∈ items) (hb : b ∈ items) :
    compareItemsDescending f a b ≠ .gt ∨ compareItemsDescending f b a ≠ .gt := by
  rw [h.oriented a ha b hb]
  cases compareItemsDescending f a b with
  | lt => exact .inl nofun
  | eq => exact .inl nofun
  | gt => exact .inr nofun

theorem pairwise_sortedItems (h : TotallyOrdered f items) :
    (sortedItems f items).Pairwise (Before f) := by
  -- among the entries of the collection the comparison is a total preorder
  have hle : (sortedItems f items).Pairwise fun a b ↦ compareItemsDescending f a b ≠ .gt :=
    pairwise_insertionSort_of_mem _ (fun _ ha _ hb ↦ h.ne_gt_total ha hb)
      fun _ ha _ hb _ hc ↦ h.ne_gt_trans ha hb hc
  have hperm : (sortedItems f items).Perm items := List.perm_insertionSort _ items
  refine (hle.and (hperm.nodup_iff.mpr h.nodup)).imp_of_mem fun {a b} ha hb hab ↦ ?_
  cases hcompare : compareItemsDescending f a b with
  | lt => exact hcompare
  | eq => exact absurd (h.eq_of_compare_eq (hperm.subset ha) (hperm.subset hb) hcompare) hab.2
  | gt => exact absurd hcompare hab.1

end TotallyOrdered

/-! ## Cursors -/

variable (f) in
/-- The texts of the times in the collection are read as these times. -/
def Parses (rt : Runtime ν) (items : List α) : Prop :=
  ∀ a ∈ items, rt.getTime (isoTime f a) = some (f.time a)

variable (f items) in
/-- The entries of all pages, the newest first. -/
def pageOrder (snapshotAt : Option ℤ) : List α := sortedItems f (filteredItems f items snapshotAt)

variable (f) in
def cursorText (rt : Runtime ν) (a : α) : String :=
  encodeCursor rt (createCursorFromItem (isoTime f) f.id a)

section Requests

variable {rt : Runtime ν} {snapshotAt : Option ℤ}

theorem perm_pageOrder : (pageOrder f items snapshotAt).Perm (filteredItems f items snapshotAt) :=
  List.perm_insertionSort _ _

theorem mem_of_mem_pageOrder {a : α} (ha : a ∈ pageOrder f items snapshotAt) : a ∈ items := by
  have hmem := perm_pageOrder.subset ha
  cases snapshotAt with
  | none => exact hmem
  | some snapshotMs => exact List.mem_of_mem_filter hmem

theorem pairwise_pageOrder (h : TotallyOrdered f items) :
    (pageOrder f items snapshotAt).Pairwise (Before f) :=
  (h.filteredItems snapshotAt).pairwise_sortedItems

theorem eq_of_cursor_eq (h : TotallyOrdered f items) (hparse : Parses f rt items) {a b : α}
    (ha : a ∈ items) (hb : b ∈ items) (htime : isoTime f a = isoTime f b) (hid : f.id a = f.id b) :
    compareItemsDescending f a b = .eq := by
  have htimes : f.time a = f.time b := by
    have hread := hparse a ha
    rw [htime, hparse b hb] at hread
    exact (Option.some.inj hread).symm
  have hself := h.compare_self hb
  rw [compareItemsDescending, if_neg (not_not.mpr rfl)] at hself
  rw [compareItemsDescending, if_neg (not_not.mpr htimes), hid]
  exact hself

theorem findIdx?_cursor (h : TotallyOrdered f items) (hparse : Parses f rt items) {i : ℕ}
    (hi : i < (pageOrder f items snapshotAt).length) {c : Cursor String String}
    (hc : createCursorFromItem (isoTime f) f.id (pageOrder f items snapshotAt)[i] = c) :
    (pageOrder f items snapshotAt).findIdx? (fun item ↦
      isoTime f item = c.timestamp ∧ f.id item = c.id) = some i := by
  rw [List.findIdx?_eq_some_iff_getElem]
  subst hc
  refine ⟨hi, decide_eq_true ⟨rfl, rfl⟩, fun j hj hcursor ↦ ?_⟩
  obtain ⟨htime, hid⟩ := of_decide_eq_true hcursor
  have hbefore := List.pairwise_iff_getElem.mp (pairwise_pageOrder h) j i (hj.trans hi)
    hi hj
  have hmem := fun (k : ℕ) (hk : k < (pageOrder f items snapshotAt).length) ↦
    mem_of_mem_pageOrder (List.getElem_mem hk)
  rw [Before, eq_of_cursor_eq h hparse (hmem j _) (hmem i hi) htime hid] at hbefore
  cases hbefore

/-- The indices at which a direction cuts, from the place of the cursor. -/
def indices (limit cursorIndex : ℕ) : Direction → ℕ × ℕ
  | .next => (cursorIndex + 1, cursorIndex + 1 + limit)
  | .prev => (cursorIndex - limit, cursorIndex)

theorem requestPage_none (limit : ℕ) (direction : Direction) :
    requestPage f rt items limit direction snapshotAt none =
      .ok (encodePage rt (slicePage (isoTime f) f.id (pageOrder f items snapshotAt) limit direction
        0 limit)) := rfl

theorem requestPage_cursorText (h : TotallyOrdered f items) (hparse : Parses f rt items) {i : ℕ}
    (hi : i < (pageOrder f items snapshotAt).length) (limit : ℕ) (direction : Direction) :
    requestPage f rt items limit direction snapshotAt
        (some (cursorText f rt (pageOrder f items snapshotAt)[i])) =
      .ok (encodePage rt (slicePage (isoTime f) f.id (pageOrder f items snapshotAt) limit direction
        (indices limit i direction).1 (indices limit i direction).2)) := by
  have hmem := mem_of_mem_pageOrder (List.getElem_mem hi)
  have hdecode := decodeCursor_encodeCursor rt
    (c := createCursorFromItem (isoTime f) f.id (pageOrder f items snapshotAt)[i]) rfl
    (hparse _ hmem)
  have hsorted : sortedItems f (filteredItems f items snapshotAt) = pageOrder f items snapshotAt :=
    rfl
  rw [requestPage, cursorText, hdecode]
  generalize hc : createCursorFromItem (isoTime f) f.id (pageOrder f items snapshotAt)[i] = c
  simp only [paginateCollection, hsorted, findIdx?_cursor h hparse hi hc]
  cases direction with
  | next => rfl
  | prev => rfl

theorem exists_slicePage_of_ok {limit : ℕ} {direction : Direction} {cursor : Option String}
    {page : Paged α String}
    (hpage : requestPage f rt items limit direction snapshotAt cursor = .ok page) :
    ∃ startIndex endIndex, startIndex ≤ endIndex ∧ page = encodePage rt
      (slicePage (isoTime f) f.id (pageOrder f items snapshotAt) limit direction startIndex
        endIndex) := by
  rw [requestPage] at hpage
  cases hdecode : decodeCursor rt cursor with
  | error e =>
    rw [hdecode] at hpage
    cases hpage
  | ok c =>
    rw [hdecode] at hpage
    dsimp only at hpage
    unfold paginateCollection at hpage
    cases c with
    | none => exact ⟨0, limit, Nat.zero_le limit, (Except.ok.inj hpage).symm⟩
    | some c =>
      dsimp only at hpage
      split at hpage
      · cases hpage
      · rename_i cursorIndex _
        cases direction with
        | next => exact ⟨_, _, Nat.le_add_right _ _, (Except.ok.inj hpage).symm⟩
        | prev => exact ⟨_, _, Nat.sub_le _ _, (Except.ok.inj hpage).symm⟩

/-! ## Walking -/

/-- The text of the cursor after the first `k` windows. -/
def windowText (f : Fields α) (rt : Runtime ν) (limit : ℕ) (s : List α) (k : ℕ) : Option String :=
  (windowCursor (isoTime f) f.id limit s k).map (encodeCursor rt)

/-- The page at the cursor after the first windows is the next window. -/
theorem nextPage_windowText (h : TotallyOrdered f items) (hparse : Parses f rt items) {limit : ℕ}
    (hlimit : 0 < limit) {k : ℕ}
    (hk : k < Windows.count limit (pageOrder f items snapshotAt).length) :
    nextPage f rt items limit snapshotAt
        (windowText f rt limit (pageOrder f items snapshotAt) k) =
      .ok (Windows.window limit (pageOrder f items snapshotAt) k,
        if k + 1 < Windows.count limit (pageOrder f items snapshotAt).length then
          windowText f rt limit (pageOrder f items snapshotAt) (k + 1) else none) := by
  obtain ⟨hdata, hnext⟩ := slicePage_window (isoTime f) f.id hlimit (pageOrder f items snapshotAt) k
  have hpage : requestPage f rt items limit .next snapshotAt
      (windowText f rt limit (pageOrder f items snapshotAt) k) =
      .ok (encodePage rt (slicePage (isoTime f) f.id (pageOrder f items snapshotAt) limit .next
        (k * limit) (k * limit + limit))) := by
    cases k with
    | zero =>
      rw [windowText, windowCursor, if_pos rfl, Option.map_none, requestPage_none, Nat.zero_mul,
        Nat.zero_add]
    | succ k =>
      have hlt := (Windows.succ_lt_count_iff hlimit).mp hk
      have hpos : 0 < (k + 1) * limit := Nat.mul_pos (Nat.succ_pos k) hlimit
      have hi : (k + 1) * limit - 1 < (pageOrder f items snapshotAt).length := by omega
      rw [windowText, windowCursor, if_neg (Nat.succ_ne_zero k), List.getElem?_eq_getElem hi,
        Option.map_some, Option.map_some]
      refine (requestPage_cursorText h hparse hi limit .next).trans ?_
      rw [indices, Nat.sub_add_cancel hpos]
  rw [nextPage, hpage]
  dsimp only [Except.map, encodePage]
  rw [hdata, hnext]
  split_ifs
  · rfl
  · rfl

/-- **The next pages** are the collection in windows. -/
theorem exists_follows (h : TotallyOrdered f items) (hparse : Parses f rt items) {limit : ℕ}
    (hlimit : 0 < limit) :
    ∃ pages, Windows.Follows (nextPage f rt items limit snapshotAt) none pages ∧
      pages.flatten = pageOrder f items snapshotAt := by
  have hfollows := Windows.follows_range
    (Windows.window limit (pageOrder f items snapshotAt))
    (windowText f rt limit (pageOrder f items snapshotAt))
    (fun k hk ↦ nextPage_windowText h hparse hlimit hk)
    (fun k hk ↦ by
      rw [windowText, Option.isSome_map]
      exact isSome_windowCursor hlimit hk)
    (Windows.count_pos limit _)
  rw [Nat.sub_zero, ← List.range_eq_range'] at hfollows
  exact ⟨_, hfollows, Windows.flatten_windows hlimit _⟩

/-- **The previous page** has the entries immediately before a page. -/
theorem exists_prevPage (h : TotallyOrdered f items) (hparse : Parses f rt items) {limit : ℕ}
    {direction : Direction} {cursor : Option String} {page : Paged α String} {prev : String}
    (hpage : requestPage f rt items limit direction snapshotAt cursor = .ok page)
    (hprev : page.pageMeta.prevCursor = some prev) (limit' : ℕ) :
    ∃ before after prevPage, before ++ page.data ++ after = pageOrder f items snapshotAt ∧
      requestPage f rt items limit' .prev snapshotAt (some prev) = .ok prevPage ∧
      prevPage.data = before.drop (before.length - limit') := by
  obtain ⟨startIndex, endIndex, hle, rfl⟩ := exists_slicePage_of_ok hpage
  -- the cursor is that of the first entry of the page
  have hfirst : (((pageOrder f items snapshotAt).take endIndex).drop startIndex).head?.map
      (cursorText f rt) = some prev := by
    rw [← hprev, encodePage, slicePage]
    dsimp only
    split_ifs with hpos
    · rw [Option.map_map]
      rfl
    · rw [encodePage, slicePage] at hprev
      dsimp only at hprev
      rw [if_neg hpos] at hprev
      cases hprev
  rw [List.head?_drop, List.getElem?_take] at hfirst
  split_ifs at hfirst with hlt
  · obtain ⟨a, ha, rfl⟩ := Option.map_eq_some_iff.mp hfirst
    obtain ⟨hi, rfl⟩ := List.getElem?_eq_some_iff.mp ha
    refine ⟨(pageOrder f items snapshotAt).take startIndex,
      (pageOrder f items snapshotAt).drop endIndex, _, ?_,
      requestPage_cursorText h hparse hi limit' .prev, ?_⟩
    · have htake : (pageOrder f items snapshotAt).take startIndex =
          ((pageOrder f items snapshotAt).take endIndex).take startIndex := by
        rw [List.take_take, Nat.min_eq_left hle]
      change _ ++ ((pageOrder f items snapshotAt).take endIndex).drop startIndex ++ _ = _
      rw [htake, List.take_append_drop, List.take_append_drop]
    · rw [List.length_take, Nat.min_eq_left hi.le]
      rfl
  · cases hfirst

end Requests

/-- **Walking through a collection.** Following `next_cursor` from the first page lists every entry
up to the snapshot once, the newest first, and comes to an end; and `prev_cursor` of any page leads
to the entries immediately before it, at most as many as are asked for. -/
theorem paginateCollection_walk (rt : Runtime ν) (snapshotAt : Option ℤ)
    (hitems : TotallyOrdered f items) (hparse : Parses f rt items) {limit : ℕ}
    (hlimit : 1 ≤ limit) :
    (∃ pages, Windows.Follows (nextPage f rt items limit snapshotAt) none pages ∧
      pages.flatten.Perm (filteredItems f items snapshotAt) ∧
      pages.flatten.Pairwise (Before f)) ∧
    ∀ (pageLimit : ℕ) (direction : Direction) (cursor : Option String) (page : Paged α String)
      (prev : String),
      requestPage f rt items pageLimit direction snapshotAt cursor = .ok page →
      page.pageMeta.prevCursor = some prev →
      ∃ before after prevPage,
        before ++ page.data ++ after = sortedItems f (filteredItems f items snapshotAt) ∧
        requestPage f rt items limit .prev snapshotAt (some prev) = .ok prevPage ∧
        prevPage.data = before.drop (before.length - limit) := by
  constructor
  · obtain ⟨pages, hfollows, hflatten⟩ :
        ∃ pages, Windows.Follows (nextPage f rt items limit snapshotAt) none pages ∧
          pages.flatten = pageOrder f items snapshotAt := exists_follows hitems hparse hlimit
    refine ⟨pages, hfollows, ?_, ?_⟩
    · rw [hflatten]
      exact perm_pageOrder
    · rw [hflatten]
      exact pairwise_pageOrder hitems
  · intro pageLimit direction cursor page prev hpage hprev
    exact exists_prevPage hitems hparse hpage hprev limit

/-! ## An example -/

/-- A runtime for texts without numbers, which reads the texts of two times. -/
def plainRuntime : Runtime Unit where
  numberText :=
    { text := fun _ ↦ ['0']
      injective := fun _ _ _ ↦ rfl
      ne_nil := fun _ ↦ List.cons_ne_nil _ _
      mem_numberChars := fun _ _ hc ↦ by
        rw [List.mem_singleton.mp hc]
        decide }
  readNumber := fun _ ↦ ()
  reads := fun _ ↦ ⟨rfl, rfl⟩
  numberString := fun _ ↦ "0"
  getTime := fun s ↦
    if s = "1970-01-01T00:00:00.000Z" then some 0
    else if s = "1970-01-02T00:00:00.000Z" then some 86400000
    else none

def plainFields : Fields (ℤ × String) := ⟨Prod.fst, Prod.snd, compare⟩

def threeEntries : List (ℤ × String) := [(0, "a"), (86400000, "b"), (0, "b")]

/-- The pages of one entry each. -/
theorem paginateCollection_walk_three :
    ∃ pages, Windows.Follows (nextPage plainFields plainRuntime threeEntries 1 none) none pages ∧
      pages.flatten.Perm threeEntries ∧ pages.flatten.Pairwise (Before plainFields) := by
  refine (paginateCollection_walk plainRuntime none ?_ ?_ le_rfl).1
  · exact ⟨by decide, by decide, by decide⟩
  · unfold Parses
    decide

end StellarDonations.Paging.Slices
