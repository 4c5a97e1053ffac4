import StellarDonations.Paging.Cursors
import StellarDonations.Storage.Table
import StellarDonations.Text.Json
import StellarDonations.Time.IsoInstants

/-!
# Lists of webhooks and of their deliveries

`WebhookService.list` and `getDeliveryHistory` fetch a page of a table whose times are texts of
`CURRENT_TIMESTAMP`. A cursor holds the time of a row in the format of `toISOString`, as the local
time of the process, so the comparison of the two sees nothing but the dates. Rows of the date of a
cursor lie beyond it, among them the row it was made from when the process runs in UTC.

The pages are therefore right only where there is one of them, or two whose border is also one
between the dates (`listings_complete_iff`).
-/

namespace StellarDonations.WebhookPages

open Descending Json Paging Storage Timestamps Windows

/-! ## The queries -/

structure Runtime where
  /-- `JSON.parse(text)`, where it does not throw. -/
  parse : Option String → Option (Json ℚ)
  /-- `new Date(text)` on a text of `CURRENT_TIMESTAMP`, which is read as local time. -/
  localTime : SqliteTime → IsoInstant

/-- A value, or the text that could not be parsed. -/
inductive Parsed where
  | value (v : Json ℚ)
  | text (s : Option String)

structure WebhookColumns where
  url : String
  events : Option String
  isActive : ℤ := 1
  createdAt : SqliteTime

structure WebhookItem where
  id : ℕ
  url : String
  events : Parsed
  isActive : Bool
  createdAt : SqliteTime

structure HistoryColumns where
  webhookId : ℕ
  event : String
  payload : Option String
  attempt : ℕ := 1
  status : String
  statusCode : Option ℕ := none
  errorMessage : Option String := none
  deliveredAt : SqliteTime

structure HistoryItem where
  id : ℕ
  webhookId : ℕ
  event : String
  payload : Parsed
  attempt : ℕ
  status : String
  statusCode : Option ℕ
  errorMessage : Option String
  deliveredAt : SqliteTime

structure Listing (α : Type) where
  items : List α
  pageMeta : FetchedMeta (Cursor String ℕ)

namespace Runtime

variable (rt : Runtime)

/-- `JSON.parse` with its handler. -/
def parsed (text : Option String) : Parsed :=
  match rt.parse text with
  | some v => .value v
  | none => .text text

/-- `createCursorFromItem`. -/
def cursorAt (time : SqliteTime) (id : ℕ) : Cursor String ℕ := ⟨(rt.localTime time).text, id⟩

end Runtime

section Queries

variable {σ α : Type} (rt : Runtime) (time : σ → SqliteTime) (item : ℕ × σ → α)
  (cursorOf : α → Cursor String ℕ)

/-- The columns that `ORDER BY` names. -/
def columns (r : ℕ × σ) : String ×ₗ ℕ := key (fun r ↦ (time r.2).text) Prod.fst r

/-- A page of the rows that a query is about. -/
def fetchListing (rows : List (ℕ × σ)) (cursor : Option (Cursor String ℕ)) (direction : Direction)
    (limit : ℕ) (snapshotAt : Option String) : Listing α :=
  let selected := rows.filter fun r ↦ cursorWhere cursor direction snapshotAt (time r.2).text r.1
  let fetched := fetchPage (sortDesc (columns time) selected) limit
  let items := fetched.1.map item
  { items
    pageMeta := buildCursorMeta cursorOf items limit direction fetched.2 cursor.isSome snapshotAt }

end Queries

variable (rt : Runtime)

def webhookItem (r : ℕ × WebhookColumns) : WebhookItem where
  id := r.1
  url := r.2.url
  events := rt.parsed r.2.events
  isActive := r.2.isActive ≠ 0
  createdAt := r.2.createdAt

/-- The delivery that a row is shown as. -/
def historyItem (r : ℕ × HistoryColumns) : HistoryItem where
  id := r.1
  webhookId := r.2.webhookId
  event := r.2.event
  payload := rt.parsed r.2.payload
  attempt := r.2.attempt
  status := r.2.status
  statusCode := r.2.statusCode
  errorMessage := r.2.errorMessage
  deliveredAt := r.2.deliveredAt

/-- The rows that `list` is about. -/
def activeRows (t : Table WebhookColumns) : List (ℕ × WebhookColumns) :=
  t.rows.filter fun r ↦ r.2.isActive = 1

def list (t : Table WebhookColumns) (cursor : Option (Cursor String ℕ)) (direction : Direction)
    (limit : ℕ) (snapshotAt : Option String) : Listing WebhookItem :=
  fetchListing (·.createdAt) (webhookItem rt) (fun item ↦ rt.cursorAt item.createdAt item.id)
    (activeRows t) cursor direction limit snapshotAt

/-- The rows that `getDeliveryHistory` is about. -/
def historyRows (t : Table HistoryColumns) (webhookId : ℕ) : List (ℕ × HistoryColumns) :=
  t.rows.filter fun r ↦ r.2.webhookId = webhookId

def getDeliveryHistory (t : Table HistoryColumns) (webhookId : ℕ)
    (cursor : Option (Cursor String ℕ)) (direction : Direction) (limit : ℕ)
    (snapshotAt : Option String) : Listing HistoryItem :=
  fetchListing (·.deliveredAt) (historyItem rt) (fun item ↦ rt.cursorAt item.deliveredAt item.id)
    (historyRows t webhookId) cursor direction limit snapshotAt

/-! ## Traversals -/

/-- The page at a cursor, and the cursor after it. -/
def nextPage {α : Type} (page : Option (Cursor String ℕ) → Direction → Listing α)
    (c : Option (Cursor String ℕ)) : Except AppError (Listing α × Option (Cursor String ℕ)) :=
  .ok (page c .next, (page c .next).pageMeta.nextCursor)

/-- Following the cursors ends and brings every row once, the newest first, and the cursor to the
page before leads from every page to the one before it. -/
def Complete {α : Type} (page : Option (Cursor String ℕ) → Direction → Listing α) (all : List α) :
    Prop :=
  ∃ pages : List (Listing α),
    Follows (nextPage page) none pages ∧
    (pages.map (·.items)).flatten = all ∧
    ∀ k, ∀ hk : k + 1 < pages.length,
      pages[k + 1].pageMeta.prevCursor.map (fun c ↦ (page (some c) .prev).items) =
        some pages[k].items

def newestFirst {σ : Type} (time : σ → SqliteTime) (snapshotAt : Option String)
    (rows : List (ℕ × σ)) : List (ℕ × σ) :=
  sortDesc (columns time) (rows.filter fun r ↦ snapshotAt.all fun at_ ↦ (time r.2).text ≤ at_)

/-- The rows fit into one page, or into two whose border is one between the dates: in local time the
last row of the first page is of an earlier date than it is, but not of an earlier one than the
first row of the second page, and that row is of an earlier date as well. -/
def Fits {σ : Type} (time : σ → SqliteTime) (limit : ℕ) (s : List (ℕ × σ)) : Prop :=
  s.length ≤ limit ∨ s.length ≤ 2 * limit ∧
    ∀ last ∈ s[limit - 1]?, ∀ first ∈ s[limit]?,
      (time first.2).civil.date ≤ (rt.localTime (time last.2)).civil.date ∧
        (rt.localTime (time last.2)).civil.date < (time last.2).civil.date ∧
        (rt.localTime (time first.2)).civil.date < (time last.2).civil.date

/-! ## One page -/

section Pages

variable {σ α : Type} {rt : Runtime} {time : σ → SqliteTime} {item : ℕ × σ → α}
  {cursorOf : α → Cursor String ℕ} {rows : List (ℕ × σ)} {limit : ℕ} {snapshotAt : Option String}

variable (time) in
def dateOf (r : ℕ × σ) : ℕ := (time r.2).civil.date

variable (rt time) in
def cursorDate (r : ℕ × σ) : ℕ := (rt.localTime (time r.2)).civil.date

variable (rt time) in
def rowCursor (r : ℕ × σ) : Cursor String ℕ := rt.cursorAt (time r.2) r.1

theorem beyondCursor_rowCursor_next (r x : ℕ × σ) :
    beyondCursor .next (rowCursor rt time r) (time x.2).text x.1 =
      decide (dateOf time x ≤ cursorDate rt time r) := by
  have hne := (time x.2).text_ne_iso (rt.localTime (time r.2))
  simp only [beyondCursor, rowCursor, Runtime.cursorAt, SqliteTime.text_lt_iso_iff, hne,
    decide_false, Bool.false_and, Bool.or_false]
  rfl

theorem beyondCursor_rowCursor_prev (r x : ℕ × σ) :
    beyondCursor .prev (rowCursor rt time r) (time x.2).text x.1 =
      decide (cursorDate rt time r < dateOf time x) := by
  have hne := (time x.2).text_ne_iso (rt.localTime (time r.2))
  simp only [beyondCursor, rowCursor, Runtime.cursorAt, SqliteTime.iso_lt_text_iff, hne,
    decide_false, Bool.false_and, Bool.or_false]
  rfl

variable (time snapshotAt) in
theorem newestFirst_descending (hids : (rows.map Prod.fst).Nodup) :
    (newestFirst time snapshotAt rows).Pairwise fun a b ↦ columns time b < columns time a := by
  have hdistinct : Distinct (columns time) rows := by
    refine List.Nodup.of_map (fun k ↦ (ofLex k).2) ?_
    rw [List.map_map]
    exact hids
  exact descending_sortDesc (hdistinct.filter _)

variable (time snapshotAt) in
theorem newestFirst_dates (hids : (rows.map Prod.fst).Nodup) :
    (newestFirst time snapshotAt rows).Pairwise fun a b ↦ dateOf time b ≤ dateOf time a := by
  refine (newestFirst_descending time snapshotAt hids).imp fun {a b} hlt ↦ ?_
  apply SqliteTime.date_le_of_text_le
  rcases key_lt_iff.mp hlt with h | h
  · exact h.le
  · exact h.1.le

theorem fetchListing_eq (hids : (rows.map Prod.fst).Nodup) (cursor : Option (Cursor String ℕ))
    (direction : Direction) :
    fetchListing time item cursorOf rows cursor direction limit snapshotAt =
      let selected := (newestFirst time snapshotAt rows).filter fun r ↦
        cursor.all fun c ↦ beyondCursor direction c (time r.2).text r.1
      let items := (selected.take limit).map item
      { items
        pageMeta := buildCursorMeta cursorOf items limit direction
          (decide (limit < selected.length)) cursor.isSome snapshotAt } := by
  have hdistinct : Distinct (columns time)
      (rows.filter fun r ↦ snapshotAt.all fun at_ ↦ (time r.2).text ≤ at_) :=
    (distinct_of_descending (newestFirst_descending time snapshotAt hids)).perm
      (perm_sortDesc _).symm
  have hselect : sortDesc (columns time) (rows.filter fun r ↦
      cursorWhere cursor direction snapshotAt (time r.2).text r.1) =
      (newestFirst time snapshotAt rows).filter fun r ↦
        cursor.all fun c ↦ beyondCursor direction c (time r.2).text r.1 := by
    simp only [cursorWhere]
    rw [newestFirst, ← sortDesc_filter hdistinct, List.filter_filter]
  rw [fetchListing]
  simp only [hselect, fetchPage_eq]

variable (time item cursorOf rows limit snapshotAt) in
/-- The page that starts at an index of the list. -/
def pageFrom (hasCursor : Bool) (p : ℕ) : Listing α :=
  let rest := (newestFirst time snapshotAt rows).drop p
  let items := (rest.take limit).map item
  { items
    pageMeta := buildCursorMeta cursorOf items limit .next (decide (limit < rest.length)) hasCursor
      snapshotAt }

variable (item cursorOf limit snapshotAt) in
theorem fetchListing_none (hids : (rows.map Prod.fst).Nodup) :
    fetchListing time item cursorOf rows none .next limit snapshotAt =
      pageFrom time item cursorOf rows limit snapshotAt false 0 := by
  rw [fetchListing_eq hids]
  simp [pageFrom]

variable (item cursorOf limit) in
/-- The page after a cursor starts where the dates are not later than its date. -/
theorem fetchListing_next (hids : (rows.map Prod.fst).Nodup) {r : ℕ × σ} {q : ℕ}
    (hcut : CutsAt (dateOf time) (newestFirst time snapshotAt rows) (cursorDate rt time r) q) :
    fetchListing time item cursorOf rows (some (rowCursor rt time r)) .next limit snapshotAt =
      pageFrom time item cursorOf rows limit snapshotAt true q := by
  rw [fetchListing_eq hids]
  simp only [Option.all_some, beyondCursor_rowCursor_next, hcut.filter_le]
  rfl

variable (item cursorOf limit) in
theorem fetchListing_prev (hids : (rows.map Prod.fst).Nodup) {r : ℕ × σ} {q : ℕ}
    (hcut : CutsAt (dateOf time) (newestFirst time snapshotAt rows) (cursorDate rt time r) q) :
    (fetchListing time item cursorOf rows (some (rowCursor rt time r)) .prev limit
      snapshotAt).items = (((newestFirst time snapshotAt rows).take q).take limit).map item := by
  rw [fetchListing_eq hids]
  simp only [Option.all_some, beyondCursor_rowCursor_prev, hcut.filter_gt]

section Cursors

variable (hcursor : ∀ r, cursorOf (item r) = rowCursor rt time r)
include hcursor

theorem nextCursor_pageFrom (hlimit : 0 < limit) (hasCursor : Bool) (p : ℕ) :
    (pageFrom time item cursorOf rows limit snapshotAt hasCursor p).pageMeta.nextCursor =
      if p + limit < (newestFirst time snapshotAt rows).length then
        (newestFirst time snapshotAt rows)[p + limit - 1]?.map (rowCursor rt time) else none := by
  have hmore : limit < ((newestFirst time snapshotAt rows).drop p).length ↔
      p + limit < (newestFirst time snapshotAt rows).length := by
    rw [List.length_drop]
    omega
  simp only [pageFrom, buildCursorMeta, Direction.pick, hmore, decide_eq_true_eq]
  split_ifs with h
  · rw [List.getLast?_map, Pages.getLast?_take_drop hlimit h, List.getElem?_eq_getElem (by omega),
      Option.map_some, Option.map_some, Option.map_some, hcursor]
  · rfl

theorem prevCursor_pageFrom (hlimit : 0 < limit) (p : ℕ) :
    (pageFrom time item cursorOf rows limit snapshotAt true p).pageMeta.prevCursor =
      (newestFirst time snapshotAt rows)[p]?.map (rowCursor rt time) := by
  simp only [pageFrom, buildCursorMeta, Direction.pick, if_true]
  rw [List.head?_map, List.head?_take, if_neg hlimit.ne', List.head?_drop]
  cases (newestFirst time snapshotAt rows)[p]? with
  | none => rfl
  | some r =>
    rw [Option.map_some, Option.map_some, Option.map_some, hcursor]

/-! ## From page to page -/

variable {idOf : α → ℕ} (hid : ∀ r, idOf (item r) = r.1) (hids : (rows.map Prod.fst).Nodup)
  (hlimit : 0 < limit)
include hid hids hlimit

omit hcursor hlimit in
theorem index_eq_of_item_eq {i j : ℕ} (hi : i < (newestFirst time snapshotAt rows).length)
    (hj : j < (newestFirst time snapshotAt rows).length)
    (h : item (newestFirst time snapshotAt rows)[i] = item (newestFirst time snapshotAt rows)[j]) :
    i = j := by
  have hfst := congrArg idOf h
  rw [hid, hid] at hfst
  have hnodup : ((newestFirst time snapshotAt rows).map Prod.fst).Nodup :=
    ((perm_sortDesc _).map _).nodup_iff.mpr (hids.sublist (List.filter_sublist.map _))
  have hi' : i < ((newestFirst time snapshotAt rows).map Prod.fst).length := by
    rwa [List.length_map]
  have hj' : j < ((newestFirst time snapshotAt rows).map Prod.fst).length := by
    rwa [List.length_map]
  have heq : ((newestFirst time snapshotAt rows).map Prod.fst)[i] =
      ((newestFirst time snapshotAt rows).map Prod.fst)[j] := by
    rw [List.getElem_map, List.getElem_map, hfst]
  exact hnodup.getElem_inj_iff.mp heq

theorem follows_after {r : ℕ × σ} {pages : List (Listing α)} {p : ℕ}
    (hp : p < (newestFirst time snapshotAt rows).length)
    (hpages : Follows (nextPage fun c d ↦
      fetchListing time item cursorOf rows c d limit snapshotAt) (some (rowCursor rt time r)) pages)
    (hflat : (pages.map (·.items)).flatten =
      ((newestFirst time snapshotAt rows).drop p).map item) :
    CutsAt (dateOf time) (newestFirst time snapshotAt rows) (cursorDate rt time r) p ∧
      ∃ rest, pages = pageFrom time item cursorOf rows limit snapshotAt true p :: rest ∧
        ∀ hmore : p + limit < (newestFirst time snapshotAt rows).length,
          Follows (nextPage fun c d ↦ fetchListing time item cursorOf rows c d limit snapshotAt)
            (some (rowCursor rt time (newestFirst time snapshotAt rows)[p + limit - 1])) rest ∧
          (rest.map (·.items)).flatten =
            ((newestFirst time snapshotAt rows).drop (p + limit)).map item := by
  obtain ⟨q, hcut⟩ := exists_cutsAt (newestFirst_dates time snapshotAt hids)
    (cursorDate rt time r)
  have hpage : nextPage (fun c d ↦ fetchListing time item cursorOf rows c d limit snapshotAt)
      (some (rowCursor rt time r)) =
      .ok (pageFrom time item cursorOf rows limit snapshotAt true q,
        if q + limit < (newestFirst time snapshotAt rows).length then
          (newestFirst time snapshotAt rows)[q + limit - 1]?.map (rowCursor rt time)
        else none) := by
    rw [nextPage, fetchListing_next item cursorOf limit hids hcut,
      nextCursor_pageFrom hcursor hlimit]
  obtain ⟨rest, rfl, hnone, hsome⟩ := hpages.inv hpage
  have hitems : (pageFrom time item cursorOf rows limit snapshotAt true q).items =
      (((newestFirst time snapshotAt rows).drop q).take limit).map item := rfl
  rw [List.map_cons, List.flatten_cons, hitems] at hflat
  have hq : q < (newestFirst time snapshotAt rows).length := by
    by_contra hle
    -- an empty page is the last one
    rw [hnone (if_neg (by omega)), List.drop_eq_nil_of_le (not_lt.mp hle)] at hflat
    have hlength := congrArg List.length hflat
    simp only [List.take_nil, List.map_nil, List.flatten_nil, List.append_nil, List.length_nil,
      List.length_map, List.length_drop] at hlength
    omega
  obtain rfl : q = p := by
    have hhead := congrArg List.head? hflat
    rw [List.drop_eq_getElem_cons hq, List.drop_eq_getElem_cons hp, List.take_cons hlimit,
      List.map_cons, List.map_cons, List.cons_append, List.head?_cons, List.head?_cons] at hhead
    exact index_eq_of_item_eq hid hids hq hp (Option.some.inj hhead)
  refine ⟨hcut, rest, rfl, fun hmore ↦ ?_⟩
  constructor
  · apply hsome
    rw [if_pos hmore, List.getElem?_eq_getElem (by omega)]
    rfl
  · have hsplit : ((newestFirst time snapshotAt rows).drop q).map item =
        (((newestFirst time snapshotAt rows).drop q).take limit).map item ++
          (((newestFirst time snapshotAt rows).drop q).drop limit).map item := by
      rw [← List.map_append, List.take_append_drop]
    rw [hsplit] at hflat
    rw [List.append_cancel_left hflat, List.drop_drop]

omit hid hlimit hcursor in
theorem exists_prev_items (hcursor : ∀ r, cursorOf (item r) = rowCursor rt time r)
    (hlimit : 0 < limit) {p : ℕ} {items : List α}
    (hp : p < (newestFirst time snapshotAt rows).length)
    (hback : (pageFrom time item cursorOf rows limit snapshotAt true p).pageMeta.prevCursor.map
      (fun c ↦ (fetchListing time item cursorOf rows (some c) .prev limit snapshotAt).items) =
        some items) :
    ∃ q, CutsAt (dateOf time) (newestFirst time snapshotAt rows)
        (cursorDate rt time (newestFirst time snapshotAt rows)[p]) q ∧
      items = (((newestFirst time snapshotAt rows).take q).take limit).map item := by
  obtain ⟨q, hcut⟩ := exists_cutsAt (newestFirst_dates time snapshotAt hids)
    (cursorDate rt time (newestFirst time snapshotAt rows)[p])
  refine ⟨q, hcut, ?_⟩
  rw [prevCursor_pageFrom hcursor hlimit, List.getElem?_eq_getElem hp, Option.map_some,
    Option.map_some, fetchListing_prev item cursorOf limit hids hcut] at hback
  exact (Option.some.inj hback).symm

omit hcursor in
/-- The cursor that leads back from the third page leads to the first. -/
theorem not_third_page {items : List α}
    (hlong : limit + limit < (newestFirst time snapshotAt rows).length)
    (hitems : items = (((newestFirst time snapshotAt rows).drop limit).take limit).map item) :
    ¬∃ q, items = (((newestFirst time snapshotAt rows).take q).take limit).map item := by
  rintro ⟨q, hprev⟩
  have hlength := congrArg List.length (hprev.symm.trans hitems)
  simp only [List.length_map, List.length_take, List.length_drop] at hlength
  have hhead := congrArg List.head? (hprev.symm.trans hitems)
  rw [List.drop_eq_getElem_cons (by omega), List.take_cons hlimit, List.map_cons, List.head?_cons,
    List.head?_map, List.head?_take, if_neg hlimit.ne', List.head?_take, if_neg (by omega),
    List.head?_eq_getElem?, List.getElem?_eq_getElem (by omega), Option.map_some] at hhead
  have hzero := index_eq_of_item_eq hid hids (by omega) (by omega) (Option.some.inj hhead)
  omega

theorem fits_of_complete
    (h : Complete (fun c d ↦ fetchListing time item cursorOf rows c d limit snapshotAt)
      ((newestFirst time snapshotAt rows).map item)) :
    Fits rt time limit (newestFirst time snapshotAt rows) := by
  obtain ⟨pages, hpages, hflat, hback⟩ := h
  rcases Nat.lt_or_ge limit (newestFirst time snapshotAt rows).length with hlong | hshort
  swap
  · exact .inl hshort
  -- the first page
  have hpage : nextPage (fun c d ↦ fetchListing time item cursorOf rows c d limit snapshotAt) none =
      .ok (pageFrom time item cursorOf rows limit snapshotAt false 0,
        some (rowCursor rt time (newestFirst time snapshotAt rows)[limit - 1])) := by
    rw [nextPage, fetchListing_none item cursorOf limit snapshotAt hids,
      nextCursor_pageFrom hcursor hlimit, Nat.zero_add, if_pos hlong,
      List.getElem?_eq_getElem (by omega), Option.map_some]
  obtain ⟨rest, rfl, -, hsome⟩ := hpages.inv hpage
  have hfirst : (pageFrom time item cursorOf rows limit snapshotAt false 0).items =
      ((newestFirst time snapshotAt rows).take limit).map item := rfl
  have hrest : (rest.map (·.items)).flatten =
      ((newestFirst time snapshotAt rows).drop limit).map item := by
    have hsplit : (newestFirst time snapshotAt rows).map item =
        ((newestFirst time snapshotAt rows).take limit).map item ++
          ((newestFirst time snapshotAt rows).drop limit).map item := by
      rw [← List.map_append, List.take_append_drop]
    rw [List.map_cons, List.flatten_cons, hfirst, hsplit] at hflat
    exact List.append_cancel_left hflat
  -- the second page
  obtain ⟨hcut, rest, rfl, hthird⟩ :=
    follows_after hcursor hid hids hlimit hlong (hsome _ rfl) hrest
  obtain ⟨q, hcutBack, hprev⟩ := exists_prev_items hids hcursor hlimit hlong
    (hback 0 (by simp))
  have hq : limit ≤ q := by
    have hlength := congrArg List.length hprev
    rw [List.getElem_cons_zero, hfirst] at hlength
    simp only [List.length_map, List.length_take] at hlength
    omega
  refine .inr ⟨?_, ?_⟩
  · by_contra hmore
    obtain ⟨hfollows, hflat'⟩ := hthird (by omega)
    obtain ⟨-, rest, rfl, -⟩ := follows_after hcursor hid hids hlimit (by omega) hfollows hflat'
    obtain ⟨q', -, hprev'⟩ := exists_prev_items hids hcursor hlimit (by omega)
      (hback 1 (by simp))
    exact not_third_page hid hids hlimit (by omega) rfl ⟨q', hprev'⟩
  · intro last hlast first hfirst'
    rw [List.getElem?_eq_getElem (by omega)] at hlast hfirst'
    cases hlast
    cases hfirst'
    refine ⟨(hcut.2 limit hlong).mpr le_rfl, not_le.mp fun hle ↦ ?_, not_le.mp fun hle ↦ ?_⟩
    · have := (hcut.2 (limit - 1) (by omega)).mp hle
      omega
    · have := (hcutBack.2 (limit - 1) (by omega)).mp hle
      omega

omit hid in
theorem complete_of_fits (h : Fits rt time limit (newestFirst time snapshotAt rows)) :
    Complete (fun c d ↦ fetchListing time item cursorOf rows c d limit snapshotAt)
      ((newestFirst time snapshotAt rows).map item) := by
  have hpage : nextPage (fun c d ↦ fetchListing time item cursorOf rows c d limit snapshotAt) none =
      .ok (pageFrom time item cursorOf rows limit snapshotAt false 0,
        if limit < (newestFirst time snapshotAt rows).length then
          (newestFirst time snapshotAt rows)[limit - 1]?.map (rowCursor rt time) else none) := by
    rw [nextPage, fetchListing_none item cursorOf limit snapshotAt hids,
      nextCursor_pageFrom hcursor hlimit, Nat.zero_add]
  have hfirst : (pageFrom time item cursorOf rows limit snapshotAt false 0).items =
      ((newestFirst time snapshotAt rows).take limit).map item := rfl
  rcases Nat.lt_or_ge limit (newestFirst time snapshotAt rows).length with hlong | hshort
  swap
  · rw [if_neg (not_lt.mpr hshort)] at hpage
    refine ⟨[_], .last hpage, ?_, fun k hk ↦ ?_⟩
    · rw [List.map_singleton, List.flatten_singleton, hfirst, List.take_of_length_le hshort]
    · simp at hk
  obtain ⟨htwo, hborder⟩ := h.resolve_left (not_le.mpr hlong)
  obtain ⟨hnext, hlast, hback⟩ := hborder _ (List.getElem?_eq_getElem (by omega)) _
    (List.getElem?_eq_getElem hlong)
  -- the second page starts at the border
  obtain ⟨q, hcut⟩ := exists_cutsAt (newestFirst_dates time snapshotAt hids)
    (cursorDate rt time (newestFirst time snapshotAt rows)[limit - 1])
  obtain rfl : q = limit := by
    have hle := (hcut.2 limit hlong).mp hnext
    have hlt := (hcut.2 (limit - 1) (by omega)).not.mp (not_le.mpr hlast)
    omega
  have hpage' : nextPage (fun c d ↦ fetchListing time item cursorOf rows c d q snapshotAt)
      (some (rowCursor rt time (newestFirst time snapshotAt rows)[q - 1])) =
      .ok (pageFrom time item cursorOf rows q snapshotAt true q, none) := by
    rw [nextPage, fetchListing_next item cursorOf q hids hcut,
      nextCursor_pageFrom hcursor hlimit, if_neg (by omega)]
  rw [if_pos hlong, List.getElem?_eq_getElem (by omega), Option.map_some] at hpage
  have hsecond : (pageFrom time item cursorOf rows q snapshotAt true q).items =
      ((newestFirst time snapshotAt rows).drop q).map item := by
    have hrest : ((newestFirst time snapshotAt rows).drop q).take q =
        (newestFirst time snapshotAt rows).drop q :=
      List.take_of_length_le (by rw [List.length_drop]; omega)
    rw [← hrest]
    rfl
  refine ⟨[_, _], .next hpage (.last hpage'), ?_, fun k hk ↦ ?_⟩
  · rw [List.map_cons, List.map_singleton, List.flatten_cons, List.flatten_singleton, hfirst,
      hsecond, ← List.map_append, List.take_append_drop]
  · -- the way back
    obtain rfl : k = 0 := by
      rw [List.length_cons, List.length_singleton] at hk
      omega
    obtain ⟨p, hcutBack⟩ := exists_cutsAt (newestFirst_dates time snapshotAt hids)
      (cursorDate rt time (newestFirst time snapshotAt rows)[q])
    have hp : q ≤ p := by
      have hlt := (hcutBack.2 (q - 1) (by omega)).not.mp (not_le.mpr hback)
      omega
    rw [List.getElem_cons_succ, List.getElem_cons_zero, List.getElem_cons_zero,
      prevCursor_pageFrom hcursor hlimit, List.getElem?_eq_getElem hlong, Option.map_some,
      Option.map_some, fetchListing_prev item cursorOf q hids hcutBack, hfirst, List.take_take,
      Nat.min_eq_left hp]

theorem complete_iff :
    Complete (fun c d ↦ fetchListing time item cursorOf rows c d limit snapshotAt)
      ((newestFirst time snapshotAt rows).map item) ↔
    Fits rt time limit (newestFirst time snapshotAt rows) :=
  ⟨fits_of_complete hcursor hid hids hlimit, complete_of_fits hcursor hids hlimit⟩

end Cursors

end Pages

/-! ## The two lists -/

/-- A process that runs in UTC reads the time as it is. -/
def utc (t : SqliteTime) : IsoInstant := ⟨t.civil, 0, t.day_le⟩

/-- There all rows have to fit into one page. -/
theorem fits_utc_iff {σ : Type} {rt : Runtime} (hutc : rt.localTime = utc) (time : σ → SqliteTime)
    {limit : ℕ} (hlimit : 0 < limit) (s : List (ℕ × σ)) :
    Fits rt time limit s ↔ s.length ≤ limit := by
  refine or_iff_left_of_imp fun ⟨_, hborder⟩ ↦ ?_
  by_contra hlong
  obtain ⟨-, hlt, -⟩ := hborder _ (List.getElem?_eq_getElem (by omega)) _
    (List.getElem?_eq_getElem (by omega))
  rw [hutc] at hlt
  exact absurd hlt (lt_irrefl _)

section Lists

variable (webhooks : Table WebhookColumns) (history : Table HistoryColumns) (webhookId : ℕ)
  {limit : ℕ} (snapshotAt : Option String)

theorem list_complete_iff (hlimit : 0 < limit) :
    Complete (fun c d ↦ list rt webhooks c d limit snapshotAt)
      ((newestFirst (·.createdAt) snapshotAt (activeRows webhooks)).map (webhookItem rt)) ↔
    Fits rt (·.createdAt) limit (newestFirst (·.createdAt) snapshotAt (activeRows webhooks)) := by
  have hid : ∀ r, WebhookItem.id (webhookItem rt r) = r.1 := fun _ ↦ rfl
  exact complete_iff (fun _ ↦ rfl) hid (webhooks.nodup.sublist (List.filter_sublist.map _)) hlimit

theorem getDeliveryHistory_complete_iff (hlimit : 0 < limit) :
    Complete (fun c d ↦ getDeliveryHistory rt history webhookId c d limit snapshotAt)
      ((newestFirst (·.deliveredAt) snapshotAt (historyRows history webhookId)).map
        (historyItem rt)) ↔
    Fits rt (·.deliveredAt) limit
      (newestFirst (·.deliveredAt) snapshotAt (historyRows history webhookId)) := by
  have hid : ∀ r, HistoryItem.id (historyItem rt r) = r.1 := fun _ ↦ rfl
  exact complete_iff (fun _ ↦ rfl) hid (history.nodup.sublist (List.filter_sublist.map _)) hlimit

/-- **Complete traversals.** Following the cursors brings all rows once and back, for the list of
webhooks and for the history of each, exactly as long as the rows fit. -/
theorem listings_complete_iff (hlimit : 0 < limit) :
    (Complete (fun c d ↦ list rt webhooks c d limit snapshotAt)
        ((newestFirst (·.createdAt) snapshotAt (activeRows webhooks)).map (webhookItem rt)) ↔
      Fits rt (·.createdAt) limit (newestFirst (·.createdAt) snapshotAt (activeRows webhooks))) ∧
    (Complete (fun c d ↦ getDeliveryHistory rt history webhookId c d limit snapshotAt)
        ((newestFirst (·.deliveredAt) snapshotAt (historyRows history webhookId)).map
          (historyItem rt)) ↔
      Fits rt (·.deliveredAt) limit
        (newestFirst (·.deliveredAt) snapshotAt (historyRows history webhookId))) :=
  ⟨list_complete_iff rt webhooks snapshotAt hlimit,
    getDeliveryHistory_complete_iff rt history webhookId snapshotAt hlimit⟩

end Lists

theorem noon_valid : Civil.Valid 2025 1 15 12 0 0 := by decide

def noon : SqliteTime where
  civil := Civil.of 2025 1 15 12 0 0 noon_valid
  day_le := by decide

def utcRuntime : Runtime := ⟨fun _ ↦ none, utc⟩

def twoWebhooks : Table WebhookColumns :=
  (Table.insert default ⟨"https://a.example", some "[]", 1, noon⟩).insert
    ⟨"https://b.example", some "[]", 1, noon⟩

theorem listings_complete_at_twoWebhooks :
    Complete (fun c d ↦ list utcRuntime twoWebhooks c d 2 none)
      ((newestFirst (·.createdAt) none (activeRows twoWebhooks)).map (webhookItem utcRuntime)) :=
  (listings_complete_iff utcRuntime twoWebhooks default 1 none Nat.two_pos).1.mpr
    (.inl (by decide))

/-- With a limit of one, the cursor leads to the same webhook again. -/
theorem list_not_complete_at_twoWebhooks :
    ¬Complete (fun c d ↦ list utcRuntime twoWebhooks c d 1 none)
      ((newestFirst (·.createdAt) none (activeRows twoWebhooks)).map (webhookItem utcRuntime)) := by
  rw [list_complete_iff utcRuntime twoWebhooks none Nat.one_pos, fits_utc_iff rfl _ Nat.one_pos]
  decide

end StellarDonations.WebhookPages
