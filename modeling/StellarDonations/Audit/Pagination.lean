import StellarDonations.Audit.Log

/-!
# Pages of the audit log

`queryPaginated` fetches a page with conditions on the columns, `paginateCollection` cuts it out of
the sorted rows. Both are described by indices of the same sorted list here. They give the same
answers but for one kind of call: without a cursor, the query for the direction `prev` starts at the
other end of the table.
-/

namespace StellarDonations.Audit

open Descending Paging Timestamps

/-! ## The order of the rows -/

abbrev StoredRow.key (r : StoredRow) : IsoInstant ×ₗ ℕ := Paging.key (·.instant) (·.row.id) r

theorem text_strictMono : StrictMono IsoInstant.text := fun _ _ h ↦ IsoInstant.text_lt_iff.mpr h

theorem columns_le_iff (a b : StoredRow) : a.columns ≤ b.columns ↔ a.key ≤ b.key := by
  rw [StoredRow.columns, StoredRow.columns, StoredRow.key, StoredRow.key, Paging.key, Paging.key,
    Prod.Lex.toLex_le_toLex, Prod.Lex.toLex_le_toLex, a.timestamp_eq, b.timestamp_eq]
  simp only [text_strictMono.lt_iff_lt, text_strictMono.injective.eq_iff]

theorem sortDesc_columns (l : List StoredRow) :
    sortDesc StoredRow.columns l = sortDesc StoredRow.key l := by
  unfold sortDesc
  congr 1
  funext a b
  exact propext (columns_le_iff b a)

theorem sortAsc_columns (l : List StoredRow) :
    sortAsc StoredRow.columns l = sortAsc StoredRow.key l := by
  unfold sortAsc
  congr 1
  funext a b
  exact propext (columns_le_iff a b)

/-! ## One list for both -/

variable (table : List StoredRow) (filters : Filters) (snapshotAt : Option IsoInstant)

/-- The rows that the filters and the snapshot leave. -/
def visible : List StoredRow :=
  snapshotItems (·.instant) (table.filter fun r ↦ filters.matching r.row) snapshotAt

/-- The rows of all pages, the newest first. -/
def ordered : List StoredRow :=
  pageOrder (·.instant) (·.row.id) (table.filter fun r ↦ filters.matching r.row) snapshotAt

variable {table filters snapshotAt}

theorem distinct_visible (hids : (table.map (·.row.id)).Nodup) :
    Distinct StoredRow.key (visible table filters snapshotAt) := by
  have htable : Distinct StoredRow.key table := by
    refine List.Nodup.of_map (fun k ↦ (ofLex k).2) ?_
    rwa [List.map_map]
  unfold visible snapshotItems
  split
  · exact htable.filter _
  · exact (htable.filter _).filter _

theorem mem_visible {r : StoredRow} : r ∈ visible table filters snapshotAt ↔
    r ∈ table ∧ filters.matching r.row = true ∧ ∀ at_ ∈ snapshotAt, r.instant ≤ at_ := by
  cases snapshotAt with
  | none => simp [visible, snapshotItems]
  | some at_ => simp [visible, snapshotItems, and_comm, and_left_comm]

theorem snapshot_filter (l : List StoredRow) :
    (l.filter fun r ↦ snapshotAt.all fun at_ ↦ r.row.timestamp ≤ at_.text) =
      snapshotItems (·.instant) l snapshotAt := by
  cases snapshotAt with
  | none => simp [snapshotItems]
  | some at_ =>
    refine List.filter_congr fun r _ ↦ ?_
    simp [r.timestamp_eq, text_strictMono.le_iff_le]

/-! ## The page that is fetched -/

/-- The rows that lie beyond the cursor. -/
def beyond (direction : Direction) (cursor : Option (Cursor IsoInstant ℕ)) (r : StoredRow) : Bool :=
  match direction with
  | .next => cursor.all fun c ↦ r.key < c.key
  | .prev => cursor.all fun c ↦ c.key < r.key

theorem cursorWhere_eq (cursor : Option (Cursor IsoInstant ℕ)) (direction : Direction)
    (r : StoredRow) :
    cursorWhere (cursor.map fun c ↦ ⟨c.timestamp.text, c.id⟩) direction (snapshotAt.map (·.text))
        r.row.timestamp r.row.id =
      (beyond direction cursor r && snapshotAt.all fun at_ ↦ r.row.timestamp ≤ at_.text) := by
  have hcursor : (cursor.map fun c ↦ (⟨c.timestamp.text, c.id⟩ : Cursor String ℕ)).all
      (fun c ↦ beyondCursor direction c r.row.timestamp r.row.id) = beyond direction cursor r := by
    rw [r.timestamp_eq]
    cases cursor with
    | none => cases direction <;> rfl
    | some c =>
      cases direction with
      | next =>
        rw [Option.map_some, Option.all_some,
          beyondCursor_next text_strictMono (·.instant) (·.row.id) c r]
        rfl
      | prev =>
        rw [Option.map_some, Option.all_some,
          beyondCursor_prev text_strictMono (·.instant) (·.row.id) c r]
        rfl
  rw [cursorWhere, hcursor]
  cases snapshotAt <;> rfl

/-- What the query selects, in the order of all pages. -/
def selected (table : List StoredRow) (filters : Filters) (snapshotAt : Option IsoInstant)
    (direction : Direction) (cursor : Option (Cursor IsoInstant ℕ)) : List StoredRow :=
  (ordered table filters snapshotAt).filter (beyond direction cursor)

/-- The rows of a page, out of those that the query selects. -/
def cut (direction : Direction) (limit : ℕ) (rows : List StoredRow) : List StoredRow :=
  direction.pick (rows.take limit) (rows.drop (rows.length - limit))

/-- A query whose cursor is of a row: for the direction `next` it gives the first rows it selects,
for `prev` the last. -/
theorem queryRows_eq (hids : (table.map (·.row.id)).Nodup)
    {cursor : Option (Cursor IsoInstant ℕ)} (hcursor : cursorExists table filters cursor = true)
    (limit : ℕ) (direction : Direction) :
    queryRows table filters cursor limit direction snapshotAt =
      let rows := selected table filters snapshotAt direction cursor
      let data := cut direction limit rows
      .ok
        { data
          totalCount := (ordered table filters snapshotAt).length
          pageMeta := buildCursorMeta (createCursorFromItem (·.instant) (·.row.id)) data limit
            direction (decide (limit < rows.length)) cursor.isSome none } := by
  have hdistinct : Distinct StoredRow.key (visible table filters snapshotAt) :=
    distinct_visible hids
  have hselect : (table.filter fun r ↦ filters.matching r.row).filter (fun r ↦
      cursorWhere (cursor.map fun c ↦ ⟨c.timestamp.text, c.id⟩) direction (snapshotAt.map (·.text))
        r.row.timestamp r.row.id) =
      (visible table filters snapshotAt).filter (beyond direction cursor) := by
    simp only [cursorWhere_eq]
    rw [visible, ← snapshot_filter, ← List.filter_filter]
  have hsorted := sortDesc_filter hdistinct (beyond direction cursor)
  rw [queryRows]
  simp only [hcursor, Bool.not_true, Bool.false_eq_true, if_false, hselect, fetchPage_eq,
    snapshot_filter, sortDesc_columns, sortAsc_columns]
  have htotal : (snapshotItems (·.instant) (table.filter fun r ↦ filters.matching r.row)
      snapshotAt).length = (sortDesc StoredRow.key (visible table filters snapshotAt)).length :=
    (length_sortDesc _).symm
  cases direction with
  | next =>
    simp only [hsorted, htotal, selected, ordered, pageOrder]
    rfl
  | prev =>
    simp only [sortAsc_eq_reverse (hdistinct.filter _), hsorted, htotal, selected, ordered,
      pageOrder, List.length_reverse, List.take_reverse, List.reverse_reverse]
    rfl

/-! ## The page that is cut out -/

/-- A page of the collection, in the form of a page that is queried. -/
def ofPaged (page : Paged StoredRow (Cursor IsoInstant ℕ)) : QueriedPage StoredRow where
  data := page.data
  totalCount := page.totalCount
  pageMeta := { page.pageMeta with snapshotAt := none }

/-- `paginateCollection` on the rows that match. -/
def collectionPage (table : List StoredRow) (filters : Filters)
    (cursor : Option (Cursor IsoInstant ℕ)) (limit : ℕ) (direction : Direction)
    (snapshotAt : Option IsoInstant) : Except AppError (Paged StoredRow (Cursor IsoInstant ℕ)) :=
  paginateCollection (·.instant) (·.row.id) (table.filter fun r ↦ filters.matching r.row) cursor
    limit direction snapshotAt

/-! ## Where they agree -/

variable (filters snapshotAt) in
theorem descending_ordered (hids : (table.map (·.row.id)).Nodup) :
    (ordered table filters snapshotAt).Pairwise fun a b ↦ b.key < a.key :=
  descending_sortDesc (distinct_visible hids)

theorem selected_none (direction : Direction) :
    selected table filters snapshotAt direction none = ordered table filters snapshotAt := by
  rw [selected, List.filter_eq_self]
  intro r _
  cases direction <;> rfl

theorem selected_some (hids : (table.map (·.row.id)).Nodup) {c : Cursor IsoInstant ℕ} {i : ℕ}
    (hi : i < (ordered table filters snapshotAt).length)
    (hc : c.key = (ordered table filters snapshotAt)[i].key) (direction : Direction) :
    selected table filters snapshotAt direction (some c) =
      match direction with
      | .next => (ordered table filters snapshotAt).drop (i + 1)
      | .prev => (ordered table filters snapshotAt).take i := by
  have hdesc := descending_ordered filters snapshotAt hids
  rw [selected]
  cases direction with
  | next =>
    rw [← filter_lt_getElem hdesc hi, ← hc]
    rfl
  | prev =>
    rw [← filter_gt_getElem hdesc hi, ← hc]
    rfl

/-- A cursor that exists is of a row of the pages, unless the snapshot is older than it. -/
theorem exists_of_cursorExists {c : Cursor IsoInstant ℕ}
    (hsnapshot : ∀ at_ ∈ snapshotAt, c.timestamp ≤ at_)
    (hexists : cursorExists table filters (some c) = true) :
    ∃ i, ∃ hi : i < (ordered table filters snapshotAt).length,
      c.key = (ordered table filters snapshotAt)[i].key := by
  simp only [cursorExists, List.any_eq_true, Bool.and_eq_true, decide_eq_true_eq] at hexists
  obtain ⟨r, hr, hmatch, htext, hid⟩ := hexists
  rw [r.timestamp_eq, text_strictMono.injective.eq_iff] at htext
  have hmem : r ∈ ordered table filters snapshotAt :=
    mem_sortDesc.mpr (mem_visible.mpr ⟨hr, hmatch, htext ▸ hsnapshot⟩)
  obtain ⟨i, hi, hget⟩ := List.mem_iff_getElem.mp hmem
  refine ⟨i, hi, ?_⟩
  rw [hget]
  exact Prod.mk_inj.mpr ⟨htext.symm, hid.symm⟩

theorem ne_of_not_cursorExists {c : Cursor IsoInstant ℕ}
    (hexists : cursorExists table filters (some c) = false) :
    ∀ r ∈ visible table filters snapshotAt, r.key ≠ c.key := by
  intro r hr hkey
  obtain ⟨hmem, hmatch, -⟩ := mem_visible.mp hr
  obtain ⟨htime, hid⟩ := Prod.mk_inj.mp hkey
  have htext : r.row.timestamp = c.timestamp.text := by
    rw [r.timestamp_eq]
    exact congrArg _ htime
  have hyes : cursorExists table filters (some c) = true := by
    rw [cursorExists, List.any_eq_true]
    exact ⟨r, hmem, by simp [hmatch, htext, show r.row.id = c.id from hid]⟩
  rw [hexists] at hyes
  cases hyes

theorem query_eq_of_slice {cursor : Option (Cursor IsoInstant ℕ)}
    (hids : (table.map (·.row.id)).Nodup) (hexists : cursorExists table filters cursor = true)
    {limit startIndex endIndex : ℕ} {direction : Direction}
    (hcollection : collectionPage table filters cursor limit direction snapshotAt =
      .ok (slicePage (·.instant) (·.row.id) (ordered table filters snapshotAt) limit direction
        startIndex endIndex))
    (hdata : cut direction limit (selected table filters snapshotAt direction cursor) =
      ((ordered table filters snapshotAt).take endIndex).drop startIndex)
    (hnext : direction.pick
        (decide (limit < (selected table filters snapshotAt direction cursor).length))
        cursor.isSome = decide (endIndex < (ordered table filters snapshotAt).length))
    (hprev : direction.pick cursor.isSome
        (decide (limit < (selected table filters snapshotAt direction cursor).length)) =
      decide (0 < startIndex)) :
    queryRows table filters cursor limit direction snapshotAt =
      (collectionPage table filters cursor limit direction snapshotAt).map ofPaged := by
  rw [queryRows_eq hids hexists, hcollection, Except.map, ofPaged]
  simp only [hdata, buildCursorMeta_eq hnext hprev]
  rfl

theorem query_none (hids : (table.map (·.row.id)).Nodup) (limit : ℕ) :
    queryRows table filters none limit .next snapshotAt =
      (collectionPage table filters none limit .next snapshotAt).map ofPaged := by
  refine query_eq_of_slice hids rfl (paginateCollection_none limit .next) ?_ ?_ ?_
  · rw [selected_none]
    rfl
  · rw [selected_none]
    rfl
  · rfl

theorem query_some (hids : (table.map (·.row.id)).Nodup) {c : Cursor IsoInstant ℕ}
    (hexists : cursorExists table filters (some c) = true)
    (hsnapshot : ∀ at_ ∈ snapshotAt, c.timestamp ≤ at_) (limit : ℕ) (direction : Direction) :
    queryRows table filters (some c) limit direction snapshotAt =
      (collectionPage table filters (some c) limit direction snapshotAt).map ofPaged := by
  obtain ⟨i, hi, hc⟩ := exists_of_cursorExists hsnapshot hexists
  have hcollection := paginateCollection_some (distinct_visible hids) hi hc limit direction
  have hselected := selected_some hids hi hc direction
  cases direction with
  | next =>
    refine query_eq_of_slice hids hexists hcollection ?_ ?_ ?_
    · rw [hselected, List.drop_take, Nat.add_sub_cancel_left]
      rfl
    · rw [hselected, List.length_drop]
      exact decide_eq_decide.mpr (by omega)
    · simp [Direction.pick]
  | prev =>
    have hlength : ((ordered table filters snapshotAt).take i).length = i := by
      rw [List.length_take]
      omega
    refine query_eq_of_slice hids hexists hcollection ?_ ?_ ?_
    · simp only [hselected, cut, Direction.pick, hlength]
    · simp [Direction.pick, hi]
    · rw [hselected, hlength]
      exact decide_eq_decide.mpr (by omega)

theorem query_invalid {c : Cursor IsoInstant ℕ}
    (hexists : cursorExists table filters (some c) = false) (limit : ℕ) (direction : Direction) :
    queryRows table filters (some c) limit direction snapshotAt =
      (collectionPage table filters (some c) limit direction snapshotAt).map ofPaged := by
  rw [collectionPage, paginateCollection_invalid (ne_of_not_cursorExists hexists), queryRows]
  simp [hexists, Except.map]

/-- The rows of the page for `prev` without a cursor: the query gives the last ones. -/
theorem query_prev_none (filters : Filters) (snapshotAt : Option IsoInstant)
    (hids : (table.map (·.row.id)).Nodup) (limit : ℕ) :
    ∃ pageMeta, queryRows table filters none limit .prev snapshotAt =
      .ok ⟨(ordered table filters snapshotAt).drop
        ((ordered table filters snapshotAt).length - limit),
        (ordered table filters snapshotAt).length, pageMeta⟩ := by
  rw [queryRows_eq hids rfl, selected_none]
  exact ⟨_, rfl⟩

theorem length_ordered :
    (ordered table filters snapshotAt).length = (visible table filters snapshotAt).length :=
  length_sortDesc _

theorem query_prev_of_short (hids : (table.map (·.row.id)).Nodup) {limit : ℕ}
    (hshort : (visible table filters snapshotAt).length ≤ limit) :
    queryRows table filters none limit .prev snapshotAt =
      (collectionPage table filters none limit .prev snapshotAt).map ofPaged := by
  rw [← length_ordered] at hshort
  refine query_eq_of_slice hids rfl (paginateCollection_none limit .prev) ?_ ?_ ?_
  · rw [selected_none, cut, Direction.pick, Nat.sub_eq_zero_of_le hshort,
      List.take_of_length_le hshort]
  · exact (decide_eq_false hshort.not_gt).symm
  · rw [selected_none]
    exact decide_eq_false hshort.not_gt

theorem query_prev_zero (hids : (table.map (·.row.id)).Nodup) :
    queryRows table filters none 0 .prev snapshotAt =
      (collectionPage table filters none 0 .prev snapshotAt).map ofPaged := by
  rw [queryRows_eq hids rfl, selected_none, collectionPage, paginateCollection_none]
  simp [cut, Direction.pick, slicePage, buildCursorMeta, ofPaged, Except.map, ordered]

/-! ## The answers -/

section Answers

variable {ν : Type} (svc : Service ν)

/-- `paginateCollection` on the same rows, with their details parsed. -/
def Service.collectionAnswer (table : List StoredRow) (filters : Filters)
    (cursor : Option (Cursor IsoInstant ℕ)) (limit : ℕ) (direction : Direction)
    (snapshotAt : Option IsoInstant) : Except AppError (QueriedPage (AuditEntry (Json ν))) := do
  svc.parsePage (← (collectionPage table filters cursor limit direction snapshotAt).map ofPaged)

variable {svc}

theorem exists_parseRows {rows : List Row} (h : ∀ row ∈ rows, ∃ e, svc.parseRow row = .ok e) :
    ∃ es, svc.parseRows rows = .ok es := by
  induction rows with
  | nil => exact ⟨[], rfl⟩
  | cons row rows ih =>
    obtain ⟨e, he⟩ := h row List.mem_cons_self
    obtain ⟨es, hes⟩ := ih fun r hr ↦ h r (List.mem_cons_of_mem _ hr)
    refine ⟨e :: es, ?_⟩
    rw [parseRows_cons, he, hes]
    rfl

theorem exists_parsePage {page : QueriedPage StoredRow}
    (h : ∀ r ∈ page.data, ∃ e, svc.parseRow r.row = .ok e) :
    ∃ answer, svc.parsePage page = .ok answer ∧
      answer.data.map (·.id) = page.data.map (·.row.id) := by
  have hrows : ∀ row ∈ page.data.map (·.row), ∃ e, svc.parseRow row = .ok e :=
    List.forall_mem_map.mpr h
  obtain ⟨es, hes⟩ := exists_parseRows hrows
  refine ⟨{ page with data := es }, ?_, ?_⟩
  · rw [Service.parsePage, hes]
    rfl
  · rw [parseRows_ids hes, List.map_map]
    rfl

theorem ids_eq_of_parsePage_eq {page page' : QueriedPage StoredRow}
    (h : ∀ r ∈ page.data, ∃ e, svc.parseRow r.row = .ok e)
    (h' : ∀ r ∈ page'.data, ∃ e, svc.parseRow r.row = .ok e)
    (heq : svc.parsePage page = svc.parsePage page') :
    page.data.map (·.row.id) = page'.data.map (·.row.id) := by
  obtain ⟨answer, hanswer, hids⟩ := exists_parsePage h
  obtain ⟨answer', hanswer', hids'⟩ := exists_parsePage h'
  rw [hanswer, hanswer'] at heq
  rw [← hids, ← hids', Except.ok.inj heq]

variable (filters snapshotAt) in
theorem nodup_ids_ordered (hids : (table.map (·.row.id)).Nodup) :
    ((ordered table filters snapshotAt).map (·.row.id)).Nodup := by
  have hsub : (visible table filters snapshotAt).Sublist table := by
    unfold visible snapshotItems
    split
    · exact List.filter_sublist
    · exact List.filter_sublist.trans List.filter_sublist
  exact ((perm_sortDesc _).map _).nodup_iff.mpr (hids.sublist (hsub.map _))

/-- Without a cursor and with more rows than fit into one page, the direction `prev` starts at the
end of the table in one case and at its beginning in the other. -/
theorem query_prev_ne (hids : (table.map (·.row.id)).Nodup)
    (hparse : ∀ r ∈ table, ∃ e, svc.parseRow r.row = .ok e) {limit : ℕ} (hlimit : 0 < limit)
    (hlong : limit < (visible table filters snapshotAt).length) :
    svc.queryPaginated table filters none limit .prev snapshotAt ≠
      svc.collectionAnswer table filters none limit .prev snapshotAt := by
  intro heq
  rw [← length_ordered] at hlong
  have hnodup := nodup_ids_ordered filters snapshotAt hids
  have hall : ∀ r ∈ ordered table filters snapshotAt, ∃ e, svc.parseRow r.row = .ok e :=
    fun r hr ↦ hparse r (mem_visible.mp (mem_sortDesc.mp hr)).1
  obtain ⟨pageMeta, hquery⟩ := query_prev_none filters snapshotAt hids limit
  have hcollection : collectionPage table filters none limit .prev snapshotAt =
      .ok (slicePage (·.instant) (·.row.id) (ordered table filters snapshotAt) limit .prev 0
        limit) := paginateCollection_none limit .prev
  rw [Service.queryPaginated, Service.collectionAnswer, hquery, hcollection] at heq
  have hsame := ids_eq_of_parsePage_eq (fun r hr ↦ hall r (List.mem_of_mem_drop hr))
    (fun r hr ↦ hall r (List.mem_of_mem_take (List.mem_of_mem_drop hr))) heq
  simp only [ofPaged, slicePage, List.drop_zero] at hsame
  set s := ordered table filters snapshotAt
  -- the first rows of the two pages are different ones
  have hfirst : (((s.drop (s.length - limit)).map (·.row.id))[0]?) =
      ((s.take limit).map (·.row.id))[0]? := by rw [hsame]
  simp only [List.map_drop, List.map_take, List.getElem?_drop, List.getElem?_take_of_lt hlimit,
    add_zero] at hfirst
  have hindex := (List.getElem?_inj (by rw [List.length_map]; omega) hnodup).mp hfirst
  omega

variable (svc)

/-- **Where the two agree.** On rows with different ids, whose details are JSON, at a snapshot that
is not before the cursor, they give the same answer but in one case: the direction `prev` without a
cursor, when there are rows to give and more than fit into one page. -/
theorem queryPaginated_eq_iff (hids : (table.map (·.row.id)).Nodup)
    (hparse : ∀ r ∈ table, ∃ e, svc.parseRow r.row = .ok e)
    {cursor : Option (Cursor IsoInstant ℕ)}
    (hsnapshot : ∀ c ∈ cursor, ∀ at_ ∈ snapshotAt, c.timestamp ≤ at_) (limit : ℕ)
    (direction : Direction) :
    svc.queryPaginated table filters cursor limit direction snapshotAt =
        svc.collectionAnswer table filters cursor limit direction snapshotAt ↔
      direction = .next ∨ cursor ≠ none ∨ (visible table filters snapshotAt).length ≤ limit ∨
        limit = 0 := by
  have hagree : queryRows table filters cursor limit direction snapshotAt =
        (collectionPage table filters cursor limit direction snapshotAt).map ofPaged →
      svc.queryPaginated table filters cursor limit direction snapshotAt =
        svc.collectionAnswer table filters cursor limit direction snapshotAt := by
    intro h
    rw [Service.queryPaginated, h]
    rfl
  cases cursor with
  | some c =>
    refine iff_of_true (hagree ?_) (by simp)
    cases hexists : cursorExists table filters (some c) with
    | true => exact query_some hids hexists (hsnapshot c rfl) limit direction
    | false => exact query_invalid hexists limit direction
  | none =>
    cases direction with
    | next => exact iff_of_true (hagree (query_none hids limit)) (by simp)
    | prev =>
      by_cases hshort : (visible table filters snapshotAt).length ≤ limit
      · exact iff_of_true (hagree (query_prev_of_short hids hshort)) (by simp [hshort])
      · rcases Nat.eq_zero_or_pos limit with rfl | hpos
        · exact iff_of_true (hagree (query_prev_zero hids)) (by simp)
        · refine iff_of_false (query_prev_ne hids hparse hpos (by omega)) ?_
          simp
          omega

end Answers

theorem parseRow_sampleRow (millisecond : Fin 1000) (id : ℕ) :
    ∃ e, sampleService.parseRow (sampleRow millisecond id).row = .ok e := by
  obtain ⟨fields, h⟩ := parse_newRow sampleService sampleParams "FINANCIAL_OPERATION"
    "DONATION_CREATED" "HIGH" "SUCCESS" [] (sampleInstant millisecond) id
  exact ⟨_, h⟩

/-- At the cursor of the newer of two rows, the page before it is empty in both cases. -/
theorem queryPaginated_at_cursor :
    sampleService.queryPaginated [sampleRow 6 1, sampleRow 7 2] {} (some ⟨sampleInstant 7, 2⟩) 1
        .prev none =
      sampleService.collectionAnswer [sampleRow 6 1, sampleRow 7 2] {}
        (some ⟨sampleInstant 7, 2⟩) 1 .prev none :=
  (queryPaginated_eq_iff sampleService (by decide) (by simp [parseRow_sampleRow]) (by simp) 1
    .prev).mpr (.inr (.inl (by simp)))

/-- Without a cursor the query starts with the older of two rows, the collection with the newer. -/
theorem queryPaginated_without_cursor :
    sampleService.queryPaginated [sampleRow 6 1, sampleRow 7 2] {} none 1 .prev none ≠
      sampleService.collectionAnswer [sampleRow 6 1, sampleRow 7 2] {} none 1 .prev none :=
  query_prev_ne (by decide) (by simp [parseRow_sampleRow]) Nat.one_pos (by decide)

end StellarDonations.Audit
