import StellarDonations.Paging.Cursors
import StellarDonations.Transactions.Pagination

/-!
# Sorted pages of donations

`applyFilters` and `getPaginatedDonations` of `DonationService`. The donations that match are cut
into pages by time and id, and then each page is sorted by the field that the client asks for. So
every donation is read once, and the pages together are sorted exactly as long as any two donations
of different pages happen to be in the order asked for.
-/

namespace StellarDonations.DonationPages

open JsString Paging Transactions Windows

/-! ## The filters -/

/-- A parameter that is a text or an array of them. -/
inductive OneOrMany where
  | one (text : String)
  | many (texts : List String)

/-- The filters of `applyFilters`, with what is `undefined` left out. -/
structure Filters where
  startDate : Option String := none
  endDate : Option String := none
  minAmount : Option String := none
  maxAmount : Option String := none
  status : Option OneOrMany := none
  donor : Option String := none
  recipient : Option String := none
  memo : Option String := none
  tags : Option OneOrMany := none
  sortBy : Option String := none
  order : Option String := none

structure Bounds where
  start : Option ℤ := none
  stop : Option ℤ := none
  minAmt : Option ℚ := none
  maxAmt : Option ℚ := none

def validSortFields : List String := ["timestamp", "amount", "status"]

def validOrders : List String := ["asc", "desc"]

def invalid (message : String) : AppError := .validationWith .invalidRequest message

def checkName (name : String) (valid : List String) (value : String) : Except AppError Unit :=
  if value ≠ "" ∧ value ∉ valid then
    .error (invalid ("Invalid " ++ name ++ " value. Must be one of: " ++ ", ".intercalate valid))
  else .ok ()

/-- A number or a date of the runtime, where one is given. -/
def readWith {β : Type} (read : String → Option β) (message : String) :
    Option String → Except AppError (Option β)
  | none => .ok none
  | some text =>
    match read text with
    | some value => .ok (some value)
    | none => .error (invalid message)

def checkRange {β : Type} [LinearOrder β] (message : String) :
    Option β → Option β → Except AppError Unit
  | some low, some high => if high < low then .error (invalid message) else .ok ()
  | _, _ => .ok ()

namespace Filters

variable (rt : Runtime) (f : Filters)

def sortField : String := f.sortBy.getD "timestamp"

def sortOrder : String := f.order.getD "desc"

/-- The part of `applyFilters` that reads the filters. -/
def bounds : Except AppError Bounds := do
  checkName "sortBy" validSortFields f.sortField
  checkName "order" validOrders f.sortOrder
  let start ← readWith rt.getTime "Invalid startDate" (orNull f.startDate)
  let stop ← readWith rt.getTime "Invalid endDate" (orNull f.endDate)
  checkRange "startDate must not be after endDate" start stop
  let minAmt ← readWith rt.parseFloat "Invalid minAmount" f.minAmount
  let maxAmt ← readWith rt.parseFloat "Invalid maxAmount" f.maxAmount
  checkRange "minAmount must not be greater than maxAmount" minAmt maxAmt
  return ⟨start, stop, minAmt, maxAmt⟩

/-- `String(t || '').trim().toLowerCase()`. -/
def normalizeTag (tag : String) : String := rt.toLowerCase (trim tag)

def normalizedFilterTags : List String :=
  let tags :=
    match f.tags with
    | none => []
    | some (.one text) => if text = "" then [] else (text.toList.splitOn ',').map String.ofList
    | some (.many texts) => texts
  (tags.map (normalizeTag rt)).filter (· ≠ "")

/-- The status passes: one text is compared, an array has to have it. -/
def matchesStatus (status : String) : Bool :=
  match f.status with
  | none => true
  | some (.one text) => text = "" || status = text
  | some (.many texts) => texts.contains status

/-- A text has another one in it, up to the case. -/
def includes (text : String) (part : Option String) : Bool :=
  (orNull part).all fun p ↦ decide ((rt.toLowerCase p).toList <:+: (rt.toLowerCase text).toList)

def passes (b : Bounds) (tx : Object) : Bool :=
  b.start.all (· ≤ (tx.timestamp : ℤ)) && b.stop.all ((tx.timestamp : ℤ) ≤ ·) &&
    b.minAmt.all (· ≤ tx.amount.toNumber) && b.maxAmt.all (tx.amount.toNumber ≤ ·) &&
    f.matchesStatus tx.status &&
    includes rt (tx.donor.getD "") f.donor && includes rt (tx.recipient.getD "") f.recipient &&
    includes rt tx.memo f.memo &&
    (f.normalizedFilterTags rt).all fun tag ↦ (tx.tags.map (normalizeTag rt)).contains tag

/-- `appliedFilters`: the empty texts are left out. -/
def applied : Filters :=
  let drop : Option OneOrMany → Option OneOrMany := fun value ↦
    value.filter fun v ↦ match v with | .one text => text ≠ "" | .many _ => true
  { f with
    startDate := orNull f.startDate, endDate := orNull f.endDate
    minAmount := orNull f.minAmount, maxAmount := orNull f.maxAmount
    status := drop f.status, donor := orNull f.donor, recipient := orNull f.recipient
    memo := orNull f.memo, tags := drop f.tags, sortBy := orNull f.sortBy
    order := orNull f.order }

end Filters

/-! ## The sort -/

def compareOn {β : Type} [LinearOrder β] (ascending : Bool) (value : Object → β) (a b : Object) :
    Ordering :=
  if value a < value b then (if ascending then .lt else .gt)
  else if value b < value a then (if ascending then .gt else .lt)
  else .eq

/-- The comparison function of the sort. Without a field it compares empty texts. -/
def compareBy (sortBy order : String) (a b : Object) : Ordering :=
  match SortField.ofName sortBy with
  | some .timestamp => compareOn (order = "asc") (·.timestamp) a b
  | some .amount => compareOn (order = "asc") (·.amount.toNumber) a b
  | some .status => compareOn (order = "asc") (fun tx ↦ codeUnits tx.status) a b
  | none => .eq

/-- `result.sort`. -/
def sortEntries (sortBy order : String) (entries : List Entry) : List Entry :=
  entries.insertionSort fun a b ↦ compareBy sortBy order a.tx b.tx ≠ .gt

def applyFilters (rt : Runtime) (transactions : List Entry) (f : Filters) :
    Except AppError (List Entry) := do
  let b ← f.bounds rt
  return sortEntries f.sortField f.sortOrder (transactions.filter fun e ↦ f.passes rt b e.tx)

/-! ## The pages -/

def getAll (m : Memory) : List Entry := m.entries.filter fun e ↦ e.tx.deletedAt.isNone

structure Pagination (o : LocaleOrder) where
  cursor : Option (Cursor ℤ o.Id) := none
  limit : ℕ := 20
  direction : Direction := .next
  snapshotAt : Option ℤ := none

/-- The result of `getPaginatedDonations`. -/
structure DonationPage (o : LocaleOrder) where
  data : List Entry
  totalCount : ℕ
  pageMeta : PageMeta (Cursor ℤ o.Id)
  appliedFilters : Filters
  resultCount : ℕ

/-- The time of a donation, as pages are cut by it. -/
def timestampOf (e : Entry) : ℤ := e.tx.timestamp

/-- The id of a donation, as pages are cut by it. -/
def idOf (o : LocaleOrder) (e : Entry) : o.Id := e.tx.id

def getPaginatedDonations (rt : Runtime) (o : LocaleOrder) (m : Memory) (pagination : Pagination o)
    (f : Filters) : Except AppError (DonationPage o) := do
  let sortBy := orElse f.sortBy "timestamp"
  let order := orElse f.order "desc"
  let useCustomSort : Bool := sortBy ≠ "timestamp" || order ≠ "desc"
  let filtered ← applyFilters rt (getAll m) f
  let result ← paginateCollection timestampOf (idOf o) filtered pagination.cursor pagination.limit
    pagination.direction pagination.snapshotAt
  let data ←
    if useCustomSort then
      applyFilters rt result.data { sortBy := some sortBy, order := some order }
    else .ok result.data
  return ⟨data, filtered.length, result.pageMeta, f.applied, result.totalCount⟩

/-! ## The order of a page -/

/-- Two donations are in the order that was asked for. -/
def InOrder (field : SortField) (descending : Bool) (a b : Entry) : Prop :=
  match field with
  | .timestamp => SortOrder.InOrderOn descending (·.timestamp) a.tx b.tx
  | .amount => SortOrder.InOrderOn descending (·.amount.toNumber) a.tx b.tx
  | .status => SortOrder.InOrderOn descending (fun tx ↦ codeUnits tx.status) a.tx b.tx

section Order

variable {field : SortField} {descending : Bool} {sortBy order : String}

theorem inOrderOn_total {β : Type} [LinearOrder β] (descending : Bool) (value : Object → β)
    (a b : Object) :
    SortOrder.InOrderOn descending value a b ∨ SortOrder.InOrderOn descending value b a := by
  cases descending with
  | false => exact le_total (value a) (value b)
  | true => exact le_total (value b) (value a)

theorem inOrderOn_trans {β : Type} [LinearOrder β] (descending : Bool) (value : Object → β)
    {a b c : Object} (hab : SortOrder.InOrderOn descending value a b)
    (hbc : SortOrder.InOrderOn descending value b c) :
    SortOrder.InOrderOn descending value a c := by
  cases descending with
  | false => exact le_trans (α := β) hab hbc
  | true => exact le_trans (α := β) hbc hab

theorem InOrder.total (a b : Entry) :
    InOrder field descending a b ∨ InOrder field descending b a := by
  cases field with
  | timestamp => exact inOrderOn_total descending (·.timestamp) a.tx b.tx
  | amount => exact inOrderOn_total descending (·.amount.toNumber) a.tx b.tx
  | status => exact inOrderOn_total descending (fun tx ↦ codeUnits tx.status) a.tx b.tx

theorem InOrder.trans {a b c : Entry} (hab : InOrder field descending a b)
    (hbc : InOrder field descending b c) : InOrder field descending a c := by
  cases field with
  | timestamp => exact inOrderOn_trans descending (·.timestamp) hab hbc
  | amount => exact inOrderOn_trans descending (·.amount.toNumber) hab hbc
  | status => exact inOrderOn_trans descending (fun tx ↦ codeUnits tx.status) hab hbc

theorem eq_of_isDescending (hdesc : isDescending order = some descending) :
    order = "asc" ∧ descending = false ∨ order = "desc" ∧ descending = true := by
  unfold isDescending at hdesc
  split at hdesc
  · exact .inl ⟨rfl, (Option.some.inj hdesc).symm⟩
  · exact .inr ⟨rfl, (Option.some.inj hdesc).symm⟩
  · cases hdesc

theorem eq_of_ofName (hfield : SortField.ofName sortBy = some field) :
    sortBy ∈ validSortFields := by
  unfold SortField.ofName at hfield
  split at hfield
  · decide
  · decide
  · decide
  · cases hfield

theorem ne_empty_of_ofName (hfield : SortField.ofName sortBy = some field) : sortBy ≠ "" := by
  rintro rfl
  cases hfield

theorem ne_empty_of_isDescending (hdesc : isDescending order = some descending) : order ≠ "" := by
  rintro rfl
  cases hdesc

theorem orElse_eq_getD {a : Option String} {d : String} (h : a.getD d ≠ "") :
    orElse a d = a.getD d := by
  cases a with
  | none => rfl
  | some s => exact if_neg h

theorem compareOn_ne_gt_iff {β : Type} [LinearOrder β]
    (hdesc : isDescending order = some descending) (value : Object → β) (a b : Object) :
    compareOn (order = "asc") value a b ≠ .gt ↔ SortOrder.InOrderOn descending value a b := by
  rw [compareOn, SortOrder.InOrderOn]
  rcases eq_of_isDescending hdesc with ⟨rfl, rfl⟩ | ⟨rfl, rfl⟩
  · rcases lt_trichotomy (value a) (value b) with hlt | heq | hgt
    · simp [hlt, hlt.le]
    · simp [heq]
    · simp [hgt, hgt.not_gt]
  · rcases lt_trichotomy (value a) (value b) with hlt | heq | hgt
    · simp [hlt]
    · simp [heq]
    · simp [hgt, hgt.le, hgt.not_gt]

theorem compareBy_ne_gt_iff (hfield : SortField.ofName sortBy = some field)
    (hdesc : isDescending order = some descending) (a b : Entry) :
    compareBy sortBy order a.tx b.tx ≠ .gt ↔ InOrder field descending a b := by
  rw [compareBy, hfield]
  cases field <;> exact compareOn_ne_gt_iff hdesc _ a.tx b.tx

variable (sortBy order) in
theorem perm_sortEntries (entries : List Entry) : (sortEntries sortBy order entries).Perm entries :=
  List.perm_insertionSort _ entries

theorem pairwise_sortEntries (hfield : SortField.ofName sortBy = some field)
    (hdesc : isDescending order = some descending) (entries : List Entry) :
    (sortEntries sortBy order entries).Pairwise (InOrder field descending) := by
  have htotal : Std.Total fun a b : Entry ↦ compareBy sortBy order a.tx b.tx ≠ .gt :=
    ⟨fun a b ↦ by
      rw [compareBy_ne_gt_iff hfield hdesc, compareBy_ne_gt_iff hfield hdesc]
      exact InOrder.total a b⟩
  have htrans : IsTrans Entry fun a b : Entry ↦ compareBy sortBy order a.tx b.tx ≠ .gt :=
    ⟨fun a b c ↦ by
      simp only [compareBy_ne_gt_iff hfield hdesc]
      exact InOrder.trans⟩
  exact (List.pairwise_insertionSort _ entries).imp (compareBy_ne_gt_iff hfield hdesc _ _).mp

theorem sortEntries_eq_self (hfield : SortField.ofName sortBy = some field)
    (hdesc : isDescending order = some descending) {entries : List Entry}
    (h : entries.Pairwise (InOrder field descending)) :
    sortEntries sortBy order entries = entries :=
  (h.imp (compareBy_ne_gt_iff hfield hdesc _ _).mpr).insertionSort_eq

/-- A sort without filters leaves nothing out. -/
theorem applyFilters_sort (rt : Runtime) (hfield : SortField.ofName sortBy = some field)
    (hdesc : isDescending order = some descending) (entries : List Entry) :
    applyFilters rt entries { sortBy := some sortBy, order := some order } =
      .ok (sortEntries sortBy order entries) := by
  have horder : order ∈ validOrders := by
    rcases eq_of_isDescending hdesc with ⟨rfl, -⟩ | ⟨rfl, -⟩ <;> decide
  have hbounds : ({ sortBy := some sortBy, order := some order } : Filters).bounds rt = .ok {} := by
    simp [Filters.bounds, Filters.sortField, Filters.sortOrder, checkName, eq_of_ofName hfield,
      horder, readWith, checkRange, orNull]
    rfl
  have hpass : (entries.filter fun e ↦
      ({ sortBy := some sortBy, order := some order } : Filters).passes rt {} e.tx) = entries := by
    refine List.filter_eq_self.mpr fun e _ ↦ ?_
    simp [Filters.passes, Filters.matchesStatus, Filters.includes, Filters.normalizedFilterTags,
      orNull]
  rw [applyFilters, hbounds]
  exact congrArg (fun l ↦ Except.ok (sortEntries sortBy order l)) hpass

end Order

/-! ## From page to page -/

section Pages

variable (rt : Runtime) (o : LocaleOrder) (m : Memory) (f : Filters) (limit : ℕ)
  (snapshotAt : Option ℤ)

/-- The donations of a request page: those of the store that pass the filters. -/
def matching (b : Bounds) : List Entry := (getAll m).filter fun e ↦ f.passes rt b e.tx

def visible (b : Bounds) : List Entry :=
  snapshotItems timestampOf (matching rt m f b) snapshotAt

/-- The donations of all pages, by time and id, the newest first. -/
def ordered (b : Bounds) : List Entry :=
  pageOrder timestampOf (idOf o) (matching rt m f b) snapshotAt

/-- The page at a cursor, and the cursor after it. -/
def pageAt (c : Option (Cursor ℤ o.Id)) :
    Except AppError (List Entry × Option (Cursor ℤ o.Id)) :=
  (getPaginatedDonations rt o m { cursor := c, limit, snapshotAt } f).map fun page ↦
    (page.data, page.pageMeta.nextCursor)

variable {m} in
theorem distinct_of_perm (hm : m.WellFormed) (b : Bounds) {l : List Entry}
    (hl : l.Perm (matching rt m f b)) :
    Descending.Distinct (key timestampOf (idOf o)) (snapshotItems timestampOf l snapshotAt) := by
  have hids : (l.map fun e ↦ e.tx.id).Nodup := by
    refine (hl.map _).nodup_iff.mpr ?_
    exact (Memory.nodup_entries hm).sublist
      ((List.filter_sublist.trans List.filter_sublist).map _)
  have hdistinct : Descending.Distinct (key timestampOf (idOf o)) l := by
    refine List.Nodup.of_map (fun k ↦ (ofLex k).2) ?_
    rw [List.map_map]
    exact hids
  unfold snapshotItems
  split
  · exact hdistinct
  · exact hdistinct.filter _

variable {m f}

theorem pageOrder_sortEntries (hm : m.WellFormed) (b : Bounds) :
    pageOrder timestampOf (idOf o) (sortEntries f.sortField f.sortOrder (matching rt m f b))
      snapshotAt = ordered rt o m f snapshotAt b :=
  pageOrder_of_perm (perm_sortEntries _ _ _)
    (distinct_of_perm rt o f snapshotAt hm b (List.Perm.refl _))

theorem ordered_timestamp (hm : m.WellFormed) (b : Bounds) :
    (ordered rt o m f snapshotAt b).Pairwise (InOrder .timestamp true) := by
  have hdesc := Descending.descending_sortDesc
    (distinct_of_perm rt o f snapshotAt hm b (List.Perm.refl _))
  refine hdesc.imp fun {x y} hlt ↦ ?_
  have hle : timestampOf y ≤ timestampOf x := by
    rcases key_lt_iff.mp hlt with h | h
    · exact h.le
    · exact h.1.le
  exact Int.ofNat_le.mp hle

variable {field : SortField} {descending : Bool} {b : Bounds} {limit}

theorem pageAt_windowCursor (hm : m.WellFormed) (hbounds : f.bounds rt = .ok b)
    (hfield : SortField.ofName f.sortField = some field)
    (hdesc : isDescending f.sortOrder = some descending) (hlimit : 0 < limit) {k : ℕ}
    (hk : k < count limit (ordered rt o m f snapshotAt b).length) :
    pageAt rt o m f limit snapshotAt
        (windowCursor timestampOf (idOf o) limit (ordered rt o m f snapshotAt b) k) =
      .ok (sortEntries f.sortField f.sortOrder (window limit (ordered rt o m f snapshotAt b) k),
        if k + 1 < count limit (ordered rt o m f snapshotAt b).length then
          windowCursor timestampOf (idOf o) limit (ordered rt o m f snapshotAt b) (k + 1)
        else none) := by
  have hsortBy : orElse f.sortBy "timestamp" = f.sortField :=
    orElse_eq_getD (ne_empty_of_ofName hfield)
  have horder : orElse f.order "desc" = f.sortOrder :=
    orElse_eq_getD (ne_empty_of_isDescending hdesc)
  have hfiltered : applyFilters rt (getAll m) f =
      .ok (sortEntries f.sortField f.sortOrder (matching rt m f b)) := by
    rw [applyFilters, hbounds]
    rfl
  have hpage := paginateCollection_windowCursor
    (distinct_of_perm rt o f snapshotAt hm b
      (perm_sortEntries f.sortField f.sortOrder (matching rt m f b))) hlimit
    (k := k) (by rwa [pageOrder_sortEntries rt o snapshotAt hm])
  rw [pageOrder_sortEntries rt o snapshotAt hm] at hpage
  obtain ⟨hdata, hnext⟩ := slicePage_window timestampOf (idOf o) hlimit
    (ordered rt o m f snapshotAt b) k
  rw [pageAt, getPaginatedDonations, hfiltered, ← hnext]
  simp only [bind, Except.bind, hpage, hdata, hsortBy, horder]
  split_ifs with hcustom
  · rw [applyFilters_sort rt hfield hdesc]
    rfl
  · -- Without a sort of its own, the page is in order.
    obtain ⟨htimestamp, hdescending⟩ : f.sortField = "timestamp" ∧ f.sortOrder = "desc" := by
      simpa using hcustom
    have hwindow : (window limit (ordered rt o m f snapshotAt b) k).Pairwise
        (InOrder .timestamp true) :=
      (ordered_timestamp rt o snapshotAt hm b).sublist
        ((List.take_sublist _ _).trans (List.drop_sublist _ _))
    rw [htimestamp, hdescending, sortEntries_eq_self rfl rfl hwindow]
    rfl

/-- Following the cursors from the first page reads every window. -/
theorem follows_windows (hm : m.WellFormed) (hbounds : f.bounds rt = .ok b)
    (hfield : SortField.ofName f.sortField = some field)
    (hdesc : isDescending f.sortOrder = some descending) (hlimit : 0 < limit) :
    Follows (pageAt rt o m f limit snapshotAt) none
      ((List.range (count limit (ordered rt o m f snapshotAt b).length)).map fun k ↦
        sortEntries f.sortField f.sortOrder (window limit (ordered rt o m f snapshotAt b) k)) := by
  have hfollows := follows_range _
    (windowCursor timestampOf (idOf o) limit (ordered rt o m f snapshotAt b))
    (fun k hk ↦ pageAt_windowCursor rt o snapshotAt hm hbounds hfield hdesc hlimit hk)
    (fun k hk ↦ isSome_windowCursor hlimit hk) (count_pos limit _)
  rwa [Nat.sub_zero, ← List.range_eq_range'] at hfollows

/-- Following the cursors ends, and brings every donation that matches once, in the order that was
asked for. -/
def SortedTraversal (rt : Runtime) (o : LocaleOrder) (m : Memory) (f : Filters) (limit : ℕ)
    (snapshotAt : Option ℤ) (b : Bounds) (field : SortField) (descending : Bool) : Prop :=
  ∃ pages, Follows (pageAt rt o m f limit snapshotAt) none pages ∧
    pages.flatten.Perm (visible rt m f snapshotAt b) ∧
    pages.flatten.Pairwise (InOrder field descending)

theorem sortedTraversal_iff (hm : m.WellFormed) (hbounds : f.bounds rt = .ok b)
    (hfield : SortField.ofName f.sortField = some field)
    (hdesc : isDescending f.sortOrder = some descending) (hlimit : 0 < limit) :
    SortedTraversal rt o m f limit snapshotAt b field descending ↔
      Across limit (InOrder field descending) (ordered rt o m f snapshotAt b) := by
  have hfollows := follows_windows rt o snapshotAt hm hbounds hfield hdesc hlimit
  have hpairwise := pairwise_flatten_iff (perm_sortEntries f.sortField f.sortOrder) hlimit
    (pairwise_sortEntries hfield hdesc) (ordered rt o m f snapshotAt b)
  constructor
  · rintro ⟨pages, hpages, -, hsorted⟩
    rw [hpages.unique hfollows] at hsorted
    exact hpairwise.mp hsorted
  · intro hacross
    refine ⟨_, hfollows, ?_, hpairwise.mpr hacross⟩
    exact (perm_flatten (perm_sortEntries f.sortField f.sortOrder) hlimit _).trans
      (Descending.perm_sortDesc _)

/-- **The order across pages.** Following the cursors brings every donation that matches exactly
once. It brings them in the order that was asked for exactly when any two of them that lie on
different pages by time and id are in that order. -/
theorem sorted_pages_iff (hm : m.WellFormed) (hbounds : f.bounds rt = .ok b)
    (hfield : SortField.ofName f.sortField = some field)
    (hdesc : isDescending f.sortOrder = some descending) (hlimit : 0 < limit) :
    (∃ pages, Follows (pageAt rt o m f limit snapshotAt) none pages ∧
      pages.flatten.Perm (visible rt m f snapshotAt b)) ∧
    (SortedTraversal rt o m f limit snapshotAt b field descending ↔
      ∀ i j, ∀ (hi : i < (ordered rt o m f snapshotAt b).length)
        (hj : j < (ordered rt o m f snapshotAt b).length), i / limit < j / limit →
        InOrder field descending (ordered rt o m f snapshotAt b)[i]
          (ordered rt o m f snapshotAt b)[j]) :=
  ⟨⟨_, follows_windows rt o snapshotAt hm hbounds hfield hdesc hlimit,
    (perm_flatten (perm_sortEntries _ _) hlimit _).trans (Descending.perm_sortDesc _)⟩,
    sortedTraversal_iff rt o snapshotAt hm hbounds hfield hdesc hlimit⟩

end Pages

/-! ## Two donations -/

/-- The newest first, two donations in pages of one. -/
theorem sorted_pages_iff_at_default :
    (∃ pages, Follows (pageAt asciiRuntime codePointOrder twoDonations {} 1 none) none pages ∧
      pages.flatten.Perm (visible asciiRuntime twoDonations {} none {})) ∧
    SortedTraversal asciiRuntime codePointOrder twoDonations {} 1 none {} .timestamp true := by
  have h := sorted_pages_iff asciiRuntime codePointOrder none wellFormed_twoDonations
    (f := {}) (b := {}) rfl rfl rfl Nat.zero_lt_one
  refine ⟨h.1, h.2.mpr fun i j hi hj hij ↦ ?_⟩
  have hsorted := ordered_timestamp asciiRuntime codePointOrder (f := {}) none
    wellFormed_twoDonations {}
  exact List.pairwise_iff_getElem.mp hsorted i j hi hj (Nat.lt_of_div_lt_div hij)

/-- By amount, the smaller donation comes on the second page. -/
theorem not_sorted_by_amount :
    ¬SortedTraversal asciiRuntime codePointOrder twoDonations
      { sortBy := some "amount", order := some "asc" } 1 none {} .amount false := by
  rw [sortedTraversal_iff _ _ _ wellFormed_twoDonations rfl rfl rfl Nat.zero_lt_one]
  intro hacross
  have hle : (ordered asciiRuntime codePointOrder twoDonations
      { sortBy := some "amount", order := some "asc" } none {})[0].tx.amount.toNumber ≤
      (ordered asciiRuntime codePointOrder twoDonations
        { sortBy := some "amount", order := some "asc" } none {})[1].tx.amount.toNumber :=
    hacross 0 1 (by decide) (by decide) (by decide)
  revert hle
  decide

end StellarDonations.DonationPages
