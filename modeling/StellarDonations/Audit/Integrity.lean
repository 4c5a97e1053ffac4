import Mathlib.Data.List.Count
import StellarDonations.Audit.Log

/-!
# What the hash of an audit entry covers

The hash is taken over the texts of six columns with a bar between them. It says nothing about the
other columns, nothing about which of the bars are the ones between the columns, and the text of a
missing value is the word `null`; but for that, two entries with the same hash are the same
(`agree_iff`).

A query replaces the text of the details by the parsed object, whose own text is never the JSON it
was read from. The entries that are given out therefore fail the check that the rows pass
(`not_verified_of_query`).
-/

namespace StellarDonations.Audit

open Descending JsString Paging Timestamps

variable {ν : Type} {svc : Service ν}

/-! ## Separators -/

theorem append_separator_inj {α : Type*} [DecidableEq α] {c : α} {a b x y : List α}
    (hcount : a.count c = b.count c) (h : a ++ c :: x = b ++ c :: y) : a = b ∧ x = y := by
  rcases List.append_eq_append_iff.mp h with ⟨m, rfl, hm⟩ | ⟨m, rfl, hm⟩
  · cases m with
    | nil => simpa using hm
    | cons d m =>
      obtain ⟨rfl, -⟩ := List.cons_eq_cons.mp hm
      simp at hcount
  · cases m with
    | nil => simpa [eq_comm] using hm
    | cons d m =>
      obtain ⟨rfl, -⟩ := List.cons_eq_cons.mp hm
      simp at hcount

def bars (s : String) : ℕ := s.toList.count '|'

theorem append_bar_inj {a b x y : String} (hbars : bars a = bars b)
    (h : a ++ ("|" ++ x) = b ++ ("|" ++ y)) : a = b ∧ x = y := by
  have hlist : a.toList ++ '|' :: x.toList = b.toList ++ '|' :: y.toList := by
    simpa [String.toList_append] using congrArg String.toList h
  obtain ⟨hab, hxy⟩ := append_separator_inj hbars hlist
  exact ⟨String.toList_inj.mp hab, String.toList_inj.mp hxy⟩

/-! ## Two entries with one hash -/

structure Agree (e e' : Row) : Prop where
  timestamp : e.timestamp = e'.timestamp
  category : e.category = e'.category
  action : e.action = e'.action
  severity : e.severity = e'.severity
  result : e.result = e'.result
  userId : e.userId = e'.userId
  requestId : e.requestId = e'.requestId
  ipAddress : e.ipAddress = e'.ipAddress
  resource : e.resource = e'.resource
  reason : e.reason = e'.reason
  details : e.details = e'.details

/-- They say the same in the columns that are not hashed. -/
structure SameUncovered (e e' : Row) : Prop where
  severity : e.severity = e'.severity
  requestId : e.requestId = e'.requestId
  ipAddress : e.ipAddress = e'.ipAddress
  resource : e.resource = e'.resource
  reason : e.reason = e'.reason

/-- Their hashed columns have the bars at the same places, and are missing in both or in neither. -/
structure SameShape (e e' : Row) : Prop where
  timestamp : bars e.timestamp = bars e'.timestamp
  category : bars e.category = bars e'.category
  action : bars e.action = bars e'.action
  result : bars e.result = bars e'.result
  userId : bars (columnText e.userId) = bars (columnText e'.userId)
  userId_none : e.userId = none ↔ e'.userId = none
  details_none : e.details = none ↔ e'.details = none

theorem verifyRow_iff (row : Row) : svc.verifyRow row = true ↔
    svc.sha256Hex (hashData row (columnText row.details)) = row.integrityHash :=
  decide_eq_true_iff

theorem columnText_inj {a b : Option String} (hnone : a = none ↔ b = none)
    (h : columnText a = columnText b) : a = b := by
  cases a with
  | none => exact (hnone.mp rfl).symm
  | some s =>
    cases b with
    | none => exact absurd (hnone.mpr rfl) (by simp)
    | some t => exact congrArg some h

theorem columns_of_hashData {e e' : Row} (hshape : SameShape e e')
    (h : hashData e (columnText e.details) = hashData e' (columnText e'.details)) :
    e.timestamp = e'.timestamp ∧ e.category = e'.category ∧ e.action = e'.action ∧
      e.result = e'.result ∧ e.userId = e'.userId ∧ e.details = e'.details := by
  simp only [hashData, String.append_assoc] at h
  obtain ⟨htimestamp, h⟩ := append_bar_inj hshape.timestamp h
  obtain ⟨hcategory, h⟩ := append_bar_inj hshape.category h
  obtain ⟨haction, h⟩ := append_bar_inj hshape.action h
  obtain ⟨hresult, h⟩ := append_bar_inj hshape.result h
  obtain ⟨huserId, hdetails⟩ := append_bar_inj hshape.userId h
  exact ⟨htimestamp, hcategory, haction, hresult, columnText_inj hshape.userId_none huserId,
    columnText_inj hshape.details_none hdetails⟩

/-- **What the check detects.** Of two entries that pass the check with the same hash, one can be
told from the other exactly by the columns that are not hashed, the places of the bars, and what is
missing. -/
theorem agree_iff (svc : Service ν) (hsha : Function.Injective svc.sha256Hex) {e e' : Row}
    (hstored : e.integrityHash = e'.integrityHash) (hverify : svc.verifyRow e = true)
    (hverify' : svc.verifyRow e' = true) :
    Agree e e' ↔ SameUncovered e e' ∧ SameShape e e' := by
  constructor
  · intro h
    exact ⟨⟨h.severity, h.requestId, h.ipAddress, h.resource, h.reason⟩,
      ⟨by rw [h.timestamp], by rw [h.category], by rw [h.action], by rw [h.result],
        by rw [h.userId], by rw [h.userId], by rw [h.details]⟩⟩
  · rintro ⟨hsame, hshape⟩
    rw [verifyRow_iff] at hverify hverify'
    have hdata := hsha ((hverify.trans hstored).trans hverify'.symm)
    obtain ⟨htimestamp, hcategory, haction, hresult, huserId, hdetails⟩ :=
      columns_of_hashData hshape hdata
    exact ⟨htimestamp, hcategory, haction, hsame.severity, hresult, huserId, hsame.requestId,
      hsame.ipAddress, hsame.resource, hsame.reason, hdetails⟩

theorem verifyRow_newRow (p : LogParams ν) (category action severity result : String)
    (details : Json ν) (now : IsoInstant) (id : ℕ) :
    svc.verifyRow (svc.newRow p category action severity result details now id).row = true :=
  decide_eq_true rfl

theorem underscore_ne {s t : String} (ht : t.toList.head? ≠ some '_') : "_" ++ s ≠ t := by
  rintro rfl
  exact ht (by simp)

theorem sampleHash_injective : Function.Injective sampleHash := by
  intro s t h
  unfold sampleHash at h
  split_ifs at h with hs ht ht' hs' ht ht' ht ht'
  · exact hs.trans ht.symm
  · exact absurd h (by decide)
  · exact absurd h.symm (underscore_ne (by decide))
  · exact absurd h (by decide)
  · exact hs'.trans ht'.symm
  · exact absurd h.symm (underscore_ne (by decide))
  · exact absurd h (underscore_ne (by decide))
  · exact absurd h (underscore_ne (by decide))
  · simpa using h

def tamperedRow : Row := { (sampleRow 6 1).row with severity := "LOW" }

theorem agree_tamperedRow_iff : Agree (sampleRow 6 1).row tamperedRow ↔
    SameUncovered (sampleRow 6 1).row tamperedRow ∧ SameShape (sampleRow 6 1).row tamperedRow :=
  agree_iff sampleService sampleHash_injective rfl (decide_eq_true rfl) (decide_eq_true rfl)

/-- The change of the severity is not detected. -/
theorem severity_not_covered :
    Function.Injective sampleService.sha256Hex ∧
      (sampleRow 6 1).row.integrityHash = tamperedRow.integrityHash ∧
      sampleService.verifyRow (sampleRow 6 1).row = true ∧
      sampleService.verifyRow tamperedRow = true ∧ ¬Agree (sampleRow 6 1).row tamperedRow :=
  ⟨sampleHash_injective, rfl, decide_eq_true rfl, decide_eq_true rfl,
    fun h ↦ absurd h.severity (by decide)⟩

/-! ## What a query gives out -/

theorem exists_of_mask_obj {scrub : Scrubber ν} {fields : List (String × Json ν)} {v : Json ν}
    (h : maskSensitiveData scrub 0 (sanitizeForLogging scrub (.obj fields)) = .ok v) :
    ∃ fields', v = .obj fields' := by
  rw [sanitizeForLogging, Json.fold_obj, maskSensitiveData, if_neg (by decide)] at h
  obtain ⟨masked, -, rfl⟩ := Except.map_eq_ok.mp h
  exact ⟨_, rfl⟩

theorem exists_of_log {p : LogParams ν} {fields : List (String × Json ν)}
    (hdetails : p.details = .obj fields) {now : IsoInstant} {id : ℕ} {r : StoredRow}
    (h : svc.log p now id = .ok (some r)) :
    ∃ category action severity result fields',
      r = svc.newRow p category action severity result (.obj fields') now id := by
  unfold Service.log at h
  split at h
  · next category action severity result _ _ _ _ =>
    split at h
    · cases h
    · next details hmask =>
      rw [hdetails] at hmask
      obtain ⟨fields', rfl⟩ := exists_of_mask_obj hmask
      exact ⟨category, action, severity, result, fields', (Option.some.inj (Except.ok.inj h)).symm⟩
  · cases h

theorem templateText_obj_ne {numbers : Json.NumberText ν} {fields fields' : List (String × Json ν)}
    {text : String} (h : (templateText numbers (.obj fields)).2 = .ok text) :
    text ≠ String.ofList (Json.stringify numbers (.obj fields')) := by
  rw [templateText, Json.fold_obj] at h
  obtain ⟨-, rfl⟩ := Except.guard_not_eq_ok.mp h |>.imp_right Except.ok.inj
  rw [Json.stringify_obj]
  intro heq
  have hlist : some '[' = some '{' := by simpa using congrArg (fun s ↦ s.toList.head?) heq
  exact absurd hlist (by decide)

theorem details_of_hashData {e : Row} {d d' : String} (h : hashData e d = hashData e d') :
    d = d' := by
  have hlist := congrArg String.toList h
  simp only [hashData, String.toList_append] at hlist
  exact String.toList_inj.mp (List.append_cancel_left hlist)

/-- The entry made of a row whose details are an object fails the check that the row passes. -/
theorem not_verified_of_parseRow (hsha : Function.Injective svc.sha256Hex) {p : LogParams ν}
    {fields : List (String × Json ν)} (hdetails : p.details = .obj fields) {now : IsoInstant}
    {id : ℕ} {r : StoredRow} (hlog : svc.log p now id = .ok (some r)) {e : AuditEntry (Json ν)}
    (he : svc.parseRow r.row = .ok e) : svc.verifyEntry e ≠ .ok true := by
  obtain ⟨category, action, severity, result, fields', rfl⟩ := exists_of_log hdetails hlog
  obtain ⟨parsed, hparse⟩ := parse_newRow svc p category action severity result fields' now id
  obtain rfl := Except.ok.inj (hparse.symm.trans he)
  intro hverify
  obtain ⟨text, htext, hhash⟩ := Except.bind_eq_ok.mp hverify
  replace hhash := of_decide_eq_true (Except.pure_eq_ok.mp hhash)
  -- all columns but the details are hashed alike
  exact templateText_obj_ne htext (details_of_hashData (hsha hhash))

/-- Some query on the table gives the entry out. -/
def Returned (svc : Service ν) (table : List StoredRow) (e : AuditEntry (Json ν)) : Prop :=
  (∃ filters limit offset entries,
    svc.query table filters limit offset = .ok entries ∧ e ∈ entries) ∨
  ∃ filters cursor limit direction snapshotAt page,
    svc.queryPaginated table filters cursor limit direction snapshotAt = .ok page ∧ e ∈ page.data

theorem mem_of_queryRows {table : List StoredRow} {filters : Filters}
    {cursor : Option (Cursor IsoInstant ℕ)} {limit : ℕ} {direction : Direction}
    {snapshotAt : Option IsoInstant} {page : QueriedPage StoredRow}
    (h : queryRows table filters cursor limit direction snapshotAt = .ok page) {r : StoredRow}
    (hr : r ∈ page.data) : r ∈ table := by
  unfold queryRows at h
  simp only [fetchPage_eq] at h
  split at h
  · cases h
  · obtain rfl := Except.ok.inj h
    cases direction with
    | next =>
      have hselected := mem_sortDesc.mp (List.mem_of_mem_take hr)
      exact List.mem_of_mem_filter (List.mem_of_mem_filter hselected)
    | prev =>
      have hselected := (perm_sortAsc _).mem_iff.mp (List.mem_of_mem_take (List.mem_reverse.mp hr))
      exact List.mem_of_mem_filter (List.mem_of_mem_filter hselected)

theorem exists_of_returned {table : List StoredRow} {e : AuditEntry (Json ν)}
    (h : Returned svc table e) : ∃ r ∈ table, svc.parseRow r.row = .ok e := by
  rcases h with ⟨filters, limit, offset, entries, hquery, he⟩ |
    ⟨filters, cursor, limit, direction, snapshotAt, page, hquery, he⟩
  · obtain ⟨row, hrow, hparse⟩ := exists_of_mem_parseRows hquery he
    obtain ⟨r, hr, rfl⟩ := List.mem_map.mp hrow
    have hsorted := List.mem_of_mem_drop (List.mem_of_mem_take hr)
    exact ⟨r, List.mem_of_mem_filter (mem_sortDesc.mp hsorted), hparse⟩
  · obtain ⟨rows, hrows, hpage⟩ := Except.bind_eq_ok.mp hquery
    obtain ⟨data, hdata, hpage⟩ := Except.bind_eq_ok.mp hpage
    rw [← Except.pure_eq_ok.mp hpage] at he
    obtain ⟨row, hrow, hparse⟩ := exists_of_mem_parseRows hdata he
    obtain ⟨r, hr, rfl⟩ := List.mem_map.mp hrow
    exact ⟨r, mem_of_queryRows hrows hr, hparse⟩

/-- **Genuine entries.** A call whose details are an object stores a row that no query gives out so
that it passes the check; and there is a query that gives it out. -/
theorem not_verified_of_log (svc : Service ν) (hsha : Function.Injective svc.sha256Hex)
    {p : LogParams ν} {fields : List (String × Json ν)} (hdetails : p.details = .obj fields)
    {now : IsoInstant} {id : ℕ} {r : StoredRow} (hlog : svc.log p now id = .ok (some r)) :
    (∀ table e, r ∈ table → (table.map (·.row.id)).Nodup → Returned svc table e → e.id = r.row.id →
      svc.verifyEntry e ≠ .ok true) ∧
    ∃ e, svc.query [r] {} 1 0 = .ok [e] ∧ svc.verifyEntry e ≠ .ok true := by
  constructor
  · intro table e hr hids hreturned hid
    obtain ⟨r', hr', hparse⟩ := exists_of_returned hreturned
    have hsame : r' = r :=
      List.inj_on_of_nodup_map hids hr' hr ((parseRow_id hparse).symm.trans hid)
    exact not_verified_of_parseRow hsha hdetails hlog (hsame ▸ hparse)
  · obtain ⟨category, action, severity, result, fields', hrow⟩ := exists_of_log hdetails hlog
    obtain ⟨parsed, hparse⟩ :=
      parse_newRow svc p category action severity result fields' now id
    rw [← hrow] at hparse
    refine ⟨_, ?_, not_verified_of_parseRow hsha hdetails hlog hparse⟩
    have hquery : svc.query [r] {} 1 0 = svc.parseRows [r.row] := rfl
    rw [hquery, parseRows_cons, hparse]
    rfl

theorem log_sampleParams :
    sampleService.log sampleParams (sampleInstant 6) 1 = .ok (some (sampleRow 6 1)) := rfl

/-- The sample call in a table of its own. -/
theorem not_verified_of_sampleParams :
    (∀ table e, sampleRow 6 1 ∈ table → (table.map (·.row.id)).Nodup →
      Returned sampleService table e → e.id = (sampleRow 6 1).row.id →
      sampleService.verifyEntry e ≠ .ok true) ∧
    ∃ e, sampleService.query [sampleRow 6 1] {} 1 0 = .ok [e] ∧
      sampleService.verifyEntry e ≠ .ok true :=
  not_verified_of_log sampleService sampleHash_injective rfl log_sampleParams

/-- The row passes the check, and the entry that a query gives out does not. -/
theorem sampleRow_not_verified :
    sampleService.log sampleParams (sampleInstant 6) 1 = .ok (some (sampleRow 6 1)) ∧
      sampleService.verifyRow (sampleRow 6 1).row = true ∧
      ∃ e, sampleService.query [sampleRow 6 1] {} 1 0 = .ok [e] ∧
        sampleService.verifyEntry e = .ok false := by
  refine ⟨log_sampleParams, verifyRow_newRow .., _, rfl, ?_⟩
  refine congrArg Except.ok (decide_eq_false fun hhash ↦ ?_)
  have hdata : hashData (sampleRow 6 1).row "[object Object]" = hashData (sampleRow 6 1).row "{}" :=
    sampleHash_injective hhash
  exact absurd (details_of_hashData hdata) (by decide)

end StellarDonations.Audit
