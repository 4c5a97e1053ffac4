import Mathlib.Data.List.Lex
import Mathlib.Data.Prod.Lex
import StellarDonations.Containers.Comparator
import StellarDonations.Containers.Pages
import StellarDonations.Transactions.Memory

/-!
# Pages of transactions

`Transaction.getCursorPaginated` filters the records of the store, sorts them by the field that the
client asks for, and cuts out one page. The cursor after a page holds the time and the id of its
last record, and the next page starts at the first record that is older than that, by time and then
by id. This is the order of the default sort, so there the cursor leads to the record after the
page. For every other sort the test is the same, and the list is not in its order.
-/

namespace StellarDonations.Transactions

open Comparator Concurrency JsString Pages

/-! ## What the runtime provides -/

/-- A record of the store: the object, and the place it is at. -/
structure Entry where
  place : ℕ
  tx : Object

structure Runtime where
  /-- `parseFloat(s)`; there is none where it is `NaN`. -/
  parseFloat : String → Option ℚ
  /-- `new Date(s).getTime()`; there is none where it is `NaN`. -/
  getTime : String → Option ℤ
  toLowerCase : String → String
  /-- `Array.prototype.sort`. -/
  arraySort : ArraySort Entry

/-- `String.prototype.localeCompare`, which orders the ids. -/
structure LocaleOrder where
  localeCompare : String → String → ℤ
  eq_zero_iff : ∀ a b, localeCompare a b = 0 ↔ a = b
  neg_iff : ∀ a b, localeCompare a b < 0 ↔ 0 < localeCompare b a
  neg_trans : ∀ a b c, localeCompare a b < 0 → localeCompare b c < 0 → localeCompare a c < 0

namespace LocaleOrder

variable (o : LocaleOrder)

/-- Strings in the order of `localeCompare`. -/
def Id (_ : LocaleOrder) : Type := String

instance : LinearOrder o.Id where
  le a b := o.localeCompare a b ≤ 0
  lt a b := o.localeCompare a b < 0
  le_refl a := ((o.eq_zero_iff a a).mpr rfl).le
  le_trans a b c hab hbc := by
    rcases lt_or_eq_of_le hab with hlt | heq
    · rcases lt_or_eq_of_le hbc with hlt' | heq'
      · exact (o.neg_trans a b c hlt hlt').le
      · rw [← (o.eq_zero_iff b c).mp heq']
        exact hlt.le
    · rw [(o.eq_zero_iff a b).mp heq]
      exact hbc
  lt_iff_le_not_ge a b := by
    rw [o.neg_iff a b, not_le]
    constructor
    · intro h
      exact ⟨((o.neg_iff a b).mpr h).le, h⟩
    · exact fun h ↦ h.2
  le_antisymm a b hab hba := by
    refine (o.eq_zero_iff a b).mp (le_antisymm hab ?_)
    by_contra hneg
    exact absurd hba (not_le.mpr ((o.neg_iff a b).mp (not_le.mp hneg)))
  le_total a b := by
    by_cases h : o.localeCompare a b ≤ 0
    · exact .inl h
    · exact .inr ((o.neg_iff b a).mpr (not_le.mp h)).le
  toDecidableLE a b := inferInstanceAs (Decidable (o.localeCompare a b ≤ 0))
  toDecidableEq := inferInstanceAs (DecidableEq String)
  toDecidableLT a b := inferInstanceAs (Decidable (o.localeCompare a b < 0))

end LocaleOrder

/-! ## The query -/

/-- The arguments of `getCursorPaginated`. -/
structure PageQuery where
  limit : ℕ := 20
  cursor : Option String := none
  startDate : Option String := none
  endDate : Option String := none
  senderPublicKey : Option String := none
  recipientPublicKey : Option String := none
  fromAddress : Option String := none
  toAddress : Option String := none
  amountMin : Option String := none
  amountMax : Option String := none
  dateFrom : Option String := none
  dateTo : Option String := none
  status : Option String := none
  memoContains : Option String := none
  sort : Option String := none
  filterMode : String := "all"

namespace PageQuery

variable (rt : Runtime) (q : PageQuery)

/-- `fromAddress || senderPublicKey`, when it is a filter. -/
def effectiveFrom : Option String := (orNull q.fromAddress).or (orNull q.senderPublicKey)

/-- `toAddress || recipientPublicKey`, when it is a filter. -/
def effectiveTo : Option String := (orNull q.toAddress).or (orNull q.recipientPublicKey)

/-- `dateFrom || startDate`, when it is a filter. -/
def effectiveStart : Option String := (orNull q.dateFrom).or (orNull q.startDate)

/-- `dateTo || endDate`, when it is a filter. -/
def effectiveEnd : Option String := (orNull q.dateTo).or (orNull q.endDate)

/-- The predicates of the filters that are set, in the order of the code. A number that is `NaN`
matches nothing. -/
def predicates : List (Object → Bool) :=
  List.reduceOption [
    q.effectiveFrom.map fun address tx ↦ tx.donor = some address,
    q.effectiveTo.map fun address tx ↦ tx.recipient = some address,
    q.amountMin.map fun text tx ↦ (rt.parseFloat text).any (· ≤ tx.amount.toNumber),
    q.amountMax.map fun text tx ↦ (rt.parseFloat text).any (tx.amount.toNumber ≤ ·),
    q.effectiveStart.map fun text tx ↦ (rt.getTime text).any (· ≤ (tx.timestamp : ℤ)),
    q.effectiveEnd.map fun text tx ↦ (rt.getTime text).any ((tx.timestamp : ℤ) ≤ ·),
    (orNull q.status).map fun text tx ↦ rt.toLowerCase tx.status = rt.toLowerCase text,
    (orNull q.memoContains).map fun text tx ↦
      decide ((rt.toLowerCase text).toList <:+: (rt.toLowerCase tx.memo).toList)]

def matching (tx : Object) : Bool :=
  let predicates := q.predicates rt
  if predicates.isEmpty then true
  else if q.filterMode = "any" then predicates.any fun f ↦ f tx
  else predicates.all fun f ↦ f tx

/-- Something is set that later pages have to know. -/
def hasFilters : Bool :=
  q.effectiveFrom.isSome || q.effectiveTo.isSome || q.amountMin.isSome || q.amountMax.isSome ||
    q.effectiveStart.isSome || q.effectiveEnd.isSome || (orNull q.status).isSome ||
    (orNull q.memoContains).isSome || (orNull q.sort).isSome || q.filterMode ≠ "all"

end PageQuery

/-! ## The order -/

/-- `ALLOWED_SORT_FIELDS`. -/
inductive SortField where
  | amount
  | timestamp
  | status
  deriving DecidableEq

def SortField.ofName : String → Option SortField
  | "amount" => some amount
  | "timestamp" => some timestamp
  | "status" => some status
  | _ => none

structure SortOrder where
  field : SortField := .timestamp
  descending : Bool := true
  deriving DecidableEq

def isDescending : String → Option Bool
  | "asc" => some false
  | "desc" => some true
  | _ => none

/-- The parameter `sort`, where what is not understood is left at the default. -/
def PageQuery.order (rt : Runtime) (q : PageQuery) : SortOrder :=
  match orNull q.sort with
  | none => {}
  | some text =>
    let parts := (text.toList.splitOn ':').map String.ofList
    { field := (parts[0]?.bind fun name ↦ SortField.ofName (rt.toLowerCase name)).getD .timestamp
      descending := (parts[1]?.bind fun dir ↦ isDescending (rt.toLowerCase dir)).getD true }

/-- `<` between amounts: two texts are compared as texts. -/
def Amount.lt : Amount → Amount → Bool
  | text s, text s' => codeUnits s.text < codeUnits s'.text
  | number x, a => x < a.toNumber
  | a, number x => a.toNumber < x

namespace SortOrder

variable (rt : Runtime) (o : LocaleOrder)

/-- The comparison by a value, with the id as a tie-breaker. -/
def compareBy (lt : Object → Object → Bool) (descending : Bool) (a b : Object) : ℤ :=
  if lt a b then (if descending then 1 else -1)
  else if lt b a then (if descending then -1 else 1)
  else o.localeCompare b.id a.id

/-- The comparison by a value whose comparison is that of an order. -/
def compareOn {β : Type} [LinearOrder β] (descending : Bool) (value : Object → β) : Object →
    Object → ℤ :=
  compareBy o (fun a b ↦ value a < value b) descending

def compare (order : SortOrder) (a b : Object) : ℤ :=
  match order.field with
  | .amount => compareBy o (fun a b ↦ a.amount.lt b.amount) order.descending a b
  | .status => compareOn o order.descending (fun tx ↦ codeUnits (rt.toLowerCase tx.status)) a b
  | .timestamp => compareOn o order.descending (·.timestamp) a b

/-- Two records are in order by a value. -/
def InOrderOn {β : Type} [LinearOrder β] (descending : Bool) (value : Object → β) (a b : Object) :
    Prop :=
  if descending then value b ≤ value a else value a ≤ value b

/-- Two records are in the order that was asked for. -/
def InOrder (order : SortOrder) (a b : Object) : Prop :=
  match order.field with
  | .amount => InOrderOn order.descending (·.amount.toNumber) a b
  | .status => InOrderOn order.descending (fun tx ↦ codeUnits (rt.toLowerCase tx.status)) a b
  | .timestamp => InOrderOn order.descending (·.timestamp) a b

end SortOrder

/-! ## The cursor -/

structure CursorPayload where
  t : ℕ
  id : String
  fa : Option String
  ta : Option String
  amin : Option String
  amax : Option String
  sd : Option String
  ed : Option String
  st : Option String
  mc : Option String
  so : Option String
  fm : Option String

/-- What parsing a cursor as the text of a payload comes to. -/
inductive Parsed where
  /-- It is not the text of a JSON value. -/
  | thrown
  /-- The value has no number `t`. -/
  | other
  | at (t : ℤ) (id : String)

/-- JSON in base 64: the text of a payload, and what becomes of a text. A text that starts with a
digit decodes to a byte that no JSON value starts with. -/
structure CursorCodec where
  encode : CursorPayload → String
  parse : String → Parsed
  encode_ne : ∀ p, encode p ≠ ""
  parse_encode : ∀ p, parse (encode p) = .at p.t p.id
  parse_digit : ∀ c rest, Char.isDigit c = true → parse (String.ofList (c :: rest)) = .thrown

namespace PageQuery

variable (codec : CursorCodec) (q : PageQuery)

def payload (t : ℕ) (id : String) : CursorPayload where
  t := t
  id := id
  fa := q.effectiveFrom
  ta := q.effectiveTo
  amin := q.amountMin
  amax := q.amountMax
  sd := q.effectiveStart
  ed := q.effectiveEnd
  st := orNull q.status
  mc := orNull q.memoContains
  so := orNull q.sort
  fm := if q.filterMode ≠ "" ∧ q.filterMode ≠ "all" then some q.filterMode else none

/-- The cursor after a record with this time and id. -/
def cursorText (t : ℕ) (id : String) : String :=
  if q.hasFilters then codec.encode (q.payload t id) else Nat.repr t ++ "_" ++ id

end PageQuery

/-- `cursorTime` and `cursorId`, when both are set; the time is `NaN` when it is no number. -/
def decodeCursor (codec : CursorCodec) (cursor : Option String) : Option (Option ℤ × String) :=
  match orNull cursor with
  | none => none
  | some text =>
    match codec.parse text with
    | .at t id => some (some t, id)
    | .other => none
    | .thrown =>
      match text.toList.splitOn '_' with
      | time :: id :: rest => some
          (JsNumber.parseInt (String.ofList time), String.ofList (['_'].intercalate (id :: rest)))
      | _ => none

/-! ## The pages -/

namespace Memory

variable (rt : Runtime) (o : LocaleOrder) (codec : CursorCodec) (m : Memory) (q : PageQuery)

def entries : List Entry := m.store.entries.filterMap fun e ↦ (m.objects e.2).map (Entry.mk e.2)

/-- The records that are not deleted and pass the filters. -/
def active : List Entry :=
  m.entries.filter fun e ↦ e.tx.deletedAt.isNone && q.matching rt e.tx

def sorted : List Entry :=
  rt.arraySort.sort (fun a b ↦ (q.order rt).compare rt o a.tx b.tx) (m.active rt q)

def isPast (time : Option ℤ) (id : String) (e : Entry) : Bool :=
  time.any fun t ↦ (e.tx.timestamp : ℤ) < t ||
    ((e.tx.timestamp : ℤ) = t && o.localeCompare e.tx.id id < 0)

def getCursorPaginated : Page Entry String :=
  let sorted := m.sorted rt o q
  let startIndex :=
    match decodeCursor codec q.cursor with
    | none => some 0
    | some (time, id) => sorted.findIdx? (isPast o time id)
  match startIndex with
  | none => ⟨[], none, false⟩
  | some i =>
    let pageLimit := min q.limit 100
    let data := (sorted.drop i).take pageLimit
    let hasMore : Bool := i + pageLimit < sorted.length
    ⟨data, if hasMore then data.getLast?.map fun e ↦ q.cursorText codec e.tx.timestamp e.tx.id
      else none, hasMore⟩

end Memory

/-! ## The key of a record -/

section Keys

variable (o : LocaleOrder)

/-- Time and id, in the order of the cursor. -/
abbrev CursorKey (o : LocaleOrder) : Type := Lex (ℕ × o.Id)

def keyOf (t : ℕ) (id : String) : CursorKey o := toLex ((t, id) : ℕ × o.Id)

def Entry.key (e : Entry) : CursorKey o := keyOf o e.tx.timestamp e.tx.id

variable {o} in
def keyTime (k : CursorKey o) : ℕ := (ofLex k).1

variable {o} in
def keyId (k : CursorKey o) : String := (ofLex k).2

theorem keyOf_keyTime_keyId (k : CursorKey o) : keyOf o (keyTime k) (keyId k) = k := rfl

variable {o} in
def PageQuery.cursorOf (codec : CursorCodec) (q : PageQuery) (k : CursorKey o) : String :=
  q.cursorText codec (keyTime k) (keyId k)

theorem keyOf_lt_keyOf {t t' : ℕ} {id id' : String} :
    keyOf o t id < keyOf o t' id' ↔ t < t' ∨ t = t' ∧ o.localeCompare id id' < 0 :=
  Prod.Lex.toLex_lt_toLex

/-- The test of the code is the order of the keys. -/
theorem Memory.isPast_eq (t : ℕ) (id : String) (e : Entry) :
    Memory.isPast o (some (t : ℤ)) id e = decide (e.key o < keyOf o t id) := by
  rw [Memory.isPast, Option.any_some, Bool.eq_iff_iff, decide_eq_true_iff, Entry.key,
    keyOf_lt_keyOf]
  simp only [Bool.or_eq_true, Bool.and_eq_true, decide_eq_true_iff, Int.ofNat_lt,
    Int.natCast_inj]

end Keys

/-- The digits of a time hold no underscore, so the first part of a plain cursor is the time. -/
theorem splitOn_plain (t : ℕ) (id : List Char) :
    (Nat.toDigits 10 t ++ '_' :: id).splitOn '_' = Nat.toDigits 10 t :: id.splitOn '_' := by
  refine List.splitOnP_append_cons_of_forall_mem (fun c hc ↦ ?_) '_' (by simp) id
  have hne : c ≠ '_' := by
    rintro rfl
    exact Nat.underscore_not_in_toDigits hc
  simpa using hne

theorem parseInt_ofList_toDigits (t : ℕ) :
    JsNumber.parseInt (String.ofList (Nat.toDigits 10 t)) = some (t : ℤ) := by
  rw [← Nat.repr_eq_ofList_toDigits]
  exact JsNumber.parseInt_repr t

theorem decodeCursor_cursorText (codec : CursorCodec) (q : PageQuery) (t : ℕ) (id : String) :
    decodeCursor codec (some (q.cursorText codec t id)) = some (some (t : ℤ), id) := by
  rw [decodeCursor, PageQuery.cursorText]
  split_ifs
  · have htext : orNull (some (codec.encode (q.payload t id))) =
        some (codec.encode (q.payload t id)) :=
      orNull_eq_some.mpr ⟨rfl, codec.encode_ne _⟩
    rw [htext]
    simp only [codec.parse_encode]
    rfl
  · have hlist : (Nat.repr t ++ "_" ++ id).toList = Nat.toDigits 10 t ++ '_' :: id.toList := by
      rw [String.toList_append, String.toList_append, Nat.toList_repr, List.append_assoc]
      rfl
    have htext : orNull (some (Nat.repr t ++ "_" ++ id)) = some (Nat.repr t ++ "_" ++ id) := by
      refine orNull_eq_some.mpr ⟨rfl, fun hempty ↦ ?_⟩
      rw [hempty] at hlist
      exact absurd hlist (by simp)
    have hthrown : codec.parse (Nat.repr t ++ "_" ++ id) = .thrown := by
      cases hdigits : Nat.toDigits 10 t with
      | nil => exact absurd hdigits Nat.toDigits_ne_nil
      | cons c rest =>
        have hc : c.isDigit = true := by
          refine Nat.isDigit_of_mem_toDigits (b := 10) (n := t) (by decide) (by decide) ?_
          rw [hdigits]
          exact List.mem_cons_self
        rw [← String.ofList_toList (s := Nat.repr t ++ "_" ++ id), hlist, hdigits]
        exact codec.parse_digit c _ hc
    rw [htext]
    simp only [hthrown, hlist, splitOn_plain]
    cases hid : id.toList.splitOn '_' with
    | nil => exact absurd hid (List.splitOnP_ne_nil _ _)
    | cons first rest =>
      simp only [parseInt_ofList_toDigits]
      rw [← hid, List.intercalate_splitOn, String.ofList_toList]

/-! ## The records of the store -/

namespace Memory

variable {m : Memory}

theorem mem_entries (hm : m.WellFormed) {e : Entry} :
    e ∈ m.entries ↔ m.store.lookup e.tx.id = some e.place ∧ m.objects e.place = some e.tx := by
  rw [entries, List.mem_filterMap]
  constructor
  · rintro ⟨⟨id, r⟩, hmem, hentry⟩
    obtain ⟨tx, hobj, rfl⟩ := Option.map_eq_some_iff.mp hentry
    have hlookup : m.store.lookup id = some r := AList.mem_lookup_iff.mpr hmem
    obtain ⟨tx', hobj', rfl⟩ := hm.stored id r hlookup
    rw [hobj] at hobj'
    cases hobj'
    exact ⟨hlookup, hobj⟩
  · rintro ⟨hlookup, hobj⟩
    refine ⟨⟨e.tx.id, e.place⟩, AList.mem_lookup_iff.mp hlookup, ?_⟩
    rw [hobj]
    rfl

theorem nodup_entries (hm : m.WellFormed) : (m.entries.map fun e ↦ e.tx.id).Nodup := by
  have hids : m.entries.map (fun e ↦ e.tx.id) = m.store.entries.map Sigma.fst := by
    rw [entries, List.map_filterMap, ← List.filterMap_eq_map]
    refine List.filterMap_congr fun e he ↦ ?_
    obtain ⟨tx, hobj, hid⟩ := hm.stored e.1 e.2 (AList.mem_lookup_iff.mpr he)
    rw [hobj]
    exact congrArg some hid
  rw [hids]
  exact m.store.nodupKeys

variable (rt : Runtime) (o : LocaleOrder) (codec : CursorCodec) (q : PageQuery)

theorem sorted_perm : (m.sorted rt o q).Perm (m.active rt q) := rt.arraySort.perm _ _

theorem nodup_sorted_ids (hm : m.WellFormed) :
    ((m.sorted rt o q).map fun e ↦ e.tx.id).Nodup := by
  have hactive : ((m.active rt q).map fun e ↦ e.tx.id).Nodup :=
    (nodup_entries hm).sublist (List.filter_sublist.map _)
  exact ((sorted_perm rt o q).map _).nodup_iff.mpr hactive

/-- The code's page is the page by the keys, and its cursor says the key of the last record. -/
theorem getCursorPaginated_eq (c : Option (CursorKey o)) :
    m.getCursorPaginated rt o codec { q with cursor := c.map (q.cursorOf codec) } =
      let p := page (Entry.key o) (min q.limit 100) (m.sorted rt o q) c
      ⟨p.data, p.next.map (q.cursorOf codec), p.hasMore⟩ := by
  have hstart : (match decodeCursor codec (c.map (q.cursorOf codec)) with
      | none => some 0
      | some (time, id) => (m.sorted rt o q).findIdx? (isPast o time id)) =
        start (Entry.key o) (m.sorted rt o q) c := by
    cases c with
    | none => rfl
    | some k =>
      have hpast : isPast o (some (keyTime k : ℤ)) (keyId k) = fun e ↦ decide (e.key o < k) := by
        funext e
        rw [isPast_eq, keyOf_keyTime_keyId]
      rw [Option.map_some, PageQuery.cursorOf, decodeCursor_cursorText]
      simp only [hpast]
      rfl
  have hsorted :
      m.sorted rt o { q with cursor := c.map (q.cursorOf codec) } = m.sorted rt o q := rfl
  simp only [getCursorPaginated, hsorted]
  rw [hstart]
  cases hi : start (Entry.key o) (m.sorted rt o q) c with
  | none =>
    rw [page_of_start_eq_none hi]
    rfl
  | some i =>
    rw [page_of_start_eq_some (min q.limit 100) hi]
    by_cases hmore : i + min q.limit 100 < (m.sorted rt o q).length
    · simp only [hmore, decide_true, if_true, Option.map_map]
      rfl
    · simp only [hmore, decide_false, if_false, Bool.false_eq_true, Option.map_none]

end Memory

/-! ## The sort -/

namespace SortOrder

variable (rt : Runtime) (o : LocaleOrder) {β : Type} [LinearOrder β]

theorem compareOn_nonpos_iff (descending : Bool) (value : Object → β) (a b : Object) :
    compareOn o descending value a b ≤ 0 ↔
      (if descending then value b < value a else value a < value b) ∨
        value a = value b ∧ o.localeCompare b.id a.id ≤ 0 := by
  rw [compareOn, compareBy]
  rcases lt_trichotomy (value a) (value b) with hlt | heq | hgt
  · cases descending <;> simp [hlt, hlt.ne, hlt.not_gt]
  · simp [heq]
  · cases descending <;> simp [hgt, hgt.ne', hgt.not_gt]

/-- The comparison by a value is that of a linear order. -/
theorem exists_rank (descending : Bool) (value : Object → β) :
    ∃ (γ : Type) (_ : LinearOrder γ) (rank : Object → γ),
      ∀ a b, compareOn o descending value a b ≤ 0 ↔ rank a ≤ rank b := by
  cases descending with
  | false =>
    refine ⟨Lex (β × o.Idᵒᵈ), inferInstance,
      fun tx ↦ toLex ((value tx, OrderDual.toDual tx.id) : β × o.Idᵒᵈ), fun a b ↦ ?_⟩
    rw [compareOn_nonpos_iff, Prod.Lex.toLex_le_toLex]
    rfl
  | true =>
    refine ⟨Lex (βᵒᵈ × o.Idᵒᵈ), inferInstance,
      fun tx ↦ toLex ((OrderDual.toDual (value tx), OrderDual.toDual tx.id) : βᵒᵈ × o.Idᵒᵈ),
      fun a b ↦ ?_⟩
    rw [compareOn_nonpos_iff, Prod.Lex.toLex_le_toLex]
    rfl

theorem compareBy_neg_iff {lt : Object → Object → Bool}
    (hasymm : ∀ a b, lt a b = true → lt b a = false) (descending : Bool) (a b : Object) :
    compareBy o lt descending a b < 0 ↔ 0 < compareBy o lt descending b a := by
  rw [compareBy, compareBy]
  cases hab : lt a b with
  | true => cases descending <;> simp [hasymm a b hab]
  | false =>
    cases hba : lt b a with
    | true => cases descending <;> simp
    | false => simpa using o.neg_iff b.id a.id

theorem consistent_compareOn (descending : Bool) (value : Object → β) (l : List Entry) :
    Consistent (fun a b ↦ compareOn o descending value a.tx b.tx) l := by
  obtain ⟨γ, _, rank, hrank⟩ := exists_rank o descending value
  refine ⟨fun a _ b _ ↦ compareBy_neg_iff o (fun a b hab ↦ ?_) descending a.tx b.tx,
    fun a _ b _ c _ ↦ ?_⟩
  · exact decide_eq_false (of_decide_eq_true hab).not_gt
  · rw [hrank, hrank, hrank]
    exact le_trans

theorem inOrderOn_of_compareOn (descending : Bool) (value : Object → β) {a b : Object}
    (h : compareOn o descending value a b ≤ 0) : InOrderOn descending value a b := by
  rw [compareOn_nonpos_iff] at h
  rw [InOrderOn]
  cases descending with
  | false => exact h.elim le_of_lt fun heq ↦ heq.1.le
  | true => exact h.elim le_of_lt fun heq ↦ heq.1.ge

end SortOrder

namespace Memory

variable {m : Memory} (rt : Runtime) (o : LocaleOrder) (q : PageQuery)

theorem sorted_pairwise {β : Type} [LinearOrder β] (value : Object → β) (descending : Bool)
    (h : ∀ a ∈ m.active rt q, ∀ b ∈ m.active rt q,
      (q.order rt).compare rt o a.tx b.tx = SortOrder.compareOn o descending value a.tx b.tx) :
    (m.sorted rt o q).Pairwise fun a b ↦ SortOrder.compareOn o descending value a.tx b.tx ≤ 0 := by
  have hcons := SortOrder.consistent_compareOn o descending value (m.active rt q)
  have hcompare : Consistent (fun a b ↦ (q.order rt).compare rt o a.tx b.tx) (m.active rt q) := by
    refine ⟨fun a ha b hb ↦ ?_, fun a ha b hb c hc ↦ ?_⟩
    · rw [h a ha b hb, h b hb a ha]
      exact hcons.neg_iff a ha b hb
    · rw [h a ha b hb, h b hb c hc, h a ha c hc]
      exact hcons.trans a ha b hb c hc
  refine (rt.arraySort.pairwise _ _ hcompare).imp_of_mem fun {a b} ha hb hab ↦ ?_
  have hmem := fun e ↦ (sorted_perm rt o q (m := m)).mem_iff (a := e)
  rwa [h a ((hmem a).mp ha) b ((hmem b).mp hb)] at hab

def ComparesNumbers (l : List Entry) : Prop :=
  ∀ a ∈ l, ∀ b ∈ l, a.tx.amount.lt b.tx.amount = decide
    (a.tx.amount.toNumber < b.tx.amount.toNumber)

/-- **The listing is in the order that was asked for**, unless texts are compared that say something
else than their numbers. -/
theorem sorted_inOrder (h : (q.order rt).field = .amount → ComparesNumbers (m.active rt q)) :
    (m.sorted rt o q).Pairwise fun a b ↦ (q.order rt).InOrder rt a.tx b.tx := by
  obtain ⟨field, descending, horder⟩ : ∃ field descending, q.order rt = ⟨field, descending⟩ :=
    ⟨_, _, rfl⟩
  rw [horder] at h ⊢
  cases field with
  | amount =>
    have hsorted := sorted_pairwise (m := m) rt o q (fun tx ↦ tx.amount.toNumber) descending
      fun a ha b hb ↦ by
        rw [horder, SortOrder.compareOn, SortOrder.compareBy, ← h rfl a ha b hb,
          ← h rfl b hb a ha]
        rfl
    exact hsorted.imp (SortOrder.inOrderOn_of_compareOn o descending _)
  | timestamp =>
    have hsorted := sorted_pairwise (m := m) rt o q (fun tx ↦ tx.timestamp) descending
      fun a ha b hb ↦ by rw [horder]; rfl
    exact hsorted.imp (SortOrder.inOrderOn_of_compareOn o descending _)
  | status =>
    have hsorted := sorted_pairwise (m := m) rt o q
      (fun tx ↦ codeUnits (rt.toLowerCase tx.status)) descending fun a ha b hb ↦ by rw [horder]; rfl
    exact hsorted.imp (SortOrder.inOrderOn_of_compareOn o descending _)

theorem sorted_descending (hm : m.WellFormed) (horder : q.order rt = {}) :
    (m.sorted rt o q).Pairwise fun a b ↦ b.key o < a.key o := by
  have hids : (m.sorted rt o q).Pairwise fun a b ↦ a.tx.id ≠ b.tx.id :=
    List.pairwise_map.mp (nodup_sorted_ids rt o q hm)
  have hsorted := sorted_pairwise (m := m) rt o q (fun tx ↦ tx.timestamp) true
    fun a _ b _ ↦ by rw [horder]; rfl
  refine (hsorted.and hids).imp fun {a b} h ↦ ?_
  obtain ⟨hcompare, hne⟩ := h
  rw [Entry.key, Entry.key, keyOf_lt_keyOf]
  rcases (SortOrder.compareOn_nonpos_iff o true (fun tx ↦ tx.timestamp) a.tx b.tx).mp hcompare with
    hlt | ⟨heq, hle⟩
  · exact .inl hlt
  · refine .inr ⟨heq.symm, lt_of_le_of_ne hle ?_⟩
    rw [Ne, o.eq_zero_iff]
    exact fun hid ↦ hne hid.symm

end Memory

/-! ## Traversals of a store that stays -/

/-- Following the cursors from the first page ends, and brings every record that matches once, in
the order that was asked for. -/
def CompleteTraversal (rt : Runtime) (o : LocaleOrder) (codec : CursorCodec) (m : Memory)
    (q : PageQuery) : Prop :=
  ∃ l, Reads (fun c ↦ m.getCursorPaginated rt o codec { q with cursor := c }) none l ∧
    l.Perm (m.active rt q) ∧ l.Pairwise fun a b ↦ (q.order rt).InOrder rt a.tx b.tx

theorem completeTraversal_iff_cutsAgree (rt : Runtime) (o : LocaleOrder) (codec : CursorCodec)
    {m : Memory} (hm : m.WellFormed) (q : PageQuery) (hpos : 1 ≤ q.limit) (hle : q.limit ≤ 100) :
    CompleteTraversal rt o codec m q ↔
      CutsAgree (Entry.key o) q.limit (m.sorted rt o q) ∧
        (m.sorted rt o q).Pairwise fun a b ↦ (q.order rt).InOrder rt a.tx b.tx := by
  have hnodup : (m.sorted rt o q).Nodup := (Memory.nodup_sorted_ids rt o q hm).of_map
  have hreads : ∀ l, Reads (fun c ↦ m.getCursorPaginated rt o codec { q with cursor := c }) none l ↔
      Reads (page (Entry.key o) q.limit (m.sorted rt o q)) none l := by
    intro l
    refine reads_map_iff (c := none) _ _ (q.cursorOf codec) fun c ↦ ?_
    have hpage := Memory.getCursorPaginated_eq (m := m) rt o codec q c
    rwa [Nat.min_eq_left hle] at hpage
  constructor
  · rintro ⟨l, hl, hperm, hinOrder⟩
    have hcuts := (reads_perm_iff_cutsAgree hnodup hpos).mp
      ⟨l, (hreads l).mp hl, hperm.trans (Memory.sorted_perm rt o q).symm⟩
    -- what is read is the listing itself
    obtain rfl : l = m.sorted rt o q := ((hreads l).mp hl).unique (reads_of_cutsAgree hpos hcuts)
    exact ⟨hcuts, hinOrder⟩
  · rintro ⟨hcuts, hinOrder⟩
    exact ⟨m.sorted rt o q, (hreads _).mpr (reads_of_cutsAgree hpos hcuts),
      Memory.sorted_perm rt o q, hinOrder⟩

/-- **Cursors are complete where the order is theirs.** Following the cursors brings every record
once, in the order that was asked for, exactly when this is the default order or the listing is in
the order that was asked for and at each page boundary of it the next record is older than the last
one of the page and no record before the boundary is. -/
theorem cursor_pages_complete_iff (rt : Runtime) (o : LocaleOrder) (codec : CursorCodec)
    {m : Memory} (hm : m.WellFormed) (q : PageQuery) (hpos : 1 ≤ q.limit) (hle : q.limit ≤ 100) :
    CompleteTraversal rt o codec m q ↔
      q.order rt = {} ∨ CutsAgree (Entry.key o) q.limit (m.sorted rt o q) ∧
        (m.sorted rt o q).Pairwise fun a b ↦ (q.order rt).InOrder rt a.tx b.tx := by
  rw [completeTraversal_iff_cutsAgree rt o codec hm q hpos hle]
  refine (or_iff_right_of_imp fun horder ↦ ?_).symm
  refine ⟨cutsAgree_of_descending (Memory.sorted_descending rt o q hm horder), ?_⟩
  refine Memory.sorted_inOrder rt o q fun hfield ↦ ?_
  rw [horder] at hfield
  cases hfield

/-! ## Fixed stores -/

section PaginationExamples

def asciiRuntime : Runtime where
  parseFloat _ := none
  getTime _ := none
  toLowerCase := toLowerCase
  arraySort := insertion

/-- The order of the code points, which on ids of digits and lower-case letters is that of
`localeCompare`. -/
def codePointOrder : LocaleOrder where
  localeCompare a b :=
    if a.toList.map Char.toNat < b.toList.map Char.toNat then -1
    else if b.toList.map Char.toNat < a.toList.map Char.toNat then 1
    else 0
  eq_zero_iff a b := by
    have hinj : a.toList.map Char.toNat = b.toList.map Char.toNat ↔ a = b := by
      rw [(List.map_injective_iff.mpr fun _ _ h ↦ Char.toNat_inj.mp h).eq_iff, String.toList_inj]
    rw [← hinj]
    rcases lt_trichotomy (a.toList.map Char.toNat) (b.toList.map Char.toNat) with hlt | heq | hgt
    · simp [hlt, hlt.ne]
    · simp [heq]
    · simp [hgt, hgt.ne', hgt.not_gt]
  neg_iff a b := by
    rcases lt_trichotomy (a.toList.map Char.toNat) (b.toList.map Char.toNat) with hlt | heq | hgt
    · simp [hlt, hlt.not_gt]
    · simp [heq]
    · simp [hgt, hgt.not_gt]
  neg_trans a b c hab hbc := by
    have hlt : ∀ x y : List ℕ,
        (if x < y then (-1 : ℤ) else if y < x then 1 else 0) < 0 ↔ x < y := by
      intro x y
      rcases lt_trichotomy x y with hlt | heq | hgt
      · simp [hlt]
      · simp [heq]
      · simp [hgt, hgt.not_gt]
    rw [hlt] at hab hbc ⊢
    exact hab.trans hbc

/-- A codec whose payloads are told from plain cursors by their first character, as those in base 64
are. -/
def markedCodec : CursorCodec where
  encode p := String.ofList ('e' :: (Nat.toDigits 10 p.t ++ '_' :: p.id.toList))
  parse text :=
    match text.toList with
    | 'e' :: rest =>
      match rest.splitOn '_' with
      | time :: id :: more =>
        match JsNumber.parseInt (String.ofList time) with
        | some t => .at t (String.ofList (['_'].intercalate (id :: more)))
        | none => .thrown
      | _ => .thrown
    | _ => .thrown
  encode_ne p h := by
    have hlist := congrArg String.toList h
    simp at hlist
  parse_encode p := by
    rw [String.toList_ofList]
    simp only [splitOn_plain]
    cases hid : p.id.toList.splitOn '_' with
    | nil => exact absurd hid (List.splitOnP_ne_nil _ _)
    | cons first rest =>
      simp only [parseInt_ofList_toDigits]
      rw [← hid, List.intercalate_splitOn, String.ofList_toList]
  parse_digit c rest hc := by
    rw [String.toList_ofList]
    split
    · next heq =>
      cases heq
      cases hc
    · rfl

def twoDonations : Memory :=
  run Memory.step (Memory.starting [])
    [.call 1 (.create { amount := 1, donor := none, recipient := none } "tx1"),
      .call 2 (.create { amount := 2, donor := none, recipient := none } "tx2")]

theorem wellFormed_twoDonations : twoDonations.WellFormed :=
  (always_of_step Memory.wellFormed_step (Memory.wellFormed_starting []) _).last

/-- By ascending amount, the cursor after the first donation leads to an empty page. -/
theorem amount_pages_incomplete :
    ¬CompleteTraversal asciiRuntime codePointOrder markedCodec twoDonations
      { limit := 1, sort := some "amount:asc" } := by
  rw [completeTraversal_iff_cutsAgree _ _ _ wellFormed_twoDonations _ (by decide) (by decide)]
  rintro ⟨hcuts, -⟩
  obtain ⟨holder, -⟩ := hcuts 1 (by decide) (by decide) (by decide)
  revert holder
  decide

/-- By default both donations are read, in pages of one. -/
theorem default_pages_complete :
    CompleteTraversal asciiRuntime codePointOrder markedCodec twoDonations { limit := 1 } :=
  (cursor_pages_complete_iff _ _ _ wellFormed_twoDonations _ (by decide) (by decide)).mpr
    (.inl rfl)

end PaginationExamples

end StellarDonations.Transactions
