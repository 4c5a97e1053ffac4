import Mathlib.Data.Int.Notation
import Mathlib.Order.Lattice
import StellarDonations.Errors
import StellarDonations.Text.JsString

/-!
# Routing to the least funded recipient

`HighestNeedStrategy` and `LowestTotalStrategy`. Both look for a member of the pool whose total of
donations is least. The totals are BigInts, a member without one counts as the number zero, and so
does the BigInt zero for the second strategy. Numbers and BigInts may be compared with each other,
so the first strategy finds what it looks for. They may not be subtracted from each other, and a
sort does not take a BigInt for an answer: the second strategy throws as soon as there are two
members and one of them has received anything (`least_funded_iff`).
-/

namespace StellarDonations.LeastFunded

open JsString

/-! ## Numbers and BigInts -/

/-- A value that is a number or a BigInt. -/
inductive Numeric where
  | number (n : ℤ)
  | bigint (n : ℤ)
  deriving DecidableEq

namespace Numeric

def value : Numeric → ℤ
  | number n | bigint n => n

/-- `a < b`, between values of either type. -/
def lt (a b : Numeric) : Bool := a.value < b.value

/-- `a - b`. -/
def sub : Numeric → Numeric → Except AppError Numeric
  | number a, number b => .ok (number (a - b))
  | bigint a, bigint b => .ok (bigint (a - b))
  | _, _ => .error (.wrongType "Cannot mix BigInt and other types, use explicit conversions")

def toNumber : Numeric → Except AppError ℤ
  | number n => .ok n
  | bigint _ => .error (.wrongType "Cannot convert a BigInt value to a number")

end Numeric

/-! ## The strategies -/

/-- `donationTotals`, from ids to BigInts. -/
abbrev Totals : Type := String → Option ℤ

/-- `getTotalsForPool` over the sums the query returned: zero for every recipient, and then the
sums, the last one for an id winning. -/
def getTotalsForPool (recipientIds : List String) (rows : List (String × ℤ)) : Totals := fun id ↦
  match rows.reverse.find? (·.1 = id) with
  | some row => some row.2
  | none => if id ∈ recipientIds then some 0 else none

/-- What the loop of `HighestNeedStrategy` keeps; there is no least total before the first member,
where it is `Infinity`. -/
structure Best where
  minTotal : Option Numeric := none
  selectedId : Option String := none

/-- `donationTotals.get(id) ?? 0`. -/
def totalOrZero (donationTotals : Totals) (id : String) : Numeric :=
  match donationTotals id with
  | some n => .bigint n
  | none => .number 0

def consider (donationTotals : Totals) (best : Best) (id : String) : Best :=
  let total := totalOrZero donationTotals id
  match best.minTotal with
  | none => ⟨some total, some id⟩
  | some minTotal =>
    if total.lt minTotal || (total = minTotal &&
        best.selectedId.any fun selectedId ↦ codeUnits id < codeUnits selectedId) then
      ⟨some total, some id⟩
    else best

/-- `HighestNeedStrategy.select`. -/
def highestNeed (pool : List String) (donationTotals : Totals) : Option String :=
  (pool.foldl (consider donationTotals) {}).selectedId

/-- `donationTotals.get(id) || 0`. -/
def totalOrFalsy (donationTotals : Totals) (id : String) : Numeric :=
  match donationTotals id with
  | some n => if n = 0 then .number 0 else .bigint n
  | none => .number 0

structure Funded where
  id : String
  total : Numeric

/-- The comparison function `(a, b) => a.total - b.total`, as the sort takes its answer. -/
def compareTotals (a b : Funded) : Except AppError ℤ := do
  let difference ← a.total.sub b.total
  difference.toNumber

/-- An entry is put before the first one that it is not greater than. -/
def insertSorted {α ε : Type} (compare : α → α → Except ε ℤ) (a : α) : List α → Except ε (List α)
  | [] => .ok [a]
  | b :: rest => do
    let order ← compare a b
    if order ≤ 0 then return a :: b :: rest
    else return b :: (← insertSorted compare a rest)

/-- `Array.prototype.sort`, which throws what the comparison function throws. -/
def sortArray {α ε : Type} (compare : α → α → Except ε ℤ) : List α → Except ε (List α)
  | [] => .ok []
  | a :: rest => do insertSorted compare a (← sortArray compare rest)

/-- `LowestTotalStrategy.select`. -/
def lowestTotal (pool : List String) (donationTotals : Totals) : Except AppError String := do
  if pool = [] then throw (.plain "Pool is empty")
  let sorted ← sortArray compareTotals (pool.map fun id ↦ ⟨id, totalOrFalsy donationTotals id⟩)
  match sorted with
  | first :: _ => return first.id
  | [] => throw (.wrongType "Cannot read properties of undefined (reading 'id')")

/-! ## The least total -/

def received (donationTotals : Totals) (id : String) : ℤ := (donationTotals id).getD 0

/-- A member of the pool that has received least. -/
def IsLeast (pool : List String) (donationTotals : Totals) (id : String) : Prop :=
  id ∈ pool ∧ ∀ other ∈ pool, received donationTotals id ≤ received donationTotals other

variable {pool : List String} {donationTotals : Totals}

theorem value_totalOrZero (id : String) :
    (totalOrZero donationTotals id).value = received donationTotals id := by
  rw [totalOrZero, received]
  cases donationTotals id <;> rfl

/-- What the loop has after some members: the least total of them, and a member that has it. -/
def Best.Sound (donationTotals : Totals) (seen : List String) (best : Best) : Prop :=
  (seen = [] ∧ best.minTotal = none) ∨ ∃ id, best.selectedId = some id ∧
    best.minTotal = some (totalOrZero donationTotals id) ∧ IsLeast seen donationTotals id

theorem Best.Sound.consider {seen : List String} {best : Best}
    (h : best.Sound donationTotals seen) (id : String) :
    (consider donationTotals best id).Sound donationTotals (seen ++ [id]) := by
  right
  rcases h with ⟨rfl, hnone⟩ | ⟨selected, hselected, hmin, hmem, hleast⟩
  · refine ⟨id, ?_, ?_, ?_, ?_⟩
    · rw [LeastFunded.consider, hnone]
    · rw [LeastFunded.consider, hnone]
    · exact List.mem_singleton_self id
    · intro other hother
      rw [List.mem_singleton.mp hother]
  · rw [LeastFunded.consider, hmin]
    have hle : ∀ best' : String, received donationTotals best' ≤ received donationTotals selected →
        received donationTotals best' ≤ received donationTotals id →
        ∀ other ∈ seen ++ [id], received donationTotals best' ≤ received donationTotals other := by
      intro best' hold hnew other hother
      rcases List.mem_append.mp hother with hother | hother
      · exact hold.trans (hleast other hother)
      · rwa [List.mem_singleton.mp hother]
    simp only [Numeric.lt, value_totalOrZero, hselected]
    split_ifs with htake
    · refine ⟨id, rfl, rfl, List.mem_append_right _ (List.mem_singleton_self id), ?_⟩
      refine hle id ?_ le_rfl
      rw [Bool.or_eq_true, Bool.and_eq_true, decide_eq_true_iff, decide_eq_true_iff] at htake
      rcases htake with hlt | ⟨htotal, -⟩
      · exact hlt.le
      · rw [← value_totalOrZero, ← value_totalOrZero, htotal]
    · refine ⟨selected, hselected, hmin, List.mem_append_left _ hmem, ?_⟩
      refine hle selected le_rfl ?_
      rw [Bool.or_eq_true, decide_eq_true_iff, not_or, not_lt] at htake
      exact htake.1

theorem sound_foldl (rest seen : List String) {best : Best} (h : best.Sound donationTotals seen) :
    (rest.foldl (consider donationTotals) best).Sound donationTotals (seen ++ rest) := by
  induction rest generalizing seen best with
  | nil => rwa [List.append_nil]
  | cons id rest ih =>
    have hnext := ih (seen ++ [id]) (h.consider id)
    rwa [List.append_assoc, List.singleton_append] at hnext

/-- The first strategy selects a member that has received least. -/
theorem isLeast_highestNeed (hpool : pool ≠ []) :
    ∃ id, highestNeed pool donationTotals = some id ∧ IsLeast pool donationTotals id := by
  have hstart : Best.Sound donationTotals [] {} := .inl ⟨rfl, rfl⟩
  rcases sound_foldl pool [] hstart with ⟨hnil, -⟩ | ⟨id, hselected, -, hleast⟩
  · exact absurd hnil hpool
  · exact ⟨id, hselected, hleast⟩

/-! ## What the sort throws -/

theorem insertSorted_ne_nil {α ε : Type} {compare : α → α → Except ε ℤ} {a : α} {l sorted : List α}
    (h : insertSorted compare a l = .ok sorted) : sorted ≠ [] := by
  rintro rfl
  cases l with
  | nil => cases h
  | cons b rest =>
    rw [insertSorted] at h
    cases hcompare : compare a b with
    | error e => rw [hcompare] at h; cases h
    | ok order =>
      rw [hcompare] at h
      by_cases horder : order ≤ 0
      · simp [horder, bind, pure, Except.bind, Except.pure] at h
      · cases hrest : insertSorted compare a rest <;>
          simp [horder, hrest, bind, pure, Except.bind, Except.pure] at h

theorem sortArray_of_pairwise {α ε : Type} {compare : α → α → Except ε ℤ} {l : List α}
    (h : l.Pairwise fun a b ↦ ∃ order ≤ 0, compare a b = .ok order) :
    sortArray compare l = .ok l := by
  induction h with
  | nil => rfl
  | @cons a rest hhead htail ih =>
    rw [sortArray, ih]
    cases rest with
    | nil => rfl
    | cons b rest =>
      obtain ⟨order, horder, hcompare⟩ := hhead b List.mem_cons_self
      simp [insertSorted, hcompare, horder, bind, pure, Except.bind, Except.pure]

theorem compareTotals_eq_ok {a b : Funded} {order : ℤ} (h : compareTotals a b = .ok order) :
    (∃ n, a.total = .number n) ∧ ∃ n, b.total = .number n := by
  rw [compareTotals] at h
  rcases ha : a.total with n | n <;> rcases hb : b.total with m | m <;> rw [ha, hb] at h
  · exact ⟨⟨n, rfl⟩, m, rfl⟩
  all_goals cases h

theorem number_of_sortArray {l sorted : List Funded} (h : sortArray compareTotals l = .ok sorted)
    (hlength : l.length ≠ 1) : ∀ entry ∈ l, ∃ n, entry.total = .number n := by
  induction l generalizing sorted with
  | nil => exact fun _ hentry ↦ absurd hentry List.not_mem_nil
  | cons a rest ih =>
    rw [sortArray] at h
    cases hsorted : sortArray compareTotals rest with
    | error e => rw [hsorted] at h; cases h
    | ok tail =>
      rw [hsorted] at h
      replace h : insertSorted compareTotals a tail = .ok sorted := h
      cases rest with
      | nil => exact absurd rfl hlength
      | cons b rest =>
        cases tail with
        | nil =>
          rw [sortArray] at hsorted
          cases hlater : sortArray compareTotals rest with
          | error e => rw [hlater] at hsorted; cases hsorted
          | ok later => rw [hlater] at hsorted; exact absurd rfl (insertSorted_ne_nil hsorted)
        | cons c tail =>
          have hac : ∃ order, compareTotals a c = .ok order := by
            rw [insertSorted] at h
            cases hcompare : compareTotals a c with
            | error e => rw [hcompare] at h; cases h
            | ok order => exact ⟨order, rfl⟩
          obtain ⟨order, hcompare⟩ := hac
          have hnumbers := compareTotals_eq_ok hcompare
          intro entry hentry
          rcases List.mem_cons.mp hentry with rfl | hentry
          · exact hnumbers.1
          · by_cases hrest : (b :: rest).length = 1
            · -- the rest is one entry, and it is the one that was compared
              obtain rfl := List.length_eq_zero_iff.mp (Nat.succ.inj hrest)
              obtain ⟨rfl, -⟩ : b = c ∧ [] = tail := by
                simpa [sortArray, insertSorted, bind, Except.bind] using hsorted
              rw [List.mem_singleton.mp hentry]
              exact hnumbers.2
            · exact ih hsorted hrest entry hentry

theorem totalOrFalsy_eq_number_iff {id : String} :
    (∃ n, totalOrFalsy donationTotals id = .number n) ↔ received donationTotals id = 0 := by
  rw [totalOrFalsy, received]
  cases donationTotals id with
  | none => exact ⟨fun _ ↦ rfl, fun _ ↦ ⟨0, rfl⟩⟩
  | some n =>
    by_cases hzero : n = 0
    · simp [hzero]
    · simp [hzero]

theorem totalOrFalsy_of_received {id : String} (h : received donationTotals id = 0) :
    totalOrFalsy donationTotals id = .number 0 := by
  rw [received] at h
  rw [totalOrFalsy]
  cases htotal : donationTotals id with
  | none => rfl
  | some n =>
    rw [htotal, Option.getD_some] at h
    simp only [h, if_true]

/-- The second strategy throws unless there is one member, or no member has received anything. -/
theorem condition_of_lowestTotal {id : String} (h : lowestTotal pool donationTotals = .ok id) :
    pool.length = 1 ∨ ∀ id ∈ pool, received donationTotals id = 0 := by
  by_cases hone : pool.length = 1
  · exact .inl hone
  · right
    rw [lowestTotal] at h
    by_cases hpool : pool = []
    · rw [if_pos hpool] at h
      cases h
    · rw [if_neg hpool] at h
      cases hsorted : sortArray compareTotals
          (pool.map fun id ↦ ⟨id, totalOrFalsy donationTotals id⟩) with
      | error e =>
        simp only [hsorted] at h
        cases h
      | ok sorted =>
        have hnumbers := number_of_sortArray hsorted (by rwa [List.length_map])
        intro id hid
        exact totalOrFalsy_eq_number_iff.mp (hnumbers _ (List.mem_map.mpr ⟨id, hid, rfl⟩))

/-- Where nothing is compared or everything is zero, the second strategy selects the first
member. -/
theorem lowestTotal_eq_head {first : String} {rest : List String}
    (h : rest = [] ∨ ∀ id ∈ first :: rest, received donationTotals id = 0) :
    lowestTotal (first :: rest) donationTotals = .ok first := by
  have hsorted : sortArray compareTotals
      ((first :: rest).map fun id ↦ (⟨id, totalOrFalsy donationTotals id⟩ : Funded)) =
      .ok ((first :: rest).map fun id ↦ ⟨id, totalOrFalsy donationTotals id⟩) := by
    apply sortArray_of_pairwise
    rcases h with rfl | hzero
    · exact List.pairwise_singleton _ _
    · rw [List.pairwise_map]
      refine List.pairwise_of_forall_mem_list fun a ha b hb ↦ ⟨0, le_rfl, ?_⟩
      rw [compareTotals, totalOrFalsy_of_received (hzero a ha),
        totalOrFalsy_of_received (hzero b hb)]
      rfl
  rw [lowestTotal, if_neg (List.cons_ne_nil _ _), hsorted]
  rfl

/-! ## When both select a least total -/

/-- Both strategies select a member that has received least; neither throws. -/
def SelectLeast (pool : List String) (donationTotals : Totals) : Prop :=
  (∃ id, highestNeed pool donationTotals = some id ∧ IsLeast pool donationTotals id) ∧
    ∃ id, lowestTotal pool donationTotals = .ok id ∧ IsLeast pool donationTotals id

/-- Of a pool that is not empty both strategies select a least total exactly when the pool has one
member, or none of its members has received anything. -/
theorem selectLeast_iff (hpool : pool ≠ []) : SelectLeast pool donationTotals ↔
    pool.length = 1 ∨ ∀ id ∈ pool, received donationTotals id = 0 := by
  constructor
  · rintro ⟨-, id, hselected, -⟩
    exact condition_of_lowestTotal hselected
  · intro h
    refine ⟨isLeast_highestNeed hpool, ?_⟩
    obtain ⟨first, rest, rfl⟩ := List.exists_cons_of_ne_nil hpool
    have hrest : rest = [] ∨ ∀ id ∈ first :: rest, received donationTotals id = 0 := by
      refine h.imp_left fun hone ↦ ?_
      exact List.length_eq_zero_iff.mp (Nat.succ.inj hone)
    refine ⟨first, lowestTotal_eq_head hrest, List.mem_cons_self, fun other hother ↦ ?_⟩
    rcases hrest with rfl | hzero
    · rw [List.mem_singleton.mp hother]
    · rw [hzero first List.mem_cons_self, hzero other hother]

/-- Two members that have received nothing. -/
theorem selectLeast_of_nothing : SelectLeast ["a", "b"] (getTotalsForPool ["a", "b"] []) :=
  (selectLeast_iff (List.cons_ne_nil _ _)).mpr (.inr (by decide))

/-- Of two members one has received a stroop: the sort throws. -/
theorem lowestTotal_throws_of_one_stroop :
    lowestTotal ["a", "b"] (getTotalsForPool ["a", "b"] [("b", 1)]) =
        .error (.wrongType "Cannot mix BigInt and other types, use explicit conversions") ∧
      ¬ SelectLeast ["a", "b"] (getTotalsForPool ["a", "b"] [("b", 1)]) := by
  have hthrows : lowestTotal ["a", "b"] (getTotalsForPool ["a", "b"] [("b", 1)]) =
      .error (.wrongType "Cannot mix BigInt and other types, use explicit conversions") := rfl
  refine ⟨hthrows, ?_⟩
  rintro ⟨-, id, hselected, -⟩
  rw [hthrows] at hselected
  cases hselected

end StellarDonations.LeastFunded
