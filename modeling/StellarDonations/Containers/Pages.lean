import Mathlib.Data.List.Nodup
import Mathlib.Order.Lattice

/-!
# Reading a list page by page

A list of entries is read in pages. The position after a page is the key of its last entry, and the
next page starts at the first entry whose key is smaller. Nothing says that the list is ordered by
the keys: `reads_perm_iff_cutsAgree` is the exact condition under which following the positions
reads every entry once, and a list whose keys decrease meets it (`cutsAgree_of_descending`).

When the keys decrease, a position cuts the list independently of what else it holds. The second
half of the module is about lists that change between the pages: what is read has decreasing keys
throughout, and whatever is there all the time is read (`Traversal`).
-/

namespace Pages

structure Page (α κ : Type*) where
  data : List α
  next : Option κ
  hasMore : Bool

/-- Following the positions from `c`, until a page says that there is no more, reads `l`. -/
inductive Reads {α κ : Type*} (pageOf : Option κ → Page α κ) : Option κ → List α → Prop
  | last {c : Option κ} (hmore : (pageOf c).hasMore = false) : Reads pageOf c (pageOf c).data
  | next {c : Option κ} {k : κ} {rest : List α} (hmore : (pageOf c).hasMore = true)
      (hnext : (pageOf c).next = some k) (hrest : Reads pageOf (some k) rest) :
      Reads pageOf c ((pageOf c).data ++ rest)

theorem Reads.unique {α κ : Type*} {pageOf : Option κ → Page α κ} {c : Option κ} {l l' : List α}
    (h : Reads pageOf c l) (h' : Reads pageOf c l') : l = l' := by
  induction h generalizing l' with
  | last hmore =>
    cases h' with
    | last => rfl
    | next hmore' => exact absurd (hmore.symm.trans hmore') Bool.false_ne_true
  | next hmore hnext _ ih =>
    cases h' with
    | last hmore' => exact absurd (hmore'.symm.trans hmore) Bool.false_ne_true
    | next _ hnext' hrest' =>
      cases hnext.symm.trans hnext'
      rw [ih hrest']

theorem reads_map_iff {α κ γ : Type*} (pageOf : Option κ → Page α κ)
    (pageOf' : Option γ → Page α γ) (f : κ → γ) (h : ∀ c, pageOf' (c.map f) =
      ⟨(pageOf c).data, (pageOf c).next.map f, (pageOf c).hasMore⟩) {c : Option κ} {l : List α} :
    Reads pageOf' (c.map f) l ↔ Reads pageOf c l := by
  constructor
  · intro hreads
    generalize hc : c.map f = c' at hreads
    induction hreads generalizing c with
    | last hmore =>
      subst hc
      rw [h] at hmore ⊢
      exact .last hmore
    | next hmore hnext hrest ih =>
      subst hc
      rw [h] at hmore hnext ⊢
      obtain ⟨k, hk, rfl⟩ := Option.map_eq_some_iff.mp hnext
      exact .next hmore hk (ih rfl)
  · intro hreads
    induction hreads with
    | @last c hmore =>
      have hlast : Reads pageOf' (c.map f) (pageOf' (c.map f)).data := by
        refine .last ?_
        rw [h]
        exact hmore
      rwa [h] at hlast
    | @next c k rest hmore hnext hrest ih =>
      have hread : Reads pageOf' (c.map f) ((pageOf' (c.map f)).data ++ rest) := by
        refine .next (by rw [h]; exact hmore) (k := f k) ?_ ih
        rw [h, hnext]
        rfl
      rwa [h] at hread

variable {α κ : Type*} [LinearOrder κ] (key : α → κ)

/-- The index at which the page after a position starts. -/
def start (s : List α) : Option κ → Option ℕ
  | none => some 0
  | some c => s.findIdx? fun a ↦ key a < c

def page (limit : ℕ) (s : List α) (c : Option κ) : Page α κ :=
  match start key s c with
  | none => ⟨[], none, false⟩
  | some i =>
    let data := (s.drop i).take limit
    let hasMore : Bool := i + limit < s.length
    ⟨data, if hasMore then data.getLast?.map key else none, hasMore⟩

/-- At every page boundary the next entry has a smaller key than the last one of the page, and none
of the entries before the boundary has. -/
def CutsAgree (limit : ℕ) (s : List α) : Prop :=
  ∀ p, 0 < p → limit ∣ p → ∀ _ : p < s.length,
    key s[p] < key s[p - 1] ∧ ∀ a ∈ s.take p, key s[p - 1] ≤ key a

variable {key} {limit : ℕ} {s : List α} {c : Option κ}

theorem page_of_start_eq_none (h : start key s c = none) :
    page key limit s c = ⟨[], none, false⟩ := by
  rw [page, h]

theorem page_of_start_eq_some (limit : ℕ) {i : ℕ} (h : start key s c = some i) :
    page key limit s c = ⟨(s.drop i).take limit,
      if i + limit < s.length then ((s.drop i).take limit).getLast?.map key else none,
      i + limit < s.length⟩ := by
  rw [page, h]
  simp

theorem getLast?_take_drop {p : ℕ} (hlimit : 0 < limit) (h : p + limit < s.length) :
    ((s.drop p).take limit).getLast? = some s[p + limit - 1] := by
  rw [List.getLast?_eq_getElem?, List.length_take, List.length_drop, Nat.min_eq_left (by omega),
    List.getElem?_take_of_lt (by omega), List.getElem?_drop, List.getElem?_eq_getElem (by omega)]
  congr 2
  omega

/-! ## A list that stays -/

/-- The position after the first `p` entries. -/
def after (key : α → κ) (s : List α) (p : ℕ) : Option κ :=
  if p = 0 then none else s[p - 1]?.map key

theorem start_of_cut {p : ℕ} (hp : p < s.length)
    (hcut : key s[p] < key s[p - 1] ∧ ∀ a ∈ s.take p, key s[p - 1] ≤ key a) :
    start key s (some (key s[p - 1])) = some p := by
  rw [start, List.findIdx?_eq_some_iff_getElem]
  refine ⟨hp, decide_eq_true hcut.1, fun j hj ↦ ?_⟩
  have hmem : s[j] ∈ s.take p := List.mem_take_iff_getElem.mpr ⟨j, by omega, rfl⟩
  simpa using hcut.2 _ hmem

theorem start_after (h : CutsAgree key limit s) {p : ℕ} (hdvd : limit ∣ p) (hp : p < s.length) :
    start key s (after key s p) = some p := by
  rw [after]
  split_ifs with hzero
  · subst hzero
    rfl
  · rw [List.getElem?_eq_getElem (by omega), Option.map_some]
    exact start_of_cut hp (h p (Nat.pos_of_ne_zero hzero) hdvd hp)

theorem exists_start_le {k : κ} {j : ℕ} (hj : j < s.length) (hlt : key s[j] < k) :
    ∃ i ≤ j, start key s (some k) = some i := by
  cases hstart : start key s (some k) with
  | none =>
    rw [start, List.findIdx?_eq_none_iff] at hstart
    exact absurd hlt (by simpa using hstart _ (List.getElem_mem hj))
  | some i =>
    refine ⟨i, ?_, rfl⟩
    rw [start, List.findIdx?_eq_some_iff_getElem] at hstart
    obtain ⟨_, _, hnot⟩ := hstart
    by_contra hij
    exact hnot j (by omega) (decide_eq_true hlt)

/-- A list whose cuts agree is read from every page boundary on. -/
theorem reads_of_cutsAgree (hlimit : 0 < limit) (h : CutsAgree key limit s) :
    Reads (page key limit s) none s := by
  have hreads : ∀ n p, s.length - p = n → limit ∣ p → p < s.length →
      Reads (page key limit s) (after key s p) (s.drop p) := by
    intro n
    induction n using Nat.strongRecOn with
    | _ n ih =>
      intro p hn hdvd hp
      have hpage := page_of_start_eq_some limit (start_after h hdvd hp)
      by_cases hmore : p + limit < s.length
      · -- the page is full, and the next one starts at the next boundary
        have hnext : (page key limit s (after key s p)).next = some (key s[p + limit - 1]) := by
          rw [hpage]
          simp [hmore, getLast?_take_drop hlimit hmore]
        have hrest := ih (s.length - (p + limit)) (by omega) (p + limit) rfl
          (Nat.dvd_add hdvd (Nat.dvd_refl limit)) hmore
        have hafter : after key s (p + limit) = some (key s[p + limit - 1]) := by
          rw [after, if_neg (by omega), List.getElem?_eq_getElem (by omega)]
          rfl
        rw [hafter] at hrest
        have hread := Reads.next (by rw [hpage]; simpa using hmore) hnext hrest
        rw [hpage] at hread
        rw [← List.take_append_drop limit (s.drop p), List.drop_drop]
        exact hread
      · have hread : Reads (page key limit s) (after key s p)
            (page key limit s (after key s p)).data := by
          refine .last ?_
          rw [hpage]
          simpa using hmore
        rw [hpage] at hread
        rwa [List.take_of_length_le (by rw [List.length_drop]; omega)] at hread
  by_cases hs : 0 < s.length
  · exact hreads _ 0 rfl (Nat.dvd_zero limit) hs
  · have hnil : s = [] := List.eq_nil_of_length_eq_zero (by omega)
    subst hnil
    have hpage : page key limit ([] : List α) none = ⟨[], none, false⟩ := by
      simp [page, start]
    have hread : Reads (page key limit []) none (page key limit ([] : List α) none).data :=
      .last (by rw [hpage])
    rwa [hpage] at hread

section Necessary

variable (hs : s.Nodup)
include hs

theorem mem_page_iff (limit : ℕ) {i : ℕ} (hstart : start key s c = some i) {p : ℕ}
    (hp : p < s.length) :
    s[p] ∈ (page key limit s c).data ↔ i ≤ p ∧ p < i + limit := by
  rw [page_of_start_eq_some limit hstart]
  simp only [List.mem_take_iff_getElem, List.getElem_drop, List.length_drop]
  constructor
  · rintro ⟨j, hj, heq⟩
    have hindex : i + j = p := (List.Nodup.getElem_inj_iff hs).mp heq
    omega
  · rintro ⟨hle, hlt⟩
    refine ⟨p - i, by omega, ?_⟩
    congr 1
    omega

theorem mem_of_mem_reads {l : List α} (hreads : Reads (page key limit s) c l) {p : ℕ}
    (hp : p + 1 < s.length) (hle : key s[p] ≤ key s[p + 1]) (hmem : s[p + 1] ∈ l) : s[p] ∈ l := by
  have hpage : ∀ c, s[p + 1] ∈ (page key limit s c).data → s[p] ∈ (page key limit s c).data := by
    intro c hmem
    cases hstart : start key s c with
    | none =>
      rw [page_of_start_eq_none hstart] at hmem
      cases hmem
    | some i =>
      obtain ⟨hi, hlt⟩ := (mem_page_iff hs limit hstart hp).mp hmem
      refine (mem_page_iff hs limit hstart (by omega)).mpr ⟨?_, by omega⟩
      -- a page cannot start at the second of the two
      by_contra hgt
      obtain rfl : i = p + 1 := by omega
      cases c with
      | none => cases hstart
      | some k =>
        rw [start, List.findIdx?_eq_some_iff_getElem] at hstart
        obtain ⟨_, hsmaller, hnot⟩ := hstart
        refine hnot p (Nat.lt_succ_self p) (decide_eq_true ?_)
        exact lt_of_le_of_lt hle (of_decide_eq_true hsmaller)
  induction hreads with
  | last => exact hpage _ hmem
  | next _ _ _ ih =>
    rcases List.mem_append.mp hmem with hmem' | hmem'
    · exact List.mem_append_left _ (hpage _ hmem')
    · exact List.mem_append_right _ (ih hmem')

theorem getElem_mem_reads (hlimit : 0 < limit) {l : List α} (hreads : Reads (page key limit s) c l)
    {i : ℕ} (hstart : start key s c = some i) (hi : i < s.length) : s[i] ∈ l := by
  have hmem := (mem_page_iff hs limit hstart hi).mpr ⟨Nat.le_refl i, by omega⟩
  cases hreads with
  | last => exact hmem
  | next => exact List.mem_append_left _ hmem

/-- When the entries up to a boundary have been read once, the cut at the boundary is right. -/
theorem cut_of_reads (hlimit : 0 < limit) {p : ℕ} (hpos : 0 < p) (hp : p < s.length) {l : List α}
    (hreads : Reads (page key limit s) (some (key s[p - 1])) l) (hperm : (s.take p ++ l).Perm s) :
    key s[p] < key s[p - 1] ∧ ∀ a ∈ s.take p, key s[p - 1] ≤ key a := by
  have hdisjoint : ∀ a ∈ s.take p, a ∉ l :=
    (List.nodup_append.mp (hperm.nodup_iff.mpr hs)).2.2 |> fun h a ha hl ↦ h a ha a hl rfl
  have hmem : ∀ (i : ℕ) (hi : i < s.length), i < p → s[i] ∈ s.take p :=
    fun i hi hip ↦ List.mem_take_iff_getElem.mpr ⟨i, by omega, rfl⟩
  constructor
  · by_contra hge
    have hunread : s[p] ∈ l := by
      have hall : s[p] ∈ s.take p ++ l := hperm.mem_iff.mpr (List.getElem_mem hp)
      refine (List.mem_append.mp hall).resolve_left fun htake ↦ ?_
      obtain ⟨j, hj, heq⟩ := List.mem_take_iff_getElem.mp htake
      have hindex : j = p := (List.Nodup.getElem_inj_iff hs).mp heq
      omega
    have hsucc : p - 1 + 1 = p := by omega
    have hprev : s[p - 1] ∈ l := by
      refine mem_of_mem_reads hs hreads (by omega) ?_ ?_
      · simpa only [hsucc] using not_lt.mp hge
      · simpa only [hsucc] using hunread
    exact hdisjoint _ (hmem (p - 1) (by omega) (by omega)) hprev
  · intro a ha
    by_contra hlt
    -- the next page starts at or before `a`, which has been read
    obtain ⟨j, hj, rfl⟩ := List.mem_take_iff_getElem.mp ha
    obtain ⟨i, hij, hstart⟩ := exists_start_le (by omega) (not_le.mp hlt)
    have hread := getElem_mem_reads hs hlimit hreads hstart (by omega)
    exact hdisjoint _ (hmem i (by omega) (by omega)) hread

theorem cutsAgree_of_reads (hlimit : 0 < limit) {l : List α}
    (hreads : Reads (page key limit s) none l) (hperm : l.Perm s) : CutsAgree key limit s := by
  have hcuts : ∀ c l, Reads (page key limit s) c l → ∀ p, limit ∣ p → start key s c = some p →
      (s.take p ++ l).Perm s → ∀ q, p < q → limit ∣ q → ∀ _ : q < s.length,
        key s[q] < key s[q - 1] ∧ ∀ a ∈ s.take q, key s[q - 1] ≤ key a := by
    intro c l hreads
    induction hreads with
    | @last c hmore =>
      intro p hdvd hstart _ q hpq hq hlength
      have hle : limit ≤ q - p := Nat.le_of_dvd (by omega) (Nat.dvd_sub hq hdvd)
      rw [page_of_start_eq_some limit hstart] at hmore
      have := of_decide_eq_false hmore
      omega
    | @next c k rest hmore hnext hrest ih =>
      intro p hdvd hstart hperm q hpq hq hlength
      rw [page_of_start_eq_some limit hstart] at hmore hnext hperm
      replace hmore := of_decide_eq_true hmore
      have hk : key s[p + limit - 1] = k := by
        simpa [hmore, getLast?_take_drop hlimit hmore] using hnext
      subst hk
      have hperm' : (s.take (p + limit) ++ rest).Perm s := by
        rwa [List.take_add, List.append_assoc]
      have hcut := cut_of_reads hs hlimit (by omega) hmore hrest hperm'
      have hle : limit ≤ q - p := Nat.le_of_dvd (by omega) (Nat.dvd_sub hq hdvd)
      by_cases heq : q = p + limit
      · subst heq
        exact hcut
      · have hdvd' : limit ∣ p + limit := Nat.dvd_add hdvd (Nat.dvd_refl limit)
        exact ih (p + limit) hdvd' (start_of_cut hmore hcut) hperm' q (by omega) hq hlength
  intro q hpos hq hlength
  exact hcuts none l hreads 0 (Nat.dvd_zero limit) rfl (by simpa using hperm) q hpos hq hlength

/-- **The exact condition.** Following the positions reads every entry once exactly when the cuts
agree, and it reads them in the order of the list then. -/
theorem reads_perm_iff_cutsAgree (hlimit : 0 < limit) :
    (∃ l, Reads (page key limit s) none l ∧ l.Perm s) ↔ CutsAgree key limit s := by
  constructor
  · rintro ⟨l, hreads, hperm⟩
    exact cutsAgree_of_reads hs hlimit hreads hperm
  · intro h
    exact ⟨s, reads_of_cutsAgree hlimit h, List.Perm.refl s⟩

end Necessary

theorem cutsAgree_of_descending (h : s.Pairwise fun a b ↦ key b < key a) :
    CutsAgree key limit s := by
  intro p hpos _ hp
  rw [List.pairwise_iff_getElem] at h
  refine ⟨h (p - 1) p (by omega) hp (by omega), fun a ha ↦ ?_⟩
  obtain ⟨j, hj, rfl⟩ := List.mem_take_iff_getElem.mp ha
  by_cases heq : j = p - 1
  · subst heq
    exact le_refl _
  · exact le_of_lt (h j (p - 1) (by omega) (by omega) (by omega))

/-! ## A list that changes

Each page is cut out of the list as it is at that time; only the position is carried on. -/

/-- The entry is still to come at the position. -/
def Ahead (key : α → κ) (c : Option κ) (a : α) : Prop := ∀ k ∈ c, key a < k

section Descending

variable (hs : s.Pairwise fun a b ↦ key b < key a)
include hs

theorem nodup_of_descending : s.Nodup := hs.imp fun h heq ↦ absurd (heq ▸ h) (lt_irrefl _)

theorem ahead_iff_start_le {i : ℕ} (hstart : start key s c = some i) {j : ℕ} (hj : j < s.length) :
    Ahead key c s[j] ↔ i ≤ j := by
  cases c with
  | none =>
    cases hstart
    exact iff_of_true (by rintro k ⟨⟩) (Nat.zero_le j)
  | some k =>
    rw [start, List.findIdx?_eq_some_iff_getElem] at hstart
    obtain ⟨hi, hlt, hnot⟩ := hstart
    have hk : Ahead key (some k) s[j] ↔ key s[j] < k := by
      simp [Ahead]
    rw [hk]
    constructor
    · intro hjk
      by_contra hij
      exact hnot j (by omega) (decide_eq_true hjk)
    · intro hij
      rcases Nat.lt_or_eq_of_le hij with hlt' | rfl
      · exact lt_trans (List.pairwise_iff_getElem.mp hs i j hi hj hlt') (of_decide_eq_true hlt)
      · exact of_decide_eq_true hlt

theorem mem_of_mem_page {a : α} (ha : a ∈ (page key limit s c).data) : a ∈ s ∧ Ahead key c a := by
  cases hstart : start key s c with
  | none =>
    rw [page_of_start_eq_none hstart] at ha
    cases ha
  | some i =>
    have hmem : a ∈ s := by
      rw [page_of_start_eq_some limit hstart] at ha
      exact List.mem_of_mem_drop (List.mem_of_mem_take ha)
    obtain ⟨j, hj, rfl⟩ := List.getElem_of_mem hmem
    have hle := ((mem_page_iff (nodup_of_descending hs) limit hstart hj).mp ha).1
    exact ⟨hmem, (ahead_iff_start_le hs hstart hj).mpr hle⟩

theorem page_descending : (page key limit s c).data.Pairwise fun a b ↦ key b < key a := by
  cases hstart : start key s c with
  | none =>
    rw [page_of_start_eq_none hstart]
    exact List.Pairwise.nil
  | some i =>
    rw [page_of_start_eq_some limit hstart]
    exact hs.sublist ((List.take_sublist _ _).trans (List.drop_sublist _ _))

/-- When there is more, the next position is that of the last entry, and what was to come is in the
page or still to come. -/
theorem page_of_hasMore (hlimit : 0 < limit) (hmore : (page key limit s c).hasMore = true) :
    ∃ b ∈ (page key limit s c).data, (page key limit s c).next = some (key b) ∧
      (∀ a ∈ (page key limit s c).data, key b ≤ key a) ∧
      ∀ a ∈ s, Ahead key c a → a ∈ (page key limit s c).data ∨ key a < key b := by
  cases hstart : start key s c with
  | none =>
    rw [page_of_start_eq_none hstart] at hmore
    cases hmore
  | some i =>
    have hpage := page_of_start_eq_some limit hstart
    have hlength : i + limit < s.length := by
      rw [hpage] at hmore
      exact of_decide_eq_true hmore
    have horder : ∀ j j' : ℕ, ∀ (hj : j < s.length) (hj' : j' < s.length), j < j' →
        key s[j'] < key s[j] := fun j j' hj hj' ↦ List.pairwise_iff_getElem.mp hs j j' hj hj'
    refine ⟨s[i + limit - 1], ?_, ?_, fun a ha ↦ ?_, fun a ha hahead ↦ ?_⟩
    · exact (mem_page_iff (nodup_of_descending hs) limit hstart _).mpr ⟨by omega, by omega⟩
    · rw [hpage]
      simp [hlength, getLast?_take_drop hlimit hlength]
    · obtain ⟨j, hj, rfl⟩ := List.getElem_of_mem (mem_of_mem_page hs ha).1
      have hlt := ((mem_page_iff (nodup_of_descending hs) limit hstart hj).mp ha).2
      by_cases heq : j = i + limit - 1
      · subst heq
        exact le_refl _
      · exact le_of_lt (horder j (i + limit - 1) hj (by omega) (by omega))
    · obtain ⟨j, hj, rfl⟩ := List.getElem_of_mem ha
      have hle := (ahead_iff_start_le hs hstart hj).mp hahead
      by_cases hlt : j < i + limit
      · exact .inl ((mem_page_iff (nodup_of_descending hs) limit hstart hj).mpr ⟨hle, hlt⟩)
      · exact .inr (horder (i + limit - 1) j (by omega) hj (by omega))

omit hs in
theorem hasMore_of_next {k : κ} (h : (page key limit s c).next = some k) :
    (page key limit s c).hasMore = true := by
  cases hstart : start key s c with
  | none =>
    rw [page_of_start_eq_none hstart] at h
    cases h
  | some i =>
    rw [page_of_start_eq_some limit hstart] at h ⊢
    by_contra hmore
    rw [if_neg (by simpa using hmore)] at h
    cases h

theorem mem_page_of_not_hasMore (hmore : (page key limit s c).hasMore = false) {a : α} (ha : a ∈ s)
    (hahead : Ahead key c a) : a ∈ (page key limit s c).data := by
  obtain ⟨j, hj, rfl⟩ := List.getElem_of_mem ha
  cases hstart : start key s c with
  | none =>
    cases c with
    | none => cases hstart
    | some k =>
      rw [start, List.findIdx?_eq_none_iff] at hstart
      have hnot := hstart _ (List.getElem_mem hj)
      exact absurd (hahead k rfl) (by simpa using hnot)
  | some i =>
    have hle := (ahead_iff_start_le hs hstart hj).mp hahead
    rw [page_of_start_eq_some limit hstart] at hmore
    have hlength := of_decide_eq_false hmore
    exact (mem_page_iff (nodup_of_descending hs) limit hstart hj).mpr ⟨hle, by omega⟩

end Descending

/-- What has been read, the position, and whether the last page said that there is no more. -/
structure Traversal (α κ : Type*) where
  returned : List α
  position : Option κ
  finished : Bool

namespace Traversal

def initial : Traversal α κ := ⟨[], none, false⟩

/-- One more page is read, unless the last one was. -/
def read (t : Traversal α κ) (pageOf : Option κ → Page α κ) : Traversal α κ :=
  if t.finished then t
  else ⟨t.returned ++ (pageOf t.position).data, (pageOf t.position).next,
    !(pageOf t.position).hasMore⟩

/-- The traversal with its position written down in another form. -/
def map {γ : Type*} (f : κ → γ) (t : Traversal α κ) : Traversal α γ :=
  ⟨t.returned, t.position.map f, t.finished⟩

omit [LinearOrder κ] in
theorem read_map {γ : Type*} (pageOf : Option κ → Page α κ) (pageOf' : Option γ → Page α γ)
    (f : κ → γ) (h : ∀ c, pageOf' (c.map f) =
      ⟨(pageOf c).data, (pageOf c).next.map f, (pageOf c).hasMore⟩) (t : Traversal α κ) :
    (t.map f).read pageOf' = (t.read pageOf).map f := by
  by_cases hfinished : t.finished = true
  · simp [read, map, hfinished]
  · simp [read, map, hfinished, h]

/-- What has been read has decreasing keys, down to the position. -/
structure Sound (key : α → κ) (t : Traversal α κ) : Prop where
  descending : t.returned.Pairwise fun a b ↦ key b < key a
  passed : ∀ k ∈ t.position, ∀ a ∈ t.returned, k ≤ key a
  started : t.position = none → t.finished = false → t.returned = []

theorem sound_initial : Sound key (initial : Traversal α κ) :=
  ⟨List.Pairwise.nil, by rintro k ⟨⟩, fun _ _ ↦ rfl⟩

/-- The entry has been read, or is still to come. -/
def Covers (key : α → κ) (t : Traversal α κ) (a : α) : Prop :=
  a ∈ t.returned ∨ t.finished = false ∧ Ahead key t.position a

/-- Reading one more page of a list with decreasing keys, whatever it holds by now. -/
theorem Sound.read {t : Traversal α κ} (h : Sound key t) (hlimit : 0 < limit)
    (hs : s.Pairwise fun a b ↦ key b < key a) : Sound key (t.read (page key limit s)) := by
  rw [Traversal.read]
  by_cases hfinished : t.finished = true
  · rwa [if_pos hfinished]
  rw [if_neg hfinished]
  replace hfinished : t.finished = false := Bool.eq_false_iff.mpr hfinished
  -- everything in the page comes after everything read before
  have hafter : ∀ a ∈ t.returned, ∀ b ∈ (page key limit s t.position).data, key b < key a := by
    intro a ha b hb
    cases hposition : t.position with
    | none =>
      rw [h.started hposition hfinished] at ha
      cases ha
    | some k =>
      exact lt_of_lt_of_le ((mem_of_mem_page hs hb).2 k hposition) (h.passed k hposition a ha)
  refine ⟨List.pairwise_append.mpr ⟨h.descending, page_descending hs, hafter⟩, ?_, ?_⟩
  · intro k hk a ha
    obtain ⟨b, hb, hnext, hlast, -⟩ := page_of_hasMore hs hlimit (hasMore_of_next hk)
    obtain rfl : key b = k := Option.some.inj (hnext.symm.trans hk)
    rcases List.mem_append.mp ha with hold | hnew
    · exact le_of_lt (hafter a hold b hb)
    · exact hlast a hnew
  · intro hnone hmore
    replace hmore : (page key limit s t.position).hasMore = true := by simpa using hmore
    obtain ⟨b, -, hnext, -⟩ := page_of_hasMore hs hlimit hmore
    rw [show (page key limit s t.position).next = none from hnone] at hnext
    cases hnext

theorem Covers.read {t : Traversal α κ} {a : α} (h : Covers key t a) (hlimit : 0 < limit)
    (hs : s.Pairwise fun a b ↦ key b < key a) (ha : a ∈ s) :
    Covers key (t.read (page key limit s)) a := by
  rw [Traversal.read]
  rcases h with hread | ⟨hfinished, hahead⟩
  · split_ifs
    · exact .inl hread
    · exact .inl (List.mem_append_left _ hread)
  · rw [if_neg (by simp [hfinished])]
    by_cases hmore : (page key limit s t.position).hasMore = true
    · obtain ⟨b, -, hnext, -, hcovered⟩ := page_of_hasMore hs hlimit hmore
      rcases hcovered a ha hahead with hmem | hlt
      · exact .inl (List.mem_append_right _ hmem)
      · refine .inr ⟨by simpa using hmore, fun k hk ↦ ?_⟩
        obtain rfl : key b = k := Option.some.inj (hnext.symm.trans hk)
        exact hlt
    · refine .inl (List.mem_append_right _ ?_)
      exact mem_page_of_not_hasMore hs (Bool.eq_false_iff.mpr hmore) ha hahead

end Traversal

end Pages
