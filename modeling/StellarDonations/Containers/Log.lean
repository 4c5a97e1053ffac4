import Mathlib.Data.List.Basic

/-!
# The latest entry of a log

A list of entries, each filed under a key, read as a log: what it says about a key is its latest
entry for that key. A map that is filled from the list holds exactly this, and a table whose rows
are replaced in place holds it too (`latest_put`).
-/

namespace Log

variable {α κ : Type*} [DecidableEq κ] (key : α → κ)

def latest (l : List α) (k : κ) : Option α := (l.filter (key · = k)).getLast?

/-- The entry takes the place of the entries for its key; when there are none, it is appended. -/
def put (l : List α) (a : α) : List α :=
  if l.any (key · = key a) then l.map fun b ↦ if key b = key a then a else b else l ++ [a]

variable {key} {l l' : List α} {a : α} {k : κ}

@[simp] theorem latest_nil : latest key [] k = none := rfl

@[simp] theorem latest_append : latest key (l ++ l') k = (latest key l' k).or (latest key l k) := by
  rw [latest, List.filter_append, List.getLast?_append]
  rfl

theorem latest_singleton : latest key [a] k = if key a = k then some a else none := by
  rw [latest]
  split_ifs with h <;> simp [h]

theorem latest_cons :
    latest key (a :: l) k = (latest key l k).or (if key a = k then some a else none) := by
  rw [← List.singleton_append, latest_append, latest_singleton]

theorem latest_concat :
    latest key (l ++ [a]) k = if key a = k then some a else latest key l k := by
  rw [latest_append, latest_singleton]
  split_ifs <;> rfl

theorem latest_eq_none_iff : latest key l k = none ↔ ∀ b ∈ l, key b ≠ k := by
  simp [latest]

theorem mem_of_latest (h : latest key l k = some a) : a ∈ l ∧ key a = k := by
  obtain ⟨hmem, hkey⟩ := List.mem_filter.mp (List.mem_of_getLast? h)
  exact ⟨hmem, of_decide_eq_true hkey⟩

theorem latest_map {f : α → α} (hf : ∀ b, key (f b) = key b) :
    latest key (l.map f) k = (latest key l k).map f := by
  induction l with
  | nil => rfl
  | cons b l ih =>
    rw [List.map_cons, latest_cons, latest_cons, ih, hf b]
    cases latest key l k with
    | some _ => rfl
    | none =>
      rw [Option.map_none, Option.none_or, Option.none_or]
      split_ifs <;> rfl

theorem latest_eq_some_iff (h : ∀ b ∈ l, ∀ c ∈ l, key b = key c → b = c) :
    latest key l k = some a ↔ a ∈ l ∧ key a = k := by
  refine ⟨mem_of_latest, ?_⟩
  rintro ⟨hmem, hkey⟩
  cases hlatest : latest key l k with
  | none => exact absurd hkey (latest_eq_none_iff.mp hlatest a hmem)
  | some b =>
    obtain ⟨hb, hbkey⟩ := mem_of_latest hlatest
    rw [h b hb a hmem (hbkey.trans hkey.symm)]

theorem foldl_update_apply {β : Type*} (value : α → β) (m : κ → Option β) :
    l.foldl (fun m b ↦ Function.update m (key b) (some (value b))) m k =
      ((latest key l k).map value).or (m k) := by
  induction l generalizing m with
  | nil => rfl
  | cons b l ih =>
    rw [List.foldl_cons, ih, latest_cons]
    cases latest key l k with
    | some _ => rfl
    | none =>
      rw [Option.map_none, Option.none_or, Option.none_or]
      by_cases hkey : key b = k
      · rw [if_pos hkey, hkey, Function.update_self]
        rfl
      · rw [if_neg hkey, Function.update_of_ne (Ne.symm hkey)]
        rfl

theorem latest_move {l₁ l₂ : List α} (h : ∀ b ∈ l₁, key b ≠ key a) :
    latest key (l ++ [a] ++ (l₁ ++ l₂)) k = latest key (l ++ (l₁ ++ a :: l₂)) k := by
  simp only [latest_append, latest_cons, latest_nil, Option.none_or]
  split_ifs with hk
  · subst hk
    rw [latest_eq_none_iff.mpr h, Option.or_none, Option.or_none, Option.or_assoc]
  · rw [Option.none_or, Option.or_none, Option.or_assoc]

/-- Taking out the first entry for a key does not bring up another latest one. -/
theorem latest_of_latest_erase {l₁ l₂ : List α} {b : α} (h : ∀ b ∈ l₁, key b ≠ key a)
    (hb : latest key (l₁ ++ l₂) k = some b) : latest key (l₁ ++ a :: l₂) k = some b := by
  rw [latest_append] at hb
  rw [latest_append, latest_cons, Option.or_assoc]
  split_ifs with hk
  · subst hk
    rw [latest_eq_none_iff.mpr h, Option.or_none] at hb
    rw [hb]
    rfl
  · exact hb

/-- **Replacing rows is appending to the log.** -/
theorem latest_put : latest key (put key l a) k = latest key (l ++ [a]) k := by
  rw [put]
  split_ifs with hany
  · -- the rows for the key have become `a`, and there is one
    have hmap : ∀ l : List α, latest key (l.map fun b ↦ if key b = key a then a else b) k =
        if key a = k then (latest key l k).map fun _ ↦ a else latest key l k := by
      intro l
      induction l with
      | nil => simp
      | cons b l ih =>
        rw [List.map_cons, latest_cons, latest_cons, ih]
        by_cases hk : key a = k
        · subst hk
          by_cases hb : key b = key a
          · cases h : latest key l (key a) <;> simp [hb]
          · simp [hb]
        · by_cases hb : key b = key a
          · simp [hk, hb]
          · simp [hk, hb]
    rw [hmap, latest_concat]
    split_ifs with hk
    · subst hk
      cases h : latest key l (key a) with
      | some b => rfl
      | none =>
        obtain ⟨b, hb, hkey⟩ := List.any_eq_true.mp hany
        exact absurd (of_decide_eq_true hkey) (latest_eq_none_iff.mp h b hb)
    · rfl
  · rfl

end Log
