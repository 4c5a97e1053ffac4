import StellarDonations.Containers.Recent

/-!
# Resuming a log that has several writers

Several writers add entries to one log. Each of them numbers its own entries and keeps the last `n`
of them. A reader that has read the entries `before` and missed the entries `later` resumes at one
of the writers and names a number; it gets the entries that this writer has kept, whose number is
greater, and that it wants.

This is what it has missed exactly when what it wants of `later` comes from this writer under
greater numbers, and what it wants of `before`, as far as the writer has it, does not
(`replay_eq_iff`).
-/

namespace Resume

variable {α : Type*} (own wanted : α → Bool) (number : α → ℕ) (n : ℕ)

def kept (log : List α) : List α := (log.filter own).rtake n

def replay (log : List α) (last : ℕ) : List α :=
  ((kept own n log).filter fun a ↦ last < number a).filter wanted

variable {own wanted number n} {before later : List α} {last : ℕ} {a : α}

theorem kept_nil : kept own n [] = [] := by
  rw [kept, List.filter_nil, List.rtake_nil]

theorem kept_concat_of_own (log : List α) (h : own a = true) :
    kept own n (log ++ [a]) = (kept own n log ++ [a]).rtake n := by
  rw [kept, kept, Recent.rtake_rtake_concat, List.filter_append, List.filter_cons_of_pos h,
    List.filter_nil]

theorem kept_concat_of_not_own (log : List α) (h : own a = false) :
    kept own n (log ++ [a]) = kept own n log := by
  rw [kept, kept, List.filter_append, List.filter_cons_of_neg (by simp [h]), List.filter_nil,
    List.append_nil]

theorem kept_append (h : later.length ≤ n) : kept own n (before ++ later) =
    (before.filter own).rtake (n - (later.filter own).length) ++ later.filter own := by
  have hle : (later.filter own).length ≤ n := (List.length_filter_le _ _).trans h
  rw [kept, List.filter_append, Recent.rtake_append hle]

/-- **The reader gets what it has missed, exactly when** what it wants of that is this writer's and
has greater numbers, while nothing of what it has read is kept under a greater number. -/
theorem replay_eq_iff (h : later.length ≤ n) :
    replay own wanted number n (before ++ later) last = later.filter wanted ↔
      (∀ a ∈ later, wanted a = true → own a = true ∧ last < number a) ∧
        ∀ a ∈ (before.filter own).rtake (n - (later.filter own).length), wanted a = true →
          number a ≤ last := by
  rw [replay, kept_append h, List.filter_append, List.filter_append]
  set old := (before.filter own).rtake (n - (later.filter own).length)
  -- from the later entries the reader gets those that are wanted, own and numbered above
  have hlater : (((later.filter own).filter fun a ↦ last < number a).filter wanted) =
      (later.filter wanted).filter fun a ↦ own a && decide (last < number a) := by
    rw [List.filter_filter, List.filter_filter, List.filter_filter]
    refine List.filter_congr fun a _ ↦ ?_
    cases wanted a <;> simp [Bool.and_comm]
  rw [hlater]
  constructor
  · intro heq
    have hall : ∀ a ∈ later, wanted a = true → own a = true ∧ last < number a := by
      intro a ha hwanted
      have hmem : a ∈ later.filter wanted := List.mem_filter.mpr ⟨ha, hwanted⟩
      rw [← heq] at hmem
      rcases List.mem_append.mp hmem with hmem | hmem
      · obtain ⟨hold, -⟩ := List.mem_filter.mp hmem
        obtain ⟨hold, hlast⟩ := List.mem_filter.mp hold
        have hsub : old ⊆ before.filter own := (List.drop_sublist _ _).subset
        exact ⟨(List.mem_filter.mp (hsub hold)).2, of_decide_eq_true hlast⟩
      · have hboth := (List.mem_filter.mp hmem).2
        rw [Bool.and_eq_true, decide_eq_true_iff] at hboth
        exact hboth
    refine ⟨hall, fun a ha hwanted ↦ ?_⟩
    have hself : ((later.filter wanted).filter fun a ↦ own a && decide (last < number a)) =
        later.filter wanted := by
      refine List.filter_eq_self.mpr fun a ha ↦ ?_
      obtain ⟨ha, hwanted⟩ := List.mem_filter.mp ha
      rw [Bool.and_eq_true, decide_eq_true_iff]
      exact hall a ha hwanted
    rw [hself] at heq
    have hnil := List.append_left_eq_self.mp heq
    by_contra hlt
    have hmem : a ∈ (old.filter fun a ↦ last < number a).filter wanted :=
      List.mem_filter.mpr ⟨List.mem_filter.mpr ⟨ha, decide_eq_true (Nat.lt_of_not_le hlt)⟩, hwanted⟩
    rw [hnil] at hmem
    cases hmem
  · rintro ⟨hall, hold⟩
    have hnil : (old.filter fun a ↦ last < number a).filter wanted = [] := by
      refine List.filter_eq_nil_iff.mpr fun a ha hwanted ↦ ?_
      obtain ⟨ha, hlast⟩ := List.mem_filter.mp ha
      exact absurd (of_decide_eq_true hlast) (Nat.not_lt_of_le (hold a ha hwanted))
    rw [hnil, List.nil_append]
    refine List.filter_eq_self.mpr fun a ha ↦ ?_
    obtain ⟨ha, hwanted⟩ := List.mem_filter.mp ha
    rw [Bool.and_eq_true, decide_eq_true_iff]
    exact hall a ha hwanted

end Resume
