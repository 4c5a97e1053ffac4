import Mathlib.Data.List.Infix
import Mathlib.Data.List.Forall2

/-!
# Patterns of fixed length

A pattern that has a class of letters for each position, such as `S[A-Z2-7]{55}`, and the
replacement of its matches, from left to right and without overlap. A letter of no class is a
barrier: no match goes over it. So where the text that is put in starts and ends with a barrier and
has no match itself, none is left after the replacement (`not_occurs_replaceAll`).
-/

namespace FixedPattern

variable {α : Type*}

abbrev Pattern (α : Type*) := List (α → Bool)

def Matches : Pattern α → List α → Prop := List.Forall₂ fun c a ↦ c a = true

def Occurs (p : Pattern α) (s : List α) : Prop := ∃ m, m <:+: s ∧ Matches p m

/-- Whether the text starts with a match. -/
def startsWith : Pattern α → List α → Bool
  | [], _ => true
  | _ :: _, [] => false
  | c :: p, a :: s => c a && startsWith p s

/-- Go on with the replacement when some letters of a match are left to skip. -/
def replaceFrom (p : Pattern α) (r : List α) : ℕ → List α → List α
  | _, [] => []
  | n + 1, _ :: s => replaceFrom p r n s
  | 0, a :: s =>
    if startsWith p (a :: s) then r ++ replaceFrom p r (p.length - 1) s
    else a :: replaceFrom p r 0 s

def replaceAll (p : Pattern α) (r s : List α) : List α := replaceFrom p r 0 s

def Barrier (p : Pattern α) (b : α) : Prop := ∀ c ∈ p, c b = false

/-! ## Matches -/

theorem startsWith_iff {p : Pattern α} {s : List α} :
    startsWith p s = true ↔ ∃ m, m <+: s ∧ Matches p m := by
  induction p generalizing s with
  | nil => exact ⟨fun _ ↦ ⟨[], List.nil_prefix, .nil⟩, fun _ ↦ rfl⟩
  | cons c p ih =>
    cases s with
    | nil =>
      constructor
      · intro h
        cases h
      · rintro ⟨m, hm, hmatch⟩
        rw [List.prefix_nil.mp hm] at hmatch
        cases hmatch
    | cons a s =>
      rw [startsWith, Bool.and_eq_true, ih]
      constructor
      · rintro ⟨hc, m, hm, hmatch⟩
        exact ⟨a :: m, (List.prefix_cons_inj a).mpr hm, .cons hc hmatch⟩
      · rintro ⟨m, hm, hmatch⟩
        cases hmatch with
        | cons hc hrest =>
          obtain ⟨rfl, hprefix⟩ := List.cons_prefix_cons.mp hm
          exact ⟨hc, _, hprefix, hrest⟩

theorem occurs_cons {p : Pattern α} {a : α} {s : List α} :
    Occurs p (a :: s) ↔ startsWith p (a :: s) = true ∨ Occurs p s := by
  rw [startsWith_iff]
  constructor
  · rintro ⟨m, hm, hmatch⟩
    exact (List.infix_cons_iff.mp hm).imp (fun h ↦ ⟨m, h, hmatch⟩) fun h ↦ ⟨m, h, hmatch⟩
  · rintro (⟨m, hm, hmatch⟩ | ⟨m, hm, hmatch⟩)
    · exact ⟨m, hm.isInfix, hmatch⟩
    · exact ⟨m, List.infix_cons hm, hmatch⟩

theorem Occurs.length_le {p : Pattern α} {s : List α} (h : Occurs p s) : p.length ≤ s.length := by
  obtain ⟨m, hm, hmatch⟩ := h
  exact hmatch.length_eq.trans_le hm.length_le

/-! ## Barriers -/

variable {p : Pattern α} {b : α} {r : List α}

theorem startsWith_of_append {l s : List α} (hb : Barrier p b)
    (h : startsWith p (l ++ b :: s) = true) : startsWith p l = true := by
  induction p generalizing l with
  | nil => rfl
  | cons c p ih =>
    cases l with
    | nil =>
      rw [List.nil_append, startsWith, hb c List.mem_cons_self] at h
      cases h
    | cons a l =>
      rw [List.cons_append, startsWith, Bool.and_eq_true] at h
      rw [startsWith, h.1]
      exact ih (fun d hd ↦ hb d (List.mem_cons_of_mem c hd)) h.2

theorem not_occurs_nil (hp : p ≠ []) : ¬Occurs p [] := by
  intro h
  exact hp (List.eq_nil_of_length_eq_zero (Nat.le_zero.mp h.length_le))

/-- No match goes over a barrier. -/
theorem occurs_of_append {l s : List α} (hp : p ≠ []) (hb : Barrier p b)
    (h : Occurs p (l ++ b :: s)) : Occurs p l ∨ Occurs p s := by
  induction l with
  | nil =>
    rcases occurs_cons.mp h with hstart | hs
    · have hnil := startsWith_of_append (l := []) hb hstart
      exact absurd ((startsWith_iff.mp hnil).imp fun _ hm ↦ ⟨hm.1.isInfix, hm.2⟩)
        (not_occurs_nil hp)
    · exact Or.inr hs
  | cons a l ih =>
    rcases occurs_cons.mp h with hstart | hs
    · exact Or.inl (occurs_cons.mpr (Or.inl (startsWith_of_append (l := a :: l) hb hstart)))
    · exact (ih hs).imp_left fun hl ↦ occurs_cons.mpr (Or.inr hl)

theorem occurs_of_replicate {n : ℕ} {s : List α} (hp : p ≠ []) (hb : Barrier p b)
    (h : Occurs p (List.replicate n b ++ s)) : Occurs p s := by
  induction n with
  | zero => exact h
  | succ n ih =>
    rw [List.replicate_succ, List.cons_append] at h
    exact ih ((occurs_of_append (l := []) hp hb h).resolve_left (not_occurs_nil hp))

theorem not_occurs_intercalate {l : List (List α)} (hp : p ≠ []) (hb : Barrier p b)
    (hl : ∀ s ∈ l, ¬Occurs p s) : ¬Occurs p ([b].intercalate l) := by
  induction l with
  | nil => exact not_occurs_nil hp
  | cons s l ih =>
    have hs := hl s List.mem_cons_self
    cases l with
    | nil =>
      rw [List.intercalate_singleton]
      exact hs
    | cons s' l =>
      rw [List.intercalate_cons_cons, List.append_assoc, List.singleton_append]
      intro h
      exact (occurs_of_append hp hb h).elim hs
        (ih fun t ht ↦ hl t (List.mem_cons_of_mem s ht))

/-! ## Replacement -/

theorem startsWith_of_replaceFrom {q : Pattern α} {s : List α} (hq : Barrier q b)
    (h : startsWith q (replaceFrom p (b :: r) 0 s) = true) : startsWith q s = true := by
  induction s generalizing q with
  | nil => exact h
  | cons a s ih =>
    cases q with
    | nil => rfl
    | cons c q =>
      rw [replaceFrom] at h
      split at h
      · rw [List.cons_append, startsWith, hq c List.mem_cons_self] at h
        cases h
      · rw [startsWith, Bool.and_eq_true] at h
        rw [startsWith, h.1]
        exact ih (fun d hd ↦ hq d (List.mem_cons_of_mem c hd)) h.2

theorem not_occurs_replaceFrom {b' : α} (hp : p ≠ []) (hb : Barrier p b) (hb' : Barrier p b')
    (hr : ¬Occurs p r) (n : ℕ) (s : List α) :
    ¬Occurs p (replaceFrom p (b :: (r ++ [b'])) n s) := by
  induction s generalizing n with
  | nil => cases n <;> exact not_occurs_nil hp
  | cons a s ih =>
    cases n with
    | succ n => exact ih n
    | zero =>
      rw [replaceFrom]
      split
      case isTrue =>
        rw [List.cons_append, List.append_assoc, List.singleton_append]
        intro h
        rcases occurs_of_append (l := []) hp hb h with h | h
        · exact not_occurs_nil hp h
        · exact (occurs_of_append hp hb' h).elim hr (ih _)
      case isFalse hstart =>
        intro h
        rcases occurs_cons.mp h with h | h
        · refine hstart (startsWith_of_replaceFrom (p := p) (r := r ++ [b']) hb ?_)
          rw [replaceFrom, if_neg hstart]
          exact h
        · exact ih 0 h

/-- No match is left. -/
theorem not_occurs_replaceAll {b' : α} (hp : p ≠ []) (hb : Barrier p b) (hb' : Barrier p b')
    (hr : ¬Occurs p r) (s : List α) : ¬Occurs p (replaceAll p (b :: (r ++ [b'])) s) :=
  not_occurs_replaceFrom hp hb hb' hr 0 s

end FixedPattern
