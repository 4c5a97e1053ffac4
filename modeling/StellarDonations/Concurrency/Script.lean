import Mathlib.Data.List.Basic

/-!
# Scripts that are not atomic

A script is a list of statements, executed one after the other on a state of type `σ`. A statement
that fails leaves the state as it is, and ends the script unless its error is swallowed. A script
that is interrupted between two statements has executed a prefix of its list; so the rules below are
about parts of a script.
-/

namespace Concurrency

variable {σ τ ε : Type*} {exec : σ → τ → Except ε σ} {s s' : σ} {stmt : τ} {swallowed : Bool}
  {as bs : List (τ × Bool)} {e : ε}

/-- Execute the statements, each of which comes with whether its error is swallowed. -/
def runScript (exec : σ → τ → Except ε σ) : List (τ × Bool) → σ → σ × Option ε
  | [], s => (s, none)
  | (stmt, swallowed) :: rest, s =>
    match exec s stmt with
    | .ok s' => runScript exec rest s'
    | .error e => if swallowed then runScript exec rest s else (s, some e)

@[simp] theorem runScript_nil (s : σ) : runScript exec [] s = (s, none) := rfl

theorem runScript_ok (h : exec s stmt = .ok s') :
    runScript exec ((stmt, swallowed) :: as) s = runScript exec as s' := by
  rw [runScript, h]

theorem runScript_swallowed (h : exec s stmt = .error e) :
    runScript exec ((stmt, true) :: as) s = runScript exec as s := by
  rw [runScript, h]
  rfl

theorem runScript_error (h : exec s stmt = .error e) :
    runScript exec ((stmt, false) :: as) s = (s, some e) := by
  rw [runScript, h]
  rfl

theorem runScript_append (h : runScript exec as s = (s', none)) :
    runScript exec (as ++ bs) s = runScript exec bs s' := by
  induction as generalizing s with
  | nil =>
    cases h
    rfl
  | cons a as ih =>
    obtain ⟨stmt, swallowed⟩ := a
    rw [List.cons_append]
    cases hexec : exec s stmt with
    | ok s₁ =>
      rw [runScript_ok hexec] at h ⊢
      exact ih h
    | error e₁ =>
      cases swallowed with
      | true =>
        rw [runScript_swallowed hexec] at h ⊢
        exact ih h
      | false =>
        rw [runScript_error hexec] at h
        cases h

theorem runScript_keeps {P : σ → Prop}
    (hkeeps : ∀ a ∈ as, ∀ s s', P s → exec s a.1 = .ok s' → P s') (hs : P s) :
    P (runScript exec as s).1 := by
  induction as generalizing s with
  | nil => exact hs
  | cons a as ih =>
    obtain ⟨stmt, swallowed⟩ := a
    have hrest : ∀ a ∈ as, ∀ s s', P s → exec s a.1 = .ok s' → P s' :=
      fun a ha ↦ hkeeps a (List.mem_cons_of_mem _ ha)
    cases hexec : exec s stmt with
    | ok s₁ =>
      rw [runScript_ok hexec]
      exact ih hrest (hkeeps _ List.mem_cons_self s s₁ hs hexec)
    | error e₁ =>
      cases swallowed with
      | true =>
        rw [runScript_swallowed hexec]
        exact ih hrest hs
      | false =>
        rw [runScript_error hexec]
        exact hs

end Concurrency
