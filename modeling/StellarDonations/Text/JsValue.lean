import StellarDonations.Text.JsString

/-!
# Values of the scripting language

Plain data: what JSON has, and `undefined`. A text is the list of its code units, so that it can be
cut anywhere. Numbers are of an arbitrary type `ν`, and `numberText` writes them.
-/

universe u

/-- A value without functions and references. -/
inductive JsValue (ν : Type u) where
  | undefined
  | null
  | bool (b : Bool)
  | num (n : ν)
  | str (s : List ℕ)
  | arr (items : List (JsValue ν))
  | obj (fields : List (String × JsValue ν))

namespace JsValue

open JsString

variable {ν : Type u}

section Induction

variable {P : JsValue ν → Prop} (undefined : P undefined) (null : P null) (bool : ∀ b, P (bool b))
  (num : ∀ n, P (num n)) (str : ∀ s, P (str s)) (arr : ∀ vs, (∀ v ∈ vs, P v) → P (arr vs))
  (obj : ∀ fs, (∀ f ∈ fs, P f.2) → P (obj fs))

include undefined null bool num str arr obj in
/-- The induction over a value: what holds of the items and of the fields holds of the whole. -/
@[induction_eliminator, elab_as_elim]
theorem induct (v : JsValue ν) : P v := by
  refine @JsValue.rec ν P (fun vs ↦ ∀ v ∈ vs, P v) (fun fs ↦ ∀ f ∈ fs, P f.2) (fun f ↦ P f.2)
    undefined null bool num str arr obj ?_ ?_ ?_ ?_ ?_ v
  · exact List.forall_mem_nil _
  · exact fun _ _ hv hvs ↦ List.forall_mem_cons.mpr ⟨hv, hvs⟩
  · exact List.forall_mem_nil _
  · exact fun _ _ hf hfs ↦ List.forall_mem_cons.mpr ⟨hf, hfs⟩
  · exact fun _ _ hv ↦ hv

end Induction

mutual

/-- The texts in a value, at any depth. -/
def strings : JsValue ν → List (List ℕ)
  | str s => [s]
  | arr items => itemStrings items
  | obj fields => fieldStrings fields
  | _ => []

def itemStrings : List (JsValue ν) → List (List ℕ)
  | [] => []
  | v :: vs => strings v ++ itemStrings vs

def fieldStrings : List (String × JsValue ν) → List (List ℕ)
  | [] => []
  | (_, v) :: fs => strings v ++ fieldStrings fs

end

theorem itemStrings_eq_flatMap (vs : List (JsValue ν)) : itemStrings vs = vs.flatMap strings := by
  induction vs with
  | nil => rfl
  | cons v vs ih => rw [itemStrings, ih, List.flatMap_cons]

theorem fieldStrings_eq_flatMap (fs : List (String × JsValue ν)) :
    fieldStrings fs = fs.flatMap fun f ↦ strings f.2 := by
  induction fs with
  | nil => rfl
  | cons f fs ih => rw [fieldStrings, ih, List.flatMap_cons]

variable (numberText : ν → List ℕ)

mutual

/-- `String(v)`. -/
def toText : JsValue ν → List ℕ
  | undefined => codeUnits "undefined"
  | null => codeUnits "null"
  | bool b => codeUnits (if b then "true" else "false")
  | num n => numberText n
  | str s => s
  | arr items => (codeUnits ",").intercalate (itemTexts items)
  | obj _ => codeUnits "[object Object]"

/-- The texts that `join` joins; `undefined` and `null` are left out. -/
def itemTexts : List (JsValue ν) → List (List ℕ)
  | [] => []
  | undefined :: vs => [] :: itemTexts vs
  | null :: vs => [] :: itemTexts vs
  | v :: vs => toText v :: itemTexts vs

end

end JsValue
