import Mathlib.Algebra.BigOperators.Group.List.Basic
import Mathlib.Data.Fintype.EquivFin
import Mathlib.Data.List.Sort
import Mathlib.Data.String.Basic
import Mathlib.Tactic.IntervalCases
import StellarDonations.Text.JsString

/-!
# JSON values and their text

Values with numbers of an arbitrary type `ν`, and `JSON.stringify`. An object is the list of its
fields in their order; the text follows that order, so objects that differ only in it have different
texts. The text determines the value it was written from (`stringify_injective`), because every text
ends before a comma or a closing bracket can follow it.

Everything that goes through a value is a `fold`. `mapFields f` rewrites the fields of every object
and leaves the rest alone; sorting the keys, selecting some of them and adding one are all of this
form, and so are the counts that tell them apart.
-/

universe u

/-- A JSON value, with numbers in `ν`. -/
inductive Json (ν : Type u) where
  | null
  | bool (b : Bool)
  | num (n : ν)
  | str (s : String)
  | arr (elems : List (Json ν))
  | obj (fields : List (String × Json ν))

namespace Json

variable {ν : Type u} {α : Type*}

/-! ## Going through a value -/

structure Algebra (ν : Type u) (α : Type*) where
  null : α
  bool : Bool → α
  num : ν → α
  str : String → α
  arr : List α → α
  obj : List (String × α) → α

mutual

def fold (a : Algebra ν α) : Json ν → α
  | null => a.null
  | bool b => a.bool b
  | num n => a.num n
  | str s => a.str s
  | arr elems => a.arr (foldElems a elems)
  | obj fields => a.obj (foldFields a fields)

def foldElems (a : Algebra ν α) : List (Json ν) → List α
  | [] => []
  | v :: vs => fold a v :: foldElems a vs

def foldFields (a : Algebra ν α) : List (String × Json ν) → List (String × α)
  | [] => []
  | (k, v) :: fs => (k, fold a v) :: foldFields a fs

end

theorem foldElems_eq_map (a : Algebra ν α) (vs : List (Json ν)) :
    foldElems a vs = vs.map (fold a) := by
  induction vs with
  | nil => rfl
  | cons v vs ih => rw [foldElems, ih, List.map_cons]

theorem foldFields_eq_map (a : Algebra ν α) (fs : List (String × Json ν)) :
    foldFields a fs = fs.map fun f ↦ (f.1, fold a f.2) := by
  induction fs with
  | nil => rfl
  | cons f fs ih => rw [foldFields, ih, List.map_cons]

theorem fold_arr (a : Algebra ν α) (elems : List (Json ν)) :
    fold a (arr elems) = a.arr (elems.map (fold a)) := by
  rw [fold, foldElems_eq_map]

theorem fold_obj (a : Algebra ν α) (fields : List (String × Json ν)) :
    fold a (obj fields) = a.obj (fields.map fun f ↦ (f.1, fold a f.2)) := by
  rw [fold, foldFields_eq_map]

section Induction

variable {P : Json ν → Prop} (null : P null) (bool : ∀ b, P (bool b)) (num : ∀ n, P (num n))
  (str : ∀ s, P (str s)) (arr : ∀ vs, (∀ v ∈ vs, P v) → P (arr vs))
  (obj : ∀ fs, (∀ f ∈ fs, P f.2) → P (obj fs))

include null bool num str arr obj in
/-- The induction over a value: what holds of the elements and of the fields holds of the whole. -/
@[induction_eliminator, elab_as_elim]
theorem induct (v : Json ν) : P v := by
  refine @Json.rec ν P (fun vs ↦ ∀ v ∈ vs, P v) (fun fs ↦ ∀ f ∈ fs, P f.2) (fun f ↦ P f.2)
    null bool num str arr obj ?_ ?_ ?_ ?_ ?_ v
  · simp
  · intro v vs hv hvs w hw
    rcases List.mem_cons.mp hw with rfl | hw
    · exact hv
    · exact hvs w hw
  · simp
  · intro f fs hf hfs g hg
    rcases List.mem_cons.mp hg with rfl | hg
    · exact hf
    · exact hfs g hg
  · exact fun _ _ hv ↦ hv

end Induction

/-! ## Rewriting the fields of every object -/

/-- Rewrite the fields of every object, from the inside out. -/
def mapFields (f : List (String × Json ν) → List (String × Json ν)) : Json ν → Json ν :=
  fold { null, bool, num, str, arr, obj := fun fields ↦ obj (f fields) }

/-- The values inside an object, rewritten. -/
def mapValues (f : List (String × Json ν) → List (String × Json ν))
    (fields : List (String × Json ν)) : List (String × Json ν) :=
  fields.map fun field ↦ (field.1, mapFields f field.2)

theorem mapFields_arr (f : List (String × Json ν) → List (String × Json ν))
    (elems : List (Json ν)) : mapFields f (arr elems) = arr (elems.map (mapFields f)) :=
  fold_arr _ elems

theorem mapFields_obj (f : List (String × Json ν) → List (String × Json ν))
    (fields : List (String × Json ν)) :
    mapFields f (obj fields) = obj (f (mapValues f fields)) :=
  fold_obj _ fields

@[simp] theorem map_fst_mapValues (f : List (String × Json ν) → List (String × Json ν))
    (fields : List (String × Json ν)) :
    (mapValues f fields).map Prod.fst = fields.map Prod.fst := by
  rw [mapValues, List.map_map]
  rfl

/-- The sum over all objects of `w`, applied to the number of their fields. -/
def weigh (w : ℕ → ℕ) : Json ν → ℕ :=
  fold
    { null := 0, bool _ := 0, num _ := 0, str _ := 0, arr := List.sum
      obj := fun fields ↦ w fields.length + (fields.map Prod.snd).sum }

theorem weigh_arr (w : ℕ → ℕ) (elems : List (Json ν)) :
    weigh w (arr elems) = (elems.map (weigh w)).sum :=
  fold_arr _ elems

theorem weigh_obj (w : ℕ → ℕ) (fields : List (String × Json ν)) :
    weigh w (obj fields) = w fields.length + (fields.map fun f ↦ weigh w f.2).sum := by
  rw [weigh, fold_obj]
  simp only [List.length_map, List.map_map]
  rfl

/-- The number of objects in a value, the value itself included. -/
def objects : Json ν → ℕ := weigh fun _ ↦ 1

theorem objects_arr_eq_zero {elems : List (Json ν)} :
    objects (arr elems) = 0 ↔ ∀ v ∈ elems, objects v = 0 := by
  rw [objects, weigh_arr, List.sum_eq_zero_iff_forall_eq_nat]
  simp

theorem objects_obj_pos (fields : List (String × Json ν)) : 0 < objects (obj fields) := by
  rw [objects, weigh_obj]
  exact Nat.lt_add_right _ Nat.one_pos

section MapFields

variable {f g : List (String × Json ν) → List (String × Json ν)}

theorem objects_mapFields_eq_zero (v : Json ν) : objects (mapFields f v) = 0 ↔ objects v = 0 := by
  induction v with
  | null => exact Iff.rfl
  | bool b => exact Iff.rfl
  | num n => exact Iff.rfl
  | str s => exact Iff.rfl
  | arr elems ih =>
    rw [mapFields_arr, objects_arr_eq_zero, objects_arr_eq_zero]
    simp only [List.forall_mem_map]
    exact forall₂_congr ih
  | obj fields ih =>
    rw [mapFields_obj]
    exact iff_of_false (objects_obj_pos _).ne' (objects_obj_pos _).ne'

theorem mapFields_of_objects_eq_zero {v : Json ν} (h : objects v = 0) : mapFields f v = v := by
  induction v with
  | null => rfl
  | bool b => rfl
  | num n => rfl
  | str s => rfl
  | arr elems ih =>
    rw [mapFields_arr]
    congr 1
    refine (List.map_congr_left fun v hv ↦ ih v hv ?_).trans (List.map_id _)
    exact objects_arr_eq_zero.mp h v hv
  | obj fields ih => exact absurd h (objects_obj_pos fields).ne'

/-- Rearranging fields keeps every count. -/
theorem weigh_mapFields_of_perm (hf : ∀ fields, (f fields).Perm fields) (w : ℕ → ℕ) (v : Json ν) :
    weigh w (mapFields f v) = weigh w v := by
  induction v with
  | null => rfl
  | bool b => rfl
  | num n => rfl
  | str s => rfl
  | arr elems ih =>
    rw [mapFields_arr, weigh_arr, weigh_arr, List.map_map]
    exact congrArg List.sum (List.map_congr_left ih)
  | obj fields ih =>
    have hvalues : ((mapValues f fields).map fun x ↦ weigh w x.2) =
        fields.map fun x ↦ weigh w x.2 := by
      rw [mapValues, List.map_map]
      exact List.map_congr_left ih
    rw [mapFields_obj, weigh_obj, weigh_obj, (hf _).length_eq, ((hf _).map _).sum_eq, hvalues,
      mapValues, List.length_map]

end MapFields

/-! ## The order of keys -/

def KeyLe (k l : String) : Prop := JsString.codeUnits k ≤ JsString.codeUnits l

instance : DecidableRel KeyLe := fun _ _ ↦ inferInstanceAs (Decidable (_ ≤ _))

instance : Std.Total KeyLe := ⟨fun _ _ ↦ le_total _ _⟩

instance : IsTrans String KeyLe := ⟨fun _ _ _ ↦ le_trans⟩

theorem KeyLe.antisymm {k l : String} (hkl : KeyLe k l) (hlk : KeyLe l k) : k = l :=
  JsString.codeUnits_injective (le_antisymm hkl hlk)

/-- `keys.sort()`. -/
def sortStrings (keys : List String) : List String := keys.insertionSort KeyLe

theorem perm_sortStrings (keys : List String) : (sortStrings keys).Perm keys :=
  List.perm_insertionSort KeyLe keys

/-- The fields of an object, in the order of their keys. -/
def sortFields (fields : List (String × Json ν)) : List (String × Json ν) :=
  fields.insertionSort fun f g ↦ KeyLe f.1 g.1

theorem perm_sortFields (fields : List (String × Json ν)) : (sortFields fields).Perm fields :=
  List.perm_insertionSort _ fields

/-- The value with the fields of every object in the order of their keys. -/
def sortKeys : Json ν → Json ν := mapFields sortFields

/-- The values are equal up to the order of keys at every depth. -/
def Same (v w : Json ν) : Prop := sortKeys v = sortKeys w

/-- No object has a key twice, as in every value that was parsed. -/
def Distinct : Json ν → Prop :=
  fold
    { null := True, bool _ := True, num _ := True, str _ := True, arr := fun ps ↦ ∀ p ∈ ps, p
      obj := fun fields ↦ (fields.map Prod.fst).Nodup ∧ ∀ f ∈ fields, f.2 }

theorem distinct_arr {elems : List (Json ν)} :
    Distinct (arr elems) ↔ ∀ v ∈ elems, Distinct v := by
  rw [Distinct, fold_arr]
  exact List.forall_mem_map

theorem distinct_obj {fields : List (String × Json ν)} :
    Distinct (obj fields) ↔
      (fields.map Prod.fst).Nodup ∧ ∀ f ∈ fields, Distinct f.2 := by
  rw [Distinct, fold_obj]
  simp only [List.map_map, List.forall_mem_map]
  rfl

/-! ## Selecting keys -/

/-- The fields that have one of the keys, in the order of the keys. -/
def select (keys : List String) (fields : List (String × Json ν)) : List (String × Json ν) :=
  keys.filterMap fun k ↦ (fields.lookup k).map (k, ·)

theorem select_map_fst {fields : List (String × Json ν)} (hnodup : (fields.map Prod.fst).Nodup) :
    select (fields.map Prod.fst) fields = fields := by
  induction fields with
  | nil => rfl
  | cons f fs ih =>
    obtain ⟨k, v⟩ := f
    obtain ⟨hk, hnodup⟩ := List.nodup_cons.mp hnodup
    have hrest : select (fs.map Prod.fst) ((k, v) :: fs) = select (fs.map Prod.fst) fs := by
      refine List.filterMap_congr fun l hl ↦ ?_
      have hne : (l == k) = false := beq_eq_false_iff_ne.mpr fun heq ↦ hk (heq ▸ hl)
      rw [List.lookup_cons, hne]
    rw [ih hnodup] at hrest
    rw [select] at hrest ⊢
    simp [hrest]

theorem select_sortStrings {fields : List (String × Json ν)}
    (hnodup : (fields.map Prod.fst).Nodup) :
    select (sortStrings (fields.map Prod.fst)) fields = sortFields fields := by
  have hperm : (select (sortStrings (fields.map Prod.fst)) fields).Perm fields := by
    conv_rhs => rw [← select_map_fst hnodup]
    exact (perm_sortStrings _).filterMap _
  refine List.Perm.eq_of_pairwise ?_ ?_
    (List.pairwise_insertionSort _ _) (hperm.trans (perm_sortFields fields).symm)
  · -- two fields with one key are the same field
    intro f g hf hg hfg hgf
    exact List.inj_on_of_nodup_map hnodup (hperm.subset hf)
      ((perm_sortFields fields).subset hg) (hfg.antisymm hgf)
  · refine List.Pairwise.filterMap _ (fun k l hkl f hf g hg ↦ ?_)
      (List.pairwise_insertionSort KeyLe (fields.map Prod.fst))
    obtain ⟨-, -, rfl⟩ := Option.map_eq_some_iff.mp hf
    obtain ⟨-, -, rfl⟩ := Option.map_eq_some_iff.mp hg
    exact hkl

/-! ## Adding a field -/

/-- The value with another field in every object. -/
def grow (k : String) : Json ν → Json ν := mapFields (· ++ [(k, null)])

def keys : Json ν → List String :=
  fold
    { null := [], bool _ := [], num _ := [], str _ := [], arr := List.flatten
      obj := fun fields ↦ fields.map Prod.fst ++ (fields.map Prod.snd).flatten }

theorem mem_keys_arr {elems : List (Json ν)} {k : String} :
    k ∈ keys (arr elems) ↔ ∃ v ∈ elems, k ∈ keys v := by
  rw [keys, fold_arr]
  simp

theorem mem_keys_obj {fields : List (String × Json ν)} {k : String} :
    k ∈ keys (obj fields) ↔ k ∈ fields.map Prod.fst ∨ ∃ f ∈ fields, k ∈ keys f.2 := by
  rw [keys, fold_obj]
  simp

theorem exists_notMem_keys (ks : List String) : ∃ k, k ∉ ks := by
  have : Infinite String := Infinite.of_injective String.ofList fun _ _ ↦ String.ofList_inj.mp
  obtain ⟨k, hk⟩ := Infinite.exists_notMem_finset ks.toFinset
  exact ⟨k, fun h ↦ hk (List.mem_toFinset.mpr h)⟩

theorem select_append_of_notMem {ks : List String} {k : String} (hk : k ∉ ks)
    (fields : List (String × Json ν)) (v : Json ν) :
    select ks (fields ++ [(k, v)]) = select ks fields := by
  refine List.filterMap_congr fun l hl ↦ ?_
  have hne : (l == k) = false := beq_eq_false_iff_ne.mpr fun heq ↦ hk (heq ▸ hl)
  rw [List.lookup_append, List.lookup_cons, hne, List.lookup_nil, Option.or_none]

theorem mapFields_select_grow {ks : List String} {k : String} (hk : k ∉ ks) (v : Json ν) :
    mapFields (select ks) (grow k v) = mapFields (select ks) v := by
  induction v with
  | null => rfl
  | bool b => rfl
  | num n => rfl
  | str s => rfl
  | arr elems ih =>
    rw [grow, mapFields_arr, mapFields_arr, mapFields_arr, List.map_map]
    congr 1
    exact List.map_congr_left ih
  | obj fields ih =>
    have hvalues : mapValues (select ks) (mapValues (· ++ [(k, null)]) fields) =
        mapValues (select ks) fields := by
      rw [mapValues, mapValues, mapValues, List.map_map]
      refine List.map_congr_left fun f hf ↦ ?_
      exact congrArg (Prod.mk f.1) (ih f hf)
    rw [grow, mapFields_obj, mapFields_obj, mapFields_obj, mapValues, List.map_append, ← mapValues,
      hvalues, List.map_singleton, select_append_of_notMem hk]

/-- Every object has gained a field. -/
theorem weigh_grow (k : String) (v : Json ν) : weigh id (grow k v) = weigh id v + objects v := by
  induction v with
  | null => rfl
  | bool b => rfl
  | num n => rfl
  | str s => rfl
  | arr elems ih =>
    rw [grow, mapFields_arr, weigh_arr, weigh_arr, objects, weigh_arr, ← List.sum_map_add,
      List.map_map]
    exact congrArg List.sum (List.map_congr_left ih)
  | obj fields ih =>
    have hvalues : ((mapValues (· ++ [(k, null)]) fields).map fun f ↦ weigh id f.2).sum =
        (fields.map fun f ↦ weigh id f.2).sum + (fields.map fun f ↦ objects f.2).sum := by
      rw [mapValues, List.map_map, ← List.sum_map_add]
      exact congrArg List.sum (List.map_congr_left ih)
    rw [grow, mapFields_obj, weigh_obj, weigh_obj, objects, weigh_obj, ← objects, List.map_append,
      List.sum_append, hvalues, List.length_append, mapValues, List.length_map]
    have hnull : ([((k, null) : String × Json ν)].map fun f ↦ weigh id f.2).sum = 0 := rfl
    rw [hnull]
    simp only [id, List.length_singleton]
    omega

theorem distinct_grow {k : String} {v : Json ν} (hv : Distinct v) (hk : k ∉ keys v) :
    Distinct (grow k v) := by
  induction v with
  | null => trivial
  | bool b => trivial
  | num n => trivial
  | str s => trivial
  | arr elems ih =>
    rw [grow, mapFields_arr, distinct_arr, List.forall_mem_map]
    intro v hmem
    exact ih v hmem (distinct_arr.mp hv v hmem) fun h ↦ hk (mem_keys_arr.mpr ⟨v, hmem, h⟩)
  | obj fields ih =>
    obtain ⟨hnodup, hfields⟩ := distinct_obj.mp hv
    rw [mem_keys_obj, not_or] at hk
    rw [grow, mapFields_obj, distinct_obj, List.map_append, map_fst_mapValues]
    constructor
    · rw [List.map_singleton, List.nodup_append_comm]
      exact List.nodup_cons.mpr ⟨hk.1, hnodup⟩
    · intro f hf
      rcases List.mem_append.mp hf with hf | hf
      · obtain ⟨g, hg, rfl⟩ := List.mem_map.mp hf
        exact ih g hg (hfields g hg) fun h ↦ hk.2 ⟨g, hg, h⟩
      · rw [List.mem_singleton.mp hf]
        trivial

/-! ## Texts of strings -/

/-- A hexadecimal digit, in lower case. -/
def hexChar (n : ℕ) : Char := if n < 10 then Char.ofNat (48 + n) else Char.ofNat (87 + n)

/-- The text of a character inside a string. -/
def escape (c : Char) : List Char :=
  if c = '"' then ['\\', '"']
  else if c = '\\' then ['\\', '\\']
  else if c.toNat = 8 then ['\\', 'b']
  else if c.toNat = 9 then ['\\', 't']
  else if c.toNat = 10 then ['\\', 'n']
  else if c.toNat = 12 then ['\\', 'f']
  else if c.toNat = 13 then ['\\', 'r']
  else if c.toNat < 32 then ['\\', 'u', '0', '0', hexChar (c.toNat / 16), hexChar (c.toNat % 16)]
  else [c]

@[elab_as_elim]
theorem escape_cases {p : Char → Prop} (c : Char) (quote : p '"') (slash : p '\\')
    (control : ∀ n < 32, p (Char.ofNat n))
    (plain : ∀ c, c ≠ '"' → c ≠ '\\' → ¬c.toNat < 32 → escape c = [c] → p c) : p c := by
  by_cases hquote : c = '"'
  · rwa [hquote]
  by_cases hslash : c = '\\'
  · rwa [hslash]
  by_cases hctrl : c.toNat < 32
  · rw [← Char.ofNat_toNat c]
    exact control c.toNat hctrl
  · refine plain c hquote hslash hctrl ?_
    rw [escape, if_neg hquote, if_neg hslash]
    repeat rw [if_neg (by omega)]

/-- The value of a hexadecimal digit in lower case. -/
def hexValue (c : Char) : ℕ := if c.toNat < 58 then c.toNat - 48 else c.toNat - 87

/-- Read a character of a string and return it with the rest of the text. -/
def unescape : List Char → Option (Char × List Char)
  | '\\' :: 'u' :: '0' :: '0' :: x :: y :: s =>
    some (Char.ofNat (16 * hexValue x + hexValue y), s)
  | '\\' :: 'b' :: s => some (Char.ofNat 8, s)
  | '\\' :: 't' :: s => some (Char.ofNat 9, s)
  | '\\' :: 'n' :: s => some (Char.ofNat 10, s)
  | '\\' :: 'f' :: s => some (Char.ofNat 12, s)
  | '\\' :: 'r' :: s => some (Char.ofNat 13, s)
  | '\\' :: c :: s => some (c, s)
  | '"' :: _ => none
  | c :: s => some (c, s)
  | [] => none

theorem unescape_escape (c : Char) (s : List Char) : unescape (escape c ++ s) = some (c, s) := by
  induction c using escape_cases with
  | quote => rfl
  | slash => rfl
  | control n hctrl => interval_cases n <;> rfl
  | plain c hquote hslash hctrl hescape =>
    rw [hescape, List.singleton_append]
    unfold unescape
    split <;> simp_all

theorem escape_append_injective {c d : Char} {s t : List Char}
    (h : escape c ++ s = escape d ++ t) : c = d ∧ s = t := by
  have hread := congrArg unescape h
  rw [unescape_escape, unescape_escape] at hread
  exact Prod.mk.inj (Option.some.inj hread)

theorem escape_append_ne_quote (c : Char) (s t : List Char) : escape c ++ s ≠ '"' :: t := by
  intro h
  have hread := congrArg unescape h
  rw [unescape_escape] at hread
  cases hread

def quote (s : String) : List Char := '"' :: (s.toList.flatMap escape ++ ['"'])

theorem flatMap_escape_append_injective {s t x y : List Char}
    (h : s.flatMap escape ++ '"' :: x = t.flatMap escape ++ '"' :: y) : s = t ∧ x = y := by
  induction s generalizing t with
  | nil =>
    cases t with
    | nil => exact ⟨rfl, List.tail_eq_of_cons_eq h⟩
    | cons d t =>
      rw [List.flatMap_cons, List.append_assoc] at h
      exact absurd h.symm (escape_append_ne_quote d _ _)
  | cons c s ih =>
    rw [List.flatMap_cons, List.append_assoc] at h
    cases t with
    | nil => exact absurd h (escape_append_ne_quote c _ _)
    | cons d t =>
      rw [List.flatMap_cons, List.append_assoc] at h
      obtain ⟨rfl, hrest⟩ := escape_append_injective h
      obtain ⟨rfl, hxy⟩ := ih hrest
      exact ⟨rfl, hxy⟩

theorem quote_append_injective {s t : String} {x y : List Char} (h : quote s ++ x = quote t ++ y) :
    s = t ∧ x = y := by
  rw [quote, quote, List.cons_append, List.cons_append, List.append_assoc, List.append_assoc] at h
  obtain ⟨hst, hxy⟩ := flatMap_escape_append_injective (List.tail_eq_of_cons_eq h)
  exact ⟨String.toList_inj.mp hst, hxy⟩

/-! ## Texts of values -/

def numberChars : List Char := "0123456789+-.e".toList

/-- How numbers are written. Different numbers have different texts. -/
structure NumberText (ν : Type u) where
  text : ν → List Char
  injective : Function.Injective text
  ne_nil : ∀ n, text n ≠ []
  mem_numberChars : ∀ n, ∀ c ∈ text n, c ∈ numberChars

def natText : NumberText ℕ where
  text := Nat.toDigits 10
  injective n m h := by
    rw [← Nat.ofDigitChars_toDigits (n := n) (b := 10) (by decide) (by decide), h,
      Nat.ofDigitChars_toDigits (by decide) (by decide)]
  ne_nil n := List.ne_nil_of_length_pos Nat.length_toDigits_pos
  mem_numberChars n c hc := by
    have hdigit := Nat.isDigit_of_mem_toDigits (by decide) (by decide) hc
    obtain ⟨hlow, hhigh⟩ : 48 ≤ c.toNat ∧ c.toNat ≤ 57 := Char.isDigit_iff_toNat.mp hdigit
    have hc : c = Char.ofNat c.toNat := (Char.ofNat_toNat c).symm
    generalize c.toNat = n at hlow hhigh hc
    subst hc
    interval_cases n <;> decide

/-- The rest of a list after an element, up to the closing bracket. -/
def closeList (close : Char) : List (List Char) → List Char
  | [] => [close]
  | x :: xs => ',' :: (x ++ closeList close xs)

def listText (close : Char) : List (List Char) → List Char
  | [] => [close]
  | x :: xs => x ++ closeList close xs

def fieldText (f : String × List Char) : List Char := quote f.1 ++ ':' :: f.2

variable (t : NumberText ν)

def stringify : Json ν → List Char :=
  fold
    { null := "null".toList, bool b := (if b then "true" else "false").toList, num := t.text
      str := quote, arr elems := '[' :: listText ']' elems
      obj fields := '{' :: listText '}' (fields.map fieldText) }

theorem stringify_arr (elems : List (Json ν)) :
    stringify t (arr elems) = '[' :: listText ']' (elems.map (stringify t)) :=
  fold_arr _ elems

theorem stringify_obj (fields : List (String × Json ν)) :
    stringify t (obj fields) =
      '{' :: listText '}' (fields.map fun f ↦ fieldText (f.1, stringify t f.2)) := by
  rw [stringify, fold_obj]
  simp only [List.map_map]
  rfl

/-- The kinds of values, which their first characters tell apart. -/
inductive Kind where
  | null
  | yes
  | no
  | num
  | str
  | arr
  | obj
  deriving DecidableEq

def kind : Json ν → Kind
  | null => .null
  | bool b => if b then .yes else .no
  | num _ => .num
  | str _ => .str
  | arr _ => .arr
  | obj _ => .obj

/-- The kind of the values that start with a character, if any do. -/
def kindOf (c : Char) : Option Kind :=
  if c = 'n' then some .null
  else if c = 't' then some .yes
  else if c = 'f' then some .no
  else if c = '"' then some .str
  else if c = '[' then some .arr
  else if c = '{' then some .obj
  else if c ∈ numberChars then some .num
  else none

theorem head?_stringify (v : Json ν) : (stringify t v).head?.bind kindOf = some v.kind := by
  cases v with
  | null => rfl
  | bool b => cases b <;> rfl
  | num n =>
    have hall : (numberChars.all fun c ↦ kindOf c = some .num) = true := by decide
    have hchars : ∀ c ∈ numberChars, kindOf c = some .num := fun c hc ↦
      of_decide_eq_true (List.all_eq_true.mp hall c hc)
    obtain ⟨c, s, hs⟩ := List.exists_cons_of_ne_nil (t.ne_nil n)
    have hc := t.mem_numberChars n c (by rw [hs]; exact List.mem_cons_self)
    have hstringify : stringify t (num n) = t.text n := rfl
    rw [hstringify, hs]
    exact hchars c hc
  | str s => rfl
  | arr elems => rw [stringify_arr]; rfl
  | obj fields => rw [stringify_obj]; rfl

theorem head?_stringify_append (v : Json ν) (s : List Char) :
    (stringify t v ++ s).head?.bind kindOf = some v.kind := by
  rw [← head?_stringify t v]
  cases hv : stringify t v with
  | nil =>
    have hhead := head?_stringify t v
    rw [hv] at hhead
    cases hhead
  | cons c cs => rfl

/-! ## The text determines the value -/

/-- What may follow a value: nothing, a comma, or a closing bracket. -/
def Ends (s : List Char) : Prop := ∀ c ∈ s.head?, c ∈ [',', ']', '}']

/-- The texts `f` of other values, and what follows them, can be told apart from that of `a`. -/
def Cancels (f : α → List Char) (a : α) : Prop :=
  ∀ b s u, Ends s → Ends u → f a ++ s = f b ++ u → a = b ∧ s = u

section Lists

variable {f : α → List Char} {close : Char} {as bs : List α} {s u : List Char}

theorem ends_closeList (hclose : close ∈ [']', '}']) (xs : List (List Char)) (s : List Char) :
    Ends (closeList close xs ++ s) := by
  cases xs with
  | nil =>
    intro c hc
    cases hc
    exact List.mem_cons_of_mem _ hclose
  | cons x xs =>
    intro c hc
    cases hc
    exact List.mem_cons_self

theorem closeList_append_injective (hclose : close ∈ [']', '}']) (hf : ∀ a ∈ as, Cancels f a)
    (h : closeList close (as.map f) ++ s = closeList close (bs.map f) ++ u) :
    as = bs ∧ s = u := by
  have hcomma : close ≠ ',' := by
    rintro rfl
    exact absurd hclose (by decide)
  induction as generalizing bs with
  | nil =>
    cases bs with
    | nil => exact ⟨rfl, List.tail_eq_of_cons_eq h⟩
    | cons b bs => exact absurd (List.head_eq_of_cons_eq h) hcomma
  | cons a as ih =>
    cases bs with
    | nil => exact absurd (List.head_eq_of_cons_eq h).symm hcomma
    | cons b bs =>
      rw [List.map_cons, List.map_cons, closeList, closeList, List.cons_append, List.cons_append,
        List.append_assoc, List.append_assoc] at h
      obtain ⟨rfl, hrest⟩ := hf a List.mem_cons_self b _ _ (ends_closeList hclose _ _)
        (ends_closeList hclose _ _) (List.tail_eq_of_cons_eq h)
      obtain ⟨rfl, hsu⟩ := ih (fun a ha ↦ hf a (List.mem_cons_of_mem _ ha)) hrest
      exact ⟨rfl, hsu⟩

theorem listText_append_injective (hclose : close ∈ [']', '}']) (hf : ∀ a ∈ as, Cancels f a)
    (hhead : ∀ a s, (f a ++ s).head? ≠ some close)
    (h : listText close (as.map f) ++ s = listText close (bs.map f) ++ u) : as = bs ∧ s = u := by
  cases as with
  | nil =>
    cases bs with
    | nil => exact ⟨rfl, List.tail_eq_of_cons_eq h⟩
    | cons b bs =>
      rw [List.map_cons, listText, List.append_assoc] at h
      exact absurd (congrArg List.head? h).symm (hhead b _)
  | cons a as =>
    rw [List.map_cons, listText, List.append_assoc] at h
    cases bs with
    | nil => exact absurd (congrArg List.head? h) (hhead a _)
    | cons b bs =>
      rw [List.map_cons, listText, List.append_assoc] at h
      obtain ⟨rfl, hrest⟩ := hf a List.mem_cons_self b _ _ (ends_closeList hclose _ _)
        (ends_closeList hclose _ _) h
      obtain ⟨rfl, hsu⟩ := closeList_append_injective hclose
        (fun a ha ↦ hf a (List.mem_cons_of_mem _ ha)) hrest
      exact ⟨rfl, hsu⟩

end Lists

theorem takeWhile_text_append (n : ν) {s : List Char} (hs : Ends s) :
    (t.text n ++ s).takeWhile (· ∈ numberChars) = t.text n := by
  have hend : s.takeWhile (· ∈ numberChars) = [] := by
    cases s with
    | nil => rfl
    | cons c s =>
      have hall : ([',', ']', '}'].all fun c ↦ c ∉ numberChars) = true := by decide
      have hchars : ∀ c ∈ [',', ']', '}'], c ∉ numberChars := fun c hc ↦
        of_decide_eq_true (List.all_eq_true.mp hall c hc)
      exact List.takeWhile_cons_of_neg (by simpa using hchars c (hs c rfl))
  rw [List.takeWhile_append_of_pos (by simpa using t.mem_numberChars n), hend, List.append_nil]

theorem cancels_num (n : ν) {m : ν} {s u : List Char} (hs : Ends s) (hu : Ends u)
    (h : t.text n ++ s = t.text m ++ u) : n = m ∧ s = u := by
  have htext : t.text n = t.text m := by
    rw [← takeWhile_text_append t n hs, h, takeWhile_text_append t m hu]
  rw [htext] at h
  exact ⟨t.injective htext, List.append_cancel_left h⟩

theorem exists_of_kind (w : Json ν) :
    match w.kind with
    | .null => w = null
    | .yes => w = bool true
    | .no => w = bool false
    | .num => ∃ n, w = num n
    | .str => ∃ s, w = str s
    | .arr => ∃ elems, w = arr elems
    | .obj => ∃ fields, w = obj fields := by
  cases w with
  | null => rfl
  | bool b => cases b <;> rfl
  | num n => exact ⟨n, rfl⟩
  | str s => exact ⟨s, rfl⟩
  | arr elems => exact ⟨elems, rfl⟩
  | obj fields => exact ⟨fields, rfl⟩

theorem kind_eq_of_append {v w : Json ν} {s u : List Char}
    (h : stringify t v ++ s = stringify t w ++ u) : w.kind = v.kind := by
  have hv := head?_stringify_append t v s
  rw [h, head?_stringify_append t w u] at hv
  exact Option.some.inj hv

theorem head?_stringify_append_ne (v : Json ν) (s : List Char) {close : Char}
    (hclose : close ∈ [']', '}']) : (stringify t v ++ s).head? ≠ some close := by
  intro h
  have hall : ([']', '}'].all fun c ↦ kindOf c = none) = true := by decide
  have hnone : ∀ c ∈ [']', '}'], kindOf c = none := fun c hc ↦
    of_decide_eq_true (List.all_eq_true.mp hall c hc)
  have hhead := head?_stringify_append t v s
  rw [h] at hhead
  exact absurd (hhead.symm.trans (hnone close hclose)) (Option.some_ne_none _)

theorem cancels_stringify (v : Json ν) : Cancels (stringify t) v := by
  induction v with
  | null =>
    intro w s u hs hu h
    have hw := exists_of_kind w
    rw [kind_eq_of_append t h] at hw
    obtain rfl : w = null := hw
    exact ⟨rfl, List.append_cancel_left h⟩
  | bool b =>
    intro w s u hs hu h
    have hw := exists_of_kind w
    rw [kind_eq_of_append t h] at hw
    obtain rfl : w = bool b := by cases b <;> exact hw
    exact ⟨rfl, List.append_cancel_left h⟩
  | num n =>
    intro w s u hs hu h
    have hw := exists_of_kind w
    rw [kind_eq_of_append t h] at hw
    obtain ⟨m, rfl⟩ : ∃ m, w = num m := hw
    obtain ⟨rfl, hsu⟩ := cancels_num t n hs hu h
    exact ⟨rfl, hsu⟩
  | str x =>
    intro w s u hs hu h
    have hw := exists_of_kind w
    rw [kind_eq_of_append t h] at hw
    obtain ⟨y, rfl⟩ : ∃ y, w = str y := hw
    obtain ⟨rfl, hsu⟩ := quote_append_injective h
    exact ⟨rfl, hsu⟩
  | arr elems ih =>
    intro w s u hs hu h
    have hw := exists_of_kind w
    rw [kind_eq_of_append t h] at hw
    obtain ⟨elems', rfl⟩ : ∃ elems', w = arr elems' := hw
    rw [stringify_arr, stringify_arr] at h
    obtain ⟨rfl, hsu⟩ := listText_append_injective (by decide) ih
      (fun v s ↦ head?_stringify_append_ne t v s (by decide)) (List.tail_eq_of_cons_eq h)
    exact ⟨rfl, hsu⟩
  | obj fields ih =>
    intro w s u hs hu h
    have hw := exists_of_kind w
    rw [kind_eq_of_append t h] at hw
    obtain ⟨fields', rfl⟩ : ∃ fields', w = obj fields' := hw
    rw [stringify_obj, stringify_obj] at h
    have hfield : ∀ f ∈ fields, Cancels (fun f ↦ fieldText (f.1, stringify t f.2)) f := by
      intro f hf g s u hs hu h
      simp only [fieldText, List.append_assoc] at h
      obtain ⟨hkey, hvalue⟩ := quote_append_injective h
      obtain ⟨hv, hsu⟩ := ih f hf g.2 s u hs hu (List.tail_eq_of_cons_eq hvalue)
      exact ⟨Prod.ext hkey hv, hsu⟩
    obtain ⟨rfl, hsu⟩ := listText_append_injective (by decide) hfield
      (fun f s h ↦ absurd (Option.some.inj h) (by decide)) (List.tail_eq_of_cons_eq h)
    exact ⟨rfl, hsu⟩

/-- **The text determines the value.** -/
theorem stringify_injective : Function.Injective (stringify t) := by
  intro v w h
  have hnil : Ends [] := by
    rintro c ⟨⟩
  refine (cancels_stringify t v w [] [] hnil hnil ?_).1
  rw [List.append_nil, List.append_nil, h]

end Json
