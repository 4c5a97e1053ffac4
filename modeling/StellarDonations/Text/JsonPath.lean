import StellarDonations.Text.Json

/-!
# Paths in a JSON value

Reading and writing along a path of keys. Arrays have their indices for keys. What is read after a
write depends on how the two paths compare: below the written path it is what was written, beside it
what was there, and above it an object, as long as the write goes through objects only. Writing what
is there already changes nothing. So the values that a list of paths leads to can be collected in
one object, and the order in which they are written does not matter (`Projection`).
-/

namespace Json

universe u

variable {ν : Type u}

/-! ## One key -/

/-- A key that is an index, written as numbers are. -/
def arrayIndex (key : String) : Option ℕ :=
  match key.toNat? with
  | some n => if toString n = key then some n else none
  | none => none

/-- The value under a key of an object or at an index of an array. -/
def property (v : Json ν) (key : String) : Option (Json ν) :=
  match v with
  | obj fields => fields.lookup key
  | arr elems => (arrayIndex key).bind (elems[·]?)
  | _ => none

/-- The fields of an object with the value under a key, which comes last if it is new. -/
def assignField (key : String) (x : Json ν) : List (String × Json ν) → List (String × Json ν)
  | [] => [(key, x)]
  | (k, v) :: rest => if k = key then (k, x) :: rest else (k, v) :: assignField key x rest

/-- The elements of an array with the value at an index; what is skipped is `null` in the text. -/
def assignIndex (i : ℕ) (x : Json ν) (elems : List (Json ν)) : List (Json ν) :=
  if i < elems.length then elems.set i x
  else elems ++ List.replicate (i - elems.length) null ++ [x]

/-- `v[key] = x`. Keys of an array that are no indices are not part of its text. -/
def assign (v : Json ν) (key : String) (x : Json ν) : Json ν :=
  match v with
  | obj fields => obj (assignField key x fields)
  | arr elems =>
    match arrayIndex key with
    | some i => arr (assignIndex i x elems)
    | none => arr elems
  | v => v

theorem lookup_assignField (key key' : String) (x : Json ν) (fields : List (String × Json ν)) :
    (assignField key x fields).lookup key' =
      if key' = key then some x else fields.lookup key' := by
  induction fields with
  | nil =>
    rw [assignField, List.lookup_cons]
    by_cases h : key' = key
    · rw [if_pos h, beq_iff_eq.mpr h]
    · rw [if_neg h, beq_eq_false_iff_ne.mpr h]
  | cons f rest ih =>
    obtain ⟨k, v⟩ := f
    rw [assignField]
    by_cases hk : k = key
    · subst hk
      rw [if_pos rfl, List.lookup_cons, List.lookup_cons]
      by_cases h : key' = k
      · rw [if_pos h, beq_iff_eq.mpr h]
      · rw [if_neg h, beq_eq_false_iff_ne.mpr h]
    · rw [if_neg hk, List.lookup_cons, List.lookup_cons, ih]
      by_cases h : key' = k
      · have hne : key' ≠ key := fun heq ↦ hk (h.symm.trans heq)
        simp only [beq_iff_eq.mpr h, if_neg hne]
      · rw [beq_eq_false_iff_ne.mpr h]

theorem assignField_of_lookup {key : String} {x : Json ν} {fields : List (String × Json ν)}
    (h : fields.lookup key = some x) : assignField key x fields = fields := by
  induction fields with
  | nil => cases h
  | cons f rest ih =>
    obtain ⟨k, v⟩ := f
    rw [List.lookup_cons] at h
    rw [assignField]
    by_cases hk : k = key
    · rw [beq_iff_eq.mpr hk.symm] at h
      rw [if_pos hk, Option.some.inj h]
    · rw [beq_eq_false_iff_ne.mpr (Ne.symm hk)] at h
      rw [if_neg hk, ih h]

theorem assign_of_property {v x : Json ν} {key : String} (h : v.property key = some x) :
    v.assign key x = v := by
  cases v with
  | null | bool b | num n | str s => rfl
  | obj fields => exact congrArg obj (assignField_of_lookup h)
  | arr elems =>
    rw [property, Option.bind_eq_some_iff] at h
    obtain ⟨i, hi, hx⟩ := h
    obtain ⟨hlt, rfl⟩ := List.getElem?_eq_some_iff.mp hx
    rw [assign, hi]
    change arr (assignIndex i elems[i] elems) = arr elems
    rw [assignIndex, if_pos hlt, List.set_getElem_self]

/-! ## Paths -/

def walk : Json ν → List String → Option (Json ν)
  | v, [] => some v
  | v, key :: rest => (v.property key).bind fun w ↦ walk w rest

@[simp] theorem walk_nil (v : Json ν) : v.walk [] = some v := rfl

theorem walk_cons (v : Json ν) (key : String) (rest : List String) :
    v.walk (key :: rest) = (v.property key).bind fun w ↦ walk w rest := rfl

theorem walk_append (v : Json ν) (p q : List String) :
    v.walk (p ++ q) = (v.walk p).bind fun w ↦ w.walk q := by
  induction p generalizing v with
  | nil => rfl
  | cons key rest ih =>
    rw [List.cons_append, walk_cons, walk_cons]
    cases v.property key with
    | none => rfl
    | some w => exact ih w

/-- What a write goes on with: what is there if it is an object or an array, or a new object. -/
def container : Option (Json ν) → Json ν
  | some (obj fields) => obj fields
  | some (arr elems) => arr elems
  | _ => obj []

/-- Write a value at the end of a path. -/
def setAt : Json ν → List String → Json ν → Json ν
  | v, [], _ => v
  | v, [key], x => v.assign key x
  | v, key :: next :: rest, x =>
    v.assign key (setAt (container (v.property key)) (next :: rest) x)

/-- Writing what is there already changes nothing. -/
theorem setAt_of_walk {v x : Json ν} {p : List String} (h : v.walk p = some x) (hp : p ≠ []) :
    v.setAt p x = v := by
  induction p generalizing v with
  | nil => exact absurd rfl hp
  | cons key rest ih =>
    rw [walk_cons, Option.bind_eq_some_iff] at h
    obtain ⟨w, hw, hx⟩ := h
    cases rest with
    | nil =>
      obtain rfl : w = x := Option.some.inj hx
      exact assign_of_property hw
    | cons next rest =>
      have hcontainer : container (some w) = w := by
        cases w with
        | obj fields => rfl
        | arr elems => rfl
        | null | bool b | num n | str s => cases hx
      rw [setAt, hw, hcontainer, ih hx (List.cons_ne_nil _ _), assign_of_property hw]

/-! ## Writing through objects -/

/-- Above the end of the path there are objects, as far as there is anything. -/
def Open (v : Json ν) (p : List String) : Prop :=
  ∀ q, q <+: p → q ≠ p → ∀ w, v.walk q = some w → ∃ fields, w = obj fields

theorem open_nil_obj (p : List String) : Open (obj [] : Json ν) p := by
  intro q _ _ w hw
  cases q with
  | nil => exact ⟨[], (Option.some.inj hw).symm⟩
  | cons key rest => cases hw

namespace Open

variable {v : Json ν} {key : String} {rest : List String}

theorem exists_obj (h : Open v (key :: rest)) : ∃ fields, v = obj fields :=
  h [] List.nil_prefix (List.cons_ne_nil _ _).symm v rfl

theorem of_property {w : Json ν} (h : Open v (key :: rest)) (hw : v.property key = some w) :
    Open w rest := by
  intro q hq hne u hu
  refine h (key :: q) ((List.prefix_cons_inj key).mpr hq) (fun heq ↦ hne (List.cons.inj heq).2) u ?_
  rw [walk_cons, hw]
  exact hu

theorem container_eq {next : String} {w : Json ν} (h : Open v (key :: next :: rest))
    (hw : v.property key = some w) : container (v.property key) = w := by
  obtain ⟨fields, rfl⟩ := (h.of_property hw).exists_obj
  rw [hw]
  rfl

theorem container {next : String} (h : Open v (key :: next :: rest)) :
    Open (container (v.property key)) (next :: rest) := by
  cases hw : v.property key with
  | none => exact open_nil_obj _
  | some w =>
    have heq := h.container_eq hw
    rw [hw] at heq
    rw [heq]
    exact h.of_property hw

end Open

variable {v x : Json ν} {p q : List String}

theorem property_assign {fields : List (String × Json ν)} (key key' : String) :
    ((obj fields).assign key x).property key' =
      if key' = key then some x else (obj fields).property key' :=
  lookup_assignField key key' x fields

theorem walk_setAt_append (hopen : Open v p) (hp : p ≠ []) (s : List String) :
    (v.setAt p x).walk (p ++ s) = x.walk s := by
  induction p generalizing v with
  | nil => exact absurd rfl hp
  | cons key rest ih =>
    obtain ⟨fields, rfl⟩ := hopen.exists_obj
    cases rest with
    | nil =>
      rw [setAt, List.cons_append, walk_cons, property_assign, if_pos rfl]
      rfl
    | cons next rest =>
      rw [setAt, List.cons_append, walk_cons, property_assign, if_pos rfl]
      exact ih hopen.container (List.cons_ne_nil _ _)

theorem walk_setAt_of_beside (hopen : Open v p) (hpq : ¬p <+: q) (hqp : ¬q <+: p) :
    (v.setAt p x).walk q = v.walk q := by
  induction p generalizing v q with
  | nil => exact absurd List.nil_prefix hpq
  | cons key rest ih =>
    obtain ⟨fields, rfl⟩ := hopen.exists_obj
    cases q with
    | nil => exact absurd List.nil_prefix hqp
    | cons key' q =>
      by_cases hkey : key' = key
      · subst hkey
        rw [List.prefix_cons_inj] at hpq hqp
        cases rest with
        | nil => exact absurd List.nil_prefix hpq
        | cons next rest =>
          rw [setAt, walk_cons, walk_cons, property_assign, if_pos rfl]
          refine (ih hopen.container hpq hqp).trans ?_
          cases hw : (obj fields).property key' with
          | none =>
            cases q with
            | nil => exact absurd List.nil_prefix hqp
            | cons _ _ => rfl
          | some w =>
            have heq := hopen.container_eq hw
            rw [hw] at heq
            rw [heq]
            rfl
      · have hsame : ((obj fields).setAt (key :: rest) x).property key' =
            (obj fields).property key' := by
          cases rest <;> rw [setAt, property_assign, if_neg hkey]
        rw [walk_cons, walk_cons, hsame]

theorem walk_setAt_of_prefix (hopen : Open v p) (hqp : q <+: p) (hne : q ≠ p) :
    ∃ fields, (v.setAt p x).walk q = some (obj fields) := by
  induction p generalizing v q with
  | nil => exact absurd (List.prefix_nil.mp hqp) hne
  | cons key rest ih =>
    obtain ⟨fields, rfl⟩ := hopen.exists_obj
    cases q with
    | nil => cases rest <;> exact ⟨_, rfl⟩
    | cons key' q =>
      obtain ⟨rfl, hqrest⟩ := List.cons_prefix_cons.mp hqp
      have hrest : q ≠ rest := fun heq ↦ hne (by rw [heq])
      cases rest with
      | nil => exact absurd (List.prefix_nil.mp hqrest) hrest
      | cons next rest =>
        rw [setAt, walk_cons, property_assign, if_pos rfl]
        exact ih hopen.container hqrest hrest

/-! ## Projections -/

/-- An object with what some paths lead to in a value, and nothing else. -/
structure Projection (v : Json ν) (S : Set (List String)) (w : Json ν) : Prop where
  root : ∃ fields, w = obj fields
  below : ∀ p ∈ S, ∀ q, p <+: q → w.walk q = v.walk q
  above : ∀ p ∈ S, ∀ q, q <+: p → (∀ p' ∈ S, ¬p' <+: q) → ∃ fields, w.walk q = some (obj fields)
  beside : ∀ q, q ≠ [] → (∀ p ∈ S, ¬p <+: q ∧ ¬q <+: p) → w.walk q = none

namespace Projection

variable {w w' : Json ν} {S : Set (List String)}

theorem nil (v : Json ν) : Projection v ∅ (obj []) where
  root := ⟨[], rfl⟩
  below _ hp := hp.elim
  above _ hp := hp.elim
  beside q hq _ := by
    cases q with
    | nil => exact absurd rfl hq
    | cons key rest => rfl

theorem below_or_obj (h : Projection v S w) {u : Json ν} (hu : w.walk q = some u) :
    (∃ p ∈ S, p <+: q) ∨ (q = [] ∨ ∃ p ∈ S, q <+: p) ∧ ∃ fields, u = obj fields := by
  by_cases hcovered : ∃ p ∈ S, p <+: q
  · exact Or.inl hcovered
  · have hcover : ∀ p ∈ S, ¬p <+: q := fun p hp hpre ↦ hcovered ⟨p, hp, hpre⟩
    refine Or.inr ?_
    by_cases hnil : q = []
    · subst hnil
      obtain rfl : w = u := Option.some.inj hu
      exact ⟨Or.inl rfl, h.root⟩
    · by_cases habove : ∃ p ∈ S, q <+: p
      · obtain ⟨p, hp, hpre⟩ := habove
        obtain ⟨fields, hfields⟩ := h.above p hp q hpre hcover
        exact ⟨Or.inr ⟨p, hp, hpre⟩, fields, Option.some.inj (hu.symm.trans hfields)⟩
      · have hbeside := h.beside q hnil fun p hp ↦ ⟨hcover p hp, fun hpre ↦ habove ⟨p, hp, hpre⟩⟩
        rw [hbeside] at hu
        cases hu

theorem isOpen (h : Projection v S w) (hp : ∀ p' ∈ S, ¬p' <+: p) : Open w p := by
  intro q hq _ u hu
  rcases h.below_or_obj hu with ⟨p', hp', hpre⟩ | ⟨-, hobj⟩
  · exact absurd (hpre.trans hq) (hp p' hp')
  · exact hobj

theorem insert_of_covered (h : Projection v S w) {p' : List String} (hp' : p' ∈ S)
    (hpre : p' <+: p) : Projection v (insert p S) w where
  root := h.root
  below := by
    rintro q (rfl | hq) r hqr
    · exact h.below p' hp' r (hpre.trans hqr)
    · exact h.below q hq r hqr
  above := by
    rintro q hq r hrq hcover
    have hcover' : ∀ p'' ∈ S, ¬p'' <+: r := fun p'' hp'' ↦ hcover p'' (Or.inr hp'')
    rcases hq with rfl | hq
    · rcases List.prefix_or_prefix_of_prefix hpre hrq with hle | hle
      · exact absurd hle (hcover' p' hp')
      · exact h.above p' hp' r hle hcover'
    · exact h.above q hq r hrq hcover'
  beside q hq hbeside := h.beside q hq fun p'' hp'' ↦ hbeside p'' (Or.inr hp'')

theorem setAt (h : Projection v S w) (hx : v.walk p = some x) (hp : p ≠ []) :
    Projection v (insert p S) (w.setAt p x) := by
  by_cases hcovered : ∃ p' ∈ S, p' <+: p
  · obtain ⟨p', hp', hpre⟩ := hcovered
    rw [setAt_of_walk ((h.below p' hp' p hpre).trans hx) hp]
    exact h.insert_of_covered hp' hpre
  · have hopen : Open w p := h.isOpen fun p' hp' hpre ↦ hcovered ⟨p', hp', hpre⟩
    constructor
    · obtain ⟨fields, hfields⟩ := walk_setAt_of_prefix (x := x) hopen List.nil_prefix hp.symm
      exact ⟨fields, Option.some.inj hfields⟩
    · rintro q hq r hqr
      by_cases hpr : p <+: r
      · obtain ⟨s, rfl⟩ := hpr
        rw [walk_setAt_append hopen hp, walk_append, hx]
        rfl
      · rcases hq with rfl | hq
        · exact absurd hqr hpr
        · have hrp : ¬r <+: p := fun hrp ↦ hcovered ⟨q, hq, hqr.trans hrp⟩
          rw [walk_setAt_of_beside hopen hpr hrp]
          exact h.below q hq r hqr
    · rintro q hq r hrq hcover
      have hpr : ¬p <+: r := hcover p (Or.inl rfl)
      by_cases hrp : r <+: p
      · exact walk_setAt_of_prefix hopen hrp fun heq ↦ hpr (heq ▸ List.prefix_rfl)
      · rcases hq with rfl | hq
        · exact absurd hrq hrp
        · rw [walk_setAt_of_beside hopen hpr hrp]
          exact h.above q hq r hrq fun p' hp' ↦ hcover p' (Or.inr hp')
    · intro q hq hbeside
      obtain ⟨hpq, hqp⟩ := hbeside p (Or.inl rfl)
      rw [walk_setAt_of_beside hopen hpq hqp]
      exact h.beside q hq fun p' hp' ↦ hbeside p' (Or.inr hp')

/-- A projection is determined by the value and the paths, up to the order of keys. -/
theorem walk_eq_or_obj (h : Projection v S w) (h' : Projection v S w') (q : List String) :
    w.walk q = w'.walk q ∨
      (∃ fields, w.walk q = some (obj fields)) ∧ ∃ fields, w'.walk q = some (obj fields) := by
  by_cases hcovered : ∃ p ∈ S, p <+: q
  · obtain ⟨p, hp, hpre⟩ := hcovered
    exact Or.inl ((h.below p hp q hpre).trans (h'.below p hp q hpre).symm)
  · have hcover : ∀ p ∈ S, ¬p <+: q := fun p hp hpre ↦ hcovered ⟨p, hp, hpre⟩
    by_cases habove : ∃ p ∈ S, q <+: p
    · obtain ⟨p, hp, hpre⟩ := habove
      exact Or.inr ⟨h.above p hp q hpre hcover, h'.above p hp q hpre hcover⟩
    · cases q with
      | nil =>
        obtain ⟨fields, rfl⟩ := h.root
        obtain ⟨fields', rfl⟩ := h'.root
        exact Or.inr ⟨⟨fields, rfl⟩, fields', rfl⟩
      | cons key rest =>
        have hbeside : ∀ p ∈ S, ¬p <+: key :: rest ∧ ¬key :: rest <+: p :=
          fun p hp ↦ ⟨hcover p hp, fun hpre ↦ habove ⟨p, hp, hpre⟩⟩
        have hne : key :: rest ≠ [] := List.cons_ne_nil _ _
        exact Or.inl ((h.beside _ hne hbeside).trans (h'.beside _ hne hbeside).symm)

end Projection

end Json
