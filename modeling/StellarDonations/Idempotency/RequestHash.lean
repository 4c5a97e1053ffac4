import StellarDonations.Errors
import StellarDonations.Text.Json

/-!
# The hash of a request

`IdempotencyService.generateRequestHash`: the digest of the body's text, with the keys in a fixed
order. The order is given to `JSON.stringify` as the list of the keys of the body, and such a list
is also a filter: below the top level only those keys are written. A body with objects below the top
level therefore has the hash of bodies that differ from it (`hash_exact_iff`).
-/

namespace StellarDonations.Idempotency

open Json

universe u

variable {ν : Type u}

/-! ## The function -/

/-- `Object.keys`. Arrays and strings have their indices as keys. -/
def objectKeys : Json ν → Except AppError (List String)
  | .null => .error (.wrongType "Cannot convert undefined or null to object")
  | .bool _ => .ok []
  | .num _ => .ok []
  | .str s => .ok ((List.range (JsString.codeUnits s).length).map toString)
  | .arr elems => .ok ((List.range elems.length).map toString)
  | .obj fields => .ok (fields.map Prod.fst)

/-- `JSON.stringify(value, keys)`: of every object, the listed keys in the order of the list. -/
def stringifyKeys (t : NumberText ν) (keys : List String) (v : Json ν) : String :=
  String.ofList (stringify t (mapFields (select keys) v))

def generateRequestHash (digest : String → String) (t : NumberText ν) (requestData : Json ν) :
    Except AppError String := do
  let keys ← objectKeys requestData
  return digest (stringifyKeys t (sortStrings keys) requestData)

/-! ## What is hashed -/

/-- The keys that are written, `[]` for `null`, which is never hashed. -/
def keyList (v : Json ν) : List String := sortStrings ((objectKeys v).toOption.getD [])

def hashed (v : Json ν) : Json ν := mapFields (select (keyList v)) v

/-- The number of objects below the top level. -/
def nested : Json ν → ℕ
  | .obj fields => (fields.map fun f ↦ objects f.2).sum
  | v => objects v

theorem hashed_obj {fields : List (String × Json ν)} (hnodup : (fields.map Prod.fst).Nodup) :
    hashed (.obj fields) =
      .obj (sortFields (mapValues (select (keyList (.obj fields))) fields)) := by
  have hselect : select (sortStrings ((mapValues (select (keyList (.obj fields))) fields).map
      Prod.fst)) (mapValues (select (keyList (.obj fields))) fields) =
        sortFields (mapValues (select (keyList (.obj fields))) fields) :=
    select_sortStrings (by rwa [map_fst_mapValues])
  rw [map_fst_mapValues] at hselect
  rw [hashed, mapFields_obj]
  exact congrArg Json.obj hselect

theorem nested_obj_eq_zero {fields : List (String × Json ν)} :
    nested (.obj fields) = 0 ↔ ∀ f ∈ fields, objects f.2 = 0 := by
  rw [nested, List.sum_eq_zero_iff_forall_eq_nat]
  simp only [List.forall_mem_map]

theorem mapValues_of_nested_eq_zero {fields : List (String × Json ν)}
    {f : List (String × Json ν) → List (String × Json ν)} (h : nested (.obj fields) = 0) :
    mapValues f fields = fields := by
  refine (List.map_congr_left fun x hx ↦ ?_).trans (List.map_id _)
  rw [mapFields_of_objects_eq_zero (nested_obj_eq_zero.mp h x hx)]
  rfl

theorem nested_sortFields_mapValues {f : List (String × Json ν) → List (String × Json ν)}
    (fields : List (String × Json ν)) :
    nested (.obj (sortFields (mapValues f fields))) = 0 ↔ nested (.obj fields) = 0 := by
  rw [nested_obj_eq_zero, nested_obj_eq_zero]
  simp only [(perm_sortFields _).mem_iff, mapValues, List.forall_mem_map, objects_mapFields_eq_zero]

theorem nested_hashed {v : Json ν} (hv : Distinct v) : nested (hashed v) = 0 ↔ nested v = 0 := by
  cases v with
  | obj fields =>
    rw [hashed_obj (distinct_obj.mp hv).1]
    exact nested_sortFields_mapValues fields
  | arr elems =>
    have h := objects_mapFields_eq_zero (f := select (keyList (.arr elems))) (Json.arr elems)
    rw [hashed]
    rw [mapFields_arr] at h ⊢
    exact h
  | _ => exact Iff.rfl

theorem nested_sortKeys (v : Json ν) : nested (sortKeys v) = 0 ↔ nested v = 0 := by
  cases v with
  | obj fields =>
    rw [sortKeys, mapFields_obj]
    exact nested_sortFields_mapValues fields
  | arr elems =>
    have h := objects_mapFields_eq_zero (f := sortFields) (Json.arr elems)
    rw [sortKeys]
    rw [mapFields_arr] at h ⊢
    exact h
  | _ => exact Iff.rfl

/-- Of a body without objects below the top level everything is hashed, in the order of its
keys. -/
theorem hashed_eq_sortKeys {v : Json ν} (hv : Distinct v) (hflat : nested v = 0) :
    hashed v = sortKeys v := by
  cases v with
  | obj fields =>
    rw [hashed_obj (distinct_obj.mp hv).1, sortKeys, mapFields_obj,
      mapValues_of_nested_eq_zero hflat, mapValues_of_nested_eq_zero hflat]
  | _ =>
    rw [hashed, sortKeys, mapFields_of_objects_eq_zero hflat, mapFields_of_objects_eq_zero hflat]

/-! ## Exactness -/

theorem objectKeys_eq_ok {v : Json ν} (h : v ≠ .null) : ∃ ks, objectKeys v = .ok ks := by
  cases v with
  | null => exact absurd rfl h
  | _ => exact ⟨_, rfl⟩

theorem hashed_eq_null {v : Json ν} : hashed v = .null ↔ v = .null := by
  cases v with
  | arr elems =>
    rw [hashed, mapFields_arr]
    exact iff_of_false nofun nofun
  | obj fields =>
    rw [hashed, mapFields_obj]
    exact iff_of_false nofun nofun
  | null => exact Iff.rfl
  | _ => exact iff_of_false nofun nofun

section Digest

variable {digest : String → String} {t : NumberText ν}

theorem generateRequestHash_eq_ok {v : Json ν} (h : v ≠ .null) :
    generateRequestHash digest t v = .ok (digest (String.ofList (stringify t (hashed v)))) := by
  obtain ⟨ks, hks⟩ := objectKeys_eq_ok h
  have hlist : keyList v = sortStrings ks := by
    rw [keyList, hks]
    rfl
  rw [generateRequestHash, hks, hashed, hlist]
  rfl

/-- Two hashes are equal exactly when the same is hashed. -/
theorem generateRequestHash_eq_iff (hdigest : Function.Injective digest) {v w : Json ν} :
    generateRequestHash digest t v = generateRequestHash digest t w ↔ hashed v = hashed w := by
  by_cases hv : v = .null
  · subst hv
    by_cases hw : w = .null
    · subst hw
      exact iff_of_true rfl rfl
    · refine iff_of_false ?_ fun h ↦ hw (hashed_eq_null.mp h.symm)
      rw [generateRequestHash_eq_ok hw]
      exact nofun
  · by_cases hw : w = .null
    · subst hw
      refine iff_of_false ?_ fun h ↦ hv (hashed_eq_null.mp h)
      rw [generateRequestHash_eq_ok hv]
      exact nofun
    · rw [generateRequestHash_eq_ok hv, generateRequestHash_eq_ok hw]
      constructor
      · intro h
        exact stringify_injective t (String.ofList_inj.mp (hdigest (Except.ok.inj h)))
      · intro h
        rw [h]

/-- The value with another field in every object below the top level. -/
def growBelow (k : String) : Json ν → Json ν
  | .obj fields => .obj (mapValues (· ++ [(k, .null)]) fields)
  | v => grow k v

theorem keyList_growBelow (k : String) (v : Json ν) : keyList (growBelow k v) = keyList v := by
  cases v with
  | obj fields =>
    rw [growBelow, keyList, objectKeys, map_fst_mapValues]
    rfl
  | arr elems =>
    rw [growBelow, grow, mapFields_arr, keyList, objectKeys, List.length_map]
    · rfl
    · intro fields hfields
      cases hfields
  | _ => rfl

theorem hashed_growBelow {k : String} {v : Json ν} (hk : k ∉ keyList v) :
    hashed (growBelow k v) = hashed v := by
  rw [hashed, keyList_growBelow, hashed]
  cases v with
  | obj fields =>
    rw [growBelow, mapFields_obj, mapFields_obj]
    congr 2
    rw [mapValues, mapValues, mapValues, List.map_map]
    refine List.map_congr_left fun f _ ↦ ?_
    exact congrArg (Prod.mk f.1) (mapFields_select_grow hk f.2)
  | arr elems => exact mapFields_select_grow hk _
  | _ => rfl

theorem weigh_growBelow (k : String) (v : Json ν) :
    weigh id (growBelow k v) = weigh id v + nested v := by
  cases v with
  | obj fields =>
    rw [growBelow, weigh_obj, weigh_obj, nested, mapValues, List.length_map, List.map_map,
      add_assoc, ← List.sum_map_add]
    congr 2
    exact List.map_congr_left fun f _ ↦ weigh_grow k f.2
  | _ => exact weigh_grow k _

theorem distinct_growBelow {k : String} {v : Json ν} (hv : Distinct v) (hk : k ∉ keys v) :
    Distinct (growBelow k v) := by
  cases v with
  | obj fields =>
    obtain ⟨hnodup, hfields⟩ := distinct_obj.mp hv
    rw [mem_keys_obj, not_or] at hk
    rw [growBelow, distinct_obj, map_fst_mapValues, mapValues, List.forall_mem_map]
    exact ⟨hnodup, fun f hf ↦ distinct_grow (hfields f hf) fun h ↦ hk.2 ⟨f, hf, h⟩⟩
  | _ => exact distinct_grow hv hk

/-- A body with objects below its top level shares its hash with one that differs. -/
theorem exists_hashed_eq_not_same {v : Json ν} (hv : Distinct v) (hnested : nested v ≠ 0) :
    ∃ w, Distinct w ∧ hashed w = hashed v ∧ ¬Same w v := by
  obtain ⟨k, hk⟩ := exists_notMem_keys (keys v ++ keyList v)
  obtain ⟨hk, hlist⟩ := not_or.mp (mt List.mem_append.mpr hk)
  refine ⟨growBelow k v, distinct_growBelow hv hk, hashed_growBelow hlist, fun hsame ↦ ?_⟩
  have hweight := congrArg (weigh id) hsame
  rw [sortKeys, weigh_mapFields_of_perm perm_sortFields, weigh_mapFields_of_perm perm_sortFields,
    weigh_growBelow] at hweight
  omega

/-- **The hash is exact on flat bodies only.** A body has its hash in common with exactly the bodies
that are equal to it up to the order of keys if and only if it has no object below its top level. -/
theorem hash_exact_iff (hdigest : Function.Injective digest) {v : Json ν} (hv : Distinct v) :
    (∀ w, Distinct w →
      (generateRequestHash digest t v = generateRequestHash digest t w ↔ Same v w)) ↔
      nested v = 0 := by
  constructor
  · intro h
    by_contra hnested
    obtain ⟨w, hw, hhashed, hsame⟩ := exists_hashed_eq_not_same hv hnested
    exact hsame (((h w hw).mp ((generateRequestHash_eq_iff hdigest).mpr hhashed.symm)).symm)
  · intro hflat w hw
    rw [generateRequestHash_eq_iff hdigest]
    constructor
    · intro h
      have hflat' : nested w = 0 := by
        rw [← nested_hashed hw, ← h, nested_hashed hv, hflat]
      rw [Same, ← hashed_eq_sortKeys hv hflat, ← hashed_eq_sortKeys hw hflat', h]
    · intro h
      have hflat' : nested w = 0 := by
        rw [← nested_sortKeys, ← h, nested_sortKeys, hflat]
      rw [hashed_eq_sortKeys hv hflat, hashed_eq_sortKeys hw hflat']
      exact h

end Digest

end StellarDonations.Idempotency
