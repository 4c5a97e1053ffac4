import StellarDonations.Text.JsonPath

/-!
# Selecting fields of a response

The middleware `fieldFilter`: the paths of `?fields` are checked, and the data of the response is
built anew from what is found at their ends. What is found is shared with the response, and a path
that continues another one writes into it what it has there already, so the model writes into
copies.

The result has what the paths lead to and nothing else, whatever their order. Blocked fields are
looked for at the first key of a path only, so they are in the result whenever a path goes through
one further down, or leads to a value with one inside (`filters_iff`). Properties that objects and
arrays inherit are read like any others; what the program does then is not followed here.
-/

namespace StellarDonations.FieldFilter

open JsString Json

/-! ## Paths -/

def blockedFields : List String := ["password", "secret", "privateKey", "secretKey"]

def split (c : Char) (s : String) : List String := (s.toList.splitOn c).map String.ofList

/-- `/^[a-zA-Z0-9_]+$/`. -/
def isSegment (seg : String) : Bool :=
  seg ≠ "" && seg.toList.all fun c ↦
    ('a' ≤ c && c ≤ 'z') || ('A' ≤ c && c ≤ 'Z') || ('0' ≤ c && c ≤ '9') || c = '_'

def isValidFieldPath (path : String) : Bool := path ≠ "" && (split '.' path).all isSegment

def pathError (path : String) : Option String :=
  let topLevel := (split '.' path).headD ""
  if !isValidFieldPath path then
    some ("Invalid field path: \"" ++ path ++
      "\". Field paths must contain only alphanumeric characters, underscores, and dots.")
  else if topLevel ∈ blockedFields then
    some ("Field \"" ++ topLevel ++ "\" is not accessible.")
  else none

/-- What the middleware does with a request. -/
inductive Outcome where
  | next
  | rejected (message : String)
  | filtering (fieldPaths : List (List String))
  deriving DecidableEq

def fieldFilter (fieldsParam : Option String) : Outcome :=
  match fieldsParam with
  | none => .next
  | some fields =>
    if trim fields = "" then .next
    else
      let rawPaths := ((split ',' fields).map trim).filter (· ≠ "")
      match rawPaths.findSome? pathError with
      | some message => .rejected message
      | none => .filtering (rawPaths.map (split '.'))

/-! ## Reading -/

/-- The names of the properties of `Object.prototype`. -/
def objectPrototype : List String :=
  ["constructor", "__defineGetter__", "__defineSetter__", "hasOwnProperty", "__lookupGetter__",
    "__lookupSetter__", "isPrototypeOf", "propertyIsEnumerable", "toString", "valueOf",
    "__proto__", "toLocaleString"]

/-- The names of the properties of `Array.prototype`, and the length of an array. -/
def arrayPrototype : List String :=
  ["length", "at", "concat", "copyWithin", "fill", "find", "findIndex", "findLast",
    "findLastIndex", "lastIndexOf", "pop", "push", "reverse", "shift", "unshift", "slice", "sort",
    "splice", "includes", "indexOf", "join", "keys", "entries", "values", "forEach", "filter",
    "flat", "flatMap", "map", "every", "some", "reduce", "reduceRight", "toReversed", "toSorted",
    "toSpliced", "with"]

variable {ν : Type}

/-- What is found under a key or at the end of a path. -/
inductive Found (ν : Type) where
  | absent
  | own (v : Json ν)
  | inherited

/-- `current[seg]`. -/
def getProperty (current : Json ν) (seg : String) : Found ν :=
  match current with
  | .obj fields =>
    if seg = "__proto__" then .inherited
    else match fields.lookup seg with
      | some v => .own v
      | none => if seg ∈ objectPrototype then .inherited else .absent
  | .arr elems =>
    match (arrayIndex seg).bind (elems[·]?) with
    | some v => .own v
    | none => if seg ∈ objectPrototype ∨ seg ∈ arrayPrototype then .inherited else .absent
  | _ => .absent

/-- `getNestedValue`. Nothing is found in an inherited function or in the length of an array. -/
def getNestedValue : Json ν → List String → Found ν
  | current, [] => .own current
  | current, seg :: rest =>
    match getProperty current seg with
    | .own v => getNestedValue v rest
    | .absent => .absent
    | .inherited => if seg = "__proto__" ∨ rest = [] then .inherited else .absent

def setNestedValue : Json ν → List String → Json ν → Json ν := setAt

/-! ## Filtering -/

/-- The loop of `filterObject`; there is no result once an inherited property has been read. -/
def pick (obj : Json ν) (result : Option (Json ν)) (segments : List String) : Option (Json ν) :=
  result.bind fun result ↦
    match getNestedValue obj segments with
    | .absent => some result
    | .own value => some (setNestedValue result segments value)
    | .inherited => none

def filterObject (fieldPaths : List (List String)) (v : Json ν) : Option (Json ν) :=
  match v with
  | .obj fields => fieldPaths.foldl (pick (.obj fields)) (some (.obj []))
  | v => some v

def applyFilter (body : Json ν) (fieldPaths : List (List String)) : Option (Json ν) :=
  match body with
  | .obj fields =>
    match fields.lookup "data" with
    | some (.arr items) =>
      (items.mapM (filterObject fieldPaths)).map fun filtered ↦ body.assign "data" (.arr filtered)
    | some (.obj data) =>
      (filterObject fieldPaths (.obj data)).map fun filtered ↦ body.assign "data" filtered
    | some _ => some body
    | none => filterObject fieldPaths body
  | .arr elems => filterObject fieldPaths (.arr elems)
  | _ => some body

/-! ## What a filter is for -/

/-- The values that are filtered: the data of the response, or the response itself. -/
def dataOf (body : Json ν) : List (Json ν) :=
  match body with
  | .obj fields =>
    match fields.lookup "data" with
    | some (.arr items) => items
    | some (.obj data) => [.obj data]
    | some _ => []
    | none => [body]
  | .arr _ => [body]
  | _ => []

/-- The response with other values in their place. -/
def withData (body : Json ν) (data : List (Json ν)) : Json ν :=
  match body, data with
  | .obj fields, data =>
    match fields.lookup "data", data with
    | some (.arr _), data => body.assign "data" (.arr data)
    | some (.obj _), v :: _ => body.assign "data" v
    | none, v :: _ => v
    | _, _ => body
  | .arr _, v :: _ => v
  | _, _ => body

def IsLeaf : Json ν → Prop
  | .obj _ | .arr _ => False
  | _ => True

/-- No object at any depth has a blocked field. -/
def NoBlocked (v : Json ν) : Prop := ∀ q, ∀ k ∈ blockedFields, v.walk (q ++ [k]) = none

/-- What the filter makes of a value: no blocked field is left, every leaf is one of the value, and
every requested path that is there leads to what it led to. -/
structure Projects (fieldPaths : List (List String)) (v w : Json ν) : Prop where
  noBlocked : NoBlocked w
  leaf : ∀ q u, w.walk q = some u → IsLeaf u → v.walk q = some u
  requested : ∀ p ∈ fieldPaths, ∀ u, v.walk p = some u → w.walk p = some u

def shape : Json ν → Json ν
  | .obj _ => .obj []
  | .arr _ => .arr []
  | v => v

/-- The values are the same up to the order of keys. -/
def Agree (v w : Json ν) : Prop := ∀ q, (v.walk q).map shape = (w.walk q).map shape

/-- The data is projected to the paths, whatever their order, and nothing else is changed. -/
def Filters (body : Json ν) (fieldPaths : List (List String)) : Prop :=
  ∃ data, applyFilter body fieldPaths = some (withData body data) ∧
    List.Forall₂ (Projects fieldPaths) (dataOf body) data ∧
    ∀ fieldPaths', fieldPaths'.Perm fieldPaths →
      ∃ data', applyFilter body fieldPaths' = some (withData body data') ∧
        List.Forall₂ Agree data data'

/-- The paths read no property that is inherited. -/
def OwnOnly (fieldPaths : List (List String)) : Json ν → Prop
  | .obj fields => ∀ p ∈ fieldPaths, getNestedValue (.obj fields) p ≠ .inherited
  | _ => True

/-- No requested path that is there goes through a blocked field or leads to a value with one
inside. What is no object is not filtered. -/
def Harmless (fieldPaths : List (List String)) : Json ν → Prop
  | .obj fields => ∀ p ∈ fieldPaths, ∀ u, (Json.obj fields).walk p = some u →
    (∀ k ∈ blockedFields, k ∉ p) ∧ NoBlocked u
  | v => NoBlocked v

/-! ## Accepted paths -/

theorem split_ne_nil (c : Char) (s : String) : split c s ≠ [] := by
  rw [split, Ne, List.map_eq_nil_iff]
  exact List.splitOn_ne_nil c s.toList

theorem nil_notMem_of_filtering {fieldsParam : Option String} {fieldPaths : List (List String)}
    (h : fieldFilter fieldsParam = .filtering fieldPaths) : [] ∉ fieldPaths := by
  unfold fieldFilter at h
  split at h
  · cases h
  · split at h
    · cases h
    · simp only at h
      split at h
      · cases h
      · cases h
        intro hnil
        obtain ⟨path, -, hpath⟩ := List.mem_map.mp hnil
        exact split_ne_nil '.' path hpath

/-! ## Reading own properties -/

/-- What is found along a path of own properties. -/
def Found.ofOption : Option (Json ν) → Found ν
  | some v => .own v
  | none => .absent

theorem getProperty_eq {v : Json ν} {seg : String} (h : getProperty v seg ≠ .inherited) :
    getProperty v seg = .ofOption (v.property seg) := by
  cases v with
  | null | bool b | num n | str s => rfl
  | obj fields =>
    rw [getProperty] at h ⊢
    rw [property]
    by_cases hproto : seg = "__proto__"
    · rw [if_pos hproto] at h
      exact absurd rfl h
    · rw [if_neg hproto] at h ⊢
      cases hlookup : fields.lookup seg with
      | some w => rfl
      | none =>
        rw [hlookup] at h
        exact if_neg fun hmem ↦ h (if_pos hmem)
  | arr elems =>
    rw [getProperty] at h ⊢
    rw [property]
    cases helem : (arrayIndex seg).bind (elems[·]?) with
    | some w => rfl
    | none =>
      rw [helem] at h
      exact if_neg fun hmem ↦ h (if_pos hmem)

theorem property_eq_none_of_inherited {v : Json ν} {seg : String} (hproto : seg ≠ "__proto__")
    (h : getProperty v seg = .inherited) : v.property seg = none := by
  cases v with
  | null | bool b | num n | str s => rfl
  | obj fields =>
    rw [getProperty, if_neg hproto] at h
    rw [property]
    cases hlookup : fields.lookup seg with
    | none => rfl
    | some w =>
      rw [hlookup] at h
      cases h
  | arr elems =>
    rw [getProperty] at h
    rw [property]
    cases helem : (arrayIndex seg).bind (elems[·]?) with
    | none => rfl
    | some w =>
      rw [helem] at h
      cases h

theorem getNestedValue_eq {v : Json ν} {p : List String} (h : getNestedValue v p ≠ .inherited) :
    getNestedValue v p = .ofOption (v.walk p) := by
  induction p generalizing v with
  | nil => rfl
  | cons seg rest ih =>
    rw [getNestedValue] at h ⊢
    rw [walk_cons]
    by_cases hinherited : getProperty v seg = .inherited
    · rw [hinherited] at h ⊢
      by_cases hend : seg = "__proto__" ∨ rest = []
      · exact absurd (if_pos hend) h
      · rw [property_eq_none_of_inherited (fun hproto ↦ hend (Or.inl hproto)) hinherited]
        exact if_neg hend
    · rw [getProperty_eq hinherited] at h ⊢
      cases hproperty : v.property seg with
      | none => rfl
      | some w =>
        rw [hproperty] at h
        exact ih h

/-! ## Filtering one value -/

def present (fieldPaths : List (List String)) (v : Json ν) : Set (List String) :=
  {p | p ∈ fieldPaths ∧ ∃ u, v.walk p = some u}

theorem present_concat_of_none {v : Json ν} {p : List String} (fieldPaths : List (List String))
    (h : v.walk p = none) : present (fieldPaths ++ [p]) v = present fieldPaths v := by
  ext q
  constructor
  · rintro ⟨hq, u, hu⟩
    rcases List.mem_append.mp hq with hq | hq
    · exact ⟨hq, u, hu⟩
    · obtain rfl := List.mem_singleton.mp hq
      rw [h] at hu
      cases hu
  · rintro ⟨hq, hu⟩
    exact ⟨List.mem_append_left _ hq, hu⟩

theorem present_concat_of_some {v x : Json ν} {p : List String} (fieldPaths : List (List String))
    (h : v.walk p = some x) : present (fieldPaths ++ [p]) v = insert p (present fieldPaths v) := by
  ext q
  constructor
  · rintro ⟨hq, hu⟩
    rcases List.mem_append.mp hq with hq | hq
    · exact Or.inr ⟨hq, hu⟩
    · exact Or.inl (List.mem_singleton.mp hq)
  · rintro (rfl | ⟨hq, hu⟩)
    · exact ⟨List.mem_append_right _ (List.mem_singleton_self q), x, h⟩
    · exact ⟨List.mem_append_left _ hq, hu⟩

theorem foldl_pick {v : Json ν} {fieldPaths : List (List String)} (hnil : [] ∉ fieldPaths)
    (hown : ∀ p ∈ fieldPaths, getNestedValue v p ≠ .inherited) :
    ∃ w, fieldPaths.foldl (pick v) (some (.obj [])) = some w ∧
      Projection v (present fieldPaths v) w := by
  induction fieldPaths using List.reverseRecOn with
  | nil =>
    have hempty : present [] v = ∅ := Set.eq_empty_of_forall_notMem fun p hp ↦ by cases hp.1
    exact ⟨.obj [], rfl, hempty ▸ Projection.nil v⟩
  | append_singleton fieldPaths p ih =>
    obtain ⟨w, hw, hproj⟩ := ih (fun h ↦ hnil (List.mem_append_left _ h))
      fun q hq ↦ hown q (List.mem_append_left _ hq)
    have hp : p ∈ fieldPaths ++ [p] := List.mem_append_right _ (List.mem_singleton_self p)
    have hpnil : p ≠ [] := fun heq ↦ hnil (heq ▸ hp)
    rw [List.foldl_append, hw, List.foldl_cons, List.foldl_nil, pick, Option.bind_some,
      getNestedValue_eq (hown p hp)]
    cases hwalk : v.walk p with
    | none =>
      rw [present_concat_of_none fieldPaths hwalk]
      exact ⟨w, rfl, hproj⟩
    | some x =>
      rw [present_concat_of_some fieldPaths hwalk]
      exact ⟨w.setAt p x, rfl, hproj.setAt hwalk hpnil⟩

/-- What the filter makes of an object is the projection; nothing else is changed. -/
def Selects (fieldPaths : List (List String)) (v w : Json ν) : Prop :=
  match v with
  | .obj fields => Projection (.obj fields) (present fieldPaths (.obj fields)) w
  | v => w = v

theorem exists_selects {v : Json ν} {fieldPaths : List (List String)} (hnil : [] ∉ fieldPaths)
    (hown : OwnOnly fieldPaths v) :
    ∃ w, filterObject fieldPaths v = some w ∧ Selects fieldPaths v w := by
  cases v with
  | obj fields => exact foldl_pick hnil hown
  | null | bool b | num n | str s | arr elems => exact ⟨_, rfl, rfl⟩

theorem projects_self {fieldPaths : List (List String)} {v : Json ν} :
    Projects fieldPaths v v ↔ NoBlocked v :=
  ⟨fun h ↦ h.noBlocked, fun h ↦ ⟨h, fun _ _ hu _ ↦ hu, fun _ _ _ hu ↦ hu⟩⟩

section Projection

variable {fieldPaths : List (List String)} {v w : Json ν}

theorem noBlocked_of_projection (h : Projection v (present fieldPaths v) w)
    (hharmless : ∀ p ∈ fieldPaths, ∀ u, v.walk p = some u →
      (∀ k ∈ blockedFields, k ∉ p) ∧ NoBlocked u) : NoBlocked w := by
  intro q k hk
  cases hu : w.walk (q ++ [k]) with
  | none => rfl
  | some u =>
    have hmem : k ∈ q ++ [k] := List.mem_append_right _ (List.mem_singleton_self k)
    exfalso
    rcases h.below_or_obj hu with ⟨p, ⟨hp, x, hx⟩, hpre⟩ | ⟨hempty | ⟨p, ⟨hp, x, hx⟩, hpre⟩, -⟩
    · rw [h.below p ⟨hp, x, hx⟩ _ hpre] at hu
      obtain ⟨s, hs⟩ := hpre
      rcases List.eq_nil_or_concat s with rfl | ⟨s, k', rfl⟩
      · rw [List.append_nil] at hs
        exact (hharmless p hp x hx).1 k hk (hs ▸ hmem)
      · rw [List.concat_eq_append, ← List.append_assoc] at hs
        obtain ⟨rfl, hk'⟩ := List.append_inj' hs rfl
        obtain rfl := List.singleton_inj.mp hk'
        rw [List.append_assoc, walk_append, hx, Option.bind_some,
          (hharmless p hp x hx).2 s k' hk] at hu
        cases hu
    · exact List.append_ne_nil_of_right_ne_nil _ (List.cons_ne_nil _ _) hempty
    · exact (hharmless p hp x hx).1 k hk (hpre.subset hmem)

theorem harmless_of_projection (h : Projection v (present fieldPaths v) w)
    (hblocked : NoBlocked w) {p : List String} (hp : p ∈ fieldPaths) {u : Json ν}
    (hu : v.walk p = some u) : (∀ k ∈ blockedFields, k ∉ p) ∧ NoBlocked u := by
  have hbelow := h.below p ⟨hp, u, hu⟩
  constructor
  · intro k hk hmem
    obtain ⟨q, rest, rfl⟩ := List.append_of_mem hmem
    have hw := (hbelow _ List.prefix_rfl).trans hu
    rw [List.append_cons, walk_append, hblocked q k hk] at hw
    cases hw
  · intro q k hk
    have hw := hbelow (p ++ (q ++ [k])) (List.prefix_append _ _)
    rw [← List.append_assoc, hblocked (p ++ q) k hk, List.append_assoc, walk_append, hu] at hw
    exact hw.symm

theorem projects_iff_of_projection (h : Projection v (present fieldPaths v) w) :
    Projects fieldPaths v w ↔ ∀ p ∈ fieldPaths, ∀ u, v.walk p = some u →
      (∀ k ∈ blockedFields, k ∉ p) ∧ NoBlocked u := by
  constructor
  · intro hprojects p hp u hu
    exact harmless_of_projection h hprojects.noBlocked hp hu
  · intro hharmless
    refine ⟨noBlocked_of_projection h hharmless, ?_, ?_⟩
    · intro q u hu hleaf
      rcases h.below_or_obj hu with ⟨p, hp, hpre⟩ | ⟨-, fields, rfl⟩
      · exact (h.below p hp q hpre).symm.trans hu
      · exact hleaf.elim
    · intro p hp u hu
      exact (h.below p ⟨hp, u, hu⟩ p List.prefix_rfl).trans hu

end Projection

namespace Selects

variable {fieldPaths fieldPaths' : List (List String)} {v w w' : Json ν}

/-- The filter does what it is for exactly where the paths are harmless. -/
theorem projects_iff (h : Selects fieldPaths v w) :
    Projects fieldPaths v w ↔ Harmless fieldPaths v := by
  cases v with
  | obj fields => exact projects_iff_of_projection h
  | null | bool b | num n | str s | arr elems =>
    obtain rfl : w = _ := h
    exact projects_self

/-- The order of the paths does not matter. -/
theorem agree (h : Selects fieldPaths v w) (h' : Selects fieldPaths' v w')
    (hperm : fieldPaths'.Perm fieldPaths) : Agree w w' := by
  intro q
  cases v with
  | obj fields =>
    have hpresent : present fieldPaths' (Json.obj fields) = present fieldPaths (.obj fields) := by
      ext p
      exact and_congr_left' hperm.mem_iff
    have hproj : Projection (.obj fields) (present fieldPaths' (.obj fields)) w' := h'
    rw [hpresent] at hproj
    rcases Projection.walk_eq_or_obj h hproj q with heq | ⟨⟨f, hf⟩, f', hf'⟩
    · rw [heq]
    · rw [hf, hf']
      rfl
  | null | bool b | num n | str s | arr elems =>
    obtain rfl : w = _ := h
    obtain rfl : w' = _ := h'
    rfl

end Selects

/-! ## Filtering a response -/

theorem exists_mapM {α β : Type} {f : α → Option β} {R : α → β → Prop} {l : List α}
    (h : ∀ a ∈ l, ∃ b, f a = some b ∧ R a b) : ∃ bs, l.mapM f = some bs ∧ List.Forall₂ R l bs := by
  induction l with
  | nil => exact ⟨[], rfl, .nil⟩
  | cons a l ih =>
    obtain ⟨b, hb, hR⟩ := h a List.mem_cons_self
    obtain ⟨bs, hbs, hRs⟩ := ih fun x hx ↦ h x (List.mem_cons_of_mem a hx)
    refine ⟨b :: bs, ?_, .cons hR hRs⟩
    rw [List.mapM_cons, hb, hbs]
    rfl

theorem forall₂_of_common {α β γ : Type} {R : α → β → Prop} {R' : α → γ → Prop}
    {T : β → γ → Prop} (hT : ∀ a b c, R a b → R' a c → T b c) {l : List α} {bs : List β}
    {cs : List γ} (h : List.Forall₂ R l bs) (h' : List.Forall₂ R' l cs) : List.Forall₂ T bs cs := by
  induction h generalizing cs with
  | nil =>
    cases h'
    exact .nil
  | cons hR _ ih =>
    cases h' with
    | cons hR' hRs' => exact .cons (hT _ _ _ hR hR') (ih hRs')

theorem forall_of_forall₂ {α β : Type} {R : α → β → Prop} {P : α → Prop} {l : List α} {bs : List β}
    (h : List.Forall₂ (fun a b ↦ R a b → P a) l bs) (hR : List.Forall₂ R l bs) : ∀ a ∈ l, P a := by
  induction h with
  | nil => exact List.forall_mem_nil P
  | cons hP _ ih =>
    cases hR with
    | cons hRab hRs => exact List.forall_mem_cons.mpr ⟨hP hRab, ih hRs⟩

theorem applyFilter_eq (body : Json ν) (fieldPaths : List (List String)) :
    applyFilter body fieldPaths =
      ((dataOf body).mapM (filterObject fieldPaths)).map (withData body) := by
  cases body with
  | null | bool b | num n | str s | arr elems => rfl
  | obj fields =>
    rw [applyFilter, dataOf]
    cases hdata : fields.lookup "data" with
    | none =>
      have hwith : ∀ v, withData (.obj fields) [v] = v := fun v ↦ by simp only [withData, hdata]
      change filterObject fieldPaths (.obj fields) = _
      rw [List.mapM_cons, List.mapM_nil]
      cases filterObject fieldPaths (Json.obj fields) with
      | none => rfl
      | some w => exact congrArg some (hwith w).symm
    | some data =>
      cases data with
      | null | bool b | num n | str s =>
        have hwith : withData (.obj fields) [] = Json.obj fields := by simp only [withData, hdata]
        exact congrArg some hwith.symm
      | arr items =>
        have hwith : withData (.obj fields) = fun l ↦ (Json.obj fields).assign "data" (.arr l) := by
          funext l
          simp only [withData, hdata]
        rw [hwith]
      | obj data =>
        have hwith : ∀ v, withData (.obj fields) [v] = (Json.obj fields).assign "data" v :=
          fun v ↦ by simp only [withData, hdata]
        simp only
        rw [List.mapM_cons, List.mapM_nil]
        cases filterObject fieldPaths (Json.obj data) with
        | none => rfl
        | some w => exact congrArg some (hwith w).symm

theorem assign_injective {fields : List (String × Json ν)} {key : String} {x y : Json ν}
    (h : (Json.obj fields).assign key x = (Json.obj fields).assign key y) : x = y := by
  have hlookup := congrArg (·.property key) h
  simp only [property_assign, if_pos] at hlookup
  exact Option.some.inj hlookup

theorem withData_injective {body : Json ν} {data data' : List (Json ν)}
    (hlen : data.length = (dataOf body).length) (hlen' : data'.length = (dataOf body).length)
    (h : withData body data = withData body data') : data = data' := by
  have hnil : dataOf body = [] → data = data' := by
    intro hdata
    rw [hdata] at hlen hlen'
    exact (List.eq_nil_of_length_eq_zero hlen).trans (List.eq_nil_of_length_eq_zero hlen').symm
  have hsingle : ∀ u, dataOf body = [u] →
      (∀ v w, withData body [v] = withData body [w] → v = w) → data = data' := by
    intro u hdata hinj
    rw [hdata] at hlen hlen'
    obtain ⟨v, rfl⟩ := List.length_eq_one_iff.mp hlen
    obtain ⟨w, rfl⟩ := List.length_eq_one_iff.mp hlen'
    rw [hinj v w h]
  cases body with
  | null | bool b | num n | str s => exact hnil rfl
  | arr elems => exact hsingle _ rfl fun v w hvw ↦ hvw
  | obj fields =>
    cases hdata : fields.lookup "data" with
    | none =>
      refine hsingle (.obj fields) (by simp only [dataOf, hdata]) fun v w hvw ↦ ?_
      simpa only [withData, hdata] using hvw
    | some data =>
      cases data with
      | null | bool b | num n | str s => exact hnil (by simp only [dataOf, hdata])
      | arr items =>
        simp only [withData, hdata] at h
        exact arr.inj (assign_injective h)
      | obj data =>
        refine hsingle (.obj data) (by simp only [dataOf, hdata]) fun v w hvw ↦ ?_
        simp only [withData, hdata] at hvw
        exact assign_injective hvw

/-- **The filter.** Where the paths read only own properties, the response has what they lead to and
nothing else, and no blocked field, if and only if no path goes through a blocked field or leads to
a value with one inside. -/
theorem filters_iff {fieldsParam : Option String} {fieldPaths : List (List String)}
    (haccepted : fieldFilter fieldsParam = .filtering fieldPaths) (body : Json ν)
    (hown : ∀ v ∈ dataOf body, OwnOnly fieldPaths v) :
    Filters body fieldPaths ↔ ∀ v ∈ dataOf body, Harmless fieldPaths v := by
  have hnil := nil_notMem_of_filtering haccepted
  obtain ⟨data, hdata, hselects⟩ := exists_mapM fun v hv ↦ exists_selects hnil (hown v hv)
  have happly : applyFilter body fieldPaths = some (withData body data) := by
    rw [applyFilter_eq, hdata]
    rfl
  constructor
  · rintro ⟨data', happly', hprojects, -⟩
    have hwith : withData body data' = withData body data :=
      Option.some.inj (happly'.symm.trans happly)
    rw [withData_injective hprojects.length_eq.symm hselects.length_eq.symm hwith] at hprojects
    exact forall_of_forall₂ (hselects.imp fun _ _ h ↦ h.projects_iff.mp) hprojects
  · intro hharmless
    refine ⟨data, happly, ?_, ?_⟩
    · exact (List.forall₂_and_left _ _ |>.mpr ⟨hharmless, hselects⟩).imp
        fun _ _ h ↦ h.2.projects_iff.mpr h.1
    · intro fieldPaths' hperm
      have hnil' : [] ∉ fieldPaths' := fun h ↦ hnil (hperm.mem_iff.mp h)
      have hown' : ∀ v ∈ dataOf body, OwnOnly fieldPaths' v := by
        intro v hv
        have h := hown v hv
        cases v with
        | obj fields => exact fun p hp ↦ h p (hperm.mem_iff.mp hp)
        | null | bool b | num n | str s | arr elems => trivial
      obtain ⟨data', hdata', hselects'⟩ := exists_mapM fun v hv ↦ exists_selects hnil' (hown' v hv)
      refine ⟨data', ?_, forall₂_of_common (fun _ _ _ h h' ↦ h.agree h' hperm) hselects hselects'⟩
      rw [applyFilter_eq, hdata']
      rfl

theorem filters_donation_amount :
    Filters (.obj [("data", .obj [("id", .num 7), ("amount", .num 5)])] : Json ℕ) [["amount"]] := by
  have haccepted : fieldFilter (some " amount,") = .filtering [["amount"]] := by decide
  refine (filters_iff haccepted _ ?_).mpr ?_
  · intro v hv
    obtain rfl := List.mem_singleton.mp hv
    intro p hp
    obtain rfl := List.mem_singleton.mp hp
    exact fun h ↦ by cases h
  · intro v hv
    obtain rfl := List.mem_singleton.mp hv
    intro p hp u hu
    obtain rfl := List.mem_singleton.mp hp
    obtain rfl : .num 5 = u := Option.some.inj hu
    refine ⟨by decide, fun q k _ ↦ ?_⟩
    cases q <;> rfl

def walletResponse : Json ℕ :=
  .obj [("success", .bool true), ("data", .obj [("wallet", .obj [("secret", .str "S...")])])]

/-- Asking for the wallet gives the secret. -/
theorem secret_of_wallet_is_kept :
    ¬∀ (fieldsParam : Option String) (fieldPaths : List (List String)),
      fieldFilter fieldsParam = .filtering fieldPaths →
        ∀ body : Json ℕ, Filters body fieldPaths := by
  intro h
  have haccepted : fieldFilter (some "wallet") = .filtering [["wallet"]] := by decide
  obtain ⟨data, happly, hprojects, -⟩ := h _ _ haccepted walletResponse
  have hdata : data = dataOf walletResponse :=
    withData_injective hprojects.length_eq.symm rfl (Option.some.inj happly.symm)
  subst hdata
  have hblocked := (List.forall₂_cons.mp hprojects).1.noBlocked ["wallet"] "secret" (by decide)
  cases hblocked

end StellarDonations.FieldFilter
