import Mathlib.Data.Finset.Card
import Mathlib.Data.Finset.SDiff

/-!
# The depth of GraphQL queries

`checkDepth` of the GraphQL router. It looks a fragment up where it is spread, but passes over the
fragments that it is in. No chain of fragments gets around the limit: a document is let through
exactly if its operations have no longer chain of fields than is allowed, through however many
fragments (`checkDepth_iff`). Documents with a fragment inside itself are refused before.
-/

namespace StellarDonations.GraphQL

inductive SelectionSet where
  | nil
  /-- A field, its own selection set if it has one, and the other selections. -/
  | field (name : String) (selectionSet rest : SelectionSet)
  | inlineFragment (selectionSet rest : SelectionSet)
  | fragmentSpread (name : String) (rest : SelectionSet)

inductive Definition where
  | operation (selectionSet : SelectionSet)
  | fragmentDefinition (name : String) (selectionSet : SelectionSet)

abbrev Document := List Definition

abbrev FragmentMap := List (String × SelectionSet)

/-- The definition that comes last is found first. -/
def buildFragmentMap (document : Document) : FragmentMap :=
  document.foldl (fun map d ↦
    match d with
    | .fragmentDefinition name selectionSet => (name, selectionSet) :: map
    | .operation _ => map) []

section Depth

variable (fragmentMap : FragmentMap)

/-- How many fragments can still be visited. -/
def unvisited (visited : List String) : ℕ :=
  ((fragmentMap.map Prod.fst).toFinset \ visited.toFinset).card

variable {fragmentMap}

theorem unvisited_cons_lt {name : String} {fragment : SelectionSet} {visited : List String}
    (hfragment : fragmentMap.lookup name = some fragment) (hname : name ∉ visited) :
    unvisited fragmentMap (name :: visited) < unvisited fragmentMap visited := by
  obtain ⟨l₁, l₂, hmap, -⟩ := List.lookup_eq_some_iff.mp hfragment
  rw [unvisited, unvisited, List.toFinset_cons, Finset.sdiff_insert]
  apply Finset.card_erase_lt_of_mem
  rw [Finset.mem_sdiff, List.mem_toFinset, List.mem_toFinset]
  exact ⟨by simp [hmap], hname⟩

variable (fragmentMap)

def getQueryDepth : SelectionSet → ℕ → List String → ℕ
  | .nil, depth, _ => depth
  | .field _ selectionSet rest, depth, visited =>
    max (getQueryDepth rest depth visited) (getQueryDepth selectionSet (depth + 1) visited)
  | .inlineFragment selectionSet rest, depth, visited =>
    max (getQueryDepth rest depth visited) (getQueryDepth selectionSet depth visited)
  | .fragmentSpread name rest, depth, visited =>
    if hname : name ∈ visited then getQueryDepth rest depth visited
    else
      match hfragment : fragmentMap.lookup name with
      | some fragment =>
        have := unvisited_cons_lt hfragment hname
        max (getQueryDepth rest depth visited) (getQueryDepth fragment depth (name :: visited))
      | none => getQueryDepth rest depth visited
termination_by s _ visited => (unvisited fragmentMap visited, sizeOf s)

end Depth

/-- `MAX_QUERY_DEPTH` is a parameter. The second component is the depth that is reported. -/
def checkDepth (maxQueryDepth : ℕ) (document : Document) : Bool × ℕ :=
  let maxDepth := document.foldl (fun maxDepth d ↦
    match d with
    | .operation selectionSet =>
      max maxDepth (getQueryDepth (buildFragmentMap document) selectionSet 0 [])
    | .fragmentDefinition _ _ => maxDepth) 0
  (maxDepth ≤ maxQueryDepth, maxDepth)

/-! ## Chains of fields -/

/-- A chain of this many fields, each in the selection set of the one before it. -/
inductive Chain (fragmentMap : FragmentMap) : SelectionSet → ℕ → Prop where
  | stop {s} : Chain fragmentMap s 0
  | field {name selectionSet rest k} (h : Chain fragmentMap selectionSet k) :
      Chain fragmentMap (.field name selectionSet rest) (k + 1)
  | inline {selectionSet rest k} (h : Chain fragmentMap selectionSet k) :
      Chain fragmentMap (.inlineFragment selectionSet rest) k
  | spread {name fragment rest k} (hname : fragmentMap.lookup name = some fragment)
      (h : Chain fragmentMap fragment k) : Chain fragmentMap (.fragmentSpread name rest) k
  | afterField {name selectionSet rest k} (h : Chain fragmentMap rest k) :
      Chain fragmentMap (.field name selectionSet rest) k
  | afterInline {selectionSet rest k} (h : Chain fragmentMap rest k) :
      Chain fragmentMap (.inlineFragment selectionSet rest) k
  | afterSpread {name rest k} (h : Chain fragmentMap rest k) :
      Chain fragmentMap (.fragmentSpread name rest) k

def SelectionSet.spreads : SelectionSet → List String
  | .nil => []
  | .field _ selectionSet rest | .inlineFragment selectionSet rest =>
    selectionSet.spreads ++ rest.spreads
  | .fragmentSpread name rest => name :: rest.spreads

/-- No fragment is spread inside itself, through other fragments or at once. -/
def Acyclic (fragmentMap : FragmentMap) : Prop :=
  ∃ rank : String → ℕ, ∀ name fragment, fragmentMap.lookup name = some fragment →
    ∀ n ∈ fragment.spreads, rank n < rank name

variable {fragmentMap : FragmentMap}

theorem exists_chain (s : SelectionSet) (depth : ℕ) (visited : List String) :
    ∃ k, Chain fragmentMap s k ∧ getQueryDepth fragmentMap s depth visited = depth + k := by
  fun_induction getQueryDepth fragmentMap s depth visited with
  | case1 depth => exact ⟨0, .stop, rfl⟩
  | case2 _ _ _ depth _ ihrest ihfield =>
    obtain ⟨k, hk, hrest⟩ := ihrest
    obtain ⟨j, hj, hfield⟩ := ihfield
    rw [hrest, hfield]
    rcases max_choice (depth + k) (depth + 1 + j) with h | h
    · exact ⟨k, .afterField hk, h⟩
    · exact ⟨j + 1, .field hj, h.trans (by omega)⟩
  | case3 _ _ depth _ ihrest ihinline =>
    obtain ⟨k, hk, hrest⟩ := ihrest
    obtain ⟨j, hj, hinline⟩ := ihinline
    rw [hrest, hinline]
    rcases max_choice (depth + k) (depth + j) with h | h
    · exact ⟨k, .afterInline hk, h⟩
    · exact ⟨j, .inline hj, h⟩
  | case5 _ _ depth _ _ _ hfragment _ ihrest ihfragment =>
    obtain ⟨k, hk, hrest⟩ := ihrest
    obtain ⟨j, hj, hspread⟩ := ihfragment
    rw [hrest, hspread]
    rcases max_choice (depth + k) (depth + j) with h | h
    · exact ⟨k, .afterSpread hk, h⟩
    · exact ⟨j, .spread hfragment hj, h⟩
  | case4 _ _ _ _ _ ihrest | case6 _ _ _ _ _ _ ihrest =>
    obtain ⟨k, hk, hrest⟩ := ihrest
    exact ⟨k, .afterSpread hk, hrest⟩

/-- No chain is deeper. The fragments that are passed over are not in the chain, as what they spread
ranks below them. -/
theorem Chain.le_getQueryDepth {rank : String → ℕ}
    (hrank : ∀ name fragment, fragmentMap.lookup name = some fragment →
      ∀ n ∈ fragment.spreads, rank n < rank name)
    {s : SelectionSet} {k : ℕ} (h : Chain fragmentMap s k) {depth : ℕ} {visited : List String}
    (hvisited : ∀ v ∈ visited, ∀ n ∈ s.spreads, rank n < rank v) :
    depth + k ≤ getQueryDepth fragmentMap s depth visited := by
  induction h generalizing depth visited with
  | @stop s =>
    obtain ⟨j, -, hj⟩ := @exists_chain fragmentMap s depth visited
    exact hj ▸ Nat.le_add_right depth j
  | field _ ih =>
    rw [getQueryDepth, ← Nat.add_assoc, Nat.add_right_comm]
    apply le_max_of_le_right
    exact ih fun v hv n hn ↦ hvisited v hv n (List.mem_append_left _ hn)
  | inline _ ih =>
    rw [getQueryDepth]
    apply le_max_of_le_right
    exact ih fun v hv n hn ↦ hvisited v hv n (List.mem_append_left _ hn)
  | @spread name fragment rest k hname _ ih =>
    have hnot : name ∉ visited :=
      fun hmem ↦ lt_irrefl _ (hvisited name hmem name List.mem_cons_self)
    rw [getQueryDepth, dif_neg hnot]
    split
    case h_1 fragment' hfragment =>
      obtain rfl := Option.some.inj (hname.symm.trans hfragment)
      apply le_max_of_le_right
      refine ih fun v hv n hn ↦ ?_
      rcases List.mem_cons.mp hv with rfl | hv
      · exact hrank v fragment hname n hn
      · exact (hrank name fragment hname n hn).trans (hvisited v hv name List.mem_cons_self)
    case h_2 hnone => cases hname.symm.trans hnone
  | afterField _ ih | afterInline _ ih =>
    rw [getQueryDepth]
    apply le_max_of_le_left
    exact ih fun v hv n hn ↦ hvisited v hv n (List.mem_append_right _ hn)
  | afterSpread _ ih =>
    have hrest := @ih depth visited fun v hv n hn ↦ hvisited v hv n (List.mem_cons_of_mem _ hn)
    rw [getQueryDepth]
    split
    · exact hrest
    · split
      · exact le_max_of_le_left hrest
      · exact hrest

theorem maxDepth_le_iff (f : SelectionSet → ℕ) (document : Document) (m b : ℕ) :
    document.foldl (fun maxDepth d ↦
      match d with
      | .operation selectionSet => max maxDepth (f selectionSet)
      | .fragmentDefinition _ _ => maxDepth) m ≤ b ↔
      m ≤ b ∧ ∀ s, .operation s ∈ document → f s ≤ b := by
  induction document generalizing m with
  | nil => simp
  | cons d document ih =>
    rw [List.foldl_cons, ih]
    cases d with
    | operation s => simp [and_assoc]
    | fragmentDefinition => simp

/-- **The depth limit.** Where no fragment is inside itself, a document is let through exactly if no
operation has a longer chain of fields than is allowed. -/
theorem checkDepth_iff {document : Document} (maxQueryDepth : ℕ)
    (h : Acyclic (buildFragmentMap document)) :
    (checkDepth maxQueryDepth document).1 = true ↔ ∀ s, .operation s ∈ document →
      ∀ k, Chain (buildFragmentMap document) s k → k ≤ maxQueryDepth := by
  obtain ⟨rank, hrank⟩ := h
  have hdepth (s : SelectionSet) : getQueryDepth (buildFragmentMap document) s 0 [] ≤
      maxQueryDepth ↔ ∀ k, Chain (buildFragmentMap document) s k → k ≤ maxQueryDepth := by
    constructor
    · intro hle k hk
      have hchain : 0 + k ≤ getQueryDepth (buildFragmentMap document) s 0 [] :=
        hk.le_getQueryDepth hrank fun v hv ↦ absurd hv List.not_mem_nil
      exact (Nat.zero_add k ▸ hchain).trans hle
    · intro hle
      obtain ⟨k, hk, heq⟩ := @exists_chain (buildFragmentMap document) s 0 []
      exact heq ▸ (Nat.zero_add k).symm ▸ hle k hk
  simp only [← hdepth]
  rw [checkDepth, decide_eq_true_iff, maxDepth_le_iff, and_iff_right (Nat.zero_le _)]

def spread : Document :=
  [.operation (.field "donations" (.fragmentSpread "F" .nil) .nil),
    .fragmentDefinition "F" (.field "id" .nil .nil)]

theorem acyclic_spread : Acyclic (buildFragmentMap spread) := by
  refine ⟨fun _ ↦ 0, fun name fragment h n hn ↦ ?_⟩
  obtain ⟨l₁, l₂, hmap, -⟩ := List.lookup_eq_some_iff.mp h
  have hmem : (name, fragment) ∈ buildFragmentMap spread := by simp [hmap]
  cases List.mem_singleton.mp hmem
  cases hn

theorem checkDepth_spread : (checkDepth 6 spread).1 = true ↔ ∀ s, .operation s ∈ spread →
    ∀ k, Chain (buildFragmentMap spread) s k → k ≤ 6 :=
  checkDepth_iff 6 acyclic_spread

end StellarDonations.GraphQL
