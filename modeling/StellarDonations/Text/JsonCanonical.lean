import StellarDonations.Text.Json

/-!
# Canonical texts of JSON values

A text that does not depend on the order of keys is made by rearranging the fields of every object
first. When the rearrangement is the same for all orders of the fields, it can be made at any time
(`mapFields_mapFields`), and values have the same rearrangement exactly when they are equal up to
the order of keys.

The text of an object or a list does not end in a colon and such a text (`stringify_ne_append`), so
that it can be told from what stands before it, whatever this is. Reading the end of a text as a
text of its own means to begin inside it: outside of a string more brackets are closed than were
opened, and inside of a string everything is taken for its opposite.
-/

universe u

namespace Json

variable {ν : Type u}

/-! ## Orders of fields -/

/-- The lists of keys of all objects are good. -/
def AllKeys (good : List String → Prop) : Json ν → Prop :=
  fold
    { null := True, bool _ := True, num _ := True, str _ := True, arr := fun ps ↦ ∀ p ∈ ps, p
      obj := fun fields ↦ good (fields.map Prod.fst) ∧ ∀ f ∈ fields, f.2 }

variable {good : List String → Prop}

theorem allKeys_arr {elems : List (Json ν)} :
    AllKeys good (arr elems) ↔ ∀ v ∈ elems, AllKeys good v := by
  rw [AllKeys, fold_arr]
  exact List.forall_mem_map

theorem allKeys_obj {fields : List (String × Json ν)} :
    AllKeys good (obj fields) ↔
      good (fields.map Prod.fst) ∧ ∀ f ∈ fields, AllKeys good f.2 := by
  rw [AllKeys, fold_obj]
  simp only [List.map_map, List.forall_mem_map]
  rfl

/-- The fields in the order of their keys, for any order. -/
def sortBy (le : String → String → Prop) [DecidableRel le] (fields : List (String × Json ν)) :
    List (String × Json ν) :=
  fields.insertionSort fun f g ↦ le f.1 g.1

section SortBy

variable (le : String → String → Prop) [DecidableRel le]

theorem perm_sortBy (fields : List (String × Json ν)) : (sortBy le fields).Perm fields :=
  List.perm_insertionSort _ fields

variable {le} [Std.Total le] [IsTrans String le]

def Separates (le : String → String → Prop) (keys : List String) : Prop :=
  keys.Nodup ∧ ∀ k ∈ keys, ∀ l ∈ keys, le k l → le l k → k = l

/-- Where the order tells the keys apart, the fields end up in one order. -/
theorem sortBy_eq_of_perm {fields fields' : List (String × Json ν)} (h : fields.Perm fields')
    (hkeys : Separates le (fields.map Prod.fst)) : sortBy le fields = sortBy le fields' := by
  have : Std.Total fun f g : String × Json ν ↦ le f.1 g.1 := ⟨fun f g ↦ Std.Total.total f.1 g.1⟩
  have : IsTrans (String × Json ν) fun f g ↦ le f.1 g.1 :=
    ⟨fun _ _ _ hfg hgh ↦ IsTrans.trans _ _ _ hfg hgh⟩
  have hperm := perm_sortBy le fields
  have hperm' := (perm_sortBy le fields').trans h.symm
  refine List.Perm.eq_of_pairwise ?_ (List.pairwise_insertionSort _ _)
    (List.pairwise_insertionSort _ _) (hperm.trans hperm'.symm)
  intro f g hf hg hfg hgf
  have hfmem := hperm.subset hf
  have hgmem := hperm'.subset hg
  refine List.inj_on_of_nodup_map hkeys.1 hfmem hgmem (hkeys.2 _ ?_ _ ?_ hfg hgf)
  · exact List.mem_map_of_mem hfmem
  · exact List.mem_map_of_mem hgmem

end SortBy

theorem sortFields_eq_of_perm {fields fields' : List (String × Json ν)} (h : fields.Perm fields')
    (hnodup : (fields.map Prod.fst).Nodup) : sortFields fields = sortFields fields' :=
  sortBy_eq_of_perm h ⟨hnodup, fun _ _ _ _ hkl hlk ↦ KeyLe.antisymm hkl hlk⟩

section Rearrange

variable {f g : List (String × Json ν) → List (String × Json ν)}

/-- Where a rearrangement does not depend on the order of the fields, they may be rearranged before
in another way. -/
theorem mapFields_mapFields (hg : ∀ fields, (g fields).Perm fields)
    (hf : ∀ fields fields', fields.Perm fields' → good (fields.map Prod.fst) →
      f fields = f fields') {v : Json ν} (hv : AllKeys good v) :
    mapFields f (mapFields g v) = mapFields f v := by
  induction v with
  | null => rfl
  | bool b => rfl
  | num n => rfl
  | str s => rfl
  | arr elems ih =>
    rw [mapFields_arr, mapFields_arr, mapFields_arr, List.map_map]
    exact congrArg arr (List.map_congr_left fun v hv' ↦ ih v hv' (allKeys_arr.mp hv v hv'))
  | obj fields ih =>
    obtain ⟨hkeys, hfields⟩ := allKeys_obj.mp hv
    have hvalues : mapValues f (mapValues g fields) = mapValues f fields := by
      rw [mapValues, mapValues, List.map_map]
      exact List.map_congr_left fun field hfield ↦
        congrArg (field.1, ·) (ih field hfield (hfields field hfield))
    have hperm : (mapValues f (g (mapValues g fields))).Perm (mapValues f fields) := by
      rw [← hvalues]
      exact (hg _).map _
    rw [mapFields_obj, mapFields_obj, mapFields_obj]
    refine congrArg obj (hf _ _ hperm.symm ?_).symm
    rwa [map_fst_mapValues]

/-- Values with one rearrangement are equal up to the order of keys. -/
theorem same_of_mapFields_eq (hperm : ∀ fields, (f fields).Perm fields) {v w : Json ν}
    (hv : Distinct v) (hw : Distinct w) (h : mapFields f v = mapFields f w) : Same v w := by
  have hsort {v : Json ν} (hv : AllKeys List.Nodup v) :
      sortKeys (mapFields f v) = sortKeys v :=
    mapFields_mapFields hperm (fun _ _ hp hnodup ↦ sortFields_eq_of_perm hp hnodup) hv
  rw [Same, ← hsort hv, h, hsort hw]

/-- Values that are equal up to the order of keys have one rearrangement, where it does not depend
on the order of the fields. -/
theorem mapFields_eq_of_same
    (hf : ∀ fields fields', fields.Perm fields' → good (fields.map Prod.fst) →
      f fields = f fields') {v w : Json ν} (hv : AllKeys good v) (hw : AllKeys good w)
    (h : Same v w) : mapFields f v = mapFields f w := by
  rw [← mapFields_mapFields perm_sortFields hf hv, ← mapFields_mapFields perm_sortFields hf hw]
  exact congrArg (mapFields f) h

end Rearrange

/-! ## Reading a text by its brackets -/

/-- Where a reader is: outside of strings, inside of one, or after a backslash in one, with the
number of open brackets. -/
inductive Scan where
  | out (depth : ℕ)
  | str (depth : ℕ)
  | esc (depth : ℕ)

/-- One character. Outside of strings there are no backslashes, and no bracket is closed that was
not opened. -/
def Scan.step : Scan → Char → Option Scan
  | .out d, c =>
    if c = '"' then some (.str d)
    else if c = '{' ∨ c = '[' then some (.out (d + 1))
    else if c = '}' ∨ c = ']' then (if d = 0 then none else some (.out (d - 1)))
    else if c = '\\' then none
    else some (.out d)
  | .str d, c =>
    if c = '"' then some (.out d) else if c = '\\' then some (.esc d) else some (.str d)
  | .esc d, _ => some (.str d)

def scan (s : Scan) (l : List Char) : Option Scan := l.foldlM Scan.step s

theorem scan_cons (s : Scan) (c : Char) (l : List Char) :
    scan s (c :: l) = (s.step c).bind fun s' ↦ scan s' l :=
  List.foldlM_cons

theorem scan_append (s : Scan) (l m : List Char) :
    scan s (l ++ m) = (scan s l).bind fun s' ↦ scan s' m :=
  List.foldlM_append

/-- A text that closes the brackets and the strings that it opens. -/
def Neutral (l : List Char) : Prop := ∀ d, scan (.out d) l = some (.out d)

theorem neutral_nil : Neutral [] := fun _ ↦ rfl

theorem Neutral.append {l m : List Char} (hl : Neutral l) (hm : Neutral m) : Neutral (l ++ m) := by
  intro d
  rw [scan_append, hl d]
  exact hm d

theorem neutral_of_forall {l : List Char} (h : ∀ c ∈ l, c ∉ ['"', '{', '[', '}', ']', '\\']) :
    Neutral l := by
  induction l with
  | nil => exact neutral_nil
  | cons c l ih =>
    intro d
    have hc := h c List.mem_cons_self
    simp only [List.mem_cons, List.not_mem_nil, or_false, not_or] at hc
    obtain ⟨hquote, hobj, harr, hobj', harr', hslash⟩ := hc
    have hstep : (Scan.out d).step c = some (.out d) := by
      simp only [Scan.step, hquote, hobj, harr, hobj', harr', hslash, or_self, if_false]
    rw [scan_cons, hstep]
    exact ih (fun c' hc' ↦ h c' (List.mem_cons_of_mem c hc')) d

theorem scan_escape (c : Char) (d : ℕ) : scan (.str d) (escape c) = some (.str d) := by
  induction c using escape_cases with
  | quote => rfl
  | slash => rfl
  | control n hctrl => interval_cases n <;> rfl
  | plain c hquote hslash hctrl hescape =>
    rw [hescape, scan_cons]
    simp only [Scan.step, hquote, hslash, if_false]
    rfl

theorem neutral_quote (s : String) : Neutral (quote s) := by
  have hinside : ∀ (l : List Char) (d : ℕ), scan (.str d) (l.flatMap escape) = some (.str d) := by
    intro l d
    induction l with
    | nil => rfl
    | cons c l ih =>
      rw [List.flatMap_cons, scan_append, scan_escape]
      exact ih
  intro d
  have hopen : (Scan.out d).step '"' = some (.str d) := rfl
  rw [quote, scan_cons, hopen, Option.bind_some, scan_append, hinside]
  rfl

/-! ## Lists of texts -/

theorem closeList_eq (close : Char) {xs : List (List Char)} (h : ∀ x ∈ xs, Neutral x) :
    ∃ l, closeList close xs = l ++ [close] ∧ Neutral l := by
  induction xs with
  | nil => exact ⟨[], rfl, neutral_nil⟩
  | cons x xs ih =>
    obtain ⟨l, hl, hneutral⟩ := ih fun x' hx' ↦ h x' (List.mem_cons_of_mem x hx')
    have hcomma : Neutral [','] := neutral_of_forall (by simp)
    refine ⟨[','] ++ (x ++ l), ?_, hcomma.append ((h x List.mem_cons_self).append hneutral)⟩
    rw [closeList, hl, List.append_assoc, List.append_assoc, List.singleton_append]

theorem listText_eq (close : Char) {xs : List (List Char)} (h : ∀ x ∈ xs, Neutral x) :
    ∃ l, listText close xs = l ++ [close] ∧ Neutral l := by
  cases xs with
  | nil => exact ⟨[], rfl, neutral_nil⟩
  | cons x xs =>
    obtain ⟨l, hl, hneutral⟩ := closeList_eq close fun x' hx' ↦ h x' (List.mem_cons_of_mem x hx')
    refine ⟨x ++ l, ?_, (h x List.mem_cons_self).append hneutral⟩
    rw [listText, hl, List.append_assoc]

def Bracketed (l : List Char) : Prop :=
  ∃ mid, Neutral mid ∧ (l = '[' :: (mid ++ [']']) ∨ l = '{' :: (mid ++ ['}']))

theorem Bracketed.neutral {l : List Char} (h : Bracketed l) : Neutral l := by
  obtain ⟨mid, hmid, rfl | rfl⟩ := h
  all_goals
    intro d
    rw [scan_cons]
    change scan (.out (d + 1)) _ = _
    rw [scan_append, hmid (d + 1)]
    rfl

variable (t : NumberText ν)

theorem bracketed_arr {elems : List (Json ν)} (h : ∀ v ∈ elems, Neutral (stringify t v)) :
    Bracketed (stringify t (arr elems)) := by
  obtain ⟨mid, hmid, hneutral⟩ := listText_eq ']' (List.forall_mem_map.mpr h)
  exact ⟨mid, hneutral, .inl (by rw [stringify_arr, hmid])⟩

theorem bracketed_obj {fields : List (String × Json ν)}
    (h : ∀ f ∈ fields, Neutral (stringify t f.2)) : Bracketed (stringify t (obj fields)) := by
  have hfield : ∀ f ∈ fields, Neutral (fieldText (f.1, stringify t f.2)) := by
    intro f hf
    have hcolon : Neutral [':'] := neutral_of_forall (by simp)
    exact (neutral_quote f.1).append (hcolon.append (h f hf))
  obtain ⟨mid, hmid, hneutral⟩ := listText_eq '}' (List.forall_mem_map.mpr hfield)
  exact ⟨mid, hneutral, .inr (by rw [stringify_obj, hmid])⟩

theorem neutral_stringify (v : Json ν) : Neutral (stringify t v) := by
  induction v with
  | null => exact (neutral_of_forall (by simp) : Neutral "null".toList)
  | bool b =>
    cases b with
    | false => exact (neutral_of_forall (by simp) : Neutral "false".toList)
    | true => exact (neutral_of_forall (by simp) : Neutral "true".toList)
  | num n =>
    refine neutral_of_forall fun c hc hmem ↦ ?_
    have hall : (['"', '{', '[', '}', ']', '\\'].all fun c ↦ c ∉ numberChars) = true := by
      decide
    exact of_decide_eq_true (List.all_eq_true.mp hall c hmem) (t.mem_numberChars n c hc)
  | str s => exact neutral_quote s
  | arr elems ih => exact (bracketed_arr t ih).neutral
  | obj fields ih => exact (bracketed_obj t ih).neutral

def IsContainer : Json ν → Prop
  | arr _ | obj _ => True
  | null | bool _ | num _ | str _ => False

variable {t} in
theorem IsContainer.bracketed {v : Json ν} (h : IsContainer v) : Bracketed (stringify t v) := by
  cases v with
  | arr elems => exact bracketed_arr t fun v _ ↦ neutral_stringify t v
  | obj fields => exact bracketed_obj t fun f _ ↦ neutral_stringify t f.2
  | _ => exact h.elim

/-! ## Texts that end in texts -/

/-- One reader is inside of a string, and the other one is not. -/
def Scan.Opposite : Scan → Scan → Prop
  | .str _, .out _ | .out _, .str _ => True
  | _, _ => False

theorem Scan.Opposite.step {p q p' q' : Scan} (h : p.Opposite q) {c : Char}
    (hp : p.step c = some p') (hq : q.step c = some q') : p'.Opposite q' := by
  have hstr : ∀ {d e : ℕ} {p' q' : Scan}, (Scan.str d).step c = some p' →
      (Scan.out e).step c = some q' → p'.Opposite q' ∧ q'.Opposite p' := by
    intro d e p' q' hp hq
    simp only [Scan.step] at hp hq
    split_ifs at hp hq <;> simp only [Option.some.injEq] at hp hq <;> subst hp <;> subst hq <;>
      first | exact ⟨trivial, trivial⟩ | simp_all
  cases p with
  | str d =>
    cases q with
    | out e => exact (hstr hp hq).1
    | _ => exact h.elim
  | out d =>
    cases q with
    | str e => exact (hstr hq hp).2
    | _ => exact h.elim
  | esc d => exact h.elim

theorem Scan.Opposite.scan {p q p' q' : Scan} (h : p.Opposite q) {l : List Char}
    (hp : scan p l = some p') (hq : Json.scan q l = some q') : p'.Opposite q' := by
  induction l generalizing p q with
  | nil =>
    cases hp
    cases hq
    exact h
  | cons c l ih =>
    rw [scan_cons] at hp hq
    obtain ⟨p₁, hp₁, hp⟩ := Option.bind_eq_some_iff.mp hp
    obtain ⟨q₁, hq₁, hq⟩ := Option.bind_eq_some_iff.mp hq
    exact ih (h.step hp₁ hq₁) hp hq

theorem step_colon {p q : Scan} (h : p.step ':' = some q) : ∃ d, q = .out d ∨ q = .str d := by
  cases p with
  | out d => exact ⟨d, .inl (Option.some.inj h).symm⟩
  | str d => exact ⟨d, .inr (Option.some.inj h).symm⟩
  | esc d => exact ⟨d, .inr (Option.some.inj h).symm⟩

theorem scan_of_concat {l : List Char} {close : Char} (hclose : close = ']' ∨ close = '}')
    {d : ℕ} (h : scan (.out d) (l ++ [close]) = some (.out d)) :
    scan (.out d) l = some (.out (d + 1)) := by
  rw [scan_append] at h
  obtain ⟨s, hs, hlast⟩ := Option.bind_eq_some_iff.mp h
  rw [scan_cons] at hlast
  obtain ⟨s', hs', hend⟩ := Option.bind_eq_some_iff.mp hlast
  cases hend
  rw [hs]
  cases s with
  | out e =>
    cases e with
    | zero => rcases hclose with rfl | rfl <;> cases hs'
    | succ e => rcases hclose with rfl | rfl <;> cases hs' <;> rfl
  | str e => rcases hclose with rfl | rfl <;> cases hs'
  | esc e => rcases hclose with rfl | rfl <;> cases hs'

theorem Bracketed.exists_concat {l : List Char} (h : Bracketed l) :
    ∃ z close, l = z ++ [close] ∧ ∀ d, scan (.out d) z = some (.out (d + 1)) := by
  have hneutral := h.neutral
  obtain ⟨mid, -, rfl | rfl⟩ := h
  · exact ⟨'[' :: mid, ']', rfl, fun d ↦ scan_of_concat (.inl rfl) (hneutral d)⟩
  · exact ⟨'{' :: mid, '}', rfl, fun d ↦ scan_of_concat (.inr rfl) (hneutral d)⟩

/-- **A text in brackets does not end in a colon and a text in brackets.** -/
theorem Bracketed.ne_append {l m x : List Char} (hl : Bracketed l) (hm : Bracketed m) :
    l ≠ x ++ ':' :: m := by
  intro heq
  obtain ⟨z, close, rfl, hz⟩ := hm.exists_concat
  obtain ⟨a, mid, close', hmid, hne, rfl⟩ : ∃ a mid close', Neutral mid ∧ a ≠ ':' ∧
      l = a :: (mid ++ [close']) := by
    obtain ⟨mid, hmid, rfl | rfl⟩ := hl
    · exact ⟨'[', mid, ']', hmid, by decide, rfl⟩
    · exact ⟨'{', mid, '}', hmid, by decide, rfl⟩
  cases x with
  | nil => exact hne (List.head_eq_of_cons_eq heq)
  | cons b x =>
    have htail : mid ++ [close'] = (x ++ ':' :: z) ++ [close] := by
      rw [List.append_assoc, List.cons_append]
      exact List.tail_eq_of_cons_eq heq
    have hsplit : mid = x ++ ':' :: z := (List.append_inj' htail rfl).1
    have hscan := hmid 0
    rw [hsplit, scan_append] at hscan
    obtain ⟨p, -, hscan⟩ := Option.bind_eq_some_iff.mp hscan
    rw [scan_cons] at hscan
    obtain ⟨q, hq, hscan⟩ := Option.bind_eq_some_iff.mp hscan
    obtain ⟨d, rfl | rfl⟩ := step_colon hq
    · -- a bracket would be closed that the rest has not opened
      rw [hz d] at hscan
      cases hscan
    · have hopposite : (Scan.str d).Opposite (.out 0) := trivial
      exact hopposite.scan hscan (hz 0)

/-- What stands before a colon and the text of an object or a list, or before a colon at the end,
can be told from it. -/
theorem append_colon_injective {x y l m : List Char} (hl : l = [] ∨ Bracketed l)
    (hm : m = [] ∨ Bracketed m) (h : x ++ ':' :: l = y ++ ':' :: m) : x = y ∧ l = m := by
  -- the longer one of the two would end in a colon and the other one
  have hrest : ∀ {l m : List Char}, (l = [] ∨ Bracketed l) → (m = [] ∨ Bracketed m) →
      ∀ w, l ≠ w ++ ':' :: m := by
    rintro l m hl hm w rfl
    rcases hl with hl | hl
    · exact List.append_ne_nil_of_right_ne_nil w (List.cons_ne_nil _ _) hl
    · rcases hm with rfl | hm
      · obtain ⟨mid, -, hmid | hmid⟩ := hl
        · have hlast : w ++ [':'] = ('[' :: mid) ++ [']'] := hmid
          exact absurd (List.append_inj' hlast rfl).2 (by decide)
        · have hlast : w ++ [':'] = ('{' :: mid) ++ ['}'] := hmid
          exact absurd (List.append_inj' hlast rfl).2 (by decide)
      · exact hl.ne_append hm rfl
  rcases List.append_eq_append_iff.mp h with ⟨w, hy, hw⟩ | ⟨w, hx, hw⟩
  · cases w with
    | nil => exact ⟨by rw [hy, List.append_nil], List.tail_eq_of_cons_eq hw⟩
    | cons c w => exact absurd (List.tail_eq_of_cons_eq hw) (hrest hl hm w)
  · cases w with
    | nil => exact ⟨by rw [hx, List.append_nil], (List.tail_eq_of_cons_eq hw).symm⟩
    | cons c w => exact absurd (List.tail_eq_of_cons_eq hw) (hrest hm hl w)

/-- What stands before the first colon. -/
theorem append_colon_injective_of_notMem {x y l m : List Char} (hx : ':' ∉ x) (hy : ':' ∉ y)
    (h : x ++ ':' :: l = y ++ ':' :: m) : x = y ∧ l = m := by
  induction x generalizing y with
  | nil =>
    cases y with
    | nil => exact ⟨rfl, List.tail_eq_of_cons_eq h⟩
    | cons b y => exact absurd (List.head_eq_of_cons_eq h) (List.ne_of_not_mem_cons hy)
  | cons a x ih =>
    cases y with
    | nil => exact absurd (List.head_eq_of_cons_eq h).symm (List.ne_of_not_mem_cons hx)
    | cons b y =>
      obtain ⟨hx', hy'⟩ := And.intro (List.not_mem_of_not_mem_cons hx)
        (List.not_mem_of_not_mem_cons hy)
      obtain ⟨rfl, hlm⟩ := ih hx' hy' (List.tail_eq_of_cons_eq h)
      exact ⟨by rw [List.head_eq_of_cons_eq h], hlm⟩

end Json
