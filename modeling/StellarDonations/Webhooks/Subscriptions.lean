import StellarDonations.Text.Json
import StellarDonations.Webhooks.Delivery

/-!
# Who gets an event

`deliver` looks for the name of the event in the text of the list that a webhook subscribes to, with
`LIKE` and a wildcard on both sides. A name is found inside a longer one, in the other case, and an
underscore in it stands for any character.

A plain name cannot be found across the border between two names of the list, so for it the search
comes down to the names (`Plain.occurs_eventsText`). Then the event goes to the right webhooks
exactly as long as it is found in no list that does not have it (`attempted_iff_wanted`).
-/

namespace StellarDonations.Webhooks

open Json Storage

/-! ## The pattern -/

/-- The characters match the pattern one by one: up to the case of ASCII letters, with an underscore
for any character. -/
def Matches (pattern text : List Char) : Prop :=
  List.Forall₂ (fun a c ↦ a = '_' ∨ a.toLower = c.toLower) pattern text

def Begins (pattern text : List Char) : Prop := ∃ part, part <+: text ∧ Matches pattern part

/-- Some part of the text matches the pattern. -/
def Occurs (pattern text : List Char) : Prop := ∃ rest, rest <:+ text ∧ Begins pattern rest

variable {p t t' : List Char}

theorem matches_self (p : List Char) : Matches p p := by
  induction p with
  | nil => exact .nil
  | cons a p ih => exact .cons (.inr rfl) ih

@[simp] theorem begins_nil (t : List Char) : Begins [] t := ⟨[], List.nil_prefix, .nil⟩

@[simp] theorem not_begins_cons_nil (a : Char) (p : List Char) : ¬Begins (a :: p) [] := by
  rintro ⟨part, hpart, hmatch⟩
  rw [List.prefix_nil.mp hpart] at hmatch
  cases hmatch

theorem begins_cons_cons {a c : Char} :
    Begins (a :: p) (c :: t) ↔ (a = '_' ∨ a.toLower = c.toLower) ∧ Begins p t := by
  constructor
  · rintro ⟨_, hpart, hmatch⟩
    rcases hmatch with _ | ⟨hac, hmatch⟩
    obtain ⟨rfl, hrest⟩ := List.cons_prefix_cons.mp hpart
    exact ⟨hac, _, hrest, hmatch⟩
  · rintro ⟨hac, part, hpart, hmatch⟩
    exact ⟨c :: part, List.cons_prefix_cons.mpr ⟨rfl, hpart⟩, .cons hac hmatch⟩

theorem Begins.mono (h : Begins p t) (ht : t <+: t') : Begins p t' := by
  obtain ⟨part, hpart, hmatch⟩ := h
  exact ⟨part, hpart.trans ht, hmatch⟩

theorem occurs_cons {c : Char} : Occurs p (c :: t) ↔ Begins p (c :: t) ∨ Occurs p t := by
  constructor
  · rintro ⟨rest, hrest, hbegin⟩
    rcases List.suffix_cons_iff.mp hrest with rfl | hrest
    · exact .inl hbegin
    · exact .inr ⟨rest, hrest, hbegin⟩
  · rintro (hbegin | ⟨rest, hrest, hbegin⟩)
    · exact ⟨c :: t, List.suffix_rfl, hbegin⟩
    · exact ⟨rest, hrest.trans (List.suffix_cons c t), hbegin⟩

theorem Occurs.mono (h : Occurs p t) (x y : List Char) : Occurs p (x ++ t ++ y) := by
  obtain ⟨rest, ⟨z, rfl⟩, hbegin⟩ := h
  exact ⟨rest ++ y, ⟨x ++ z, by simp only [List.append_assoc]⟩,
    hbegin.mono (List.prefix_append rest y)⟩

theorem like_cons {a : Char} (ha : a ≠ '%') (p : List Char) (c : Char) (t : List Char) :
    like (a :: p) (c :: t) = ((a = '_' || a.toLower = c.toLower) && like p t) := by
  rw [like]
  exact ha

theorem like_cons_nil {a : Char} (ha : a ≠ '%') (p : List Char) : like (a :: p) [] = false := by
  rw [like]
  exact ha

theorem like_append_wildcard (hp : '%' ∉ p) (t : List Char) :
    like (p ++ ['%']) t = true ↔ Begins p t := by
  induction p generalizing t with
  | nil =>
    refine iff_of_true ?_ (begins_nil t)
    rw [List.nil_append, like, List.any_eq_true]
    exact ⟨[], (List.mem_tails _ _).mpr List.nil_suffix, rfl⟩
  | cons a p ih =>
    have ha : a ≠ '%' := fun h ↦ hp (h ▸ List.mem_cons_self)
    rw [List.cons_append]
    cases t with
    | nil =>
      rw [like_cons_nil ha]
      exact iff_of_false Bool.false_ne_true (not_begins_cons_nil a p)
    | cons c t =>
      rw [like_cons ha, Bool.and_eq_true, ih fun h ↦ hp (List.mem_cons_of_mem _ h),
        begins_cons_cons, Bool.or_eq_true, decide_eq_true_iff, decide_eq_true_iff]

theorem like_wildcards (hp : '%' ∉ p) (t : List Char) :
    like ('%' :: p ++ ['%']) t = true ↔ Occurs p t := by
  rw [List.cons_append, like, List.any_eq_true]
  constructor
  · rintro ⟨rest, hrest, hlike⟩
    exact ⟨rest, (List.mem_tails _ _).mp hrest, (like_append_wildcard hp rest).mp hlike⟩
  · rintro ⟨rest, hrest, hbegin⟩
    exact ⟨rest, (List.mem_tails _ _).mpr hrest, (like_append_wildcard hp rest).mpr hbegin⟩

/-! ## A border -/

theorem Begins.of_append {x border : List Char}
    (hborder : ∀ q, q <:+ p → Begins q border → q = []) (h : Begins p (x ++ border)) :
    Begins p x := by
  induction x generalizing p with
  | nil => rw [hborder p List.suffix_rfl h]; exact begins_nil []
  | cons c x ih =>
    cases p with
    | nil => exact begins_nil _
    | cons a p =>
      obtain ⟨hac, hrest⟩ := begins_cons_cons.mp h
      exact begins_cons_cons.mpr
        ⟨hac, ih (fun q hq ↦ hborder q (hq.trans (List.suffix_cons a p))) hrest⟩

theorem Occurs.of_append {x border : List Char}
    (hborder : ∀ q, q <:+ p → Begins q border → q = []) (h : Occurs p (x ++ border)) :
    Occurs p x ∨ Occurs p border := by
  induction x with
  | nil => exact .inr h
  | cons c x ih =>
    rcases occurs_cons.mp h with hbegin | hoccurs
    · exact .inl (occurs_cons.mpr (.inl (Begins.of_append (x := c :: x) hborder hbegin)))
    · exact (ih hoccurs).imp_left fun hx ↦ occurs_cons.mpr (.inr hx)

/-! ## Plain names -/

/-- The text of the list of the events, as `register` writes it. -/
def eventsText (names : List String) : List Char :=
  stringify natText (.arr (names.map .str))

/-- The text of a name inside its quotes. -/
def escaped (name : String) : List Char := name.toList.flatMap escape

/-- A character that is written as itself, that is not a wildcard and that stands on no border
between two names. -/
def IsPlainChar (c : Char) : Prop := escape c = [c] ∧ c ∉ ['%', ',', '[', ']']

instance : DecidablePred IsPlainChar := fun _ ↦ inferInstanceAs (Decidable (_ ∧ _))

/-- A name that cannot be found on a border between two names: there is no underscore at its ends,
and no three of them in a row. -/
structure Plain (p : List Char) : Prop where
  ne_nil : p ≠ []
  char : ∀ c ∈ p, IsPlainChar c
  start : ¬['_'] <+: p
  stop : ¬['_'] <:+ p
  middle : ¬['_', '_', '_'] <:+: p

instance : DecidablePred Plain := fun p ↦
  have : Decidable (∀ c ∈ p, IsPlainChar c) := List.decidableBAll IsPlainChar p
  decidable_of_iff
    (p ≠ [] ∧ (∀ c ∈ p, IsPlainChar c) ∧ ¬['_'] <+: p ∧ ¬['_'] <:+ p ∧ ¬['_', '_', '_'] <:+: p)
    ⟨fun ⟨h₁, h₂, h₃, h₄, h₅⟩ ↦ ⟨h₁, h₂, h₃, h₄, h₅⟩, fun h ↦ ⟨h.1, h.2, h.3, h.4, h.5⟩⟩

def borderChars : List Char := ['"', ',', '[', ']']

theorem toLower_of_not_isUpper {a : Char} (h : ¬a.isUpper) : a.toLower = a :=
  dif_neg fun hc ↦ h (decide_eq_true hc)

theorem eq_of_toLower_eq {a c : Char} (hc : c ∈ borderChars) (h : a.toLower = c.toLower) :
    a = c := by
  by_cases hupper : a.isUpper
  · exfalso
    obtain ⟨hlow, hhigh⟩ : 65 ≤ a.toNat ∧ a.toNat ≤ 90 :=
      @of_decide_eq_true (a.val ≥ 'A'.val ∧ a.val ≤ 'Z'.val) _ hupper
    have ha : a = Char.ofNat a.toNat := (Char.ofNat_toNat a).symm
    generalize a.toNat = n at hlow hhigh ha
    subst ha
    have hne : borderChars.all (fun d ↦ (Char.ofNat n).toLower ≠ d.toLower) = true := by
      interval_cases n <;> decide
    exact of_decide_eq_true (List.all_eq_true.mp hne c hc) h
  · have hborder : borderChars.all (fun d ↦ ¬d.isUpper) = true := by decide
    have hlower := of_decide_eq_true (List.all_eq_true.mp hborder c hc)
    rwa [toLower_of_not_isUpper hupper, toLower_of_not_isUpper hlower] at h

theorem IsPlainChar.not_mem_borderChars {a : Char} (ha : IsPlainChar a) : a ∉ borderChars := by
  intro hmem
  rcases List.mem_cons.mp hmem with rfl | hmem
  · exact absurd ha.1 (by decide)
  · exact ha.2 (List.mem_cons_of_mem _ hmem)

/-- The text from the end of a name to the end of the list. -/
def closeNames (names : List String) : List Char := '"' :: closeList ']' (names.map quote)

theorem closeNames_cons (name : String) (names : List String) :
    closeNames (name :: names) = '"' :: ',' :: '"' :: (escaped name ++ closeNames names) := by
  rw [closeNames, List.map_cons, closeList, quote, List.cons_append, List.append_assoc]
  rfl

theorem eventsText_cons (name : String) (names : List String) :
    eventsText (name :: names) = '[' :: '"' :: (escaped name ++ closeNames names) := by
  have hmap : (names.map Json.str).map (stringify natText) = names.map quote := by
    rw [List.map_map]
    rfl
  rw [eventsText, List.map_cons, stringify_arr, List.map_cons, hmap, listText]
  rw [show stringify natText (.str name) = quote name from rfl, quote, List.cons_append,
    List.append_assoc]
  rfl

section Plain

variable (hp : Plain p)
include hp

/-- On a border, only an underscore begins to match. -/
theorem Plain.eq_underscore {a c : Char} {q : List Char} (ha : a ∈ p) (hc : c ∈ borderChars)
    (h : Begins (a :: q) (c :: t)) : a = '_' ∧ Begins q t := by
  obtain ⟨hac, hrest⟩ := begins_cons_cons.mp h
  refine ⟨hac.resolve_right fun hlower ↦ ?_, hrest⟩
  exact (hp.char a ha).not_mem_borderChars (eq_of_toLower_eq hc hlower ▸ hc)

theorem Plain.not_occurs_nil : ¬Occurs p [] := by
  rintro ⟨rest, hrest, hbegin⟩
  rw [List.suffix_nil.mp hrest] at hbegin
  cases p with
  | nil => exact hp.ne_nil rfl
  | cons a q => exact not_begins_cons_nil a q hbegin

theorem Plain.occurs_of_cons {c : Char} (hc : c ∈ borderChars) (h : Occurs p (c :: t)) :
    Occurs p t := by
  refine (occurs_cons.mp h).resolve_left fun hbegin ↦ ?_
  cases p with
  | nil => exact hp.ne_nil rfl
  | cons a q =>
    obtain ⟨rfl, -⟩ := hp.eq_underscore List.mem_cons_self hc hbegin
    exact hp.start ⟨q, rfl⟩

/-- A plain name does not end on a border, nor does it cross one. -/
theorem Plain.eq_nil_of_begins (names : List String) {q : List Char} (hq : q <:+ p)
    (h : Begins q (closeNames names)) : q = [] := by
  have hquote : '"' ∈ borderChars := by decide
  rcases q with _ | ⟨a, q⟩
  · rfl
  obtain ⟨rfl, hsecond⟩ := hp.eq_underscore (hq.subset List.mem_cons_self) hquote h
  have hq' : q <:+ p := (List.suffix_cons _ q).trans hq
  rcases q with _ | ⟨b, q⟩
  · exact absurd hq hp.stop
  have hb : b ∈ p := hq'.subset List.mem_cons_self
  rcases names with _ | ⟨name, names⟩
  · -- The list ends here.
    obtain ⟨rfl, hthird⟩ := hp.eq_underscore hb (by decide) hsecond
    rcases q with _ | ⟨d, q⟩
    · exact absurd hq' hp.stop
    · exact absurd hthird (not_begins_cons_nil d q)
  · -- Another name follows, after three characters.
    obtain ⟨rfl, hthird⟩ := hp.eq_underscore hb (by decide) hsecond
    have hq'' : q <:+ p := (List.suffix_cons _ q).trans hq'
    rcases q with _ | ⟨d, q⟩
    · exact absurd hq' hp.stop
    · obtain ⟨rfl, -⟩ := hp.eq_underscore (hq''.subset List.mem_cons_self) hquote hthird
      have hthree : ['_', '_', '_'] <+: '_' :: '_' :: '_' :: q := ⟨q, rfl⟩
      exact absurd (hthree.isInfix.trans hq.isInfix) hp.middle

theorem Plain.occurs_closeNames (name : String) (names : List String) :
    Occurs p (escaped name ++ closeNames names) ↔
      ∃ other ∈ name :: names, Occurs p (escaped other) := by
  have hquote : '"' ∈ borderChars := by decide
  constructor
  · intro h
    induction names generalizing name with
    | nil =>
      refine ⟨name, List.mem_cons_self, ?_⟩
      apply (Occurs.of_append (fun q ↦ hp.eq_nil_of_begins []) h).resolve_right
      exact fun hclose ↦
        hp.not_occurs_nil (hp.occurs_of_cons (by decide) (hp.occurs_of_cons hquote hclose))
    | cons next names ih =>
      rcases Occurs.of_append (fun q ↦ hp.eq_nil_of_begins (next :: names)) h with h | h
      · exact ⟨name, List.mem_cons_self, h⟩
      · rw [closeNames_cons] at h
        obtain ⟨other, hother, hoccurs⟩ := ih next
          (hp.occurs_of_cons hquote (hp.occurs_of_cons (by decide) (hp.occurs_of_cons hquote h)))
        exact ⟨other, List.mem_cons_of_mem _ hother, hoccurs⟩
  · rintro ⟨other, hother, hoccurs⟩
    induction names generalizing name with
    | nil =>
      rw [List.mem_singleton.mp hother] at hoccurs
      exact hoccurs.mono [] (closeNames [])
    | cons next names ih =>
      rcases List.mem_cons.mp hother with rfl | hother
      · exact hoccurs.mono [] (closeNames (next :: names))
      · have hrest := (ih next hother).mono (escaped name ++ ['"', ',', '"']) []
        rw [closeNames_cons]
        rwa [List.append_nil, List.append_assoc] at hrest

/-- **A plain name is found in the text of a list exactly as long as it is found in a name.** -/
theorem Plain.occurs_eventsText (names : List String) :
    Occurs p (eventsText names) ↔ ∃ name ∈ names, Occurs p (escaped name) := by
  cases names with
  | nil =>
    refine iff_of_false (fun h ↦ ?_) fun ⟨_, hname, _⟩ ↦ nomatch hname
    exact hp.not_occurs_nil (hp.occurs_of_cons (by decide) (hp.occurs_of_cons (by decide) h))
  | cons name names =>
    rw [eventsText_cons, ← hp.occurs_closeNames]
    constructor
    · exact fun h ↦ hp.occurs_of_cons (by decide) (hp.occurs_of_cons (by decide) h)
    · intro h
      have hrest := h.mono ['[', '"'] []
      rwa [List.append_nil] at hrest

theorem Plain.escape_eq : p.flatMap escape = p := by
  have hchar : ∀ c ∈ p, escape c = [c] := fun c hc ↦ (hp.char c hc).1
  rw [List.flatMap_congr hchar, List.flatMap_singleton']

/-- A plain name is found in every list that has it. -/
theorem Plain.occurs_self : Occurs p (p.flatMap escape) := by
  rw [hp.escape_eq]
  exact ⟨p, List.suffix_rfl, p, List.prefix_rfl, matches_self p⟩

end Plain

/-! ## The deliveries -/

variable {π : Type} {s : State π} {event : String} {payload : π}

/-- `deliver` starts to deliver the event to the webhook. -/
def Attempted (s : State π) (event : String) (payload : π) (webhook : ℕ × Webhook) : Prop :=
  ∃ delivery, Task.attempting (.event ⟨webhook.1, event, payload, delivery⟩ 0) webhook .finish
    (.posting 0) ∈ (deliver s event payload).tasks.drop s.tasks.length

theorem mem_deliverTasks {first : ℕ} {ws : List (ℕ × Webhook)} {webhook : ℕ × Webhook} :
    (∃ delivery, Task.attempting (.event ⟨webhook.1, event, payload, delivery⟩ 0) webhook .finish
      (.posting 0) ∈ deliverTasks event payload first ws) ↔ webhook ∈ ws := by
  induction ws generalizing first with
  | nil => exact iff_of_false (fun ⟨_, h⟩ ↦ nomatch h) (List.not_mem_nil)
  | cons w ws ih =>
    rw [List.mem_cons, ← @ih (first + 1)]
    constructor
    · rintro ⟨delivery, h⟩
      rcases List.mem_cons.mp h with h | h
      · exact .inl (Task.attempting.inj h).2.1
      · exact .inr ⟨delivery, h⟩
    · rintro (rfl | ⟨delivery, h⟩)
      · exact ⟨first, List.mem_cons_self⟩
      · exact ⟨delivery, List.mem_cons_of_mem _ h⟩

theorem attempted_iff {webhook : ℕ × Webhook} :
    Attempted s event payload webhook ↔
      webhook ∈ s.shared.webhooks.rows ∧ isInterested event webhook.2 := by
  rw [Attempted, deliver, List.drop_left, mem_deliverTasks, List.mem_filter]

/-- An active webhook without a list, or with a list that has the event. -/
def Wanted (event : String) (list : Option (List String)) (webhook : ℕ × Webhook) : Prop :=
  webhook.2.isActive = 1 ∧ ∀ names ∈ list, event ∈ names

/-- The search says whether a list has the event: a plain name is found in no other name of a list
that does not have it, and any other name is found where it should be. -/
def Fits (event : String) (names : List String) : Prop :=
  if Plain event.toList then
    (∃ name ∈ names, Occurs event.toList (escaped name)) → event ∈ names
  else like ('%' :: event.toList ++ ['%']) (eventsText names) = true ↔ event ∈ names

theorem fits_iff (event : String) (names : List String) :
    Fits event names ↔
      (like ('%' :: event.toList ++ ['%']) (eventsText names) = true ↔ event ∈ names) := by
  rw [Fits]
  split_ifs with hplain
  · have hwildcard : '%' ∉ event.toList := fun h ↦ (hplain.char _ h).2 List.mem_cons_self
    rw [like_wildcards hwildcard, hplain.occurs_eventsText]
    exact ⟨fun h ↦ ⟨h, fun hmem ↦ ⟨event, hmem, hplain.occurs_self⟩⟩, Iff.mp⟩
  · exact Iff.rfl

theorem isInterested_iff {w : Webhook} {list : Option (List String)}
    (hw : w.events = list.map fun names ↦ String.ofList (eventsText names)) :
    isInterested event w ↔ w.isActive = 1 ∧
      ∀ names ∈ list, like ('%' :: event.toList ++ ['%']) (eventsText names) = true := by
  rw [isInterested, Bool.and_eq_true, decide_eq_true_iff, hw]
  cases list with
  | none => exact and_congr_right fun _ ↦ iff_of_true rfl fun _ h ↦ nomatch h
  | some names =>
    simp only [Option.map_some, Option.mem_some_iff, forall_eq', String.toList_ofList]

/-- **Who gets an event.** An event is delivered to the active webhooks that have no list or have it
in their list, and to no others, exactly as long as it fits every list of an active webhook. -/
theorem attempted_iff_wanted (s : State π) (event : String) (payload : π)
    (lists : ℕ × Webhook → Option (List String))
    (hlists : ∀ r ∈ s.shared.webhooks.rows,
      r.2.events = (lists r).map fun names ↦ String.ofList (eventsText names)) :
    (∀ r, Attempted s event payload r ↔
      r ∈ s.shared.webhooks.rows ∧ Wanted event (lists r) r) ↔
    ∀ r ∈ s.shared.webhooks.rows, r.2.isActive = 1 → ∀ names ∈ lists r, Fits event names := by
  simp only [attempted_iff, Wanted, fits_iff]
  constructor
  · intro h r hr hactive names hnames
    have hr' := and_congr_right_iff.mp (h r) hr
    rw [isInterested_iff (hlists r hr)] at hr'
    have hlist := and_congr_right_iff.mp hr' hactive
    rw [Option.mem_def.mp hnames] at hlist
    simpa only [Option.mem_some_iff, forall_eq'] using hlist
  · intro h r
    refine and_congr_right fun hr ↦ ?_
    rw [isInterested_iff (hlists r hr)]
    exact and_congr_right fun hactive ↦ forall₂_congr fun names hnames ↦ h r hr hactive names hnames

/-- A webhook that wants the events of a longer name. -/
def sampleWebhook : Webhook := { events := some "[\"transaction.confirmed.v2\"]" }

def sampleState : State Unit := start (Table.insert default sampleWebhook)

theorem attempted_iff_wanted_at_sampleState :
    (∀ r, Attempted sampleState "transaction.confirmed.v2" () r ↔
      r ∈ sampleState.shared.webhooks.rows ∧
        Wanted "transaction.confirmed.v2" (some ["transaction.confirmed.v2"]) r) ↔
    ∀ r ∈ sampleState.shared.webhooks.rows, r.2.isActive = 1 →
      ∀ names ∈ some ["transaction.confirmed.v2"], Fits "transaction.confirmed.v2" names :=
  attempted_iff_wanted sampleState "transaction.confirmed.v2" ()
    (fun _ ↦ some ["transaction.confirmed.v2"]) (by decide)

/-- The webhook gets the event of the shorter name. -/
theorem attempted_of_longer_name :
    ¬∀ r, Attempted sampleState "transaction.confirmed" () r ↔
      r ∈ sampleState.shared.webhooks.rows ∧
        Wanted "transaction.confirmed" (some ["transaction.confirmed.v2"]) r := by
  intro h
  have hattempted : Attempted sampleState "transaction.confirmed" () (1, sampleWebhook) :=
    attempted_iff.mpr ⟨List.mem_cons_self, by decide⟩
  have hwanted := ((h _).mp hattempted).2.2 ["transaction.confirmed.v2"] rfl
  exact absurd hwanted (by decide)

end StellarDonations.Webhooks
