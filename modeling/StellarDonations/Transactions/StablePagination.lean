import StellarDonations.Transactions.Pagination

/-!
# Pages of a store that changes

A client follows the cursors of `getCursorPaginated` while records are created and deleted. In the
default order the cursor cuts the store by time and id, whatever the store holds: the pages of one
traversal have decreasing keys throughout, so nothing is returned twice, and a record that is there
all the time is returned before the traversal ends. Deleting the record that the cursor names, or
creating records on either side of it, changes nothing about this.
-/

namespace StellarDonations.Transactions

open Concurrency JsString Pages

/-! ## Traversals -/

/-- The store, and how far the client has got. -/
structure Reader where
  memory : Memory
  pages : Traversal Entry String

inductive ReaderAction where
  | create (now : ℕ) (data : NewTransaction) (uuid : String)
  /-- The object at a place gets a `deleted_at`. -/
  | softDelete (place now : ℕ)
  /-- The client asks for the next page. -/
  | request (limit : ℕ)

/-- A request asks for at least one record. -/
def ReaderAction.Valid : ReaderAction → Prop
  | request limit => 1 ≤ limit
  | create .. | softDelete .. => True

/-- A record is created under an id that is not in use. -/
def ReaderAction.Fresh (m : Memory) : ReaderAction → Prop
  | create _ data uuid => (orNull data.idempotencyKey).bind m.index.lookup = none →
      m.find (orElse data.id uuid) = none
  | softDelete .. | request _ => True

def Object.delete (now : ℕ) (tx : Object) : Object := { tx with deletedAt := some now }

section Traversals

variable (rt : Runtime) (o : LocaleOrder) (codec : CursorCodec) (q : PageQuery)

def Reader.step (s : Reader) : ReaderAction → Reader
  | .create now data uuid => { s with memory := s.memory.step (.call now (.create data uuid)) }
  | .softDelete place now => { s with memory := s.memory.modify place (Object.delete now) }
  | .request limit => { s with
      pages := s.pages.read fun c ↦
        s.memory.getCursorPaginated rt o codec { q with limit := limit, cursor := c } }

/-- The client has not asked for a page yet. -/
def Reader.starting (m : Memory) : Reader := ⟨m, Traversal.initial⟩

/-! ## What stays -/

/-- An object keeps its id and its time at its place. -/
def KeepsKeys (m m' : Memory) : Prop :=
  ∀ r tx, m.objects r = some tx →
    ∃ tx', m'.objects r = some tx' ∧ tx'.id = tx.id ∧ tx'.timestamp = tx.timestamp

variable {m : Memory}

theorem objects_insertNew (hm : m.WellFormed) (new : Object) {r : ℕ} {tx : Object}
    (h : m.objects r = some tx) : (m.insertNew new).objects r = some tx := by
  have hobjects : (m.insertNew new).objects = (m.alloc new).objects := by
    rw [Memory.insertNew, Memory.setIndex]
    split <;> rfl
  rw [hobjects]
  exact Memory.objects_alloc_of_some hm new h

theorem keepsKeys_create (hm : m.WellFormed) (now : ℕ) (data : NewTransaction) (uuid : String) :
    KeepsKeys m (m.step (.call now (.create data uuid))) := by
  intro r tx hobj
  have heffect := Memory.effect_step m now (.create data uuid)
  generalize m.step (.call now (.create data uuid)) = m' at heffect ⊢
  cases heffect with
  | unchanged => exact ⟨tx, hobj, rfl, rfl⟩
  | created => exact ⟨tx, objects_insertNew hm _ hobj, rfl, rfl⟩
  | saved hop => cases hop
  | modified hop => cases hop

theorem keepsKeys_delete (m : Memory) (place now : ℕ) :
    KeepsKeys m (m.modify place (Object.delete now)) := by
  intro r tx hobj
  rw [Memory.modify_objects]
  by_cases hr : r = place
  · subst hr
    exact ⟨tx.delete now, by rw [Function.update_self, hobj]; rfl, rfl, rfl⟩
  · exact ⟨tx, by rw [Function.update_of_ne hr]; exact hobj, rfl, rfl⟩

/-! ## The invariant -/

/-- The pages returned are those of a traversal by keys, and the objects returned still have the
keys they had. -/
structure Reader.Sound (s : Reader) (t : Traversal Entry (CursorKey o)) : Prop where
  wellFormed : s.memory.WellFormed
  pages : s.pages = t.map (q.cursorOf codec)
  sound : t.Sound (Entry.key o)
  kept : ∀ e ∈ t.returned, ∃ tx, s.memory.objects e.place = some tx ∧ tx.id = e.tx.id ∧
    tx.timestamp = e.tx.timestamp

variable {o codec q} {s : Reader} {t : Traversal Entry (CursorKey o)}

/-- The traversal by keys that a step makes. -/
def advance (rt : Runtime) (q : PageQuery) (s : Reader) (t : Traversal Entry (CursorKey o)) :
    ReaderAction → Traversal Entry (CursorKey o)
  | .request limit => t.read (page (Entry.key o) (min limit 100) (s.memory.sorted rt o q))
  | .create .. | .softDelete .. => t

theorem mem_sorted {e : Entry} : e ∈ m.sorted rt o q ↔ e ∈ m.active rt q :=
  (Memory.sorted_perm rt o q).mem_iff

theorem Reader.sound_step (horder : q.order rt = {}) (h : s.Sound o codec q t) {a : ReaderAction}
    (hvalid : a.Valid) : (s.step rt o codec q a).Sound o codec q (advance rt q s t a) := by
  have hkept : ∀ m', KeepsKeys s.memory m' → ∀ e ∈ t.returned,
      ∃ tx, m'.objects e.place = some tx ∧ tx.id = e.tx.id ∧ tx.timestamp = e.tx.timestamp := by
    intro m' hkeeps e he
    obtain ⟨tx, hobj, hid, htime⟩ := h.kept e he
    obtain ⟨tx', hobj', hid', htime'⟩ := hkeeps e.place tx hobj
    exact ⟨tx', hobj', hid'.trans hid, htime'.trans htime⟩
  cases a with
  | create now data uuid =>
    exact ⟨Memory.wellFormed_step s.memory (.call now (.create data uuid)) h.wellFormed, h.pages,
      h.sound, hkept _ (keepsKeys_create h.wellFormed now data uuid)⟩
  | softDelete place now =>
    exact ⟨h.wellFormed.modify place (fun _ ↦ rfl) fun _ ↦ rfl, h.pages, h.sound,
      hkept _ (keepsKeys_delete s.memory place now)⟩
  | request limit =>
    have hdescending := Memory.sorted_descending rt o q h.wellFormed horder
    have hlimit : 0 < min limit 100 := by
      have hpos : 1 ≤ limit := hvalid
      omega
    refine ⟨h.wellFormed, ?_, h.sound.read hlimit hdescending, fun e he ↦ ?_⟩
    · rw [Reader.step, h.pages]
      exact Traversal.read_map _ (fun c ↦ s.memory.getCursorPaginated rt o codec
        { q with limit := limit, cursor := c }) (q.cursorOf codec)
        (Memory.getCursorPaginated_eq rt o codec { q with limit := limit }) t
    · rw [advance, Traversal.read] at he
      split_ifs at he
      · exact h.kept e he
      · rcases List.mem_append.mp he with hold | hnew
        · exact h.kept e hold
        · have hmem := (mem_of_mem_page hdescending hnew).1
          have hactive := List.mem_of_mem_filter ((mem_sorted rt).mp hmem)
          exact ⟨e.tx, ((Memory.mem_entries h.wellFormed).mp hactive).2, rfl, rfl⟩

theorem Reader.covers_step (horder : q.order rt = {}) (h : s.Sound o codec q t) {a : ReaderAction}
    (hvalid : a.Valid) {e : Entry} (hactive : e ∈ s.memory.active rt q)
    (hcovers : t.Covers (Entry.key o) e) : (advance rt q s t a).Covers (Entry.key o) e := by
  cases a with
  | create | softDelete => exact hcovers
  | request limit =>
    have hlimit : 0 < min limit 100 := by
      have hpos : 1 ≤ limit := hvalid
      omega
    exact hcovers.read hlimit (Memory.sorted_descending rt o q h.wellFormed horder)
      ((mem_sorted rt).mpr hactive)

theorem Reader.Sound.nodup_places (h : s.Sound o codec q t) :
    (t.returned.map fun e ↦ e.place).Nodup := by
  refine List.pairwise_map.mpr (h.sound.descending.imp_of_mem fun {a b} ha hb hlt hplace ↦ ?_)
  obtain ⟨tx, hobj, hid, htime⟩ := h.kept a ha
  obtain ⟨tx', hobj', hid', htime'⟩ := h.kept b hb
  rw [← hplace, hobj] at hobj'
  cases hobj'
  rw [Entry.key, Entry.key, ← hid, ← htime, ← hid', ← htime'] at hlt
  exact lt_irrefl _ hlt

/-- The records returned are still those of their ids. -/
def Reader.Holds (s : Reader) (t : Traversal Entry (CursorKey o)) : Prop :=
  ∀ e ∈ t.returned, s.memory.store.lookup e.tx.id = some e.place

theorem Reader.holds_step (horder : q.order rt = {}) (h : s.Sound o codec q t) {a : ReaderAction}
    (hfresh : a.Fresh s.memory) (hholds : s.Holds t) :
    (s.step rt o codec q a).Holds (advance rt q s t a) := by
  intro e he
  cases a with
  | create now data uuid =>
    have heffect := Memory.effect_step s.memory now (.create data uuid)
    change (s.memory.step (.call now (.create data uuid))).store.lookup e.tx.id = some e.place
    generalize s.memory.step (.call now (.create data uuid)) = m' at heffect ⊢
    cases heffect with
    | unchanged => exact hholds e he
    | created status hop hindex =>
      cases hop
      -- the new record is not under the id of one that was returned
      have hne : e.tx.id ≠ (data.object status uuid now).id := by
        intro hid
        obtain ⟨tx, hfind, -⟩ := h.wellFormed.find_of_lookup (hholds e he)
        rw [hid, data.id_object, hfresh hindex] at hfind
        cases hfind
      refine (Memory.lookup_loadOne_store s.memory _ _).trans ?_
      rw [if_neg hne]
      exact hholds e he
    | saved hop => cases hop
    | modified hop => cases hop
  | softDelete place now => exact hholds e he
  | request limit =>
    rw [advance, Traversal.read] at he
    split_ifs at he
    · exact hholds e he
    · rcases List.mem_append.mp he with hold | hnew
      · exact hholds e hold
      · have hdescending := Memory.sorted_descending rt o q h.wellFormed horder
        have hmem := (mem_of_mem_page hdescending hnew).1
        have hactive := List.mem_of_mem_filter ((mem_sorted rt).mp hmem)
        exact ((Memory.mem_entries h.wellFormed).mp hactive).1

theorem Reader.Sound.nodup_ids (h : s.Sound o codec q t) (hholds : s.Holds t) :
    (t.returned.map fun e ↦ e.tx.id).Nodup := by
  refine List.pairwise_map.mpr
    ((List.pairwise_map.mp h.nodup_places).imp_of_mem fun {a b} ha hb hne hid ↦ ?_)
  have hplace := hholds a ha
  rw [hid, hholds b hb] at hplace
  exact hne (Option.some.inj hplace).symm

/-! ## Runs -/

theorem Reader.exists_traversal (horder : q.order rt = {}) (hm : m.WellFormed)
    {as : List ReaderAction} (hvalid : ∀ a ∈ as, a.Valid)
    {R : Reader → Traversal Entry (CursorKey o) → Prop} {C : Reader → ReaderAction → Prop}
    (hstart : R (Reader.starting m) Traversal.initial)
    (hstep : ∀ s t a, s.Sound o codec q t → a.Valid → C s a → R s t →
      R (s.step rt o codec q a) (advance rt q s t a))
    (hC : Along (Reader.step rt o codec q) C (Reader.starting m) as) :
    ∃ t, (run (Reader.step rt o codec q) (Reader.starting m) as).Sound o codec q t ∧
      R (run (Reader.step rt o codec q) (Reader.starting m) as) t := by
  have hinv : Always (Reader.step rt o codec q) (fun s ↦ ∃ t, s.Sound o codec q t ∧ R s t)
      (Reader.starting m) as := by
    refine ((along_of_forall_mem (fun a ha _ ↦ hvalid a ha) _).and hC).always
      (fun s a h hC ↦ ?_) ⟨Traversal.initial, ?_, hstart⟩
    · obtain ⟨t, hsound, hR⟩ := h
      exact ⟨_, Reader.sound_step rt horder hsound hC.1, hstep s t a hsound hC.1 hC.2 hR⟩
    · exact ⟨hm, rfl, Traversal.sound_initial, by rintro e ⟨⟩⟩
  exact hinv.last

end Traversals

/-- **The default pages are stable.** In every traversal in the default order, with any filters and
any limits, interleaved with any creates and deletions: no record is returned twice, nor is an id
when records are created under ids not in use; and when the traversal has ended, every record that
was in the store, undeleted and matching, all the time has been returned exactly once. -/
theorem default_pages_stable (rt : Runtime) (o : LocaleOrder) (codec : CursorCodec) (q : PageQuery)
    (horder : q.order rt = {}) {m : Memory} (hm : m.WellFormed) (as : List ReaderAction)
    (hvalid : ∀ a ∈ as, a.Valid) :
    let s := run (Reader.step rt o codec q) (Reader.starting m) as
    (s.pages.returned.map fun e ↦ e.place).Nodup ∧
    (Along (Reader.step rt o codec q) (fun s a ↦ a.Fresh s.memory) (Reader.starting m) as →
      (s.pages.returned.map fun e ↦ e.tx.id).Nodup) ∧
    (s.pages.finished = true → ∀ e,
      Always (Reader.step rt o codec q) (fun s ↦ e ∈ s.memory.active rt q) (Reader.starting m) as →
        e ∈ s.pages.returned ∧ (s.pages.returned.map fun e ↦ e.place).count e.place = 1) := by
  intro s
  have hplaces : (s.pages.returned.map fun e ↦ e.place).Nodup := by
    obtain ⟨t, hsound, -⟩ := Reader.exists_traversal (R := fun _ _ ↦ True) (C := fun _ _ ↦ True) rt
      horder hm hvalid trivial (fun _ _ _ _ _ _ _ ↦ trivial)
      (along_of_forall_mem (fun _ _ _ ↦ trivial) _)
    rw [hsound.pages]
    exact hsound.nodup_places
  refine ⟨hplaces, fun hfresh ↦ ?_, fun hfinished e hpresent ↦ ?_⟩
  · obtain ⟨t, hsound, hholds⟩ := Reader.exists_traversal (R := Reader.Holds) rt horder hm hvalid
      (by rintro e ⟨⟩) (fun s t a h _ hC hholds ↦ Reader.holds_step rt horder h hC hholds) hfresh
    rw [hsound.pages]
    exact hsound.nodup_ids hholds
  · have hthere : Along (Reader.step rt o codec q) (fun s _ ↦ e ∈ s.memory.active rt q)
        (Reader.starting m) as :=
      (along_of_forall_mem (C := fun _ _ ↦ True) (fun _ _ _ ↦ trivial) _).of_always
        (fun _ _ h _ ↦ h) hpresent
    obtain ⟨t, hsound, hcovers⟩ := Reader.exists_traversal
      (R := fun _ t ↦ t.Covers (Entry.key o) e) rt horder hm hvalid
      (.inr ⟨rfl, by rintro k ⟨⟩⟩)
      (fun s t a h hvalid hC hcovers ↦ Reader.covers_step rt horder h hvalid hC hcovers) hthere
    have hmem : e ∈ s.pages.returned := by
      rw [hsound.pages] at hfinished ⊢
      refine hcovers.resolve_right fun hopen ↦ ?_
      rw [show t.finished = true from hfinished] at hopen
      cases hopen.1
    exact ⟨hmem, List.count_eq_one_of_mem hplaces (List.mem_map_of_mem hmem)⟩

/-- Two donations are read one by one; after the first page its record is deleted, and a newer and
an older one are created. -/
theorem default_pages_stable_interleaved :
    let s := run (Reader.step asciiRuntime codePointOrder markedCodec {})
      (Reader.starting twoDonations) [.request 1, .softDelete 1 3,
        .create 4 { amount := 3, donor := none, recipient := none } "tx3",
        .create 5 { amount := 4, donor := none, recipient := none, timestamp := some 0 } "tx0",
        .request 1, .request 1]
    (s.pages.returned.map fun e ↦ e.place).Nodup ∧
      s.pages.returned.map (fun e ↦ e.tx.id) = ["tx2", "tx1", "tx0"] :=
  ⟨(default_pages_stable asciiRuntime codePointOrder markedCodec {} rfl wellFormed_twoDonations _
    (by simp [ReaderAction.Valid])).1, by decide⟩

end StellarDonations.Transactions
