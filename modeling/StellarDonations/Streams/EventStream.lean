import Mathlib.Algebra.Order.Ring.Rat
import StellarDonations.Concurrency.Run
import StellarDonations.Containers.Resume
import StellarDonations.Text.JsString

/-!
# The event stream and its resumption

`SseManager` and `PubSubAdapter`: every instance numbers the events that it broadcasts and keeps the
last of them for readers that reconnect. An event travels to all instances through the adapter, and
each of them writes it, under the number that its origin has given it, to its own readers. What an
instance receives it does not keep.

A reader that reconnects to `GET /stream/feed` names the number of the last event it has read. It
has missed the events of its subscription that were broadcast since. The model has the log of all
broadcasts for this purpose, and every event has its origin and its position in the log; the code
reads neither of them.
-/

namespace StellarDonations.EventStream

open Concurrency JsString Resume

/-! ## Events and subscriptions -/

/-- A `campaignId`: a column of a row, or a part of a path. -/
inductive CampaignId where
  | number (n : ℕ)
  | text (s : String)
  deriving DecidableEq

/-- The data of an event, as far as the filters read it. -/
structure Data where
  donor : Option String := none
  recipient : Option String := none
  campaignId : Option CampaignId := none
  status : Option String := none
  window : Option String := none
  /-- `amount` as a number, when it is one or the text of one. -/
  amount : Option ℚ := none
  deriving DecidableEq

structure Filters where
  walletAddress : Option String := none
  campaignId : Option CampaignId := none
  status : Option String := none
  window : Option String := none
  minAmount : Option ℚ := none
  maxAmount : Option ℚ := none

/-- `filters.campaignId`, when it is truthy. -/
def truthyId : Option CampaignId → Option CampaignId
  | some (.number n) => if n = 0 then none else some (.number n)
  | some (.text s) => if s = "" then none else some (.text s)
  | none => none

/-- `_matches`. -/
def matchesFilter (filters : Filters) (data : Data) : Bool :=
  (match orNull filters.walletAddress with
    | some walletAddress => data.donor = some walletAddress || data.recipient = some walletAddress
    | none => true) &&
  (match truthyId filters.campaignId with
    | some campaignId => data.campaignId = some campaignId
    | none => true) &&
  (match orNull filters.status with
    | some status => data.status = some status
    | none => true) &&
  (match filters.minAmount with
    | some minAmount => data.amount.any (minAmount ≤ ·)
    | none => true) &&
  (match filters.maxAmount with
    | some maxAmount => data.amount.any (· ≤ maxAmount)
    | none => true) &&
  (match orNull filters.window with
    | some window => data.window = some window
    | none => true)

variable {ι κ : Type*}

structure Event (ι : Type*) where
  /-- The number of events broadcast before it. -/
  position : ℕ
  origin : ι
  id : ℕ
  event : String
  data : Data
  deriving DecidableEq

/-! ## The system -/

/-- An entry of `_clients`. -/
structure Connection (κ : Type*) where
  clientId : ℕ
  /-- The program that has connected. -/
  reader : κ
  apiKey : String
  filters : Filters

/-- The `SseManager` of an instance. -/
structure Manager (ι κ : Type*) where
  clients : List (Connection κ) := []
  eventBuffer : List (Event ι) := []
  nextEventId : ℕ := 1

/-- The last event that a reader has read: its number, and how many events were broadcast up to
it. -/
structure Last where
  id : ℕ
  position : ℕ
  deriving DecidableEq

structure Reader where
  /-- The connection that is open. -/
  connection : Option ℕ := none
  last : Option Last := none

/-- `PUBSUB_ADAPTER`. -/
inductive Adapter where
  | memory
  | redis
  deriving DecidableEq

structure Config where
  adapter : Adapter
  eventBufferSize : ℕ
  maxConnectionsPerKey : ℕ

/-- All instances, the readers, and the messages between the instances. -/
structure State (ι κ : Type*) where
  manager : ι → Manager ι κ
  reader : κ → Reader
  /-- The calls of `publish` under way. -/
  publishing : List (Event ι) := []
  /-- The messages on the way to each instance. -/
  network : ι → List (Event ι)
  /-- Everything that was broadcast. -/
  log : List (Event ι) := []
  /-- The number of connections so far. -/
  connections : ℕ := 0

inductive Route where
  /-- `GET /stream/feed`. -/
  | feed
  /-- `GET /leaderboard/stream`. -/
  | leaderboard
  /-- `GET /campaigns/:id/progress/stream`. -/
  | campaign
  deriving DecidableEq

inductive Action (ι κ : Type*) where
  | broadcast (i : ι) (event : String) (data : Data)
  /-- A call of `publish` ends. -/
  | publish (n : ℕ) (ok : Bool)
  /-- The next message arrives at an instance. -/
  | receive (i : ι)
  /-- A reader connects to an instance. -/
  | connect (i : ι) (k : κ) (route : Route) (apiKey : String) (filters : Filters)
  /-- A reader loses its connection. -/
  | disconnect (k : κ)
  /-- An instance notices that a connection is closed. -/
  | removeClient (i : ι) (clientId : ℕ)

namespace Manager

def connectionCountForKey (m : Manager ι κ) (apiKey : String) : ℕ :=
  m.clients.countP (·.apiKey = apiKey)

/-- The replay buffer with a new event. -/
def push (size : ℕ) (m : Manager ι κ) (e : Event ι) : List (Event ι) :=
  if size < (m.eventBuffer ++ [e]).length then (m.eventBuffer ++ [e]).tail else m.eventBuffer ++ [e]

def getMissedEvents (m : Manager ι κ) (lastEventId : ℕ) : List (Event ι) :=
  m.eventBuffer.filter fun e ↦ lastEventId < e.id

end Manager

namespace State

def start : State ι κ where
  manager _ := {}
  reader _ := {}
  network _ := []

variable [DecidableEq ι] [DecidableEq κ] (cfg : Config) (s : State ι κ)

/-- The event is written to the reader: it reads on the connection, whose filters let it pass. -/
def Writes (i : ι) (e : Event ι) (k : κ) : Prop :=
  ∃ c ∈ (s.manager i).clients, c.reader = k ∧ (s.reader k).connection = some c.clientId ∧
    matchesFilter c.filters e.data = true

instance decidableWrites (i : ι) (e : Event ι) : DecidablePred (s.Writes i e) :=
  fun k ↦ inferInstanceAs (Decidable (∃ c ∈ (s.manager i).clients, c.reader = k ∧
    (s.reader k).connection = some c.clientId ∧ matchesFilter c.filters e.data = true))

def deliverLocally (i : ι) (e : Event ι) : State ι κ :=
  { s with
    reader := fun k ↦ if s.Writes i e k then
      { s.reader k with last := some ⟨e.id, e.position + 1⟩ }
      else s.reader k }

/-- `broadcast`. The in-process adapter emits the message before it returns. -/
def broadcast (i : ι) (event : String) (data : Data) : State ι κ :=
  let m := s.manager i
  let e : Event ι := ⟨s.log.length, i, m.nextEventId, event, data⟩
  let s' : State ι κ := { s with
    manager := Function.update s.manager i { m with
      eventBuffer := m.push cfg.eventBufferSize e
      nextEventId := m.nextEventId + 1 }
    log := s.log ++ [e] }
  match cfg.adapter with
  | .memory => s'.deliverLocally i e
  | .redis => { s' with publishing := s'.publishing ++ [e] }

/-- The message is sent to all instances, or `publish` fails and the event is delivered here. -/
def publish (n : ℕ) (ok : Bool) : State ι κ :=
  match s.publishing[n]? with
  | none => s
  | some e =>
    let s' : State ι κ := { s with publishing := s.publishing.eraseIdx n }
    if ok then { s' with network := fun i ↦ s.network i ++ [e] } else s'.deliverLocally e.origin e

def receive (i : ι) : State ι κ :=
  match s.network i with
  | [] => s
  | e :: rest => { s with network := Function.update s.network i rest }.deliverLocally i e

/-- The instance lets the connection in. -/
def Accepts (i : ι) (apiKey : String) : Prop :=
  (s.manager i).connectionCountForKey apiKey < cfg.maxConnectionsPerKey

instance decidableAccepts (i : ι) (apiKey : String) : Decidable (s.Accepts cfg i apiKey) :=
  inferInstanceAs
    (Decidable ((s.manager i).connectionCountForKey apiKey < cfg.maxConnectionsPerKey))

/-- The events that are written to a reader when it connects with its last number. -/
def replayed (i : ι) (k : κ) (route : Route) (filters : Filters) : List (Event ι) :=
  match route, (s.reader k).last with
  | .feed, some last =>
    ((s.manager i).getMissedEvents last.id).filter fun e ↦ matchesFilter filters e.data
  | _, _ => []

/-- What the reader has read last when it is connected: the event `connected` with the number 0, or
the snapshot with the number 1. The route of the campaigns writes no number. -/
def lastAfter (route : Route) (last : Option Last) : Option Last :=
  match route with
  | .feed => some ⟨0, s.log.length⟩
  | .leaderboard => some ⟨1, s.log.length⟩
  | .campaign => last

def connect (i : ι) (k : κ) (route : Route) (apiKey : String) (filters : Filters) : State ι κ :=
  if s.Accepts cfg i apiKey then
    { s with
      manager := Function.update s.manager i { s.manager i with
        clients := (s.manager i).clients ++ [⟨s.connections, k, apiKey, filters⟩] }
      reader := Function.update s.reader k
        ⟨some s.connections, s.lastAfter route (s.reader k).last⟩
      connections := s.connections + 1 }
  else s

def disconnect (k : κ) : State ι κ :=
  { s with reader := Function.update s.reader k { s.reader k with connection := none } }

def removeClient (i : ι) (clientId : ℕ) : State ι κ :=
  { s with manager := Function.update s.manager i { s.manager i with
      clients := (s.manager i).clients.filter (·.clientId ≠ clientId) } }

end State

variable [DecidableEq ι] [DecidableEq κ]

def step (cfg : Config) (s : State ι κ) : Action ι κ → State ι κ
  | .broadcast i event data => s.broadcast cfg i event data
  | .publish n ok => s.publish n ok
  | .receive i => s.receive i
  | .connect i k route apiKey filters => s.connect cfg i k route apiKey filters
  | .disconnect k => s.disconnect k
  | .removeClient i clientId => s.removeClient i clientId

/-! ## What must hold -/

/-- A reader that connects with its last event is replayed exactly the events of its subscription
that were broadcast after it, when they are no more than a buffer holds. -/
def Resumes (cfg : Config) (s : State ι κ) : Action ι κ → Prop
  | .connect i k route apiKey filters => s.Accepts cfg i apiKey → ∀ last ∈ (s.reader k).last,
      (s.log.drop last.position).length ≤ cfg.eventBufferSize →
        s.replayed i k route filters =
          (s.log.drop last.position).filter fun e ↦ matchesFilter filters e.data
  | _ => True

instance decidableResumes (cfg : Config) (s : State ι κ) :
    ∀ a : Action ι κ, Decidable (Resumes cfg s a)
  | .connect i k route apiKey filters => inferInstanceAs (Decidable
      (s.Accepts cfg i apiKey → ∀ last ∈ (s.reader k).last,
        (s.log.drop last.position).length ≤ cfg.eventBufferSize →
          s.replayed i k route filters =
            (s.log.drop last.position).filter fun e ↦ matchesFilter filters e.data))
  | .broadcast .. | .publish .. | .receive _ | .disconnect _ | .removeClient .. => .isTrue trivial

/-- The condition: all that the reader has missed was broadcast by the instance it connects to, with
greater numbers, and nothing that was broadcast before and that the instance has kept has a greater
number. Only the feed replays anything. -/
def Resumable (cfg : Config) (s : State ι κ) : Action ι κ → Prop
  | .connect i k route apiKey filters => s.Accepts cfg i apiKey → ∀ last ∈ (s.reader k).last,
      (s.log.drop last.position).length ≤ cfg.eventBufferSize →
        (∀ e ∈ s.log.drop last.position, matchesFilter filters e.data = true →
          route = .feed ∧ e.origin = i ∧ last.id < e.id) ∧
        (route = .feed → ∀ e ∈ (s.manager i).eventBuffer, e.position < last.position →
          matchesFilter filters e.data = true → e.id ≤ last.id)
  | _ => True

/-! ## The log and the buffers -/

def own (i : ι) (e : Event ι) : Bool := e.origin = i

/-- Every instance has numbered its own events from 1 on and keeps the last of them. -/
structure Sound (cfg : Config) (s : State ι κ) : Prop where
  buffer : ∀ i, (s.manager i).eventBuffer = kept (own i) cfg.eventBufferSize s.log
  position : s.log.map Event.position = List.range s.log.length
  nextEventId : ∀ i, (s.manager i).nextEventId = (s.log.filter (own i)).length + 1
  id : ∀ i, (s.log.filter (own i)).map Event.id = List.range' 1 (s.log.filter (own i)).length

variable {cfg : Config} {s s' : State ι κ} {i : ι} {k : κ}

omit [DecidableEq κ] in
theorem sound_start : Sound cfg (State.start : State ι κ) where
  buffer i := (kept_nil : kept (own i) cfg.eventBufferSize [] = []).symm
  position := rfl
  nextEventId _ := rfl
  id _ := rfl

omit [DecidableEq κ] in
theorem Sound.congr (h : Sound cfg s) (hlog : s'.log = s.log)
    (hbuffer : ∀ i, (s'.manager i).eventBuffer = (s.manager i).eventBuffer)
    (hnext : ∀ i, (s'.manager i).nextEventId = (s.manager i).nextEventId) : Sound cfg s' where
  buffer i := by rw [hbuffer, hlog, h.buffer i]
  position := by rw [hlog, h.position]
  nextEventId i := by rw [hnext, hlog, h.nextEventId i]
  id i := by rw [hlog, h.id i]

omit [DecidableEq κ] in
theorem Sound.clients (h : Sound cfg s) (i : ι) (clients : List (Connection κ))
    (hlog : s'.log = s.log)
    (hmanager : s'.manager = Function.update s.manager i { s.manager i with clients := clients }) :
    Sound cfg s' := by
  refine h.congr hlog (fun j ↦ ?_) fun j ↦ ?_
  all_goals
    rw [hmanager]
    by_cases hj : j = i
    · rw [hj, Function.update_self]
    · rw [Function.update_of_ne hj]

omit [DecidableEq ι] [DecidableEq κ] in
/-- A full buffer loses its oldest event. -/
theorem Manager.push_eq {size : ℕ} {m : Manager ι κ} {e : Event ι}
    (h : m.eventBuffer.length ≤ size) : m.push size e = (m.eventBuffer ++ [e]).rtake size := by
  have hlength : (m.eventBuffer ++ [e]).length = m.eventBuffer.length + 1 :=
    List.length_append
  rw [push, List.rtake]
  by_cases hfull : size < (m.eventBuffer ++ [e]).length
  · have hone : (m.eventBuffer ++ [e]).length - size = 1 := by omega
    rw [if_pos hfull, hone, List.drop_one]
  · have hzero : (m.eventBuffer ++ [e]).length - size = 0 := by omega
    rw [if_neg hfull, hzero, List.drop_zero]

theorem broadcast_log (event : String) (data : Data) :
    (s.broadcast cfg i event data).log =
      s.log ++ [⟨s.log.length, i, (s.manager i).nextEventId, event, data⟩] := by
  rw [State.broadcast]
  cases cfg.adapter <;> rfl

theorem broadcast_manager (event : String) (data : Data) :
    (s.broadcast cfg i event data).manager = Function.update s.manager i { s.manager i with
      eventBuffer := (s.manager i).push cfg.eventBufferSize
        ⟨s.log.length, i, (s.manager i).nextEventId, event, data⟩
      nextEventId := (s.manager i).nextEventId + 1 } := by
  rw [State.broadcast]
  cases cfg.adapter <;> rfl

theorem Sound.broadcast (h : Sound cfg s) (i : ι) (event : String) (data : Data) :
    Sound cfg (s.broadcast cfg i event data) := by
  set e : Event ι := ⟨s.log.length, i, (s.manager i).nextEventId, event, data⟩ with he
  have hown : own i e = true := decide_eq_true rfl
  have hlog : (s.broadcast cfg i event data).log = s.log ++ [e] := broadcast_log event data
  have hself : (s.log ++ [e]).filter (own i) = s.log.filter (own i) ++ [e] := by
    rw [List.filter_append, List.filter_cons_of_pos hown, List.filter_nil]
  have hother : ∀ j, j ≠ i → own j e = false := fun j hj ↦ decide_eq_false (Ne.symm hj)
  have hrest : ∀ j, j ≠ i → (s.log ++ [e]).filter (own j) = s.log.filter (own j) := by
    intro j hj
    rw [List.filter_append, List.filter_cons_of_neg (by rw [hother j hj]; simp), List.filter_nil,
      List.append_nil]
  constructor
  · intro j
    rw [broadcast_manager, hlog]
    by_cases hj : j = i
    · subst hj
      have hsize : (s.manager j).eventBuffer.length ≤ cfg.eventBufferSize := by
        rw [h.buffer j, kept, List.rtake, List.length_drop]
        omega
      rw [Function.update_self, kept_concat_of_own s.log hown, ← h.buffer j]
      exact Manager.push_eq hsize
    · rw [Function.update_of_ne hj, kept_concat_of_not_own s.log (hother j hj), h.buffer j]
  · rw [hlog, List.map_append, h.position, List.length_append]
    exact List.range_succ.symm
  · intro j
    rw [broadcast_manager, hlog]
    by_cases hj : j = i
    · subst hj
      rw [Function.update_self, hself, List.length_append]
      exact congrArg (· + 1) (h.nextEventId j)
    · rw [Function.update_of_ne hj, hrest j hj, h.nextEventId j]
  · intro j
    rw [hlog]
    by_cases hj : j = i
    · subst hj
      have hid : e.id = 1 + (s.log.filter (own j)).length := by
        rw [add_comm]
        exact h.nextEventId j
      rw [hself, List.map_append, h.id j, List.length_append, List.map_singleton, hid,
        List.length_singleton, List.range'_1_concat]
    · rw [hrest j hj, h.id j]

theorem Sound.step (h : Sound cfg s) (a : Action ι κ) : Sound cfg (step cfg s a) := by
  cases a with
  | broadcast i event data => exact h.broadcast i event data
  | publish n ok =>
    rw [EventStream.step, State.publish]
    split
    · exact h
    · cases ok <;> exact h.congr rfl (fun _ ↦ rfl) fun _ ↦ rfl
  | receive i =>
    rw [EventStream.step, State.receive]
    split
    · exact h
    · exact h.congr rfl (fun _ ↦ rfl) fun _ ↦ rfl
  | connect i k route apiKey filters =>
    rw [EventStream.step, State.connect]
    split
    · exact h.clients i _ rfl rfl
    · exact h
  | disconnect k => exact h.congr rfl (fun _ ↦ rfl) fun _ ↦ rfl
  | removeClient i clientId => exact h.clients i _ rfl rfl

/-! ## What a reader is replayed -/

omit [DecidableEq κ] in
theorem Sound.position_lt (h : Sound cfg s) {n : ℕ} {e : Event ι} (he : e ∈ s.log.take n) :
    e.position < n := by
  have hmem : e.position ∈ (s.log.take n).map Event.position := List.mem_map_of_mem he
  rw [List.map_take, h.position, List.take_range] at hmem
  exact (List.mem_range.mp hmem).trans_le (min_le_left _ _)

omit [DecidableEq κ] in
theorem Sound.le_position (h : Sound cfg s) {n : ℕ} {e : Event ι} (he : e ∈ s.log.drop n) :
    n ≤ e.position := by
  have hmem : e.position ∈ (s.log.drop n).map Event.position := List.mem_map_of_mem he
  rw [List.map_drop, h.position, List.range_eq_range', List.drop_range', List.mem_range'_1] at hmem
  omega

omit [DecidableEq κ] in
/-- The buffer of the instance without what was broadcast from the position on. -/
theorem Sound.mem_old_iff (h : Sound cfg s) {n : ℕ}
    (hsize : (s.log.drop n).length ≤ cfg.eventBufferSize) {e : Event ι} :
    e ∈ ((s.log.take n).filter (own i)).rtake
        (cfg.eventBufferSize - ((s.log.drop n).filter (own i)).length) ↔
      e ∈ (s.manager i).eventBuffer ∧ e.position < n := by
  rw [h.buffer i, ← List.take_append_drop n s.log, kept_append hsize, List.take_append_drop,
    List.mem_append]
  constructor
  · intro he
    have hmem : e ∈ s.log.take n := (List.mem_filter.mp ((List.drop_sublist _ _).subset he)).1
    exact ⟨.inl he, h.position_lt hmem⟩
  · rintro ⟨he | he, hlt⟩
    · exact he
    · exact absurd hlt (h.le_position (List.mem_filter.mp he).1).not_gt

omit [DecidableEq κ] in
theorem replayed_feed (h : Sound cfg s) {last : Last} (hlast : (s.reader k).last = some last)
    (filters : Filters) :
    s.replayed i k .feed filters = replay (own i) (fun e ↦ matchesFilter filters e.data) Event.id
      cfg.eventBufferSize (s.log.take last.position ++ s.log.drop last.position) last.id := by
  simp only [State.replayed, hlast]
  rw [Manager.getMissedEvents, h.buffer i, replay, List.take_append_drop]

omit [DecidableEq ι] [DecidableEq κ] in
theorem replayed_of_ne_feed {route : Route} (h : route ≠ .feed) (filters : Filters) :
    s.replayed i k route filters = [] := by
  cases route with
  | feed => exact absurd rfl h
  | leaderboard => rfl
  | campaign => rfl

omit [DecidableEq κ] in
theorem Sound.resumes_iff (h : Sound cfg s) (a : Action ι κ) :
    Resumes cfg s a ↔ Resumable cfg s a := by
  cases a with
  | connect i k route apiKey filters =>
    refine forall_congr' fun _ ↦ forall_congr' fun last ↦ forall_congr' fun hlast ↦
      forall_congr' fun hsize ↦ ?_
    by_cases hfeed : route = .feed
    · subst hfeed
      rw [replayed_feed h hlast, replay_eq_iff hsize]
      refine and_congr ?_ ?_
      · simp only [own, decide_eq_true_iff, true_and]
      · simp only [h.mem_old_iff hsize, and_imp, true_imp_iff]
    · rw [replayed_of_ne_feed hfeed, eq_comm, List.filter_eq_nil_iff]
      simp only [hfeed, false_and, imp_false, false_imp_iff, and_true]
  | _ => exact Iff.rfl

/-- **Resumption.** A run in which every reader that reconnects is replayed exactly what it has
missed is a run in which every reader that reconnects has missed only events of the instance it
connects to, on the feed, and in which the number of the last event it has read separates them from
the earlier events that the instance has kept. -/
theorem resumes_iff_resumable (cfg : Config) (as : List (Action ι κ)) :
    Along (step cfg) (Resumes cfg) State.start as ↔
      Along (step cfg) (Resumable cfg) State.start as :=
  along_congr (fun _ a h ↦ h.resumes_iff a) (fun _ a h _ ↦ h.step a) sound_start as

/-- Two instances and one reader of the first. It reads an event of the second one, loses its
connection, misses another event of the second one and reconnects. -/
def twoInstances : List (Action (Fin 2) Unit) :=
  [.connect 0 () .feed "key" {}, .broadcast 1 "transaction.created" {}, .publish 0 true,
    .receive 0, .disconnect (), .broadcast 1 "transaction.confirmed" {},
    .connect 0 () .feed "key" {}]

/-- The first instance has kept nothing that it could replay. -/
theorem remote_event_lost :
    ¬Along (step ⟨.redis, 100, 5⟩) (Resumes ⟨.redis, 100, 5⟩) State.start twoInstances := by
  decide

end StellarDonations.EventStream
