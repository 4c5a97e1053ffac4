import StellarDonations.Concurrency.Run

/-!
# GraphQL subscriptions

The event bus of the GraphQL subscriptions. An iterator keeps at most `MAX_QUEUE_SIZE` events that
nobody has asked for yet, and drops the oldest ones. Whatever happens on other topics and to other
iterators, its calls are answered in their order by events of its topic in their order
(`orderly_subscribed`).
-/

namespace StellarDonations.GraphQL

open Concurrency

def maxQueueSize : ℕ := 100

/-- The variables of `asyncIterator`, and what its numbered `next` calls have been answered, where
`none` says that there is nothing more. Its listener is in the set of its topic until it is done. -/
structure Iterator (τ α : Type*) where
  topic : τ
  /-- The calls that wait. -/
  pullQueue : List ℕ := []
  pushQueue : List α := []
  done : Bool := false
  calls : ℕ := 0
  answers : List (ℕ × Option α) := []

namespace Iterator

variable {τ α : Type*}

def listener (it : Iterator τ α) (payload : α) : Iterator τ α :=
  match it.pullQueue with
  | call :: pullQueue => { it with pullQueue, answers := it.answers ++ [(call, some payload)] }
  | [] =>
    let kept := if maxQueueSize ≤ it.pushQueue.length then it.pushQueue.tail else it.pushQueue
    { it with pushQueue := kept ++ [payload] }

def next (it : Iterator τ α) : Iterator τ α :=
  match it.pushQueue with
  | payload :: pushQueue =>
    { it with
      pushQueue, calls := it.calls + 1, answers := it.answers ++ [(it.calls, some payload)] }
  | [] =>
    if it.done then
      { it with calls := it.calls + 1, answers := it.answers ++ [(it.calls, none)] }
    else { it with calls := it.calls + 1, pullQueue := it.pullQueue ++ [it.calls] }

/-- `return`. That the calls stay in the queue when they have been answered makes no difference: a
promise keeps its first answer. -/
def finish (it : Iterator τ α) : Iterator τ α :=
  { it with done := true, pullQueue := [], answers := it.answers ++ it.pullQueue.map (·, none) }

def received (it : Iterator τ α) : List α := it.answers.filterMap Prod.snd

/-- What holds of an iterator whose listener was called with the events `heard`. -/
structure Orderly (it : Iterator τ α) (heard : List α) : Prop where
  /-- The calls are answered one after the other. -/
  numbered : it.answers.map Prod.fst ++ it.pullQueue = List.range it.calls
  /-- No call waits while there is an event for it. -/
  exclusive : it.pushQueue = [] ∨ it.pullQueue = []
  bounded : it.pushQueue.length ≤ maxQueueSize
  /-- No event is handed out twice, or before an older one. -/
  inOrder : (it.received ++ it.pushQueue).Sublist heard
  /-- Until the end every answer is an event. -/
  unfinished : it.done = false → ∀ a ∈ it.answers, a.2 ≠ none
  /-- After the end no call waits. -/
  finished : it.done = true → it.pullQueue = []

variable {it : Iterator τ α} {heard : List α}

theorem orderly_new (topic : τ) : Orderly { topic : Iterator τ α } [] := by
  constructor <;> simp [received]

theorem Orderly.listener (h : it.Orderly heard) (hdone : it.done = false) (payload : α) :
    (it.listener payload).Orderly (heard ++ [payload]) := by
  obtain ⟨hnumbered, hexclusive, hbounded, hinOrder, hunfinished, -⟩ := h
  rw [Iterator.listener]
  split
  case h_1 call pullQueue hpull =>
    simp only [hpull, List.cons_ne_nil, or_false] at hnumbered hexclusive
    refine ⟨by simpa using hnumbered, .inl hexclusive, hbounded, ?_, ?_, fun hd ↦ ?_⟩
    · simpa [received, hexclusive] using hinOrder
    · simpa [or_imp, forall_and] using hunfinished
    · cases hdone.symm.trans hd
  case h_2 hpull =>
    refine ⟨hnumbered, .inr hpull, ?_, ?_, hunfinished, fun _ ↦ hpull⟩
    · -- a full queue loses its first event
      simp only [List.length_append, List.length_singleton]
      split_ifs with hfull
      · rw [List.length_tail, Nat.sub_add_cancel (Nat.one_le_of_lt hfull)]
        exact hbounded
      · exact Nat.not_le.mp hfull
    · have hkept : (if maxQueueSize ≤ it.pushQueue.length then it.pushQueue.tail
          else it.pushQueue).Sublist it.pushQueue := by
        split_ifs
        · exact List.tail_sublist _
        · exact .refl _
      simpa [received] using (((List.Sublist.refl _).append hkept).trans hinOrder).append_right _

theorem Orderly.next (h : it.Orderly heard) : it.next.Orderly heard := by
  obtain ⟨hnumbered, hexclusive, hbounded, hinOrder, hunfinished, hfinished⟩ := h
  rw [Iterator.next]
  split
  case h_1 payload pushQueue hpush =>
    have hpull : it.pullQueue = [] := hexclusive.resolve_left (by simp [hpush])
    rw [hpull, List.append_nil] at hnumbered
    refine ⟨?_, .inr hpull, ?_, ?_, ?_, fun _ ↦ hpull⟩
    · simp [hnumbered, hpull, List.range_succ]
    · rw [hpush] at hbounded
      exact (Nat.le_succ _).trans hbounded
    · simpa [received, hpush] using hinOrder
    · simpa [or_imp, forall_and] using hunfinished
  case h_2 hpush =>
    split_ifs with hdone
    · rw [hfinished hdone, List.append_nil] at hnumbered
      refine ⟨?_, .inl hpush, hbounded, ?_, fun hd ↦ ?_, hfinished⟩
      · simp [hnumbered, hfinished hdone, List.range_succ]
      · simpa [received] using hinOrder
      · cases hdone.symm.trans hd
    · refine ⟨?_, .inl hpush, hbounded, hinOrder, hunfinished, fun hd ↦ absurd hd hdone⟩
      rw [← List.append_assoc, hnumbered, List.range_succ]

theorem Orderly.finish (h : it.Orderly heard) : it.finish.Orderly heard := by
  refine ⟨?_, .inr rfl, h.bounded, ?_, by rintro ⟨⟩, fun _ ↦ rfl⟩
  · simpa [Iterator.finish, Function.comp_def] using h.numbered
  · simpa [Iterator.finish, received, Function.comp_def] using h.inOrder

@[simp] theorem listener_same (payload : α) :
    (it.listener payload).topic = it.topic ∧ (it.listener payload).done = it.done := by
  rw [Iterator.listener]
  split <;> exact ⟨rfl, rfl⟩

@[simp] theorem next_same : it.next.topic = it.topic ∧ it.next.done = it.done := by
  rw [Iterator.next]
  split
  · exact ⟨rfl, rfl⟩
  · split <;> exact ⟨rfl, rfl⟩

end Iterator

/-! ## All iterators -/

variable {τ α : Type*} [DecidableEq τ]

/-- What is called: an iterator by its number, in the order in which they are made. -/
inductive Event (τ α : Type*) where
  | publish (topic : τ) (payload : α)
  | asyncIterator (topic : τ)
  | next (i : ℕ)
  | finish (i : ℕ)

def Iterator.on (i : ℕ) (it : Iterator τ α) : Event τ α → Iterator τ α
  | .publish topic payload =>
    if it.topic = topic ∧ it.done = false then it.listener payload else it
  | .asyncIterator _ => it
  | .next j => if j = i then it.next else it
  | .finish j => if j = i then it.finish else it

def step (iterators : List (Iterator τ α)) (e : Event τ α) : List (Iterator τ α) :=
  iterators.mapIdx (fun i it ↦ it.on i e) ++
    match e with
    | .asyncIterator topic => [{ topic }]
    | .publish _ _ | .next _ | .finish _ => []

/-- What is published on a topic until the iterator is done. -/
def heard (topic : τ) (i : ℕ) : List (Event τ α) → List α
  | [] => []
  | .publish t payload :: es => if topic = t then payload :: heard topic i es else heard topic i es
  | .finish j :: es => if j = i then [] else heard topic i es
  | .asyncIterator _ :: es | .next _ :: es => heard topic i es

theorem getElem?_step {iterators : List (Iterator τ α)} {i : ℕ} {it : Iterator τ α}
    (hi : iterators[i]? = some it) (e : Event τ α) : (step iterators e)[i]? = some (it.on i e) := by
  have hlt : i < iterators.length := (List.getElem?_eq_some_iff.mp hi).1
  rw [step.eq_def, List.getElem?_append_left (by simpa using hlt), List.getElem?_mapIdx, hi]
  rfl

theorem orderly_run (es : List (Event τ α)) {iterators : List (Iterator τ α)} {i : ℕ}
    {it : Iterator τ α} {before : List α} (hi : iterators[i]? = some it)
    (h : it.Orderly before) : ∃ it', (run step iterators es)[i]? = some it' ∧
      it'.Orderly (before ++ if it.done then [] else heard it.topic i es) := by
  induction es generalizing iterators it before with
  | nil => exact ⟨it, hi, by simpa [heard] using h⟩
  | cons e es ih =>
    have hstep := getElem?_step hi e
    rw [run_cons]
    cases e with
    | publish topic payload =>
      by_cases hlistens : it.topic = topic ∧ it.done = false
      · rw [Iterator.on, if_pos hlistens] at hstep
        simpa [heard, hlistens] using ih hstep (h.listener hlistens.2 payload)
      · rw [Iterator.on, if_neg hlistens] at hstep
        cases hdone : it.done with
        | true => simpa [hdone] using ih hstep h
        | false =>
          have htopic : it.topic ≠ topic := fun heq ↦ hlistens ⟨heq, hdone⟩
          simpa [heard, hdone, htopic] using ih hstep h
    | asyncIterator topic => exact ih hstep h
    | next j =>
      rcases eq_or_ne j i with rfl | hji
      · rw [Iterator.on, if_pos rfl] at hstep
        simpa [heard] using ih hstep h.next
      · rw [Iterator.on, if_neg hji] at hstep
        exact ih hstep h
    | finish j =>
      rcases eq_or_ne j i with rfl | hji
      · rw [Iterator.on, if_pos rfl] at hstep
        simpa [heard, Iterator.finish] using ih hstep h.finish
      · rw [Iterator.on, if_neg hji] at hstep
        simpa [heard, hji] using ih hstep h

/-- **Subscriptions.** Whatever is done before and after, an iterator answers its calls in their
order, by events of its topic in their order, and gets nothing from other topics or after its
end. -/
theorem orderly_subscribed (before after : List (Event τ α)) (topic : τ) :
    ∃ it, (run step [] (before ++ .asyncIterator topic :: after))[(run step [] before).length]? =
      some it ∧ it.Orderly (heard topic (run step [] before).length after) := by
  have hmade : (step (run step [] before) (.asyncIterator topic))[(run step [] before).length]? =
      some { topic : Iterator τ α } := by
    rw [step.eq_def, List.getElem?_append_right (by simp)]
    simp
  rw [run_append, run_cons]
  exact orderly_run after hmade (Iterator.orderly_new topic)

end StellarDonations.GraphQL
