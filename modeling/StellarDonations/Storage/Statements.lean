import Mathlib.Data.List.Infix
import Mathlib.Tactic.SplitIfs
import StellarDonations.Errors

/-!
# Statements on a leased connection

`execute`, `each` and `runTransaction` of `Database`, from the moment they have their lease. What
they do with the connection is recorded as a trace, together with what SQLite does on it.

`execute` looks at the text of its statement only when it has the lease, and gives the connection
back whatever the statement was; `each` gives it back in one of its exits; `runTransaction` does not
look at whether its `ROLLBACK` has succeeded.
-/

namespace StellarDonations.Statements

universe u

/-! ## A connection and its trace -/

inductive Statement where
  | begins
  /-- The statement has completed, and a transaction is open on the connection or not. -/
  | ends (inTransaction : Bool)
  deriving DecidableEq

/-- What happens to a leased connection. -/
inductive Event where
  | statement (s : Statement)
  /-- `lease.release()`. -/
  | givenBack
  /-- `lease.release({ retire: true })`. -/
  | retired
  deriving DecidableEq

structure Usage where
  running : ℕ
  inTransaction : Bool
  deriving DecidableEq

namespace Usage

def next (u : Usage) : Event → Usage
  | .statement .begins => { u with running := u.running + 1 }
  | .statement (.ends inTransaction) => ⟨u.running - 1, inTransaction⟩
  | .givenBack | .retired => u

def after (u : Usage) (events : List Event) : Usage := events.foldl next u

/-- The releases of a trace: whether they retire the connection, and how it is used then. -/
def releases : Usage → List Event → List (Bool × Usage)
  | _, [] => []
  | u, .givenBack :: events => (false, u) :: releases u events
  | u, .retired :: events => (true, u) :: releases u events
  | u, .statement s :: events => releases (u.next (.statement s)) events

end Usage

/-- The connection is released once, after its statements have completed, and goes back to the idle
connections without a transaction. -/
structure Proper (u : Usage) (events : List Event) : Prop where
  released : (u.after events).running = 0 → u.releases events ≠ []
  once : (u.releases events).length ≤ 1
  completed : ∀ r ∈ u.releases events, r.2.running = 0
  clean : ∀ r ∈ u.releases events, r.1 = false → r.2.inTransaction = false

/-- A connection as it is leased, perhaps with a transaction left open on it. -/
def leased (inTransaction : Bool) : Usage := ⟨0, inTransaction⟩

namespace Usage

theorem after_append (u : Usage) (l l' : List Event) :
    u.after (l ++ l') = (u.after l).after l' := List.foldl_append

theorem releases_append (u : Usage) (l l' : List Event) :
    u.releases (l ++ l') = u.releases l ++ (u.after l).releases l' := by
  induction l generalizing u with
  | nil => rfl
  | cons e l ih =>
    cases e with
    | givenBack => exact congrArg _ (ih u)
    | retired => exact congrArg _ (ih u)
    | statement s => exact ih _

theorem releases_statements (u : Usage) (l : List Statement) :
    u.releases (l.map .statement) = [] := by
  induction l generalizing u with
  | nil => rfl
  | cons s l ih => exact ih _

end Usage

theorem proper_release_iff (u : Usage) (l : List Statement) (retire : Bool) :
    Proper u (l.map .statement ++ [if retire then .retired else .givenBack]) ↔
      (u.after (l.map .statement)).running = 0 ∧
        (retire = false → (u.after (l.map .statement)).inTransaction = false) := by
  have hreleases : u.releases (l.map .statement ++ [if retire then .retired else .givenBack]) =
      [(retire, u.after (l.map .statement))] := by
    rw [Usage.releases_append, Usage.releases_statements, List.nil_append]
    cases retire <;> rfl
  constructor
  · intro h
    refine ⟨h.completed (retire, _) ?_, h.clean (retire, _) ?_⟩
    · rw [hreleases]
      exact List.mem_singleton.mpr rfl
    · rw [hreleases]
      exact List.mem_singleton.mpr rfl
  · rintro ⟨hrunning, hclean⟩
    constructor
    · exact fun _ ↦ by rw [hreleases]; exact List.cons_ne_nil _ _
    · rw [hreleases]
      exact Nat.le_refl 1
    · rw [hreleases]
      intro r hr
      rw [List.mem_singleton.mp hr]
      exact hrunning
    · rw [hreleases]
      intro r hr
      rw [List.mem_singleton.mp hr]
      exact hclean

theorem proper_statements_iff (u : Usage) (l : List Statement) :
    Proper u (l.map .statement) ↔ (u.after (l.map .statement)).running ≠ 0 := by
  have hreleases := Usage.releases_statements u l
  constructor
  · exact fun h hrunning ↦ h.released hrunning hreleases
  · intro h
    constructor
    · exact fun hrunning ↦ absurd hrunning h
    · rw [hreleases]
      exact Nat.zero_le 1
    · rw [hreleases]
      exact nofun
    · rw [hreleases]
      exact nofun

/-! ## Errors -/

structure SqliteError where
  code : String
  message : String
  deriving DecidableEq

namespace SqliteError

def isUniqueConstraintError (e : SqliteError) : Bool :=
  e.code = "SQLITE_CONSTRAINT" && "UNIQUE".toList <:+: e.message.toList

def thrown (e : SqliteError) : AppError := ⟨.error, some (.other e.code), e.message⟩

end SqliteError

def mapDatabaseError (e : SqliteError) (failureMessage : String) : AppError :=
  if e.isUniqueConstraintError then
    .duplicate .duplicateDonation
      "Duplicate donation detected - this transaction has already been processed"
  else ⟨.databaseError, some .databaseError, failureMessage⟩

/-- How the driver takes a statement: it throws at once, or runs it. -/
inductive Taken (σ : Type u) where
  | throws (e : SqliteError)
  | runs (run : σ)

/-! ## `execute` -/

inductive Sql where
  | text (s : String)
  /-- `undefined`, or another value that counts as false. -/
  | absent
  /-- A value without a `trimStart`. -/
  | other
  deriving DecidableEq

/-- What reaches an `execute` that waits for its statement. -/
inductive Signal (ρ : Type u) where
  | callback (result : Except SqliteError ρ) (inTransaction : Bool)
  /-- The timer of `withTimeout` fires, after the time that is printed. -/
  | timer (actual : String)

/-- The variables of `execute`, the flag of its lease, and the trace of the connection. -/
structure Execution (ρ : Type u) where
  timedOut : Bool
  released : Bool
  outcome : Option (Except AppError ρ)
  events : List Event

section Execute

variable {ρ : Type u}

namespace Execution

def release (x : Execution ρ) (retire : Bool) : Execution ρ :=
  if x.released then x
  else
    { x with
      released := true
      events := x.events ++ [if retire then .retired else .givenBack] }

/-- The promise is settled, if it is not yet. -/
def settle (x : Execution ρ) (outcome : Except AppError ρ) : Execution ρ :=
  { x with outcome := some (x.outcome.getD outcome) }

end Execution

/-- The error of an `execute` that has timed out. -/
def queryTimeout (queryTimeoutMs : ℕ) (actual : String) : Sql → AppError
  | .text sql => ⟨.databaseError, some (.other "QUERY_TIMEOUT"),
      "QUERY_TIMEOUT: query exceeded " ++ toString queryTimeoutMs ++ "ms (actual: " ++ actual ++
        "ms) — " ++ String.ofList (sql.toList.take 200)⟩
  | .absent => .wrongType "Cannot read properties of undefined (reading 'slice')"
  | .other => .wrongType "sql.slice is not a function"

/-- Go on with a signal. A callback that comes again ends no statement, and the timer has been
cleared once the promise is settled. -/
def Execution.on (queryTimeoutMs : ℕ) (sql : Sql) (failureMessage : String) (x : Execution ρ) :
    Signal ρ → Execution ρ
  | .callback result inTransaction =>
    let ended := if x.released then [] else [.statement (.ends inTransaction)]
    ({ x with events := x.events ++ ended }.settle
      (result.mapError (mapDatabaseError · failureMessage))).release x.timedOut
  | .timer actual =>
    if x.outcome.isSome then x
    else { x with timedOut := true }.settle (.error (queryTimeout queryTimeoutMs actual sql))

/-- `execute`, from the moment it has its lease. -/
def execute (queryTimeoutMs : ℕ) (sql : Sql) (failureMessage : String)
    (taken : Taken (List (Signal ρ))) : Execution ρ :=
  match sql, taken with
  | .other, _ => ⟨false, false, some (.error (.wrongType "sql.trimStart is not a function")), []⟩
  | _, .throws e =>
    (⟨false, false, some (.error (mapDatabaseError e failureMessage)), []⟩ :
      Execution ρ).release true
  | _, .runs signals =>
    signals.foldl (Execution.on queryTimeoutMs sql failureMessage)
      ⟨false, false, none, [.statement .begins]⟩

def leavesTransaction : Taken (List (Signal ρ)) → Bool
  | .runs (.callback _ true :: _) => true
  | _ => false

end Execute

/-! ### What it does with its lease -/

section Execute

variable {ρ : Type u} (queryTimeoutMs : ℕ) (sql : Sql) (failureMessage : String)
  {x : Execution ρ}

theorem Execution.events_on_released (h : x.released = true) (signal : Signal ρ) :
    (x.on queryTimeoutMs sql failureMessage signal).released = true ∧
      (x.on queryTimeoutMs sql failureMessage signal).events = x.events := by
  cases signal with
  | callback result inTransaction => simp [Execution.on, Execution.release, Execution.settle, h]
  | timer actual =>
    rw [Execution.on]
    split_ifs
    · exact ⟨h, rfl⟩
    · exact ⟨h, rfl⟩

theorem Execution.events_of_released (h : x.released = true) (signals : List (Signal ρ)) :
    (signals.foldl (Execution.on queryTimeoutMs sql failureMessage) x).events = x.events := by
  induction signals generalizing x with
  | nil => rfl
  | cons signal signals ih =>
    obtain ⟨hreleased, hevents⟩ :=
      Execution.events_on_released queryTimeoutMs sql failureMessage h signal
    exact (ih hreleased).trans hevents

/-- The first callback is the end of the statement, and releases the connection. -/
theorem Execution.on_callback (h : x.released = false) (result : Except SqliteError ρ)
    (inTransaction : Bool) :
    (x.on queryTimeoutMs sql failureMessage (.callback result inTransaction)).released = true ∧
      (x.on queryTimeoutMs sql failureMessage (.callback result inTransaction)).events =
        x.events ++ [.statement (.ends inTransaction),
          if x.timedOut then .retired else .givenBack] := by
  simp [Execution.on, Execution.release, Execution.settle, h]

/-- After a timeout the connection is retired as soon as the statement is over. -/
theorem Execution.events_of_timedOut (hreleased : x.released = false)
    (htimedOut : x.timedOut = true) (houtcome : x.outcome.isSome = true)
    (signals : List (Signal ρ)) :
    (signals.foldl (Execution.on queryTimeoutMs sql failureMessage) x).events = x.events ∨
      ∃ inTransaction,
        (signals.foldl (Execution.on queryTimeoutMs sql failureMessage) x).events =
          x.events ++ [.statement (.ends inTransaction), .retired] := by
  induction signals with
  | nil => exact .inl rfl
  | cons signal signals ih =>
    cases signal with
    | callback result inTransaction =>
      -- what comes after it finds the lease released
      obtain ⟨hafter, hevents⟩ := Execution.on_callback queryTimeoutMs sql failureMessage hreleased
        result inTransaction
      rw [htimedOut, if_pos rfl] at hevents
      refine .inr ⟨inTransaction, ?_⟩
      exact (Execution.events_of_released queryTimeoutMs sql failureMessage hafter signals).trans
        hevents
    | timer actual =>
      -- the promise is settled, and the timer has no effect
      rw [List.foldl_cons, Execution.on, if_pos houtcome]
      exact ih

theorem proper_ended_iff (inTransaction after retire : Bool) :
    Proper (leased inTransaction) [.statement .begins, .statement (.ends after),
        if retire then .retired else .givenBack] ↔ (retire = false → after = false) := by
  have h := proper_release_iff (leased inTransaction) [.begins, .ends after] retire
  simpa [leased, Usage.after, Usage.next] using h

theorem proper_running (inTransaction : Bool) :
    Proper (leased inTransaction) [.statement .begins] :=
  (proper_statements_iff (leased inTransaction) [.begins]).mpr Nat.one_ne_zero

theorem not_proper_nil (inTransaction : Bool) : ¬Proper (leased inTransaction) [] := fun h ↦
  (proper_statements_iff (leased inTransaction) []).mp h rfl

/-- `execute` releases its connection properly unless it throws before it has a statement, or its
statement completes in time and leaves a transaction open. -/
theorem proper_execute_iff (inTransaction : Bool) (taken : Taken (List (Signal ρ))) :
    Proper (leased inTransaction) (execute queryTimeoutMs sql failureMessage taken).events ↔
      sql ≠ .other ∧ leavesTransaction taken = false := by
  by_cases hsql : sql = .other
  · subst hsql
    exact iff_of_false (not_proper_nil inTransaction) fun h ↦ h.1 rfl
  · rw [and_iff_right hsql]
    have hexecute : (execute queryTimeoutMs sql failureMessage taken).events =
        match taken with
        | .throws _ => [.retired]
        | .runs signals => (signals.foldl (Execution.on queryTimeoutMs sql failureMessage)
            ⟨false, false, none, [.statement .begins]⟩).events := by
      cases sql with
      | other => exact absurd rfl hsql
      | text | absent => cases taken <;> rfl
    rw [hexecute]
    cases taken with
    | throws e =>
      refine iff_of_true ((proper_release_iff (leased inTransaction) [] true).mpr ?_) rfl
      exact ⟨rfl, nofun⟩
    | runs signals =>
      cases signals with
      | nil => exact iff_of_true (proper_running inTransaction) rfl
      | cons signal signals =>
        -- the first signal decides whether the connection is given back or retired
        simp only [List.foldl_cons]
        cases signal with
        | callback result after =>
          have hon := Execution.on_callback queryTimeoutMs sql failureMessage
            (x := (⟨false, false, none, [.statement .begins]⟩ : Execution ρ)) rfl result after
          rw [Execution.events_of_released _ _ _ hon.1, hon.2]
          refine (proper_ended_iff inTransaction after false).trans ?_
          cases after <;> simp [leavesTransaction]
        | timer actual =>
          refine iff_of_true ?_ rfl
          rcases Execution.events_of_timedOut queryTimeoutMs sql failureMessage
            (x := (⟨false, false, none, [.statement .begins]⟩ : Execution ρ).on queryTimeoutMs sql
              failureMessage (.timer actual)) rfl rfl rfl signals with hevents | ⟨after, hevents⟩
          · rw [hevents]
            exact proper_running inTransaction
          · rw [hevents]
            exact (proper_ended_iff inTransaction after true).mpr nofun

end Execute

/-! ## `each` -/

/-- A call of the row callback of the driver. -/
inductive Row where
  | failed (e : SqliteError)
  /-- A row; the callback of the client may throw. -/
  | row (thrown : Option AppError)

inductive Ending where
  /-- The completion callback is called. -/
  | completes (error : Option SqliteError) (inTransaction : Bool)
  /-- The statement is over, and the completion callback is not called. -/
  | silent (inTransaction : Bool)

/-- The variables of `each`, and the trace of the connection. -/
structure Iteration where
  rowCount : ℕ
  outcome : Option (Except AppError ℕ)
  events : List Event

namespace Iteration

/-- The promise is settled, if it is not yet. -/
def settle (x : Iteration) (outcome : Except AppError ℕ) : Iteration :=
  { x with outcome := some (x.outcome.getD outcome) }

def onRow (x : Iteration) : Row → Iteration
  | .failed e => x.settle (.error (mapDatabaseError e "Row processing failed"))
  | .row (some thrown) => x.settle (.error thrown)
  | .row none => { x with rowCount := x.rowCount + 1 }

def onEnding (x : Iteration) : Ending → Iteration
  | .completes (some e) inTransaction =>
    { x with events := x.events ++ [Event.statement (.ends inTransaction)] }.settle
      (.error (mapDatabaseError e "Query iteration failed"))
  | .completes none inTransaction =>
    { x with
      events := x.events ++ [Event.statement (.ends inTransaction), .givenBack] }.settle
      (.ok x.rowCount)
  | .silent inTransaction => { x with events := x.events ++ [.statement (.ends inTransaction)] }

end Iteration

/-- `each`, from the moment it has its lease. -/
def each : Taken (List Row × Option Ending) → Iteration
  | .throws e => ⟨0, some (.error e.thrown), []⟩
  | .runs (rows, ending) =>
    let x := rows.foldl Iteration.onRow ⟨0, none, [.statement .begins]⟩
    (ending.map x.onEnding).getD x

/-- The statement does not end, or its completion callback is called without an error, and no
transaction is left open. -/
def completesWell : Taken (List Row × Option Ending) → Bool
  | .throws _ => false
  | .runs (_, none) => true
  | .runs (_, some (.completes none inTransaction)) => !inTransaction
  | .runs (_, some _) => false

/-! ## `runTransaction` -/

/-- The answer to `BEGIN`, `COMMIT` or `ROLLBACK`. -/
structure Control where
  error : Option SqliteError
  /-- After a failure: a transaction is open. -/
  inTransaction : Bool

/-- What the environment of a `runTransaction` does. -/
structure Answers (ρ : Type u) where
  beginImmediate : Control
  /-- What the statements of the callback do, as long as the connection is leased. -/
  statements : List Statement
  result : Except AppError ρ
  commit : Control
  rollback : Control

section RunTransaction

variable {ρ : Type u}

/-- The trace of a control statement that opens a transaction, or closes it. -/
def Control.statements (c : Control) (opens : Bool) : List Statement :=
  [.begins, .ends (if c.error.isSome then c.inTransaction else opens)]

def runTransactionBody (a : Answers ρ) : List Statement × Except AppError ρ :=
  let begun := a.beginImmediate.statements true
  let rolledBack := a.rollback.statements false
  match a.beginImmediate.error, a.result, a.commit.error with
  | some e, _, _ =>
    (begun ++ rolledBack, .error (mapDatabaseError e "Transaction operation failed"))
  | none, .error e, _ => (begun ++ a.statements ++ rolledBack, .error e)
  | none, .ok _, some e =>
    (begun ++ a.statements ++ a.commit.statements false ++ rolledBack,
      .error (mapDatabaseError e "Transaction operation failed"))
  | none, .ok r, none => (begun ++ a.statements ++ a.commit.statements false, .ok r)

def runTransaction (a : Answers ρ) : List Event × Except AppError ρ :=
  ((runTransactionBody a).1.map .statement ++ [.givenBack], (runTransactionBody a).2)

/-- The callback has run, and some of its statements are running still. -/
def Answers.runsOn (a : Answers ρ) : Bool :=
  a.beginImmediate.error.isNone &&
    ((⟨0, true⟩ : Usage).after (a.statements.map .statement)).running != 0

def Answers.rollsBack (a : Answers ρ) : Bool :=
  a.beginImmediate.error.isSome || !a.result.isOk || a.commit.error.isSome

/-- The `ROLLBACK` fails, and the transaction stays open. -/
def Control.fails (c : Control) : Bool := c.error.isSome && c.inTransaction

end RunTransaction

/-! ### What they do with their leases -/

theorem Iteration.events_onRow (rows : List Row) (x : Iteration) :
    (rows.foldl Iteration.onRow x).events = x.events := by
  induction rows generalizing x with
  | nil => rfl
  | cons row rows ih =>
    refine (ih _).trans ?_
    cases row with
    | failed e => rfl
    | row thrown => cases thrown <;> rfl

/-- `each` releases its connection properly when its statement does not end, or its completion
callback is called without an error and no transaction is left open. -/
theorem proper_each_iff (inTransaction : Bool) (taken : Taken (List Row × Option Ending)) :
    Proper (leased inTransaction) (each taken).events ↔ completesWell taken = true := by
  cases taken with
  | throws e => exact iff_of_false (not_proper_nil inTransaction) nofun
  | runs run =>
    obtain ⟨rows, ending⟩ := run
    have hrows := Iteration.events_onRow rows ⟨0, none, [.statement .begins]⟩
    have hleak (after : Bool) :
        ¬Proper (leased inTransaction) [.statement .begins, .statement (.ends after)] := fun h ↦
      (proper_statements_iff (leased inTransaction) [.begins, .ends after]).mp h rfl
    cases ending with
    | none =>
      simp only [each, Option.map_none, Option.getD_none, hrows]
      exact iff_of_true (proper_running inTransaction) rfl
    | some ending =>
      simp only [each, Option.map_some, Option.getD_some]
      cases ending with
      | completes error after =>
        cases error with
        | none =>
          simp only [Iteration.onEnding, Iteration.settle, hrows]
          refine (proper_ended_iff inTransaction after false).trans ?_
          cases after <;> simp [completesWell]
        | some e =>
          simp only [Iteration.onEnding, Iteration.settle, hrows]
          exact iff_of_false (hleak after) nofun
      | silent after =>
        simp only [Iteration.onEnding, hrows]
        exact iff_of_false (hleak after) nofun

section RunTransaction

variable {ρ : Type u}

theorem after_control (u : Usage) (c : Control) (opens : Bool) :
    u.after ((c.statements opens).map .statement) =
      ⟨u.running, if c.error.isSome then c.inTransaction else opens⟩ := rfl

theorem after_begun (u : Usage) (a : Answers ρ) (h : a.beginImmediate.error = none) :
    u.after ((a.beginImmediate.statements true ++ a.statements).map .statement) =
      (⟨u.running, true⟩ : Usage).after (a.statements.map .statement) := by
  rw [List.map_append, Usage.after_append, after_control, h]
  rfl

/-- The usage of the connection when it is released. -/
theorem after_runTransactionBody (inTransaction : Bool) (a : Answers ρ) :
    (leased inTransaction).after ((runTransactionBody a).1.map .statement) =
      ⟨if a.beginImmediate.error.isNone then
          ((⟨0, true⟩ : Usage).after (a.statements.map .statement)).running else 0,
        a.rollsBack && a.rollback.fails⟩ := by
  have hrollback : (if a.rollback.error.isSome then a.rollback.inTransaction else false) =
      a.rollback.fails := by
    rw [Control.fails]
    cases a.rollback.error <;> rfl
  rw [runTransactionBody]
  cases hbegin : a.beginImmediate.error with
  | some e =>
    rw [List.map_append, Usage.after_append, after_control, after_control, hrollback]
    simp [Answers.rollsBack, hbegin, leased]
  | none =>
    cases hresult : a.result with
    | error e =>
      rw [List.map_append, Usage.after_append, after_begun _ a hbegin, after_control, hrollback]
      simp [Answers.rollsBack, hresult, Except.isOk, Except.toBool, leased]
    | ok r =>
      cases hcommit : a.commit.error with
      | some e =>
        rw [List.map_append, Usage.after_append, List.map_append, Usage.after_append,
          after_begun _ a hbegin, after_control, after_control, hrollback]
        simp [Answers.rollsBack, hcommit, leased]
      | none =>
        rw [List.map_append, Usage.after_append, after_begun _ a hbegin, after_control, hcommit]
        simp [Answers.rollsBack, hbegin, hresult, hcommit, Except.isOk, Except.toBool, leased]

/-- `runTransaction` releases its connection properly unless a statement of its callback is running
still, or the transaction is rolled back and the `ROLLBACK` leaves it open. -/
theorem proper_runTransaction_iff (inTransaction : Bool) (a : Answers ρ) :
    Proper (leased inTransaction) (runTransaction a).1 ↔
      a.runsOn = false ∧ (a.rollsBack = true → a.rollback.fails = false) := by
  have hproper := proper_release_iff (leased inTransaction) (runTransactionBody a).1 false
  refine hproper.trans (and_congr ?_ ?_)
  · rw [after_runTransactionBody, Answers.runsOn]
    cases a.beginImmediate.error <;> simp
  · rw [after_runTransactionBody]
    cases a.rollsBack <;> simp

end RunTransaction

/-! ## Every path -/

/-- **Leases.** Exactly when the three functions release their connections properly: once, after
the statements have completed, and without an open transaction when the connection becomes idle. -/
theorem leases_proper_iff {ρ : Type u} (queryTimeoutMs : ℕ) (failureMessage : String)
    (inTransaction : Bool) :
    (∀ (sql : Sql) (taken : Taken (List (Signal ρ))),
      Proper (leased inTransaction) (execute queryTimeoutMs sql failureMessage taken).events ↔
        sql ≠ .other ∧ leavesTransaction taken = false) ∧
    (∀ taken : Taken (List Row × Option Ending),
      Proper (leased inTransaction) (each taken).events ↔ completesWell taken = true) ∧
    ∀ a : Answers ρ, Proper (leased inTransaction) (runTransaction a).1 ↔
      a.runsOn = false ∧ (a.rollsBack = true → a.rollback.fails = false) :=
  ⟨fun sql ↦ proper_execute_iff queryTimeoutMs sql failureMessage inTransaction,
    proper_each_iff inTransaction, proper_runTransaction_iff inTransaction⟩

section Examples

/-- A transaction that begins, runs one statement, and answers as given to the rest. -/
def writing (result : Except AppError ℕ) (commit rollback : Control) : Answers ℕ where
  beginImmediate := ⟨none, false⟩
  statements := [.begins, .ends true]
  result := result
  commit := commit
  rollback := rollback

def ioError : SqliteError := ⟨"SQLITE_IOERR", "disk I/O error"⟩

/-- `execute` gives the connection back after `BEGIN TRANSACTION`, and keeps it when it is called
with an object; `each` keeps it when its statement fails; and `runTransaction` gives it back when
its `ROLLBACK` fails. -/
theorem leases_not_proper :
    ¬Proper (leased false) (execute 5000 (.text "BEGIN TRANSACTION") "Database operation failed"
        (.runs [Signal.callback (.ok 0) true])).events ∧
      ¬Proper (leased false) (execute 5000 .other "Database operation failed"
        (.runs [Signal.callback (.ok 0) false])).events ∧
      ¬Proper (leased false) (each (.runs ([], some (.completes (some ioError) false)))).events ∧
      ¬Proper (leased false) (runTransaction
        (writing (.error (.plain "declined")) ⟨none, false⟩ ⟨some ioError, true⟩)).1 := by
  refine ⟨fun h ↦ ?_, fun h ↦ ?_, fun h ↦ ?_, fun h ↦ ?_⟩
  · exact absurd (h.clean (false, ⟨0, true⟩) (by decide) rfl) (by decide)
  · exact h.released rfl rfl
  · exact h.released rfl rfl
  · exact absurd (h.clean (false, ⟨0, true⟩) (by decide) rfl) (by decide)

end Examples

end StellarDonations.Statements
