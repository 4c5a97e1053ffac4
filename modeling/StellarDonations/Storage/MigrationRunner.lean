import Mathlib.Data.List.Sort
import StellarDonations.Concurrency.Interleaving
import StellarDonations.Containers.Chronicle
import StellarDonations.Errors
import StellarDonations.Text.JsString

/-!
# The migration runner

`runMigrations` and `rollbackMigration` of `migrationRunner`, as calls of any number of instances on
one database, suspended on every SQL statement and in the code of a migration as often as that code
likes. That code touches neither `schema_migrations` nor `migration_lock`, as none of the migrations
does. Both insert the one row that `migration_lock` can hold, read what has been applied, execute
code, and delete the row in a `finally` block.

The lock is enough for everything (`migrations_run_once`): the rows of `schema_migrations` change
only under it, so the files that were pending when the list was read are still pending, in the
order of their names, when their turn comes.
-/

namespace StellarDonations.MigrationRunner

open Concurrency Chronicle JsString

/-! ## Migration files -/

/-- An entry of `loadMigrationFiles`. -/
structure Migration where
  canonicalName : String
  /-- The name the module exports, if any. -/
  legacyName : Option String
  checksum : String
  /-- The module exports a function `down`. -/
  hasDown : Bool
  deriving DecidableEq

namespace Migration

def file (m : Migration) : String := m.canonicalName ++ ".js"

def HasName (m : Migration) (name : String) : Prop :=
  m.canonicalName = name ∨ m.legacyName = some name

instance decidableHasName (m : Migration) (name : String) : Decidable (m.HasName name) :=
  inferInstanceAs (Decidable (_ ∨ _))

/-- `file` matches `/^\d+.*\.js$/`. -/
def numbered (m : Migration) : Bool :=
  m.canonicalName.toList.head?.any Char.isDigit &&
    m.canonicalName.toList.all fun c ↦ c.toNat ∉ [0x0A, 0x0D, 0x2028, 0x2029]

/-- `file` comes before the other's in the order of `sort`. -/
def Before (m m' : Migration) : Prop := codeUnits m.file < codeUnits m'.file

theorem Before.asymm {m m' : Migration} (h : m.Before m') : ¬m'.Before m :=
  fun h' ↦ absurd (lt_trans h h') (lt_irrefl _)

theorem canonicalName_eq_of_codeUnits {m m' : Migration}
    (h : codeUnits m.file = codeUnits m'.file) : m.canonicalName = m'.canonicalName := by
  have hfile := congrArg String.toList (codeUnits_injective h)
  rw [file, file, String.toList_append, String.toList_append] at hfile
  exact String.toList_inj.mp (List.append_cancel_right hfile)

end Migration

/-- The directory, in which no name stands for two files. -/
structure Directory where
  files : List Migration
  nodup : files.Nodup
  identified : ∀ m ∈ files, ∀ m' ∈ files, ∀ name, m.HasName name → m'.HasName name → m = m'

/-- The files that are dealt with: sorted by name, and no name stands for two of them. -/
structure MigrationFiles where
  files : List Migration
  sorted : files.Pairwise Migration.Before
  identified : ∀ m ∈ files, ∀ m' ∈ files, ∀ name, m.HasName name → m'.HasName name → m = m'

/-- What `readdirSync`, `filter` and `sort` leave in `loadMigrationFiles`. -/
def sortedFiles (dir : Directory) : List Migration :=
  (dir.files.filter Migration.numbered).insertionSort fun m m' ↦
    codeUnits m.file ≤ codeUnits m'.file

theorem mem_of_mem_sortedFiles {dir : Directory} {m : Migration} (hm : m ∈ sortedFiles dir) :
    m ∈ dir.files :=
  (List.mem_filter.mp ((List.mem_insertionSort _).mp hm)).1

def loadMigrationFiles (dir : Directory) : MigrationFiles where
  files := sortedFiles dir
  sorted := by
    have hperm := List.perm_insertionSort
      (fun m m' : Migration ↦ codeUnits m.file ≤ codeUnits m'.file)
      (dir.files.filter Migration.numbered)
    have hnodup : (sortedFiles dir).Nodup := hperm.nodup_iff.mpr (dir.nodup.filter _)
    have : Std.Total fun m m' : Migration ↦ codeUnits m.file ≤ codeUnits m'.file :=
      ⟨fun m m' ↦ le_total _ _⟩
    have : IsTrans Migration fun m m' ↦ codeUnits m.file ≤ codeUnits m'.file :=
      ⟨fun _ _ _ ↦ le_trans⟩
    have hsorted : (sortedFiles dir).Pairwise fun m m' ↦ codeUnits m.file ≤ codeUnits m'.file :=
      List.pairwise_insertionSort _ _
    refine (hsorted.and hnodup).imp_of_mem fun hm hm' ⟨hle, hne⟩ ↦
      lt_of_le_of_ne hle fun heq ↦ hne ?_
    exact dir.identified _ (mem_of_mem_sortedFiles hm) _ (mem_of_mem_sortedFiles hm') _ (.inl rfl)
      (.inl (Migration.canonicalName_eq_of_codeUnits heq).symm)
  identified m hm m' hm' :=
    dir.identified m (mem_of_mem_sortedFiles hm) m' (mem_of_mem_sortedFiles hm')

/-! ## The tables -/

/-- A row of `schema_migrations`. -/
structure Row where
  name : String
  checksum : String
  deriving DecidableEq

inductive Event where
  /-- The code of `up` was started. -/
  | up (m : Migration)
  | recorded (name : String)
  /-- The code of `down` was started. -/
  | down (m : Migration)
  | rolledBack (name : String)
  /-- The `DELETE` of `releaseLock` failed. -/
  | lockKept
  deriving DecidableEq

structure Shared where
  /-- `instance_id` in the row of `migration_lock`. -/
  lock : Option String
  /-- The rows of `schema_migrations`, by `id`. -/
  rows : List Row
  log : List Event
  deriving DecidableEq

namespace Shared

def names (sh : Shared) : List String := sh.rows.map Row.name

def note (sh : Shared) (e : Event) : Shared := { sh with log := sh.log ++ [e] }

/-- `INSERT INTO schema_migrations`. -/
def record (sh : Shared) (m : Migration) : Shared :=
  note { sh with rows := sh.rows ++ [⟨m.canonicalName, m.checksum⟩] } (.recorded m.canonicalName)

/-- `DELETE FROM schema_migrations WHERE name = ?`. -/
def rollBack (sh : Shared) (name : String) : Shared :=
  note { sh with rows := sh.rows.filter (·.name ≠ name) } (.rolledBack name)

/-- `DELETE FROM migration_lock WHERE id = 1 AND instance_id = ?`. -/
def release (sh : Shared) (instanceId : String) : Shared :=
  if sh.lock = some instanceId then { sh with lock := none } else sh

end Shared

def getMigrationIdentity (m : Migration) (applied : List String) : Option String :=
  if m.canonicalName ∈ applied then some m.canonicalName
  else m.legacyName.filter (· ∈ applied)

def hasAppliedMigration (m : Migration) (applied : List String) : Bool :=
  (getMigrationIdentity m applied).isSome

def MigrationFiles.pending (fs : MigrationFiles) (applied : List String) : List Migration :=
  fs.files.filter fun m ↦ !hasAppliedMigration m applied

/-! ## Calls -/

inductive Command where
  | runMigrations
  | rollbackMigration
  deriving DecidableEq

structure Args where
  /-- `INSTANCE_ID` of the caller. -/
  instanceId : String
  command : Command
  deriving DecidableEq

inductive Result where
  | applied (applied skipped : ℕ)
  | rolledBack (name : Option String)
  | threw (message : String)
  deriving DecidableEq

inductive Call where
  | waiting (a : Args)
  | opening (a : Args)
  -- `ensureTables`, whose statements change no row
  | createMigrations (a : Args)
  | addChecksum (a : Args)
  | createLock (a : Args)
  -- `waitForLock`
  | insertLock (a : Args) (start : ℕ)
  | sleep (a : Args) (start : ℕ)
  -- `runMigrations`, with the lock
  | readApplied (a : Args)
  | applying (a : Args) (m : Migration) (rest : List Migration) (total : ℕ)
  | recording (a : Args) (m : Migration) (rest : List Migration) (total : ℕ)
  -- `rollbackMigration`, with the lock
  | readLast (a : Args)
  | reverting (a : Args) (m : Migration) (name : String)
  | deleting (a : Args) (m : Migration) (name : String)
  /-- The `finally` block. -/
  | releasing (a : Args) (r : Result)
  | finished (r : Result)
  deriving DecidableEq

/-- How the code of a migration goes on when it is resumed. -/
inductive CodeStep where
  | suspended
  | returned
  | threw (message : String)
  deriving DecidableEq

structure Env where
  now : ℕ
  /-- The error of the statement, should it fail. -/
  dbError : Option AppError
  code : CodeStep
  deriving DecidableEq

structure Config where
  files : MigrationFiles
  lockTimeoutMs : ℤ

/-! ## The steps -/

/-- The error of a call that did not get the lock. -/
def lockMessage (cfg : Config) : Command → String
  | .runMigrations =>
    "Could not acquire migration lock within " ++ toString cfg.lockTimeoutMs ++ "ms. " ++
      "Another instance may be holding it. If no other instance is running, " ++
      "delete the row from the migration_lock table manually."
  | .rollbackMigration =>
    "Could not acquire migration lock within " ++ toString cfg.lockTimeoutMs ++ "ms. " ++
      "Another instance may be holding it."

/-- The head of the loop of `waitForLock`. -/
def nextAttempt (cfg : Config) (a : Args) (start now : ℕ) : Call :=
  if (now : ℤ) - start < cfg.lockTimeoutMs then .insertLock a start
  else .finished (.threw (lockMessage cfg a.command))

def withLock (a : Args) : Call :=
  match a.command with
  | .runMigrations => .readApplied a
  | .rollbackMigration => .readLast a

def nextMigration (cfg : Config) (sh : Shared) (a : Args) (total : ℕ) :
    List Migration → Shared × Call
  | [] => (sh, .releasing a (.applied total (cfg.files.files.length - total)))
  | m :: rest => (sh.note (.up m), .applying a m rest total)

def migrationFailed (m : Migration) (message : String) : Result :=
  .threw ("Migration failed [" ++ m.canonicalName ++ "]: " ++ message)

/-- `rollbackMigration`, once it has read the name of the last migration. -/
def beginRollback (cfg : Config) (sh : Shared) (a : Args) (name : String) : Shared × Call :=
  match cfg.files.files.find? (·.HasName name) with
  | none => (sh, .releasing a
      (.threw ("Migration file for \"" ++ name ++ "\" not found — cannot roll back.")))
  | some m =>
    if !m.hasDown then
      (sh, .releasing a
        (.threw ("Migration \"" ++ name ++ "\" does not export a down() function.")))
    else (sh.note (.down m), .reverting a m name)

/-- Resume a call: execute the statement it is suspended on, or the code of its migration. -/
def resume (cfg : Config) (sh : Shared) (c : Call) (env : Env) : Shared × Call :=
  match c, env.dbError with
  | .waiting a, _ => (sh, .opening a)
  | .opening a, none => (sh, .createMigrations a)
  | .createMigrations a, none => (sh, .addChecksum a)
  -- the error says that the column is there
  | .addChecksum a, _ => (sh, .createLock a)
  | .createLock a, none => (sh, nextAttempt cfg a env.now env.now)
  | .insertLock a start, none =>
    if sh.lock.isSome then (sh, .sleep a start)
    else ({ sh with lock := some a.instanceId }, withLock a)
  -- whatever the error is, the lock was not acquired
  | .insertLock a start, some _ => (sh, .sleep a start)
  | .sleep a start, _ => (sh, nextAttempt cfg a start env.now)
  | .readApplied a, none =>
    let pending := cfg.files.pending sh.names
    nextMigration cfg sh a pending.length pending
  | .applying a m rest total, _ =>
    match env.code with
    | .suspended => (sh, c)
    | .returned => (sh, .recording a m rest total)
    | .threw message => (sh, .releasing a (migrationFailed m message))
  | .recording a m rest total, none =>
    if m.canonicalName ∈ sh.names then
      (sh, .releasing a (migrationFailed m AppError.uniqueViolation.message))
    else nextMigration cfg (sh.record m) a total rest
  | .recording a m _ _, some e => (sh, .releasing a (migrationFailed m e.message))
  | .readLast a, none =>
    match sh.names.getLast? with
    | none => (sh, .releasing a (.rolledBack none))
    | some name => beginRollback cfg sh a name
  | .reverting a m name, _ =>
    match env.code with
    | .suspended => (sh, c)
    | .returned => (sh, .deleting a m name)
    | .threw message => (sh, .releasing a (.threw message))
  | .deleting a m name, none =>
    (sh.rollBack name, .releasing a (.rolledBack (some m.canonicalName)))
  | .releasing a r, none => (sh.release a.instanceId, .finished r)
  -- `releaseLock` swallows the error
  | .releasing _ r, some _ => (sh.note .lockKept, .finished r)
  | .readApplied a, some e | .readLast a, some e | .deleting a _ _, some e =>
    (sh, .releasing a (.threw e.message))
  | .opening _, some e | .createMigrations _, some e | .createLock _, some e =>
    (sh, .finished (.threw e.message))
  | .finished _, _ => (sh, c)

/-! ## What must hold -/

/-- The names that were recorded and not rolled back since. -/
def noteName (names : List String) : Event → List String
  | .recorded name => names ++ [name]
  | .rolledBack name => names.filter (· ≠ name)
  | _ => names

def standing (log : List Event) : List String := log.foldl noteName []

/-- `up` is started only of a migration that is not recorded, and only when all files before it
are; and a record is removed only after `down` of its migration. -/
def Timely (fs : MigrationFiles) (before : List Event) : Event → Prop
  | .up m => (∀ name, m.HasName name → name ∉ standing before) ∧
      ∀ m' ∈ fs.files, m'.Before m → ∃ name, m'.HasName name ∧ name ∈ standing before
  | .rolledBack name => ∃ m, m.HasName name ∧ before.getLast? = some (.down m)
  | _ => True

namespace Call

/-- The call executes the code of a migration. -/
def Executing : Call → Prop
  | .applying _ _ _ _ | .reverting _ _ _ => True
  | _ => False

/-- The call has not begun, or it has ended. -/
def Idle : Call → Prop
  | .waiting _ | .finished _ => True
  | _ => False

/-- The instance whose lock the call has acquired and not released. -/
def holder : Call → Option String
  | .readApplied a | .applying a _ _ _ | .recording a _ _ _ | .readLast a | .reverting a _ _
  | .deleting a _ _ | .releasing a _ => some a.instanceId
  | _ => none

def Holding (c : Call) : Prop := c.holder.isSome

end Call

section Runs

variable {ι : Type*}

/-- No two calls execute the code of migrations at the same time, migrations run once and in order,
and the lock is gone when all calls have ended. -/
structure Right (fs : MigrationFiles) (s : Calls ι Shared Call) : Prop where
  exclusive : AtMostOne Call.Executing s.call
  timely : Each (Timely fs) s.shared.log
  released : (∀ i, (s.call i).Idle) → .lockKept ∉ s.shared.log → s.shared.lock = none

/-- The lock is free, and every call is still to be made. The names of the table were recorded by
earlier runs. -/
def start (rows : List Row) (args : ι → Args) : Calls ι Shared Call where
  shared := ⟨none, rows, rows.map fun r ↦ .recorded r.name⟩
  call i := .waiting (args i)

end Runs

/-! ## Names and pending files -/

section Names

variable {fs : MigrationFiles} {m m' : Migration} {rest : List Migration} {names : List String}

theorem hasAppliedMigration_iff :
    hasAppliedMigration m names ↔ ∃ name ∈ names, m.HasName name := by
  rw [hasAppliedMigration, getMigrationIdentity]
  split_ifs with h
  · exact iff_of_true rfl ⟨m.canonicalName, h, .inl rfl⟩
  · rw [Option.isSome_filter, Option.any_eq_true]
    constructor
    · rintro ⟨name, hname, hmem⟩
      exact ⟨name, of_decide_eq_true hmem, .inr hname⟩
    · rintro ⟨name, hmem, rfl | hname⟩
      · exact absurd hmem h
      · exact ⟨name, hname, decide_eq_true hmem⟩

theorem mem_pending :
    m ∈ fs.pending names ↔ m ∈ fs.files ∧ ∀ name, m.HasName name → name ∉ names := by
  rw [MigrationFiles.pending, List.mem_filter, Bool.not_eq_true', ← Bool.not_eq_true,
    hasAppliedMigration_iff]
  refine and_congr_right fun _ ↦ ?_
  rw [not_exists]
  exact ⟨fun h name hname hmem ↦ h name ⟨hmem, hname⟩, fun h name hboth ↦ h name hboth.2 hboth.1⟩

/-- The files before a pending one that comes first are applied. -/
theorem applied_of_before (h : fs.pending names = m :: rest) (hm' : m' ∈ fs.files)
    (hbefore : m'.Before m) : ∃ name, m'.HasName name ∧ name ∈ names := by
  by_contra hnone
  have hpending : m' ∈ fs.pending names :=
    mem_pending.mpr ⟨hm', fun name hname hmem ↦ hnone ⟨name, hname, hmem⟩⟩
  have hsorted : (fs.pending names).Pairwise Migration.Before :=
    fs.sorted.sublist List.filter_sublist
  rw [h] at hpending hsorted
  rcases List.mem_cons.mp hpending with rfl | hrest
  · exact hbefore.asymm hbefore
  · exact hbefore.asymm (List.rel_of_pairwise_cons hsorted hrest)

/-- **Recording** a file that comes first leaves the others pending. -/
theorem pending_record (h : fs.pending names = m :: rest) :
    fs.pending (names ++ [m.canonicalName]) = rest := by
  have hsorted : (m :: rest).Pairwise Migration.Before := h ▸ fs.sorted.sublist List.filter_sublist
  have hfile : ∀ m' ∈ m :: rest, m' ∈ fs.files := fun m' hm' ↦ (mem_pending.mp (h ▸ hm')).1
  have hname : ∀ m' ∈ rest, ¬m'.HasName m.canonicalName := by
    intro m' hm' hboth
    obtain rfl := fs.identified m (hfile m List.mem_cons_self) m'
      (hfile m' (List.mem_cons_of_mem m hm')) _ (.inl rfl) hboth
    have hself := List.rel_of_pairwise_cons hsorted hm'
    exact hself.asymm hself
  calc fs.pending (names ++ [m.canonicalName])
      = (fs.pending names).filter fun m' ↦ !decide (m'.HasName m.canonicalName) := by
        rw [MigrationFiles.pending, MigrationFiles.pending, List.filter_filter]
        refine List.filter_congr fun m' _ ↦ ?_
        rw [Bool.eq_iff_iff]
        simp only [Bool.not_eq_true', ← Bool.not_eq_true, Bool.and_eq_true,
          hasAppliedMigration_iff, decide_eq_true_iff, List.mem_append, List.mem_singleton]
        constructor
        · intro hnone
          exact ⟨fun hown ↦ hnone ⟨_, .inr rfl, hown⟩,
            fun ⟨name, hmem, hown⟩ ↦ hnone ⟨name, .inl hmem, hown⟩⟩
        · rintro ⟨hother, hnone⟩ ⟨name, hmem | rfl, hown⟩
          · exact hnone ⟨name, hmem, hown⟩
          · exact hother hown
    _ = rest := by
        rw [h, List.filter_cons_of_neg (by simp [Migration.HasName]), List.filter_eq_self]
        intro m' hm'
        simpa using hname m' hm'

end Names

/-! ## The log -/

/-- The table holds the names that stand, and every entry of the log is timely. -/
structure Logged (fs : MigrationFiles) (sh : Shared) : Prop where
  standing : sh.names = standing sh.log
  timely : Each (Timely fs) sh.log

/-- What a call relies on while it holds the lock. -/
def Prepared (fs : MigrationFiles) (sh : Shared) : Call → Prop
  | .applying _ m rest _ | .recording _ m rest _ => fs.pending sh.names = m :: rest
  | .reverting _ m name | .deleting _ m name => m.HasName name ∧ sh.log.getLast? = some (.down m)
  | _ => True

section Logged

variable {cfg : Config} {fs : MigrationFiles} {sh : Shared} {c : Call} {m : Migration}

@[simp] theorem standing_concat (log : List Event) (e : Event) :
    standing (log ++ [e]) = noteName (standing log) e := List.foldl_concat ..

theorem Logged.note (h : Logged fs sh) {e : Event} (hnames : noteName sh.names e = sh.names)
    (he : Timely fs sh.log e) : Logged fs (sh.note e) := by
  refine ⟨?_, each_concat.mpr ⟨h.timely, he⟩⟩
  rw [Shared.note, standing_concat, ← h.standing]
  exact hnames.symm

theorem Logged.record (h : Logged fs sh) (m : Migration) : Logged fs (sh.record m) := by
  refine ⟨?_, each_concat.mpr ⟨h.timely, trivial⟩⟩
  rw [Shared.record, Shared.note, standing_concat, ← h.standing]
  exact List.map_append

theorem Logged.rollBack (h : Logged fs sh) {name : String} (hname : m.HasName name)
    (hlast : sh.log.getLast? = some (.down m)) : Logged fs (sh.rollBack name) := by
  refine ⟨?_, each_concat.mpr ⟨h.timely, m, hname, hlast⟩⟩
  rw [Shared.rollBack, Shared.note, standing_concat, ← h.standing]
  rw [noteName, Shared.names, Shared.names, List.filter_map]
  rfl

theorem Logged.timely_up (h : Logged fs sh) {rest : List Migration}
    (hpending : fs.pending sh.names = m :: rest) : Timely fs sh.log (.up m) := by
  have hm : m ∈ fs.pending sh.names := hpending ▸ List.mem_cons_self
  rw [Timely, ← h.standing]
  exact ⟨(mem_pending.mp hm).2, fun m' hm' hbefore ↦ applied_of_before hpending hm' hbefore⟩

theorem Logged.nextMigration (h : Logged cfg.files sh) (a : Args) (total : ℕ)
    {todo : List Migration} (htodo : cfg.files.pending sh.names = todo) :
    Logged cfg.files (nextMigration cfg sh a total todo).1 ∧
      Prepared cfg.files (nextMigration cfg sh a total todo).1
        (nextMigration cfg sh a total todo).2 := by
  cases todo with
  | nil => exact ⟨h, trivial⟩
  | cons m rest => exact ⟨h.note rfl (h.timely_up htodo), htodo⟩

theorem Logged.beginRollback (h : Logged cfg.files sh) (a : Args) (name : String) :
    Logged cfg.files (beginRollback cfg sh a name).1 ∧
      Prepared cfg.files (beginRollback cfg sh a name).1 (beginRollback cfg sh a name).2 := by
  rw [MigrationRunner.beginRollback]
  split
  · exact ⟨h, trivial⟩
  · next m hm =>
    split_ifs
    · exact ⟨h, trivial⟩
    · have hname : m.HasName name := by simpa using List.find?_some hm
      exact ⟨h.note rfl trivial, hname, List.getLast?_concat⟩

theorem Logged.lock (h : Logged fs sh) (lock : Option String) :
    Logged fs { sh with lock := lock } := ⟨h.standing, h.timely⟩

theorem Logged.release (h : Logged fs sh) (instanceId : String) :
    Logged fs (sh.release instanceId) := by
  rw [Shared.release]
  split_ifs
  · exact h.lock none
  · exact h

theorem prepared_nextAttempt (fs : MigrationFiles) (sh : Shared) (cfg : Config) (a : Args)
    (start now : ℕ) : Prepared fs sh (nextAttempt cfg a start now) := by
  rw [nextAttempt]
  split_ifs <;> exact trivial

theorem prepared_withLock (fs : MigrationFiles) (sh : Shared) (a : Args) :
    Prepared fs sh (withLock a) := by
  rw [withLock]
  split <;> exact trivial

/-- **A step keeps the log timely.** -/
theorem Logged.resume (h : Logged cfg.files sh) (hc : Prepared cfg.files sh c) (env : Env) :
    Logged cfg.files (resume cfg sh c env).1 ∧
      Prepared cfg.files (resume cfg sh c env).1 (resume cfg sh c env).2 := by
  obtain ⟨now, dbError, code⟩ := env
  cases c with
  | waiting | opening | createMigrations | finished => cases dbError <;> exact ⟨h, trivial⟩
  | addChecksum a => exact ⟨h, trivial⟩
  | createLock a =>
    cases dbError with
    | some e => exact ⟨h, trivial⟩
    | none => exact ⟨h, prepared_nextAttempt _ _ cfg a now now⟩
  | insertLock a start =>
    cases dbError with
    | some e => exact ⟨h, trivial⟩
    | none =>
      simp only [MigrationRunner.resume]
      split_ifs
      · exact ⟨h, trivial⟩
      · exact ⟨h.lock _, prepared_withLock _ _ a⟩
  | sleep a start => exact ⟨h, prepared_nextAttempt _ _ cfg a start now⟩
  | readApplied a =>
    cases dbError with
    | some e => exact ⟨h, trivial⟩
    | none => exact h.nextMigration a _ rfl
  | applying a m rest total =>
    cases code with
    | suspended | returned => exact ⟨h, hc⟩
    | threw message => exact ⟨h, trivial⟩
  | recording a m rest total =>
    cases dbError with
    | some e => exact ⟨h, trivial⟩
    | none =>
      simp only [MigrationRunner.resume]
      split_ifs
      · exact ⟨h, trivial⟩
      · refine (h.record m).nextMigration a total ?_
        rw [Shared.names, Shared.record, Shared.note, List.map_append]
        exact pending_record hc
  | readLast a =>
    cases dbError with
    | some e => exact ⟨h, trivial⟩
    | none =>
      simp only [MigrationRunner.resume]
      split
      · exact ⟨h, trivial⟩
      · exact h.beginRollback a _
  | reverting a m name =>
    cases code with
    | suspended | returned => exact ⟨h, hc⟩
    | threw message => exact ⟨h, trivial⟩
  | deleting a m name =>
    cases dbError with
    | some e => exact ⟨h, trivial⟩
    | none => exact ⟨h.rollBack hc.1 hc.2, trivial⟩
  | releasing a r =>
    cases dbError with
    | some e => exact ⟨h.note rfl trivial, trivial⟩
    | none => exact ⟨h.release a.instanceId, trivial⟩

end Logged

/-! ## The lock -/

/-- What a step does to the lock, and to the part that its call has in it. -/
inductive LockMove (sh : Shared) (c : Call) (sh' : Shared) (c' : Call) : Prop
  /-- The call has nothing to do with the lock. -/
  | outside (hc : c.holder = none) (hc' : c'.holder = none) (hshared : sh' = sh)
  | acquire (id : String) (hc : c.holder = none) (hfree : sh.lock = none)
      (hc' : c'.holder = some id) (hshared : sh' = { sh with lock := some id })
  | keep (hc : c.Holding) (hc' : c'.holder = c.holder) (hlock : sh'.lock = sh.lock)
      (hlog : sh.log ⊆ sh'.log)
  | giveBack (id : String) (hc : c.holder = some id) (hc' : c'.holder = none)
      (hshared : sh' = sh.release id)
  /-- The lock is not given back, because the statement fails. -/
  | strand (hc : c.Holding) (hc' : c'.holder = none) (hshared : sh' = sh.note .lockKept)

section Lock

variable {cfg : Config} {fs : MigrationFiles} {sh : Shared} {c : Call}

theorem holder_nextAttempt (a : Args) (start now : ℕ) :
    (nextAttempt cfg a start now).holder = none := by
  rw [nextAttempt]
  split_ifs <;> rfl

theorem holder_withLock (a : Args) : (withLock a).holder = some a.instanceId := by
  rw [withLock]
  split <;> rfl

theorem lockMove_nextMigration {a : Args} (ha : c.holder = some a.instanceId) (sh' : Shared)
    (hlock : sh'.lock = sh.lock) (hlog : sh.log ⊆ sh'.log) (total : ℕ) (todo : List Migration) :
    LockMove sh c (nextMigration cfg sh' a total todo).1
      (nextMigration cfg sh' a total todo).2 := by
  have hc : c.Holding := Option.isSome_of_eq_some ha
  cases todo with
  | nil => exact .keep hc ha.symm hlock hlog
  | cons m rest => exact .keep hc ha.symm hlock fun e he ↦ List.mem_append_left _ (hlog he)

theorem lockMove_beginRollback {a : Args} (ha : c.holder = some a.instanceId) (name : String) :
    LockMove sh c (beginRollback cfg sh a name).1 (beginRollback cfg sh a name).2 := by
  have hc : c.Holding := Option.isSome_of_eq_some ha
  rw [beginRollback]
  split
  · exact .keep hc ha.symm rfl fun e he ↦ he
  · split_ifs
    · exact .keep hc ha.symm rfl fun e he ↦ he
    · exact .keep hc ha.symm rfl fun e he ↦ List.mem_append_left _ he

/-- **What a step does to the lock.** -/
theorem lockMove_resume (cfg : Config) (sh : Shared) (c : Call) (env : Env) :
    LockMove sh c (resume cfg sh c env).1 (resume cfg sh c env).2 := by
  obtain ⟨now, dbError, code⟩ := env
  cases c with
  | waiting | opening | createMigrations | finished =>
    cases dbError <;> exact .outside rfl rfl rfl
  | addChecksum a => exact .outside rfl rfl rfl
  | createLock a =>
    cases dbError with
    | some e => exact .outside rfl rfl rfl
    | none => exact .outside rfl (holder_nextAttempt a now now) rfl
  | insertLock a start =>
    cases dbError with
    | some e => exact .outside rfl rfl rfl
    | none =>
      simp only [resume]
      split_ifs with hlock
      · exact .outside rfl rfl rfl
      · exact .acquire a.instanceId rfl (Option.not_isSome_iff_eq_none.mp hlock)
          (holder_withLock a) rfl
  | sleep a start => exact .outside rfl (holder_nextAttempt a start now) rfl
  | readApplied a =>
    cases dbError with
    | some e => exact .keep rfl rfl rfl fun e he ↦ he
    | none => exact lockMove_nextMigration rfl sh rfl (fun e he ↦ he) _ _
  | applying a m rest total => cases code <;> exact .keep rfl rfl rfl fun e he ↦ he
  | recording a m rest total =>
    cases dbError with
    | some e => exact .keep rfl rfl rfl fun e he ↦ he
    | none =>
      simp only [resume]
      split_ifs
      · exact .keep rfl rfl rfl fun e he ↦ he
      · have hlog : sh.log ⊆ (sh.record m).log := List.subset_append_left _ _
        refine lockMove_nextMigration ?_ (sh.record m) ?_ hlog total rest <;> rfl
  | readLast a =>
    cases dbError with
    | some e => exact .keep rfl rfl rfl fun e he ↦ he
    | none =>
      simp only [resume]
      split
      · exact .keep rfl rfl rfl fun e he ↦ he
      · exact lockMove_beginRollback rfl _
  | reverting a m name => cases code <;> exact .keep rfl rfl rfl fun e he ↦ he
  | deleting a m name =>
    cases dbError with
    | some e => exact .keep rfl rfl rfl fun e he ↦ he
    | none => exact .keep rfl rfl rfl fun e he ↦ List.mem_append_left _ he
  | releasing a r =>
    cases dbError with
    | some e => exact .strand rfl rfl rfl
    | none => exact .giveBack a.instanceId rfl rfl rfl

theorem prepared_of_not_holding (fs : MigrationFiles) (sh : Shared) (h : c.holder = none) :
    Prepared fs sh c := by
  cases c <;> first | exact trivial | cases h

end Lock

/-! ## Runs -/

section Theorem

variable {ι : Type*} {cfg : Config} {s : Calls ι Shared Call}

structure Sound (fs : MigrationFiles) (s : Calls ι Shared Call) : Prop where
  alone : AtMostOne Call.Holding s.call
  locked : ∀ i id, (s.call i).holder = some id → s.shared.lock = some id
  held : s.shared.lock ≠ none → .lockKept ∉ s.shared.log → ∃ i, (s.call i).Holding
  logged : Logged fs s.shared
  prepared : ∀ i, Prepared fs s.shared (s.call i)

theorem Call.Executing.holding {c : Call} (h : c.Executing) : c.Holding := by
  cases c <;> first | exact h.elim | rfl

theorem Call.Idle.not_holding {c : Call} (h : c.Idle) : ¬c.Holding := by
  cases c <;> first | exact h.elim | exact Bool.false_ne_true

theorem Sound.right {fs : MigrationFiles} (h : Sound fs s) : Right fs s where
  exclusive i j hi hj := h.alone i j hi.holding hj.holding
  timely := h.logged.timely
  released hidle hkept := by
    by_contra hlock
    obtain ⟨i, hi⟩ := h.held hlock hkept
    exact (hidle i).not_holding hi

theorem not_holding_iff {c : Call} : ¬c.Holding ↔ c.holder = none := by
  rw [Call.Holding, Bool.not_eq_true, Option.isSome_eq_false_iff, Option.isNone_iff_eq_none]

/-- The calls that do not move keep what they rely on. -/
theorem Sound.prepared_other (h : Sound cfg.files s) {i j : ι} (hj : j ≠ i) (env : Env) :
    Prepared cfg.files (resume cfg s.shared (s.call i) env).1 (s.call j) := by
  have hold := h.prepared j
  cases lockMove_resume cfg s.shared (s.call i) env with
  | outside hc hc' hshared =>
    rw [hshared]
    exact hold
  | acquire id hc hfree hc' hshared =>
    -- the tables and the log are as they were
    rw [hshared]
    cases hcall : s.call j <;> rw [hcall] at hold <;> exact hold
  | keep hc =>
    exact prepared_of_not_holding _ _ (not_holding_iff.mp fun hcj ↦ hj (h.alone j i hcj hc))
  | giveBack id hc =>
    have hi : (s.call i).Holding := Option.isSome_of_eq_some hc
    exact prepared_of_not_holding _ _ (not_holding_iff.mp fun hcj ↦ hj (h.alone j i hcj hi))
  | strand hc =>
    exact prepared_of_not_holding _ _ (not_holding_iff.mp fun hcj ↦ hj (h.alone j i hcj hc))

theorem sound_start (fs : MigrationFiles) (rows : List Row) (args : ι → Args) :
    Sound fs (start rows args) := by
  refine ⟨fun i j hi ↦ absurd hi Bool.false_ne_true,
    fun i id hi ↦ absurd hi (Option.some_ne_none id).symm, fun hlock ↦ absurd rfl hlock,
    ⟨?_, each_of_forall_mem fun e he pre ↦ ?_⟩, fun i ↦ trivial⟩
  · induction rows using List.reverseRecOn with
    | nil => rfl
    | append_singleton rows r ih =>
      rw [start, Shared.names, List.map_append, List.map_append, List.map_singleton,
        List.map_singleton, standing_concat]
      exact congrArg (· ++ [r.name]) ih
  · obtain ⟨r, -, rfl⟩ := List.mem_map.mp he
    trivial

variable [DecidableEq ι]

theorem Sound.alone_step (h : Sound cfg.files s) (i : ι) (env : Env) :
    AtMostOne Call.Holding (Calls.step (resume cfg) s (i, env)).call := by
  refine h.alone.update fun hholding ↦ ?_
  cases lockMove_resume cfg s.shared (s.call i) env with
  | outside hc hc' => exact absurd hholding (not_holding_iff.mpr hc')
  | acquire id hc hfree =>
    refine .inr fun j _ hj ↦ ?_
    obtain ⟨id', hid'⟩ := Option.isSome_iff_exists.mp hj
    rw [h.locked j id' hid'] at hfree
    cases hfree
  | keep hc => exact .inl hc
  | giveBack id hc hc' => exact absurd hholding (not_holding_iff.mpr hc')
  | strand hc hc' => exact absurd hholding (not_holding_iff.mpr hc')

theorem Sound.locked_step (h : Sound cfg.files s) (i : ι) (env : Env) (j : ι) (id : String)
    (hj : ((Calls.step (resume cfg) s (i, env)).call j).holder = some id) :
    (Calls.step (resume cfg) s (i, env)).shared.lock = some id := by
  rw [Calls.step_shared]
  by_cases hji : j = i
  · subst hji
    rw [Calls.step_call_self] at hj
    cases lockMove_resume cfg s.shared (s.call j) env with
    | outside hc hc' =>
      rw [hc'] at hj
      cases hj
    | acquire id' hc hfree hc' hshared =>
      rw [hshared, ← hj, hc']
    | keep hc hc' hlock =>
      rw [hlock]
      exact h.locked j id (hc' ▸ hj)
    | giveBack id' hc hc' =>
      rw [hc'] at hj
      cases hj
    | strand hc hc' =>
      rw [hc'] at hj
      cases hj
  · rw [Calls.step_call_of_ne s env hji] at hj
    have hholding : (s.call j).Holding := Option.isSome_of_eq_some hj
    have hlock := h.locked j id hj
    -- another call holds the lock, so call `i` neither acquires it nor has it
    cases lockMove_resume cfg s.shared (s.call i) env with
    | outside hc hc' hshared => rw [hshared, hlock]
    | acquire id' hc hfree =>
      rw [hfree] at hlock
      cases hlock
    | keep hc hc' hlock' => rw [hlock', hlock]
    | giveBack id' hc =>
      exact absurd (h.alone j i hholding (Option.isSome_of_eq_some hc)) hji
    | strand hc => exact absurd (h.alone j i hholding hc) hji

theorem Sound.held_step (h : Sound cfg.files s) (i : ι) (env : Env)
    (hlock : (Calls.step (resume cfg) s (i, env)).shared.lock ≠ none)
    (hkept : .lockKept ∉ (Calls.step (resume cfg) s (i, env)).shared.log) :
    ∃ j, ((Calls.step (resume cfg) s (i, env)).call j).Holding := by
  rw [Calls.step_shared] at hlock hkept
  cases lockMove_resume cfg s.shared (s.call i) env with
  | outside hc hc' hshared =>
    rw [hshared] at hlock hkept
    obtain ⟨j, hj⟩ := h.held hlock hkept
    have hji : j ≠ i := fun heq ↦ not_holding_iff.mpr hc (heq ▸ hj)
    exact ⟨j, by rwa [Calls.step_call_of_ne s env hji]⟩
  | acquire id hc hfree hc' =>
    exact ⟨i, by rw [Calls.step_call_self]; exact Option.isSome_of_eq_some hc'⟩
  | keep hc hc' =>
    exact ⟨i, by rw [Calls.step_call_self, Call.Holding, hc']; exact hc⟩
  | giveBack id hc hc' hshared =>
    refine absurd ?_ hlock
    rw [hshared, Shared.release, if_pos (h.locked i id hc)]
  | strand hc hc' hshared =>
    refine absurd ?_ hkept
    rw [hshared]
    exact List.mem_append_right _ List.mem_cons_self

/-- **Every step keeps the invariant.** -/
theorem Sound.step (h : Sound cfg.files s) (a : ι × Env) :
    Sound cfg.files (Calls.step (resume cfg) s a) := by
  obtain ⟨i, env⟩ := a
  obtain ⟨hlogged, hself⟩ := h.logged.resume (h.prepared i) env
  refine ⟨h.alone_step i env, h.locked_step i env, h.held_step i env, hlogged, fun j ↦ ?_⟩
  by_cases hj : j = i
  · subst hj
    rw [Calls.step_call_self]
    exact hself
  · rw [Calls.step_call_of_ne s env hj]
    exact h.prepared_other hj env

/-- **Migrations run once**, one at a time and in order, and the lock is given back, however the
calls are interleaved and whichever of them fail. -/
theorem migrations_run_once (cfg : Config) (rows : List Row) (args : ι → Args)
    (as : List (ι × Env)) :
    Always (Calls.step (resume cfg)) (Right cfg.files) (start rows args) as :=
  (always_of_step (fun _ a hs ↦ hs.step a) (sound_start cfg.files rows args) as).mono
    fun _ hs ↦ hs.right

end Theorem

section Examples

def ownName (name checksum : String) : Migration := ⟨name, some name, checksum, true⟩

theorem eq_of_hasName_ownName {name checksum name' : String}
    (h : (ownName name checksum).HasName name') : name = name' :=
  h.elim id Option.some.inj

def walletsAndRefunds : Directory where
  files := [ownName "032_wallets_table" "9c1d", ownName "032_refund_transactions" "51f0"]
  nodup := by decide
  identified m hm m' hm' name hname hname' := by
    simp only [List.mem_cons, List.not_mem_nil, or_false] at hm hm'
    rcases hm with rfl | rfl <;> rcases hm' with rfl | rfl
    · rfl
    · exact absurd ((eq_of_hasName_ownName hname).trans (eq_of_hasName_ownName hname').symm)
        (by decide)
    · exact absurd ((eq_of_hasName_ownName hname).trans (eq_of_hasName_ownName hname').symm)
        (by decide)
    · rfl

example : (loadMigrationFiles walletsAndRefunds).files.map Migration.file =
    ["032_refund_transactions.js", "032_wallets_table.js"] := by decide

/-- The statement succeeds, or the code of the migration returns. -/
def calm : Env := ⟨0, none, .returned⟩

/-- Two instances start at the same time. -/
theorem migrations_run_once_at :
    Always (Calls.step (resume ⟨loadMigrationFiles walletsAndRefunds, 30000⟩))
      (Right (loadMigrationFiles walletsAndRefunds))
      (start [] fun i : Fin 2 ↦ ⟨toString i, .runMigrations⟩)
      (List.replicate 6 (0, calm) ++ List.replicate 6 (1, calm) ++ List.replicate 6 (0, calm)) :=
  migrations_run_once _ _ _ _

end Examples

end StellarDonations.MigrationRunner
