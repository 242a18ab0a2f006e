import Mathlib.Data.Finset.Lattice.Lemmas
import Mathlib.Data.List.Sort
import PyScoped.Foundation.Rows
import PyScoped.Foundation.SchemaChanges
import PyScoped.Foundation.Stateful

/-! The migration runner of version 1. A migration is a script of schema statements,
each committed by itself, and its record is one more statement behind it. -/

namespace PyScoped.Legacy.Migrations
open Foundation

variable {ε : Type} [DecidableEq ε]

/-- A migration with what its `up` brings about, which its `down` takes back. -/
structure Migration (ε : Type) [DecidableEq ε] where
  version : Int
  name : String
  checksum : String
  up : List (SchemaChange ε)
  down : List (SchemaChange ε)
  effects : Finset ε
  applies : SchemaChange.run up ∅ = some effects
  undoes : SchemaChange.run down effects = some ∅

structure MigrationRecord where
  version : Int
  name : String
  appliedAt : String
  checksum : String

structure Database (ε : Type) where
  schema : Finset ε
  records : Rows MigrationRecord.version

/-- The database during a call, with the number of statements after which the call
stops, where it does. -/
structure Session (ε : Type) where
  database : Database ε
  left : Option Nat

inductive Failure where
  | stopped
  | refused
  | applying (version : Int) (name : String) (cause : Failure)
  | rollingBack (version : Int) (name : String) (cause : Failure)
  | notFound (version : Int)
  | alreadyApplied (version : Int)
  | notApplied (version : Int)
  | duplicate (version : Int) (registered name : String)

namespace Failure

/-- The texts of the backend are its own. -/
def message (stopped refused : String) : Failure → String
  | .stopped => stopped
  | .refused => refused
  | .applying version name cause =>
    "Failed to apply migration " ++ toString version ++ " (" ++ name ++ "): " ++ message stopped refused cause
  | .rollingBack version name cause =>
    "Failed to roll back migration " ++ toString version ++ " (" ++ name ++ "): " ++ message stopped refused cause
  | .notFound version => "Migration version " ++ toString version ++ " not found"
  | .alreadyApplied version => "Migration " ++ toString version ++ " already applied"
  | .notApplied version => "Migration " ++ toString version ++ " is not applied"
  | .duplicate version registered name =>
    "Duplicate migration version " ++ toString version ++ ": " ++ registered ++ " and " ++ name

def context : Failure → List (String × String)
  | .applying version name _ | .rollingBack version name _ => [("version", toString version), ("name", name)]
  | _ => []

end Failure

abbrev Action (ε : Type) := Stateful (Session ε) Failure

section Statements

/-- One statement that writes, committed by itself. -/
def statement (write : Database ε → Option (Database ε)) : Action ε PUnit := do
  let session ← get
  if session.left = some 0 then throw .stopped
  else match write session.database with
    | none => throw .refused
    | some database => set (⟨database, session.left.map (· - 1)⟩ : Session ε)

def execute (change : SchemaChange ε) : Action ε PUnit :=
  statement fun database => (change.apply database.schema).map fun schema => { database with schema }

def recordApplied (version : Int) (name checksum appliedAt : String) : Action ε PUnit :=
  statement fun database =>
    (database.records.insert ⟨version, name, appliedAt, checksum⟩).map fun records => { database with records }

def recordRolledBack (version : Int) : Action ε PUnit :=
  statement fun database => some { database with records := database.records.delete fun record => record.version = version }

end Statements

namespace Database

variable (database : Database ε)

def getAppliedVersions : List Int := (database.records.list.map MigrationRecord.version).mergeSort fun first second => first ≤ second

def isApplied (version : Int) : Bool := (database.records.find version).isSome

end Database

/-- The migrations that are registered, each under its version. -/
abbrev Runner (ε : Type) [DecidableEq ε] := Rows (@Migration.version ε _)

namespace Runner

variable (runner : Runner ε)

def register (migration : Migration ε) : Except Failure (Runner ε) :=
  match runner.insert migration with
  | some runner => .ok runner
  | none => .error (.duplicate migration.version ((runner.find migration.version).elim "" Migration.name) migration.name)

def allVersions : List Int := (runner.list.map Migration.version).mergeSort fun first second => first ≤ second

def getPending (database : Database ε) : List (Migration ε) :=
  (runner.allVersions.filter fun version => version ∉ database.getAppliedVersions).filterMap runner.find

def getApplied (database : Database ε) : List (Migration ε) :=
  (runner.allVersions.filter fun version => version ∈ database.getAppliedVersions).filterMap runner.find

end Runner

section Calls

variable (runner : Runner ε) (now : Int → String)

/-- `_apply_one`, with the time at which a version is recorded. -/
def applyMigration (migration : Migration ε) : Action ε PUnit := do
  tryCatch (migration.up.forM execute) fun cause => throw (.applying migration.version migration.name cause)
  recordApplied migration.version migration.name migration.checksum (now migration.version)

/-- `_rollback_one`. -/
def rollbackMigration (migration : Migration ε) : Action ε PUnit := do
  tryCatch (migration.down.forM execute) fun cause => throw (.rollingBack migration.version migration.name cause)
  recordRolledBack migration.version

/-- The loops of the runner, up to the first migration they stop at. -/
def each (ends : Migration ε → Bool) (body : Migration ε → Action ε PUnit) : List (Migration ε) → Action ε (List Int)
  | [] => return []
  | migration :: rest =>
    if ends migration then return []
    else do
      body migration
      let versions ← each ends body rest
      return migration.version :: versions

def applyAll : Action ε (List Int) := do
  let session ← get
  each (fun _ => false) (applyMigration now) (runner.getPending session.database)

def applyUpTo (targetVersion : Int) : Action ε (List Int) := do
  let session ← get
  each (fun migration => targetVersion < migration.version) (applyMigration now) (runner.getPending session.database)

def applyOne (version : Int) : Action ε PUnit := do
  match runner.find version with
  | none => throw (.notFound version)
  | some migration =>
    let session ← get
    if session.database.isApplied version then throw (.alreadyApplied version)
    else applyMigration now migration

def rollbackLast : Action ε (Option Int) := do
  let session ← get
  match (runner.getApplied session.database).getLast? with
  | none => return none
  | some last =>
    rollbackMigration last
    return some last.version

def rollbackTo (targetVersion : Int) : Action ε (List Int) := do
  let session ← get
  each (fun migration => migration.version ≤ targetVersion) rollbackMigration (runner.getApplied session.database).reverse

def rollbackOne (version : Int) : Action ε PUnit := do
  match runner.find version with
  | none => throw (.notFound version)
  | some migration =>
    let session ← get
    if session.database.isApplied version then rollbackMigration migration
    else throw (.notApplied version)

end Calls

/-- The calls that write. -/
inductive Call where
  | applyAll
  | applyUpTo (targetVersion : Int)
  | applyOne (version : Int)
  | rollbackLast
  | rollbackTo (targetVersion : Int)
  | rollbackOne (version : Int)

/-- A call that is made, with the times of its records. It may be cut off or fail
after some of its statements. -/
structure Made where
  call : Call
  now : Int → String
  stop : Option Nat

def Made.invoke (made : Made) (runner : Runner ε) : Action ε PUnit :=
  match made.call with
  | .applyAll => discard (applyAll runner made.now)
  | .applyUpTo targetVersion => discard (applyUpTo runner made.now targetVersion)
  | .applyOne version => applyOne runner made.now version
  | .rollbackLast => discard (rollbackLast runner)
  | .rollbackTo targetVersion => discard (rollbackTo runner targetVersion)
  | .rollbackOne version => rollbackOne runner version

/-- The database when a call is over. -/
def Made.leaves (made : Made) (runner : Runner ε) (database : Database ε) : Database ε :=
  ((made.invoke runner).on ⟨database, made.stop⟩).2.database

/-- The database after calls one after the other. -/
def after (runner : Runner ε) (start : Database ε) (calls : List Made) : Database ε :=
  calls.foldl (fun database made => made.leaves runner database) start

section RowLevelSecurity

/-- What migration 13 brings about at a table. -/
inductive TableSecurity where
  | enabled
  | forced
  | policy (name : String)
  deriving DecidableEq

def ownerTables : List String := ["scoped_objects", "scopes", "secrets", "secret_versions", "environments",
  "environment_templates", "stages", "pipelines", "deployment_targets", "contracts", "blobs", "search_index", "templates",
  "retention_policies", "glacial_archives", "event_subscriptions", "webhook_endpoints", "notification_rules",
  "recurring_schedules", "scheduled_actions", "jobs"]

def membershipTables : List String := ["scope_memberships"]

/-- The tables with their policies. -/
def policies : List (String × String) :=
  ownerTables.map (fun table => (table, "scoped_owner_isolation")) ++
    membershipTables.map (fun table => (table, "scoped_member_isolation")) ++
    [("scope_projections", "scoped_projection_isolation"), ("notifications", "scoped_notification_isolation")]

abbrev SecurityChange := SchemaChange (String × TableSecurity)

def protect (entry : String × String) : List SecurityChange :=
  [.ensure (entry.1, .enabled), .ensure (entry.1, .forced), .add (entry.1, .policy entry.2)]

def unprotect (entry : String × String) : List SecurityChange :=
  [.discard (entry.1, .policy entry.2), .discard (entry.1, .forced), .discard (entry.1, .enabled)]

theorem protect_nodup {entries : List (String × String)} (nodup : (entries.map Prod.fst).Nodup) :
    ((entries.flatMap protect).map SchemaChange.effect).Nodup := by
  induction entries with
  | nil => exact List.nodup_nil
  | cons entry entries ih =>
    obtain ⟨fresh, nodup⟩ := List.nodup_cons.mp nodup
    rw [List.flatMap_cons, List.map_append, List.nodup_append]
    refine ⟨by simp [protect, SchemaChange.effect], ih nodup, ?_⟩
    rintro _ here _ there rfl
    obtain ⟨change, own, rfl⟩ := List.mem_map.mp here
    obtain ⟨other, later, same⟩ := List.mem_map.mp there
    obtain ⟨entry', inside, own'⟩ := List.mem_flatMap.mp later
    have table : ∀ entry : String × String, ∀ change ∈ protect entry, change.effect.1 = entry.1 := by
      intro entry change own
      simp only [protect, List.mem_cons, List.not_mem_nil, or_false] at own
      rcases own with rfl | rfl | rfl <;> rfl
    apply fresh
    rw [← table entry change own, ← same, table entry' other own']
    exact List.mem_map_of_mem inside

theorem touched_unprotect (entries : List (String × String)) :
    SchemaChange.touched (entries.flatMap protect) \ SchemaChange.touched (entries.flatMap unprotect) = ∅ := by
  rw [Finset.sdiff_eq_empty_iff_subset]
  intro effect inside
  simp only [SchemaChange.touched, List.mem_toFinset, List.mem_map, List.mem_flatMap] at inside ⊢
  obtain ⟨change, ⟨entry, listed, own⟩, rfl⟩ := inside
  simp only [protect, List.mem_cons, List.not_mem_nil, or_false] at own
  rcases own with rfl | rfl | rfl
  · exact ⟨.discard (entry.1, .enabled), ⟨entry, listed, by simp [unprotect]⟩, rfl⟩
  · exact ⟨.discard (entry.1, .forced), ⟨entry, listed, by simp [unprotect]⟩, rfl⟩
  · exact ⟨.discard (entry.1, .policy entry.2), ⟨entry, listed, by simp [unprotect]⟩, rfl⟩

/-- Migration 13 on PostgreSQL; elsewhere it has no statements. -/
def addRowLevelSecurity (checksum : String) : Migration (String × TableSecurity) where
  version := 13
  name := "row_level_security"
  checksum := checksum
  up := policies.flatMap protect
  down := policies.flatMap unprotect
  effects := SchemaChange.touched (policies.flatMap protect)
  applies := by
    rw [SchemaChange.run_made, Finset.empty_union]
    · intro change inside
      obtain ⟨entry, -, own⟩ := List.mem_flatMap.mp inside
      simp only [protect, List.mem_cons, List.not_mem_nil, or_false] at own
      rcases own with rfl | rfl | rfl
      · exact .inr rfl
      · exact .inr rfl
      · exact .inl rfl
    · exact protect_nodup (by decide +kernel)
    · exact fun _ _ => Finset.notMem_empty _
  undoes := by
    rw [SchemaChange.run_discarded, touched_unprotect]
    intro change inside
    obtain ⟨entry, -, own⟩ := List.mem_flatMap.mp inside
    simp only [unprotect, List.mem_cons, List.not_mem_nil, or_false] at own
    rcases own with rfl | rfl | rfl <;> rfl

end RowLevelSecurity

end PyScoped.Legacy.Migrations
