import Mathlib.Data.List.TakeWhile
import PyScoped.Legacy.Migrations

/-! What the records of migrations say about the schema, after calls that may stop
after any statement. -/

namespace PyScoped.Legacy.Migrations
open Foundation
open Foundation.SchemaChange hiding discard

variable {ε : Type} [DecidableEq ε]

section Statements

variable {write : Database ε → Option (Database ε)} {database database' : Database ε} {left : Option Nat}

omit [DecidableEq ε] in
theorem statement_done (more : left ≠ some 0) (written : write database = some database') :
    (statement write).on ⟨database, left⟩ = (.ok ⟨⟩, ⟨database', left.map (· - 1)⟩) := by
  rw [statement, Stateful.on_bind, Stateful.on_get]
  dsimp only
  rw [if_neg more, written]
  rfl

variable {script : List (SchemaChange ε)} {schema schema' : Finset ε} {records : Rows MigrationRecord.version}

theorem script_done (ran : run script schema = some schema') (enough : ∀ n, left = some n → script.length ≤ n) :
    (script.forM execute).on ⟨⟨schema, records⟩, left⟩ =
      (.ok ⟨⟩, ⟨⟨schema', records⟩, left.map (· - script.length)⟩) := by
  induction script generalizing schema left with
  | nil =>
    cases ran
    cases left <;> rfl
  | cons change script ih =>
    obtain ⟨middle, first, rest⟩ := Option.bind_eq_some_iff.mp ran
    have more : left ≠ some 0 := fun none => absurd (enough 0 none) (by simp)
    have done : (execute change).on ⟨⟨schema, records⟩, left⟩ = (.ok ⟨⟩, ⟨⟨middle, records⟩, left.map (· - 1)⟩) :=
      statement_done more (by rw [first]; rfl)
    change (execute change >>= fun _ => script.forM execute).on _ = _
    rw [Stateful.on_bind, done]
    dsimp only
    rw [ih rest]
    · cases left with
      | none => rfl
      | some n =>
        simp only [Option.map_some, List.length_cons]
        rw [Nat.sub_sub, Nat.add_comm]
    · intro n given
      obtain ⟨n', rfl, rfl⟩ := Option.map_eq_some_iff.mp given
      have enough := enough n' rfl
      rw [List.length_cons] at enough
      omega

theorem script_stopped {n : Nat} (ran : run (script.take n) schema = some schema') (short : n < script.length) :
    (script.forM execute).on ⟨⟨schema, records⟩, some n⟩ = (.error .stopped, ⟨⟨schema', records⟩, some 0⟩) := by
  induction script generalizing schema n with
  | nil => exact absurd short (Nat.not_lt_zero n)
  | cons change script ih =>
    change (execute change >>= fun _ => script.forM execute).on _ = _
    cases n with
    | zero =>
      cases ran
      rfl
    | succ n =>
      obtain ⟨middle, first, rest⟩ := Option.bind_eq_some_iff.mp ran
      have done : (execute change).on ⟨⟨schema, records⟩, some (n + 1)⟩ = (.ok ⟨⟩, ⟨⟨middle, records⟩, some n⟩) :=
        statement_done (by simp) (by rw [first]; rfl)
      rw [Stateful.on_bind, done]
      exact ih rest (Nat.lt_of_succ_lt_succ short)

end Statements

section Moves

/-- What a migration touches. -/
def Migration.objects (migration : Migration ε) : Finset ε := touched migration.up ∪ touched migration.down

def Database.Recorded (database : Database ε) (version : Int) : Prop := version ∈ database.records.list.map MigrationRecord.version

/-- One migration that is applied or rolled back. -/
structure Move (ε : Type) [DecidableEq ε] where
  migration : Migration ε
  forward : Bool

namespace Move

variable (move : Move ε)

def script : List (SchemaChange ε) := if move.forward then move.migration.up else move.migration.down

/-- What of the migration is in effect before, and behind. -/
def before : Finset ε := if move.forward then ∅ else move.migration.effects

def behind : Finset ε := if move.forward then move.migration.effects else ∅

def perform (now : Int → String) : Action ε PUnit :=
  if move.forward then applyMigration now move.migration else rollbackMigration move.migration

/-- The record is as before the move. -/
def Ready (database : Database ε) : Prop := database.Recorded move.migration.version ↔ move.forward = false

/-- A number of statements into the script, no more and no less of the migration is
in effect than before. -/
def Idle (n : Nat) : Prop := run (move.script.take n) move.before = some move.before

/-- A move that was made. -/
structure Done (database after : Database ε) : Prop where
  agree : Agree move.migration.objects after.schema move.behind
  other : ∀ effect ∉ move.migration.objects, effect ∈ after.schema ↔ effect ∈ database.schema
  recorded : ∀ version, after.Recorded version ↔
    if version = move.migration.version then move.forward = true else database.Recorded version

/-- A move that stopped within. -/
structure Halted (n : Nat) (database after : Database ε) : Prop where
  agree : ∃ middle, run (move.script.take n) move.before = some middle ∧ Agree move.migration.objects after.schema middle
  other : ∀ effect ∉ move.migration.objects, effect ∈ after.schema ↔ effect ∈ database.schema
  records : after.records = database.records

variable {move} {database : Database ε} {left : Option Nat} {n : Nat} {now : Int → String}

theorem ran : run move.script move.before = some move.behind := by
  unfold script before behind
  cases move.forward with
  | true => exact move.migration.applies
  | false => exact move.migration.undoes

theorem script_objects : touched move.script ⊆ move.migration.objects := by
  unfold script
  cases move.forward with
  | true => exact Finset.subset_union_left
  | false => exact Finset.subset_union_right

omit [DecidableEq ε] in
theorem recordApplied_done {version : Int} (name checksum appliedAt : String) (fresh : ¬ database.Recorded version)
    (more : left ≠ some 0) : ∃ records : Rows MigrationRecord.version,
      (recordApplied version name checksum appliedAt : Action ε PUnit).on ⟨database, left⟩ =
        (.ok ⟨⟩, ⟨⟨database.schema, records⟩, left.map (· - 1)⟩) ∧
      ∀ other, other ∈ records.list.map MigrationRecord.version ↔ other = version ∨ database.Recorded other := by
  obtain ⟨records, inserted⟩ : ∃ records, database.records.insert ⟨version, name, appliedAt, checksum⟩ = some records := by
    unfold Rows.insert
    rw [dif_pos (by exact fresh)]
    exact ⟨_, rfl⟩
  refine ⟨records, statement_done more (by rw [inserted]; rfl), fun other => ?_⟩
  unfold Rows.insert at inserted
  rw [dif_pos (by exact fresh)] at inserted
  cases inserted
  rw [List.map_append, List.mem_append, or_comm]
  exact or_congr_left List.mem_singleton

omit [DecidableEq ε] in
theorem recordRolledBack_done (database : Database ε) (version : Int) (more : left ≠ some 0) : ∃ records : Rows MigrationRecord.version,
    (recordRolledBack version : Action ε PUnit).on ⟨database, left⟩ =
      (.ok ⟨⟩, ⟨⟨database.schema, records⟩, left.map (· - 1)⟩) ∧
    ∀ other, other ∈ records.list.map MigrationRecord.version ↔ other ≠ version ∧ database.Recorded other := by
  refine ⟨database.records.delete fun record => record.version = version, statement_done more rfl, fun other => ?_⟩
  simp only [Rows.delete, Database.Recorded, List.mem_map, List.mem_filter, Bool.not_eq_true', decide_eq_false_iff_not]
  constructor
  · rintro ⟨record, ⟨listed, different⟩, rfl⟩
    exact ⟨different, record, listed, rfl⟩
  · rintro ⟨different, record, listed, rfl⟩
    exact ⟨record, ⟨listed, different⟩, rfl⟩

/-- With enough statements left, the move is made. -/
theorem perform_done (now : Int → String) (ready : move.Ready database) (agree : Agree move.migration.objects database.schema move.before)
    (enough : ∀ n, left = some n → move.script.length < n) :
    ∃ after, (move.perform now).on ⟨database, left⟩ = (.ok ⟨⟩, ⟨after, left.map (· - (move.script.length + 1))⟩) ∧
      move.Done database after := by
  obtain ⟨schema, scripted, agree'⟩ := run_agree script_objects agree ran
  have finished : (move.script.forM execute).on ⟨database, left⟩ =
      (.ok ⟨⟩, ⟨⟨schema, database.records⟩, left.map (· - move.script.length)⟩) :=
    script_done scripted fun n given => Nat.le_of_lt (enough n given)
  have other : ∀ effect ∉ move.migration.objects, effect ∈ schema ↔ effect ∈ database.schema :=
    fun effect apart => run_other scripted fun inside => apart (script_objects inside)
  have more : left.map (· - move.script.length) ≠ some 0 := by
    intro none
    obtain ⟨n, given, short⟩ := Option.map_eq_some_iff.mp none
    have := enough n given
    omega
  have count : (left.map (· - move.script.length)).map (· - 1) = left.map (· - (move.script.length + 1)) := by
    cases left <;> rfl
  cases forward : move.forward with
  | true =>
    have script : move.migration.up = move.script := by rw [Move.script, forward, if_pos rfl]
    have fresh : ¬ database.Recorded move.migration.version := by
      intro recorded
      have backward := ready.mp recorded
      rw [forward] at backward
      cases backward
    have fresh : Database.Recorded ⟨schema, database.records⟩ move.migration.version → False := fresh
    obtain ⟨records, recorded, others⟩ := recordApplied_done move.migration.name move.migration.checksum
      (now move.migration.version) fresh more
    refine ⟨⟨schema, records⟩, ?_, agree', other, fun version => ?_⟩
    · rw [perform, forward, if_pos rfl, applyMigration, script, Stateful.on_bind, Stateful.on_tryCatch, finished]
      dsimp only
      rw [recorded, count]
    · rw [forward]
      refine (others version).trans ?_
      split
      next same => simp [same]
      next different => exact or_iff_right different
  | false =>
    have script : move.migration.down = move.script := by rw [Move.script, forward, if_neg Bool.false_ne_true]
    obtain ⟨records, recorded, others⟩ := recordRolledBack_done ⟨schema, database.records⟩ move.migration.version more
    refine ⟨⟨schema, records⟩, ?_, agree', other, fun version => ?_⟩
    · rw [perform, forward, if_neg Bool.false_ne_true, rollbackMigration, script, Stateful.on_bind, Stateful.on_tryCatch, finished]
      dsimp only
      rw [recorded, count]
    · rw [forward]
      refine (others version).trans ?_
      split
      next same => simp [same]
      next different => exact and_iff_right different

/-- With fewer, it stops within the script or in front of the record. -/
theorem perform_halted (now : Int → String) (agree : Agree move.migration.objects database.schema move.before) (short : n ≤ move.script.length) :
    ∃ error after, (move.perform now).on ⟨database, some n⟩ = (.error error, ⟨after, some 0⟩) ∧ move.Halted n database after := by
  obtain ⟨middle, reached⟩ := run_take move.ran n
  have within : touched (move.script.take n) ⊆ move.migration.objects := (touched_take n move.script).trans script_objects
  obtain ⟨schema, scripted, agree'⟩ := run_agree within agree reached
  have halted : move.Halted n database ⟨schema, database.records⟩ :=
    ⟨⟨middle, reached, agree'⟩, fun effect apart => run_other scripted fun inside => apart (within inside), rfl⟩
  suffices ends : ∃ error, (move.perform now).on ⟨database, some n⟩ = (.error error, ⟨⟨schema, database.records⟩, some 0⟩) by
    obtain ⟨error, ends⟩ := ends
    exact ⟨error, _, ends, halted⟩
  have ran : ∃ answer, (move.script.forM execute).on ⟨database, some n⟩ = (answer, ⟨⟨schema, database.records⟩, some 0⟩) := by
    rcases Nat.lt_or_eq_of_le short with inside | last
    · exact ⟨_, script_stopped scripted inside⟩
    · rw [last, List.take_length] at scripted
      have enough : ∀ m, some n = some m → move.script.length ≤ m := by
        intro m given
        cases given
        exact Nat.le_of_eq last.symm
      have full : (move.script.forM execute).on ⟨database, some n⟩ =
          (.ok ⟨⟩, ⟨⟨schema, database.records⟩, some (n - move.script.length)⟩) := script_done scripted enough
      rw [last, Nat.sub_self] at full
      exact ⟨_, last ▸ full⟩
  obtain ⟨answer, ran⟩ := ran
  unfold perform script at *
  cases forward : move.forward with
  | true =>
    rw [forward, if_pos rfl] at ran
    rw [if_pos rfl, applyMigration, Stateful.on_bind, Stateful.on_tryCatch, ran]
    cases answer <;> exact ⟨_, rfl⟩
  | false =>
    rw [forward, if_neg Bool.false_ne_true] at ran
    rw [if_neg Bool.false_ne_true, rollbackMigration, Stateful.on_bind, Stateful.on_tryCatch, ran]
    cases answer <;> exact ⟨_, rfl⟩

end Move

end Moves

variable {migration : Migration ε}

section Bookkeeping

/-- All that the migration brings about is there, and nothing else that it touches. -/
def Migration.InEffect (migration : Migration ε) (schema : Finset ε) : Prop := Agree migration.objects schema migration.effects

/-- Nothing that the migration touches is there. -/
def Migration.Absent (migration : Migration ε) (schema : Finset ε) : Prop := Agree migration.objects schema ∅

/-- A version is recorded where its migration is in effect, and otherwise none of it is. -/
def Consistent (runner : Runner ε) (database : Database ε) : Prop :=
  ∀ migration ∈ runner.list, (database.Recorded migration.version → migration.InEffect database.schema) ∧
    (¬ database.Recorded migration.version → migration.Absent database.schema)

/-- No two migrations touch the same. -/
def Separate (runner : Runner ε) : Prop :=
  ∀ first ∈ runner.list, ∀ second ∈ runner.list, first ≠ second → ∀ effect ∈ first.objects, effect ∉ second.objects

namespace Move

variable {runner : Runner ε} {move : Move ε} {database after : Database ε} {n : Nat}

theorem beside (separate : Separate runner) (member : move.migration ∈ runner.list) (consistent : Consistent runner database)
    (other : ∀ effect ∉ move.migration.objects, effect ∈ after.schema ↔ effect ∈ database.schema)
    (recorded : ∀ version, version ≠ move.migration.version → (after.Recorded version ↔ database.Recorded version))
    (registered : migration ∈ runner.list) (different : migration ≠ move.migration) :
    (after.Recorded migration.version → migration.InEffect after.schema) ∧
      (¬ after.Recorded migration.version → migration.Absent after.schema) := by
  have version : migration.version ≠ move.migration.version :=
    fun same => different (List.inj_on_of_nodup_map runner.unique registered member same)
  have same : Agree migration.objects after.schema database.schema :=
    fun effect inside => other effect (separate migration registered move.migration member different effect inside)
  rw [recorded _ version]
  obtain ⟨inEffect, absent⟩ := consistent migration registered
  exact ⟨fun listed => same.trans (inEffect listed), fun missing => same.trans (absent missing)⟩

theorem Ready.agree (ready : move.Ready database) (consistent : Consistent runner database) (member : move.migration ∈ runner.list) :
    Agree move.migration.objects database.schema move.before := by
  obtain ⟨inEffect, absent⟩ := consistent move.migration member
  unfold before
  cases forward : move.forward with
  | true =>
    apply absent
    intro recorded
    have backward := ready.mp recorded
    rw [forward] at backward
    cases backward
  | false => exact inEffect (ready.mpr forward)

theorem Done.consistent (done : move.Done database after) (separate : Separate runner) (member : move.migration ∈ runner.list)
    (consistent : Consistent runner database) : Consistent runner after := by
  intro migration registered
  by_cases itself : migration = move.migration
  · subst itself
    have recorded := done.recorded move.migration.version
    rw [if_pos rfl] at recorded
    have agree := done.agree
    unfold behind at agree
    constructor
    · intro listed
      rwa [recorded.mp listed] at agree
    · intro missing
      rwa [if_neg fun forward => missing (recorded.mpr forward)] at agree
  · apply beside separate member consistent done.other ?_ registered itself
    intro version different
    rw [done.recorded version, if_neg different]

/-- A move that stopped leaves the database consistent where nothing had changed yet. -/
theorem Halted.keeps_iff (halted : move.Halted n database after) (separate : Separate runner)
    (member : move.migration ∈ runner.list) (ready : move.Ready database) (consistent : Consistent runner database) :
    Consistent runner after ↔ move.Idle n := by
  obtain ⟨middle, reached, agree⟩ := halted.agree
  have recorded : ∀ version, after.Recorded version ↔ database.Recorded version := by
    intro version
    rw [Database.Recorded, halted.records]
    rfl
  have ready' : move.Ready after := (recorded _).trans ready
  constructor
  · intro consistent'
    have before' := ready'.agree consistent' member
    have same : middle = move.before := by
      ext effect
      by_cases object : effect ∈ move.migration.objects
      · exact (agree effect object).symm.trans (before' effect object)
      · exact run_other reached fun inside => object (script_objects (touched_take n move.script inside))
    rw [Idle, reached, same]
  · intro idle
    have same : middle = move.before := Option.some.inj (reached.symm.trans idle)
    rw [same] at agree
    intro migration registered
    by_cases itself : migration = move.migration
    · subst itself
      unfold before at agree
      constructor
      · intro listed
        rwa [ready'.mp listed] at agree
      · intro missing
        cases forward : move.forward with
        | true => rwa [forward] at agree
        | false => exact absurd (ready'.mpr forward) missing
    · exact beside separate member consistent halted.other (fun version _ => recorded version) registered itself

end Move

/-- Moves one after the other stop, if at all, where the one at hand has changed
nothing: in front of it, or behind statements that come to nothing. -/
def Clean : List (Move ε) → Option Nat → Prop
  | _, none | [], some _ => True
  | move :: rest, some n =>
    if move.script.length < n then Clean rest (some (n - (move.script.length + 1))) else move.Idle n

/-- Moves that can be made one after the other. -/
structure Planned (runner : Runner ε) (database : Database ε) (moves : List (Move ε)) : Prop where
  member : ∀ move ∈ moves, move.migration ∈ runner.list
  ready : ∀ move ∈ moves, move.Ready database
  nodup : (moves.map fun move => move.migration.version).Nodup

variable {runner : Runner ε} {database : Database ε} {now : Int → String}

theorem Planned.tail {move : Move ε} {rest : List (Move ε)} {after : Database ε} (planned : Planned runner database (move :: rest))
    (done : move.Done database after) : Planned runner after rest := by
  obtain ⟨fresh, nodup⟩ := List.nodup_cons.mp planned.nodup
  refine ⟨fun other inside => planned.member other (List.mem_cons_of_mem _ inside), fun other inside => ?_, nodup⟩
  have different : other.migration.version ≠ move.migration.version := by
    intro same
    exact fresh (List.mem_map.mpr ⟨other, inside, same⟩)
  have ready := planned.ready other (List.mem_cons_of_mem _ inside)
  unfold Move.Ready at ready ⊢
  rw [done.recorded, if_neg different]
  exact ready

/-- Moves leave a consistent database exactly where they do not stop within one. -/
theorem moves_consistent_iff (separate : Separate runner) (consistent : Consistent runner database) {moves : List (Move ε)}
    (planned : Planned runner database moves) (left : Option Nat) :
    Consistent runner ((moves.forM fun move => move.perform now).on ⟨database, left⟩).2.database ↔ Clean moves left := by
  induction moves generalizing database left with
  | nil =>
    have still : ((([] : List (Move ε)).forM fun move => move.perform now).on ⟨database, left⟩).2.database = database := rfl
    rw [still]
    cases left <;> exact iff_of_true consistent trivial
  | cons move rest ih =>
    have member := planned.member move List.mem_cons_self
    have ready := planned.ready move List.mem_cons_self
    have agree := ready.agree consistent member
    change Consistent runner ((move.perform now >>= fun _ => rest.forM fun move => move.perform now).on _).2.database ↔ _
    rw [Stateful.on_bind]
    by_cases enough : ∀ n, left = some n → move.script.length < n
    · obtain ⟨after, performed, done⟩ := Move.perform_done now ready agree enough
      rw [performed]
      dsimp only
      rw [ih (done.consistent separate member consistent) (planned.tail done)]
      cases left with
      | none => simp [Clean]
      | some n => rw [Option.map_some, Clean, if_pos (enough n rfl)]
    · simp only [not_forall, Nat.not_lt, exists_prop] at enough
      obtain ⟨n, rfl, short⟩ := enough
      obtain ⟨error, after, performed, halted⟩ := Move.perform_halted now agree short
      rw [performed]
      dsimp only
      rw [halted.keeps_iff separate member ready consistent, Clean, if_neg (Nat.not_lt.mpr short)]

/-- Undisturbed moves are all made. -/
theorem moves_done (now : Int → String) (separate : Separate runner) (consistent : Consistent runner database) {moves : List (Move ε)}
    (planned : Planned runner database moves) : ∃ after,
      (moves.forM fun move => move.perform now).on ⟨database, none⟩ = (.ok ⟨⟩, ⟨after, none⟩) ∧ Consistent runner after ∧
      (∀ move ∈ moves, after.Recorded move.migration.version ↔ move.forward = true) ∧
      ∀ version, (∀ move ∈ moves, move.migration.version ≠ version) → (after.Recorded version ↔ database.Recorded version) := by
  induction moves generalizing database with
  | nil => exact ⟨database, rfl, consistent, nofun, fun _ _ => Iff.rfl⟩
  | cons move rest ih =>
    have member := planned.member move List.mem_cons_self
    have ready := planned.ready move List.mem_cons_self
    have unbounded : ∀ n, (none : Option Nat) = some n → move.script.length < n := nofun
    obtain ⟨middle, performed, done⟩ := Move.perform_done now ready (ready.agree consistent member) unbounded
    obtain ⟨after, finished, consistent', recorded, kept⟩ := ih (done.consistent separate member consistent) (planned.tail done)
    obtain ⟨fresh, -⟩ := List.nodup_cons.mp planned.nodup
    refine ⟨after, ?_, consistent', ?_, ?_⟩
    · change (move.perform now >>= fun _ => rest.forM fun move => move.perform now).on _ = _
      rw [Stateful.on_bind, performed]
      exact finished
    · intro first inside
      rcases List.mem_cons.mp inside with rfl | inside
      · rw [kept, done.recorded, if_pos rfl]
        intro other inside same
        exact fresh (List.mem_map.mpr ⟨other, inside, same⟩)
      · exact recorded first inside
    · intro version apart
      obtain ⟨first, later⟩ := List.forall_mem_cons.mp apart
      rw [kept version later, done.recorded, if_neg (Ne.symm first)]

end Bookkeeping

section Plans

variable {runner : Runner ε} {database : Database ε} {now : Int → String}

omit [DecidableEq ε] in
theorem mem_getAppliedVersions {version : Int} : version ∈ database.getAppliedVersions ↔ database.Recorded version := by
  rw [Database.getAppliedVersions, List.mem_mergeSort, Database.Recorded]

omit [DecidableEq ε] in
theorem isApplied_iff {version : Int} : database.isApplied version = true ↔ database.Recorded version := by
  rw [Database.isApplied, Option.isSome_iff_exists, Database.Recorded, List.mem_map]
  constructor
  · intro ⟨record, found⟩
    exact ⟨record, Rows.find_eq_some.mp found⟩
  · intro ⟨record, found⟩
    exact ⟨record, Rows.find_eq_some.mpr found⟩

theorem mem_found {versions : List Int} :
    migration ∈ versions.filterMap runner.find ↔ migration ∈ runner.list ∧ migration.version ∈ versions := by
  rw [List.mem_filterMap]
  constructor
  · intro ⟨version, listed, found⟩
    obtain ⟨member, rfl⟩ := Rows.find_eq_some.mp found
    exact ⟨member, listed⟩
  · intro ⟨member, listed⟩
    exact ⟨migration.version, listed, Rows.find_mem member⟩

theorem found_nodup {versions : List Int} (nodup : versions.Nodup) : ((versions.filterMap runner.find).map Migration.version).Nodup := by
  have own : ∀ version, ((runner.find version).map Migration.version).toList ⊆ [version] := by
    intro version other inside
    cases found : runner.find version with
    | none => simp [found] at inside
    | some migration =>
      rw [found] at inside
      have same := (Rows.find_eq_some.mp found).2
      simpa [same] using inside
  rw [List.map_filterMap]
  apply nodup.filterMap
  intro first second version here there
  have inside := own first (Option.mem_toList.mpr here)
  have inside' := own second (Option.mem_toList.mpr there)
  exact (List.mem_singleton.mp inside).symm.trans (List.mem_singleton.mp inside')

theorem allVersions_perm : runner.allVersions.Perm (runner.list.map Migration.version) := List.mergeSort_perm _ _

theorem mem_getPending : migration ∈ runner.getPending database ↔
    migration ∈ runner.list ∧ ¬ database.Recorded migration.version := by
  unfold Runner.getPending
  simp only [mem_found, List.mem_filter, allVersions_perm.mem_iff, decide_eq_true_eq, mem_getAppliedVersions]
  constructor
  · intro pending
    obtain ⟨member, -, missing⟩ := pending
    exact ⟨member, missing⟩
  · intro pending
    obtain ⟨member, missing⟩ := pending
    exact ⟨member, List.mem_map_of_mem member, missing⟩

theorem mem_getApplied : migration ∈ runner.getApplied database ↔
    migration ∈ runner.list ∧ database.Recorded migration.version := by
  unfold Runner.getApplied
  simp only [mem_found, List.mem_filter, allVersions_perm.mem_iff, decide_eq_true_eq, mem_getAppliedVersions]
  constructor
  · intro applied
    obtain ⟨member, -, recorded⟩ := applied
    exact ⟨member, recorded⟩
  · intro applied
    obtain ⟨member, recorded⟩ := applied
    exact ⟨member, List.mem_map_of_mem member, recorded⟩

theorem allVersions_nodup : runner.allVersions.Nodup := allVersions_perm.nodup_iff.mpr runner.unique

theorem getPending_nodup : ((runner.getPending database).map Migration.version).Nodup := found_nodup (allVersions_nodup.filter _)

theorem getApplied_nodup : ((runner.getApplied database).map Migration.version).Nodup := found_nodup (allVersions_nodup.filter _)

theorem each_on {ends : Migration ε → Bool} {body : Migration ε → Action ε PUnit} (list : List (Migration ε)) (session : Session ε) :
    (each ends body list).on session =
      (((((list.takeWhile fun migration => !ends migration).forM body).on session).1.map fun _ =>
        (list.takeWhile fun migration => !ends migration).map Migration.version),
      (((list.takeWhile fun migration => !ends migration).forM body).on session).2) := by
  induction list generalizing session with
  | nil => rfl
  | cons migration list ih =>
    rw [each]
    cases stops : ends migration with
    | true =>
      rw [if_pos rfl, List.takeWhile_cons_of_neg (by simp [stops])]
      rfl
    | false =>
      rw [if_neg Bool.false_ne_true, List.takeWhile_cons_of_pos (by simp [stops])]
      change _ = (((body migration >>= fun _ => List.forM _ body).on session).1.map _,
        ((body migration >>= fun _ => List.forM _ body).on session).2)
      rw [Stateful.on_bind, Stateful.on_bind]
      rcases (body migration).on session with ⟨_ | _, middle⟩
      · rfl
      · dsimp only
        rw [Stateful.on_bind_pure, ih]
        cases ((list.takeWhile fun migration => !ends migration).forM body).on middle with
        | mk answer after => cases answer <;> rfl

def forward (migration : Migration ε) : Move ε := ⟨migration, true⟩

def backward (migration : Migration ε) : Move ε := ⟨migration, false⟩

/-- The moves that a call sets out to make. -/
def Call.moves (runner : Runner ε) (database : Database ε) : Call → List (Move ε)
  | .applyAll => (runner.getPending database).map forward
  | .applyUpTo targetVersion =>
    ((runner.getPending database).takeWhile fun migration => migration.version ≤ targetVersion).map forward
  | .applyOne version => ((runner.find version).toList.filter fun _ => !database.isApplied version).map forward
  | .rollbackLast => (runner.getApplied database).getLast?.toList.map backward
  | .rollbackTo targetVersion =>
    ((runner.getApplied database).reverse.takeWhile fun migration => targetVersion < migration.version).map backward
  | .rollbackOne version => ((runner.find version).toList.filter fun _ => database.isApplied version).map backward

variable {list : List (Migration ε)}

theorem planned_map {direct : Bool} (ready : ∀ migration ∈ list, migration ∈ runner.list ∧
    (database.Recorded migration.version ↔ direct = false)) (nodup : (list.map Migration.version).Nodup) :
    Planned runner database (list.map fun migration => ⟨migration, direct⟩) where
  member := by
    intro move inside
    obtain ⟨migration, listed, rfl⟩ := List.mem_map.mp inside
    exact (ready migration listed).1
  ready := by
    intro move inside
    obtain ⟨migration, listed, rfl⟩ := List.mem_map.mp inside
    exact (ready migration listed).2
  nodup := by
    rw [List.map_map]
    exact nodup

theorem planned_forward (pending : ∀ migration ∈ list, migration ∈ runner.getPending database) :
    (list.map Migration.version).Nodup → Planned runner database (list.map forward) :=
  planned_map fun migration listed =>
    (mem_getPending.mp (pending migration listed)).imp_right fun missing => iff_of_false missing nofun

theorem planned_backward (applied : ∀ migration ∈ list, migration ∈ runner.getApplied database) :
    (list.map Migration.version).Nodup → Planned runner database (list.map backward) :=
  planned_map fun migration listed =>
    (mem_getApplied.mp (applied migration listed)).imp_right fun recorded => iff_of_true recorded rfl

theorem planned_nil : Planned runner database [] := ⟨nofun, nofun, List.nodup_nil⟩

theorem found_single (version : Int) (chosen : Bool) :
    (((runner.find version).toList.filter fun _ => chosen).map Migration.version).Nodup := by
  cases runner.find version with
  | none => exact List.nodup_nil
  | some migration => cases chosen <;> simp

theorem Call.planned (call : Call) : Planned runner database (call.moves runner database) := by
  cases call with
  | applyAll => exact planned_forward (fun _ inside => inside) getPending_nodup
  | applyUpTo targetVersion =>
    have earlier := List.takeWhile_sublist (l := runner.getPending database) fun migration => decide (migration.version ≤ targetVersion)
    exact planned_forward (fun _ inside => earlier.subset inside) (getPending_nodup.sublist (earlier.map _))
  | applyOne version =>
    refine planned_forward (fun migration inside => ?_) (found_single version _)
    obtain ⟨found, missing⟩ := List.mem_filter.mp inside
    obtain ⟨member, rfl⟩ := Rows.find_eq_some.mp (Option.mem_toList.mp found)
    refine mem_getPending.mpr ⟨member, fun recorded => ?_⟩
    rw [isApplied_iff.mpr recorded] at missing
    cases missing
  | rollbackLast =>
    cases last : (runner.getApplied database).getLast? with
    | none =>
      rw [Call.moves, last]
      exact planned_nil
    | some migration =>
      rw [Call.moves, last]
      have applied : ∀ other ∈ [migration], other ∈ runner.getApplied database := by
        intro other inside
        rw [List.mem_singleton.mp inside]
        exact List.mem_of_getLast? last
      exact planned_backward applied (List.nodup_singleton _)
  | rollbackTo targetVersion =>
    have later := List.takeWhile_sublist (l := (runner.getApplied database).reverse)
      fun migration => decide (targetVersion < migration.version)
    refine planned_backward (fun _ inside => List.mem_reverse.mp (later.subset inside)) ?_
    apply List.Nodup.sublist (later.map _)
    rw [List.map_reverse]
    exact List.nodup_reverse.mpr getApplied_nodup
  | rollbackOne version =>
    refine planned_backward (fun migration inside => ?_) (found_single version _)
    obtain ⟨found, recorded⟩ := List.mem_filter.mp inside
    obtain ⟨member, rfl⟩ := Rows.find_eq_some.mp (Option.mem_toList.mp found)
    exact mem_getApplied.mpr ⟨member, isApplied_iff.mp recorded⟩

theorem forM_forward (list : List (Migration ε)) :
    ((list.map forward).forM fun move => move.perform now) = list.forM (applyMigration now) := by
  induction list with
  | nil => rfl
  | cons migration list ih => exact congrArg (fun rest => applyMigration now migration >>= fun _ => rest) ih

theorem forM_backward (list : List (Migration ε)) :
    ((list.map backward).forM fun move => move.perform now) = list.forM rollbackMigration := by
  induction list with
  | nil => rfl
  | cons migration list ih => exact congrArg (fun rest => rollbackMigration migration >>= fun _ => rest) ih

theorem forM_single (body : Migration ε → Action ε PUnit) (migration : Migration ε) (session : Session ε) :
    ([migration].forM body).on session = (body migration).on session := by
  change (body migration >>= fun _ => (pure PUnit.unit : Action ε PUnit)).on session = _
  rw [Stateful.on_bind]
  rcases (body migration).on session with ⟨_ | _, after⟩ <;> rfl

omit [DecidableEq ε] in
theorem on_discard {α : Type} (action : Action ε α) (session : Session ε) :
    ((discard action : Action ε PUnit).on session).2 = (action.on session).2 := by
  have mapped : (discard action : Action ε PUnit) = Function.const α PUnit.unit <$> action := rfl
  rw [mapped, Stateful.on_map]

omit [DecidableEq ε] in
theorem never_ends {α : Type} (list : List α) : (list.takeWhile fun _ => !false) = list :=
  List.takeWhile_eq_self_iff.mpr fun _ _ => rfl

/-- A call leaves what its moves leave. -/
theorem Made.leaves_eq (made : Made) (runner : Runner ε) (database : Database ε) : made.leaves runner database =
    (((made.call.moves runner database).forM fun move => move.perform made.now).on ⟨database, made.stop⟩).2.database := by
  obtain ⟨call, now, stop⟩ := made
  unfold Made.leaves
  congr 1
  cases call with
  | applyAll =>
    change ((discard (applyAll runner now)).on _).2 = _
    rw [on_discard, applyAll, Stateful.on_bind, Stateful.on_get]
    dsimp only
    rw [each_on, never_ends, Call.moves, forM_forward]
  | applyUpTo targetVersion =>
    change ((discard (applyUpTo runner now targetVersion)).on _).2 = _
    have within : (fun migration : Migration ε => !decide (targetVersion < migration.version)) =
        fun migration => decide (migration.version ≤ targetVersion) := by
      funext migration
      rw [← decide_not]
      exact decide_eq_decide.mpr Int.not_lt
    rw [on_discard, applyUpTo, Stateful.on_bind, Stateful.on_get]
    dsimp only
    rw [each_on, within, Call.moves, forM_forward]
  | applyOne version =>
    change ((applyOne runner now version).on _).2 = _
    rw [applyOne, Call.moves, forM_forward]
    cases runner.find version with
    | none => rfl
    | some migration =>
      dsimp only
      rw [Stateful.on_bind, Stateful.on_get]
      dsimp only
      cases database.isApplied version with
      | true => rfl
      | false =>
        have one : ((some migration).toList.filter fun _ => !false) = [migration] := rfl
        rw [one, forM_single]
        rfl
  | rollbackLast =>
    change ((discard (rollbackLast runner)).on _).2 = _
    rw [on_discard, rollbackLast, Stateful.on_bind, Stateful.on_get, Call.moves, forM_backward]
    dsimp only
    cases (runner.getApplied database).getLast? with
    | none => rfl
    | some migration =>
      have one : (some migration).toList = [migration] := rfl
      rw [one, forM_single]
      dsimp only
      rw [Stateful.on_bind_pure]
  | rollbackTo targetVersion =>
    change ((discard (rollbackTo runner targetVersion)).on _).2 = _
    have above : (fun migration : Migration ε => !decide (migration.version ≤ targetVersion)) =
        fun migration => decide (targetVersion < migration.version) := by
      funext migration
      rw [← decide_not]
      exact decide_eq_decide.mpr Int.not_le
    rw [on_discard, rollbackTo, Stateful.on_bind, Stateful.on_get]
    dsimp only
    rw [each_on, above, Call.moves, forM_backward]
  | rollbackOne version =>
    change ((rollbackOne runner version).on _).2 = _
    rw [rollbackOne, Call.moves, forM_backward]
    cases runner.find version with
    | none => rfl
    | some migration =>
      dsimp only
      rw [Stateful.on_bind, Stateful.on_get]
      dsimp only
      cases database.isApplied version with
      | false => rfl
      | true =>
        have one : ((some migration).toList.filter fun _ => true) = [migration] := rfl
        rw [one, forM_single]
        rfl

end Plans

section Runs

variable {runner : Runner ε} {database start : Database ε}

/-- A call that does not stop within a migration. -/
def Made.Clean (made : Made) (runner : Runner ε) (database : Database ε) : Prop :=
  Migrations.Clean (made.call.moves runner database) made.stop

/-- Every registered migration is recorded and in effect. -/
def Complete (runner : Runner ε) (database : Database ε) : Prop :=
  ∀ migration ∈ runner.list, database.Recorded migration.version ∧ migration.InEffect database.schema

theorem leaves_consistent_iff (separate : Separate runner) (consistent : Consistent runner database) (made : Made) :
    Consistent runner (made.leaves runner database) ↔ made.Clean runner database := by
  rw [made.leaves_eq]
  exact moves_consistent_iff separate consistent made.call.planned made.stop

theorem applyAll_completes (separate : Separate runner) (consistent : Consistent runner database) (now : Int → String) :
    ∃ versions final, (applyAll runner now).on ⟨database, none⟩ = (.ok versions, ⟨final, none⟩) ∧ Complete runner final := by
  obtain ⟨final, finished, consistent', recorded, kept⟩ :=
    moves_done now separate consistent (Call.planned .applyAll)
  rw [Call.moves, forM_forward] at finished
  refine ⟨(runner.getPending database).map Migration.version, final, ?_, fun migration member => ?_⟩
  · rw [applyAll, Stateful.on_bind, Stateful.on_get]
    dsimp only
    rw [each_on, never_ends, finished]
    rfl
  · have listed : final.Recorded migration.version := by
      by_cases before : database.Recorded migration.version
      · rw [kept migration.version]
        · exact before
        · intro move inside same
          obtain ⟨pending, waits, rfl⟩ := List.mem_map.mp inside
          exact (mem_getPending.mp waits).2 (same ▸ before)
      · exact (recorded (forward migration) (List.mem_map_of_mem (mem_getPending.mpr ⟨member, before⟩))).mpr rfl
    exact ⟨listed, (consistent' migration member).1 listed⟩

theorem after_succ {calls : List Made} {n : Nat} {made : Made} (next : calls[n]? = some made) :
    after runner start (calls.take (n + 1)) = made.leaves runner (after runner start (calls.take n)) := by
  rw [after, List.take_add_one, next, List.foldl_append]
  rfl

/-- The records tell what is in effect after every call, and the migrations can be
completed, exactly in the runs in which no call stops within a migration. -/
theorem migrations_resume_iff (runner : Runner ε) (separate : Separate runner) (start : Database ε)
    (consistent : Consistent runner start) (calls : List Made) :
    ((∀ n, Consistent runner (after runner start (calls.take n))) ∧
      ∀ now, ∃ versions final, (applyAll runner now).on ⟨after runner start calls, none⟩ = (.ok versions, ⟨final, none⟩) ∧
        Complete runner final) ↔
    ∀ (n : Nat) (made : Made), calls[n]? = some made → made.Clean runner (after runner start (calls.take n)) := by
  constructor
  · intro ⟨throughout, _⟩ n made next
    have behind := throughout (n + 1)
    rw [after_succ next] at behind
    exact (leaves_consistent_iff separate (throughout n) made).mp behind
  · intro clean
    have throughout : ∀ n, Consistent runner (after runner start (calls.take n)) := by
      intro n
      induction n with
      | zero => exact consistent
      | succ n ih =>
        cases next : calls[n]? with
        | none =>
          have short : calls.length ≤ n := List.getElem?_eq_none_iff.mp next
          rw [List.take_of_length_le (Nat.le_succ_of_le short), ← List.take_of_length_le short]
          exact ih
        | some made =>
          rw [after_succ next]
          exact (leaves_consistent_iff separate ih made).mpr (clean n made next)
    have last := throughout calls.length
    rw [List.take_length] at last
    exact ⟨throughout, applyAll_completes separate last⟩

end Runs

section Example

def security : Migration (String × TableSecurity) := addRowLevelSecurity ""

def securityRunner : Runner (String × TableSecurity) := ⟨[security], List.nodup_singleton _⟩

def fresh : Database (String × TableSecurity) := ⟨∅, ⟨[], List.nodup_nil⟩⟩

/-- The first call is cut off behind the statements for the first table. -/
def cutOff : Made := ⟨.applyAll, fun _ => "2026-01-01T00:00:00+00:00", some 3⟩

def undisturbed : Made := ⟨.applyAll, fun _ => "2026-01-01T00:00:00+00:00", none⟩

theorem securityRunner_separate : Separate securityRunner := by
  intro first here second there different
  rw [List.mem_singleton.mp here, List.mem_singleton.mp there] at different
  exact absurd rfl different

theorem fresh_consistent (runner : Runner (String × TableSecurity)) : Consistent runner fresh :=
  fun _ _ => ⟨nofun, fun _ _ _ => Iff.rfl⟩

theorem migrations_resume_iff_security : Consistent securityRunner (after securityRunner fresh [undisturbed]) ∧
    ∃ versions final, (applyAll securityRunner undisturbed.now).on ⟨after securityRunner fresh [undisturbed], none⟩ =
      (.ok versions, ⟨final, none⟩) ∧ Complete securityRunner final := by
  have clean : ∀ (n : Nat) (made : Made), [undisturbed][n]? = some made →
      made.Clean securityRunner (after securityRunner fresh ([undisturbed].take n)) := by
    intro n made next
    have itself : made = undisturbed := List.mem_singleton.mp (List.mem_of_getElem? next)
    rw [itself, Made.Clean, undisturbed, Clean]
    trivial
  obtain ⟨throughout, completed⟩ := (migrations_resume_iff securityRunner securityRunner_separate fresh
    (fresh_consistent securityRunner) [undisturbed]).mpr clean
  exact ⟨throughout 1, completed undisturbed.now⟩

theorem security_pending (schema : Finset (String × TableSecurity)) : securityRunner.getPending ⟨schema, fresh.records⟩ = [security] := by
  have versions : securityRunner.allVersions = [13] := List.mergeSort_singleton _
  have none : Database.getAppliedVersions ⟨schema, fresh.records⟩ = [] := List.mergeSort_nil
  rw [Runner.getPending, versions, none]
  rfl

/-- The first table is protected, and no other one. -/
def firstTable : Finset (String × TableSecurity) :=
  {("scoped_objects", .policy "scoped_owner_isolation"), ("scoped_objects", .forced), ("scoped_objects", .enabled)}

theorem cutOff_leaves : cutOff.leaves securityRunner fresh = ⟨firstTable, fresh.records⟩ := by
  have stopped : (security.up.forM execute).on ⟨fresh, some 3⟩ = (.error .stopped, ⟨⟨firstTable, fresh.records⟩, some 0⟩) :=
    script_stopped rfl (by decide)
  have moves : cutOff.call.moves securityRunner fresh = [security].map forward := by
    rw [cutOff, Call.moves]
    exact congrArg _ (security_pending ∅)
  have applied : (applyMigration cutOff.now security).on ⟨fresh, some 3⟩ =
      (.error (.applying 13 "row_level_security" .stopped), ⟨⟨firstTable, fresh.records⟩, some 0⟩) := by
    rw [applyMigration, Stateful.on_bind, Stateful.on_tryCatch, stopped]
    rfl
  rw [Made.leaves_eq, moves, forM_forward, forM_single]
  exact congrArg (fun ran => ran.2.database) applied

theorem policies_not_recorded : ¬ ∀ (runner : Runner (String × TableSecurity)), Separate runner →
    ∀ start, Consistent runner start → ∀ calls : List Made,
      (∀ n, Consistent runner (after runner start (calls.take n))) ∧
        ∀ now, ∃ versions final, (applyAll runner now).on ⟨after runner start calls, none⟩ = (.ok versions, ⟨final, none⟩) ∧
          Complete runner final := by
  intro always
  have behind : Consistent securityRunner (cutOff.leaves securityRunner fresh) :=
    (always securityRunner securityRunner_separate fresh (fresh_consistent securityRunner) [cutOff]).1 1
  have absent := (behind security (List.mem_singleton_self _)).2
  rw [cutOff_leaves] at absent
  have enabled : ("scoped_objects", TableSecurity.enabled) ∈ security.objects :=
    Finset.mem_union_left _ (List.mem_toFinset.mpr (List.mem_map.mpr ⟨.ensure ("scoped_objects", .enabled), List.mem_cons_self, rfl⟩))
  have there := (absent nofun _ enabled).mp (by simp [firstTable])
  exact absurd there (Finset.notMem_empty _)

end Example

end PyScoped.Legacy.Migrations
