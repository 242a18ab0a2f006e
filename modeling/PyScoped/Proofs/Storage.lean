import PyScoped.Legacy.Storage

/-! What a transaction block promises, and which programs of blocks each backend
keeps the promise for. -/

namespace PyScoped.Legacy.Storage

namespace Block

def committing (block : Block) : Bool := block.ending == .commits || block.ending == .commitsAndRaises

/-- What is in effect after the block. -/
def after (block : Block) (log : List Statement) : List Statement :=
  if block.committing then log ++ block.statements else log

def exit (block : Block) : Exit :=
  match block.ending with
  | .commits | .leaves => .normal
  | _ => .raised

end Block

/-- After each block what it committed is in effect, the block's own exception
leaves it, the next block can start, and a pooled connection went back once. -/
def promised (pooled : Bool) (log : List Statement) : List Block → List Seen
  | [] => []
  | block :: blocks =>
    ⟨block.exit, block.after log, true, if pooled then 1 else 0⟩ :: promised pooled (block.after log) blocks

private theorem observe_cons {backend : Backend} {state next : backend.State} {block : Block} {blocks : List Block}
    {log : List Statement} {exit : Exit} (ran : backend.runBlock block state = (exit, next)) :
    backend.observe state (block :: blocks) = promised backend.pooled log (block :: blocks) ↔
      (exit = block.exit ∧ backend.view next = block.after log ∧ backend.ready next = true ∧
        backend.returned next = if backend.pooled then 1 else 0) ∧
      backend.observe next blocks = promised backend.pooled (block.after log) blocks := by
  simp only [Backend.observe, ran, promised, List.cons.injEq, Seen.mk.injEq]

namespace Sqlite

private theorem each_execute (statements : List Statement) (committed work : List Statement) :
    Call.each sqliteBackend.execute statements (⟨committed, some work⟩ : Connection) =
      (none, (⟨committed, some (work ++ statements)⟩ : Connection)) := by
  induction statements generalizing work with
  | nil => rw [List.append_nil]; rfl
  | cons statement statements ih =>
    simp only [Call.each, Call.andThen, sqliteBackend, Connection.executeSqlite, Option.isSome_some, Bool.true_or, if_true,
      Connection.executeOpening, Connection.view, Option.getD_some]
    exact (ih (work ++ [statement])).trans (by rw [List.append_assoc, List.singleton_append])

private theorem runBlock_eq (block : Block) (log : List Statement) :
    sqliteBackend.runBlock block (⟨log, none⟩ : Connection) = (block.exit,
      if block.ending = .leaves then (⟨log, some (log ++ block.statements)⟩ : Connection)
      else (⟨block.after log, none⟩ : Connection)) := by
  have body := each_execute block.statements log log
  unfold Backend.runBlock Backend.body
  simp only [sqliteBackend] at body ⊢
  simp only [Option.isSome_none, Bool.false_eq_true, if_false, body]
  obtain ⟨statements, ending⟩ := block
  cases ending <;> rfl

theorem observe_iff (program : List Block) (log : List Statement) :
    sqliteBackend.observe (⟨log, none⟩ : Connection) program = promised false log program ↔
      ∀ block ∈ program, block.ending ≠ .leaves := by
  induction program generalizing log with
  | nil => simp [Backend.observe, promised]
  | cons block program ih =>
    refine (observe_cons (runBlock_eq block log)).trans ?_
    rw [List.forall_mem_cons]
    by_cases leaves : block.ending = .leaves
    · simp only [leaves, if_true, sqliteBackend, Option.isSome_some, Bool.not_true, Bool.false_eq_true, false_and, and_false,
        ne_eq, not_true]
    · rw [if_neg leaves]
      exact and_congr ⟨fun _ => leaves, fun _ => ⟨rfl, rfl, rfl, rfl⟩⟩ (ih (block.after log))

end Sqlite

namespace Postgres

/-- A pool none of whose connections is in a transaction, after a block that returned its own. -/
private def idle (log : List Statement) (autocommit : Bool) (spare returned : Nat) : Pool :=
  ⟨⟨log, none⟩, autocommit, false, spare + 1, returned⟩

private theorem each_execute (statements : List Statement) (committed work : List Statement) (spare returned : Nat) :
    Call.each execute statements (⟨⟨committed, some work⟩, false, true, spare, returned⟩ : Pool) =
      (none, ⟨⟨committed, some (work ++ statements)⟩, false, true, spare, returned⟩) := by
  induction statements generalizing work with
  | nil => rw [List.append_nil]; rfl
  | cons statement statements ih =>
    exact (ih (work ++ [statement])).trans (by rw [List.append_assoc, List.singleton_append])

private theorem transaction_eq (enableRls : Bool) (log : List Statement) (autocommit : Bool) (spare returned : Nat) :
    transaction enableRls (idle log autocommit spare returned) =
      (none, ⟨⟨log, some log⟩, false, true, spare, 0⟩) := by
  cases enableRls <;> rfl

private theorem body_eq (enableRls : Bool) (block : Block) (log : List Statement) (spare : Nat) :
    (postgresBackend enableRls).body block (⟨⟨log, some log⟩, false, true, spare, 0⟩ : Pool) =
      (postgresBackend enableRls).finish
        (⟨⟨log, some (log ++ block.statements)⟩, false, true, spare, 0⟩ : Pool) block.ending := by
  unfold Backend.body
  rw [show Call.each (postgresBackend enableRls).execute block.statements
    (⟨⟨log, some log⟩, false, true, spare, 0⟩ : Pool) = _ from each_execute block.statements log log spare 0]

private theorem runBlock_kept (block : Block) (kept : block.ending = .commits ∨ block.ending = .raises ∨ block.ending = .fails)
    (log : List Statement) (autocommit : Bool) (spare returned : Nat) :
    (postgresBackend false).runBlock block (idle log autocommit spare returned) =
      (block.exit, idle (block.after log) true spare 1) := by
  unfold Backend.runBlock
  rw [show (postgresBackend false).transaction (idle log autocommit spare returned) = _ from
    transaction_eq false log autocommit spare returned]
  simp only [body_eq]
  obtain ⟨statements, ending⟩ := block
  obtain rfl | rfl | rfl := kept <;> rfl

/-- With row-level security, or where a block ends otherwise, the connection does
not go back to the pool exactly once. -/
private theorem returned_otherwise (enableRls : Bool) (block : Block) (log : List Statement) (autocommit : Bool)
    (spare returned : Nat)
    (otherwise : enableRls = true ∨ ¬ (block.ending = .commits ∨ block.ending = .raises ∨ block.ending = .fails)) :
    ((postgresBackend enableRls).runBlock block (idle log autocommit spare returned)).2.returned ≠ 1 := by
  unfold Backend.runBlock
  rw [show (postgresBackend enableRls).transaction (idle log autocommit spare returned) = _ from
    transaction_eq enableRls log autocommit spare returned]
  simp only [body_eq]
  obtain ⟨statements, ending⟩ := block
  cases enableRls <;> cases ending <;> simp at otherwise <;> exact nofun

/-- `PostgresBackend` keeps the promise without row-level security for blocks that
commit and leave, or raise before they commit or roll back. -/
theorem observe_iff (enableRls : Bool) (program : List Block) (log : List Statement) (autocommit : Bool)
    (spare returned : Nat) :
    (postgresBackend enableRls).observe (idle log autocommit spare returned) program = promised true log program ↔
      ∀ block ∈ program, enableRls = false ∧
        (block.ending = .commits ∨ block.ending = .raises ∨ block.ending = .fails) := by
  induction program generalizing log autocommit returned with
  | nil => simp [Backend.observe, promised]
  | cons block program ih =>
    rw [List.forall_mem_cons]
    by_cases kept : enableRls = false ∧ (block.ending = .commits ∨ block.ending = .raises ∨ block.ending = .fails)
    · obtain ⟨rfl, ends⟩ := kept
      refine (observe_cons (runBlock_kept block ends log autocommit spare returned)).trans ?_
      exact and_congr ⟨fun _ => ⟨rfl, ends⟩, fun _ => ⟨rfl, rfl, rfl, rfl⟩⟩ (ih (block.after log) true 1)
    · have otherwise := returned_otherwise enableRls block log autocommit spare returned (by
        cases enableRls <;> simp_all)
      refine (@observe_cons (postgresBackend enableRls) _ _ _ _ log _ rfl).trans ?_
      exact ⟨fun held => absurd held.1.2.2.2 otherwise, fun held => absurd held.1 kept⟩

end Postgres

namespace Sqlalchemy

/-- The statements run on a connection one after the other. -/
private def runAll (run : Connection → Statement → Connection) (statements : List Statement)
    (connection : Connection) : Connection :=
  statements.foldl run connection

/-- What the driver commits of a list of statements before it opens a transaction:
`early`, and nothing of what comes after. -/
private def Opens (run : Connection → Statement → Connection) (early : List Statement → List Statement) : Prop :=
  ∀ statements committed, (runAll run statements ⟨committed, none⟩).committed = committed ++ early statements ∧
    (runAll run statements ⟨committed, none⟩).view = committed ++ statements

private theorem executeOpening_all (run : Connection → Statement → Connection)
    (opening : ∀ committed work statement, run ⟨committed, some work⟩ statement = ⟨committed, some (work ++ [statement])⟩)
    (statements committed work : List Statement) :
    runAll run statements ⟨committed, some work⟩ = ⟨committed, some (work ++ statements)⟩ := by
  induction statements generalizing work with
  | nil => rw [List.append_nil]; rfl
  | cons statement statements ih =>
    have first := opening committed work statement
    have rest := ih (work ++ [statement])
    simp only [runAll, List.foldl_cons, first] at rest ⊢
    rw [rest, List.append_assoc, List.singleton_append]

theorem postgres_opens : Opens Connection.executeOpening fun _ => [] := by
  intro statements committed
  cases statements with
  | nil => simp [runAll, Connection.view]
  | cons statement statements =>
    have rest := executeOpening_all Connection.executeOpening (fun _ _ _ => rfl) statements committed
      (committed ++ [statement])
    change (runAll Connection.executeOpening statements ⟨committed, some (committed ++ [statement])⟩).committed = _ ∧
      (runAll Connection.executeOpening statements ⟨committed, some (committed ++ [statement])⟩).view = _
    simp [rest, Connection.view]

theorem sqlite_opens : Opens Connection.executeSqlite (List.takeWhile fun statement => !statement.modifies) := by
  intro statements
  induction statements with
  | nil => simp [runAll, Connection.view]
  | cons statement statements ih =>
    intro committed
    cases modifies : statement.modifies with
    | true =>
      have rest := executeOpening_all Connection.executeSqlite (fun _ _ _ => rfl) statements committed
        (committed ++ [statement])
      have first : Connection.executeSqlite ⟨committed, none⟩ statement = ⟨committed, some (committed ++ [statement])⟩ := by
        simp [Connection.executeSqlite, modifies, Connection.executeOpening, Connection.view]
      simp only [runAll, List.foldl_cons, first] at rest ⊢
      simp [rest, Connection.view, modifies]
    | false =>
      have first : Connection.executeSqlite ⟨committed, none⟩ statement = ⟨committed ++ [statement], none⟩ := by
        simp [Connection.executeSqlite, modifies]
      obtain ⟨before, view⟩ := ih (committed ++ [statement])
      simp only [runAll, List.foldl_cons, first] at before view ⊢
      simp [before, view, modifies]

/-- A pool whose connections are all in it. -/
private def idle (log : List Statement) (autocommit : Bool) (spare returned : Nat) : Pool :=
  ⟨⟨log, none⟩, autocommit, false, spare + 1, returned⟩

private theorem each_execute (run : Connection → Statement → Connection) (statements : List Statement)
    (connection : Connection) (spare : Nat) :
    Call.each (backend run).execute statements (⟨connection, true, true, spare, 0⟩ : Pool) =
      (none, (⟨runAll run statements connection, true, true, spare, 0⟩ : Pool)) := by
  induction statements generalizing connection with
  | nil => rfl
  | cons statement statements ih => exact ih (run connection statement)

private theorem runBlock_eq {run : Connection → Statement → Connection} {early : List Statement → List Statement}
    (opens : Opens run early) (block : Block) (log : List Statement) (autocommit : Bool) (spare returned : Nat) :
    (backend run).runBlock block (idle log autocommit spare returned) = (block.exit,
      idle (if block.committing then log ++ block.statements else log ++ early block.statements) true spare 1) := by
  obtain ⟨before, view⟩ := opens block.statements log
  unfold Backend.runBlock Backend.body
  rw [show (backend run).transaction (idle log autocommit spare returned) =
    (none, (⟨⟨log, none⟩, true, true, spare, 0⟩ : Pool)) from rfl]
  simp only [each_execute run block.statements ⟨log, none⟩ spare]
  rw [← before, ← view]
  obtain ⟨statements, ending⟩ := block
  cases ending <;> rfl

/-- The backends of SQLAlchemy keep the promise unless a block that does not commit
has statements that its driver runs before it opens a transaction. -/
theorem observe_iff {run : Connection → Statement → Connection} {early : List Statement → List Statement}
    (opens : Opens run early) (program : List Block) (log : List Statement) (autocommit : Bool) (spare returned : Nat) :
    (backend run).observe (idle log autocommit spare returned) program = promised true log program ↔
      ∀ block ∈ program, block.committing = true ∨ early block.statements = [] := by
  induction program generalizing log autocommit returned with
  | nil => simp [Backend.observe, promised]
  | cons block program ih =>
    refine (observe_cons (runBlock_eq opens block log autocommit spare returned)).trans ?_
    rw [List.forall_mem_cons]
    have view : (if block.committing then log ++ block.statements else log ++ early block.statements) = block.after log ↔
        block.committing = true ∨ early block.statements = [] := by
      unfold Block.after
      cases block.committing <;> simp
    by_cases kept : block.committing = true ∨ early block.statements = []
    · rw [view.mpr kept]
      exact and_congr ⟨fun _ => kept, fun _ => ⟨rfl, rfl, rfl, rfl⟩⟩ (ih (block.after log) true 1)
    · exact ⟨fun held => absurd (view.mp held.1.2.1) kept, fun held => absurd held.1 kept⟩

end Sqlalchemy

namespace Django

/-- `since` is what is in effect since the last savepoint that a block has left.
Such a savepoint is what the second of two rollbacks goes back to; without one it
is an error. -/
def Intact (aborts : Bool) : Option (List Statement) → List Block → Prop
  | _, [] => True
  | since, block :: blocks =>
    match block.ending with
    | .commits => Intact aborts (since.map (· ++ block.statements)) blocks
    | .rollsBackAndRaises | .raises | .fails => Intact aborts (some []) blocks
    | .leaves => block.statements = [] ∧ Intact aborts (some []) blocks
    | .commitsAndRaises =>
      match since with
      | none => aborts = false ∧ Intact aborts none blocks
      | some statements => statements ++ block.statements = [] ∧ Intact aborts (some []) blocks

/-- What `since` says of the savepoints. -/
private def Since (atomic : Atomic) : Option (List Statement) → Prop
  | none => atomic.savepoints = []
  | some statements => ∃ work savepoints, atomic.savepoints = work :: savepoints ∧ atomic.work = work ++ statements

private theorem each_execute (aborts : Bool) (statements work : List Statement) (savepoints : List (List Statement)) :
    Call.each (djangoBackend aborts).execute statements (⟨work, savepoints, false⟩ : Atomic) =
      (none, (⟨work ++ statements, savepoints, false⟩ : Atomic)) := by
  induction statements generalizing work with
  | nil => rw [List.append_nil]; rfl
  | cons statement statements ih =>
    exact (ih (work ++ [statement])).trans (by rw [List.append_assoc, List.singleton_append])

/-- The outcome of a block, by its ending. -/
private def left (aborts : Bool) (block : Block) (work : List Statement) (savepoints : List (List Statement)) : Atomic :=
  match block.ending with
  | .commits => ⟨work ++ block.statements, savepoints, false⟩
  | .rollsBackAndRaises | .raises | .fails => ⟨work, work :: savepoints, false⟩
  | .leaves => ⟨work ++ block.statements, work :: savepoints, false⟩
  | .commitsAndRaises =>
    match savepoints with
    | [] => ⟨work ++ block.statements, [], aborts⟩
    | last :: _ => ⟨last, savepoints, false⟩

private theorem runBlock_eq (aborts : Bool) (block : Block) (work : List Statement) (savepoints : List (List Statement)) :
    (djangoBackend aborts).runBlock block (⟨work, savepoints, false⟩ : Atomic) =
      (block.exit, left aborts block work savepoints) := by
  unfold Backend.runBlock Backend.body
  rw [show (djangoBackend aborts).transaction (⟨work, savepoints, false⟩ : Atomic) =
    (none, (⟨work, work :: savepoints, false⟩ : Atomic)) from rfl]
  simp only [each_execute]
  obtain ⟨statements, ending⟩ := block
  cases ending with
  | commitsAndRaises => cases savepoints <;> rfl
  | commits | rollsBackAndRaises | raises | fails | leaves => rfl

/-- `DjangoORMBackend` keeps the promise for the programs that are intact. -/
theorem observe_iff (aborts : Bool) (program : List Block) (work : List Statement) (savepoints : List (List Statement))
    (since : Option (List Statement)) (saved : Since ⟨work, savepoints, false⟩ since) :
    (djangoBackend aborts).observe (⟨work, savepoints, false⟩ : Atomic) program = promised false work program ↔
      Intact aborts since program := by
  induction program generalizing work savepoints since with
  | nil => simp [Backend.observe, promised, Intact]
  | cons block program ih =>
    refine (observe_cons (runBlock_eq aborts block work savepoints)).trans ?_
    obtain ⟨statements, ending⟩ := block
    have fresh : Since ⟨work, work :: savepoints, false⟩ (some []) := ⟨work, savepoints, rfl, (List.append_nil work).symm⟩
    cases ending with
    | commits =>
      refine (and_iff_right ⟨rfl, rfl, rfl, rfl⟩).trans (ih (work ++ statements) savepoints _ ?_)
      cases since with
      | none => exact saved
      | some done =>
        obtain ⟨last, others, same, grown⟩ := saved
        exact ⟨last, others, same, by rw [← List.append_assoc]; exact congrArg (· ++ statements) grown⟩
    | rollsBackAndRaises | raises | fails =>
      exact (and_iff_right ⟨rfl, rfl, rfl, rfl⟩).trans (ih work (work :: savepoints) (some []) fresh)
    | leaves =>
      by_cases empty : statements = []
      · subst empty
        have same : left aborts ⟨[], .leaves⟩ work savepoints = ⟨work, work :: savepoints, false⟩ := by
          simp [left]
        rw [same]
        exact and_congr ⟨fun _ => rfl, fun _ => ⟨rfl, rfl, rfl, rfl⟩⟩ (ih work (work :: savepoints) (some []) fresh)
      · refine ⟨fun held => absurd held.1.2.1 ?_, fun held => absurd held.1 empty⟩
        exact fun same => empty (List.append_right_eq_self.mp same)
    | commitsAndRaises =>
      cases since with
      | none =>
        obtain rfl : savepoints = [] := saved
        cases aborts with
        | true => exact ⟨fun held => absurd held.1.2.2.1 (by simp [left, djangoBackend]), fun held => by cases held.1⟩
        | false =>
          exact (and_congr ⟨fun _ => rfl, fun _ => ⟨rfl, rfl, rfl, rfl⟩⟩ (ih (work ++ statements) [] none rfl))
      | some done =>
        obtain ⟨last, others, rfl, grown⟩ := saved
        change work = last ++ done at grown
        by_cases empty : done ++ statements = []
        · obtain ⟨rfl, rfl⟩ := List.append_eq_nil_iff.mp empty
          rw [List.append_nil] at grown
          subst grown
          refine and_congr ⟨fun _ => rfl, fun _ => ⟨rfl, (List.append_nil work).symm, rfl, rfl⟩⟩ ?_
          rw [show (⟨[], .commitsAndRaises⟩ : Block).after work = work from List.append_nil work]
          exact ih work (work :: others) (some []) ⟨work, others, rfl, (List.append_nil work).symm⟩
        · refine ⟨fun held => absurd held.1.2.1 ?_, fun held => absurd held.1 empty⟩
          intro same
          change last = work ++ statements at same
          rw [grown, List.append_assoc] at same
          exact empty (List.append_right_eq_self.mp same.symm)

end Django

/-- The programs each backend keeps the promise for. -/
def Kind.Honours : Kind → List Block → Prop
  | .sqlite, program => ∀ block ∈ program, block.ending ≠ .leaves
  | .postgres enableRls, program => ∀ block ∈ program, enableRls = false ∧
      (block.ending = .commits ∨ block.ending = .raises ∨ block.ending = .fails)
  | .saSqlite, program => ∀ block ∈ program, block.committing = true ∨
      block.statements.takeWhile (fun statement => !statement.modifies) = []
  | .saPostgres, _ => True
  | .django aborts, program => Django.Intact aborts none program

/-- A program of blocks means on a backend what a transaction block promises
exactly if it is one that the backend honours. -/
theorem observe_promised_iff (kind : Kind) (committed : List Statement) (spare : Nat) (program : List Block) :
    kind.backend.observe (kind.idle committed spare) program = promised kind.backend.pooled committed program ↔
      kind.Honours program := by
  cases kind with
  | sqlite => exact Sqlite.observe_iff program committed
  | postgres enableRls => exact Postgres.observe_iff enableRls program committed true spare 0
  | saSqlite => exact Sqlalchemy.observe_iff Sqlalchemy.sqlite_opens program committed true spare 0
  | saPostgres =>
    refine (Sqlalchemy.observe_iff Sqlalchemy.postgres_opens program committed true spare 0).trans ?_
    exact ⟨fun _ => trivial, fun _ block _ => .inr rfl⟩
  | django aborts => exact Django.observe_iff aborts program committed [] none rfl

/-- A block that rolls back and raises, as a creation over its quota does, hands
its connection to the pool twice. -/
theorem quota_breach_returns_twice : ¬ ∀ kind : Kind, ∀ committed spare program,
    kind.backend.observe (kind.idle committed spare) program = promised kind.backend.pooled committed program := by
  intro always
  have seen := always (.postgres false) [] 0 [⟨[⟨"INSERT INTO scoped_objects ...", true⟩], .rollsBackAndRaises⟩]
  have returned := congrArg (List.map Seen.returned) seen
  exact absurd returned (by decide)

end PyScoped.Legacy.Storage
