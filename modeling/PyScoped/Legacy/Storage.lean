import Mathlib.Data.List.Basic

/-! The transactions of the five storage backends of version 1, with what their
drivers document of connections, savepoints and pools. The state of a database
is the list of the statements in effect. -/

namespace PyScoped.Legacy.Storage

/-- A statement that has an effect. It modifies if it inserts, updates, deletes or replaces. -/
structure Statement where
  text : String
  modifies : Bool
  deriving DecidableEq, Repr

inductive Fault where
  | operational (message : String)
  | programming (message : String)
  | pool (message : String)
  deriving DecidableEq, Repr

/-- A call: what it raises, if it does, and the state it leaves. -/
abbrev Call (σ : Type) := σ → Option Fault × σ

namespace Call

variable {σ : Type}

def andThen (first second : Call σ) : Call σ := fun state =>
  match first state with
  | (none, state) => second state
  | failed => failed

/-- `try: ... finally: ...` -/
def ensuring (body last : Call σ) : Call σ := fun state =>
  match body state with
  | (raised, state) => match last state with
    | (none, state) => (raised, state)
    | failed => failed

/-- `try: ... except Exception: pass` -/
def swallow (body : Call σ) : Call σ := fun state => (none, (body state).2)

def each (call : Statement → Call σ) : List Statement → Call σ
  | [] => fun state => (none, state)
  | statement :: statements => (call statement).andThen (each call statements)

end Call

/-- A backend and its transactions. -/
structure Backend where
  State : Type
  pooled : Bool
  transaction : Call State
  execute : Statement → Call State
  /-- What a statement that fails leaves. -/
  failing : State → State
  commit : Call State
  rollback : Call State
  exit : Bool → Call State
  /-- The statements in effect for the next statement of the backend. -/
  view : State → List Statement
  /-- Whether the next block can start. -/
  ready : State → Bool
  /-- How often the connection of the last block went back to the pool. -/
  returned : State → Nat

/-- How a block ends after its statements. -/
inductive Ending where
  | commits
  | rollsBackAndRaises
  | raises
  | fails
  | commitsAndRaises
  | leaves
  deriving DecidableEq, Repr

structure Block where
  statements : List Statement
  ending : Ending
  deriving DecidableEq, Repr

inductive Exit where
  | normal
  | raised
  | fault (fault : Fault)
  deriving DecidableEq, Repr

namespace Backend

variable (backend : Backend)

def exitAs (exit : Exit) : Option Fault × backend.State → Exit × backend.State
  | (none, state) => (exit, state)
  | (some fault, state) => (.fault fault, state)

def finish (state : backend.State) : Ending → Exit × backend.State
  | .commits => backend.exitAs .normal (backend.commit state)
  | .rollsBackAndRaises => backend.exitAs .raised (backend.rollback state)
  | .raises => (.raised, state)
  | .fails => (.raised, backend.failing state)
  | .commitsAndRaises => backend.exitAs .raised (backend.commit state)
  | .leaves => (.normal, state)

/-- What happens inside a block. -/
def body (block : Block) (state : backend.State) : Exit × backend.State :=
  match Call.each backend.execute block.statements state with
  | (some fault, state) => (.fault fault, state)
  | (none, state) => backend.finish state block.ending

/-- `with backend.transaction() as txn: ...` -/
def runBlock (block : Block) (state : backend.State) : Exit × backend.State :=
  match backend.transaction state with
  | (some fault, state) => (.fault fault, state)
  | (none, state) => match backend.body block state with
    | (.normal, state) => backend.exitAs .normal (backend.exit false state)
    | (exit, state) => backend.exitAs exit (backend.exit true state)

end Backend

/-- What can be seen of a block after it. -/
structure Seen where
  exit : Exit
  view : List Statement
  ready : Bool
  returned : Nat
  deriving DecidableEq, Repr

def Backend.observe (backend : Backend) (state : backend.State) : List Block → List Seen
  | [] => []
  | block :: blocks =>
    let (exit, state) := backend.runBlock block state
    ⟨exit, backend.view state, backend.ready state, backend.returned state⟩ :: backend.observe state blocks

/-- A connection: what is committed, and what is in effect in its open transaction. -/
structure Connection where
  committed : List Statement
  work : Option (List Statement)

namespace Connection

variable (connection : Connection)

def view : List Statement := connection.work.getD connection.committed

/-- A statement for which the driver opens a transaction if none is open. -/
def executeOpening (statement : Statement) : Connection :=
  { connection with work := some (connection.view ++ [statement]) }

/-- `sqlite3` opens a transaction only before a statement that modifies. -/
def executeSqlite (statement : Statement) : Connection :=
  if connection.work.isSome || statement.modifies then connection.executeOpening statement
  else { connection with committed := connection.committed ++ [statement] }

def commit : Connection := ⟨connection.view, none⟩

def rollback : Connection := ⟨connection.committed, none⟩

end Connection

/-- The default `__exit__`. -/
def exitRollingBack {σ : Type} (rollback : Call σ) (raised : Bool) : Call σ := fun state =>
  if raised then rollback state else (none, state)

/-- `SQLiteBackend`: one connection for all. -/
def sqliteBackend : Backend where
  State := Connection
  pooled := false
  transaction connection :=
    if connection.work.isSome then (some (.operational "cannot start a transaction within a transaction"), connection)
    else (none, { connection with work := some connection.committed })
  execute statement connection := (none, connection.executeSqlite statement)
  failing connection := connection
  commit connection := (none, connection.commit)
  rollback connection := (none, connection.rollback)
  exit := exitRollingBack fun connection => (none, connection.rollback)
  view := Connection.view
  ready connection := !connection.work.isSome
  returned _ := 0

/-- A pool, and the connection that the last block took from it. -/
structure Pool where
  connection : Connection
  autocommit : Bool
  held : Bool
  available : Nat
  returned : Nat

namespace Pool

/-- Takes a connection, which sees what is committed. -/
def take : Call Pool := fun pool =>
  if pool.available = 0 then (some (.pool "couldn't get a connection"), pool)
  else (none, ⟨⟨pool.connection.committed, none⟩, true, true, pool.available - 1, 0⟩)

/-- Returning a connection that the pool holds is an error. -/
def putconn : Call Pool := fun pool =>
  if pool.held then (none, { pool with held := false, available := pool.available + 1, returned := pool.returned + 1 })
  else (some (.pool "can't return connection to pool"), { pool with returned := pool.returned + 1 })

def withConnection (change : Connection → Connection) : Call Pool := fun pool =>
  (none, { pool with connection := change pool.connection })

end Pool

/-! `PostgresBackend` and its `_PoolReturningTransaction`, with row-level security or without. -/

namespace Postgres

/-- `conn.autocommit = ...`, which is refused inside a transaction. -/
def setAutocommit (autocommit : Bool) : Call Pool := fun pool =>
  if pool.connection.work.isSome then (some (.programming "can't change 'autocommit' now"), pool)
  else (none, { pool with autocommit })

/-- A statement opens a transaction unless the connection commits by itself. -/
def opened (pool : Pool) : Connection :=
  if pool.autocommit then pool.connection else { pool.connection with work := some pool.connection.view }

/-- `SET` and `RESET` change no data. -/
def setting (enableRls : Bool) : Call Pool := fun pool =>
  (none, if enableRls then { pool with connection := opened pool } else pool)

def execute (statement : Statement) : Call Pool := fun pool =>
  (none, { pool with connection :=
    if (opened pool).work.isSome then (opened pool).executeOpening statement
    else { pool.connection with committed := pool.connection.committed ++ [statement] } })

/-- `self._conn.execute("BEGIN")` -/
def begin : Call Pool := Pool.withConnection fun connection => { connection with work := some connection.view }

def transaction (enableRls : Bool) : Call Pool :=
  ((Pool.take.andThen (setAutocommit false)).andThen begin).andThen (setting enableRls)

def commit (enableRls : Bool) : Call Pool :=
  (Pool.withConnection Connection.commit).ensuring
    (((setting enableRls).andThen (setAutocommit true)).andThen Pool.putconn)

def rollback (enableRls : Bool) : Call Pool :=
  (Pool.withConnection Connection.rollback).ensuring
    (((setting enableRls).swallow.andThen (setAutocommit true)).andThen Pool.putconn)

end Postgres

def postgresBackend (enableRls : Bool) : Backend where
  State := Pool
  pooled := true
  transaction := Postgres.transaction enableRls
  execute := Postgres.execute
  failing pool := pool
  commit := Postgres.commit enableRls
  rollback := Postgres.rollback enableRls
  exit := exitRollingBack (Postgres.rollback enableRls)
  view pool := pool.connection.committed
  ready pool := pool.available ≠ 0
  returned := Pool.returned

/-! `SASQLiteBackend` and `SAPostgresBackend`: connections of SQLAlchemy, which
begin by themselves and go back to the pool when they are closed. -/

namespace Sqlalchemy

/-- Closing a connection rolls it back; closing it again does nothing. -/
def close : Call Pool := fun pool =>
  let pool := { pool with connection := pool.connection.rollback }
  if pool.held then Pool.putconn pool else (none, pool)

def exit (raised : Bool) : Call Pool :=
  (exitRollingBack (Pool.withConnection Connection.rollback) raised).andThen close

def backend (execute : Connection → Statement → Connection) : Backend where
  State := Pool
  pooled := true
  transaction := Pool.take
  execute statement := Pool.withConnection fun connection => execute connection statement
  failing pool := pool
  commit := Pool.withConnection Connection.commit
  rollback := Pool.withConnection Connection.rollback
  exit := exit
  view pool := pool.connection.committed
  ready pool := pool.available ≠ 0
  returned := Pool.returned

end Sqlalchemy

def saSqliteBackend : Backend := Sqlalchemy.backend Connection.executeSqlite

def saPostgresBackend : Backend := Sqlalchemy.backend Connection.executeOpening

/-! `DjangoORMBackend` inside the atomic block of a request. All its savepoints
have one name, so a name means the last of them. -/

/-- What is in effect in the enclosing transaction, what was at each savepoint, the
last first, and whether an error has aborted the transaction. -/
structure Atomic where
  work : List Statement
  savepoints : List (List Statement)
  aborted : Bool

namespace Django

def refused : Fault := .operational "current transaction is aborted"

/-- An error aborts the transaction of PostgreSQL, not that of SQLite. -/
def abort (aborts : Bool) (atomic : Atomic) : Atomic := { atomic with aborted := atomic.aborted || aborts }

def savepoint : Call Atomic := fun atomic =>
  if atomic.aborted then (some refused, atomic)
  else (none, { atomic with savepoints := atomic.work :: atomic.savepoints })

def execute (statement : Statement) : Call Atomic := fun atomic =>
  if atomic.aborted then (some refused, atomic) else (none, { atomic with work := atomic.work ++ [statement] })

/-- `RELEASE SAVEPOINT scoped_tx` -/
def release (aborts : Bool) : Call Atomic := fun atomic =>
  if atomic.aborted then (some refused, atomic)
  else match atomic.savepoints with
    | [] => (some (.operational "no such savepoint"), abort aborts atomic)
    | _ :: savepoints => (none, { atomic with savepoints })

/-- `ROLLBACK TO SAVEPOINT scoped_tx` keeps the savepoint. -/
def rollbackTo (aborts : Bool) : Call Atomic := fun atomic =>
  match atomic.savepoints with
  | [] => (some (.operational "no such savepoint"), abort aborts atomic)
  | work :: _ => (none, { atomic with work, aborted := false })

end Django

def djangoBackend (aborts : Bool) : Backend where
  State := Atomic
  pooled := false
  transaction := Django.savepoint
  execute := Django.execute
  failing := Django.abort aborts
  commit := Django.release aborts
  rollback := (Django.rollbackTo aborts).swallow
  exit := exitRollingBack (Django.rollbackTo aborts).swallow
  view := Atomic.work
  ready atomic := !atomic.aborted
  returned _ := 0

/-- The backends, with the options that matter here. -/
inductive Kind where
  | sqlite
  | postgres (enableRls : Bool)
  | saSqlite
  | saPostgres
  | django (aborts : Bool)
  deriving DecidableEq, Repr

namespace Kind

def backend : Kind → Backend
  | .sqlite => sqliteBackend
  | .postgres enableRls => postgresBackend enableRls
  | .saSqlite => saSqliteBackend
  | .saPostgres => saPostgresBackend
  | .django aborts => djangoBackend aborts

/-- An idle backend, its pool with the given number of connections and one more. -/
def idle (committed : List Statement) (spare : Nat) : (kind : Kind) → kind.backend.State
  | .sqlite => (⟨committed, none⟩ : Connection)
  | .postgres _ | .saSqlite | .saPostgres => (⟨⟨committed, none⟩, true, false, spare + 1, 0⟩ : Pool)
  | .django _ => (⟨committed, [], false⟩ : Atomic)

end Kind
end PyScoped.Legacy.Storage
