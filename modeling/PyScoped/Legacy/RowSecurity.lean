import PyScoped.Foundation.Interleaving
import PyScoped.Core.Context
import PyScoped.Legacy.Placeholders

/-! The pooled PostgreSQL backend of version 1 and the principal that it hands to
row-level security as a setting of the connection. What a transaction does to the
setting is what the server documents of SET, SET LOCAL, RESET, COMMIT and ROLLBACK. -/

namespace PyScoped.Legacy.RowSecurity
open Foundation

structure Principal where
  id : String

structure ScopedContext where
  principal : Principal

def ScopedContext.principalId (context : ScopedContext) : String := context.principal.id

abbrev Row := List (String × Json)

abbrev Params := Placeholders.Params Json

/-- What a connection is asked to execute. -/
inductive Command where
  | set (isLocal : Bool) (pid : String)
  | reset
  | text (sql : String) (named : List (String × Json))

/-- A transaction in progress: what the setting becomes when it commits, and what it
is until then. -/
structure Txn where
  session : String
  own : Option String
  aborted : Bool
  deriving DecidableEq

def Txn.setting (txn : Txn) : String := txn.own.getD txn.session

structure Connection where
  setting : String
  txn : Option Txn
  deriving DecidableEq

namespace Connection

/-- The first statement opens a transaction. -/
def begun (connection : Connection) : Txn := connection.txn.getD ⟨connection.setting, none, false⟩

def rolledBack (connection : Connection) : Connection := ⟨connection.setting, none⟩

/-- A transaction that was aborted is rolled back by its commit. -/
def committed (connection : Connection) : Connection :=
  match connection.txn with
  | some txn => if txn.aborted then connection.rolledBack else ⟨txn.session, none⟩
  | none => connection

end Connection

/-- A connection out of the pool. The remark is the principal that was current when the
call or the block began, until it commits. -/
structure Checkout where
  connection : Connection
  principal : Option String

/-- Where the connection of a call and those of the blocks are kept. -/
inductive Conn where
  | call
  | block (number : Nat)
  deriving DecidableEq

/-- What a connection is wanted for. -/
inductive Use where
  | call
  | script
  | block
  deriving DecidableEq

/-- A statement that was issued, under which principal, and the setting it ran with. -/
structure Issued (ι : Type) where
  client : ι
  sql : String
  principal : Option String
  setting : String

structure Store (ι : Type) where
  contexts : ι → Option ScopedContext
  pool : List Connection
  calls : ι → Option Checkout
  blocks : Nat → Option Checkout
  opened : Nat
  issued : List (Issued ι)

/-- `ctx.principal_id if ctx else ""` -/
def principalOf (context : Option ScopedContext) : String :=
  match context with
  | some ctx => ctx.principalId
  | none => ""

inductive Request where
  | current
  | setContext (context : ScopedContext)
  | resetContext (token : Option ScopedContext)
  | connect (use : Use)
  | execute (conn : Conn) (command : Command)
  | commit (conn : Conn)
  | rollback (conn : Conn)
  | close (conn : Conn)

/-- A statement that returns rows returns them as mappings. -/
def Reply : Request → Type
  | .current => Option ScopedContext
  | .setContext _ => Option ScopedContext
  | .connect _ => Conn
  | .execute _ _ => Option (List Row)
  | _ => Unit

abbrev Program := Prog Request Reply Raised

/-- How much of a failed request the server has seen. -/
inductive Failure where
  | unsent
  | refused
  | disconnected
  deriving DecidableEq

/-- What is left open: the connection that the pool hands out (a new one where it names
none), failures, rows, whether a returned connection stays in the pool, and what a statement
that alters the setting itself leaves. -/
structure Choice where
  idle : Option Nat
  failure : Option (Failure × Raised)
  rows : Option (List Row)
  returns : Bool
  altered : Connection

/-- The server: the default of the setting, and the statements that alter the setting
or the transaction themselves. -/
structure Server where
  preset : String
  alters : String → Bool

namespace Server

variable (server : Server)

def fresh : Connection := ⟨server.preset, none⟩

def apply (txn : Txn) : Command → Txn
  | .set false pid => { txn with session := pid, own := none }
  | .set true pid => { txn with own := some pid }
  | .reset => { txn with session := server.preset, own := none }
  | .text _ _ => txn

/-- What a command that succeeds leaves of the connection. -/
def executed (choice : Choice) (connection : Connection) (command : Command) : Connection :=
  match command with
  | .text sql _ =>
    if server.alters sql then choice.altered else { connection with txn := some connection.begun }
  | command => { connection with txn := some (server.apply connection.begun command) }

/-- What a command that fails leaves of the connection. Until it is rolled back, a lost
connection refuses what it is asked. -/
def broken (connection : Connection) : Failure → Connection
  | .unsent => connection
  | .refused => { connection with txn := some { connection.begun with aborted := true } }
  | .disconnected => { server.fresh with txn := some { server.fresh.begun with aborted := true } }

/-- A transaction whose commit or rollback fails is over. -/
def ended (connection : Connection) : Failure → Connection
  | .disconnected => server.fresh
  | _ => connection.rolledBack

end Server

namespace Store

variable {ι : Type} (store : Store ι) (client : ι)

def checkout : Conn → Option Checkout
  | .call => store.calls client
  | .block number => store.blocks number

variable [DecidableEq ι]

def place (conn : Conn) (checkout : Option Checkout) : Store ι :=
  match conn with
  | .call => { store with calls := Function.update store.calls client checkout }
  | .block number => { store with blocks := Function.update store.blocks number checkout }

def log (checkout : Checkout) : Command → Store ι
  | .text sql _ => { store with
      issued := ⟨client, sql, checkout.principal, checkout.connection.begun.setting⟩ :: store.issued }
  | _ => store

/-- Hands out a connection and takes it from the pool. -/
def open_ (connection : Connection) (pool : List Connection) : Use → Conn × Store ι
  | .call => (.call, { store with
      pool := pool
      calls := Function.update store.calls client (some ⟨connection, some (principalOf (store.contexts client))⟩) })
  | .script => (.call, { store with
      pool := pool
      calls := Function.update store.calls client (some ⟨connection, none⟩) })
  | .block => (.block store.opened, { store with
      pool := pool
      blocks := Function.update store.blocks store.opened
        (some ⟨connection, some (principalOf (store.contexts client))⟩)
      opened := store.opened + 1 })

/-- An open transaction is rolled back before the connection returns to the pool. -/
def close (choice : Choice) (conn : Conn) : Except Raised Unit × Store ι :=
  match store.checkout client conn with
  | none => (.ok (), store)
  | some checkout => match choice.failure with
    | some (_, raised) => (.error raised, store.place client conn none)
    | none => (.ok (), { store.place client conn none with
        pool := if choice.returns then checkout.connection.rolledBack :: store.pool else store.pool })

end Store

def closed : Raised := .other "This Connection is closed"

def inFailedTransaction : Raised :=
  .other "current transaction is aborted, commands ignored until end of transaction block"

variable {ι : Type} [DecidableEq ι]

namespace Server

variable (server : Server)

def execute (client : ι) (choice : Choice) (store : Store ι) (conn : Conn) (command : Command) :
    Except Raised (Option (List Row)) × Store ι :=
  match store.checkout client conn with
  | none => (.error closed, store)
  | some checkout =>
    if checkout.connection.begun.aborted then (.error inFailedTransaction, store)
    else match choice.failure with
      | some (.unsent, raised) => (.error raised, store)
      | some (failure, raised) => (.error raised, (store.log client checkout command).place client conn
          (some { checkout with connection := server.broken checkout.connection failure }))
      | none => (.ok choice.rows, (store.log client checkout command).place client conn
          (some { checkout with connection := server.executed choice checkout.connection command }))

def commit (client : ι) (choice : Choice) (store : Store ι) (conn : Conn) : Except Raised Unit × Store ι :=
  match store.checkout client conn with
  | none => (.ok (), store)
  | some checkout => match choice.failure with
    | some (failure, raised) => (.error raised, store.place client conn
        (some { checkout with connection := server.ended checkout.connection failure }))
    | none => (.ok (), store.place client conn (some ⟨checkout.connection.committed, none⟩))

def rollback (client : ι) (choice : Choice) (store : Store ι) (conn : Conn) : Except Raised Unit × Store ι :=
  match store.checkout client conn with
  | none => (.ok (), store)
  | some checkout => match choice.failure with
    | some (_, raised) => (.error raised, store.place client conn (some { checkout with connection := server.fresh }))
    | none => (.ok (), store.place client conn (some { checkout with connection := checkout.connection.rolledBack }))

def connect (client : ι) (choice : Choice) (store : Store ι) (use : Use) : Option (Except Raised Conn × Store ι) :=
  match choice.failure, choice.idle with
  | some (_, raised), _ => some (.error raised, store)
  | none, none => some ((store.open_ client server.fresh store.pool use).map .ok id)
  | none, some position => store.pool[position]?.map fun connection =>
      (store.open_ client connection (store.pool.eraseIdx position) use).map .ok id

def serve : Service Request Reply Raised (Store ι) ι Choice
  | client, _, store, .current => some (.ok (store.contexts client), store)
  | client, _, store, .setContext context => some (.ok (store.contexts client), { store with
      contexts := Function.update store.contexts client (some context) })
  | client, _, store, .resetContext token => some (.ok (), { store with
      contexts := Function.update store.contexts client token })
  | client, choice, store, .connect use => server.connect client choice store use
  | client, choice, store, .execute conn command => some (server.execute client choice store conn command)
  | client, choice, store, .commit conn => some (server.commit client choice store conn)
  | client, choice, store, .rollback conn => some (server.rollback client choice store conn)
  | client, choice, store, .close conn => some (store.close client choice conn)

end Server

/-! The context. A token is the context that `__exit__` goes back to. -/

namespace ScopedContext

def currentOrNone : Program (Option ScopedContext) := Prog.perform Request.current

def enter (self : ScopedContext) : Program (Option ScopedContext) := Prog.perform (Request.setContext self)

def exit (token : Option (Option ScopedContext)) : Program Unit :=
  match token with
  | some previous => Prog.perform (Request.resetContext previous)
  | none => pure ()

end ScopedContext

def exec (conn : Conn) (sql : String) (params : Params) : Program (Option (List Row)) := do
  let (newSql, named) ← Placeholders.rewriteSqlParams sql params
  Prog.perform (Request.execute conn (.text newSql named))

/-- `result.mappings()` -/
def mappings (result : Option (List Row)) : Program (List Row) :=
  match result with
  | some rows => pure rows
  | none => throw (.other "This result object does not return rows. It has been closed automatically.")

/-- `try: ... finally: ...` -/
def ensuring {α : Type} (body : Program α) (last : Program Unit) : Program α := do
  let result ← body.attempt
  last
  Prog.ofExcept result

namespace SAPostgresTransaction

variable (conn : Conn)

def execute (sql : String) (params : Params) : Program Unit := do
  let _ : Option (List Row) ← exec conn sql params

def executeMany (sql : String) (paramsSeq : List Params) : Program Unit :=
  paramsSeq.forM fun params => execute conn sql params

def fetchOne (sql : String) (params : Params) : Program (Option Row) := do
  let result ← exec conn sql params
  let rows ← mappings result
  return rows.head?

def fetchAll (sql : String) (params : Params) : Program (List Row) := do
  let result ← exec conn sql params
  mappings result

def commit : Program Unit := Prog.perform (Request.commit conn)

def rollback : Program Unit := Prog.perform (Request.rollback conn)

/-- `__exit__` -/
def exit (raised : Bool) : Program Unit := do
  if raised then rollback conn
  Prog.perform (Request.close conn)

end SAPostgresTransaction

structure SAPostgresBackend where
  enableRls : Bool

namespace SAPostgresBackend

variable (self : SAPostgresBackend)

def getRlsPrincipalId : Program String := do
  let ctx ← ScopedContext.currentOrNone
  return principalOf ctx

def setRlsContext (conn : Conn) (isLocal : Bool) : Program Unit :=
  if self.enableRls then do
    let principalId ← getRlsPrincipalId
    let _ : Option (List Row) ← Prog.perform (Request.execute conn (.set isLocal principalId))
  else pure ()

def resetRlsContext (conn : Conn) : Program Unit :=
  if self.enableRls then do
    let _ : Option (List Row) ← Prog.perform (Request.execute conn .reset)
  else pure ()

/-- `with self.engine.connect() as conn: ...` -/
def connected {α : Type} (use : Use) (body : Conn → Program α) : Program α := do
  let conn : Conn ← Prog.perform (Request.connect use)
  ensuring (body conn) (Prog.perform (Request.close conn))

def transaction : Program Conn := do
  let conn : Conn ← Prog.perform (Request.connect .block)
  setRlsContext self conn true
  return conn

/-- `with backend.transaction() as txn: ...` -/
def block {α : Type} (body : Conn → Program α) : Program α := do
  let txn ← transaction self
  let result ← (body txn).attempt
  SAPostgresTransaction.exit txn (match result with | .ok _ => false | .error _ => true)
  Prog.ofExcept result

def execute (sql : String) (params : Params) : Program Unit :=
  connected .call fun conn => do
    setRlsContext self conn false
    ensuring
      (do
        let _ : Option (List Row) ← exec conn sql params
        Prog.perform (Request.commit conn))
      (resetRlsContext self conn)

def fetchOne (sql : String) (params : Params) : Program (Option Row) :=
  connected .call fun conn => do
    setRlsContext self conn false
    ensuring
      (do
        let result ← exec conn sql params
        let rows ← mappings result
        return rows.head?)
      (resetRlsContext self conn)

def fetchAll (sql : String) (params : Params) : Program (List Row) :=
  connected .call fun conn => do
    setRlsContext self conn false
    ensuring
      (do
        let result ← exec conn sql params
        mappings result)
      (resetRlsContext self conn)

/-- `statement.strip()` -/
def strip (statement : List Char) : List Char :=
  ((statement.dropWhile isSpace).reverse.dropWhile isSpace).reverse

def executeEach (conn : Conn) : List (List Char) → Program Unit
  | [] => pure ()
  | statement :: statements =>
    let stmt := strip statement
    if stmt ≠ [] ∧ ¬ ['-', '-'].isPrefixOf stmt then do
      let _ : Option (List Row) ← Prog.perform (Request.execute conn (.text (String.ofList stmt) []))
      executeEach conn statements
    else executeEach conn statements

def executeScript (sql : String) : Program Unit :=
  connected .script fun conn => do
    executeEach conn (sql.toList.splitOn ';')
    Prog.perform (Request.commit conn)

end SAPostgresBackend

/-- What threads do with the backend and with their context. The interpreter closes a
connection that its block has lost. -/
inductive Client (self : SAPostgresBackend) : {α : Type} → Program α → Prop where
  | pure {α : Type} (value : α) : Client self (.pure value)
  | raise {α : Type} (error : Raised) : Client self (.raise error : Program α)
  | bind {α β : Type} {program : Program α} {next : α → Program β} (first : Client self program)
      (each : ∀ value, Client self (next value)) : Client self (program.bind next)
  | attempt {α : Type} {program : Program α} (body : Client self program) : Client self program.attempt
  | current : Client self ScopedContext.currentOrNone
  | enter (context : ScopedContext) : Client self context.enter
  | exit (token : Option (Option ScopedContext)) : Client self (ScopedContext.exit token)
  | execute (sql : String) (params : Params) : Client self (self.execute sql params)
  | fetchOne (sql : String) (params : Params) : Client self (self.fetchOne sql params)
  | fetchAll (sql : String) (params : Params) : Client self (self.fetchAll sql params)
  | executeScript (sql : String) : Client self (SAPostgresBackend.executeScript sql)
  | block {α : Type} {body : Conn → Program α} (each : ∀ number, Client self (body (.block number))) :
      Client self (self.block body)
  | txnExecute (number : Nat) (sql : String) (params : Params) :
      Client self (SAPostgresTransaction.execute (.block number) sql params)
  | txnExecuteMany (number : Nat) (sql : String) (paramsSeq : List Params) :
      Client self (SAPostgresTransaction.executeMany (.block number) sql paramsSeq)
  | txnFetchOne (number : Nat) (sql : String) (params : Params) :
      Client self (SAPostgresTransaction.fetchOne (.block number) sql params)
  | txnFetchAll (number : Nat) (sql : String) (params : Params) :
      Client self (SAPostgresTransaction.fetchAll (.block number) sql params)
  | txnCommit (number : Nat) : Client self (SAPostgresTransaction.commit (.block number))
  | txnRollback (number : Nat) : Client self (SAPostgresTransaction.rollback (.block number))
  | lost (number : Nat) : Client self (Prog.perform (Request.close (.block number)))

end PyScoped.Legacy.RowSecurity
