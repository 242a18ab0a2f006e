import PyScoped.Legacy.RowSecurity

/-! Under whom statements of the pooled backend run. A connection that a call commits
keeps the principal of the call; every other use leaves it the default. -/

namespace PyScoped.Legacy.RowSecurity
open Foundation

variable {ι : Type}

/-- Guarded statements run as the principal of their call or block, and pooled
connections have the default. -/
structure Private (server : Server) (store : Store ι) : Prop where
  own : ∀ issued ∈ store.issued, ∀ pid, issued.principal = some pid → issued.setting = pid
  pooled : ∀ connection ∈ store.pool, connection.begun.setting = server.preset

/-- A statement does not alter the setting itself. One that belongs to a call or to an
uncommitted block has a transaction open, or its principal is the default; and so is the
principal of a call that commits. -/
def Server.Harmless (server : Server) (client : ι) (store : Store ι) : Request → Prop
  | .execute conn (.text sql _) => server.alters sql = false ∧ ∀ checkout ∈ store.checkout client conn,
      ∀ pid ∈ checkout.principal, checkout.connection.txn = none → pid = server.preset
  | .commit .call => ∀ checkout ∈ store.calls client, ∀ pid ∈ checkout.principal, pid = server.preset
  | _ => True

/-- What is true of the connections of scripts and of blocks. -/
structure Checkout.Plain (server : Server) (checkout : Checkout) : Prop where
  setting : checkout.connection.setting = server.preset
  session : ∀ txn, checkout.connection.txn = some txn → txn.aborted = false → txn.session = server.preset
  own : ∀ txn pid, checkout.connection.txn = some txn → txn.aborted = false → checkout.principal = some pid →
    txn.setting = pid

structure Sound (server : Server) (store : Store ι) : Prop where
  own : ∀ issued ∈ store.issued, ∀ pid, issued.principal = some pid → issued.setting = pid
  pooled : ∀ connection ∈ store.pool, connection = server.fresh
  blocks : ∀ number checkout, store.blocks number = some checkout → checkout.Plain server

theorem Sound.private {server : Server} {store : Store ι} (sound : Sound server store) : Private server store :=
  ⟨sound.own, fun connection member => by rw [sound.pooled connection member]; rfl⟩

/-- The others leave a thread its context and its call, and a block its principal as
long as it has one. -/
structure Onward (client : ι) (store now : Store ι) : Prop where
  context : now.contexts client = store.contexts client
  call : now.calls client = store.calls client
  opened : store.opened ≤ now.opened
  principals : ∀ number < store.opened, ∀ checkout pid, now.blocks number = some checkout →
    checkout.principal = some pid → ∃ earlier, store.blocks number = some earlier ∧ earlier.principal = some pid

namespace Onward

theorem refl (client : ι) (store : Store ι) : Onward client store store :=
  ⟨rfl, rfl, Nat.le_refl _, fun _ _ checkout _ found own => ⟨checkout, found, own⟩⟩

theorem trans {client : ι} {first second third : Store ι} (before : Onward client first second)
    (after : Onward client second third) : Onward client first third := by
  refine ⟨after.context.trans before.context, after.call.trans before.call, before.opened.trans after.opened, ?_⟩
  intro number small checkout pid found own
  obtain ⟨middle, found, own⟩ := after.principals number (small.trans_le before.opened) checkout pid found own
  exact before.principals number small middle pid found own

end Onward

variable {checkout : Checkout} {choice : Choice} {reply : Except Raised (Option (List Row))} {number : Nat}
   {after : Store ι}

section Steps

variable {server : Server} {store : Store ι} {client : ι}

/-- The call of the thread has a connection, which a rollback brings back to the default. -/
def Returnable (server : Server) (client : ι) (store : Store ι) : Prop :=
  ∃ checkout, store.calls client = some checkout ∧ checkout.connection.setting = server.preset

/-- The call of the thread runs as the principal. -/
def Guarded (server : Server) (client : ι) (pid : String) (store : Store ι) : Prop :=
  store.calls client = some ⟨⟨server.preset, some ⟨pid, none, false⟩⟩, some pid⟩

/-- The call of the thread is a script. -/
def Scripting (server : Server) (client : ι) (store : Store ι) : Prop :=
  ∃ checkout, store.calls client = some checkout ∧ checkout.Plain server ∧ checkout.principal = none

theorem Guarded.returnable {pid : String} (guarded : Guarded server client pid store) : Returnable server client store :=
  ⟨_, guarded, rfl⟩

theorem Scripting.returnable (scripting : Scripting server client store) : Returnable server client store := by
  obtain ⟨checkout, held, plain, -⟩ := scripting
  exact ⟨checkout, held, plain.setting⟩

@[simp] private theorem log_contexts (checkout : Checkout) (command : Command) :
    (store.log client checkout command).contexts = store.contexts := by cases command <;> rfl

@[simp] private theorem log_pool (checkout : Checkout) (command : Command) :
    (store.log client checkout command).pool = store.pool := by cases command <;> rfl

@[simp] private theorem log_calls (checkout : Checkout) (command : Command) :
    (store.log client checkout command).calls = store.calls := by cases command <;> rfl

@[simp] private theorem log_blocks (checkout : Checkout) (command : Command) :
    (store.log client checkout command).blocks = store.blocks := by cases command <;> rfl

@[simp] private theorem log_opened (checkout : Checkout) (command : Command) :
    (store.log client checkout command).opened = store.opened := by cases command <;> rfl

theorem Sound.log (sound : Sound server store) {command : Command}
    (same : ∀ sql named pid, command = .text sql named → checkout.principal = some pid →
      checkout.connection.begun.setting = pid) : Sound server (store.log client checkout command) := by
  refine ⟨?_, by simpa using sound.pooled, by simpa using sound.blocks⟩
  cases command with
  | text sql named =>
    intro issued member pid own
    cases member with
    | head => exact same sql named pid rfl own
    | tail _ member => exact sound.own issued member pid own
  | _ => exact sound.own

theorem Onward.log (other : ι) (checkout : Checkout) (command : Command) :
    Onward other store (store.log client checkout command) := by
  refine ⟨by simp, by simp, by simp, fun number small later pid found own => ⟨later, ?_, own⟩⟩
  simpa using found

variable [DecidableEq ι]

theorem Sound.placeCall (sound : Sound server store) (checkout : Option Checkout) :
    Sound server (store.place client .call checkout) := ⟨sound.own, sound.pooled, sound.blocks⟩

theorem Onward.placeCall {other : ι} (different : other ≠ client) (checkout : Option Checkout) :
    Onward other store (store.place client .call checkout) :=
  ⟨rfl, Function.update_of_ne different .., Nat.le_refl _, fun _ _ later _ found own => ⟨later, found, own⟩⟩

theorem Sound.placeBlock (sound : Sound server store) {checkout : Option Checkout}
    (plain : ∀ placed ∈ checkout, placed.Plain server) : Sound server (store.place client (.block number) checkout) := by
  refine ⟨sound.own, sound.pooled, fun other later found => ?_⟩
  change Function.update store.blocks number checkout other = some later at found
  by_cases same : other = number
  · subst other
    rw [Function.update_self] at found
    exact plain later found
  · rw [Function.update_of_ne same] at found
    exact sound.blocks other later found

theorem Onward.placeBlock (other : ι) {next : Option Checkout} (before : store.blocks number = some checkout)
    (fewer : ∀ placed ∈ next, ∀ pid, placed.principal = some pid → checkout.principal = some pid) :
    Onward other store (store.place client (.block number) next) := by
  refine ⟨rfl, rfl, Nat.le_refl _, fun position small later pid found own => ?_⟩
  change Function.update store.blocks number next position = some later at found
  by_cases same : position = number
  · subst position
    rw [Function.update_self] at found
    exact ⟨checkout, before, fewer later found pid own⟩
  · rw [Function.update_of_ne same] at found
    exact ⟨later, found, own⟩

/-- A command leaves everything as it was, fails on the server, or is executed. -/
theorem execute_cases {conn : Conn} {command : Command}
    (served : server.execute client choice store conn command = (reply, after)) :
    (after = store ∧ ∃ error, reply = .error error) ∨
      ∃ checkout, store.checkout client conn = some checkout ∧ checkout.connection.begun.aborted = false ∧
        ((∃ failure error, failure ≠ .unsent ∧ reply = .error error ∧
          after = (store.log client checkout command).place client conn
            (some { checkout with connection := server.broken checkout.connection failure })) ∨
        (reply = .ok choice.rows ∧ after = (store.log client checkout command).place client conn
          (some { checkout with connection := server.executed choice checkout.connection command }))) := by
  unfold Server.execute at served
  split at served
  · cases served
    exact .inl ⟨rfl, _, rfl⟩
  next checkout found =>
    split at served
    · cases served
      exact .inl ⟨rfl, _, rfl⟩
    next running =>
      refine (?_ : _ ∨ _)
      split at served
      · cases served
        exact .inl ⟨rfl, _, rfl⟩
      next failure error other _ =>
        cases served
        exact .inr ⟨checkout, found, by simpa using running, .inl ⟨failure, error, other, rfl, rfl⟩⟩
      · cases served
        exact .inr ⟨checkout, found, by simpa using running, .inr ⟨rfl, rfl⟩⟩

/-- A transaction is over: its connection has the setting it had before, the default, or
what the transaction was to leave. -/
def Finished (server : Server) (client : ι) (conn : Conn) (store after : Store ι) : Prop :=
  after = store ∧ store.checkout client conn = none ∨
    ∃ checkout connection principal, store.checkout client conn = some checkout ∧
      after = store.place client conn (some ⟨connection, principal⟩) ∧ connection.txn = none ∧
      (∀ pid, principal = some pid → checkout.principal = some pid) ∧
      (connection.setting = checkout.connection.setting ∨ connection.setting = server.preset ∨
        ∃ txn, checkout.connection.txn = some txn ∧ txn.aborted = false ∧ connection.setting = txn.session)

private theorem ended_setting (server : Server) (connection : Connection) (failure : Failure) :
    (server.ended connection failure).txn = none ∧ ((server.ended connection failure).setting = connection.setting ∨
      (server.ended connection failure).setting = server.preset) := by
  cases failure with
  | disconnected => exact ⟨rfl, .inr rfl⟩
  | unsent | refused => exact ⟨rfl, .inl rfl⟩

private theorem committed_setting (connection : Connection) : connection.committed.txn = none ∧
    (connection.committed.setting = connection.setting ∨
      ∃ txn, connection.txn = some txn ∧ txn.aborted = false ∧ connection.committed.setting = txn.session) := by
  unfold Connection.committed
  split
  next txn opened =>
    split
    · exact ⟨rfl, .inl rfl⟩
    next running => exact ⟨rfl, .inr ⟨txn, opened, by simpa using running, rfl⟩⟩
  next closed => exact ⟨closed, .inl rfl⟩

theorem commit_finished {conn : Conn} {reply : Except Raised Unit}
    (served : server.commit client choice store conn = (reply, after)) : Finished server client conn store after := by
  unfold Server.commit at served
  split at served
  next absent =>
    cases served
    exact .inl ⟨rfl, absent⟩
  next checkout found =>
    split at served
    next failure error _ =>
      cases served
      obtain ⟨ended, setting⟩ := ended_setting server checkout.connection failure
      exact .inr ⟨checkout, _, _, found, rfl, ended, fun _ own => own, setting.imp_right .inl⟩
    · cases served
      obtain ⟨ended, setting⟩ := committed_setting checkout.connection
      exact .inr ⟨checkout, _, none, found, rfl, ended, nofun, setting.imp_right .inr⟩

theorem rollback_finished {conn : Conn} {reply : Except Raised Unit}
    (served : server.rollback client choice store conn = (reply, after)) : Finished server client conn store after := by
  unfold Server.rollback at served
  split at served
  next absent =>
    cases served
    exact .inl ⟨rfl, absent⟩
  next checkout found =>
    split at served
    · cases served
      exact .inr ⟨checkout, _, _, found, rfl, rfl, fun _ own => own, .inr (.inl rfl)⟩
    · cases served
      exact .inr ⟨checkout, _, _, found, rfl, rfl, fun _ own => own, .inl rfl⟩

theorem close_cases {conn : Conn} {reply : Except Raised Unit}
    (served : store.close client choice conn = (reply, after)) :
    after = store ∨ ∃ checkout, store.checkout client conn = some checkout ∧
      (after = store.place client conn none ∨ after = { store.place client conn none with
        pool := checkout.connection.rolledBack :: store.pool }) := by
  unfold Store.close at served
  split at served
  · cases served
    exact .inl rfl
  next checkout found =>
    refine .inr ⟨checkout, found, ?_⟩
    split at served
    · cases served
      exact .inl rfl
    · cases served
      split
      · exact .inr rfl
      · exact .inl (by cases conn <;> rfl)

theorem connect_cases {use : Use} {reply : Except Raised Conn}
    (served : server.connect client choice store use = some (reply, after)) :
    (after = store ∧ ∃ error, reply = .error error) ∨
      ∃ connection pool, (connection = server.fresh ∨ connection ∈ store.pool) ∧
      (∀ other ∈ pool, other ∈ store.pool) ∧ reply = .ok (store.open_ client connection pool use).1 ∧
      after = (store.open_ client connection pool use).2 := by
  unfold Server.connect at served
  split at served
  · cases served
    exact .inl ⟨rfl, _, rfl⟩
  · cases served
    exact .inr ⟨_, _, .inl rfl, fun _ member => member, rfl, rfl⟩
  next position _ =>
    obtain ⟨connection, found, same⟩ := Option.map_eq_some_iff.mp served
    cases same
    exact .inr ⟨connection, _, .inr (List.mem_of_getElem? found), fun _ => List.mem_of_mem_eraseIdx, rfl, rfl⟩

end Steps

variable [DecidableEq ι]

def contract (server : Server) : Contract Request (Store ι) ι where
  kept := Sound server
  rely := Onward
  allowed := server.Harmless

section Blocks

variable {server : Server} {store : Store ι} {client : ι}

theorem Checkout.Plain.fresh (principal : Option String) : Checkout.Plain server ⟨server.fresh, principal⟩ :=
  ⟨rfl, nofun, nofun⟩

theorem Checkout.Plain.begun_session (plain : checkout.Plain server)
    (running : checkout.connection.begun.aborted = false) : checkout.connection.begun.session = server.preset := by
  unfold Connection.begun at running ⊢
  cases opened : checkout.connection.txn with
  | none => exact plain.setting
  | some txn =>
    rw [opened] at running
    exact plain.session txn opened running

theorem Checkout.Plain.begun_own (plain : checkout.Plain server) (running : checkout.connection.begun.aborted = false)
    (default : ∀ pid, checkout.principal = some pid → checkout.connection.txn = none → pid = server.preset) (pid : String)
    (own : checkout.principal = some pid) : checkout.connection.begun.setting = pid := by
  unfold Connection.begun at running ⊢
  cases opened : checkout.connection.txn with
  | none => exact plain.setting.trans (default pid own opened).symm
  | some txn =>
    rw [opened] at running
    exact plain.own txn pid opened running own

theorem Checkout.Plain.broken (plain : checkout.Plain server) {failure : Failure}
    (seen : failure ≠ .unsent) : Checkout.Plain server { checkout with connection := server.broken checkout.connection failure } := by
  cases failure with
  | unsent => exact absurd rfl seen
  | refused =>
    refine ⟨plain.setting, fun txn opened running => ?_, fun txn pid opened running => ?_⟩ <;>
      (cases opened; cases running)
  | disconnected =>
    refine ⟨rfl, fun txn opened running => ?_, fun txn pid opened running => ?_⟩ <;> (cases opened; cases running)

theorem Checkout.Plain.finished {connection : Connection} {principal : Option String}
    (plain : checkout.Plain server) (ended : connection.txn = none)
    (setting : connection.setting = checkout.connection.setting ∨ connection.setting = server.preset ∨
      ∃ txn, checkout.connection.txn = some txn ∧ txn.aborted = false ∧ connection.setting = txn.session) :
    Checkout.Plain server ⟨connection, principal⟩ := by
  refine ⟨?_, fun txn opened => ?_, fun txn pid opened => ?_⟩
  · obtain kept | default | ⟨txn, opened, running, left⟩ := setting
    · exact kept.trans plain.setting
    · exact default
    · exact left.trans (plain.session txn opened running)
  · rw [ended] at opened
    cases opened
  · rw [ended] at opened
    cases opened

/-- A statement of a block. -/
theorem text_step {sql : String} {named : List (String × Json)} (sound : Sound server store)
    (harmless : server.Harmless client store (.execute (.block number) (.text sql named)))
    (served : server.execute client choice store (.block number) (.text sql named) = (reply, after)) :
    Sound server after ∧ ∀ other, Onward other store after := by
  obtain ⟨rfl, -⟩ | ⟨checkout, found, running, executed⟩ := execute_cases served
  · exact ⟨sound, fun other => .refl other _⟩
  obtain ⟨unaltered, default⟩ := harmless
  have plain := sound.blocks number checkout found
  have session := plain.begun_session running
  have own := plain.begun_own running (default checkout found)
  have logged : Sound server (store.log client checkout (.text sql named)) :=
    sound.log fun _ _ pid same principal => own pid principal
  have onward (other : ι) (connection : Connection) : Onward other store ((store.log client checkout (.text sql named)).place
      client (.block number) (some { checkout with connection := connection })) := by
    have held : (store.log client checkout (.text sql named)).blocks number = some checkout := by
      rw [log_blocks]
      exact found
    refine (Onward.log other checkout _).trans (.placeBlock other held ?_)
    rintro placed ⟨⟩ pid principal
    exact principal
  obtain ⟨failure, error, seen, -, rfl⟩ | ⟨-, rfl⟩ := executed
  · refine ⟨logged.placeBlock ?_, fun other => onward other _⟩
    rintro placed ⟨⟩
    exact plain.broken seen
  · refine ⟨logged.placeBlock ?_, fun other => onward other _⟩
    rintro placed ⟨⟩
    simp only [Server.executed, unaltered, Bool.false_eq_true, if_false]
    refine ⟨plain.setting, fun txn opened _ => ?_, fun txn pid opened _ principal => ?_⟩
    · cases opened
      exact session
    · cases opened
      exact own pid principal

theorem finished_step (sound : Sound server store) (finished : Finished server client (.block number) store after) :
    Sound server after ∧ ∀ other, Onward other store after := by
  obtain ⟨rfl, -⟩ | ⟨checkout, connection, principal, found, rfl, ended, fewer, setting⟩ := finished
  · exact ⟨sound, fun other => .refl other _⟩
  refine ⟨sound.placeBlock ?_, fun other => .placeBlock other found ?_⟩
  · rintro placed ⟨⟩
    exact (sound.blocks number checkout found).finished ended setting
  · rintro placed ⟨⟩ pid own
    exact fewer pid own

theorem close_step {reply : Except Raised Unit} (sound : Sound server store)
    (served : store.close client choice (.block number) = (reply, after)) :
    Sound server after ∧ ∀ other, Onward other store after := by
  obtain rfl | ⟨checkout, found, placed⟩ := close_cases served
  · exact ⟨sound, fun other => .refl other _⟩
  have taken : Sound server (store.place client (.block number) none) := sound.placeBlock nofun
  have onward (other : ι) : Onward other store (store.place client (.block number) none) := .placeBlock other found nofun
  obtain rfl | rfl := placed
  · exact ⟨taken, onward⟩
  · refine ⟨⟨taken.own, ?_, taken.blocks⟩, fun other => ⟨(onward other).context, (onward other).call, (onward other).opened,
      (onward other).principals⟩⟩
    refine List.forall_mem_cons.mpr ⟨?_, sound.pooled⟩
    exact congrArg (Connection.mk · none) (sound.blocks number checkout found).setting

/-- A new block, and whose it is. -/
theorem open_step {reply : Except Raised Conn} (sound : Sound server store)
    (served : server.connect client choice store .block = some (reply, after)) :
    Sound server after ∧ (∀ other, Onward other store after) ∧
      ∀ conn, reply = .ok conn → ∃ number < after.opened, conn = .block number ∧ ∀ checkout pid,
        after.blocks number = some checkout → checkout.principal = some pid → pid = principalOf (after.contexts client) := by
  obtain ⟨rfl, error, rfl⟩ | ⟨connection, pool, source, fewer, rfl, rfl⟩ := connect_cases served
  · exact ⟨sound, fun other => .refl other _, nofun⟩
  obtain rfl : connection = server.fresh := source.elim id fun member => sound.pooled connection member
  refine ⟨⟨sound.own, fun other member => sound.pooled other (fewer other member), fun number checkout found => ?_⟩,
    fun other => ⟨rfl, rfl, Nat.le_succ _, fun number small checkout pid found own => ⟨checkout, ?_, own⟩⟩, ?_⟩
  · change Function.update store.blocks store.opened _ number = some checkout at found
    by_cases same : number = store.opened
    · subst same
      rw [Function.update_self] at found
      cases found
      exact .fresh _
    · rw [Function.update_of_ne same] at found
      exact sound.blocks number checkout found
  · change Function.update store.blocks store.opened _ number = some checkout at found
    rwa [Function.update_of_ne (Nat.ne_of_lt small)] at found
  · rintro conn ⟨⟩
    refine ⟨store.opened, Nat.lt_succ_self _, rfl, fun checkout pid found own => ?_⟩
    change Function.update store.blocks store.opened _ store.opened = some checkout at found
    rw [Function.update_self] at found
    cases found
    cases own
    rfl

theorem set_step {pid : String} (sound : Sound server store)
    (principal : ∀ checkout other, store.blocks number = some checkout → checkout.principal = some other → other = pid)
    (served : server.execute client choice store (.block number) (.set true pid) = (reply, after)) :
    Sound server after ∧ ∀ other, Onward other store after := by
  obtain ⟨rfl, -⟩ | ⟨checkout, found, running, executed⟩ := execute_cases served
  · exact ⟨sound, fun other => .refl other _⟩
  have plain := sound.blocks number checkout found
  have onward (other : ι) (connection : Connection) : Onward other store (store.place
      client (.block number) (some { checkout with connection := connection })) := by
    refine .placeBlock other found ?_
    rintro placed ⟨⟩ pid own
    exact own
  obtain ⟨failure, error, seen, -, rfl⟩ | ⟨-, rfl⟩ := executed
  · refine ⟨sound.placeBlock ?_, fun other => onward other _⟩
    rintro placed ⟨⟩
    exact plain.broken seen
  · refine ⟨sound.placeBlock ?_, fun other => onward other _⟩
    rintro placed ⟨⟩
    refine ⟨plain.setting, fun txn opened _ => ?_, fun txn other opened _ own => ?_⟩
    · cases opened
      exact plain.begun_session running
    · cases opened
      exact (principal checkout other found own).symm

/-- What a thread may ask for at any time. -/
def Free : Request → Prop
  | .current => True
  | .setContext _ => True
  | .resetContext _ => True
  | .execute (.block _) (.text _ _) => True
  | .commit (.block _) => True
  | .rollback (.block _) => True
  | .close (.block _) => True
  | _ => False

private theorem context_step (sound : Sound server store) (context : Option ScopedContext) :
    Sound server { store with contexts := Function.update store.contexts client context } ∧
      ∀ other, other ≠ client → Onward other store { store with contexts := Function.update store.contexts client context } :=
  ⟨⟨sound.own, sound.pooled, sound.blocks⟩, fun _ different => ⟨Function.update_of_ne different .., rfl, Nat.le_refl _,
    fun _ _ checkout _ found own => ⟨checkout, found, own⟩⟩⟩

theorem free_step {request : Request} {reply : Except Raised (Reply request)}
    (free : Free request) (sound : Sound server store) (harmless : server.Harmless client store request)
    (served : server.serve client choice store request = some (reply, after)) :
    Sound server after ∧ ∀ other, other ≠ client → Onward other store after := by
  have always (step : Sound server after ∧ ∀ other, Onward other store after) :
      Sound server after ∧ ∀ other, other ≠ client → Onward other store after := ⟨step.1, fun other _ => step.2 other⟩
  cases request with
  | current =>
    cases served
    exact ⟨sound, fun other _ => .refl other _⟩
  | setContext context =>
    cases served
    exact context_step sound (some context)
  | resetContext token =>
    cases served
    exact context_step sound token
  | connect use => cases free
  | execute conn command =>
    cases conn with
    | call => cases free
    | block number =>
      cases command with
      | text sql named => exact always (text_step sound harmless (Option.some.inj served))
      | set isLocal pid => cases free
      | reset => cases free
  | commit conn =>
    cases conn with
    | call => cases free
    | block number => exact always (finished_step sound (commit_finished (Option.some.inj served)))
  | rollback conn =>
    cases conn with
    | call => cases free
    | block number => exact always (finished_step sound (rollback_finished (Option.some.inj served)))
  | close conn =>
    cases conn with
    | call => cases free
    | block number => exact always (close_step sound (Option.some.inj served))

variable {α : Type}

theorem free_safe {program : Program α} (only : program.Only Free) :
    (contract server).Safe server.serve client (fun _ _ => True) program store :=
  Contract.Safe.keeping (fun _ _ _ _ _ free sound harmless served => free_step free sound harmless served) only

private theorem exec_free (number : Nat) (sql : String) (params : Params) : (exec (.block number) sql params).Only Free :=
  .bind (.ofExcept _) fun _ => .perform trivial

private theorem mappings_free (result : Option (List Row)) : (mappings result).Only Free := by
  cases result <;> trivial

private theorem txnExecute_free (number : Nat) (sql : String) (params : Params) :
    (SAPostgresTransaction.execute (.block number) sql params).Only Free :=
  .bind (exec_free number sql params) fun _ => trivial

private theorem txnExit_free (number : Nat) (raised : Bool) : (SAPostgresTransaction.exit (.block number) raised).Only Free := by
  cases raised with
  | true => exact .bind (.perform trivial) fun _ => .perform trivial
  | false => exact .perform trivial

variable {self : SAPostgresBackend}

theorem transaction_safe (guarded : self.enableRls = true) :
    (contract server).Safe server.serve client (fun result _ => ∀ conn, result = .ok conn → ∃ number, conn = .block number)
      self.transaction store := by
  refine Contract.Safe.bind (Contract.Safe.perform fun now sound _ _ choice reply after served => ?_)
  obtain ⟨sound', others, opened⟩ := open_step sound served
  refine ⟨sound', fun other _ => others other, ?_⟩
  cases reply with
  | error error => exact nofun
  | ok conn =>
    obtain ⟨number, small, rfl, own⟩ := opened conn rfl
    refine Contract.Safe.bind ?_
    unfold SAPostgresBackend.setRlsContext
    rw [if_pos guarded]
    refine Contract.Safe.bind (Contract.Safe.bind (Contract.Safe.perform fun later sound moved _ choice reply final served => ?_))
    cases served
    refine ⟨sound, fun other _ => .refl other _, ?_⟩
    refine Contract.Safe.bind (Contract.Safe.perform fun last sound moved' _ choice reply final served => ?_)
    have own' (checkout : Checkout) (pid : String) (found : last.blocks number = some checkout)
        (principal : checkout.principal = some pid) : pid = principalOf (later.contexts client) := by
      obtain ⟨earlier, found, principal⟩ := (moved.trans moved').principals number small checkout pid found principal
      rw [own earlier pid found principal, moved.context]
    obtain ⟨sound', others⟩ := set_step sound own' (Option.some.inj served)
    refine ⟨sound', fun other _ => others other, ?_⟩
    cases reply with
    | error error => exact nofun
    | ok rows => exact fun conn same => ⟨number, (Except.ok.inj same).symm⟩

theorem block_safe (guarded : self.enableRls = true) {body : Conn → Program α}
    (each : ∀ number (state : Store ι), (contract server).Safe server.serve client (fun _ _ => True) (body (.block number)) state) :
    (contract server).Safe server.serve client (fun _ _ => True) (self.block body) store := by
  refine Contract.Safe.bind (Contract.Safe.weaken (transaction_safe guarded) fun result opened block => ?_)
  cases result with
  | error error => trivial
  | ok conn =>
    obtain ⟨number, rfl⟩ := block conn rfl
    refine Contract.Safe.bind (Contract.Safe.attempt (Contract.Safe.weaken (each number opened) fun result left _ => ?_))
    refine Contract.Safe.bind (Contract.Safe.weaken (free_safe (txnExit_free number _)) fun ended final _ => ?_)
    cases ended with
    | error error => trivial
    | ok value => exact Contract.Safe.ofExcept trivial

end Blocks

section Calls

variable {server : Server} {store : Store ι} {client : ι}

private theorem broken_setting (connection : Connection) (default : connection.setting = server.preset) (failure : Failure) :
    (server.broken connection failure).setting = server.preset := by
  cases failure with
  | unsent | refused => exact default
  | disconnected => rfl

theorem command_step {command : Command} (sound : Sound server store) (held : store.calls client = some checkout)
    (own : ∀ sql named pid, command = .text sql named → checkout.principal = some pid →
      checkout.connection.begun.aborted = false → checkout.connection.begun.setting = pid)
    (served : server.execute client choice store .call command = (reply, after)) :
    Sound server after ∧ (∀ other, other ≠ client → Onward other store after) ∧
      ((∃ error, reply = .error error) ∧ (after.calls client = some checkout ∨ ∃ failure, failure ≠ .unsent ∧
          after.calls client = some { checkout with connection := server.broken checkout.connection failure }) ∨
        checkout.connection.begun.aborted = false ∧
          after.calls client = some { checkout with connection := server.executed choice checkout.connection command }) := by
  obtain ⟨rfl, failed⟩ | ⟨checkout', found, running, executed⟩ := execute_cases served
  · exact ⟨sound, fun other _ => .refl other _, .inl ⟨failed, .inl held⟩⟩
  obtain rfl : checkout = checkout' := Option.some.inj (held.symm.trans found)
  have logged : Sound server (store.log client checkout command) :=
    sound.log fun sql named pid same principal => own sql named pid same principal running
  have onward (next : Option Checkout) (other : ι) (different : other ≠ client) :
      Onward other store ((store.log client checkout command).place client .call next) :=
    (Onward.log other checkout command).trans (.placeCall different next)
  obtain ⟨failure, error, seen, rfl, rfl⟩ | ⟨rfl, rfl⟩ := executed
  · exact ⟨logged.placeCall _, onward _, .inl ⟨⟨error, rfl⟩, .inr ⟨failure, seen, Function.update_self ..⟩⟩⟩
  · exact ⟨logged.placeCall _, onward _, .inr ⟨running, Function.update_self ..⟩⟩

theorem reset_step (sound : Sound server store)
    (returnable : Returnable server client store) (served : server.execute client choice store .call .reset = (reply, after)) :
    Sound server after ∧ (∀ other, other ≠ client → Onward other store after) ∧ Returnable server client after := by
  obtain ⟨checkout, held, default⟩ := returnable
  obtain ⟨sound', others, ⟨-, same | ⟨failure, -, same⟩⟩ | ⟨-, same⟩⟩ := command_step sound held (fun _ _ _ text => by cases text) served
  · exact ⟨sound', others, checkout, same, default⟩
  · exact ⟨sound', others, _, same, broken_setting _ default failure⟩
  · exact ⟨sound', others, _, same, default⟩

theorem connected_step {use : Use} {reply : Except Raised Conn} (call : use ≠ .block)
    (sound : Sound server store) (served : server.connect client choice store use = some (reply, after)) :
    Sound server after ∧ (∀ other, other ≠ client → Onward other store after) ∧ ∀ conn, reply = .ok conn → conn = .call ∧
      after.calls client = some ⟨server.fresh, if use = .call then some (principalOf (after.contexts client)) else none⟩ := by
  obtain ⟨rfl, error, rfl⟩ | ⟨connection, pool, source, fewer, rfl, rfl⟩ := connect_cases served
  · exact ⟨sound, fun other _ => .refl other _, nofun⟩
  obtain rfl : connection = server.fresh := source.elim id fun member => sound.pooled connection member
  have pooled (other : Connection) (member : other ∈ pool) : other = server.fresh := sound.pooled other (fewer other member)
  cases use with
  | block => exact absurd rfl call
  | call | script =>
    refine ⟨⟨sound.own, pooled, sound.blocks⟩, fun other different => ⟨rfl, Function.update_of_ne different .., Nat.le_refl _,
      fun _ _ checkout _ found own => ⟨checkout, found, own⟩⟩, fun conn same => ?_⟩
    cases same
    exact ⟨rfl, Function.update_self ..⟩

theorem returned_step {reply : Except Raised Unit} (sound : Sound server store)
    (returnable : Returnable server client store) (served : store.close client choice .call = (reply, after)) :
    Sound server after ∧ ∀ other, other ≠ client → Onward other store after := by
  obtain ⟨checkout, held, default⟩ := returnable
  obtain rfl | ⟨checkout', found, placed⟩ := close_cases served
  · exact ⟨sound, fun other _ => .refl other _⟩
  obtain rfl : checkout = checkout' := Option.some.inj (held.symm.trans found)
  have taken : Sound server (store.place client .call none) := sound.placeCall none
  have onward (other : ι) (different : other ≠ client) : Onward other store (store.place client .call none) :=
    .placeCall different none
  obtain rfl | rfl := placed
  · exact ⟨taken, onward⟩
  · refine ⟨⟨taken.own, List.forall_mem_cons.mpr ⟨congrArg (Connection.mk · none) default, sound.pooled⟩, taken.blocks⟩,
      fun other different => ?_⟩
    obtain ⟨context, call, opened, principals⟩ := onward other different
    exact ⟨context, call, opened, principals⟩

theorem committed_step {reply : Except Raised Unit}
    (sound : Sound server store) (held : store.calls client = some checkout)
    (default : checkout.connection.setting = server.preset)
    (leaves : ∀ txn, checkout.connection.txn = some txn → txn.aborted = false → txn.session = server.preset)
    (served : server.commit client choice store .call = (reply, after)) :
    Sound server after ∧ (∀ other, other ≠ client → Onward other store after) ∧ Returnable server client after := by
  obtain ⟨rfl, absent⟩ | ⟨checkout', connection, principal, found, rfl, -, -, setting⟩ := commit_finished served
  · exact absurd (absent.symm.trans held) nofun
  obtain rfl : checkout = checkout' := Option.some.inj (held.symm.trans found)
  refine ⟨sound.placeCall _, fun other different => .placeCall different _, _, Function.update_self .., ?_⟩
  obtain kept | preset | ⟨txn, opened, running, left⟩ := setting
  · exact kept.trans default
  · exact preset
  · exact left.trans (leaves txn opened running)

variable {α : Type}

private theorem closing_safe (returnable : Returnable server client store) :
    (contract server).Safe server.serve client (fun _ _ => True) (Prog.perform (Request.close .call)) store := by
  refine Contract.Safe.perform fun now sound moved _ choice reply after served => ?_
  obtain ⟨checkout, held, default⟩ := returnable
  obtain ⟨sound', others⟩ := returned_step sound ⟨checkout, moved.call.trans held, default⟩ (Option.some.inj served)
  exact ⟨sound', others, trivial⟩

theorem connected_safe {use : Use} {body : Conn → Program α} (call : use ≠ .block)
    (runs : ∀ state : Store ι, state.calls client =
        some ⟨server.fresh, if use = .call then some (principalOf (state.contexts client)) else none⟩ →
      (contract server).Safe server.serve client (fun _ final => Returnable server client final) (body .call) state) :
    (contract server).Safe server.serve client (fun _ _ => True) (SAPostgresBackend.connected use body) store := by
  refine Contract.Safe.bind (Contract.Safe.perform fun now sound _ _ choice reply after served => ?_)
  obtain ⟨sound', others, handed⟩ := connected_step call sound served
  refine ⟨sound', others, ?_⟩
  cases reply with
  | error error => trivial
  | ok conn =>
    obtain ⟨rfl, held⟩ := handed conn rfl
    refine Contract.Safe.bind (Contract.Safe.attempt (Contract.Safe.weaken (runs after held) fun result left returnable => ?_))
    refine Contract.Safe.bind (Contract.Safe.weaken (closing_safe returnable) fun closed final _ => ?_)
    cases closed with
    | error error => trivial
    | ok value => exact Contract.Safe.ofExcept trivial

variable {self : SAPostgresBackend} {pid : String}

theorem setRlsContext_safe (guarded : self.enableRls = true)
    (held : store.calls client = some ⟨server.fresh, some (principalOf (store.contexts client))⟩) :
    (contract server).Safe server.serve client (fun result final => match result with
      | .ok _ => ∃ pid, Guarded server client pid final
      | .error _ => Returnable server client final) (self.setRlsContext .call false) store := by
  unfold SAPostgresBackend.setRlsContext
  rw [if_pos guarded]
  refine Contract.Safe.bind (Contract.Safe.bind (Contract.Safe.perform fun now sound moved _ choice reply after served => ?_))
  cases served
  refine ⟨sound, fun other _ => .refl other _, ?_⟩
  refine Contract.Safe.bind (Contract.Safe.perform fun later sound moved' _ choice reply after served => ?_)
  have held' := (moved'.call.trans moved.call).trans held
  obtain ⟨sound', others, ⟨⟨error, rfl⟩, same | ⟨failure, -, same⟩⟩ | ⟨-, same⟩⟩ :=
    command_step sound held' (fun _ _ _ text => by cases text) (Option.some.inj served)
  · exact ⟨sound', others, _, same, rfl⟩
  · exact ⟨sound', others, _, same, broken_setting _ rfl failure⟩
  · refine ⟨sound', others, ?_⟩
    cases reply with
    | error error => exact ⟨_, same, rfl⟩
    | ok rows => exact ⟨_, same.trans (by rw [moved.context]; rfl)⟩

theorem resetRlsContext_safe (returnable : Returnable server client store) :
    (contract server).Safe server.serve client (fun _ final => Returnable server client final)
      (self.resetRlsContext .call) store := by
  unfold SAPostgresBackend.resetRlsContext
  split
  · refine Contract.Safe.bind (Contract.Safe.perform fun now sound moved _ choice reply after served => ?_)
    obtain ⟨checkout, held, default⟩ := returnable
    obtain ⟨sound', others, left⟩ := reset_step sound ⟨checkout, moved.call.trans held, default⟩ (Option.some.inj served)
    refine ⟨sound', others, ?_⟩
    cases reply with
    | error error => exact left
    | ok rows => exact left
  · exact returnable

theorem ensuring_safe {body : Program α}
    (runs : (contract server).Safe server.serve client (fun _ final => Returnable server client final) body store) :
    (contract server).Safe server.serve client (fun _ final => Returnable server client final)
      (ensuring body (self.resetRlsContext .call)) store := by
  refine Contract.Safe.bind (Contract.Safe.attempt (Contract.Safe.weaken runs fun result left returnable => ?_))
  refine Contract.Safe.bind (Contract.Safe.weaken (resetRlsContext_safe returnable) fun reset final returnable => ?_)
  cases reset with
  | error error => exact returnable
  | ok value => exact Contract.Safe.ofExcept returnable

theorem exec_safe (sql : String) (params : Params) (guarded : Guarded server client pid store) :
    (contract server).Safe server.serve client (fun result final => match result with
      | .ok _ => Guarded server client pid final
      | .error _ => Returnable server client final) (exec .call sql params) store := by
  refine Contract.Safe.bind (Contract.Safe.ofExcept ?_)
  cases Placeholders.rewriteSqlParams sql params with
  | error error => exact guarded.returnable
  | ok rewritten =>
    refine Contract.Safe.perform fun now sound moved harmless choice reply after served => ?_
    have held : Guarded server client pid now := moved.call.trans guarded
    obtain ⟨sound', others, ⟨⟨error, rfl⟩, same | ⟨failure, -, same⟩⟩ | ⟨-, same⟩⟩ :=
      command_step sound held (fun _ _ _ _ own _ => Option.some.inj own) (Option.some.inj served)
    · exact ⟨sound', others, _, same, rfl⟩
    · exact ⟨sound', others, _, same, broken_setting _ rfl failure⟩
    · have guarded' : Guarded server client pid after := by
        simpa [Guarded, Server.executed, harmless.1, Connection.begun] using same
      refine ⟨sound', others, ?_⟩
      cases reply with
      | error error => exact guarded'.returnable
      | ok rows => exact guarded'

theorem execute_safe (guarded : self.enableRls = true) (sql : String) (params : Params) :
    (contract server).Safe server.serve client (fun _ _ => True) (self.execute sql params) store := by
  refine connected_safe nofun fun state held => ?_
  refine Contract.Safe.bind (Contract.Safe.weaken (setRlsContext_safe guarded held) fun result set reached => ?_)
  cases result with
  | error error => exact reached
  | ok value =>
    obtain ⟨pid, running⟩ := reached
    refine ensuring_safe (Contract.Safe.bind (Contract.Safe.weaken (exec_safe sql params running) fun result left reached => ?_))
    cases result with
    | error error => exact reached
    | ok rows =>
      refine Contract.Safe.perform fun now sound moved harmless choice reply after served => ?_
      have held : Guarded server client pid now := moved.call.trans reached
      refine committed_step sound held rfl (fun txn opened _ => ?_) (Option.some.inj served)
      cases opened
      exact harmless _ held pid rfl

theorem fetch_safe (guarded : self.enableRls = true) (sql : String) (params : Params)
    {each : Option (List Row) → Program α} (quiet : ∀ rows, (each rows).Only fun _ => False) :
    (contract server).Safe server.serve client (fun _ _ => True) (SAPostgresBackend.connected .call fun conn =>
      (self.setRlsContext conn false).bind fun _ =>
        ensuring ((exec conn sql params).bind each) (self.resetRlsContext conn)) store := by
  refine connected_safe nofun fun state held => ?_
  refine Contract.Safe.bind (Contract.Safe.weaken (setRlsContext_safe guarded held) fun result set reached => ?_)
  cases result with
  | error error => exact reached
  | ok value =>
    obtain ⟨pid, running⟩ := reached
    refine ensuring_safe (Contract.Safe.bind (Contract.Safe.weaken (exec_safe sql params running) fun result left reached => ?_))
    cases result with
    | error error => exact reached
    | ok rows =>
      have silent := quiet rows
      change (contract server).Safe server.serve client (fun _ final => Returnable server client final) (each rows) left
      cases made : each rows with
      | pure value => exact reached.returnable
      | raise error => exact reached.returnable
      | request asked next =>
        rw [made] at silent
        exact silent.1.elim

theorem executeEach_safe (statements : List (List Char)) (scripting : Scripting server client store) :
    (contract server).Safe server.serve client (fun _ final => Scripting server client final)
      (SAPostgresBackend.executeEach .call statements) store := by
  induction statements generalizing store with
  | nil => exact scripting
  | cons statement statements ih =>
    unfold SAPostgresBackend.executeEach
    extract_lets stmt
    split
    · refine Contract.Safe.bind (Contract.Safe.perform fun now sound moved harmless choice reply after served => ?_)
      obtain ⟨checkout, held, plain, unguarded⟩ := scripting
      obtain ⟨sound', others, ⟨⟨error, rfl⟩, same | ⟨failure, seen, same⟩⟩ | ⟨running, same⟩⟩ :=
        command_step sound (moved.call.trans held) (fun _ _ _ _ own _ => by rw [unguarded] at own; cases own)
          (Option.some.inj served)
      · exact ⟨sound', others, checkout, same, plain, unguarded⟩
      · exact ⟨sound', others, _, same, plain.broken seen, unguarded⟩
      · have scripting' : Scripting server client after := by
          refine ⟨_, same, ?_, unguarded⟩
          simp only [Server.executed, harmless.1, Bool.false_eq_true, if_false]
          refine ⟨plain.setting, fun txn opened _ => ?_, fun txn pid _ _ own => ?_⟩
          · cases opened
            exact plain.begun_session running
          · exact absurd (unguarded.symm.trans own) nofun
        refine ⟨sound', others, ?_⟩
        cases reply with
        | error error => exact scripting'
        | ok rows => exact ih scripting'
    · exact ih scripting

theorem executeScript_safe (sql : String) :
    (contract server).Safe server.serve client (fun _ _ => True) (SAPostgresBackend.executeScript sql) store := by
  refine connected_safe nofun fun state held => ?_
  have scripting : Scripting server client state := ⟨_, held, .fresh none, rfl⟩
  refine Contract.Safe.bind (Contract.Safe.weaken (executeEach_safe _ scripting) fun result left reached => ?_)
  cases result with
  | error error => exact reached.returnable
  | ok value =>
    refine Contract.Safe.perform fun now sound moved _ choice reply after served => ?_
    obtain ⟨checkout, held, plain, -⟩ := reached
    exact committed_step sound (moved.call.trans held) plain.setting plain.session (Option.some.inj served)

end Calls

theorem Client.safe {self : SAPostgresBackend} {server : Server} {client : ι} {α : Type} {program : Program α}
    (guarded : self.enableRls = true) (runs : Client self program) {store : Store ι} :
    (contract server).Safe server.serve client (fun _ _ => True) program store := by
  induction runs generalizing store with
  | pure value => trivial
  | raise error => trivial
  | bind first each ih ihs =>
    refine Contract.Safe.bind (Contract.Safe.weaken ih fun result final _ => ?_)
    cases result with
    | ok value => exact ihs value
    | error error => trivial
  | attempt body ih => exact Contract.Safe.attempt (Contract.Safe.weaken ih fun _ _ _ => trivial)
  | current => exact free_safe (.perform trivial)
  | enter context => exact free_safe (.perform trivial)
  | exit token =>
    cases token with
    | none => trivial
    | some previous => exact free_safe (.perform trivial)
  | execute sql params => exact execute_safe guarded sql params
  | fetchOne sql params =>
    exact fetch_safe guarded sql params fun rows => .bind (by cases rows <;> trivial) fun _ => trivial
  | fetchAll sql params => exact fetch_safe guarded sql params fun rows => by cases rows <;> trivial
  | executeScript sql => exact executeScript_safe sql
  | block each ih => exact block_safe guarded fun number state => ih number
  | txnExecute number sql params => exact free_safe (txnExecute_free number sql params)
  | txnExecuteMany number sql paramsSeq => exact free_safe (.forM fun params _ => txnExecute_free number sql params)
  | txnFetchOne number sql params =>
    exact free_safe (.bind (exec_free number sql params) fun rows => .bind (mappings_free rows) fun _ => trivial)
  | txnFetchAll number sql params => exact free_safe (.bind (exec_free number sql params) mappings_free)
  | txnCommit number => exact free_safe (.perform trivial)
  | txnRollback number => exact free_safe (.perform trivial)
  | lost number => exact free_safe (.perform trivial)

/-- In every interleaving whose statements are harmless, guarded statements run as their
principals and pooled connections have the default. -/
theorem statements_private {self : SAPostgresBackend} {server : Server}
    {first world : Interleaved Request Reply Raised (Store ι) ι} (guarded : self.enableRls = true)
    (unissued : first.state.issued = []) (pooled : ∀ connection ∈ first.state.pool, connection = server.fresh)
    (unopened : ∀ number, first.state.blocks number = none) (clients : ∀ client, Client self (first.programs client))
    (reached : Interleaved.Reaches server.serve server.Harmless first world) : Private server world.state := by
  have start : Sound server first.state := by
    refine ⟨by simp [unissued], pooled, fun number checkout found => ?_⟩
    rw [unopened number] at found
    cases found
  have reached' : Interleaved.Reaches server.serve (contract server).allowed first world := reached
  exact (Interleaved.Reaches.safe (contract server) reached' Onward.refl (fun _ _ _ _ => Onward.trans) start fun client =>
    Client.safe guarded (clients client)).1.private

section Sample

private def secured : SAPostgresBackend := ⟨true⟩

/-- The setting has no default of its own, and no statement alters it. -/
private def postgres : Server := ⟨"", fun _ => false⟩

private def alice : ScopedContext := ⟨⟨"alice"⟩⟩

/-- One thread writes as alice. The other runs a script, in no context. -/
private def writing : Bool → Program Unit
  | true => alice.enter.bind fun _ => secured.execute "INSERT INTO notes VALUES (?)" (.positional [.str "n"])
  | false => SAPostgresBackend.executeScript "DELETE FROM notes; -- all of them"

private theorem writing_clients (client : Bool) : Client secured (writing client) := by
  cases client with
  | true => exact .bind (.enter alice) fun _ => .execute _ _
  | false => exact .executeScript _

/-- One thread writes as alice in a block and reads what it wrote. -/
private def inserting : Bool → Program Unit
  | true => alice.enter.bind fun _ =>
      (secured.block fun txn => (SAPostgresTransaction.execute txn "INSERT INTO notes VALUES (?)" (.positional [.str "n"])).bind
        fun _ => SAPostgresTransaction.commit txn).bind fun _ =>
      (secured.fetchOne "SELECT * FROM notes" (.positional [])).bind fun _ => .pure ()
  | false => SAPostgresBackend.executeScript "DELETE FROM notes; -- all of them"

private theorem inserting_clients (client : Bool) : Client secured (inserting client) := by
  cases client with
  | true =>
    exact .bind (.enter alice) fun _ => .bind (.block fun number => .bind (.txnExecute number _ _) fun _ => .txnCommit number)
      fun _ => .bind (.fetchOne _ _) fun _ => .pure ()
  | false => exact .executeScript _

private def unused : Store Bool := ⟨fun _ => none, [], fun _ => none, fun _ => none, 0, []⟩

private def turns (client : Bool) (idle : Option Nat) (count : Nat) : List (Bool × Choice) :=
  List.replicate count (client, ⟨idle, none, some [], true, ⟨"", none⟩⟩)

private instance (client : Bool) (store : Store Bool) (request : Request) :
    Decidable (postgres.Harmless client store request) := by
  unfold Server.Harmless
  split <;> infer_instance

/-- `execute` commits before it resets, and the reset is rolled back: the pooled connection
stays alice's, and the script runs as alice. -/
theorem committed_principal_pooled :
    ∃ world, Interleaved.Reaches postgres.serve (fun _ _ _ => True) ⟨unused, writing⟩ world ∧
      (∀ client, Client secured (writing client)) ∧
        (∃ issued ∈ world.state.issued, issued.client = false ∧ issued.setting = "alice") ∧ ¬Private postgres world.state := by
  have ran : ((Interleaved.mk unused writing).run postgres.serve (fun _ _ _ => True)
      (turns true none 8 ++ turns false (some 0) 4)).any (fun world =>
        world.state.pool == [⟨"alice", none⟩] &&
          world.state.issued.any fun issued => issued.client == false && issued.setting == "alice") = true := by
    decide +kernel
  obtain ⟨world, found, tested⟩ := (Option.any_eq_true _ _).mp ran
  simp only [Bool.and_eq_true, beq_iff_eq, List.any_eq_true] at tested
  obtain ⟨pooled, issued, member, script, setting⟩ := tested
  refine ⟨world, Interleaved.run_reaches .start found, writing_clients, ⟨issued, member, script, setting⟩, fun privates => ?_⟩
  have default := privates.pooled ⟨"alice", none⟩ (by simp [pooled])
  exact absurd default (by decide)

theorem statements_private_block :
    ∃ world, Interleaved.Reaches postgres.serve postgres.Harmless ⟨unused, inserting⟩ world ∧
      world.state.issued.length = 3 ∧ Private postgres world.state := by
  have ran : ((Interleaved.mk unused inserting).run postgres.serve postgres.Harmless
      (turns true none 13 ++ turns false (some 0) 4)).any (fun world => world.state.issued.length == 3) = true := by
    decide +kernel
  obtain ⟨world, found, tested⟩ := (Option.any_eq_true _ _).mp ran
  have reached := Interleaved.run_reaches .start found
  refine ⟨world, reached, by simpa using tested, ?_⟩
  refine statements_private rfl rfl (fun _ member => absurd member List.not_mem_nil) (fun _ => rfl) ?_ reached
  exact inserting_clients

end Sample

end PyScoped.Legacy.RowSecurity
