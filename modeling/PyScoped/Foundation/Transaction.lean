import PyScoped.Foundation.Program
import Mathlib.Data.List.Sigma

/-! A store of typed keys under READ COMMITTED: each statement sees the
committed values under the writes of its own transaction, row locks are held to
the end of the transaction or to the savepoint that gives them back, and any
statement may fail. -/

namespace Foundation

variable {K : Type} [DecidableEq K] {V : K → Type} {Ω ε α : Type}

/-- Writes, newest first. A key written without a value is deleted. -/
abbrev Log (V : K → Type) := List (Σ key, Option (V key))

namespace Log

def lookup (log : Log V) (key : K) : Option (V key) := (log.dlookup key).join

def entries (log : Log V) : List (Sigma V) :=
  log.keys.dedup.filterMap fun key => (log.lookup key).map (Sigma.mk key)

theorem lookup_nil (key : K) : lookup (V := V) [] key = none := rfl

@[simp] theorem lookup_cons_self (log : Log V) (key : K) (value : Option (V key)) :
    lookup (⟨key, value⟩ :: log) key = value := by
  cases value <;> simp [lookup]

variable {key : K}

theorem lookup_cons_ne (log : Log V) {other : K} (value : Option (V other)) (ne : key ≠ other) :
    lookup (⟨other, value⟩ :: log) key = lookup log key := by
  simp only [lookup, List.dlookup_cons_ne _ (⟨other, value⟩ : Σ key, Option (V key)) ne]

theorem lookup_append_left {first : Log V} (written : key ∈ first.keys) (second : Log V) :
    lookup (first ++ second) key = lookup first key := by
  obtain ⟨value, found⟩ := Option.isSome_iff_exists.mp (List.dlookup_isSome.mpr written)
  simp only [lookup, List.dlookup_append, found]
  rfl

theorem lookup_append_right {first : Log V} (unwritten : key ∉ first.keys) (second : Log V) :
    lookup (first ++ second) key = lookup second key := by
  simp only [lookup, List.dlookup_append, List.dlookup_eq_none.mpr unwritten, Option.none_or]

theorem lookup_append_some {first : Log V} {value : V key} (found : first.lookup key = some value)
    (second : Log V) : lookup (first ++ second) key = some value := by
  refine (lookup_append_left (List.dlookup_isSome.mp ?_) second).trans found
  cases written : first.dlookup key with
  | none => simp [lookup, written] at found
  | some value' => rfl

/-- A value that is found was written, and what came after it wrote other keys. -/
theorem lookup_split {log : Log V} {value : V key} (found : log.lookup key = some value) :
    ∃ newer older, key ∉ List.keys newer ∧ log = newer ++ ⟨key, some value⟩ :: older := by
  induction log with
  | nil => cases found
  | cons entry log ih =>
    obtain ⟨other, written⟩ := entry
    by_cases same : key = other
    · subst same
      rw [lookup_cons_self] at found
      subst found
      exact ⟨[], log, by simp, rfl⟩
    · rw [lookup_cons_ne _ _ same] at found
      obtain ⟨newer, older, apart, rfl⟩ := ih found
      exact ⟨⟨other, written⟩ :: newer, older, by simpa [List.keys_cons] using ⟨same, apart⟩, rfl⟩

theorem mem_entries {log : Log V} {value : V key} :
    ⟨key, value⟩ ∈ log.entries ↔ log.lookup key = some value := by
  unfold entries
  constructor
  · intro member
    obtain ⟨other, _, found⟩ := List.mem_filterMap.mp member
    obtain ⟨value', held, same⟩ := Option.map_eq_some_iff.mp found
    cases same
    exact held
  · intro held
    have written : key ∈ log.keys := by
      refine List.dlookup_isSome.mp ?_
      cases found : log.dlookup key with
      | none => simp [lookup, found] at held
      | some value' => rfl
    exact List.mem_filterMap.mpr ⟨key, List.mem_dedup.mpr written, by rw [held]; rfl⟩

theorem entries_nodup (log : Log V) : log.entries.keys.Nodup := by
  unfold entries List.keys
  rw [List.Nodup, List.pairwise_map, List.pairwise_filterMap]
  refine (List.nodup_dedup log.keys).imp fun {first second} ne entry found entry' found' same => ne ?_
  obtain ⟨_, _, rfl⟩ := Option.map_eq_some_iff.mp found
  obtain ⟨_, _, rfl⟩ := Option.map_eq_some_iff.mp found'
  exact same

end Log

/-- The writes and locks of a transaction since its start. -/
structure Frame (V : K → Type) where
  writes : Log V
  locks : List K

/-- One connection: what others have committed, its own frame, and the frames
that its open savepoints restore. The last saved frame opened the transaction. -/
structure Session (V : K → Type) where
  committed : Log V
  current : Frame V
  saved : List (Frame V)

namespace Session

def view (session : Session V) : Log V := session.current.writes ++ session.committed

def idle (committed : Log V) : Session V := ⟨committed, ⟨[], []⟩, []⟩

def hold (session : Session V) (key : K) : Session V :=
  { session with current := { session.current with locks := key :: session.current.locks } }

def write (session : Session V) (key : K) (value : Option (V key)) : Session V :=
  { session with current := ⟨⟨key, value⟩ :: session.current.writes, key :: session.current.locks⟩ }

def enter (session : Session V) : Session V :=
  { session with saved := session.current :: session.saved }

def undo (session : Session V) : Session V :=
  match session.saved with
  | [] => session
  | frame :: saved => { session with current := frame, saved := saved }

def commit (session : Session V) : Session V := idle session.view

end Session

/-- Statements. Three of them carry remarks that the server ignores: a scan tells
whether its rows are relied on without being locked, a write names the keys that
enclosing operations hold in flight, and a change tells whether its row was seen. -/
inductive Request (V : K → Type) (ε : Type) where
  | get (key : K)
  | scan (wanted : List (Sigma V) → Sigma V → Bool) (relied : Bool)
  | lock (key : K)
  | insert (key : K) (value : V key) (held : List K)
  | update (key : K) (change : V key → Except ε (V key)) (held : List K) (seen : Bool)
  | delete (key : K) (held : List K) (seen : Bool)
  | ask
  | enter
  | leave
  | undo

def Reply (Ω : Type) : Request V ε → Type
  | .get key => Option (V key)
  | .scan _ _ => List (Sigma V)
  | .lock key => Option (V key)
  | .insert _ _ _ => Unit
  | .update _ _ _ _ => Bool
  | .delete _ _ _ => Bool
  | .ask => Ω
  | .enter => Unit
  | .leave => Unit
  | .undo => Unit

abbrev Tx (V : K → Type) (Ω ε α : Type) := Prog (Request V ε) (Reply Ω) ε α

/-- What the server decides at one statement: to fail, to pass over a row that
came or went while the statement waited, and what the environment supplies. -/
structure Choice (Ω ε : Type) where
  failure : Option ε
  miss : Bool
  oracle : Ω

/-- Constraints of the server: the error of a duplicate key, and the check that
is deferred to the commit. -/
structure Server (V : K → Type) (ε : Type) where
  duplicate : ε
  settled : Log V → Except ε Unit

namespace Server

variable (server : Server V ε) (choice : Choice Ω ε)

/-- A row that is already locked is never passed over. -/
def missed (session : Session V) (key : K) : Bool := choice.miss && !(session.current.locks.contains key)

/-- The lock a statement waits for. -/
def awaited (session : Session V) : Request V ε → Option K
  | .lock key | .update key _ _ _ | .delete key _ _ =>
    if choice.failure.isSome || missed choice session key || (session.view.lookup key).isNone then none else some key
  | .insert key _ _ => if choice.failure.isSome then none else some key
  | _ => none

def leave (session : Session V) : Option (Except ε Unit × Session V) :=
  match session.saved with
  | [] => none
  | [_] =>
    match server.settled session.view with
    | .ok _ => some (.ok (), session.commit)
    | .error error => some (.error error, session.undo)
  | _ :: saved => some (.ok (), { session with saved := saved })

/-- The reply and the next session. Nothing is locked or written outside a transaction. -/
def answer (session : Session V) : (request : Request V ε) → Option (Except ε (Reply Ω request) × Session V)
  | .enter => some (match choice.failure with
    | some error => (.error error, session)
    | none => (.ok (), session.enter))
  | .leave =>
    match choice.failure with
    | some error => some (.error error, session.undo)
    | none => server.leave session
  | .undo => some (match choice.failure with
    | some error => (.error error, session.undo)
    | none => (.ok (), session.undo))
  | .ask => some (match choice.failure with
    | some error => (.error error, session)
    | none => (.ok choice.oracle, session))
  | .get key => some (match choice.failure with
    | some error => (.error error, session)
    | none => (.ok (session.view.lookup key), session))
  | .scan wanted _ => some (match choice.failure with
    | some error => (.error error, session)
    | none => (.ok (session.view.entries.filter (wanted session.view.entries)), session))
  | .lock key =>
    if session.saved.isEmpty then none else some (match choice.failure with
    | some error => (.error error, session)
    | none =>
      if missed choice session key then (.ok none, session)
      else match session.view.lookup key with
        | none => (.ok none, session)
        | some value => (.ok (some value), session.hold key))
  | .insert key value _ =>
    if session.saved.isEmpty then none else some (match choice.failure with
    | some error => (.error error, session)
    | none =>
      match session.view.lookup key with
      | some _ => (.error server.duplicate, session)
      | none => (.ok (), session.write key (some value)))
  | .update key change _ _ =>
    if session.saved.isEmpty then none else some (match choice.failure with
    | some error => (.error error, session)
    | none =>
      if missed choice session key then (.ok false, session)
      else match session.view.lookup key with
        | none => (.ok false, session)
        | some value =>
          match change value with
          | .error error => (.error error, session)
          | .ok value => (.ok true, session.write key (some value)))
  | .delete key _ _ =>
    if session.saved.isEmpty then none else some (match choice.failure with
    | some error => (.error error, session)
    | none =>
      if missed choice session key then (.ok false, session)
      else match session.view.lookup key with
        | none => (.ok false, session)
        | some _ => (.ok true, session.write key none))

section Answered

variable {choice : Choice Ω ε} {session after : Session V} {key : K} {ρ : Type} {reply missing : Except ε ρ}

omit [DecidableEq K] in
/-- A statement that locks or writes is in a transaction, and fails or does its work. -/
theorem executed {work : Except ε ρ × Session V} (answered : (if session.saved.isEmpty then none else
      some (match choice.failure with
        | some error => (.error error, session)
        | none => work)) = some (reply, after)) :
    session.saved ≠ [] ∧ ((∃ error, reply = .error error ∧ after = session) ∨ choice.failure = none ∧ work = (reply, after)) := by
  split at answered
  · cases answered
  next opened =>
    refine ⟨by simpa using opened, ?_⟩
    cases failed : choice.failure <;> rw [failed] at answered
    · exact .inr ⟨rfl, Option.some.inj answered⟩
    · cases answered
      exact .inl ⟨_, rfl, rfl⟩

/-- A statement on a row passes it over, does not find it, or does its work on it. -/
theorem reached {work : V key → Except ε ρ × Session V} (answered : (if missed choice session key then (missing, session)
      else match session.view.lookup key with
        | none => (missing, session)
        | some value => work value) = (reply, after)) :
    ((missed choice session key = true ∨ session.view.lookup key = none) ∧ reply = missing ∧ after = session) ∨
      ∃ value, missed choice session key = false ∧ session.view.lookup key = some value ∧ work value = (reply, after) := by
  split at answered
  next missed =>
    cases answered
    exact .inl ⟨.inl missed, rfl, rfl⟩
  next found =>
    split at answered
    next gone =>
      cases answered
      exact .inl ⟨.inr gone, rfl, rfl⟩
    next value present => exact .inr ⟨value, Bool.eq_false_iff.mpr found, present, answered⟩

end Answered

/-- A run of one program that nobody interferes with. Every statement that is
executed meets the condition, and no row is passed over. -/
def Runs (allowed : Session V → Request V ε → Prop) :
    Tx V Ω ε α → Session V → Except ε α → Session V → Prop
  | .pure value, session, result, final => result = .ok value ∧ final = session
  | .raise error, session, result, final => result = .error error ∧ final = session
  | .request request next, session, result, final =>
    allowed session request ∧ ∃ choice : Choice Ω ε, choice.miss = false ∧ ∃ reply after,
      server.answer choice session request = some (reply, after) ∧ Runs allowed (next reply) after result final

/-- The same run, driven by a list of choices, if all its statements are permitted. -/
def playWithin (permits : Request V ε → Bool) : List (Choice Ω ε) → Tx V Ω ε α → Session V → Option (Except ε α × Session V)
  | _, .pure value, session => some (.ok value, session)
  | _, .raise error, session => some (.error error, session)
  | [], .request _ _, _ => none
  | choice :: choices, .request request next, session =>
    if choice.miss || !permits request then none else
    match server.answer choice session request with
    | none => none
    | some (reply, after) => playWithin permits choices (next reply) after

theorem playWithin_runs {permits : Request V ε → Bool} {allowed : Request V ε → Prop}
    (permitted : ∀ request, permits request = true → allowed request) {choices : List (Choice Ω ε)}
    {program : Tx V Ω ε α} {session final : Session V} {result : Except ε α}
    (played : server.playWithin permits choices program session = some (result, final)) :
    server.Runs (fun _ request => allowed request) program session result final := by
  induction program generalizing choices session with
  | pure value | raise error =>
    cases choices <;> simp only [playWithin, Option.some.injEq, Prod.mk.injEq] at played <;>
      exact ⟨played.1.symm, played.2.symm⟩
  | request request next ih =>
    cases choices with
    | nil => simp only [playWithin, reduceCtorEq] at played
    | cons choice choices =>
      simp only [playWithin] at played
      split at played
      · cases played
      next attentive =>
        simp only [Bool.or_eq_true, Bool.not_eq_true', not_or, Bool.not_eq_true, Bool.not_eq_false] at attentive
        split at played
        · cases played
        next reply after answered =>
          exact ⟨permitted request attentive.2, choice, attentive.1, reply, after, answered, ih reply played⟩

def play : List (Choice Ω ε) → Tx V Ω ε α → Session V → Option (Except ε α × Session V) := server.playWithin fun _ => true

theorem play_runs {choices : List (Choice Ω ε)} {program : Tx V Ω ε α} {session final : Session V}
    {result : Except ε α} (played : server.play choices program session = some (result, final)) :
    server.Runs (fun _ _ => True) program session result final :=
  server.playWithin_runs (fun _ _ => trivial) played

end Server

/-- A connection of the world, with what its client has still to do. -/
structure Client (V : K → Type) (Ω ε : Type) where
  current : Frame V
  saved : List (Frame V)
  program : Tx V Ω ε Unit

structure World (V : K → Type) (Ω ε : Type) (count : Nat) where
  committed : Log V
  clients : Fin count → Client V Ω ε

namespace World

variable {count : Nat} (server : Server V ε)

def initial (committed : Log V) (programs : Fin count → Tx V Ω ε Unit) : World V Ω ε count :=
  ⟨committed, fun client => ⟨⟨[], []⟩, [], programs client⟩⟩

def session (world : World V Ω ε count) (client : Fin count) : Session V :=
  ⟨world.committed, (world.clients client).current, (world.clients client).saved⟩

/-- A statement waits while another transaction holds the lock it needs. -/
def Blocked (world : World V Ω ε count) (client : Fin count) (choice : Choice Ω ε) (request : Request V ε) : Prop :=
  ∃ key ∈ Server.awaited choice (world.session client) request,
    ∃ other, other ≠ client ∧ key ∈ (world.clients other).current.locks

instance (world : World V Ω ε count) (client : Fin count) (choice : Choice Ω ε) (request : Request V ε) :
    Decidable (world.Blocked client choice request) :=
  inferInstanceAs (Decidable (∃ key ∈ Server.awaited choice (world.session client) request, _))

/-- One statement of one client. A commit is a statement like any other. -/
def step (world : World V Ω ε count) (client : Fin count) (choice : Choice Ω ε) : Option (World V Ω ε count) :=
  match (world.clients client).program with
  | .pure _ | .raise _ => none
  | .request request next =>
    if world.Blocked client choice request then none else
    match server.answer choice (world.session client) request with
    | none => none
    | some (reply, after) =>
      some ⟨after.committed, Function.update world.clients client ⟨after.current, after.saved, next reply⟩⟩

/-- The next statement of the client, if it has one, meets the condition. -/
def Meets (allowed : Session V → Request V ε → Prop) (world : World V Ω ε count) (client : Fin count) : Prop :=
  match (world.clients client).program with
  | .request request _ => allowed (world.session client) request
  | _ => True

/-- Finite interleavings all of whose steps meet the condition. -/
inductive Reaches (allowed : Session V → Request V ε → Prop) (first : World V Ω ε count) :
    World V Ω ε count → Prop where
  | start : Reaches allowed first first
  | step {world next : World V Ω ε count} (reached : Reaches allowed first world) (client : Fin count)
      (choice : Choice Ω ε) (meets : world.Meets allowed client)
      (stepped : world.step server client choice = some next) : Reaches allowed first next

/-- The interleaving that a list of turns and choices drives. -/
def run (world : World V Ω ε count) : List (Fin count × Choice Ω ε) → Option (World V Ω ε count)
  | [] => some world
  | (client, choice) :: turns => (world.step server client choice).bind fun next => run next turns

theorem run_reaches {first world final : World V Ω ε count} {turns : List (Fin count × Choice Ω ε)}
    (reached : Reaches server (fun _ _ => True) first world) (ran : world.run server turns = some final) :
    Reaches server (fun _ _ => True) first final := by
  induction turns generalizing world with
  | nil =>
    cases ran
    exact reached
  | cons turn turns ih =>
    obtain ⟨next, stepped, ran⟩ := Option.bind_eq_some_iff.mp ran
    have meets : world.Meets (fun _ _ => True) turn.1 := by
      unfold Meets
      split <;> trivial
    exact ih (.step reached turn.1 turn.2 meets stepped) ran

end World
end Foundation
