import PyScoped.Foundation.Interference

/-! Atomic blocks, and proof rules for programs built from statements, blocks,
exceptions and loops. A structured program leaves the savepoint stack as it
found it, never gives up a lock inside a transaction, and sees only moves. -/

namespace Foundation

variable {K : Type} [DecidableEq K] {V : K → Type} {Ω ε α β : Type}

namespace Tx

def get (key : K) : Tx V Ω ε (Option (V key)) := Prog.perform (Request.get key)

def scan (wanted : List (Sigma V) → Sigma V → Bool) (relied : Bool) : Tx V Ω ε (List (Sigma V)) :=
  Prog.perform (Request.scan wanted relied)

def lock (key : K) : Tx V Ω ε (Option (V key)) := Prog.perform (Request.lock key)

def insert (key : K) (value : V key) (held : List K) : Tx V Ω ε Unit := Prog.perform (Request.insert key value held)

def update (key : K) (change : V key → Except ε (V key)) (held : List K) (seen : Bool) : Tx V Ω ε Bool :=
  Prog.perform (Request.update key change held seen)

def delete (key : K) (held : List K) (seen : Bool) : Tx V Ω ε Bool := Prog.perform (Request.delete key held seen)

def ask : Tx V Ω ε Ω := Prog.perform Request.ask

/-- A block that commits or releases its savepoint on success and otherwise
restores the state at its start. -/
def atomic (body : Tx V Ω ε α) : Tx V Ω ε α :=
  (Prog.perform Request.enter : Tx V Ω ε Unit).bind fun _ => body.attempt.bind fun
    | .ok value => (Prog.perform Request.leave : Tx V Ω ε Unit).bind fun _ => .pure value
    | .error error => (Prog.perform Request.undo : Tx V Ω ε Unit).bind fun _ => .raise error

end Tx

namespace Discipline

variable (discipline : Discipline V ε)

/-- How the session after a structured program relates to the one before. -/
structure Framed (before after : Session V) : Prop where
  saved : after.saved = before.saved
  locks : before.saved ≠ [] → before.current.locks ⊆ after.current.locks
  moves : before.saved ≠ [] → after.committed = before.committed ∨ discipline.Moves before after.committed

def Holds (server : Server V ε) (post : Except ε α → Session V → Prop) (program : Tx V Ω ε α)
    (session : Session V) : Prop :=
  discipline.Safe server (fun result final => discipline.Framed session final ∧ post result final) program session

/-- A postcondition that only matters where nothing was raised. -/
def Returns (post : α → Session V → Prop) : Except ε α → Session V → Prop
  | .ok value, session => post value session
  | .error _, _ => True

/-- One assertion for both outcomes. -/
def Always (post : Session V → Prop) : Except ε α → Session V → Prop := fun _ session => post session

variable {discipline} {server : Server V ε} {session : Session V}

theorem Framed.onward {first second : Session V} (framed : discipline.Framed first second)
    (opened : first.saved ≠ []) {committed : Log V} (moves : discipline.Moves second committed) :
    discipline.Moves first committed := by
  rcases framed.moves opened with same | earlier
  · refine ⟨moves.kept, fun alone => (moves.alone alone).trans same, fun key held => ?_⟩
    rw [moves.guarded key (framed.locks opened held), same]
  · exact Moves.trans second earlier (framed.locks opened) moves

theorem Framed.refl (session : Session V) : discipline.Framed session session :=
  ⟨rfl, fun _ => List.Subset.refl _, fun _ => .inl rfl⟩

theorem Framed.trans {first second third : Session V} (framed : discipline.Framed first second)
    (framed' : discipline.Framed second third) : discipline.Framed first third := by
  have later (opened : first.saved ≠ []) : second.saved ≠ [] := by rwa [framed.saved]
  refine ⟨framed'.saved.trans framed.saved,
    fun opened => List.Subset.trans (framed.locks opened) (framed'.locks (later opened)), fun opened => ?_⟩
  rcases framed'.moves (later opened) with same | moves
  · rw [same]
    exact framed.moves opened
  · exact .inr (framed.onward opened moves)

theorem Framed.of_moves {committed : Log V} (moves : discipline.Moves session committed) :
    discipline.Framed session (session.seeing committed) :=
  ⟨rfl, fun _ => List.Subset.refl _, fun _ => .inr moves⟩

variable {middle post : Except ε α → Session V → Prop} {program : Tx V Ω ε α}

namespace Holds

theorem weaken {post' : Except ε α → Session V → Prop} (holds : discipline.Holds server post program session)
    (implies : ∀ result final, discipline.Framed session final → post result final → post' result final) :
    discipline.Holds server post' program session :=
  Safe.weaken holds fun result final ⟨framed, reached⟩ => ⟨framed, implies result final framed reached⟩

variable {next : α → Tx V Ω ε β}

theorem bind {post : Except ε β → Session V → Prop} (holds : discipline.Holds server middle program session)
    (raised : ∀ error final, discipline.Framed session final → middle (.error error) final →
      post (.error error) final)
    (onward : ∀ value final, discipline.Framed session final → middle (.ok value) final →
      discipline.Holds server post (next value) final) :
    discipline.Holds server post (program.bind next) session := by
  refine Safe.bind (Safe.weaken holds ?_)
  rintro (error | value) final ⟨framed, reached⟩
  · exact ⟨framed, raised error final framed reached⟩
  · exact Safe.weaken (onward value final framed reached) fun result last ⟨framed', done⟩ =>
      ⟨framed.trans framed', done⟩

/-- The rule of bind where exceptions owe nothing. -/
theorem andThen {middle : α → Session V → Prop} {post : β → Session V → Prop}
    (holds : discipline.Holds server (Returns middle) program session)
    (onward : ∀ value final, discipline.Framed session final → middle value final →
      discipline.Holds server (Returns post) (next value) final) :
    discipline.Holds server (Returns post) (program.bind next) session :=
  holds.bind (fun _ _ _ _ => trivial) onward

/-- An assertion for both outcomes holds of what was returned. -/
theorem returned {post : Session V → Prop} (holds : discipline.Holds server (Always post) program session) :
    discipline.Holds server (Returns fun _ => post) program session :=
  holds.weaken fun result _ _ reached => by
    cases result with
    | ok value => exact reached
    | error error => trivial

theorem tryCatch {body : Tx V Ω ε α} {handler : ε → Tx V Ω ε α} (holds : discipline.Holds server middle body session)
    (returned : ∀ value final, discipline.Framed session final → middle (.ok value) final → post (.ok value) final)
    (caught : ∀ error final, discipline.Framed session final → middle (.error error) final →
      discipline.Holds server post (handler error) final) :
    discipline.Holds server post (MonadExcept.tryCatch body handler) session := by
  refine Safe.bind (Safe.attempt (Safe.weaken holds ?_))
  rintro (error | value) final ⟨framed, reached⟩
  · exact Safe.weaken (caught error final framed reached) fun result last ⟨framed', done⟩ =>
      ⟨framed.trans framed', done⟩
  · exact ⟨framed, returned value final framed reached⟩

theorem pure {value : α} (reached : post (.ok value) session) :
    discipline.Holds server post (Prog.pure value : Tx V Ω ε α) session :=
  ⟨Framed.refl session, reached⟩

theorem raise {error : ε} (reached : post (.error error) session) :
    discipline.Holds server post (Prog.raise error : Tx V Ω ε α) session :=
  ⟨Framed.refl session, reached⟩

theorem ofExcept {result : Except ε α} (reached : post result session) :
    discipline.Holds server post (Prog.ofExcept result : Tx V Ω ε α) session := by
  cases result with
  | ok value => exact pure reached
  | error error => exact raise reached

/-- A computation without requests, where exceptions owe nothing. -/
theorem lift {post : β → Session V → Prop} {result : Except ε α}
    (onward : ∀ value, result = .ok value → discipline.Holds server (Returns post) (next value) session) :
    discipline.Holds server (Returns post) ((Prog.ofExcept result).bind next) session := by
  cases result with
  | ok value => exact onward value rfl
  | error error => exact raise trivial

/-- One statement that neither opens nor closes a block. -/
theorem perform {request : Request V ε} {post : Except ε (Reply Ω request) → Session V → Prop}
    (plain : request ≠ .enter ∧ request ≠ .leave ∧ request ≠ .undo)
    (steps : ∀ committed, discipline.Moves session committed → (session.seeing committed).Whole discipline.guard →
      discipline.allowed (session.seeing committed) request → ∀ choice : Choice Ω ε,
        (discipline.shared = false → choice.miss = false) → ∀ reply after,
          server.answer choice (session.seeing committed) request = some (reply, after) →
            (∀ key ∈ after.current.writes.keys, discipline.guard key ∈ after.current.locks) ∧ post reply after) :
    discipline.Holds server post (Prog.perform request : Tx V Ω ε _) session := by
  intro whole committed moves allowed choice attentive reply after answered
  obtain ⟨guarded, reached⟩ := steps committed moves ⟨whole.guarded, whole.nested, whole.opened⟩ allowed choice
    attentive reply after answered
  have same : after.committed = committed ∧ after.saved = session.saved ∧
      session.current.locks ⊆ after.current.locks := by
    cases Server.answer_outcome answered with
    | same => exact ⟨rfl, rfl, List.Subset.refl _⟩
    | held key | written key => exact ⟨rfl, rfl, List.subset_cons_self _ _⟩
    | entered entering => exact absurd entering plain.1
    | left leaving => exact absurd leaving plain.2.1
    | undone closing => exact (closing.elim plain.2.1 plain.2.2).elim
  have framed : discipline.Framed session after :=
    ⟨same.2.1, fun _ => same.2.2, fun _ => .inr (same.1.symm ▸ moves)⟩
  refine ⟨⟨guarded, .inl same.1⟩, ?_⟩
  cases reply with
  | ok value => exact ⟨framed, reached⟩
  | error error => exact ⟨framed, reached⟩

variable {key : K}

theorem get {post : Except ε (Option (V key)) → Session V → Prop}
    (steps : ∀ committed, discipline.Moves session committed → (session.seeing committed).Whole discipline.guard →
      (∀ error, post (.error error) (session.seeing committed)) ∧
        post (.ok ((session.seeing committed).view.lookup key)) (session.seeing committed)) :
    discipline.Holds server post (Tx.get key : Tx V Ω ε _) session := by
  refine perform (by simp) ?_
  intro committed moves whole allowed choice attentive reply after answered
  obtain ⟨raised, returned⟩ := steps committed moves whole
  simp only [Server.answer, Option.some.injEq] at answered
  cases failed : choice.failure <;> rw [failed] at answered <;> cases answered
  · exact ⟨whole.guarded _ List.mem_cons_self, returned⟩
  · exact ⟨whole.guarded _ List.mem_cons_self, raised _⟩

theorem ask {post : Except ε Ω → Session V → Prop}
    (steps : ∀ committed, discipline.Moves session committed → (session.seeing committed).Whole discipline.guard →
      ∀ result, post result (session.seeing committed)) :
    discipline.Holds server post (Tx.ask : Tx V Ω ε _) session := by
  refine perform (by simp) ?_
  intro committed moves whole allowed choice attentive reply after answered
  simp only [Server.answer, Option.some.injEq] at answered
  cases failed : choice.failure <;> rw [failed] at answered <;> cases answered <;>
    exact ⟨whole.guarded _ List.mem_cons_self, steps committed moves whole _⟩

theorem scan {wanted : List (Sigma V) → Sigma V → Bool} {relied : Bool}
    {post : Except ε (List (Sigma V)) → Session V → Prop}
    (steps : ∀ committed, discipline.Moves session committed → (session.seeing committed).Whole discipline.guard →
      discipline.allowed (session.seeing committed) (.scan wanted relied) →
      (∀ error, post (.error error) (session.seeing committed)) ∧
        post (.ok ((session.seeing committed).view.entries.filter (wanted (session.seeing committed).view.entries)))
          (session.seeing committed)) :
    discipline.Holds server post (Tx.scan wanted relied : Tx V Ω ε _) session := by
  refine perform (by simp) ?_
  intro committed moves whole allowed choice attentive reply after answered
  obtain ⟨raised, returned⟩ := steps committed moves whole allowed
  simp only [Server.answer, Option.some.injEq] at answered
  cases failed : choice.failure <;> rw [failed] at answered <;> cases answered
  · exact ⟨whole.guarded _ List.mem_cons_self, returned⟩
  · exact ⟨whole.guarded _ List.mem_cons_self, raised _⟩

/-- A row is found missing for sure only by a program alone or under its lock. -/
def Certain (discipline : Discipline V ε) (session : Session V) (key : K) : Prop :=
  discipline.shared = false ∨ key ∈ session.current.locks

private theorem absent_certain {choice : Choice Ω ε} (attentive : discipline.shared = false → choice.miss = false)
    (gone : Server.missed choice session key = true ∨ session.view.lookup key = none) (certain : Certain discipline session key) :
    session.view.lookup key = none := by
  refine gone.resolve_left fun missed => ?_
  rcases certain with alone | held
  · simp [Server.missed, attentive alone] at missed
  · simp [Server.missed, held] at missed

theorem lock {post : Except ε (Option (V key)) → Session V → Prop}
    (steps : ∀ committed, discipline.Moves session committed → (session.seeing committed).Whole discipline.guard →
      (∀ error, post (.error error) (session.seeing committed)) ∧
        ((Certain discipline session key → (session.seeing committed).view.lookup key = none) →
          post (.ok none) (session.seeing committed)) ∧
        (∀ value, (session.seeing committed).view.lookup key = some value →
          post (.ok (some value)) ((session.seeing committed).hold key))) :
    discipline.Holds server post (Tx.lock key : Tx V Ω ε _) session := by
  refine perform (by simp) ?_
  intro committed moves whole allowed choice attentive reply after answered
  obtain ⟨raised, absent, present⟩ := steps committed moves whole
  have guarded := whole.guarded _ List.mem_cons_self
  obtain ⟨-, ⟨error, rfl, rfl⟩ | ⟨-, work⟩⟩ := Server.executed answered
  · exact ⟨guarded, raised _⟩
  obtain ⟨gone, rfl, rfl⟩ | ⟨value, -, found, work⟩ := Server.reached work
  · exact ⟨guarded, absent (absent_certain attentive gone)⟩
  · cases work
    exact ⟨fun other written => List.mem_cons_of_mem _ (guarded other written), present value found⟩

/-- The key is its own guard, or its guard is already locked. -/
def Guarding (discipline : Discipline V ε) (session : Session V) (key : K) : Prop :=
  discipline.guard key = key ∨ discipline.guard key ∈ session.current.locks

omit [DecidableEq K] in
private theorem write_guarded {value : Option (V key)} (whole : session.Whole discipline.guard)
    (guarding : Guarding discipline session key) :
    ∀ other ∈ (session.write key value).current.writes.keys,
      discipline.guard other ∈ (session.write key value).current.locks := by
  intro other written
  rcases List.mem_cons.mp written with rfl | earlier
  · rcases guarding with own | held
    · exact own.symm ▸ List.mem_cons_self
    · exact List.mem_cons_of_mem _ held
  · exact List.mem_cons_of_mem _ (whole.guarded _ List.mem_cons_self other earlier)

theorem insert {value : V key} {held : List K} {post : Except ε Unit → Session V → Prop}
    (guarding : Guarding discipline session key)
    (steps : ∀ committed, discipline.Moves session committed → (session.seeing committed).Whole discipline.guard →
      discipline.allowed (session.seeing committed) (.insert key value held) →
      (∀ error, post (.error error) (session.seeing committed)) ∧
        ((session.seeing committed).view.lookup key = none →
          post (.ok ()) ((session.seeing committed).write key (some value)))) :
    discipline.Holds server post (Tx.insert key value held : Tx V Ω ε _) session := by
  refine perform (by simp) ?_
  intro committed moves whole allowed choice attentive reply after answered
  obtain ⟨raised, written⟩ := steps committed moves whole allowed
  have guarded := whole.guarded _ List.mem_cons_self
  obtain ⟨-, ⟨error, rfl, rfl⟩ | ⟨-, work⟩⟩ := Server.executed answered
  · exact ⟨guarded, raised _⟩
  split at work <;> cases work
  · exact ⟨guarded, raised _⟩
  next absent => exact ⟨write_guarded whole guarding, written absent⟩

theorem update {change : V key → Except ε (V key)} {held : List K} {seen : Bool} {post : Except ε Bool → Session V → Prop}
    (guarding : Guarding discipline session key)
    (steps : ∀ committed, discipline.Moves session committed → (session.seeing committed).Whole discipline.guard →
      discipline.allowed (session.seeing committed) (.update key change held seen) →
      (∀ error, post (.error error) (session.seeing committed)) ∧
        ((Certain discipline session key → (session.seeing committed).view.lookup key = none) →
          post (.ok false) (session.seeing committed)) ∧
        (∀ old new, (session.seeing committed).view.lookup key = some old → change old = .ok new →
          post (.ok true) ((session.seeing committed).write key (some new)))) :
    discipline.Holds server post (Tx.update key change held seen : Tx V Ω ε _) session := by
  refine perform (by simp) ?_
  intro committed moves whole allowed choice attentive reply after answered
  obtain ⟨raised, unmatched, written⟩ := steps committed moves whole allowed
  have guarded := whole.guarded _ List.mem_cons_self
  obtain ⟨-, ⟨error, rfl, rfl⟩ | ⟨-, work⟩⟩ := Server.executed answered
  · exact ⟨guarded, raised _⟩
  obtain ⟨gone, rfl, rfl⟩ | ⟨old, -, found, work⟩ := Server.reached work
  · exact ⟨guarded, unmatched (absent_certain attentive gone)⟩
  split at work <;> cases work
  · exact ⟨guarded, raised _⟩
  next new changed => exact ⟨write_guarded whole guarding, written old new found changed⟩

theorem delete {held : List K} {seen : Bool} {post : Except ε Bool → Session V → Prop}
    (guarding : Guarding discipline session key)
    (steps : ∀ committed, discipline.Moves session committed → (session.seeing committed).Whole discipline.guard →
      discipline.allowed (session.seeing committed) (.delete key held seen) →
      (∀ error, post (.error error) (session.seeing committed)) ∧
        ((Certain discipline session key → (session.seeing committed).view.lookup key = none) →
          post (.ok false) (session.seeing committed)) ∧
        (∀ old, (session.seeing committed).view.lookup key = some old →
          post (.ok true) ((session.seeing committed).write key none))) :
    discipline.Holds server post (Tx.delete key held seen : Tx V Ω ε _) session := by
  refine perform (by simp) ?_
  intro committed moves whole allowed choice attentive reply after answered
  obtain ⟨raised, unmatched, written⟩ := steps committed moves whole allowed
  have guarded := whole.guarded _ List.mem_cons_self
  obtain ⟨-, ⟨error, rfl, rfl⟩ | ⟨-, work⟩⟩ := Server.executed answered
  · exact ⟨guarded, raised _⟩
  obtain ⟨gone, rfl, rfl⟩ | ⟨old, -, found, work⟩ := Server.reached work
  · exact ⟨guarded, unmatched (absent_certain attentive gone)⟩
  · cases work
    exact ⟨write_guarded whole guarding, written old found⟩

/-- An atomic block either closes on what its body returned, or leaves nothing
behind but the moves of the others. -/
theorem atomic {body : Tx V Ω ε α}
    (run : ∀ committed, discipline.Moves session committed → (session.seeing committed).Whole discipline.guard →
      discipline.Holds server middle body (session.seeing committed).enter)
    (closes : ∀ value final committed, middle (.ok value) final → final.saved = session.current :: session.saved →
      discipline.Moves final committed → (final.seeing committed).Whole discipline.guard →
        (session.saved = [] → discipline.kept (final.seeing committed).view) ∧
          post (.ok value) (final.seeing committed).leave)
    (raised : ∀ error committed, discipline.Moves session committed →
      (session.seeing committed).Whole discipline.guard → post (.error error) (session.seeing committed)) :
    discipline.Holds server post (Tx.atomic body) session := by
  intro whole committed moves _ choice _ reply after answered
  have seen : (session.seeing committed).Whole discipline.guard := ⟨whole.guarded, whole.nested, whole.opened⟩
  simp only [Server.answer, Option.some.injEq] at answered
  cases failed : choice.failure <;> rw [failed] at answered <;> cases answered
  swap
  · exact ⟨⟨whole.guarded _ List.mem_cons_self, .inl rfl⟩, Framed.of_moves moves, raised _ committed moves seen⟩
  refine ⟨⟨whole.guarded _ List.mem_cons_self, .inl rfl⟩, ?_⟩
  change discipline.Safe server _ (body.attempt.bind _) _
  refine Safe.bind (Safe.attempt (Safe.weaken (run committed moves seen) ?_))
  intro result final ended
  obtain ⟨framed, reached⟩ := ended
  have opened : (session.seeing committed).enter.saved ≠ [] := List.cons_ne_nil _ _
  have saves : final.saved = session.current :: session.saved := framed.saved
  -- Whatever happens from here on, an undone session is the first one, moved on.
  have onward {later : Log V} (moves' : discipline.Moves final later) : discipline.Moves session later :=
    have inside := framed.onward opened moves'
    Moves.trans (session.seeing committed) moves (List.Subset.refl _) ⟨inside.kept, inside.alone, inside.guarded⟩
  have undone (later : Log V) : (final.seeing later).undo = session.seeing later := by
    simp only [Session.undo, Session.seeing, saves]
  have abandon (error : ε) {later : Log V} (moves' : discipline.Moves final later) :
      discipline.Guaranteed (final.seeing later) (final.seeing later).undo ∧
        discipline.Framed session (final.seeing later).undo ∧ post (.error error) (final.seeing later).undo := by
    rw [undone]
    exact ⟨⟨whole.guarded _ List.mem_cons_self, .inl rfl⟩, Framed.of_moves (onward moves'),
      raised error later (onward moves') ⟨whole.guarded, whole.nested, whole.opened⟩⟩
  cases result with
  | error error =>
    intro _ later moves' _ choice _ reply after answered
    simp only [Server.answer, Option.some.injEq] at answered
    cases failed : choice.failure <;> rw [failed] at answered <;> cases answered <;> exact abandon _ moves'
  | ok value =>
    intro whole' later moves' _ choice _ reply after answered
    obtain ⟨kept, done⟩ := closes value final later reached saves moves' ⟨whole'.guarded, whole'.nested, whole'.opened⟩
    simp only [Server.answer] at answered
    cases failed : choice.failure <;> rw [failed] at answered
    swap
    · cases answered
      exact abandon _ moves'
    simp only [Server.leave] at answered
    have saves' : (final.seeing later).saved = session.current :: session.saved := saves
    cases outer : session.saved with
    | nil =>
      rw [saves', outer] at answered
      simp only at answered
      split at answered <;> cases answered
      · simp only [Session.leave, saves', outer] at done
        exact ⟨⟨by simp [Session.commit, Session.idle], .inr (kept outer)⟩,
          ⟨outer.symm, fun opened => absurd outer opened, fun opened => absurd outer opened⟩, done⟩
      · exact abandon _ moves'
    | cons frame rest =>
      rw [saves', outer] at answered
      cases answered
      simp only [Session.leave, saves', outer] at done
      exact ⟨⟨whole'.guarded _ List.mem_cons_self, .inl rfl⟩,
        ⟨outer.symm, fun _ => framed.locks opened, fun _ => .inr (onward moves')⟩, done⟩

end Holds
/-- Statements that read, lock or ask. -/
def Reads : Request V ε → Prop
  | .get _ | .scan _ _ | .lock _ | .ask => True
  | _ => False

private theorem reads_outcome {choice : Choice Ω ε} {request : Request V ε} {after : Session V} (reads : Reads request)
    (outcome : Server.Outcome choice request session after) : after = session ∨ ∃ key, after = session.hold key := by
  have unwritten : request.written = none ∧ request ≠ .enter ∧ request ≠ .leave ∧ request ≠ .undo := by
    cases request <;> simp_all [Reads, Request.written]
  cases outcome with
  | same => exact .inl rfl
  | held key => exact .inr ⟨key, rfl⟩
  | written key value _ _ writes => rw [unwritten.1] at writes; cases writes
  | entered entering => exact absurd entering unwritten.2.1
  | left leaving => exact absurd leaving unwritten.2.2.1
  | undone closing => exact (closing.elim unwritten.2.2.1 unwritten.2.2.2).elim

/-- What moves and new locks cannot disturb survives every program that only reads. -/
theorem Holds.reads {assertion : Session V → Prop} (only : program.Only Reads)
    (moved : ∀ session committed, session.Whole discipline.guard → discipline.Moves session committed →
      assertion session → assertion (session.seeing committed))
    (locked : ∀ session key, assertion session → assertion (session.hold key)) (start : assertion session) :
    discipline.Holds server (Always assertion) program session := by
  induction program generalizing session with
  | pure value => exact Holds.pure start
  | raise error => exact Holds.raise start
  | request request next ih =>
    obtain ⟨reads, rest⟩ := only
    intro whole committed moves allowed choice attentive reply after answered
    have here := moved session committed whole moves start
    have guarded := whole.guarded _ List.mem_cons_self
    have onward (framed : discipline.Framed session after) (reached : assertion after) :
        discipline.Safe server (fun result final => discipline.Framed session final ∧ Always assertion result final)
          (next reply) after :=
      Safe.weaken (ih reply (rest reply) reached) fun result final ⟨framed', reached⟩ =>
        ⟨framed.trans framed', reached⟩
    rcases reads_outcome reads (Server.answer_outcome answered) with rfl | ⟨key, rfl⟩
    · exact ⟨⟨guarded, .inl rfl⟩, onward (Framed.of_moves moves) here⟩
    · exact ⟨⟨fun other written => List.mem_cons_of_mem _ (guarded other written), .inl rfl⟩,
        onward ⟨rfl, fun _ => List.subset_cons_self _ _, fun _ => .inr moves⟩ (locked _ key here)⟩

/-- An assertion that survives moves and the ends of blocks, and that keeps the
store where a transaction commits. At the end of a block it also held at the start. -/
structure Invariant (discipline : Discipline V ε) (assertion : Session V → Prop) : Prop where
  moved : ∀ session committed, session.Whole discipline.guard → discipline.Moves session committed →
    assertion session → assertion (session.seeing committed)
  enter : ∀ session, assertion session → assertion session.enter
  leave : ∀ before session, session.saved = before.current :: before.saved → assertion before →
    assertion session → assertion session.leave
  kept : ∀ before session, session.saved = [before.current] → before.saved = [] → assertion before →
    assertion session → discipline.kept session.view

/-- Programs put together from basic ones. -/
inductive Built (basic : (α : Type) → Tx V Ω ε α → Prop) : {α : Type} → Tx V Ω ε α → Prop where
  | basic {α : Type} {program : Tx V Ω ε α} (is : basic α program) : Built basic program
  | pure {α : Type} (value : α) : Built basic (.pure value)
  | raise {α : Type} (error : ε) : Built basic (.raise error : Tx V Ω ε α)
  | bind {α β : Type} {program : Tx V Ω ε α} {next : α → Tx V Ω ε β} (first : Built basic program)
      (second : ∀ value, Built basic (next value)) : Built basic (program.bind next)
  | tryCatch {α : Type} {body : Tx V Ω ε α} {handler : ε → Tx V Ω ε α} (first : Built basic body)
      (second : ∀ error, Built basic (handler error)) : Built basic (MonadExcept.tryCatch body handler)
  | atomic {α : Type} {body : Tx V Ω ε α} (built : Built basic body) : Built basic (Tx.atomic body)

theorem Invariant.atomic {assertion : Session V → Prop} (invariant : Invariant discipline assertion)
    {body : Tx V Ω ε α} (start : assertion session)
    (run : ∀ session, assertion session → session.saved ≠ [] → discipline.Holds server middle body session)
    (returned : ∀ value final, middle (.ok value) final → assertion final)
    (closes : ∀ value final, (∃ earlier committed, middle (.ok value) earlier ∧ discipline.Moves earlier committed ∧
      earlier.Whole discipline.guard ∧ final = (earlier.seeing committed).leave) → assertion final →
        post (.ok value) final)
    (raised : ∀ error final, assertion final → post (.error error) final) :
    discipline.Holds server post (Tx.atomic body) session := by
  have runs (committed : Log V) (moves : discipline.Moves session committed)
      (whole : (session.seeing committed).Whole discipline.guard) :
      discipline.Holds server middle body (session.seeing committed).enter :=
    run _ (invariant.enter _ (invariant.moved session committed ⟨whole.guarded, whole.nested, whole.opened⟩ moves start))
      (List.cons_ne_nil _ _)
  refine Holds.atomic runs ?_ ?_
  · intro value final committed reached saves moves whole
    have earlier : final.Whole discipline.guard := ⟨whole.guarded, whole.nested, whole.opened⟩
    have here := invariant.moved final committed earlier moves (returned value final reached)
    exact ⟨fun outer => invariant.kept session _ (by rw [← outer]; exact saves) outer start here,
      closes value _ ⟨final, committed, reached, moves, earlier, rfl⟩ (invariant.leave session _ saves start here)⟩
  · intro error committed moves whole
    exact raised error _ (invariant.moved session committed ⟨whole.guarded, whole.nested, whole.opened⟩ moves start)

end Discipline
end Foundation
