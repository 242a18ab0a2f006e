import PyScoped.Foundation.Blocks

/-! Programs over several databases, each reached under its own alias. A block is
opened on one of them and restores that one alone. -/

namespace Foundation

variable {A K : Type} [DecidableEq A] [DecidableEq K] {V : K → Type} {Ω ε α β : Type}

abbrev Routed (A : Type) (V : K → Type) (Ω ε α : Type) :=
  Prog (A × Request V ε) (fun asked => Reply Ω asked.2) ε α

abbrev Databases (A : Type) (V : K → Type) := A → Session V

/-- Statements that neither open nor close a block. -/
def Request.Plain : Request V ε → Prop
  | .enter | .leave | .undo => False
  | _ => True

/-- Statements that leave every session as it is, whether or not a block is open. -/
def Request.Inert : Request V ε → Prop
  | .get _ | .scan _ _ | .ask => True
  | _ => False

namespace Routed

def send (place : A) (request : Request V ε) : Routed A V Ω ε (Reply Ω request) := Prog.perform (place, request)

/-- A program of one database. -/
@[simp] def on (place : A) : Tx V Ω ε α → Routed A V Ω ε α
  | .pure value => .pure value
  | .raise error => .raise error
  | .request asked next => .request (place, asked) fun reply => on place (next reply)

def atomic (place : A) (body : Routed A V Ω ε α) : Routed A V Ω ε α :=
  (send place .enter : Routed A V Ω ε Unit).bind fun _ => body.attempt.bind fun
    | .ok value => (send place .leave : Routed A V Ω ε Unit).bind fun _ => .pure value
    | .error error => (send place .undo : Routed A V Ω ε Unit).bind fun _ => .raise error

/-- Programs put together from statements, blocks, exceptions and control flow. -/
inductive Structured : {α : Type} → Routed A V Ω ε α → Prop where
  | pure {α : Type} (value : α) : Structured (.pure value)
  | raise {α : Type} (error : ε) : Structured (.raise error : Routed A V Ω ε α)
  | statement (place : A) (request : Request V ε) (plain : request.Plain) : Structured (send place request)
  | bind {α β : Type} {program : Routed A V Ω ε α} {next : α → Routed A V Ω ε β} (first : Structured program)
      (second : ∀ value, Structured (next value)) : Structured (program.bind next)
  | attempt {α : Type} {program : Routed A V Ω ε α} (inner : Structured program) : Structured program.attempt
  | atomic {α : Type} (place : A) {body : Routed A V Ω ε α} (inner : Structured body) : Structured (atomic place body)

/-- A run that nobody interferes with, in which any statement may fail. -/
def Runs (server : Server V ε) : Routed A V Ω ε α → Databases A V → Except ε α → Databases A V → Prop
  | .pure value, databases, result, final => result = .ok value ∧ final = databases
  | .raise error, databases, result, final => result = .error error ∧ final = databases
  | .request asked next, databases, result, final =>
    ∃ choice : Choice Ω ε, choice.miss = false ∧ ∃ reply after,
      server.answer choice (databases asked.1) asked.2 = some (reply, after) ∧
        Runs server (next reply) (Function.update databases asked.1 after) result final

/-- The same run, driven by a list of choices. -/
def play (server : Server V ε) :
    List (Choice Ω ε) → Routed A V Ω ε α → Databases A V → Option (Except ε α × Databases A V)
  | _, .pure value, databases => some (.ok value, databases)
  | _, .raise error, databases => some (.error error, databases)
  | [], .request _ _, _ => none
  | choice :: choices, .request asked next, databases =>
    if choice.miss then none else
    match server.answer choice (databases asked.1) asked.2 with
    | none => none
    | some (reply, after) => play server choices (next reply) (Function.update databases asked.1 after)

variable {server : Server V ε} {databases final : Databases A V}
variable {result : Except ε α} {program : Routed A V Ω ε α}

theorem play_runs {choices : List (Choice Ω ε)}
    (played : play server choices program databases = some (result, final)) :
    Runs server program databases result final := by
  induction program generalizing choices databases with
  | pure value | raise error =>
    cases choices <;> simp only [play, Option.some.injEq, Prod.mk.injEq] at played <;>
      exact ⟨played.1.symm, played.2.symm⟩
  | request asked next ih =>
    cases choices with
    | nil => simp only [play, reduceCtorEq] at played
    | cons choice choices =>
      simp only [play] at played
      split at played
      · cases played
      next attentive =>
        split at played
        · cases played
        next reply after answered =>
          exact ⟨choice, by simpa using attentive, reply, after, answered, ih reply played⟩

theorem runs_ofExcept {computed : Except ε α} :
    Runs server (Prog.ofExcept computed : Routed A V Ω ε α) databases result final ↔
      result = computed ∧ final = databases := by
  cases computed <;> rfl

variable {place : A}

theorem runs_send {request : Request V ε} {result : Except ε (Reply Ω request)} :
    Runs server (send place request) databases result final ↔
      ∃ choice : Choice Ω ε, choice.miss = false ∧ ∃ after,
        server.answer choice (databases place) request = some (result, after) ∧
          final = Function.update databases place after := by
  constructor
  · rintro ⟨choice, attentive, reply, after, answered, ran⟩
    obtain ⟨rfl, rfl⟩ := runs_ofExcept.mp ran
    exact ⟨choice, attentive, after, answered, rfl⟩
  · rintro ⟨choice, attentive, after, answered, rfl⟩
    exact ⟨choice, attentive, result, after, answered, runs_ofExcept.mpr ⟨rfl, rfl⟩⟩

theorem runs_bind {next : α → Routed A V Ω ε β} {result : Except ε β} :
    Runs server (program.bind next) databases result final ↔
      (∃ error, result = .error error ∧ Runs server program databases (.error error) final) ∨
        ∃ value middle, Runs server program databases (.ok value) middle ∧
          Runs server (next value) middle result final := by
  induction program generalizing databases with
  | pure value => simp [Prog.bind, Runs]
  | raise error => simp [Prog.bind, Runs]
  | request asked rest ih =>
    simp only [Prog.bind, Runs, ih]
    constructor
    · rintro ⟨choice, attentive, reply, after, answered, ⟨error, raised, ran⟩ | ⟨value, middle, first, second⟩⟩
      · exact .inl ⟨error, raised, choice, attentive, reply, after, answered, ran⟩
      · exact .inr ⟨value, middle, ⟨choice, attentive, reply, after, answered, first⟩, second⟩
    · rintro (⟨error, raised, choice, attentive, reply, after, answered, ran⟩ |
        ⟨value, middle, ⟨choice, attentive, reply, after, answered, first⟩, second⟩)
      · exact ⟨choice, attentive, reply, after, answered, .inl ⟨error, raised, ran⟩⟩
      · exact ⟨choice, attentive, reply, after, answered, .inr ⟨value, middle, first, second⟩⟩

theorem runs_attempt {result : Except ε (Except ε α)} :
    Runs server program.attempt databases result final ↔
      ∃ inner, result = .ok inner ∧ Runs server program databases inner final := by
  induction program generalizing databases with
  | pure value => simp [Prog.attempt, Runs]
  | raise error => simp [Prog.attempt, Runs]
  | request asked rest ih =>
    simp only [Prog.attempt, Runs, ih]
    constructor
    · rintro ⟨choice, attentive, reply, after, answered, inner, returned, ran⟩
      exact ⟨inner, returned, choice, attentive, reply, after, answered, ran⟩
    · rintro ⟨inner, returned, choice, attentive, reply, after, answered, ran⟩
      exact ⟨choice, attentive, reply, after, answered, inner, returned, ran⟩

omit [DecidableEq A] [DecidableEq K] in
@[simp] theorem on_bind (place : A) (program : Tx V Ω ε α) (next : α → Tx V Ω ε β) :
    on place (program.bind next) = (on place program).bind fun value => on place (next value) := by
  induction program with
  | pure value | raise error => rfl
  | request asked rest ih => simp only [Prog.bind, on, ih]

omit [DecidableEq A] [DecidableEq K] in
@[simp] theorem on_attempt (place : A) (program : Tx V Ω ε α) :
    on place program.attempt = (on place program).attempt := by
  induction program with
  | pure value | raise error => rfl
  | request asked rest ih => simp only [Prog.attempt, on, ih]

omit [DecidableEq A] [DecidableEq K] in
theorem on_ofExcept (place : A) (computed : Except ε α) :
    on place (Prog.ofExcept computed : Tx V Ω ε α) = Prog.ofExcept computed := by
  cases computed <;> rfl

omit [DecidableEq A] [DecidableEq K] in
theorem on_perform (place : A) (request : Request V ε) :
    on place (Prog.perform request : Tx V Ω ε _) = send place request := by
  simp only [Prog.perform, on, on_ofExcept, send]

omit [DecidableEq A] [DecidableEq K] in
theorem on_atomic (place : A) (body : Tx V Ω ε α) : on place (Tx.atomic body) = atomic place (on place body) := by
  unfold Tx.atomic atomic
  rw [on_bind, on_perform]
  refine congrArg _ (funext fun _ => ?_)
  rw [on_bind, on_attempt]
  refine congrArg _ (funext fun result => ?_)
  cases result <;> simp only [on_bind, on_perform] <;> rfl

omit [DecidableEq A] [DecidableEq K] in
theorem on_only (place : A) (program : Tx V Ω ε α) : (on place program).Only fun asked => asked.1 = place := by
  induction program with
  | pure value | raise error => trivial
  | request asked next ih => exact ⟨rfl, fun reply => ih reply⟩

/-- Every savepoint is as it was found, and inside a transaction nothing is committed. -/
structure Framed (before after : Databases A V) : Prop where
  saved : ∀ place, (after place).saved = (before place).saved
  committed : ∀ place, (before place).saved ≠ [] → (after place).committed = (before place).committed

omit [DecidableEq A] [DecidableEq K] in
theorem Framed.refl : Framed databases databases := ⟨fun _ => rfl, fun _ _ => rfl⟩

omit [DecidableEq A] [DecidableEq K] in
theorem Framed.trans {middle : Databases A V} (first : Framed databases middle) (second : Framed middle final) :
    Framed databases final := by
  refine ⟨fun place => (second.saved place).trans (first.saved place), fun place opened => ?_⟩
  have later : (middle place).saved ≠ [] := by rwa [first.saved place]
  exact (second.committed place later).trans (first.committed place opened)

variable {after : Session V}

omit [DecidableEq K] in
theorem Framed.update (saved : after.saved = (databases place).saved)
    (committed : (databases place).saved ≠ [] → after.committed = (databases place).committed) :
    Framed databases (Function.update databases place after) := by
  constructor
  · intro other
    by_cases same : other = place
    · rw [same, Function.update_self, saved]
    · rw [Function.update_of_ne same]
  · intro other opened
    by_cases same : other = place
    · rw [same] at opened
      rw [same, Function.update_self, committed opened]
    · rw [Function.update_of_ne same]

theorem plain_framed {request : Request V ε} {choice : Choice Ω ε} {reply : Except ε (Reply Ω request)}
    {session : Session V} (plain : request.Plain) (answered : server.answer choice session request = some (reply, after)) :
    after.saved = session.saved ∧ after.committed = session.committed := by
  cases Server.answer_outcome answered with
  | same | held key | written key => exact ⟨rfl, rfl⟩
  | entered entering => exact (entering ▸ plain : Request.Plain .enter).elim
  | left leaving => exact (leaving ▸ plain : Request.Plain .leave).elim
  | undone closing =>
    rcases closing with rfl | rfl <;> exact plain.elim

/-- What a block that was opened amounts to: its body, and how it closes. -/
inductive Closes (server : Server V ε) (place : A) (middle : Databases A V) :
    Except ε α → Except ε α → Databases A V → Prop where
  | left (value : α) {after : Session V} (leaves : server.leave (middle place) = some (.ok (), after)) :
      Closes server place middle (.ok value) (.ok value) (Function.update middle place after)
  | undone (inner : Except ε α) (error : ε) :
      Closes server place middle inner (.error error) (Function.update middle place (middle place).undo)

omit [DecidableEq K] in
private theorem leave_error {session : Session V} {error : ε}
    (leaves : server.leave session = some (.error error, after)) : after = session.undo := by
  unfold Server.leave at leaves
  split at leaves
  · cases leaves
  · split at leaves <;> cases leaves
    rfl
  · cases leaves

variable {body : Routed A V Ω ε α}

theorem runs_atomic (ran : Runs server (atomic place body) databases result final) :
    (∃ error, result = .error error ∧ final = databases) ∨
      ∃ inner middle, Runs server body (Function.update databases place (databases place).enter) inner middle ∧
        Closes server place middle inner result final := by
  rcases runs_bind.mp ran with ⟨error, rfl, entering⟩ | ⟨_, entered, entering, ran⟩
  all_goals
    obtain ⟨choice, _, after, answered, rfl⟩ := runs_send.mp entering
    simp only [Server.answer, Option.some.injEq] at answered
    cases failed : choice.failure <;> rw [failed] at answered <;> cases answered
  · exact .inl ⟨_, rfl, Function.update_eq_self _ _⟩
  · refine .inr ?_
    rcases runs_bind.mp ran with ⟨error, rfl, attempted⟩ | ⟨inner, middle, attempted, closing⟩
    · obtain ⟨_, impossible, _⟩ := runs_attempt.mp attempted
      cases impossible
    obtain ⟨_, same, ran⟩ := runs_attempt.mp attempted
    cases same
    refine ⟨inner, middle, ran, ?_⟩
    cases inner with
    | error error =>
      rcases runs_bind.mp closing with ⟨other, rfl, undoing⟩ | ⟨_, closed, undoing, raised⟩
      · obtain ⟨choice, _, after, answered, rfl⟩ := runs_send.mp undoing
        simp only [Server.answer, Option.some.injEq] at answered
        cases failed : choice.failure <;> rw [failed] at answered <;> cases answered
        exact .undone _ other
      · obtain ⟨rfl, rfl⟩ := raised
        obtain ⟨choice, _, after, answered, rfl⟩ := runs_send.mp undoing
        simp only [Server.answer, Option.some.injEq] at answered
        cases failed : choice.failure <;> rw [failed] at answered <;> cases answered
        exact .undone _ error
    | ok value =>
      rcases runs_bind.mp closing with ⟨error, rfl, leaving⟩ | ⟨_, closed, leaving, returned⟩
      · obtain ⟨choice, _, after, answered, rfl⟩ := runs_send.mp leaving
        simp only [Server.answer] at answered
        cases failed : choice.failure <;> rw [failed] at answered
        · rw [leave_error answered]
          exact .undone _ error
        · cases answered
          exact .undone _ _
      · obtain ⟨rfl, rfl⟩ := returned
        obtain ⟨choice, _, after, answered, rfl⟩ := runs_send.mp leaving
        simp only [Server.answer] at answered
        cases failed : choice.failure <;> rw [failed] at answered
        · exact .left value answered
        · cases answered

omit [DecidableEq K] in
private theorem leave_saved {session : Session V} (leaves : server.leave session = some (.ok (), after)) :
    after.saved = session.saved.tail ∧ (session.saved.tail ≠ [] → after.committed = session.committed) := by
  unfold Server.leave at leaves
  cases saves : session.saved with
  | nil => rw [saves] at leaves; cases leaves
  | cons frame rest =>
    rw [saves] at leaves
    cases rest with
    | nil =>
      simp only at leaves
      split at leaves <;> cases leaves
      exact ⟨rfl, fun nonempty => absurd rfl nonempty⟩
    | cons outer saved =>
      cases leaves
      exact ⟨rfl, fun _ => rfl⟩

theorem Structured.framed (structured : Structured program)
    (ran : Runs server program databases result final) : Framed databases final := by
  induction structured generalizing databases final with
  | pure value | raise error =>
    obtain ⟨_, rfl⟩ := ran
    exact .refl
  | statement place request plain =>
    obtain ⟨choice, _, after, answered, rfl⟩ := runs_send.mp ran
    obtain ⟨saved, committed⟩ := plain_framed plain answered
    exact .update saved fun _ => committed
  | bind _ _ first second =>
    rcases runs_bind.mp ran with ⟨error, rfl, started⟩ | ⟨value, middle, started, continued⟩
    · exact first started
    · exact (first started).trans (second value continued)
  | attempt _ inner =>
    obtain ⟨_, _, ran⟩ := runs_attempt.mp ran
    exact inner ran
  | atomic place _ inner =>
    rcases runs_atomic ran with ⟨error, rfl, rfl⟩ | ⟨_, middle, ran, closes⟩
    · exact .refl
    have framed := inner ran
    have saves : (middle place).saved = (databases place).current :: (databases place).saved := by
      rw [framed.saved place, Function.update_self]
      rfl
    have others (other : A) (ne : other ≠ place) : (middle other).saved = (databases other).saved ∧
        ((databases other).saved ≠ [] → (middle other).committed = (databases other).committed) := by
      have saved := framed.saved other
      have committed := framed.committed other
      rw [Function.update_of_ne ne] at saved committed
      exact ⟨saved, committed⟩
    have here : (middle place).committed = (databases place).committed := by
      have committed := framed.committed place
      rw [Function.update_self] at committed
      exact committed (List.cons_ne_nil _ _)
    -- The block's own database loses the frame that the block had saved.
    have closed : ∃ after, final = Function.update middle place after ∧ after.saved = (databases place).saved ∧
        ((databases place).saved ≠ [] → after.committed = (databases place).committed) := by
      cases closes with
      | left value leaves =>
        obtain ⟨saved, committed⟩ := leave_saved leaves
        rw [saves] at saved committed
        exact ⟨_, rfl, saved, fun opened => (committed opened).trans here⟩
      | undone inner error =>
        refine ⟨_, rfl, ?_, fun _ => ?_⟩
        · simp only [Session.undo, saves]
        · simp only [Session.undo, saves, here]
    obtain ⟨after, rfl, saved, committed⟩ := closed
    constructor
    · intro other
      by_cases same : other = place
      · rw [same, Function.update_self, saved]
      · rw [Function.update_of_ne same, (others other same).1]
    · intro other opened
      by_cases same : other = place
      · rw [same] at opened
        rw [same, Function.update_self, committed opened]
      · rw [Function.update_of_ne same, (others other same).2 opened]

omit [DecidableEq A] [DecidableEq K] in
/-- Programs of one database that are put together in this way are so among several. -/
theorem Structured.on {program : Tx V Ω ε α}
    (built : Discipline.Built (fun _ program => program.Only Request.Plain) program) :
    Structured (Routed.on place program) := by
  induction built with
  | basic only =>
    rename_i program
    induction program with
    | pure value => exact .pure value
    | raise error => exact .raise error
    | request asked next ih =>
      have stepped : Routed.on place (.request asked next) =
          (send place asked : Routed A V Ω ε _).attempt.bind fun reply => Routed.on place (next reply) := by
        change Prog.request _ _ = Prog.request _ _
        refine congrArg _ (funext fun reply => ?_)
        cases reply <;> rfl
      rw [stepped]
      exact .bind (.attempt (.statement place asked only.1)) fun reply => ih reply (only.2 reply)
  | pure value => exact .pure value
  | raise error => exact .raise error
  | bind _ _ first second =>
    rw [on_bind]
    exact .bind first second
  | tryCatch _ _ first second =>
    refine cast (congrArg Structured (on_bind place _ _).symm) (.bind ?_ fun result => ?_)
    · rw [on_attempt]
      exact .attempt first
    · cases result with
      | ok value => exact .pure value
      | error error => exact second error
  | atomic _ inner =>
    rw [on_atomic]
    exact .atomic place inner

/-- A block that raises leaves its database as it was. -/
theorem Structured.restored (structured : Structured body) {error : ε}
    (ran : Runs server (Routed.atomic place body) databases (.error error) final) : final place = databases place := by
  rcases runs_atomic ran with ⟨_, _, rfl⟩ | ⟨_, middle, ran, closes⟩
  · rfl
  have framed := structured.framed ran
  have saved := framed.saved place
  have committed := framed.committed place
  rw [Function.update_self] at saved committed
  cases closes with
  | undone inner error =>
    rw [Function.update_self]
    simp only [Session.undo, saved, Session.enter, committed (List.cons_ne_nil _ _)]

/-- Statements elsewhere than on a database neither see nor change what blocks are open on it. -/
theorem Runs.entered (only : program.Only fun asked => asked.1 = place → asked.2.Inert)
    (ran : Runs server program databases result final) :
    final place = databases place ∧
      Runs server program (Function.update databases place (databases place).enter) result
        (Function.update final place (final place).enter) := by
  induction program generalizing databases with
  | pure value | raise error =>
    obtain ⟨rfl, rfl⟩ := ran
    exact ⟨rfl, rfl, rfl⟩
  | request asked next ih =>
    obtain ⟨choice, attentive, reply, after, answered, ran⟩ := ran
    obtain ⟨same, ran'⟩ := ih reply (only.2 reply) ran
    by_cases here : asked.1 = place
    · subst here
      have inert : after = databases asked.1 ∧ server.answer choice (databases asked.1).enter asked.2 =
          some (reply, (databases asked.1).enter) := by
        have inert := only.1 rfl
        obtain ⟨place, request⟩ := asked
        cases request <;> first | exact inert.elim | skip
        all_goals
          simp only [Server.answer, Option.some.injEq] at answered ⊢
          cases failed : choice.failure <;> rw [failed] at answered <;> cases answered <;> exact ⟨rfl, rfl⟩
      obtain ⟨rfl, answered'⟩ := inert
      rw [Function.update_eq_self] at ran ran' same
      refine ⟨same, choice, attentive, reply, (databases asked.1).enter, ?_, ?_⟩
      · rw [Function.update_self]
        exact answered'
      · rw [Function.update_idem]
        exact ran'
    · have other : place ≠ asked.1 := fun same => here same.symm
      rw [Function.update_of_ne other] at same ran'
      refine ⟨same, choice, attentive, reply, after, ?_, ?_⟩
      · rw [Function.update_of_ne here]
        exact answered
      · rw [Function.update_comm other]
        exact ran'

/-- A run that issues a statement has an environment that answers. -/
theorem Runs.asked (ran : Runs server program databases result final) : final = databases ∨ Nonempty Ω := by
  cases program with
  | pure value | raise error => exact .inl ran.2
  | request asked next =>
    obtain ⟨choice, _⟩ := ran
    exact .inr ⟨choice.oracle⟩

/-- A block on one database takes back nothing of what its body did to another,
whether the body raised or the block fails to close. -/
theorem Runs.elsewhere [Nonempty Ω] (failure : ε)
    (only : body.Only fun asked => asked.1 = place → asked.2.Inert) (ran : Runs server body databases result final) :
    ∃ error, Runs server (Routed.atomic place body) databases (.error error) final := by
  obtain ⟨oracle⟩ := ‹Nonempty Ω›
  obtain ⟨same, inside⟩ := ran.entered only
  have enters : Runs server (send place .enter : Routed A V Ω ε Unit) databases (.ok ())
      (Function.update databases place (databases place).enter) :=
    runs_send.mpr ⟨⟨none, false, oracle⟩, rfl, _, rfl, rfl⟩
  have back : Function.update (Function.update final place (final place).enter) place (final place) = final := by
    rw [Function.update_idem, Function.update_eq_self]
  have reaches {error : ε} (closing : Runs server
      (match result with
        | .ok value => (send place .leave : Routed A V Ω ε Unit).bind fun _ => Prog.pure value
        | .error error => (send place .undo : Routed A V Ω ε Unit).bind fun _ => Prog.raise error)
      (Function.update final place (final place).enter) (.error error) final) :
      Runs server (Routed.atomic place body) databases (.error error) final :=
    runs_bind.mpr (.inr ⟨(), _, enters, runs_bind.mpr (.inr ⟨result, _, runs_attempt.mpr ⟨_, rfl, inside⟩, closing⟩)⟩)
  cases result with
  | error error =>
    refine ⟨error, reaches (runs_bind.mpr (.inr ⟨(), final, runs_send.mpr ?_, rfl, rfl⟩))⟩
    exact ⟨⟨none, false, oracle⟩, rfl, final place, by rw [Function.update_self]; rfl, back.symm⟩
  | ok value =>
    refine ⟨failure, reaches (runs_bind.mpr (.inl ⟨failure, rfl, runs_send.mpr ?_⟩))⟩
    exact ⟨⟨some failure, false, oracle⟩, rfl, final place, by rw [Function.update_self]; rfl, back.symm⟩

end Routed
end Foundation
