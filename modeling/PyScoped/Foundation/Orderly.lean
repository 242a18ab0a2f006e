import PyScoped.Foundation.Blocks

/-! Runs whose statements fail with errors of the database's own alone. Any other
error that such a run raises, the program has raised itself. -/

namespace Foundation

variable {K : Type} {V : K → Type} {Ω ε α β : Type}

/-- What a statement computes from the row it finds raises the named errors alone. -/
def Request.Raises (own : ε → Prop) : Request V ε → Prop
  | .update _ change _ _ => ∀ value error, change value = .error error → own error
  | _ => True

/-- Every error the program can raise is a named one, if those of its statements are. -/
def Raises (own : ε → Prop) : Tx V Ω ε α → Prop
  | .pure _ => True
  | .raise error => own error
  | .request request next =>
    request.Raises own ∧ ∀ reply, (∀ error, reply = .error error → own error) → Raises own (next reply)

variable {computed : Except ε α} {body program : Tx V Ω ε α} {next : α → Tx V Ω ε β}

namespace Raises

variable {own : ε → Prop}

theorem bind (first : Raises own program)
    (second : ∀ value, Raises own (next value)) : Raises own (program.bind next) := by
  induction program with
  | pure value => exact second value
  | raise error => exact first
  | request request rest ih => exact ⟨first.1, fun reply answered => ih reply (first.2 reply answered)⟩

/-- A program that goes on with the exception of another. -/
theorem attempting {next : Except ε α → Tx V Ω ε β} (first : Raises own program)
    (returned : ∀ value, Raises own (next (.ok value))) (raised : ∀ error, own error → Raises own (next (.error error))) :
    Raises own (program.attempt.bind next) := by
  induction program with
  | pure value => exact returned value
  | raise error => exact raised error first
  | request request rest ih => exact ⟨first.1, fun reply answered => ih reply (first.2 reply answered)⟩

theorem ofExcept (raised : ∀ error, computed = .error error → own error) :
    Raises own (Prog.ofExcept computed : Tx V Ω ε α) := by
  cases computed with
  | ok value => trivial
  | error error => exact raised error rfl

theorem lift (raised : ∀ error, computed = .error error → own error)
    (second : ∀ value, computed = .ok value → Raises own (next value)) :
    Raises own ((Prog.ofExcept computed : Tx V Ω ε α).bind next) := by
  cases computed with
  | ok value => exact second value rfl
  | error error => exact raised error rfl

theorem perform {request : Request V ε} (raised : request.Raises own) :
    Raises own (Prog.perform request : Tx V Ω ε (Reply Ω request)) :=
  ⟨raised, fun _ answered => ofExcept answered⟩

theorem tryCatch {handler : ε → Tx V Ω ε α} (first : Raises own body)
    (second : ∀ error, own error → Raises own (handler error)) : Raises own (MonadExcept.tryCatch body handler) :=
  attempting first (fun _ => trivial) second

theorem atomic (inner : Raises own body) : Raises own (Tx.atomic body) :=
  bind (perform trivial) fun _ => attempting inner (fun _ => bind (perform trivial) fun _ => trivial)
    fun _ raised => bind (perform trivial) fun _ => raised

theorem forM {items : List α} {each : α → Tx V Ω ε PUnit} (inner : ∀ item ∈ items, Raises own (each item)) :
    Raises own (items.forM each) := by
  induction items with
  | nil => trivial
  | cons item items ih =>
    exact bind (inner item List.mem_cons_self) fun _ => ih fun other member => inner other (List.mem_cons_of_mem _ member)

end Raises

variable [DecidableEq K]

namespace Server

/-- A run of one program that nobody interferes with. No row is passed over, and
a statement that fails raises an error of the database's own. -/
def Orderly (server : Server V ε) (own : ε → Prop) : Tx V Ω ε α → Session V → Except ε α → Session V → Prop
  | .pure value, session, result, final => result = .ok value ∧ final = session
  | .raise error, session, result, final => result = .error error ∧ final = session
  | .request request next, session, result, final =>
    ∃ choice : Choice Ω ε, choice.miss = false ∧ (∀ error ∈ choice.failure, own error) ∧ ∃ reply after,
      server.answer choice session request = some (reply, after) ∧ Orderly server own (next reply) after result final

/-- The constraints of the database raise its own errors. -/
structure Owns (server : Server V ε) (own : ε → Prop) : Prop where
  duplicate : own server.duplicate
  settled : ∀ log error, server.settled log = .error error → own error

variable {server : Server V ε} {own : ε → Prop} {session final : Session V}

theorem Orderly.runs {result : Except ε α} {allowed : Session V → Request V ε → Prop}
    (ran : server.Orderly own program session result final) (anything : ∀ session request, allowed session request) :
    server.Runs allowed program session result final := by
  induction program generalizing session with
  | pure value | raise error => exact ran
  | request request next ih =>
    obtain ⟨choice, attentive, _, reply, after, answered, ran⟩ := ran
    exact ⟨anything _ _, choice, attentive, reply, after, answered, ih reply ran⟩

theorem orderly_ofExcept {result : Except ε α} :
    server.Orderly own (Prog.ofExcept computed : Tx V Ω ε α) session result final ↔ result = computed ∧ final = session := by
  cases computed <;> rfl

theorem orderly_perform {request : Request V ε} {result : Except ε (Reply Ω request)} :
    server.Orderly own (Prog.perform request) session result final ↔
      ∃ choice : Choice Ω ε, choice.miss = false ∧ (∀ error ∈ choice.failure, own error) ∧
        server.answer choice session request = some (result, final) := by
  constructor
  · rintro ⟨choice, attentive, failing, reply, after, answered, ran⟩
    obtain ⟨rfl, rfl⟩ := orderly_ofExcept.mp ran
    exact ⟨choice, attentive, failing, answered⟩
  · rintro ⟨choice, attentive, failing, answered⟩
    exact ⟨choice, attentive, failing, result, final, answered, orderly_ofExcept.mpr ⟨rfl, rfl⟩⟩

theorem orderly_bind {result : Except ε β} :
    server.Orderly own (program.bind next) session result final ↔
      (∃ error, result = .error error ∧ server.Orderly own program session (.error error) final) ∨
        ∃ value middle, server.Orderly own program session (.ok value) middle ∧
          server.Orderly own (next value) middle result final := by
  induction program generalizing session with
  | pure value => simp [Prog.bind, Orderly]
  | raise error => simp [Prog.bind, Orderly]
  | request request rest ih =>
    simp only [Prog.bind, Orderly, ih]
    constructor
    · rintro ⟨choice, attentive, failing, reply, after, answered, ⟨error, raised, ran⟩ | ⟨value, middle, first, second⟩⟩
      · exact .inl ⟨error, raised, choice, attentive, failing, reply, after, answered, ran⟩
      · exact .inr ⟨value, middle, ⟨choice, attentive, failing, reply, after, answered, first⟩, second⟩
    · rintro (⟨error, raised, choice, attentive, failing, reply, after, answered, ran⟩ |
        ⟨value, middle, ⟨choice, attentive, failing, reply, after, answered, first⟩, second⟩)
      · exact ⟨choice, attentive, failing, reply, after, answered, .inl ⟨error, raised, ran⟩⟩
      · exact ⟨choice, attentive, failing, reply, after, answered, .inr ⟨value, middle, first, second⟩⟩

theorem orderly_attempt {result : Except ε (Except ε α)} :
    server.Orderly own program.attempt session result final ↔
      ∃ inner, result = .ok inner ∧ server.Orderly own program session inner final := by
  induction program generalizing session with
  | pure value => simp [Prog.attempt, Orderly]
  | raise error => simp [Prog.attempt, Orderly]
  | request request rest ih =>
    simp only [Prog.attempt, Orderly, ih]
    constructor
    · rintro ⟨choice, attentive, failing, reply, after, answered, inner, returned, ran⟩
      exact ⟨inner, returned, choice, attentive, failing, reply, after, answered, ran⟩
    · rintro ⟨inner, returned, choice, attentive, failing, reply, after, answered, ran⟩
      exact ⟨choice, attentive, failing, reply, after, answered, inner, returned, ran⟩

/-- What a pure step hands on, the rest of the program runs with. -/
theorem orderly_lift {result : Except ε β} :
    server.Orderly own ((Prog.ofExcept computed : Tx V Ω ε α).bind next) session result final ↔
      (∃ error, computed = .error error ∧ result = .error error ∧ final = session) ∨
        ∃ value, computed = .ok value ∧ server.Orderly own (next value) session result final := by
  cases computed <;> simp [Prog.ofExcept, Prog.bind, Orderly]

omit [DecidableEq K] in
private theorem leave_owned {error : ε} (owns : server.Owns own)
    (leaves : server.leave session = some (.error error, final)) : own error := by
  unfold leave at leaves
  split at leaves
  · cases leaves
  · split at leaves <;> cases leaves
    next settling => exact owns.settled _ _ settling
  · cases leaves

/-- A block returns what its body returned, or raises what its body or the database raised. -/
theorem orderly_atomic {result : Except ε α} (owns : server.Owns own)
    (ran : server.Orderly own (Tx.atomic body) session result final) :
    (∃ error, result = .error error ∧ own error) ∨
      ∃ inner middle, server.Orderly own body session.enter inner middle ∧
        ((∃ error, result = .error error ∧ (inner = .error error ∨ own error)) ∨
          ∃ value, inner = .ok value ∧ result = .ok value ∧ server.leave middle = some (.ok (), final)) := by
  rcases orderly_bind.mp ran with ⟨error, rfl, entering⟩ | ⟨_, entered, entering, ran⟩
  · obtain ⟨choice, _, failing, answered⟩ := orderly_perform.mp entering
    simp only [answer, Option.some.injEq] at answered
    cases failed : choice.failure <;> rw [failed] at answered failing <;> cases answered
    exact .inl ⟨_, rfl, failing _ rfl⟩
  obtain ⟨choice, _, _, answered⟩ := orderly_perform.mp entering
  simp only [answer, Option.some.injEq] at answered
  cases failed : choice.failure <;> rw [failed] at answered <;> cases answered
  rcases orderly_bind.mp ran with ⟨error, rfl, attempted⟩ | ⟨inner, middle, attempted, closing⟩
  · obtain ⟨_, impossible, _⟩ := orderly_attempt.mp attempted
    cases impossible
  obtain ⟨_, same, inside⟩ := orderly_attempt.mp attempted
  cases same
  refine .inr ⟨inner, middle, inside, ?_⟩
  cases inner with
  | error error =>
    rcases orderly_bind.mp closing with ⟨other, rfl, undoing⟩ | ⟨_, closed, _, raised⟩
    · obtain ⟨choice, _, failing, answered⟩ := orderly_perform.mp undoing
      simp only [answer, Option.some.injEq] at answered
      cases failed : choice.failure <;> rw [failed] at answered failing <;> cases answered
      exact .inl ⟨_, rfl, .inr (failing _ rfl)⟩
    · obtain ⟨rfl, rfl⟩ := raised
      exact .inl ⟨error, rfl, .inl rfl⟩
  | ok value =>
    rcases orderly_bind.mp closing with ⟨error, rfl, leaving⟩ | ⟨_, closed, leaving, returned⟩
    · obtain ⟨choice, _, failing, answered⟩ := orderly_perform.mp leaving
      refine .inl ⟨error, rfl, .inr ?_⟩
      simp only [answer] at answered
      cases failed : choice.failure with
      | some failure =>
        rw [failed] at answered failing
        cases answered
        exact failing _ rfl
      | none =>
        rw [failed] at answered
        exact leave_owned owns answered
    · obtain ⟨rfl, rfl⟩ := returned
      obtain ⟨choice, _, _, answered⟩ := orderly_perform.mp leaving
      simp only [answer] at answered
      cases failed : choice.failure <;> rw [failed] at answered
      · exact .inr ⟨value, rfl, rfl, answered⟩
      · cases answered

/-- What the body of a block raises, the block raises in some run. -/
theorem Orderly.raised {error : ε} (oracle : Ω) (ran : server.Orderly own body session.enter (.error error) final) :
    server.Orderly own (Tx.atomic body) session (.error error) final.undo := by
  have smoothly : ∀ error ∈ (none : Option ε), own error := nofun
  refine orderly_bind.mpr (.inr ⟨(), session.enter, orderly_perform.mpr ⟨⟨none, false, oracle⟩, rfl, smoothly, rfl⟩, ?_⟩)
  refine orderly_bind.mpr (.inr ⟨.error error, final, orderly_attempt.mpr ⟨_, rfl, ran⟩, ?_⟩)
  exact orderly_bind.mpr (.inr ⟨(), final.undo, orderly_perform.mpr ⟨⟨none, false, oracle⟩, rfl, smoothly, rfl⟩, rfl, rfl⟩)

private theorem answered {choice : Choice Ω ε} {request : Request V ε} {reply : Except ε (Reply Ω request)}
    {after : Session V} (owns : server.Owns own) (raises : request.Raises own) (failing : ∀ error ∈ choice.failure, own error)
    (answered : server.answer choice session request = some (reply, after)) : ∀ error, reply = .error error → own error := by
  rintro error rfl
  cases failed : choice.failure with
  | some failure =>
    have own := failing failure failed
    cases request <;> simp only [answer, failed] at answered
    all_goals first | (split at answered <;> cases answered; exact own) | (cases answered; exact own)
  | none =>
    cases request <;> simp only [answer, failed] at answered
    case enter | undo | ask | get | scan => cases answered
    case leave => exact leave_owned owns answered
    case lock key =>
      split at answered
      · cases answered
      · split at answered
        · cases answered
        · cases present : session.view.lookup key <;> rw [present] at answered <;> cases answered
    case insert key value held =>
      split at answered
      · cases answered
      · cases present : session.view.lookup key <;> rw [present] at answered <;> cases answered
        exact owns.duplicate
    case update key change held seen =>
      split at answered
      · cases answered
      · split at answered
        · cases answered
        · cases present : session.view.lookup key with
          | none => rw [present] at answered; cases answered
          | some value =>
            rw [present] at answered
            simp only at answered
            cases changed : change value <;> rw [changed] at answered <;> cases answered
            exact raises _ _ changed
    case delete key held seen =>
      split at answered
      · cases answered
      · split at answered
        · cases answered
        · cases present : session.view.lookup key <;> rw [present] at answered <;> cases answered

/-- An orderly run of a program that raises the database's own errors alone raises no other. -/
theorem Orderly.owned {error : ε} (ran : server.Orderly own program session (.error error) final)
    (raises : Raises own program) (owns : server.Owns own) : own error := by
  induction program generalizing session with
  | pure value => cases ran.1
  | raise other =>
    obtain rfl := Except.error.inj ran.1
    exact raises
  | request request next ih =>
    obtain ⟨choice, _, failing, reply, after, replied, ran⟩ := ran
    exact ih reply ran (raises.2 reply (answered owns raises.1 failing replied))

end Server

/-- Every orderly run ends in the postcondition, or raises an error of the database's own. -/
def Settles (server : Server V ε) (own : ε → Prop) (post : α → Session V → Prop) (program : Tx V Ω ε α)
    (session : Session V) : Prop :=
  ∀ result final, server.Orderly own program session result final →
    match result with
    | .ok value => post value final
    | .error error => own error

namespace Settles

open Server

variable {server : Server V ε} {own : ε → Prop} {session : Session V} {post : α → Session V → Prop}

theorem pure {value : α} (reached : post value session) :
    Settles server own post (.pure value : Tx V Ω ε α) session := by
  rintro result final ⟨rfl, rfl⟩
  exact reached

theorem raise {error : ε} (raised : own error) : Settles server own post (.raise error : Tx V Ω ε α) session := by
  rintro result final ⟨rfl, rfl⟩
  exact raised

theorem weaken {post' : α → Session V → Prop} (settles : Settles server own post program session)
    (implies : ∀ value final, post value final → post' value final) : Settles server own post' program session := by
  intro result final ran
  have reached := settles result final ran
  cases result with
  | ok value => exact implies value final reached
  | error error => exact reached

theorem andThen {after : β → Session V → Prop} (first : Settles server own post program session)
    (second : ∀ value final, post value final → Settles server own after (next value) final) :
    Settles server own after (program.bind next) session := by
  intro result final ran
  rcases orderly_bind.mp ran with ⟨error, rfl, raised⟩ | ⟨value, middle, returned, ran⟩
  · exact first _ _ raised
  · exact second value middle (first _ _ returned) result final ran

theorem lift {after : β → Session V → Prop} (raised : ∀ error, computed = .error error → own error)
    (second : ∀ value, computed = .ok value → Settles server own after (next value) session) :
    Settles server own after ((Prog.ofExcept computed : Tx V Ω ε α).bind next) session := by
  intro result final ran
  rcases orderly_lift.mp ran with ⟨error, failed, rfl, _⟩ | ⟨value, returned, ran⟩
  · exact raised error failed
  · exact second value returned result final ran

theorem atomic {inner : α → Session V → Prop} (owns : server.Owns own)
    (run : Settles server own inner body session.enter)
    (left : ∀ value middle final, inner value middle → final.view = middle.view → post value final) :
    Settles server own post (Tx.atomic body) session := by
  intro result final ran
  rcases orderly_atomic owns ran with ⟨error, rfl, raised⟩ | ⟨result', middle, ran, closing⟩
  · exact raised
  have reached := run result' middle ran
  rcases closing with ⟨error, rfl, rfl | raised⟩ | ⟨value, rfl, rfl, leaves⟩
  · exact reached
  · exact raised
  · refine left value middle final reached ?_
    unfold leave at leaves
    split at leaves
    · cases leaves
    · split at leaves <;> cases leaves
      rfl
    · cases leaves
      rfl

/-- A program that raises the database's own errors alone ends as it does among no others. -/
theorem of_holds {discipline : Discipline V ε} (owns : server.Owns own)
    (holds : discipline.Holds server (Discipline.Returns post) program session) (raises : Raises own program) (whole : session.Whole discipline.guard)
    (kept : discipline.kept session.committed) (anything : ∀ session request, discipline.allowed session request) :
    Settles server own (fun value final => post value final ∧ final.saved = session.saved ∧ final.Whole discipline.guard ∧
      discipline.kept final.committed) program session := by
  intro result final ran
  cases result with
  | error error => exact ran.owned raises owns
  | ok value =>
    obtain ⟨⟨framed, reached⟩, whole, kept⟩ := (ran.runs anything).post whole kept holds
    exact ⟨reached, framed.saved, whole, kept⟩

end Settles
end Foundation
