import PyScoped.Foundation.Transaction

/-! Assertions for transactional programs among others. Every key has a guard,
and who holds the lock of the guard may rely on the key. Between any two
statements the committed state may move, but only where no guard is held and
only to states that are kept. A program alone finds it as it was. -/

namespace Foundation

variable {K : Type} [DecidableEq K] {V : K → Type} {Ω ε α β : Type}

structure Discipline (V : K → Type) (ε : Type) where
  shared : Bool
  guard : K → K
  kept : Log V → Prop
  allowed : Session V → Request V ε → Prop

variable {guard : K → K}

namespace Session

omit [DecidableEq K]

def seeing (session : Session V) (committed : Log V) : Session V := { session with committed := committed }

@[simp] theorem seeing_committed (session : Session V) : session.seeing session.committed = session := rfl
@[simp] theorem seeing_seeing (session : Session V) (first second : Log V) :
    (session.seeing first).seeing second = session.seeing second := rfl

/-- Leaving the outermost block commits, leaving an inner one keeps its frame. -/
def leave (session : Session V) : Session V :=
  match session.saved with
  | [] => session
  | [_] => session.commit
  | _ :: saved => { session with saved := saved }

/-- Frames are nested, and the transaction opened on an empty one. -/
structure Whole (guard : K → K) (session : Session V) : Prop where
  guarded : ∀ frame ∈ session.current :: session.saved, ∀ key ∈ frame.writes.keys, guard key ∈ frame.locks
  nested : (session.current :: session.saved).Pairwise fun inner outer => outer.locks ⊆ inner.locks
  opened : ∀ frame ∈ (session.current :: session.saved).getLast?, frame = ⟨[], []⟩

theorem Whole.idle (committed : Log V) : (Session.idle committed).Whole guard := by
  constructor <;> simp [Session.idle]

/-- Outside of transactions there is nothing but what is committed. -/
theorem Whole.eq_idle {session : Session V} (whole : session.Whole guard) (closed : session.saved = []) :
    session = Session.idle session.committed := by
  obtain ⟨committed, current, saved⟩ := session
  obtain rfl : saved = [] := closed
  have empty := whole.opened current rfl
  rw [empty]
  rfl

end Session

variable {program : Tx V Ω ε α}

namespace Discipline

variable (discipline : Discipline V ε)

structure Moves (session : Session V) (committed : Log V) : Prop where
  kept : discipline.kept committed
  alone : discipline.shared = false → committed = session.committed
  guarded : ∀ key, discipline.guard key ∈ session.current.locks →
    committed.lookup key = session.committed.lookup key

/-- What a statement owes the other clients. -/
structure Guaranteed (before after : Session V) : Prop where
  guarded : ∀ key ∈ after.current.writes.keys, discipline.guard key ∈ after.current.locks
  kept : after.committed = before.committed ∨ discipline.kept after.committed

/-- Every run from the session ends in the postcondition, among others that keep
to the discipline, and owes them nothing on the way. -/
def Safe (server : Server V ε) (post : Except ε α → Session V → Prop) : Tx V Ω ε α → Session V → Prop
  | .pure value, session => post (.ok value) session
  | .raise error, session => post (.error error) session
  | .request request next, session =>
    session.Whole discipline.guard → ∀ committed, discipline.Moves session committed →
      discipline.allowed (session.seeing committed) request → ∀ choice : Choice Ω ε,
        (discipline.shared = false → choice.miss = false) → ∀ reply after,
          server.answer choice (session.seeing committed) request = some (reply, after) →
            discipline.Guaranteed (session.seeing committed) after ∧ Safe server post (next reply) after

variable {discipline} {server : Server V ε}

theorem Moves.trans {first : Session V} (second : Session V) {committed : Log V}
    (moves : discipline.Moves first second.committed)
    (locks : first.current.locks ⊆ second.current.locks) (moves' : discipline.Moves second committed) :
    discipline.Moves first committed := by
  refine ⟨moves'.kept, fun alone => (moves'.alone alone).trans (moves.alone alone), fun key held => ?_⟩
  exact (moves'.guarded key (locks held)).trans (moves.guarded key held)

theorem Moves.refl {session : Session V} (kept : discipline.kept session.committed) :
    discipline.Moves session session.committed :=
  ⟨kept, fun _ => rfl, fun _ _ => rfl⟩

theorem Safe.weaken {post post' : Except ε α → Session V → Prop} {session : Session V}
    (safe : discipline.Safe server post program session)
    (implies : ∀ result final, post result final → post' result final) :
    discipline.Safe server post' program session := by
  induction program generalizing session with
  | pure value => exact implies _ _ safe
  | raise error => exact implies _ _ safe
  | request request next ih =>
    intro whole committed moves allowed choice attentive reply after answered
    obtain ⟨guaranteed, rest⟩ := safe whole committed moves allowed choice attentive reply after answered
    exact ⟨guaranteed, ih reply rest⟩

theorem Safe.bind {post : Except ε β → Session V → Prop} {next : α → Tx V Ω ε β} {session : Session V}
    (safe : discipline.Safe server (fun result final => match result with
      | .ok value => discipline.Safe server post (next value) final
      | .error error => post (.error error) final) program session) :
    discipline.Safe server post (program.bind next) session := by
  induction program generalizing session with
  | pure value => exact safe
  | raise error => exact safe
  | request request rest ih =>
    intro whole committed moves allowed choice attentive reply after answered
    obtain ⟨guaranteed, remaining⟩ := safe whole committed moves allowed choice attentive reply after answered
    exact ⟨guaranteed, ih reply remaining⟩

theorem Safe.attempt {post : Except ε (Except ε α) → Session V → Prop} {session : Session V}
    (safe : discipline.Safe server (fun result => post (.ok result)) program session) :
    discipline.Safe server post program.attempt session := by
  induction program generalizing session with
  | pure value => exact safe
  | raise error => exact safe
  | request request rest ih =>
    intro whole committed moves allowed choice attentive reply after answered
    obtain ⟨guaranteed, remaining⟩ := safe whole committed moves allowed choice attentive reply after answered
    exact ⟨guaranteed, ih reply remaining⟩

/-- A suspended program tolerates every move. -/
theorem Safe.moved {post : Except ε α → Session V → Prop} {session : Session V}
    {committed : Log V} (safe : discipline.Safe server post program session)
    (moves : discipline.Moves session committed) :
    discipline.Safe server (fun _ _ => True) program (session.seeing committed) := by
  cases program with
  | pure value => trivial
  | raise error => trivial
  | request request next =>
    intro whole later moves' allowed choice attentive reply after answered
    have onward : discipline.Moves session later := Moves.trans (session.seeing committed) moves (List.Subset.refl _) moves'
    obtain ⟨guaranteed, rest⟩ := safe ⟨whole.guarded, whole.nested, whole.opened⟩ later onward allowed choice
      attentive reply after answered
    exact ⟨guaranteed, rest.weaken (fun _ _ _ => trivial)⟩

end Discipline

/-! What one statement can do to a session. -/

/-- The key a statement writes. -/
def Request.written : Request V ε → Option K
  | .insert key _ _ | .update key _ _ _ | .delete key _ _ => some key
  | _ => none

namespace Server

variable {server : Server V ε} {choice : Choice Ω ε} {session after : Session V}

inductive Outcome (choice : Choice Ω ε) (request : Request V ε) (session : Session V) : Session V → Prop where
  | same : Outcome choice request session session
  | held (key : K) (awaits : awaited choice session request = some key) (opened : session.saved ≠ []) :
      Outcome choice request session (session.hold key)
  | written (key : K) (value : Option (V key)) (awaits : awaited choice session request = some key)
      (opened : session.saved ≠ []) (writes : request.written = some key) :
      Outcome choice request session (session.write key value)
  | entered (entering : request = .enter) : Outcome choice request session session.enter
  | left (leaving : request = .leave) (opened : session.saved ≠ []) : Outcome choice request session session.leave
  | undone (closing : request = .leave ∨ request = .undo) : Outcome choice request session session.undo

variable {request : Request V ε}

theorem answer_outcome {reply : Except ε (Reply Ω request)}
    (answered : server.answer choice session request = some (reply, after)) :
    Outcome choice request session after := by
  cases request with
  | get key =>
    simp only [answer, Option.some.injEq] at answered
    cases failed : choice.failure <;> rw [failed] at answered <;> cases answered <;> exact .same
  | scan wanted relied =>
    simp only [answer, Option.some.injEq] at answered
    cases failed : choice.failure <;> rw [failed] at answered <;> cases answered <;> exact .same
  | ask =>
    simp only [answer, Option.some.injEq] at answered
    cases failed : choice.failure <;> rw [failed] at answered <;> cases answered <;> exact .same
  | enter =>
    simp only [answer, Option.some.injEq] at answered
    cases failed : choice.failure <;> rw [failed] at answered <;> cases answered
    · exact .entered rfl
    · exact .same
  | undo =>
    simp only [answer, Option.some.injEq] at answered
    cases failed : choice.failure <;> rw [failed] at answered <;> cases answered <;> exact .undone (.inr rfl)
  | leave =>
    simp only [answer] at answered
    cases failed : choice.failure <;> rw [failed] at answered
    · simp only [Server.leave] at answered
      split at answered
      · cases answered
      next opened =>
        split at answered <;> cases answered
        · have left : Outcome choice (.leave : Request V ε) session session.leave :=
            .left rfl (by rw [opened]; exact List.cons_ne_nil _ _)
          rwa [Session.leave, opened] at left
        · exact .undone (.inl rfl)
      next first second rest opened =>
        cases answered
        cases second with
        | nil => exact absurd rfl rest
        | cons outer saved =>
          have left : Outcome choice (.leave : Request V ε) session session.leave :=
            .left rfl (by rw [opened]; exact List.cons_ne_nil _ _)
          rwa [Session.leave, opened] at left
    · cases answered
      exact .undone (.inl rfl)
  | lock key =>
    obtain ⟨opened, ⟨error, -, rfl⟩ | ⟨failed, work⟩⟩ := executed answered
    · exact .same
    obtain ⟨-, -, rfl⟩ | ⟨value, found, present, work⟩ := reached work
    · exact .same
    · cases work
      exact .held key (by simp [awaited, failed, found, present]) opened
  | insert key value held =>
    obtain ⟨opened, ⟨error, -, rfl⟩ | ⟨failed, work⟩⟩ := executed answered
    · exact .same
    split at work <;> cases work
    · exact .same
    · exact .written key _ (by simp [awaited, failed]) opened rfl
  | update key change held seen =>
    obtain ⟨opened, ⟨error, -, rfl⟩ | ⟨failed, work⟩⟩ := executed answered
    · exact .same
    obtain ⟨-, -, rfl⟩ | ⟨value, found, present, work⟩ := reached work
    · exact .same
    split at work <;> cases work
    · exact .same
    · exact .written key _ (by simp [awaited, failed, found, present]) opened rfl
  | delete key held seen =>
    obtain ⟨opened, ⟨error, -, rfl⟩ | ⟨failed, work⟩⟩ := executed answered
    · exact .same
    obtain ⟨-, -, rfl⟩ | ⟨value, found, present, work⟩ := reached work
    · exact .same
    · cases work
      exact .written key _ (by simp [awaited, failed, found, present]) opened rfl

omit [DecidableEq K] in
private theorem current_whole {current : Frame V} (whole : session.Whole guard)
    (opened : session.saved ≠ []) (locks : session.current.locks ⊆ current.locks)
    (guarded : ∀ key ∈ current.writes.keys, guard key ∈ current.locks) :
    Session.Whole guard { session with current := current } := by
  obtain ⟨guarding, nested, opening⟩ := whole
  have inner := List.pairwise_cons.mp nested
  refine ⟨List.forall_mem_cons.mpr ⟨guarded, (List.forall_mem_cons.mp guarding).2⟩,
    List.pairwise_cons.mpr ⟨fun frame member => List.Subset.trans (inner.1 frame member) locks, inner.2⟩, ?_⟩
  rw [List.getLast?_cons_of_ne_nil opened,
    ← (List.getLast?_cons_of_ne_nil opened : (session.current :: session.saved).getLast? = _)]
  exact opening

omit [DecidableEq K] in
theorem whole_hold {key : K} (whole : session.Whole guard) (opened : session.saved ≠ []) :
    (session.hold key).Whole guard :=
  current_whole whole opened (List.subset_cons_self _ _)
    (fun other written => List.mem_cons_of_mem _ (whole.guarded _ List.mem_cons_self other written))

theorem Outcome.whole (outcome : Outcome choice request session after)
    (whole : session.Whole guard) (guarded : ∀ key ∈ after.current.writes.keys, guard key ∈ after.current.locks) :
    after.Whole guard := by
  cases outcome with
  | same => exact whole
  | held key _ opened => exact whole_hold whole opened
  | written key value _ opened _ => exact current_whole whole opened (List.subset_cons_self _ _) guarded
  | entered _ =>
    obtain ⟨guarding, nested, opening⟩ := whole
    refine ⟨List.forall_mem_cons.mpr ⟨guarded, guarding⟩, List.pairwise_cons.mpr ⟨?_, nested⟩, ?_⟩
    · exact List.forall_mem_cons.mpr ⟨List.Subset.refl _, (List.pairwise_cons.mp nested).1⟩
    · simpa only [Session.enter, List.getLast?_cons_cons] using opening
  | left _ opened =>
    unfold Session.leave
    split
    next closed => exact absurd closed opened
    · exact ⟨by simp [Session.commit, Session.idle], by simp [Session.commit, Session.idle],
        by simp [Session.commit, Session.idle]⟩
    next first saved _ saves =>
      obtain ⟨guarding, nested, opening⟩ := whole
      rw [saves] at guarding nested opening
      obtain ⟨here, outer⟩ := List.forall_mem_cons.mp guarding
      obtain ⟨inner, nested⟩ := List.pairwise_cons.mp nested
      refine ⟨List.forall_mem_cons.mpr ⟨here, (List.forall_mem_cons.mp outer).2⟩,
        List.pairwise_cons.mpr ⟨(List.forall_mem_cons.mp inner).2, (List.pairwise_cons.mp nested).2⟩, ?_⟩
      cases saved with
      | nil => contradiction
      | cons second rest => simpa only [List.getLast?_cons_cons] using opening
  | undone _ =>
    unfold Session.undo
    split
    · exact whole
    next frame saved saves =>
      obtain ⟨guarding, nested, opening⟩ := whole
      rw [saves] at guarding nested opening
      exact ⟨(List.forall_mem_cons.mp guarding).2, (List.pairwise_cons.mp nested).2,
        by simpa only [List.getLast?_cons_cons] using opening⟩

theorem Outcome.locks (outcome : Outcome choice request session after) (whole : session.Whole guard) :
    ∀ key ∈ after.current.locks, key ∈ session.current.locks ∨ awaited choice session request = some key := by
  intro key member
  cases outcome with
  | same => exact .inl member
  | held other awaits _ | written other _ awaits _ _ =>
    rcases List.mem_cons.mp member with rfl | held
    · exact .inr awaits
    · exact .inl held
  | entered _ => exact .inl member
  | left _ opened =>
    unfold Session.leave at member
    split at member
    · exact .inl member
    · cases member
    · exact .inl member
  | undone _ =>
    unfold Session.undo at member
    split at member
    · exact .inl member
    next frame saved saves =>
      have nested := whole.nested
      rw [saves] at nested
      exact .inl ((List.pairwise_cons.mp nested).1 frame List.mem_cons_self member)

theorem Outcome.committed (outcome : Outcome choice request session after) :
    after.committed = session.committed ∨ after.committed = session.view := by
  cases outcome with
  | same | held | written | entered => exact .inl rfl
  | left _ _ =>
    unfold Session.leave
    split
    · exact .inl rfl
    · exact .inr rfl
    · exact .inl rfl
  | undone _ =>
    unfold Session.undo
    split <;> exact .inl rfl

end Server

namespace World

variable {count : Nat} {server : Server V ε} {discipline : Discipline V ε}

/-- What holds of a world whose clients keep to the discipline. -/
structure Sound (server : Server V ε) (discipline : Discipline V ε) (world : World V Ω ε count) : Prop where
  kept : discipline.kept world.committed
  whole : ∀ client, (world.session client).Whole discipline.guard
  safe : ∀ client, discipline.Safe server (fun _ _ => True) (world.clients client).program (world.session client)
  apart : ∀ client other, other ≠ client →
    ∀ key ∈ (world.clients client).current.locks, key ∉ (world.clients other).current.locks

variable {world : World V Ω ε count}

/-- A commit reaches only keys whose guards the committing client holds, so it
is a move that every other client expects. -/
private theorem commit_moves (sound : world.Sound server discipline)
    (shared : discipline.shared = true) {client other : Fin count} (ne : other ≠ client) {committed : Log V}
    (changed : committed = world.committed ∨ committed = (world.session client).view)
    (kept : committed = world.committed ∨ discipline.kept committed) :
    discipline.Moves (world.session other) committed := by
  refine ⟨?_, fun alone => ?_, ?_⟩
  · rcases kept with rfl | kept
    · exact sound.kept
    · exact kept
  · rw [alone] at shared
    cases shared
  · intro key held
    rcases changed with rfl | rfl
    · rfl
    · refine Log.lookup_append_right ?_ _
      intro written
      exact sound.apart client other ne _ ((sound.whole client).guarded _ List.mem_cons_self key written) held

theorem Sound.step {next : World V Ω ε count} (sound : world.Sound server discipline)
    (shared : discipline.shared = true) {client : Fin count} {choice : Choice Ω ε}
    (meets : world.Meets discipline.allowed client) (stepped : world.step server client choice = some next) :
    next.Sound server discipline := by
  have safe := sound.safe client
  unfold World.step at stepped
  unfold World.Meets at meets
  split at stepped
  · cases stepped
  · cases stepped
  next request rest suspended =>
    rw [suspended] at safe meets
    split at stepped
    · cases stepped
    next free =>
      split at stepped
      · cases stepped
      next reply after answered =>
        cases stepped
        have outcome := Server.answer_outcome answered
        obtain ⟨guaranteed, onward⟩ := safe (sound.whole client) world.committed (Discipline.Moves.refl sound.kept) meets choice
          (fun alone => by simp [alone] at shared) reply after answered
        have whole : after.Whole discipline.guard := outcome.whole (sound.whole client) guaranteed.guarded
        have moves {other : Fin count} (ne : other ≠ client) :=
          commit_moves sound shared ne outcome.committed guaranteed.kept
        refine ⟨?_, ?_, ?_, ?_⟩
        · rcases guaranteed.kept with same | kept
          · exact same ▸ sound.kept
          · exact kept
        · intro other
          by_cases same : other = client
          · subst other
            simpa only [World.session, Function.update_self] using whole
          · have held := sound.whole other
            simp only [World.session, Function.update_of_ne same]
            exact ⟨held.guarded, held.nested, held.opened⟩
        · intro other
          by_cases same : other = client
          · subst other
            simp only [World.session, Function.update_self]
            exact onward.weaken (fun _ _ _ => trivial)
          · simp only [World.session, Function.update_of_ne same]
            exact (sound.safe other).moved (moves same)
        · have fresh (other : Fin count) (ne : other ≠ client) :
              ∀ key ∈ after.current.locks, key ∉ (world.clients other).current.locks := by
            intro key member held
            rcases outcome.locks (sound.whole client) key member with old | awaited
            · exact sound.apart client other ne key old held
            · exact free ⟨key, awaited, other, ne, held⟩
          intro first second ne
          by_cases isFirst : first = client
          · subst first
            simp only [Function.update_self, Function.update_of_ne ne]
            exact fresh second ne
          · by_cases isSecond : second = client
            · subst second
              simp only [Function.update_self, Function.update_of_ne isFirst]
              exact fun key held member => fresh first isFirst key member held
            · simp only [Function.update_of_ne isFirst, Function.update_of_ne isSecond]
              exact sound.apart first second ne

/-- Committed states stay kept, whatever the interleaving. -/
theorem Reaches.kept {committed : Log V} {programs : Fin count → Tx V Ω ε Unit}
    (reached : Reaches server discipline.allowed (initial committed programs) world)
    (shared : discipline.shared = true) (kept : discipline.kept committed)
    (safe : ∀ client, discipline.Safe server (fun _ _ => True) (programs client) (Session.idle committed)) :
    discipline.kept world.committed := by
  suffices sound : world.Sound server discipline from sound.kept
  induction reached with
  | start =>
    refine ⟨kept, fun _ => ⟨?_, ?_, ?_⟩, safe, ?_⟩ <;> simp [initial, World.session]
  | step _ client choice meets stepped ih => exact ih.step shared meets stepped

end World

/-- What a safe program guarantees when nobody interferes. -/
theorem Server.Runs.post {server : Server V ε} {discipline : Discipline V ε} {post : Except ε α → Session V → Prop}
    {session final : Session V} {result : Except ε α}
    (runs : server.Runs discipline.allowed program session result final) (whole : session.Whole discipline.guard)
    (kept : discipline.kept session.committed) (safe : discipline.Safe server post program session) :
    post result final ∧ final.Whole discipline.guard ∧ discipline.kept final.committed := by
  induction program generalizing session with
  | pure value =>
    obtain ⟨rfl, rfl⟩ := runs
    exact ⟨safe, whole, kept⟩
  | raise error =>
    obtain ⟨rfl, rfl⟩ := runs
    exact ⟨safe, whole, kept⟩
  | request request next ih =>
    obtain ⟨allowed, choice, attentive, reply, after, answered, rest⟩ := runs
    obtain ⟨guaranteed, onward⟩ := safe whole session.committed (Discipline.Moves.refl kept) allowed choice
      (fun _ => attentive) reply after answered
    refine ih reply rest ((Server.answer_outcome answered).whole whole guaranteed.guarded) ?_ onward
    rcases guaranteed.kept with same | kept'
    · exact same ▸ kept
    · exact kept'

end Foundation
