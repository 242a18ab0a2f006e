import PyScoped.Foundation.Program

/-! Clients that run programs over one shared state, one statement at a time,
and assertions that hold of them in every interleaving. Between two statements
of a client the others may move the state as far as it relies on. -/

namespace Foundation

variable {Req : Type} {Reply : Req → Type} {ε σ ι χ α β : Type}

/-- How the statement of a client is answered. What the statement leaves open is
the choice; a client that gets no answer waits. -/
abbrev Service (Req : Type) (Reply : Req → Type) (ε σ ι χ : Type) :=
  ι → χ → σ → (request : Req) → Option (Except ε (Reply request) × σ)

/-- The answers whose choice is admitted; what is left out does not happen. -/
def Service.restrict (service : Service Req Reply ε σ ι χ) (admitted : ι → χ → σ → Req → Bool) : Service Req Reply ε σ ι χ :=
  fun client choice state request => if admitted client choice state request then service client choice state request else none

variable {state : σ}

theorem Service.restrict_some {service : Service Req Reply ε σ ι χ} {admitted : ι → χ → σ → Req → Bool} {client : ι}
    {choice : χ} {request : Req} {answer : Except ε (Reply request) × σ}
    (answered : service.restrict admitted client choice state request = some answer) :
    admitted client choice state request = true ∧ service client choice state request = some answer := by
  unfold Service.restrict at answered
  split at answered
  next held => exact ⟨held, answered⟩
  · cases answered

/-- The same service, with notes beside the state on what each statement has done to it. -/
def Service.noting {η : Type} (service : Service Req Reply ε σ ι χ) (note : ι → σ → σ → Req → η → η) :
    Service Req Reply ε (σ × η) ι χ :=
  fun client choice state request => (service client choice state.1 request).map fun (reply, after) =>
    (reply, after, note client state.1 after request state.2)

theorem Service.noting_some {η : Type} {service : Service Req Reply ε σ ι χ} {note : ι → σ → σ → Req → η → η} {client : ι}
    {choice : χ} {state : σ × η} {after : σ} {notes : η} {request : Req} {reply : Except ε (Reply request)}
    (answered : service.noting note client choice state request = some (reply, after, notes)) :
    service client choice state.1 request = some (reply, after) ∧ notes = note client state.1 after request state.2 := by
  obtain ⟨⟨reply', after'⟩, served, same⟩ := Option.map_eq_some_iff.mp answered
  cases same
  exact ⟨served, rfl⟩

structure Interleaved (Req : Type) (Reply : Req → Type) (ε σ ι : Type) where
  state : σ
  programs : ι → Prog Req Reply ε Unit

/-- What all clients keep, what each relies on, and which statements are considered. -/
structure Contract (Req σ ι : Type) where
  kept : σ → Prop
  rely : ι → σ → σ → Prop
  allowed : ι → σ → Req → Prop

namespace Contract

variable (contract : Contract Req σ ι) (service : Service Req Reply ε σ ι χ) (client : ι)

/-- From any state the others may have moved to, every statement keeps the
contract and what remains of the program is safe. -/
def Safe (post : Except ε α → σ → Prop) : Prog Req Reply ε α → σ → Prop
  | .pure value, state => post (.ok value) state
  | .raise error, state => post (.error error) state
  | .request request next, state =>
    ∀ now, contract.kept now → contract.rely client state now → contract.allowed client now request →
      ∀ choice reply after, service client choice now request = some (reply, after) →
        contract.kept after ∧ (∀ other, other ≠ client → contract.rely other now after) ∧ Safe post (next reply) after

variable {contract service client}
variable {post : Except ε α → σ → Prop} {program : Prog Req Reply ε α}

theorem Safe.weaken {post' : Except ε α → σ → Prop}
    (safe : contract.Safe service client post program state) (implies : ∀ result final, post result final → post' result final) :
    contract.Safe service client post' program state := by
  induction program generalizing state with
  | pure value => exact implies _ _ safe
  | raise error => exact implies _ _ safe
  | request request next ih =>
    intro now kept moved allowed choice reply after answered
    obtain ⟨kept', others, rest⟩ := safe now kept moved allowed choice reply after answered
    exact ⟨kept', others, ih reply rest⟩

theorem Safe.bind {post : Except ε β → σ → Prop} {next : α → Prog Req Reply ε β}
    (safe : contract.Safe service client (fun result final => match result with
      | .ok value => contract.Safe service client post (next value) final
      | .error error => post (.error error) final) program state) :
    contract.Safe service client post (program.bind next) state := by
  induction program generalizing state with
  | pure value => exact safe
  | raise error => exact safe
  | request request rest ih =>
    intro now kept moved allowed choice reply after answered
    obtain ⟨kept', others, remaining⟩ := safe now kept moved allowed choice reply after answered
    exact ⟨kept', others, ih reply remaining⟩

theorem Safe.attempt {post : Except ε (Except ε α) → σ → Prop}
    (safe : contract.Safe service client (fun result => post (.ok result)) program state) :
    contract.Safe service client post program.attempt state := by
  induction program generalizing state with
  | pure value => exact safe
  | raise error => exact safe
  | request request rest ih =>
    intro now kept moved allowed choice reply after answered
    obtain ⟨kept', others, remaining⟩ := safe now kept moved allowed choice reply after answered
    exact ⟨kept', others, ih reply remaining⟩

theorem Safe.tryCatch {body : Prog Req Reply ε α} {handler : ε → Prog Req Reply ε α}
    (safe : contract.Safe service client (fun result final => match result with
      | .ok value => post (.ok value) final
      | .error error => contract.Safe service client post (handler error) final) body state) :
    contract.Safe service client post (MonadExcept.tryCatch body handler) state := by
  refine Safe.bind (Safe.attempt (safe.weaken fun result final reached => ?_))
  cases result with
  | ok value => exact reached
  | error error => exact reached

/-- One statement, from wherever the others have moved. -/
theorem Safe.perform {request : Req} {post : Except ε (Reply request) → σ → Prop}
    (steps : ∀ now, contract.kept now → contract.rely client state now → contract.allowed client now request →
      ∀ choice reply after, service client choice now request = some (reply, after) →
        contract.kept after ∧ (∀ other, other ≠ client → contract.rely other now after) ∧ post reply after) :
    contract.Safe service client post (Prog.perform request) state := by
  intro now kept moved allowed choice reply after answered
  obtain ⟨kept', others, reached⟩ := steps now kept moved allowed choice reply after answered
  refine ⟨kept', others, ?_⟩
  cases reply with
  | ok value => exact reached
  | error error => exact reached

theorem Safe.ofExcept {result : Except ε α} (reached : post result state) :
    contract.Safe service client post (Prog.ofExcept result) state := by
  cases result with
  | ok value => exact reached
  | error error => exact reached

/-- A program tolerates every move it relies on, suspended or at its end. -/
theorem Safe.moved {now : σ}
    (trans : ∀ first second third, contract.rely client first second → contract.rely client second third →
      contract.rely client first third)
    (stable : ∀ result first second, post result first → contract.rely client first second → post result second)
    (safe : contract.Safe service client post program state) (moved : contract.rely client state now) :
    contract.Safe service client post program now := by
  cases program with
  | pure value => exact stable _ _ _ safe moved
  | raise error => exact stable _ _ _ safe moved
  | request request next =>
    intro later kept moved' allowed choice reply after answered
    exact safe later kept (trans _ _ _ moved moved') allowed choice reply after answered

theorem Safe.within_bind {Req' : Type} {Reply' : Req' → Type} {inject : Req' → Req}
    {answer : ∀ asked, Reply (inject asked) → Reply' asked} {post : Except ε β → σ → Prop}
    {program : Prog Req' Reply' ε α} {next : α → Prog Req' Reply' ε β}
    (safe : contract.Safe service client (fun result final => match result with
      | .ok value => contract.Safe service client post ((next value).within inject answer) final
      | .error error => post (.error error) final) (program.within inject answer) state) :
    contract.Safe service client post ((program.bind next).within inject answer) state := by
  rw [Prog.within_bind]
  exact safe.bind

/-- A program of statements that move the state only as far as every client
relies on is safe, and its own client finds the state so moved. -/
theorem Safe.only {quiet : Req → Prop} {property : α → Prop} (refl : ∀ state, contract.rely client state state)
    (trans : ∀ first second third, contract.rely client first second → contract.rely client second third →
      contract.rely client first third)
    (steps : ∀ request choice now reply after, quiet request → contract.kept now → contract.allowed client now request →
      service client choice now request = some (reply, after) → contract.kept after ∧ ∀ other, contract.rely other now after)
    (only : program.Only quiet) (returns : program.Returns property) :
    contract.Safe service client
      (fun result final => contract.rely client state final ∧ ∀ value, result = .ok value → property value) program state := by
  suffices general : ∀ now, contract.rely client state now → contract.Safe service client
      (fun result final => contract.rely client state final ∧ ∀ value, result = .ok value → property value) program now from
    general state (refl state)
  induction program with
  | pure value =>
    intro now moved
    refine ⟨moved, fun value same => ?_⟩
    cases same
    exact returns
  | raise error => exact fun now moved => ⟨moved, fun _ raised => by cases raised⟩
  | request request next ih =>
    intro now moved later kept onward allowed choice reply after answered
    obtain ⟨kept', others⟩ := steps request choice later reply after only.1 kept allowed answered
    exact ⟨kept', fun other _ => others other,
      ih reply (only.2 reply) (returns reply) after (trans _ _ _ (trans _ _ _ moved onward) (others client))⟩

/-- Statements that keep the contract wherever they run make any program safe. -/
theorem Safe.keeping {quiet : Req → Prop}
    (steps : ∀ request choice now reply after, quiet request → contract.kept now → contract.allowed client now request →
      service client choice now request = some (reply, after) →
        contract.kept after ∧ ∀ other, other ≠ client → contract.rely other now after)
    (only : program.Only quiet) : contract.Safe service client (fun _ _ => True) program state := by
  induction program generalizing state with
  | pure value => trivial
  | raise error => trivial
  | request request next ih =>
    intro now kept _ allowed choice reply after answered
    obtain ⟨kept', others⟩ := steps request choice now reply after only.1 kept allowed answered
    exact ⟨kept', others, ih reply (only.2 reply)⟩

end Contract

namespace Interleaved

variable [DecidableEq ι] (service : Service Req Reply ε σ ι χ)

/-- One statement of one client. -/
def step (world : Interleaved Req Reply ε σ ι) (client : ι) (choice : χ) : Option (Interleaved Req Reply ε σ ι) :=
  match world.programs client with
  | .pure _ | .raise _ => none
  | .request request next =>
    (service client choice world.state request).map fun (reply, state) =>
      ⟨state, Function.update world.programs client (next reply)⟩

/-- The next statement of the client, if it has one, meets the condition. -/
def Meets (allowed : ι → σ → Req → Prop) (world : Interleaved Req Reply ε σ ι) (client : ι) : Prop :=
  match world.programs client with
  | .request request _ => allowed client world.state request
  | _ => True

/-- Finite interleavings all of whose statements meet the condition. -/
inductive Reaches (allowed : ι → σ → Req → Prop) (first : Interleaved Req Reply ε σ ι) :
    Interleaved Req Reply ε σ ι → Prop where
  | start : Reaches allowed first first
  | step {world next : Interleaved Req Reply ε σ ι} (reached : Reaches allowed first world) (client : ι) (choice : χ)
      (meets : world.Meets allowed client) (stepped : world.step service client choice = some next) :
      Reaches allowed first next

instance (allowed : ι → σ → Req → Prop) [∀ client state request, Decidable (allowed client state request)]
    (world : Interleaved Req Reply ε σ ι) (client : ι) : Decidable (world.Meets allowed client) := by
  unfold Meets
  split <;> infer_instance

/-- The interleaving that a list of turns and choices drives, as long as its
statements meet the condition. -/
def run (allowed : ι → σ → Req → Prop) [∀ client state request, Decidable (allowed client state request)]
    (world : Interleaved Req Reply ε σ ι) : List (ι × χ) → Option (Interleaved Req Reply ε σ ι)
  | [] => some world
  | (client, choice) :: turns =>
    if world.Meets allowed client then (world.step service client choice).bind fun next => run allowed next turns else none

variable {service}
variable {world : Interleaved Req Reply ε σ ι}

theorem step_some {next : Interleaved Req Reply ε σ ι} {client : ι} {choice : χ}
    (stepped : world.step service client choice = some next) :
    ∃ request rest reply after, world.programs client = .request request rest ∧
      service client choice world.state request = some (reply, after) ∧
      next = ⟨after, Function.update world.programs client (rest reply)⟩ := by
  unfold step at stepped
  split at stepped
  · cases stepped
  · cases stepped
  next request rest suspended =>
    obtain ⟨⟨reply, after⟩, answered, same⟩ := Option.map_eq_some_iff.mp stepped
    exact ⟨request, rest, reply, after, suspended, answered, same.symm⟩

variable {first : Interleaved Req Reply ε σ ι}

theorem run_reaches {allowed : ι → σ → Req → Prop} [∀ client state request, Decidable (allowed client state request)]
    {final : Interleaved Req Reply ε σ ι} {turns : List (ι × χ)}
    (reached : Reaches service allowed first world) (ran : world.run service allowed turns = some final) :
    Reaches service allowed first final := by
  induction turns generalizing world with
  | nil =>
    cases ran
    exact reached
  | cons turn turns ih =>
    unfold run at ran
    split at ran
    · next meets =>
      obtain ⟨next, stepped, ran⟩ := Option.bind_eq_some_iff.mp ran
      exact ih (.step reached turn.1 turn.2 meets stepped) ran
    · cases ran

/-- A condition that implies another admits no more interleavings. -/
theorem Reaches.weaken {allowed allowed' : ι → σ → Req → Prop} (reached : Reaches service allowed first world)
    (implies : ∀ client state request, allowed client state request → allowed' client state request) :
    Reaches service allowed' first world := by
  induction reached with
  | start => exact .start
  | @step world next _ client choice meets stepped ih =>
    refine .step ih client choice ?_ stepped
    unfold Meets at meets ⊢
    split
    next request rest suspended =>
      rw [suspended] at meets
      exact implies _ _ _ meets
    · trivial

/-- Clients that keep a contract keep it in every interleaving, and reach what
they end with as far as the others leave it alone. -/
theorem Reaches.safe_to (contract : Contract Req σ ι) {post : ι → Except ε Unit → σ → Prop}
    (reached : Reaches service contract.allowed first world)
    (refl : ∀ client state, contract.rely client state state)
    (trans : ∀ client first second third, contract.rely client first second → contract.rely client second third →
      contract.rely client first third)
    (stable : ∀ client result first second, post client result first → contract.rely client first second →
      post client result second)
    (kept : contract.kept first.state)
    (safe : ∀ client, contract.Safe service client (post client) (first.programs client) first.state) :
    contract.kept world.state ∧
      ∀ client, contract.Safe service client (post client) (world.programs client) world.state := by
  induction reached with
  | start => exact ⟨kept, safe⟩
  | @step world next _ client choice meets stepped ih =>
    obtain ⟨kept, safe⟩ := ih
    obtain ⟨request, rest, reply, after, suspended, answered, rfl⟩ := step_some stepped
    have own := safe client
    unfold Meets at meets
    rw [suspended] at own meets
    obtain ⟨kept', others, onward⟩ := own world.state kept (refl client _) meets choice reply after answered
    refine ⟨kept', fun other => ?_⟩
    by_cases same : other = client
    · subst other
      simpa only [Function.update_self] using onward
    · simp only [Function.update_of_ne same]
      exact (safe other).moved (trans other) (stable other) (others other same)

theorem Reaches.safe (contract : Contract Req σ ι)
    (reached : Reaches service contract.allowed first world) (refl : ∀ client state, contract.rely client state state)
    (trans : ∀ client first second third, contract.rely client first second → contract.rely client second third →
      contract.rely client first third)
    (kept : contract.kept first.state)
    (safe : ∀ client, contract.Safe service client (fun _ _ => True) (first.programs client) first.state) :
    contract.kept world.state ∧
      ∀ client, contract.Safe service client (fun _ _ => True) (world.programs client) world.state :=
  reached.safe_to contract refl trans (fun _ _ _ _ _ _ => trivial) kept safe

end Interleaved
end Foundation
