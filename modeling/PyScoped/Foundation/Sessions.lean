import PyScoped.Foundation.Interleaving

/-! Calls that begin somewhere in an interleaving, measured against the state there.
An observer that never asks for anything relies on what every statement does, that of
the client itself included. -/

namespace Foundation

variable {Req : Type} {Reply : Req → Type} {ε σ ι χ α : Type}

/-- The same service, with an observer among its clients. -/
def Service.observed (service : Service Req Reply ε σ ι χ) : Service Req Reply ε σ (Option ι) χ :=
  fun client choice state request => client.elim none fun client => service client choice state request

def Interleaved.observed (world : Interleaved Req Reply ε σ ι) : Interleaved Req Reply ε σ (Option ι) :=
  ⟨world.state, fun client => client.elim (.pure ()) world.programs⟩

theorem Interleaved.Reaches.observed [DecidableEq ι] {service : Service Req Reply ε σ ι χ} {first world : Interleaved Req Reply ε σ ι}
    (reached : Reaches service (fun _ _ _ => True) first world) :
    Reaches service.observed (fun _ _ _ => True) first.observed world.observed := by
  induction reached with
  | start => exact .start
  | @step world next _ client choice meets stepped ih =>
    refine .step ih (some client) choice ?_ ?_
    · unfold Meets
      split <;> trivial
    · obtain ⟨request, rest, reply, after, suspended, answered, rfl⟩ := step_some stepped
      have suspended : world.observed.programs (some client) = .request request rest := suspended
      have answered : service.observed (some client) choice world.observed.state request = some (reply, after) := answered
      unfold Interleaved.step
      rw [suspended]
      dsimp only
      rw [answered, Option.map_some]
      refine congrArg some (congrArg (Interleaved.mk after) (funext fun other => ?_))
      cases other with
      | none => rw [Function.update_of_ne (Option.some_ne_none client).symm]; rfl
      | some other =>
        by_cases same : other = client
        · subst other
          rw [Function.update_self]
          exact (Function.update_self (f := world.programs) client (rest reply)).symm
        · rw [Function.update_of_ne fun equal => same (Option.some.inj equal)]
          exact (Function.update_of_ne same (rest reply) world.programs).symm

/-- A client that has no turn is where it was. -/
theorem Interleaved.run_untouched [DecidableEq ι] {service : Service Req Reply ε σ ι χ} {allowed : ι → σ → Req → Prop}
    [∀ client state request, Decidable (allowed client state request)] {client : ι} {turns : List (ι × χ)}
    {world final : Interleaved Req Reply ε σ ι} (untouched : ∀ turn ∈ turns, turn.1 ≠ client)
    (ran : world.run service allowed turns = some final) : final.programs client = world.programs client := by
  induction turns generalizing world with
  | nil =>
    cases ran
    rfl
  | cons turn turns ih =>
    unfold run at ran
    split at ran
    · obtain ⟨next, stepped, ran⟩ := Option.bind_eq_some_iff.mp ran
      obtain ⟨request, rest, reply, after, -, -, rfl⟩ := step_some stepped
      rw [ih (fun other member => untouched other (List.mem_cons_of_mem _ member)) ran]
      exact Function.update_of_ne (untouched turn List.mem_cons_self).symm _ _
    · cases ran

namespace Contract

/-- The contract, with something more to keep. -/
def further (contract : Contract Req σ ι) (extra : σ → Prop) : Contract Req σ ι :=
  { contract with kept := fun state => contract.kept state ∧ extra state }

variable {contract : Contract Req σ ι} {service : Service Req Reply ε σ ι χ} {client : ι} {extra : σ → Prop}

/-- Where each permitted statement keeps what is added, a program that keeps the contract keeps both. -/
theorem Safe.further {permitted : Req → Prop} {post : Except ε α → σ → Prop} {program : Prog Req Reply ε α} {state : σ}
    (safe : contract.Safe service client post program state) (only : program.Only permitted)
    (steps : ∀ request choice now reply after, permitted request → service client choice now request = some (reply, after) →
      (∀ other, other ≠ client → contract.rely other now after) → extra now → extra after) :
    (contract.further extra).Safe service client post program state := by
  induction program generalizing state with
  | pure value => exact safe
  | raise error => exact safe
  | request request next ih =>
    intro now kept moved allowed choice reply after answered
    obtain ⟨kept', others, rest⟩ := safe now kept.1 moved allowed choice reply after answered
    exact ⟨⟨kept', steps request choice now reply after only.1 answered others kept.2⟩, others, ih reply rest (only.2 reply)⟩

/-- What a program raises is raised by the whole. -/
theorem Safe.andThen {β : Type} {middle : Except ε α → σ → Prop} {post : Except ε β → σ → Prop} {program : Prog Req Reply ε α}
    {next : α → Prog Req Reply ε β} {state : σ} (safe : contract.Safe service client middle program state)
    (raises : ∀ error final, middle (.error error) final → post (.error error) final)
    (returns : ∀ value final, middle (.ok value) final → contract.Safe service client post (next value) final) :
    contract.Safe service client post (program.bind next) state := by
  apply Safe.bind
  apply safe.weaken
  intro result final reached
  cases result with
  | ok value => exact returns value final reached
  | error error => exact raises error final reached

end Contract

theorem Prog.Only.all (program : Prog Req Reply ε α) : program.Only fun _ => True := by
  induction program with
  | pure value | raise error => trivial
  | request asked next ih => exact ⟨trivial, ih⟩

end Foundation
