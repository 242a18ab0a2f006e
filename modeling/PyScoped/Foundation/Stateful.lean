import Mathlib.Logic.Function.Basic

/-! Calls one after the other on a state of their own. A call that raises keeps
what it has written until then. -/

namespace Foundation

abbrev Stateful (σ ε : Type) := ExceptT ε (StateM σ)

namespace Stateful

variable {σ ε α β : Type}

/-- The result of a call, and the state behind it. -/
def on (program : Stateful σ ε α) (state : σ) : Except ε α × σ := program.run.run state

@[simp] theorem on_pure (value : α) (state : σ) : (pure value : Stateful σ ε α).on state = (.ok value, state) := rfl

@[simp] theorem on_throw (error : ε) (state : σ) :
    (throw error : Stateful σ ε α).on state = (.error error, state) := rfl

@[simp] theorem on_get (state : σ) : (get : Stateful σ ε σ).on state = (.ok state, state) := rfl

@[simp] theorem on_set (state after : σ) : (set after : Stateful σ ε PUnit).on state = (.ok ⟨⟩, after) := rfl

@[simp] theorem on_modify (change : σ → σ) (state : σ) :
    (modify change : Stateful σ ε PUnit).on state = (.ok ⟨⟩, change state) := rfl

theorem on_bind (program : Stateful σ ε α) (next : α → Stateful σ ε β) (state : σ) :
    (program >>= next).on state = match program.on state with
      | (.ok value, after) => (next value).on after
      | (.error error, after) => (.error error, after) := by
  simp only [on, bind, ExceptT.bind, ExceptT.run, ExceptT.mk, StateT.run, StateT.bind, ExceptT.bindCont]
  rcases program state with ⟨_ | _, after⟩ <;> rfl

variable {program : Stateful σ ε α} {next : α → Stateful σ ε β} {state : σ}

/-- A call that returns, returns step by step. -/
theorem on_bind_ok {after : σ} {result : β} :
    (program >>= next).on state = (.ok result, after) ↔
      ∃ value middle, program.on state = (.ok value, middle) ∧ (next value).on middle = (.ok result, after) := by
  rw [on_bind]
  rcases program.on state with ⟨error | value, middle⟩
  · exact ⟨nofun, fun ⟨_, _, ran, _⟩ => by cases ran⟩
  · constructor
    · exact fun rest => ⟨value, middle, rfl, rest⟩
    · rintro ⟨_, _, ran, rest⟩
      cases ran
      exact rest

theorem on_map (convert : α → β) (program : Stateful σ ε α) (state : σ) :
    (convert <$> program).on state = ((program.on state).1.map convert, (program.on state).2) := by
  simp only [on, Functor.map, ExceptT.map, ExceptT.run, ExceptT.mk, StateT.run, StateT.bind, bind]
  rcases program state with ⟨_ | _, after⟩ <;> rfl

theorem on_bind_pure (convert : α → β) (program : Stateful σ ε α) (state : σ) :
    (program >>= fun value => pure (convert value)).on state =
      ((program.on state).1.map convert, (program.on state).2) := by
  rw [on_bind]
  rcases program.on state with ⟨_ | _, after⟩ <;> rfl

/-- An answer that does not depend on the state. -/
@[simp] theorem on_lift (answer : Except ε α) (state : σ) : (liftM answer : Stateful σ ε α).on state = (answer, state) := by
  cases answer <;> rfl

/-- The rule for loops. What an item has brought about stays so as long as the
later ones keep it, and the invariant goes from item to item. -/
theorem on_forM {items : List α} {body : α → Stateful σ ε PUnit} {keeps : σ → σ → Prop} (invariant : σ → Prop)
    (done : α → σ → Prop) (refl : ∀ state, keeps state state)
    (trans : ∀ first second third, keeps first second → keeps second third → keeps first third)
    (stable : ∀ item first second, keeps first second → done item first → done item second)
    (each : ∀ item ∈ items, ∀ state, invariant state →
      ∃ after, (body item).on state = (.ok ⟨⟩, after) ∧ keeps state after ∧ invariant after ∧ done item after)
    (state : σ) (start : invariant state) :
    ∃ after, (items.forM body).on state = (.ok ⟨⟩, after) ∧ keeps state after ∧ invariant after ∧
      ∀ item ∈ items, done item after := by
  induction items generalizing state with
  | nil => exact ⟨state, rfl, refl state, start, nofun⟩
  | cons item items ih =>
    obtain ⟨middle, ran, kept, held, brought⟩ := each item List.mem_cons_self state start
    obtain ⟨after, ran', kept', held', all⟩ := ih (fun other member => each other (List.mem_cons_of_mem _ member)) middle held
    refine ⟨after, ?_, trans _ _ _ kept kept', held', ?_⟩
    · change (body item >>= fun _ => items.forM body).on state = _
      rw [on_bind, ran]
      exact ran'
    · exact List.forall_mem_cons.mpr ⟨stable _ _ _ kept' brought, all⟩

theorem on_tryCatch (body : Stateful σ ε α) (handler : ε → Stateful σ ε α) (state : σ) :
    (tryCatch body handler).on state = match body.on state with
      | (.ok value, after) => (.ok value, after)
      | (.error error, after) => (handler error).on after := by
  simp only [on, tryCatch, tryCatchThe, MonadExceptOf.tryCatch, ExceptT.tryCatch, ExceptT.run, ExceptT.mk, StateT.run,
    StateT.bind, bind]
  rcases body state with ⟨_ | _, after⟩ <;> rfl

/-- A statement that reads, unless it fails. -/
def ask (fault : Option ε) (answer : σ → α) : Stateful σ ε α :=
  match fault with
  | some error => throw error
  | none => do return answer (← get)

/-- A statement that writes, unless it fails. -/
def assign (fault : Option ε) (change : σ → σ) : Stateful σ ε PUnit :=
  match fault with
  | some error => throw error
  | none => modify change

@[simp] theorem on_ask_none (answer : σ → α) (state : σ) :
    (ask none answer : Stateful σ ε α).on state = (.ok (answer state), state) := rfl

@[simp] theorem on_ask_some (error : ε) (answer : σ → α) (state : σ) :
    (ask (some error) answer : Stateful σ ε α).on state = (.error error, state) := rfl

@[simp] theorem on_assign_none (change : σ → σ) (state : σ) :
    (assign none change : Stateful σ ε PUnit).on state = (.ok ⟨⟩, change state) := rfl

@[simp] theorem on_assign_some (error : ε) (change : σ → σ) (state : σ) :
    (assign (some error) change : Stateful σ ε PUnit).on state = (.error error, state) := rfl

/-- A call that leaves the state alone, whether it returns or raises. -/
def Reads (program : Stateful σ ε α) : Prop := ∀ state, (program.on state).2 = state

namespace Reads

theorem pure (value : α) : Reads (Pure.pure value : Stateful σ ε α) := fun _ => rfl

theorem throw (error : ε) : Reads (MonadExcept.throw error : Stateful σ ε α) := fun _ => rfl

theorem ask (fault : Option ε) (answer : σ → α) : Reads (Stateful.ask fault answer) := by
  cases fault <;> exact fun _ => rfl

/-- A test that refuses or goes on. -/
theorem guard (condition : Prop) [Decidable condition] (error : ε) (value : α) :
    Reads (if condition then MonadExcept.throw error else Pure.pure value : Stateful σ ε α) := by
  split
  · exact throw error
  · exact pure value

theorem bind (first : program.Reads) (second : ∀ value, (next value).Reads) : (program >>= next).Reads := by
  intro state
  have same := first state
  rw [Stateful.on_bind]
  cases ran : program.on state with
  | mk result after =>
    rw [ran] at same
    cases result with
    | error error => exact same
    | ok value => exact (second value after).trans same

/-- After a call that only reads, the rest begins where it began. -/
theorem on_bind (reads : program.Reads) (next : α → Stateful σ ε β) (state : σ) :
    (program >>= next).on state = match (program.on state).1 with
      | .ok value => (next value).on state
      | .error error => (.error error, state) := by
  have same := reads state
  rw [Stateful.on_bind]
  cases ran : program.on state with
  | mk result after =>
    rw [ran] at same
    cases same
    cases result <;> rfl

end Reads

/-- A relation that every call here keeps between its state and the one behind it,
whether it returns or raises. -/
def Goes (related : σ → σ → Prop) (program : Stateful σ ε α) : Prop := ∀ state, related state (program.on state).2

namespace Goes

variable {related : σ → σ → Prop}

theorem pure (refl : ∀ state, related state state) (value : α) : Goes related (Pure.pure value : Stateful σ ε α) := refl

theorem throw (refl : ∀ state, related state state) (error : ε) :
    Goes related (MonadExcept.throw error : Stateful σ ε α) := refl

theorem bind (trans : ∀ first second third, related first second → related second third → related first third)
    (first : program.Goes related)
    (second : ∀ value, (next value).Goes related) : (program >>= next).Goes related := by
  intro state
  have moved := first state
  rw [on_bind]
  cases ran : program.on state with
  | mk result after =>
    rw [ran] at moved
    cases result with
    | error error => exact moved
    | ok value => exact trans _ _ _ moved (second value after)

/-- What is read is the state itself, so the rest may depend on it. -/
theorem get_bind {next : σ → Stateful σ ε β} (rest : ∀ state, related state ((next state).on state).2) :
    (MonadState.get >>= next).Goes related := rest

end Goes

/-- What a call returns, if it does. -/
def Passes (program : Stateful σ ε α) (state : σ) (value : α) : Prop := (program.on state).1 = .ok value

namespace Passes

theorem pure_iff {value result : α} : (Pure.pure value : Stateful σ ε α).Passes state result ↔ value = result :=
  ⟨fun passed => Except.ok.inj passed, fun same => congrArg Except.ok same⟩

theorem not_throw {error : ε} {result : α} : ¬ (throw error : Stateful σ ε α).Passes state result := nofun

theorem ask_iff {fault : Option ε} {answer : σ → α} {result : α} :
    (ask fault answer).Passes state result ↔ fault = none ∧ answer state = result := by
  cases fault with
  | none => exact ⟨fun passed => ⟨rfl, Except.ok.inj passed⟩, fun passed => congrArg Except.ok passed.2⟩
  | some error => exact ⟨nofun, fun passed => by cases passed.1⟩

theorem guard_iff {condition : Prop} [Decidable condition] {error : ε} {value result : α} :
    Passes (if condition then throw error else Pure.pure value : Stateful σ ε α) state result ↔
      ¬ condition ∧ value = result := by
  split
  next held => exact ⟨fun passed => absurd passed not_throw, fun passed => absurd held passed.1⟩
  next free => exact pure_iff.trans ⟨fun same => ⟨free, same⟩, fun passed => passed.2⟩

theorem bind_iff (reads : program.Reads) {result : β} :
    (program >>= next).Passes state result ↔ ∃ value, program.Passes state value ∧ (next value).Passes state result := by
  unfold Passes
  rw [reads.on_bind]
  cases ran : (program.on state).1 with
  | ok value => simp
  | error error => simp

theorem then_iff {program : Stateful σ ε PUnit} (reads : program.Reads) {next : PUnit → Stateful σ ε β}
    {result : β} : (program >>= next).Passes state result ↔ program.Passes state ⟨⟩ ∧ (next ⟨⟩).Passes state result :=
  (bind_iff reads).trans ⟨fun ⟨_, passed⟩ => passed, fun passed => ⟨⟨⟩, passed⟩⟩

/-- A lookup that raises where nothing is found. -/
theorem found_iff {fault : Option ε} {answer : σ → Option α} {next : Option α → Stateful σ ε α} {error : ε} {result : α}
    (found : ∀ value, next (some value) = Pure.pure value) (missing : next none = throw error) :
    (ask fault answer >>= next).Passes state result ↔ fault = none ∧ answer state = some result := by
  rw [bind_iff (.ask _ _)]
  constructor
  · rintro ⟨row, asked, rest⟩
    obtain ⟨fine, read⟩ := ask_iff.mp asked
    cases row with
    | none => exact absurd (missing ▸ rest) not_throw
    | some value =>
      rw [found] at rest
      exact ⟨fine, pure_iff.mp rest ▸ read⟩
  · exact fun ⟨fine, read⟩ => ⟨some result, ask_iff.mpr ⟨fine, read⟩, found result ▸ pure_iff.mpr rfl⟩

/-- A call that only reads leaves its state behind it. -/
theorem on_eq {value : α} (passes : program.Passes state value) (reads : program.Reads) :
    program.on state = (.ok value, state) := Prod.ext passes (reads state)

end Passes

/-- A call that does not return raises. -/
theorem Reads.raises (reads : program.Reads)
    (stuck : ¬ ∃ value, program.Passes state value) : ∃ error, program.on state = (.error error, state) := by
  cases ran : (program.on state).1 with
  | ok value => exact absurd ⟨value, ran⟩ stuck
  | error error => exact ⟨error, Prod.ext ran (reads state)⟩

end Stateful
end Foundation
