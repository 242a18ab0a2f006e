import Mathlib.Tactic

/-! Programs that issue requests and may raise. A program is a value: what it
has still to do is the continuation it carries, so an interpreter can suspend
it between any two requests. -/

namespace Foundation

inductive Prog (Req : Type) (Reply : Req → Type) (ε α : Type) where
  | pure (value : α)
  | raise (error : ε)
  | request (asked : Req) (next : Except ε (Reply asked) → Prog Req Reply ε α)

namespace Prog

variable {Req : Type} {Reply : Req → Type} {ε α β γ : Type}

def bind : Prog Req Reply ε α → (α → Prog Req Reply ε β) → Prog Req Reply ε β
  | .pure value, next => next value
  | .raise error, _ => .raise error
  | .request asked rest, next => .request asked (fun reply => (rest reply).bind next)

/-- Runs a program and hands its exception to whatever comes next. -/
def attempt : Prog Req Reply ε α → Prog Req Reply ε (Except ε α)
  | .pure value => .pure (.ok value)
  | .raise error => .pure (.error error)
  | .request asked rest => .request asked (fun reply => (rest reply).attempt)

instance : Monad (Prog Req Reply ε) where
  pure := .pure
  bind := .bind

@[simp] theorem pure_eq (value : α) : (Pure.pure value : Prog Req Reply ε α) = .pure value := rfl

@[simp] theorem bind_eq (program : Prog Req Reply ε α) (next : α → Prog Req Reply ε β) :
    (program >>= next) = program.bind next := rfl

theorem bind_pure (program : Prog Req Reply ε α) : program.bind .pure = program := by
  induction program with
  | pure value => rfl
  | raise error => rfl
  | request asked rest ih => simp only [bind, ih]

theorem bind_assoc (program : Prog Req Reply ε α) (first : α → Prog Req Reply ε β) (second : β → Prog Req Reply ε γ) :
    (program.bind first).bind second = program.bind (fun value => (first value).bind second) := by
  induction program with
  | pure value => rfl
  | raise error => rfl
  | request asked rest ih => simp only [bind, ih]

instance : LawfulMonad (Prog Req Reply ε) :=
  LawfulMonad.mk' _ bind_pure (fun _ _ => rfl) bind_assoc

/-- What a computation that issues no request returns or raises. -/
def ofExcept : Except ε α → Prog Req Reply ε α
  | .ok value => .pure value
  | .error error => .raise error

instance : MonadLift (Except ε) (Prog Req Reply ε) := ⟨ofExcept⟩

instance : MonadExcept ε (Prog Req Reply ε) where
  throw := .raise
  tryCatch body handler := body.attempt.bind fun
    | .ok value => .pure value
    | .error error => handler error

def perform (asked : Req) : Prog Req Reply ε (Reply asked) := .request asked ofExcept

/-- The same program among more requests. -/
def within {Req' : Type} {Reply' : Req' → Type} (inject : Req → Req') (answer : ∀ asked, Reply' (inject asked) → Reply asked) :
    Prog Req Reply ε α → Prog Req' Reply' ε α
  | .pure value => .pure value
  | .raise error => .raise error
  | .request asked next => .request (inject asked) fun reply => (next (reply.map (answer asked))).within inject answer

theorem within_bind {Req' : Type} {Reply' : Req' → Type} (inject : Req → Req')
    (answer : ∀ asked, Reply' (inject asked) → Reply asked) (program : Prog Req Reply ε α) (next : α → Prog Req Reply ε β) :
    (program.bind next).within inject answer = (program.within inject answer).bind fun value => (next value).within inject answer := by
  induction program with
  | pure value => rfl
  | raise error => rfl
  | request asked rest ih => simp only [bind, within, ih]

/-- Every request the program can ever issue is permitted. -/
def Only (permitted : Req → Prop) : Prog Req Reply ε α → Prop
  | .pure _ => True
  | .raise _ => True
  | .request asked next => permitted asked ∧ ∀ reply, (next reply).Only permitted

variable {program : Prog Req Reply ε α}

namespace Only

variable {permitted : Req → Prop}

theorem bind {next : α → Prog Req Reply ε β} (first : program.Only permitted)
    (second : ∀ value, (next value).Only permitted) : (program.bind next).Only permitted := by
  induction program with
  | pure value => exact second value
  | raise error => trivial
  | request asked rest ih => exact ⟨first.1, fun reply => ih reply (first.2 reply)⟩

theorem weaken {permitted' : Req → Prop} (only : program.Only permitted)
    (implies : ∀ asked, permitted asked → permitted' asked) : program.Only permitted' := by
  induction program with
  | pure value | raise error => trivial
  | request asked rest ih => exact ⟨implies asked only.1, fun reply => ih reply (only.2 reply)⟩

theorem attempt (only : program.Only permitted) : program.attempt.Only permitted := by
  induction program with
  | pure value => trivial
  | raise error => trivial
  | request asked rest ih => exact ⟨only.1, fun reply => ih reply (only.2 reply)⟩

theorem ofExcept (result : Except ε α) : (ofExcept result : Prog Req Reply ε α).Only permitted := by
  cases result <;> trivial

theorem perform {asked : Req} (only : permitted asked) : (perform asked : Prog Req Reply ε _).Only permitted :=
  ⟨only, fun reply => ofExcept reply⟩

theorem forM {items : List α} {each : α → Prog Req Reply ε PUnit} (only : ∀ item ∈ items, (each item).Only permitted) :
    (items.forM each).Only permitted := by
  induction items with
  | nil => trivial
  | cons item items ih =>
    exact bind (only item List.mem_cons_self) fun _ => ih fun other member => only other (List.mem_cons_of_mem _ member)

end Only

/-- Every value the program can return has the property. -/
def Returns (property : α → Prop) : Prog Req Reply ε α → Prop
  | .pure value => property value
  | .raise _ => True
  | .request _ next => ∀ reply, (next reply).Returns property

theorem Returns.trivial (program : Prog Req Reply ε α) : program.Returns fun _ => True := by
  induction program with
  | pure value => exact True.intro
  | raise error => exact True.intro
  | request asked rest ih => exact ih

theorem Returns.bind {property : β → Prop} {next : α → Prog Req Reply ε β}
    (each : ∀ value, (next value).Returns property) : (program.bind next).Returns property := by
  induction program with
  | pure value => exact each value
  | raise error => trivial
  | request asked rest ih => exact fun reply => ih reply

/-- Runs the program with nobody else, against a state that answers every request. -/
@[simp] def alone {σ : Type} (answer : σ → (asked : Req) → Except ε (Reply asked) × σ) : Prog Req Reply ε α → σ → Except ε α × σ
  | .pure value, state => (.ok value, state)
  | .raise error, state => (.error error, state)
  | .request asked next, state => (next (answer state asked).1).alone answer (answer state asked).2

theorem alone_bind {σ : Type} (answer : σ → (asked : Req) → Except ε (Reply asked) × σ) (program : Prog Req Reply ε α)
    (next : α → Prog Req Reply ε β) (state : σ) : (program.bind next).alone answer state =
      match program.alone answer state with
      | (.ok value, after) => (next value).alone answer after
      | (.error error, after) => (.error error, after) := by
  induction program generalizing state with
  | pure value => rfl
  | raise error => rfl
  | request asked rest ih => exact ih _ _

theorem alone_map {σ : Type} (answer : σ → (asked : Req) → Except ε (Reply asked) × σ) (convert : α → β)
    (program : Prog Req Reply ε α) (state : σ) : (convert <$> program).alone answer state =
      ((program.alone answer state).1.map convert, (program.alone answer state).2) := by
  rw [map_eq_pure_bind, bind_eq, alone_bind]
  rcases program.alone answer state with ⟨_ | _, after⟩ <;> rfl

end Prog
end Foundation
