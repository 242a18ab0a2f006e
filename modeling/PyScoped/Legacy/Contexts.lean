import Mathlib.Logic.Function.Basic

/-! `ScopedContext` of version 1, on one thread. An object remembers the token of
its last entry; a token stands for what was current when it was made. -/

namespace PyScoped.Legacy.Contexts

variable {ι : Type} [DecidableEq ι]

/-- The context variable, and the token of each object. -/
structure Thread (ι : Type) where
  current : Option ι
  tokens : ι → Option (Option ι)

/-- The block of an object begins, or ends, by an exception or not. -/
inductive Turn (ι : Type) where
  | enter (context : ι)
  | exit (context : ι) (raised : Bool)
  deriving DecidableEq

namespace Thread

/-- Nobody has acted yet. -/
def idle : Thread ι := ⟨none, fun _ => none⟩

/-- `__enter__` -/
def enter (thread : Thread ι) (context : ι) : Thread ι :=
  ⟨some context, Function.update thread.tokens context (some thread.current)⟩

/-- `__exit__`, which does not look at the exception. -/
def exit (thread : Thread ι) (context : ι) : Thread ι :=
  match thread.tokens context with
  | some previous => ⟨previous, Function.update thread.tokens context none⟩
  | none => thread

def turn (thread : Thread ι) : Turn ι → Thread ι
  | .enter context => thread.enter context
  | .exit context _ => thread.exit context

def run (thread : Thread ι) (turns : List (Turn ι)) : Thread ι := turns.foldl turn thread

end Thread
end PyScoped.Legacy.Contexts
