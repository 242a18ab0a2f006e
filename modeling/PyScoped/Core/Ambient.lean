import PyScoped.Foundation.Program
import PyScoped.Core.Context

/-! The context variable of one thread, the scope managers that set and reset it, and
the bodies of streaming responses that run under it piece by piece. A token stands for
the value that was current when it was made. -/

namespace PyScoped.Ambient
open Foundation

/-! Scope managers, each with its own context. -/

section Scopes

variable {ι : Type} [DecidableEq ι]

structure Managers (ι : Type) where
  current : Option Active
  tokens : ι → Option (Option Active)

inductive Turn (ι : Type) where
  | enter (block : ι)
  | exit (block : ι)
  deriving DecidableEq

variable (contexts : ι → Active)

/-- `scope.__enter__` -/
def Managers.enter (managers : Managers ι) (block : ι) : Except Err (Managers ι) :=
  match managers.tokens block with
  | some _ => .error (.application "Use a fresh scope manager for each nested/concurrent entry.")
  | none => .ok ⟨some (contexts block), Function.update managers.tokens block (some managers.current)⟩

/-- `scope.__exit__` -/
def Managers.exit (managers : Managers ι) (block : ι) : Except Err (Managers ι) :=
  match managers.tokens block with
  | some previous => .ok ⟨previous, Function.update managers.tokens block none⟩
  | none => .error (.application "expected an instance of Token, got None")

def Managers.turn (managers : Managers ι) : Turn ι → Except Err (Managers ι)
  | .enter block => managers.enter contexts block
  | .exit block => managers.exit block

def Managers.run (managers : Managers ι) (turns : List (Turn ι)) : Except Err (Managers ι) :=
  turns.foldlM (Managers.turn contexts) managers

/-- No block is open. -/
def Managers.outside (current : Option Active) : Managers ι := ⟨current, fun _ => none⟩

end Scopes

/-! Bodies of streaming responses. -/

/-- What a body does: enter a nested block, leave the innermost one, ask for the current
context, yield. -/
inductive Ask where
  | enter (context : Active)
  | leave
  | current
  | emit (chunk : String)

def Answer : Ask → Type
  | .current => Option Active
  | _ => Unit

abbrev Body := Prog Ask Answer Err Unit

/-- An open `with scope(...)`, and its token. -/
structure Block where
  context : Active
  token : Option Active

/-- The context of the innermost open block, else that of the request. -/
def innermost (request : Option Active) (contexts : List Active) : Option Active := contexts.head? <|> request

/-- The current context while a body has control, and what it ought to be. -/
structure Moment where
  actual : Option Active
  expected : Option Active

inductive Generator where
  | fresh (body : Body)
  | suspended (rest : Except Err Unit → Body) (blocks : List Block)
  | finished

/-- What a run of a body leaves. No chunk is `StopIteration`. -/
structure Control where
  result : Except Err (Option String)
  generator : Generator
  current : Option Active
  moments : List Moment

/-- The open blocks are left, the innermost first. -/
def unwind (current : Option Active) : List Block → Option Active
  | [] => current
  | block :: blocks => unwind block.token blocks

/-- Runs a body until it yields or ends. -/
def Body.run (request : Option Active) : Body → Option Active → List Block → List Moment → Control
  | .pure _, current, blocks, moments =>
    ⟨.ok none, .finished, unwind current blocks, ⟨current, innermost request (blocks.map (·.context))⟩ :: moments⟩
  | .raise error, current, blocks, moments =>
    ⟨.error error, .finished, unwind current blocks, ⟨current, innermost request (blocks.map (·.context))⟩ :: moments⟩
  | .request (.emit chunk) next, current, blocks, moments =>
    ⟨.ok (some chunk), .suspended next blocks, current,
      ⟨current, innermost request (blocks.map (·.context))⟩ :: moments⟩
  | .request (.enter context) next, current, blocks, moments =>
    Body.run request (next (.ok ())) (some context) (⟨context, current⟩ :: blocks)
      (⟨current, innermost request (blocks.map (·.context))⟩ :: moments)
  | .request .leave next, current, blocks, moments =>
    Body.run request (next (.ok ())) (match blocks with | [] => current | block :: _ => block.token) blocks.tail
      (⟨current, innermost request (blocks.map (·.context))⟩ :: moments)
  | .request .current next, current, blocks, moments =>
    Body.run request (next (.ok current)) current blocks
      (⟨current, innermost request (blocks.map (·.context))⟩ :: moments)

def generatorExit : Err := .application "GeneratorExit"

namespace Generator

variable (request : Option Active)

/-- `next(iterator)` -/
def next (generator : Generator) (current : Option Active) (moments : List Moment) : Control :=
  match generator with
  | .fresh body => body.run request current [] moments
  | .suspended rest blocks => (rest (.ok ())).run request current blocks moments
  | .finished => ⟨.ok none, .finished, current, moments⟩

/-- `iterator.close()` -/
def close (generator : Generator) (current : Option Active) (moments : List Moment) : Control :=
  match generator with
  | .fresh _ => ⟨.ok none, .finished, current, moments⟩
  | .suspended rest blocks => (rest (.error generatorExit)).run request current blocks moments
  | .finished => ⟨.ok none, .finished, current, moments⟩

end Generator

/-- Where the generator `chunks()` stands. -/
inductive Phase where
  | fresh
  | suspended
  | finished
  deriving DecidableEq

/-- A response whose content is streamed in the context of its request, and whether what
the content is iterated with has a `close`. -/
structure Stream where
  request : Option Active
  closable : Bool
  source : Generator
  phase : Phase

/-- A thread. The context that the consumer of the streams has is a remark, and so are
the moments at which a body had control. -/
structure Thread where
  current : Option Active
  streams : List Stream
  consumer : Option Active
  moments : List Moment

/-- `with _bind(ctx): ...` around a step of the body -/
def bind (ctx : Option Active) (step : Option Active → Control) (current : Option Active) : Control :=
  let token := current
  let control := step ctx
  { control with current := token }

namespace Stream

/-- The `finally` of `chunks()`. -/
def closeSource (stream : Stream) (current : Option Active) (moments : List Moment) : Control :=
  if stream.closable then
    bind stream.request (fun current => stream.source.close stream.request current moments) current
  else ⟨.ok none, stream.source, current, moments⟩

/-- One pull of `chunks()`. -/
def pull (stream : Stream) (current : Option Active) (moments : List Moment) : Stream × Option Active × List Moment :=
  match stream.phase with
  | .finished => (stream, current, moments)
  | _ =>
    let pulled := bind stream.request (fun current => stream.source.next stream.request current moments) current
    match pulled.result with
    | .ok (some _) => ({ stream with source := pulled.generator, phase := .suspended }, pulled.current, pulled.moments)
    | _ =>
      let closed := closeSource { stream with source := pulled.generator } pulled.current pulled.moments
      ({ stream with source := closed.generator, phase := .finished }, closed.current, closed.moments)

/-- `chunks().close()` -/
def close (stream : Stream) (current : Option Active) (moments : List Moment) : Stream × Option Active × List Moment :=
  match stream.phase with
  | .suspended =>
    let closed := stream.closeSource current moments
    ({ stream with source := closed.generator, phase := .finished }, closed.current, closed.moments)
  | _ => ({ stream with phase := .finished }, current, moments)

/-- The body is closed by another than `chunks()`, as by the response's own closers or by
the interpreter once nothing refers to it. -/
def drop (stream : Stream) (current : Option Active) (moments : List Moment) : Stream × Option Active × List Moment :=
  let closed := stream.source.close stream.request current moments
  ({ stream with source := closed.generator }, closed.current, closed.moments)

end Stream

/-- What happens on the thread: a response is streamed, a stream is pulled or closed or
its body dropped, or the consumer goes on in another context. -/
inductive Step where
  | respond (body : Body) (request : Option Active) (closable : Bool)
  | pull (index : Nat)
  | close (index : Nat)
  | drop (index : Nat)
  | consume (context : Option Active)

namespace Thread

def onStream (thread : Thread) (index : Nat)
    (act : Stream → Option Active → List Moment → Stream × Option Active × List Moment) : Thread :=
  match thread.streams[index]? with
  | none => thread
  | some stream =>
    let (stream, current, moments) := act stream thread.current thread.moments
    { thread with streams := thread.streams.set index stream, current := current, moments := moments }

def step (thread : Thread) : Step → Thread
  | .respond body request closable =>
    { thread with streams := thread.streams ++ [⟨request, closable, .fresh body, .fresh⟩] }
  | .pull index => thread.onStream index Stream.pull
  | .close index => thread.onStream index Stream.close
  | .drop index => thread.onStream index Stream.drop
  | .consume context => { thread with current := context, consumer := context }

end Thread

end PyScoped.Ambient
