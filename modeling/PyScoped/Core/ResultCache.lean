import PyScoped.Core.Query

/-! Querysets as objects: which checks a method passes while the result cache is
empty and once it is filled. Below the overridden methods Django does what it
documents; what the filters of a query select is the database's to answer. -/

namespace PyScoped.ResultCache
open Foundation

variable {app : App}

/-- A row of any model. -/
abbrev Entry (app : App) := Σ label : String, Loaded app label

/-- What a method raises: an error of a check, or one of Python and Django. -/
inductive Refusal where
  | check (error : Err)
  | typeError (message : String)
  | valueError (message : String)
  | indexError
  | notSupported (message : String)
  | stopIteration
  | other (message : String)

/-- What the database answers, and what else may be raised on the way to it. -/
structure Choice (app : App) where
  failure : Option Refusal
  rows : List (Entry app)
  value : Value

/-- A queryset. It is a `ScopedQuerySet` unless Django built it from the plain
base manager of its model. -/
structure Object (app : App) where
  label : String
  config : Registration (app.model label)
  context : Option Active
  guarded : Bool
  scopedBase : Bool
  metaOrdering : Bool
  ordered : Bool
  sliced : Bool
  combined : Bool
  projected : Bool
  empty : Bool
  resultCache : Option (List (Entry app))

namespace Object

variable (object : Object app) (current : Option Active) (choice : Choice app)

def queryset : Queryset app :=
  ⟨object.label, object.context, object.sliced, object.combined, object.projected, fun _ _ => true⟩

/-- `_check_context`, which only a `ScopedQuerySet` has. -/
def checkContext : Except Refusal Unit :=
  if object.guarded then (object.queryset.checkContext object.config ⟨current, none, []⟩).mapError .check else .ok ()

/-- `_ScopedQuery.check_context`, of its own query or of the subquery that a
plain queryset is filtered by. -/
def compile : Except Refusal Unit :=
  match object.context, currentContext current with
  | none, _ => .ok ()
  | some _, .error error => .error (.check error)
  | some context, .ok active =>
    if active.token = context.token then .ok ()
    else .error (.check (.scopeViolation "A query/subquery cannot escape its originating scope context."))

def evaluate : Except Refusal (List (Entry app)) := do
  object.compile current
  match choice.failure with
  | some refusal => .error refusal
  | none => return if object.empty then [] else choice.rows

/-- A clone keeps the context and drops the cache. -/
def clone : Object app := { object with resultCache := none }

/-- After the check the rows of the cache, or of the database where it is empty. Only
`_fetch_all` then fills the cache. -/
def checkedRows : Except Refusal (List (Entry app)) := do
  object.checkContext current
  match object.resultCache with
  | some rows => return rows
  | none => object.evaluate current choice

def isOrdered : Bool := object.empty || object.ordered

def filter : Except Refusal (Object app) :=
  if object.sliced then .error (.typeError "Cannot filter a query once a slice has been taken.")
  else if object.combined then .error (.notSupported "Calling QuerySet.filter() after a combination is not supported.")
  else .ok object.clone

def orderBy : Except Refusal (Object app) :=
  if object.sliced then .error (.typeError "Cannot reorder a query once a slice has been taken.")
  else .ok { object.clone with ordered := true }

def limited : Object app := { object.clone with sliced := true }

def count : Except Refusal Nat := do return (← object.checkedRows current choice).length

def exists' : Except Refusal Bool := do return !(← object.checkedRows current choice).isEmpty

end Object

/-- The positions a Python slice selects, its bounds not negative. -/
def sliceIndices (length : Nat) (start stop : Option Nat) (step : Int) : List Nat :=
  if 0 < step then
    (List.range length).filter fun i =>
      start.getD 0 ≤ i && i < stop.getD length && (i - start.getD 0) % step.toNat == 0
  else
    let first := min (start.getD (length - 1)) (length - 1)
    (List.range length).reverse.filter fun i =>
      i ≤ first && stop.all (fun stop => stop < i) && (first - i) % (-step).toNat == 0

def sliceRows {α : Type} (rows : List α) (start stop : Option Int) (step : Int) : List α :=
  (sliceIndices rows.length (start.map Int.toNat) (stop.map Int.toNat) step).filterMap fun i => rows[i]?

inductive Method where
  | iter
  | len
  | bool
  | index (position : Int)
  | slice (start stop step : Option Int)
  | first
  | contains (label : String) (pk : Value)
  | count
  | exists'
  | aggregate
  | all
  | filter
  | orderBy
  | values
  | none

/-- Rows, or what was computed from rows. -/
inductive Data (app : App) where
  | rows (rows : List (Entry app))
  | row (row : Option (Entry app))
  | number (value : Nat)
  | truth (value : Bool)
  | value (value : Value)

/-- A result without data is another queryset, or what holds of every queryset
of the model. -/
inductive Answer (app : App) where
  | data (data : Data app)
  | queryset (object : Object app)
  | constant (value : Bool)

namespace Object

variable (object : Object app) (current : Option Active) (choice : Choice app)

/-- `__getitem__` of an integer. -/
def index (position : Int) : Except Refusal (Entry app) :=
  if position < 0 then .error (.valueError "Negative indexing is not supported.")
  else match object.resultCache with
    | some rows => match rows[position.toNat]? with
      | some row => .ok row
      | none => .error .indexError
    | none => do
      match (← object.limited.checkedRows current choice).head? with
      | some row => .ok row
      | none => .error .indexError

/-- `__getitem__` of a slice. -/
def slice (start stop step : Option Int) : Except Refusal (Answer app) :=
  if start.any (· < 0) || stop.any (· < 0) then .error (.valueError "Negative indexing is not supported.")
  else match object.resultCache with
    | some rows =>
      if step = some 0 then .error (.valueError "slice step cannot be zero")
      else .ok (.data (.rows (sliceRows rows start stop (step.getD 1))))
    | none =>
      if step.all (· = 0) then .ok (.queryset object.limited)
      else do
        let rows ← object.limited.checkedRows current choice
        return .data (.rows (sliceRows rows none none (step.getD 1)))

/-- The first row of `queryset[:1]`. -/
def head : Except Refusal (Option (Entry app)) :=
  match object.resultCache with
  | some rows => .ok rows.head?
  | none => do
    let rows ← object.limited.checkedRows current choice
    return rows.head?

def first : Except Refusal (Option (Entry app)) :=
  if object.isOrdered then object.head current choice
  else do
    let ordered ← object.orderBy
    ordered.head current choice

def contains (label : String) (pk : Value) : Except Refusal (Answer app) :=
  if object.combined then .error (.notSupported "Calling QuerySet.contains() after a combination is not supported.")
  else if object.projected then .error (.typeError "Cannot call QuerySet.contains() after .values() or .values_list().")
  else if label ≠ object.label then .ok (.constant false)
  else if pk = .none then .error (.valueError "QuerySet.contains() cannot be used on unsaved objects.")
  else match object.resultCache with
    | some rows => .ok (.data (.truth (rows.any fun row => row.1 == label && row.2.pk.same pk)))
    | none => do
      let filtered ← object.filter
      let found ← filtered.exists' current choice
      return .data (.truth found)

/-- What a method answers, and the queryset with its cache afterwards. -/
def call : Method → Except Refusal (Answer app × Object app)
  | .iter => do
    let rows ← object.checkedRows current choice
    return (.data (.rows rows), { object with resultCache := some rows })
  | .len => do
    let rows ← object.checkedRows current choice
    return (.data (.number rows.length), { object with resultCache := some rows })
  | .bool => do
    let rows ← object.checkedRows current choice
    return (.data (.truth !rows.isEmpty), { object with resultCache := some rows })
  | .index position => do return (.data (.row (← object.index current choice position)), object)
  | .slice start stop step => do return (← object.slice current choice start stop step, object)
  | .first => do return (.data (.row (← object.first current choice)), object)
  | .contains label pk => do return (← object.contains current choice label pk, object)
  | .count => do return (.data (.number (← object.count current choice)), object)
  | .exists' => do return (.data (.truth (← object.exists' current choice)), object)
  | .aggregate => do
    object.checkContext current
    let _ ← object.evaluate current choice
    return (.data (.value choice.value), object)
  | .all => .ok (.queryset object.clone, object)
  | .filter => do return (.queryset (← object.filter), object)
  | .orderBy => do return (.queryset (← object.orderBy), object)
  | .values => .ok (.queryset { object.clone with projected := true }, object)
  | .none => .ok (.queryset { object.clone with empty := true }, object)

end Object

inductive Merge where
  | or
  | and
  | xor
  deriving DecidableEq

inductive Combinator where
  | union
  | intersection
  | difference
  deriving DecidableEq

/-- One of the given querysets itself, or a new one. -/
inductive Merged (app : App) where
  | left
  | right (position : Nat)
  | new (object : Object app)

namespace Object

variable (object : Object app) (current : Option Active) (choice : Choice app)

/-- `_check_other`, as far as the receiver has it. -/
def checkOther (other : Object app) : Except Refusal Unit :=
  if object.guarded then do
    object.checkContext current
    if !other.guarded then .error (.check (.unsupportedOperation "Combine only scoped querysets."))
    else other.checkContext current
  else .ok ()

/-- `model._base_manager.filter(pk__in=self.values("pk"))` -/
def throughBase : Object app :=
  { object.clone with
    guarded := object.scopedBase, ordered := object.metaOrdering, sliced := false, projected := false }

/-- What `|`, `&` and `^` build once they have passed their checks. -/
def mergeQueries (other : Object app) : Merge → Except Refusal (Merged app)
  | .and =>
    if other.empty then .ok (.right 0)
    else if object.empty then .ok .left
    else if object.label ≠ other.label then
      .error (.typeError "Cannot combine queries on two different base models.")
    else if object.sliced || other.sliced then
      .error (.typeError "Cannot combine queries once a slice has been taken.")
    else .ok (.new object.clone)
  | _ =>
    if object.empty then .ok (.right 0)
    else if other.empty then .ok .left
    else if object.label ≠ other.label then
      .error (.typeError "Cannot combine queries on two different base models.")
    else .ok (.new (if object.sliced then object.throughBase else object.clone))

/-- `|`, `&` and `^` -/
def merge (operator : Merge) (other : Object app) : Except Refusal (Merged app) := do
  object.checkOther current other
  if object.combined || other.combined then .error (.typeError "Cannot use the operator with combined queryset.")
  else match choice.failure with
    | some refusal => .error refusal
    | none => object.mergeQueries other operator

/-- `_combinator_query` -/
def combinatorQuery : Object app := { object.clone with ordered := false, sliced := false, combined := true }

/-- The first of some querysets that is, or is not, empty. -/
def firstWhere (empty : Bool) (others : List (Object app)) : Option Nat :=
  others.findIdx? fun other => other.empty == empty

/-- `union`, `intersection` and `difference` -/
def combine (combinator : Combinator) (others : List (Object app)) : Except Refusal (Merged app) := do
  others.forM fun other => object.checkOther current other
  match combinator with
  | .union =>
    if object.empty then
      match firstWhere false others with
      | none => return .left
      | some position =>
        if (others.countP fun other => !other.empty) = 1 then return .right position
        else return .new ((others.getD position object).combinatorQuery)
    else if others.isEmpty then return .left
    else return .new object.combinatorQuery
  | .intersection =>
    if object.empty then return .left
    else match firstWhere true others with
      | some position => return .right position
      | none => return .new object.combinatorQuery
  | .difference => if object.empty then return .left else return .new object.combinatorQuery

/-- `get_queryset` of a manager: in enforce mode its queryset keeps the current context. -/
def manager (label : String) (config : Registration (app.model label)) (metaOrdering scopedBase : Bool) :
    Except Refusal (Object app) :=
  let object (context : Option Active) : Object app :=
    ⟨label, config, context, true, scopedBase, metaOrdering, metaOrdering, false, false, false, false, none⟩
  if config.enforce then
    match currentContext current with
    | .ok active => .ok (object (some active))
    | .error error => .error (.check error)
  else .ok (object none)

end Object

/-- A generator of `iterator()`: not started, with rows to come, or closed. -/
inductive Remaining (app : App) where
  | fresh
  | running (rows : List (Entry app))
  | closed

structure RowIterator (app : App) where
  source : Object app
  remaining : Remaining app

namespace RowIterator

variable (iterator : RowIterator app) (current : Option Active) (choice : Choice app)

/-- The next of some rows, checked before it is yielded. -/
def yieldRow : List (Entry app) → Except Refusal (Entry app) × RowIterator app
  | [] => (.error .stopIteration, { iterator with remaining := .closed })
  | row :: rows =>
    match iterator.source.checkContext current with
    | .ok () => (.ok row, { iterator with remaining := .running rows })
    | .error refusal => (.error refusal, { iterator with remaining := .closed })

/-- `__next__`. A generator that raised is closed. -/
def next : Except Refusal (Entry app) × RowIterator app :=
  match iterator.remaining with
  | .closed => (.error .stopIteration, iterator)
  | .running rows => iterator.yieldRow current rows
  | .fresh =>
    match (do iterator.source.checkContext current; iterator.source.evaluate current choice) with
    | .ok rows => iterator.yieldRow current rows
    | .error refusal => (.error refusal, { iterator with remaining := .closed })

end RowIterator

/-- All querysets and generators that were made. -/
structure World (app : App) where
  querysets : List (Object app)
  iterators : List (RowIterator app)

inductive Operation (app : App) where
  | manager (label : String) (config : Registration (app.model label)) (metaOrdering scopedBase : Bool)
  | call (receiver : Nat) (method : Method)
  | merge (operator : Merge) (receiver other : Nat)
  | combine (combinator : Combinator) (receiver : Nat) (others : List Nat)
  | iterator (receiver : Nat)
  | next (iterator : Nat)

inductive Outcome (app : App) where
  | raised (refusal : Refusal)
  | data (data : Data app)
  | quiet

namespace World

variable (world : World app) (current : Option Active) (choice : Choice app)

def add (object : Object app) : World app := { world with querysets := world.querysets ++ [object] }

def merged : Except Refusal (Merged app) → Outcome app × World app
  | .ok (.new object) => (.quiet, world.add object)
  | .ok _ => (.quiet, world)
  | .error refusal => (.raised refusal, world)

/-- One operation; nothing where it names a queryset or generator that does not exist. -/
def perform : Operation app → Option (Outcome app × World app)
  | .manager label config metaOrdering scopedBase =>
    match Object.manager current label config metaOrdering scopedBase with
    | .ok object => some (.quiet, world.add object)
    | .error refusal => some (.raised refusal, world)
  | .call receiver method => world.querysets[receiver]?.map fun object =>
    match object.call current choice method with
    | .error refusal => (.raised refusal, world)
    | .ok (.data data, object) => (.data data, { world with querysets := world.querysets.set receiver object })
    | .ok (.queryset other, _) => (.quiet, world.add other)
    | .ok (.constant _, _) => (.quiet, world)
  | .merge operator receiver other => do
    let object ← world.querysets[receiver]?
    let other ← world.querysets[other]?
    return world.merged (object.merge current choice operator other)
  | .combine combinator receiver others => do
    let object ← world.querysets[receiver]?
    let others ← others.mapM fun other => world.querysets[other]?
    return world.merged (object.combine current combinator others)
  | .iterator receiver => world.querysets[receiver]?.map fun object =>
    (.quiet, { world with iterators := world.iterators ++ [⟨object.clone, .fresh⟩] })
  | .next iterator => world.iterators[iterator]?.map fun generator =>
    let (row, generator) := generator.next current choice
    let world := { world with iterators := world.iterators.set iterator generator }
    match row with
    | .ok row => (.data (.row (some row)), world)
    | .error refusal => (.raised refusal, world)

end World

/-- One operation of a run, with the querysets as it found them. -/
structure Step (app : App) where
  before : World app
  current : Option Active
  operation : Operation app
  outcome : Outcome app

/-- The operations of a run, each under its own current context. -/
def trace (world : World app) : List (Option Active × Operation app × Choice app) → List (Step app)
  | [] => []
  | (current, operation, choice) :: turns =>
    match world.perform current choice operation with
    | some (outcome, next) => ⟨world, current, operation, outcome⟩ :: trace next turns
    | none => trace world turns

end PyScoped.ResultCache
