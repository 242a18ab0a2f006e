import Mathlib.Tactic

/-! Signatures of functions, and how a call binds its arguments to their parameters. -/

namespace Foundation

inductive Kind where
  | positionalOnly
  | positionalOrKeyword
  | varPositional
  | keywordOnly
  | varKeyword
  deriving DecidableEq

structure Parameter where
  name : String
  kind : Kind
  hasDefault : Bool
  deriving DecidableEq

namespace Parameter

def positional (parameter : Parameter) : Bool :=
  parameter.kind = .positionalOnly || parameter.kind = .positionalOrKeyword

def keyword (parameter : Parameter) : Bool :=
  parameter.kind = .positionalOrKeyword || parameter.kind = .keywordOnly

end Parameter

/-- Only positional parameters precede one that takes positions, and none follows
the one that takes the rest of the keywords. -/
structure Signature where
  parameters : List Parameter
  distinct : (parameters.map Parameter.name).Nodup
  ordered : parameters.Pairwise fun first second =>
    (second.positional ∨ second.kind = .varPositional → first.positional) ∧ first.kind ≠ .varKeyword

/-- What a parameter is bound to. -/
inductive Bound (α : Type) where
  | one (value : α)
  | many (values : List α)
  | named (entries : List (String × α))
  deriving DecidableEq

namespace Signature

variable {α : Type}

def without (name : String) (named : List (String × α)) : List (String × α) :=
  named.filter fun entry => entry.1 ≠ name

/-- `bind`, from the first parameter on. A parameter left to its default is not bound. -/
def bindFrom : List Parameter → List α → List (String × α) → Option (List (String × Bound α))
  | [], args, named => if args.isEmpty && named.isEmpty then some [] else none
  | parameter :: parameters, args, named =>
    let byName (named : List (String × α)) :=
      match named.lookup parameter.name with
      | some value =>
        (bindFrom parameters [] (without parameter.name named)).map ((parameter.name, Bound.one value) :: ·)
      | none => if parameter.hasDefault then bindFrom parameters [] named else none
    match parameter.kind, args with
    | .positionalOnly, value :: args => (bindFrom parameters args named).map ((parameter.name, Bound.one value) :: ·)
    | .positionalOnly, [] => if parameter.hasDefault then bindFrom parameters [] named else none
    | .positionalOrKeyword, value :: args =>
      if (named.lookup parameter.name).isSome then none
      else (bindFrom parameters args named).map ((parameter.name, Bound.one value) :: ·)
    | .positionalOrKeyword, [] => byName named
    | .varPositional, [] => bindFrom parameters [] named
    | .varPositional, args => (bindFrom parameters [] named).map ((parameter.name, Bound.many args) :: ·)
    | .keywordOnly, [] => byName named
    | .keywordOnly, _ => none
    | .varKeyword, [] =>
      if named.isEmpty then bindFrom parameters [] []
      else (bindFrom parameters [] []).map ((parameter.name, Bound.named named) :: ·)
    | .varKeyword, _ => none

def bind (signature : Signature) (args : List α) (named : List (String × α)) : Option (List (String × Bound α)) :=
  bindFrom signature.parameters args named

def nonempty (values : List α) : Option (List α) := if values.isEmpty then none else some values

/-- What a call passes for the parameter of a name: the argument in its place, the
keyword of its name, or what is left of the one or the other. -/
def passedTo (parameters : List Parameter) (args : List α) (named : List (String × α)) (name : String) :
    Option (Bound α) :=
  match parameters.find? fun parameter => parameter.name = name with
  | none => none
  | some parameter =>
    let place := parameters.findIdx fun parameter => parameter.name = name
    match parameter.kind with
    | .positionalOnly => args[place]?.map .one
    | .positionalOrKeyword => (args[place]? <|> named.lookup name).map .one
    | .keywordOnly => (named.lookup name).map .one
    | .varPositional => (nonempty (args.drop place)).map .many
    | .varKeyword =>
      (nonempty (named.filter fun entry =>
        !(parameters.any fun parameter => parameter.keyword && parameter.name = entry.1))).map .named

def passed (signature : Signature) (args : List α) (named : List (String × α)) (name : String) : Option (Bound α) :=
  passedTo signature.parameters args named name

variable {args : List α} {named : List (String × α)} {name : String}

theorem lookup_without {other : String} (ne : other ≠ name) (named : List (String × α)) :
    (without name named).lookup other = named.lookup other := by
  unfold without
  induction named with
  | nil => rfl
  | cons entry named ih =>
    obtain ⟨key, value⟩ := entry
    by_cases same : key = name
    · have apart : (other == key) = false := beq_eq_false_iff_ne.mpr (same ▸ ne)
      simp only [List.filter_cons, same, ne_eq, not_true_eq_false, decide_false, Bool.false_eq_true, if_false]
      exact ih.trans (by rw [List.lookup_cons, ← same, apart])
    · simp only [List.filter_cons, same, ne_eq, not_false_eq_true, decide_true, if_true, List.lookup_cons]
      cases other == key
      · exact ih
      · rfl

theorem without_absent (absent : named.lookup name = none) : without name named = named := by
  refine List.filter_eq_self.mpr fun entry member => ?_
  by_contra same
  have same : entry.1 = name := by simpa using same
  exact absurd (List.lookup_eq_none_iff.mp absent entry member) (by simp [same])

variable {parameters : List Parameter}

theorem passedTo_absent (absent : name ∉ parameters.map Parameter.name) :
    passedTo parameters args named name = none := by
  have missing : parameters.find? (fun parameter => parameter.name = name) = none := by
    refine List.find?_eq_none.mpr fun parameter member same => absent ?_
    exact List.mem_map.mpr ⟨parameter, member, by simpa using same⟩
  rw [passedTo, missing]

/-- A parameter that takes no positions looks at the keywords only. -/
theorem passedTo_args
    (apart : ∀ parameter ∈ parameters, ¬(parameter.positional ∨ parameter.kind = .varPositional)) (other : List α) :
    passedTo parameters args named name = passedTo parameters other named name := by
  unfold passedTo
  cases found : parameters.find? (fun parameter => parameter.name = name) with
  | none => rfl
  | some parameter =>
    have apart := apart parameter (List.mem_of_find?_eq_some found)
    obtain ⟨_, kind, _⟩ := parameter
    cases kind <;> simp [Parameter.positional] at apart ⊢

theorem passedTo_tail {parameter : Parameter} (parameters : List Parameter) (ne : parameter.name ≠ name) :
    passedTo (parameter :: parameters) args named name =
      passedTo parameters args.tail (if parameter.keyword then without parameter.name named else named) name := by
  unfold passedTo
  have skipped : List.find? (fun parameter => decide (parameter.name = name)) (parameter :: parameters) =
      parameters.find? fun parameter => parameter.name = name := by
    simp only [List.find?_cons, ne, decide_false]
  have place : List.findIdx (fun parameter => decide (parameter.name = name)) (parameter :: parameters) =
      (parameters.findIdx fun parameter => parameter.name = name) + 1 := by
    simp only [List.findIdx_cons, ne, decide_false, cond_false]
  have lookup : (if parameter.keyword then without parameter.name named else named).lookup name = named.lookup name := by
    split
    · exact lookup_without (Ne.symm ne) named
    · rfl
  rw [skipped, place]
  cases parameters.find? fun parameter => parameter.name = name with
  | none => rfl
  | some found =>
    obtain ⟨_, kind, _⟩ := found
    cases kind with
    | positionalOnly => simp only [List.getElem?_tail]
    | positionalOrKeyword => simp only [List.getElem?_tail, lookup]
    | keywordOnly => simp only [lookup]
    | varPositional => simp only [List.drop_tail]
    | varKeyword =>
      refine congrArg (fun left => (nonempty left).map _) ?_
      by_cases taken : parameter.keyword
      · simp only [taken, if_true, without, List.filter_filter]
        refine List.filter_congr fun entry _ => ?_
        simp only [List.any_cons, taken, Bool.true_and, Bool.not_or]
        rw [Bool.and_comm]
        congr 1
        simp [eq_comm]
      · simp only [taken, List.any_cons, Bool.false_and, Bool.false_or, Bool.false_eq_true, if_false]

theorem passedTo_head (args : List α) (named : List (String × α)) (parameter : Parameter) (parameters : List Parameter) :
    passedTo (parameter :: parameters) args named parameter.name =
      match parameter.kind with
      | .positionalOnly => args.head?.map .one
      | .positionalOrKeyword => (args.head? <|> named.lookup parameter.name).map .one
      | .keywordOnly => (named.lookup parameter.name).map .one
      | .varPositional => (nonempty args).map .many
      | .varKeyword =>
        (nonempty (named.filter fun entry =>
          !((parameter :: parameters).any fun parameter => parameter.keyword && parameter.name = entry.1))).map .named := by
  have place : List.findIdx (fun other => decide (other.name = parameter.name)) (parameter :: parameters) = 0 := by
    simp only [List.findIdx_cons, decide_true, cond_true]
  unfold passedTo
  simp only [List.find?_cons, decide_true]
  rw [place]
  obtain ⟨_, kind, _⟩ := parameter
  cases kind <;> simp only [List.drop_zero, ← List.head?_eq_getElem?]

/-- What binding one parameter leaves for the others. -/
structure Step (parameter : Parameter) (parameters : List Parameter) (args : List α) (named : List (String × α))
    (arguments : List (String × Bound α)) (args' : List α) (rest : List (String × Bound α)) : Prop where
  onward : bindFrom parameters args' (if parameter.keyword then without parameter.name named else named) = some rest
  arguments : arguments =
    ((passedTo (parameter :: parameters) args named parameter.name).map (Prod.mk parameter.name)).toList ++ rest
  args : args' = args.tail ∨ parameter.positional = false

variable {arguments : List (String × Bound α)}

theorem bindFrom_cons {parameter : Parameter}
    (ordinary : parameter.kind ≠ .varKeyword) (bound : bindFrom (parameter :: parameters) args named = some arguments) :
    ∃ args' rest, Step parameter parameters args named arguments args' rest := by
  have byName (keyword : parameter.keyword = true) (empty : args = [])
      (bound : (match named.lookup parameter.name with
        | some value =>
          (bindFrom parameters [] (without parameter.name named)).map ((parameter.name, Bound.one value) :: ·)
        | none => if parameter.hasDefault then bindFrom parameters [] named else none) = some arguments)
      (passed : passedTo (parameter :: parameters) args named parameter.name =
        (named.lookup parameter.name).map .one) :
      ∃ args' rest, Step parameter parameters args named arguments args' rest := by
    cases value : named.lookup parameter.name with
    | none =>
      rw [value] at bound passed
      simp only at bound
      split at bound
      · refine ⟨[], arguments, ?_, ?_, ?_⟩
        · rw [keyword, if_pos rfl, without_absent value]
          exact bound
        · rw [passed]
          rfl
        · exact .inl (by rw [empty]; rfl)
      · cases bound
    | some found =>
      rw [value] at bound passed
      obtain ⟨rest, onward, rfl⟩ := Option.map_eq_some_iff.mp bound
      refine ⟨[], rest, ?_, ?_, ?_⟩
      · rw [keyword, if_pos rfl]
        exact onward
      · rw [passed]
        rfl
      · exact .inl (by rw [empty]; rfl)
  have head := passedTo_head args named parameter parameters
  obtain ⟨name, kind, hasDefault⟩ := parameter
  cases kind with
  | positionalOnly =>
    cases args with
    | nil =>
      simp only [bindFrom] at bound
      split at bound
      · exact ⟨[], arguments, bound, by rw [head]; rfl, .inl rfl⟩
      · cases bound
    | cons value args =>
      simp only [bindFrom] at bound
      obtain ⟨rest, onward, rfl⟩ := Option.map_eq_some_iff.mp bound
      exact ⟨args, rest, onward, by rw [head]; rfl, .inl rfl⟩
  | positionalOrKeyword =>
    cases args with
    | nil =>
      simp only [bindFrom] at bound
      exact byName rfl rfl bound head
    | cons value args =>
      simp only [bindFrom] at bound
      split at bound
      · cases bound
      next absent =>
        obtain ⟨rest, onward, rfl⟩ := Option.map_eq_some_iff.mp bound
        refine ⟨args, rest, ?_, by rw [head]; rfl, .inl rfl⟩
        exact (congrArg _ (without_absent (Option.not_isSome_iff_eq_none.mp absent))).trans onward
  | varPositional =>
    cases args with
    | nil =>
      simp only [bindFrom] at bound
      exact ⟨[], arguments, bound, by rw [head]; rfl, .inl rfl⟩
    | cons value args =>
      simp only [bindFrom] at bound
      obtain ⟨rest, onward, rfl⟩ := Option.map_eq_some_iff.mp bound
      exact ⟨[], rest, onward, by rw [head]; rfl, .inr rfl⟩
  | keywordOnly =>
    cases args with
    | nil =>
      simp only [bindFrom] at bound
      exact byName rfl rfl bound head
    | cons value args =>
      simp only [bindFrom, reduceCtorEq] at bound
  | varKeyword => exact absurd rfl ordinary

theorem bindFrom_lookup (distinct : (parameters.map Parameter.name).Nodup)
    (ordered : parameters.Pairwise fun first second =>
      (second.positional ∨ second.kind = .varPositional → first.positional) ∧ first.kind ≠ .varKeyword)
    (bound : bindFrom parameters args named = some arguments) :
    arguments.lookup name = passedTo parameters args named name := by
  induction parameters generalizing args named arguments with
  | nil =>
    simp only [bindFrom] at bound
    split at bound <;> cases bound
    rfl
  | cons parameter parameters ih =>
    obtain ⟨fresh, distinct⟩ := List.nodup_cons.mp distinct
    obtain ⟨before, ordered⟩ := List.pairwise_cons.mp ordered
    by_cases rest : parameter.kind = .varKeyword
    · -- It is the last one, and takes what keywords are left.
      obtain rfl : parameters = [] := List.eq_nil_iff_forall_not_mem.mpr fun other member => (before other member).2 rest
      have head := passedTo_head args named parameter []
      have keyword : parameter.keyword = false := by simp [Parameter.keyword, rest]
      rw [rest] at head
      simp only [List.any_cons, keyword, List.any_nil, Bool.false_and, Bool.or_self, Bool.not_false,
        List.filter_true] at head
      simp only [bindFrom, rest] at bound
      cases args with
      | cons value args => cases bound
      | nil =>
        by_cases same : parameter.name = name
        · subst same
          cases named with
          | nil =>
            cases bound
            exact head.symm
          | cons entry named =>
            cases bound
            rw [head]
            simp [nonempty]
        · rw [passedTo_tail [] same]
          cases named with
          | nil =>
            cases bound
            rfl
          | cons entry named =>
            cases bound
            simp [List.lookup_cons, beq_eq_false_iff_ne.mpr (Ne.symm same), passedTo]
    obtain ⟨args', rest, onward, rfl, advanced⟩ := bindFrom_cons rest bound
    have later := ih distinct ordered onward
    by_cases same : parameter.name = name
    · subst same
      rw [passedTo_absent fresh] at later
      cases passedTo (parameter :: parameters) args named parameter.name with
      | none => exact later
      | some value => simp
    · rw [passedTo_tail parameters same]
      have skipped : ((((passedTo (parameter :: parameters) args named parameter.name).map
          (Prod.mk parameter.name)).toList ++ rest).lookup name) = rest.lookup name := by
        cases passedTo (parameter :: parameters) args named parameter.name with
        | none => rfl
        | some value => simp [List.lookup_cons, beq_eq_false_iff_ne.mpr (Ne.symm same)]
      rw [skipped, later]
      rcases advanced with rfl | taken
      · rfl
      · refine passedTo_args (fun other member takes => ?_) _
        rw [(before other member).1 takes] at taken
        cases taken

theorem bind_lookup {signature : Signature} (bound : signature.bind args named = some arguments) :
    arguments.lookup name = signature.passed args named name :=
  bindFrom_lookup signature.distinct signature.ordered bound

end Signature
end Foundation
