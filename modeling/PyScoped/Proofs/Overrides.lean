import PyScoped.Proofs.Nesting

/-! Overridden `save` and `delete` methods are all or nothing on the database they
write exactly where the registry opens its block on that one. -/

namespace PyScoped
open Foundation

variable {app : App} {α : Type} {server : Server (Val app) Err}

/-- Every row, event and resource head is what it was. -/
def Intact (before after : Session (Val app)) : Prop := ∀ key, after.view.lookup key = before.view.lookup key

/-- Whatever raises leaves the database as it was before the program ran. -/
def AllOrNothing (server : Server (Val app) Err) (name : String) (program : Dbs app α) : Prop :=
  ∀ databases error final, Routed.Runs server program databases (.error error) final →
    Intact (databases name) (final name)

/-- Whether the program never changes the database, however it ends. -/
def WritesNothing (server : Server (Val app) Err) (name : String) (program : Dbs app α) : Prop :=
  ∀ databases result final, Routed.Runs server program databases result final → Intact (databases name) (final name)

/-- The program writes on one database and may read on the others. -/
def WritesOn (name : String) (program : Dbs app α) : Prop :=
  program.Only fun asked => asked.1 ≠ name → asked.2.Inert

/-- What the call gives for a parameter that the method itself names `using`, and
the router's answer where that is nothing, is the alias of the database. -/
def Method.Names (method : Method app α) (connections : Connections) (call : Call) (name : String) : Prop :=
  connections.using_ (method.signature.passed (.object :: call.args) call.kwargs "using") = .one (.text name)

/-- The call comes to nothing before the method is entered. -/
def Method.Refuses (method : Method app α) (env : Env) (connections : Connections) (call : Call) : Prop :=
  env.context = none ∨ method.bind call = none ∨ ∀ name ∈ connections.aliases, ¬method.Names connections call name

private theorem get_eq_some {connections : Connections} {given : Bound Argument} {name : String} :
    connections.get given = some name ↔ given = .one (.text name) ∧ name ∈ connections.aliases := by
  unfold Connections.get
  split
  next text =>
    constructor
    · intro found
      split at found <;> cases found
      next listed => exact ⟨rfl, by simpa using listed⟩
    · rintro ⟨same, member⟩
      cases same
      rw [if_pos (by simpa using member)]
  next other =>
    constructor
    · intro found
      cases found
    · exact fun ⟨same, _⟩ => absurd same (other name)

private theorem wrapMethod_eq {method : Method app α} {env : Env} (connections : Connections) {call : Call}
    {arguments : List (String × Bound Argument)} (entered : env.context ≠ none) (bound : method.bind call = some arguments) :
    wrapMethod env connections method call =
      match connections.get (connections.using_ (method.signature.passed (.object :: call.args) call.kwargs "using")) with
      | none => .raise (.application "ConnectionDoesNotExist")
      | some name => Routed.atomic name (method.body call) := by
  obtain ⟨context, present⟩ := Option.ne_none_iff_exists'.mp entered
  have passed : arguments.lookup "using" = method.signature.passed (.object :: call.args) call.kwargs "using" :=
    Signature.bind_lookup bound
  simp only [wrapMethod, Env.current, currentContext, present, bound, passed]
  rfl

/-- A call either raises before the method is entered, or runs it in a block on the database it names. -/
theorem wrapMethod_cases (method : Method app α) (env : Env) (connections : Connections) (call : Call) :
    (method.Refuses env connections call ∧ ∃ error, wrapMethod env connections method call = .raise error) ∨
      (¬method.Refuses env connections call ∧ ∃ name, method.Names connections call name ∧
        wrapMethod env connections method call = Routed.atomic name (method.body call)) := by
  by_cases entered : env.context = none
  · refine .inl ⟨.inl entered, ?_⟩
    simp only [wrapMethod, Env.current, currentContext, entered]
    exact ⟨_, rfl⟩
  cases bound : method.bind call with
  | none =>
    obtain ⟨context, present⟩ := Option.ne_none_iff_exists'.mp entered
    refine .inl ⟨.inr (.inl bound), .application "TypeError", ?_⟩
    simp only [wrapMethod, Env.current, currentContext, present, bound]
    rfl
  | some arguments =>
    have same := wrapMethod_eq connections entered bound
    cases found : connections.get (connections.using_ (method.signature.passed (.object :: call.args) call.kwargs "using")) with
    | none =>
      rw [found] at same
      refine .inl ⟨.inr (.inr fun name member names => ?_), _, same⟩
      rw [get_eq_some.mpr ⟨names, member⟩] at found
      cases found
    | some name =>
      rw [found] at same
      obtain ⟨names, member⟩ := get_eq_some.mp found
      refine .inr ⟨?_, name, names, same⟩
      rintro (absent | unbound | unknown)
      · exact entered absent
      · rw [bound] at unbound
        cases unbound
      · exact unknown name member names

private theorem Method.Names.unique {method : Method app α} {connections : Connections} {call : Call} {name other : String}
    (names : method.Names connections call name) (names' : method.Names connections call other) : name = other := by
  unfold Method.Names at names names'
  rw [names] at names'
  cases names'
  rfl

private theorem atomic_elsewhere {name other : String} {body : Dbs app α} (ne : other ≠ name) (writes : WritesOn name body)
    (kept : AllOrNothing server name (Routed.atomic other body)) : WritesNothing server name body := by
  intro databases result final ran
  rcases ran.asked with rfl | answers
  · exact fun key => rfl
  have elsewhere : body.Only fun asked => asked.1 = other → asked.2.Inert :=
    writes.weaken fun asked inert here => inert (here ▸ ne)
  obtain ⟨error, raised⟩ := ran.elsewhere .doesNotExist elsewhere
  exact kept databases error final raised

private theorem atomic_writesNothing {name other : String} {body : Dbs app α} (ne : other ≠ name)
    (nothing : WritesNothing server name body) : AllOrNothing server name (Routed.atomic other body) := by
  intro databases error final ran
  rcases Routed.runs_atomic ran with ⟨_, _, rfl⟩ | ⟨inner, middle, ran, closes⟩
  · exact fun key => rfl
  have kept := nothing _ _ _ ran
  rw [Function.update_of_ne ne.symm] at kept
  cases closes with
  | undone => rwa [Function.update_of_ne ne.symm]

namespace Sample

/-- `def save(self, *args, **kwargs)` -/
def forwarding : Signature where
  parameters := [⟨"self", .positionalOrKeyword, false⟩, ⟨"args", .varPositional, false⟩, ⟨"kwargs", .varKeyword, false⟩]
  distinct := by decide
  ordered := by decide

/-- `def save(self, using=None)` -/
def explicit : Signature where
  parameters := [⟨"self", .positionalOrKeyword, false⟩, ⟨"using", .positionalOrKeyword, true⟩]
  distinct := by decide
  ordered := by decide

def connections : Connections := ⟨["default", "other"], "default"⟩

/-- An override that saves through `super()` on a database, and then raises. -/
def savesThenRaises (signature : Signature) (name : String) : Method filing Unit where
  signature := signature
  body _ := do
    Routed.on name (saveBase (scope "s" s_valid) Handlers.none (config "app.folder")
      (object "7" [("scope", "s")]) ⟨false, false, false, none⟩)
    throw (.application "rejected")

theorem savesThenRaises_structured (signature : Signature) (name : String) (call : Call) :
    ((savesThenRaises signature name).body call).Structured := by
  refine .bind (.on (saveBase_nests ?_ ?_)) fun _ => .raise _
  · exact fun _ _ => .pure _
  · exact fun _ _ => .pure _

theorem savesThenRaises_writesOn (signature : Signature) (name : String) (call : Call) :
    WritesOn name ((savesThenRaises signature name).body call) :=
  Prog.Only.bind ((Routed.on_only name _).weaken fun _ same other => absurd same other) fun _ => trivial

def passedByKeyword : Call := ⟨[], [("using", .text "other")]⟩

end Sample

/-- The guarantee of an overridden method, for any signature, call and point of failure. -/
theorem wrapMethod_allOrNothing_iff (method : Method app α) (env : Env) (connections : Connections) (call : Call)
    (name : String) (structured : (method.body call).Structured) (writes : WritesOn name (method.body call)) :
    AllOrNothing server name (wrapMethod env connections method call) ↔
      method.Names connections call name ∨ method.Refuses env connections call ∨
        WritesNothing server name (method.body call) := by
  rcases wrapMethod_cases method env connections call with ⟨refuses, error, raises⟩ | ⟨enters, other, names, opens⟩
  · rw [raises]
    refine iff_of_true ?_ (.inr (.inl refuses))
    rintro databases _ final ⟨_, rfl⟩
    exact fun key => rfl
  rw [opens]
  by_cases same : other = name
  · subst same
    refine iff_of_true ?_ (.inl names)
    intro databases error final ran key
    rw [structured.restored ran]
  · constructor
    · exact fun kept => .inr (.inr (atomic_elsewhere same writes kept))
    · rintro (names' | refuses | nothing)
      · exact absurd (names.unique names') same
      · exact absurd refuses enters
      · exact atomic_writesNothing same nothing

/-- `save(using="other")` of an override with `*args, **kwargs`, where the router answers `default`. -/
theorem forwarded_save_kept : ∃ databases error final,
    Routed.Runs Sample.server (wrapMethod (Sample.scope "s" (by decide)) Sample.connections
      (Sample.savesThenRaises Sample.forwarding "other") Sample.passedByKeyword) databases (.error error) final ∧
        ¬Intact (databases "other") (final "other") := by
  have played : (Routed.play Sample.server (List.replicate 30 Sample.through)
      (wrapMethod (Sample.scope "s" (by decide)) Sample.connections (Sample.savesThenRaises Sample.forwarding "other")
        Sample.passedByKeyword) (fun _ => Session.idle [])).any (fun last =>
          last.1.toOption.isNone && ((last.2 "other").view.lookup (.row "app.folder" "7")).isSome) = true := by
    decide +kernel
  obtain ⟨⟨result, final⟩, found, kept⟩ := (Option.any_eq_true _ _).mp played
  obtain ⟨raised, stored⟩ := Bool.and_eq_true_iff.mp kept
  cases result with
  | ok value => cases raised
  | error error =>
    refine ⟨_, error, final, Routed.play_runs found, fun intact => ?_⟩
    rw [intact] at stored
    cases stored

/-- `save("other")` of an override with an explicit `using`. -/
theorem wrapMethod_allOrNothing_explicit :
    AllOrNothing Sample.server "other" (wrapMethod (Sample.scope "s" (by decide)) Sample.connections
      (Sample.savesThenRaises Sample.explicit "other") ⟨[.text "other"], []⟩) :=
  (wrapMethod_allOrNothing_iff _ _ _ _ "other" (Sample.savesThenRaises_structured _ _ _)
    (Sample.savesThenRaises_writesOn _ _ _)).mpr (.inl rfl)

end PyScoped
