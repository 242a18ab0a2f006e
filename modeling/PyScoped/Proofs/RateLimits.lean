import PyScoped.Foundation.Runs
import PyScoped.Foundation.TimeOrder
import PyScoped.Legacy.RateLimits

/-! When rate limits hold over runs. What `create` writes into the trail goes
without the scope that the check of a later call asks for. -/

namespace PyScoped.Legacy.RateLimits
open Foundation Foundation.Runs

/-- A rule of at most so many creates in so many seconds. -/
def Limits (given : List RateLimitRule) (config : RateLimitConfig) : Prop :=
  ∃ rule ∈ heldRules given, actionMatches rule "create" = true ∧ rule.rateLimit = some config

/-- The length of a window in microseconds. -/
def RateLimitConfig.window (config : RateLimitConfig) : Int := config.windowSeconds * 1000000

def Event.instant : Event → Int
  | .succeeded call | .refused call => call.recorded.instant
  | .audited action => action.recorded.instant

/-- A call that succeeded, of a principal and with a scope argument. -/
def Event.succeeds (principal : String) (scope : Option String) : Event → Bool
  | .succeeded call => call.ownerId = principal && call.scopeId = scope
  | _ => false

/-- A `create` action in the trail that the clauses for a principal and a scope select. -/
def Event.creates (principal : String) (scope : Option String) : Event → Bool
  | .succeeded call => call.ownerId = principal && scope.isNone
  | .audited action => action.action.value = "create" && action.actorId = principal && scope.all fun scope =>
      action.scopeId = some scope
  | .refused _ => false

/-- The number of events of a kind between two instants. -/
def between (kind : Event → Bool) (start stop : Int) (log : List Event) : Nat :=
  log.countP fun event => kind event && decide (start ≤ event.instant ∧ event.instant ≤ stop)

/-- What rate limits promise: no window has more successful calls of one
principal and scope than a rule allows, and no call is refused without as many
`create` actions of its principal in the window before. -/
structure Limited (given : List RateLimitRule) (world : World) : Prop where
  bounded : ∀ config, Limits given config → ∀ principal scope start,
    between (Event.succeeds principal scope) start (start + config.window) world.log ≤ config.maxCount.toNat
  grounded : ∀ later call earlier, world.log = later ++ .refused call :: earlier →
    ∃ config, Limits given config ∧ ∃ turn, config.maxCount ≤
      between (Event.creates call.ownerId none) ((call.reads turn).instant - config.window) (call.reads turn).instant earlier

/-- The rule lets no further call pass: it counts its maximum, or fails to. -/
def Stops (trail : List TraceRow) (call : Creation) (rule : RateLimitRule) (turn : Nat) : Prop :=
  actionMatches rule "create" = true ∧ ∃ config, rule.rateLimit = some config ∧
    ∀ count, countActions trail (call.reads turn) "create" (some call.ownerId) call.scopeId config.windowSeconds = .ok count →
      config.maxCount ≤ count

/-- A call with a scope is stopped once as many as a rule allows have succeeded.
Only other actions can have written the entries that stop it. -/
def Covered (given : List RateLimitRule) (world : World) : Step → Prop
  | .create call => ∀ scope, call.scopeId = some scope → ∀ config, Limits given config → 0 ≤ config.windowSeconds →
    config.maxCount.toNat ≤
      between (Event.succeeds call.ownerId (some scope)) (call.recorded.instant - config.window) call.recorded.instant world.log →
    (call.denied.isSome = true ∨ call.failed.isSome = true ∨ call.unrecorded.isSome = true ∨
      ∃ rule turn, (rule, turn) ∈ (heldRules given).zipIdx ∧ Stops world.trail call rule turn)
  | .audited _ => True

/-- The clock does not go back. -/
def Ordered (world : World) : Step → Prop
  | .create call => ∀ turn, world.latest ≤ (call.reads turn).instant ∧ (call.reads turn).instant ≤ call.recorded.instant
  | .audited action => world.latest ≤ action.recorded.instant

/-- The entry that an event has left in the trail. -/
def Event.row : Event → Option TraceRow
  | .succeeded call => some ⟨call.ownerId, "create", call.objectType, call.objectId, none, call.recorded.isoformat⟩
  | .audited action =>
    some ⟨action.actorId, action.action.value, action.targetType, action.targetId, action.scopeId, action.recorded.isoformat⟩
  | .refused _ => none

/-- The trail has the entries of the log, none of them later than the clock. -/
structure Sound (world : World) : Prop where
  trail : world.trail = (world.log.filterMap Event.row).reverse
  past : ∀ event ∈ world.log, event.instant ≤ world.latest

theorem sound_new : Sound World.new := by
  constructor
  · rfl
  · intro event member
    cases member

variable {given : List RateLimitRule} {world : World} {call : Creation} {trail : List TraceRow} {now : Moment}

theorem of_instant (n : Nat) (small : n < 315537897600000000) : (Moment.of n small).instant = n := rfl

theorem cutoff_instant {windowSeconds : Int} {moment : Moment} (subtracted : cutoff now windowSeconds = .ok moment) :
    moment.instant = now.instant - windowSeconds * 1000000 := by
  unfold cutoff at subtracted
  by_cases far : windowSeconds / 86400 < -999999999 ∨ 999999999 < windowSeconds / 86400
  · rw [if_pos far] at subtracted
    cases subtracted
  · rw [if_neg far] at subtracted
    by_cases within : 0 ≤ now.instant - windowSeconds * 1000000 ∧ now.instant - windowSeconds * 1000000 < 315537897600000000
    · rw [dif_pos within] at subtracted
      rw [← Except.ok.inj subtracted, of_instant]
      exact Int.toNat_of_nonneg within.1
    · rw [dif_neg within] at subtracted
      cases subtracted

theorem isoformat_le_iff (first second : Moment) : first.isoformat ≤ second.isoformat ↔ first.instant ≤ second.instant := by
  rw [← String.not_lt, Aware.isoformat_lt_iff second.utc first.utc, Int.not_lt]

theorem Sound.count (sound : Sound world) {principal : String} {scope : Option String} {windowSeconds : Int} {count : Nat}
    (latest : world.latest ≤ now.instant)
    (counts : countActions world.trail now "create" (some principal) scope windowSeconds = .ok count) :
    count = between (Event.creates principal scope) (now.instant - windowSeconds * 1000000) now.instant world.log := by
  unfold countActions at counts
  cases subtracted : cutoff now windowSeconds with
  | error error => simp [subtracted, bind, Except.bind] at counts
  | ok moment =>
    simp only [subtracted, bind, Except.bind, pure, Except.pure, Except.ok.injEq] at counts
    rw [← counts, sound.trail, List.countP_reverse, List.countP_filterMap, between]
    apply List.countP_congr
    intro event member
    have past := sound.past event member
    rw [← cutoff_instant subtracted]
    cases event with
    | refused call => simp [Event.row, Event.creates]
    | succeeded call =>
      have within : call.recorded.instant ≤ now.instant := le_trans past latest
      cases scope <;> simp [Event.row, Event.creates, Event.instant, counted, isoformat_le_iff, within, and_comm]
    | audited action =>
      have within : action.recorded.instant ≤ now.instant := le_trans past latest
      cases scope <;> simp [Event.row, Event.creates, Event.instant, counted, isoformat_le_iff, within] <;> tauto

variable {rules : List (RateLimitRule × Nat)}

/-- The check passes if and only if no rule stops the call. -/
theorem check_passes_iff :
    check trail call.reads "create" (some call.ownerId) call.scopeId rules = .ok none ↔
      ∀ rule turn, (rule, turn) ∈ rules → ¬ Stops trail call rule turn := by
  induction rules with
  | nil => simp [check]
  | cons held rules ih =>
    obtain ⟨rule, turn⟩ := held
    have split : (∀ rule' turn', (rule', turn') ∈ (rule, turn) :: rules → ¬ Stops trail call rule' turn') ↔
        ¬ Stops trail call rule turn ∧ ∀ rule' turn', (rule', turn') ∈ rules → ¬ Stops trail call rule' turn' := by
      constructor
      · exact fun all => ⟨all rule turn List.mem_cons_self, fun rule' turn' member => all rule' turn' (List.mem_cons_of_mem _ member)⟩
      · rintro ⟨first, rest⟩ rule' turn' member
        rcases List.mem_cons.mp member with same | member
        · cases same
          exact first
        · exact rest rule' turn' member
    rw [split, ← ih, check]
    cases matched : actionMatches rule "create" with
    | false => simp [Stops, matched]
    | true =>
      cases limit : rule.rateLimit with
      | none => simp [Stops, limit]
      | some config =>
        cases counts : countActions trail (call.reads turn) "create" (some call.ownerId) call.scopeId config.windowSeconds with
        | error error => simp [Stops, matched, limit, counts, bind, Except.bind]
        | ok count =>
          by_cases full : config.maxCount ≤ count
          · simp [Stops, matched, limit, counts, full, bind, Except.bind, pure, Except.pure]
          · simp [Stops, matched, limit, counts, full, bind, Except.bind]

/-- A refusal names a rule that has counted its maximum. -/
theorem check_refuses {result : RateLimitResult}
    (refused : check trail call.reads "create" (some call.ownerId) call.scopeId rules = .ok (some result)) :
    result.allowed = false ∧ ∃ rule turn config, ∃ count : Nat, (rule, turn) ∈ rules ∧ actionMatches rule "create" = true ∧
      rule.rateLimit = some config ∧ config.maxCount ≤ count ∧
      countActions trail (call.reads turn) "create" (some call.ownerId) call.scopeId config.windowSeconds = .ok count := by
  induction rules with
  | nil => cases refused
  | cons held rules ih =>
    obtain ⟨rule, turn⟩ := held
    have later : check trail call.reads "create" (some call.ownerId) call.scopeId rules = .ok (some result) →
        result.allowed = false ∧ ∃ rule' turn' config, ∃ count : Nat, (rule', turn') ∈ (rule, turn) :: rules ∧
          actionMatches rule' "create" = true ∧ rule'.rateLimit = some config ∧ config.maxCount ≤ count ∧
          countActions trail (call.reads turn') "create" (some call.ownerId) call.scopeId config.windowSeconds = .ok count := by
      intro refused
      obtain ⟨forbidden, rule', turn', config, count, member, rest⟩ := ih refused
      exact ⟨forbidden, rule', turn', config, count, List.mem_cons_of_mem _ member, rest⟩
    rw [check] at refused
    cases matched : actionMatches rule "create" with
    | false =>
      rw [matched] at refused
      exact later refused
    | true =>
      rw [matched] at refused
      cases limit : rule.rateLimit with
      | none =>
        rw [limit] at refused
        exact later refused
      | some config =>
        rw [limit] at refused
        cases counts : countActions trail (call.reads turn) "create" (some call.ownerId) call.scopeId config.windowSeconds with
        | error error => simp [counts, bind, Except.bind] at refused
        | ok count =>
          by_cases full : config.maxCount ≤ count
          · simp only [counts, full, bind, Except.bind, pure, Except.pure, Bool.not_true, Bool.false_eq_true, if_false, if_true,
              Except.ok.injEq, Option.some.injEq] at refused
            rw [← refused]
            exact ⟨rfl, rule, turn, config, count, List.mem_cons_self, matched, limit, full, counts⟩
          · simp only [counts, full, bind, Except.bind, Bool.not_true, Bool.false_eq_true, if_false] at refused
            exact later refused

/-- How a call of a manager with a checker and an audit writer can end. -/
inductive Ends (given : List RateLimitRule) (call : Creation) (trail : List TraceRow) :
    Except Raised Unit → List TraceRow → Prop where
  | succeeded (denied : call.denied = none) (failed : call.failed = none) (unrecorded : call.unrecorded = none)
    (passed : ∀ rule turn, (rule, turn) ∈ (heldRules given).zipIdx → ¬ Stops trail call rule turn) :
    Ends given call trail (.ok ()) (trail ++
      [⟨call.ownerId, "create", call.objectType, call.objectId, none, call.recorded.isoformat⟩])
  | refused (result : RateLimitResult)
    (checked : check trail call.reads "create" (some call.ownerId) call.scopeId (heldRules given).zipIdx = .ok (some result)) :
    Ends given call trail (.error (exceeded result)) trail
  | stopped (error : Raised) (other : rateLimited (.error error) = false)
    (stopped : call.denied.isSome = true ∨ call.failed.isSome = true ∨ call.unrecorded.isSome = true ∨
      ∃ rule turn, (rule, turn) ∈ (heldRules given).zipIdx ∧ Stops trail call rule turn) :
    Ends given call trail (.error error) trail

theorem Other.unlimited (stop : Other) : rateLimited (.error stop.error) = false := by
  unfold rateLimited
  split
  next message context same => exact absurd (Except.error.inj same) (stop.other message context)
  · rfl

theorem countActions_error {action : String} {principal scope : Option String} {windowSeconds : Int} {error : Raised}
    (raised : countActions trail now action principal scope windowSeconds = .error error) :
    rateLimited (.error error) = false := by
  unfold countActions cutoff at raised
  split at raised
  · cases raised
    rfl
  · split at raised
    · cases raised
    · cases raised
      rfl

/-- An error of the check is that of a date out of range. -/
theorem check_error {error : Raised}
    (raised : check trail call.reads "create" (some call.ownerId) call.scopeId rules = .error error) :
    rateLimited (.error error) = false := by
  induction rules with
  | nil => cases raised
  | cons held rules ih =>
    obtain ⟨rule, turn⟩ := held
    rw [check] at raised
    cases matched : actionMatches rule "create" with
    | false =>
      rw [matched] at raised
      exact ih raised
    | true =>
      rw [matched] at raised
      cases limit : rule.rateLimit with
      | none =>
        rw [limit] at raised
        exact ih raised
      | some config =>
        rw [limit] at raised
        cases counts : countActions trail (call.reads turn) "create" (some call.ownerId) call.scopeId config.windowSeconds with
        | error error' =>
          simp only [counts, bind, Except.bind, Bool.not_true, Bool.false_eq_true, if_false, Except.error.injEq] at raised
          rw [← raised]
          exact countActions_error counts
        | ok count =>
          by_cases full : config.maxCount ≤ count
          · simp [counts, full, bind, Except.bind, pure, Except.pure] at raised
          · simp only [counts, full, bind, Except.bind, Bool.not_true, Bool.false_eq_true, if_false] at raised
            exact ih raised

theorem create_ends (given : List RateLimitRule) (call : Creation) (trail : List TraceRow) :
    Ends given call trail ((create ⟨some given, true⟩ call).on trail).1 ((create ⟨some given, true⟩ call).on trail).2 := by
  have stops : check trail call.reads "create" (some call.ownerId) call.scopeId (heldRules given).zipIdx ≠ .ok none →
      ∃ rule turn, (rule, turn) ∈ (heldRules given).zipIdx ∧ Stops trail call rule turn := by
    intro stopped
    by_contra none
    apply stopped
    apply check_passes_iff.mpr
    exact fun rule turn member stops => none ⟨rule, turn, member, stops⟩
  unfold create checkRate record
  cases denied : call.denied with
  | some stop =>
    simp only [Stateful.on_bind, stopAt, Stateful.on_throw]
    exact .stopped stop.error stop.unlimited (.inl (by simp [denied]))
  | none =>
    simp only [Stateful.on_bind, stopAt, Stateful.on_pure, Stateful.on_get, Stateful.on_lift]
    cases checked : check trail call.reads "create" (some call.ownerId) call.scopeId (heldRules given).zipIdx with
    | error error =>
      dsimp only
      exact .stopped error (check_error checked) (.inr (.inr (.inr (stops (by simp [checked])))))
    | ok answer =>
      dsimp only
      cases answer with
      | some result =>
        obtain ⟨forbidden, -⟩ := check_refuses checked
        simp only [forbidden, Bool.not_false, if_true, Stateful.on_throw]
        exact .refused result checked
      | none =>
        simp only [Stateful.on_pure]
        cases failed : call.failed with
        | some stop =>
          simp only [Stateful.on_throw]
          exact .stopped stop.error stop.unlimited (.inr (.inl (by simp [failed])))
        | none =>
          cases unrecorded : call.unrecorded with
          | some stop =>
            simp only [Stateful.on_throw, Stateful.on_pure, Stateful.on_bind, if_true]
            exact .stopped stop.error stop.unlimited (.inr (.inr (.inl (by simp [unrecorded]))))
          | none =>
            simp only [Stateful.on_pure, Stateful.on_bind, Stateful.on_modify, if_true]
            exact .succeeded denied failed unrecorded (check_passes_iff.mp checked)

theorem after_create (given : List RateLimitRule) (world : World) (call : Creation) :
    (after ⟨some given, true⟩ world (.create call) =
        ⟨world.trail ++ [⟨call.ownerId, "create", call.objectType, call.objectId, none, call.recorded.isoformat⟩],
          .succeeded call :: world.log, call.recorded.instant⟩ ∧
      call.denied = none ∧ call.failed = none ∧ call.unrecorded = none ∧
      ∀ rule turn, (rule, turn) ∈ (heldRules given).zipIdx → ¬ Stops world.trail call rule turn) ∨
    (after ⟨some given, true⟩ world (.create call) = ⟨world.trail, .refused call :: world.log, call.recorded.instant⟩ ∧
      ∃ result, check world.trail call.reads "create" (some call.ownerId) call.scopeId (heldRules given).zipIdx =
        .ok (some result)) ∨
    (after ⟨some given, true⟩ world (.create call) = ⟨world.trail, world.log, call.recorded.instant⟩ ∧
      (call.denied.isSome = true ∨ call.failed.isSome = true ∨ call.unrecorded.isSome = true ∨
        ∃ rule turn, (rule, turn) ∈ (heldRules given).zipIdx ∧ Stops world.trail call rule turn)) := by
  have ends := create_ends given call world.trail
  have shape : after ⟨some given, true⟩ world (.create call) = ⟨((create ⟨some given, true⟩ call).on world.trail).2,
      outcome call ((create ⟨some given, true⟩ call).on world.trail).1 ++ world.log, call.recorded.instant⟩ := rfl
  rw [shape]
  generalize ((create ⟨some given, true⟩ call).on world.trail).1 = result at ends ⊢
  generalize ((create ⟨some given, true⟩ call).on world.trail).2 = trail at ends ⊢
  cases ends with
  | succeeded denied failed unrecorded passed => exact .inl ⟨rfl, denied, failed, unrecorded, passed⟩
  | refused result checked => exact .inr (.inl ⟨rfl, result, checked⟩)
  | stopped error other stopped =>
    refine .inr (.inr ⟨?_, stopped⟩)
    simp [outcome, other]

theorem after_audited (given : List RateLimitRule) (world : World) (action : Audited) :
    after ⟨some given, true⟩ world (.audited action) =
      ⟨world.trail ++ [⟨action.actorId, action.action.value, action.targetType, action.targetId, action.scopeId,
        action.recorded.isoformat⟩], .audited action :: world.log, action.recorded.instant⟩ := by
  simp [after, record, stopAt]

theorem Sound.after (sound : Sound world) {step : Step} (ordered : Ordered world step) :
    Sound (after ⟨some given, true⟩ world step) := by
  cases step with
  | create call =>
    have forward : world.latest ≤ call.recorded.instant := (ordered 0).1.trans (ordered 0).2
    have past : ∀ event ∈ world.log, event.instant ≤ call.recorded.instant :=
      fun event member => (sound.past event member).trans forward
    rcases after_create given world call with ⟨same, -⟩ | ⟨same, -⟩ | ⟨same, -⟩
    · rw [same]
      refine ⟨?_, List.forall_mem_cons.mpr ⟨le_rfl, past⟩⟩
      simp [sound.trail, Event.row]
    · rw [same]
      refine ⟨?_, List.forall_mem_cons.mpr ⟨le_rfl, past⟩⟩
      simp [sound.trail, Event.row, List.filterMap_cons]
    · rw [same]
      exact ⟨sound.trail, past⟩
  | audited action =>
    rw [after_audited]
    refine ⟨?_, List.forall_mem_cons.mpr ⟨le_rfl, fun event member => (sound.past event member).trans ordered⟩⟩
    simp [sound.trail, Event.row]

variable {kind kind' : Event → Bool} {start stop start' stop' : Int} {log : List Event} {event : Event}

theorem between_cons : between kind start stop (event :: log) =
    between kind start stop log + if kind event = true ∧ start ≤ event.instant ∧ event.instant ≤ stop then 1 else 0 := by
  unfold between
  rw [List.countP_cons]
  simp

theorem between_mono (covers : ∀ event ∈ log, kind event = true → start ≤ event.instant → event.instant ≤ stop →
    kind' event = true ∧ start' ≤ event.instant ∧ event.instant ≤ stop') : between kind start stop log ≤ between kind' start' stop' log := by
  apply List.countP_mono_left
  intro event member within
  simp only [Bool.and_eq_true, decide_eq_true_eq] at within ⊢
  exact covers event member within.1 within.2.1 within.2.2

theorem Limited.bounded_cons (limited : Limited given world) (quiet : ∀ principal scope, event.succeeds principal scope = false)
    (config : RateLimitConfig) (limits : Limits given config) (principal : String) (scope : Option String) (start : Int) :
    between (Event.succeeds principal scope) start (start + config.window) (event :: world.log) ≤ config.maxCount.toNat := by
  rw [between_cons, quiet]
  simpa using limited.bounded config limits principal scope start

theorem Limited.grounded_cons (limited : Limited given world)
    (ground : ∀ call, event = .refused call → ∃ config, Limits given config ∧ ∃ turn, config.maxCount ≤
      between (Event.creates call.ownerId none) ((call.reads turn).instant - config.window) (call.reads turn).instant world.log)
    (later : List Event) (call : Creation) (earlier : List Event) (split : event :: world.log = later ++ .refused call :: earlier) :
    ∃ config, Limits given config ∧ ∃ turn, config.maxCount ≤
      between (Event.creates call.ownerId none) ((call.reads turn).instant - config.window) (call.reads turn).instant earlier := by
  cases later with
  | nil =>
    obtain ⟨same, rfl⟩ := List.cons.inj split
    exact ground call same
  | cons first later => exact limited.grounded later call earlier (List.cons.inj split).2

/-- Calls without a scope are counted by every later one of their principal. -/
theorem Sound.stopped_unscoped (sound : Sound world) (ordered : Ordered world (.create call)) (unscoped : call.scopeId = none)
    {config : RateLimitConfig} (limits : Limits given config)
    (full : config.maxCount.toNat ≤
      between (Event.succeeds call.ownerId none) (call.recorded.instant - config.window) call.recorded.instant world.log) :
    ∃ rule turn, (rule, turn) ∈ (heldRules given).zipIdx ∧ Stops world.trail call rule turn := by
  obtain ⟨rule, held, matched, limit⟩ := limits
  obtain ⟨turn, inside, rfl⟩ := List.mem_iff_getElem.mp held
  refine ⟨(heldRules given)[turn], turn, List.mem_zipIdx_iff_getElem?.mpr (List.getElem?_eq_getElem inside), matched, config, limit, ?_⟩
  intro count counts
  rw [unscoped] at counts
  obtain ⟨forward, early⟩ := ordered turn
  have total := sound.count forward counts
  have more : between (Event.succeeds call.ownerId none) (call.recorded.instant - config.window) call.recorded.instant world.log ≤
      between (Event.creates call.ownerId none) ((call.reads turn).instant - config.windowSeconds * 1000000)
        (call.reads turn).instant world.log := by
    apply between_mono
    intro event member succeeds since _
    have past := sound.past event member
    refine ⟨?_, ?_, past.trans forward⟩
    · cases event with
      | succeeded other =>
        simp only [Event.succeeds, Bool.and_eq_true, decide_eq_true_eq] at succeeds
        simp [Event.creates, succeeds.1]
      | refused _ => cases succeeds
      | audited _ => cases succeeds
    · unfold RateLimitConfig.window at since
      omega
  omega

theorem creates_any {principal : String} {scope : Option String} (creates : event.creates principal scope = true) :
    event.creates principal none = true := by
  cases event with
  | succeeded call =>
    simp only [Event.creates, Bool.and_eq_true] at creates
    simp [Event.creates, of_decide_eq_true creates.1]
  | refused call => cases creates
  | audited action =>
    simp only [Event.creates, Bool.and_eq_true] at creates
    simp [Event.creates, of_decide_eq_true creates.1.1, of_decide_eq_true creates.1.2]

theorem limited_new (given : List RateLimitRule) : Limited given World.new := by
  constructor
  · intro config _ principal scope start
    exact Nat.zero_le _
  · intro later call earlier split
    cases later <;> cases split

/-- A covered call keeps the windows below their limits. -/
theorem Sound.bounded_create (sound : Sound world) (limited : Limited given world) (ordered : Ordered world (.create call))
    (covered : Covered given world (.create call))
    (clear : call.denied = none ∧ call.failed = none ∧ call.unrecorded = none ∧
      ∀ rule turn, (rule, turn) ∈ (heldRules given).zipIdx → ¬ Stops world.trail call rule turn)
    (config : RateLimitConfig) (limits : Limits given config) (principal : String) (scope : Option String) (start : Int) :
    between (Event.succeeds principal scope) start (start + config.window) (.succeeded call :: world.log) ≤
      config.maxCount.toNat := by
  obtain ⟨denied, failed, unrecorded, passed⟩ := clear
  rw [between_cons]
  split
  next within =>
    obtain ⟨own, since, early⟩ := within
    simp only [Event.succeeds, Bool.and_eq_true, decide_eq_true_eq] at own
    simp only [Event.instant] at since early
    obtain ⟨rfl, rfl⟩ := own
    have positive : 0 ≤ config.windowSeconds := by
      unfold RateLimitConfig.window at early
      omega
    have forward : world.latest ≤ call.recorded.instant := (ordered 0).1.trans (ordered 0).2
    have earlier : between (Event.succeeds call.ownerId call.scopeId) start (start + config.window) world.log ≤
        between (Event.succeeds call.ownerId call.scopeId) (call.recorded.instant - config.window) call.recorded.instant world.log := by
      apply between_mono
      intro event member succeeds since' _
      exact ⟨succeeds, by omega, (sound.past event member).trans forward⟩
    have room : between (Event.succeeds call.ownerId call.scopeId) (call.recorded.instant - config.window) call.recorded.instant
        world.log < config.maxCount.toNat := by
      by_contra full
      cases unscoped : call.scopeId with
      | none =>
        rw [unscoped] at full
        obtain ⟨rule, turn, member, stops⟩ := sound.stopped_unscoped ordered unscoped limits (Nat.not_lt.mp full)
        exact passed rule turn member stops
      | some scope =>
        rw [unscoped] at full
        rcases covered scope unscoped config limits positive (Nat.not_lt.mp full) with stop | stop | stop | ⟨rule, turn, member, stops⟩
        · simp [denied] at stop
        · simp [failed] at stop
        · simp [unrecorded] at stop
        · exact passed rule turn member stops
    omega
  · simpa using limited.bounded config limits principal scope start

theorem Limited.after (limited : Limited given world) (sound : Sound world) {step : Step} (ordered : Ordered world step)
    (covered : Covered given world step) : Limited given (after ⟨some given, true⟩ world step) := by
  cases step with
  | audited action =>
    rw [after_audited]
    exact ⟨limited.bounded_cons fun _ _ => rfl, limited.grounded_cons fun _ same => by cases same⟩
  | create call =>
    rcases after_create given world call with ⟨same, clear⟩ | ⟨same, result, checked⟩ | ⟨same, -⟩
    · rw [same]
      exact ⟨sound.bounded_create limited ordered covered clear, limited.grounded_cons fun _ same => by cases same⟩
    · rw [same]
      refine ⟨limited.bounded_cons fun _ _ => rfl, limited.grounded_cons ?_⟩
      intro refused split
      cases split
      obtain ⟨-, rule, turn, config, count, member, matched, limit, full, counts⟩ := check_refuses checked
      have held : rule ∈ heldRules given := by
        obtain ⟨-, -, same⟩ := List.mem_zipIdx member
        exact same ▸ List.getElem_mem _
      refine ⟨config, ⟨rule, held, matched, limit⟩, turn, ?_⟩
      rw [sound.count (ordered turn).1 counts] at full
      refine full.trans (Int.ofNat_le.mpr (between_mono ?_))
      exact fun event member creates since early => ⟨creates_any creates, since, early⟩
    · rw [same]
      exact ⟨limited.bounded, limited.grounded⟩

theorem covered_of_limited {step : Step} (limited : Limited given (after ⟨some given, true⟩ world step)) :
    Covered given world step := by
  cases step with
  | audited action => trivial
  | create call =>
    intro scope asked config limits positive full
    rcases after_create given world call with ⟨same, -⟩ | ⟨-, result, checked⟩ | ⟨-, stopped⟩
    · rw [same] at limited
      have bounded := limited.bounded config limits call.ownerId (some scope) (call.recorded.instant - config.window)
      have own : (Event.succeeded call).succeeds call.ownerId (some scope) = true := by simp [Event.succeeds, asked]
      have window : 0 ≤ config.window := by
        unfold RateLimitConfig.window
        omega
      rw [Int.sub_add_cancel, between_cons, if_pos ⟨own, by simp only [Event.instant]; omega, le_rfl⟩] at bounded
      omega
    · obtain ⟨-, rule, turn, config', count, member, matched, limit, most, counts⟩ := check_refuses checked
      refine .inr (.inr (.inr ⟨rule, turn, member, matched, config', limit, ?_⟩))
      intro count' counts'
      rw [counts] at counts'
      exact Except.ok.inj counts' ▸ most
    · exact stopped

/-- What every covered step keeps. -/
structure Kept (given : List RateLimitRule) (world : World) : Prop where
  sound : Sound world
  limited : Limited given world

/-- The limits hold all along a run if and only if every call with a scope is
stopped once the rule's maximum of such calls have succeeded in its window. -/
theorem limited_iff (given : List RateLimitRule) (run : List Step)
    (ordered : Meets (after ⟨some given, true⟩) Ordered World.new run) :
    Always (after ⟨some given, true⟩) (Limited given) World.new run ↔
      Meets (after ⟨some given, true⟩) (Covered given) World.new run := by
  have start : Kept given World.new := ⟨sound_new, limited_new given⟩
  refine always_iff_meets ?_ ?_ ?_ start ordered
  · exact fun _ kept => kept.limited
  · exact fun _ _ kept ordered covered => ⟨kept.sound.after ordered, kept.limited.after kept.sound ordered covered⟩
  · exact fun _ _ _ _ limited => covered_of_limited limited

section Sample

/-- At most one create in a minute. -/
private def oneAMinute : RateLimitRule := ⟨"rule", .rateLimit, .active, .only "create", some ⟨1, 60⟩⟩

private def noon : Moment := .of 63840043200000000 (by decide)

private def noted (scopeId : Option String) : Step := .create
  { objectType := "doc", ownerId := "ann", scopeId := scopeId, objectId := "o", reads := fun _ => noon, recorded := noon,
    denied := none, failed := none, unrecorded := none }

private theorem ordered_noted (scopeId : Option String) :
    Meets (after ⟨some [oneAMinute], true⟩) Ordered World.new [noted scopeId, noted scopeId] := by
  have early : (0 : Int) ≤ noon.instant := by decide
  exact ⟨fun _ => ⟨early, le_rfl⟩, fun _ => ⟨le_rfl, le_rfl⟩, trivial⟩

/-- Two calls without a scope. -/
theorem limited_unscoped :
    Always (after ⟨some [oneAMinute], true⟩) (Limited [oneAMinute]) World.new [noted none, noted none] := by
  apply (limited_iff [oneAMinute] [noted none, noted none] (ordered_noted none)).mpr
  exact ⟨fun _ asked => (by cases asked), fun _ asked => (by cases asked), trivial⟩

/-- Two calls with a scope both succeed, at the same time. -/
theorem scoped_creates_unlimited : Meets (after ⟨some [oneAMinute], true⟩) Ordered World.new [noted (some "team"), noted (some "team")] ∧
    ¬ Always (after ⟨some [oneAMinute], true⟩) (Limited [oneAMinute]) World.new [noted (some "team"), noted (some "team")] := by
  constructor
  · exact ordered_noted (some "team")
  · intro ⟨_, _, limited⟩
    have limits : Limits [oneAMinute] ⟨1, 60⟩ := ⟨oneAMinute, List.mem_singleton_self _, rfl, rfl⟩
    have bounded := limited.bounded ⟨1, 60⟩ limits "ann" (some "team") 63840043200000000
    have two : between (Event.succeeds "ann" (some "team")) 63840043200000000
        (63840043200000000 + RateLimitConfig.window ⟨1, 60⟩) (after ⟨some [oneAMinute], true⟩
          (after ⟨some [oneAMinute], true⟩ World.new (noted (some "team"))) (noted (some "team"))).log = 2 := by
      decide +kernel
    rw [two] at bounded
    exact absurd bounded (by decide)

end Sample
end PyScoped.Legacy.RateLimits
