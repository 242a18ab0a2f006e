import PyScoped.Legacy.RuleStore

/-! Cached rules and the writes of finished calls. An entry is filled from rows
selected earlier and cleared by an invalidation, so it lags behind a write only
if it is filled after the invalidation, or if there is none. -/

namespace PyScoped.Legacy.RuleStore
open Foundation

variable {ι : Type}

/-- Some write after the first position and up to the last changed the rows of the target. -/
def Store.Changed (store : Store ι) (target : Target) (first last : Nat) : Prop :=
  ∃ position, first < position ∧ position ≤ last ∧
    (store.past position).rulesForTarget target ≠ (store.past (position - 1)).rulesForTarget target

/-- Every evaluation takes rows that the tables held after all writes of the
calls that had ended when it began. -/
def Current (store : Store ι) : Prop :=
  ∀ use ∈ store.uses, ∃ position, use.since ≤ position ∧ position ≤ use.seen ∧
    use.rows = (store.past position).rulesForTarget use.target

/-- No cache is filled with rows selected before a write that changed them and
whose call has invalidated or ended since, and no call raises while the cache
holds rows that one of its writes has changed. -/
def Timely (client : ι) (store : Store ι) : Request → Prop
  | .put target _ => ¬ store.Changed target (store.selected client) store.invalidated
  | .raised => ∀ target entry, store.cached target = some entry →
      ¬ store.Changed target entry.selected (store.written client)
  | _ => True

theorem cacheKey_injective : Function.Injective Target.cacheKey := by
  rintro ⟨firstType, firstId⟩ ⟨secondType, secondId⟩ same
  have texts := congrArg String.toList same
  simp only [Target.cacheKey, String.toList_append] at texts
  cases firstType <;> cases secondType <;> simp_all [BindingTargetType.value, String.toList_inj]

variable {store : Store ι} {target : Target}

theorem Store.Changed.mono {first last last' : Nat}
    (changed : store.Changed target first last) (later : last ≤ last') : store.Changed target first last' := by
  obtain ⟨position, after, before, differs⟩ := changed
  exact ⟨position, after, before.trans later, differs⟩

theorem Store.rows_of_unchanged {first last : Nat}
    (unchanged : ¬ store.Changed target first last) (ordered : first ≤ last) :
    (store.past last).rulesForTarget target = (store.past first).rulesForTarget target := by
  induction last, ordered using Nat.le_induction with
  | base => rfl
  | succ last ordered ih =>
    have before := ih fun changed => unchanged (changed.mono (Nat.le_succ last))
    by_contra differs
    refine unchanged ⟨last + 1, Nat.lt_succ_of_le ordered, le_refl _, ?_⟩
    rwa [Nat.add_sub_cancel, before]

variable {after : Store ι}

theorem Store.Changed.congr {before : Store ι} {first last bound : Nat}
    (past : ∀ position ≤ bound, after.past position = before.past position) (within : last ≤ bound)
    (changed : after.Changed target first last) : before.Changed target first last := by
  obtain ⟨position, later, earlier, differs⟩ := changed
  rw [past position (earlier.trans within), past (position - 1) ((Nat.sub_le _ _).trans (earlier.trans within))] at differs
  exact ⟨position, later, earlier, differs⟩

/-- What every statement keeps. -/
structure Consistent (store : Store ι) : Prop where
  cached : ∀ target entry, store.cached target = some entry → entry.selected ≤ store.writes ∧
    entry.value = (store.past entry.selected).rulesForTarget target ∧
      ¬ store.Changed target entry.selected store.invalidated
  ended : store.ended ≤ store.invalidated
  invalidated : store.invalidated ≤ store.writes
  written : ∀ client, store.written client ≤ store.writes
  since : ∀ client, store.since client ≤ store.ended
  seen : ∀ use ∈ store.uses, use.seen ≤ store.writes
  current : Current store

/-- What a client finds after the steps of others. -/
structure Onward (client : ι) (before after : Store ι) : Prop where
  writes : before.writes ≤ after.writes
  past : ∀ position ≤ before.writes, after.past position = before.past position
  invalidated : before.invalidated ≤ after.invalidated
  written : after.written client = before.written client
  selected : after.selected client = before.selected client

theorem Onward.refl (client : ι) (store : Store ι) : Onward client store store :=
  ⟨le_refl _, fun _ _ => rfl, le_refl _, rfl, rfl⟩

theorem Onward.trans {client : ι} {first second third : Store ι} (one : Onward client first second)
    (two : Onward client second third) : Onward client first third :=
  ⟨one.writes.trans two.writes,
    fun position within => (two.past position (within.trans one.writes)).trans (one.past position within),
    one.invalidated.trans two.invalidated, two.written.trans one.written, two.selected.trans one.selected⟩

def contract : Contract Request (Store ι) ι where
  kept := Consistent
  rely := Onward
  allowed := Timely

/-- What a client must know of its own before a statement. -/
def Prepared (client : ι) (store : Store ι) : Request → Prop
  | .put target rows => store.selected client ≤ store.writes ∧
      rows = (store.past (store.selected client)).rulesForTarget target
  | .returned => store.written client ≤ store.invalidated
  | _ => True

theorem cached_later {elapsed : Nat} {entry : Entry}
    (cached : (store.tick elapsed).cached target = some entry) : store.cached target = some entry := by
  obtain ⟨present, live⟩ := Option.filter_eq_some_iff.mp cached
  refine Option.filter_eq_some_iff.mpr ⟨present, decide_eq_true ?_⟩
  have := of_decide_eq_true live
  dsimp only [Store.tick] at this
  omega

theorem Consistent.tick (consistent : Consistent store) (elapsed : Nat) :
    Consistent (store.tick elapsed) := by
  refine ⟨?_, consistent.ended, consistent.invalidated, consistent.written, consistent.since, consistent.seen,
    consistent.current⟩
  exact fun target entry cached => consistent.cached target entry (cached_later cached)

theorem Consistent.use [DecidableEq ι] (consistent : Consistent store) (client : ι)
    {rows : List Rule} (position : Nat) (recent : store.ended ≤ position) (within : position ≤ store.writes)
    (same : rows = (store.past position).rulesForTarget target) : Consistent (store.use client target rows) := by
  refine ⟨consistent.cached, consistent.ended, consistent.invalidated, consistent.written, consistent.since, ?_, ?_⟩
  · intro use member
    obtain rfl | member := List.mem_cons.mp member
    · exact le_refl _
    · exact consistent.seen use member
  · intro use member
    obtain rfl | member := List.mem_cons.mp member
    · exact ⟨position, (consistent.since client).trans recent, within, same⟩
    · exact consistent.current use member

theorem Consistent.fewer (consistent : Consistent store) {cache : String → Option Entry}
    (fewer : ∀ key entry, cache key = some entry → store.cache key = some entry) :
    Consistent { store with cache := cache } := by
  refine ⟨?_, consistent.ended, consistent.invalidated, consistent.written, consistent.since, consistent.seen,
    consistent.current⟩
  intro target entry cached
  obtain ⟨present, live⟩ := Option.filter_eq_some_iff.mp cached
  exact consistent.cached target entry (Option.filter_eq_some_iff.mpr ⟨fewer _ _ present, live⟩)

theorem Consistent.fill (consistent : Consistent store) {filled : Entry}
    (fresh : filled.selected ≤ store.writes ∧ filled.value = (store.past filled.selected).rulesForTarget target ∧
      ¬ store.Changed target filled.selected store.invalidated) :
    Consistent { store with cache := Function.update store.cache target.cacheKey (some filled) } := by
  refine ⟨?_, consistent.ended, consistent.invalidated, consistent.written, consistent.since, consistent.seen,
    consistent.current⟩
  intro other entry cached
  obtain ⟨present, live⟩ := Option.filter_eq_some_iff.mp cached
  dsimp only at present
  by_cases equal : other = target
  · subst other
    rw [Function.update_self] at present
    cases present
    exact fresh
  · rw [Function.update_of_ne fun same => equal (cacheKey_injective same)] at present
    exact consistent.cached other entry (Option.filter_eq_some_iff.mpr ⟨present, live⟩)

variable [DecidableEq ι]

theorem Consistent.write (consistent : Consistent store) (client : ι) (tables : Tables) :
    Consistent { store with
      past := Function.update store.past (store.writes + 1) tables
      writes := store.writes + 1
      written := Function.update store.written client (store.writes + 1) } := by
  have past : ∀ position ≤ store.writes,
      Function.update store.past (store.writes + 1) tables position = store.past position :=
    fun position within => Function.update_of_ne (by omega) _ _
  refine ⟨?_, consistent.ended, consistent.invalidated.trans (Nat.le_succ _), ?_, consistent.since, ?_, ?_⟩
  · intro target entry cached
    obtain ⟨selected, same, unchanged⟩ := consistent.cached target entry cached
    refine ⟨selected.trans (Nat.le_succ _), ?_, fun changed => unchanged (changed.congr past consistent.invalidated)⟩
    rw [same]
    dsimp only
    rw [past _ selected]
  · intro other
    by_cases same : other = client
    · subst other
      simp only [Function.update_self, le_refl]
    · simp only [Function.update_of_ne same]
      exact (consistent.written other).trans (Nat.le_succ _)
  · exact fun use member => (consistent.seen use member).trans (Nat.le_succ _)
  · intro use member
    obtain ⟨position, since, within, same⟩ := consistent.current use member
    refine ⟨position, since, within, ?_⟩
    rw [same]
    dsimp only
    rw [past _ (within.trans (consistent.seen use member))]

theorem Consistent.reset (consistent : Consistent store) (client other : ι) :
    Function.update store.written client 0 other ≤ store.writes := by
  by_cases same : other = client
  · subst other
    simp only [Function.update_self, Nat.zero_le]
  · simpa only [Function.update_of_ne same] using consistent.written other

variable {request : Request}

/-- One answer, whatever the statement, to a client that is prepared for it. -/
theorem Consistent.answer (consistent : Consistent store) (ttl : Int) (client : ι) (generated : String)
    (prepared : Prepared client store request) (timely : Timely client store request) :
    Consistent (answer ttl client generated store request).2 ∧
      ∀ other, other ≠ client → Onward other store (answer ttl client generated store request).2 := by
  have quiet (other : ι) : Onward other store store := .refl other store
  cases request with
  | generate => exact ⟨consistent, fun other _ => quiet other⟩
  | selectRule id => exact ⟨consistent, fun other _ => quiet other⟩
  | selectBinding ruleId target => exact ⟨consistent, fun other _ => quiet other⟩
  | record actorId action targetType targetId => exact ⟨consistent, fun other _ => quiet other⟩
  | get target =>
    dsimp only [RuleStore.answer]
    split
    next entry found =>
      obtain ⟨selected, same, unchanged⟩ := consistent.cached target entry found
      refine ⟨consistent.use client (max entry.selected store.invalidated) ?_ ?_ ?_,
        fun _ _ => ⟨le_refl _, fun _ _ => rfl, le_refl _, rfl, rfl⟩⟩
      · exact consistent.ended.trans (le_max_right _ _)
      · exact max_le selected consistent.invalidated
      · rw [same]
        by_cases ordered : entry.selected ≤ store.invalidated
        · rw [max_eq_right ordered]
          exact (Store.rows_of_unchanged unchanged ordered).symm
        · rw [max_eq_left (Nat.le_of_not_le ordered)]
    next =>
      refine ⟨consistent.fewer ?_, fun _ _ => ⟨le_refl _, fun _ _ => rfl, le_refl _, rfl, rfl⟩⟩
      intro key entry present
      by_cases same : key = target.cacheKey
      · rw [same, Function.update_self] at present
        cases present
      · rwa [Function.update_of_ne same] at present
  | put target rows =>
    obtain ⟨within, same⟩ := prepared
    exact ⟨consistent.fill ⟨within, same, timely⟩, fun _ _ => ⟨le_refl _, fun _ _ => rfl, le_refl _, rfl, rfl⟩⟩
  | invalidate =>
    refine ⟨⟨nofun, consistent.ended.trans (le_max_left _ _),
      max_le consistent.invalidated (consistent.written client), consistent.written, consistent.since, consistent.seen,
      consistent.current⟩, fun other _ => ⟨le_refl _, fun _ _ => rfl, le_max_left _ _, rfl, rfl⟩⟩
  | selectTarget target =>
    have used := consistent.use client store.writes (consistent.ended.trans consistent.invalidated) (le_refl _)
      (rfl : store.tables.rulesForTarget target = _)
    refine ⟨⟨used.cached, used.ended, used.invalidated, used.written, used.since, used.seen, used.current⟩, ?_⟩
    intro other different
    exact ⟨le_refl _, fun _ _ => rfl, le_refl _, rfl, Function.update_of_ne different _ _⟩
  | write change =>
    dsimp only [RuleStore.answer]
    split
    next => exact ⟨consistent, fun other _ => quiet other⟩
    next tables applied =>
      have past : ∀ position ≤ store.writes,
          Function.update store.past (store.writes + 1) tables position = store.past position :=
        fun position within => Function.update_of_ne (by omega) _ _
      refine ⟨consistent.write client tables, fun other different => ?_⟩
      exact ⟨Nat.le_succ _, past, le_refl _, Function.update_of_ne different _ _, rfl⟩
  | evaluating =>
    refine ⟨⟨consistent.cached, consistent.ended, consistent.invalidated, consistent.written, ?_, consistent.seen,
      consistent.current⟩, fun _ _ => ⟨le_refl _, fun _ _ => rfl, le_refl _, rfl, rfl⟩⟩
    intro other
    by_cases same : other = client
    · subst other
      simp only [RuleStore.answer, Function.update_self, le_refl]
    · simpa only [RuleStore.answer, Function.update_of_ne same] using consistent.since other
  | returned =>
    refine ⟨⟨consistent.cached, max_le consistent.ended prepared, consistent.invalidated,
      consistent.reset client, ?_, consistent.seen, consistent.current⟩, ?_⟩
    · exact fun other => (consistent.since other).trans (le_max_left _ _)
    · intro other different
      exact ⟨le_refl _, fun _ _ => rfl, le_refl _, Function.update_of_ne different _ _, rfl⟩
  | raised =>
    refine ⟨⟨?_, max_le_max consistent.ended (le_refl _),
      max_le consistent.invalidated (consistent.written client), consistent.reset client, ?_, consistent.seen,
      consistent.current⟩, ?_⟩
    · intro target entry cached
      obtain ⟨selected, same, unchanged⟩ := consistent.cached target entry cached
      refine ⟨selected, same, ?_⟩
      rintro ⟨position, after, before, differs⟩
      obtain before | before := le_max_iff.mp before
      · exact unchanged ⟨position, after, before, differs⟩
      · exact timely target entry cached ⟨position, after, before, differs⟩
    · exact fun other => (consistent.since other).trans (le_max_left _ _)
    · intro other different
      exact ⟨le_refl _, fun _ _ => rfl, le_max_left _ _, Function.update_of_ne different _ _, rfl⟩

omit [DecidableEq ι] in
theorem Prepared.tick {client : ι} (prepared : Prepared client store request)
    (elapsed : Nat) : Prepared client (store.tick elapsed) request := by
  cases request <;> exact prepared

omit [DecidableEq ι] in
theorem Timely.tick {client : ι} (timely : Timely client store request)
    (elapsed : Nat) : Timely client (store.tick elapsed) request := by
  cases request with
  | raised => exact fun target entry cached => timely target entry (cached_later cached)
  | _ => exact timely

theorem Consistent.step {ttl : Int} {client : ι} {choice : Choice}
    {reply : Except Raised (Reply request)} (consistent : Consistent store) (prepared : Prepared client store request)
    (timely : Timely client store request) (answered : serve ttl client choice store request = some (reply, after)) :
    Consistent after ∧ ∀ other, other ≠ client → Onward other store after := by
  have ticked := consistent.tick choice.elapsed
  unfold serve at answered
  split at answered
  · cases answered
    exact ⟨ticked, fun _ _ => ⟨le_refl _, fun _ _ => rfl, le_refl _, rfl, rfl⟩⟩
  · obtain rfl : (RuleStore.answer ttl client choice.generated (store.tick choice.elapsed) request).2 = after :=
      congrArg Prod.snd (Option.some.inj answered)
    obtain ⟨kept, others⟩ :=
      ticked.answer ttl client choice.generated (prepared.tick choice.elapsed) (timely.tick choice.elapsed)
    refine ⟨kept, fun other different => ?_⟩
    have first : Onward other store (store.tick choice.elapsed) := ⟨le_refl _, fun _ _ => rfl, le_refl _, rfl, rfl⟩
    exact first.trans (others other different)

/-- Statements for which a client need not prepare. -/
def Unconditional : Request → Prop
  | .put _ _ => False
  | .returned => False
  | _ => True

omit [DecidableEq ι] in
theorem Unconditional.prepared (unconditional : Unconditional request) (client : ι)
    (store : Store ι) : Prepared client store request := by
  cases request <;> trivial

variable {ttl : Int} {client : ι} {α β : Type}
variable {program : Program α}

theorem only_safe (only : program.Only Unconditional) (state : Store ι) :
    contract.Safe (serve ttl) client (fun _ _ => True) program state :=
  .keeping (fun _ _ now _ _ unconditional kept allowed answered =>
    kept.step (unconditional.prepared client now) allowed answered) only

/-- The writes of the client's call are invalidated. -/
def Settled (client : ι) (store : Store ι) : Prop := store.written client ≤ store.invalidated

omit [DecidableEq ι] in
theorem Settled.onward {before : Store ι} (settled : Settled client before) (onward : Onward client before after) :
    Settled client after := by
  unfold Settled
  rw [onward.written]
  exact settled.trans onward.invalidated

/-- A call that returns has invalidated its writes. -/
def Settles (ttl : Int) (client : ι) (program : Program α) : Prop :=
  ∀ state, contract.Safe (serve ttl) client (fun result final => ∀ value, result = .ok value → Settled client final)
    program state

theorem Settles.bind {next : α → Program β} (only : program.Only Unconditional)
    (settles : ∀ value, Settles ttl client (next value)) : Settles ttl client (program.bind next) := by
  intro state
  refine .bind ((only_safe only state).weaken fun result final _ => ?_)
  cases result with
  | ok value => exact settles value final
  | error error => exact fun _ raised => nomatch raised

theorem settles_invalidate (value : α) :
    Settles ttl client (((Prog.perform Request.invalidate : Program Unit)).bind fun _ => .pure value) := by
  intro state
  refine .bind (.perform fun now kept moved allowed choice reply after answered => ?_)
  obtain ⟨kept', others⟩ := kept.step (show Prepared client now .invalidate from trivial) allowed answered
  refine ⟨kept', others, ?_⟩
  obtain ⟨failure, elapsed, generated⟩ := choice
  cases failure <;> cases answered <;> exact fun _ _ => le_max_right _ _

theorem Settles.map (settles : Settles ttl client program) (convert : α → β) :
    Settles ttl client (convert <$> program) := by
  intro state
  refine .bind ((settles state).weaken fun result final settled => ?_)
  cases result with
  | ok value => exact fun _ _ => settled value rfl
  | error error => exact fun _ raised => nomatch raised

private theorem record_only (audit : Bool) (actorId : String) (action : ActionType) (targetType targetId : String) :
    (recordIf audit actorId action targetType targetId).Only Unconditional := by
  cases audit
  · trivial
  · exact .perform trivial

theorem createRule_settles (audit : Bool) (new : NewRule) (createdBy : String) :
    Settles ttl client (createRule audit new createdBy) :=
  .bind (.perform trivial) fun _ => .bind (.perform trivial) fun _ => .bind (.perform trivial) fun _ =>
    .bind (record_only ..) fun _ => settles_invalidate _

private theorem getRuleOrRaise_only (ruleId : String) : (getRuleOrRaise ruleId).Only Unconditional := by
  refine .bind (.perform trivial) fun row => ?_
  cases row <;> trivial

theorem updateRule_settles (audit : Bool) (ruleId updatedBy : String) (conditions : Option (List (String × Json)))
    (effect : Option RuleEffect) (priority : Option Int) :
    Settles ttl client (updateRule audit ruleId updatedBy conditions effect priority) :=
  .bind (getRuleOrRaise_only ruleId) fun _ => .bind (.perform trivial) fun _ => .bind (.perform trivial) fun _ =>
    .bind (record_only ..) fun _ => settles_invalidate _

theorem archiveRule_settles (audit : Bool) (ruleId archivedBy : String) :
    Settles ttl client (archiveRule audit ruleId archivedBy) :=
  .bind (getRuleOrRaise_only ruleId) fun _ => .bind (.perform trivial) fun _ => .bind (.perform trivial) fun _ =>
    .bind (record_only ..) fun _ => settles_invalidate _

theorem bindRule_settles (ruleId : String) (target : Target) : Settles ttl client (bindRule ruleId target) :=
  .bind (.perform trivial) fun _ => .bind (.perform trivial) fun _ => settles_invalidate _

variable {state : Store ι}

theorem unbindRule_settles (ruleId : String) (target : Target) (settled : Settled client state) :
    contract.Safe (serve ttl) client (fun result final => ∀ value, result = .ok value → Settled client final)
      (unbindRule ruleId target) state := by
  refine .bind (.perform fun now kept moved allowed choice reply after answered => ?_)
  obtain ⟨kept', others⟩ :=
    kept.step (show Prepared client now (.selectBinding ruleId target) from trivial) allowed answered
  refine ⟨kept', others, ?_⟩
  have here : Settled client now := settled.onward moved
  have still : Settled client after := by
    obtain ⟨failure, elapsed, generated⟩ := choice
    cases failure <;> cases answered <;> exact here
  cases reply with
  | error error => exact fun _ raised => nomatch raised
  | ok found =>
    cases found with
    | false => exact fun _ _ => still
    | true =>
      have rest : Settles ttl client ((Prog.perform (Request.write (.archiveBinding ruleId target)) : Program Unit).bind
          fun _ => (Prog.perform Request.invalidate : Program Unit).bind fun _ => .pure true) :=
        .bind (.perform trivial) fun _ => settles_invalidate true
      exact rest after

theorem invoke_safe (audit : Bool) (made : Call) (settled : Settled client state) :
    contract.Safe (serve ttl) client (fun result final => ∀ value, result = .ok value → Settled client final)
      (invoke audit made) state := by
  cases made with
  | createRule new createdBy => exact (createRule_settles audit new createdBy).map _ state
  | updateRule ruleId updatedBy conditions effect priority =>
    exact (updateRule_settles audit ruleId updatedBy conditions effect priority).map _ state
  | archiveRule ruleId archivedBy => exact (archiveRule_settles audit ruleId archivedBy).map _ state
  | bindRule ruleId target => exact (bindRule_settles ruleId target).map _ state
  | unbindRule ruleId target =>
    refine .bind ((unbindRule_settles ruleId target settled).weaken fun result final settled => ?_)
    cases result with
    | ok value => exact fun _ _ => settled value rfl
    | error error => exact fun _ raised => nomatch raised

theorem call_safe (audit : Bool) (made : Call) (settled : Settled client state) :
    contract.Safe (serve ttl) client (fun _ final => Settled client final) (call audit made) state := by
  refine .bind (.attempt ((invoke_safe audit made settled).weaken fun result final settled => ?_))
  cases result with
  | ok outcome =>
    refine .bind (.perform fun now kept moved allowed choice reply after answered => ?_)
    have prepared : Prepared client now .returned := (settled outcome rfl).onward moved
    obtain ⟨kept', others⟩ := kept.step prepared allowed answered
    refine ⟨kept', others, ?_⟩
    obtain ⟨failure, elapsed, generated⟩ := choice
    cases failure <;> cases answered <;> exact le_of_eq_of_le (Function.update_self ..) (Nat.zero_le _)
  | error error =>
    refine .bind (.perform fun now kept moved allowed choice reply after answered => ?_)
    obtain ⟨kept', others⟩ := kept.step (show Prepared client now .raised from trivial) allowed answered
    refine ⟨kept', others, ?_⟩
    obtain ⟨failure, elapsed, generated⟩ := choice
    cases failure <;> cases answered <;> exact le_of_eq_of_le (Function.update_self ..) (Nat.zero_le _)

/-- Statements that leave the marks of writes and invalidations alone. -/
def Marking : Request → Prop
  | .write _ => True
  | .invalidate => True
  | .returned => True
  | .raised => True
  | _ => False

theorem Settled.kept {choice : Choice} {now : Store ι} {reply : Except Raised (Reply request)}
    (settled : Settled client now) (unmarked : ¬ Marking request)
    (answered : serve ttl client choice now request = some (reply, after)) : Settled client after := by
  have answer_same : Settled client (answer ttl client choice.generated (now.tick choice.elapsed) request).2 := by
    cases request with
    | get target =>
      dsimp only [answer]
      split <;> exact settled
    | write | invalidate | returned | raised => exact absurd True.intro unmarked
    | _ => exact settled
  unfold serve at answered
  split at answered
  · cases answered
    exact settled
  · obtain rfl : (answer ttl client choice.generated (now.tick choice.elapsed) request).2 = after :=
      congrArg Prod.snd (Option.some.inj answered)
    exact answer_same

theorem statement_safe (unconditional : Unconditional request) (unmarked : ¬ Marking request)
    (settled : Settled client state) :
    contract.Safe (serve ttl) client (fun _ final => Settled client final) (Prog.perform request) state := by
  refine .perform fun now kept moved allowed choice reply after answered => ?_
  obtain ⟨kept', others⟩ := kept.step (unconditional.prepared client now) allowed answered
  exact ⟨kept', others, (settled.onward moved).kept unmarked answered⟩

/-- The rows that are put are those of the SELECT before. -/
theorem rulesForTarget_safe (target : Target) (settled : Settled client state) :
    contract.Safe (serve ttl) client (fun _ final => Settled client final) (rulesForTarget target) state := by
  refine .bind ((statement_safe (by trivial) (by exact not_false) settled).weaken fun result final settled => ?_)
  cases result with
  | error error => exact settled
  | ok cached =>
    cases cached with
    | some rows => exact settled
    | none =>
      refine .bind (.perform fun now kept moved allowed choice reply after answered => ?_)
      obtain ⟨kept', others⟩ :=
        kept.step (show Prepared client now (.selectTarget target) from trivial) allowed answered
      have settled := (settled.onward moved).kept (by exact not_false) answered
      refine ⟨kept', others, ?_⟩
      have selected : ∀ rows, reply = .ok rows → Prepared client after (.put target rows) := by
        obtain ⟨failure, elapsed, generated⟩ := choice
        cases failure with
        | some error =>
          cases answered
          exact fun _ raised => nomatch raised
        | none =>
          cases answered
          intro rows same
          cases same
          refine ⟨le_of_eq (Function.update_self ..), ?_⟩
          dsimp only
          rw [Function.update_self]
          rfl
      cases reply with
      | error error => exact settled
      | ok rows =>
        refine .bind (.perform fun later kept moved allowed choice reply final answered => ?_)
        obtain ⟨within, same⟩ := selected rows rfl
        have prepared : Prepared client later (.put target rows) := by
          refine ⟨?_, ?_⟩
          · rw [moved.selected]
            exact within.trans moved.writes
          · rw [moved.selected, moved.past _ within]
            exact same
        obtain ⟨kept', others⟩ := kept.step prepared allowed answered
        have settled := (settled.onward moved).kept (by exact not_false) answered
        refine ⟨kept', others, ?_⟩
        cases reply <;> exact settled

theorem rulesFor_safe (targetType : BindingTargetType) (named : Option String) (settled : Settled client state) :
    contract.Safe (serve ttl) client (fun _ final => Settled client final) (rulesFor targetType named) state := by
  unfold rulesFor
  split
  next targetId =>
    split
    · exact settled
    · exact rulesForTarget_safe _ settled
  · exact settled

theorem recordIf_safe (audit : Bool) (actorId : String) (action : ActionType) (targetType targetId : String)
    (settled : Settled client state) :
    contract.Safe (serve ttl) client (fun _ final => Settled client final)
      (recordIf audit actorId action targetType targetId) state := by
  cases audit
  · exact settled
  · exact statement_safe (by trivial) (by exact not_false) settled

omit [DecidableEq ι] in
private theorem settled_bind {service : Service Request Reply Raised (Store ι) ι Choice} {next : α → Program β}
    (first : contract.Safe service client (fun _ final => Settled client final) program state)
    (rest : ∀ value final, Settled client final →
      contract.Safe service client (fun _ final => Settled client final) (next value) final) :
    contract.Safe service client (fun _ final => Settled client final) (program.bind next) state := by
  refine .bind (first.weaken fun result final settled => ?_)
  cases result with
  | ok value => exact rest value final settled
  | error error => exact settled

theorem evaluate_safe (audit : Bool) (request : AccessRequest) (settled : Settled client state) :
    contract.Safe (serve ttl) client (fun _ final => Settled client final) (evaluate audit request) state := by
  refine settled_bind (statement_safe (by trivial) (by exact not_false) settled) fun _ _ settled => ?_
  refine settled_bind (rulesFor_safe _ _ settled) fun _ _ settled => ?_
  refine settled_bind (rulesFor_safe _ _ settled) fun _ _ settled => ?_
  refine settled_bind (rulesFor_safe _ _ settled) fun _ _ settled => ?_
  refine settled_bind (rulesFor_safe _ _ settled) fun _ _ settled => ?_
  refine settled_bind (rulesFor_safe _ _ settled) fun _ _ settled => ?_
  exact settled_bind (recordIf_safe _ _ _ _ _ settled) fun _ _ settled => settled

theorem Client.safe {program : Program Unit} (runs : Client program) (settled : Settled client state) :
    contract.Safe (serve ttl) client (fun _ _ => True) program state := by
  induction runs generalizing state with
  | done => trivial
  | evaluate audit request next each ih =>
    exact .bind (.attempt ((evaluate_safe audit request settled).weaken fun result final settled => ih result settled))
  | call audit made next each ih =>
    refine .bind ((call_safe audit made settled).weaken fun result final settled => ?_)
    cases result with
    | ok value => exact ih value settled
    | error error => trivial

/-- Tables as they are, an empty cache, and nothing done yet. -/
structure Started (store : Store ι) : Prop where
  cache : ∀ key, store.cache key = none
  ended : store.ended = 0
  invalidated : store.invalidated = 0
  written : ∀ client, store.written client = 0
  since : ∀ client, store.since client = 0
  uses : store.uses = []

omit [DecidableEq ι] in
theorem Started.consistent (started : Started store) : Consistent store := by
  refine ⟨?_, ?_, ?_, ?_, ?_, ?_, ?_⟩
  · intro target entry cached
    rw [Store.cached, started.cache] at cached
    cases cached
  · rw [started.ended]
    exact Nat.zero_le _
  · rw [started.invalidated]
    exact Nat.zero_le _
  · intro client
    rw [started.written]
    exact Nat.zero_le _
  · intro client
    rw [started.since]
    exact Nat.zero_le _
  · rw [started.uses]
    nofun
  · rw [Current, started.uses]
    nofun

/-- No evaluation takes rows older than a call that had ended before it began,
as long as fills and failures are timely. -/
theorem evaluations_current {first world : Interleaved Request Reply Raised (Store ι) ι} (started : Started first.state)
    (clients : ∀ client, Client (first.programs client)) (reached : Interleaved.Reaches (serve ttl) Timely first world) :
    Current world.state := by
  have settled (client : ι) : Settled client first.state := by
    rw [Settled, started.written]
    exact Nat.zero_le _
  have safe := Interleaved.Reaches.safe contract reached Onward.refl
    (fun _ _ _ _ one two => one.trans two) started.consistent fun client => (clients client).safe (settled client)
  exact safe.1.current

section Sample

/-- Fills after the last invalidation and failures before the first write. -/
def Prompt (client : ι) (store : Store ι) : Request → Prop
  | .put _ _ => store.invalidated ≤ store.selected client
  | .raised => store.written client = 0
  | _ => True

instance (store : Store ι) (request : Request) : Decidable (Prompt client store request) := by
  unfold Prompt
  split <;> infer_instance

omit [DecidableEq ι] in
theorem Prompt.timely (prompt : Prompt client store request) :
    Timely client store request := by
  cases request with
  | put target rows =>
    rintro ⟨position, after, before, -⟩
    exact absurd (before.trans prompt) (Nat.not_le_of_lt after)
  | raised =>
    rintro target entry - ⟨position, after, before, -⟩
    have written : store.written client = 0 := prompt
    omega
  | _ => trivial

private def opening : Rule :=
  { id := "open", name := "open-documents", ruleType := .access, effect := .allow, priority := 0
    conditions := [], currentVersion := 1, lifecycle := .active }

private def freezing : Rule :=
  { id := "freeze", name := "freeze-documents", ruleType := .access, effect := .deny, priority := 100
    conditions := [], currentVersion := 1, lifecycle := .active }

private def documents : Target := ⟨.objectType, "document"⟩

private def sampleRequest : AccessRequest :=
  { action := "read", principalId := none, principalKind := none, objectType := some "document", objectId := none
    scopeId := none, environmentId := none }

/-- Documents are open, and a rule that would freeze them is bound to nothing. -/
private def openDocuments : Store Bool where
  past _ :=
    { rules := [opening, freezing], versions := [("open", 1), ("freeze", 1)]
      bindings := [⟨"1", "open", .objectType, "document", .active⟩] }
  writes := 0
  cache _ := none
  clock := 0
  ended := 0
  invalidated := 0
  written _ := 0
  selected _ := 0
  since _ := 0
  uses := []

/-- One client evaluates twice, the other binds the freezing rule. -/
private def evaluateAndBind : Bool → Program Unit
  | false => (evaluate false sampleRequest).attempt.bind fun _ =>
      (evaluate false sampleRequest).attempt.bind fun _ => .pure ()
  | true => (call false (.bindRule "freeze" documents)).bind fun _ => .pure ()

private theorem openDocuments_started : Started openDocuments :=
  ⟨fun _ => rfl, rfl, rfl, fun _ => rfl, fun _ => rfl, rfl⟩

private theorem evaluateAndBind_clients (client : Bool) : Client (evaluateAndBind client) := by
  cases client with
  | false => exact .evaluate _ _ _ fun _ => .evaluate _ _ _ fun _ => .done
  | true => exact .call _ _ _ fun _ => .done

private def turns (clients : List Bool) : List (Bool × Choice) := clients.map (·, ⟨none, 1, "2"⟩)

private structure Seen where
  target : Target
  rules : List String
  since : Nat
  seen : Nat
  deriving DecidableEq

/-- What was used, as identifiers, and what the tables held after the binding. -/
private def observed (world : Interleaved Request Reply Raised (Store Bool) Bool) :
    List Seen × List String :=
  (world.state.uses.map fun use => ⟨use.target, use.rows.map (·.id), use.since, use.seen⟩,
    ((world.state.past 1).rulesForTarget documents).map (·.id))

private theorem late_fill_runs :
    ((Interleaved.run (serve 60) (fun _ _ _ => True) ⟨openDocuments, evaluateAndBind⟩
      (turns [false, false, false, true, true, true, true, false, false, false])).map observed) =
      some ([⟨documents, ["open"], 1, 1⟩, ⟨documents, ["open"], 0, 0⟩], ["open", "freeze"]) := by
  decide +kernel

/-- An evaluation that begins after the binding has returned does not see it. -/
theorem bound_rule_not_enforced :
    ∃ world, Interleaved.Reaches (serve 60) (fun _ _ _ => True) ⟨openDocuments, evaluateAndBind⟩ world ∧
      Started openDocuments ∧ (∀ client, Client (evaluateAndBind client)) ∧ ¬ Current world.state := by
  obtain ⟨world, ran, seen⟩ := Option.map_eq_some_iff.mp late_fill_runs
  obtain ⟨uses, bound⟩ := Prod.mk.inj seen
  refine ⟨world, Interleaved.run_reaches .start ran, openDocuments_started, evaluateAndBind_clients, fun current => ?_⟩
  obtain ⟨use, earlier, split, same, -⟩ := List.map_eq_cons_iff.mp uses
  obtain ⟨target, rows, since, seen⟩ := (by simpa using same :
    use.target = documents ∧ use.rows.map (·.id) = ["open"] ∧ use.since = 1 ∧ use.seen = 1)
  obtain ⟨position, after, before, taken⟩ := current use (by rw [split]; exact List.mem_cons_self)
  obtain rfl : position = 1 := by omega
  rw [taken, target, bound] at rows
  revert rows
  decide

private theorem prompt_fill_runs :
    ((Interleaved.run (serve 60) Prompt ⟨openDocuments, evaluateAndBind⟩
      (turns [false, false, false, false, true, true, true, true, false, false, false, false])).map observed) =
      some ([⟨documents, ["open", "freeze"], 1, 1⟩, ⟨documents, ["open"], 0, 0⟩], ["open", "freeze"]) := by
  decide +kernel

theorem evaluations_current_prompt :
    ∃ world, Interleaved.Reaches (serve 60) Prompt ⟨openDocuments, evaluateAndBind⟩ world ∧ Current world.state ∧
      observed world =
        ([⟨documents, ["open", "freeze"], 1, 1⟩, ⟨documents, ["open"], 0, 0⟩], ["open", "freeze"]) := by
  obtain ⟨world, ran, seen⟩ := Option.map_eq_some_iff.mp prompt_fill_runs
  have reached := Interleaved.run_reaches .start ran
  exact ⟨world, reached, evaluations_current openDocuments_started evaluateAndBind_clients
    (reached.weaken fun _ _ _ prompt => prompt.timely), seen⟩

end Sample

end PyScoped.Legacy.RuleStore
