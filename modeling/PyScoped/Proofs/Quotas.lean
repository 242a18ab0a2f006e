import PyScoped.Legacy.Quotas

/-! Quotas under interleaved creation. A `create` counts before it inserts, so it
can exceed the limit only if others commit in between; a batch counts nothing. -/

namespace PyScoped.Legacy
open Foundation

namespace Quotas

/-- A rule that limits the active objects of a type. -/
structure Governs (objectType : String) (limit : Nat) (rule : Rule) : Prop where
  quota : rule.ruleType = .quota
  isActive : rule.lifecycle = .active
  typeMatches : QuotaChecker.typeMatches rule objectType = true
  config : ∃ config, QuotaConfig.fromRule rule = .ok (some config) ∧ config.maxCount = limit ∧
    config.countTable = "scoped_objects" ∧ config.countColumn = "object_type" ∧ config.countValue = .str objectType

/-- The rows that a returning call stands for. -/
def rowsOf (results : List (ScopedObject × ObjectVersion)) : List Row :=
  results.flatMap fun (object, version) => [.object object, .version version]

variable {ι : Type}

/-- The limit holds, a refused call leaves no rows, and a call that returns
leaves the rows of its result; so a call that does not fit cannot return. -/
structure Respected (objectType : String) (limit : Nat) (store : Store ι) : Prop where
  limit : active objectType store.committed ≤ limit
  refused : ∀ outcome ∈ store.outcomes, ∀ message context,
    outcome.result = .error (.scoped .quotaExceeded message context) → outcome.left = []
  returned : ∀ outcome ∈ store.outcomes, ∀ results, outcome.result = .ok results → outcome.left = rowsOf results

/-- Objects of the type are committed only if no others were since the call's
transaction first counted, or if they fit beside those. -/
def Roomy (objectType : String) (limit : Nat) (client : ι) (store : Store ι) : Request → Prop
  | .commit =>
    active objectType ((store.pending client).getD []) = 0 ∨
      (∃ seen, store.counted client = some seen ∧ active objectType seen = active objectType store.committed) ∨
      active objectType (store.view client) ≤ limit
  | _ => True

@[simp] theorem active_append (objectType : String) (first second : List Row) :
    active objectType (first ++ second) = active objectType first + active objectType second := by
  simp [active]

/-- What only the client's own statements change. -/
structure Mine where
  pending : Option (List Row)
  counted : Option (List Row)
  saved : List Row

def Store.mine (store : Store ι) (client : ι) : Mine := ⟨store.pending client, store.counted client, store.saved client⟩

/-- Every client keeps the limit, and its count is not ahead of the table. -/
structure Kept (objectType : String) (limit : Nat) (store : Store ι) : Prop where
  respected : Respected objectType limit store
  counted : ∀ client seen, store.counted client = some seen → active objectType seen ≤ active objectType store.committed

def limiting (objectType : String) (limit : Nat) : Contract Request (Store ι) ι where
  kept := Kept objectType limit
  rely client before after := after.mine client = before.mine client
  allowed := Roomy objectType limit

/-- A transaction that has counted has at most one object of the type, and that
only if its count was below the limit. -/
def Backed (objectType : String) (limit : Nat) (mine : Mine) : Prop :=
  ∀ seen, mine.counted = some seen → active objectType (mine.pending.getD []) = 0 ∨
    active objectType (mine.pending.getD []) ≤ 1 ∧ active objectType seen < limit

/-- What a client must know of its own before a statement. -/
def Prepared (objectType : String) (limit : Nat) (mine : Mine) : Request → Prop
  | .commit => Backed objectType limit mine
  | .finished result =>
    (∀ message context, result = .error (.scoped .quotaExceeded message context) → mine.saved = []) ∧
      ∀ results, result = .ok results → mine.saved = rowsOf results
  | _ => True

variable {objectType : String} {limit : Nat}
variable {store : Store ι}

theorem Kept.fits {client : ι} (kept : Kept objectType limit store)
    (backed : Backed objectType limit (store.mine client)) (roomy : Roomy objectType limit client store .commit) :
    active objectType (store.view client) ≤ limit := by
  have room := kept.respected.limit
  simp only [Store.view, active_append]
  obtain none | ⟨seen, counted, same⟩ | fits := roomy
  · omega
  · obtain none | ⟨one, below⟩ := backed seen counted
    · change active objectType ((store.pending client).getD []) = 0 at none
      omega
    · change active objectType ((store.pending client).getD []) ≤ 1 at one
      omega
  · simpa only [Store.view, active_append] using fits

theorem Kept.still {after : Store ι} (kept : Kept objectType limit store)
    (committed : after.committed = store.committed) (outcomes : after.outcomes = store.outcomes)
    (counted : ∀ client seen, after.counted client = some seen → store.counted client = some seen ∨ seen = store.committed) :
    Kept objectType limit after := by
  refine ⟨⟨?_, ?_, ?_⟩, ?_⟩
  · rw [committed]
    exact kept.respected.limit
  · rw [outcomes]
    exact kept.respected.refused
  · rw [outcomes]
    exact kept.respected.returned
  · intro client seen found
    rw [committed]
    obtain earlier | rfl := counted client seen found
    · exact kept.counted client seen earlier
    · exact le_refl _

variable [DecidableEq ι]

private theorem update_some {counted : ι → Option (List Row)} {client other : ι} {value : Option (List Row)}
    {seen : List Row} (found : Function.update counted client value other = some seen) :
    counted other = some seen ∨ value = some seen := by
  by_cases same : other = client
  · subst other
    rw [Function.update_self] at found
    exact .inr found
  · rw [Function.update_of_ne same] at found
    exact .inl found

variable {request : Request}

theorem Kept.answer (kept : Kept objectType limit store) (choice : Choice) (client : ι)
    (prepared : Prepared objectType limit (store.mine client) request)
    (roomy : Roomy objectType limit client store request) :
    Kept objectType limit (answer choice client store request).2 ∧
      ∀ other, other ≠ client → (answer choice client store request).2.mine other = store.mine other := by
  cases request with
  | evaluate action principalId objectType => exact ⟨kept, fun _ _ => rfl⟩
  | checkRate action principalId scopeId => exact ⟨kept, fun _ _ => rfl⟩
  | now => exact ⟨kept, fun _ _ => rfl⟩
  | generate => exact ⟨kept, fun _ _ => rfl⟩
  | record actorId action targets => exact ⟨kept, fun _ _ => rfl⟩
  | enter =>
    refine ⟨kept.still rfl rfl fun other seen found => ?_, fun other different => ?_⟩
    · obtain earlier | new := update_some found
      · exact .inl earlier
      · cases new
    · simp only [Store.mine, Quotas.answer, Function.update_of_ne different]
  | count query =>
    have counts : ∀ other seen, Function.update store.counted client ((store.counted client).or (some store.committed))
        other = some seen → store.counted other = some seen ∨ seen = store.committed := by
      intro other seen found
      by_cases same : other = client
      · subst other
        rw [Function.update_self] at found
        cases before : store.counted client with
        | none =>
          rw [before] at found
          exact .inr (Option.some.inj found).symm
        | some earlier =>
          rw [before] at found
          exact .inl found
      · rw [Function.update_of_ne same] at found
        exact .inl found
    have others : ∀ other, other ≠ client → Function.update store.counted client
        ((store.counted client).or (some store.committed)) other = store.counted other :=
      fun other different => Function.update_of_ne different _ _
    dsimp only [Quotas.answer]
    split
    · exact ⟨kept.still rfl rfl counts, fun other different => by simp only [Store.mine, others other different]⟩
    · split
      · exact ⟨kept.still rfl rfl counts, fun other different => by simp only [Store.mine, others other different]⟩
      · exact ⟨kept.still rfl rfl counts, fun other different => by simp only [Store.mine, others other different]⟩
  | insert row =>
    dsimp only [Quotas.answer]
    split
    · exact ⟨kept, fun _ _ => rfl⟩
    · exact ⟨kept.still rfl rfl fun _ _ found => .inl found, fun other different => by
        simp only [Store.mine, Function.update_of_ne different]⟩
  | commit =>
    refine ⟨⟨⟨kept.fits prepared roomy, kept.respected.refused, kept.respected.returned⟩, ?_⟩, ?_⟩
    · intro other seen found
      have before := kept.counted other seen found
      simp only [Quotas.answer, Store.view, active_append]
      omega
    · intro other different
      simp only [Store.mine, Quotas.answer, Function.update_of_ne different]
  | rollback =>
    refine ⟨kept.still rfl rfl fun _ _ found => .inl found, fun other different => ?_⟩
    simp only [Store.mine, Quotas.answer, Function.update_of_ne different]
  | began =>
    refine ⟨kept.still rfl rfl fun _ _ found => .inl found, fun other different => ?_⟩
    simp only [Store.mine, Quotas.answer, Function.update_of_ne different]
  | finished result =>
    obtain ⟨refused, returned⟩ := prepared
    refine ⟨⟨⟨kept.respected.limit, ?_, ?_⟩, kept.counted⟩, fun _ _ => rfl⟩
    · intro outcome member
      obtain rfl | member := List.mem_cons.mp member
      · exact refused
      · exact kept.respected.refused outcome member
    · intro outcome member
      obtain rfl | member := List.mem_cons.mp member
      · exact returned
      · exact kept.respected.returned outcome member

theorem serve_cases {choice : Choice} {client : ι} {after : Store ι}
    {reply : Except Raised (Reply request)} (answered : serve client choice store request = some (reply, after)) :
    (∃ message, reply = .error (.other message) ∧ (after = store ∨ request = .rollback)) ∨
      (reply, after) = answer choice client store request := by
  unfold serve at answered
  split at answered
  · split at answered
    · cases answered
      exact .inl ⟨_, rfl, .inr rfl⟩
    · cases answered
      exact .inl ⟨_, rfl, .inl rfl⟩
  · exact .inr (Option.some.inj answered).symm

theorem Kept.step {after : Store ι} (kept : Kept objectType limit store) {choice : Choice} {client : ι}
    {reply : Except Raised (Reply request)}
    (prepared : Prepared objectType limit (store.mine client) request)
    (roomy : Roomy objectType limit client store request)
    (answered : serve client choice store request = some (reply, after)) :
    Kept objectType limit after ∧ ∀ other, other ≠ client → after.mine other = store.mine other := by
  unfold serve at answered
  split at answered
  · split at answered
    · cases answered
      exact kept.answer choice client (show Prepared objectType limit (store.mine client) .rollback from trivial) trivial
    · cases answered
      exact ⟨kept, fun _ _ => rfl⟩
  · have same := Option.some.inj answered
    have advanced := kept.answer choice client prepared roomy
    rwa [same] at advanced

variable {client : ι} {α β : Type}

/-- The program meets its postcondition, or fails with nothing saved. -/
def Runs (objectType : String) (limit : Nat) (client : ι) (program : Program α) (state : Store ι)
    (post : α → Store ι → Prop) : Prop :=
  (limiting objectType limit).Safe serve client (fun result final => match result with
    | .ok value => post value final
    | .error _ => (final.mine client).saved = []) program state

variable {state : Store ι}

theorem Runs.bind {program : Program α} {next : α → Program β} {middle : α → Store ι → Prop}
    {post : β → Store ι → Prop} (first : Runs objectType limit client program state middle)
    (rest : ∀ value final, middle value final → Runs objectType limit client (next value) final post) :
    Runs objectType limit client (program.bind next) state post := by
  refine Contract.Safe.bind (Contract.Safe.weaken first fun result final reached => ?_)
  cases result with
  | ok value => exact rest value final reached
  | error error => exact reached

theorem Runs.weaken {program : Program α} {post post' : α → Store ι → Prop}
    (runs : Runs objectType limit client program state post) (implies : ∀ value final, post value final → post' value final) :
    Runs objectType limit client program state post' := by
  refine Contract.Safe.weaken runs fun result final reached => ?_
  cases result with
  | ok value => exact implies value final reached
  | error error => exact reached

theorem Runs.perform {post : Reply request → Store ι → Prop}
    (prepared : Prepared objectType limit (state.mine client) request) (unsaved : (state.mine client).saved = [])
    (rollback : request ≠ .rollback)
    (effect : ∀ (choice : Choice) now, Kept objectType limit now → now.mine client = state.mine client →
      match answer choice client now request with
      | (.ok value, after) => post value after
      | (.error _, after) => (after.mine client).saved = []) :
    Runs objectType limit client (Prog.perform request) state post := by
  refine Contract.Safe.perform fun now kept moved roomy choice reply after answered => ?_
  have prepared : Prepared objectType limit (now.mine client) request := by
    rw [show now.mine client = state.mine client from moved]
    exact prepared
  obtain ⟨kept', others⟩ := kept.step prepared roomy answered
  refine ⟨kept', others, ?_⟩
  obtain ⟨message, rfl, unchanged | wrong⟩ | same := serve_cases answered
  · change (after.mine client).saved = []
    rw [unchanged, show now.mine client = state.mine client from moved]
    exact unsaved
  · exact absurd wrong rollback
  · have reached := effect choice now kept moved
    rw [← same] at reached
    cases reply <;> exact reached

/-- Statements that leave the client's own as it is. -/
def Quiet : Request → Prop
  | .evaluate _ _ _ => True
  | .checkRate _ _ _ => True
  | .now => True
  | .generate => True
  | .record _ _ _ => True
  | _ => False

theorem quiet_runs (quiet : Quiet request) {mine : Mine}
    (same : state.mine client = mine) (unsaved : mine.saved = []) :
    Runs objectType limit client (Prog.perform request) state fun _ final => final.mine client = mine := by
  subst mine
  cases request with
  | evaluate | checkRate | now | generate | record =>
    exact .perform trivial unsaved nofun fun choice now _ same => same
  | enter | count | insert | commit | rollback | began | finished => exact quiet.elim

theorem enter_runs (unsaved : (state.mine client).saved = []) :
    Runs objectType limit client (Prog.perform Request.enter) state fun _ final => final.mine client = ⟨some [], none, []⟩ := by
  refine .perform trivial unsaved nofun fun choice now _ same => ?_
  have saved : now.saved client = [] := by
    have := congrArg Mine.saved same
    rwa [unsaved] at this
  simp only [answer, Store.mine, Function.update_self, saved]

variable {counted : Option (List Row)}

theorem insert_runs {rows : List Row} (row : Row) (open' : state.mine client = ⟨some rows, counted, []⟩) :
    Runs objectType limit client (Prog.perform (.insert row)) state fun _ final =>
      final.mine client = ⟨some (rows ++ [row]), counted, []⟩ := by
  refine .perform trivial (by rw [open']) nofun fun choice now _ same => ?_
  rw [open'] at same
  obtain ⟨pending, counted, saved⟩ := Mine.mk.inj same
  by_cases taken : (now.view client).any fun other => other.key == row.key
  · simp only [answer, taken, if_true]
    exact saved
  · simp only [answer, taken, Bool.false_eq_true, if_false]
    simp only [Store.mine, Function.update_self, pending, counted, saved, Option.map_some]

/-- The query of a rule that governs the type, for calls without a scope. -/
def typeQuery (objectType : String) : CountQuery :=
  ⟨"scoped_objects", [("object_type", .str objectType), ("lifecycle", .str "ACTIVE")]⟩

omit [DecidableEq ι] in
theorem name_active (lifecycle : Lifecycle) : lifecycle.name = "ACTIVE" ↔ lifecycle = .active := by
  cases lifecycle <;> simp [Lifecycle.name]

theorem typeQuery_count (objectType : String) (rows : List Row) :
    (rows.filterMap Row.object?).countP (typeQuery objectType).selects = active objectType rows := by
  refine List.countP_congr fun object _ => ?_
  simp [typeQuery, CountQuery.selects, ScopedObject.column, sqlEquals, name_active]

theorem Governs.query {rule : Rule} (governs : Governs objectType limit rule) :
    ∃ config, QuotaConfig.fromRule rule = .ok (some config) ∧ config.maxCount = limit ∧
      buildCountQuery config none = some (typeQuery objectType) := by
  obtain ⟨config, read, maxCount, table, column, value⟩ := governs.config
  refine ⟨config, read, maxCount, ?_⟩
  simp [buildCountQuery, table, column, value, allowedTables, allowedColumns, typeQuery]

/-- Counting remembers what was committed when the transaction first counted. -/
theorem count_runs (query : CountQuery) (open' : state.mine client = ⟨some [], counted, []⟩) :
    Runs objectType limit client (Prog.perform (.count query)) state fun (count : Nat) final => ∃ seen,
      final.mine client = ⟨some [], some seen, []⟩ ∧ (∀ earlier, counted = some earlier → seen = earlier) ∧
        (query = typeQuery objectType → active objectType seen ≤ count) := by
  refine .perform trivial (by rw [open']) nofun fun choice now kept same => ?_
  rw [open'] at same
  obtain ⟨pending, held, saved⟩ := Mine.mk.inj same
  have marked : ∃ seen, (counted.or (some now.committed)) = some seen ∧ (∀ earlier, counted = some earlier → seen = earlier) ∧
      active objectType seen ≤ active objectType now.committed := by
    cases counted with
    | none => exact ⟨now.committed, rfl, nofun, le_refl _⟩
    | some earlier => exact ⟨earlier, rfl, fun _ same => Option.some.inj same, kept.counted client earlier held⟩
  obtain ⟨seen, first, earliest, behind⟩ := marked
  have mine : ∀ store : Store ι, store.pending = now.pending → store.saved = now.saved →
      store.counted = Function.update now.counted client ((now.counted client).or (some now.committed)) →
      store.mine client = ⟨some [], some seen, []⟩ := by
    intro store samePending sameSaved sameCounted
    simp only [Store.mine, samePending, sameSaved, sameCounted, Function.update_self, pending, held, saved, first]
  dsimp only [answer]
  by_cases table : query.table ≠ "scoped_objects"
  · rw [if_pos table]
    refine ⟨seen, mine _ rfl rfl rfl, earliest, ?_⟩
    rintro rfl
    exact absurd rfl table
  · rw [if_neg table]
    by_cases unknown : (!query.known) = true
    · rw [if_pos unknown]
      exact congrArg Mine.saved (mine { now with
        counted := Function.update now.counted client ((now.counted client).or (some now.committed)) } rfl rfl rfl)
    · rw [if_neg unknown]
      refine ⟨seen, mine _ rfl rfl rfl, earliest, ?_⟩
      rintro rfl
      rw [typeQuery_count]
      simpa only [Store.view, pending, Option.getD_some, List.append_nil] using behind

/-- What a check leaves: a count that is kept, below the limit if no violation
is found among rules that limit the type. -/
structure Checked (objectType : String) (limit : Nat) (wanted : String) (rules : List Rule)
    (before after : Option (List Row)) (result : Option QuotaResult) : Prop where
  kept : ∀ seen, before = some seen → after = some seen
  refused : ∀ violation ∈ result, violation.allowed = false
  below : result = none → wanted = objectType → (∃ rule ∈ rules, Governs objectType limit rule) →
    ∃ seen, after = some seen ∧ active objectType seen < limit

theorem Checked.skip {wanted : String} {rule : Rule} {rules : List Rule} {first before after : Option (List Row)}
    {result : Option QuotaResult} (checked : Checked objectType limit wanted rules before after result)
    (passed : wanted = objectType → ¬ Governs objectType limit rule)
    (earlier : ∀ seen, first = some seen → before = some seen) :
    Checked objectType limit wanted (rule :: rules) first after result := by
  refine ⟨fun seen same => checked.kept seen (earlier seen same), checked.refused, fun none same => ?_⟩
  rintro ⟨other, member, governs⟩
  obtain rfl | member := List.mem_cons.mp member
  · exact absurd governs (passed same)
  · exact checked.below none same ⟨other, member, governs⟩

theorem countResources_runs (rule : Rule) {config : QuotaConfig} (read : QuotaConfig.fromRule rule = .ok (some config))
    (open' : state.mine client = ⟨some [], counted, []⟩) :
    Runs objectType limit client (QuotaChecker.countResourcesInTxn config none) state
      fun count final => ∃ held, final.mine client = ⟨some [], held, []⟩ ∧
        (∀ seen, counted = some seen → held = some seen) ∧
          (Governs objectType limit rule → config.maxCount = limit ∧ ∃ seen, held = some seen ∧ active objectType seen ≤ count) := by
  have governed (governs : Governs objectType limit rule) :
      config.maxCount = limit ∧ buildCountQuery config none = some (typeQuery objectType) := by
    obtain ⟨_, read', maxCount, query⟩ := governs.query
    rw [read] at read'
    cases read'
    exact ⟨maxCount, query⟩
  unfold QuotaChecker.countResourcesInTxn
  cases built : buildCountQuery config none with
  | none =>
    refine ⟨counted, open', fun _ same => same, fun governs => ?_⟩
    have query := (governed governs).2
    rw [built] at query
    cases query
  | some query =>
    refine (count_runs query open').weaken ?_
    rintro count final ⟨seen, mine, first, behind⟩
    refine ⟨some seen, mine, fun earlier same => congrArg some (first earlier same), fun governs => ?_⟩
    obtain ⟨maxCount, query'⟩ := governed governs
    rw [built] at query'
    exact ⟨maxCount, seen, rfl, behind (Option.some.inj query')⟩

/-- A check that finds no violation has counted below the limit. -/
theorem checkInTxn_runs (wanted : String) (rules : List Rule) (open' : state.mine client = ⟨some [], counted, []⟩) :
    Runs objectType limit client (QuotaChecker.checkInTxn wanted none rules) state fun result final => ∃ counted',
      final.mine client = ⟨some [], counted', []⟩ ∧ Checked objectType limit wanted rules counted counted' result := by
  induction rules generalizing state counted with
  | nil => exact ⟨counted, open', fun _ same => same, nofun, by rintro - - ⟨rule, member, -⟩; cases member⟩
  | cons rule rules ih =>
    have skipped (passed : wanted = objectType → ¬ Governs objectType limit rule) {state : Store ι}
        {held : Option (List Row)} (open' : state.mine client = ⟨some [], held, []⟩)
        (earlier : ∀ seen, counted = some seen → held = some seen) :
        Runs objectType limit client (QuotaChecker.checkInTxn wanted none rules) state fun result final => ∃ counted',
          final.mine client = ⟨some [], counted', []⟩ ∧
            Checked objectType limit wanted (rule :: rules) counted counted' result := by
      refine (ih open').weaken ?_
      rintro result final ⟨counted', mine, checked⟩
      exact ⟨counted', mine, checked.skip passed earlier⟩
    unfold QuotaChecker.checkInTxn
    split
    next mismatch =>
      refine skipped ?_ open' fun _ same => same
      rintro rfl governs
      rw [governs.typeMatches] at mismatch
      cases mismatch
    next =>
      cases read : QuotaConfig.fromRule rule with
      | error error => exact congrArg Mine.saved open'
      | ok config =>
        cases config with
        | none =>
          refine skipped ?_ open' fun _ same => same
          rintro - governs
          obtain ⟨config, some', -⟩ := governs.config
          rw [read] at some'
          cases some'
        | some config =>
          change Runs objectType limit client ((QuotaChecker.countResourcesInTxn config none).bind _) state _
          refine (countResources_runs rule read open').bind fun count final => ?_
          rintro ⟨held, mine, earlier, counts⟩
          split
          next => exact ⟨held, mine, earlier, by rintro _ ⟨⟩; rfl, nofun⟩
          next below =>
            by_cases governs : wanted = objectType ∧ Governs objectType limit rule
            · obtain ⟨maxCount, seen, rfl, behind⟩ := counts governs.2
              refine (ih mine).weaken ?_
              rintro result last ⟨counted', mine', checked⟩
              refine ⟨counted', mine', fun first same => checked.kept first (earlier first same), checked.refused,
                fun _ _ _ => ?_⟩
              exact ⟨seen, checked.kept seen rfl, by omega⟩
            · exact skipped (fun same governs' => governs ⟨same, governs'⟩) mine earlier

theorem commit_runs {rows : List Row}
    (open' : state.mine client = ⟨some rows, counted, []⟩) (backed : Backed objectType limit ⟨some rows, counted, []⟩) :
    Runs objectType limit client (Prog.perform .commit) state fun _ final => (final.mine client).saved = rows := by
  refine .perform (by rw [open']; exact backed) (by rw [open']) nofun fun choice now _ same => ?_
  rw [open'] at same
  obtain ⟨pending, -, saved⟩ := Mine.mk.inj same
  simp only [answer, Store.mine, Function.update_self, pending, saved, Option.getD_some, List.nil_append]

theorem rollback_safe (unsaved : (state.mine client).saved = []) :
    (limiting objectType limit).Safe serve client (fun _ final => (final.mine client).saved = [])
      (Prog.perform Request.rollback) state := by
  refine Contract.Safe.perform fun now kept moved roomy choice reply after answered => ?_
  obtain ⟨kept', others⟩ :=
    kept.step (show Prepared objectType limit (now.mine client) .rollback from trivial) trivial answered
  refine ⟨kept', others, ?_⟩
  have here : now.saved client = [] := by
    rwa [← show now.mine client = state.mine client from moved] at unsaved
  obtain ⟨failure, verdict, rate, count, clock, generated⟩ := choice
  cases failure <;> cases answered <;> exact here

end Quotas

namespace ScopedManager
open Quotas

variable {objectType : String} {limit : Nat} {ι : Type} [DecidableEq ι] {client : ι} {α : Type}
variable {state : Store ι}

theorem transaction_runs {body : Program α} {post : α → Store ι → Prop} (unsaved : (state.mine client).saved = [])
    (runs : ∀ opened : Store ι, opened.mine client = ⟨some [], none, []⟩ → Runs objectType limit client body opened post) :
    Runs objectType limit client (transaction body) state post := by
  refine (enter_runs unsaved).bind fun _ opened entered => ?_
  refine Contract.Safe.tryCatch (Contract.Safe.weaken (runs opened entered) fun result final reached => ?_)
  cases result with
  | ok value => exact reached
  | error error =>
    refine Contract.Safe.bind ((rollback_safe reached).weaken fun result last unsaved => ?_)
    cases result <;> exact unsaved

private theorem checkRules_runs (manager : ScopedManager) (action principalId wanted : String)
    {mine : Mine} (same : state.mine client = mine) (unsaved : mine.saved = []) :
    Runs objectType limit client (manager.checkRules action principalId wanted) state
      fun _ final => final.mine client = mine := by
  unfold checkRules
  split
  · refine Runs.bind (quiet_runs (by trivial) same unsaved) fun verdict final kept => ?_
    split
    · exact (congrArg Mine.saved kept).trans unsaved
    · exact kept
  · exact same

private theorem checkRate_runs (manager : ScopedManager) (principalId : String) (scopeId : Option String)
    {mine : Mine} (same : state.mine client = mine) (unsaved : mine.saved = []) :
    Runs objectType limit client (manager.checkRate principalId scopeId) state
      fun _ final => final.mine client = mine := by
  unfold checkRate
  split
  · refine Runs.bind (quiet_runs (by trivial) same unsaved) fun refused final kept => ?_
    cases refused with
    | some refused => exact (congrArg Mine.saved kept).trans unsaved
    | none => exact kept
  · exact same

variable {given : List Rule} {manager : ScopedManager}

theorem checkQuota_runs (checker : manager.quotaChecker = some given)
    (governed : ∃ rule ∈ given, Governs objectType limit rule) (wanted : String) {opened : Store ι}
    (entered : opened.mine client = ⟨some [], none, []⟩) :
    Runs objectType limit client (manager.checkQuota wanted none) opened fun _ final => ∃ counted,
      final.mine client = ⟨some [], counted, []⟩ ∧
        (wanted = objectType → ∃ seen, counted = some seen ∧ active objectType seen < limit) := by
  have kept : ∃ rule ∈ QuotaChecker.rules given, Governs objectType limit rule := by
    obtain ⟨rule, member, governs⟩ := governed
    refine ⟨rule, List.mem_filter.mpr ⟨member, ?_⟩, governs⟩
    simp [governs.quota, Rule.isActive, governs.isActive]
  unfold checkQuota
  rw [checker]
  refine (checkInTxn_runs wanted (QuotaChecker.rules given) entered).bind ?_
  rintro result final ⟨counted, mine, checked⟩
  cases result with
  | none => exact ⟨counted, mine, fun same => checked.below rfl same kept⟩
  | some violation =>
    have refused : (!violation.allowed) = true := by rw [checked.refused violation rfl]; rfl
    change Runs objectType limit client (if (!violation.allowed) = true then _ else _) final _
    rw [if_pos refused]
    refine Contract.Safe.bind ((rollback_safe (congrArg Mine.saved mine)).weaken fun result last unsaved => ?_)
    cases result <;> exact unsaved

/-- How a call ends: with the rows of its result, without any, or with the rows
it committed before its audit record failed. -/
def Ends (objectType : String) (limit : Nat) (client : ι) (rows : α → List Quotas.Row) (program : Program α) (state : Store ι) :
    Prop :=
  (limiting objectType limit).Safe serve client (fun result final => match result with
    | .ok value => (final.mine client).saved = rows value
    | .error error => (final.mine client).saved = [] ∨ ∃ message, error = .other message) program state

theorem ends_bind {β : Type} {program : Program β} {next : β → Program α} {rows : α → List Quotas.Row}
    {middle : β → Store ι → Prop} (first : Runs objectType limit client program state middle)
    (rest : ∀ value final, middle value final → Ends objectType limit client rows (next value) final) :
    Ends objectType limit client rows (program.bind next) state := by
  refine Contract.Safe.bind (Contract.Safe.weaken first fun result final reached => ?_)
  cases result with
  | ok value => exact rest value final reached
  | error error => exact .inl reached

private theorem recordIf_ends (manager : ScopedManager) (actorId : String) (targets : List (String × String)) (value : α)
    {rows : α → List Quotas.Row} (saved : (state.mine client).saved = rows value) :
    Ends objectType limit client rows ((manager.recordIf actorId targets).bind fun _ => .pure value) state := by
  unfold recordIf
  cases manager.audit with
  | false => exact saved
  | true =>
    refine Contract.Safe.bind (Contract.Safe.perform fun now kept moved roomy choice reply after answered => ?_)
    obtain ⟨kept', others⟩ := kept.step (show Prepared objectType limit (now.mine client)
      (.record actorId .create targets) from trivial) roomy answered
    refine ⟨kept', others, ?_⟩
    obtain ⟨message, rfl, -⟩ | same := serve_cases answered
    · exact .inr ⟨message, rfl⟩
    · cases same
      rwa [← show now.mine client = state.mine client from moved] at saved

theorem create_ends (checker : manager.quotaChecker = some given)
    (governed : ∃ rule ∈ given, Governs objectType limit rule) (wanted ownerId : String) (data : Json)
    (registryEntryId : Option String) (changeReason : String) (unsaved : (state.mine client).saved = []) :
    Ends objectType limit client (fun pair => rowsOf [pair])
      (manager.create wanted ownerId data registryEntryId changeReason none) state := by
  refine ends_bind (checkRules_runs manager _ _ _ rfl unsaved) fun _ state same => ?_
  rw [← same] at unsaved
  refine ends_bind (checkRate_runs manager _ _ rfl unsaved) fun _ state same => ?_
  rw [← same] at unsaved
  refine ends_bind (quiet_runs (by trivial) rfl unsaved) fun _ state same => ?_
  rw [← same] at unsaved
  refine ends_bind (quiet_runs (by trivial) rfl unsaved) fun _ state same => ?_
  rw [← same] at unsaved
  refine ends_bind (quiet_runs (by trivial) rfl unsaved) fun _ state same => ?_
  rw [← same] at unsaved
  refine ends_bind (transaction_runs unsaved fun opened entered => ?_) fun _ state saved =>
    recordIf_ends manager _ _ _ saved
  refine (checkQuota_runs checker governed wanted entered).bind ?_
  rintro _ checked ⟨counted, mine, below⟩
  refine (insert_runs _ mine).bind fun _ inserted mine => ?_
  refine (insert_runs _ mine).bind fun _ versioned mine => ?_
  refine commit_runs mine fun seen same => ?_
  simp only [Option.getD_some]
  by_cases ofType : wanted = objectType
  · obtain ⟨seen', same', below⟩ := below ofType
    obtain rfl : seen = seen' := Option.some.inj (same.symm.trans same')
    exact .inr ⟨by simp [active, rowsOf, Quotas.Row.object?, ofType], below⟩
  · exact .inl (by simp [active, rowsOf, Quotas.Row.object?, ofType])

theorem insertEach_runs (ownerId : String) (ts : DateTime) (items : List Item) {rows : List Quotas.Row}
    (open' : state.mine client = ⟨some rows, none, []⟩) :
    Runs objectType limit client (insertEach ownerId ts items) state fun results final =>
      final.mine client = ⟨some (rows ++ rowsOf results), none, []⟩ := by
  induction items generalizing state rows with
  | nil => exact open'.trans (by simp [rowsOf])
  | cons item items ih =>
    refine Runs.bind (quiet_runs (by trivial) open' rfl) fun _ state mine => ?_
    refine Runs.bind (quiet_runs (by trivial) mine rfl) fun _ state mine => ?_
    refine Runs.bind (insert_runs _ mine) fun _ state mine => ?_
    refine Runs.bind (insert_runs _ mine) fun _ state mine => ?_
    refine (ih mine).bind fun results final mine => ?_
    exact mine.trans (by simp [rowsOf])

theorem createMany_ends (manager : ScopedManager) (items : List Item) (ownerId : String)
    (unsaved : (state.mine client).saved = []) :
    Ends objectType limit client rowsOf (manager.createMany items ownerId) state := by
  refine ends_bind (quiet_runs (by trivial) rfl unsaved) fun _ state same => ?_
  rw [← same] at unsaved
  refine ends_bind (transaction_runs unsaved fun opened entered => ?_) fun results state saved =>
    recordIf_ends manager _ _ results saved
  refine (insertEach_runs ownerId _ items entered).bind fun results inserted mine => ?_
  exact (commit_runs mine nofun).bind fun _ final saved => saved

theorem invoke_ends (checker : manager.quotaChecker = some given)
    (governed : ∃ rule ∈ given, Governs objectType limit rule) (made : Call)
    (unsaved : (state.mine client).saved = []) : Ends objectType limit client rowsOf (manager.invoke made) state := by
  cases made with
  | create wanted ownerId data registryEntryId changeReason =>
    refine Contract.Safe.bind (Contract.Safe.weaken
      (create_ends checker governed wanted ownerId data registryEntryId changeReason unsaved)
      fun result final reached => ?_)
    cases result <;> exact reached
  | createMany items ownerId => exact createMany_ends manager items ownerId unsaved

/-- A call starts with nothing saved and ends with an outcome that fits. -/
theorem call_safe (checker : manager.quotaChecker = some given)
    (governed : ∃ rule ∈ given, Governs objectType limit rule) (made : Call) (state : Store ι) :
    (limiting objectType limit).Safe serve client (fun _ _ => True) (manager.call made) state := by
  refine Contract.Safe.bind (Contract.Safe.perform fun now kept moved roomy choice reply after answered => ?_)
  obtain ⟨kept', others⟩ :=
    kept.step (show Prepared objectType limit (now.mine client) .began from trivial) trivial answered
  refine ⟨kept', others, ?_⟩
  have began : reply = .ok () ∧ (after.mine client).saved = [] := by
    obtain ⟨failure, verdict, rate, count, clock, generated⟩ := choice
    cases failure <;> cases answered <;> exact ⟨rfl, Function.update_self ..⟩
  obtain ⟨rfl, unsaved⟩ := began
  refine Contract.Safe.bind (Contract.Safe.attempt (Contract.Safe.weaken (invoke_ends checker governed made unsaved)
    fun result final ended => ?_))
  refine Contract.Safe.bind (Contract.Safe.perform fun now kept moved roomy choice reply after answered => ?_)
  have prepared : Prepared objectType limit (now.mine client) (.finished result) := by
    rw [show now.mine client = final.mine client from moved]
    cases result with
    | ok results => exact ⟨nofun, by rintro _ ⟨⟩; exact ended⟩
    | error error =>
      refine ⟨?_, nofun⟩
      rintro message context ⟨⟩
      obtain unsaved | ⟨_, other⟩ := ended
      · exact unsaved
      · cases other
  obtain ⟨kept', others⟩ := kept.step prepared trivial answered
  refine ⟨kept', others, ?_⟩
  cases reply <;> trivial

theorem Client.safe (checker : manager.quotaChecker = some given)
    (governed : ∃ rule ∈ given, Governs objectType limit rule) {program : Program Unit} (runs : manager.Client program)
    (state : Store ι) : (limiting objectType limit).Safe serve client (fun _ _ => True) program state := by
  induction runs generalizing state with
  | done => trivial
  | call made next each ih =>
    refine Contract.Safe.bind ((call_safe checker governed made state).weaken fun result final _ => ?_)
    cases result with
    | ok value => exact ih value final
    | error error => trivial

/-- In every interleaving whose commits are roomy the quota is respected. -/
theorem quota_respected {manager : ScopedManager} {given : List Rule} (checker : manager.quotaChecker = some given)
    (governed : ∃ rule ∈ given, Governs objectType limit rule)
    {first world : Interleaved Request Reply Raised (Store ι) ι}
    (within : active objectType first.state.committed ≤ limit) (fresh : first.state.outcomes = [])
    (idle : ∀ client, first.state.counted client = none) (clients : ∀ client, manager.Client (first.programs client))
    (reached : Interleaved.Reaches serve (Roomy objectType limit) first world) :
    Respected objectType limit world.state := by
  have start : Kept objectType limit first.state := by
    refine ⟨⟨within, ?_, ?_⟩, fun client seen counted => ?_⟩
    · rw [fresh]
      nofun
    · rw [fresh]
      nofun
    · rw [idle] at counted
      cases counted
  have kept := Interleaved.Reaches.safe (limiting objectType limit) reached (fun _ _ => rfl)
    (fun _ _ _ _ one two => Eq.trans two one) start fun client => (clients client).safe checker governed first.state
  exact kept.1.respected

section Sample

/-- One document at most. -/
def oneDocument : Rule :=
  { id := "quota", name := "one-document", ruleType := .quota, effect := .allow, priority := 0
    conditions := [("object_type", .str "Document"), ("quota", .obj [("max_count", .int 1)])], currentVersion := 1
    lifecycle := .active }

def limited : ScopedManager where
  audit := false
  ruleEngine := false
  rateLimitChecker := false
  quotaChecker := some [oneDocument]

theorem oneDocument_governs : ∃ rule ∈ [oneDocument], Governs "Document" 1 rule :=
  ⟨oneDocument, List.mem_singleton_self _, rfl, rfl, rfl, _, rfl, rfl, rfl, rfl, rfl⟩

/-- Nothing is stored and nobody has begun. -/
def vacant : Store Bool where
  committed := []
  pending _ := none
  counted _ := none
  saved _ := []
  outcomes := []

/-- Two clients create a document each. -/
def twoCreates (_ : Bool) : Program Unit :=
  (limited.call (.create "Document" "ann" (.obj []) none "created")).bind fun _ => .pure ()

/-- One client creates two documents in a batch. -/
def oneBatch : Bool → Program Unit
  | false => (limited.call (.createMany [⟨"Document", .obj [], none⟩, ⟨"Document", .obj [], none⟩] "ann")).bind
      fun _ => .pure ()
  | true => .pure ()

theorem twoCreates_clients (client : Bool) : limited.Client (twoCreates client) := .call _ _ fun _ => .done

theorem oneBatch_clients (client : Bool) : limited.Client (oneBatch client) := by
  cases client with
  | false => exact .call _ _ fun _ => .done
  | true => exact .done

private def creation : DateTime := ⟨2024, 1, 1, 0, 0, 0, 0, DateTime.newYear_bounded⟩

def plainly (generated : String) : Choice := ⟨none, ⟨true, [], [], []⟩, none, 0, creation, generated⟩

/-- The class of what a call has raised, if it has. -/
private def raisedClass {α : Type} : Except Raised α → Option (Option ErrorKind)
  | .error (.scoped kind _ _) => some (some kind)
  | .error _ => some none
  | .ok _ => none

/-- How many documents are stored, and for each ended call what it has raised
and how many rows it left. -/
private def tally (world : Interleaved Request Reply Raised (Store Bool) Bool) : Nat × List (Option (Option ErrorKind) × Nat) :=
  (active "Document" world.state.committed,
    world.state.outcomes.map fun outcome => (raisedClass outcome.result, outcome.left.length))

private theorem batch_runs :
    ((Interleaved.run serve (fun _ _ _ => True) ⟨vacant, oneBatch⟩ (
      ["", "", "", "1", "1", "", "", "2", "2", "", "", "", ""].map fun text => (false, plainly text))).map tally) =
      some (2, [(none, 4)]) := by
  decide +kernel

/-- A batch of two documents under a quota of one. -/
theorem batch_exceeds_quota :
    ∃ world, Interleaved.Reaches serve (fun _ _ _ => True) ⟨vacant, oneBatch⟩ world ∧
      limited.quotaChecker = some [oneDocument] ∧ (∃ rule ∈ [oneDocument], Governs "Document" 1 rule) ∧
      (∀ client, limited.Client (oneBatch client)) ∧ active "Document" vacant.committed ≤ 1 ∧
      ¬ Respected "Document" 1 world.state := by
  obtain ⟨world, ran, counts⟩ := Option.map_eq_some_iff.mp batch_runs
  obtain ⟨stored, -⟩ := Prod.mk.inj counts
  refine ⟨world, Interleaved.run_reaches .start ran, rfl, oneDocument_governs, oneBatch_clients, by decide, ?_⟩
  intro respected
  have limit := respected.limit
  rw [stored] at limit
  exact absurd limit (by decide)

private def alternately (turns : List Bool) : List (Bool × Choice) :=
  turns.map fun client => (client, plainly (if client then "2" else "1"))

/-- Every commit has counted what is committed. -/
private def Fitting (client : Bool) (store : Store Bool) : Request → Prop
  | .commit => (store.counted client).any (fun seen => active "Document" seen = active "Document" store.committed) = true
  | _ => True

private instance (client : Bool) (store : Store Bool) (request : Request) : Decidable (Fitting client store request) := by
  unfold Fitting
  split <;> infer_instance

private theorem sequence_runs :
    ((Interleaved.run serve Fitting ⟨vacant, twoCreates⟩ (alternately
      [false, false, false, false, false, false, false, false, false, false,
        true, true, true, true, true, true, true, true, true])).map tally) =
        some (1, [(some (some .quotaExceeded), 0), (none, 2)]) := by
  decide +kernel

/-- The second of two creations in sequence is refused and leaves no rows. -/
theorem quota_respected_sequence :
    ∃ world, Interleaved.Reaches serve (Roomy "Document" 1) ⟨vacant, twoCreates⟩ world ∧
      Respected "Document" 1 world.state ∧ tally world = (1, [(some (some .quotaExceeded), 0), (none, 2)]) := by
  obtain ⟨world, ran, counts⟩ := Option.map_eq_some_iff.mp sequence_runs
  have reached : Interleaved.Reaches serve (Roomy "Document" 1) ⟨vacant, twoCreates⟩ world :=
    (Interleaved.run_reaches .start ran).weaken fun client store request fitting => by
      cases request with
      | commit =>
        obtain ⟨seen, counted, same⟩ := (Option.any_eq_true _ _).mp fitting
        exact .inr (.inl ⟨seen, counted, of_decide_eq_true same⟩)
      | _ => trivial
  exact ⟨world, reached, quota_respected rfl oneDocument_governs (by decide) rfl (fun _ => rfl) twoCreates_clients reached,
    counts⟩

end Sample
end ScopedManager
end PyScoped.Legacy
