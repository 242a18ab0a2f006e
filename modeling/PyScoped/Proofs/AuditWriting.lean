import PyScoped.Legacy.AuditWriter

/-! What a call of the writer records, and what retention leaves. A writer continues
the chain from the tip it holds: its own memory, or the newest row of the table
where that one is ahead. -/

namespace PyScoped.Legacy
open Foundation

namespace AuditWriter

variable {table : AuditTable}

theorem mem_inOrder {row : AuditRow} : row ∈ AuditTable.inOrder table ↔ row ∈ table.list :=
  (List.mergeSort_perm _ _).mem_iff

theorem newest_above {row : AuditRow} (found : newest table = some row) :
    row ∈ table.list ∧ ∀ other ∈ table.list, other.sequence ≤ row.sequence := by
  have sorted : (AuditTable.inOrder table).Pairwise fun first second => first.sequence ≤ second.sequence := by
    have total : (AuditTable.inOrder table).Pairwise fun first second => decide (first.sequence ≤ second.sequence) = true := by
      apply List.pairwise_mergeSort
      · intro first second third lower upper
        have bound := of_decide_eq_true lower
        have bound' := of_decide_eq_true upper
        exact decide_eq_true (bound.trans bound')
      · intro first second
        simpa using le_total first.sequence second.sequence
    exact total.imp of_decide_eq_true
  obtain ⟨rows, split⟩ := List.getLast?_eq_some_iff.mp found
  constructor
  · apply mem_inOrder.mp
    rw [split]
    exact List.mem_append_right _ List.mem_cons_self
  · intro other member
    have inside := mem_inOrder.mpr member
    rw [split] at inside sorted
    rcases List.mem_append.mp inside with earlier | same
    · exact (List.pairwise_append.mp sorted).2.2 other earlier row List.mem_cons_self
    · rw [List.mem_singleton.mp same]

theorem newest_none (found : newest table = none) (row : AuditRow) : row ∉ table.list := by
  intro member
  have inside := mem_inOrder.mpr member
  rw [List.getLast?_eq_none_iff.mp found] at inside
  exact List.not_mem_nil inside

/-- A tip: the start of the chain, or the tip of an entry. -/
def TipOf (entries : List AuditRow) (writer : AuditWriter) : Prop :=
  (writer.sequence = 0 ∧ writer.lastHash = "") ∨
    ∃ entry ∈ entries, entry.sequence = writer.sequence ∧ entry.hash = writer.lastHash

theorem TipOf.append {entries later : List AuditRow} {writer : AuditWriter} (tip : TipOf entries writer) :
    TipOf (entries ++ later) writer :=
  tip.imp_right fun ⟨entry, member, same⟩ => ⟨entry, List.mem_append_left later member, same⟩

theorem TipOf.start {past : List AuditRow} {writer : AuditWriter} (tip : TipOf past writer)
    (positive : ∀ entry ∈ past, 0 < entry.sequence) : 0 ≤ writer.sequence := by
  rcases tip with ⟨zero, -⟩ | ⟨earlier, member, same, -⟩
  · omega
  · have bound := positive earlier member
    omega

theorem construct_tip (algorithm : Digest) (table : AuditTable) : TipOf table.list (construct algorithm table) := by
  unfold construct seedChain
  cases found : newest table with
  | none => exact .inl ⟨rfl, rfl⟩
  | some row => exact .inr ⟨row, (newest_above found).1, rfl, rfl⟩

theorem reseeded_above (state : State) : ∀ row ∈ state.table.list, row.sequence ≤ (reseeded state).sequence := by
  intro row member
  have seeded : row.sequence ≤ (seedChain state.table).1 := by
    unfold seedChain
    cases found : newest state.table with
    | none => exact absurd member (newest_none found row)
    | some tip => exact (newest_above found).2 row member
  unfold reseeded
  split
  · exact seeded
  · omega

theorem le_reseeded (state : State) : state.writer.sequence ≤ (reseeded state).sequence := by
  unfold reseeded
  split
  next stale => exact stale.le
  · exact le_rfl

theorem reseeded_source (state : State) (start : 0 ≤ state.writer.sequence) : reseeded state = state.writer ∨
    ∃ row ∈ state.table.list, row.sequence = (reseeded state).sequence ∧ row.hash = (reseeded state).lastHash := by
  unfold reseeded
  split
  next stale =>
    rcases construct_tip state.writer.algorithm state.table with ⟨zero, -⟩ | found
    · have same : (seedChain state.table).1 = 0 := zero
      omega
    · exact .inr found
  · exact .inl rfl

theorem reseeded_tip (state : State) {past : List AuditRow} (held : TipOf past state.writer)
    (rows : ∀ row ∈ state.table.list, ∃ entry ∈ past, entry.sequence = row.sequence ∧ entry.hash = row.hash) :
    TipOf past (reseeded state) := by
  unfold reseeded
  split
  · rcases construct_tip state.writer.algorithm state.table with start | ⟨row, member, sequence, hash⟩
    · exact .inl start
    · obtain ⟨entry, recorded, sequence', hash'⟩ := rows row member
      exact .inr ⟨entry, recorded, sequence'.trans sequence, hash'.trans hash⟩
  · exact held

/-- The identifier is free, and the parent is in the table or the entry itself. -/
def Recordable (ids : List String) (entryId : String) (parent : Option String) : Prop :=
  entryId ∉ ids ∧ ∀ name, parent = some name → name = entryId ∨ name ∈ ids

def ids (table : AuditTable) : List String := table.list.map AuditRow.id

theorem hasParent_iff {row : AuditRow} :
    hasParent table row = true ↔ ∀ name, row.parentTraceId = some name → name = row.id ∨ name ∈ ids table := by
  unfold hasParent ids
  cases row.parentTraceId with
  | none => simp
  | some name => simp

/-- Behind every row of the table, the sequence is free. -/
theorem persistInTxn_on (state : State) (row : AuditRow) (above : ∀ other ∈ state.table.list, other.sequence < row.sequence) :
    (Recordable (ids state.table) row.id row.parentTraceId →
      ∃ table : AuditTable, table.list = state.table.list ++ [row] ∧
        (persistInTxn row).on state = (.ok (), ⟨table, state.writer⟩)) ∧
    (¬ Recordable (ids state.table) row.id row.parentTraceId →
      ∃ error, isSequenceCollision error = false ∧ (persistInTxn row).on state = (.error error, state)) := by
  have taken : (state.table.list.any fun other => decide (other.id = row.id)) = true ↔ row.id ∈ ids state.table := by
    simp [ids]
  unfold persistInTxn
  rw [Stateful.on_bind, Stateful.on_get]
  dsimp only
  by_cases known : row.id ∈ ids state.table
  · rw [if_pos (taken.mpr known), Stateful.on_bind, Stateful.on_throw]
    exact ⟨fun allowed => absurd known allowed.1, fun _ => ⟨_, by decide, rfl⟩⟩
  · rw [if_neg (fun held => known (taken.mp held))]
    cases inserted : state.table.insert row with
    | none =>
      obtain ⟨other, found⟩ := Option.isSome_iff_exists.mp (Rows.insert_eq_none.mp inserted)
      obtain ⟨member, same⟩ := Rows.find_eq_some.mp found
      exact absurd same (above other member).ne
    | some table =>
      dsimp only
      by_cases parent : hasParent state.table row = true
      · rw [if_pos parent]
        refine ⟨fun _ => ⟨table, (Rows.insert_eq_some inserted).2, rfl⟩, fun refused => ?_⟩
        exact absurd ⟨known, hasParent_iff.mp parent⟩ refused
      · rw [if_neg parent, Stateful.on_throw]
        refine ⟨fun allowed => ?_, fun _ => ⟨_, rfl, rfl⟩⟩
        exact absurd (hasParent_iff.mpr allowed.2) parent

theorem transaction_on {α : Type} (body : Program α) (state : State) :
    (transaction body).on state = match body.on state with
      | (.ok value, after) => (.ok value, after)
      | (.error error, after) => (.error error, ⟨state.table, after.writer⟩) := by
  unfold transaction
  rw [Stateful.on_bind, Stateful.on_get]
  dsimp only
  rw [Stateful.on_tryCatch]
  rcases body.on state with ⟨_ | _, after⟩ <;> rfl

/-- Entries that continue a tip one after the other, and the tip behind them. -/
def Chained : AuditWriter → List AuditRow → AuditWriter → Prop
  | writer, [], last => last = writer
  | writer, entry :: entries, last =>
    entry.sequence = writer.sequence + 1 ∧ entry.previousHash = writer.lastHash ∧ Chained (writer.advanced entry) entries last

/-- What a call of a writer does: it returns entries that continue the reseeded
tip and are in the table behind the others, some where it is allowed to and none
where it is not. -/
def Continues (program : Program (List AuditRow)) (state : State) (writes : Prop) : Prop :=
  ∃ entries, (program.on state).1.toOption.getD [] = entries ∧
    Chained (reseeded state) entries (program.on state).2.writer ∧
    (program.on state).2.table.list = state.table.list ++ entries ∧ (entries ≠ [] ↔ writes)

theorem Continues.refused {program : Program (List AuditRow)} {state : State} {writes : Prop} {error : Raised}
    (ran : program.on state = (.error error, ⟨state.table, reseeded state⟩)) (free : ¬ writes) :
    Continues program state writes := by
  refine ⟨[], ?_, ?_, ?_, ?_⟩
  · rw [ran]
    rfl
  · rw [ran]
    rfl
  · rw [ran, List.append_nil]
  · exact ⟨fun some => absurd rfl some, fun allowed => absurd allowed free⟩

theorem Continues.returned {program : Program (List AuditRow)} {state after : State} {writes : Prop}
    {entries : List AuditRow} (ran : program.on state = (.ok entries, after))
    (chained : Chained (reseeded state) entries after.writer) (rows : after.table.list = state.table.list ++ entries)
    (allowed : entries ≠ [] ↔ writes) : Continues program state writes := by
  refine ⟨entries, ?_, ?_, ?_, allowed⟩
  · rw [ran]
    rfl
  · rw [ran]
    exact chained
  · rw [ran]
    exact rows

/-- The sequence never collides, so the first attempt decides. -/
theorem record_continues (recording : Recording) (draws : Fin 4 → Draw) (state : State) :
    Continues ((fun entry => [entry]) <$> record recording draws) state
      (Recordable (ids state.table) (draws 0).entryId recording.parentTraceId) := by
  have unfolded : record recording draws = recordAttempts recording (draws 0 :: List.ofFn fun i => draws (Fin.succ i)) := by
    unfold record
    rw [List.ofFn_succ]
  generalize fixed : entryRow (reseeded state) (draws 0).entryId (draws 0).timestamp recording.actorId recording.action
    recording.targetType recording.targetId recording.scopeId recording.beforeState recording.afterState
    (.obj recording.metadata) recording.parentTraceId = entry
  have identity : entry.id = (draws 0).entryId := by rw [← fixed]; rfl
  have parent : entry.parentTraceId = recording.parentTraceId := by rw [← fixed]; rfl
  have sequence : entry.sequence = (reseeded state).sequence + 1 := by rw [← fixed]; rfl
  have previous : entry.previousHash = (reseeded state).lastHash := by rw [← fixed]; rfl
  obtain ⟨written, refused⟩ := persistInTxn_on ⟨state.table, reseeded state⟩ entry (by
    intro other member
    have bound := reseeded_above state other member
    omega)
  rw [identity, parent] at written refused
  have step : (record recording draws).on state = (do
      tryCatch (do
        transaction (persistInTxn entry)
        modify fun state => { state with writer := state.writer.advanced entry }
        return entry) fun error =>
      if isSequenceCollision error && !(List.ofFn fun i => draws (Fin.succ i)).isEmpty then
        recordAttempts recording (List.ofFn fun i => draws (Fin.succ i))
      else throw error : Program AuditRow).on ⟨state.table, reseeded state⟩ := by
    rw [unfolded, ← fixed]
    rfl
  rw [Stateful.on_tryCatch, Stateful.on_bind, transaction_on] at step
  by_cases allowed : Recordable (ids state.table) (draws 0).entryId recording.parentTraceId
  · obtain ⟨table, rows, ran⟩ := written allowed
    rw [ran] at step
    have returned : ((fun entry => [entry]) <$> record recording draws).on state =
        (.ok [entry], ⟨table, (reseeded state).advanced entry⟩) := by
      rw [Stateful.on_map, step]
      rfl
    apply Continues.returned returned
    · exact ⟨sequence, previous, rfl⟩
    · exact rows
    · exact ⟨fun _ => allowed, fun _ => List.cons_ne_nil _ _⟩
  · obtain ⟨error, plain, ran⟩ := refused allowed
    rw [ran] at step
    have raised : ((fun entry => [entry]) <$> record recording draws).on state =
        (.error error, ⟨state.table, reseeded state⟩) := by
      rw [Stateful.on_map, step]
      simp only [plain, Bool.false_and, Bool.false_eq_true, if_false, Stateful.on_throw]
      rfl
    exact Continues.refused raised allowed

/-- A dictionary has the keys that are read, and names an action. -/
def Complete (entry : BatchEntry) : Prop :=
  entry.actorId.isSome ∧ entry.targetType.isSome ∧ entry.targetId.isSome ∧ (entry.action.bind actionOf).isSome

theorem batchRow_complete {entry : BatchEntry} (complete : Complete entry) (writer : AuditWriter) (entryId : String)
    (timestamp : Moment) : ∃ row, batchRow writer entryId timestamp entry = .ok row ∧ row.id = entryId ∧
      row.parentTraceId = entry.parentTraceId ∧ row.sequence = writer.sequence + 1 ∧ row.previousHash = writer.lastHash := by
  obtain ⟨actor, type, target, named⟩ := complete
  obtain ⟨actorId, hasActor⟩ := Option.isSome_iff_exists.mp actor
  obtain ⟨targetType, hasType⟩ := Option.isSome_iff_exists.mp type
  obtain ⟨targetId, hasTarget⟩ := Option.isSome_iff_exists.mp target
  obtain ⟨member, resolved⟩ := Option.isSome_iff_exists.mp named
  obtain ⟨given, hasAction, resolved⟩ := Option.bind_eq_some_iff.mp resolved
  refine ⟨entryRow writer entryId timestamp actorId member targetType targetId entry.scopeId entry.beforeState
    entry.afterState (entry.metadata.getD (.obj [])) entry.parentTraceId, ?_, rfl, rfl, rfl, rfl⟩
  simp only [batchRow, hasActor, hasType, hasTarget, hasAction, requireKey, resolved, bind, Except.bind, pure, Except.pure]

theorem batchRow_incomplete {entry : BatchEntry} (incomplete : ¬ Complete entry) (writer : AuditWriter) (entryId : String)
    (timestamp : Moment) :
    ∃ error, isSequenceCollision error = false ∧ batchRow writer entryId timestamp entry = .error error := by
  unfold batchRow
  cases hasAction : entry.action with
  | none => exact ⟨_, rfl, rfl⟩
  | some given =>
    cases hasActor : entry.actorId with
    | none => exact ⟨_, rfl, rfl⟩
    | some actorId =>
      cases hasType : entry.targetType with
      | none => exact ⟨_, rfl, rfl⟩
      | some targetType =>
        cases hasTarget : entry.targetId with
        | none => exact ⟨_, rfl, rfl⟩
        | some targetId =>
          cases resolved : actionOf given with
          | none =>
            refine ⟨.other "not a valid ActionType", rfl, ?_⟩
            simp only [requireKey, bind, Except.bind, resolved]
          | some action =>
            apply absurd _ incomplete
            simp [Complete, hasAction, hasActor, hasType, hasTarget, resolved]

/-- Each entry of a batch is recordable behind the ones before it. -/
def BatchRecordable (draw : BatchDraw) : List String → Nat → List BatchEntry → Prop
  | _, _, [] => True
  | ids, position, entry :: entries =>
    Complete entry ∧ Recordable ids (draw.entryId position) entry.parentTraceId ∧
      BatchRecordable draw (ids ++ [draw.entryId position]) (position + 1) entries

theorem persistEach_on (draw : BatchDraw) (position : Nat) (entries : List BatchEntry) (state : State)
    (above : ∀ row ∈ state.table.list, row.sequence ≤ state.writer.sequence) :
    (BatchRecordable draw (ids state.table) position entries → ∃ rows after, rows.length = entries.length ∧
      Chained state.writer rows after.writer ∧ after.table.list = state.table.list ++ rows ∧
        (persistEach draw position entries).on state = (.ok rows, after)) ∧
    (¬ BatchRecordable draw (ids state.table) position entries → ∃ error after, isSequenceCollision error = false ∧
      (persistEach draw position entries).on state = (.error error, after)) := by
  induction entries generalizing position state with
  | nil =>
    refine ⟨fun _ => ⟨[], state, rfl, rfl, (List.append_nil _).symm, rfl⟩, fun refused => ?_⟩
    exact absurd trivial refused
  | cons entry entries ih =>
    unfold persistEach
    rw [Stateful.on_bind, Stateful.on_get]
    dsimp only
    rw [Stateful.on_bind, Stateful.on_lift]
    by_cases complete : Complete entry
    · obtain ⟨row, built, identity, parent, sequence, previous⟩ :=
        batchRow_complete complete state.writer (draw.entryId position) draw.timestamp
      rw [built]
      dsimp only
      rw [Stateful.on_bind]
      obtain ⟨written, refused⟩ := persistInTxn_on state row (by
        intro other member
        have bound := above other member
        omega)
      rw [identity, parent] at written refused
      by_cases allowed : Recordable (ids state.table) (draw.entryId position) entry.parentTraceId
      · obtain ⟨table, rows, ran⟩ := written allowed
        rw [ran]
        dsimp only
        rw [Stateful.on_bind, Stateful.on_modify]
        dsimp only
        rw [Stateful.on_bind]
        have named : ids table = ids state.table ++ [draw.entryId position] := by
          unfold ids
          rw [rows, List.map_append, List.map_singleton, identity]
        obtain ⟨onward, stuck⟩ := ih (position + 1) ⟨table, state.writer.advanced row⟩ (by
          intro other member
          change other.sequence ≤ row.sequence
          rw [rows] at member
          rcases List.mem_append.mp member with old | new
          · have bound := above other old
            omega
          · rw [List.mem_singleton.mp new])
        rw [named] at onward stuck
        constructor
        · intro batch
          obtain ⟨later, after, count, chained, list, finished⟩ := onward batch.2.2
          refine ⟨row :: later, after, congrArg (· + 1) count, ⟨sequence, previous, chained⟩, ?_, ?_⟩
          · rw [list, rows, List.append_assoc]
            rfl
          · rw [finished]
            rfl
        · intro batch
          obtain ⟨error, after, plain, finished⟩ := stuck fun rest => batch ⟨complete, allowed, rest⟩
          refine ⟨error, after, plain, ?_⟩
          rw [finished]
      · obtain ⟨error, plain, ran⟩ := refused allowed
        rw [ran]
        exact ⟨fun batch => absurd batch.2.1 allowed, fun _ => ⟨error, state, plain, rfl⟩⟩
    · obtain ⟨error, plain, stopped⟩ := batchRow_incomplete complete state.writer (draw.entryId position) draw.timestamp
      rw [stopped]
      exact ⟨fun batch => absurd batch.1 complete, fun _ => ⟨error, state, plain, rfl⟩⟩

theorem recordBatch_continues (entries : List BatchEntry) (draws : Fin 4 → BatchDraw) (state : State) :
    Continues (recordBatch entries draws) state
      (entries ≠ [] ∧ BatchRecordable (draws 0) (ids state.table) 0 entries) := by
  obtain ⟨written, refused⟩ := persistEach_on (draws 0) 0 entries ⟨state.table, reseeded state⟩ (reseeded_above state)
  have step : (recordBatch entries draws).on state = (do
      tryCatch (transaction (persistEach (draws 0) 0 entries)) fun error => do
        modify fun after => { after with writer := reseeded state }
        if isSequenceCollision error && !(List.ofFn fun i => draws (Fin.succ i)).isEmpty then
          batchAttempts entries (List.ofFn fun i => draws (Fin.succ i))
        else throw error : Program (List AuditRow)).on ⟨state.table, reseeded state⟩ := by
    unfold recordBatch
    rw [List.ofFn_succ]
    rfl
  rw [Stateful.on_tryCatch, transaction_on] at step
  by_cases allowed : BatchRecordable (draws 0) (ids state.table) 0 entries
  · obtain ⟨rows, after, count, chained, list, ran⟩ := written allowed
    rw [ran] at step
    apply Continues.returned step chained list
    rw [← List.length_pos_iff_ne_nil, count, List.length_pos_iff_ne_nil]
    exact ⟨fun filled => ⟨filled, allowed⟩, fun both => both.1⟩
  · obtain ⟨error, after, plain, ran⟩ := refused allowed
    rw [ran] at step
    simp only [Stateful.on_bind, Stateful.on_modify, plain, Bool.false_and, Bool.false_eq_true, if_false,
      Stateful.on_throw] at step
    exact Continues.refused step fun both => allowed both.2

end AuditWriter

namespace AuditRetention

/-- Every row that is left was there, but for its states. -/
def Left (before after : AuditTable) : Prop :=
  ∀ row ∈ after.list, ∃ old ∈ before.list, old.sequence = row.sequence ∧ old.hash = row.hash

theorem Left.refl (table : AuditTable) : Left table table := fun row member => ⟨row, member, rfl, rfl⟩

theorem Left.trans (first second third : AuditTable) (start : Left first second) (rest : Left second third) :
    Left first third := by
  intro row member
  obtain ⟨middle, inside, sequence, hash⟩ := rest row member
  obtain ⟨old, there, sequence', hash'⟩ := start middle inside
  exact ⟨old, there, sequence'.trans sequence, hash'.trans hash⟩

theorem deleteWhere_left (chosen : AuditRow → Bool) : (deleteWhere chosen).Goes Left := by
  apply Stateful.Goes.get_bind
  intro table
  split
  · exact Left.refl table
  · intro row member
    exact ⟨row, (List.mem_filter.mp member).1, rfl, rfl⟩

theorem compact_left (beforeSequence : Option Int) (compactBefore compactAfter : Bool) :
    (compact beforeSequence compactBefore compactAfter).Goes Left := by
  unfold compact
  split
  · exact Stateful.Goes.pure Left.refl 0
  · apply Stateful.Goes.get_bind
    intro table
    dsimp only
    split
    · exact Left.refl table
    · intro row member
      obtain ⟨old, there, same⟩ := List.mem_map.mp member
      refine ⟨old, there, ?_⟩
      rw [← same]
      split <;> exact ⟨rfl, rfl⟩

theorem newest_left (maxEntries : Option Int) : Stateful.Goes Left (match maxEntries with
    | none => pure ()
    | some maxEntries => do
      match cutoffRow (← get) maxEntries with
      | none => pure ()
      | some last => deleteWhere fun row => row.sequence ≤ last.sequence : Program Unit) := by
  cases maxEntries with
  | none => exact Stateful.Goes.pure Left.refl ()
  | some count =>
    apply Stateful.Goes.get_bind
    intro table
    cases cutoffRow table count with
    | none => exact Left.refl table
    | some last => exact deleteWhere_left _ table

theorem prune_left (now : Moment) (policy : RetentionPolicy) : (prune now policy).Goes Left := by
  unfold prune
  cases ageCutoff now policy with
  | error error => exact Stateful.Goes.throw Left.refl error
  | ok cutoff =>
    cases cutoff with
    | none => exact newest_left policy.maxEntries
    | some cutoff => exact Stateful.Goes.bind Left.trans (deleteWhere_left _) fun _ => newest_left policy.maxEntries

theorem apply_left (now : Moment) (policy : RetentionPolicy) : (apply now policy).Goes Left := by
  apply Stateful.Goes.get_bind
  intro before
  refine Stateful.Goes.bind Left.trans (prune_left now policy) (fun _ => ?_) before
  have counted : ∀ count : Nat, Stateful.Goes Left (do
      let after ← get
      return ⟨before.list.length - after.list.length, count⟩ : Program RetentionResult) :=
    fun _ => Stateful.Goes.get_bind fun table => Left.refl table
  split
  · exact Stateful.Goes.bind Left.trans (compact_left none _ _) counted
  · exact counted 0

end AuditRetention

end PyScoped.Legacy
