import PyScoped.Foundation.Sessions
import PyScoped.Legacy.SyncAgent
import PyScoped.Proofs.AuditVerification

/-! What the sync agent has shipped. Entries that commit in the order of their
sequences are never lost below the watermark, however many threads of the agent are
running. -/

namespace PyScoped.Legacy.SyncAgent
open Foundation

variable {ι : Type} {store before after : Store} {entries : List SyncEntryMetadata} {batch : SyncBatch} {mark : Int}

/-- A batch names what it carries: its first and its last entry, in the order of the trail. -/
structure Sound (batch : SyncBatch) : Prop where
  ordered : batch.entries.Pairwise fun first second => first.sequence < second.sequence
  first : batch.entries.head?.map SyncEntryMetadata.sequence = some batch.firstSequence
  last : batch.entries.getLast?.map SyncEntryMetadata.sequence = some batch.lastSequence
  chained : batch.entries.getLast?.map SyncEntryMetadata.hash = some batch.chainHash

def markOf (store : Store) : Option Int := store.state.map SyncState.lastSequence

def Shipped (store : Store) (entry : SyncEntryMetadata) : Prop := ∃ batch ∈ store.accepted, entry ∈ batch.entries

/-- No new entry gets a sequence up to the mark. -/
def Passed (store : Store) (mark : Int) : Prop := mark ≤ 0 ∨ ∃ old ∈ store.history, mark ≤ old.sequence

/-- Everything in the trail up to the mark was shipped. -/
structure Covered (store : Store) (mark : Int) : Prop where
  passed : Passed store mark
  shipped : ∀ row ∈ store.trail.list, row.sequence ≤ mark → Shipped store (entryMetadata row)

/-- The entries are those of the trail behind the mark, up to the last of them. -/
structure Reads (store : Store) (mark : Int) (entries : List SyncEntryMetadata) (last : SyncEntryMetadata) : Prop where
  ends : entries.getLast? = some last
  ordered : entries.Pairwise fun first second => first.sequence < second.sequence
  passed : Passed store last.sequence
  all : ∀ row ∈ store.trail.list, mark < row.sequence → row.sequence ≤ last.sequence → entryMetadata row ∈ entries

/-- The watermark is where the agent began, or at the end of a batch that was taken. -/
def Marked (store : Store) (state : SyncState) : Prop :=
  state.lastSequence = 0 ∧ state.lastHash = "" ∨
    ∃ batch ∈ store.accepted, state.lastSequence = batch.lastSequence ∧ state.lastHash = batch.chainHash

structure Kept (store : Store) : Prop where
  known : ∀ row ∈ store.trail.list, ∃ old ∈ store.history, old.sequence = row.sequence
  positive : ∀ row ∈ store.history, 0 < row.sequence
  sound : ∀ batch ∈ store.accepted, Sound batch
  covered : ∀ state, store.state = some state → Covered store state.lastSequence ∧ Marked store state

/-- The trail grows behind all that it ever had, and what was shipped stays shipped. -/
structure Grown (before after : Store) : Prop where
  accepted : before.accepted ⊆ after.accepted
  history : before.history ⊆ after.history
  trail : ∀ row ∈ after.trail.list, (∃ old ∈ before.trail.list, entryMetadata old = entryMetadata row) ∨
    0 < row.sequence ∧ ∀ old ∈ before.history, old.sequence < row.sequence

/-- Entries commit behind all that were ever committed. -/
def InOrder (_ : ι) (store : Store) : Request → Prop
  | .commit rows => ∀ row ∈ rows, 0 < row.sequence ∧ ∀ old ∈ store.history, old.sequence < row.sequence
  | _ => True

def shipping (ι : Type) : Contract Request Store ι := ⟨Kept, fun _ => Grown, InOrder⟩

theorem Grown.refl (store : Store) : Grown store store where
  accepted := List.Subset.refl _
  history := List.Subset.refl _
  trail row member := .inl ⟨row, member, rfl⟩

theorem Grown.trans {first second third : Store} (one : Grown first second) (two : Grown second third) : Grown first third where
  accepted := List.Subset.trans one.accepted two.accepted
  history := List.Subset.trans one.history two.history
  trail := by
    intro row member
    rcases two.trail row member with old | new
    · obtain ⟨old, inside, same⟩ := old
      rcases one.trail old inside with older | new
      · obtain ⟨older, inside, same'⟩ := older
        exact .inl ⟨older, inside, same'.trans same⟩
      · have sequence : old.sequence = row.sequence := congrArg SyncEntryMetadata.sequence same
        rw [sequence] at new
        exact .inr new
    · exact .inr ⟨new.1, fun old member => new.2 old (one.history member)⟩

theorem Grown.passed (grown : Grown before after) (passed : Passed before mark) : Passed after mark := by
  apply passed.imp_right
  intro known
  obtain ⟨old, member, reached⟩ := known
  exact ⟨old, grown.history member, reached⟩

theorem Grown.old (grown : Grown before after) (passed : Passed before mark) {row : AuditRow} (member : row ∈ after.trail.list)
    (within : row.sequence ≤ mark) : ∃ old ∈ before.trail.list, entryMetadata old = entryMetadata row := by
  apply (grown.trail row member).resolve_right
  intro new
  rcases passed with start | known
  · have positive := new.1
    omega
  · obtain ⟨old, inside, reached⟩ := known
    have less := new.2 old inside
    omega

theorem Grown.shipped (grown : Grown before after) {entry : SyncEntryMetadata} (shipped : Shipped before entry) :
    Shipped after entry := by
  obtain ⟨batch, member, inside⟩ := shipped
  exact ⟨batch, grown.accepted member, inside⟩

theorem Covered.grown (covered : Covered before mark) (grown : Grown before after) : Covered after mark where
  passed := grown.passed covered.passed
  shipped := by
    intro row member within
    obtain ⟨old, inside, same⟩ := grown.old covered.passed member within
    have sequence : old.sequence = row.sequence := congrArg SyncEntryMetadata.sequence same
    rw [← same]
    exact grown.shipped (covered.shipped old inside (sequence ▸ within))

variable {last : SyncEntryMetadata}

theorem Reads.grown (reads : Reads before mark entries last) (grown : Grown before after) :
    Reads after mark entries last where
  ends := reads.ends
  ordered := reads.ordered
  passed := grown.passed reads.passed
  all := by
    intro row member behind within
    obtain ⟨old, inside, same⟩ := grown.old reads.passed member within
    have sequence : old.sequence = row.sequence := congrArg SyncEntryMetadata.sequence same
    rw [← same]
    exact reads.all old inside (sequence ▸ behind) (sequence ▸ within)

theorem Marked.grown {state : SyncState} (marked : Marked before state) (grown : Grown before after) : Marked after state := by
  apply marked.imp_right
  intro known
  obtain ⟨batch, member, same⟩ := known
  exact ⟨batch, grown.accepted member, same⟩

theorem Covered.extend (covered : Covered store mark) (reads : Reads store mark batch.entries last)
    (taken : batch ∈ store.accepted) : Covered store last.sequence where
  passed := reads.passed
  shipped := by
    intro row member within
    by_cases shipped : row.sequence ≤ mark
    · exact covered.shipped row member shipped
    · exact ⟨batch, taken, reads.all row member (Int.not_le.mp shipped) within⟩

theorem Kept.grow (kept : Kept before) (grown : Grown before after)
    (known : ∀ row ∈ after.trail.list, ∃ old ∈ after.history, old.sequence = row.sequence)
    (positive : ∀ row ∈ after.history, 0 < row.sequence) (sound : ∀ batch ∈ after.accepted, Sound batch)
    (covered : ∀ state, after.state = some state → ∃ old, (before.state = some old ∨ old.lastSequence = 0 ∧ old.lastHash = "") ∧
      old.lastSequence = state.lastSequence ∧ old.lastHash = state.lastHash) : Kept after := by
  refine ⟨known, positive, sound, ?_⟩
  intro state found
  obtain ⟨old, source, sequence, hash⟩ := covered state found
  rcases source with stored | fresh
  · obtain ⟨covered, marked⟩ := kept.covered old stored
    refine ⟨sequence ▸ covered.grown grown, ?_⟩
    have marked := marked.grown grown
    unfold Marked at marked ⊢
    rw [← sequence, ← hash]
    exact marked
  · rw [← sequence, fresh.1]
    refine ⟨⟨.inl (Int.le_refl 0), ?_⟩, .inl ⟨sequence ▸ fresh.1, hash ▸ fresh.2⟩⟩
    intro row member within
    obtain ⟨old, inside, same⟩ := known row member
    have above := positive old inside
    omega

section Statements

theorem insertAll_list {rows : List AuditRow} {table table' : AuditTable} (inserted : insertAll rows table = some table') :
    table'.list = table.list ++ rows := by
  induction rows generalizing table with
  | nil =>
    cases inserted
    exact (List.append_nil _).symm
  | cons row rows ih =>
    obtain ⟨next, first, rest⟩ := Option.bind_eq_some_iff.mp inserted
    rw [ih rest, (Rows.insert_eq_some first).2, List.append_assoc, List.singleton_append]

theorem commit_kept {rows : List AuditRow} {trail : AuditTable} (kept : Kept store)
    (fresh : ∀ row ∈ rows, 0 < row.sequence ∧ ∀ old ∈ store.history, old.sequence < row.sequence)
    (inserted : insertAll rows store.trail = some trail) :
    Kept { store with trail := trail, history := store.history ++ rows } ∧
      Grown store { store with trail := trail, history := store.history ++ rows } := by
  have list := insertAll_list inserted
  have grown : Grown store { store with trail := trail, history := store.history ++ rows } := by
    refine ⟨List.Subset.refl _, List.subset_append_left _ _, ?_⟩
    intro row member
    rw [list] at member
    rcases List.mem_append.mp member with old | new
    · exact .inl ⟨row, old, rfl⟩
    · exact .inr (fresh row new)
  refine ⟨kept.grow grown ?_ ?_ kept.sound fun state found => ⟨state, .inl found, rfl, rfl⟩, grown⟩
  · intro row member
    rw [list] at member
    rcases List.mem_append.mp member with old | new
    · obtain ⟨known, inside, same⟩ := kept.known row old
      exact ⟨known, List.mem_append_left _ inside, same⟩
    · exact ⟨row, List.mem_append_right _ new, rfl⟩
  · intro row member
    rcases List.mem_append.mp member with old | new
    · exact kept.positive row old
    · exact (fresh row new).1

theorem trail_kept {trail : AuditTable} (kept : Kept store)
    (same : ∀ row ∈ trail.list, ∃ old ∈ store.trail.list, entryMetadata old = entryMetadata row) :
    Kept { store with trail := trail } ∧ Grown store { store with trail := trail } := by
  have grown : Grown store { store with trail := trail } :=
    ⟨List.Subset.refl _, List.Subset.refl _, fun row member => .inl (same row member)⟩
  refine ⟨kept.grow grown ?_ kept.positive kept.sound fun state found => ⟨state, .inl found, rfl, rfl⟩, grown⟩
  intro row member
  obtain ⟨old, inside, equal⟩ := same row member
  obtain ⟨known, recorded, sequence⟩ := kept.known old inside
  exact ⟨known, recorded, sequence.trans (congrArg SyncEntryMetadata.sequence equal)⟩

theorem take_kept (kept : Kept store) (sound : Sound batch) : Kept (store.take batch) ∧ Grown store (store.take batch) := by
  have grown : Grown store (store.take batch) :=
    ⟨List.subset_cons_self _ _, List.Subset.refl _, fun row member => .inl ⟨row, member, rfl⟩⟩
  refine ⟨kept.grow grown kept.known kept.positive ?_ fun state found => ⟨state, .inl found, rfl, rfl⟩, grown⟩
  exact List.forall_mem_cons.mpr ⟨sound, kept.sound⟩

theorem assign_kept {change : SyncState → SyncState} (kept : Kept store)
    (still : ∀ state, (change state).lastSequence = state.lastSequence ∧ (change state).lastHash = state.lastHash) :
    Kept (store.assign change) ∧ Grown store (store.assign change) := by
  have grown : Grown store (store.assign change) :=
    ⟨List.Subset.refl _, List.Subset.refl _, fun row member => .inl ⟨row, member, rfl⟩⟩
  refine ⟨kept.grow grown kept.known kept.positive kept.sound ?_, grown⟩
  intro state found
  obtain ⟨old, stored, rfl⟩ := Option.map_eq_some_iff.mp found
  exact ⟨old, .inl stored, (still old).1.symm, (still old).2.symm⟩

theorem ensure_kept (kept : Kept store) (ts : String) :
    Kept { store with state := some (store.state.getD ⟨0, "", none, none, .idle, none, 0, ts, ts⟩) } ∧
      Grown store { store with state := some (store.state.getD ⟨0, "", none, none, .idle, none, 0, ts, ts⟩) } := by
  have grown : Grown store { store with state := some (store.state.getD ⟨0, "", none, none, .idle, none, 0, ts, ts⟩) } :=
    ⟨List.Subset.refl _, List.Subset.refl _, fun row member => .inl ⟨row, member, rfl⟩⟩
  refine ⟨kept.grow grown kept.known kept.positive kept.sound ?_, grown⟩
  intro state found
  cases found
  cases stored : store.state with
  | some old => exact ⟨old, .inl rfl, rfl, rfl⟩
  | none => exact ⟨_, .inr ⟨rfl, rfl⟩, rfl, rfl⟩

/-- What neither pushes nor moves the watermark. -/
def Request.Beside : Request → Prop
  | .setWatermark _ _ _ _ | .push _ => False
  | _ => True

/-- What these statements do, where they do anything. -/
inductive Done (before : Store) : Request → Store → Prop where
  | flags (request : Request) (stopping running : Bool) :
      Done before request { before with stopping := stopping, running := running }
  | committed (rows : List AuditRow) {trail : AuditTable} (inserted : insertAll rows before.trail = some trail) :
      Done before (.commit rows) { before with trail := trail, history := before.history ++ rows }
  | deleted (chosen : AuditRow → Bool) : Done before (.delete chosen) { before with trail := before.trail.delete chosen }
  | compacted (chosen : AuditRow → Bool) (before' after' : Bool) : Done before (.compact chosen before' after')
      { before with trail := before.trail.update chosen (AuditRetention.compacted before' after') (compacted_sequence before' after') }
  | ensured (ts : String) : Done before (.ensureState ts)
      { before with state := some (before.state.getD ⟨0, "", none, none, .idle, none, 0, ts, ts⟩) }
  | assigned (request : Request) {change : SyncState → SyncState}
      (still : ∀ state, (change state).lastSequence = state.lastSequence ∧ (change state).lastHash = state.lastHash) :
      Done before request (before.assign change)

variable {choice : Choice}

theorem beside_done {client : ι} {request : Request} {reply : Except Raised (Reply request)}
    (beside : request.Beside) (answered : serve client choice before request = some (reply, after)) : Done before request after := by
  have same : Done before request before := .flags request before.stopping before.running
  cases request with
  | setWatermark _ _ _ _ | push _ => exact absurd beside id
  | setStopping stopping =>
    cases answered
    exact .flags _ stopping before.running
  | setRunning running =>
    cases answered
    exact .flags _ before.stopping running
  | pauseWait =>
    simp only [serve] at answered
    split at answered
    · cases answered
      exact same
    · cases answered
  | _ =>
    cases failure : choice.failure with
    | some error =>
      simp only [serve, failure] at answered
      cases answered
      exact same
    | none =>
      simp only [serve, failure] at answered
      first
        | cases answered
          first | exact same | exact .deleted _ | exact .compacted _ _ _ | exact .ensured _ | exact .assigned _ fun _ => ⟨rfl, rfl⟩
        | split at answered
          next inserted =>
            cases answered
            exact .committed _ inserted
          · cases answered
            exact same

theorem event_kept (kept : Kept store) (stopping running : Bool) :
    Kept { store with stopping := stopping, running := running } ∧
      Grown store { store with stopping := stopping, running := running } := by
  have grown : Grown store { store with stopping := stopping, running := running } :=
    ⟨List.Subset.refl _, List.Subset.refl _, fun row member => .inl ⟨row, member, rfl⟩⟩
  exact ⟨kept.grow grown kept.known kept.positive kept.sound fun state found => ⟨state, .inl found, rfl, rfl⟩, grown⟩

theorem beside_kept {client : ι} {request : Request} {reply : Except Raised (Reply request)}
    (beside : request.Beside) (kept : Kept before) (allowed : InOrder client before request)
    (answered : serve client choice before request = some (reply, after)) : Kept after ∧ Grown before after := by
  cases beside_done beside answered with
  | flags _ stopping running => exact event_kept kept stopping running
  | committed rows inserted => exact commit_kept kept allowed inserted
  | deleted chosen =>
    apply trail_kept kept
    intro row member
    exact ⟨row, (List.mem_filter.mp member).1, rfl⟩
  | compacted chosen before' after' =>
    apply trail_kept kept
    intro row member
    obtain ⟨old, inside, rfl⟩ := List.mem_map.mp member
    refine ⟨old, inside, ?_⟩
    split <;> rfl
  | ensured ts => exact ensure_kept kept ts
  | assigned _ still => exact assign_kept kept still

theorem push_kept {client : ι} {reply : Except Raised (Reply (.push batch))} (sound : Sound batch) (kept : Kept before)
    (answered : serve client choice before (.push batch) = some (reply, after)) : Kept after ∧ Grown before after := by
  have pushed (taken : Bool) :
      Kept (if taken then before.take batch else before) ∧ Grown before (if taken then before.take batch else before) := by
    cases taken with
    | true => exact take_kept kept sound
    | false => exact ⟨kept, .refl before⟩
  cases failure : choice.failure <;>
  · simp only [serve, failure] at answered
    cases answered
    exact pushed _

theorem status_answered {client : ι} {reply : Except Raised (Option SyncState)}
    (answered : serve client choice before .status = some (reply, after)) :
    after = before ∧ ∀ row, reply = .ok row → row = before.state := by
  cases failure : choice.failure with
  | some error =>
    simp only [serve, failure] at answered
    cases answered
    exact ⟨rfl, fun _ raised => by cases raised⟩
  | none =>
    simp only [serve, failure] at answered
    cases answered
    exact ⟨rfl, fun _ same => (Except.ok.inj same).symm⟩

theorem newEntries_answered {client : ι} {limit : Nat} {reply : Except Raised (List SyncEntryMetadata)}
    (answered : serve client choice before (.newEntries mark limit) = some (reply, after)) :
    after = before ∧ ∀ entries, reply = .ok entries → entries = entriesAfter before.trail mark limit := by
  cases failure : choice.failure with
  | some error =>
    simp only [serve, failure] at answered
    cases answered
    exact ⟨rfl, fun _ raised => by cases raised⟩
  | none =>
    simp only [serve, failure] at answered
    cases answered
    exact ⟨rfl, fun _ same => (Except.ok.inj same).symm⟩

end Statements

section Reading

/-- What the query for new entries gives. -/
theorem entriesAfter_reads (kept : Kept store) {limit : Nat}
    (ends : (entriesAfter store.trail mark limit).getLast? = some last) :
    Reads store mark (entriesAfter store.trail mark limit) last := by
  have sorted := (AuditTable.inOrder_sorted store.trail).filter fun row => decide (mark < row.sequence)
  unfold entriesAfter at ends ⊢
  rw [List.getLast?_map] at ends
  obtain ⟨lastRow, lastly, rfl⟩ := Option.map_eq_some_iff.mp ends
  have listed : lastRow ∈ store.trail.list := by
    have inside := List.mem_of_mem_take (List.mem_of_getLast? lastly)
    exact (AuditTable.inOrder_perm store.trail).subset (List.mem_filter.mp inside).1
  refine ⟨?_, ?_, ?_, ?_⟩
  · rw [List.getLast?_map, lastly]
    rfl
  · apply List.pairwise_map.mpr
    exact sorted.sublist (List.take_sublist _ _)
  · obtain ⟨old, known, same⟩ := kept.known lastRow listed
    exact .inr ⟨old, known, same.symm.le⟩
  · intro row member behind within
    apply List.mem_map_of_mem
    have inside : row ∈ (AuditTable.inOrder store.trail).filter fun row => decide (mark < row.sequence) :=
      List.mem_filter.mpr ⟨(AuditTable.inOrder_perm store.trail).symm.subset member, decide_eq_true behind⟩
    -- what is beyond the page comes after its last row
    rw [← List.take_append_drop limit ((AuditTable.inOrder store.trail).filter fun row => decide (mark < row.sequence))]
      at inside sorted
    apply (List.mem_append.mp inside).resolve_right
    intro beyond
    have later := (List.pairwise_append.mp sorted).2.2 lastRow (List.mem_of_getLast? lastly) row beyond
    have within : row.sequence ≤ lastRow.sequence := within
    omega

end Reading

section Threads

variable {client : ι} {state : Store}

theorem beside_safe {α : Type} {program : Program α} (only : program.Only Request.Beside) (state : Store) :
    (shipping ι).Safe serve client (fun _ _ => True) program state := by
  apply Contract.Safe.keeping _ only
  intro request choice now reply after beside kept allowed answered
  obtain ⟨kept', grown⟩ := beside_kept beside kept allowed answered
  exact ⟨kept', fun _ _ => grown⟩

theorem beside_returns {α : Type} {program : Program α} {property : α → Prop} (only : program.Only Request.Beside)
    (returns : program.Returns property) (state : Store) :
    (shipping ι).Safe serve client (fun result final => Grown state final ∧ ∀ value, result = .ok value → property value)
      program state := by
  apply Contract.Safe.only Grown.refl (fun _ _ _ => Grown.trans) _ only returns
  intro request choice now reply after beside kept allowed answered
  obtain ⟨kept', grown⟩ := beside_kept beside kept allowed answered
  exact ⟨kept', fun _ => grown⟩

variable (agent : SyncAgent)

/-- The status that is read is covered. -/
theorem status_safe (state : Store) : (shipping ι).Safe serve client
    (fun result final => ∀ snapshot, result = .ok snapshot → Covered final snapshot.lastSequence) status state := by
  apply Contract.Safe.bind
  apply Contract.Safe.perform
  intro now kept moved allowed choice reply after answered
  obtain ⟨rfl, told⟩ := status_answered answered
  refine ⟨kept, fun _ _ => .refl after, ?_⟩
  cases reply with
  | error error =>
    intro snapshot raised
    cases raised
  | ok row =>
    obtain rfl := told row rfl
    dsimp only
    cases stored : after.state with
    | none =>
      intro snapshot same
      cases same
      refine ⟨.inl (Int.le_refl 0), ?_⟩
      intro row member within
      obtain ⟨old, known, sequence⟩ := kept.known row member
      have positive := kept.positive old known
      have within : row.sequence ≤ 0 := within
      omega
    | some row =>
      intro snapshot same
      cases same
      exact (kept.covered row stored).1

theorem queryNewEntries_safe (covered : Covered state mark) : (shipping ι).Safe serve client
    (fun result final => ∀ entries, result = .ok entries → Covered final mark ∧
      ∀ last, entries.getLast? = some last → Reads final mark entries last) (agent.queryNewEntries mark) state := by
  apply Contract.Safe.perform
  intro now kept moved allowed choice reply after answered
  obtain ⟨rfl, told⟩ := newEntries_answered answered
  refine ⟨kept, fun _ _ => .refl after, ?_⟩
  intro entries same
  obtain rfl := told entries same
  exact ⟨covered.grown moved, fun last ends => entriesAfter_reads kept ends⟩

theorem countResources_only : countResources.Only Request.Beside :=
  .bind (.perform trivial) fun _ => .bind (.perform trivial) fun _ => .bind (.perform trivial) fun _ =>
    .bind (.perform trivial) fun _ => trivial

theorem buildBatch_only (counts : ResourceCounts) : (agent.buildBatch entries counts).Only Request.Beside := by
  apply Prog.Only.bind (.perform trivial)
  intro batchId
  split
  · exact .bind (.perform trivial) fun _ => trivial
  · trivial

theorem buildBatch_returns (counts : ResourceCounts)
    (ordered : entries.Pairwise fun first second => first.sequence < second.sequence) :
    (agent.buildBatch entries counts).Returns fun batch => Sound batch ∧ batch.entries = entries := by
  apply Prog.Returns.bind
  intro batchId
  split
  next first last starts ends =>
    apply Prog.Returns.bind
    intro createdAt
    refine ⟨⟨ordered, ?_, ?_, ?_⟩, rfl⟩
    · exact congrArg (Option.map _) starts
    · exact congrArg (Option.map _) ends
    · simp only [ends, Option.map_some, Option.getD_some]
  · trivial

/-- A watermark at the end of a batch that was taken, behind a covered mark. -/
theorem updateWatermark_safe (covered : Covered state mark) (reads : Reads state mark batch.entries last)
    (sound : Sound batch) (taken : batch ∈ state.accepted) : (shipping ι).Safe serve client (fun _ _ => True)
      (updateWatermark batch.lastSequence batch.chainHash batch.batchId) state := by
  apply Contract.Safe.bind
  apply (beside_returns (.perform (show Request.Beside .now from trivial)) (.trivial _) state).weaken
  intro result final moved
  cases result with
  | error error => trivial
  | ok ts =>
    apply Contract.Safe.perform
    intro now kept moved' allowed choice reply after answered
    have grown := moved.1.trans moved'
    have ends : last.sequence = batch.lastSequence := by
      have named := sound.last
      rw [reads.ends] at named
      exact Option.some.inj named
    have extended := (covered.grown grown).extend (reads.grown grown) (grown.accepted taken)
    cases failure : choice.failure with
    | some error =>
      simp only [serve, failure, Option.some.injEq, Prod.mk.injEq] at answered
      obtain ⟨-, rfl⟩ := answered
      exact ⟨kept, fun _ _ => .refl now, trivial⟩
    | none =>
      simp only [serve, failure, Option.some.injEq, Prod.mk.injEq] at answered
      obtain ⟨-, rfl⟩ := answered
      refine ⟨⟨kept.known, kept.positive, kept.sound, ?_⟩, fun _ _ => ?_, trivial⟩
      · intro stored found
        obtain ⟨old, -, rfl⟩ := Option.map_eq_some_iff.mp found
        rw [ends] at extended
        exact ⟨⟨extended.passed, extended.shipped⟩, .inr ⟨batch, grown.accepted taken, rfl, rfl⟩⟩
      · exact ⟨List.Subset.refl _, List.Subset.refl _, fun row member => .inl ⟨row, member, rfl⟩⟩

theorem push_safe (sound : Sound batch) (state : Store) : (shipping ι).Safe serve client
    (fun result final => Grown state final ∧ ∀ ack, result = .ok ack → ack.accepted = true → batch ∈ final.accepted)
    (Prog.perform (Request.push batch)) state := by
  apply Contract.Safe.perform
  intro now kept moved allowed choice reply after answered
  obtain ⟨kept', grown⟩ := push_kept sound kept answered
  refine ⟨kept', fun _ _ => grown, Grown.trans moved grown, ?_⟩
  intro ack same accepted
  subst same
  cases failure : choice.failure with
  | some error =>
    simp only [serve, failure, Option.some.injEq, Prod.mk.injEq] at answered
    cases answered.1
  | none =>
    simp only [serve, failure, Option.some.injEq, Prod.mk.injEq] at answered
    obtain ⟨replied, rfl⟩ := answered
    cases replied
    rw [if_pos accepted]
    exact List.mem_cons_self

theorem shipEntries_safe (covered : Covered state mark)
    (reads : ∀ last, entries.getLast? = some last → Reads state mark entries last) (filled : entries ≠ []) :
    (shipping ι).Safe serve client (fun _ _ => True) (agent.shipEntries entries) state := by
  obtain ⟨last, ends⟩ : ∃ last, entries.getLast? = some last := ⟨_, List.getLast?_eq_some_getLast filled⟩
  have reads := reads last ends
  apply Contract.Safe.bind
  apply (beside_returns countResources_only (.trivial _) state).weaken
  intro result counted grown
  cases result with
  | error error => trivial
  | ok counts =>
    apply Contract.Safe.bind
    apply (beside_returns (buildBatch_only agent counts) (buildBatch_returns agent counts reads.ordered) counted).weaken
    intro result built returned
    cases result with
    | error error => trivial
    | ok batch =>
      obtain ⟨sound, rfl⟩ := returned.2 batch rfl
      have grown := grown.1.trans returned.1
      apply Contract.Safe.bind
      apply (push_safe sound built).weaken
      intro result pushed answered
      cases result with
      | error error => trivial
      | ok ack =>
        dsimp only
        split
        next accepted =>
          have grown := grown.trans answered.1
          exact updateWatermark_safe (covered.grown grown) (reads.grown grown) sound (answered.2 ack rfl accepted)
        · trivial

theorem syncCycle_safe (state : Store) : (shipping ι).Safe serve client (fun _ _ => True) agent.syncCycle state := by
  apply Contract.Safe.bind
  apply (status_safe state).weaken
  intro result read covered
  cases result with
  | error error => trivial
  | ok snapshot =>
    apply Contract.Safe.bind
    apply (queryNewEntries_safe agent (covered snapshot rfl)).weaken
    intro result queried reads
    cases result with
    | error error => trivial
    | ok entries =>
      obtain ⟨covered, reads⟩ := reads entries rfl
      dsimp only
      split
      · trivial
      next filled =>
        apply shipEntries_safe agent covered reads
        intro empty
        exact filled (List.isEmpty_iff.mpr empty)

theorem handleError_only (error : Raised) : (handleError error).Only Request.Beside := by
  apply Prog.Only.bind
  · apply Prog.Only.bind (.perform trivial)
    intro row
    cases row <;> trivial
  · intro snapshot
    exact .bind (.perform trivial) fun _ => .bind (.perform trivial) fun _ => .perform trivial

theorem Call.only (call : Call) : call.program.Only Request.Beside := by
  have stated (status : SyncStatus) : (updateStatus status).Only Request.Beside :=
    .bind (.perform trivial) fun _ => .perform trivial
  cases call with
  | start =>
    apply Prog.Only.bind (.perform trivial)
    intro alive
    cases alive with
    | true => trivial
    | false =>
      have ensured : ensureSyncState.Only Request.Beside := .bind (.perform trivial) fun _ => .perform trivial
      exact .bind ensured fun _ => .bind (stated _) fun _ => .bind (.perform trivial) fun _ => .perform trivial
  | pause => exact .bind (.perform trivial) fun _ => stated _
  | resume => exact .bind (stated _) fun _ => .perform trivial
  | stop =>
    exact .bind (.perform trivial) fun _ => .bind (.perform trivial) fun _ => .bind (.perform trivial) fun _ => stated _
  | commit rows => exact .perform trivial
  | delete chosen => exact .perform trivial
  | compact chosen before after => exact .perform trivial

theorem Outside.only {program : Program Unit} (outside : Outside program) : program.Only Request.Beside := by
  induction outside with
  | done => trivial
  | call call next each ih => exact .bind call.only.attempt ih

variable {agent} in
/-- A thread keeps what its cycles keep, and what its statements beside them keep. -/
theorem Thread.keeps {program : Program Unit} {contract : Contract Request Store ι}
    {service : Service Request Reply Raised Store ι Choice} {settled : Store → Prop}
    (besides : ∀ {α : Type} {program : Program α}, program.Only Request.Beside → ∀ state, settled state →
      contract.Safe service client (fun _ final => settled final) program state)
    (cycles : ∀ state, settled state → contract.Safe service client (fun _ final => settled final) agent.syncCycle state)
    (thread : Thread agent program) {state : Store} (start : settled state) :
    contract.Safe service client (fun _ final => settled final) program state := by
  -- what comes behind a piece of the loop
  have after {α : Type} {program : Program α} {next : α → Program Unit} {state : Store}
      (first : contract.Safe service client (fun _ final => settled final) program state)
      (rest : ∀ value state, settled state → contract.Safe service client (fun _ final => settled final) (next value) state) :
      contract.Safe service client (fun _ final => settled final) (program.bind next) state :=
    first.andThen (fun _ _ still => still) rest
  have cycled (state : Store) (start : settled state) :
      contract.Safe service client (fun _ final => settled final) agent.cycle state := by
    apply Contract.Safe.tryCatch
    apply (cycles state start).weaken
    intro result final still
    cases result with
    | ok _ => exact still
    | error error => exact besides (handleError_only error) final still
  have ran (rounds : Nat) (state : Store) (start : settled state) :
      contract.Safe service client (fun _ final => settled final) (agent.run rounds) state := by
    have asked : (Prog.perform Request.stopIsSet : Program Bool).Only Request.Beside := .perform trivial
    have waited : (Prog.perform Request.wait : Program Unit).Only Request.Beside := .perform trivial
    have resumed : (Prog.perform Request.pauseWait : Program Unit).Only Request.Beside := .perform trivial
    induction rounds generalizing state with
    | zero => exact start
    | succ rounds ih =>
      apply after (besides asked state start)
      intro stopped state start
      split
      · exact start
      · apply after (besides resumed state start)
        intro _ state start
        apply after (besides asked state start)
        intro stopped state start
        split
        · exact start
        · apply after (cycled state start)
          intro _ state start
          exact after (besides waited state start) fun _ state start => ih state start
  induction thread generalizing state with
  | done => exact start
  | run rounds next each ih =>
    apply Contract.Safe.bind
    apply Contract.Safe.attempt
    apply (ran rounds state start).weaken
    intro result final still
    exact ih result still

variable {agent} in
theorem Thread.safe {program : Program Unit} (thread : Thread agent program) (state : Store) :
    (shipping ι).Safe serve client (fun _ _ => True) program state :=
  thread.keeps (fun only state _ => beside_safe only state) (fun state _ => syncCycle_safe agent state) trivial

end Threads

/-- A store before the agent is started for the first time. -/
structure Fresh (store : Store) : Prop where
  known : store.trail.list = store.history
  positive : ∀ row ∈ store.history, 0 < row.sequence
  unshipped : store.accepted = []
  stateless : store.state = none

theorem Fresh.kept (fresh : Fresh store) : Kept store where
  known row member := ⟨row, fresh.known ▸ member, rfl⟩
  positive := fresh.positive
  sound := by
    intro batch member
    rw [fresh.unshipped] at member
    cases member
  covered := by
    intro state stored
    rw [fresh.stateless] at stored
    cases stored

/-- However many threads of the agent run, and whatever fails, is paused, stopped or
deleted beside them: as long as entries commit in order, every entry up to the watermark
was taken by the management plane, and the watermark is the end of a batch that names
what it carries. -/
theorem watermark_covered [DecidableEq ι] (agent : SyncAgent) {first : Store} {programs : ι → Program Unit}
    {world : Interleaved Request Reply Raised Store ι} (fresh : Fresh first)
    (clients : ∀ client, Thread agent (programs client) ∨ Outside (programs client))
    (reached : Interleaved.Reaches serve InOrder ⟨first, programs⟩ world) :
    (∀ batch ∈ world.state.accepted, Sound batch) ∧
    ∀ state, world.state.state = some state → Marked world.state state ∧
      ∀ row ∈ world.state.trail.list, row.sequence ≤ state.lastSequence → Shipped world.state (entryMetadata row) := by
  obtain ⟨kept, -⟩ := Interleaved.Reaches.safe (shipping ι) reached (fun _ => Grown.refl) (fun _ _ _ _ => Grown.trans)
    fresh.kept fun client => by
      rcases clients client with thread | outside
      · exact thread.safe first
      · exact beside_safe outside.only first
  refine ⟨kept.sound, ?_⟩
  intro state stored
  obtain ⟨covered, marked⟩ := kept.covered state stored
  exact ⟨marked, covered.shipped⟩

section Sample

instance (client : ι) (store : Store) (request : Request) : Decidable (InOrder client store request) := by
  unfold InOrder
  split <;> infer_instance

def entry : AuditRow :=
  ⟨"t1", 1, "ann", "CREATE", "Document", "doc", none, "2024-01-01T00:00:00+00:00", none, some "{}", "{}", none, "h1", ""⟩

def small : SyncAgent := ⟨10, "1.0", ⟨fun _ => "content", fun _ _ _ => "signature"⟩⟩

def quietTrail : Store := ⟨⟨[entry], by decide⟩, none, false, true, [], [entry]⟩

/-- One client starts the agent, and one is its thread. -/
def agentClients : Bool → Program Unit
  | true => (small.run 1).attempt.bind fun _ => .pure ()
  | false => Call.start.program.attempt.bind fun _ => .pure ()

def willing : Choice :=
  ⟨none, ⟨2024, 1, 1, 0, 0, 0, 0, DateTime.newYear_bounded⟩, .repeated 1, 0, false, ⟨"b", true, 1, "h1", "", []⟩, false⟩

def startThenCycle : List (Bool × Choice) := List.replicate 7 (false, willing) ++ List.replicate 15 (true, willing)

private theorem cycle_runs : ((Interleaved.run serve InOrder ⟨quietTrail, agentClients⟩ startThenCycle).map fun world =>
    (markOf world.state, world.state.trail.list)) = some (some 1, [entry]) := by
  decide +kernel

theorem watermark_covered_cycle : ∃ world, Interleaved.run serve InOrder ⟨quietTrail, agentClients⟩ startThenCycle = some world ∧
    Shipped world.state (entryMetadata entry) := by
  obtain ⟨world, ran, same⟩ := Option.map_eq_some_iff.mp cycle_runs
  obtain ⟨marked, kept⟩ := Prod.ext_iff.mp same
  obtain ⟨state, stored, mark⟩ := Option.map_eq_some_iff.mp marked
  have clients : ∀ client, Thread small (agentClients client) ∨ Outside (agentClients client) := by
    intro client
    cases client with
    | true => exact .inl (.run 1 _ fun _ => .done)
    | false => exact .inr (.call .start _ fun _ => .done)
  have covered := watermark_covered small ⟨rfl, by decide, rfl, rfl⟩ clients
    (Interleaved.run_reaches .start ran)
  refine ⟨world, ran, (covered.2 state stored).2 entry ?_ ?_⟩
  · have kept : world.state.trail.list = [entry] := kept
    rw [kept]
    exact List.mem_singleton_self _
  · rw [mark]
    decide

end Sample

end PyScoped.Legacy.SyncAgent
