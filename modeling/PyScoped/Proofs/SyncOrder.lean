import PyScoped.Foundation.StableOrder
import PyScoped.Proofs.SyncAgent

/-! With one thread of the sync agent, and no lost answers, the entries are shipped in
order and once. The thread relies on the others to leave the watermark and the batches
alone; what commits beside it comes behind everything it has read. -/

namespace PyScoped.Legacy.SyncAgent
open Foundation

variable {ι : Type} {store before after : Store} {entries : List SyncEntryMetadata} {batch : SyncBatch} {mark : Int}

/-- How far the batches reach, the latest first. -/
def reach (accepted : List SyncBatch) : Int := (accepted.head?.map SyncBatch.lastSequence).getD 0

/-- All entries that the management plane has taken, in the order in which it took them. -/
def received (accepted : List SyncBatch) : List SyncEntryMetadata := accepted.reverse.flatMap SyncBatch.entries

/-- The entries behind a mark. -/
def behind (mark : Int) (rows : List AuditRow) : List SyncEntryMetadata :=
  (rows.filter fun row => mark < row.sequence).map entryMetadata

/-- What the management plane has taken is the history up to where it reaches, and what
is behind the watermark is still in the trail. -/
structure Lined (store : Store) : Prop where
  sorted : store.history.Pairwise fun first second => first.sequence < second.sequence
  positive : ∀ row ∈ store.history, 0 < row.sequence
  known : ∀ row ∈ store.trail.list, ∃ old ∈ store.history, old.sequence = row.sequence
  passed : Passed store (reach store.accepted)
  taken : received store.accepted = (store.history.filter fun row => row.sequence ≤ reach store.accepted).map entryMetadata
  marked : ∃ mark, markOf store = some mark ∧
    (mark = reach store.accepted ∨ mark = reach store.accepted.tail ∧ mark ≤ reach store.accepted) ∧
    behind mark (AuditTable.inOrder store.trail) = behind mark store.history

/-- Nobody else pushes or moves the watermark, and the history grows at its end. -/
structure Undisturbed (before after : Store) : Prop where
  accepted : after.accepted = before.accepted
  mark : markOf after = markOf before
  history : before.history <+: after.history

/-- Entries commit in order, and retention deletes only what is below the watermark. -/
def Orderly (_ : ι) (store : Store) : Request → Prop
  | .commit rows => (rows.Pairwise fun first second => first.sequence < second.sequence) ∧
      ∀ row ∈ rows, 0 < row.sequence ∧ ∀ old ∈ store.history, old.sequence < row.sequence
  | .delete chosen => ∀ row ∈ store.trail.list, chosen row = true →
      (markOf store).all (fun mark => decide (row.sequence ≤ mark)) = true
  | _ => True

/-- No answer of the management plane is lost, and the watermark is written. -/
def Delivered (_ : ι) (choice : Choice) (_ : Store) : Request → Bool
  | .push _ => choice.failure.isNone || !choice.taken
  | .setWatermark _ _ _ _ => choice.failure.isNone
  | _ => true

def sending (thread : ι) : Contract Request Store ι :=
  ⟨Lined, fun client before after => client = thread → Undisturbed before after, Orderly⟩

theorem Undisturbed.refl (store : Store) : Undisturbed store store := ⟨rfl, rfl, List.prefix_rfl⟩

theorem Undisturbed.trans {first second third : Store} (one : Undisturbed first second) (two : Undisturbed second third) :
    Undisturbed first third :=
  ⟨two.accepted.trans one.accepted, two.mark.trans one.mark, one.history.trans two.history⟩

theorem behind_append (mark : Int) (rows new : List AuditRow) : behind mark (rows ++ new) = behind mark rows ++ behind mark new := by
  unfold behind
  rw [List.filter_append, List.map_append]

theorem Lined.change (lined : Lined before) (accepted : after.accepted = before.accepted) (mark : markOf after = markOf before)
    (history : after.history = before.history)
    (known : ∀ row ∈ after.trail.list, ∃ old ∈ before.trail.list, old.sequence = row.sequence)
    (trail : ∀ mark, markOf before = some mark →
      behind mark (AuditTable.inOrder after.trail) = behind mark (AuditTable.inOrder before.trail)) :
    Lined after ∧ Undisturbed before after := by
  refine ⟨⟨?_, ?_, ?_, ?_, ?_, ?_⟩, accepted, mark, history ▸ List.prefix_rfl⟩
  · rw [history]
    exact lined.sorted
  · rw [history]
    exact lined.positive
  · intro row member
    obtain ⟨old, inside, same⟩ := known row member
    obtain ⟨older, recorded, same'⟩ := lined.known old inside
    rw [history]
    exact ⟨older, recorded, same'.trans same⟩
  · unfold Passed
    rw [accepted, history]
    exact lined.passed
  · rw [accepted, history]
    exact lined.taken
  · obtain ⟨at_, stored, lag, line⟩ := lined.marked
    rw [accepted, history]
    exact ⟨at_, mark.trans stored, lag, (trail at_ stored).trans line⟩

theorem commit_lined {rows : List AuditRow} {trail : AuditTable} (lined : Lined store)
    (sorted : rows.Pairwise fun first second => first.sequence < second.sequence)
    (fresh : ∀ row ∈ rows, 0 < row.sequence ∧ ∀ old ∈ store.history, old.sequence < row.sequence)
    (inserted : insertAll rows store.trail = some trail) :
    Lined { store with trail := trail, history := store.history ++ rows } ∧
      Undisturbed store { store with trail := trail, history := store.history ++ rows } := by
  have list := insertAll_list inserted
  have ordered : AuditTable.inOrder trail = AuditTable.inOrder store.trail ++ rows := by
    apply AuditTable.inOrder_unique
    · rw [list]
      exact (AuditTable.inOrder_perm store.trail).append_right rows
    · apply List.pairwise_append.mpr
      refine ⟨AuditTable.inOrder_sorted store.trail, sorted, ?_⟩
      intro first member second new
      obtain ⟨old, inside, same⟩ := lined.known first ((AuditTable.inOrder_perm store.trail).subset member)
      rw [← same]
      exact (fresh second new).2 old inside
  have beyond : ∀ row ∈ rows, ¬ row.sequence ≤ reach store.accepted := by
    intro row new within
    obtain ⟨positive, above⟩ := fresh row new
    rcases lined.passed with start | known
    · omega
    · obtain ⟨old, inside, far⟩ := known
      have less := above old inside
      omega
  refine ⟨⟨?_, ?_, ?_, ?_, ?_, ?_⟩, rfl, rfl, List.prefix_append _ _⟩
  · apply List.pairwise_append.mpr
    exact ⟨lined.sorted, sorted, fun first member second new => (fresh second new).2 first member⟩
  · intro row member
    rcases List.mem_append.mp member with old | new
    · exact lined.positive row old
    · exact (fresh row new).1
  · intro row member
    rw [list] at member
    rcases List.mem_append.mp member with old | new
    · obtain ⟨known, inside, same⟩ := lined.known row old
      exact ⟨known, List.mem_append_left _ inside, same⟩
    · exact ⟨row, List.mem_append_right _ new, rfl⟩
  · apply lined.passed.imp_right
    intro known
    obtain ⟨old, inside, far⟩ := known
    exact ⟨old, List.mem_append_left _ inside, far⟩
  · have none_ : (rows.filter fun row => decide (row.sequence ≤ reach store.accepted)) = [] := by
      apply List.filter_eq_nil_iff.mpr
      intro row member within
      exact beyond row member (of_decide_eq_true within)
    dsimp only
    rw [List.filter_append, none_, List.append_nil]
    exact lined.taken
  · obtain ⟨mark, stored, lag, line⟩ := lined.marked
    refine ⟨mark, stored, lag, ?_⟩
    dsimp only
    rw [ordered, behind_append, behind_append, line]

theorem behind_inOrder_update (mark : Int) (table : AuditTable) (chosen : AuditRow → Bool) (before after : Bool) :
    behind mark (AuditTable.inOrder (table.update chosen (AuditRetention.compacted before after)
        (compacted_sequence before after))) =
      behind mark (AuditTable.inOrder table) := by
  have shows : ∀ row, entryMetadata (if chosen row then AuditRetention.compacted before after row else row) = entryMetadata row := by
    intro row
    split <;> rfl
  have sequences : ∀ row, (if chosen row then AuditRetention.compacted before after row else row).sequence = row.sequence := by
    intro row
    split <;> rfl
  rw [AuditTable.inOrder_update]
  unfold behind
  rw [List.filter_map, List.map_map]
  have same : (AuditTable.inOrder table).filter ((fun row => decide (mark < row.sequence)) ∘ fun row =>
      if chosen row then AuditRetention.compacted before after row else row) =
        (AuditTable.inOrder table).filter fun row => decide (mark < row.sequence) := by
    apply List.filter_congr
    intro row _
    rw [Function.comp_apply, sequences]
  rw [same]
  apply List.map_congr_left
  intro row _
  exact shows row

theorem behind_inOrder_delete {mark : Int} {table : AuditTable} {chosen : AuditRow → Bool}
    (low : ∀ row ∈ table.list, chosen row = true → row.sequence ≤ mark) :
    behind mark (AuditTable.inOrder (table.delete chosen)) = behind mark (AuditTable.inOrder table) := by
  rw [AuditTable.inOrder_delete]
  unfold behind
  rw [List.filter_filter]
  apply congrArg (List.map entryMetadata)
  apply List.filter_congr
  intro row member
  cases gone : chosen row with
  | false => rw [Bool.not_false, Bool.and_true]
  | true =>
    have within := low row ((AuditTable.inOrder_perm table).subset member) gone
    rw [decide_eq_false (Int.not_lt.mpr within)]
    rfl

/-- What the statements beside the thread's own keep. -/
theorem beside_lined {client : ι} {request : Request} {choice : Choice} {reply : Except Raised (Reply request)}
    (beside : request.Beside) (lined : Lined before) (allowed : Orderly client before request)
    (answered : serve client choice before request = some (reply, after)) : Lined after ∧ Undisturbed before after := by
  have plain {after : Store} (accepted : after.accepted = before.accepted) (mark : markOf after = markOf before)
      (history : after.history = before.history) (trail : after.trail = before.trail) : Lined after ∧ Undisturbed before after := by
    apply lined.change accepted mark history
    · intro row member
      rw [trail] at member
      exact ⟨row, member, rfl⟩
    · intro at_ _
      rw [trail]
  cases beside_done beside answered with
  | flags _ stopping running => exact plain rfl rfl rfl rfl
  | committed rows inserted => exact commit_lined lined allowed.1 allowed.2 inserted
  | deleted chosen =>
    refine lined.change rfl rfl rfl ?_ ?_
    · intro row member
      exact ⟨row, (List.mem_filter.mp member).1, rfl⟩
    · intro mark stored
      apply behind_inOrder_delete
      intro row member gone
      have below := allowed row member gone
      rw [stored, Option.all_some, decide_eq_true_eq] at below
      exact below
  | compacted chosen before' after' =>
    refine lined.change rfl rfl rfl ?_ ?_
    · intro row member
      obtain ⟨old, inside, rfl⟩ := List.mem_map.mp member
      refine ⟨old, inside, ?_⟩
      split <;> rfl
    · intro mark _
      exact behind_inOrder_update mark before.trail chosen before' after'
  | ensured ts =>
    obtain ⟨mark, stored, -⟩ := lined.marked
    obtain ⟨state, present, -⟩ := Option.map_eq_some_iff.mp stored
    refine plain rfl ?_ rfl rfl
    unfold markOf
    dsimp only
    rw [present]
    rfl
  | assigned _ still =>
    refine plain rfl ?_ rfl rfl
    unfold markOf Store.assign
    rw [Option.map_map]
    congr 1
    funext state
    exact (still state).1

section Marks

variable {rows : List AuditRow}

theorem behind_later {others : List AuditRow} {later : Int} (same : behind mark rows = behind mark others) (below : mark ≤ later) :
    behind later rows = behind later others := by
  have again : ∀ list : List AuditRow,
      behind later list = (behind mark list).filter fun entry => later < entry.sequence := by
    intro list
    unfold behind
    rw [List.filter_map, List.filter_filter]
    apply congrArg (List.map entryMetadata)
    apply List.filter_congr
    intro row _
    rw [Function.comp_apply, ← Bool.decide_and, decide_eq_decide]
    change later < row.sequence ↔ later < row.sequence ∧ mark < row.sequence
    omega
  rw [again, again, same]

/-- A page behind a mark leads up to its last entry. -/
theorem upto_page {last : SyncEntryMetadata} (sorted : rows.Pairwise fun first second => first.sequence < second.sequence)
    (page : entries <+: behind mark rows) (ends : entries.getLast? = some last) :
    (rows.filter fun row => row.sequence ≤ mark).map entryMetadata ++ entries =
        (rows.filter fun row => row.sequence ≤ last.sequence).map entryMetadata ∧
      mark < last.sequence ∧ ∃ old ∈ rows, old.sequence = last.sequence := by
  obtain ⟨rest, whole⟩ := page
  obtain ⟨paged, left, split, shown, -⟩ := List.map_eq_append_iff.mp whole.symm
  have parts : (rows.filter fun row => decide (row.sequence ≤ mark)) ++ (paged ++ left) = rows := by
    have lower : ∀ first second : AuditRow, first.sequence < second.sequence → decide (second.sequence ≤ mark) = true →
        decide (first.sequence ≤ mark) = true := by
      intro first second less within
      rw [decide_eq_true_eq] at within ⊢
      omega
    have both := StableOrder.filter_append_rest (fun first second : AuditRow => first.sequence < second.sequence) lower sorted
    have upper : (rows.filter fun row => !decide (row.sequence ≤ mark)) = rows.filter fun row => decide (mark < row.sequence) := by
      apply List.filter_congr
      intro row _
      rw [← decide_not, decide_eq_decide, Int.not_le]
    rw [← split, ← upper]
    exact both
  obtain ⟨lastRow, lastly, rfl⟩ : ∃ lastRow, paged.getLast? = some lastRow ∧ entryMetadata lastRow = last := by
    rw [← shown, List.getLast?_map] at ends
    exact Option.map_eq_some_iff.mp ends
  have listed : ∀ row ∈ paged ++ left, row ∈ rows ∧ mark < row.sequence := by
    intro row member
    rw [← split] at member
    obtain ⟨inside, beyond⟩ := List.mem_filter.mp member
    exact ⟨inside, of_decide_eq_true beyond⟩
  have here := listed lastRow (List.mem_append_left _ (List.mem_of_getLast? lastly))
  refine ⟨?_, here.2, lastRow, here.1, rfl⟩
  rw [← parts] at sorted
  obtain ⟨-, ordered, -⟩ := List.pairwise_append.mp sorted
  obtain ⟨front, -, across⟩ := List.pairwise_append.mp ordered
  have first : ((rows.filter fun row => decide (row.sequence ≤ mark)).filter fun row => decide (row.sequence ≤ lastRow.sequence)) =
      rows.filter fun row => decide (row.sequence ≤ mark) := by
    apply List.filter_eq_self.mpr
    intro row member
    have within := of_decide_eq_true (List.mem_filter.mp member).2
    have above := here.2
    exact decide_eq_true (by omega)
  have second : (paged.filter fun row => decide (row.sequence ≤ lastRow.sequence)) = paged := by
    apply List.filter_eq_self.mpr
    intro row member
    obtain ⟨before, rfl⟩ := List.getLast?_eq_some_iff.mp lastly
    rcases List.mem_append.mp member with early | same
    · have less := (List.pairwise_append.mp front).2.2 row early lastRow (List.mem_singleton_self _)
      exact decide_eq_true less.le
    · rw [List.mem_singleton.mp same]
      exact decide_eq_true le_rfl
  have third : (left.filter fun row => decide (row.sequence ≤ lastRow.sequence)) = [] := by
    apply List.filter_eq_nil_iff.mpr
    intro row member within
    have less := across lastRow (List.mem_of_getLast? lastly) row member
    have within := of_decide_eq_true within
    omega
  have whole : (rows.filter fun row => decide (row.sequence ≤ lastRow.sequence)) =
      (rows.filter fun row => decide (row.sequence ≤ mark)) ++ paged := by
    conv_lhs => rw [← parts]
    rw [List.filter_append, List.filter_append, first, second, third, List.append_nil]
  change (rows.filter fun row => decide (row.sequence ≤ mark)).map entryMetadata ++ entries =
    (rows.filter fun row => decide (row.sequence ≤ lastRow.sequence)).map entryMetadata
  rw [whole, List.map_append, shown]

end Marks

section Sending

variable {thread : ι} {state : Store}

/-- The watermark is at the mark, and so far the batches reach. -/
structure At (store : Store) (mark : Int) : Prop where
  stored : markOf store = some mark
  settled : reach store.accepted = mark

theorem At.undisturbed (at_ : At before mark) (undisturbed : Undisturbed before after) : At after mark where
  stored := undisturbed.mark.trans at_.stored
  settled := by
    rw [undisturbed.accepted]
    exact at_.settled

theorem Undisturbed.page (undisturbed : Undisturbed before after) (page : entries <+: behind mark before.history) :
    entries <+: behind mark after.history := by
  obtain ⟨new, grown⟩ := undisturbed.history
  rw [← grown, behind_append]
  exact page.trans (List.prefix_append _ _)

theorem beside_sends {α : Type} {program : Program α} {property : α → Prop} (only : program.Only Request.Beside)
    (returns : program.Returns property) (state : Store) : (sending thread).Safe (serve.restrict Delivered) thread
      (fun result final => Undisturbed state final ∧ ∀ value, result = .ok value → property value) program state := by
  have safe : (sending thread).Safe (serve.restrict Delivered) thread (fun result final =>
      (sending thread).rely thread state final ∧ ∀ value, result = .ok value → property value) program state := by
    apply Contract.Safe.only _ _ _ only returns
    · intro store _
      exact .refl store
    · intro _ _ _ one two same
      exact (one same).trans (two same)
    · intro request choice now reply after beside lined allowed answered
      obtain ⟨-, answered⟩ := Service.restrict_some answered
      obtain ⟨lined', undisturbed⟩ := beside_lined beside lined allowed answered
      exact ⟨lined', fun _ _ => undisturbed⟩
  apply safe.weaken
  intro result final both
  exact ⟨both.1 rfl, both.2⟩

theorem outside_sends {client : ι} {program : Program Unit} (only : program.Only Request.Beside) (state : Store) :
    (sending thread).Safe (serve.restrict Delivered) client (fun _ _ => True) program state := by
  apply Contract.Safe.keeping _ only
  intro request choice now reply after beside lined allowed answered
  obtain ⟨-, answered⟩ := Service.restrict_some answered
  obtain ⟨lined', undisturbed⟩ := beside_lined beside lined allowed answered
  exact ⟨lined', fun _ _ _ => undisturbed⟩

theorem status_sends (at_ : At state mark) : (sending thread).Safe (serve.restrict Delivered) thread
    (fun result final => At final mark ∧ ∀ snapshot, result = .ok snapshot → snapshot.lastSequence = mark) status state := by
  apply Contract.Safe.bind
  apply Contract.Safe.perform
  intro now lined moved allowed choice reply after answered
  obtain ⟨-, answered⟩ := Service.restrict_some answered
  have now_ := at_.undisturbed (moved rfl)
  obtain ⟨rfl, told⟩ := status_answered answered
  refine ⟨lined, fun _ _ _ => .refl after, ?_⟩
  cases reply with
  | error error => exact ⟨now_, fun snapshot raised => by cases raised⟩
  | ok row =>
    obtain rfl := told row rfl
    obtain ⟨row, stored, same⟩ := Option.map_eq_some_iff.mp now_.stored
    dsimp only
    rw [stored]
    refine ⟨now_, ?_⟩
    intro snapshot returned
    cases returned
    exact same

theorem queryNewEntries_sends (agent : SyncAgent) (at_ : At state mark) : (sending thread).Safe (serve.restrict Delivered) thread
    (fun result final => At final mark ∧ ∀ entries, result = .ok entries → entries <+: behind mark final.history ∧
      entries.Pairwise fun first second => first.sequence < second.sequence)
    (agent.queryNewEntries mark) state := by
  apply Contract.Safe.perform
  intro now lined moved allowed choice reply after answered
  obtain ⟨-, answered⟩ := Service.restrict_some answered
  have now_ := at_.undisturbed (moved rfl)
  obtain ⟨rfl, told⟩ := newEntries_answered answered
  refine ⟨lined, fun _ _ _ => .refl after, now_, ?_⟩
  intro entries returned
  obtain rfl := told entries returned
  obtain ⟨mark', stored, -, line⟩ := lined.marked
  rw [now_.stored] at stored
  cases stored
  have page : entriesAfter after.trail mark agent.batchSize <+: behind mark after.history := by
    rw [← line]
    unfold entriesAfter behind
    rw [List.map_take]
    exact List.take_prefix _ _
  refine ⟨page, List.Pairwise.sublist page.sublist ?_⟩
  exact List.pairwise_map.mpr (lined.sorted.filter _)

/-- The batch was taken, and the watermark has still to follow. -/
structure Pushed (store : Store) (mark last : Int) : Prop where
  stored : markOf store = some mark
  ahead : mark ≤ last
  reached : reach store.accepted = last

theorem take_lined {last : SyncEntryMetadata} (lined : Lined store) (at_ : At store mark) (sound : Sound batch)
    (page : batch.entries <+: behind mark store.history) (ends : batch.entries.getLast? = some last) :
    Lined (store.take batch) ∧ Pushed (store.take batch) mark batch.lastSequence := by
  obtain ⟨whole, less, known⟩ := upto_page lined.sorted page ends
  have named : last.sequence = batch.lastSequence := by
    have last' := sound.last
    rw [ends] at last'
    exact Option.some.inj last'
  have reached : reach (store.take batch).accepted = last.sequence := named.symm
  refine ⟨⟨lined.sorted, lined.positive, lined.known, ?_, ?_, ?_⟩, ⟨at_.stored, named ▸ less.le, rfl⟩⟩
  · obtain ⟨old, inside, same⟩ := known
    rw [reached]
    exact .inr ⟨old, inside, same.symm.le⟩
  · rw [reached]
    have grown : received (store.take batch).accepted = received store.accepted ++ batch.entries := by
      unfold received Store.take
      rw [List.reverse_cons, List.flatMap_append, List.flatMap_singleton]
    rw [grown, lined.taken, at_.settled]
    exact whole
  · obtain ⟨mark', stored, -, line⟩ := lined.marked
    have same : mark' = mark := Option.some.inj (stored.symm.trans at_.stored)
    subst same
    refine ⟨mark', at_.stored, .inr ⟨at_.settled.symm, ?_⟩, line⟩
    rw [reached]
    exact less.le

/-- A push is accepted and taken, or nothing has happened. -/
theorem push_sends {last : SyncEntryMetadata} (at_ : At state mark) (sound : Sound batch)
    (page : batch.entries <+: behind mark state.history) (ends : batch.entries.getLast? = some last) :
    (sending thread).Safe (serve.restrict Delivered) thread (fun result final => match result with
      | .ok ack => if ack.accepted then Pushed final mark batch.lastSequence else At final mark
      | .error _ => At final mark) (Prog.perform (Request.push batch)) state := by
  apply Contract.Safe.perform
  intro now lined moved allowed choice reply after answered
  obtain ⟨delivered, answered⟩ := Service.restrict_some answered
  have now_ := at_.undisturbed (moved rfl)
  obtain ⟨lined', pushed⟩ := take_lined lined now_ sound ((moved rfl).page page) ends
  have others : ∀ after : Store, ∀ other, other ≠ thread → (sending thread).rely other now after :=
    fun _ other foreign same => absurd same foreign
  cases failure : choice.failure with
  | some error =>
    have lost : choice.taken = false := by
      unfold Delivered at delivered
      rw [failure] at delivered
      simpa using delivered
    simp only [serve, failure, lost, Option.some.injEq, Prod.mk.injEq] at answered
    obtain ⟨rfl, rfl⟩ := answered
    exact ⟨lined, others _, now_⟩
  | none =>
    simp only [serve, failure, Option.some.injEq, Prod.mk.injEq] at answered
    obtain ⟨rfl, rfl⟩ := answered
    cases accepted : choice.ack.accepted with
    | true =>
      refine ⟨lined', others _, ?_⟩
      change if choice.ack.accepted then _ else _
      rw [if_pos accepted]
      exact pushed
    | false =>
      refine ⟨lined, others _, ?_⟩
      change if choice.ack.accepted then _ else _
      rw [if_neg (by simp [accepted])]
      exact now_

theorem updateWatermark_sends {last : Int} (pushed : Pushed state mark last) (lastHash batchId : String) :
    (sending thread).Safe (serve.restrict Delivered) thread (fun result final => result = .ok () ∧ At final last)
      (updateWatermark last lastHash batchId) state := by
  have stays : ∀ {before after : Store}, Undisturbed before after → Pushed before mark last → Pushed after mark last := by
    intro before after undisturbed pushed
    refine ⟨undisturbed.mark.trans pushed.stored, pushed.ahead, ?_⟩
    rw [undisturbed.accepted]
    exact pushed.reached
  apply Contract.Safe.bind
  apply Contract.Safe.perform
  intro now lined moved allowed choice reply after answered
  obtain ⟨-, answered⟩ := Service.restrict_some answered
  cases answered
  refine ⟨lined, fun _ _ _ => .refl now, ?_⟩
  have pushed := stays (moved rfl) pushed
  apply Contract.Safe.perform
  intro now lined moved allowed choice reply after answered
  obtain ⟨delivered, answered⟩ := Service.restrict_some answered
  have pushed := stays (moved rfl) pushed
  have written : choice.failure = none := by
    simpa [Delivered] using delivered
  simp only [serve, written, Option.some.injEq, Prod.mk.injEq] at answered
  obtain ⟨rfl, rfl⟩ := answered
  obtain ⟨row, present, -⟩ := Option.map_eq_some_iff.mp pushed.stored
  have stored : ∀ change : SyncState → SyncState, (∀ state, (change state).lastSequence = last) →
      markOf (now.assign change) = some last := by
    intro change sets
    unfold markOf Store.assign
    dsimp only
    rw [present, Option.map_some, Option.map_some, sets]
  obtain ⟨mark', stored', -, line⟩ := lined.marked
  have same : mark' = mark := Option.some.inj (stored'.symm.trans pushed.stored)
  subst same
  refine ⟨⟨lined.sorted, lined.positive, lined.known, lined.passed, lined.taken, ?_⟩, fun other foreign same => absurd same foreign,
    rfl, ⟨stored _ fun _ => rfl, pushed.reached⟩⟩
  exact ⟨last, stored _ fun _ => rfl, .inl pushed.reached.symm, behind_later line pushed.ahead⟩

def Settled (store : Store) : Prop := ∃ mark, At store mark

variable (agent : SyncAgent)

theorem shipEntries_sends (at_ : At state mark) (page : entries <+: behind mark state.history) (filled : entries ≠ [])
    (ordered : entries.Pairwise fun first second => first.sequence < second.sequence) :
    (sending thread).Safe (serve.restrict Delivered) thread (fun _ final => Settled final) (agent.shipEntries entries) state := by
  obtain ⟨last, ends⟩ : ∃ last, entries.getLast? = some last := ⟨_, List.getLast?_eq_some_getLast filled⟩
  apply Contract.Safe.bind
  apply (beside_sends countResources_only (.trivial _) state).weaken
  intro result counted moved
  have counting := at_.undisturbed moved.1
  cases result with
  | error error => exact ⟨mark, counting⟩
  | ok counts =>
    apply Contract.Safe.bind
    apply (beside_sends (buildBatch_only agent counts) (buildBatch_returns agent counts ordered) counted).weaken
    intro result built returned
    have building := counting.undisturbed returned.1
    cases result with
    | error error => exact ⟨mark, building⟩
    | ok batch =>
      obtain ⟨sound, rfl⟩ := returned.2 batch rfl
      have page := returned.1.page (moved.1.page page)
      apply Contract.Safe.bind
      apply (push_sends building sound page ends).weaken
      intro result pushed answered
      cases result with
      | error error => exact ⟨mark, answered⟩
      | ok ack =>
        dsimp only at answered ⊢
        split at answered
        next accepted =>
          rw [if_pos accepted]
          apply (updateWatermark_sends answered batch.chainHash batch.batchId).weaken
          intro result final written
          exact ⟨batch.lastSequence, written.2⟩
        next refused =>
          rw [if_neg refused]
          exact ⟨mark, answered⟩

theorem syncCycle_sends (settled : Settled state) : (sending thread).Safe (serve.restrict Delivered) thread
    (fun _ final => Settled final) agent.syncCycle state := by
  obtain ⟨mark, at_⟩ := settled
  apply Contract.Safe.bind
  apply (status_sends at_).weaken
  intro result read snapshot
  cases result with
  | error error => exact ⟨mark, snapshot.1⟩
  | ok taken =>
    have same := snapshot.2 taken rfl
    subst same
    apply Contract.Safe.bind
    apply (queryNewEntries_sends agent snapshot.1).weaken
    intro result queried page
    cases result with
    | error error => exact ⟨_, page.1⟩
    | ok entries =>
      dsimp only
      split
      · exact ⟨_, page.1⟩
      next filled =>
        obtain ⟨follows, ordered⟩ := page.2 entries rfl
        apply shipEntries_sends agent page.1 follows _ ordered
        intro empty
        exact filled (List.isEmpty_iff.mpr empty)

variable {agent} in
theorem Thread.sends {program : Program Unit} (runs : Thread agent program) (settled : Settled state) :
    (sending thread).Safe (serve.restrict Delivered) thread (fun _ final => Settled final) program state := by
  apply runs.keeps _ (fun state settled => syncCycle_sends agent settled) settled
  intro α program only state settled
  obtain ⟨mark, at_⟩ := settled
  apply (beside_sends only (.trivial _) state).weaken
  intro _ _ moved
  exact ⟨mark, at_.undisturbed moved.1⟩

end Sending

/-- A store where the agent was started and has shipped nothing yet. -/
structure Started (store : Store) : Prop where
  known : store.trail.list = store.history
  sorted : store.history.Pairwise fun first second => first.sequence < second.sequence
  positive : ∀ row ∈ store.history, 0 < row.sequence
  unshipped : store.accepted = []
  marked : markOf store = some 0

theorem Started.settled (started : Started store) : Settled store := by
  refine ⟨0, started.marked, ?_⟩
  rw [started.unshipped]
  rfl

theorem Started.lined (started : Started store) : Lined store where
  sorted := started.sorted
  positive := started.positive
  known row member := ⟨row, started.known ▸ member, rfl⟩
  passed := by
    rw [started.unshipped]
    exact .inl (Int.le_refl 0)
  taken := by
    have none_ : (store.history.filter fun row => decide (row.sequence ≤ 0)) = [] := by
      apply List.filter_eq_nil_iff.mpr
      intro row member within
      have positive := started.positive row member
      have within := of_decide_eq_true within
      omega
    rw [started.unshipped]
    change [] = (store.history.filter fun row => decide (row.sequence ≤ 0)).map entryMetadata
    rw [none_]
    rfl
  marked := by
    refine ⟨0, started.marked, .inl ?_, ?_⟩
    · rw [started.unshipped]
      rfl
    · rw [AuditTable.inOrder_unique (started.known ▸ List.Perm.refl _) started.sorted]

/-- With one thread of the agent, what the management plane has taken is at every moment
a prefix of the history: each entry once and in order, whatever fails beside. The
watermark is at its end, or at the end of the batch before while the last one is in hand. -/
theorem shipped_in_order [DecidableEq ι] (agent : SyncAgent) {first : Store} {programs : ι → Program Unit}
    {world : Interleaved Request Reply Raised Store ι} (thread : ι) (started : Started first)
    (mine : Thread agent (programs thread)) (others : ∀ client, client ≠ thread → Outside (programs client))
    (reached : Interleaved.Reaches (serve.restrict Delivered) Orderly ⟨first, programs⟩ world) :
    received world.state.accepted <+: world.state.history.map entryMetadata ∧
    ∃ mark, markOf world.state = some mark ∧ (mark = reach world.state.accepted ∨ mark = reach world.state.accepted.tail) := by
  obtain ⟨lined, -⟩ := Interleaved.Reaches.safe (sending thread) reached (fun _ store _ => .refl store)
    (fun _ _ _ _ one two same => (one same).trans (two same)) started.lined fun client => by
      by_cases same : client = thread
      · subst same
        exact (mine.sends started.settled).weaken fun _ _ _ => trivial
      · exact outside_sends (others client same).only first
  constructor
  · rw [lined.taken]
    have lower : ∀ first second : AuditRow, first.sequence < second.sequence →
        decide (second.sequence ≤ reach world.state.accepted) = true → decide (first.sequence ≤ reach world.state.accepted) = true := by
      intro first second less within
      rw [decide_eq_true_eq] at within ⊢
      omega
    have both := StableOrder.filter_append_rest (fun first second : AuditRow => first.sequence < second.sequence) lower lined.sorted
    conv_rhs => rw [← both]
    rw [List.map_append]
    exact List.prefix_append _ _
  · obtain ⟨mark, stored, lag, -⟩ := lined.marked
    exact ⟨mark, stored, lag.imp_right And.left⟩

section Sample

instance (client : ι) (store : Store) : (request : Request) → Decidable (Orderly client store request)
  | .commit _ => by
    show Decidable (_ ∧ _)
    infer_instance
  | .delete _ => by
    show Decidable (∀ row ∈ store.trail.list, _)
    infer_instance
  | .status | .ensureState _ | .setStatus _ _ | .setWatermark _ _ _ _ | .setError _ _ _ | .newEntries _ _ | .countActive _
  | .push _ | .stopIsSet | .pauseWait | .setStopping _ | .setRunning _ | .threadAlive | .wait | .now | .generateId
  | .compact _ _ _ => .isTrue trivial

/-- The agent was started, and runs on its own. -/
def startedTrail : Store :=
  { quietTrail with state := some ⟨0, "", none, none, .syncing, none, 0, "2024-01-01T00:00:00+00:00", "2024-01-01T00:00:00+00:00"⟩ }

def loneThread : Unit → Program Unit := fun _ => (small.run 1).attempt.bind fun _ => .pure ()

private theorem lone_runs : ((Interleaved.run (serve.restrict Delivered) Orderly ⟨startedTrail, loneThread⟩
    (List.replicate 15 ((), willing))).map fun world => (world.state.accepted.length, world.state.history)) =
      some (1, [entry]) := by
  decide +kernel

theorem shipped_in_order_cycle : ∃ world, Interleaved.run (serve.restrict Delivered) Orderly ⟨startedTrail, loneThread⟩
    (List.replicate 15 ((), willing)) = some world ∧ world.state.accepted.length = 1 ∧
      received world.state.accepted <+: [entryMetadata entry] := by
  obtain ⟨world, ran, same⟩ := Option.map_eq_some_iff.mp lone_runs
  obtain ⟨one, history⟩ := Prod.ext_iff.mp same
  have history : world.state.history = [entry] := history
  have ordered := shipped_in_order small () ⟨rfl, by decide, by decide, rfl, rfl⟩
    (.run 1 _ fun _ => .done) (fun client foreign => absurd rfl foreign) (Interleaved.run_reaches .start ran)
  refine ⟨world, ran, one, ?_⟩
  rw [history] at ordered
  exact ordered.1

end Sample

end PyScoped.Legacy.SyncAgent
