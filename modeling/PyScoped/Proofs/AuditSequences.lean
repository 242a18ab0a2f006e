import PyScoped.Proofs.AuditWriting

/-! The sequences of the audit trail over restarts and retention: what the table and
the memories of the writers know of the entries recorded so far. -/

namespace PyScoped.Legacy
open Foundation

namespace AuditTrail
open AuditWriter

/-- The entry comes after all entries before it and is linked to the last one. -/
def Follows (past : List AuditRow) (entry : AuditRow) : Prop :=
  (∀ earlier ∈ past, earlier.sequence < entry.sequence) ∧ entry.previousHash = (past.getLast?.map AuditRow.hash).getD ""

/-- No sequence is used again, and each entry is linked to the one recorded just before it. -/
def Unbroken (entries : List AuditRow) : Prop :=
  ∀ before entry after, entries = before ++ entry :: after → Follows before entry

theorem unbroken_nil : Unbroken [] := fun _ _ _ split => absurd split (by simp)

variable {entries : List AuditRow}

theorem unbroken_concat {entry : AuditRow} :
    Unbroken (entries ++ [entry]) ↔ Unbroken entries ∧ Follows entries entry := by
  constructor
  · intro unbroken
    refine ⟨fun before middle after split => ?_, unbroken entries entry [] rfl⟩
    apply unbroken before middle (after ++ [entry])
    rw [split, List.append_assoc, List.cons_append]
  · rintro ⟨unbroken, follows⟩ before middle after split
    rcases List.eq_nil_or_concat after with rfl | ⟨rest, last, rfl⟩
    · obtain ⟨rfl, same⟩ := List.append_inj' split rfl
      rwa [← List.singleton_inj.mp same]
    · rw [List.concat_eq_append, ← List.cons_append, ← List.append_assoc] at split
      exact unbroken before middle rest (List.append_inj' split rfl).1

theorem Unbroken.prefix {later : List AuditRow} (unbroken : Unbroken (entries ++ later)) : Unbroken entries := by
  intro before entry after split
  apply unbroken before entry (after ++ later)
  rw [split, List.append_assoc, List.cons_append]

theorem Unbroken.increasing (unbroken : Unbroken entries) :
    (entries.map AuditRow.sequence).Pairwise (· < ·) := by
  induction entries using List.reverseRecOn with
  | nil => exact .nil
  | append_singleton entries entry ih =>
    obtain ⟨earlier, follows⟩ := unbroken_concat.mp unbroken
    rw [List.map_append, List.pairwise_append]
    refine ⟨ih earlier, List.pairwise_singleton _ _, ?_⟩
    intro sequence member other single
    obtain ⟨row, inside, rfl⟩ := List.mem_map.mp member
    rw [List.mem_singleton.mp single]
    exact follows.1 row inside

/-- The tip is that of the last entry, or the start where there is none. -/
def AtTip (past : List AuditRow) (writer : AuditWriter) : Prop :=
  match past.getLast? with
  | none => writer.sequence = 0 ∧ writer.lastHash = ""
  | some last => writer.sequence = last.sequence ∧ writer.lastHash = last.hash

variable {writer : AuditWriter}

theorem atTip_nil : AtTip [] writer ↔ writer.sequence = 0 ∧ writer.lastHash = "" := Iff.rfl

variable {past : List AuditRow}

theorem atTip_concat {last : AuditRow} :
    AtTip (past ++ [last]) writer ↔ writer.sequence = last.sequence ∧ writer.lastHash = last.hash := by
  unfold AtTip
  rw [List.getLast?_concat]

/-- In a trail without reuse the last entry has the greatest sequence, so a tip
that is as high is the tip of the last entry. -/
theorem atTip_iff (unbroken : Unbroken past) (tip : TipOf past writer)
    (positive : ∀ entry ∈ past, 0 < entry.sequence) :
    AtTip past writer ↔ ∀ entry ∈ past, entry.sequence ≤ writer.sequence := by
  rcases List.eq_nil_or_concat past with rfl | ⟨entries, last, rfl⟩
  · refine ⟨fun _ => nofun, fun _ => atTip_nil.mpr ?_⟩
    rcases tip with start | ⟨entry, member, -⟩
    · exact start
    · exact absurd member List.not_mem_nil
  · rw [List.concat_eq_append] at *
    have below : ∀ entry ∈ entries, entry.sequence < last.sequence := (unbroken_concat.mp unbroken).2.1
    have inside : last ∈ entries ++ [last] := List.mem_append_right _ List.mem_cons_self
    rw [atTip_concat]
    constructor
    · rintro ⟨sequence, -⟩ entry member
      rcases List.mem_append.mp member with earlier | same
      · have bound := below entry earlier
        omega
      · rw [List.mem_singleton.mp same, sequence]
    · intro bound
      have high := bound last inside
      have start := positive last inside
      rcases tip with ⟨zero, -⟩ | ⟨entry, member, sequence, hash⟩
      · omega
      · rcases List.mem_append.mp member with earlier | same
        · have low := below entry earlier
          omega
        · rw [List.mem_singleton.mp same] at sequence hash
          exact ⟨sequence.symm, hash.symm⟩

theorem follows_iff (unbroken : Unbroken past) (tip : TipOf past writer)
    (positive : ∀ entry ∈ past, 0 < entry.sequence) {entry : AuditRow} (sequence : entry.sequence = writer.sequence + 1)
    (previous : entry.previousHash = writer.lastHash) : Follows past entry ↔ AtTip past writer := by
  rw [atTip_iff unbroken tip positive]
  constructor
  · intro follows earlier member
    have bound := follows.1 earlier member
    omega
  · intro bound
    refine ⟨fun earlier member => ?_, ?_⟩
    · have low := bound earlier member
      omega
    · have standing := (atTip_iff unbroken tip positive).mpr bound
      unfold AtTip at standing
      rw [previous]
      cases last : past.getLast? with
      | none =>
        rw [last] at standing
        exact standing.2
      | some entry =>
        rw [last] at standing
        exact standing.2

theorem unbroken_chained {last : AuditWriter} (unbroken : Unbroken past)
    (positive : ∀ entry ∈ past, 0 < entry.sequence) (standing : AtTip past writer) (tip : TipOf past writer)
    (chained : Chained writer entries last) : Unbroken (past ++ entries) := by
  induction entries generalizing past writer with
  | nil => rwa [List.append_nil]
  | cons entry entries ih =>
    obtain ⟨sequence, previous, rest⟩ := chained
    have follows := (follows_iff unbroken tip positive sequence previous).mpr standing
    have start : 0 ≤ writer.sequence := by
      rcases tip with ⟨zero, -⟩ | ⟨earlier, member, same, -⟩
      · omega
      · have bound := positive earlier member
        omega
    rw [List.append_cons]
    apply ih (unbroken_concat.mpr ⟨unbroken, follows⟩) _ (atTip_concat.mpr ⟨rfl, rfl⟩) _ rest
    · intro other member
      rcases List.mem_append.mp member with earlier | same
      · exact positive other earlier
      · rw [List.mem_singleton.mp same]
        omega
    · exact .inr ⟨entry, List.mem_append_right _ List.mem_cons_self, rfl, rfl⟩

theorem chained_positive {last : AuditWriter} (start : 0 ≤ writer.sequence)
    (chained : Chained writer entries last) : ∀ entry ∈ entries, 0 < entry.sequence := by
  induction entries generalizing writer with
  | nil => nofun
  | cons entry entries ih =>
    obtain ⟨sequence, -, rest⟩ := chained
    have onward : 0 ≤ (writer.advanced entry).sequence := by
      change 0 ≤ entry.sequence
      omega
    exact List.forall_mem_cons.mpr ⟨by omega, ih onward rest⟩

theorem chained_tip {last : AuditWriter} (tip : TipOf past writer)
    (chained : Chained writer entries last) : TipOf (past ++ entries) last := by
  induction entries generalizing past writer with
  | nil =>
    rw [List.append_nil, show last = writer from chained]
    exact tip
  | cons entry entries ih =>
    rw [List.append_cons]
    apply ih _ chained.2.2
    exact .inr ⟨entry, List.mem_append_right _ List.mem_cons_self, rfl, rfl⟩

variable {κ : Type} [DecidableEq κ]

/-- What the table and the writers hold comes from the entries recorded so far. -/
structure Kept (past : List AuditRow) (trail : AuditTrail κ) : Prop where
  rows : ∀ row ∈ trail.table.list, ∃ entry ∈ past, entry.sequence = row.sequence ∧ entry.hash = row.hash
  writers : ∀ name writer, trail.writers name = some writer → TipOf past writer
  positive : ∀ entry ∈ past, 0 < entry.sequence

/-- The last entry recorded is known: its row is in the table, or the writer that
is called has its tip in memory. -/
def Remembers (past : List AuditRow) (table : AuditTable) (writer : AuditWriter) : Prop :=
  ∀ last, past.getLast? = some last →
    (∃ row ∈ table.list, row.sequence = last.sequence ∧ row.hash = last.hash) ∨
      writer.sequence = last.sequence ∧ writer.lastHash = last.hash

variable {trail : AuditTrail κ}

omit [DecidableEq κ] in
theorem remembers_iff (kept : Kept past trail) (unbroken : Unbroken past)
    {name : κ} (opened : trail.writers name = some writer) :
    Remembers past trail.table writer ↔ AtTip past (reseeded ⟨trail.table, writer⟩) := by
  have held := kept.writers name writer opened
  have start := held.start kept.positive
  have tip : TipOf past (reseeded ⟨trail.table, writer⟩) := reseeded_tip _ held kept.rows
  rcases List.eq_nil_or_concat past with rfl | ⟨entries, last, rfl⟩
  · refine ⟨fun _ => ?_, fun _ last found => by simp at found⟩
    exact (atTip_iff unbroken tip kept.positive).mpr nofun
  · rw [List.concat_eq_append] at *
    have inside : last ∈ entries ++ [last] := List.mem_append_right _ List.mem_cons_self
    constructor
    · intro remembers
      have high : last.sequence ≤ (reseeded ⟨trail.table, writer⟩).sequence := by
        rcases remembers last List.getLast?_concat with ⟨row, member, sequence, -⟩ | ⟨sequence, -⟩
        · rw [← sequence]
          exact reseeded_above ⟨trail.table, writer⟩ row member
        · rw [← sequence]
          exact le_reseeded ⟨trail.table, writer⟩
      apply (atTip_iff unbroken tip kept.positive).mpr
      intro entry member
      rcases List.mem_append.mp member with earlier | same
      · exact ((unbroken_concat.mp unbroken).2.1 entry earlier).le.trans high
      · rwa [List.mem_singleton.mp same]
    · intro standing other found
      rw [List.getLast?_concat, Option.some.injEq] at found
      subst other
      obtain ⟨sequence, hash⟩ := atTip_concat.mp standing
      rcases reseeded_source ⟨trail.table, writer⟩ start with same | ⟨row, member, sequence', hash'⟩
      · rw [same] at sequence hash
        exact .inr ⟨sequence, hash⟩
      · exact .inl ⟨row, member, sequence'.trans sequence, hash'.trans hash⟩

namespace Turn

/-- The writer that a turn calls. -/
def caller : Turn κ → Option κ
  | .record name _ _ => some name
  | .recordBatch name _ _ => some name
  | _ => none

/-- The call has something to record and the table admits it. -/
def Writes (table : AuditTable) : Turn κ → Prop
  | .record _ recording draws => Recordable (ids table) (draws 0).entryId recording.parentTraceId
  | .recordBatch _ entries draws => entries ≠ [] ∧ BatchRecordable (draws 0) (ids table) 0 entries
  | _ => False

/-- A call that records something goes through a writer that can know the last entry. -/
def Informed (past : List AuditRow) (trail : AuditTrail κ) (turn : Turn κ) : Prop :=
  ∀ name writer, turn.caller = some name → trail.writers name = some writer → turn.Writes trail.table →
    Remembers past trail.table writer

end Turn

/-- What a step preserves, and when it breaks nothing. -/
def Steps (past : List AuditRow) (informed : Prop) (outcome : List AuditRow × AuditTrail κ) : Prop :=
  Kept (past ++ outcome.1) outcome.2 ∧ (Unbroken past → (Unbroken (past ++ outcome.1) ↔ informed))

omit [DecidableEq κ] in
theorem Steps.quiet {after : AuditTrail κ} {informed : Prop} (kept : Kept past after)
    (free : informed) : Steps past informed ([], after) := by
  unfold Steps
  rw [List.append_nil]
  exact ⟨kept, fun unbroken => ⟨fun _ => free, fun _ => unbroken⟩⟩

theorem Kept.assign (kept : Kept past trail) {name : κ}
    {writer : Option AuditWriter} (tip : ∀ opened, writer = some opened → TipOf past opened) :
    Kept past { trail with writers := Function.update trail.writers name writer } := by
  refine ⟨kept.rows, fun other opened found => ?_, kept.positive⟩
  change Function.update trail.writers name writer other = some opened at found
  by_cases same : other = name
  · subst other
    rw [Function.update_self] at found
    exact tip opened found
  · rw [Function.update_of_ne same] at found
    exact kept.writers other opened found

theorem through_steps (kept : Kept past trail) {name : κ}
    (opened : trail.writers name = some writer) {program : AuditWriter.Program (List AuditRow)}
    {writes : Prop} (continues : Continues program ⟨trail.table, writer⟩ writes) :
    Steps past (writes → Remembers past trail.table writer) (through trail name program) := by
  have held := kept.writers name writer opened
  have tip : TipOf past (reseeded ⟨trail.table, writer⟩) := reseeded_tip _ held kept.rows
  obtain ⟨entries, answered, chained, rows, wrote⟩ := continues
  have positive := chained_positive (tip.start kept.positive) chained
  have outcome : through trail name program = (entries, ⟨(program.on ⟨trail.table, writer⟩).2.table,
      Function.update trail.writers name (some (program.on ⟨trail.table, writer⟩).2.writer)⟩) := by
    unfold through
    rw [opened]
    exact congrArg (·, _) answered
  rw [outcome]
  constructor
  · have before : Kept (past ++ entries) trail := by
      refine ⟨fun row member => ?_, fun other opened found => (kept.writers other opened found).append, ?_⟩
      · obtain ⟨entry, inside, same⟩ := kept.rows row member
        exact ⟨entry, List.mem_append_left _ inside, same⟩
      · exact fun entry member => (List.mem_append.mp member).elim (kept.positive entry) (positive entry)
    have behind : ∀ opened, some (program.on ⟨trail.table, writer⟩).2.writer = some opened → TipOf (past ++ entries) opened := by
      intro opened same
      rw [← Option.some.inj same]
      exact chained_tip tip chained
    refine ⟨fun row member => ?_, (before.assign behind).writers, before.positive⟩
    rw [rows] at member
    rcases List.mem_append.mp member with old | new
    · exact before.rows row old
    · exact ⟨row, List.mem_append_right _ new, rfl, rfl⟩
  · intro unbroken
    rw [remembers_iff kept unbroken opened]
    cases entries with
    | nil =>
      have free : ¬ writes := fun allowed => wrote.mpr allowed rfl
      rw [List.append_nil]
      exact ⟨fun _ allowed => absurd allowed free, fun _ => unbroken⟩
    | cons entry entries =>
      have allowed : writes := wrote.mp (List.cons_ne_nil _ _)
      constructor
      · intro whole _
        rw [List.append_cons] at whole
        exact (follows_iff unbroken tip kept.positive chained.1 chained.2.1).mp (unbroken_concat.mp whole.prefix).2
      · intro standing
        exact unbroken_chained unbroken kept.positive (standing allowed) tip chained

/-- One turn keeps where rows and memories come from, and the trail stays unbroken
exactly when the turn is informed. -/
theorem turn_steps (kept : Kept past trail) (turn : Turn κ) :
    Steps past (turn.Informed past trail) (trail.turn turn) := by
  have called : ∀ name program, turn.caller = some name →
      (∀ writer, Continues program ⟨trail.table, writer⟩ (turn.Writes trail.table)) →
        Steps past (turn.Informed past trail) (through trail name program) := by
    intro name program calls continues
    unfold Turn.Informed
    cases opened : trail.writers name with
    | none =>
      have outcome : through trail name program = ([], trail) := by
        unfold through
        rw [opened]
      rw [outcome]
      apply Steps.quiet kept
      intro other writer calls' found
      cases calls.symm.trans calls'
      cases opened.symm.trans found
    | some writer =>
      obtain ⟨keeps, breaks⟩ := through_steps kept opened (continues writer)
      refine ⟨keeps, fun unbroken => (breaks unbroken).trans ⟨fun informed => ?_, fun informed => ?_⟩⟩
      · intro other writer' calls' found
        cases calls.symm.trans calls'
        cases opened.symm.trans found
        exact informed
      · exact informed name writer calls opened
  cases turn with
  | construct name algorithm =>
    apply Steps.quiet (kept.assign _) (fun _ _ calls => nomatch calls)
    rintro opened ⟨⟩
    rcases construct_tip algorithm trail.table with start | ⟨row, member, sequence, hash⟩
    · exact .inl start
    · obtain ⟨entry, recorded, sequence', hash'⟩ := kept.rows row member
      exact .inr ⟨entry, recorded, sequence'.trans sequence, hash'.trans hash⟩
  | close name => exact Steps.quiet (kept.assign nofun) fun _ _ calls => nomatch calls
  | record name recording draws => exact called name _ rfl fun writer => record_continues recording draws _
  | recordBatch name entries draws => exact called name _ rfl fun writer => recordBatch_continues entries draws _
  | apply now policy =>
    refine Steps.quiet ⟨fun row member => ?_, kept.writers, kept.positive⟩ fun _ _ calls => nomatch calls
    obtain ⟨old, there, sequence, hash⟩ := AuditRetention.apply_left now policy trail.table row member
    obtain ⟨entry, recorded, sequence', hash'⟩ := kept.rows old there
    exact ⟨entry, recorded, sequence'.trans sequence, hash'.trans hash⟩

theorem run_unbroken_iff (kept : Kept past trail) (unbroken : Unbroken past)
    (turns : List (Turn κ)) : Unbroken (past ++ (trail.run turns).1) ↔ ∀ before turn after,
      turns = before ++ turn :: after → turn.Informed (past ++ (trail.run before).1) (trail.run before).2 := by
  induction turns generalizing past trail with
  | nil =>
    rw [show (trail.run []).1 = [] from rfl, List.append_nil]
    exact ⟨fun _ _ _ _ split => absurd split (by simp), fun _ => unbroken⟩
  | cons turn turns ih =>
    obtain ⟨keeps, breaks⟩ := turn_steps kept turn
    have whole : past ++ (trail.run (turn :: turns)).1 =
        (past ++ (trail.turn turn).1) ++ ((trail.turn turn).2.run turns).1 := (List.append_assoc ..).symm
    have first : past ++ (trail.run []).1 = past := List.append_nil past
    rw [whole]
    constructor
    · rintro sound before other after split
      have step := sound.prefix
      cases before with
      | nil =>
        obtain ⟨rfl, -⟩ := List.cons.inj split
        rw [first]
        exact (breaks unbroken).mp step
      | cons earlier before =>
        obtain ⟨rfl, rest⟩ := List.cons.inj split
        have later := (ih keeps step).mp sound before other after rest
        rwa [List.append_assoc] at later
    · intro informed
      have start := informed [] turn turns rfl
      rw [first] at start
      apply (ih keeps ((breaks unbroken).mpr start)).mpr
      intro before other after split
      have later := informed (turn :: before) other after (congrArg (turn :: ·) split)
      rwa [List.append_assoc]

omit [DecidableEq κ] in
theorem start_kept : Kept [] (start : AuditTrail κ) := ⟨nofun, nofun, nofun⟩

/-- No sequence is used again and the chain has no gap exactly in the runs in which
every call that records something can still know the entry recorded last: its row
is there, or the writer has it in memory. -/
theorem sequences_unbroken_iff (turns : List (Turn κ)) : Unbroken ((start : AuditTrail κ).run turns).1 ↔
    ∀ before turn after, turns = before ++ turn :: after →
      turn.Informed ((start : AuditTrail κ).run before).1 ((start : AuditTrail κ).run before).2 := by
  have runs := run_unbroken_iff (start_kept : Kept [] (start : AuditTrail κ)) unbroken_nil turns
  simpa only [List.nil_append] using runs

/-- A digest that maps every text to one. -/
def constantDigest : Digest where
  hash := fun _ => "0"
  ascii := fun _ => rfl

def login : Recording := ⟨"alice", .create, "Document", "1", none, none, none, [], none⟩

def drawing (entryId : String) : Fin 4 → Draw := fun _ => ⟨entryId, Moment.of 0 Moment.start_within⟩

/-- Retention deletes everything, and then the process starts again. -/
def purgedAndRestarted : List (Turn Unit) :=
  [.construct () constantDigest, .record () login (drawing "a"), .apply (Moment.of 0 Moment.start_within) ⟨none, some 0, false, false⟩,
    .construct () constantDigest, .record () login (drawing "b")]

theorem purged_sequences : ((start : AuditTrail Unit).run purgedAndRestarted).1.map AuditRow.sequence = [1, 1] := by
  decide +kernel

/-- The writer that is constructed anew begins at 1 again. -/
theorem purged_sequence_reused : ¬ ∀ turns : List (Turn Unit), Unbroken ((start : AuditTrail Unit).run turns).1 := by
  intro claim
  have increasing := (claim purgedAndRestarted).increasing
  rw [purged_sequences] at increasing
  simp at increasing

end AuditTrail
end PyScoped.Legacy
