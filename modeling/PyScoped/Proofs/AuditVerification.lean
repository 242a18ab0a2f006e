import PyScoped.Foundation.HashChain
import PyScoped.Legacy.AuditTable

/-! What the verification of the audit trail reports, whatever the size of its pages,
and what retention leaves of a chain that is valid. -/

namespace PyScoped.Legacy
open Foundation

namespace AuditTable

variable {digest : Digest} {table : AuditTable} {row : AuditRow}
variable {rows : List AuditRow}

section Order

theorem inOrder_perm (table : AuditTable) : (inOrder table).Perm table.list := List.mergeSort_perm _ _

theorem inOrder_sorted (table : AuditTable) : (inOrder table).Pairwise fun first second => first.sequence < second.sequence := by
  have total : (inOrder table).Pairwise fun first second => decide (first.sequence ≤ second.sequence) = true := by
    apply List.pairwise_mergeSort
    · intro first second third lower upper
      have bound := of_decide_eq_true lower
      have bound' := of_decide_eq_true upper
      exact decide_eq_true (bound.trans bound')
    · intro first second
      simpa using le_total first.sequence second.sequence
  have unique : (inOrder table).Pairwise fun first second => first.sequence ≠ second.sequence :=
    List.pairwise_map.mp (((inOrder_perm table).map AuditRow.sequence).nodup_iff.mpr table.unique)
  refine (total.and unique).imp fun both => ?_
  exact lt_of_le_of_ne (of_decide_eq_true both.1) both.2

theorem inOrder_unique (perm : rows.Perm table.list)
    (sorted : rows.Pairwise fun first second => first.sequence < second.sequence) : inOrder table = rows := by
  apply ((inOrder_perm table).trans perm.symm).eq_of_pairwise _ (inOrder_sorted table) sorted
  intro first second _ _ less more
  exact absurd less (not_lt.mpr more.le)

theorem inOrder_delete (table : AuditTable) (chosen : AuditRow → Bool) :
    inOrder (table.delete chosen) = (inOrder table).filter fun row => !chosen row :=
  inOrder_unique ((inOrder_perm table).filter _) ((inOrder_sorted table).filter _)

theorem inOrder_update (table : AuditTable) (chosen : AuditRow → Bool) (change : AuditRow → AuditRow)
    (keeps : ∀ row, (change row).sequence = row.sequence) :
    inOrder (table.update chosen change keeps) = (inOrder table).map fun row => if chosen row then change row else row := by
  apply inOrder_unique ((inOrder_perm table).map _)
  apply List.pairwise_map.mpr
  have same : ∀ row, (if chosen row then change row else row).sequence = row.sequence := by
    intro row
    split
    · exact keeps row
    · rfl
  refine (inOrder_sorted table).imp fun {first second} less => ?_
  rw [same, same]
  exact less

theorem filter_prefix {kept : AuditRow → Bool}
    (falling : rows.Pairwise fun first second => kept second = true → kept first = true) : rows.filter kept <+: rows := by
  induction rows with
  | nil => exact List.prefix_refl _
  | cons row rest ih =>
    obtain ⟨head, tail⟩ := List.pairwise_cons.mp falling
    by_cases stays : kept row = true
    · rw [List.filter_cons_of_pos stays]
      exact (List.prefix_cons_inj row).mpr (ih tail)
    · rw [List.filter_cons_of_neg stays, List.filter_eq_nil_iff.mpr fun other inside kept => stays (head other inside kept)]
      exact List.nil_prefix

theorem filter_suffix {kept : AuditRow → Bool}
    (rising : rows.Pairwise fun first second => kept first = true → kept second = true) : rows.filter kept <:+ rows := by
  induction rows with
  | nil => exact List.suffix_refl _
  | cons row rest ih =>
    obtain ⟨head, tail⟩ := List.pairwise_cons.mp rising
    by_cases stays : kept row = true
    · have all : ∀ other ∈ row :: rest, kept other = true :=
        List.forall_mem_cons.mpr ⟨stays, fun other later => head other later stays⟩
      rw [List.filter_eq_self.mpr all]
    · rw [List.filter_cons_of_neg stays]
      exact (ih tail).trans (List.suffix_cons row rest)

/-- The rows from one sequence number to another. -/
def span (table : AuditTable) (fromSequence : Int) (toSequence : Option Int) : List AuditRow :=
  (upTo table toSequence).filter fun row => decide (fromSequence ≤ row.sequence)

theorem span_sublist (table : AuditTable) (fromSequence : Int) (toSequence : Option Int) :
    (span table fromSequence toSequence).Sublist (inOrder table) :=
  List.filter_sublist.trans List.filter_sublist

theorem span_within (table : AuditTable) (fromSequence : Int) (toSequence : Option Int) :
    span table fromSequence toSequence <:+: inOrder table := by
  have front : upTo table toSequence <+: inOrder table := by
    apply filter_prefix
    refine (inOrder_sorted table).imp fun {first second} less inside => ?_
    cases toSequence with
    | none => rfl
    | some last =>
      have bound := of_decide_eq_true inside
      exact decide_eq_true (less.le.trans bound)
  have back : span table fromSequence toSequence <:+ upTo table toSequence := by
    apply filter_suffix
    refine ((inOrder_sorted table).filter _).imp fun {first second} less inside => ?_
    have bound := of_decide_eq_true inside
    exact decide_eq_true (bound.trans less.le)
  exact back.isInfix.trans front.isInfix

theorem span_whole (table : AuditTable) : ∃ fromSequence, span table fromSequence none = inOrder table := by
  have lowest : ∃ low, ∀ row ∈ inOrder table, low ≤ row.sequence := by
    cases rows : inOrder table with
    | nil => exact ⟨0, fun row member => absurd member List.not_mem_nil⟩
    | cons first rest =>
      have sorted := inOrder_sorted table
      rw [rows] at sorted
      refine ⟨first.sequence, List.forall_mem_cons.mpr ⟨le_refl _, fun row member => ?_⟩⟩
      exact ((List.pairwise_cons.mp sorted).1 row member).le
  obtain ⟨low, below⟩ := lowest
  have all : upTo table none = inOrder table := List.filter_eq_self.mpr fun _ _ => rfl
  refine ⟨low, ?_⟩
  unfold span
  rw [all]
  exact List.filter_eq_self.mpr fun row member => decide_eq_true (below row member)

end Order

section Walk

/-- What the walk comes to, as it is reported. -/
def reported : Except Stop Progress → Except Raised ChainVerification
  | .error (.raised error) => .error error
  | .error (.broken report) => .ok report
  | .ok progress =>
    match progress.first with
    | none => .ok ⟨true, 0, 0, 0, none⟩
    | some first => .ok ⟨true, progress.checked, first, progress.last, none⟩

theorem verifyChain_eq (digest : Digest) (table : AuditTable) (fromSequence : Int) (toSequence : Option Int) {chunkSize : Nat}
    (positive : 0 < chunkSize) : verifyChain digest table fromSequence toSequence chunkSize =
      reported ((span table fromSequence toSequence).foldlM (verifyEntry digest) ⟨0, none, 0, none⟩) := by
  have enough : ((upTo table toSequence).filter fun row => decide (fromSequence ≤ row.sequence)).length < table.list.length + 1 := by
    have count := (span_sublist table fromSequence toSequence).length_le
    rw [(inOrder_perm table).length_eq] at count
    exact Nat.lt_succ_of_le count
  have walked : Paging.walk AuditRow.sequence (verifyEntry digest) (upTo table toSequence) chunkSize (table.list.length + 1)
      fromSequence ⟨0, none, 0, none⟩ = _ :=
    Paging.walk_eq ((inOrder_sorted table).filter _) positive _ fromSequence _ enough
  unfold verifyChain
  rw [walked]
  rfl

def Ascii (text : String) : Prop := text.toList.all Char.isAscii = true

/-- The row has the hash of its fields. -/
def Sealed (digest : Digest) (row : AuditRow) : Prop := row.hash = row.computeHash digest

/-- The rows are sealed, and each names the hash of the one before it. -/
def Chained (digest : Digest) (rows : List AuditRow) : Prop :=
  (∀ row ∈ rows, Sealed digest row) ∧ rows.IsChain fun first second => second.previousHash = first.hash

/-- The row is sealed, and names the hash before it if there is one. -/
def Fits (digest : Digest) (previous : Option String) (row : AuditRow) : Prop :=
  Sealed digest row ∧ ∀ hash ∈ previous, row.previousHash = hash

theorem isAscii_of_isAlphanum {c : Char} (plain : c.isAlphanum = true) : c.isAscii = true := by
  simp only [Char.isAlphanum, Char.isAlpha, Char.isUpper, Char.isLower, Char.isDigit, Bool.or_eq_true, Bool.and_eq_true,
    decide_eq_true_eq, ge_iff_le, UInt32.le_iff_toNat_le] at plain
  simp only [Char.isAscii, decide_eq_true_eq, Char.toNat]
  simp only [Char.reduceVal, UInt32.reduceToNat] at plain
  omega

theorem Sealed.ascii (whole : Sealed digest row) : Ascii row.hash := by
  unfold Sealed AuditRow.computeHash at whole
  unfold Ascii
  rw [whole, List.all_eq_true]
  intro c member
  exact isAscii_of_isAlphanum (List.all_eq_true.mp (digest.ascii row.payload) c member)

theorem require_passes {report : ChainVerification} {text : String} (ascii : Ascii text) : require report text text = .ok () := by
  unfold Ascii at ascii
  simp [require, compareDigest, ascii]

theorem require_ok {report : ChainVerification} {first second : String} (passed : require report first second = .ok ()) :
    first = second := by
  unfold require compareDigest at passed
  split at passed
  · cases passed
  next same =>
    split at same
    · exact of_decide_eq_true (Except.ok.inj same)
    · cases same
  · cases passed

theorem require_broken {report report' : ChainVerification} {first second : String}
    (stopped : require report first second = .error (.broken report')) : first ≠ second ∧ report' = report := by
  unfold require compareDigest at stopped
  split at stopped
  · cases stopped
  · cases stopped
  next differs =>
    cases stopped
    split at differs
    · exact ⟨of_decide_eq_false (Except.ok.inj differs), rfl⟩
    · cases differs

/-- What is carried on behind a row. -/
def Progress.next (progress : Progress) (row : AuditRow) : Progress :=
  ⟨progress.checked + 1, some (progress.first.getD row.sequence), row.sequence, some row.hash⟩

variable {progress : Progress}

theorem verifyEntry_ok {after : Progress} (ascii : ∀ hash ∈ progress.previous, Ascii hash) :
    verifyEntry digest progress row = .ok after ↔ Fits digest progress.previous row ∧ after = progress.next row := by
  unfold verifyEntry
  constructor
  · intro passed
    simp only [bind, Except.bind] at passed
    split at passed
    · cases passed
    next sealing =>
      have whole : Sealed digest row := require_ok sealing
      cases known : progress.previous with
      | none =>
        rw [known] at passed
        cases passed
        exact ⟨⟨whole, fun hash member => by cases member⟩, rfl⟩
      | some previous =>
        rw [known] at passed
        dsimp only at passed
        split at passed
        · cases passed
        next linking =>
          cases passed
          refine ⟨⟨whole, fun hash member => ?_⟩, rfl⟩
          cases member
          exact require_ok linking
  · intro fitting
    obtain ⟨⟨whole, linked⟩, rfl⟩ := fitting
    have hashed := whole.ascii
    unfold Sealed at whole
    rw [← whole]
    simp only [require_passes hashed, bind, Except.bind]
    cases known : progress.previous with
    | none => rfl
    | some previous =>
      dsimp only
      rw [linked previous known, require_passes (ascii previous known)]
      rfl

/-- The report on a row that does not fit. -/
def Progress.blame (progress : Progress) (row : AuditRow) : ChainVerification :=
  ⟨false, progress.checked + 1, progress.first.getD row.sequence, row.sequence, some row.sequence⟩

theorem verifyEntry_broken {report : ChainVerification}
    (stopped : verifyEntry digest progress row = .error (.broken report)) :
    ¬ Fits digest progress.previous row ∧ report = progress.blame row := by
  unfold verifyEntry at stopped
  simp only [bind, Except.bind] at stopped
  split at stopped
  next stop sealing =>
    cases stopped
    obtain ⟨apart, rfl⟩ := require_broken sealing
    exact ⟨fun fits => apart fits.1, rfl⟩
  next =>
    cases known : progress.previous with
    | none =>
      rw [known] at stopped
      cases stopped
    | some previous =>
      rw [known] at stopped
      dsimp only at stopped
      split at stopped
      next stop linking =>
        cases stopped
        obtain ⟨apart, rfl⟩ := require_broken linking
        exact ⟨fun fits => apart (fits.2 previous rfl), rfl⟩
      · cases stopped

theorem require_returns {report : ChainVerification} {first second : String} {error : Raised} (ascii : Ascii first)
    (ascii' : Ascii second) : require report first second ≠ .error (.raised error) := by
  unfold Ascii at ascii ascii'
  unfold require compareDigest
  rw [if_pos (by rw [ascii, ascii']; rfl)]
  cases decide (first = second) <;> simp

theorem verifyEntry_returns {error : Raised} (ascii : ∀ hash ∈ progress.previous, Ascii hash)
    (hashed : Ascii row.hash) (named : Ascii row.previousHash) : verifyEntry digest progress row ≠ .error (.raised error) := by
  intro stopped
  have expected : Ascii (row.computeHash digest) :=
    Sealed.ascii (show Sealed digest { row with hash := row.computeHash digest } from rfl)
  unfold verifyEntry at stopped
  simp only [bind, Except.bind] at stopped
  split at stopped
  next stop sealing =>
    cases stopped
    exact require_returns hashed expected sealing
  next =>
    cases known : progress.previous with
    | none =>
      rw [known] at stopped
      cases stopped
    | some previous =>
      rw [known] at stopped
      dsimp only at stopped
      split at stopped
      next stop linking =>
        cases stopped
        exact require_returns named (ascii previous known) linking
      · cases stopped

/-- The rows go on from the hash before them, if there is one. -/
def Continues (digest : Digest) (previous : Option String) (rows : List AuditRow) : Prop :=
  Chained digest rows ∧ ∀ hash ∈ previous, ∀ row ∈ rows.head?, row.previousHash = hash

theorem continues_none : Continues digest none rows ↔ Chained digest rows :=
  and_iff_left fun _ member => by cases member

theorem continues_cons {previous : Option String} {rest : List AuditRow} :
    Continues digest previous (row :: rest) ↔ Fits digest previous row ∧ Continues digest (some row.hash) rest := by
  unfold Continues Chained Fits
  rw [List.forall_mem_cons, List.isChain_cons]
  simp only [List.head?_cons, Option.mem_some_iff, forall_eq']
  tauto

theorem next_ascii {previous : Option String} (fits : Fits digest previous row) :
    ∀ hash ∈ (progress.next row).previous, Ascii hash := by
  intro hash member
  cases member
  exact fits.1.ascii

theorem foldlM_ok {after : Progress} (ascii : ∀ hash ∈ progress.previous, Ascii hash) :
    rows.foldlM (verifyEntry digest) progress = .ok after ↔
      Continues digest progress.previous rows ∧ after = rows.foldl Progress.next progress := by
  induction rows generalizing progress with
  | nil =>
    have vacuous : Continues digest progress.previous [] :=
      ⟨⟨fun row member => absurd member List.not_mem_nil, .nil⟩, fun _ _ row member => by cases member⟩
    simp only [List.foldlM_nil, vacuous, true_and, List.foldl_nil]
    exact ⟨fun same => (Except.ok.inj same).symm, fun same => congrArg Except.ok same.symm⟩
  | cons row rest ih =>
    rw [List.foldlM_cons, continues_cons, List.foldl_cons]
    constructor
    · intro passed
      cases entered : verifyEntry digest progress row with
      | error stop =>
        rw [entered] at passed
        cases passed
      | ok middle =>
        rw [entered] at passed
        obtain ⟨fits, rfl⟩ := (verifyEntry_ok ascii).mp entered
        obtain ⟨later, same⟩ := (ih (next_ascii fits)).mp passed
        exact ⟨⟨fits, later⟩, same⟩
    · intro whole
      obtain ⟨⟨fits, later⟩, same⟩ := whole
      rw [(verifyEntry_ok ascii).mpr ⟨fits, rfl⟩]
      exact (ih (next_ascii fits)).mpr ⟨later, same⟩

theorem foldlM_error {stop : Stop} (stopped : rows.foldlM (verifyEntry digest) progress = .error stop) :
    ∃ before row after middle, rows = before ++ row :: after ∧ before.foldlM (verifyEntry digest) progress = .ok middle ∧
      verifyEntry digest middle row = .error stop := by
  induction rows generalizing progress with
  | nil => cases stopped
  | cons row rest ih =>
    rw [List.foldlM_cons] at stopped
    cases entered : verifyEntry digest progress row with
    | error stop' =>
      rw [entered] at stopped
      cases stopped
      exact ⟨[], row, rest, progress, rfl, rfl, entered⟩
    | ok middle =>
      rw [entered] at stopped
      obtain ⟨before, other, after, last, split, passed, stops⟩ := ih stopped
      refine ⟨row :: before, other, after, last, by rw [split, List.cons_append], ?_, stops⟩
      rw [List.foldlM_cons, entered]
      exact passed

theorem foldl_next (rows : List AuditRow) (progress : Progress) : rows.foldl Progress.next progress =
    ⟨progress.checked + rows.length, progress.first.or (rows.head?.map AuditRow.sequence),
      (rows.getLast?.map AuditRow.sequence).getD progress.last, (rows.getLast?.map AuditRow.hash).or progress.previous⟩ := by
  induction rows generalizing progress with
  | nil => simp
  | cons row rest ih =>
    rw [List.foldl_cons, ih]
    unfold Progress.next
    cases progress.first <;> cases last : rest.getLast? <;> simp [List.getLast?_cons, last, Nat.add_assoc, Nat.add_comm 1]

section Reports

variable {fromSequence : Int} {toSequence : Option Int} {chunkSize : Nat} {report : ChainVerification}

/-- The report on rows that are a chain. -/
def wholeReport (rows : List AuditRow) : ChainVerification :=
  ⟨true, rows.length, (rows.head?.map AuditRow.sequence).getD 0, (rows.getLast?.map AuditRow.sequence).getD 0, none⟩

theorem reported_whole (rows : List AuditRow) :
    reported (.ok (rows.foldl Progress.next ⟨0, none, 0, none⟩)) = .ok (wholeReport rows) := by
  rw [foldl_next]
  cases rows with
  | nil => rfl
  | cons row rest =>
    unfold reported wholeReport
    simp

/-- The report that the first row out of the chain gets. -/
def brokenReport (before : List AuditRow) (row : AuditRow) : ChainVerification :=
  ⟨false, before.length + 1, (before.head?.map AuditRow.sequence).getD row.sequence, row.sequence, some row.sequence⟩

theorem blame_foldl (before : List AuditRow) (row : AuditRow) :
    (before.foldl Progress.next ⟨0, none, 0, none⟩).blame row = brokenReport before row := by
  rw [foldl_next]
  unfold Progress.blame brokenReport
  simp

theorem initial_ascii : ∀ hash ∈ (⟨0, none, 0, none⟩ : Progress).previous, Ascii hash := fun _ member => by cases member

theorem chained_concat {before : List AuditRow} (chained : Chained digest before) :
    Chained digest (before ++ [row]) ↔ Fits digest ((before.getLast?.map AuditRow.hash).or none) row := by
  unfold Chained Fits
  rw [List.isChain_append, List.forall_mem_append]
  constructor
  · intro whole
    obtain ⟨⟨-, sealing⟩, -, -, linked⟩ := whole
    refine ⟨sealing row List.mem_cons_self, fun hash member => ?_⟩
    rw [Option.or_none] at member
    obtain ⟨last, ends, rfl⟩ := Option.map_eq_some_iff.mp member
    exact linked last ends row rfl
  · intro fits
    refine ⟨⟨chained.1, fun other member => List.mem_singleton.mp member ▸ fits.1⟩, chained.2, .singleton row, ?_⟩
    intro last ends other single
    cases single
    apply fits.2
    rw [Option.or_none, ends]
    rfl

/-- The report does not depend on the size of the pages, and neither does the failure to give one. -/
theorem verifyChain_pages {chunkSize' : Nat} (positive : 0 < chunkSize) (positive' : 0 < chunkSize') :
    verifyChain digest table fromSequence toSequence chunkSize = verifyChain digest table fromSequence toSequence chunkSize' := by
  rw [verifyChain_eq digest table fromSequence toSequence positive, verifyChain_eq digest table fromSequence toSequence positive']

theorem reported_valid_iff :
    (reported (rows.foldlM (verifyEntry digest) ⟨0, none, 0, none⟩) = .ok report ∧ report.valid = true) ↔
      Chained digest rows ∧ report = wholeReport rows := by
  constructor
  · intro both
    obtain ⟨returned, valid⟩ := both
    cases walked : rows.foldlM (verifyEntry digest) ⟨0, none, 0, none⟩ with
    | ok progress =>
      obtain ⟨whole, rfl⟩ := (foldlM_ok initial_ascii).mp walked
      rw [walked, reported_whole] at returned
      exact ⟨continues_none.mp whole, (Except.ok.inj returned).symm⟩
    | error stop =>
      rw [walked] at returned
      cases stop with
      | raised error => cases returned
      | broken broken =>
        cases returned
        obtain ⟨before, row, after, middle, -, -, stops⟩ := foldlM_error walked
        obtain ⟨-, rfl⟩ := verifyEntry_broken stops
        cases valid
  · intro both
    obtain ⟨chained, rfl⟩ := both
    rw [(foldlM_ok initial_ascii).mpr ⟨continues_none.mpr chained, rfl⟩, reported_whole]
    exact ⟨rfl, rfl⟩

/-- The rows in the range are called valid if and only if they are a chain, and then the report counts them. -/
theorem valid_iff_chained (positive : 0 < chunkSize) :
    (verifyChain digest table fromSequence toSequence chunkSize = .ok report ∧ report.valid = true) ↔
      Chained digest (span table fromSequence toSequence) ∧ report = wholeReport (span table fromSequence toSequence) := by
  rw [verifyChain_eq digest table fromSequence toSequence positive]
  exact reported_valid_iff

/-- Where the digests in the range are ASCII texts a report is given, and a report that is not
valid names the first row that is out of the chain. -/
theorem verifyChain_blames (positive : 0 < chunkSize)
    (ascii : ∀ row ∈ span table fromSequence toSequence, Ascii row.hash ∧ Ascii row.previousHash) :
    ∃ report, verifyChain digest table fromSequence toSequence chunkSize = .ok report ∧
      (report.valid = false → ∃ before row after, span table fromSequence toSequence = before ++ row :: after ∧
        Chained digest before ∧ ¬ Chained digest (before ++ [row]) ∧ report = brokenReport before row) := by
  rw [verifyChain_eq digest table fromSequence toSequence positive]
  cases walked : (span table fromSequence toSequence).foldlM (verifyEntry digest) ⟨0, none, 0, none⟩ with
  | ok progress =>
    obtain ⟨-, rfl⟩ := (foldlM_ok initial_ascii).mp walked
    refine ⟨_, reported_whole _, fun invalid => ?_⟩
    cases invalid
  | error stop =>
    obtain ⟨before, row, after, middle, split, passed, stops⟩ := foldlM_error walked
    obtain ⟨whole, rfl⟩ := (foldlM_ok initial_ascii).mp passed
    have chained := continues_none.mp whole
    have here : row ∈ span table fromSequence toSequence := split ▸ List.mem_append_right _ List.mem_cons_self
    have known : ∀ hash ∈ (before.foldl Progress.next ⟨0, none, 0, none⟩).previous, Ascii hash := by
      intro hash member
      rw [foldl_next, Option.or_none] at member
      obtain ⟨last, ends, rfl⟩ := Option.map_eq_some_iff.mp member
      exact (chained.1 last (List.mem_of_getLast? ends)).ascii
    cases stop with
    | raised error => exact absurd stops (verifyEntry_returns known (ascii row here).1 (ascii row here).2)
    | broken report =>
      obtain ⟨unfit, rfl⟩ := verifyEntry_broken stops
      refine ⟨_, rfl, fun _ => ⟨before, row, after, split, chained, fun longer => unfit ?_, blame_foldl before row⟩⟩
      rw [foldl_next]
      exact (chained_concat chained).mp longer

end Reports

end Walk

end AuditTable

namespace AuditRetention
open AuditTable

variable {digest : Digest} {table after : AuditTable} {now : Moment} {policy : RetentionPolicy}

/-- The row is not too old, where there is a moment to be older than. -/
def recent (cutoff : Option String) (row : AuditRow) : Bool := !cutoff.any fun text => decide (row.timestamp < text)

/-- The row is neither too old nor behind the newest so many of those that are not. -/
def stays (table : AuditTable) (cutoff : Option String) (maxEntries : Option Int) (row : AuditRow) : Bool :=
  recent cutoff row && !(maxEntries.bind (cutoffRow (table.delete fun row => !recent cutoff row))).any fun last =>
    decide (row.sequence ≤ last.sequence)

theorem deleteWhere_ok {chosen : AuditRow → Bool} (ran : (deleteWhere chosen).on table = (.ok (), after)) :
    after = table.delete chosen := by
  obtain ⟨read, middle, got, rest⟩ := Stateful.on_bind_ok.mp ran
  cases got
  split at rest
  · cases rest
  · cases rest
    rfl

theorem newest_ok {maxEntries : Option Int} (ran : Stateful.on (match maxEntries with
      | none => pure ()
      | some maxEntries => do
        match cutoffRow (← get) maxEntries with
        | none => pure ()
        | some last => deleteWhere fun row => row.sequence ≤ last.sequence : Program Unit) table = (.ok (), after)) :
    after = table.delete fun row => (maxEntries.bind (cutoffRow table)).any fun last => decide (row.sequence ≤ last.sequence) := by
  have whole : table = table.delete fun _ => false := Rows.ext (List.filter_eq_self.mpr fun _ _ => rfl).symm
  cases maxEntries with
  | none =>
    cases ran
    exact whole
  | some count =>
    obtain ⟨read, middle, got, rest⟩ := Stateful.on_bind_ok.mp ran
    cases got
    rw [Option.bind_some]
    cases found : cutoffRow table count with
    | none =>
      rw [found] at rest
      cases rest
      exact whole
    | some last =>
      rw [found] at rest
      exact deleteWhere_ok rest

theorem prune_ok (ran : (prune now policy).on table = (.ok (), after)) :
    ∃ cutoff, ageCutoff now policy = .ok cutoff ∧
      inOrder after = (inOrder table).filter (stays table cutoff policy.maxEntries) := by
  have both (cutoff : Option String) (rest : after = (table.delete fun row => !recent cutoff row).delete fun row =>
      (policy.maxEntries.bind (cutoffRow (table.delete fun row => !recent cutoff row))).any fun last =>
        decide (row.sequence ≤ last.sequence)) :
      inOrder after = (inOrder table).filter (stays table cutoff policy.maxEntries) := by
    rw [rest, inOrder_delete, inOrder_delete, List.filter_filter]
    refine List.filter_congr fun row _ => ?_
    rw [Bool.not_not, Bool.and_comm]
    rfl
  unfold prune at ran
  cases aged : ageCutoff now policy with
  | error error =>
    rw [aged] at ran
    cases ran
  | ok cutoff =>
    rw [aged] at ran
    refine ⟨cutoff, rfl, both cutoff ?_⟩
    cases cutoff with
    | none =>
      have whole : table = table.delete fun row => !recent none row := Rows.ext (List.filter_eq_self.mpr fun _ _ => rfl).symm
      rw [← whole]
      exact newest_ok ran
    | some text =>
      obtain ⟨_, middle, deleted, rest⟩ := Stateful.on_bind_ok.mp ran
      have first := deleteWhere_ok deleted
      have same : (fun row : AuditRow => !recent (some text) row) = fun row => decide (row.timestamp < text) := by
        funext row
        simp [recent]
      rw [same, ← first]
      exact newest_ok rest

/-- A change that leaves everything alone that is in the hash. -/
def Unsealed (change : AuditRow → AuditRow) : Prop :=
  ∀ row, (change row).hash = row.hash ∧ (change row).payload = row.payload ∧ (change row).previousHash = row.previousHash

theorem compact_ok {beforeSequence : Option Int} {compactBefore compactAfter : Bool} {count : Nat}
    (ran : (compact beforeSequence compactBefore compactAfter).on table = (.ok count, after)) :
    ∃ change, Unsealed change ∧ inOrder after = (inOrder table).map change := by
  have idle : ∃ change, Unsealed change ∧ inOrder table = (inOrder table).map change :=
    ⟨id, fun _ => ⟨rfl, rfl, rfl⟩, (List.map_id _).symm⟩
  unfold compact at ran
  split at ran
  · cases ran
    exact idle
  · obtain ⟨read, middle, got, rest⟩ := Stateful.on_bind_ok.mp ran
    cases got
    dsimp only at rest
    split at rest
    · cases rest
      exact idle
    · cases rest
      refine ⟨_, ?_, inOrder_update table _ (compacted compactBefore compactAfter) fun _ => rfl⟩
      intro row
      dsimp only
      split <;> exact ⟨rfl, rfl, rfl⟩

theorem apply_ok {result : RetentionResult} (ran : (apply now policy).on table = (.ok result, after)) :
    ∃ cutoff change, ageCutoff now policy = .ok cutoff ∧ Unsealed change ∧
      inOrder after = ((inOrder table).filter (stays table cutoff policy.maxEntries)).map change := by
  obtain ⟨before, start, got, rest⟩ := Stateful.on_bind_ok.mp ran
  cases got
  obtain ⟨_, pruned, prunes, rest⟩ := Stateful.on_bind_ok.mp rest
  obtain ⟨cutoff, aged, left⟩ := prune_ok prunes
  split at rest
  · obtain ⟨count, middle, compacts, rest⟩ := Stateful.on_bind_ok.mp rest
    cases rest
    obtain ⟨change, unsealed, same⟩ := compact_ok compacts
    exact ⟨cutoff, change, aged, unsealed, left ▸ same⟩
  · cases rest
    exact ⟨cutoff, id, aged, fun _ => ⟨rfl, rfl, rfl⟩, left.trans (List.map_id _).symm⟩

theorem chained_map {change : AuditRow → AuditRow} (unsealed : Unsealed change) (rows : List AuditRow) :
    Chained digest (rows.map change) ↔ Chained digest rows := by
  unfold Chained
  rw [List.forall_mem_map, List.isChain_map]
  have sealing (row : AuditRow) : Sealed digest (change row) ↔ Sealed digest row := by
    obtain ⟨hash, payload, -⟩ := unsealed row
    unfold Sealed AuditRow.computeHash
    rw [hash, payload]
  have linking (first second : AuditRow) :
      ((change second).previousHash = (change first).hash) = (second.previousHash = first.hash) := by
    rw [(unsealed second).2.2, (unsealed first).1]
  simp only [sealing, linking]

/-- Every range of the table is called valid. -/
def Valid (digest : Digest) (table : AuditTable) : Prop :=
  ∀ fromSequence toSequence chunkSize, 0 < chunkSize →
    ∃ report, verifyChain digest table fromSequence toSequence chunkSize = .ok report ∧ report.valid = true

theorem valid_iff (table : AuditTable) : Valid digest table ↔ Chained digest (inOrder table) := by
  constructor
  · intro valid
    obtain ⟨low, whole⟩ := span_whole table
    obtain ⟨report, both⟩ := valid low none 1 Nat.one_pos
    rw [← whole]
    exact ((valid_iff_chained Nat.one_pos).mp both).1
  · intro chained fromSequence toSequence chunkSize positive
    have inside := span_within table fromSequence toSequence
    refine ⟨_, (valid_iff_chained positive).mpr ⟨⟨fun row member => chained.1 row (inside.subset member), ?_⟩, rfl⟩⟩
    exact List.IsChain.infix chained.2 inside

/-- Retention leaves a valid chain valid if and only if it leaves no gap: the row deleted
just before one that stays has the hash of the row before it that stays, if there is one. -/
theorem retention_valid_iff {result : RetentionResult} (valid : Valid digest table)
    (ran : (apply now policy).on table = (.ok result, after)) :
    ∃ cutoff, ageCutoff now policy = .ok cutoff ∧
      (Valid digest after ↔ HashChain.Gapless AuditRow.hash (stays table cutoff policy.maxEntries) (inOrder table)) := by
  obtain ⟨cutoff, change, aged, unsealed, left⟩ := apply_ok ran
  have chained := (valid_iff table).mp valid
  refine ⟨cutoff, aged, ?_⟩
  rw [valid_iff, left, chained_map unsealed, ← HashChain.filter_chain_iff chained.2]
  constructor
  · exact fun whole => whole.2
  · exact fun linked => ⟨fun row member => chained.1 row (List.mem_of_mem_filter member), linked⟩

/-- Where no row is written with an earlier time than the row before it, a valid chain
stays valid under every policy. -/
theorem retention_keeps_valid {result : RetentionResult} (valid : Valid digest table)
    (clocked : (inOrder table).Pairwise fun first second => first.timestamp ≤ second.timestamp)
    (ran : (apply now policy).on table = (.ok result, after)) : Valid digest after := by
  obtain ⟨cutoff, -, same⟩ := retention_valid_iff valid ran
  apply same.mpr
  apply HashChain.gapless_of_rising
  refine (clocked.and (inOrder_sorted table)).imp fun {first second} ordered remains => ?_
  obtain ⟨early, less⟩ := ordered
  unfold stays at remains ⊢
  obtain ⟨young, new⟩ := Bool.and_eq_true_iff.mp remains
  apply Bool.and_eq_true_iff.mpr
  constructor
  · cases cutoff with
    | none => rfl
    | some text =>
      have bound : ¬ first.timestamp < text := by simpa [recent] using young
      have bound' : ¬ second.timestamp < text := fun older => bound (early.trans_lt older)
      simpa [recent] using bound'
  · cases last : policy.maxEntries.bind (cutoffRow (table.delete fun row => !recent cutoff row)) with
    | none => rfl
    | some last' =>
      rw [last] at new
      have bound : last'.sequence < first.sequence := by simpa using new
      simpa using bound.trans less

section Sample

/-- The letters and digits of a text. -/
def letters : Digest where
  hash text := String.ofList (text.toList.filter Char.isAlphanum)
  ascii text := by
    rw [String.toList_ofList, List.all_eq_true]
    exact fun c member => (List.mem_filter.mp member).2

def entry (sequence : Int) (timestamp previousHash : String) : AuditRow :=
  let row : AuditRow := ⟨"e", sequence, "alice", "create", "document", "d", none, timestamp, none, none, "{}", none, "", previousHash⟩
  { row with hash := row.computeHash letters }

def opened : AuditRow := entry 1 "2026-03-01T00:00:00+00:00" ""

def middle (timestamp : String) : AuditRow := entry 2 timestamp opened.hash

def closed (timestamp : String) : AuditRow := entry 3 "2026-03-03T00:00:00+00:00" (middle timestamp).hash

def trail (timestamp : String) : AuditTable :=
  ⟨[opened, middle timestamp, closed timestamp], show [(1 : Int), 2, 3].Nodup by decide⟩

def tenth : Moment := .of 63908697600000000 (by decide)

theorem trail_inOrder (timestamp : String) : inOrder (trail timestamp) = [opened, middle timestamp, closed timestamp] :=
  inOrder_unique (List.Perm.refl _) (by simp [opened, middle, closed, entry])

theorem trail_valid (timestamp : String) : Valid letters (trail timestamp) := by
  rw [valid_iff, trail_inOrder]
  refine ⟨?_, ?_⟩
  · simp [opened, middle, closed, entry, Sealed, AuditRow.computeHash, AuditRow.payload]
  · simp [middle, closed, entry]

def weekly (days : Int) : RetentionPolicy := ⟨some days, none, false, true⟩

theorem verifyChain_pages_trail : verifyChain letters (trail "2026-03-02T00:00:00+00:00") 1 none 1 =
    verifyChain letters (trail "2026-03-02T00:00:00+00:00") 1 none 2 :=
  verifyChain_pages (by decide) (by decide)

theorem valid_iff_chained_trail :
    (verifyChain letters (trail "2026-03-02T00:00:00+00:00") 2 (some 3) 1 = .ok ⟨true, 2, 2, 3, none⟩ ∧ true = true) ↔
      Chained letters (span (trail "2026-03-02T00:00:00+00:00") 2 (some 3)) ∧
        ⟨true, 2, 2, 3, none⟩ = wholeReport (span (trail "2026-03-02T00:00:00+00:00") 2 (some 3)) :=
  valid_iff_chained (by decide)

private theorem letters_ascii (text : String) : Ascii (letters.hash text) := by
  apply List.all_eq_true.mpr
  intro c member
  exact isAscii_of_isAlphanum (List.all_eq_true.mp (letters.ascii text) c member)

/-- The second row of the trail, with its hash wiped out. -/
def wiped : AuditRow := { middle "2026-03-02T00:00:00+00:00" with hash := "" }

def tampered : AuditTable :=
  ⟨[opened, wiped, closed "2026-03-02T00:00:00+00:00"], show [(1 : Int), 2, 3].Nodup by decide⟩

private theorem span_tampered : span tampered 1 none = [opened, wiped, closed "2026-03-02T00:00:00+00:00"] := by
  have inOrder : inOrder tampered = [opened, wiped, closed "2026-03-02T00:00:00+00:00"] :=
    inOrder_unique (List.Perm.refl _) (by simp [opened, wiped, middle, closed, entry])
  unfold span upTo
  rw [inOrder]
  rfl

private theorem tampered_ascii : ∀ row ∈ span tampered 1 none, Ascii row.hash ∧ Ascii row.previousHash := by
  intro row member
  rw [span_tampered] at member
  simp only [List.mem_cons, List.not_mem_nil, or_false] at member
  obtain rfl | rfl | rfl := member
  · exact ⟨letters_ascii _, rfl⟩
  · exact ⟨rfl, letters_ascii _⟩
  · exact ⟨letters_ascii _, letters_ascii _⟩

private theorem wiped_broken : ¬ Sealed letters wiped := by
  intro whole
  have empty : [] = wiped.payload.toList.filter Char.isAlphanum := by
    rw [← String.toList_ofList (l := wiped.payload.toList.filter Char.isAlphanum)]
    exact congrArg String.toList whole
  have inside : 'e' ∈ wiped.payload.toList.filter Char.isAlphanum :=
    List.mem_filter.mpr ⟨by simp [wiped, middle, entry, AuditRow.payload], by decide⟩
  rw [← empty] at inside
  cases inside

/-- The report names the row that was overwritten. -/
theorem verifyChain_blames_trail : verifyChain letters tampered 1 none 2 = .ok (brokenReport [opened] wiped) := by
  obtain ⟨report, ran, blamed⟩ := verifyChain_blames (show 0 < 2 by decide) tampered_ascii
  have invalid : report.valid = false := by
    refine Bool.eq_false_iff.mpr fun valid => ?_
    rw [verifyChain_eq letters tampered 1 none (by decide)] at ran
    have chained := (reported_valid_iff.mp ⟨ran, valid⟩).1
    rw [span_tampered] at chained
    exact wiped_broken (chained.1 wiped (by simp))
  obtain ⟨before, row, after, split, chained, broken, rfl⟩ := blamed invalid
  rw [span_tampered] at split
  cases before with
  | nil =>
    obtain ⟨rfl, -⟩ := List.cons.inj split
    exact absurd ⟨fun row member => List.mem_singleton.mp member ▸ rfl, .singleton opened⟩ broken
  | cons first before =>
    obtain ⟨rfl, rest⟩ := List.cons.inj split
    cases before with
    | nil =>
      obtain ⟨rfl, -⟩ := List.cons.inj rest
      exact ran
    | cons second before =>
      obtain ⟨rfl, -⟩ := List.cons.inj rest
      exact absurd (chained.1 wiped (by simp)) wiped_broken

private theorem weekly_returns (timestamp : String) (days : Int)
    (returned : ((apply tenth (weekly days)).on (trail timestamp)).1.isOk = true) :
    ∃ result, (apply tenth (weekly days)).on (trail timestamp) =
      (.ok result, ((apply tenth (weekly days)).on (trail timestamp)).2) := by
  cases ran : (apply tenth (weekly days)).on (trail timestamp) with
  | mk result after =>
    rw [ran] at returned
    cases result with
    | ok result => exact ⟨result, rfl⟩
    | error error => cases returned

/-- The clock of the second writer is behind by a month, and its row goes from between the others. -/
theorem retention_valid_iff_unsynchronised :
    ¬ Valid letters ((apply tenth (weekly 30)).on (trail "2026-02-01T00:00:00+00:00")).2 := by
  obtain ⟨result, ran⟩ := weekly_returns "2026-02-01T00:00:00+00:00" 30 (by decide +kernel)
  obtain ⟨cutoff, aged, same⟩ := retention_valid_iff (trail_valid _) ran
  have known : (ageCutoff tenth (weekly 30)).toOption = some (some "2026-02-08T00:00:00+00:00") := by decide +kernel
  rw [aged] at known
  cases known
  intro valid
  have gapless := same.mp valid
  rw [trail_inOrder] at gapless
  have joined := gapless [] opened [] (middle "2026-02-01T00:00:00+00:00") (closed "2026-02-01T00:00:00+00:00") [] rfl
    (by decide +kernel) (fun _ member => absurd member List.not_mem_nil) (by decide +kernel) (by decide +kernel)
  exact absurd joined (by decide +kernel)

theorem retention_keeps_valid_weekly :
    Valid letters ((apply tenth (weekly 8)).on (trail "2026-03-02T00:00:00+00:00")).2 := by
  obtain ⟨result, ran⟩ := weekly_returns "2026-03-02T00:00:00+00:00" 8 (by decide +kernel)
  refine retention_keeps_valid (trail_valid _) ?_ ran
  rw [trail_inOrder]
  simp only [List.pairwise_cons, List.mem_cons, List.not_mem_nil, or_false, forall_eq_or_imp, forall_eq, false_implies,
    implies_true, List.Pairwise.nil, and_true]
  decide +kernel

end Sample
end AuditRetention
end PyScoped.Legacy
