import PyScoped.Legacy.AuditTrail

/-! What a verified audit trail determines. The walk over pages is one walk over
the table, a verified table is a chain of sealed entries, and the hash of the
last entry fixes the whole table up to bars inside free-text columns. -/

namespace PyScoped.Legacy.AuditQuery
open Foundation

variable {hash : String → String}

/-- The stored hash of an entry is the hash of its own payload. -/
def Sealed (hash : String → String) (entry : VerificationEntry) : Prop := entry.hash = entry.computeHash hash

/-- Entries lead from one hash to another through their previous hashes. -/
abbrev Chain (hash : String → String) (start : String) (entries : List VerificationEntry) (head : String) : Prop :=
  HashChain.Linked VerificationEntry.hash VerificationEntry.previousHash (Sealed hash) start entries head

variable {progress : Progress} {entry : VerificationEntry}

private theorem verifyEntry_ok {after : Progress} (passed : verifyEntry hash progress entry = .ok after) :
    Sealed hash entry ∧ (∀ previous ∈ progress.previous, entry.previousHash = previous) ∧
      after.last = entry.sequence ∧ after.previous = some entry.hash := by
  unfold verifyEntry at passed
  split at passed
  · cases passed
  next sealed =>
    split at passed
    · cases passed
    next linked =>
      cases passed
      refine ⟨not_not.mp sealed, ?_, rfl, rfl⟩
      intro previous member
      rw [Option.mem_def] at member
      simpa [member] using linked

private theorem verifyEntry_error {broken : ChainVerification}
    (failed : verifyEntry hash progress entry = .error broken) : broken.valid = false := by
  unfold verifyEntry at failed
  split at failed
  · cases failed; rfl
  · split at failed <;> cases failed
    rfl

variable {entries : List VerificationEntry}

private theorem walk_error {broken : ChainVerification}
    (failed : entries.foldlM (verifyEntry hash) progress = .error broken) : broken.valid = false := by
  induction entries generalizing progress with
  | nil => cases failed
  | cons entry entries ih =>
    rw [List.foldlM_cons] at failed
    cases stepped : verifyEntry hash progress entry with
    | error reported => rw [stepped] at failed; cases failed; exact verifyEntry_error stepped
    | ok next => rw [stepped] at failed; exact ih failed

private theorem walk_linked {after : Progress} {previous : String} (held : progress.previous = some previous)
    (passed : entries.foldlM (verifyEntry hash) progress = .ok after) :
    ∃ head, Chain hash previous entries head := by
  induction entries generalizing progress previous with
  | nil => exact ⟨previous, rfl⟩
  | cons entry entries ih =>
    rw [List.foldlM_cons] at passed
    cases stepped : verifyEntry hash progress entry with
    | error broken => rw [stepped] at passed; cases passed
    | ok next =>
      rw [stepped] at passed
      obtain ⟨sealed, linked, _, last⟩ := verifyEntry_ok stepped
      obtain ⟨head, chain⟩ := ih last passed
      exact ⟨head, linked previous held, sealed, chain⟩

private theorem walk_last {after : Progress}
    (passed : (entries ++ [entry]).foldlM (verifyEntry hash) progress = .ok after) :
    after.last = entry.sequence := by
  rw [List.foldlM_append] at passed
  cases walked : entries.foldlM (verifyEntry hash) progress with
  | error broken => rw [walked] at passed; cases passed
  | ok middle =>
    rw [walked] at passed
    cases stepped : verifyEntry hash middle entry with
    | error broken => simp [stepped, bind, Except.bind] at passed
    | ok last =>
      have same : last = after := by simpa [walked, stepped, bind, Except.bind, pure, Except.pure] using passed
      exact same ▸ (verifyEntry_ok stepped).2.2.1

theorem inOrder_length (trail : List VerificationEntry) : (inOrder trail).length = trail.length :=
  List.length_mergeSort _

variable {trail : List VerificationEntry}

theorem Contiguous.sequence (contiguous : Contiguous trail) (index : Nat)
    (inside : index < (inOrder trail).length) : (inOrder trail)[index].sequence = index + 1 := by
  have mapped : ((inOrder trail).map (·.sequence)).get ⟨index, by simpa using inside⟩ = index + 1 := by
    simp only [show (inOrder trail).map (·.sequence) = _ from contiguous, List.get_eq_getElem, List.getElem_range',
      one_mul]
    omega
  simpa using mapped

private theorem page_eq (contiguous : Contiguous trail) (done chunkSize : Nat) :
    page trail (done + 1) none chunkSize = ((inOrder trail).drop done).take chunkSize := by
  have before : ∀ entry ∈ (inOrder trail).take done, ¬ done + 1 ≤ entry.sequence := by
    intro entry member
    obtain ⟨index, inside, rfl⟩ := List.mem_iff_getElem.mp member
    rw [List.length_take] at inside
    rw [List.getElem_take, contiguous.sequence index (by omega)]
    omega
  have after : ∀ entry ∈ (inOrder trail).drop done, done + 1 ≤ entry.sequence := by
    intro entry member
    obtain ⟨index, inside, rfl⟩ := List.mem_iff_getElem.mp member
    rw [List.length_drop] at inside
    rw [List.getElem_drop, contiguous.sequence (done + index) (by omega)]
    omega
  unfold page
  congr 1
  simp only [Option.all_none, Bool.and_true]
  conv_lhs => rw [← List.take_append_drop done (inOrder trail)]
  rw [List.filter_append, List.filter_eq_nil_iff.mpr (fun entry member => by simpa using before entry member),
    List.filter_eq_self.mpr (fun entry member => by simpa using after entry member), List.nil_append]

/-- The rounds over pages make one walk over the rest of the table. The number
of entries still ahead bounds the rounds that are needed. -/
private theorem verifyPages_eq (contiguous : Contiguous trail) {chunkSize : Nat}
    (positive : 0 < chunkSize) (rounds done : Nat) (progress : Progress)
    (enough : (inOrder trail).length - done < rounds) :
    verifyPages hash trail none chunkSize rounds (done + 1) progress =
      ((inOrder trail).drop done).foldlM (verifyEntry hash) progress := by
  induction rounds generalizing done progress with
  | zero => omega
  | succ rounds ih =>
    unfold verifyPages
    rw [page_eq contiguous]
    cases selected : ((inOrder trail).drop done).take chunkSize with
    | nil =>
      have empty : (inOrder trail).drop done = [] := by
        rcases List.take_eq_nil_iff.mp selected with zero | empty
        · omega
        · exact empty
      rw [empty]; rfl
    | cons entry entries =>
      have count : (entry :: entries).length = min chunkSize ((inOrder trail).length - done) := by
        rw [← selected, List.length_take, List.length_drop]
      have whole : (inOrder trail).drop done = (entry :: entries) ++ (inOrder trail).drop (done + chunkSize) := by
        conv_lhs => rw [← List.take_append_drop chunkSize ((inOrder trail).drop done), selected]
        rw [List.drop_drop]
      rw [whole, List.foldlM_append]
      cases walked : (entry :: entries).foldlM (verifyEntry hash) progress with
      | error broken => simp only [walked]; rfl
      | ok middle =>
        simp only [walked, bind, Except.bind]
        split
        next short =>
          have finished : (inOrder trail).drop (done + chunkSize) = [] := List.drop_eq_nil_of_le (by omega)
          rw [finished]; rfl
        next full =>
          have last : middle.last = done + chunkSize := by
            have position : done + (chunkSize - 1) < (inOrder trail).length := by omega
            have split : entry :: entries = (entry :: entries).dropLast ++ [(inOrder trail)[done + (chunkSize - 1)]] := by
              conv_lhs => rw [← List.dropLast_concat_getLast (List.cons_ne_nil entry entries)]
              congr 2
              rw [List.getLast_eq_getElem]
              simp only [← selected, List.getElem_take, List.getElem_drop]
              congr 1
              rw [selected, count]
              omega
            rw [split] at walked
            rw [walk_last walked, contiguous.sequence _ position]
            omega
          rw [last]
          exact ih (done + chunkSize) middle (by omega)

private theorem walk_complete {start head : String}
    (allowed : ∀ previous ∈ progress.previous, previous = start) (chain : Chain hash start entries head) :
    ∃ after, entries.foldlM (verifyEntry hash) progress = .ok after := by
  induction entries generalizing progress start with
  | nil => exact ⟨progress, rfl⟩
  | cons entry entries ih =>
    obtain ⟨linked, sealed, chain⟩ := chain
    have unbroken : progress.previous.any (fun previous => entry.previousHash != previous) = false := by
      cases held : progress.previous with
      | none => rfl
      | some previous => simpa [allowed previous held] using linked
    have stepped : verifyEntry hash progress entry = .ok ⟨progress.checked + 1,
        some (progress.first.getD entry.sequence), entry.sequence, some entry.hash⟩ := by
      simp only [verifyEntry]
      rw [if_neg (show ¬ entry.hash ≠ entry.computeHash hash from not_not.mpr sealed), if_neg (by simp [unbroken])]
    rw [List.foldlM_cons, stepped]
    exact ih (by simp) chain

/-- On a contiguous table with an unlinked first entry, a report of validity is
the existence of a chain of sealed entries from the empty hash. -/
theorem verifyChain_valid_iff (contiguous : Contiguous trail) (rooted : Rooted trail)
    {chunkSize : Nat} (positive : 0 < chunkSize) :
    (verifyChain hash trail 1 none chunkSize).valid = true ↔ ∃ head, Chain hash "" (inOrder trail) head := by
  unfold verifyChain
  rw [verifyPages_eq contiguous positive _ 0 _ (by rw [inOrder_length]; omega), List.drop_zero]
  constructor
  · intro valid
    cases walked : (inOrder trail).foldlM (verifyEntry hash) ⟨0, none, 0, none⟩ with
    | error broken =>
      rw [walked] at valid
      exact absurd valid (by simp [walk_error walked])
    | ok after =>
      cases entries : inOrder trail with
      | nil => exact ⟨"", rfl⟩
      | cons entry rest =>
        rw [entries, List.foldlM_cons] at walked
        cases stepped : verifyEntry hash ⟨0, none, 0, none⟩ entry with
        | error broken => rw [stepped] at walked; cases walked
        | ok next =>
          rw [stepped] at walked
          obtain ⟨sealed, _, _, last⟩ := verifyEntry_ok stepped
          obtain ⟨head, chain⟩ := walk_linked last walked
          exact ⟨head, rooted entry (by simp [entries]), sealed, chain⟩
  · intro ⟨head, chain⟩
    have allowed : ∀ previous ∈ (⟨0, none, 0, none⟩ : Progress).previous, previous = "" := by simp
    obtain ⟨after, walked⟩ := walk_complete allowed chain
    rw [walked]

theorem chain_tip {start head : String}
    (chain : Chain hash start entries head) : ∀ last ∈ entries.getLast?, head = last.hash := by
  intro last member
  cases entries using List.reverseRecOn with
  | nil => simp at member
  | append_singleton entries entry =>
    obtain ⟨_, _, same⟩ := (HashChain.linked_concat entries entry).mp chain
    simp only [List.getLast?_append, List.getLast?_singleton, Option.some_or, Option.mem_some_iff] at member
    exact member ▸ same

/-- The eight columns that two tables are compared on. -/
structure Agree (first second : VerificationEntry) : Prop where
  id : first.id = second.id
  sequence : first.sequence = second.sequence
  actorId : first.actorId = second.actorId
  action : first.action.value = second.action.value
  targetType : first.targetType = second.targetType
  targetId : first.targetId = second.targetId
  timestamp : first.timestamp.isoformat = second.timestamp.isoformat
  previousHash : first.previousHash = second.previousHash

/-- The columns that callers choose freely have bars in the same numbers. -/
structure SameBars (first second : VerificationEntry) : Prop where
  actorId : first.actorId.toList.count '|' = second.actorId.toList.count '|'
  targetType : first.targetType.toList.count '|' = second.targetType.toList.count '|'
  targetId : first.targetId.toList.count '|' = second.targetId.toList.count '|'

variable {first second : VerificationEntry}

theorem Agree.sameBars (agree : Agree first second) : SameBars first second :=
  ⟨by rw [agree.actorId], by rw [agree.targetType], by rw [agree.targetId]⟩

private theorem payload_fields (entry : VerificationEntry) : entry.payload.toList = Fields.join '|'
    [entry.id.text.toList, Nat.toDigits 10 entry.sequence, entry.actorId.toList, entry.action.value.toList,
      entry.targetType.toList, entry.targetId.toList, entry.timestamp.isoformat] entry.previousHash.toList := by
  simp [VerificationEntry.payload, Fields.join, Nat.toList_repr]

private theorem id_plain (id : ScopedId) : '|' ∉ id.text.toList := by
  intro member
  have hex := id.hex _ member
  revert hex
  decide

private theorem digits_plain (n : Nat) : '|' ∉ Nat.toDigits 10 n := by
  intro member
  have digit := Nat.isDigit_of_mem_toDigits (by decide) (by decide) member
  revert digit
  decide

private theorem action_plain (action : ActionType) : '|' ∉ action.value.toList := by
  intro member
  have word := List.all_eq_true.mp action.value_chars _ member
  revert word
  decide

private theorem timestamp_plain (timestamp : DateTime) : '|' ∉ timestamp.isoformat := by
  intro member
  have text := timestamp.isoformat_chars _ member
  revert text
  decide

private theorem digits_inj {n m : Nat} (same : Nat.toDigits 10 n = Nat.toDigits 10 m) : n = m := by
  apply Nat.repr_injective
  rw [← String.toList_inj, Nat.toList_repr, Nat.toList_repr, same]

/-- Identifier and sequence number come before any free text, so every payload
gives them back. -/
theorem payload_sequence (same : first.payload = second.payload) :
    first.id = second.id ∧ first.sequence = second.sequence := by
  have joined := congrArg String.toList same
  rw [payload_fields, payload_fields] at joined
  obtain ⟨id, rest⟩ := Fields.field_unique_of_not_mem (id_plain _) (id_plain _) joined
  obtain ⟨digits, _⟩ := Fields.field_unique_of_not_mem (digits_plain _) (digits_plain _) rest
  exact ⟨ScopedId.ext (String.toList_inj.mp id), digits_inj digits⟩

theorem payload_agree (bars : SameBars first second)
    (same : first.payload = second.payload) : Agree first second := by
  obtain ⟨id, sequence⟩ := payload_sequence same
  have joined := congrArg String.toList same
  rw [payload_fields, payload_fields] at joined
  have plain : ∀ {field field' : List Char}, '|' ∉ field → '|' ∉ field' → field.count '|' = field'.count '|' :=
    fun absent absent' => (List.count_eq_zero.mpr absent).trans (List.count_eq_zero.mpr absent').symm
  obtain ⟨fields, previous⟩ := Fields.join_inj '|'
    (.cons (plain (id_plain _) (id_plain _)) (.cons (plain (digits_plain _) (digits_plain _))
      (.cons bars.actorId (.cons (plain (action_plain _) (action_plain _)) (.cons bars.targetType
        (.cons bars.targetId (.cons (plain (timestamp_plain _) (timestamp_plain _)) .nil))))))) joined
  simp only [List.cons.injEq, and_true, String.toList_inj] at fields previous
  obtain ⟨_, _, actor, action, targetType, targetId, timestamp⟩ := fields
  exact ⟨id, sequence, actor, action, targetType, targetId, timestamp, previous⟩

/-- Tables with one tip have one length: the last payload names the last
sequence number, which is the number of entries. -/
private theorem tip_length {trail' : List VerificationEntry}
    (injective : Set.InjOn hash (Set.range VerificationEntry.payload))
    (contiguous : Contiguous trail) (contiguous' : Contiguous trail') {head head' : String}
    (chain : Chain hash "" (inOrder trail) head) (chain' : Chain hash "" (inOrder trail') head')
    (tips : tip trail = tip trail') : (inOrder trail).length = (inOrder trail').length := by
  cases entries : inOrder trail using List.reverseRecOn with
  | nil =>
    cases entries' : inOrder trail' using List.reverseRecOn with
    | nil => rfl
    | append_singleton _ _ => simp [tip, entries, entries'] at tips
  | append_singleton before last =>
    cases entries' : inOrder trail' using List.reverseRecOn with
    | nil => simp [tip, entries, entries'] at tips
    | append_singleton before' last' =>
      have hashes : last.hash = last'.hash := by simpa [tip, entries, entries'] using tips
      rw [entries] at chain
      rw [entries'] at chain'
      have sealed := chain.sealed last (by simp)
      have sealed' := chain'.sealed last' (by simp)
      have payloads := injective ⟨last, rfl⟩ ⟨last', rfl⟩ (sealed.symm.trans (hashes.trans sealed'))
      have number : last.sequence = before.length + 1 := by
        have := contiguous.sequence before.length (by simp [entries])
        simpa [entries] using this
      have number' : last'.sequence = before'.length + 1 := by
        have := contiguous'.sequence before'.length (by simp [entries'])
        simpa [entries'] using this
      have := (payload_sequence payloads).2
      simp only [List.length_append, List.length_singleton]
      omega

/-- Two verified tables with one tip are the same table if and only if, entry
by entry, their free-text columns contain bars in the same numbers. -/
theorem same_tip_agree_iff {trail trail' : List VerificationEntry}
    (injective : Set.InjOn hash (Set.range VerificationEntry.payload))
    (contiguous : Contiguous trail) (contiguous' : Contiguous trail') (rooted : Rooted trail) (rooted' : Rooted trail')
    (valid : (verifyChain hash trail).valid = true) (valid' : (verifyChain hash trail').valid = true)
    (tips : tip trail = tip trail') :
    List.Forall₂ Agree (inOrder trail) (inOrder trail') ↔
      ∀ pair ∈ (inOrder trail).zip (inOrder trail'), SameBars pair.1 pair.2 := by
  constructor
  · intro agree pair member
    exact (List.forall₂_zip agree member).sameBars
  · intro bars
    obtain ⟨head, chain⟩ := (verifyChain_valid_iff contiguous rooted (by decide)).mp valid
    obtain ⟨head', chain'⟩ := (verifyChain_valid_iff contiguous' rooted' (by decide)).mp valid'
    have lengths := tip_length injective contiguous contiguous' chain chain' tips
    have heads : head = head' := by
      cases last : (inOrder trail).getLast? with
      | none =>
        have empty : inOrder trail = [] := List.getLast?_eq_none_iff.mp last
        have empty' : inOrder trail' = [] := List.length_eq_zero_iff.mp (by rw [← lengths, empty]; rfl)
        rw [empty] at chain
        rw [empty'] at chain'
        exact chain.trans chain'.symm
      | some entry =>
        have same := tips
        simp only [tip, last, Option.map_some] at same
        obtain ⟨entry', last', hashes⟩ := Option.map_eq_some_iff.mp same.symm
        rw [chain_tip chain entry last, chain_tip chain' entry' last', hashes]
    subst heads
    apply HashChain.Linked.agree chain chain' lengths
    intro pair member sealed sealed' hashes
    have payloads := injective ⟨pair.1, rfl⟩ ⟨pair.2, rfl⟩ (sealed.symm.trans (hashes.trans sealed'))
    have agree := payload_agree (bars pair member) payloads
    exact ⟨agree.previousHash, agree⟩

/-- A table of one entry, recorded about a target of free choice under the
identity as hash. -/
def firstEntry (targetType targetId : String) : VerificationEntry :=
  let unsealed : VerificationEntry := {
    id := ⟨String.ofList (List.replicate 32 '0'), by simp, by rw [String.length_ofList, List.length_replicate]⟩
    sequence := 1
    actorId := "alice"
    action := .update
    targetType := targetType
    targetId := targetId
    timestamp := ⟨2026, 1, 2, 3, 4, 5, 6, by decide⟩
    hash := ""
    previousHash := "" }
  { unsealed with hash := unsealed.payload }

private theorem inOrder_singleton (entry : VerificationEntry) : inOrder [entry] = [entry] := List.mergeSort_singleton _

private theorem firstEntry_contiguous (targetType targetId : String) : Contiguous [firstEntry targetType targetId] := by
  rw [Contiguous, inOrder_singleton]; rfl

private theorem firstEntry_rooted (targetType targetId : String) : Rooted [firstEntry targetType targetId] := by
  rw [Rooted, inOrder_singleton]
  rintro entry ⟨⟩
  rfl

private theorem firstEntry_valid (targetType targetId : String) :
    (verifyChain id [firstEntry targetType targetId]).valid = true := by
  apply (verifyChain_valid_iff (firstEntry_contiguous _ _) (firstEntry_rooted _ _) (by decide)).mpr
  rw [inOrder_singleton]
  exact ⟨_, rfl, rfl, rfl⟩

theorem same_tip_agree_iff_document : List.Forall₂ Agree
      (inOrder [firstEntry "Document" "doc-1"]) (inOrder [firstEntry "Document" "doc-1"]) ↔
    ∀ pair ∈ (inOrder [firstEntry "Document" "doc-1"]).zip (inOrder [firstEntry "Document" "doc-1"]),
      SameBars pair.1 pair.2 :=
  same_tip_agree_iff (Set.injOn_id _) (firstEntry_contiguous _ _) (firstEntry_contiguous _ _)
    (firstEntry_rooted _ _) (firstEntry_rooted _ _) (firstEntry_valid _ _) (firstEntry_valid _ _) rfl

/-- A bar moved from one free column into the next leaves the payload, and so
the tip, unchanged. -/
theorem same_tip_not_same_trail : ¬ ∀ (hash : String → String) (trail trail' : List VerificationEntry),
    Set.InjOn hash (Set.range VerificationEntry.payload) → Contiguous trail → Contiguous trail' →
    Rooted trail → Rooted trail' → (verifyChain hash trail).valid = true → (verifyChain hash trail').valid = true →
    tip trail = tip trail' → List.Forall₂ Agree (inOrder trail) (inOrder trail') := by
  intro claim
  have agree := claim id [firstEntry "Folder|Document" "doc-1"] [firstEntry "Folder" "Document|doc-1"] (Set.injOn_id _)
    (firstEntry_contiguous _ _) (firstEntry_contiguous _ _) (firstEntry_rooted _ _) (firstEntry_rooted _ _)
    (firstEntry_valid _ _) (firstEntry_valid _ _) (by simp only [tip, inOrder_singleton]; decide +kernel)
  simp only [inOrder_singleton, List.forall₂_cons] at agree
  exact absurd agree.1.targetType (by decide)

end PyScoped.Legacy.AuditQuery
