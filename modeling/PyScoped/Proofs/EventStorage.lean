import PyScoped.Core.EventStorage
import PyScoped.Proofs.HistoryVerification

/-! A digest is taken over the values in the process and checked over the values
read back. It survives where the database's notations give the same text. -/

namespace PyScoped
open Foundation

/-- The clock up to its seconds. -/
private def wholeSeconds (d : DateTime) : List Char :=
  DateTime.pad 4 d.year ++ '-' :: (DateTime.pad 2 d.month ++ '-' :: (DateTime.pad 2 d.day ++ 'T' ::
    (DateTime.pad 2 d.hour ++ ':' :: (DateTime.pad 2 d.minute ++ ':' :: DateTime.pad 2 d.second))))

private theorem wholeSeconds_length (d : DateTime) : (wholeSeconds d).length = 19 := by simp [wholeSeconds]

private def milliseconds (d : DateTime) : List Char :=
  if d.microsecond = 0 then [] else '.' :: (DateTime.pad 6 d.microsecond).take 3

private def zoneText (offset : UtcOffset) : List Char :=
  if offset.format = ['+', '0', '0', ':', '0', '0'] then ['Z'] else offset.format

private theorem reading_eq (d : DateTime) :
    d.reading = wholeSeconds d ++ (if d.microsecond = 0 then [] else '.' :: DateTime.pad 6 d.microsecond) := by
  simp [DateTime.reading, wholeSeconds]

private theorem suffix_eq {text : List Char} (before tail : List Char) (suffix : text <:+ before ++ tail)
    (length : tail.length = text.length) : text = tail :=
  (List.suffix_of_suffix_length_le suffix (List.suffix_append before tail) (by omega)).eq_of_length length.symm

private theorem utc_isSuffixOf (before : List Char) (offset : UtcOffset) :
    ['+', '0', '0', ':', '0', '0'].isSuffixOf (before ++ offset.format) = true ↔
      offset.format = ['+', '0', '0', ':', '0', '0'] := by
  rw [List.isSuffixOf_iff_suffix]
  constructor
  · intro suffix
    by_cases whole : offset.seconds = 0 ∧ offset.microseconds = 0
    · exact (suffix_eq _ _ suffix (by simp [UtcOffset.format, whole])).symm
    · exfalso
      by_cases fraction : offset.microseconds = 0
      · -- The last six characters are the minutes and the seconds.
        have seconds : offset.seconds ≠ 0 := fun none => whole ⟨none, fraction⟩
        have tail := suffix_eq (before ++ (if offset.negative then '-' else '+') :: DateTime.pad 2 offset.hours)
          (':' :: (DateTime.pad 2 offset.minutes ++ ':' :: DateTime.pad 2 offset.seconds))
          (by simpa [UtcOffset.format, seconds, fraction] using suffix) (by simp)
        cases (List.cons.inj tail).1
      · have tail := suffix_eq (before ++ (if offset.negative then '-' else '+') :: (DateTime.pad 2 offset.hours ++ ':' ::
            (DateTime.pad 2 offset.minutes ++ ':' :: (DateTime.pad 2 offset.seconds ++ ['.']))))
          (DateTime.pad 6 offset.microseconds)
          (by simpa [UtcOffset.format, whole, fraction] using suffix) (by simp)
        exact absurd (DateTime.pad_isDigit 6 offset.microseconds '+' (tail ▸ List.mem_cons_self)) (by decide)
  · intro same
    rw [same]
    exact List.suffix_append _ _

private theorem encodeDateTime_eq (d : DateTime) (offset : UtcOffset) :
    encodeDateTime ⟨d, some offset⟩ = wholeSeconds d ++ (milliseconds d ++ zoneText offset) := by
  have cut : (if d.microsecond = 0 then d.reading ++ offset.format
      else (d.reading ++ offset.format).take 23 ++ (d.reading ++ offset.format).drop 26) =
      (wholeSeconds d ++ milliseconds d) ++ offset.format := by
    rw [reading_eq, milliseconds]
    split
    · simp
    · have parts : wholeSeconds d ++ '.' :: DateTime.pad 6 d.microsecond ++ offset.format =
          (wholeSeconds d ++ '.' :: (DateTime.pad 6 d.microsecond).take 3) ++
            ((DateTime.pad 6 d.microsecond).drop 3 ++ offset.format) := by
        simp only [List.append_assoc, List.cons_append, ← List.append_assoc (List.take 3 _), List.take_append_drop]
      have all : wholeSeconds d ++ '.' :: DateTime.pad 6 d.microsecond ++ offset.format =
          (wholeSeconds d ++ '.' :: DateTime.pad 6 d.microsecond) ++ offset.format := rfl
      rw [all, List.drop_left' (by simp [wholeSeconds_length]), ← all, parts,
        List.take_left' (by simp [wholeSeconds_length])]
  unfold encodeDateTime
  dsimp only [Timestamp.isoformat, Option.elim]
  rw [cut]
  by_cases utc : offset.format = ['+', '0', '0', ':', '0', '0']
  · rw [if_pos ((utc_isSuffixOf _ offset).mpr utc), zoneText, if_pos utc, utc, List.take_left' (by simp; omega)]
    simp
  · rw [if_neg (mt (utc_isSuffixOf _ offset).mp utc), zoneText, if_neg utc, List.append_assoc]

private theorem zoneText_head (offset : UtcOffset) : (zoneText offset).head? ≠ some '.' := by
  unfold zoneText
  split
  · decide
  · simp only [UtcOffset.format, List.head?_cons]
    split <;> decide

private theorem zoneText_inj {first second : UtcOffset} (same : zoneText first = zoneText second) : first = second := by
  have lead (offset : UtcOffset) : ['Z'] ≠ offset.format := by
    intro same
    have heads := (List.cons.inj same).1
    split at heads <;> cases heads
  unfold zoneText at same
  split at same <;> split at same
  next utc utc' => exact UtcOffset.format_inj (utc.trans utc'.symm)
  · exact absurd same (lead second)
  · exact absurd same.symm (lead first)
  · exact UtcOffset.format_inj same

theorem encodeDateTime_offset {first second : Aware}
    (same : encodeDateTime first.timestamp = encodeDateTime second.timestamp) : first.offset = second.offset := by
  rw [Aware.timestamp, Aware.timestamp, encodeDateTime_eq, encodeDateTime_eq] at same
  have tails := (List.append_inj same (by rw [wholeSeconds_length, wholeSeconds_length])).2
  refine Offset.toUtcOffset_inj (zoneText_inj ?_)
  unfold milliseconds at tails
  split at tails <;> split at tails
  · exact tails
  · refine absurd ?_ (zoneText_head first.offset.toUtcOffset)
    rw [← List.nil_append (zoneText first.offset.toUtcOffset), tails]
    rfl
  · refine absurd ?_ (zoneText_head second.offset.toUtcOffset)
    rw [← List.nil_append (zoneText second.offset.toUtcOffset), ← tails]
    rfl
  · exact (List.append_inj (List.cons.inj tails).2 (by simp)).2

namespace EventRecord

variable {sha256 : String → String} {resource : Resource} {database : Database} {written read : EventRecord}

private theorem payload_sorted (resource : Resource) (event : EventRecord) :
    (event.payload resource).sortKeys = .obj
      [("action", .str event.action), ("actor", .str event.actor), ("after", event.after.sortKeys),
        ("before", event.before.sortKeys), ("model_label", .str resource.modelLabel),
        ("object_pk", .str resource.objectPk),
        ("occurred_at", .str (String.ofList (encodeDateTime event.occurredAt.timestamp))),
        ("previous_digest", .str event.previousDigest), ("reason", .str event.reason),
        ("request_id", .str event.requestId), ("revision", .int event.revision), ("scope", .str event.scope)] := by
  simp [payload, Json.sortKeys, Json.sortMembers, List.insertionSort, List.orderedInsert]

/-- What the notations of the database leave of an event: its numbers where they
are kept in decimal, and the offset its time is shown with. -/
structure Survives (database : Database) (event : EventRecord) : Prop where
  before : database.jsonb = true → event.before.Floats FloatText.Ordinary
  after : database.jsonb = true → event.after.Floats FloatText.Ordinary
  zone : database.zone event.occurredAt.instant = event.occurredAt.offset

theorem json_same_iff (value : Json) :
    (database.json value).Same value ↔ (database.jsonb = true → value.Floats FloatText.Ordinary) := by
  unfold Database.json
  by_cases jsonb : database.jsonb = true
  · rw [if_pos jsonb, Json.same_decimals_iff]
    simp [jsonb]
  · rw [if_neg jsonb]
    simp [jsonb, Json.Same]

theorem payload_same_iff (back : database.ReadsBack written read) :
    (read.payload resource).Same (written.payload resource) ↔ Survives database written := by
  rw [Json.Same, payload_sorted, payload_sorted]
  simp only [back.revision, back.scope, back.actor, back.action, back.reason, back.requestId, back.previousDigest,
    Json.obj.injEq, List.cons.injEq, Prod.mk.injEq, true_and, Json.str.injEq, and_true, String.ofList_inj]
  constructor
  · rintro ⟨after, before, time⟩
    refine ⟨(json_same_iff _).mp (back.before.symm.trans before), (json_same_iff _).mp (back.after.symm.trans after), ?_⟩
    rw [← back.offset]
    exact encodeDateTime_offset time
  · intro survives
    refine ⟨back.after.trans ((json_same_iff _).mpr survives.after),
      back.before.trans ((json_same_iff _).mpr survives.before), ?_⟩
    rw [Aware.ext back.instant (back.offset.trans survives.zone)]

/-- Two texts that the hash does not tell apart. -/
def Collides (sha256 : String → String) (resource : Resource) (first second : EventRecord) : Prop :=
  ∃ text text', first.encode resource = .ok text ∧ second.encode resource = .ok text' ∧ text ≠ text' ∧
    sha256 text = sha256 text'

private theorem same_finite {first second : Json} (same : first.Same second) : first.finite = second.finite := by
  rw [← Json.sortKeys_finite first, ← Json.sortKeys_finite second, same]

private theorem json_finite (value : Json) : (database.json value).finite = value.finite := by
  unfold Database.json
  split
  · exact Json.decimals_finite value
  · rfl

theorem encode_back (back : database.ReadsBack written read) {text : String} (encoded : written.encode resource = .ok text) :
    ∃ text', read.encode resource = .ok text' := by
  have finite : (read.payload resource).finite = (written.payload resource).finite := by
    simp only [payload, Json.finite, Json.finiteMembers, same_finite back.before, same_finite back.after, json_finite]
  unfold encode Json.dumps at encoded ⊢
  rw [finite]
  split at encoded
  next chars dumped =>
    split at dumped
    next whole => exact ⟨_, by rw [if_pos whole]⟩
    · cases dumped
  · cases encoded

private theorem encode_same {first second : EventRecord} {text : String} (encoded : first.encode resource = .ok text) :
    second.encode resource = .ok text ↔ (second.payload resource).Same (first.payload resource) := by
  unfold encode at encoded ⊢
  cases dumped : (first.payload resource).dumps with
  | none => simp only [dumped, reduceCtorEq] at encoded
  | some chars =>
    simp only [dumped, Except.ok.injEq] at encoded
    subst encoded
    constructor
    · intro encoded'
      cases dumped' : (second.payload resource).dumps with
      | none => simp only [dumped', reduceCtorEq] at encoded'
      | some chars' =>
        simp only [dumped', Except.ok.injEq, String.ofList_inj] at encoded'
        exact Json.dumps_inj dumped' (encoded'.symm ▸ dumped)
    · intro same
      rw [same.dumps, dumped]

/-- An event that was stored as it was digested verifies exactly where it survives
the notations of its database, short of a collision of the hash. -/
theorem digest_survives_iff (sealed : written.Sealed sha256 resource) (back : database.ReadsBack written read) :
    read.Sealed sha256 resource ↔ Survives database written ∨ Collides sha256 resource written read := by
  unfold Sealed eventDigest at sealed ⊢
  cases encoded : written.encode resource with
  | error error => simp [encoded, Except.map] at sealed
  | ok text =>
    obtain ⟨text', encoded'⟩ := encode_back back encoded
    have survives : text' = text ↔ Survives database written := by
      rw [← (payload_same_iff back : (read.payload resource).Same (written.payload resource) ↔ _), ← encode_same encoded, encoded', Except.ok.injEq]
    simp only [encoded, Except.map, Except.ok.injEq] at sealed
    rw [encoded', back.digest, ← sealed, ← survives]
    simp only [Except.map, Except.ok.injEq]
    constructor
    · intro equal
      by_cases same : text' = text
      · exact .inl same
      · exact .inr ⟨text, text', encoded, encoded', fun equal => same equal.symm, equal.symm⟩
    · rintro (same | ⟨first, second, first_encoded, second_encoded, _, equal⟩)
      · rw [same]
      · rw [encoded] at first_encoded
        rw [encoded'] at second_encoded
        cases first_encoded
        cases second_encoded
        exact equal.symm

namespace Sample

def reading : Resource := ⟨"app.reading", "7", "1", 1, ""⟩

/-- A new row whose one number is a float, by a clock in UTC. -/
def measured (value : Json) (digest : String) : EventRecord :=
  { revision := 1, scope := "1", actor := "alice", action := "create", before := .null
    after := .obj [("value", value)], occurredAt := ⟨63902919845006789, .utc, by decide⟩
    reason := "", requestId := "", previousDigest := "", digest := digest }

/-- PostgreSQL with a connection in UTC. -/
def postgres : Database := ⟨true, fun _ => .utc⟩

def text (value : Json) : String := String.ofList ((measured value "").payload reading).sortKeys.render

def huge : FloatText := ⟨"1e+22", by simp [Numeric], by simp⟩

def half : FloatText := ⟨"0.5", by simp [Numeric], by simp⟩

theorem measured_encode (value : Json) (finite : value.finite = true) (digest : String) :
    (measured value digest).encode reading = .ok (text value) := by
  have whole : ((measured value digest).payload reading).finite = true := by
    simp [payload, measured, Json.finite, Json.finiteMembers, finite]
  rw [encode, Json.dumps, if_pos whole]
  rfl

theorem measured_sealed {value : Json} (finite : value.finite = true) (sha256 : String → String) :
    (measured value (sha256 (text value))).Sealed sha256 reading := by
  rw [Sealed, EventRecord.eventDigest, measured_encode _ finite]
  rfl

theorem measured_back (value : Json) (digest : String) :
    postgres.ReadsBack (measured value digest) (measured value.decimals digest) := by
  constructor <;> rfl

end Sample

/-- A column that holds 1e22 on PostgreSQL: the digest differs on reading back, unless the hash collides. -/
theorem huge_float_digest_differs : ∃ value : Json, ∀ sha256 : String → String, ∃ written read,
    written.after = .obj [("value", value)] ∧ written.Sealed sha256 Sample.reading ∧
      Sample.postgres.ReadsBack written read ∧
        (read.Sealed sha256 Sample.reading → Collides sha256 Sample.reading written read) := by
  refine ⟨.float Sample.huge, fun sha256 => ?_⟩
  have finite : (Json.float Sample.huge).decimals.finite = true := Json.decimals_finite _
  refine ⟨Sample.measured (.float Sample.huge) (sha256 (Sample.text (.float Sample.huge))), _, rfl,
    Sample.measured_sealed rfl sha256, Sample.measured_back _ _, fun sealed => ?_⟩
  have encoded := Sample.measured_encode (.float Sample.huge) rfl (sha256 (Sample.text (.float Sample.huge)))
  have encoded' := Sample.measured_encode _ finite (sha256 (Sample.text (.float Sample.huge)))
  refine ⟨_, _, encoded, encoded', fun same => ?_, ?_⟩
  · have unchanged := (encode_same encoded).mp (encoded'.trans (congrArg Except.ok same.symm))
    have survives := (payload_same_iff (Sample.measured_back _ _)).mp unchanged
    have ordinary : Sample.huge.Ordinary := (survives.after rfl).1
    exact absurd ((FloatText.decimal_eq_iff _).mpr ordinary) (by decide +kernel)
  · rw [Sealed, EventRecord.eventDigest, encoded'] at sealed
    exact (Except.ok.inj sealed).symm

theorem digest_survives_iff_half : (Sample.measured (.float Sample.half) (Sample.text (.float Sample.half))).Sealed id Sample.reading := by
  have same : (Json.float Sample.half).decimals = .float Sample.half := by decide +kernel
  have back := Sample.measured_back (.float Sample.half) (Sample.text (.float Sample.half))
  rw [same] at back
  refine (digest_survives_iff (Sample.measured_sealed rfl id) back).mpr (.inl ⟨fun _ => trivial, fun _ => ⟨?_, trivial⟩, rfl⟩)
  exact (FloatText.decimal_eq_iff _).mp (by decide +kernel)

end EventRecord
end PyScoped
