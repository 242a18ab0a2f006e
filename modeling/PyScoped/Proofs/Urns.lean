import PyScoped.Legacy.Urns

/-! When a URN is the one that its text is read as, and a text the one that its URN
is written as. -/

namespace PyScoped.Legacy.Registry.URN
open Foundation

variable {numerals : Numerals}

/-- Neither the kind nor the namespace holds the separator. -/
def Plain (urn : URN) : Prop := ':' ∉ urn.kind.toList ∧ ':' ∉ urn.entryNamespace.toList

/-- The interpreter writes the version. -/
def Written (numerals : Numerals) (urn : URN) : Prop := numerals.exceeded (Nat.toDigits 10 urn.version.natAbs).length = false

instance (urn : URN) : Decidable urn.Plain := inferInstanceAs (Decidable (_ ∧ _))

theorem make_ok {kind entryNamespace name : String} {version : Int} {urn : URN}
    (made : make kind entryNamespace name version = .ok urn) :
    urn.kind = kind ∧ urn.entryNamespace = entryNamespace ∧ urn.name = name ∧ urn.version = version := by
  unfold make at made
  repeat' split at made
  all_goals cases made
  exact ⟨rfl, rfl, rfl, rfl⟩

theorem make_self (urn : URN) : make urn.kind urn.entryNamespace urn.name urn.version = .ok urn := by
  obtain ⟨noKind, noNamespace, noName, late⟩ := urn.valid
  unfold make
  rw [dif_neg noKind, dif_neg noNamespace, dif_neg noName, dif_neg (Int.not_lt.mpr late)]

theorem ext {first second : URN} (kind : first.kind = second.kind) (entryNamespace : first.entryNamespace = second.entryNamespace)
    (name : first.name = second.name) (version : first.version = second.version) : first = second := by
  cases first
  cases second
  simp_all

theorem separator_apart (text : List Char) {part : List Char} (inside : part ∈ text.splitOn ':') : ':' ∉ part := by
  induction text generalizing part with
  | nil =>
    rw [List.splitOn_nil, List.mem_singleton] at inside
    simp [inside]
  | cons c text ih =>
    rw [List.splitOn_cons_eq_if_modifyHead] at inside
    split at inside
    · rcases List.mem_cons.mp inside with rfl | inside
      · simp
      · exact ih inside
    next plain =>
      cases split : text.splitOn ':' with
      | nil => exact absurd split (List.splitOn_ne_nil ':' text)
      | cons first rest =>
        rw [split, List.modifyHead_cons] at inside
        rw [split] at ih
        rcases List.mem_cons.mp inside with rfl | inside
        · have apart := ih List.mem_cons_self
          have different : ':' ≠ c := fun same => plain (by simp [same.symm])
          simp [apart, different]
        · exact ih (List.mem_cons_of_mem _ inside)

theorem str_eq (urn : URN) (numerals : Numerals) {version : String} (written : numerals.str urn.version = .ok version) :
    str numerals urn = .ok (String.ofList ("scoped".toList ++ ':' :: (urn.kind.toList ++ ':' :: (urn.entryNamespace.toList ++
      ':' :: (urn.name.toList ++ ':' :: version.toList))))) := by
  unfold str
  rw [written]
  dsimp only
  congr 1
  apply String.toList_inj.mp
  simp [String.toList_append]

/-- The part of a text that is read as the version. -/
def versionPart (raw : String) : List Char := (raw.toList.splitOn ':').getLastD []

theorem intercalate_snoc {parts : List (List Char)} (nonempty : parts ≠ []) (last : List Char) :
    [':'].intercalate (parts ++ [last]) = [':'].intercalate parts ++ ':' :: last := by
  induction parts with
  | nil => exact absurd rfl nonempty
  | cons part parts ih =>
    cases parts with
    | nil => simp
    | cons next parts =>
      rw [List.cons_append, List.cons_append, List.intercalate_cons_cons, ← List.cons_append, ih (by simp),
        List.intercalate_cons_cons]
      simp

/-- What a text is split into where it is read as a URN. -/
structure Parts (numerals : Numerals) (raw : String) (urn : URN) (nameParts : List (List Char)) (last : List Char) : Prop where
  split : raw.toList.splitOn ':' = "scoped".toList :: urn.kind.toList :: urn.entryNamespace.toList :: (nameParts ++ [last])
  named : nameParts ≠ []
  name : [':'].intercalate nameParts = urn.name.toList
  version : numerals.int last = .ok urn.version

theorem Parts.parse {raw : String} {urn : URN} {nameParts : List (List Char)} {last : List Char}
    (parts : Parts numerals raw urn nameParts last) : parse numerals raw = .ok urn := by
  have several : ¬ (nameParts ++ [last]).length < 2 := by
    have := List.length_pos_of_ne_nil parts.named
    rw [List.length_append, List.length_singleton]
    omega
  unfold URN.parse
  rw [parts.split]
  dsimp only
  rw [if_neg, List.getLastD_concat, parts.version]
  · dsimp only
    rw [List.dropLast_concat, parts.name, String.ofList_toList, String.ofList_toList, String.ofList_toList]
    exact make_self urn
  · rw [String.ofList_toList]
    simpa using several

theorem parse_parts {raw : String} {urn : URN} (read : URN.parse numerals raw = .ok urn) :
    ∃ nameParts last, Parts numerals raw urn nameParts last := by
  unfold URN.parse at read
  split at read
  next first kind entryNamespace rest split =>
    split at read
    · cases read
    next several =>
      obtain ⟨long, start⟩ : 1 < rest.length ∧ String.ofList first = "scoped" := by simpa using several
      split at read
      · cases read
      next version number =>
        obtain ⟨kindText, namespaceText, nameText, same⟩ := make_ok read
        obtain rfl | ⟨nameParts, last, rfl⟩ := List.eq_nil_or_concat' rest
        · simp at long
        rw [List.getLastD_concat] at number
        rw [List.dropLast_concat] at nameText
        refine ⟨nameParts, last, ⟨?_, ?_, ?_, same ▸ number⟩⟩
        · rw [split, kindText, namespaceText, ← start, String.toList_ofList, String.toList_ofList, String.toList_ofList]
        · rintro rfl
          simp at long
        · rw [nameText, String.toList_ofList]
  · cases read

variable {raw : String} {urn other : URN} {nameParts : List (List Char)} {last : List Char}

theorem Parts.raw_eq (parts : Parts numerals raw urn nameParts last) : raw.toList = "scoped".toList ++ ':' ::
    (urn.kind.toList ++ ':' :: (urn.entryNamespace.toList ++ ':' :: (urn.name.toList ++ ':' :: last))) := by
  have joined : [':'].intercalate (raw.toList.splitOn ':') = raw.toList := List.intercalate_splitOn ':'
  rw [parts.split, List.intercalate_cons_cons, List.intercalate_cons_cons, List.intercalate_cons_of_ne_nil (by simp),
    intercalate_snoc parts.named, parts.name] at joined
  rw [← joined]
  simp

theorem Parts.versionPart (parts : Parts numerals raw urn nameParts last) : versionPart raw = last := by
  rw [URN.versionPart, parts.split, List.getLastD_cons, List.getLastD_cons, List.getLastD_cons, List.getLastD_concat]

theorem Parts.plain (parts : Parts numerals raw urn nameParts last) : urn.Plain := by
  constructor
  · apply separator_apart raw.toList
    rw [parts.split]
    exact List.mem_cons_of_mem _ List.mem_cons_self
  · apply separator_apart raw.toList
    rw [parts.split]
    exact List.mem_cons_of_mem _ (List.mem_cons_of_mem _ List.mem_cons_self)

theorem Plain.parts (plain : urn.Plain) {version : String} (written : numerals.str urn.version = .ok version)
    (text : str numerals urn = .ok raw) : Parts numerals raw urn (urn.name.toList.splitOn ':') version.toList := by
  have digits : version.toList = Nat.toDigits 10 urn.version.natAbs := by
    unfold Numerals.str at written
    split at written
    · cases written
    · cases written
      exact Numerals.toString_pos urn.valid.2.2.2
  have apart : ':' ∉ version.toList := by
    intro inside
    rw [digits] at inside
    exact absurd (Numerals.digits_plain _ _ inside) (by decide)
  have start : ':' ∉ "scoped".toList := by decide
  rw [str_eq urn numerals written] at text
  cases text
  refine ⟨?_, List.splitOn_ne_nil _ _, List.intercalate_splitOn _, numerals.int_str urn.valid.2.2.2 written⟩
  rw [String.toList_ofList, List.splitOn_append_cons_self_of_not_mem start, List.splitOn_append_cons_self_of_not_mem plain.1,
    List.splitOn_append_cons_self_of_not_mem plain.2, List.splitOn_append_cons_self, List.splitOn_eq_singleton apart]

theorem str_ok (text : str numerals urn = .ok raw) : ∃ version, numerals.str urn.version = .ok version ∧ raw = urn.text := by
  unfold str at text
  split at text
  · cases text
  next version written =>
    refine ⟨version, written, ?_⟩
    unfold Numerals.str at written
    split at written
    · cases written
    · cases written
      cases text
      rfl

theorem str_written (written : Written numerals urn) : str numerals urn = .ok urn.text := by
  unfold str Numerals.str
  rw [written]
  rfl

theorem written_of_str (text : str numerals urn = .ok raw) : Written numerals urn := by
  obtain ⟨version, written, -⟩ := str_ok text
  unfold Numerals.str at written
  split at written
  · cases written
  next allowed => exact Bool.eq_false_iff.mpr allowed

/-- A URN comes back from its text exactly where no separator is in its kind or
namespace and the interpreter writes its version. -/
theorem str_parse_iff : (str numerals urn).bind (URN.parse numerals) = .ok urn ↔ urn.Plain ∧ Written numerals urn := by
  constructor
  · intro back
    cases text : str numerals urn with
    | error error =>
      rw [text] at back
      cases back
    | ok raw =>
      rw [text] at back
      obtain ⟨nameParts, last, parts⟩ := parse_parts back
      exact ⟨parts.plain, written_of_str text⟩
  · intro ⟨plain, written⟩
    have text := str_written written
    obtain ⟨version, number, -⟩ := str_ok text
    rw [text]
    exact (plain.parts number text).parse

theorem parse_str_iff (read : URN.parse numerals raw = .ok urn) :
    str numerals urn = .ok raw ↔ Numerals.Canonical (versionPart raw) := by
  obtain ⟨nameParts, last, parts⟩ := parse_parts read
  rw [parts.versionPart, ← numerals.str_int_iff urn.valid.2.2.2 parts.version]
  constructor
  · intro text
    obtain ⟨version, written, -⟩ := str_ok text
    rw [written]
    rw [str_eq urn numerals written] at text
    have same := String.toList_inj.mpr (Except.ok.inj text)
    rw [parts.raw_eq, String.toList_ofList] at same
    have ends : version.toList = last := by simpa using same
    rw [← ends, String.ofList_toList]
  · intro written
    have ends : (String.ofList last).toList = last := String.toList_ofList
    rw [str_eq urn numerals written, ends]
    congr 1
    apply String.toList_inj.mp
    rw [parts.raw_eq, String.toList_ofList]

theorem text_toList (urn : URN) : urn.text.toList = "scoped".toList ++ ':' :: (urn.kind.toList ++ ':' ::
    (urn.entryNamespace.toList ++ ':' :: (urn.name.toList ++ ':' :: Nat.toDigits 10 urn.version.natAbs))) := by
  rw [← Numerals.toString_pos urn.valid.2.2.2, text]
  simp [String.toList_append]

theorem versionPart_text (urn : URN) : URN.versionPart urn.text = Nat.toDigits 10 urn.version.natAbs := by
  have apart : ':' ∉ Nat.toDigits 10 urn.version.natAbs := fun inside => absurd (Numerals.digits_plain _ _ inside) (by decide)
  have split : urn.text.toList = ("scoped".toList ++ ':' :: (urn.kind.toList ++ ':' ::
      (urn.entryNamespace.toList ++ ':' :: urn.name.toList))) ++ ':' :: Nat.toDigits 10 urn.version.natAbs := by
    rw [text_toList]
    simp
  rw [URN.versionPart, split, List.splitOn_append_cons_self, List.splitOn_eq_singleton apart, List.getLastD_concat]

theorem text_of_parse (read : URN.parse numerals urn.text = .ok other) : other.text = urn.text := by
  have canonical : Numerals.Canonical (URN.versionPart urn.text) := by
    rw [versionPart_text]
    have late := urn.valid.2.2.2
    exact Numerals.toDigits_canonical (by omega)
  obtain ⟨version, -, same⟩ := str_ok ((parse_str_iff read).mpr canonical)
  exact same.symm

/-- Digits, signs and spaces of one byte, in any number. -/
def asciiNumerals : Numerals where
  digit c := if c.isDigit then some (c.toNat - 48) else none
  space c := c = ' ' || 9 ≤ c.toNat && c.toNat ≤ 13
  maxDigits := none
  digit_ascii := by decide
  space_ascii := by decide

theorem Plain.text_inj (plain : urn.Plain) (plain' : other.Plain) : urn.text = other.text ↔ urn = other := by
  constructor
  · intro same
    have written : ∀ urn, Written asciiNumerals urn := fun _ => rfl
    have back := str_parse_iff.mpr ⟨plain, written urn⟩
    have back' := str_parse_iff.mpr ⟨plain', written other⟩
    rw [str_written (written urn), same] at back
    rw [str_written (written other)] at back'
    exact Except.ok.inj (back.symm.trans back')
  · exact congrArg URN.text

/-- A URN comes back from its text exactly where no separator is in its kind or
namespace and the interpreter writes its version, and a text from its URN exactly
where it ends in a canonical number. URNs of the first sort have slots of their own;
another one shares its slot with what its text is read as. -/
theorem urns_faithful_iff (numerals : Numerals) :
    (∀ urn, (str numerals urn).bind (URN.parse numerals) = .ok urn ↔ urn.Plain ∧ Written numerals urn) ∧
    (∀ raw urn, URN.parse numerals raw = .ok urn → (str numerals urn = .ok raw ↔ Numerals.Canonical (URN.versionPart raw))) ∧
    (∀ first second : URN, first.Plain → second.Plain → (first.text = second.text ↔ first = second)) ∧
    (∀ first second : URN, ¬ first.Plain → URN.parse numerals first.text = .ok second →
      second ≠ first ∧ second.text = first.text) := by
  refine ⟨fun _ => str_parse_iff, fun _ _ => parse_str_iff, fun _ _ => Plain.text_inj, ?_⟩
  intro first second unclear read
  obtain ⟨nameParts, last, parts⟩ := parse_parts read
  exact ⟨fun same => unclear (same ▸ parts.plain), text_of_parse read⟩

def user : URN := ⟨"model", "myapp", "User", 1, by decide⟩

/-- An application of a group. -/
def groupUser : URN := ⟨"model", "group:myapp", "User", 1, by decide⟩

theorem group_user_misread : ¬ ∀ urn, (str asciiNumerals urn).bind (URN.parse asciiNumerals) = .ok urn := by
  intro always
  exact absurd ((str_parse_iff.mp (always groupUser)).1) (by decide)

theorem urns_faithful_iff_user : (str asciiNumerals user).bind (URN.parse asciiNumerals) = .ok user ∧
    str asciiNumerals user = .ok "scoped:model:myapp:User:1" ∧ (user.text = user.text ↔ user = user) ∧
    ∃ other ≠ groupUser, other.text = groupUser.text := by
  have faithful := urns_faithful_iff asciiNumerals
  have plain : user.Plain := by decide
  refine ⟨(faithful.1 user).mpr ⟨plain, rfl⟩, ?_, faithful.2.2.1 user user plain plain, ?_⟩
  · exact (faithful.2.1 "scoped:model:myapp:User:1" user (by decide +kernel)).mpr (by decide +kernel)
  · obtain ⟨different, same⟩ := faithful.2.2.2 groupUser ⟨"model", "group", "myapp:User", 1, by decide⟩ (by decide)
      (by decide +kernel)
    exact ⟨_, different, same⟩

end PyScoped.Legacy.Registry.URN
