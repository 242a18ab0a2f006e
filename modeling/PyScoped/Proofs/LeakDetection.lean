import PyScoped.Foundation.Fields
import PyScoped.Foundation.JsonPositions
import PyScoped.Legacy.LeakDetection

/-! What the scan for leaks reports: the strings that are values, each once, under
paths that tell them apart. Keys are not looked at. -/

namespace PyScoped.Legacy.LeakDetection
open Foundation Json

/-- One of the values is in the text. -/
def Offends (knownValues : List String) (text : String) : Prop := ∃ val ∈ knownValues, val.toList <:+: text.toList

def extend (path : String) : Step → String
  | .key key => memberPath path key
  | .index i => itemPath path i

/-- The path that a position has in a report. -/
def pathOf (position : List Step) : String :=
  if position.foldl extend "" ≠ "" then position.foldl extend "" else "<root>"

/-- A key whose place in a path is plain to see. -/
def Plain (key : String) : Prop := key ≠ "" ∧ ∀ c ∈ key.toList, c ≠ '.' ∧ c ≠ '[' ∧ c ≠ ']'

/-- The scan reports something if a string offends, whether a value or a key; what it
reports leads to values that do, to none of them twice, and tells them apart where keys
are plain. -/
structure Exact (data : Json) (knownValues : List String) : Prop where
  complete : scanData data knownValues ≠ [] ↔ ∃ text, Offends knownValues text ∧
    ((∃ position, data.get? position = some (.str text)) ∨ data.HasKey text)
  leads : ∀ path ∈ scanData data knownValues, ∃ position text, data.get? position = some (.str text) ∧
    Offends knownValues text ∧ path = pathOf position
  once : ∃ positions : List (List Step), positions.Nodup ∧ scanData data knownValues = positions.map pathOf ∧
    ∀ position ∈ positions, ∃ text, data.get? position = some (.str text) ∧ Offends knownValues text
  distinct : (∀ key, data.HasKey key → Plain key) → (scanData data knownValues).Nodup

variable {knownValues : List String}

theorem leaks_iff (nonempty : ∀ val ∈ knownValues, val ≠ "") (text : String) :
    leaks knownValues text = true ↔ Offends knownValues text := by
  simp only [leaks, contains, List.any_eq_true, Bool.and_eq_true, decide_eq_true_eq, Offends]
  refine exists_congr fun val => and_congr_right fun member => ?_
  simp [nonempty val member]

/-- What a scan from a path on reports of strings with their positions. -/
private def report (knownValues : List String) (path : String) (found : List (List Step × String)) : List String :=
  (found.filter fun found => leaks knownValues found.2).map fun found =>
    if found.1.foldl extend path ≠ "" then found.1.foldl extend path else "<root>"

private theorem report_step (path : String) (step : Step) (found : List (List Step × String)) :
    report knownValues path (found.map (Prod.map (step :: ·) id)) = report knownValues (extend path step) found := by
  simp only [report, List.filter_map, List.map_map, Function.comp_def, Prod.map_fst, Prod.map_snd, id_eq, List.foldl_cons]
  rfl

private theorem report_append (path : String) (first second : List (List Step × String)) :
    report knownValues path (first ++ second) = report knownValues path first ++ report knownValues path second := by
  simp only [report, List.filter_append, List.map_append]

mutual
private theorem scanRecursive_eq : ∀ (path : String) (data : Json),
    scanRecursive knownValues path data = report knownValues path data.strings
  | _, .null | _, .bool _ | _, .int _ | _, .float _ | _, .nonfinite => rfl
  | path, .str text => by
    rw [scanRecursive, strings, report, List.filter_cons]
    split <;> rfl
  | path, .arr items => by
    rw [scanRecursive, strings]
    exact scanItems_eq path 0 items
  | path, .obj members => by
    rw [scanRecursive, strings]
    exact scanMembers_eq path members

private theorem scanItems_eq : ∀ (path : String) (i : Nat) (items : List Json),
    scanItems knownValues path i items = report knownValues path (stringsItems i items)
  | _, _, [] => rfl
  | path, i, item :: items => by
    rw [scanItems, stringsItems, report_append, report_step, scanRecursive_eq, scanItems_eq path (i + 1) items]
    rfl

private theorem scanMembers_eq : ∀ (path : String) (members : List (String × Json)),
    scanMembers knownValues path members = report knownValues path (stringsMembers members)
  | _, [] => rfl
  | path, (key, value) :: members => by
    rw [scanMembers, stringsMembers, report_append, report_step, scanRecursive_eq, scanMembers_eq path members]
    rfl
end

theorem scanData_eq (data : Json) :
    scanData data knownValues = (data.strings.filter fun found => leaks knownValues found.2).map (pathOf ∘ Prod.fst) := by
  unfold scanData
  split
  next none =>
    subst none
    simp [leaks]
  · exact scanRecursive_eq "" data

/-! Paths of plain keys. -/

/-- What the steps after the first add to a path. -/
def suffix : List Step → List Char
  | [] => []
  | .key key :: steps => '.' :: (key.toList ++ suffix steps)
  | .index i :: steps => '[' :: ((toString i).toList ++ ']' :: suffix steps)

theorem foldl_extend {path : String} (begun : path ≠ "") (position : List Step) :
    (position.foldl extend path).toList = path.toList ++ suffix position := by
  induction position generalizing path with
  | nil => simp [suffix]
  | cons step position ih =>
    have begun' : extend path step ≠ "" := by
      intro none
      have texts := congrArg String.toList none
      cases step <;> simp [extend, memberPath, itemPath, begun] at texts
    rw [List.foldl_cons, ih begun']
    cases step <;> simp [extend, memberPath, itemPath, begun, suffix]

theorem suffix_head {steps : List Step} {c : Char} {rest : List Char} (same : suffix steps = c :: rest) : c = '.' ∨ c = '[' := by
  cases steps with
  | nil => cases same
  | cons step steps =>
    cases step with
    | key key => exact .inl (List.cons.inj same).1.symm
    | index i => exact .inr (List.cons.inj same).1.symm

theorem key_unique {first second : String} {steps steps' : List Step} (plain : Plain first) (plain' : Plain second)
    (same : first.toList ++ suffix steps = second.toList ++ suffix steps') :
    first = second ∧ suffix steps = suffix steps' := by
  have ends : ∀ {key : String} {c : Char} {beyond rest : List Char} {steps : List Step}, Plain key →
      (∀ d ∈ c :: beyond, d ∈ key.toList) → suffix steps ≠ c :: beyond ++ rest := by
    rintro key c beyond rest steps plain inside same
    have unlike := plain.2 c (inside c List.mem_cons_self)
    rcases suffix_head same with rfl | rfl
    · exact unlike.1 rfl
    · exact unlike.2.1 rfl
  rcases List.append_eq_append_iff.mp same with ⟨_ | ⟨c, beyond⟩, longer, rest⟩ | ⟨_ | ⟨c, beyond⟩, longer, rest⟩
  · exact ⟨String.toList_inj.mp (by simpa using longer.symm), by simpa using rest⟩
  · exact absurd rest (ends plain' fun d member => by rw [longer]; exact List.mem_append_right _ member)
  · exact ⟨String.toList_inj.mp (by simpa using longer), by simpa using rest.symm⟩
  · exact absurd rest (ends plain fun d member => by rw [longer]; exact List.mem_append_right _ member)

theorem index_unique {i j : Nat} {rest rest' : List Char}
    (same : (toString i).toList ++ ']' :: rest = (toString j).toList ++ ']' :: rest') : i = j ∧ rest = rest' := by
  have digits : ∀ n : Nat, ']' ∉ (toString n).toList := by
    intro n member
    have inside : ']' ∈ Nat.toDigits 10 n := by simpa using member
    have digit := Nat.isDigit_of_mem_toDigits (by decide) (by decide) inside
    revert digit
    decide
  obtain ⟨texts, rests⟩ := Fields.field_unique_of_not_mem (digits i) (digits j) same
  exact ⟨Nat.repr_injective (String.toList_inj.mp texts), rests⟩

theorem suffix_inj {first second : List Step} (plain : ∀ key, .key key ∈ first → Plain key)
    (plain' : ∀ key, .key key ∈ second → Plain key) (same : suffix first = suffix second) : first = second := by
  induction first generalizing second with
  | nil =>
    cases second with
    | nil => rfl
    | cons step second => cases step <;> cases same
  | cons step first ih =>
    have onward := fun key member => plain key (List.mem_cons_of_mem step member)
    cases second with
    | nil => cases step <;> cases same
    | cons step' second =>
      have onward' := fun key member => plain' key (List.mem_cons_of_mem step' member)
      cases step with
      | key key =>
        cases step' with
        | key key' =>
          obtain ⟨rfl, rest⟩ := key_unique (plain key List.mem_cons_self) (plain' key' List.mem_cons_self)
            (List.cons.inj same).2
          rw [ih onward onward' rest]
        | index j => cases (List.cons.inj same).1
      | index i =>
        cases step' with
        | key key' => cases (List.cons.inj same).1
        | index j =>
          obtain ⟨rfl, rest⟩ := index_unique (List.cons.inj same).2
          rw [ih onward onward' rest]

theorem pathOf_cons {step : Step} {position : List Step} (plain : ∀ key, step = .key key → Plain key) :
    (pathOf (step :: position)).toList = match step with
      | .key key => key.toList ++ suffix position
      | .index i => suffix (.index i :: position) := by
  have begun : extend "" step ≠ "" := by
    intro none
    cases step with
    | key key => exact (plain key rfl).1 none
    | index i =>
      have texts := congrArg String.toList none
      simp [extend, itemPath] at texts
  have whole := foldl_extend begun position
  have some : (step :: position).foldl extend "" ≠ "" := by
    intro none
    rw [List.foldl_cons] at none
    rw [none] at whole
    exact begun (String.toList_inj.mp (List.append_eq_nil_iff.mp whole.symm).1)
  rw [pathOf, if_pos some, List.foldl_cons, whole]
  cases step <;> simp [extend, memberPath, itemPath, suffix]

/-- Positions with plain keys have paths of their own. -/
theorem pathOf_inj {first second : List Step} (plain : ∀ key, .key key ∈ first → Plain key)
    (plain' : ∀ key, .key key ∈ second → Plain key) (root : first = [] ↔ second = []) (same : pathOf first = pathOf second) :
    first = second := by
  cases first with
  | nil => exact (root.mp rfl).symm
  | cons step first =>
    cases second with
    | nil => cases root.mpr rfl
    | cons step' second =>
      have texts := congrArg String.toList same
      rw [pathOf_cons fun key same => plain key (same ▸ List.mem_cons_self),
        pathOf_cons fun key same => plain' key (same ▸ List.mem_cons_self)] at texts
      have onward := fun key member => plain key (List.mem_cons_of_mem step member)
      have onward' := fun key member => plain' key (List.mem_cons_of_mem step' member)
      -- A plain key does not begin like an index.
      have unlike : ∀ {key : String} {rest rest' : List Char}, Plain key → key.toList ++ rest ≠ '[' :: rest' := by
        intro key rest rest' plain same
        cases chars : key.toList with
        | nil => exact plain.1 (String.toList_inj.mp chars)
        | cons c chars' =>
          rw [chars, List.cons_append] at same
          exact (plain.2 c (by rw [chars]; exact List.mem_cons_self)).2.1 (List.cons.inj same).1
      cases step with
      | key key =>
        have plainKey := plain key List.mem_cons_self
        cases step' with
        | key key' =>
          obtain ⟨rfl, rest⟩ := key_unique plainKey (plain' key' List.mem_cons_self) texts
          rw [suffix_inj onward onward' rest]
        | index j => exact absurd texts (unlike plainKey)
      | index i =>
        cases step' with
        | key key' => exact absurd texts.symm (unlike (plain' key' List.mem_cons_self))
        | index j => exact suffix_inj plain plain' texts

theorem root {data : Json} {text text' : String} {position : List Step} (value : data.get? [] = some (.str text))
    (value' : data.get? position = some (.str text')) : position = [] := by
  cases value
  cases position with
  | nil => rfl
  | cons step position => cases step <;> cases value'

/-- The scan misses an offence just where keys offend and no value does. -/
theorem exact_iff {data : Json} (keyed : data.WellKeyed) (nonempty : ∀ val ∈ knownValues, val ≠ "") :
    Exact data knownValues ↔ ((∃ key, data.HasKey key ∧ Offends knownValues key) →
      ∃ position text, data.get? position = some (.str text) ∧ Offends knownValues text) := by
  have scanned : scanData data knownValues = _ := scanData_eq data
  have found : ∀ position text, (position, text) ∈ data.strings.filter (fun found => leaks knownValues found.2) ↔
      data.get? position = some (.str text) ∧ Offends knownValues text := by
    intro position text
    rw [List.mem_filter, mem_strings data keyed, leaks_iff nonempty]
  have reports : scanData data knownValues ≠ [] ↔
      ∃ position text, data.get? position = some (.str text) ∧ Offends knownValues text := by
    rw [scanned, ne_eq, List.map_eq_nil_iff]
    constructor
    · intro reported
      obtain ⟨⟨position, text⟩, member⟩ := List.exists_mem_of_ne_nil _ reported
      exact ⟨position, text, (found position text).mp member⟩
    · rintro ⟨position, text, leak⟩
      exact List.ne_nil_of_mem ((found position text).mpr leak)
  have once : ((data.strings.filter fun found => leaks knownValues found.2).map Prod.fst).Nodup :=
    (data.strings_nodup keyed).sublist (List.filter_sublist.map Prod.fst)
  have offending : ∀ position ∈ (data.strings.filter fun found => leaks knownValues found.2).map Prod.fst,
      ∃ text, data.get? position = some (.str text) ∧ Offends knownValues text := by
    intro position member
    obtain ⟨⟨_, text⟩, inside, rfl⟩ := List.mem_map.mp member
    exact ⟨text, (found _ text).mp inside⟩
  constructor
  · rintro exact' ⟨key, present, offends⟩
    exact reports.mp (exact'.complete.mpr ⟨key, offends, .inr present⟩)
  intro values
  refine ⟨reports.trans ⟨?_, ?_⟩, ?_, ?_, ?_⟩
  · rintro ⟨position, text, value, offends⟩
    exact ⟨text, offends, .inl ⟨position, value⟩⟩
  · rintro ⟨text, offends, ⟨position, value⟩ | present⟩
    · exact ⟨position, text, value, offends⟩
    · exact values ⟨text, present, offends⟩
  · intro path member
    rw [scanned] at member
    obtain ⟨⟨position, text⟩, inside, rfl⟩ := List.mem_map.mp member
    obtain ⟨value, offends⟩ := (found position text).mp inside
    exact ⟨position, text, value, offends, rfl⟩
  · exact ⟨_, once, by rw [scanned, List.map_map], offending⟩
  · intro plain
    rw [scanned, ← List.map_map]
    refine List.Nodup.map_on (fun first member second member' same => ?_) once
    obtain ⟨text, value, -⟩ := offending first member
    obtain ⟨text', value', -⟩ := offending second member'
    refine pathOf_inj (fun key through => plain key (.of_get? value through))
      (fun key through => plain key (.of_get? value' through)) ⟨?_, ?_⟩ same
    · rintro rfl
      exact root value value'
    · rintro rfl
      exact root value' value

private def settings : Json := .obj [("databases", .arr [.str "sqlite", .obj [("url", .str "pg://app:hunter2@db")]]), ("debug", .bool false)]

/-- A password in the URL of a database. -/
theorem exact_iff_settings :
    Exact settings ["hunter2"] ∧ scanData settings ["hunter2"] = ["databases[1].url"] := by
  refine ⟨(exact_iff ?_ ?_).mpr fun _ => ?_, by decide⟩
  · simp [settings, WellKeyed, WellKeyedItems, WellKeyedMembers]
  · simp
  · exact ⟨[.key "databases", .index 1, .key "url"], "pg://app:hunter2@db", rfl, "hunter2", by simp, by decide⟩

/-- A secret that is a key is not seen. -/
theorem key_unseen : ¬ Exact (.obj [("hunter2", .int 1)]) ["hunter2"] := by
  intro exact'
  have reports := exact'.complete.mpr ⟨"hunter2", ⟨"hunter2", by simp, List.infix_rfl⟩, .inr ⟨[], _, rfl, by simp⟩⟩
  exact reports (by decide)

end PyScoped.Legacy.LeakDetection
