import PyScoped.Foundation.Json

/-! Positions in JSON values: the keys and indices that lead to a part of one. -/

namespace Foundation.Json

inductive Step where
  | key (key : String)
  | index (i : Nat)
  deriving DecidableEq

def child : Json → Step → Option Json
  | .obj members, .key key => (members.find? fun member => member.1 = key).map Prod.snd
  | .arr items, .index i => items[i]?
  | _, _ => none

def get? : Json → List Step → Option Json
  | json, [] => some json
  | json, step :: steps => (json.child step).bind fun part => get? part steps

mutual
/-- Every object has each of its keys once. -/
def WellKeyed : Json → Prop
  | .arr items => WellKeyedItems items
  | .obj members => (members.map Prod.fst).Nodup ∧ WellKeyedMembers members
  | _ => True

def WellKeyedItems : List Json → Prop
  | [] => True
  | item :: items => WellKeyed item ∧ WellKeyedItems items

def WellKeyedMembers : List (String × Json) → Prop
  | [] => True
  | (_, value) :: members => WellKeyed value ∧ WellKeyedMembers members
end

mutual
/-- The strings that are values, with their positions, in the order of the text. -/
def strings : Json → List (List Step × String)
  | .str text => [([], text)]
  | .arr items => stringsItems 0 items
  | .obj members => stringsMembers members
  | _ => []

def stringsItems (i : Nat) : List Json → List (List Step × String)
  | [] => []
  | item :: items => (strings item).map (Prod.map (.index i :: ·) id) ++ stringsItems (i + 1) items

def stringsMembers : List (String × Json) → List (List Step × String)
  | [] => []
  | (key, value) :: members => (strings value).map (Prod.map (.key key :: ·) id) ++ stringsMembers members
end

private theorem mem_step {found : List (List Step × String)} {step : Step} {position : List Step} {text : String} :
    (position, text) ∈ found.map (Prod.map (step :: ·) id) ↔ ∃ rest, position = step :: rest ∧ (rest, text) ∈ found := by
  simp only [List.mem_map, Prod.map, Prod.mk.injEq, id_eq, Prod.exists]
  constructor
  · rintro ⟨rest, _, member, rfl, rfl⟩
    exact ⟨rest, rfl, member⟩
  · rintro ⟨rest, rfl, member⟩
    exact ⟨rest, text, member, rfl, rfl⟩

mutual
theorem mem_strings : ∀ (json : Json), json.WellKeyed → ∀ position text,
    (position, text) ∈ json.strings ↔ json.get? position = some (.str text)
  | .null, _, position, text | .bool _, _, position, text | .int _, _, position, text | .float _, _, position, text
  | .nonfinite, _, position, text => by
    cases position <;> simp [strings, get?, child]
  | .str own, _, position, text => by
    cases position <;> simp [strings, get?, child, eq_comm]
  | .arr items, keyed, position, text => by
    rw [strings, mem_stringsItems items keyed]
    cases position with
    | nil => simp [get?]
    | cons step rest => cases step <;> simp [get?, child]
  | .obj members, keyed, position, text => by
    rw [strings, mem_stringsMembers members keyed.2 keyed.1]
    cases position with
    | nil => simp [get?]
    | cons step rest => cases step <;> simp [get?, child]

theorem mem_stringsItems : ∀ (items : List Json), WellKeyedItems items → ∀ {i : Nat} position text,
    (position, text) ∈ stringsItems i items ↔
      ∃ j rest, position = .index (i + j) :: rest ∧ (items[j]?.bind fun item => item.get? rest) = some (.str text)
  | [], _, i, position, text => by simp [stringsItems]
  | item :: items, keyed, i, position, text => by
    rw [stringsItems, List.mem_append, mem_step, mem_stringsItems items keyed.2]
    constructor
    · rintro (⟨rest, rfl, member⟩ | ⟨j, rest, rfl, found⟩)
      · exact ⟨0, rest, rfl, (mem_strings item keyed.1 rest text).mp member⟩
      · exact ⟨j + 1, rest, by rw [Nat.add_assoc, Nat.add_comm 1], found⟩
    · rintro ⟨j, rest, rfl, found⟩
      cases j with
      | zero => exact .inl ⟨rest, rfl, (mem_strings item keyed.1 rest text).mpr found⟩
      | succ j => exact .inr ⟨j, rest, by rw [Nat.add_assoc, Nat.add_comm 1], found⟩

theorem mem_stringsMembers : ∀ (members : List (String × Json)), WellKeyedMembers members → (members.map Prod.fst).Nodup →
    ∀ position text, (position, text) ∈ stringsMembers members ↔ ∃ key rest, position = .key key :: rest ∧
      (((members.find? fun member => member.1 = key).map Prod.snd).bind fun value => value.get? rest) = some (.str text)
  | [], _, _, position, text => by simp [stringsMembers]
  | (key, value) :: members, keyed, once, position, text => by
    obtain ⟨new, once⟩ := List.nodup_cons.mp once
    rw [stringsMembers, List.mem_append, mem_step, mem_stringsMembers members keyed.2 once]
    have elsewhere : ∀ other, (members.find? fun member => member.1 = other).isSome = true → other ≠ key := by
      rintro other found rfl
      obtain ⟨member, inside, same⟩ := List.find?_isSome.mp found
      exact new (List.mem_map.mpr ⟨member, inside, by simpa using same⟩)
    constructor
    · rintro (⟨rest, rfl, member⟩ | ⟨other, rest, rfl, found⟩)
      · exact ⟨key, rest, rfl, by simpa using (mem_strings value keyed.1 rest text).mp member⟩
      · refine ⟨other, rest, rfl, ?_⟩
        have unlike : other ≠ key := by
          apply elsewhere
          by_contra missing
          rw [Option.not_isSome_iff_eq_none.mp missing] at found
          cases found
        rwa [List.find?_cons_of_neg (by simpa using Ne.symm unlike)]
    · rintro ⟨other, rest, rfl, found⟩
      by_cases same : key = other
      · subst other
        exact .inl ⟨rest, rfl, (mem_strings value keyed.1 rest text).mpr (by simpa using found)⟩
      · rw [List.find?_cons_of_neg (by simpa using same)] at found
        exact .inr ⟨other, rest, rfl, found⟩
end

private theorem nodup_step {found : List (List Step × String)} (step : Step) (once : (found.map Prod.fst).Nodup) :
    ((found.map (Prod.map (step :: ·) id)).map Prod.fst).Nodup := by
  have prefixed : (found.map (Prod.map (step :: ·) id)).map Prod.fst = (found.map Prod.fst).map (step :: ·) := by
    rw [List.map_map, List.map_map]
    rfl
  rw [prefixed]
  exact once.map fun _ _ same => (List.cons.inj same).2

mutual
theorem strings_nodup : ∀ (json : Json), json.WellKeyed → (json.strings.map Prod.fst).Nodup
  | .null, _ | .bool _, _ | .int _, _ | .float _, _ | .nonfinite, _ => by simp [strings]
  | .str _, _ => by simp [strings]
  | .arr items, keyed => stringsItems_nodup 0 items keyed
  | .obj members, keyed => stringsMembers_nodup members keyed.2 keyed.1

theorem stringsItems_nodup : ∀ (i : Nat) (items : List Json), WellKeyedItems items →
    ((stringsItems i items).map Prod.fst).Nodup
  | _, [], _ => by simp [stringsItems]
  | i, item :: items, keyed => by
    rw [stringsItems, List.map_append, List.nodup_append]
    refine ⟨nodup_step _ (strings_nodup item keyed.1), stringsItems_nodup (i + 1) items keyed.2, ?_⟩
    rintro position first other second rfl
    obtain ⟨⟨_, text⟩, member, rfl⟩ := List.mem_map.mp first
    obtain ⟨⟨_, text'⟩, member', same⟩ := List.mem_map.mp second
    obtain ⟨rest, rfl, -⟩ := mem_step.mp member
    obtain ⟨j, rest', rfl, -⟩ := (mem_stringsItems items keyed.2 _ text').mp member'
    simp only [List.cons.injEq, Step.index.injEq] at same
    omega

theorem stringsMembers_nodup : ∀ (members : List (String × Json)), WellKeyedMembers members →
    (members.map Prod.fst).Nodup → ((stringsMembers members).map Prod.fst).Nodup
  | [], _, _ => by simp [stringsMembers]
  | (key, value) :: members, keyed, once => by
    obtain ⟨new, once⟩ := List.nodup_cons.mp once
    rw [stringsMembers, List.map_append, List.nodup_append]
    refine ⟨nodup_step _ (strings_nodup value keyed.1), stringsMembers_nodup members keyed.2 once, ?_⟩
    rintro position first other second rfl
    obtain ⟨⟨_, text⟩, member, rfl⟩ := List.mem_map.mp first
    obtain ⟨⟨_, text'⟩, member', same⟩ := List.mem_map.mp second
    obtain ⟨rest, rfl, -⟩ := mem_step.mp member
    obtain ⟨other, rest', rfl, found⟩ := (mem_stringsMembers members keyed.2 once _ text').mp member'
    simp only [List.cons.injEq, Step.key.injEq] at same
    obtain ⟨rfl, -⟩ := same
    cases found' : members.find? fun member => member.1 = other with
    | none =>
      rw [found'] at found
      cases found
    | some member =>
      have inside := List.mem_of_find?_eq_some found'
      have named := List.find?_some found'
      exact new (List.mem_map.mpr ⟨member, inside, by simpa using named⟩)
end

/-- The value has an object with this key. -/
def HasKey (json : Json) (key : String) : Prop :=
  ∃ position members, json.get? position = some (.obj members) ∧ key ∈ members.map Prod.fst

theorem get?_append (json : Json) (first second : List Step) :
    json.get? (first ++ second) = (json.get? first).bind fun part => part.get? second := by
  induction first generalizing json with
  | nil => rfl
  | cons step first ih =>
    simp only [List.cons_append, get?, Option.bind_assoc]
    cases json.child step with
    | none => rfl
    | some part => exact ih part

/-- A key on the way to a part is a key of the value. -/
theorem HasKey.of_get? {json part : Json} {position : List Step} {key : String} (found : json.get? position = some part)
    (through : .key key ∈ position) : json.HasKey key := by
  obtain ⟨first, second, rfl⟩ := List.append_of_mem through
  rw [get?_append] at found
  obtain ⟨whole, outer, inner⟩ := Option.bind_eq_some_iff.mp found
  obtain ⟨value, entry, -⟩ := Option.bind_eq_some_iff.mp inner
  cases whole with
  | obj members =>
    obtain ⟨member, found, -⟩ := Option.map_eq_some_iff.mp entry
    have named := List.find?_some found
    exact ⟨first, members, outer, List.mem_map.mpr ⟨member, List.mem_of_find?_eq_some found, by simpa using named⟩⟩
  | _ => cases entry

end Foundation.Json
