import PyScoped.Legacy.Templates

/-! The merge of a template with overrides, path by path, and what merging twice
comes to. -/

namespace PyScoped.Legacy.Templates
open Foundation Nested

variable {κ α : Type} [DecidableEq κ]

/-- What is at a key that may have a value already and may be overridden. -/
def combined (old new : Option (Nested κ α)) : Option (Nested κ α) :=
  match new with
  | none => old
  | some value => some (merged old value)

@[simp] theorem merged_leaf (old : Option (Nested κ α)) (value : α) : merged old (.leaf value) = .leaf value := by
  rw [merged]

@[simp] theorem merged_dict (base overrides : List (κ × Nested κ α)) :
    merged (some (.dict base)) (.dict overrides) = .dict (deepMerge base overrides) := by
  rw [merged]

theorem merged_plain {old : Option (Nested κ α)} (plain : ∀ base, old ≠ some (.dict base)) (value : Nested κ α) :
    merged old value = value := by
  cases value with
  | leaf value => rw [merged_leaf]
  | dict overrides =>
    rw [merged]
    exact plain

theorem merged_plain_of {old : Option (Nested κ α)} {value : Nested κ α}
    (apart : value.isDict = false ∨ ∀ other, old = some other → other.isDict = false) : merged old value = value := by
  rcases apart with leaf | plain
  · cases value with
    | leaf value => rw [merged_leaf]
    | dict overrides => cases leaf
  · exact merged_plain (fun base same => nomatch plain _ same) value

theorem merged_none (value : Nested κ α) : merged none value = value := by
  apply merged_plain
  intro base same
  cases same

variable {base overrides : List (κ × Nested κ α)}

theorem keys_deepMerge (nodup : (overrides.map Prod.fst).Nodup) :
    (deepMerge base overrides).map Prod.fst =
      base.map Prod.fst ++ (overrides.map Prod.fst).filter fun key => key ∉ base.map Prod.fst := by
  induction overrides generalizing base with
  | nil => simp [deepMerge]
  | cons item overrides ih =>
    obtain ⟨key, value⟩ := item
    obtain ⟨fresh, nodup⟩ := List.nodup_cons.mp nodup
    rw [deepMerge, ih nodup, keys_assignItem]
    by_cases known : key ∈ base.map Prod.fst
    · rw [if_pos known, List.map_cons, List.filter_cons_of_neg (by simpa using known)]
    · have rest : (overrides.map Prod.fst).filter (fun other => other ∉ base.map Prod.fst ++ [key]) =
          (overrides.map Prod.fst).filter fun other => other ∉ base.map Prod.fst := by
        refine List.filter_congr fun other inside => ?_
        have different : other ≠ key := fun same => fresh (same ▸ inside)
        simp [different]
      rw [if_neg known, rest, List.map_cons, List.filter_cons_of_pos (by simpa using known), List.append_assoc]
      rfl

theorem get?_deepMerge (nodup : (overrides.map Prod.fst).Nodup) (key : κ) :
    get? (deepMerge base overrides) key = combined (get? base key) (get? overrides key) := by
  induction overrides generalizing base with
  | nil => rfl
  | cons item overrides ih =>
    obtain ⟨here, value⟩ := item
    obtain ⟨fresh, nodup⟩ := List.nodup_cons.mp nodup
    rw [deepMerge, ih nodup, get?_assignItem, get?_cons]
    by_cases same : here = key
    · subst same
      rw [if_pos rfl, if_pos rfl, get?_eq_none.mpr fresh]
      rfl
    · rw [if_neg same, if_neg same]

theorem deepMerge_nodup (kept : (base.map Prod.fst).Nodup)
    (nodup : (overrides.map Prod.fst).Nodup) : ((deepMerge base overrides).map Prod.fst).Nodup := by
  rw [keys_deepMerge nodup, List.nodup_append']
  refine ⟨kept, nodup.filter _, fun key inside added => ?_⟩
  exact absurd inside (by simpa using (List.mem_filter.mp added).2)

theorem merged_distinct {value : Nested κ α} (distinct : Distinct value) {old : Option (Nested κ α)}
    (before : ∀ other, old = some other → Distinct other) : Distinct (merged old value) := by
  induction value using inductionOn generalizing old with
  | leaf value =>
    rw [merged_leaf]
    exact distinct
  | dict overrides ih =>
    by_cases isDict : ∃ base, old = some (.dict base)
    · obtain ⟨base, rfl⟩ := isDict
      have kept := before _ rfl
      rw [merged_dict]
      refine .of_values (deepMerge_nodup kept.nodup distinct.nodup) fun key value found => ?_
      rw [get?_deepMerge distinct.nodup] at found
      cases given : get? overrides key with
      | none =>
        rw [given] at found
        exact kept.value found
      | some new =>
        rw [given] at found
        rw [← Option.some.inj found]
        exact ih _ (mem_of_get? given) (distinct.value given) fun other known => kept.value known
    · rw [merged_plain fun base same => isDict ⟨base, same⟩]
      exact distinct

theorem deepMerge_distinct (kept : Distinct (.dict base))
    (distinct : Distinct (.dict overrides)) : Distinct (Nested.dict (deepMerge base overrides)) := by
  rw [← merged_dict]
  exact merged_distinct distinct fun other same => Option.some.inj same ▸ kept

theorem deepMerge_nil (distinct : Distinct (.dict overrides)) :
    deepMerge [] overrides = overrides := by
  refine items_ext (deepMerge_nodup List.nodup_nil distinct.nodup) ?_ fun key => ?_
  · rw [keys_deepMerge distinct.nodup]
    simp
  · rw [get?_deepMerge distinct.nodup, get?_nil]
    cases given : get? overrides key with
    | none => rfl
    | some value => exact congrArg some (merged_none value)

section Idempotent

/-- What has been overridden is not changed by the same override. -/
theorem merged_merged {value : Nested κ α} (distinct : Distinct value) {old : Option (Nested κ α)}
    (before : ∀ other, old = some other → Distinct other) : merged (some (merged old value)) value = merged old value := by
  induction value using inductionOn generalizing old with
  | leaf value => rw [merged_leaf, merged_leaf]
  | dict overrides ih =>
    have again : ∀ base, Distinct (.dict base) → deepMerge (deepMerge base overrides) overrides = deepMerge base overrides := by
      intro base kept
      have once := deepMerge_distinct kept distinct
      refine items_ext (deepMerge_nodup once.nodup distinct.nodup) ?_ fun key => ?_
      · rw [keys_deepMerge distinct.nodup, List.filter_eq_nil_iff.mpr, List.append_nil]
        intro key inside
        rw [keys_deepMerge distinct.nodup]
        by_cases known : key ∈ base.map Prod.fst
        · simp [known]
        · simp [known, inside]
      · rw [get?_deepMerge distinct.nodup, get?_deepMerge distinct.nodup]
        cases given : get? overrides key with
        | none => rfl
        | some new =>
          exact congrArg some (ih _ (mem_of_get? given) (distinct.value given) fun other known => kept.value known)
    by_cases isDict : ∃ base, old = some (.dict base)
    · obtain ⟨base, rfl⟩ := isDict
      rw [merged_dict, merged_dict, again base (before _ rfl)]
    · have empty : Distinct (Nested.dict ([] : List (κ × Nested κ α))) := .dict List.nodup_nil fun _ inside => absurd inside List.not_mem_nil
      have itself := again [] empty
      rw [deepMerge_nil distinct] at itself
      rw [merged_plain fun base same => isDict ⟨base, same⟩, merged_dict, itself]

end Idempotent

section Associative

/-- No key path holds a dictionary in one of the two and something else in the other. -/
def Compatible (first second : Nested κ α) : Prop :=
  ∀ path one two, first.at? path = some one → second.at? path = some two → one.isDict = two.isDict

theorem Compatible.under {first second : List (κ × Nested κ α)} (compatible : Compatible (.dict first) (.dict second)) {key : κ}
    {one two : Nested κ α} (found : get? first key = some one) (found' : get? second key = some two) : Compatible one two := by
  intro path end' end'' reached reached'
  apply compatible (key :: path)
  · rw [at?_dict, found]
    exact reached
  · rw [at?_dict, found']
    exact reached'

/-- Overriding twice is overriding once with both overrides. -/
theorem combined_assoc (base first : Option (Nested κ α)) {second : Nested κ α} (distinct : Distinct second)
    (before : ∀ other, base = some other → Distinct other) (between : ∀ other, first = some other → Distinct other)
    (compatible : ∀ other, first = some other → Compatible other second) :
    combined (combined base first) (some second) = combined base (combined first (some second)) := by
  induction second using inductionOn generalizing base first with
  | leaf value =>
    have replaced : ∀ old : Option (Nested κ α), combined old (some (.leaf value)) = some (.leaf value) := by
      intro old
      exact congrArg some (merged_leaf old value)
    rw [replaced, replaced, replaced]
  | dict overrides ih =>
    cases first with
    | none => rfl
    | some first =>
      cases first with
      | leaf value =>
        have same := compatible _ rfl [] _ _ (at?_nil _) (at?_nil _)
        cases same
      | dict middle =>
        have kept := between _ rfl
        have agree := compatible _ rfl
        by_cases isDict : ∃ items, base = some (.dict items)
        · obtain ⟨items, rfl⟩ := isDict
          have known := before _ rfl
          have nodup := deepMerge_nodup kept.nodup distinct.nodup
          have once := deepMerge_nodup known.nodup kept.nodup
          have items_eq : deepMerge (deepMerge items middle) overrides = deepMerge items (deepMerge middle overrides) := by
            refine items_ext (deepMerge_nodup once distinct.nodup) ?_ fun key => ?_
            · rw [keys_deepMerge distinct.nodup, keys_deepMerge kept.nodup, keys_deepMerge nodup, keys_deepMerge distinct.nodup,
                List.filter_append, List.append_assoc, List.filter_filter]
              congr 2
              refine List.filter_congr fun key _ => ?_
              by_cases there : key ∈ items.map Prod.fst
              · simp [there]
              · by_cases here : key ∈ middle.map Prod.fst
                · simp [there, here]
                · simp [there, here]
            · rw [get?_deepMerge distinct.nodup, get?_deepMerge kept.nodup, get?_deepMerge nodup, get?_deepMerge distinct.nodup]
              cases given : get? overrides key with
              | none => rfl
              | some new =>
                apply ih _ (mem_of_get? given) _ _ (distinct.value given)
                · exact fun other found => known.value found
                · exact fun other found => kept.value found
                · exact fun other found => agree.under found given
          simp only [combined, merged_dict, items_eq]
        · have plain : ∀ items, base ≠ some (.dict items) := fun items same => isDict ⟨items, same⟩
          simp only [combined, merged_plain plain]

theorem deepMerge_assoc {first second : List (κ × Nested κ α)} (before : Distinct (.dict base))
    (between : Distinct (.dict first)) (distinct : Distinct (.dict second)) (compatible : Compatible (.dict first) (.dict second)) :
    deepMerge (deepMerge base first) second = deepMerge base (deepMerge first second) := by
  have both := combined_assoc (some (.dict base)) (some (.dict first)) distinct (fun _ same => Option.some.inj same ▸ before)
    (fun _ same => Option.some.inj same ▸ between) fun _ same => Option.some.inj same ▸ compatible
  simp only [combined, merged_dict] at both
  exact Nested.dict.inj (Option.some.inj both)

end Associative

section Paths

/-- A proper part of the path ends at something that is no dictionary. -/
def Cut (value : Nested κ α) (path : List κ) : Prop :=
  ∃ shorter, shorter <+: path ∧ shorter ≠ path ∧ ∃ last, value.at? shorter = some (.leaf last)

theorem cut_leaf (value : α) (key : κ) (path : List κ) : Cut (.leaf value) (key :: path) :=
  ⟨[], List.nil_prefix, nofun, value, at?_nil _⟩

theorem cut_dict {items : List (κ × Nested κ α)} {key : κ} {path : List κ} :
    Cut (.dict items) (key :: path) ↔ ∃ value, get? items key = some value ∧ Cut value path := by
  constructor
  · intro ⟨shorter, before, proper, last, ends⟩
    cases shorter with
    | nil => cases ends
    | cons key' shorter =>
      obtain ⟨rfl, rest⟩ := List.cons_prefix_cons.mp before
      obtain ⟨value, found, ends⟩ := Option.bind_eq_some_iff.mp ends
      exact ⟨value, found, shorter, rest, fun same => proper (congrArg _ same), last, ends⟩
  · intro ⟨value, found, shorter, before, proper, last, ends⟩
    refine ⟨key :: shorter, List.cons_prefix_cons.mpr ⟨rfl, before⟩, fun same => proper (List.cons.inj same).2, last, ?_⟩
    rw [at?_dict, found]
    exact ends

variable {old : Option (Nested κ α)} {value new : Nested κ α} {path : List κ}

theorem at?_merged_dict (base : List (κ × Nested κ α)) (nodup : (overrides.map Prod.fst).Nodup)
    (key : κ) (path : List κ) : (merged (some (.dict base)) (.dict overrides)).at? (key :: path) =
      (combined (get? base key) (get? overrides key)).bind fun value => value.at? path := by
  rw [merged_dict, at?_dict, get?_deepMerge nodup]

theorem at?_merged_some (distinct : Distinct value) (given : value.at? path = some new) :
    (merged old value).at? path = some (merged (old.bind fun old => old.at? path) new) := by
  induction path generalizing old value with
  | nil =>
    cases given
    rw [at?_nil]
    cases old with
    | none => rfl
    | some old => rw [Option.bind_some, at?_nil]
  | cons key path ih =>
    cases value with
    | leaf value => cases given
    | dict overrides =>
      obtain ⟨inner, found, ends⟩ := Option.bind_eq_some_iff.mp given
      by_cases isDict : ∃ base, old = some (.dict base)
      · obtain ⟨base, rfl⟩ := isDict
        rw [at?_merged_dict base distinct.nodup, found, Option.bind_some, at?_dict]
        exact ih (distinct.value found) ends
      · have nowhere : (old.bind fun old => old.at? (key :: path)) = none := by
          cases old with
          | none => rfl
          | some old =>
            cases old with
            | leaf value => rfl
            | dict base => exact absurd ⟨base, rfl⟩ isDict
        rw [merged_plain fun base same => isDict ⟨base, same⟩, given, nowhere, merged_none]

theorem at?_merged_cut (distinct : Distinct value) (missing : value.at? path = none) (cut : Cut value path) :
    (merged old value).at? path = none := by
  induction path generalizing old value with
  | nil => rw [at?_nil] at missing; cases missing
  | cons key path ih =>
    cases value with
    | leaf value => rw [merged_leaf, at?_leaf]
    | dict overrides =>
      obtain ⟨inner, found, cut⟩ := cut_dict.mp cut
      by_cases isDict : ∃ base, old = some (.dict base)
      · obtain ⟨base, rfl⟩ := isDict
        rw [at?_dict, found] at missing
        rw [at?_merged_dict base distinct.nodup, found]
        exact ih (distinct.value found) missing cut
      · rw [merged_plain fun base same => isDict ⟨base, same⟩, missing]

theorem at?_merged_none (distinct : Distinct value) (missing : value.at? path = none) (uncut : ¬ Cut value path) :
    (merged old value).at? path = old.bind fun old => old.at? path := by
  induction path generalizing old value with
  | nil => rw [at?_nil] at missing; cases missing
  | cons key path ih =>
    cases value with
    | leaf value => exact absurd (cut_leaf value key path) uncut
    | dict overrides =>
      by_cases isDict : ∃ base, old = some (.dict base)
      · obtain ⟨base, rfl⟩ := isDict
        rw [at?_merged_dict base distinct.nodup, Option.bind_some, at?_dict]
        cases found : get? overrides key with
        | none => rfl
        | some inner =>
          rw [at?_dict, found] at missing
          exact ih (distinct.value found) missing fun cut => uncut (cut_dict.mpr ⟨inner, found, cut⟩)
      · rw [merged_plain fun base same => isDict ⟨base, same⟩, missing]
        cases old with
        | none => rfl
        | some old =>
          cases old with
          | leaf value => rfl
          | dict base => exact absurd ⟨base, rfl⟩ isDict

end Paths

/-- What the result has at a path: the override where one of the two is no dictionary,
the merge of two dictionaries, nothing below a value that was replaced, and else
what the base has. -/
structure Overridden (base overrides result : Nested κ α) (path : List κ) : Prop where
  replaced : ∀ new, overrides.at? path = some new →
    (new.isDict = false ∨ ∀ old, base.at? path = some old → old.isDict = false) → result.at? path = some new
  merged : ∀ olds news, base.at? path = some (.dict olds) → overrides.at? path = some (.dict news) →
    result.at? path = some (.dict (deepMerge olds news))
  removed : overrides.at? path = none → Cut overrides path → result.at? path = none
  kept : overrides.at? path = none → ¬ Cut overrides path → result.at? path = base.at? path

theorem merged_overridden (base : Nested κ α) {overrides : Nested κ α} (distinct : Distinct overrides) (path : List κ) :
    Overridden base overrides (merged (some base) overrides) path := by
  constructor
  · intro new given apart
    rw [at?_merged_some distinct given, Option.bind_some, merged_plain_of apart]
  · intro olds news known given
    rw [at?_merged_some distinct given, Option.bind_some, known, merged_dict]
  · exact at?_merged_cut distinct
  · exact at?_merged_none distinct

/-- The merge overrides path by path, a second time changes nothing, and two
overrides that agree on what is a dictionary may be merged first. -/
theorem deepMerge_overrides (base overrides first second : Dict κ α) :
    (∀ path, Overridden (.dict base.items) (.dict overrides.items) (.dict (deepMerge base.items overrides.items)) path) ∧
    deepMerge (deepMerge base.items overrides.items) overrides.items = deepMerge base.items overrides.items ∧
    (Compatible (.dict first.items) (.dict second.items) →
      deepMerge (deepMerge base.items first.items) second.items = deepMerge base.items (deepMerge first.items second.items)) := by
  refine ⟨fun path => ?_, ?_, deepMerge_assoc base.distinct first.distinct second.distinct⟩
  · have overridden := merged_overridden (.dict base.items) overrides.distinct path
    rwa [merged_dict] at overridden
  · have again := merged_merged overrides.distinct fun other (same : some (.dict base.items) = some other) =>
      Option.some.inj same ▸ base.distinct
    rw [merged_dict, merged_dict] at again
    exact Nested.dict.inj again

theorem getTemplate_ok {store : TemplateStore α} {templateId : String} {template : Template α}
    (found : store.getTemplate templateId = .ok template) : template ∈ store.templates ∧ template.id = templateId := by
  unfold TemplateStore.getTemplate at found
  split at found
  · cases found
  next first =>
    cases found
    exact ⟨List.mem_of_find?_eq_some first, by simpa using List.find?_some first⟩

/-- What `schema` is instantiated: that of the template, or of one of its versions. -/
def Offers (store : TemplateStore α) (template : Template α) (version : Option Int) (schema : Dict String α) : Prop :=
  version = none ∧ schema = template.schema ∨
    ∃ row ∈ store.versions, row.templateId = template.id ∧ version = some row.version ∧ schema = row.schema

theorem chosen_ok {store : TemplateStore α} {templateId : String} {template : Template α} {version : Option Int}
    {schema : Dict String α} {used : Nat} (named : template.id = templateId)
    (taken : store.chosen templateId template version = .ok (schema, used)) : Offers store template version schema := by
  cases version with
  | none =>
    cases taken
    exact .inl ⟨rfl, rfl⟩
  | some version =>
    unfold TemplateStore.chosen TemplateStore.getVersion at taken
    dsimp only at taken
    split at taken
    · cases taken
    next row first =>
      cases taken
      have same : row.templateId = templateId ∧ row.version = version := by simpa using List.find?_some first
      exact .inr ⟨row, List.mem_of_find?_eq_some first, same.1.trans named.symm, congrArg some same.2.symm, rfl⟩

/-- An instantiation that returns is of an active template, and overrides the schema
that the template offers. -/
theorem instantiate_overrides {store : TemplateStore α} {templateId : String} {overrides : Option (Dict String α)} {version : Option Int}
    {result : InstantiationResult α} (returned : store.instantiate templateId overrides version = .ok result) :
    ∃ template ∈ store.templates, template.id = templateId ∧ template.lifecycle = .active ∧
      ∃ schema, Offers store template version schema ∧
        ∀ path, Overridden (.dict schema.items) (.dict result.overridesApplied) (.dict result.data) path := by
  have distinct : Distinct (Nested.dict (overrides.elim [] Dict.items)) := by
    cases overrides with
    | none => exact .dict List.nodup_nil fun _ inside => absurd inside List.not_mem_nil
    | some overrides => exact overrides.distinct
  unfold TemplateStore.instantiate at returned
  cases found : store.getTemplate templateId with
  | error error =>
    rw [found] at returned
    cases returned
  | ok template =>
    obtain ⟨inside, named⟩ := getTemplate_ok found
    rw [found] at returned
    change (if template.lifecycle = .active then _ else _) = _ at returned
    split at returned
    next active =>
      refine ⟨template, inside, named, active, ?_⟩
      cases taken : store.chosen templateId template version with
      | error error =>
        rw [taken] at returned
        cases returned
      | ok choice =>
        rw [taken] at returned
        cases returned
        refine ⟨choice.1, chosen_ok named taken, fun path => ?_⟩
        rw [← merged_dict]
        exact merged_overridden _ distinct path
    · cases returned

/-- A dictionary with one key. -/
def single (key : String) (value : Nested String Int) (distinct : Distinct value) : Dict String Int where
  items := [(key, value)]
  distinct := .dict (List.nodup_singleton key) fun item inside => by
    rw [List.mem_singleton.mp inside]
    exact distinct

/-- A dictionary that holds another one. -/
def holding (key : String) (inner : Dict String Int) : Dict String Int := single key (.dict inner.items) inner.distinct

/-- A dictionary that holds a number. -/
def number (key : String) (n : Int) : Dict String Int := single key (.leaf n) (.leaf n)

def dailyLimits : Dict String Int := holding "limits" (holding "daily" (number "calls" 100))

def limit (period : String) (calls : Int) : Dict String Int := holding "limits" (number period calls)

/-- A number takes the place of the limits, with everything below them. -/
theorem replaced_limits_gone : ¬ ∀ (base overrides : Dict String Int) (path : List String),
    (Nested.dict (deepMerge base.items overrides.items)).at? path =
      match (Nested.dict overrides.items).at? path, (Nested.dict base.items).at? path with
      | some (.dict news), some (.dict olds) => some (.dict (deepMerge olds news))
      | some new, _ => some new
      | none, old => old := by
  intro always
  have below := always dailyLimits (number "limits" 5) ["limits", "daily"]
  cases below

theorem at?_single {key : String} {value : Nested String Int} {distinct : Distinct value} (other : String) (path : List String) :
    (Nested.dict (single key value distinct).items).at? (other :: path) = if key = other then value.at? path else none := by
  rw [at?_dict, single, get?_cons, get?_nil]
  split <;> rfl

/-- Overrides of different limits may be merged first. -/
theorem deepMerge_overrides_limits :
    deepMerge (deepMerge dailyLimits.items (limit "daily" 1).items) (limit "weekly" 2).items =
      deepMerge dailyLimits.items (deepMerge (limit "daily" 1).items (limit "weekly" 2).items) := by
  apply (deepMerge_overrides dailyLimits (limit "weekly" 2) (limit "daily" 1) (limit "weekly" 2)).2.2
  intro path one two reached reached'
  match path with
  | [] =>
    cases reached
    cases reached'
    rfl
  | [key] =>
    rw [limit, holding, at?_single] at reached reached'
    split at reached
    next limits =>
      rw [if_pos limits] at reached'
      cases reached
      cases reached'
      rfl
    · cases reached
  | key :: inner :: path =>
    rw [limit, holding, at?_single] at reached reached'
    split at reached
    next limits =>
      rw [if_pos limits] at reached'
      rw [number, at?_single] at reached reached'
      split at reached
      next daily =>
        rw [← daily, if_neg (by decide)] at reached'
        cases reached'
      · cases reached
    · cases reached

end PyScoped.Legacy.Templates
