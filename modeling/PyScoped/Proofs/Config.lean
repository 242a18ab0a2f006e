import PyScoped.Foundation.Tombstones
import PyScoped.Legacy.Config

/-! Settings are found alike by key and all at once. They are a map from scopes
and keys exactly as long as no key is set again after it was deleted. -/

namespace PyScoped.Legacy.Config
open Foundation

theorem fetchOne_iff (database : Database) (scopeId key : String) (row : SettingRow) :
    database.fetchOne scopeId key = some row ↔
      row ∈ database.settings ∧ row.address = (scopeId, key) ∧ row.isActive = true := by
  rw [Database.fetchOne, Tombstones.find_unique, decide_eq_true_eq]
  intro first firstIn second secondIn one other
  exact List.inj_on_of_nodup_map database.unique firstIn secondIn
    ((of_decide_eq_true one).1.trans (of_decide_eq_true other).1.symm)

/-- What is in force in the scope itself under a key. -/
def Database.current (database : Database) (address : String × String) : Option Json :=
  (ConfigStore.get database address.1 address.2).map (·.value)

/-- Some row of the key in the scope is in force with the value. -/
def Database.Live (database : Database) (address : String × String) (value : Json) : Prop :=
  ∃ row ∈ database.settings, row.address = address ∧ row.lifecycle = .active ∧ row.valueJson.getD .null = value

theorem current_iff (database : Database) (address : String × String) (value : Json) :
    database.current address = some value ↔ database.Live address value := by
  simp only [Database.current, ConfigStore.get, Option.map_map, Option.map_eq_some_iff, fetchOne_iff]
  constructor
  · rintro ⟨row, ⟨member, same, active⟩, rfl⟩
    exact ⟨row, member, same, of_decide_eq_true active, rfl⟩
  · rintro ⟨row, member, same, active, rfl⟩
    exact ⟨row, ⟨member, same, decide_eq_true active⟩, rfl⟩

theorem current_none_iff (database : Database) (address : String × String) :
    database.current address = none ↔ ∀ value, ¬database.Live address value := by
  simp only [← current_iff, ← Option.eq_none_iff_forall_ne_some]

theorem mem_listSettings (database : Database) (scopeId : String) (setting : ScopedSetting) :
    setting ∈ ConfigStore.listSettings database scopeId false ↔
      ∃ key, ConfigStore.get database scopeId key = some setting ∧ setting.key = key := by
  simp only [ConfigStore.listSettings, List.mem_map, (List.perm_insertionSort _ _).mem_iff, List.mem_filter]
  constructor
  · rintro ⟨row, ⟨member, holds⟩, rfl⟩
    have holds : row.scopeId = scopeId ∧ row.isActive = true := by simpa using holds
    refine ⟨row.key, ?_, rfl⟩
    rw [ConfigStore.get, (fetchOne_iff database scopeId row.key row).mpr ⟨member, by rw [← holds.1]; rfl, holds.2⟩]
    rfl
  · rintro ⟨key, found, -⟩
    obtain ⟨row, fetched, rfl⟩ := Option.map_eq_some_iff.mp found
    obtain ⟨member, same, active⟩ := (fetchOne_iff database scopeId key row).mp fetched
    have scope : row.scopeId = scopeId := congrArg Prod.fst same
    exact ⟨row, ⟨member, by simp [active, scope]⟩, rfl⟩

variable {database : Database} {key : String}

theorem get_key {scopeId : String} {setting : ScopedSetting}
    (found : ConfigStore.get database scopeId key = some setting) : setting.key = key := by
  obtain ⟨row, fetched, rfl⟩ := Option.map_eq_some_iff.mp found
  exact congrArg Prod.snd ((fetchOne_iff database scopeId key row).mp fetched).2.1

theorem listSettings_keys (database : Database) (scopeId : String) :
    ((ConfigStore.listSettings database scopeId false).map (·.key)).Nodup := by
  have keys : (fun setting : ScopedSetting => setting.key) ∘ settingFromRow = fun row => row.key := rfl
  rw [ConfigStore.listSettings, List.map_map, keys,
    ((List.perm_insertionSort _ _).map (fun row : SettingRow => row.key)).nodup_iff]
  refine List.Nodup.map_on ?_ ((List.Nodup.of_map _ database.unique).filter _)
  intro first firstIn second secondIn same
  obtain ⟨firstIn, one⟩ := List.mem_filter.mp firstIn
  obtain ⟨secondIn, other⟩ := List.mem_filter.mp secondIn
  have scope : first.scopeId = second.scopeId := (of_decide_eq_true one).1.trans (of_decide_eq_true other).1.symm
  exact List.inj_on_of_nodup_map database.unique firstIn secondIn (Prod.ext scope same)

namespace ConfigResolver

/-- The values that the scopes themselves have for a key, in the order given. -/
def values (database : Database) (key : String) (sids : List String) : List (String × Json) :=
  sids.filterMap fun sid => (ConfigStore.get database sid key).map fun setting => (sid, setting.value)

/-- What has been resolved for a key once these values were met. -/
def settled (scopeId key : String) (met : List (String × Json)) : Option ResolvedSetting :=
  met.getLast?.map fun (winnerScope, winnerValue) =>
    { key, value := winnerValue, sourceScopeId := winnerScope, inherited := winnerScope ≠ scopeId
      resolutionChain := met }

theorem resolve_eq (database : Database) (maxDepth : Int) (scopeId key : String) :
    resolve database maxDepth scopeId key =
      settled scopeId key (values database key (chain database (turns maxDepth) scopeId).reverse) := rfl

/-- The dictionaries hold, under a key, what the values met so far give. -/
def Met (scopeId key : String) (met : List (String × Json)) (collected : Collected) : Prop :=
  (collected.chains key).getD [] = met ∧ collected.result key = settled scopeId key met

variable {met : List (String × Json)}

theorem Met.collect {scopeId : String} {collected : Collected}
    (before : Met scopeId key met collected) (sid : String) (setting : ScopedSetting) :
    Met scopeId key (if setting.key = key then met ++ [(sid, setting.value)] else met)
      (ConfigResolver.collect scopeId sid collected setting) := by
  by_cases same : setting.key = key
  · subst same
    simp [Met, ConfigResolver.collect, settled, before.1]
  · have other : key ≠ setting.key := fun equal => same equal.symm
    simpa [Met, ConfigResolver.collect, same, other] using before

theorem Met.foldl {scopeId : String} {collected : Collected}
    (before : Met scopeId key met collected) (sid : String) (settings : List ScopedSetting)
    (once : (settings.map (·.key)).Nodup) :
    Met scopeId key (met ++ ((settings.find? (·.key = key)).map fun setting => (sid, setting.value)).toList)
      (settings.foldl (ConfigResolver.collect scopeId sid) collected) := by
  induction settings generalizing met collected with
  | nil => simpa using before
  | cons setting settings ih =>
    obtain ⟨fresh, once⟩ := List.nodup_cons.mp once
    have step := ih (before.collect sid setting) once
    by_cases same : setting.key = key
    · have rest : settings.find? (·.key = key) = none := by
        rw [List.find?_eq_none]
        intro other member
        have : other.key ≠ key := fun equal => fresh (List.mem_map.mpr ⟨other, member, equal.trans same.symm⟩)
        simpa using this
      simpa [same, rest] using step
    · simpa [same] using step

theorem find_listSettings (database : Database) (sid key : String) :
    (ConfigStore.listSettings database sid false).find? (·.key = key) = ConfigStore.get database sid key := by
  refine Option.ext fun setting => ?_
  rw [Tombstones.find_unique, mem_listSettings, decide_eq_true_eq]
  · constructor
    · rintro ⟨⟨_, found, rfl⟩, rfl⟩
      exact found
    · exact fun found => ⟨⟨key, found, get_key found⟩, get_key found⟩
  · intro first firstIn second secondIn one other
    exact List.inj_on_of_nodup_map (listSettings_keys database sid) firstIn secondIn
      ((of_decide_eq_true one).trans (of_decide_eq_true other).symm)

theorem met_walk (database : Database) (scopeId key : String) (sids : List String)
    {collected : Collected} (before : Met scopeId key met collected) :
    Met scopeId key (met ++ values database key sids) (sids.foldl (fun collected sid =>
      (ConfigStore.listSettings database sid false).foldl (ConfigResolver.collect scopeId sid) collected) collected) := by
  induction sids generalizing met collected with
  | nil => simpa [values] using before
  | cons sid sids ih =>
    have scope := before.foldl sid (ConfigStore.listSettings database sid false) (listSettings_keys database sid)
    rw [find_listSettings] at scope
    have rest := ih scope
    cases found : ConfigStore.get database sid key <;> simpa [values, found] using rest

/-- The scope that so many steps up the hierarchy lead to. -/
def ancestor (database : Database) : Nat → String → Option String
  | 0, scopeId => some scopeId
  | steps + 1, scopeId => (database.parentScopeId scopeId).bind (ancestor database steps)

/-- The first scope on the walk that has the key itself, with its value there. -/
def Wins (database : Database) (maxDepth : Int) (scopeId key source : String) (value : Json) : Prop :=
  ∃ steps : Nat, (steps : Int) ≤ maxDepth ∧ ancestor database steps scopeId = some source ∧
    database.Live (source, key) value ∧
    ∀ fewer < steps, ∀ other, ancestor database fewer scopeId = some other → ∀ value, ¬database.Live (other, key) value

theorem getElem?_chain (database : Database) (turns steps : Nat) (scopeId : String) :
    (chain database turns scopeId)[steps]? = if steps < turns then ancestor database steps scopeId else none := by
  induction turns generalizing steps scopeId with
  | zero => rfl
  | succ turns ih =>
    cases steps with
    | zero => rfl
    | succ steps =>
      simp only [chain, List.getElem?_cons_succ, ancestor, Nat.add_lt_add_iff_right]
      cases database.parentScopeId scopeId with
      | none => simp
      | some parent => exact ih steps parent

/-- What a scope of the walk contributes. -/
private def own (database : Database) (key sid : String) : Option (String × Json) :=
  (ConfigStore.get database sid key).map fun setting => (sid, setting.value)

private theorem own_eq_some {sid source : String} {value : Json} :
    own database key sid = some (source, value) ↔ sid = source ∧ database.Live (source, key) value := by
  rw [← current_iff]
  constructor
  · intro found
    obtain ⟨setting, read, same⟩ := Option.map_eq_some_iff.mp found
    obtain ⟨rfl, rfl⟩ := Prod.mk.inj same
    exact ⟨rfl, by simp [Database.current, read]⟩
  · rintro ⟨rfl, live⟩
    obtain ⟨setting, read, rfl⟩ := Option.map_eq_some_iff.mp live
    exact Option.map_eq_some_iff.mpr ⟨setting, read, rfl⟩

private theorem own_eq_none {sid : String} :
    own database key sid = none ↔ ∀ value, ¬database.Live (sid, key) value := by
  rw [own, Option.map_eq_none_iff, ← current_none_iff, Database.current, Option.map_eq_none_iff]

theorem first_on_chain (database : Database) (maxDepth : Int) (scopeId key source : String) (value : Json) :
    (chain database (turns maxDepth) scopeId).findSome? (own database key) = some (source, value) ↔
      Wins database maxDepth scopeId key source value := by
  have within : ∀ steps : Nat, steps < turns maxDepth ↔ (steps : Int) ≤ maxDepth := by
    intro steps
    simp only [turns]
    omega
  rw [List.findSome?_eq_some_iff]
  constructor
  · rintro ⟨before, sid, after, split, found, missed⟩
    obtain ⟨rfl, live⟩ := own_eq_some.mp found
    have place : ∀ steps, (before ++ sid :: after)[steps]? =
        if steps < turns maxDepth then ancestor database steps scopeId else none := by
      intro steps
      rw [← split, getElem?_chain]
    have here := place before.length
    rw [List.getElem?_append_right le_rfl, Nat.sub_self] at here
    have bounded : before.length < turns maxDepth := by
      by_contra beyond
      rw [if_neg beyond] at here
      cases here
    rw [if_pos bounded] at here
    refine ⟨before.length, (within _).mp bounded, here.symm, live, ?_⟩
    intro fewer less other above
    have there := place fewer
    rw [if_pos (less.trans bounded), above, List.getElem?_append_left less] at there
    exact own_eq_none.mp (missed other (List.mem_of_getElem? there))
  · rintro ⟨steps, bounded, above, live, missed⟩
    have bounded := (within steps).mpr bounded
    have here := getElem?_chain database (turns maxDepth) steps scopeId
    rw [if_pos bounded, above] at here
    obtain ⟨short, reads⟩ := List.getElem?_eq_some_iff.mp here
    refine ⟨(chain database (turns maxDepth) scopeId).take steps, source,
      (chain database (turns maxDepth) scopeId).drop (steps + 1), ?_, own_eq_some.mpr ⟨rfl, live⟩, ?_⟩
    · rw [← reads, ← List.drop_eq_getElem_cons short, List.take_append_drop]
    · intro other member
      obtain ⟨fewer, less, same⟩ := List.mem_take_iff_getElem.mp member
      have less : fewer < steps := by omega
      have there := getElem?_chain database (turns maxDepth) fewer scopeId
      rw [if_pos (less.trans bounded), List.getElem?_eq_getElem (less.trans short), same] at there
      exact own_eq_none.mpr (missed fewer less other there.symm)

/-- One key and all keys are resolved alike, and the nearest scope on the walk decides. -/
theorem resolveAll_agrees (database : Database) (maxDepth : Int) (scopeId key : String) :
    resolveAll database maxDepth scopeId key = resolve database maxDepth scopeId key ∧
      ∀ source value, Wins database maxDepth scopeId key source value ↔
        ∃ resolved, resolve database maxDepth scopeId key = some resolved ∧ resolved.sourceScopeId = source ∧
          resolved.value = value := by
  refine ⟨?_, fun source value => ?_⟩
  · have none : Met scopeId key [] ⟨fun _ => none, fun _ => none⟩ := ⟨rfl, rfl⟩
    rw [resolve_eq]
    exact (met_walk database scopeId key (chain database (turns maxDepth) scopeId).reverse none).2
  · have last : (values database key (chain database (turns maxDepth) scopeId).reverse).getLast? =
        (chain database (turns maxDepth) scopeId).findSome? (own database key) := by
      rw [values, List.filterMap_reverse, List.getLast?_reverse, List.head?_filterMap]
      rfl
    rw [← first_on_chain, ← last, resolve_eq, settled]
    constructor
    · intro found
      rw [found]
      exact ⟨_, rfl, rfl, rfl⟩
    · rintro ⟨resolved, found, rfl, rfl⟩
      obtain ⟨winner, won, rfl⟩ := Option.map_eq_some_iff.mp found
      exact won

end ConfigResolver

open Tombstones

/-- A call, with the time and the identifier that it is given. -/
inductive Call where
  | set (ts : DateTime) (settingId : ScopedId) (scopeId key : String) (value : Json) (principalId description : String)
  | delete (scopeId key principalId : String)

inductive Outcome where
  | setting (setting : ScopedSetting)
  | deleted (existed : Bool)

namespace Call

def program (audit : Bool) : Call → Program Outcome
  | .set ts settingId scopeId key value principalId description =>
    .setting <$> ConfigStore.set audit ts settingId scopeId key value principalId description
  | .delete scopeId key principalId => .deleted <$> ConfigStore.delete audit scopeId key principalId

def run (audit : Bool) (call : Call) (database : Database) : Except Raised Outcome × Database :=
  (call.program audit).on database

def scopeId : Call → String
  | .set _ _ scopeId _ _ _ _ => scopeId
  | .delete scopeId _ _ => scopeId

def principalId : Call → String
  | .set _ _ _ _ _ principalId _ => principalId
  | .delete _ _ principalId => principalId

def newId : Call → Option String
  | .set _ settingId _ _ _ _ _ => some settingId.text
  | .delete _ _ _ => none

/-- What the call is meant to do to the map from scopes and keys to values. -/
def step : Call → Step (String × String) Json
  | .set _ _ scopeId key value _ _ => .put (scopeId, key) value
  | .delete scopeId key _ => .drop fun address => address = (scopeId, key)

/-- A set succeeds, and a deletion tells whether the key was set. -/
def Answers (map : String × String → Option Json) : Call → Except Raised Outcome → Prop
  | .set _ _ _ _ value _ _, .ok (.setting setting) => setting.value = value
  | .delete scopeId key _, .ok (.deleted existed) => existed = true ↔ map (scopeId, key) ≠ none
  | _, _ => False

end Call

/-- The owner of the scope makes the call, and the scope is active. -/
def Database.Allows (database : Database) (call : Call) : Prop :=
  ∃ scope, database.scopes.find? (·.id = call.scopeId) = some scope ∧ scope.isActive = true ∧
    scope.ownerId = call.principalId

/-- Both ways of reading give the map's values and nothing else. -/
structure Database.Shows (database : Database) (map : String × String → Option Json) : Prop where
  get : ∀ scopeId key, (ConfigStore.get database scopeId key).map (·.value) = map (scopeId, key)
  listed : ∀ scopeId key value, (key, value) ∈
    (ConfigStore.listSettings database scopeId false).map (fun setting => (setting.key, setting.value)) ↔
      map (scopeId, key) = some value
  once : ∀ scopeId, ((ConfigStore.listSettings database scopeId false).map (·.key)).Nodup

/-- Every call from here on is answered as by the map, which both ways of reading then give. -/
def BehavesAsMap (audit : Bool) : Database → (String × String → Option Json) → List Call → Prop
  | database, map, [] => database.Shows map
  | database, map, call :: calls =>
    call.Answers map (call.run audit database).1 ∧
      BehavesAsMap audit (call.run audit database).2 (call.step.intended map) calls

/-- What a row says about its key. -/
def SettingRow.slot (row : SettingRow) : Slot Json :=
  if row.isActive then .live (row.valueJson.getD .null) else .dead

def Database.slot (database : Database) : String × String → Slot Json :=
  held SettingRow.address SettingRow.slot database.settings

theorem slot_eq_live_iff (database : Database) (address : String × String) (value : Json) :
    database.slot address = .live value ↔ database.Live address value := by
  rw [Database.slot, held_eq_iff database.unique]
  constructor
  · rintro (⟨vacant, _⟩ | ⟨row, member, same, live⟩)
    · cases vacant
    · rw [SettingRow.slot] at live
      split at live
      next active => exact ⟨row, member, same, of_decide_eq_true active, Slot.live.inj live⟩
      next => cases live
  · rintro ⟨row, member, same, active, rfl⟩
    exact .inr ⟨row, member, same, if_pos (decide_eq_true active)⟩

theorem slot_eq_vacant_iff (database : Database) (address : String × String) :
    database.slot address = .vacant ↔ address ∉ database.settings.map (·.address) := by
  rw [Database.slot, held_eq_iff database.unique]
  constructor
  · rintro (⟨_, absent⟩ | ⟨row, _, _, vacant⟩)
    · exact absent
    · rw [SettingRow.slot] at vacant
      split at vacant <;> cases vacant
  · exact fun absent => .inl ⟨rfl, absent⟩

theorem current_eq (database : Database) (address : String × String) :
    database.current address = (database.slot address).value := by
  refine Option.ext fun value => ?_
  rw [current_iff, ← slot_eq_live_iff]
  cases database.slot address <;> simp

theorem shows_current (database : Database) : database.Shows database.current where
  get _ _ := rfl
  listed scopeId key value := by
    simp only [List.mem_map, mem_listSettings, Prod.mk.injEq, Database.current, Option.map_eq_some_iff]
    constructor
    · rintro ⟨setting, ⟨_, found, rfl⟩, rfl, rfl⟩
      exact ⟨setting, found, rfl⟩
    · rintro ⟨setting, found, rfl⟩
      exact ⟨setting, ⟨key, found, get_key found⟩, get_key found, rfl⟩
  once := listSettings_keys database

variable {after before : Database}

private theorem slot_update {row : SettingRow} (member : row ∈ before.settings)
    (assignment : SettingRow.Assignment) (updated : after.settings =
      before.settings.map fun other => if other.id = row.id then assignment.change other else other) :
    after.slot = Function.update before.slot row.address (assignment.change row).slot := by
  have keeps : ∀ other : SettingRow,
      (if other.id = row.id then assignment.change other else other).address = other.address := by
    intro other
    split
    · exact assignment.address other
    · rfl
  funext address
  rw [Database.slot, updated, held_map keeps]
  by_cases same : address = row.address
  · subst same
    rw [Function.update_self, held_of_mem before.unique member, if_pos rfl]
  · rw [Function.update_of_ne same]
    refine held_congr fun other otherIn reads => ?_
    have miss : other.id ≠ row.id := fun hit =>
      same (reads.symm.trans (congrArg SettingRow.address
        (List.inj_on_of_nodup_map before.primaryKey otherIn member hit)))
    rw [if_neg miss]

private theorem slot_insert {row : SettingRow} (inserted : after.settings = before.settings ++ [row]) :
    after.slot = Function.update before.slot row.address row.slot := by
  have once := after.unique
  rw [inserted] at once
  rw [Database.slot, inserted, held_append once]
  rfl

private theorem fetchOne_of_slot {scopeId : String} :
    (∃ value, database.slot (scopeId, key) = .live value) ↔ ∃ row, database.fetchOne scopeId key = some row := by
  simp only [slot_eq_live_iff, fetchOne_iff]
  constructor
  · rintro ⟨_, row, member, same, active, _⟩
    exact ⟨row, member, same, decide_eq_true active⟩
  · rintro ⟨row, member, same, active⟩
    exact ⟨_, row, member, same, of_decide_eq_true active, rfl⟩

private theorem guards {scopeId principalId : String} {scope : Scope}
    (found : database.scopes.find? (·.id = scopeId) = some scope) (active : scope.isActive = true)
    (owner : scope.ownerId = principalId) :
    (getScopeOrRaise scopeId).on database = (.ok scope, database) ∧
      requireMutable scope = pure () ∧ requireOwner scope principalId = pure () := by
  have active : scope.lifecycle = .active := of_decide_eq_true active
  refine ⟨?_, ?_, ?_⟩
  · simp only [getScopeOrRaise, Stateful.on_bind, Stateful.on_get, found, Stateful.on_pure]
  · simp [requireMutable, Scope.isFrozen, Scope.isArchived, active]
  · simp [requireOwner, owner]

private theorem recordIf_on (audit : Bool) (record : Record) (database : Database) :
    ∃ after, (recordIf audit record).on database = (.ok (), after) ∧ after.settings = database.settings ∧
      after.scopes = database.scopes := by
  cases audit with
  | true => exact ⟨_, rfl, rfl, rfl⟩
  | false => exact ⟨_, rfl, rfl, rfl⟩

/-- A call does to the entries what its step does, where no marked row is in its way. -/
structure Served (before : Database) (call : Call) (result : Except Raised Outcome) (after : Database) : Prop where
  answers : call.Answers before.current result ↔ call.step.Accepted before.slot
  slots : call.step.Accepted before.slot → after.slot = call.step.apply before.slot
  scopes : after.scopes = before.scopes
  ids : ∀ id ∈ after.settings.map (·.id), id ∈ before.settings.map (·.id) ∨ id ∈ call.newId

private theorem ids_update {id : String} {assignment : SettingRow.Assignment} (updated : after.settings =
      before.settings.map fun row => if row.id = id then assignment.change row else row) :
    after.settings.map (·.id) = before.settings.map (·.id) := by
  rw [updated, List.map_map]
  refine List.map_congr_left fun row _ => ?_
  simp only [Function.comp_apply]
  split
  · exact assignment.id row
  · rfl

theorem set_served (audit : Bool) {ts : DateTime} {settingId : ScopedId} {scopeId : String}
    {value : Json} {principalId description : String}
    (allowed : database.Allows (.set ts settingId scopeId key value principalId description))
    (fresh : settingId.text ∉ database.settings.map (·.id)) :
    Served database (.set ts settingId scopeId key value principalId description)
      ((Call.set ts settingId scopeId key value principalId description).run audit database).1
      ((Call.set ts settingId scopeId key value principalId description).run audit database).2 := by
  obtain ⟨scope, found, active, owner⟩ := allowed
  dsimp only [Call.scopeId, Call.principalId] at found owner
  obtain ⟨fetched, unfrozen, owned⟩ := guards found active owner
  simp only [Call.run, Call.program, Stateful.on_map, ConfigStore.set, Stateful.on_bind, fetched, unfrozen, owned,
    Stateful.on_pure, Stateful.on_get]
  cases existing : database.fetchOne scopeId key with
  | some row =>
    obtain ⟨member, same, active⟩ := (fetchOne_iff database scopeId key row).mp existing
    have live : database.slot (scopeId, key) ≠ .dead := by
      obtain ⟨held, live⟩ := fetchOne_of_slot.mpr ⟨row, existing⟩
      simp [live]
    simp only [Stateful.on_bind, updateRow, Stateful.on_modify]
    obtain ⟨after, recorded, settings, scopes⟩ := recordIf_on audit _ _
    rw [recorded]
    simp only [Stateful.on_pure]
    refine ⟨iff_of_true rfl live, fun _ => ?_, scopes, ?_⟩
    · rw [slot_update member (ConfigStore.overwrite value ts principalId description) settings, Call.step,
        Step.apply_put value live, same]
      simp [ConfigStore.overwrite, SettingRow.slot, SettingRow.isActive, of_decide_eq_true active]
    · rw [ids_update settings]
      exact fun _ member => .inl member
  | none =>
    have notLive : ∀ held, database.slot (scopeId, key) ≠ .live held := by
      intro held live
      obtain ⟨row, found⟩ := fetchOne_of_slot.mp ⟨held, live⟩
      rw [existing] at found
      cases found
    simp only [Stateful.on_bind, insertRow, Stateful.on_get]
    by_cases vacant : database.slot (scopeId, key) = .vacant
    · have accepted : database.slot (scopeId, key) ≠ .dead := by simp [vacant]
      rw [dif_pos ⟨fresh, (slot_eq_vacant_iff database _).mp vacant⟩]
      simp only [Stateful.on_set]
      obtain ⟨after, recorded, settings, scopes⟩ := recordIf_on audit _ _
      rw [recorded]
      simp only [Stateful.on_pure]
      refine ⟨iff_of_true rfl accepted, fun _ => ?_, scopes, ?_⟩
      · rw [slot_insert settings, Call.step, Step.apply_put value accepted]
        rfl
      · rw [settings]
        intro id member
        simpa [Call.newId, or_comm, eq_comm] using member
    · have dead : database.slot (scopeId, key) = .dead := by
        cases held : database.slot (scopeId, key) with
        | vacant => exact absurd held vacant
        | live value => exact absurd held (notLive value)
        | dead => rfl
      rw [dif_neg fun free => vacant ((slot_eq_vacant_iff database _).mpr free.2)]
      simp only [Stateful.on_throw]
      exact ⟨iff_of_false id (not_not_intro dead), fun accepted => absurd dead accepted, rfl, fun _ member => .inl member⟩

theorem delete_served (audit : Bool) {scopeId principalId : String}
    (allowed : database.Allows (.delete scopeId key principalId)) :
    Served database (.delete scopeId key principalId) ((Call.delete scopeId key principalId).run audit database).1
      ((Call.delete scopeId key principalId).run audit database).2 := by
  obtain ⟨scope, found, active, owner⟩ := allowed
  dsimp only [Call.scopeId, Call.principalId] at found owner
  obtain ⟨fetched, unfrozen, owned⟩ := guards found active owner
  simp only [Call.run, Call.program, Stateful.on_map, ConfigStore.delete, Stateful.on_bind, fetched, unfrozen, owned,
    Stateful.on_pure, Stateful.on_get]
  cases existing : database.fetchOne scopeId key with
  | some row =>
    obtain ⟨member, same, active⟩ := (fetchOne_iff database scopeId key row).mp existing
    obtain ⟨held, live⟩ := fetchOne_of_slot.mpr ⟨row, existing⟩
    have current : database.current (scopeId, key) ≠ none := by simp [current_eq, live]
    simp only [Stateful.on_bind, updateRow, Stateful.on_modify]
    obtain ⟨after, recorded, settings, scopes⟩ := recordIf_on audit _ _
    rw [recorded]
    simp only [Stateful.on_pure]
    refine ⟨iff_of_true (iff_of_true rfl current) trivial, fun _ => ?_, scopes, ?_⟩
    · rw [slot_update member ConfigStore.archive settings, same]
      funext address
      by_cases hit : address = (scopeId, key)
      · simp [hit, Call.step, Step.apply, live, Slot.bury, ConfigStore.archive, SettingRow.slot, SettingRow.isActive]
      · simp [hit, Call.step, Step.apply]
    · rw [ids_update settings]
      exact fun _ member => .inl member
  | none =>
    have current : database.current (scopeId, key) = none := by simp [Database.current, ConfigStore.get, existing]
    refine ⟨iff_of_true (iff_of_false (by decide) (not_not_intro current)) trivial, fun _ => ?_, rfl,
      fun _ member => .inl member⟩
    funext address
    by_cases hit : address = (scopeId, key)
    · subst hit
      have unset : (database.slot (scopeId, key)).value = none := by rw [← current_eq, current]
      cases held : database.slot (scopeId, key) with
      | vacant | dead => simp [Call.step, Step.apply, held, Slot.bury]
      | live value => simp [held] at unset
    · simp [hit, Call.step, Step.apply]

/-- The generated identifiers are new, to the table and to each other. -/
def Database.Generates (database : Database) (calls : List Call) : Prop :=
  (calls.filterMap Call.newId).Nodup ∧ ∀ id ∈ calls.filterMap Call.newId, id ∉ database.settings.map (·.id)

theorem Call.served (audit : Bool) {call : Call} (allowed : database.Allows call)
    (fresh : ∀ id ∈ call.newId, id ∉ database.settings.map (·.id)) :
    Served database call (call.run audit database).1 (call.run audit database).2 := by
  cases call with
  | set ts settingId scopeId key value principalId description =>
    exact set_served audit allowed (fresh settingId.text rfl)
  | delete scopeId key principalId => exact delete_served audit allowed

theorem Database.Generates.next {call : Call} {calls : List Call}
    {result : Except Raised Outcome} (generates : before.Generates (call :: calls))
    (served : Served before call result after) : after.Generates calls := by
  have within : ∀ id ∈ calls.filterMap Call.newId, id ∈ (call :: calls).filterMap Call.newId := by
    intro id member
    obtain ⟨other, otherIn, made⟩ := List.mem_filterMap.mp member
    exact List.mem_filterMap.mpr ⟨other, List.mem_cons_of_mem _ otherIn, made⟩
  obtain ⟨once, fresh⟩ := generates
  refine ⟨once.sublist ((List.sublist_cons_self call calls).filterMap _), fun id member stored => ?_⟩
  obtain stored | made := served.ids id stored
  · exact fresh id (within id member) stored
  · rw [List.filterMap_cons_some made] at once
    exact (List.nodup_cons.mp once).1 member

/-- The store is a map for exactly those sequences whose steps all find a key
that no marked row occupies. -/
theorem behavesAsMap_iff_accepted (audit : Bool) (database : Database) (calls : List Call)
    (allowed : ∀ call ∈ calls, database.Allows call) (generates : database.Generates calls) :
    BehavesAsMap audit database database.current calls ↔ AllAccepted database.slot (calls.map Call.step) := by
  induction calls generalizing database with
  | nil => exact iff_of_true (shows_current database) trivial
  | cons call calls ih =>
    have served := Call.served audit (allowed call List.mem_cons_self) fun id made =>
      generates.2 id (List.mem_filterMap.mpr ⟨call, List.mem_cons_self, made⟩)
    simp only [BehavesAsMap, List.map_cons, AllAccepted]
    rw [served.answers]
    refine and_congr_right fun accepted => ?_
    have current : call.step.intended database.current = (call.run audit database).2.current := by
      funext address
      rw [current_eq, served.slots accepted, funext (current_eq database)]
      exact congrFun (Step.value_apply accepted).symm address
    rw [current, ← served.slots accepted]
    refine ih _ (fun other member => ?_) (generates.next served)
    obtain ⟨scope, found, active, owner⟩ := allowed other (List.mem_cons_of_mem _ member)
    exact ⟨scope, by rw [served.scopes, found], active, owner⟩

/-- A row of the key is there that is no longer in force. -/
def Database.Withdrawn (database : Database) (address : String × String) : Prop :=
  ∃ row ∈ database.settings, row.address = address ∧ row.lifecycle ≠ .active

theorem slot_eq_dead_iff (database : Database) (address : String × String) :
    database.slot address = .dead ↔ database.Withdrawn address := by
  rw [Database.slot, held_eq_iff database.unique]
  constructor
  · rintro (⟨dead, _⟩ | ⟨row, member, same, dead⟩)
    · cases dead
    · refine ⟨row, member, same, fun active => ?_⟩
      rw [SettingRow.slot, if_pos (by simp [SettingRow.isActive, active])] at dead
      cases dead
  · rintro ⟨row, member, same, inactive⟩
    exact .inr ⟨row, member, same, if_neg (by simpa [SettingRow.isActive] using inactive)⟩

/-- Settings are a map exactly where no key is set again once it was deleted,
or that had been deleted before the first call. -/
theorem settings_map_iff (audit : Bool) (database : Database) (calls : List Call)
    (allowed : ∀ call ∈ calls, database.Allows call) (generates : database.Generates calls) :
    BehavesAsMap audit database database.current calls ↔
      Clean database.Withdrawn database.current (calls.map Call.step) := by
  have withdrawn : (fun address => database.slot address = .dead) = database.Withdrawn :=
    funext fun address => propext (slot_eq_dead_iff database address)
  rw [behavesAsMap_iff_accepted audit database calls allowed generates, allAccepted_iff_clean, withdrawn,
    funext (current_eq database)]

private def team : Database where
  scopes := [⟨"team", "team", "alice", none, .active⟩]
  settings := []
  records := []
  primaryKey := .nil
  unique := .nil

private def noon : DateTime := ⟨2026, 1, 2, 12, 0, 0, 0, by decide⟩

private def setTheme (id : Fin 10) (theme : String) : Call :=
  .set noon (.repeated id) "team" "theme" (.str theme) "alice" ""

private def deleteTheme : Call := .delete "team" "theme" "alice"

private theorem team_allows : ∀ call ∈ [setTheme 0 "dark", setTheme 1 "light", deleteTheme, setTheme 2 "dark"],
    team.Allows call := by
  intro call member
  refine ⟨⟨"team", "team", "alice", none, .active⟩, ?_, rfl, ?_⟩
  all_goals fin_cases member <;> rfl

private theorem team_generates (calls : List Call) (once : (calls.filterMap Call.newId).Nodup) : team.Generates calls :=
  ⟨once, fun _ _ => List.not_mem_nil⟩

theorem settings_map_iff_overwritten :
    team.Generates [setTheme 0 "dark", setTheme 1 "light", deleteTheme] ∧
      BehavesAsMap true team team.current [setTheme 0 "dark", setTheme 1 "light", deleteTheme] := by
  have generates := team_generates [setTheme 0 "dark", setTheme 1 "light", deleteTheme] (by decide)
  refine ⟨generates, (settings_map_iff true team _ (fun call member => team_allows call ?_) generates).mpr ?_⟩
  · simp only [List.mem_cons, List.not_mem_nil, or_false] at member ⊢
    tauto
  · have fresh : ∀ address, ¬team.Withdrawn address := by
      intro address withdrawn
      obtain ⟨row, member, -⟩ := withdrawn
      exact List.not_mem_nil member
    exact ⟨fresh _, fresh _, trivial⟩

/-- A key that was deleted cannot be set again. -/
theorem deleted_key_refused :
    (∀ call ∈ [setTheme 0 "dark", deleteTheme, setTheme 2 "dark"], team.Allows call) ∧
      team.Generates [setTheme 0 "dark", deleteTheme, setTheme 2 "dark"] ∧
      ¬BehavesAsMap false team team.current [setTheme 0 "dark", deleteTheme, setTheme 2 "dark"] := by
  refine ⟨fun call member => team_allows call ?_, team_generates _ (by decide), ?_⟩
  · simp only [List.mem_cons, List.not_mem_nil, or_false] at member ⊢
    tauto
  · rintro ⟨-, -, refused, -⟩
    exact refused

end PyScoped.Legacy.Config
