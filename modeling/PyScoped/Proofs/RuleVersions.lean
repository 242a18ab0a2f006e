import PyScoped.Legacy.RuleVersions

/-! What rules enforce is what their versions record. A row is overwritten before
its version is inserted, so in between a client owes a version. -/

namespace PyScoped.Legacy.RuleVersions
open Foundation

variable {ι : Type}

/-- The versions of the rule are 1, 2, ... up to its current one, and that one
records what the rule enforces. -/
structure Recorded (tables : Tables) (rule : Rule) : Prop where
  versions : ((tables.versions.filter (·.ruleId == rule.id)).map (·.version)).Perm (List.range' 1 rule.currentVersion)
  current : ∃ version ∈ tables.versions, version.ruleId = rule.id ∧ version.version = rule.currentVersion ∧
    version.policy = policyOf rule

def Call.isUpdate : Call → Bool
  | .updateRule _ _ _ _ _ => true
  | _ => false

/-- No policy is lost or invented: while no call is in progress every rule is
recorded, and an update that raised has changed what no rule enforces. -/
structure Faithful (store : Store ι) : Prop where
  recorded : (∀ client, store.stage client = .idle) → ∀ rule ∈ store.tables.rules, Recorded store.tables rule
  raised : ∀ outcome ∈ store.outcomes, outcome.call.isUpdate = true → outcome.raised.isSome = true →
    ∀ change ∈ outcome.changes, change.2 = change.1

/-- An update overwrites the version it has read, and no call raises or is cut
off between its write of a rule and that of the version, an update not even after it. -/
def Completed (client : ι) (store : Store ι) : Request → Prop
  | .updateRule id _ currentVersion => ∀ rule ∈ store.tables.rules, rule.id = id → currentVersion = rule.currentVersion + 1
  | .finished call (some _) =>
    (∀ id version policy, store.stage client ≠ .written id version policy) ∧
      (call.isUpdate = true → store.stage client = .running)
  | _ => True

/-- The constraints of the schema. -/
structure Tables.Keyed (tables : Tables) : Prop where
  rules : (tables.rules.map (·.id)).Nodup
  versions : (tables.versions.map fun version => (version.ruleId, version.version)).Nodup
  parents : ∀ version ∈ tables.versions, ∃ rule ∈ tables.rules, rule.id = version.ruleId

def Tables.Stores (tables : Tables) (id : String) (number : Nat) : Prop :=
  ∃ version ∈ tables.versions, version.ruleId = id ∧ version.version = number

def Store.Owes (store : Store ι) (client : ι) (id : String) (number : Nat) : Prop :=
  ∃ policy, store.stage client = .written id number policy

/-- Every version up to the current one is stored or owed by one client. -/
structure Consistent (store : Store ι) : Prop where
  keyed : store.tables.Keyed
  numbered : ∀ rule ∈ store.tables.rules, ∀ number, 1 ≤ number ∧ number ≤ rule.currentVersion ↔
    store.tables.Stores rule.id number ∨ ∃ client, store.Owes client rule.id number
  positive : ∀ rule ∈ store.tables.rules, 1 ≤ rule.currentVersion
  parents : ∀ client id number, store.Owes client id number → ∃ rule ∈ store.tables.rules, rule.id = id
  fresh : ∀ client id number, store.Owes client id number → ¬ store.tables.Stores id number
  single : ∀ client other id number, store.Owes client id number → store.Owes other id number → client = other
  policy : ∀ rule ∈ store.tables.rules,
    (∃ version ∈ store.tables.versions, version.ruleId = rule.id ∧ version.version = rule.currentVersion ∧
      version.policy = policyOf rule) ∨
    ∃ client, store.stage client = .written rule.id rule.currentVersion (policyOf rule)
  unchanged : ∀ client, store.stage client = .running → store.changes client = []
  raised : ∀ outcome ∈ store.outcomes, outcome.call.isUpdate = true → outcome.raised.isSome = true →
    ∀ change ∈ outcome.changes, change.2 = change.1

variable {store : Store ι}

theorem Consistent.faithful (consistent : Consistent store) : Faithful store := by
  refine ⟨fun idle rule member => ?_, consistent.raised⟩
  have nobody : ∀ client id number, ¬ store.Owes client id number := by
    rintro client id number ⟨policy, written⟩
    rw [idle client] at written
    cases written
  refine ⟨?_, ?_⟩
  · refine (List.perm_ext_iff_of_nodup ?_ List.nodup_range').mpr fun number => ?_
    · have unique := consistent.keyed.versions
      refine List.Nodup.map_on ?_ ((List.Nodup.of_map _ unique).filter _)
      intro first inside second inside' same
      obtain ⟨here, own⟩ := List.mem_filter.mp inside
      obtain ⟨here', own'⟩ := List.mem_filter.mp inside'
      refine List.inj_on_of_nodup_map unique here here' ?_
      rw [same, eq_of_beq own, eq_of_beq own']
    · rw [List.mem_range'_1]
      have counted := consistent.numbered rule member number
      constructor
      · intro listed
        obtain ⟨version, inside, rfl⟩ := List.mem_map.mp listed
        obtain ⟨here, own⟩ := List.mem_filter.mp inside
        have bounds := counted.mpr (.inl ⟨version, here, eq_of_beq own, rfl⟩)
        omega
      · intro bounds
        obtain ⟨version, here, own, rfl⟩ | ⟨client, owed⟩ := counted.mp (by omega)
        · exact List.mem_map_of_mem (List.mem_filter.mpr ⟨here, beq_iff_eq.mpr own⟩)
        · exact absurd owed (nobody client rule.id number)
  · obtain stored | ⟨client, written⟩ := consistent.policy rule member
    · exact stored
    · rw [idle client] at written
      cases written

/-- A store in which no call runs and every rule is recorded. -/
theorem Consistent.start (keyed : store.tables.Keyed) (idle : ∀ client, store.stage client = .idle)
    (recorded : ∀ rule ∈ store.tables.rules, Recorded store.tables rule)
    (fresh : store.outcomes = []) : Consistent store := by
  have nobody : ∀ client id number, ¬ store.Owes client id number := by
    rintro client id number ⟨policy, written⟩
    rw [idle client] at written
    cases written
  have listed (rule : Rule) (member : rule ∈ store.tables.rules) (number : Nat) :
      store.tables.Stores rule.id number ↔ 1 ≤ number ∧ number ≤ rule.currentVersion := by
    have same := (recorded rule member).versions.mem_iff (a := number)
    rw [List.mem_range'_1] at same
    constructor
    · rintro ⟨version, here, own, numbered⟩
      have bounds := same.mp (List.mem_map.mpr ⟨version, List.mem_filter.mpr ⟨here, beq_iff_eq.mpr own⟩, numbered⟩)
      omega
    · intro bounds
      obtain ⟨version, inside, numbered⟩ := List.mem_map.mp (same.mpr (by omega))
      obtain ⟨here, own⟩ := List.mem_filter.mp inside
      exact ⟨version, here, eq_of_beq own, numbered⟩
  refine ⟨keyed, fun rule member number => ?_, fun rule member => ?_, fun client id number owed => absurd owed (nobody client id number),
    fun client id number owed => absurd owed (nobody client id number),
    fun client other id number owed => absurd owed (nobody client id number),
    fun rule member => .inl (recorded rule member).current, fun client running => ?_, ?_⟩
  · rw [← listed rule member number]
    exact ⟨.inl, fun held => held.resolve_right fun ⟨client, owed⟩ => nobody client rule.id number owed⟩
  · obtain ⟨version, here, own, same, -⟩ := (recorded rule member).current
    exact ((listed rule member _).mp ⟨version, here, own, same⟩).1
  · rw [idle client] at running
    cases running
  · rw [fresh]
    exact List.forall_mem_nil _

/-- Rules keep what their versions record, versions stay, and the same clients owe. -/
theorem Consistent.transfer {after : Store ι} (consistent : Consistent store) (change : Rule → Rule)
    (rules : after.tables.rules = store.tables.rules.map change)
    (same : ∀ rule, (change rule).id = rule.id ∧ (change rule).currentVersion = rule.currentVersion ∧
      policyOf (change rule) = policyOf rule)
    (versions : after.tables.versions = store.tables.versions)
    (written : ∀ client id number policy,
      after.stage client = .written id number policy ↔ store.stage client = .written id number policy)
    (unchanged : ∀ client, after.stage client = .running → after.changes client = [])
    (raised : ∀ outcome ∈ after.outcomes, outcome.call.isUpdate = true → outcome.raised.isSome = true →
      ∀ change ∈ outcome.changes, change.2 = change.1) : Consistent after := by
  have owes (client : ι) (id : String) (number : Nat) : after.Owes client id number ↔ store.Owes client id number := by
    simp only [Store.Owes, written]
  have stores (id : String) (number : Nat) : after.tables.Stores id number ↔ store.tables.Stores id number := by
    simp only [Tables.Stores, versions]
  have kept (id : String) (found : ∃ rule ∈ store.tables.rules, rule.id = id) :
      ∃ rule ∈ after.tables.rules, rule.id = id := by
    obtain ⟨rule, member, own⟩ := found
    exact ⟨change rule, rules ▸ List.mem_map_of_mem member, (same rule).1.trans own⟩
  refine ⟨⟨?_, ?_, ?_⟩, ?_, ?_, ?_, ?_, ?_, ?_, unchanged, raised⟩
  · rw [rules, List.map_map]
    convert consistent.keyed.rules using 2
    exact funext fun rule => (same rule).1
  · rw [versions]
    exact consistent.keyed.versions
  · rw [versions]
    exact fun version member => kept _ (consistent.keyed.parents version member)
  · rw [rules]
    intro changed member number
    obtain ⟨rule, inside, rfl⟩ := List.mem_map.mp member
    simp only [(same rule).1, (same rule).2.1, stores, owes]
    exact consistent.numbered rule inside number
  · rw [rules]
    intro changed member
    obtain ⟨rule, inside, rfl⟩ := List.mem_map.mp member
    rw [(same rule).2.1]
    exact consistent.positive rule inside
  · exact fun client id number owed => kept id (consistent.parents client id number ((owes ..).mp owed))
  · intro client id number owed
    rw [stores]
    exact consistent.fresh client id number ((owes ..).mp owed)
  · exact fun client other id number one two =>
      consistent.single client other id number ((owes ..).mp one) ((owes ..).mp two)
  · rw [rules, versions]
    intro changed member
    obtain ⟨rule, inside, rfl⟩ := List.mem_map.mp member
    simp only [(same rule).1, (same rule).2.1, (same rule).2.2, written]
    exact consistent.policy rule inside

theorem Consistent.archive (consistent : Consistent store) (id : String) (bindings : List RuleBinding) :
    Consistent { store with tables := { store.tables with
      rules := updated store.tables.rules id fun rule => { rule with lifecycle := .archived }
      bindings := bindings } } := by
  refine consistent.transfer _ rfl (fun rule => ?_) rfl (fun _ _ _ _ => Iff.rfl) consistent.unchanged consistent.raised
  split <;> exact ⟨rfl, rfl, rfl⟩

/-- What a client finds after the steps of others. -/
structure Onward (client : ι) (before after : Store ι) : Prop where
  stage : after.stage client = before.stage client
  rules : ∀ rule ∈ before.tables.rules, ∃ other ∈ after.tables.rules, other.id = rule.id

theorem Onward.refl (client : ι) (store : Store ι) : Onward client store store :=
  ⟨rfl, fun rule member => ⟨rule, member, rfl⟩⟩

theorem Onward.trans {client : ι} {first second third : Store ι} (one : Onward client first second)
    (two : Onward client second third) : Onward client first third := by
  refine ⟨two.stage.trans one.stage, fun rule member => ?_⟩
  obtain ⟨other, there, same⟩ := one.rules rule member
  obtain ⟨last, found, same'⟩ := two.rules other there
  exact ⟨last, found, same'.trans same⟩

/-- The client owes no version. -/
def Settled (client : ι) (store : Store ι) : Prop :=
  ∀ id number policy, store.stage client ≠ .written id number policy

variable {state : Store ι}

private theorem recorded_settled {client : ι} (own : state.stage client = .recorded) : Settled client state := by
  unfold Settled
  rw [own]
  nofun

private theorem running_settled {client : ι} (own : state.stage client = .running) : Settled client state := by
  unfold Settled
  rw [own]
  nofun

theorem updated_ids {rules : List Rule} {id : String} (change : Rule → Rule) (same : ∀ rule, (change rule).id = rule.id)
    (rule : Rule) (member : rule ∈ rules) : ∃ other ∈ updated rules id change, other.id = rule.id := by
  refine ⟨_, List.mem_map_of_mem member, ?_⟩
  split
  · exact same rule
  · rfl

variable [DecidableEq ι]

private theorem update_written {stage : ι → Stage} {client other : ι} {new : Stage} {id : String} {number : Nat}
    {policy : Policy} (found : Function.update stage client new other = .written id number policy) :
    other = client ∧ new = .written id number policy ∨ other ≠ client ∧ stage other = .written id number policy := by
  by_cases same : other = client
  · subst other
    rw [Function.update_self] at found
    exact .inl ⟨rfl, found⟩
  · rw [Function.update_of_ne same] at found
    exact .inr ⟨same, found⟩

private theorem restage_written {stage : ι → Stage} {client : ι} {new : Stage}
    (before : ∀ id number policy, stage client ≠ .written id number policy)
    (after : ∀ id number policy, new ≠ .written id number policy) (other : ι) (id : String) (number : Nat)
    (policy : Policy) :
    Function.update stage client new other = .written id number policy ↔ stage other = .written id number policy := by
  constructor
  · intro found
    obtain ⟨-, new⟩ | ⟨-, old⟩ := update_written found
    · exact absurd new (after id number policy)
    · exact old
  · intro found
    rw [Function.update_of_ne]
    · exact found
    · rintro rfl
      exact before id number policy found

private theorem update_running {stage : ι → Stage} {client other : ι} {new : Stage}
    (found : Function.update stage client new other = .running) (amid : new ≠ .running) :
    other ≠ client ∧ stage other = .running := by
  by_cases same : other = client
  · subst other
    exact absurd ((Function.update_self ..).symm.trans found) amid
  · exact ⟨same, (Function.update_of_ne same ..).symm.trans found⟩

section Owing

variable {client : ι} {id : String} {number : Nat} {new : Policy}

private theorem written_beside {other : ι} {stage : Stage} {policy : Policy}
    (settled : ∀ id number policy, store.stage client ≠ .written id number policy)
    (written : store.stage other = .written id number policy) :
    Function.update store.stage client stage other = .written id number policy := by
  rw [Function.update_of_ne]
  · exact written
  · rintro rfl
    exact settled id number policy written

private theorem Consistent.owing (consistent : Consistent store) (unstored : ¬ store.tables.Stores id number)
    (unowed : ∀ other, ¬ store.Owes other id number) {one : ι} {id' : String} {number' : Nat} {policy : Policy}
    (written : Function.update store.stage client (.written id number new) one = .written id' number' policy) :
    ¬ store.tables.Stores id' number' ∧ ∀ two policy',
      Function.update store.stage client (.written id number new) two = .written id' number' policy' → one = two := by
  obtain ⟨rfl, same⟩ | ⟨-, old⟩ := update_written written
  · cases same
    refine ⟨unstored, fun two policy' written' => ?_⟩
    obtain ⟨rfl, -⟩ | ⟨-, old⟩ := update_written written'
    · rfl
    · exact absurd ⟨policy', old⟩ (unowed two)
  · refine ⟨consistent.fresh one id' number' ⟨policy, old⟩, fun two policy' written' => ?_⟩
    obtain ⟨-, same⟩ | ⟨-, old'⟩ := update_written written'
    · cases same
      exact absurd ⟨policy, old⟩ (unowed one)
    · exact consistent.single one two id' number' ⟨policy, old⟩ ⟨policy', old'⟩

variable {rule : Rule}

private theorem Consistent.numbered_beside (consistent : Consistent store) (member : rule ∈ store.tables.rules)
    (settled : ∀ id number policy, store.stage client ≠ .written id number policy) (apart : rule.id ≠ id) (m : Nat) :
    1 ≤ m ∧ m ≤ rule.currentVersion ↔ store.tables.Stores rule.id m ∨ ∃ holder policy,
      Function.update store.stage client (.written id number new) holder = .written rule.id m policy := by
  rw [consistent.numbered rule member m]
  refine or_congr_right ⟨fun ⟨holder, held, written⟩ => ⟨holder, held, written_beside settled written⟩, ?_⟩
  rintro ⟨holder, held, written⟩
  obtain ⟨-, same⟩ | ⟨-, before⟩ := update_written written
  · exact absurd (Stage.written.inj same).1.symm apart
  · exact ⟨holder, held, before⟩

private theorem Consistent.numbered_next (consistent : Consistent store) (member : rule ∈ store.tables.rules)
    (settled : ∀ id number policy, store.stage client ≠ .written id number policy) (m : Nat) :
    1 ≤ m ∧ m ≤ rule.currentVersion + 1 ↔ store.tables.Stores rule.id m ∨ ∃ holder policy,
      Function.update store.stage client (.written rule.id (rule.currentVersion + 1) new) holder = .written rule.id m policy := by
  have counted := consistent.numbered rule member m
  constructor
  · intro bounds
    by_cases next : m = rule.currentVersion + 1
    · subst next
      exact .inr ⟨client, new, Function.update_self ..⟩
    · exact (counted.mp (by omega)).imp_right fun ⟨holder, held, written⟩ => ⟨holder, held, written_beside settled written⟩
  · rintro (stored | ⟨holder, held, written⟩)
    · have bounds := counted.mpr (.inl stored)
      omega
    · obtain ⟨-, same⟩ | ⟨-, before⟩ := update_written written
      · obtain ⟨-, rfl, -⟩ := Stage.written.inj same
        omega
      · have bounds := counted.mpr (.inr ⟨holder, held, before⟩)
        omega

end Owing

theorem Consistent.began (consistent : Consistent store) {client : ι}
    (idle : store.stage client = .idle) : Consistent { store with
      stage := Function.update store.stage client .running
      changes := Function.update store.changes client [] } := by
  refine consistent.transfer id (List.map_id _).symm (fun _ => ⟨rfl, rfl, rfl⟩) rfl
    (restage_written (by rw [idle]; nofun) nofun) (fun other running => ?_) consistent.raised
  by_cases same : other = client
  · subst other
    exact Function.update_self ..
  · change Function.update store.stage client .running other = .running at running
    rw [Function.update_of_ne same] at running
    exact (Function.update_of_ne same ..).trans (consistent.unchanged other running)

theorem Consistent.finished (consistent : Consistent store) {client : ι} (call : Call)
    (raised : Option Raised) (settled : ∀ id number policy, store.stage client ≠ .written id number policy)
    (untouched : call.isUpdate = true → raised.isSome = true → store.stage client = .running) :
    Consistent { store with
      stage := Function.update store.stage client .idle
      outcomes := ⟨call, raised, store.changes client⟩ :: store.outcomes } := by
  refine consistent.transfer id (List.map_id _).symm (fun _ => ⟨rfl, rfl, rfl⟩) rfl
    (restage_written settled nofun) (fun other running => ?_) ?_
  · exact consistent.unchanged other (update_running running nofun).2
  · intro outcome member update error
    obtain rfl | member := List.mem_cons.mp member
    · rw [consistent.unchanged client (untouched update error)]
      nofun
    · exact consistent.raised outcome member update error

/-- A rule that is new to the table, whose first version is owed. -/
theorem Consistent.insertRule (consistent : Consistent store) {client : ι} {rule : Rule}
    (absent : store.tables.rules.any (·.id == rule.id) = false) (first : rule.currentVersion = 1)
    (settled : ∀ id number policy, store.stage client ≠ .written id number policy) :
    Consistent { store with
      tables := { store.tables with rules := store.tables.rules ++ [rule] }
      stage := Function.update store.stage client (.written rule.id rule.currentVersion (policyOf rule)) } := by
  have unknown : ∀ other ∈ store.tables.rules, other.id ≠ rule.id := by
    intro other member same
    have := List.any_eq_false.mp absent other member
    exact this (beq_iff_eq.mpr same)
  have unstored (number : Nat) : ¬ store.tables.Stores rule.id number := by
    rintro ⟨version, member, own, -⟩
    obtain ⟨parent, there, same⟩ := consistent.keyed.parents version member
    exact unknown parent there (same.trans own)
  have unowed (other : ι) (number : Nat) : ¬ store.Owes other rule.id number := by
    intro owed
    obtain ⟨parent, there, same⟩ := consistent.parents other rule.id number owed
    exact unknown parent there same
  have own : Function.update store.stage client (.written rule.id rule.currentVersion (policyOf rule)) client =
      .written rule.id rule.currentVersion (policyOf rule) := Function.update_self ..
  refine ⟨⟨?_, consistent.keyed.versions, ?_⟩, ?_, ?_, ?_, ?_, ?_, ?_, ?_, consistent.raised⟩
  · rw [List.map_append]
    refine List.nodup_append.mpr ⟨consistent.keyed.rules, List.nodup_singleton _, ?_⟩
    intro id listed other single same
    obtain ⟨parent, there, rfl⟩ := List.mem_map.mp listed
    exact unknown parent there (same.trans (List.mem_singleton.mp single))
  · intro version member
    obtain ⟨parent, there, same⟩ := consistent.keyed.parents version member
    exact ⟨parent, List.mem_append_left _ there, same⟩
  · intro other member number
    obtain member | member := List.mem_append.mp member
    · exact consistent.numbered_beside member settled (unknown other member) number
    · obtain rfl := List.mem_singleton.mp member
      rw [first]
      constructor
      · intro bounds
        obtain rfl : number = 1 := by omega
        refine .inr ⟨client, policyOf other, ?_⟩
        rw [← first]
        exact own
      · rintro (stored | ⟨holder, policy, written⟩)
        · exact absurd stored (unstored number)
        · obtain ⟨-, new⟩ | ⟨-, old⟩ := update_written written
          · have numbered := (Stage.written.inj new).2.1
            omega
          · exact absurd ⟨policy, old⟩ (unowed holder number)
  · intro other member
    obtain member | member := List.mem_append.mp member
    · exact consistent.positive other member
    · rw [List.mem_singleton.mp member, first]
  · rintro holder id number ⟨policy, written⟩
    obtain ⟨-, new⟩ | ⟨-, old⟩ := update_written written
    · cases new
      exact ⟨rule, List.mem_append_right _ (List.mem_singleton_self rule), rfl⟩
    · obtain ⟨parent, there, same⟩ := consistent.parents holder id number ⟨policy, old⟩
      exact ⟨parent, List.mem_append_left _ there, same⟩
  · rintro holder id number ⟨policy, written⟩
    exact (consistent.owing (unstored _) (fun other => unowed other _) written).1
  · rintro one two id number ⟨policy, written⟩ ⟨policy', written'⟩
    exact (consistent.owing (unstored _) (fun other => unowed other _) written).2 two policy' written'
  · intro other member
    obtain member | member := List.mem_append.mp member
    · exact (consistent.policy other member).imp_right fun ⟨holder, written⟩ => ⟨holder, written_beside settled written⟩
    · obtain rfl := List.mem_singleton.mp member
      exact .inr ⟨client, own⟩
  · exact fun other running => consistent.unchanged other (update_running running nofun).2

/-- The version that the client owes is stored. -/
theorem Consistent.insertVersion (consistent : Consistent store) {client : ι} {version : RuleVersion}
    (written : store.stage client = .written version.ruleId version.version version.policy) :
    Consistent { store with
      tables := { store.tables with versions := store.tables.versions ++ [version] }
      stage := Function.update store.stage client .recorded } := by
  have owed : store.Owes client version.ruleId version.version := ⟨version.policy, written⟩
  have stores {id : String} {number : Nat} :
      (∃ other ∈ store.tables.versions ++ [version], other.ruleId = id ∧ other.version = number) ↔
        store.tables.Stores id number ∨ version.ruleId = id ∧ version.version = number := by
    simp only [List.mem_append, List.mem_singleton, Tables.Stores]
    constructor
    · rintro ⟨other, member | rfl, own⟩
      · exact .inl ⟨other, member, own⟩
      · exact .inr own
    · rintro (⟨other, member, own⟩ | own)
      · exact ⟨other, .inl member, own⟩
      · exact ⟨version, .inr rfl, own⟩
  have owes {other : ι} {id : String} {number : Nat} {policy : Policy}
      (found : Function.update store.stage client .recorded other = .written id number policy) :
      other ≠ client ∧ store.stage other = .written id number policy := by
    obtain ⟨-, new⟩ | old := update_written found
    · cases new
    · exact old
  have others {other : ι} (different : other ≠ client) {id : String} {number : Nat} {policy : Policy}
      (old : store.stage other = .written id number policy) :
      Function.update store.stage client .recorded other = .written id number policy :=
    (Function.update_of_ne different ..).trans old
  refine ⟨⟨consistent.keyed.rules, ?_, ?_⟩, ?_, consistent.positive, ?_, ?_, ?_, ?_, ?_, consistent.raised⟩
  · rw [List.map_append]
    refine List.nodup_append.mpr ⟨consistent.keyed.versions, List.nodup_singleton _, ?_⟩
    intro pair listed other single same
    obtain ⟨stored, there, rfl⟩ := List.mem_map.mp listed
    have equal := Prod.mk.inj (same.trans (List.mem_singleton.mp single))
    exact consistent.fresh client _ _ owed ⟨stored, there, equal⟩
  · intro other member
    obtain member | member := List.mem_append.mp member
    · exact consistent.keyed.parents other member
    · rw [List.mem_singleton.mp member]
      exact consistent.parents client _ _ owed
  · intro rule member number
    rw [consistent.numbered rule member number]
    refine Iff.trans ?_ (or_congr_left stores).symm
    constructor
    · rintro (stored | ⟨other, policy, old⟩)
      · exact .inl (.inl stored)
      · by_cases same : other = client
        · subst other
          obtain ⟨ruleId, numbered, -⟩ := Stage.written.inj (written.symm.trans old)
          exact .inl (.inr ⟨ruleId, numbered⟩)
        · exact .inr ⟨other, policy, others same old⟩
    · rintro ((stored | ⟨ruleId, numbered⟩) | ⟨other, policy, found⟩)
      · exact .inl stored
      · rw [← ruleId, ← numbered]
        exact .inr ⟨client, owed⟩
      · exact .inr ⟨other, policy, (owes found).2⟩
  · rintro other id number ⟨policy, found⟩
    exact consistent.parents other id number ⟨policy, (owes found).2⟩
  · rintro other id number ⟨policy, found⟩ stored
    obtain ⟨different, old⟩ := owes found
    obtain stored | ⟨rfl, rfl⟩ := stores.mp stored
    · exact consistent.fresh other id number ⟨policy, old⟩ stored
    · exact different (consistent.single other client _ _ ⟨policy, old⟩ owed)
  · rintro one two id number ⟨policy, found⟩ ⟨policy', found'⟩
    exact consistent.single one two id number ⟨policy, (owes found).2⟩ ⟨policy', (owes found').2⟩
  · intro rule member
    obtain ⟨stored, there, own⟩ | ⟨other, old⟩ := consistent.policy rule member
    · exact .inl ⟨stored, List.mem_append_left _ there, own⟩
    · by_cases same : other = client
      · subst other
        obtain ⟨ruleId, numbered, policy⟩ := Stage.written.inj (written.symm.trans old)
        exact .inl ⟨version, List.mem_append_right _ (List.mem_singleton_self _), ruleId, numbered, policy⟩
      · exact .inr ⟨other, others same old⟩
  · exact fun other running => consistent.unchanged other (update_running running nofun).2

theorem mem_updated {rules : List Rule} {id : String} {change : Rule → Rule} {rule : Rule}
    (member : rule ∈ updated rules id change) :
    ∃ old ∈ rules, old.id = id ∧ rule = change old ∨ old.id ≠ id ∧ rule = old := by
  obtain ⟨old, inside, rfl⟩ := List.mem_map.mp member
  refine ⟨old, inside, ?_⟩
  split
  next same => exact .inl ⟨same, rfl⟩
  next other => exact .inr ⟨other, rfl⟩

/-- The version that the client has read is overwritten, and the next one owed. -/
theorem Consistent.updateRule (consistent : Consistent store) {client : ι} {id : String}
    {policy : Policy} {currentVersion : Nat} (present : ∃ rule ∈ store.tables.rules, rule.id = id)
    (latest : ∀ rule ∈ store.tables.rules, rule.id = id → currentVersion = rule.currentVersion + 1)
    (settled : ∀ id number policy, store.stage client ≠ .written id number policy)
    (changes : ι → List (Policy × Policy)) (same : ∀ other, other ≠ client → changes other = store.changes other) :
    Consistent { store with
      tables := { store.tables with rules := updated store.tables.rules id (overwrite policy currentVersion) }
      stage := Function.update store.stage client (.written id currentVersion policy)
      changes := changes } := by
  obtain ⟨target, there, rfl⟩ := present
  obtain rfl := latest target there rfl
  have only (rule : Rule) (member : rule ∈ store.tables.rules) (same : rule.id = target.id) : rule = target :=
    List.inj_on_of_nodup_map consistent.keyed.rules member there same
  have ids : (updated store.tables.rules target.id (overwrite policy (target.currentVersion + 1))).map (·.id) =
      store.tables.rules.map (·.id) := by
    simp only [updated, List.map_map]
    refine List.map_congr_left fun rule _ => ?_
    simp only [Function.comp]
    split <;> rfl
  have kept {id : String} (found : ∃ rule ∈ store.tables.rules, rule.id = id) :
      ∃ rule ∈ updated store.tables.rules target.id (overwrite policy (target.currentVersion + 1)), rule.id = id := by
    obtain ⟨rule, member, own⟩ := found
    have listed : id ∈ (updated store.tables.rules target.id (overwrite policy (target.currentVersion + 1))).map (·.id) := by
      rw [ids]
      exact own ▸ List.mem_map_of_mem member
    exact List.mem_map.mp listed
  -- Nobody has the next version yet: all that is stored or owed is up to the current one.
  have bounds := consistent.numbered target there (target.currentVersion + 1)
  have unstored : ¬ store.tables.Stores target.id (target.currentVersion + 1) := by
    intro stored
    have := bounds.mpr (.inl stored)
    omega
  have unowed (other : ι) : ¬ store.Owes other target.id (target.currentVersion + 1) := by
    intro owed
    have := bounds.mpr (.inr ⟨other, owed⟩)
    omega
  refine ⟨⟨?_, consistent.keyed.versions, ?_⟩, ?_, ?_, ?_, ?_, ?_, ?_, ?_, consistent.raised⟩
  · rw [ids]
    exact consistent.keyed.rules
  · exact fun version member => kept (consistent.keyed.parents version member)
  · intro rule member number
    obtain ⟨old, inside, ⟨same, rfl⟩ | ⟨other, rfl⟩⟩ := mem_updated member
    · obtain rfl := only old inside same
      exact consistent.numbered_next there settled number
    · exact consistent.numbered_beside inside settled other number
  · intro rule member
    obtain ⟨old, inside, ⟨-, rfl⟩ | ⟨-, rfl⟩⟩ := mem_updated member
    · exact Nat.le_add_left 1 _
    · exact consistent.positive rule inside
  · rintro holder id number ⟨held, written⟩
    obtain ⟨-, new⟩ | ⟨-, old⟩ := update_written written
    · exact kept ⟨target, there, (Stage.written.inj new).1⟩
    · exact kept (consistent.parents holder id number ⟨held, old⟩)
  · rintro holder id number ⟨held, written⟩
    exact (consistent.owing unstored unowed written).1
  · rintro one two id number ⟨held, written⟩ ⟨held', written'⟩
    exact (consistent.owing unstored unowed written).2 two held' written'
  · intro rule member
    obtain ⟨old, inside, ⟨same, rfl⟩ | ⟨other, rfl⟩⟩ := mem_updated member
    · obtain rfl := only old inside same
      exact .inr ⟨client, Function.update_self ..⟩
    · exact (consistent.policy rule inside).imp_right fun ⟨holder, written⟩ => ⟨holder, written_beside settled written⟩
  · intro other running
    obtain ⟨apart, running⟩ := update_running running nofun
    exact (same other apart).trans (consistent.unchanged other running)

def contract : Contract Request (Store ι) ι where
  kept := Consistent
  rely := Onward
  allowed := Completed

/-- What a client must know of its own before a statement. -/
def Prepared (client : ι) (store : Store ι) : Request → Prop
  | .began => store.stage client = .idle
  | .insertRule rule => rule.currentVersion = 1 ∧ Settled client store
  | .insertVersion version => store.stage client = .written version.ruleId version.version version.policy
  | .updateRule id _ _ => (∃ rule ∈ store.tables.rules, rule.id = id) ∧ Settled client store
  | .finished _ none => Settled client store
  | _ => True

variable {request : Request}

theorem Consistent.answer (consistent : Consistent store) (choice : Choice) (client : ι)
    (prepared : Prepared client store request) (completed : Completed client store request) :
    Consistent (answer choice client store request).2 ∧
      ∀ other, other ≠ client → Onward other store (answer choice client store request).2 := by
  have staged {tables : Tables} {new : Stage} {changes : ι → List (Policy × Policy)} {outcomes : List Outcome}
      (rules : ∀ rule ∈ store.tables.rules, ∃ other ∈ tables.rules, other.id = rule.id) (other : ι)
      (different : other ≠ client) :
      Onward other store ⟨tables, Function.update store.stage client new, changes, outcomes⟩ :=
    ⟨Function.update_of_ne different .., rules⟩
  have same (rule : Rule) (member : rule ∈ store.tables.rules) : ∃ other ∈ store.tables.rules, other.id = rule.id :=
    ⟨rule, member, rfl⟩
  cases request with
  | began => exact ⟨consistent.began prepared, staged same⟩
  | generate => exact ⟨consistent, fun other _ => .refl other store⟩
  | selectRule id => exact ⟨consistent, fun other _ => .refl other store⟩
  | record actorId action targetType targetId => exact ⟨consistent, fun other _ => .refl other store⟩
  | invalidate => exact ⟨consistent, fun other _ => .refl other store⟩
  | insertRule rule =>
    dsimp only [RuleVersions.answer]
    split
    · exact ⟨consistent, fun other _ => .refl other store⟩
    next absent =>
      refine ⟨consistent.insertRule (Bool.not_eq_true _ ▸ absent) prepared.1 prepared.2, staged fun rule member => ?_⟩
      exact ⟨rule, List.mem_append_left _ member, rfl⟩
  | insertVersion version =>
    dsimp only [RuleVersions.answer]
    split
    · exact ⟨consistent, fun other _ => .refl other store⟩
    · split
      · exact ⟨consistent, fun other _ => .refl other store⟩
      · exact ⟨consistent.insertVersion prepared, staged same⟩
  | updateRule id policy currentVersion =>
    exact ⟨consistent.updateRule prepared.1 completed prepared.2 _ fun other different =>
      Function.update_of_ne different .., staged fun rule member => updated_ids (overwrite policy currentVersion) (fun _ => rfl) rule member⟩
  | archiveRule id =>
    exact ⟨consistent.archive id _, fun other _ =>
      ⟨rfl, updated_ids _ (fun _ => rfl)⟩⟩
  | archiveBindings ruleId =>
    refine ⟨?_, fun other _ => ⟨rfl, same⟩⟩
    exact consistent.transfer id (List.map_id _).symm (fun _ => ⟨rfl, rfl, rfl⟩) rfl (fun _ _ _ _ => Iff.rfl)
      consistent.unchanged consistent.raised
  | finished call raised =>
    refine ⟨?_, staged same⟩
    cases raised with
    | none => exact consistent.finished call none prepared nofun
    | some error => exact consistent.finished call (some error) completed.1 fun update _ => completed.2 update

theorem serve_cases {choice : Choice} {client : ι} {after : Store ι}
    {reply : Except Raised (Reply request)} (answered : serve client choice store request = some (reply, after)) :
    (∃ error, reply = .error error ∧ after = store ∧ request.fallible = true) ∨
      (reply, after) = RuleVersions.answer choice client store request := by
  unfold serve at answered
  split at answered
  next fallible =>
    cases answered
    exact .inl ⟨_, rfl, rfl, fallible⟩
  · exact .inr (Option.some.inj answered).symm

theorem Consistent.step {after : Store ι} (consistent : Consistent store) {choice : Choice} {client : ι}
    {reply : Except Raised (Reply request)} (prepared : Prepared client store request)
    (completed : Completed client store request)
    (answered : serve client choice store request = some (reply, after)) :
    Consistent after ∧ ∀ other, other ≠ client → Onward other store after := by
  obtain ⟨_, -, rfl, -⟩ | same := serve_cases answered
  · exact ⟨consistent, fun other _ => .refl other after⟩
  · have advanced := consistent.answer choice client prepared completed
    rwa [← same] at advanced

variable {client : ι} {α β : Type}

/-- Where the program returns, its postcondition holds. -/
def Runs (client : ι) (program : Program α) (state : Store ι) (post : α → Store ι → Prop) : Prop :=
  contract.Safe serve client (fun result final => match result with
    | .ok value => post value final
    | .error _ => True) program state

theorem Runs.bind {program : Program α} {next : α → Program β} {middle : α → Store ι → Prop}
    {post : β → Store ι → Prop} (first : Runs client program state middle)
    (rest : ∀ value final, middle value final → Runs client (next value) final post) :
    Runs client (program.bind next) state post := by
  refine Contract.Safe.bind (Contract.Safe.weaken first fun result final reached => ?_)
  cases result with
  | ok value => exact rest value final reached
  | error error => trivial

theorem Runs.perform {post : Reply request → Store ι → Prop}
    (prepared : ∀ now, Onward client state now → Prepared client now request)
    (effect : ∀ (choice : Choice) now, Onward client state now → ∀ value,
      (answer choice client now request).1 = .ok value → post value (answer choice client now request).2) :
    Runs client (Prog.perform request) state post := by
  refine Contract.Safe.perform fun now consistent moved completed choice reply after answered => ?_
  obtain ⟨kept, others⟩ := consistent.step (prepared now moved) completed answered
  refine ⟨kept, others, ?_⟩
  cases reply with
  | error error => trivial
  | ok value =>
    obtain ⟨_, wrong, -⟩ | same := serve_cases answered
    · cases wrong
    · have reached := effect choice now moved value (congrArg Prod.fst same).symm
      rwa [← same] at reached

/-- Statements that leave the stage of their client. -/
def Quiet : Request → Prop
  | .generate => True
  | .record _ _ _ _ => True
  | .invalidate => True
  | .archiveRule _ => True
  | .archiveBindings _ => True
  | _ => False

theorem quiet_runs (quiet : Quiet request) {stage : Stage} (own : state.stage client = stage) :
    Runs client (Prog.perform request) state fun _ final => final.stage client = stage := by
  cases request with
  | generate | record | invalidate | archiveRule | archiveBindings =>
    exact .perform (fun _ _ => trivial) fun choice now moved value _ => moved.stage.trans own
  | began | selectRule | insertRule | insertVersion | updateRule | finished => exact quiet.elim

namespace RuleStore

variable (self : RuleStore)

theorem recordIf_runs (actorId : String) (action : ActionType) (targetId : String) {stage : Stage}
    (own : state.stage client = stage) :
    Runs client (self.recordIf actorId action targetId) state fun _ final => final.stage client = stage := by
  unfold recordIf
  cases self.audit with
  | true => exact quiet_runs (by trivial) own
  | false => exact own

theorem invalidateIf_runs {stage : Stage} (own : state.stage client = stage) :
    Runs client self.invalidateIf state fun _ final => final.stage client = stage := by
  unfold invalidateIf
  cases self.cache with
  | true => exact quiet_runs (by trivial) own
  | false => exact own

theorem createVersion_runs (rule : Rule)
    (written : state.stage client = .written rule.id rule.currentVersion (policyOf rule)) :
    Runs client (createVersion rule) state fun _ final => final.stage client = .recorded := by
  refine Runs.bind (quiet_runs (by trivial) written) fun verId generated same => ?_
  refine .perform (fun now moved => moved.stage.trans same) fun choice now moved value returned => ?_
  dsimp only [answer] at returned ⊢
  split at returned
  · cases returned
  next unique =>
    split at returned
    · cases returned
    next parent =>
      rw [if_neg unique, if_neg parent]
      exact Function.update_self ..

theorem createRule_runs (new : RuleStore.NewRule) (createdBy : String) (running : state.stage client = .running) :
    Runs client (self.createRule new createdBy) state fun _ final => Settled client final := by
  refine Runs.bind (quiet_runs (by trivial) running) fun ruleId generated own => ?_
  refine Runs.bind (show Runs client _ _ fun _ final => final.stage client =
    .written ruleId 1 ⟨new.conditions, new.effect, new.priority⟩ from .perform (fun now moved => ?_) ?_)
    fun _ inserted own => ?_
  · exact ⟨rfl, running_settled (moved.stage.trans own)⟩
  · intro choice now moved value returned
    dsimp only [answer] at returned ⊢
    split at returned
    · cases returned
    next absent =>
      rw [if_neg absent]
      exact Function.update_self ..
  · refine (createVersion_runs _ own).bind fun _ recorded own => ?_
    refine (self.recordIf_runs _ _ _ own).bind fun _ audited own => ?_
    exact (self.invalidateIf_runs own).bind fun _ final own => recorded_settled own

theorem getRule_runs (ruleId : String) {stage : Stage} (own : state.stage client = stage) :
    Runs client (getRule ruleId) state fun rule final =>
      final.stage client = stage ∧ rule ∈ final.tables.rules ∧ rule.id = ruleId := by
  refine Runs.bind (show Runs client _ _ fun row final => final.stage client = stage ∧
    ∀ rule ∈ row, rule ∈ final.tables.rules ∧ rule.id = ruleId from .perform (fun _ _ => trivial) ?_) fun row final found => ?_
  · intro choice now moved row returned
    cases returned
    refine ⟨moved.stage.trans own, fun rule found => ?_⟩
    have same := List.find?_some (p := fun other : Rule => other.id == ruleId) found
    exact ⟨List.mem_of_find?_eq_some found, eq_of_beq same⟩
  · cases row with
    | none => trivial
    | some rule => exact ⟨found.1, found.2 rule rfl⟩

theorem updateRule_runs (ruleId updatedBy : String) (conditions : Option (List (String × Json)))
    (effect : Option RuleEffect) (priority : Option Int) (running : state.stage client = .running) :
    Runs client (self.updateRule ruleId updatedBy conditions effect priority) state fun _ final =>
      Settled client final := by
  refine (getRule_runs ruleId running).bind fun loaded read ⟨own, member, same⟩ => ?_
  subst same
  refine Runs.bind (show Runs client _ _ fun _ final => final.stage client = .written loaded.id (loaded.currentVersion + 1)
    ⟨conditions.getD loaded.conditions, effect.getD loaded.effect, priority.getD loaded.priority⟩ from
    .perform (fun now moved => ?_) ?_) fun _ overwritten own => ?_
  · exact ⟨moved.rules loaded member, running_settled (moved.stage.trans own)⟩
  · exact fun choice now moved value returned => Function.update_self ..
  · refine (createVersion_runs _ own).bind fun _ recorded own => ?_
    refine (self.recordIf_runs _ _ _ own).bind fun _ audited own => ?_
    exact (self.invalidateIf_runs own).bind fun _ final own => recorded_settled own

theorem archiveRule_runs (ruleId archivedBy : String) (running : state.stage client = .running) :
    Runs client (self.archiveRule ruleId archivedBy) state fun _ final => Settled client final := by
  refine (getRule_runs ruleId running).bind fun loaded read ⟨own, _⟩ => ?_
  refine Runs.bind (quiet_runs (by trivial) own) fun _ archived own => ?_
  refine Runs.bind (quiet_runs (by trivial) own) fun _ archived own => ?_
  refine (self.recordIf_runs _ _ _ own).bind fun _ audited own => ?_
  exact (self.invalidateIf_runs own).bind fun _ final own => running_settled own

theorem invoke_runs (made : Call) (running : state.stage client = .running) :
    Runs client (self.invoke made) state fun _ final => Settled client final := by
  cases made with
  | createRule new createdBy => exact self.createRule_runs new createdBy running
  | updateRule ruleId updatedBy conditions effect priority =>
    exact self.updateRule_runs ruleId updatedBy conditions effect priority running
  | archiveRule ruleId archivedBy => exact self.archiveRule_runs ruleId archivedBy running

/-- A call from an idle client leaves it idle, however it ends. -/
theorem call_safe (made : Call) (idle : state.stage client = .idle) :
    contract.Safe serve client (fun result final => ∃ value, result = .ok value ∧ final.stage client = .idle)
      (self.call made) state := by
  refine Contract.Safe.bind (Contract.Safe.perform fun now consistent moved completed choice reply after answered => ?_)
  have prepared : Prepared client now .began := moved.stage.trans idle
  obtain ⟨kept, others⟩ := consistent.step prepared completed answered
  refine ⟨kept, others, ?_⟩
  obtain ⟨_, -, -, wrong⟩ | same := serve_cases answered
  · cases wrong
  · cases same
    refine Contract.Safe.bind (Contract.Safe.attempt (Contract.Safe.weaken
      (self.invoke_runs made (Function.update_self ..)) fun result ended settled => ?_))
    have finishes (raised : Option Raised) (ready : raised = none → Settled client ended) (value : Except Raised Rule) :
        contract.Safe serve client (fun result final => ∃ value, result = .ok value ∧ final.stage client = .idle)
          ((Prog.perform (Request.finished made raised)).bind fun _ => .pure value) ended := by
      refine Contract.Safe.bind (Contract.Safe.perform fun now consistent moved completed choice reply after answered => ?_)
      have prepared : Prepared client now (.finished made raised) := by
        cases raised with
        | some error => trivial
        | none =>
          unfold Prepared Settled
          rw [moved.stage]
          exact ready rfl
      obtain ⟨kept, others⟩ := consistent.step prepared completed answered
      refine ⟨kept, others, ?_⟩
      obtain ⟨_, -, -, wrong⟩ | same := serve_cases answered
      · cases wrong
      · cases same
        exact ⟨value, rfl, Function.update_self ..⟩
    cases result with
    | ok rule => exact finishes none (fun _ => settled) (.ok rule)
    | error error => exact finishes (some error) nofun (.error error)

theorem Client.safe {program : Program Unit} (runs : self.Client program)
    (idle : state.stage client = .idle) : contract.Safe serve client (fun _ _ => True) program state := by
  induction runs generalizing state with
  | done => trivial
  | call made next each ih =>
    refine Contract.Safe.bind ((self.call_safe made idle).weaken fun result final ended => ?_)
    obtain ⟨value, rfl, idle⟩ := ended
    exact ih value idle

section Sample

def plain : RuleStore := ⟨false, false⟩

def vacant : Store Bool := ⟨⟨[], [], []⟩, fun _ => .idle, fun _ => [], []⟩

/-- The rules and versions stored, whether the calls that ended raised, and
whether none is in progress. -/
private structure Tally where
  rules : List (String × RuleEffect × Nat)
  versions : List (String × RuleEffect × Nat)
  raised : List Bool
  idle : Bool
  deriving DecidableEq

private def isIdle : Stage → Bool
  | .idle => true
  | _ => false

private def tally (world : Interleaved Request Reply Raised (Store Bool) Bool) : Tally where
  rules := world.state.tables.rules.map fun rule => (rule.id, rule.effect, rule.currentVersion)
  versions := world.state.tables.versions.map fun version => (version.ruleId, version.policy.effect, version.version)
  raised := world.state.outcomes.map fun outcome => outcome.raised.isSome
  idle := isIdle (world.state.stage false) && isIdle (world.state.stage true)

private def plainly (generated : String) : Bool × Choice := (false, ⟨none, generated⟩)

private def failing : Bool × Choice := (false, ⟨some (.other "connection lost"), ""⟩)

/-- The creation, and the update up to its version. -/
private def turns : List (Bool × Choice) := ["", "r", "", "v1", "", "", "", "", "", "v2"].map plainly

/-- Updates overwrite what they have read, and nothing is cut off. -/
private def Fitting (_ : Bool) (store : Store Bool) : Request → Prop
  | .updateRule id _ currentVersion => ∀ rule ∈ store.tables.rules, rule.id = id → currentVersion = rule.currentVersion + 1
  | .finished _ raised => raised.isNone = true
  | _ => True

private instance (client : Bool) (store : Store Bool) (request : Request) : Decidable (Fitting client store request) := by
  unfold Fitting
  split <;> infer_instance

end Sample

end RuleStore
end PyScoped.Legacy.RuleVersions
