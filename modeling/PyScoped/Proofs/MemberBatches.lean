import PyScoped.Legacy.MemberBatches

/-! When adding several members to a scope is atomic. Each entry is committed
before the next one is looked at, so a late failure leaves the earlier grants. -/

namespace PyScoped.Legacy.MemberBatches
open Foundation Memberships

variable (lifecycle : ScopeLifecycle) (env : Env) (world : World) (scopeId grantedBy : String)

/-- The role is one, and the principal is given. -/
def Named (member : Member) (principalId : String) (role : ScopeRole) : Prop :=
  ScopeRole.ofValue (member.role.getD "viewer") = some role ∧ member.principalId = some principalId

/-- There is an active row, whatever its expiry. -/
def Held (principalId : String) (role : ScopeRole) : Prop :=
  ∃ row, world.memberships.find (scopeId, principalId, role) = some row ∧ row.lifecycle = .active

/-- A row is there to be reactivated, or the foreign key lets a new one in. -/
def Writable (place : Nat) (principalId : String) (role : ScopeRole) : Prop :=
  env.fault (.write place) = none ∧
    ((world.memberships.find (scopeId, principalId, role)).isSome = true ∨ principalId ∈ world.principals)

def Recorded (place : Nat) : Prop := lifecycle.audit = true → env.fault (.record place) = none

/-- The entry finds its grant in place. -/
def Idle (place : Nat) (member : Member) : Prop :=
  ∃ principalId role, Named member principalId role ∧ env.fault (.lookup place) = none ∧ Held world scopeId principalId role

/-- The entry neither finds its grant nor writes it. -/
def Stuck (place : Nat) (member : Member) : Prop :=
  ¬ ∃ principalId role, Named member principalId role ∧ env.fault (.lookup place) = none ∧
    (Held world scopeId principalId role ∨ Writable env world scopeId place principalId role)

/-- The first entry that does not find its grant is stopped before it writes. -/
def StopsIdle (members : List Member) : Prop :=
  ∃ place member, members[place]? = some member ∧ Stuck env world scopeId place member ∧
    ∀ earlier other, earlier < place → members[earlier]? = some other → Idle env world scopeId earlier other

/-- An entry before this one names the same grant. -/
def Repeats (members : List Member) (place : Nat) (principalId : String) (role : ScopeRole) : Prop :=
  ∃ earlier other, earlier < place ∧ members[earlier]? = some other ∧ Named other principalId role

/-- The entry finds its grant, made before the call or by it, or writes and records it. -/
def Passes (members : List Member) (place : Nat) (member : Member) : Prop :=
  ∃ principalId role, Named member principalId role ∧ env.fault (.lookup place) = none ∧
    (Held world scopeId principalId role ∨ Repeats members place principalId role ∨
      Writable env world scopeId place principalId role ∧ Recorded lifecycle env place)

def GoesThrough (members : List Member) : Prop :=
  ∀ place member, members[place]? = some member → Passes lifecycle env world scopeId members place member

/-- No grant that is found in place has expired at a moment. -/
def Unlapsed (members : List Member) (moment : Aware) : Prop :=
  ∀ member ∈ members, ∀ principalId role, Named member principalId role →
    ∀ row, world.memberships.find (scopeId, principalId, role) = some row → row.lifecycle = .active →
      row.holds moment = true

/-- The scope is there, neither frozen nor archived. -/
def Open : Prop :=
  env.fault .getScope = none ∧
    ∃ scope, world.scopes.find scopeId = some scope ∧ scope.isFrozen = false ∧ scope.isArchived = false

/-- A call that raises leaves the memberships alone, and after one that returns
every listed principal holds the listed role. -/
structure Atomic (members : List Member) (moment : Aware) : Prop where
  whole : ∀ error after, (addMembers lifecycle env scopeId members grantedBy).on world = (.error error, after) →
    after.memberships = world.memberships
  granted : ∀ mems after, (addMembers lifecycle env scopeId members grantedBy).on world = (.ok mems, after) →
    ∀ member ∈ members, ∃ principalId role, Named member principalId role ∧
      ∃ row, after.memberships.find (scopeId, principalId, role) = some row ∧ row.holds moment = true

variable {lifecycle env world scopeId grantedBy}

theorem Named.unique {member : Member} {principalId other : String} {role role' : ScopeRole}
    (named : Named member principalId role) (named' : Named member other role') : other = principalId ∧ role' = role :=
  ⟨Option.some.inj (named'.2.symm.trans named.2), Option.some.inj (named'.1.symm.trans named.1)⟩

/-- A grant is written: its row is active and does not expire, and no other row changes. -/
structure Grants (world after : World) (scopeId principalId : String) (role : ScopeRole) : Prop where
  principals : after.principals = world.principals
  here : ∃ row, after.memberships.find (scopeId, principalId, role) = some row ∧ row.lifecycle = .active ∧ row.expiresAt = none
  elsewhere : ∀ address, address ≠ (scopeId, principalId, role) →
    after.memberships.find address = world.memberships.find address

theorem recordIf_on (place : Nat) (record : Memberships.Record) (world : World) :
    ∃ result records, (recordIf lifecycle env place record).on world = (result, { world with records := records }) ∧
      (result = .ok () ↔ Recorded lifecycle env place) := by
  unfold recordIf Recorded
  cases lifecycle.audit with
  | false => exact ⟨.ok (), world.records, rfl, by simp⟩
  | true =>
    cases env.fault (.record place) with
    | some error => exact ⟨.error error, world.records, rfl, by simp⟩
    | none => exact ⟨.ok (), world.records ++ [record], rfl, by simp⟩

theorem reactivate_grants {principalId : String} {role : ScopeRole} {row : Membership}
    (found : world.memberships.find (scopeId, principalId, role) = some row) (ts : Moment) (records : List Memberships.Record) :
    Grants world { world.reactivate scopeId principalId role ts grantedBy none with records := records } scopeId principalId
      role := by
  have written := Rows.find_update world.memberships (·.address = (scopeId, principalId, role))
    (granted ts grantedBy none) fun _ => rfl
  have address := (Rows.find_eq_some.mp found).2
  refine ⟨rfl, ⟨granted ts grantedBy none row, ?_, rfl, rfl⟩, fun other unlike => ?_⟩
  · refine (written _).trans ?_
    rw [found]
    simp [address]
  · refine (written _).trans ?_
    cases present : world.memberships.find other with
    | none => rfl
    | some row =>
      have address := (Rows.find_eq_some.mp present).2
      simp [address, unlike]

theorem insert_grants {principalId : String} {role : ScopeRole} {mem : Membership} {memberships : Rows Membership.address}
    (address : mem.address = (scopeId, principalId, role)) (active : mem.lifecycle = .active) (lasting : mem.expiresAt = none)
    (inserted : world.memberships.insert mem = some memberships) (records : List Memberships.Record) :
    Grants world { world with memberships := memberships, records := records } scopeId principalId role := by
  refine ⟨rfl, ⟨mem, ?_, active, lasting⟩, fun other unlike => ?_⟩
  · exact (Rows.find_insert inserted _).trans (if_pos address.symm)
  · exact (Rows.find_insert inserted _).trans (if_neg (address ▸ unlike))

section Membership

variable {place : Nat} {principalId : String} {role : ScopeRole}

variable (lifecycle grantedBy) in
theorem addMembership_held (fine : env.fault (.lookup place) = none) (held : Held world scopeId principalId role) :
    ∃ mem, (addMembership lifecycle env place scopeId principalId role grantedBy none).on world = (.ok mem, world) := by
  obtain ⟨row, found, active⟩ := held
  refine ⟨row, ?_⟩
  unfold addMembership
  rw [Stateful.on_bind, fine, Stateful.on_ask_none, found]
  dsimp only
  rw [if_pos active]
  rfl

variable (lifecycle grantedBy) in
theorem addMembership_stuck (stuck : ¬ (env.fault (.lookup place) = none ∧
    (Held world scopeId principalId role ∨ Writable env world scopeId place principalId role))) :
    ∃ error, (addMembership lifecycle env place scopeId principalId role grantedBy none).on world = (.error error, world) := by
  unfold addMembership
  rw [Stateful.on_bind]
  cases fine : env.fault (.lookup place) with
  | some error => exact ⟨error, rfl⟩
  | none =>
    rw [Stateful.on_ask_none]
    dsimp only
    cases found : world.memberships.find (scopeId, principalId, role) with
    | some row =>
      dsimp only
      have inactive : row.lifecycle ≠ .active := fun active => stuck ⟨fine, .inl ⟨row, found, active⟩⟩
      rw [if_neg inactive]
      cases write : env.fault (.write place) with
      | some error => exact ⟨error, rfl⟩
      | none => exact absurd ⟨fine, .inr ⟨write, .inl (by rw [found]; rfl)⟩⟩ stuck
    | none =>
      dsimp only
      rw [Stateful.on_bind]
      unfold insertMembership
      rw [Stateful.on_bind]
      cases write : env.fault (.write place) with
      | some error => exact ⟨error, rfl⟩
      | none =>
        have unknown : principalId ∉ world.principals := fun known => stuck ⟨fine, .inr ⟨write, .inr known⟩⟩
        rw [Stateful.on_ask_none]
        dsimp only
        rw [Stateful.on_bind, Stateful.on_get]
        dsimp only
        rw [if_pos unknown]
        exact ⟨_, rfl⟩

variable (lifecycle grantedBy) in
/-- An entry that writes its grant returns it where it is recorded. -/
theorem addMembership_writes (fine : env.fault (.lookup place) = none) (missing : ¬ Held world scopeId principalId role)
    (writable : Writable env world scopeId place principalId role) : ∃ result after,
    (addMembership lifecycle env place scopeId principalId role grantedBy none).on world = (result, after) ∧
      Grants world after scopeId principalId role ∧ ((∃ mem, result = .ok mem) ↔ Recorded lifecycle env place) := by
  obtain ⟨write, possible⟩ := writable
  unfold addMembership
  rw [Stateful.on_bind, fine, Stateful.on_ask_none]
  dsimp only
  cases found : world.memberships.find (scopeId, principalId, role) with
  | some row =>
    dsimp only
    have inactive : row.lifecycle ≠ .active := fun active => missing ⟨row, found, active⟩
    obtain ⟨recorded, records, ran, told⟩ := recordIf_on place
      ⟨grantedBy, .membershipChange, scopeId, none,
        some ⟨row.id, scopeId, principalId, role, (env.now place).toAware, grantedBy, none, .active⟩⟩
      (world.reactivate scopeId principalId role (env.now place) grantedBy none)
    rw [if_neg inactive, Stateful.on_bind, write, Stateful.on_assign_none]
    dsimp only
    rw [Stateful.on_bind_pure, ran]
    refine ⟨_, _, rfl, reactivate_grants found (env.now place) records, ?_⟩
    rw [← told]
    cases recorded <;> simp [Except.map]
  | none =>
    have known : principalId ∈ world.principals := possible.resolve_left (by rw [found]; simp)
    let mem : Membership :=
      ⟨(env.ids place).text, scopeId, principalId, role, (env.now place).toAware, grantedBy, none, .active⟩
    obtain ⟨memberships, inserted⟩ : ∃ memberships, world.memberships.insert mem = some memberships := by
      refine Option.ne_none_iff_exists'.mp fun taken => ?_
      rw [Rows.insert_eq_none] at taken
      change (world.memberships.find (scopeId, principalId, role)).isSome = true at taken
      rw [found] at taken
      cases taken
    have wrote : (insertMembership env place mem).on world = (.ok (), { world with memberships := memberships }) := by
      unfold insertMembership
      rw [Stateful.on_bind, write, Stateful.on_ask_none]
      dsimp only
      rw [Stateful.on_bind, Stateful.on_get]
      dsimp only
      rw [if_neg (not_not.mpr known), inserted]
      rfl
    obtain ⟨recorded, records, ran, told⟩ := recordIf_on place
      ⟨grantedBy, .membershipChange, scopeId, none, some mem⟩ { world with memberships := memberships }
    dsimp only
    rw [Stateful.on_bind, wrote]
    dsimp only
    rw [Stateful.on_bind_pure, ran]
    refine ⟨_, _, rfl, insert_grants rfl rfl rfl inserted records, ?_⟩
    rw [← told]
    cases recorded <;> simp [Except.map]

end Membership

/-- What the entries before a place have done to the memberships. -/
structure Grown (world : World) (scopeId : String) (members : List Member) (place : Nat) (after : World) : Prop where
  principals : after.principals = world.principals
  named : ∀ principalId role, Repeats members place principalId role → Held after scopeId principalId role
  fresh : ∀ principalId role, ¬ Repeats members place principalId role →
    after.memberships.find (scopeId, principalId, role) = world.memberships.find (scopeId, principalId, role)
  rows : ∀ principalId role,
    after.memberships.find (scopeId, principalId, role) = world.memberships.find (scopeId, principalId, role) ∨
    ¬ Held world scopeId principalId role ∧ ∃ row, after.memberships.find (scopeId, principalId, role) = some row ∧
      row.lifecycle = .active ∧ row.expiresAt = none

theorem Grown.start (world : World) (scopeId : String) (members : List Member) : Grown world scopeId members 0 world where
  principals := rfl
  named := by
    rintro principalId role ⟨earlier, -, before, -⟩
    exact absurd before (Nat.not_lt_zero _)
  fresh _ _ _ := rfl
  rows _ _ := .inl rfl

variable {after : World}

theorem Held.congr {principalId : String} {role : ScopeRole} (held : Held world scopeId principalId role)
    (same : after.memberships.find (scopeId, principalId, role) = world.memberships.find (scopeId, principalId, role)) :
    Held after scopeId principalId role := by
  obtain ⟨row, found, active⟩ := held
  exact ⟨row, same.trans found, active⟩

theorem Grants.held {principalId : String} {role : ScopeRole} (grants : Grants world after scopeId principalId role) :
    Held after scopeId principalId role := by
  obtain ⟨row, found, active, -⟩ := grants.here
  exact ⟨row, found, active⟩

theorem Grants.keeps {principalId other : String} {role role' : ScopeRole}
    (grants : Grants world after scopeId principalId role) (held : Held world scopeId other role') :
    Held after scopeId other role' := by
  by_cases same : (scopeId, other, role') = (scopeId, principalId, role)
  · cases same
    exact grants.held
  · exact held.congr (grants.elsewhere _ same)

section Run

variable {members : List Member} {place : Nat} {member : Member} {principalId : String} {role : ScopeRole} {middle : World}

theorem repeats_succ (here : members[place]? = some member) (named : Named member principalId role) (other : String)
    (role' : ScopeRole) : Repeats members (place + 1) other role' ↔
      (other = principalId ∧ role' = role) ∨ Repeats members place other role' := by
  constructor
  · rintro ⟨earlier, entry, before, there, named'⟩
    rcases Nat.lt_succ_iff_lt_or_eq.mp before with sooner | rfl
    · exact .inr ⟨earlier, entry, sooner, there, named'⟩
    · cases here.symm.trans there
      exact .inl (named.unique named')
  · rintro (⟨rfl, rfl⟩ | ⟨earlier, entry, before, there, named'⟩)
    · exact ⟨place, member, Nat.lt_succ_self _, here, named⟩
    · exact ⟨earlier, entry, Nat.lt_succ_of_lt before, there, named'⟩

theorem Grown.found (grown : Grown world scopeId members place middle) (here : members[place]? = some member)
    (named : Named member principalId role) (held : Held middle scopeId principalId role) :
    Grown world scopeId members (place + 1) middle where
  principals := grown.principals
  named := by
    intro other role' repeated
    rcases (repeats_succ here named other role').mp repeated with ⟨rfl, rfl⟩ | earlier
    · exact held
    · exact grown.named _ _ earlier
  fresh other role' unlike := grown.fresh _ _ fun earlier => unlike ((repeats_succ here named other role').mpr (.inr earlier))
  rows := grown.rows

theorem Grown.granted (grown : Grown world scopeId members place middle) (here : members[place]? = some member)
    (named : Named member principalId role) (missing : ¬ Held middle scopeId principalId role)
    (grants : Grants middle after scopeId principalId role) : Grown world scopeId members (place + 1) after where
  principals := grants.principals.trans grown.principals
  named := by
    intro other role' repeated
    rcases (repeats_succ here named other role').mp repeated with ⟨rfl, rfl⟩ | earlier
    · exact grants.held
    · exact grants.keeps (grown.named _ _ earlier)
  fresh := by
    intro other role' unlike
    have apart : ¬ (other = principalId ∧ role' = role) := fun same => unlike ((repeats_succ here named other role').mpr (.inl same))
    have elsewhere := grants.elsewhere (scopeId, other, role') (by simpa using apart)
    exact elsewhere.trans (grown.fresh _ _ fun earlier => unlike ((repeats_succ here named other role').mpr (.inr earlier)))
  rows := by
    intro other role'
    by_cases same : (scopeId, other, role') = (scopeId, principalId, role)
    · cases same
      right
      refine ⟨fun held => missing ?_, grants.here⟩
      rcases grown.rows principalId role with same | ⟨-, row, found, active, -⟩
      · exact held.congr same
      · exact ⟨row, found, active⟩
    · rw [grants.elsewhere _ same]
      exact grown.rows other role'

theorem Grown.passes_iff (grown : Grown world scopeId members place middle) :
    Passes lifecycle env world scopeId members place member ↔
      ∃ principalId role, Named member principalId role ∧ env.fault (.lookup place) = none ∧
        (Held middle scopeId principalId role ∨
          Writable env middle scopeId place principalId role ∧ Recorded lifecycle env place) := by
  refine exists_congr fun principalId => exists_congr fun role => and_congr_right fun _ => and_congr_right fun _ => ?_
  by_cases repeated : Repeats members place principalId role
  · exact ⟨fun _ => .inl (grown.named _ _ repeated), fun _ => .inr (.inl repeated)⟩
  · have same := grown.fresh principalId role repeated
    have held : Held middle scopeId principalId role ↔ Held world scopeId principalId role :=
      ⟨fun held => held.congr same.symm, fun held => held.congr same⟩
    have writable : Writable env middle scopeId place principalId role ↔ Writable env world scopeId place principalId role := by
      unfold Writable
      rw [same, grown.principals]
    rw [held, writable]
    simp [repeated]

variable (lifecycle grantedBy) {rest : List Member}

theorem addEach_named (named : Named member principalId role) (rest : List Member) :
    addEach lifecycle env scopeId grantedBy place (member :: rest) = (do
      let mem ← addMembership lifecycle env place scopeId principalId role grantedBy none
      let mems ← addEach lifecycle env scopeId grantedBy (place + 1) rest
      return mem :: mems) := by
  conv_lhs => unfold addEach
  rw [named.1, named.2]

theorem addEach_found (named : Named member principalId role) (fine : env.fault (.lookup place) = none)
    (held : Held world scopeId principalId role) (rest : List Member) :
    ∃ mem, (addEach lifecycle env scopeId grantedBy place (member :: rest)).on world =
      (((addEach lifecycle env scopeId grantedBy (place + 1) rest).on world).1.map (mem :: ·),
        ((addEach lifecycle env scopeId grantedBy (place + 1) rest).on world).2) := by
  obtain ⟨mem, ran⟩ := addMembership_held lifecycle grantedBy fine held
  refine ⟨mem, ?_⟩
  rw [addEach_named lifecycle grantedBy named, Stateful.on_bind, ran]
  exact Stateful.on_bind_pure _ _ _

theorem addEach_stuck (stuck : Stuck env world scopeId place member) (rest : List Member) :
    ∃ error, (addEach lifecycle env scopeId grantedBy place (member :: rest)).on world = (.error error, world) := by
  by_cases named : ∃ principalId role, Named member principalId role
  · obtain ⟨principalId, role, named⟩ := named
    obtain ⟨error, raised⟩ := @addMembership_stuck lifecycle env world scopeId grantedBy place principalId role
      fun possible => stuck ⟨principalId, role, named, possible⟩
    refine ⟨error, ?_⟩
    rw [addEach_named lifecycle grantedBy named, Stateful.on_bind, raised]
  · unfold addEach
    cases valid : ScopeRole.ofValue (member.role.getD "viewer") with
    | none => exact ⟨_, rfl⟩
    | some role =>
      cases given : member.principalId with
      | none => exact ⟨_, rfl⟩
      | some principalId => exact absurd ⟨principalId, role, valid, given⟩ named

theorem addEach_writes (named : Named member principalId role) (fine : env.fault (.lookup place) = none)
    (missing : ¬ Held world scopeId principalId role) (writable : Writable env world scopeId place principalId role)
    (rest : List Member) : ∃ after, Grants world after scopeId principalId role ∧
      ((¬ Recorded lifecycle env place ∧
        ∃ error, (addEach lifecycle env scopeId grantedBy place (member :: rest)).on world = (.error error, after)) ∨
      (Recorded lifecycle env place ∧ ∃ mem, (addEach lifecycle env scopeId grantedBy place (member :: rest)).on world =
        (((addEach lifecycle env scopeId grantedBy (place + 1) rest).on after).1.map (mem :: ·),
          ((addEach lifecycle env scopeId grantedBy (place + 1) rest).on after).2))) := by
  obtain ⟨result, after, ran, grants, told⟩ := addMembership_writes lifecycle grantedBy fine missing writable
  refine ⟨after, grants, ?_⟩
  rw [addEach_named lifecycle grantedBy named, Stateful.on_bind, ran]
  cases result with
  | error error => exact .inl ⟨fun recorded => by simpa using told.mpr recorded, error, rfl⟩
  | ok mem => exact .inr ⟨told.mp ⟨mem, rfl⟩, mem, Stateful.on_bind_pure _ _ _⟩

theorem entry_cases (env : Env) (world : World) (scopeId : String) (place : Nat) (member : Member) :
    Idle env world scopeId place member ∨ Stuck env world scopeId place member ∨
    ∃ principalId role, Named member principalId role ∧ env.fault (.lookup place) = none ∧
      ¬ Held world scopeId principalId role ∧ Writable env world scopeId place principalId role := by
  by_cases stuck : Stuck env world scopeId place member
  · exact .inr (.inl stuck)
  · obtain ⟨principalId, role, named, fine, possible⟩ := not_not.mp stuck
    by_cases held : Held world scopeId principalId role
    · exact .inl ⟨principalId, role, named, fine, held⟩
    · exact .inr (.inr ⟨principalId, role, named, fine, held, possible.resolve_left held⟩)

theorem addEach_keeps (rest : List Member) (place : Nat) (world : World) (held : Held world scopeId principalId role) :
    Held ((addEach lifecycle env scopeId grantedBy place rest).on world).2 scopeId principalId role := by
  induction rest generalizing place world with
  | nil => exact held
  | cons member rest ih =>
    rcases entry_cases env world scopeId place member with idle | stuck | writes
    · obtain ⟨other, role', named, fine, found⟩ := idle
      obtain ⟨mem, ran⟩ := addEach_found lifecycle grantedBy named fine found rest
      rw [ran]
      exact ih (place + 1) world held
    · obtain ⟨error, raised⟩ := addEach_stuck lifecycle grantedBy stuck rest
      rw [raised]
      exact held
    · obtain ⟨other, role', named, fine, missing, writable⟩ := writes
      obtain ⟨after, grants, ⟨-, error, raised⟩ | ⟨-, mem, ran⟩⟩ :=
        addEach_writes lifecycle grantedBy named fine missing writable rest
      · rw [raised]
        exact grants.keeps held
      · rw [ran]
        exact ih (place + 1) after (grants.keeps held)

theorem drop_cons (there : members.drop place = member :: rest) :
    members[place]? = some member ∧ members.drop (place + 1) = rest := by
  constructor
  · rw [← List.head?_drop, there]
    rfl
  · rw [← List.tail_drop, there]
    rfl

variable (env world scopeId members) in
/-- The entries from a place on go through, one after the other, or one of them does not. -/
def Runs (place : Nat) (middle : World) (rest : List Member) : Prop :=
  (∃ mems after, (addEach lifecycle env scopeId grantedBy place rest).on middle = (.ok mems, after) ∧
    Grown world scopeId members (place + rest.length) after ∧
    ∀ later member, place ≤ later → members[later]? = some member → Passes lifecycle env world scopeId members later member) ∨
  ∃ error after, (addEach lifecycle env scopeId grantedBy place rest).on middle = (.error error, after) ∧
    ∃ later member, members[later]? = some member ∧ ¬ Passes lifecycle env world scopeId members later member

theorem addEach_run (rest : List Member) (place : Nat) (middle : World) (there : members.drop place = rest)
    (grown : Grown world scopeId members place middle) : Runs lifecycle env world scopeId grantedBy members place middle rest := by
  induction rest generalizing place middle with
  | nil =>
    refine .inl ⟨[], middle, rfl, grown, fun later member late present => ?_⟩
    have short := List.drop_eq_nil_iff.mp there
    rw [List.getElem?_eq_none (short.trans late)] at present
    cases present
  | cons member rest ih =>
    obtain ⟨here, there⟩ := drop_cons there
    have goOn : ∀ after mem, Grown world scopeId members (place + 1) after →
        Passes lifecycle env world scopeId members place member →
        (addEach lifecycle env scopeId grantedBy place (member :: rest)).on middle =
          (((addEach lifecycle env scopeId grantedBy (place + 1) rest).on after).1.map (mem :: ·),
            ((addEach lifecycle env scopeId grantedBy (place + 1) rest).on after).2) →
        Runs lifecycle env world scopeId grantedBy members place middle (member :: rest) := by
      intro after mem grown passes ran
      rcases ih (place + 1) after there grown with ⟨mems, final, done, ended, all⟩ | ⟨error, final, raised, failing⟩
      · refine .inl ⟨mem :: mems, final, ?_, ?_, fun later other late present => ?_⟩
        · rw [ran, done]
          rfl
        · rw [List.length_cons, Nat.add_comm rest.length, ← Nat.add_assoc]
          exact ended
        · rcases Nat.eq_or_lt_of_le late with rfl | late
          · cases here.symm.trans present
            exact passes
          · exact all later other late present
      · refine .inr ⟨error, final, ?_, failing⟩
        rw [ran, raised]
        rfl
    rcases entry_cases env middle scopeId place member with idle | stuck | writes
    · obtain ⟨principalId, role, named, fine, held⟩ := idle
      obtain ⟨mem, ran⟩ := addEach_found lifecycle grantedBy named fine held rest
      exact goOn middle mem (grown.found here named held) (grown.passes_iff.mpr ⟨principalId, role, named, fine, .inl held⟩) ran
    · obtain ⟨error, raised⟩ := addEach_stuck lifecycle grantedBy stuck rest
      refine .inr ⟨error, middle, raised, place, member, here, fun passes => ?_⟩
      obtain ⟨principalId, role, named, fine, possible⟩ := grown.passes_iff.mp passes
      exact stuck ⟨principalId, role, named, fine, possible.imp_right And.left⟩
    · obtain ⟨principalId, role, named, fine, missing, writable⟩ := writes
      obtain ⟨after, grants, ⟨untold, error, raised⟩ | ⟨told, mem, ran⟩⟩ :=
        addEach_writes lifecycle grantedBy named fine missing writable rest
      · refine .inr ⟨error, after, raised, place, member, here, fun passes => ?_⟩
        obtain ⟨other, role', named', -, held | ⟨-, recorded⟩⟩ := grown.passes_iff.mp passes
        · obtain ⟨rfl, rfl⟩ := named.unique named'
          exact missing held
        · exact untold recorded
      · exact goOn after mem (grown.granted here named missing grants)
          (grown.passes_iff.mpr ⟨principalId, role, named, fine, .inr ⟨writable, told⟩⟩) ran

/-- Some grant is there that was not. -/
def Changed (world after : World) (scopeId : String) : Prop :=
  ∃ principalId role, ¬ Held world scopeId principalId role ∧ Held after scopeId principalId role

theorem Changed.unlike (changed : Changed world after scopeId) : after.memberships ≠ world.memberships := by
  intro same
  obtain ⟨principalId, role, missing, held⟩ := changed
  exact missing (held.congr (by rw [same]))

/-- While every entry has found its grant, nothing has changed. Then one is
stopped before it writes, or writes, or there is none left. -/
theorem addEach_idle (rest : List Member) (place : Nat) (there : members.drop place = rest)
    (before : ∀ earlier other, earlier < place → members[earlier]? = some other → Idle env world scopeId earlier other) :
    (StopsIdle env world scopeId members ∧
      ∃ error, (addEach lifecycle env scopeId grantedBy place rest).on world = (.error error, world)) ∨
    (¬ StopsIdle env world scopeId members ∧
      (Changed world ((addEach lifecycle env scopeId grantedBy place rest).on world).2 scopeId ∨
        ∃ mems, (addEach lifecycle env scopeId grantedBy place rest).on world = (.ok mems, world))) := by
  have idle_free : ∀ earlier other, members[earlier]? = some other → Idle env world scopeId earlier other →
      ¬ Stuck env world scopeId earlier other := by
    rintro earlier other - ⟨principalId, role, named, fine, held⟩ stuck
    exact stuck ⟨principalId, role, named, fine, .inl held⟩
  induction rest generalizing place with
  | nil =>
    refine .inr ⟨?_, .inr ⟨[], rfl⟩⟩
    rintro ⟨last, member, present, stuck, -⟩
    have sooner : last < place := by
      by_contra late
      rw [List.getElem?_eq_none ((List.drop_eq_nil_iff.mp there).trans (Nat.not_lt.mp late))] at present
      cases present
    exact idle_free last member present (before last member sooner present) stuck
  | cons member rest ih =>
    obtain ⟨here, there⟩ := drop_cons there
    rcases entry_cases env world scopeId place member with idle | stuck | writes
    · have next := ih (place + 1) there fun earlier other sooner present => by
        rcases Nat.lt_succ_iff_lt_or_eq.mp sooner with sooner | rfl
        · exact before earlier other sooner present
        · cases here.symm.trans present
          exact idle
      obtain ⟨principalId, role, named, fine, held⟩ := idle
      obtain ⟨mem, ran⟩ := addEach_found lifecycle grantedBy named fine held rest
      rw [ran]
      rcases next with ⟨stops, error, raised⟩ | ⟨free, changed | ⟨mems, done⟩⟩
      · exact .inl ⟨stops, error, by rw [raised]; rfl⟩
      · exact .inr ⟨free, .inl changed⟩
      · exact .inr ⟨free, .inr ⟨mem :: mems, by rw [done]; rfl⟩⟩
    · exact .inl ⟨⟨place, member, here, stuck, before⟩, addEach_stuck lifecycle grantedBy stuck rest⟩
    · obtain ⟨principalId, role, named, fine, missing, writable⟩ := writes
      refine .inr ⟨?_, .inl ⟨principalId, role, missing, ?_⟩⟩
      · rintro ⟨last, other, present, stuck, all⟩
        rcases Nat.lt_trichotomy last place with sooner | rfl | later
        · exact idle_free last other present (before last other sooner present) stuck
        · cases here.symm.trans present
          exact stuck ⟨principalId, role, named, fine, .inr writable⟩
        · obtain ⟨other, role', named', -, held⟩ := all place member later here
          obtain ⟨rfl, rfl⟩ := named.unique named'
          exact missing held
      · obtain ⟨after, grants, ⟨-, error, raised⟩ | ⟨-, mem, ran⟩⟩ :=
          addEach_writes lifecycle grantedBy named fine missing writable rest
        · rw [raised]
          exact grants.held
        · rw [ran]
          exact addEach_keeps lifecycle grantedBy rest (place + 1) after grants.held

end Run

theorem getScopeOrRaise_reads : (getScopeOrRaise env scopeId).Reads := by
  refine .bind (.ask _ _) fun row => ?_
  split
  · exact .pure _
  · exact .throw _

theorem requireMutable_reads (scope : Scope) : (requireMutable scope).Reads := by
  unfold requireMutable
  split
  · exact .throw _
  · exact .guard _ _ _

theorem requireMutable_passes {scope : Scope} : (requireMutable scope).Passes world () ↔
    scope.isFrozen = false ∧ scope.isArchived = false := by
  unfold requireMutable
  split
  next frozen =>
    refine ⟨fun passed => absurd passed Stateful.Passes.not_throw, fun free => ?_⟩
    rw [free.1] at frozen
    cases frozen
  next free => simp [Stateful.Passes.guard_iff, free]

theorem checks_pass {scope : Scope} : ((getScopeOrRaise env scopeId).Passes world scope ∧ (requireMutable scope).Passes world ()) ↔
    env.fault .getScope = none ∧ world.scopes.find scopeId = some scope ∧ scope.isFrozen = false ∧ scope.isArchived = false := by
  rw [requireMutable_passes, ← and_assoc (a := env.fault .getScope = none)]
  exact and_congr_left' (Stateful.Passes.found_iff (fun _ => rfl) rfl)

variable (lifecycle grantedBy) in
theorem addMembers_on (opened : Open env world scopeId) (members : List Member) :
    (addMembers lifecycle env scopeId members grantedBy).on world =
      (addEach lifecycle env scopeId grantedBy 0 members).on world := by
  obtain ⟨fine, scope, found, frozen, archived⟩ := opened
  obtain ⟨read, mutable⟩ := checks_pass.mpr ⟨fine, found, frozen, archived⟩
  unfold addMembers
  rw [Stateful.on_bind, read.on_eq getScopeOrRaise_reads]
  dsimp only
  rw [Stateful.on_bind, mutable.on_eq (requireMutable_reads scope)]

variable (lifecycle grantedBy) in
theorem addMembers_refuses (closed : ¬ Open env world scopeId) (members : List Member) :
    ∃ error, (addMembers lifecycle env scopeId members grantedBy).on world = (.error error, world) := by
  unfold addMembers
  by_cases read : ∃ scope, (getScopeOrRaise env scopeId).Passes world scope
  · obtain ⟨scope, read⟩ := read
    have stuck : ¬ ∃ done, (requireMutable scope).Passes world done := fun ⟨_, passed⟩ => by
      obtain ⟨fine, found, free⟩ := checks_pass.mp ⟨read, passed⟩
      exact closed ⟨fine, scope, found, free⟩
    obtain ⟨error, raised⟩ := (requireMutable_reads scope).raises stuck
    refine ⟨error, ?_⟩
    rw [Stateful.on_bind, read.on_eq getScopeOrRaise_reads]
    dsimp only
    rw [Stateful.on_bind, raised]
  · obtain ⟨error, raised⟩ := getScopeOrRaise_reads.raises read
    refine ⟨error, ?_⟩
    rw [Stateful.on_bind, raised]

theorem Grown.holds {members : List Member} {member : Member} {principalId : String} {role : ScopeRole}
    (grown : Grown world scopeId members members.length after) (listed : member ∈ members) (named : Named member principalId role) :
    ∃ row, after.memberships.find (scopeId, principalId, role) = some row ∧
      (world.memberships.find (scopeId, principalId, role) = some row ∧ row.lifecycle = .active ∨
        ¬ Held world scopeId principalId role ∧ row.lifecycle = .active ∧ row.expiresAt = none) := by
  obtain ⟨place, present⟩ := List.mem_iff_getElem?.mp listed
  obtain ⟨short, -⟩ := List.getElem?_eq_some_iff.mp present
  obtain ⟨row, found, active⟩ := grown.named principalId role ⟨place, member, short, present, named⟩
  refine ⟨row, found, ?_⟩
  rcases grown.rows principalId role with same | ⟨missing, other, there, -, lasting⟩
  · exact .inl ⟨same.symm.trans found, active⟩
  · cases found.symm.trans there
    exact .inr ⟨missing, active, lasting⟩

/-- Adding members is atomic exactly where the call is refused, where the first
entry that does not find its grant is stopped before it writes, or where every
entry goes through and no grant in place has expired. -/
theorem atomic_iff (members : List Member) (moment : Aware) : Atomic lifecycle env world scopeId grantedBy members moment ↔
    ¬ Open env world scopeId ∨ StopsIdle env world scopeId members ∨
      GoesThrough lifecycle env world scopeId members ∧ Unlapsed world scopeId members moment := by
  by_cases opened : Open env world scopeId
  · have ran := addMembers_on lifecycle grantedBy opened members
    have idle := @addEach_idle lifecycle env world scopeId grantedBy members members 0 rfl
      fun earlier _ before => absurd before (Nat.not_lt_zero earlier)
    constructor
    · rintro ⟨whole, granted⟩
      rw [ran] at whole granted
      right
      rcases addEach_run lifecycle grantedBy members 0 world rfl (.start world scopeId members) with
        ⟨mems, after, done, grown, all⟩ | ⟨error, after, raised, failing⟩
      · refine .inr ⟨fun place member present => all place member (Nat.zero_le _) present, ?_⟩
        intro member listed principalId role named row found active
        obtain ⟨other, role', named', there, present, holds⟩ := granted mems after done member listed
        obtain ⟨rfl, rfl⟩ := named.unique named'
        rw [Nat.zero_add] at grown
        rcases grown.rows other role' with same | ⟨missing, -⟩
        · cases found.symm.trans (same.symm.trans present)
          exact holds
        · exact absurd ⟨row, found, active⟩ missing
      · have same := whole error after raised
        rcases idle with ⟨stops, -⟩ | ⟨-, changed | ⟨mems, done⟩⟩
        · exact .inl stops
        · rw [raised] at changed
          exact absurd same changed.unlike
        · rw [raised] at done
          cases done
    · rintro (closed | stops | ⟨goes, unlapsed⟩)
      · exact absurd opened closed
      · rcases idle with ⟨-, error, raised⟩ | ⟨free, -⟩
        · constructor
          · intro _ after failed
            rw [ran, raised] at failed
            cases failed
            rfl
          · intro mems after done
            rw [ran, raised] at done
            cases done
        · exact absurd stops free
      · rcases addEach_run lifecycle grantedBy members 0 world rfl (.start world scopeId members) with
          ⟨mems, after, done, grown, -⟩ | ⟨error, after, raised, place, member, present, failing⟩
        · constructor
          · intro error after raised
            rw [ran, done] at raised
            cases raised
          · intro _ final returned member listed
            rw [ran, done] at returned
            cases returned
            obtain ⟨place, present⟩ := List.mem_iff_getElem?.mp listed
            obtain ⟨principalId, role, named, -⟩ := goes place member present
            rw [Nat.zero_add] at grown
            obtain ⟨row, found, ⟨before, active⟩ | ⟨-, active, lasting⟩⟩ := grown.holds listed named
            · exact ⟨principalId, role, named, row, found, unlapsed member listed principalId role named row before active⟩
            · exact ⟨principalId, role, named, row, found, by simp [Membership.holds, Membership.isActive, active, lasting]⟩
        · exact absurd (goes place member present) failing
  · obtain ⟨error, raised⟩ := addMembers_refuses lifecycle grantedBy opened members
    refine ⟨fun _ => .inl opened, fun _ => ⟨?_, ?_⟩⟩
    · intro _ after failed
      rw [raised] at failed
      cases failed
      rfl
    · intro mems after done
      rw [raised] at done
      cases done

section Sample

/-- Every statement succeeds. -/
private def calm : Env where
  fault _ := none
  now _ := .of 63902952000000000 (by decide)
  ids _ := .repeated 1

/-- A scope with the given memberships; Bob is the only other principal. -/
private def team (memberships : List Membership) (unique : (memberships.map Membership.address).Nodup) : World where
  scopes := ⟨[⟨"team", "team", "alice", none, .active⟩], by decide⟩
  principals := ["alice", "bob"]
  memberships := ⟨memberships, unique⟩
  records := []

/-- Bob was a viewer for an hour. -/
private def bobViewed : Membership :=
  ⟨"m", "team", "bob", .viewer, (Moment.of 63902952000000000 (by decide)).toAware, "alice",
    some (Moment.of 63902955600000000 (by decide)).toAware, .active⟩

/-- A member with a misspelt role comes second, and the first has been granted
already; a grant that has expired is returned as it is. -/
theorem added_in_part :
    ¬ Atomic ⟨false⟩ calm (team [] (by decide)) "team" "alice" [⟨"bob", "editor"⟩, ⟨"bob", "edtior"⟩]
      (Moment.of 63902952000000000 (by decide)).toAware ∧
    ¬ Atomic ⟨false⟩ calm (team [bobViewed] (by decide)) "team" "alice" [⟨"bob", "viewer"⟩]
      (Moment.of 63902959200000000 (by decide)).toAware := by
  refine ⟨fun atomic => ?_, fun atomic => ?_⟩
  · have same := atomic.whole _ _ rfl
    have lengths := congrArg (fun rows : Rows Membership.address => rows.list.length) same
    exact absurd lengths (by decide)
  · obtain ⟨principalId, role, named, row, found, holds⟩ := atomic.granted _ _ rfl _ (List.mem_singleton_self _)
    have viewer : Named ⟨"bob", "viewer"⟩ "bob" .viewer := ⟨by decide, rfl⟩
    obtain ⟨rfl, rfl⟩ := viewer.unique named
    cases found
    exact absurd holds (by decide)

end Sample

end PyScoped.Legacy.MemberBatches
