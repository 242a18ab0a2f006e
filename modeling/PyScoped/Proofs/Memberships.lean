import PyScoped.Foundation.TimeOrder
import PyScoped.Foundation.Tombstones
import PyScoped.Legacy.Memberships

/-! Membership lasts as long as it was granted, in every run whose expiries are
written so that their texts sort like instants and whose grants never meet an
active row that ends earlier. -/

namespace PyScoped.Legacy.Memberships
open Foundation

/-- The expiry, if there is one, is still to come. -/
def Before (now : Moment) (expiresAt : Option Aware) : Prop := ∀ expires ∈ expiresAt, now.instant < expires.instant

/-- The same by the texts, as the database sees it. -/
def ReadsBefore (now : Moment) (expiresAt : Option Aware) : Prop :=
  ∀ expires ∈ expiresAt, now.toAware.isoformat < expires.isoformat

/-- From some instant on the texts say what the instants do. -/
def Faithful (ts : Moment) (expiresAt : Option Aware) : Prop :=
  ∀ now, ts ≤ now → (ReadsBefore now expiresAt ↔ Before now expiresAt)

/-- From some instant on the one expiry does not come before the other. -/
def Covers (ts : Moment) (standing granted : Option Aware) : Prop :=
  ∀ now, ts ≤ now → Before now granted → Before now standing

/-- Who is to have which role, and when. -/
abbrev Ledger := String → ScopeRole → Moment → Prop

def Ledger.grant (ledger : Ledger) (principalId : String) (role : ScopeRole) (expiresAt : Option Aware) : Ledger :=
  fun other role' now => ledger other role' now ∨ (other = principalId ∧ role' = role ∧ Before now expiresAt)

def Ledger.revoke (ledger : Ledger) (principalId : String) (role : Option ScopeRole) : Ledger :=
  fun other role' now => ledger other role' now ∧ ¬(other = principalId ∧ ∀ wanted ∈ role, role' = wanted)

/-- The grants of an `add_members` call, which ends at a role that is none. -/
def grantees : List (String × Option String) → List (String × ScopeRole)
  | [] => []
  | (principalId, role) :: members =>
    match ScopeRole.ofValue (role.getD "viewer") with
    | none => []
    | some role => (principalId, role) :: grantees members

/-- A call on the scope. -/
inductive Call where
  | addMember (principalId : String) (role : ScopeRole) (grantedBy : String) (expiresAt : Option Aware)
  | addMembers (members : List (String × Option String)) (grantedBy : String)
  | revokeMember (principalId revokedBy : String) (role : Option ScopeRole)
  | isMember (principalId : String)

namespace Call

def program (env : Env) (audit : Bool) (scopeId : String) : Call → Program Unit
  | .addMember principalId role grantedBy expiresAt =>
    (fun _ => ()) <$> Memberships.addMember env audit scopeId principalId role grantedBy expiresAt
  | .addMembers members grantedBy => (fun _ => ()) <$> Memberships.addMembers env audit scopeId members grantedBy
  | .revokeMember principalId revokedBy role =>
    (fun _ => ()) <$> Memberships.revokeMember audit scopeId principalId revokedBy role
  | .isMember principalId => (fun _ => ()) <$> Memberships.isMember env scopeId principalId

def credit (ledger : Ledger) : Call → Ledger
  | .addMember principalId role _ expiresAt => ledger.grant principalId role expiresAt
  | .addMembers members _ => (grantees members).foldl (fun ledger (principalId, role) => ledger.grant principalId role none) ledger
  | .revokeMember principalId _ role => ledger.revoke principalId role
  | .isMember _ => ledger

end Call

/-- No active row of the grant ends before the grant does. -/
def World.Admits (world : World) (scopeId : String) (ts : Moment) (principalId : String) (role : ScopeRole)
    (expiresAt : Option Aware) : Prop :=
  ∀ row ∈ world.memberships, row.address = (scopeId, principalId, role) → row.lifecycle = .active →
    Covers ts row.expiresAt expiresAt

/-- What is asked of a call, in the state it meets. -/
def Call.Good (env : Env) (scopeId : String) (world : World) : Call → Prop
  | .addMember principalId role _ expiresAt =>
    Faithful (env.now world.reads) expiresAt ∧
      world.Admits scopeId (env.now world.reads) principalId role expiresAt
  | .addMembers members _ => ∀ grantee ∈ grantees members,
      world.Admits scopeId (env.now world.reads) grantee.1 grantee.2 none
  | _ => True

def run (env : Env) (audit : Bool) (scopeId : String) (calls : List Call) (world : World) : World :=
  calls.foldl (fun world call => ((call.program env audit scopeId).on world).2) world

def Good (env : Env) (audit : Bool) (scopeId : String) : World → List Call → Prop
  | _, [] => True
  | world, call :: calls =>
    call.Good env scopeId world ∧ Good env audit scopeId ((call.program env audit scopeId).on world).2 calls

def World.Active (world : World) (scopeId : String) : Prop :=
  ∃ scope, world.scopes.find? (·.id = scopeId) = some scope ∧ scope.isActive = true

/-- The moment does not lie before a reading of the clock. -/
def Env.Past (env : Env) (world : World) (now : Moment) : Prop := ∀ n < world.reads, env.now n ≤ now

/-- The rows of the scope give what the ledger says, by instants and by texts. -/
structure Reflects (env : Env) (scopeId : String) (world : World) (ledger : Ledger) : Prop where
  granted : ∀ principalId role now, env.Past world now → (ledger principalId role now ↔
    ∃ row ∈ world.memberships, row.address = (scopeId, principalId, role) ∧ row.lifecycle = .active ∧
      Before now row.expiresAt)
  faithful : ∀ row ∈ world.memberships, row.scopeId = scopeId → row.lifecycle = .active →
    ∀ now, env.Past world now → (ReadsBefore now row.expiresAt ↔ Before now row.expiresAt)

theorem Before.earlier {now later : Moment} {expiresAt : Option Aware} (before : Before later expiresAt)
    (order : now ≤ later) : Before now expiresAt :=
  fun expires member => lt_of_le_of_lt order (before expires member)

theorem Covers.later {ts ts' : Moment} {standing granted : Option Aware} (covers : Covers ts standing granted)
    (order : ts ≤ ts') : Covers ts' standing granted :=
  fun now after => covers now (Int.le_trans order after)

theorem holds_iff (row : Membership) (now : Moment) :
    row.holds now.toAware = true ↔ row.lifecycle = .active ∧ ReadsBefore now row.expiresAt := by
  rw [Membership.holds, Membership.isActive, Bool.and_eq_true, decide_eq_true_eq, ReadsBefore]
  refine and_congr_right fun _ => ?_
  cases row.expiresAt with
  | none => exact iff_of_true rfl fun _ member => absurd member (Option.not_mem_none _)
  | some expires =>
    rw [Option.all_some, decide_eq_true_eq]
    constructor
    · rintro before other ⟨⟩
      exact before
    · exact fun each => each expires rfl

theorem lapsed_iff (row : Membership) (now : Moment) :
    row.lapsed now.toAware = true ↔ row.lifecycle = .active ∧ ¬ReadsBefore now row.expiresAt := by
  rw [Membership.lapsed, Membership.isActive, Bool.and_eq_true, decide_eq_true_eq, ReadsBefore]
  refine and_congr_right fun _ => ?_
  cases row.expiresAt with
  | none => exact iff_of_false Bool.false_ne_true (not_not_intro fun _ member => absurd member (Option.not_mem_none _))
  | some expires =>
    rw [Option.any_some, decide_eq_true_eq, ← String.not_lt, not_iff_not]
    constructor
    · rintro before other ⟨⟩
      exact before
    · exact fun each => each expires rfl

theorem faithful_utc (ts : Moment) {expires : Aware} (utc : expires.offset = .utc) : Faithful ts (some expires) := by
  intro now _
  have order := Aware.isoformat_lt_iff now.utc utc
  constructor
  · rintro before other ⟨⟩
    exact order.mp (before expires rfl)
  · rintro before other ⟨⟩
    exact order.mpr (before expires rfl)

variable {env : Env} {audit : Bool} {scopeId principalId : String}

section Readings
variable {world after : World} {now : Moment}

theorem Env.Past.fewer (past : env.Past after now) (fewer : world.reads ≤ after.reads) : env.Past world now :=
  fun n less => past n (less.trans_le fewer)

theorem reading_le (ordered : ∀ n, env.now n ≤ env.now (n + 1)) {first second : Nat} (order : first ≤ second) :
    env.now first ≤ env.now second := by
  induction order with
  | refl => exact Int.le_refl _
  | step _ ih => exact Int.le_trans ih (ordered _)

theorem past_reading (ordered : ∀ n, env.now n ≤ env.now (n + 1)) {n : Nat} (late : world.reads ≤ n) :
    env.Past world (env.now n) := fun _ less => reading_le ordered (less.le.trans late)

end Readings

theorem recordIf_on (audit : Bool) (record : Record) (world : World) :
    ∃ records, (recordIf audit record).on world = (.ok (), { world with records := records }) := by
  cases audit with
  | true => exact ⟨_, rfl⟩
  | false => exact ⟨world.records, rfl⟩

theorem recordEach_on (audit : Bool) (revokedBy : String) (rows : List Membership) (world : World) :
    ∃ records, (recordEach audit revokedBy scopeId rows).on world = (.ok (), { world with records := records }) := by
  induction rows generalizing world with
  | nil => exact ⟨world.records, rfl⟩
  | cons row rows ih =>
    obtain ⟨records, ran⟩ := recordIf_on audit ⟨revokedBy, .revoke, scopeId, some row, none⟩ world
    rw [recordEach, Stateful.on_bind, ran]
    exact ih _

theorem Reflects.congr {world after : World} {ledger : Ledger} (reflects : Reflects env scopeId world ledger)
    (rows : after.memberships = world.memberships) (reads : world.reads ≤ after.reads) :
    Reflects env scopeId after ledger where
  granted principalId role now past := by
    rw [rows]
    exact reflects.granted principalId role now (past.fewer reads)
  faithful row member inScope active now past := by
    rw [rows] at member
    exact reflects.faithful row member inScope active now (past.fewer reads)

section Grants

variable {world after : World} {ledger : Ledger} {role : ScopeRole} {expiresAt : Option Aware}

theorem Reflects.grant (reflects : Reflects env scopeId world ledger)
    (idle : ∀ row ∈ world.memberships, row.address = (scopeId, principalId, role) → row.lifecycle ≠ .active)
    {made : Membership} (address : made.address = (scopeId, principalId, role)) (active : made.lifecycle = .active)
    (expiry : made.expiresAt = expiresAt) (rows : ∀ row, row ∈ after.memberships ↔
      (row ∈ world.memberships ∧ row.address ≠ (scopeId, principalId, role)) ∨ row = made)
    (reads : after.reads = world.reads + 1) (faithful : Faithful (env.now world.reads) expiresAt) :
    Reflects env scopeId after (ledger.grant principalId role expiresAt) where
  granted other role' now past := by
    have before := reflects.granted other role' now (past.fewer (by omega))
    rw [Ledger.grant, before]
    constructor
    · rintro (⟨row, member, same, live, ahead⟩ | ⟨rfl, rfl, ahead⟩)
      · refine ⟨row, (rows row).mpr (.inl ⟨member, fun hit => ?_⟩), same, live, ahead⟩
        exact idle row member hit live
      · exact ⟨made, (rows made).mpr (.inr rfl), address, active, by rwa [expiry]⟩
    · rintro ⟨row, member, same, live, ahead⟩
      obtain ⟨member, _⟩ | rfl := (rows row).mp member
      · exact .inl ⟨row, member, same, live, ahead⟩
      · rw [address, Prod.mk.injEq, Prod.mk.injEq] at same
        exact .inr ⟨same.2.1.symm, same.2.2.symm, by rwa [expiry] at ahead⟩
  faithful row member inScope live now past := by
    obtain ⟨member, _⟩ | rfl := (rows row).mp member
    · exact reflects.faithful row member inScope live now (past.fewer (by omega))
    · rw [expiry]
      exact faithful now (past world.reads (by omega))

theorem Reflects.standing (reflects : Reflects env scopeId world ledger) {row : Membership}
    (member : row ∈ world.memberships) (address : row.address = (scopeId, principalId, role))
    (active : row.lifecycle = .active) (covers : Covers (env.now world.reads) row.expiresAt expiresAt)
    (rows : after.memberships = world.memberships) (reads : after.reads = world.reads + 1) :
    Reflects env scopeId after (ledger.grant principalId role expiresAt) where
  granted other role' now past := by
    have before := (reflects.congr rows (by omega)).granted other role' now past
    rw [Ledger.grant, before]
    refine or_iff_left_of_imp ?_
    rintro ⟨rfl, rfl, ahead⟩
    exact ⟨row, by rwa [rows], address, active, covers now (past world.reads (by omega)) ahead⟩
  faithful := (reflects.congr rows (by omega)).faithful

private theorem mem_changed {existing : Membership} (member : existing ∈ world.memberships) (assignment : Assignment)
    (row : Membership) :
    row ∈ world.memberships.map (fun row => if decide (row.address = existing.address) then assignment.change row else row) ↔
      (row ∈ world.memberships ∧ row.address ≠ existing.address) ∨ row = assignment.change existing := by
  rw [List.mem_map]
  constructor
  · rintro ⟨old, oldIn, rfl⟩
    by_cases same : old.address = existing.address
    · rw [if_pos (decide_eq_true same), List.inj_on_of_nodup_map world.unique oldIn member same]
      exact .inr rfl
    · rw [if_neg (by simpa using same)]
      exact .inl ⟨oldIn, same⟩
  · rintro (⟨rowIn, other⟩ | rfl)
    · exact ⟨row, rowIn, if_neg (by simpa using other)⟩
    · exact ⟨existing, member, if_pos (decide_eq_true rfl)⟩

/-- A grant is entered whatever it finds, and touches no other active row. -/
theorem addMembership_reflects (audit : Bool) (grantedBy : String) (reflects : Reflects env scopeId world ledger)
    (faithful : Faithful (env.now world.reads) expiresAt)
    (admits : world.Admits scopeId (env.now world.reads) principalId role expiresAt) :
    ∃ mem after, (addMembership env audit scopeId principalId role grantedBy expiresAt).on world = (.ok mem, after) ∧
      after.scopes = world.scopes ∧ after.reads = world.reads + 1 ∧
      Reflects env scopeId after (ledger.grant principalId role expiresAt) ∧
      ∀ row ∈ after.memberships, row ∈ world.memberships ∨ row.expiresAt = expiresAt := by
  simp only [addMembership, Stateful.on_bind, nowUtc, Stateful.on_get, Stateful.on_set, Stateful.on_pure]
  cases found : world.memberships.find? (·.address = (scopeId, principalId, role)) with
  | some existing =>
    obtain ⟨member, address⟩ := (Tombstones.find_key world.unique _ existing).mp found
    by_cases active : existing.lifecycle = .active
    · simp only [active, if_true, Stateful.on_pure]
      exact ⟨_, _, rfl, rfl, rfl, reflects.standing member address active (admits existing member address active) rfl rfl,
        fun row member => .inl member⟩
    · simp only [active, if_false, Stateful.on_bind, updateRows, Stateful.on_modify, Stateful.on_pure]
      obtain ⟨records, recorded⟩ := recordIf_on audit _ _
      rw [recorded]
      have changed := mem_changed member (reactivate (env.now world.reads) grantedBy expiresAt)
      rw [address] at changed
      have moved : ((reactivate (env.now world.reads) grantedBy expiresAt).change existing).address =
          (scopeId, principalId, role) := address
      refine ⟨_, _, rfl, rfl, rfl, reflects.grant (fun row rowIn same => ?_) moved rfl rfl changed rfl faithful, ?_⟩
      · rwa [List.inj_on_of_nodup_map world.unique rowIn member (same.trans address.symm)]
      · intro row rowIn
        obtain ⟨rowIn, _⟩ | rfl := (changed row).mp rowIn
        · exact .inl rowIn
        · exact .inr rfl
  | none =>
    have absent : (scopeId, principalId, role) ∉ world.memberships.map Membership.address := by
      simpa using found
    simp only [Stateful.on_bind, generateId, Stateful.on_get, Stateful.on_set, Stateful.on_pure, insertRow]
    rw [dif_pos (by exact absent)]
    simp only [Stateful.on_set]
    obtain ⟨records, recorded⟩ := recordIf_on audit _ _
    rw [recorded]
    have added : ∀ row made : Membership, row ∈ world.memberships ++ [made] ↔
        (row ∈ world.memberships ∧ row.address ≠ (scopeId, principalId, role)) ∨ row = made := by
      intro row made
      rw [List.mem_append, List.mem_singleton]
      refine or_congr_left (iff_self_and.mpr fun member same => ?_)
      exact absent (same ▸ List.mem_map_of_mem member)
    refine ⟨_, _, rfl, rfl, rfl, reflects.grant (fun row rowIn same => ?_) rfl rfl rfl (added · _) rfl faithful, ?_⟩
    · exact absurd (List.mem_map_of_mem rowIn) (same ▸ absent)
    · intro row rowIn
      exact (List.mem_append.mp rowIn).imp_right fun made => by rw [List.mem_singleton.mp made]

end Grants

section Calls

variable {world : World} {ledger : Ledger}

/-- What every call of a run leaves behind. -/
structure Keeps (env : Env) (scopeId : String) (world after : World) (ledger : Ledger) : Prop where
  scopes : after.scopes = world.scopes
  reads : world.reads ≤ after.reads
  reflects : Reflects env scopeId after ledger

private theorem guards (active : world.Active scopeId) : ∃ scope,
    (getScopeOrRaise scopeId).on world = (.ok scope, world) ∧ requireMutable scope = pure () := by
  obtain ⟨scope, found, active⟩ := active
  have active : scope.lifecycle = .active := of_decide_eq_true active
  refine ⟨scope, ?_, ?_⟩
  · simp only [getScopeOrRaise, Stateful.on_bind, Stateful.on_get, found, Stateful.on_pure]
  · simp [requireMutable, Scope.isFrozen, Scope.isArchived, active]

theorem addMember_keeps {role : ScopeRole} {expiresAt : Option Aware} (grantedBy : String) (active : world.Active scopeId)
    (reflects : Reflects env scopeId world ledger) (faithful : Faithful (env.now world.reads) expiresAt)
    (admits : world.Admits scopeId (env.now world.reads) principalId role expiresAt) :
    Keeps env scopeId world ((addMember env audit scopeId principalId role grantedBy expiresAt).on world).2
      (ledger.grant principalId role expiresAt) := by
  obtain ⟨scope, fetched, unfrozen⟩ := guards active
  obtain ⟨mem, after, ran, scopes, reads, reflects, -⟩ :=
    addMembership_reflects audit grantedBy reflects faithful admits
  simp only [addMember, Stateful.on_bind, fetched, unfrozen, Stateful.on_pure, ran]
  exact ⟨scopes, by omega, reflects⟩

theorem addEach_keeps (grantedBy : String)
    (members : List (String × Option String)) {ts : Moment} (reflects : Reflects env scopeId world ledger)
    (later : ∀ n, world.reads ≤ n → ts ≤ env.now n)
    (admits : ∀ grantee ∈ grantees members, world.Admits scopeId ts grantee.1 grantee.2 none) :
    Keeps env scopeId world ((addEach env audit scopeId grantedBy members).on world).2
      ((Call.addMembers members grantedBy).credit ledger) := by
  induction members generalizing world ledger with
  | nil => exact ⟨rfl, le_rfl, reflects⟩
  | cons member members ih =>
    obtain ⟨principalId, given⟩ := member
    rw [addEach, Call.credit]
    cases valid : ScopeRole.ofValue (given.getD "viewer") with
    | none =>
      have none : grantees ((principalId, given) :: members) = [] := by rw [grantees, valid]
      rw [none]
      exact ⟨rfl, le_rfl, reflects⟩
    | some role =>
      have first : grantees ((principalId, given) :: members) = (principalId, role) :: grantees members := by
        rw [grantees, valid]
      rw [first] at admits ⊢
      have admitted := admits (principalId, role) List.mem_cons_self
      have faithful : Faithful (env.now world.reads) none := fun _ _ =>
        iff_of_true (fun _ member => absurd member (Option.not_mem_none _)) fun _ member => absurd member (Option.not_mem_none _)
      obtain ⟨mem, after, ran, scopes, reads, reflects, untouched⟩ := addMembership_reflects audit grantedBy
        reflects faithful fun row member same live => (admitted row member same live).later (later _ le_rfl)
      have rest := ih reflects (fun n late => later n (by omega)) fun grantee member row rowIn same live => by
        obtain old | lasting := untouched row rowIn
        · exact admits grantee (List.mem_cons_of_mem _ member) row old same live
        · rw [lasting]
          exact fun _ _ before => before
      rw [Stateful.on_bind, ran]
      dsimp only
      rw [Stateful.on_bind_pure]
      exact ⟨rest.scopes.trans scopes, (by omega : world.reads ≤ after.reads).trans rest.reads, rest.reflects⟩

theorem Reflects.archive {after : World} {credited : Ledger} (reflects : Reflects env scopeId world ledger)
    {chosen : Membership → Prop} (rows : ∀ row, (row ∈ after.memberships ∧ row.lifecycle = .active) ↔
      (row ∈ world.memberships ∧ row.lifecycle = .active) ∧ ¬chosen row)
    (reads : world.reads ≤ after.reads)
    (credit : ∀ row ∈ world.memberships, row.scopeId = scopeId → row.lifecycle = .active → ∀ now, env.Past after now →
      Before now row.expiresAt → (credited row.principalId row.role now ↔ ¬chosen row))
    (fewer : ∀ principalId role now, credited principalId role now → ledger principalId role now) :
    Reflects env scopeId after credited where
  granted principalId role now past := by
    have before := reflects.granted principalId role now (past.fewer reads)
    constructor
    · intro holds
      obtain ⟨row, member, same, live, ahead⟩ := before.mp (fewer _ _ _ holds)
      obtain ⟨rfl, rfl, rfl⟩ : row.scopeId = scopeId ∧ row.principalId = principalId ∧ row.role = role := by
        simpa [Membership.address] using same
      obtain ⟨rowIn, _⟩ := (rows row).mpr ⟨⟨member, live⟩, (credit row member rfl live now past ahead).mp holds⟩
      exact ⟨row, rowIn, same, live, ahead⟩
    · rintro ⟨row, rowIn, same, live, ahead⟩
      obtain ⟨⟨member, _⟩, kept⟩ := (rows row).mp ⟨rowIn, live⟩
      obtain ⟨rfl, rfl, rfl⟩ : row.scopeId = scopeId ∧ row.principalId = principalId ∧ row.role = role := by
        simpa [Membership.address] using same
      exact (credit row member rfl live now past ahead).mpr kept
  faithful row rowIn inScope live now past :=
    reflects.faithful row ((rows row).mp ⟨rowIn, live⟩).1.1 inScope live now (past.fewer reads)

private theorem mem_archived (world : World) (chosen : Membership → Bool) (row : Membership) :
    (row ∈ world.memberships.map (fun row => if chosen row then archive.change row else row) ∧ row.lifecycle = .active) ↔
      (row ∈ world.memberships ∧ row.lifecycle = .active) ∧ ¬chosen row = true := by
  rw [List.mem_map]
  constructor
  · rintro ⟨⟨old, oldIn, rfl⟩, live⟩
    split at live
    · cases live
    next kept =>
      rw [if_neg kept]
      exact ⟨⟨oldIn, live⟩, kept⟩
  · rintro ⟨⟨member, live⟩, kept⟩
    exact ⟨⟨row, member, if_neg kept⟩, live⟩

theorem revokeMember_keeps (revokedBy : String) (role : Option ScopeRole) (active : world.Active scopeId)
    (reflects : Reflects env scopeId world ledger) :
    Keeps env scopeId world ((revokeMember audit scopeId principalId revokedBy role).on world).2
      (ledger.revoke principalId role) := by
  obtain ⟨scope, fetched, unfrozen⟩ := guards active
  simp only [revokeMember, Stateful.on_bind, fetched, unfrozen, Stateful.on_pure, Stateful.on_get]
  have credit : ∀ row ∈ world.memberships, row.scopeId = scopeId → row.lifecycle = .active → ∀ now, env.Past world now →
      Before now row.expiresAt →
        (ledger.revoke principalId role row.principalId row.role now ↔ ¬ofPrincipal scopeId principalId role row = true) := by
    intro row member inScope live now past ahead
    have held : ledger row.principalId row.role now :=
      (reflects.granted _ _ now past).mpr ⟨row, member, by rw [Membership.address, inScope], live, ahead⟩
    rw [Ledger.revoke, and_iff_right held]
    cases role <;> simp [ofPrincipal, inScope, Membership.isActive, live]
  have fewer : ∀ other role' now, ledger.revoke principalId role other role' now → ledger other role' now :=
    fun _ _ _ => And.left
  by_cases idle : (world.memberships.filter (ofPrincipal scopeId principalId role)).isEmpty = true
  · rw [if_pos idle, Stateful.on_pure]
    have none : ∀ row ∈ world.memberships, ¬ofPrincipal scopeId principalId role row = true := by
      simpa using idle
    exact ⟨rfl, le_rfl, reflects.archive (fun row => (and_iff_left_of_imp fun member => none row member.1).symm) le_rfl
      credit fewer⟩
  · rw [if_neg idle]
    simp only [Stateful.on_bind, updateRows, Stateful.on_modify]
    obtain ⟨records, recorded⟩ := recordEach_on audit revokedBy _ _
    rw [recorded]
    exact ⟨rfl, le_rfl, reflects.archive (mem_archived world _) le_rfl credit fewer⟩

theorem isMember_on (env : Env) (scopeId principalId : String) (world : World) :
    ∃ after, (isMember env scopeId principalId).on world =
      (.ok (world.memberships.any fun row => row.scopeId = scopeId && row.principalId = principalId &&
        row.holds (env.now world.reads).toAware), after) ∧
      after.scopes = world.scopes ∧ world.reads ≤ after.reads ∧
      (after.memberships = world.memberships ∨ ∃ n, world.reads ≤ n ∧ n < after.reads ∧ after.memberships =
        world.memberships.map fun row => if row.scopeId = scopeId && row.principalId = principalId &&
          row.lapsed (env.now n).toAware then archive.change row else row) := by
  simp only [isMember, Stateful.on_bind, nowUtc, Stateful.on_get, Stateful.on_set, Stateful.on_pure]
  split
  next member =>
    simp only [Stateful.on_pure, member]
    exact ⟨_, rfl, rfl, Nat.le_succ _, .inl rfl⟩
  next outside =>
    rw [Bool.not_eq_true] at outside
    simp only [Stateful.on_bind, Stateful.on_get, Stateful.on_set, Stateful.on_pure, outside]
    split
    · simp only [Stateful.on_bind, Stateful.on_get, Stateful.on_set, Stateful.on_pure, updateRows, Stateful.on_modify]
      exact ⟨_, rfl, rfl, Nat.le_add_right _ 3, .inr ⟨world.reads + 2, by omega, Nat.lt_succ_self _, rfl⟩⟩
    · simp only [Stateful.on_pure]
      exact ⟨_, rfl, rfl, Nat.le_add_right _ 2, .inl rfl⟩

theorem isMember_keeps (ordered : ∀ n, env.now n ≤ env.now (n + 1)) (reflects : Reflects env scopeId world ledger) :
    Keeps env scopeId world ((isMember env scopeId principalId).on world).2 ledger := by
  obtain ⟨after, ran, scopes, reads, same | ⟨n, late, read, archived⟩⟩ := isMember_on env scopeId principalId world
  · rw [ran]
    exact ⟨scopes, reads, reflects.congr same reads⟩
  · rw [ran]
    have rows := mem_archived world fun row => row.scopeId = scopeId && row.principalId = principalId &&
      row.lapsed (env.now n).toAware
    rw [← archived] at rows
    refine ⟨scopes, reads, reflects.archive rows reads (fun row member inScope live now past ahead => ?_)
      fun _ _ _ => id⟩
    · refine iff_of_true ((reflects.granted _ _ now (past.fewer reads)).mpr
        ⟨row, member, by rw [Membership.address, inScope], live, ahead⟩) ?_
      intro lapsed
      rw [Bool.and_eq_true] at lapsed
      have unread := ((lapsed_iff row (env.now n)).mp lapsed.2).2
      exact unread ((reflects.faithful row member inScope live _ (past_reading ordered late)).mpr
        (ahead.earlier (past n read)))

theorem Call.keeps (audit : Bool) (ordered : ∀ n, env.now n ≤ env.now (n + 1)) (active : world.Active scopeId)
    (reflects : Reflects env scopeId world ledger) {call : Call} (good : call.Good env scopeId world) :
    Keeps env scopeId world ((call.program env audit scopeId).on world).2 (call.credit ledger) := by
  cases call with
  | addMember principalId role grantedBy expiresAt =>
    rw [Call.program, Stateful.on_map]
    exact addMember_keeps grantedBy active reflects good.1 good.2
  | addMembers members grantedBy =>
    obtain ⟨scope, fetched, unfrozen⟩ := guards active
    rw [Call.program, Stateful.on_map]
    simp only [Memberships.addMembers, Stateful.on_bind, fetched, unfrozen, Stateful.on_pure]
    exact addEach_keeps grantedBy members reflects (fun n late => reading_le ordered late) good
  | revokeMember principalId revokedBy role =>
    rw [Call.program, Stateful.on_map]
    exact revokeMember_keeps revokedBy role active reflects
  | isMember principalId =>
    rw [Call.program, Stateful.on_map]
    exact isMember_keeps ordered reflects

end Calls

/-- The roles held at the start, which do not end. -/
def World.ledger (world : World) (scopeId : String) : Ledger := fun principalId role _ =>
  ∃ row ∈ world.memberships, row.address = (scopeId, principalId, role) ∧ row.lifecycle = .active

/-- From the last reading of the clock on, the three views agree at every instant and give what the ledger says. -/
def Shows (env : Env) (scopeId : String) (world : World) (ledger : Ledger) : Prop :=
  ∀ later : Env, env.Past world (later.now world.reads) → ∀ principalId, ∃ member listed ids,
    ((isMember later scopeId principalId).on world).1 = .ok member ∧
    ((getMemberships later scopeId true none 0).on world).1 = .ok listed ∧
    ((scopeMemberIds later scopeId).on world).1 = .ok ids ∧
    (member = true ↔ ∃ role, ledger principalId role (later.now world.reads)) ∧
    (member = true ↔ ∃ row ∈ listed, row.principalId = principalId) ∧ (member = true ↔ principalId ∈ ids)

theorem views_agree (later : Env) (scopeId principalId : String) (world : World) : ∃ member listed ids,
    ((isMember later scopeId principalId).on world).1 = .ok member ∧
    ((getMemberships later scopeId true none 0).on world).1 = .ok listed ∧
    ((scopeMemberIds later scopeId).on world).1 = .ok ids ∧
    (member = true ↔ ∃ row ∈ world.memberships, row.scopeId = scopeId ∧ row.principalId = principalId ∧
      row.holds (later.now world.reads).toAware = true) ∧
    (member = true ↔ ∃ row ∈ listed, row.principalId = principalId) ∧ (member = true ↔ principalId ∈ ids) := by
  obtain ⟨after, ran, -⟩ := isMember_on later scopeId principalId world
  refine ⟨_, _, _, congrArg Prod.fst ran, rfl, rfl, ?_, ?_, ?_⟩
  · simp [and_assoc]
  · simp only [List.any_eq_true, (List.perm_insertionSort _ _).mem_iff, List.mem_filter, Bool.and_eq_true, decide_eq_true_eq]
    constructor
    · rintro ⟨row, member, ⟨inScope, same⟩, holds⟩
      exact ⟨row, ⟨member, inScope, holds⟩, same⟩
    · rintro ⟨row, ⟨member, inScope, holds⟩, same⟩
      exact ⟨row, member, ⟨inScope, same⟩, holds⟩
  · simp only [List.any_eq_true, List.mem_dedup, List.mem_map, List.mem_filter, Bool.and_eq_true, decide_eq_true_eq]
    constructor
    · rintro ⟨row, member, ⟨inScope, same⟩, holds⟩
      exact ⟨row, ⟨member, inScope, holds⟩, same⟩
    · rintro ⟨row, ⟨member, inScope, holds⟩, same⟩
      exact ⟨row, member, ⟨inScope, same⟩, holds⟩

theorem Reflects.shows {world : World} {ledger : Ledger} (reflects : Reflects env scopeId world ledger) :
    Shows env scopeId world ledger := by
  intro later past principalId
  obtain ⟨member, listed, ids, asked, listedAs, idsAs, found, agree, agree'⟩ :=
    views_agree later scopeId principalId world
  refine ⟨member, listed, ids, asked, listedAs, idsAs, found.trans ?_, agree, agree'⟩
  simp only [reflects.granted principalId _ _ past, holds_iff]
  constructor
  · rintro ⟨row, rowIn, inScope, same, live, reads⟩
    refine ⟨row.role, row, rowIn, by rw [Membership.address, inScope, same], live, ?_⟩
    exact (reflects.faithful row rowIn inScope live _ past).mp reads
  · rintro ⟨role, row, rowIn, address, live, ahead⟩
    obtain ⟨inScope, same, rfl⟩ : row.scopeId = scopeId ∧ row.principalId = principalId ∧ row.role = role := by
      simpa [Membership.address] using address
    exact ⟨row, rowIn, inScope, same, live, (reflects.faithful row rowIn inScope live _ past).mpr ahead⟩

/-- In a run whose grants are made as asked, membership is what was granted and not yet
revoked, at every instant after every call. -/
theorem membership_as_granted (env : Env) (audit : Bool) (scopeId : String) (world : World) (calls : List Call)
    (ordered : ∀ n, env.now n ≤ env.now (n + 1)) (active : world.Active scopeId)
    (lasting : ∀ row ∈ world.memberships, row.scopeId = scopeId → row.expiresAt = none)
    (good : Good env audit scopeId world calls) :
    Shows env scopeId (run env audit scopeId calls world)
      (calls.foldl (fun ledger call => call.credit ledger) (world.ledger scopeId)) := by
  have start : Reflects env scopeId world (world.ledger scopeId) := by
    have endless : ∀ row ∈ world.memberships, row.scopeId = scopeId → ∀ now, Before now row.expiresAt ∧
        ReadsBefore now row.expiresAt := by
      intro row member inScope now
      rw [lasting row member inScope]
      exact ⟨fun _ member => absurd member (Option.not_mem_none _), fun _ member => absurd member (Option.not_mem_none _)⟩
    refine ⟨fun principalId role now _ => ?_, fun row member inScope _ now _ => ?_⟩
    · refine exists_congr fun row => and_congr_right fun member => and_congr_right fun same => ?_
      exact iff_self_and.mpr fun _ => (endless row member (congrArg Prod.fst same) now).1
    · exact iff_of_true (endless row member inScope now).2 (endless row member inScope now).1
  generalize world.ledger scopeId = ledger at start
  clear lasting
  induction calls generalizing world ledger with
  | nil => exact start.shows
  | cons call calls ih =>
    have kept := call.keeps audit ordered active start good.1
    have active : (((call.program env audit scopeId).on world).2).Active scopeId := by
      obtain ⟨scope, found, active⟩ := active
      exact ⟨scope, by rw [kept.scopes, found], active⟩
    exact ih _ active good.2 _ kept.reflects

section Sample

/-- So many minutes after noon. -/
private def afterNoon (minutes : Nat) (small : minutes < 600) : Moment :=
  .of (63902952000000000 + minutes * 60000000) (by omega)

/-- The clock is read every ten minutes, for an hour. -/
private def clock : Env where
  now n := afterNoon (10 * min n 6) (by omega)
  ids _ := .repeated 0

private theorem clock_ordered (n : Nat) : clock.now n ≤ clock.now (n + 1) := by
  rw [Moment.le_def]
  simp only [clock, afterNoon, Moment.of]
  omega

private def team : World where
  scopes := [⟨"team", "team", "alice", none, .active⟩]
  memberships := []
  records := []
  unique := .nil
  reads := 0
  made := 0

private theorem team_active : team.Active "team" := ⟨⟨"team", "team", "alice", none, .active⟩, rfl, rfl⟩

private theorem team_lasting : ∀ row ∈ team.memberships, row.scopeId = "team" → row.expiresAt = none :=
  fun _ member => absurd member List.not_mem_nil

/-- Bob is to be a viewer until an instant. -/
private def invite (expires : Aware) : Call := .addMember "bob" .viewer "alice" (some expires)

/-- Bob is invited, seen, revoked and invited again for longer. -/
private def renewal : List Call :=
  [invite (afterNoon 25 (by decide)).toAware, .isMember "bob", .revokeMember "bob" "alice" none,
    invite (afterNoon 55 (by decide)).toAware]

theorem membership_as_granted_renewed : Shows clock "team" (run clock true "team" renewal team)
    (renewal.foldl (fun ledger call => call.credit ledger) (team.ledger "team")) := by
  refine membership_as_granted clock true "team" team renewal clock_ordered team_active team_lasting
    ⟨⟨faithful_utc _ rfl, fun _ member => absurd member List.not_mem_nil⟩, trivial, trivial, ⟨faithful_utc _ rfl, ?_⟩, trivial⟩
  intro row member _ live
  have revoked : (run clock true "team" (renewal.take 3) team).memberships.map (·.lifecycle) = [.archived] := by
    decide +kernel
  have archived : row.lifecycle ∈ (run clock true "team" (renewal.take 3) team).memberships.map (·.lifecycle) :=
    List.mem_map_of_mem member
  rw [revoked, List.mem_singleton, live] at archived
  cases archived

/-- The same instant on a clock five hours behind. -/
private def behind (minutes : Nat) (small : minutes < 600) : Aware where
  instant := 63902952000000000 + minutes * 60000000
  offset := ⟨-18000000000, by decide⟩
  inRange := by
    dsimp only
    omega

private theorem lost {calls : List Call}
    (asked : ((isMember clock "team" "bob").on (run clock true "team" calls team)).1.toOption = some false)
    (credited : calls.foldl (fun ledger call => call.credit ledger) (team.ledger "team") "bob" .viewer
      (clock.now (run clock true "team" calls team).reads)) :
    ¬Shows clock "team" (run clock true "team" calls team)
      (calls.foldl (fun ledger call => call.credit ledger) (team.ledger "team")) := by
  intro shows
  obtain ⟨member, _, _, ran, _, _, granted, _⟩ := shows clock (past_reading clock_ordered le_rfl) "bob"
  rw [ran] at asked
  obtain rfl : member = false := Option.some.inj asked
  exact absurd (granted.mpr ⟨.viewer, credited⟩) Bool.false_ne_true

/-- A grant is lost where its expiry is given on another clock, though the row itself is
not expired, and where it meets a row that has expired but was not archived. -/
theorem granted_membership_lost :
    (∀ n, clock.now n ≤ clock.now (n + 1)) ∧ team.Active "team" ∧
      ((run clock true "team" [invite (behind 45 (by decide))] team).memberships.map fun row =>
        (row.isActive, row.isExpired (clock.now 1))) = [(true, false)] ∧
      ¬Shows clock "team" (run clock true "team" [invite (behind 45 (by decide))] team)
        ([invite (behind 45 (by decide))].foldl (fun ledger call => call.credit ledger) (team.ledger "team")) ∧
      ¬Shows clock "team" (run clock true "team"
          [invite (afterNoon 5 (by decide)).toAware, invite (afterNoon 55 (by decide)).toAware] team)
        ([invite (afterNoon 5 (by decide)).toAware, invite (afterNoon 55 (by decide)).toAware].foldl
          (fun ledger call => call.credit ledger) (team.ledger "team")) := by
  refine ⟨clock_ordered, team_active, by decide +kernel, lost ?_ ?_, lost ?_ ?_⟩
  · decide +kernel
  · refine .inr ⟨rfl, rfl, ?_⟩
    rintro expires ⟨⟩
    decide +kernel
  · decide +kernel
  · refine .inr ⟨rfl, rfl, ?_⟩
    rintro expires ⟨⟩
    decide +kernel

end Sample

end PyScoped.Legacy.Memberships
