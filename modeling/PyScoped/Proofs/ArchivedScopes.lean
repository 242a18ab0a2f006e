import PyScoped.Legacy.ScopeLifecycle

/-! What an archived scope still grants. The checks and the sweep are statements
of their own, so a grant or a freeze may land after an archive that it has not
seen, and an archive may commit without a grant that its sweep has not seen. It
grants nothing where no archive commits between a check and what relies on it,
and no grant between a sweep and the archive. -/

namespace PyScoped.Legacy.Tenancy
open Foundation

/-- The scope in which a row grants something. -/
def grantedScope : (key : TenancyKey) → TenancyRow key → Option String
  | .membership scopeId _ _, (row : ScopeMembership) => if row.lifecycle = .active then some scopeId else none
  | .projection scopeId _, (row : ScopeProjection) => if row.lifecycle = .active then some scopeId else none
  | _, _ => none

/-- An archived scope has no active membership and no active projection, and a
scope that was archived once is archived. -/
structure Dissolved {ι : Type} (store : Store ι) : Prop where
  swept : ∀ scopeId, archived store.tables.committed scopeId = true → ∀ key row,
    store.tables.committed key = some row → grantedScope key row ≠ some scopeId
  stays : ∀ scopeId, store.dissolved scopeId = true → archived store.tables.committed scopeId = true

/-- The rows that one call publishes together. -/
def Kind (rows : Overlay TenancyRow) (kind : (key : TenancyKey) → TenancyRow key → Prop) : Prop :=
  ∀ key row, rows key = some row → kind key row

def NoScope (key : TenancyKey) (_ : TenancyRow key) : Prop := ∀ scopeId, key ≠ .scope scopeId

def NoGrant (key : TenancyKey) (row : TenancyRow key) : Prop := grantedScope key row = none

theorem Kind.above {first second : Overlay TenancyRow} {kind : (key : TenancyKey) → TenancyRow key → Prop}
    (one : Kind first kind) (two : Kind second kind) : Kind (first.above second) kind := by
  intro key row found
  rcases Overlay.above_eq_some found with own | ⟨-, other⟩
  · exact one key row own
  · exact two key row other

variable {scopeId : String}

private theorem archived_eq {rows : Overlay TenancyRow} (marked : archived rows scopeId = true) :
    ∃ row : Scope, rows (.scope scopeId) = some row ∧ row.isArchived = true := by
  unfold archived at marked
  split at marked
  next row found => exact ⟨row, found, marked⟩
  · cases marked

private theorem archived_of {rows : Overlay TenancyRow} {row : Scope}
    (found : rows (.scope scopeId) = some row) : archived rows scopeId = row.isArchived := by
  unfold archived
  rw [found]

private theorem archived_above {rows committed : Overlay TenancyRow}
    (marked : archived (rows.above committed) scopeId = true) :
    archived rows scopeId = true ∨ rows (.scope scopeId) = none ∧ archived committed scopeId = true := by
  obtain ⟨row, found, isArchived⟩ := archived_eq marked
  rcases Overlay.above_eq_some found with own | ⟨absent, other⟩
  · exact .inl ((archived_of own).trans isArchived)
  · exact .inr ⟨absent, (archived_of other).trans isArchived⟩

variable {ι : Type} {client : ι}

theorem Dissolved.still {store : Store ι} (dissolved : Dissolved store) {tables : Tables TenancyRow ι}
    (same : tables.committed = store.tables.committed) : Dissolved (store.put tables) := by
  constructor
  · intro scopeId marked key row found
    change archived tables.committed scopeId = true at marked
    change tables.committed key = some row at found
    rw [same] at marked found
    exact dissolved.swept scopeId marked key row found
  · intro scopeId once
    change archived tables.committed scopeId = true
    rw [same]
    rcases Bool.or_eq_true_iff.mp once with once | now
    · exact dissolved.stays scopeId once
    · exact now

/-! What the others have done meanwhile. -/

def Request.looksAt : Request → String → Bool
  | .select (.scope id), scopeId => id = scopeId
  | _, _ => false

def Request.begins : Request → Bool
  | .enter => true
  | _ => false

def granted (rows : Overlay TenancyRow) (key : TenancyKey) : Bool :=
  match rows key with
  | some row => (grantedScope key row).isSome
  | none => false

/-- For each client, the scopes that others have archived since it has last looked at
them, and the keys at which others have granted something since its transaction began. -/
structure Notes (ι : Type) where
  overtaken : ι → String → Bool
  landed : ι → TenancyKey → Bool

abbrev Noted (ι : Type) := Store ι × Notes ι

section

variable [DecidableEq ι]

def Notes.after (client : ι) (before after : Store ι) (request : Request) (notes : Notes ι) : Notes ι where
  overtaken other scopeId :=
    if other = client then !request.looksAt scopeId && notes.overtaken other scopeId
    else notes.overtaken other scopeId || (archived after.tables.committed scopeId && !archived before.tables.committed scopeId)
  landed other key :=
    if other = client then !request.begins && notes.landed other key
    else notes.landed other key || (granted after.tables.committed key && !granted before.tables.committed key)

def noting : Service Request Reply Raised (Noted ι) ι Choice := serve.noting Notes.after

/-- What a statement publishes has not been overtaken: nobody else has archived the scope
of a grant, or of a lifecycle but archived, since the client has looked at it, and nobody
else has granted anything in a scope that is archived but what the sweep has found. -/
structure Undisturbed (client : ι) (state : Noted ι) (request : Request) : Prop where
  grants : ∀ key row scopeId, published state.1 client request key = some row → grantedScope key row = some scopeId →
    state.2.overtaken client scopeId = false
  lifecycles : ∀ scopeId (row : Scope), published state.1 client request (.scope scopeId) = some row → row.isArchived = false →
    state.2.overtaken client scopeId = false
  sweeps : ∀ scopeId, archived (published state.1 client request) scopeId = true → ∀ key row,
    state.1.tables.committed key = some row → grantedScope key row = some scopeId → state.2.landed client key = true →
      (published state.1 client request key).isSome = true

/-- The scope is not archived, or has been since the client has looked at it. -/
def Looked (client : ι) (scopeId : String) (state : Noted ι) : Prop :=
  archived state.1.tables.committed scopeId = true → state.2.overtaken client scopeId = true

/-- The grants at these keys are overwritten by the client's own rows, or have landed since its transaction began. -/
def Swept (client : ι) (own : Overlay TenancyRow) (covered : TenancyKey → Prop) (state : Noted ι) : Prop :=
  ∀ key row, covered key → state.1.tables.committed key = some row → (grantedScope key row).isSome = true →
    (own key).isSome = true ∨ state.2.landed client key = true

/-- What a client may rely on while others run. -/
structure Onward (client : ι) (before after : Noted ι) : Prop where
  pending : after.1.tables.pending client = before.1.tables.pending client
  looked : ∀ {scopeId}, Looked client scopeId before → Looked client scopeId after
  swept : ∀ {own covered}, Swept client own covered before → Swept client own covered after

def dissolution : Contract Request (Noted ι) ι where
  kept state := Dissolved state.1
  rely := Onward
  allowed := Undisturbed

def Closed (client : ι) (store : Store ι) : Prop := store.tables.pending client = none

/-- What rows of a kind ask of the client that publishes them: scopes it has looked at, and keys it has swept. -/
structure Backed (kind : (key : TenancyKey) → TenancyRow key → Prop) (looked : String → Prop) (covered : TenancyKey → Prop) :
    Prop where
  oneSided : (∀ key row, kind key row → NoScope key row) ∨ ∀ key row, kind key row → NoGrant key row
  grants : ∀ key row scopeId, kind key row → grantedScope key row = some scopeId → looked scopeId
  lifecycles : ∀ scopeId (row : Scope), kind (.scope scopeId) row → row.isArchived = false → looked scopeId
  sweeps : ∀ scopeId (row : Scope), kind (.scope scopeId) row → row.isArchived = true →
    ∀ key row', grantedScope key row' = some scopeId → covered key

/-- In a transaction that has written rows of one kind, what the client has looked at and swept. -/
def Within (kind : (key : TenancyKey) → TenancyRow key → Prop) (looked : String → Prop) (covered : TenancyKey → Prop)
    (client : ι) (state : Noted ι) : Prop :=
  ∃ own, state.1.tables.pending client = some own ∧ Kind own kind ∧ (∀ scopeId, looked scopeId → Looked client scopeId state) ∧
    Swept client own covered state

variable {state now : Noted ι} {store after : Store ι} {request : Request} {rows : Overlay TenancyRow}
  {kind : (key : TenancyKey) → TenancyRow key → Prop} {looked : String → Prop} {covered covered' : TenancyKey → Prop}

omit [DecidableEq ι] in
theorem Onward.refl (client : ι) (state : Noted ι) : Onward client state state := ⟨rfl, id, id⟩

omit [DecidableEq ι] in
theorem Onward.trans {first second third : Noted ι} (one : Onward client first second) (two : Onward client second third) :
    Onward client first third :=
  ⟨two.pending.trans one.pending, fun known => two.looked (one.looked known), fun known => two.swept (one.swept known)⟩

omit [DecidableEq ι] in
theorem Within.moved (inside : Within kind looked covered client state) (moved : Onward client state now) :
    Within kind looked covered client now := by
  obtain ⟨own, opened, only, known, swept⟩ := inside
  exact ⟨own, moved.pending.trans opened, only, fun scopeId seen => moved.looked (known scopeId seen), moved.swept swept⟩

theorem Onward.other {other : ι} (different : other ≠ client)
    (pending : after.tables.pending other = state.1.tables.pending other) :
    Onward other state (after, state.2.after client state.1 after request) where
  pending := pending
  looked {scopeId} known marked := by
    have marked : archived after.tables.committed scopeId = true := marked
    simp only [Notes.after, if_neg different, marked, Bool.true_and, Bool.or_eq_true, Bool.not_eq_true']
    cases before : archived state.1.tables.committed scopeId with
    | true => exact .inl (known before)
    | false => exact .inr rfl
  swept {own covered} known key row inside found grants := by
    have now : granted after.tables.committed key = true := by
      unfold granted
      rw [show after.tables.committed key = some row from found]
      exact grants
    simp only [Notes.after, if_neg different, now, Bool.true_and, Bool.or_eq_true, Bool.not_eq_true']
    cases before : granted state.1.tables.committed key with
    | false => exact .inr (.inr rfl)
    | true =>
      unfold granted at before
      split at before
      next old present => exact (known key old inside present before).imp_right .inl
      · cases before

theorem Looked.own (known : Looked client scopeId state) (elsewhere : request.looksAt scopeId = false)
    (spared : archived after.tables.committed scopeId = true → archived state.1.tables.committed scopeId = true) :
    Looked client scopeId (after, state.2.after client state.1 after request) := by
  intro marked
  simpa only [Notes.after, if_pos, elsewhere, Bool.not_false, Bool.true_and] using known (spared marked)

theorem Swept.own {own own' : Overlay TenancyRow} (known : Swept client own covered state) (amid : request.begins = false)
    (same : after.tables.committed = state.1.tables.committed) (wider : ∀ key, (own key).isSome = true → (own' key).isSome = true)
    (fresh : ∀ key row, covered' key → state.1.tables.committed key = some row → (grantedScope key row).isSome = true →
      covered key ∨ (own' key).isSome = true) :
    Swept client own' covered' (after, state.2.after client state.1 after request) := by
  intro key row inside found grants
  have found : state.1.tables.committed key = some row := same ▸ found
  simp only [Notes.after, if_pos, amid, Bool.not_false, Bool.true_and]
  rcases fresh key row inside found grants with inside | written
  · exact (known key row inside found grants).imp_left (wider key)
  · exact .inl written

omit [DecidableEq ι] in
/-- Rows that the client may publish, and that nobody has overtaken, keep archived scopes dissolved. -/
theorem Dissolved.publish (dissolved : Dissolved state.1) (undisturbed : Undisturbed client state request)
    (backed : Backed kind looked covered) (same : published state.1 client request = rows) (only : Kind rows kind)
    (known : ∀ scopeId, looked scopeId → Looked client scopeId state) (swept : Swept client rows covered state)
    {tables : Tables TenancyRow ι} (written : tables.committed = rows.above state.1.tables.committed) :
    Dissolved (state.1.put tables) := by
  subst same
  have spared (scopeId : String) (seen : looked scopeId) (fresh : state.2.overtaken client scopeId = false) :
      archived state.1.tables.committed scopeId = false := by
    refine Bool.eq_false_iff.mpr fun marked => ?_
    rw [known scopeId seen marked] at fresh
    cases fresh
  constructor
  · intro scopeId marked key row found granted
    change archived tables.committed scopeId = true at marked
    change tables.committed key = some row at found
    rw [written] at marked found
    rcases Overlay.above_eq_some found with own | ⟨absent, other⟩ <;> rcases archived_above marked with marked | ⟨-, marked⟩
    · obtain ⟨scope, archives, -⟩ := archived_eq marked
      rcases backed.oneSided with noScope | noGrant
      · exact noScope _ _ (only _ _ archives) scopeId rfl
      · cases (noGrant key row (only key row own)).symm.trans granted
    · rw [spared scopeId (backed.grants key row scopeId (only key row own) granted)
        (undisturbed.grants key row scopeId own granted)] at marked
      cases marked
    · obtain ⟨scope, archives, isArchived⟩ := archived_eq marked
      have inside := backed.sweeps scopeId scope (only _ _ archives) isArchived key row granted
      have overwritten := (swept key row inside other (by rw [granted]; rfl)).elim id
        (undisturbed.sweeps scopeId marked key row other granted)
      rw [absent] at overwritten
      cases overwritten
    · exact dissolved.swept scopeId marked key row other granted
  · intro scopeId once
    have before : archived state.1.tables.committed scopeId = true := by
      rcases Bool.or_eq_true_iff.mp once with once | now
      · exact dissolved.stays scopeId once
      · exact now
    change archived tables.committed scopeId = true
    rw [written]
    cases own : published state.1 client request (.scope scopeId) with
    | none =>
      unfold archived at before ⊢
      rwa [Overlay.above_none own]
    | some row =>
      refine (archived_of (Overlay.above_some own)).trans (Bool.not_eq_false _ ▸ fun other => ?_)
      rw [spared scopeId (backed.lifecycles scopeId row (only _ row own) other)
        (undisturbed.lifecycles scopeId row own other)] at before
      cases before

/-- Statements that only read, but for scopes, and the audit writer. -/
def Request.Quiet : Request → Prop
  | .select (.scope _) => False
  | .select _ => True
  | .selectRoles _ _ _ => True
  | .now => True
  | .generateId => True
  | .record _ => True
  | _ => False

omit [DecidableEq ι] in
theorem Request.Quiet.plain {request : Request} (quiet : request.Quiet) :
    (∀ scopeId, request.looksAt scopeId = false) ∧ request.begins = false := by
  cases request with
  | select key => cases key <;> first | exact quiet.elim | exact ⟨fun _ => rfl, rfl⟩
  | _ => first | exact quiet.elim | exact ⟨fun _ => rfl, rfl⟩

variable {α β : Type}

theorem perform_safe {request : Request} {post : Except Raised (Reply request) → Noted ι → Prop} (going : request ≠ .rollback)
    (fails : ∀ now, Onward client state now → ∀ error, post (.error error) (now.1, now.2.after client now.1 now.1 request))
    (steps : ∀ now, Dissolved now.1 → Onward client state now → Undisturbed client now request → ∀ clock id reply after,
      serve client ⟨none, clock, id⟩ now.1 request = some (reply, after) →
        Dissolved after ∧ (∀ other, other ≠ client → after.tables.pending other = now.1.tables.pending other) ∧
          post reply (after, now.2.after client now.1 after request)) :
    dissolution.Safe noting client post (Prog.perform request) state := by
  refine .perform fun now kept moved undisturbed choice reply after answered => ?_
  obtain ⟨after, notes⟩ := after
  obtain ⟨served, rfl⟩ := Service.noting_some answered
  obtain ⟨failure, clock, id⟩ := choice
  cases failure with
  | some error =>
    obtain ⟨rfl, rfl⟩ : reply = .error error ∧ after = now.1 := by
      cases request <;> first | exact absurd rfl going | (cases served; exact ⟨rfl, rfl⟩)
    exact ⟨kept, fun other different => .other different rfl, fails now moved error⟩
  | none =>
    obtain ⟨kept, pending, reached⟩ := steps now kept moved undisturbed clock id reply after served
    exact ⟨kept, fun other different => .other different (pending other different), reached⟩

variable {program : Program α}

theorem quiet_safe (quiet : program.Only Request.Quiet) :
    dissolution.Safe noting client (fun _ final => Onward client state final) program state := by
  refine (Contract.Safe.only (Onward.refl client) (fun _ _ _ => Onward.trans)
    (fun request choice now reply after quiet kept _ answered => ?_) quiet (.trivial program)).weaken fun _ _ => And.left
  obtain ⟨after, notes⟩ := after
  obtain ⟨served, rfl⟩ := Service.noting_some answered
  have same : after.tables = now.1.tables ∧ after.dissolved = now.1.dissolved := by
    obtain ⟨failure, clock, id⟩ := choice
    cases failure <;> cases request
    all_goals first | exact quiet.elim | (cases served; exact ⟨rfl, rfl⟩)
  refine ⟨⟨?_, ?_⟩, fun other => ?_⟩
  · simpa only [same.1] using (show Dissolved now.1 from kept).swept
  · simpa only [same.1, same.2] using (show Dissolved now.1 from kept).stays
  · by_cases own : other = client
    · subst other
      exact ⟨congrArg (fun tables : Tables TenancyRow ι => tables.pending client) same.1,
        fun known => known.own (quiet.plain.1 _) fun marked => same.1 ▸ marked,
        fun known => known.own quiet.plain.2 (congrArg Tables.committed same.1) (fun _ => id) fun _ _ inside _ _ => .inl inside⟩
    · exact .other own (congrArg (fun tables : Tables TenancyRow ι => tables.pending other) same.1)

/-- A program that ends between transactions, and what its client knows where it returns. -/
def Runs (client : ι) (program : Program α) (state : Noted ι) (post : α → Noted ι → Prop) : Prop :=
  dissolution.Safe noting client (fun result final => Closed client final.1 ∧ ∀ value, result = .ok value → post value final)
    program state

/-- A program inside of a transaction. -/
def Inside (client : ι) (program : Program α) (state : Noted ι) (post : α → Noted ι → Prop) : Prop :=
  dissolution.Safe noting client (fun result final => ∀ value, result = .ok value → post value final) program state

variable {post : β → Noted ι → Prop}

theorem Runs.bind {next : α → Program β} {middle : α → Noted ι → Prop} (first : Runs client program state middle)
    (rest : ∀ value final, Closed client final.1 → middle value final → Runs client (next value) final post) :
    Runs client (program.bind next) state post := by
  refine Contract.Safe.bind (first.weaken fun result final reached => ?_)
  cases result with
  | ok value => exact rest value final reached.1 (reached.2 value rfl)
  | error error => exact ⟨reached.1, fun _ raised => by cases raised⟩

theorem Runs.quiet (closed : Closed client state.1) (only : program.Only Request.Quiet) :
    Runs client program state fun _ final => Onward client state final :=
  (quiet_safe only).weaken fun _ _ moved => ⟨moved.pending.trans closed, fun _ _ => moved⟩

theorem Runs.forget {post : α → Noted ι → Prop} (runs : Runs client program state post) :
    Runs client program state fun _ _ => True :=
  runs.weaken fun _ _ reached => ⟨reached.1, fun _ _ => trivial⟩

theorem Inside.bind {next : α → Program β} {middle : α → Noted ι → Prop}
    (first : Inside client program state middle) (rest : ∀ value final, middle value final → Inside client (next value) final post) :
    Inside client (program.bind next) state post := by
  refine Contract.Safe.bind (first.weaken fun result final reached => ?_)
  cases result with
  | ok value => exact rest value final (reached value rfl)
  | error error => exact fun _ raised => by cases raised

/-- The rows that a statement writes are of a kind, and among their keys are those that are swept by it. -/
def Writes (request : Request) (kind : (key : TenancyKey) → TenancyRow key → Prop) (fresh : TenancyKey → Prop) : Prop :=
  ∀ {ι : Type} [DecidableEq ι] (client : ι) (store : Store ι) (clock : DateTime) (id : ScopedId) reply after,
    serve client ⟨none, clock, id⟩ store request = some (reply, after) →
      (∀ value, reply ≠ .ok value) ∧ after = store ∨
      ∃ rows, Kind rows kind ∧ after = store.put (store.tables.write client rows) ∧
        (Closed client store → published store client request = rows) ∧
        ∀ key row, fresh key → store.tables.view client key = some row → (grantedScope key row).isSome = true →
          (rows key).isSome = true

omit [DecidableEq ι] in
theorem sweep_writes {change : Change} {fresh : TenancyKey → Prop}
    (same : ∀ key row new, change key row = some new → kind key new)
    (sweeps : ∀ key row, fresh key → (grantedScope key row).isSome = true → (change key row).isSome = true) :
    Writes (.update change) kind fresh := by
  intro ι _ client store clock id reply after served
  cases served
  refine .inr ⟨_, fun key new found => ?_, rfl, fun closed => ?_, fun key row inside seen grants => ?_⟩
  · obtain ⟨row, -, changed⟩ := Option.bind_eq_some_iff.mp found
    exact same key row new changed
  · simp only [published, show store.tables.pending client = none from closed, Option.isNone_none, ↓reduceIte]
  · rw [seen]
    exact sweeps key row inside grants

omit [DecidableEq ι] in
theorem update_writes {change : Change} (same : ∀ key row new, change key row = some new → kind key new) :
    Writes (.update change) kind fun _ => False :=
  sweep_writes same fun _ _ none => none.elim

omit [DecidableEq ι] in
theorem insert_writes {key : TenancyKey} {row : TenancyRow key} (same : kind key row) :
    Writes (.insert key row) kind fun _ => False := by
  intro ι _ client store clock id reply after served
  simp only [serve] at served
  split at served
  · cases served
    exact .inl ⟨nofun, rfl⟩
  next absent =>
    cases served
    refine .inr ⟨_, fun other value found => ?_, rfl, fun closed => ?_, fun _ _ inside => inside.elim⟩
    · by_cases equal : other = key
      · subst other
        simp only [Overlay.single, Function.update_self, Option.some.injEq] at found
        rwa [← found]
      · simp [Overlay.single, equal] at found
    · have absent : (store.tables.view client key).isNone = true := by simpa using absent
      simp only [published, show store.tables.pending client = none from closed, absent, Option.isNone_none, and_self, ↓reduceIte]

/-- What is written inside of a transaction joins its rows. -/
theorem write_within {request : Request} {fresh covered' : TenancyKey → Prop} (writes : Writes request kind fresh)
    (plain : request ≠ .rollback ∧ (∀ scopeId, request.looksAt scopeId = false) ∧ request.begins = false)
    (inside : Within kind looked covered client state) (wider : ∀ key, covered' key → covered key ∨ fresh key) :
    Inside client (Prog.perform request) state fun _ final => Within kind looked covered' client final := by
  refine perform_safe plain.1 (fun _ _ _ _ raised => by cases raised) fun now kept moved _ clock id reply after served => ?_
  obtain ⟨refused, rfl⟩ | ⟨rows, only', rfl, -, sweeps⟩ := writes client now.1 clock id reply after served
  · exact ⟨kept, fun _ _ => rfl, fun value returned => absurd returned (refused value)⟩
  obtain ⟨own, opened, only, known, swept⟩ := inside.moved moved
  have written : now.1.tables.write client rows = _ := Tables.write_open opened
  have committed : (now.1.put (now.1.tables.write client rows)).tables.committed = now.1.tables.committed := by
    change (now.1.tables.write client rows).committed = _
    rw [written]
  refine ⟨kept.still committed, fun _ different => Tables.write_pending_ne different, fun _ _ =>
    ⟨rows.above own, ?_, only'.above only, fun scopeId seen => ?_, ?_⟩⟩
  · change (now.1.tables.write client rows).pending client = _
    rw [written]
    exact Function.update_self ..
  · exact (known scopeId seen).own (plain.2.1 scopeId) fun marked => committed ▸ marked
  · refine swept.own plain.2.2 committed (fun key has => ?_) fun key row reaches found grants => ?_
    · cases new : rows key <;> simp [Overlay.above, new, has]
    · rcases wider key reaches with before | new
      · exact .inl before
      refine .inr ?_
      cases old : own key with
      | some row => cases rows key <;> simp [Overlay.above, old]
      | none =>
        have seen : now.1.tables.view client key = some row := by
          rw [Tables.view_open opened, Overlay.above_none old, found]
        obtain ⟨row', overwritten⟩ := Option.isSome_iff_exists.mp (sweeps key row new seen grants)
        simp [Overlay.above, overwritten]

theorem write_closed {request : Request} (writes : Writes request kind fun _ => False) (going : request ≠ .rollback)
    (closed : Closed client state.1) (backed : Backed kind looked fun _ => False)
    (known : ∀ scopeId, looked scopeId → Looked client scopeId state) :
    Runs client (Prog.perform request) state fun _ _ => True := by
  refine perform_safe going (fun now moved _ => ⟨moved.pending.trans closed, fun _ _ => trivial⟩)
    fun now kept moved undisturbed clock id reply after served => ?_
  have closed : Closed client now.1 := moved.pending.trans closed
  obtain ⟨-, rfl⟩ | ⟨rows, only, rfl, same, -⟩ := writes client now.1 clock id reply after served
  · exact ⟨kept, fun _ _ => rfl, closed, fun _ _ => trivial⟩
  have written : now.1.tables.write client rows = _ := Tables.write_closed closed
  refine ⟨kept.publish undisturbed backed (same closed) only (fun scopeId seen => moved.looked (known scopeId seen))
    (fun _ _ inside => inside.elim) (congrArg Tables.committed written), fun _ different => Tables.write_pending_ne different,
    ?_, fun _ _ => trivial⟩
  change (now.1.tables.write client rows).pending client = none
  rw [written]
  exact closed

/-- The rows of a transaction become committed. Where they concern no scope, what was
looked at stays so. -/
theorem commit_inside (backed : Backed kind looked covered) (inside : Within kind looked covered client state) :
    Inside client (Prog.perform Request.commit) state fun _ final => Closed client final.1 ∧
      ((∀ key row, kind key row → NoScope key row) → ∀ scopeId, looked scopeId → Looked client scopeId final) := by
  refine perform_safe nofun (fun _ _ _ _ raised => by cases raised) fun now kept moved undisturbed clock id reply after served => ?_
  obtain ⟨own, opened, only, known, swept⟩ := inside.moved moved
  cases served
  have viewed := Tables.view_open opened
  refine ⟨kept.publish undisturbed backed (by simp only [published, opened, Option.getD_some]) only known swept viewed,
    fun _ different => Tables.commit_pending_ne different,
    fun _ _ => ⟨Tables.commit_pending, fun noScope scopeId seen => (known scopeId seen).own rfl fun marked => ?_⟩⟩
  have marked : archived (now.1.tables.view client) scopeId = true := marked
  rw [viewed] at marked
  rcases archived_above marked with written | ⟨-, before⟩
  · obtain ⟨scope, written, -⟩ := archived_eq written
    exact absurd rfl (noScope _ _ (only _ _ written) scopeId)
  · exact before

/-- A transaction ends, whatever its body did. -/
theorem transaction_runs (kind : (key : TenancyKey) → TenancyRow key → Prop) (looked : String → Prop) (post : α → Noted ι → Prop)
    {body : Program α} (closed : Closed client state.1)
    (known : ∀ scopeId, looked scopeId → Looked client scopeId state)
    (safe : ∀ inside, Within kind looked (fun _ => False) client inside →
      Inside client body inside fun value final => Closed client final.1 ∧ post value final) :
    Runs client (transaction body) state post := by
  refine Contract.Safe.bind (perform_safe nofun (fun now moved _ => ⟨moved.pending.trans closed, fun _ raised => by cases raised⟩)
    fun now kept moved _ clock id reply after served => ?_)
  cases served
  refine ⟨kept.still rfl, fun _ different => Tables.enter_pending_ne different, ?_⟩
  have elsewhere : ∀ scopeId, Request.enter.looksAt scopeId = false := fun _ => rfl
  have inside : Within kind looked (fun _ => False) client (now.1.put (now.1.tables.enter client), _) :=
    ⟨_, Tables.enter_pending, fun _ _ found => (by cases found), fun scopeId seen =>
      (moved.looked (known scopeId seen)).own (elsewhere scopeId) fun marked => marked, fun _ _ covers => covers.elim⟩
  refine Contract.Safe.tryCatch ((safe _ inside).weaken fun result final reached => ?_)
  cases result with
  | ok value => exact ⟨(reached value rfl).1, fun _ same => by cases same; exact (reached value rfl).2⟩
  | error error =>
    refine Contract.Safe.bind (Contract.Safe.perform fun now kept moved _ choice reply after answered => ?_)
    obtain ⟨after, notes⟩ := after
    obtain ⟨served, rfl⟩ := Service.noting_some answered
    obtain rfl : after = now.1.put (now.1.tables.leave client) := by
      obtain ⟨failure, clock, id⟩ := choice
      cases failure <;> cases served <;> rfl
    refine ⟨Dissolved.still kept rfl, fun _ different => .other different (Tables.leave_pending_ne different), ?_⟩
    cases reply with
    | ok done => exact ⟨Tables.leave_pending, fun _ raised => by cases raised⟩
    | error failed => exact ⟨Tables.leave_pending, fun _ raised => by cases raised⟩

theorem getScopeOrRaise_runs (scopeId : String) (closed : Closed client state.1) :
    Runs client (getScopeOrRaise scopeId) state fun scope final => scope.isArchived = false → Looked client scopeId final := by
  have selecting : Runs client (Prog.perform (Request.select (.scope scopeId))) state fun (row : Option Scope) final =>
      ∀ scope ∈ row, scope.isArchived = false → Looked client scopeId final := by
    refine perform_safe nofun (fun now moved _ => ⟨moved.pending.trans closed, fun _ raised => by cases raised⟩)
      fun now kept moved _ clock id reply after served => ?_
    have closed : Closed client now.1 := moved.pending.trans closed
    cases served
    refine ⟨kept, fun _ _ => rfl, closed, fun row returned scope found unarchived marked => ?_⟩
    cases returned
    rw [Tables.view_closed closed] at found
    have marked : archived now.1.tables.committed scopeId = true := marked
    rw [archived_of found, unarchived] at marked
    cases marked
  refine selecting.bind fun row final closed seen => ?_
  cases row with
  | none => exact ⟨closed, fun _ raised => by cases raised⟩
  | some scope => exact ⟨closed, fun _ same => by cases same; exact seen scope rfl⟩

private theorem record_quiet (lifecycle : ScopeLifecycle) (trace : Trace) : (lifecycle.record trace).Only Request.Quiet := by
  obtain ⟨audit⟩ := lifecycle
  cases audit
  · trivial
  · exact .perform trivial

private theorem manager_quiet (manager : ProjectionManager) (trace : Trace) : (manager.record trace).Only Request.Quiet := by
  obtain ⟨audit⟩ := manager
  cases audit
  · trivial
  · exact .perform trivial

/-! The kinds of rows that the calls publish. -/

/-- Rows of grants that are none any more. -/
def Revoking (key : TenancyKey) (row : TenancyRow key) : Prop := NoScope key row ∧ NoGrant key row

/-- A lifecycle of the scope that is not archived. -/
def Freezing (scopeId : String) : (key : TenancyKey) → TenancyRow key → Prop
  | .scope id, (row : Scope) => id = scopeId ∧ row.isArchived = false
  | _, _ => False

/-- The scope is archived, and its grants are none any more. -/
def Archiving (scopeId : String) : (key : TenancyKey) → TenancyRow key → Prop
  | .scope id, (row : Scope) => id = scopeId ∧ row.isArchived = true
  | key, row => Revoking key row

def membershipOf (scopeId : String) : TenancyKey → Prop
  | .membership id _ _ => id = scopeId
  | _ => False

def projectionOf (scopeId : String) : TenancyKey → Prop
  | .projection id _ => id = scopeId
  | _ => False

def grantOf (scopeId : String) : TenancyKey → Prop
  | .membership id _ _ | .projection id _ => id = scopeId
  | _ => False

/-- Grants in one scope. -/
def Granting (scopeId : String) (key : TenancyKey) (_ : TenancyRow key) : Prop := grantOf scopeId key

omit [DecidableEq ι] in
theorem grantOf_of {key : TenancyKey} {row : TenancyRow key} (granted : grantedScope key row = some scopeId) :
    grantOf scopeId key := by
  cases key with
  | scope | object => cases granted
  | membership | projection =>
    simp only [grantedScope] at granted
    split at granted <;> cases granted
    rfl

omit [DecidableEq ι] in
theorem grantOf_cases (key : TenancyKey) (own : grantOf scopeId key) :
    membershipOf scopeId key ∨ projectionOf scopeId key := by
  cases key with
  | membership => exact .inl own
  | projection => exact .inr own
  | scope | object => exact own.elim

theorem granting_noScope {key : TenancyKey} {row : TenancyRow key} (only : Granting scopeId key row) :
    NoScope key row := by
  rintro other rfl
  exact only

theorem granting_backed (scopeId : String) : Backed (Granting scopeId) (· = scopeId) fun _ => False where
  oneSided := .inl fun _ _ => granting_noScope
  grants key _ other only granted := by
    have reaches := grantOf_of granted
    cases key with
    | membership | projection => exact reaches.symm.trans only
    | scope | object => exact reaches.elim
  lifecycles _ _ only := False.elim only
  sweeps _ _ only := False.elim only

theorem revoking_backed : Backed Revoking (fun _ => False) fun _ => False where
  oneSided := .inl fun _ _ only => only.1
  grants _ _ _ only granted := by
    rw [only.2] at granted
    cases granted
  lifecycles other _ only := absurd rfl (only.1 other)
  sweeps other _ only := absurd rfl (only.1 other)

theorem freezing_backed (scopeId : String) : Backed (Freezing scopeId) (· = scopeId) fun _ => False where
  oneSided := .inr fun key _ only => by
    cases key with
    | scope => rfl
    | membership | projection | object => exact only.elim
  grants key _ _ only granted := by
    cases key with
    | scope => cases granted
    | membership | projection | object => exact only.elim
  lifecycles _ _ only _ := only.1
  sweeps _ _ only marked := by
    rw [only.2] at marked
    cases marked

theorem archiving_backed (scopeId : String) : Backed (Archiving scopeId) (fun _ => False) (grantOf scopeId) where
  oneSided := .inr fun key _ only => by
    cases key with
    | scope => rfl
    | membership | projection | object => exact only.2
  grants key _ _ only granted := by
    cases key with
    | scope => cases granted
    | membership | projection | object =>
      rw [only.2] at granted
      cases granted
  lifecycles _ _ only marked := by
    rw [only.2] at marked
    cases marked
  sweeps other _ only _ key row granted := only.1 ▸ grantOf_of granted

private theorem reactivated_granting {principalId grantedAt grantedBy : String} {role : ScopeRole}
    {expiresAt : Option String} (key : TenancyKey) (row new : TenancyRow key)
    (changed : reactivateMembership scopeId principalId role grantedAt grantedBy expiresAt key row = some new) :
    Granting scopeId key new := by
  cases key with
  | membership scope principal role' =>
    simp only [reactivateMembership] at changed
    split at changed
    next own =>
      cases changed
      exact own.1
    · cases changed
  | scope | projection | object => cases changed

private theorem projected_granting {objectId projectedAt projectedBy : String} {accessLevel : AccessLevel}
    (key : TenancyKey) (row new : TenancyRow key)
    (changed : reactivateProjection scopeId objectId accessLevel projectedAt projectedBy key row = some new) :
    Granting scopeId key new := by
  cases key with
  | projection scope object =>
    simp only [reactivateProjection] at changed
    split at changed
    next own =>
      cases changed
      exact own.1
    · cases changed
  | scope | membership | object => cases changed

/-- What a grant writes concerns its scope alone, which the client has looked at. -/
theorem writeMembership_inside (ts : DateTime) (scopeId principalId : String) (role : ScopeRole) (grantedBy : String)
    (expiresAt : Option String)
    (inside : Within (Granting scopeId) (· = scopeId) (fun _ => False) client state) :
    Inside client (ScopeLifecycle.writeMembership ts scopeId principalId role grantedBy expiresAt) state fun _ final =>
      Closed client final.1 ∧ Looked client scopeId final := by
  have asking {request : Request} (quiet : request.Quiet) {state : Noted ι}
      (inside : Within (Granting scopeId) (· = scopeId) (fun _ => False) client state) :
      Inside client (Prog.perform request) state fun _ final => Within (Granting scopeId) (· = scopeId) (fun _ => False) client final :=
    (quiet_safe (.perform quiet)).weaken fun _ _ moved _ _ => inside.moved moved
  refine Inside.bind (asking (by trivial) inside) fun existing looked inside => ?_
  -- every branch ends with the commit of what it wrote
  have commit (value : ScopeMembership × Bool) {written : Noted ι}
      (inside : Within (Granting scopeId) (· = scopeId) (fun _ => False) client written) :
      Inside client ((Prog.perform Request.commit : Program Unit).bind fun _ => .pure value) written fun _ final =>
        Closed client final.1 ∧ Looked client scopeId final :=
    (commit_inside (granting_backed scopeId) inside).bind fun _ final reached _ _ =>
      ⟨reached.1, reached.2 (fun _ _ => granting_noScope) scopeId rfl⟩
  cases existing with
  | some existing =>
    dsimp only
    split
    · exact commit _ inside
    · exact (write_within (update_writes reactivated_granting) ⟨nofun, fun _ => rfl, rfl⟩ inside fun _ => .inl).bind
        fun _ _ inside => commit _ inside
  | none =>
    refine Inside.bind (asking (by trivial) inside) fun memId named inside => ?_
    exact (write_within (insert_writes rfl) ⟨nofun, fun _ => rfl, rfl⟩
      inside fun _ => .inl).bind fun _ _ inside => commit _ inside

theorem addMembership_runs (lifecycle : ScopeLifecycle) (scopeId principalId : String) (role : ScopeRole) (grantedBy : String)
    (expiresAt : Option String) (closed : Closed client state.1) (seen : Looked client scopeId state) :
    Runs client (lifecycle.addMembership scopeId principalId role grantedBy expiresAt) state fun _ final =>
      Looked client scopeId final := by
  refine Runs.bind (Runs.quiet closed (.perform trivial)) fun ts timed closed moved => ?_
  have seen := moved.looked seen
  refine (transaction_runs (Granting scopeId) (· = scopeId) (fun _ final => Looked client scopeId final) closed (fun _ same => same ▸ seen) fun inside within =>
    writeMembership_inside ts scopeId principalId role grantedBy expiresAt within).bind fun written final closed seen => ?_
  obtain ⟨mem, changed⟩ := written
  cases changed
  · exact ⟨closed, fun _ _ => seen⟩
  · refine Runs.bind (Runs.quiet closed (record_quiet lifecycle _)) fun _ last closed moved => ?_
    exact ⟨closed, fun _ _ => moved.looked seen⟩

omit [DecidableEq ι] in
private theorem requireMutable_ok {scope : Scope} (mutable : requireMutable scope = .ok ()) : scope.isArchived = false := by
  unfold requireMutable at mutable
  split at mutable
  · cases mutable
  split at mutable
  · cases mutable
  next other => exact Bool.not_eq_true _ ▸ other

private theorem requireMutable_runs (scopeId : String) {next : Program β} (closed : Closed client state.1)
    (onward : ∀ final, Closed client final.1 → Looked client scopeId final → Runs client next final post) :
    Runs client ((getScopeOrRaise scopeId).bind fun scope => (Prog.ofExcept (requireMutable scope)).bind fun _ => next) state
      post := by
  refine (getScopeOrRaise_runs scopeId closed).bind fun scope found closed seen => ?_
  cases mutable : requireMutable scope with
  | ok done => exact onward found closed (seen (requireMutable_ok mutable))
  | error error => exact ⟨closed, fun _ raised => by cases raised⟩

theorem addMember_runs (lifecycle : ScopeLifecycle) (scopeId principalId : String) (role : ScopeRole) (grantedBy : String)
    (expiresAt : Option String) (closed : Closed client state.1) :
    Runs client (lifecycle.addMember scopeId principalId role grantedBy expiresAt) state fun _ _ => True :=
  requireMutable_runs scopeId closed fun _ closed seen =>
    (addMembership_runs lifecycle scopeId principalId role grantedBy expiresAt closed seen).forget

theorem addEach_runs (lifecycle : ScopeLifecycle) (scopeId grantedBy : String) (members : List (String × Option String))
    (closed : Closed client state.1) (seen : Looked client scopeId state) :
    Runs client (lifecycle.addEach scopeId grantedBy members) state fun _ _ => True := by
  induction members generalizing state with
  | nil => exact ⟨closed, fun _ _ => trivial⟩
  | cons member members ih =>
    obtain ⟨principalId, role⟩ := member
    unfold ScopeLifecycle.addEach
    cases ScopeRole.ofValue (role.getD "viewer") with
    | none => exact ⟨closed, fun _ _ => trivial⟩
    | some role =>
      refine (addMembership_runs lifecycle scopeId principalId role grantedBy none closed seen).bind fun mem added closed seen => ?_
      exact (ih closed seen).bind fun rest final closed _ => ⟨closed, fun _ _ => trivial⟩

theorem addMembers_runs (lifecycle : ScopeLifecycle) (scopeId : String) (members : List (String × Option String)) (grantedBy : String)
    (closed : Closed client state.1) :
    Runs client (lifecycle.addMembers scopeId members grantedBy) state fun _ _ => True :=
  requireMutable_runs scopeId closed fun _ closed seen => addEach_runs lifecycle scopeId grantedBy members closed seen

private theorem revoked_revoking {principalId : String} {role : Option ScopeRole} (key : TenancyKey)
    (row new : TenancyRow key) (changed : revokeMemberships scopeId principalId role key row = some new) : Revoking key new := by
  cases key with
  | membership scope principal role' =>
    simp only [revokeMemberships] at changed
    split at changed <;> cases changed
    exact ⟨fun _ same => (by cases same), rfl⟩
  | scope | projection | object => cases changed

theorem revokeMember_runs (lifecycle : ScopeLifecycle) (scopeId principalId revokedBy : String) (role : Option ScopeRole)
    (closed : Closed client state.1) :
    Runs client (lifecycle.revokeMember scopeId principalId revokedBy role) state fun _ _ => True := by
  refine requireMutable_runs scopeId closed fun found closed _ => ?_
  refine Runs.bind (Runs.quiet closed (.perform trivial)) fun rows read closed _ => ?_
  split
  · exact ⟨closed, fun _ _ => trivial⟩
  · refine (write_closed (update_writes revoked_revoking) nofun closed revoking_backed fun _ => False.elim).bind fun _ written closed _ => ?_
    exact Runs.forget (Runs.quiet closed (.bind (.forM fun row _ => record_quiet lifecycle _) fun _ => trivial))

private theorem frozen_freezing (key : TenancyKey) (row new : TenancyRow key)
    (changed : setLifecycle scopeId .deprecated key row = some new) : Freezing scopeId key new := by
  cases key with
  | scope id =>
    simp only [setLifecycle] at changed
    split at changed
    next own =>
      cases changed
      exact ⟨own, rfl⟩
    · cases changed
  | membership | projection | object => cases changed

private theorem archived_archiving (key : TenancyKey) (row new : TenancyRow key)
    (changed : setLifecycle scopeId .archived key row = some new) : Archiving scopeId key new := by
  cases key with
  | scope id =>
    simp only [setLifecycle] at changed
    split at changed
    next own =>
      cases changed
      exact ⟨own, rfl⟩
    · cases changed
  | membership | projection | object => cases changed

private theorem swept_archiving (key : TenancyKey) (row new : TenancyRow key)
    (changed : sweepMemberships scopeId key row = some new) : Archiving scopeId key new := by
  cases key with
  | membership scope principal role =>
    simp only [sweepMemberships] at changed
    split at changed <;> cases changed
    exact ⟨fun _ same => (by cases same), rfl⟩
  | scope | projection | object => cases changed

private theorem sweptProjections_archiving (key : TenancyKey) (row new : TenancyRow key)
    (changed : sweepProjections scopeId key row = some new) : Archiving scopeId key new := by
  cases key with
  | projection scope object =>
    simp only [sweepProjections] at changed
    split at changed <;> cases changed
    exact ⟨fun _ same => (by cases same), rfl⟩
  | scope | membership | object => cases changed

private theorem sweepMemberships_found (key : TenancyKey) (row : TenancyRow key)
    (own : membershipOf scopeId key) (grants : (grantedScope key row).isSome = true) :
    (sweepMemberships scopeId key row).isSome = true := by
  cases key with
  | membership scope principal role =>
    simp only [grantedScope] at grants
    split at grants
    next active =>
      simp only [sweepMemberships]
      rw [if_pos ⟨own, active⟩]
      rfl
    · cases grants
  | scope | projection | object => exact own.elim

private theorem sweepProjections_found (key : TenancyKey) (row : TenancyRow key)
    (own : projectionOf scopeId key) (grants : (grantedScope key row).isSome = true) :
    (sweepProjections scopeId key row).isSome = true := by
  cases key with
  | projection scope object =>
    simp only [grantedScope] at grants
    split at grants
    next active =>
      simp only [sweepProjections]
      rw [if_pos ⟨own, active⟩]
      rfl
    · cases grants
  | scope | membership | object => exact own.elim

theorem freezeScope_runs (lifecycle : ScopeLifecycle) (scopeId frozenBy : String)
    (closed : Closed client state.1) : Runs client (lifecycle.freezeScope scopeId frozenBy) state fun _ _ => True := by
  refine (getScopeOrRaise_runs scopeId closed).bind fun scope found closed seen => ?_
  dsimp only
  split
  · exact ⟨closed, fun _ _ => trivial⟩
  next active =>
    have unarchived : scope.isArchived = false := by
      have active : scope.lifecycle = .active := by simpa [Scope.isActive] using active
      simp [Scope.isArchived, active]
    refine Runs.bind (transaction_runs (Freezing scopeId) (· = scopeId) (fun _ _ => True) closed
      (fun _ same => same ▸ seen unarchived) fun inside within => ?_) fun _ final closed _ => ?_
    · refine (write_within (update_writes frozen_freezing) ⟨nofun, fun _ => rfl, rfl⟩ within fun _ => .inl).bind
        fun _ written within => ?_
      exact (commit_inside (freezing_backed scopeId) within).bind fun _ _ reached _ _ => ⟨reached.1, trivial⟩
    · refine Runs.bind (Runs.quiet closed (record_quiet lifecycle _)) fun _ last closed _ => ?_
      exact (getScopeOrRaise_runs scopeId closed).forget

theorem archiveScope_runs (lifecycle : ScopeLifecycle) (scopeId archivedBy : String)
    (closed : Closed client state.1) : Runs client (lifecycle.archiveScope scopeId archivedBy) state fun _ _ => True := by
  refine (getScopeOrRaise_runs scopeId closed).bind fun scope found closed _ => ?_
  dsimp only
  split
  · exact ⟨closed, fun _ _ => trivial⟩
  · refine Runs.bind (transaction_runs (Archiving scopeId) (fun _ => False) (fun _ _ => True) closed
      (fun _ => False.elim) fun inside within => ?_) fun _ final closed _ => ?_
    · refine (write_within (sweep_writes swept_archiving sweepMemberships_found) ⟨nofun, fun _ => rfl, rfl⟩ within
        fun _ => .inr).bind fun _ written within => ?_
      refine (write_within (sweep_writes sweptProjections_archiving sweepProjections_found) ⟨nofun, fun _ => rfl, rfl⟩ within
        grantOf_cases).bind fun _ written within => ?_
      refine (write_within (update_writes archived_archiving) ⟨nofun, fun _ => rfl, rfl⟩ within fun _ => .inl).bind
        fun _ written within => ?_
      exact (commit_inside (archiving_backed scopeId) within).bind fun _ _ reached _ _ => ⟨reached.1, trivial⟩
    · refine Runs.bind (Runs.quiet closed (record_quiet lifecycle _)) fun _ last closed _ => ?_
      exact (getScopeOrRaise_runs scopeId closed).forget

private theorem unprojected_revoking {objectId : String} (key : TenancyKey) (row new : TenancyRow key)
    (changed : revokeProjections scopeId objectId key row = some new) : Revoking key new := by
  cases key with
  | projection scope object =>
    simp only [revokeProjections] at changed
    split at changed <;> cases changed
    exact ⟨fun _ same => (by cases same), rfl⟩
  | scope | membership | object => cases changed

theorem writeProjection_runs (scopeId objectId projectedBy : String) (accessLevel : AccessLevel)
    (closed : Closed client state.1) (seen : Looked client scopeId state) :
    Runs client (ProjectionManager.writeProjection scopeId objectId projectedBy accessLevel) state fun _ _ => True := by
  refine Runs.bind (Runs.quiet closed (.perform trivial)) fun ts timed closed moved => ?_
  have seen := moved.looked seen
  refine Runs.bind (Runs.quiet closed (.perform trivial)) fun existing looked closed moved => ?_
  have seen := moved.looked seen
  cases existing with
  | some existing =>
    dsimp only
    split
    · exact ⟨closed, fun _ _ => trivial⟩
    · exact (write_closed (update_writes projected_granting) nofun closed (granting_backed scopeId) fun _ same => same ▸ seen).bind
        fun _ _ closed _ => ⟨closed, fun _ _ => trivial⟩
  | none =>
    refine Runs.bind (Runs.quiet closed (.perform trivial)) fun projId named closed moved => ?_
    have seen := moved.looked seen
    exact (write_closed (insert_writes rfl) nofun closed
      (granting_backed scopeId) fun _ same => same ▸ seen).bind fun _ _ closed _ => ⟨closed, fun _ _ => trivial⟩

theorem project_runs (manager : ProjectionManager) (scopeId objectId projectedBy : String) (accessLevel : AccessLevel)
    (closed : Closed client state.1) :
    Runs client (manager.project scopeId objectId projectedBy accessLevel) state fun _ _ => True := by
  refine (getScopeOrRaise_runs scopeId closed).bind fun scope found closed seen => ?_
  dsimp only
  split
  · exact ⟨closed, fun _ _ => trivial⟩
  next mutable =>
    simp only [Bool.or_eq_true, not_or, Bool.not_eq_true] at mutable
    have seen := seen mutable.2
    refine Runs.bind (Runs.quiet closed (.perform trivial)) fun owner looked closed moved => ?_
    have seen := moved.looked seen
    refine Runs.bind (Runs.quiet closed (.ofExcept _)) fun owned checked closed moved => ?_
    have seen := moved.looked seen
    refine (writeProjection_runs scopeId objectId projectedBy accessLevel closed seen).bind fun written final closed _ => ?_
    obtain ⟨proj, changed⟩ := written
    cases changed
    · exact ⟨closed, fun _ _ => trivial⟩
    · exact Runs.forget (Runs.quiet closed (.bind (manager_quiet manager _) fun _ => trivial))

theorem revokeProjection_runs (manager : ProjectionManager) (scopeId objectId revokedBy : String)
    (closed : Closed client state.1) :
    Runs client (manager.revokeProjection scopeId objectId revokedBy) state fun _ _ => True := by
  refine Runs.bind (Runs.quiet closed (.perform trivial)) fun row looked closed _ => ?_
  cases row with
  | none => exact ⟨closed, fun _ _ => trivial⟩
  | some row =>
    dsimp only
    split
    · exact ⟨closed, fun _ _ => trivial⟩
    · refine (write_closed (update_writes unprojected_revoking) nofun closed revoking_backed fun _ => False.elim).bind fun _ written closed _ => ?_
      exact Runs.forget (Runs.quiet closed (.bind (manager_quiet manager _) fun _ => trivial))

private theorem then_safe {next : Except Raised α → Program Unit} (first : Runs client program state fun _ _ => True)
    (each : ∀ result final, Closed client final.1 → dissolution.Safe noting client (fun _ _ => True) (next result) final) :
    dissolution.Safe noting client (fun _ _ => True) (program.attempt.bind next) state :=
  .bind (.attempt (first.weaken fun result final reached => each result final reached.1))

theorem Client.safe {program : Program Unit} (isClient : Client program)
    (closed : Closed client state.1) : dissolution.Safe noting client (fun _ _ => True) program state := by
  induction isClient generalizing state with
  | done => trivial
  | addMember lifecycle scopeId principalId role grantedBy expiresAt next each ih =>
    exact then_safe (addMember_runs lifecycle scopeId principalId role grantedBy expiresAt closed) fun result _ => ih result
  | addMembers lifecycle scopeId members grantedBy next each ih =>
    exact then_safe (addMembers_runs lifecycle scopeId members grantedBy closed) fun result _ => ih result
  | revokeMember lifecycle scopeId principalId revokedBy role next each ih =>
    exact then_safe (revokeMember_runs lifecycle scopeId principalId revokedBy role closed) fun result _ => ih result
  | freezeScope lifecycle scopeId frozenBy next each ih =>
    exact then_safe (freezeScope_runs lifecycle scopeId frozenBy closed) fun result _ => ih result
  | archiveScope lifecycle scopeId archivedBy next each ih =>
    exact then_safe (archiveScope_runs lifecycle scopeId archivedBy closed) fun result _ => ih result
  | project manager scopeId objectId projectedBy accessLevel next each ih =>
    exact then_safe (project_runs manager scopeId objectId projectedBy accessLevel closed) fun result _ => ih result
  | revokeProjection manager scopeId objectId revokedBy next each ih =>
    exact then_safe (revokeProjection_runs manager scopeId objectId revokedBy closed) fun result _ => ih result

omit [DecidableEq ι] in
theorem Dissolved.grants_nothing {store : Store ι} (dissolved : Dissolved store)
    (marked : archived store.tables.committed scopeId = true) (now principalId objectId : String) :
    grants store.tables.committed now scopeId principalId objectId = false := by
  unfold grants
  split
  next row found =>
    have idle := dissolved.swept scopeId marked (.projection scopeId objectId) row found
    by_cases active : row.lifecycle = .active
    · exact absurd (if_pos active) idle
    · simp [active]
  · rfl

/-- Where no archive commits between a check and what relies on it, and no grant between
a sweep and its archive, archived scopes have no active grants in any committed state,
and they stay archived. -/
theorem archived_scopes_dissolved {programs : ι → Program Unit} (clients : ∀ client, Client (programs client))
    {first : Noted ι} (closed : ∀ client, Closed client first.1) (dissolved : Dissolved first.1)
    {world : Interleaved Request Reply Raised (Noted ι) ι}
    (reached : Interleaved.Reaches noting Undisturbed ⟨first, programs⟩ world) :
    Dissolved world.state.1 ∧ ∀ scopeId, archived world.state.1.tables.committed scopeId = true →
      ∀ now principalId objectId, grants world.state.1.tables.committed now scopeId principalId objectId = false := by
  have kept : Dissolved world.state.1 :=
    (Interleaved.Reaches.safe dissolution reached Onward.refl (fun _ _ _ _ => Onward.trans) dissolved
      fun client => (clients client).safe (closed client)).1
  exact ⟨kept, fun scopeId marked => kept.grants_nothing marked⟩

end

section Sample

/-- One scope, and one object of its owner. -/
def oneScope (lifecycle : Lifecycle) : Overlay TenancyRow
  | .scope id => if id = "team" then some (⟨"team", "Team", "ann", none, lifecycle⟩ : Scope) else none
  | .object id => if id = "doc" then some "ann" else none
  | .membership _ _ _ => none
  | .projection _ _ => none

def storing (rows : Overlay TenancyRow) : Store Bool := ⟨⟨rows, fun _ => none⟩, fun _ => false, []⟩

/-- One process adds a member, the other archives the scope. -/
def addAndArchive (client : Bool) : Program Unit :=
  if client then ((⟨false⟩ : ScopeLifecycle).archiveScope "team" "ann").attempt.bind fun _ => .pure ()
  else ((⟨false⟩ : ScopeLifecycle).addMember "team" "bob" .viewer "ann" none).attempt.bind fun _ => .pure ()

theorem addAndArchive_clients (client : Bool) : Client (addAndArchive client) := by
  cases client
  · exact .addMember _ _ _ _ _ _ _ fun _ => .done
  · exact .archiveScope _ _ _ _ fun _ => .done

private def fine : Choice := ⟨none, ⟨2024, 1, 1, 0, 0, 0, 0, DateTime.newYear_bounded⟩, .repeated 1⟩

theorem storing_closed (rows : Overlay TenancyRow) (client : Bool) : Closed client (storing rows) := rfl

theorem storing_dissolved (lifecycle : Lifecycle) : Dissolved (storing (oneScope lifecycle)) := by
  constructor
  · intro scopeId _ key row found
    cases key with
    | scope id => exact nofun
    | object id => exact nofun
    | membership | projection => cases found
  · exact fun scopeId once => by cases once

private theorem unseen_runs :
    ((Interleaved.run serve (fun _ _ _ => True) ⟨storing (oneScope .active), addAndArchive⟩
      ((List.replicate 6 false ++ List.replicate 7 true ++ [false]).map (·, fine))).map fun world =>
        (archived world.state.tables.committed "team",
          (activeRoles world.state.tables.committed "team" "bob" (some .viewer)).length)) = some (true, 1) := by
  decide +kernel

/-- A grant that the sweep has not seen is committed after the archive. -/
theorem archived_scope_grants : ¬∀ (programs : Bool → Program Unit) (first : Store Bool)
    (world : Interleaved Request Reply Raised (Store Bool) Bool), (∀ client, Client (programs client)) →
      (∀ client, Closed client first) → Dissolved first →
      Interleaved.Reaches serve (fun _ _ _ => True) ⟨first, programs⟩ world → Dissolved world.state := by
  intro claim
  obtain ⟨world, ran, final⟩ := Option.map_eq_some_iff.mp unseen_runs
  obtain ⟨marked, one⟩ := Prod.mk.inj final
  have dissolved := claim addAndArchive _ world addAndArchive_clients (storing_closed _) (storing_dissolved .active)
    (Interleaved.run_reaches .start ran)
  have none : activeRoles world.state.tables.committed "team" "bob" (some .viewer) = [] := by
    refine List.filterMap_eq_nil_iff.mpr fun role _ => ?_
    split
    next row found =>
      refine if_neg fun active => ?_
      exact dissolved.swept "team" marked (.membership "team" "bob" role) row found (if_pos active.1)
    · rfl
  rw [none] at one
  cases one

private def unnoted : Notes Bool := ⟨fun _ _ => false, fun _ _ => false⟩

/-- Nobody overtakes a client that runs alone. -/
private theorem alone_undisturbed {first world : Interleaved Request Reply Raised (Store Bool × Notes Bool) Bool}
    (fresh : first.state.2 = unnoted)
    (reached : Interleaved.Reaches noting (fun client _ _ => client = false) first world) :
    Interleaved.Reaches noting Undisturbed first world ∧ (∀ scopeId, world.state.2.overtaken false scopeId = false) ∧
      ∀ key, world.state.2.landed false key = false := by
  induction reached with
  | start => exact ⟨.start, fun _ => by rw [fresh]; rfl, fun _ => by rw [fresh]; rfl⟩
  | @step world next _ client choice meets stepped ih =>
    obtain ⟨reached, overtaken, landed⟩ := ih
    have stepped' := stepped
    obtain ⟨request, rest, reply, after, suspended, answered, rfl⟩ := Interleaved.step_some stepped
    unfold Interleaved.Meets at meets
    rw [suspended] at meets
    obtain rfl : client = false := meets
    obtain ⟨-, noted⟩ := Service.noting_some answered
    refine ⟨.step reached false choice ?_ stepped', fun scopeId => ?_, fun key => ?_⟩
    · unfold Interleaved.Meets
      rw [suspended]
      exact ⟨fun _ _ scopeId _ _ => overtaken scopeId, fun scopeId _ _ _ => overtaken scopeId, fun _ _ key _ _ _ late => by
        rw [landed key] at late
        cases late⟩
    · change after.2.overtaken false scopeId = false
      rw [noted]
      simp [Notes.after, overtaken]
    · change after.2.landed false key = false
      rw [noted]
      simp [Notes.after, landed]

/-- One process adds a member, and then archives the scope. -/
def addThenArchive (client : Bool) : Program Unit :=
  if client then .pure ()
  else ((⟨false⟩ : ScopeLifecycle).addMember "team" "bob" .viewer "ann" none).attempt.bind fun _ =>
    ((⟨false⟩ : ScopeLifecycle).archiveScope "team" "ann").attempt.bind fun _ => .pure ()

theorem addThenArchive_clients (client : Bool) : Client (addThenArchive client) := by
  cases client
  · exact .addMember _ _ _ _ _ _ _ fun _ => .archiveScope _ _ _ _ fun _ => .done
  · exact .done

private theorem swept_runs :
    ((Interleaved.run noting (fun client _ _ => client = false) ⟨(storing (oneScope .active), unnoted), addThenArchive⟩
      ((List.replicate 14 false).map (·, fine))).map fun world =>
        (archived world.state.1.tables.committed "team",
          (world.state.1.tables.committed (.membership "team" "bob" .viewer)).isSome)) = some (true, true) := by
  decide +kernel

theorem archived_scopes_dissolved_swept :
    ∃ world, Interleaved.Reaches noting Undisturbed ⟨(storing (oneScope .active), unnoted), addThenArchive⟩ world ∧
      (world.state.1.tables.committed (.membership "team" "bob" .viewer)).isSome = true ∧
      archived world.state.1.tables.committed "team" = true ∧
      ∀ now, grants world.state.1.tables.committed now "team" "bob" "doc" = false := by
  obtain ⟨world, ran, final⟩ := Option.map_eq_some_iff.mp swept_runs
  obtain ⟨marked, member⟩ := Prod.mk.inj final
  have reached := (alone_undisturbed rfl (Interleaved.run_reaches .start ran)).1
  obtain ⟨-, nothing⟩ :=
    archived_scopes_dissolved addThenArchive_clients (storing_closed _) (storing_dissolved .active) reached
  exact ⟨world, reached, member, marked, fun now => nothing "team" marked now "bob" "doc"⟩

end Sample

end PyScoped.Legacy.Tenancy
