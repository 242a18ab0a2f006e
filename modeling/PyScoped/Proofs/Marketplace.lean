import PyScoped.Legacy.Marketplace

/-! Listings only move forward. An UPDATE checks nothing, so versions increase and
removals last where it finds what its call has read; what calls read of a removal
or of a private listing holds on, because no listing becomes active again. -/

namespace PyScoped.Legacy.Marketplace
open Foundation

/-- Both versions can be read, and the second is above the first. -/
def above (int : String → Option Int) (old new : String) : Bool :=
  match MarketplacePublisher.parseSemver int old, MarketplacePublisher.parseSemver int new with
  | .ok first, .ok second => MarketplacePublisher.below first second
  | _, _ => false

theorem above_iff {int : String → Option Int} {old new : String} : above int old new = true ↔
    ∃ first second, MarketplacePublisher.parseSemver int old = .ok first ∧
      MarketplacePublisher.parseSemver int new = .ok second ∧ MarketplacePublisher.below first second = true := by
  unfold above
  split
  next first second parsed parsed' =>
    constructor
    · exact fun lower => ⟨first, second, parsed, parsed', lower⟩
    · rintro ⟨_, _, same, same', lower⟩
      cases parsed.symm.trans same
      cases parsed'.symm.trans same'
      exact lower
  next unread =>
    refine ⟨nofun, ?_⟩
    rintro ⟨first, second, parsed, parsed', -⟩
    exact absurd parsed' (unread first second parsed)

theorem below_trans {first second third : Int × Int × Int} (one : MarketplacePublisher.below first second = true)
    (two : MarketplacePublisher.below second third = true) : MarketplacePublisher.below first third = true := by
  simp only [MarketplacePublisher.below, Bool.or_eq_true, Bool.and_eq_true, decide_eq_true_eq] at one two ⊢
  omega

theorem above_trans {int : String → Option Int} {old mid new : String} (one : above int old mid = true)
    (two : above int mid new = true) : above int old new = true := by
  obtain ⟨first, second, parsed, parsed', lower⟩ := above_iff.mp one
  obtain ⟨second', third, same, parsed'', lower'⟩ := above_iff.mp two
  cases parsed'.symm.trans same
  exact above_iff.mpr ⟨first, third, parsed, parsed'', below_trans lower lower'⟩

def Call.isInstall : Call → Bool
  | .install _ _ _ _ _ => true
  | _ => false

section Histories

variable {ι : Type}

/-- A removal of the listing has returned. -/
def Removed (listingId : String) (history : List (Event ι)) : Prop :=
  ∃ client actorId, .returned client (.remove listingId actorId) ∈ history

/-- The versions that were committed for a listing, the latest first. -/
def committed (listingId : String) (history : List (Event ι)) : List String :=
  history.filterMap fun
    | .versioned _ other version => if other = listingId then some version else none
    | _ => none

theorem Removed.cons {listingId : String} {event : Event ι} {history : List (Event ι)}
    (plain : ∀ client call, event ≠ .returned client call) :
    Removed listingId (event :: history) ↔ Removed listingId history := by
  constructor
  · rintro ⟨client, actorId, member⟩
    rcases List.mem_cons.mp member with same | earlier
    · exact absurd same.symm (plain client _)
    · exact ⟨client, actorId, earlier⟩
  · rintro ⟨client, actorId, member⟩
    exact ⟨client, actorId, List.mem_cons_of_mem _ member⟩

variable [DecidableEq ι]

/-- What had happened before a client's call began. -/
def beforeCall (client : ι) : List (Event ι) → List (Event ι)
  | [] => []
  | .began other _ _ :: earlier => if other = client then earlier else beforeCall client earlier
  | _ :: earlier => beforeCall client earlier

/-- The call of a client that has neither returned nor raised. -/
def inProgress (client : ι) : List (Event ι) → Option Call
  | [] => none
  | .began other call _ :: earlier => if other = client then some call else inProgress client earlier
  | .returned other _ :: earlier => if other = client then none else inProgress client earlier
  | .raised other _ :: earlier => if other = client then none else inProgress client earlier
  | _ :: earlier => inProgress client earlier

/-- The listing was private when the client's call began, and always since. -/
def PrivateSince (client : ι) (listingId : String) : List (Event ι) → Prop
  | [] => False
  | .began other _ listings :: earlier =>
    if other = client then (listings.find listingId).map MarketplaceListing.visibility = some .private
    else PrivateSince client listingId earlier
  | .shown other visibility :: earlier => (other = listingId → visibility = .private) ∧ PrivateSince client listingId earlier
  | _ :: earlier => PrivateSince client listingId earlier

/-- What is recorded of a listing whose removal had returned before the call began,
and of one that has been private since before it began. -/
def Respects (publisher : String → Option String) (earlier : List (Event ι)) : Event ι → Prop
  | .versioned client listingId _ => ¬ Removed listingId (beforeCall client earlier)
  | .installed client listingId installerId => ¬ Removed listingId (beforeCall client earlier) ∧
    (PrivateSince client listingId earlier → publisher listingId = some installerId)
  | _ => True

/-- Every event respects what had happened before it. -/
def Respectful (publisher : String → Option String) : List (Event ι) → Prop
  | [] => True
  | event :: earlier => Respects publisher earlier event ∧ Respectful publisher earlier

theorem Removed.of_before {listingId : String} {client : ι} {history : List (Event ι)}
    (removed : Removed listingId (beforeCall client history)) : Removed listingId history := by
  induction history with
  | nil => exact removed
  | cons event earlier ih =>
    have onward : Removed listingId earlier → Removed listingId (event :: earlier) :=
      fun ⟨other, actorId, member⟩ => ⟨other, actorId, List.mem_cons_of_mem _ member⟩
    apply onward
    cases event with
    | began other call listings =>
      unfold beforeCall at removed
      split at removed
      · exact removed
      · exact ih removed
    | returned | raised | versioned | shown | installed => exact ih removed

end Histories

section Tables

variable {ι : Type}

/-- A column of a listing. -/
def Store.column {β : Type} (store : Store ι) (field : MarketplaceListing → β) (listingId : String) : Option β :=
  (store.listings.find listingId).map field

/-- The rows of the installs of a listing. -/
def Store.installsOf (store : Store ι) (listingId : String) : List MarketplaceInstall :=
  store.installs.list.filter fun install => install.listingId = listingId

/-- The rows of a listing are changed. -/
def Amends (listingId : String) (change : MarketplaceListing → MarketplaceListing) (before after : Store ι) : Prop :=
  ∃ keeps, after.listings = before.listings.update (·.id = listingId) change keeps

theorem Amends.column {β : Type} {listingId : String} {change : MarketplaceListing → MarketplaceListing}
    {before after : Store ι} (amends : Amends listingId change before after) (field : MarketplaceListing → β) (other : String) :
    after.column field other =
      if other = listingId then before.column (fun row => field (change row)) other else before.column field other := by
  obtain ⟨keeps, same⟩ := amends
  unfold Store.column
  rw [same, Rows.find_update]
  cases found : before.listings.find other with
  | none => split <;> rfl
  | some row =>
    have same : row.id = other := (Rows.find_eq_some.mp found).2
    simp only [Option.map_some, same, decide_eq_true_eq]
    split <;> rfl

theorem Amends.same {β : Type} {listingId : String} {change : MarketplaceListing → MarketplaceListing}
    {before after : Store ι} (amends : Amends listingId change before after) (field : MarketplaceListing → β)
    (still : ∀ row, field (change row) = field row) (other : String) : after.column field other = before.column field other := by
  rw [amends.column]
  simp only [still, ite_self]

end Tables

/-- What has been stated of the listings holds in a store, with those of the first one. -/
structure Forward {ι : Type} [DecidableEq ι] (int : String → Option Int) (first store : Store ι) : Prop where
  increasing : ∀ row ∈ first.listings.list,
    (committed row.id store.history ++ [row.version]).Pairwise fun later earlier => above int earlier later = true
  archived : ∀ listingId, Removed listingId store.history →
    store.column MarketplaceListing.lifecycle listingId = some .archived
  respectful : ∀ later event earlier, store.history = later ++ event :: earlier →
    Respects (first.column MarketplaceListing.publisherId) earlier event

/-- Each listing counts its installs. -/
def Counted {ι : Type} (store : Store ι) : Prop :=
  ∀ row ∈ store.listings.list, row.downloadCount = (store.installsOf row.id).length

/-- An UPDATE finds what its call has read: a version sets off from the one that is
there, or is above it all the same, and no archived listing is deprecated. -/
def AsRead {ι : Type} (int : String → Option Int) (store : Store ι) : Request → Prop
  | .setVersion listingId version _ _ found =>
    ∀ row ∈ store.listings.find listingId, row.version = found ∨ above int row.version version = true
  | .setLifecycle listingId lifecycle _ =>
    ∀ row ∈ store.listings.find listingId, row.lifecycle = .archived → lifecycle = .archived
  | _ => True

instance {ι : Type} (int : String → Option Int) (store : Store ι) (request : Request) : Decidable (AsRead int store request) := by
  unfold AsRead
  split <;> infer_instance

variable {ι : Type} [DecidableEq ι] {int : String → Option Int} {first store : Store ι}

/-- What the clients keep: what has been stated, and what it depends on. Publishers
stay; the version that is there is the last one committed; what is private to a call
is private; what is not counted yet belongs to an install in progress. -/
structure Kept (int : String → Option Int) (first store : Store ι) : Prop where
  publishers : ∀ listingId, store.column MarketplaceListing.publisherId listingId =
    first.column MarketplaceListing.publisherId listingId
  versions : ∀ row ∈ first.listings.list, store.column MarketplaceListing.version row.id =
    (committed row.id store.history ++ [row.version]).head?
  increasing : ∀ row ∈ first.listings.list,
    (committed row.id store.history ++ [row.version]).Pairwise fun later earlier => above int earlier later = true
  archived : ∀ listingId, Removed listingId store.history →
    store.column MarketplaceListing.lifecycle listingId = some .archived
  shielded : ∀ client listingId, PrivateSince client listingId store.history →
    store.column MarketplaceListing.visibility listingId = some .private
  respectful : Respectful (first.column MarketplaceListing.publisherId) store.history
  counted : ∀ listingId count, store.column MarketplaceListing.downloadCount listingId = some count →
    (store.installsOf listingId).length = count + (store.uncounted.filter fun pair => pair.2 = listingId).length
  installing : ∀ pair ∈ store.uncounted, ∃ call, inProgress pair.1 store.history = some call ∧ call.isInstall = true

/-- What a client relies on: its own call is as it was, nothing becomes private behind
its back, and no listing comes back from the archive. -/
structure Undisturbed (client : ι) (before after : Store ι) : Prop where
  since : beforeCall client after.history = beforeCall client before.history
  progress : inProgress client after.history = inProgress client before.history
  exposed : ∀ listingId, PrivateSince client listingId after.history → PrivateSince client listingId before.history
  archived : ∀ listingId, before.column MarketplaceListing.lifecycle listingId = some .archived →
    after.column MarketplaceListing.lifecycle listingId = some .archived
  uncounted : (after.uncounted.filter fun pair => pair.1 = client) = before.uncounted.filter fun pair => pair.1 = client

theorem Undisturbed.refl (client : ι) (store : Store ι) : Undisturbed client store store :=
  ⟨rfl, rfl, fun _ held => held, fun _ held => held, rfl⟩

variable {after before : Store ι} {client : ι}

theorem Undisturbed.trans {mid : Store ι} (one : Undisturbed client before mid)
    (two : Undisturbed client mid after) : Undisturbed client before after :=
  ⟨two.since.trans one.since, two.progress.trans one.progress, fun listingId held => one.exposed listingId (two.exposed listingId held),
    fun listingId held => two.archived listingId (one.archived listingId held), two.uncounted.trans one.uncounted⟩

theorem Kept.starting (fresh : first.history = []) (settled : first.uncounted = []) (counted : Counted first) :
    Kept int first first where
  publishers _ := rfl
  versions row member := by
    rw [fresh]
    exact congrArg (Option.map MarketplaceListing.version) (Rows.find_mem member)
  increasing row _ := by
    rw [fresh]
    exact List.pairwise_singleton _ _
  archived listingId removed := by
    obtain ⟨client, actorId, member⟩ := removed
    rw [fresh] at member
    cases member
  shielded client listingId held := by
    rw [fresh] at held
    exact held.elim
  respectful := by
    rw [fresh]
    trivial
  counted listingId count held := by
    obtain ⟨row, found, rfl⟩ := Option.map_eq_some_iff.mp held
    obtain ⟨member, rfl⟩ := Rows.find_eq_some.mp found
    rw [settled]
    exact (counted row member).symm
  installing pair member := by
    rw [settled] at member
    cases member

theorem Kept.settled (kept : Kept int first store)
    (quiet : ∀ client call, inProgress client store.history = some call → call.isInstall = false) : Counted store := by
  intro row member
  have none : store.uncounted = [] := by
    apply List.eq_nil_iff_forall_not_mem.mpr
    intro pair inside
    obtain ⟨call, progress, installs⟩ := kept.installing pair inside
    rw [quiet pair.1 call progress] at installs
    cases installs
  have counted := kept.counted row.id row.downloadCount (congrArg (Option.map MarketplaceListing.downloadCount) (Rows.find_mem member))
  rw [none] at counted
  exact counted.symm

variable {history : List (Event ι)}

theorem Respectful.split {publisher : String → Option String}
    (respectful : Respectful publisher history) (later : List (Event ι)) (event : Event ι) (earlier : List (Event ι))
    (split : history = later ++ event :: earlier) : Respects publisher earlier event := by
  induction later generalizing history with
  | nil =>
    subst split
    exact respectful.1
  | cons _ later ih =>
    subst split
    exact ih respectful.2 rfl

theorem Kept.forward (kept : Kept int first store) : Forward int first store :=
  ⟨kept.increasing, kept.archived, kept.respectful.split⟩

variable {version : String}

theorem above_all {versions : List String} {current : String}
    (increasing : versions.Pairwise fun later earlier => above int earlier later = true)
    (head : versions.head? = some current) (higher : above int current version = true) :
    ∀ earlier ∈ versions, above int earlier version = true := by
  cases versions with
  | nil => nofun
  | cons last versions =>
    cases head
    obtain ⟨below, -⟩ := List.pairwise_cons.mp increasing
    refine List.forall_mem_cons.mpr ⟨higher, fun earlier member => ?_⟩
    exact above_trans (below earlier member) higher

variable {listingId : String}

omit [DecidableEq ι] in
theorem Store.noted_present {event : Event ι} {row : MarketplaceListing}
    (present : store.listings.find listingId = some row) : store.noted listingId event = event :: store.history := by
  unfold noted
  rw [present]
  rfl

omit [DecidableEq ι] in
theorem committed_other {other : String} (foreign : other ≠ listingId) :
    committed other (.versioned client listingId version :: history) = committed other history := by
  unfold committed
  rw [List.filterMap_cons]
  simp only [if_neg foreign.symm]

omit [DecidableEq ι] in
theorem committed_own :
    committed listingId (.versioned client listingId version :: history) = version :: committed listingId history := by
  unfold committed
  rw [List.filterMap_cons]
  simp only [if_true]

/-- A version is committed above the one that is there, by a call that began before
any removal had returned. -/
theorem Kept.setVersion (kept : Kept int first store) {found : String}
    {configTemplate : Option Json} {updatedAt : Moment} {row : MarketplaceListing}
    (present : store.listings.find listingId = some row)
    (asRead : AsRead int store (.setVersion listingId version configTemplate updatedAt found))
    (higher : above int found version = true) (unremoved : ¬ Removed listingId (beforeCall client store.history)) :
    Kept int first (store.setVersion client listingId version configTemplate updatedAt) ∧
      ∀ other, Undisturbed other store (store.setVersion client listingId version configTemplate updatedAt) := by
  have onward : above int row.version version = true := by
    rcases asRead row present with same | above
    · rwa [same]
    · exact above
  have history : (store.setVersion client listingId version configTemplate updatedAt).history =
      .versioned client listingId version :: store.history := Store.noted_present present
  have amends : Amends listingId (fun row => row.versioned version configTemplate updatedAt) store
      (store.setVersion client listingId version configTemplate updatedAt) := ⟨fun _ => rfl, rfl⟩
  constructor
  · constructor
    case publishers => exact fun other => (amends.same _ (fun _ => rfl) other).trans (kept.publishers other)
    case versions =>
      intro published member
      rw [amends.column, history]
      split
      next same =>
        rw [same, committed_own]
        unfold Store.column
        rw [present]
        rfl
      next foreign =>
        rw [committed_other foreign]
        exact kept.versions published member
    case increasing =>
      intro published member
      rw [history]
      have increasing := kept.increasing published member
      by_cases same : published.id = listingId
      · have head := kept.versions published member
        unfold Store.column at head
        rw [same] at head increasing ⊢
        rw [present] at head
        rw [committed_own]
        exact List.pairwise_cons.mpr ⟨above_all increasing head.symm onward, increasing⟩
      · rwa [committed_other same]
    case archived =>
      intro other removed
      rw [history] at removed
      exact (amends.same _ (fun _ => rfl) other).trans (kept.archived other ((Removed.cons fun _ _ same => by cases same).mp removed))
    case shielded =>
      intro holder other held
      rw [history] at held
      exact (amends.same _ (fun _ => rfl) other).trans (kept.shielded holder other held)
    case respectful =>
      rw [history]
      exact ⟨unremoved, kept.respectful⟩
    case counted =>
      intro other count held
      exact kept.counted other count ((amends.same _ (fun _ => rfl) other).symm.trans held)
    case installing =>
      rw [history]
      exact kept.installing
  · intro other
    constructor
    case since =>
      rw [history]
      rfl
    case progress =>
      rw [history]
      rfl
    case exposed =>
      intro another held
      rwa [history] at held
    case archived => exact fun another held => (amends.same _ (fun _ => rfl) another).trans held
    case uncounted => rfl

/-- A lifecycle is set, of a listing that is not brought back from the archive. -/
theorem Kept.setLifecycle (kept : Kept int first store) {lifecycle : Lifecycle} {updatedAt : Moment}
    (asRead : AsRead int store (.setLifecycle listingId lifecycle updatedAt)) :
    Kept int first (store.setLifecycle listingId lifecycle updatedAt) ∧
      ∀ other, Undisturbed other store (store.setLifecycle listingId lifecycle updatedAt) := by
  have amends : Amends listingId (fun row => row.moved lifecycle updatedAt) store
      (store.setLifecycle listingId lifecycle updatedAt) := ⟨fun _ => rfl, rfl⟩
  have archived : ∀ other, store.column MarketplaceListing.lifecycle other = some .archived →
      (store.setLifecycle listingId lifecycle updatedAt).column MarketplaceListing.lifecycle other = some .archived := by
    intro other held
    rw [amends.column]
    split
    next same =>
      subst other
      obtain ⟨row, present, gone⟩ := Option.map_eq_some_iff.mp held
      have stays := asRead row present gone
      unfold Store.column
      rw [present]
      exact congrArg some stays
    · exact held
  refine ⟨?_, fun other => ⟨rfl, rfl, fun _ held => held, archived, rfl⟩⟩
  constructor
  case publishers => exact fun other => (amends.same _ (fun _ => rfl) other).trans (kept.publishers other)
  case versions =>
    intro published member
    exact (amends.same _ (fun _ => rfl) published.id).trans (kept.versions published member)
  case increasing => exact kept.increasing
  case archived => exact fun other removed => archived other (kept.archived other removed)
  case shielded => exact fun holder other held => (amends.same _ (fun _ => rfl) other).trans (kept.shielded holder other held)
  case respectful => exact kept.respectful
  case counted =>
    intro other count held
    exact kept.counted other count ((amends.same _ (fun _ => rfl) other).symm.trans held)
  case installing => exact kept.installing

theorem Kept.setVisibility (kept : Kept int first store) {visibility : Visibility} {updatedAt : Moment}
    {row : MarketplaceListing} (present : store.listings.find listingId = some row) :
    Kept int first (store.setVisibility listingId visibility updatedAt) ∧
      ∀ other, Undisturbed other store (store.setVisibility listingId visibility updatedAt) := by
  have history : (store.setVisibility listingId visibility updatedAt).history =
      .shown listingId visibility :: store.history := Store.noted_present present
  have amends : Amends listingId (fun row => row.shown visibility updatedAt) store
      (store.setVisibility listingId visibility updatedAt) := ⟨fun _ => rfl, rfl⟩
  constructor
  · constructor
    case publishers => exact fun other => (amends.same _ (fun _ => rfl) other).trans (kept.publishers other)
    case versions =>
      intro published member
      rw [history]
      exact (amends.same _ (fun _ => rfl) published.id).trans (kept.versions published member)
    case increasing =>
      rw [history]
      exact kept.increasing
    case archived =>
      intro other removed
      rw [history] at removed
      exact (amends.same _ (fun _ => rfl) other).trans (kept.archived other ((Removed.cons fun _ _ same => by cases same).mp removed))
    case shielded =>
      intro holder other held
      rw [history] at held
      rw [amends.column]
      split
      next same =>
        have stays := held.1 same.symm
        unfold Store.column
        rw [same, present]
        exact congrArg some stays
      · exact kept.shielded holder other held.2
    case respectful =>
      rw [history]
      exact ⟨trivial, kept.respectful⟩
    case counted =>
      intro other count held
      exact kept.counted other count ((amends.same _ (fun _ => rfl) other).symm.trans held)
    case installing =>
      rw [history]
      exact kept.installing
  · intro other
    constructor
    case since =>
      rw [history]
      rfl
    case progress =>
      rw [history]
      rfl
    case exposed =>
      intro another held
      rw [history] at held
      exact held.2
    case archived => exact fun another held => (amends.same _ (fun _ => rfl) another).trans held
    case uncounted => rfl

/-- An install is inserted by a call that began before any removal had returned, and
of a private listing by its publisher. -/
theorem Kept.installed (kept : Kept int first store) {install : MarketplaceInstall} {installs : InstallTable}
    (inserted : store.installs.insert install = some installs) {made : Call}
    (progress : inProgress client store.history = some made) (isInstall : made.isInstall = true)
    (unremoved : ¬ Removed install.listingId (beforeCall client store.history))
    (shown : PrivateSince client install.listingId store.history →
      first.column MarketplaceListing.publisherId install.listingId = some install.installerId) :
    Kept int first (store.installed client install installs) ∧
      ∀ other, other ≠ client → Undisturbed other store (store.installed client install installs) := by
  constructor
  · constructor
    case publishers => exact kept.publishers
    case versions => exact kept.versions
    case increasing => exact kept.increasing
    case archived => exact fun other removed => kept.archived other ((Removed.cons fun _ _ same => by cases same).mp removed)
    case shielded => exact kept.shielded
    case respectful => exact ⟨⟨unremoved, shown⟩, kept.respectful⟩
    case counted =>
      intro other count held
      have before := kept.counted other count held
      unfold Store.installsOf at before ⊢
      change (installs.list.filter _).length = count + (((client, install.listingId) :: store.uncounted).filter _).length
      rw [(Rows.insert_eq_some inserted).2, List.filter_append, List.length_append, before, List.filter_cons, List.filter_cons,
        List.filter_nil]
      by_cases same : install.listingId = other
      · simp only [same, decide_true, if_true, List.length_cons, List.length_nil]
        omega
      · simp only [same, decide_false, Bool.false_eq_true, if_false, List.length_nil]
        omega
    case installing =>
      intro pair member
      rcases List.mem_cons.mp member with rfl | earlier
      · exact ⟨made, progress, isInstall⟩
      · exact kept.installing pair earlier
  · intro other foreign
    refine ⟨rfl, rfl, fun _ held => held, fun _ held => held, ?_⟩
    exact List.filter_cons_of_neg (by simpa using foreign.symm)

/-- An install that is inserted is counted. -/
theorem Kept.incrementDownloads (kept : Kept int first store) (owed : (client, listingId) ∈ store.uncounted) :
    Kept int first (store.incrementDownloads client listingId) ∧
      ∀ other, other ≠ client → Undisturbed other store (store.incrementDownloads client listingId) := by
  have amends : Amends listingId MarketplaceListing.downloaded store (store.incrementDownloads client listingId) :=
    ⟨fun _ => rfl, rfl⟩
  constructor
  · constructor
    case publishers =>
      intro other
      exact (amends.same _ (fun _ => rfl) other).trans (kept.publishers other)
    case versions =>
      intro published member
      exact (amends.same _ (fun _ => rfl) published.id).trans (kept.versions published member)
    case increasing => exact kept.increasing
    case archived =>
      intro other removed
      exact (amends.same _ (fun _ => rfl) other).trans (kept.archived other removed)
    case shielded =>
      intro holder other held
      exact (amends.same _ (fun _ => rfl) other).trans (kept.shielded holder other held)
    case respectful => exact kept.respectful
    case counted =>
      intro other count held
      replace held := (amends.column _ other).symm.trans held
      change (store.installsOf other).length = count + ((store.uncounted.erase (client, listingId)).filter _).length
      rw [← List.erase_filter]
      split at held
      next same =>
        subst other
        obtain ⟨row, present, rfl⟩ := Option.map_eq_some_iff.mp held
        have before := kept.counted listingId row.downloadCount (congrArg (Option.map MarketplaceListing.downloadCount) present)
        have inside : (client, listingId) ∈ store.uncounted.filter fun pair => pair.2 = listingId :=
          List.mem_filter.mpr ⟨owed, decide_eq_true rfl⟩
        have filled := List.length_pos_of_mem inside
        have more : row.downloaded.downloadCount = row.downloadCount + 1 := rfl
        rw [before, List.length_erase_of_mem inside]
        omega
      next foreign =>
        rw [List.erase_of_not_mem]
        · exact kept.counted other count held
        · intro inside
          exact foreign (of_decide_eq_true (List.mem_filter.mp inside).2).symm
    case installing => exact fun pair member => kept.installing pair (List.mem_of_mem_erase member)
  · intro other foreign
    refine ⟨rfl, rfl, fun _ held => held, fun another held => ?_, ?_⟩
    · exact (amends.same _ (fun _ => rfl) another).trans held
    · change ((store.uncounted.erase (client, listingId)).filter _) = _
      rw [← List.erase_filter, List.erase_of_not_mem]
      intro inside
      exact foreign (of_decide_eq_true (List.mem_filter.mp inside).2).symm

theorem Kept.enter (kept : Kept int first store) (made : Call)
    (idle : (store.uncounted.filter fun pair => pair.1 = client) = []) :
    Kept int first { store with history := .began client made store.listings :: store.history } ∧
      ∀ other, other ≠ client →
        Undisturbed other store { store with history := .began client made store.listings :: store.history } := by
  constructor
  · refine ⟨kept.publishers, kept.versions, kept.increasing, fun other removed => ?_, fun holder other held => ?_,
      ⟨trivial, kept.respectful⟩, kept.counted, fun pair member => ?_⟩
    · exact kept.archived other ((Removed.cons fun _ _ same => by cases same).mp removed)
    · change (if client = holder then _ else PrivateSince holder other store.history) at held
      split at held
      · exact held
      · exact kept.shielded holder other held
    · have foreign : client ≠ pair.1 := by
        rintro rfl
        exact List.filter_eq_nil_iff.mp idle pair member (decide_eq_true rfl)
      change ∃ call, (if client = pair.1 then some made else inProgress pair.1 store.history) = some call ∧ _
      rw [if_neg foreign]
      exact kept.installing pair member
  · intro other foreign
    refine ⟨if_neg foreign.symm, if_neg foreign.symm, fun listingId held => ?_, fun _ held => held, rfl⟩
    change (if client = other then _ else PrivateSince other listingId store.history) at held
    rwa [if_neg foreign.symm] at held

/-- A call returns or raises, and a removal that returns has archived its listing. -/
theorem Kept.leave (kept : Kept int first store) {made : Call}
    (idle : (store.uncounted.filter fun pair => pair.1 = client) = []) (returned : Bool)
    (removed : returned = true → ∀ listingId actorId, made = .remove listingId actorId →
      store.column MarketplaceListing.lifecycle listingId = some .archived) (event : Event ι)
    (told : event = if returned then .returned client made else .raised client made) :
    Kept int first { store with history := event :: store.history } ∧
      ∀ other, other ≠ client → Undisturbed other store { store with history := event :: store.history } := by
  have progress : ∀ other, inProgress other (event :: store.history) =
      if client = other then none else inProgress other store.history := by
    intro other
    rw [told]
    cases returned <;> rfl
  have since : ∀ other, beforeCall other (event :: store.history) = beforeCall other store.history := by
    intro other
    rw [told]
    cases returned <;> rfl
  have shown : ∀ other listingId, PrivateSince other listingId (event :: store.history) = PrivateSince other listingId store.history := by
    intro other listingId
    rw [told]
    cases returned <;> rfl
  have same : ∀ listingId, committed listingId (event :: store.history) = committed listingId store.history := by
    intro listingId
    rw [told]
    cases returned <;> rfl
  constructor
  · constructor
    case publishers => exact kept.publishers
    case versions =>
      intro published member
      rw [same]
      exact kept.versions published member
    case increasing =>
      intro published member
      rw [same]
      exact kept.increasing published member
    case archived =>
      rintro listingId ⟨other, actorId, member⟩
      rcases List.mem_cons.mp member with head | earlier
      · cases returned with
        | false =>
          rw [told] at head
          cases head
        | true =>
          rw [told] at head
          cases head
          exact removed rfl listingId actorId rfl
      · exact kept.archived listingId ⟨other, actorId, earlier⟩
    case shielded =>
      intro holder other held
      rw [shown] at held
      exact kept.shielded holder other held
    case respectful =>
      refine ⟨?_, kept.respectful⟩
      rw [told]
      cases returned <;> trivial
    case counted => exact kept.counted
    case installing =>
      intro pair member
      have foreign : client ≠ pair.1 := by
        rintro rfl
        exact List.filter_eq_nil_iff.mp idle pair member (decide_eq_true rfl)
      rw [progress, if_neg foreign]
      exact kept.installing pair member
  · intro other foreign
    refine ⟨since other, (progress other).trans (if_neg foreign.symm), fun listingId held => ?_, fun _ held => held, rfl⟩
    rwa [shown] at held

/-- A statement that only asks. -/
def Request.Quiet : Request → Prop
  | .fetch _ | .evaluate _ _ _ | .now | .generateId | .record _ => True
  | _ => False

def contract (int : String → Option Int) (first : Store ι) : Contract Request (Store ι) ι where
  kept := Kept int first
  rely := Undisturbed
  allowed _ := AsRead int

theorem serve_quiet {choice : Choice} {request : Request} {reply : Except Raised (Reply request)}
    (quiet : request.Quiet) (answered : serve client choice store request = some (reply, after)) :
    after = store := by
  cases request with
  | fetch | now | generateId =>
    cases answered
    rfl
  | evaluate | record =>
    unfold serve at answered
    dsimp only at answered
    split at answered <;> (cases answered; rfl)
  | setVersion | setLifecycle | setVisibility | insertInstall | incrementDownloads | enter | leave => exact quiet.elim

theorem quiet_safe {α : Type} {program : Program α} (only : program.Only Request.Quiet) :
    (contract int first).Safe serve client (fun _ final => Undisturbed client store final) program store := by
  refine (Contract.Safe.only (Undisturbed.refl client) (fun _ _ _ => Undisturbed.trans) ?_ only (Prog.Returns.trivial program)).weaken
    fun _ _ reached => reached.1
  intro request choice now reply after quiet kept _ answered
  rw [serve_quiet quiet answered]
  exact ⟨kept, fun other => .refl other now⟩

/-- The client is amid a call, and has counted what it has inserted. -/
structure Amid (client : ι) (made : Call) (store : Store ι) : Prop where
  progress : inProgress client store.history = some made
  counted : (store.uncounted.filter fun pair => pair.1 = client) = []

theorem Amid.moved {made : Call} (amid : Amid client made before)
    (moved : Undisturbed client before after) : Amid client made after :=
  ⟨moved.progress.trans amid.progress, moved.uncounted.trans amid.counted⟩

/-- What a client knows of a listing that its call has read. -/
structure Known (first : Store ι) (client : ι) (listingId : String) (listing : MarketplaceListing) (store : Store ι) : Prop where
  published : first.column MarketplaceListing.publisherId listingId = some listing.publisherId
  unremoved : listing.lifecycle = .active → ¬ Removed listingId (beforeCall client store.history)
  exposed : listing.visibility ≠ .private → ¬ PrivateSince client listingId store.history

variable {listing : MarketplaceListing}

theorem Known.moved (known : Known first client listingId listing before) (moved : Undisturbed client before after) :
    Known first client listingId listing after where
  published := known.published
  unremoved active removed := known.unremoved active (moved.since ▸ removed)
  exposed visible held := known.exposed visible (moved.exposed listingId held)

theorem Known.present (known : Known first client listingId listing before) (kept : Kept int first store) :
    ∃ row, store.listings.find listingId = some row := by
  obtain ⟨row, present, -⟩ := Option.map_eq_some_iff.mp ((kept.publishers listingId).trans known.published)
  exact ⟨row, present⟩

theorem Kept.known (kept : Kept int first store) (client : ι)
    (found : store.listings.find listingId = some listing) : Known first client listingId listing store := by
  constructor
  · rw [← kept.publishers]
    exact congrArg (Option.map MarketplaceListing.publisherId) found
  · intro active removed
    have gone := kept.archived listingId removed.of_before
    unfold Store.column at gone
    rw [found] at gone
    have same := Option.some.inj gone
    rw [active] at same
    cases same
  · intro visible held
    have hidden := kept.shielded client listingId held
    unfold Store.column at hidden
    rw [found] at hidden
    exact visible (Option.some.inj hidden)

theorem fetch_safe (listingId : String) :
    (contract int first).Safe serve client (fun result final => Undisturbed client store final ∧
      ∀ listing, result = .ok (some listing) → Known first client listingId listing final)
      (Prog.perform (Request.fetch listingId)) store := by
  apply Contract.Safe.perform
  intro now kept moved _ choice reply after answered
  cases answered
  refine ⟨kept, fun other _ => .refl other now, moved, fun listing same => ?_⟩
  exact kept.known client (Except.ok.inj same)

theorem getListingOrRaise_safe (listingId : String) :
    (contract int first).Safe serve client (fun result final => Undisturbed client store final ∧
      ∀ listing, result = .ok listing → Known first client listingId listing final)
      (MarketplacePublisher.getListingOrRaise listingId) store := by
  apply Contract.Safe.bind
  refine (fetch_safe listingId).weaken fun result final reached => ?_
  obtain ⟨moved, known⟩ := reached
  cases result with
  | error error => exact ⟨moved, fun _ same => by cases same⟩
  | ok row =>
    cases row with
    | none => exact ⟨moved, fun _ same => by cases same⟩
    | some listing =>
      refine ⟨moved, fun other same => ?_⟩
      cases same
      exact known listing rfl

theorem record_quiet (wiring : Wiring) (trace : Trace) : (record wiring trace).Only Request.Quiet := by
  obtain ⟨audit, ruleEngine, int⟩ := wiring
  cases audit with
  | false => trivial
  | true => exact Prog.Only.perform trivial

theorem checkRule_quiet (wiring : Wiring) (action principalId objectId : String) :
    (checkRule wiring action principalId objectId).Only Request.Quiet := by
  unfold checkRule
  by_cases wired : wiring.ruleEngine = true
  · rw [if_pos wired]
    apply Prog.Only.bind (Prog.Only.perform trivial)
    intro result
    split <;> trivial
  · rw [if_neg wired]
    trivial

/-- A call of a publisher: it has nothing to count, and what it returns with has come about. -/
def Concludes {α : Type} (client : ι) (made : Call) (landed : Store ι → Prop) (result : Except Raised α) (final : Store ι) :
    Prop := Amid client made final ∧ ((∃ value, result = .ok value) → landed final)

omit [DecidableEq ι] in
theorem not_ok {α : Type} {error : Raised} : ¬ ∃ value : α, Except.error error = .ok value := by
  rintro ⟨value, same⟩
  cases same

variable {landed : Store ι → Prop} {actorId : String}

theorem publisher_safe {made : Call}
    {next : MarketplaceListing → Program MarketplaceListing} (amid : Amid client made store)
    (goes : ∀ listing now, Amid client made now → Known first client listingId listing now →
      (contract int first).Safe serve client (Concludes client made landed) (next listing) now) :
    (contract int first).Safe serve client (Concludes client made landed)
      (do
        let listing ← MarketplacePublisher.getListingOrRaise listingId
        MarketplacePublisher.requirePublisher listing actorId
        next listing) store := by
  apply Contract.Safe.bind
  refine (getListingOrRaise_safe listingId).weaken fun result final reached => ?_
  obtain ⟨moved, known⟩ := reached
  cases result with
  | error error => exact ⟨amid.moved moved, fun returned => absurd returned not_ok⟩
  | ok listing =>
    apply Contract.Safe.bind
    apply Contract.Safe.ofExcept
    cases MarketplacePublisher.requirePublisher listing actorId with
    | error error => exact ⟨amid.moved moved, fun returned => absurd returned not_ok⟩
    | ok _ => exact goes listing final (amid.moved moved) (known listing rfl)

variable {wiring : Wiring}

/-- The clock is read, a statement writes, and the trace is recorded. -/
theorem writing_safe {made : Call} {request : Moment → Request}
    {trace : Moment → Trace} {result : Moment → MarketplaceListing} (amid : Amid client made store)
    (stable : ∀ now later, landed now → Undisturbed client now later → landed later)
    (writes : ∀ ts now, Undisturbed client store now → Kept int first now → AsRead int now (request ts) →
      ∀ choice reply after, serve client choice now (request ts) = some (reply, after) →
        (Kept int first after ∧ ∀ other, Undisturbed other now after) ∧ landed after) :
    (contract int first).Safe serve client (Concludes client made landed)
      (do
        let ts : Moment ← Prog.perform Request.now
        let _ ← Prog.perform (request ts)
        record wiring (trace ts)
        return result ts) store := by
  apply Contract.Safe.bind
  have quiet : Request.now.Quiet := trivial
  refine (quiet_safe (Prog.Only.perform quiet)).weaken fun answer now moved => ?_
  cases answer with
  | error error => exact ⟨amid.moved moved, fun returned => absurd returned not_ok⟩
  | ok ts =>
    apply Contract.Safe.bind
    apply Contract.Safe.perform
    intro later kept onward asRead choice reply after answered
    obtain ⟨⟨kept', others⟩, written⟩ := writes ts later (moved.trans onward) kept asRead choice reply after answered
    have amid := amid.moved ((moved.trans onward).trans (others client))
    refine ⟨kept', fun other _ => others other, ?_⟩
    cases reply with
    | error error => exact ⟨amid, fun returned => absurd returned not_ok⟩
    | ok _ =>
      apply Contract.Safe.bind
      refine (quiet_safe (record_quiet wiring _)).weaken fun recorded final moved => ?_
      cases recorded with
      | error error => exact ⟨amid.moved moved, fun returned => absurd returned not_ok⟩
      | ok _ => exact ⟨amid.moved moved, fun _ => stable after final written moved⟩

theorem requireHigher_ok {newVersion : String}
    (passed : MarketplacePublisher.requireHigher int listingId newVersion listing = .ok ()) :
    listing.lifecycle = .active ∧ above int listing.version newVersion = true := by
  unfold MarketplacePublisher.requireHigher at passed
  by_cases active : listing.lifecycle = .active
  · rw [if_neg (not_not.mpr active)] at passed
    refine ⟨active, above_iff.mpr ?_⟩
    cases parsed : MarketplacePublisher.parseSemver int newVersion with
    | error error =>
      rw [parsed] at passed
      cases passed
    | ok newParts =>
      cases parsed' : MarketplacePublisher.parseSemver int listing.version with
      | error error =>
        rw [parsed, parsed'] at passed
        cases passed
      | ok curParts =>
        refine ⟨curParts, newParts, rfl, rfl, ?_⟩
        cases lower : MarketplacePublisher.below curParts newParts with
        | true => rfl
        | false =>
          simp only [parsed, parsed', bind, Except.bind, lower] at passed
          cases passed
  · rw [if_pos active] at passed
    cases passed

theorem requireInstallable_ok {installerId : String}
    (passed : MarketplaceDiscovery.requireInstallable listingId installerId listing = .ok ()) :
    listing.lifecycle = .active ∧ (listing.visibility = .private → listing.publisherId = installerId) := by
  unfold MarketplaceDiscovery.requireInstallable at passed
  split at passed
  · cases passed
  next active =>
    split at passed
    · cases passed
    next open' =>
      refine ⟨by simpa [MarketplaceListing.isActive] using active, fun hidden => ?_⟩
      exact not_not.mp fun foreign => open' ⟨hidden, foreign⟩

theorem updateVersion_safe {made : Call} (reads : wiring.int = int)
    {newVersion : String} {configTemplate : Option Json} (amid : Amid client made store) :
    (contract int first).Safe serve client (Concludes client made fun _ => True)
      (MarketplacePublisher.updateVersion wiring listingId newVersion configTemplate actorId) store := by
  apply publisher_safe amid
  intro listing now amid known
  apply Contract.Safe.bind
  apply Contract.Safe.ofExcept
  cases passed : MarketplacePublisher.requireHigher wiring.int listingId newVersion listing with
  | error error => exact ⟨amid, fun _ => trivial⟩
  | ok _ =>
    rw [reads] at passed
    obtain ⟨active, higher⟩ := requireHigher_ok passed
    apply writing_safe amid fun _ _ _ _ => trivial
    intro ts later moved kept asRead choice reply after answered
    cases answered
    obtain ⟨row, present⟩ := known.present kept
    exact ⟨kept.setVersion present asRead higher ((known.moved moved).unremoved active), trivial⟩

theorem setLifecycle_safe {made : Call} {lifecycle : Lifecycle} {action : ActionType}
    (amid : Amid client made store) :
    (contract int first).Safe serve client
      (Concludes client made fun final => lifecycle = .archived →
        final.column MarketplaceListing.lifecycle listingId = some .archived)
      (MarketplacePublisher.setLifecycle wiring lifecycle action listingId actorId) store := by
  apply publisher_safe amid
  intro listing now amid known
  apply writing_safe amid
  · exact fun before later landed moved archives => moved.archived listingId (landed archives)
  · intro ts later moved kept asRead choice reply after answered
    cases answered
    refine ⟨kept.setLifecycle asRead, fun archives => ?_⟩
    obtain ⟨row, present⟩ := known.present kept
    have amends : Amends listingId (fun row => row.moved lifecycle ts) later (later.setLifecycle listingId lifecycle ts) :=
      ⟨fun _ => rfl, rfl⟩
    rw [amends.column, if_pos rfl]
    unfold Store.column
    rw [present]
    exact congrArg some archives

theorem updateVisibility_safe {made : Call} {visibility : Visibility} (amid : Amid client made store) :
    (contract int first).Safe serve client (Concludes client made fun _ => True)
      (MarketplacePublisher.updateVisibility wiring listingId visibility actorId) store := by
  apply publisher_safe amid
  intro listing now amid known
  apply writing_safe amid fun _ _ _ _ => trivial
  intro ts later moved kept asRead choice reply after answered
  cases answered
  obtain ⟨row, present⟩ := known.present kept
  exact ⟨kept.setVisibility present, trivial⟩

theorem Amid.after_quiet {α β : Type} {made : Call} {program : Program α} {next : α → Program β}
    (amid : Amid client made store) (only : program.Only Request.Quiet)
    (goes : ∀ value now, Undisturbed client store now → Amid client made now →
      (contract int first).Safe serve client (fun _ final => Amid client made final) (next value) now) :
    (contract int first).Safe serve client (fun _ final => Amid client made final) (program.bind next) store := by
  apply Contract.Safe.bind
  refine (quiet_safe only).weaken fun result now moved => ?_
  cases result with
  | error error => exact amid.moved moved
  | ok value => exact goes value now moved (amid.moved moved)

/-- An install is inserted and counted by one call, of a listing that it has read
active and not private to somebody else. -/
theorem install_safe {made : Call} {installerId : String} {config : Option Json}
    {resultRef resultType : Option String} (isInstall : made.isInstall = true) (amid : Amid client made store) :
    (contract int first).Safe serve client (fun _ final => Amid client made final)
      (MarketplaceDiscovery.install wiring listingId installerId config resultRef resultType) store := by
  refine amid.after_quiet (checkRule_quiet wiring _ _ _) fun _ now _ amid => ?_
  apply Contract.Safe.bind
  refine (fetch_safe listingId).weaken fun result now reached => ?_
  obtain ⟨moved, known⟩ := reached
  replace amid := amid.moved moved
  cases result with
  | error error => exact amid
  | ok row =>
  cases row with
  | none => exact amid
  | some listing =>
  replace known := known listing rfl
  apply Contract.Safe.bind
  apply Contract.Safe.ofExcept
  cases passed : MarketplaceDiscovery.requireInstallable listingId installerId listing with
  | error error => exact amid
  | ok _ =>
  obtain ⟨active, owned⟩ := requireInstallable_ok passed
  have quiet : Request.now.Quiet := trivial
  have quiet' : Request.generateId.Quiet := trivial
  refine amid.after_quiet (Prog.Only.perform quiet) fun ts now moved amid => ?_
  replace known := known.moved moved
  refine amid.after_quiet (Prog.Only.perform quiet') fun iid now moved amid => ?_
  replace known := known.moved moved
  apply Contract.Safe.bind
  apply Contract.Safe.perform
  intro now kept moved _ choice reply after answered
  replace known := known.moved moved
  replace amid := amid.moved moved
  unfold serve at answered
  dsimp only at answered
  cases refused : choice.refusal with
  | some error =>
    rw [refused] at answered
    cases answered
    exact ⟨kept, fun other _ => .refl other now, amid⟩
  | none =>
    rw [refused] at answered
    dsimp only at answered
    split at answered
    next installs inserted =>
      cases answered
      obtain ⟨kept', others⟩ := Kept.installed kept inserted amid.progress isInstall (known.unremoved active) fun held => by
        have hidden : listing.visibility = .private := not_not.mp fun visible => known.exposed visible held
        rw [← owned hidden]
        exact known.published
      refine ⟨kept', others, ?_⟩
      -- What is inserted is counted before anything else of this call.
      apply Contract.Safe.bind
      apply Contract.Safe.perform
      intro later kept moved _ choice reply after answered
      cases answered
      have own : (later.uncounted.filter fun pair => pair.1 = client) = [(client, listingId)] := by
        rw [moved.uncounted]
        change ((client, listingId) :: now.uncounted).filter (fun pair => decide (pair.1 = client)) = _
        rw [List.filter_cons, if_pos (decide_eq_true rfl), amid.counted]
      have owed : (client, listingId) ∈ later.uncounted := by
        have inside : (client, listingId) ∈ later.uncounted.filter fun pair => pair.1 = client := by
          rw [own]
          exact List.mem_cons_self
        exact (List.mem_filter.mp inside).1
      obtain ⟨kept', others⟩ := Kept.incrementDownloads kept owed
      refine ⟨kept', others, ?_⟩
      have amid : Amid client made (later.incrementDownloads client listingId) := by
        refine ⟨moved.progress.trans amid.progress, ?_⟩
        change ((later.uncounted.erase (client, listingId)).filter _) = []
        rw [← List.erase_filter, own]
        exact List.erase_cons_head ..
      refine amid.after_quiet (record_quiet wiring _) fun _ final _ amid => ?_
      exact amid
    · cases answered
      exact ⟨kept, fun other _ => .refl other now, amid⟩

theorem Concludes.discard {α : Type} {made : Call} {landed' : Store ι → Prop} {program : Program α}
    (safe : (contract int first).Safe serve client (Concludes client made landed) program store)
    (implies : ∀ now, landed now → landed' now) :
    (contract int first).Safe serve client (Concludes client made landed') (do let _ ← program) store := by
  apply Contract.Safe.bind
  refine safe.weaken fun result final reached => ?_
  obtain ⟨amid, landed⟩ := reached
  cases result with
  | error error => exact ⟨amid, fun returned => absurd returned not_ok⟩
  | ok value => exact ⟨amid, fun _ => implies final (landed ⟨value, rfl⟩)⟩

/-- What has come about where a removal returns. -/
def Archives (made : Call) (store : Store ι) : Prop :=
  ∀ listingId actorId, made = .remove listingId actorId →
    store.column MarketplaceListing.lifecycle listingId = some .archived

theorem invoke_safe {made : Call} (reads : wiring.int = int) (amid : Amid client made store) :
    (contract int first).Safe serve client (Concludes client made (Archives made)) (invoke wiring made) store := by
  cases made with
  | updateVersion listingId newVersion configTemplate actorId =>
    exact Concludes.discard (updateVersion_safe reads amid) fun _ _ _ _ same => by cases same
  | «deprecate» listingId actorId =>
    exact Concludes.discard (setLifecycle_safe amid) fun _ _ _ _ same => by cases same
  | remove listingId actorId =>
    apply Concludes.discard (setLifecycle_safe amid)
    rintro now landed other actor ⟨⟩
    exact landed rfl
  | updateVisibility listingId visibility actorId =>
    exact Concludes.discard (updateVisibility_safe amid) fun _ _ _ _ same => by cases same
  | install listingId installerId config resultRef resultType =>
    apply Contract.Safe.bind
    refine (install_safe rfl amid).weaken fun result final amid => ?_
    cases result with
    | error error => exact ⟨amid, fun returned => absurd returned not_ok⟩
    | ok _ => exact ⟨amid, fun _ _ _ same => by cases same⟩

/-- Whoever begins a call has counted all that it has inserted. -/
theorem Client.safe {program : Program Unit} (runs : Client int program)
    (idle : (store.uncounted.filter fun pair => pair.1 = client) = []) :
    (contract int first).Safe serve client (fun _ _ => True) program store := by
  induction runs generalizing store with
  | done => trivial
  | call audit ruleEngine made next each ih =>
    apply Contract.Safe.bind
    apply Contract.Safe.bind
    apply Contract.Safe.perform
    intro now kept moved _ choice reply after answered
    cases answered
    have idle := moved.uncounted.trans idle
    obtain ⟨kept', others⟩ := Kept.enter kept made idle
    refine ⟨kept', others, ?_⟩
    have amid : Amid client made { now with history := .began client made now.listings :: now.history } := ⟨if_pos rfl, idle⟩
    apply Contract.Safe.bind
    apply Contract.Safe.attempt
    have reads : (Wiring.mk audit ruleEngine int).int = int := rfl
    refine (invoke_safe reads amid).weaken fun result final reached => ?_
    apply Contract.Safe.bind
    apply Contract.Safe.perform
    intro now kept moved _ choice reply after answered
    have amid := reached.1.moved moved
    have archives : result.toBool = true → Archives made now := by
      intro returned listingId actorId same
      cases result with
      | error error => cases returned
      | ok value => exact moved.archived listingId (reached.2 ⟨value, rfl⟩ listingId actorId same)
    cases returned : result.toBool with
    | true =>
      rw [returned] at answered archives
      cases answered
      obtain ⟨kept', others⟩ := Kept.leave kept amid.counted true archives _ rfl
      exact ⟨kept', others, ih result amid.counted⟩
    | false =>
      rw [returned] at answered archives
      cases answered
      obtain ⟨kept', others⟩ := Kept.leave kept amid.counted false archives _ rfl
      exact ⟨kept', others, ih result amid.counted⟩

/-- Listings move forward, and where no install is in progress they count their
installs, in every interleaving whose statements find what their calls have read. -/
theorem listings_forward {programs : ι → Program Unit} {world : Interleaved Request Reply Raised (Store ι) ι}
    (fresh : first.history = []) (settled : first.uncounted = []) (counted : Counted first)
    (clients : ∀ client, Client int (programs client))
    (reached : Interleaved.Reaches serve (fun _ => AsRead int) ⟨first, programs⟩ world) :
    Forward int first world.state ∧
      ((∀ client call, inProgress client world.state.history = some call → call.isInstall = false) → Counted world.state) := by
  obtain ⟨kept, -⟩ := Interleaved.Reaches.safe (contract int first) reached Undisturbed.refl
    (fun _ _ _ _ => Undisturbed.trans) (.starting fresh settled counted) fun client => (clients client).safe (by
      rw [settled]
      rfl)
  exact ⟨kept.forward, kept.settled⟩

section Sample

/-- Python's `int` on the digits that occur here. -/
private def digit (text : String) : Option Int := [("0", 0), ("1", 1), ("2", 2), ("3", 3)].lookup text

private def plugin : MarketplaceListing :=
  { id := "plugin", name := "plugin", publisherId := "alice", listingType := .plugin, publishedAt := .of 0 Moment.start_within
    description := "", version := "1.0.0", configTemplate := .obj [], visibility := .public, updatedAt := none
    lifecycle := .active, downloadCount := 0, metadata := .obj [] }

/-- One listing was published, and nothing has happened since. -/
private def published : Store ι := ⟨⟨[plugin], List.nodup_singleton _⟩, .empty, [], []⟩

omit [DecidableEq ι] in
private theorem published_counted : Counted (published : Store ι) := by
  intro row member
  cases List.mem_singleton.mp member
  rfl

private def made (calls : List Call) : Program Unit :=
  calls.foldr (fun made next => (call ⟨false, false, digit⟩ made).bind fun _ => next) (.pure ())

private theorem made_client (calls : List Call) : Client digit (made calls) := by
  induction calls with
  | nil => exact .done
  | cons first calls ih => exact .call false false first _ fun _ => ih

private def bump (version : String) : Call := .updateVersion "plugin" version none "alice"

/-- Two clients of the publisher, who both want another version. -/
private def twoUpdaters : Bool → Program Unit
  | false => made [bump "3.0.0"]
  | true => made [bump "2.0.0"]

private def plain : Choice := ⟨none, ⟨true, [], []⟩, .of 0 Moment.start_within, .repeated 0⟩

/-- Both read version 1.0.0, and the higher one is written first. -/
private def race : List (Bool × Choice) := [false, false, false, true, true, true, false, false, true, true].map (·, plain)

private theorem race_runs : (Interleaved.run serve (fun _ _ _ => True) ⟨published, twoUpdaters⟩ race).map
    (fun world => committed "plugin" world.state.history) = some ["2.0.0", "3.0.0"] := by
  decide +kernel

/-- A publisher who deprecates what was removed. -/
private def removeAndDeprecate (_ : Bool) : Program Unit := made [.remove "plugin" "alice", .deprecate "plugin" "alice"]

private def removes (listingId : String) : Event ι → Bool
  | .returned _ (.remove other _) => other = listingId
  | _ => false

omit [DecidableEq ι] in
private theorem removed_of_any {listingId : String} {history : List (Event ι)}
    (found : history.any (removes listingId) = true) : Removed listingId history := by
  obtain ⟨event, member, removal⟩ := List.any_eq_true.mp found
  unfold removes at removal
  split at removal
  next client other actorId =>
    rw [of_decide_eq_true removal] at member
    exact ⟨client, actorId, member⟩
  · cases removal

private theorem deprecated_runs : (Interleaved.run serve (fun _ _ _ => True) ⟨published, removeAndDeprecate⟩
    (List.replicate 10 (false, plain))).map (fun world => (world.state.column MarketplaceListing.lifecycle "plugin",
      world.state.history.any (removes "plugin"))) =
      some (some .deprecated, true) := by
  decide +kernel

/-- A lower version lands on a higher one, and a removed listing becomes deprecated. -/
theorem race_goes_back :
    (∃ world, (∀ client, Client digit (twoUpdaters client)) ∧
      Interleaved.Reaches serve (fun _ _ _ => True) ⟨published, twoUpdaters⟩ world ∧ ¬ Forward digit published world.state) ∧
    ∃ world, (∀ client, Client digit (removeAndDeprecate client)) ∧
      Interleaved.Reaches serve (fun _ _ _ => True) ⟨published, removeAndDeprecate⟩ world ∧
        ¬ Forward digit published world.state := by
  constructor
  · obtain ⟨world, ran, versions⟩ := Option.map_eq_some_iff.mp race_runs
    refine ⟨world, fun client => ?_, Interleaved.run_reaches .start ran, fun forward => ?_⟩
    · cases client <;> exact made_client _
    · have increasing := forward.increasing plugin List.mem_cons_self
      rw [show committed plugin.id world.state.history = _ from versions] at increasing
      revert increasing
      decide
  · obtain ⟨world, ran, ends⟩ := Option.map_eq_some_iff.mp deprecated_runs
    obtain ⟨lifecycle, removed⟩ := Prod.mk.inj ends
    refine ⟨world, fun client => made_client _, Interleaved.run_reaches .start ran, fun forward => ?_⟩
    have archived := forward.archived "plugin" (removed_of_any removed)
    rw [lifecycle] at archived
    cases archived

/-- A version, an install and a removal, one after the other. -/
private def release (_ : Bool) : Program Unit :=
  made [bump "2.0.0", .install "plugin" "bob" none none none, .remove "plugin" "alice"]

private theorem release_runs : (Interleaved.run serve (fun _ => AsRead digit) ⟨published, release⟩
    (List.replicate 17 (false, plain))).map (fun world => (committed "plugin" world.state.history,
      world.state.column MarketplaceListing.downloadCount "plugin",
        (inProgress false world.state.history).isNone && (inProgress true world.state.history).isNone)) =
      some (["2.0.0"], some 1, true) := by
  decide +kernel

theorem listings_forward_release :
    ∃ world, Interleaved.Reaches serve (fun _ => AsRead digit) ⟨published, release⟩ world ∧
      Forward digit published world.state ∧ Counted world.state ∧ committed "plugin" world.state.history = ["2.0.0"] ∧
      world.state.column MarketplaceListing.downloadCount "plugin" = some 1 := by
  obtain ⟨world, ran, ends⟩ := Option.map_eq_some_iff.mp release_runs
  simp only [Prod.mk.injEq, Bool.and_eq_true, Option.isNone_iff_eq_none] at ends
  obtain ⟨versions, downloads, quiet, quiet'⟩ := ends
  have reached := Interleaved.run_reaches .start ran
  obtain ⟨forward, counts⟩ := listings_forward rfl rfl published_counted (fun _ => made_client _) reached
  refine ⟨world, reached, forward, counts fun client call progress => ?_, versions, downloads⟩
  cases client with
  | false =>
    rw [quiet] at progress
    cases progress
  | true =>
    rw [quiet'] at progress
    cases progress

end Sample

end PyScoped.Legacy.Marketplace
