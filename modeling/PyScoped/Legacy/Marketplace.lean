import PyScoped.Foundation.Instants
import PyScoped.Foundation.Interleaving
import PyScoped.Foundation.Rows
import PyScoped.Legacy.Errors
import PyScoped.Legacy.Tenancy

/-! The marketplace of version 1: listings, which only their publishers change, and
their installs. What a statement writes was checked on a copy that was read before. -/

namespace PyScoped.Legacy.Marketplace
open Foundation

inductive ListingType where
  | connectorTemplate | plugin | integration
  deriving DecidableEq, Repr

def ListingType.value : ListingType → String
  | .connectorTemplate => "connector_template"
  | .plugin => "plugin"
  | .integration => "integration"

inductive Visibility where
  | «public» | unlisted | «private»
  deriving DecidableEq, Repr

def Visibility.value : Visibility → String
  | .public => "public"
  | .unlisted => "unlisted"
  | .private => "private"

structure MarketplaceListing where
  id : String
  name : String
  publisherId : String
  listingType : ListingType
  publishedAt : Moment
  description : String
  version : String
  configTemplate : Json
  visibility : Visibility
  updatedAt : Option Moment
  lifecycle : Lifecycle
  downloadCount : Nat
  metadata : Json

namespace MarketplaceListing

def isActive (listing : MarketplaceListing) : Bool := listing.lifecycle = .active

def snapshot (listing : MarketplaceListing) : Json :=
  .obj [("id", .str listing.id), ("name", .str listing.name), ("description", .str listing.description),
    ("publisher_id", .str listing.publisherId), ("listing_type", .str listing.listingType.value),
    ("version", .str listing.version), ("config_template", listing.configTemplate),
    ("visibility", .str listing.visibility.value), ("lifecycle", .str listing.lifecycle.name),
    ("download_count", .int listing.downloadCount), ("metadata", listing.metadata),
    ("published_at", .str listing.publishedAt.toAware.isoformat),
    ("updated_at", optionalText (listing.updatedAt.map fun moment => moment.toAware.isoformat))]

def versioned (listing : MarketplaceListing) (version : String) (configTemplate : Option Json) (updatedAt : Moment) :
    MarketplaceListing :=
  { listing with
    version := version, updatedAt := some updatedAt, configTemplate := configTemplate.getD listing.configTemplate }

def moved (listing : MarketplaceListing) (lifecycle : Lifecycle) (updatedAt : Moment) : MarketplaceListing :=
  { listing with lifecycle := lifecycle, updatedAt := some updatedAt }

def shown (listing : MarketplaceListing) (visibility : Visibility) (updatedAt : Moment) : MarketplaceListing :=
  { listing with visibility := visibility, updatedAt := some updatedAt }

def downloaded (listing : MarketplaceListing) : MarketplaceListing :=
  { listing with downloadCount := listing.downloadCount + 1 }

end MarketplaceListing

structure MarketplaceInstall where
  id : String
  listingId : String
  installerId : String
  installedAt : Moment
  version : String
  config : Json
  resultRef : Option String
  resultType : Option String

abbrev ListingTable := Rows MarketplaceListing.id

abbrev InstallTable := Rows MarketplaceInstall.id

/-- What is handed to the audit writer. -/
structure Trace where
  actorId : String
  action : ActionType
  targetType : String
  targetId : String
  metadata : Json
  after : Option Json

/-- What a rule engine answers. -/
structure Verdict where
  allowed : Bool
  denyRules : List String
  matchingRules : List String

/-- The calls of publishers, and the one of everybody. -/
inductive Call where
  | updateVersion (listingId newVersion : String) (configTemplate : Option Json) (actorId : String)
  | «deprecate» (listingId actorId : String)
  | remove (listingId actorId : String)
  | updateVisibility (listingId : String) (visibility : Visibility) (actorId : String)
  | install (listingId installerId : String) (config : Option Json) (resultRef resultType : Option String)

/-- What has happened: a call began, over these listings, and returned or raised; a
version was committed, a visibility set, an install recorded. -/
inductive Event (ι : Type) where
  | began (client : ι) (call : Call) (listings : ListingTable)
  | returned (client : ι) (call : Call)
  | raised (client : ι) (call : Call)
  | versioned (client : ι) (listingId version : String)
  | shown (listingId : String) (visibility : Visibility)
  | installed (client : ι) (listingId installerId : String)

/-- The tables. Remembered are what has happened, the latest first, and by whom and
for which listings installs are inserted that are not counted yet. -/
structure Store (ι : Type) where
  listings : ListingTable
  installs : InstallTable
  history : List (Event ι)
  uncounted : List (ι × String)

inductive Request where
  | fetch (listingId : String)
  | evaluate (action principalId objectId : String)
  | now
  | generateId
  /-- The version that is set, and the one that was found. -/
  | setVersion (listingId version : String) (configTemplate : Option Json) (updatedAt : Moment) (found : String)
  | setLifecycle (listingId : String) (lifecycle : Lifecycle) (updatedAt : Moment)
  | setVisibility (listingId : String) (visibility : Visibility) (updatedAt : Moment)
  | insertInstall (install : MarketplaceInstall)
  | incrementDownloads (listingId : String)
  | record (trace : Trace)
  /-- A call begins, or returns or raises, which takes no statement. -/
  | enter (call : Call)
  | leave (call : Call) (returned : Bool)

def Reply : Request → Type
  | .fetch _ => Option MarketplaceListing
  | .evaluate _ _ _ => Verdict
  | .now => Moment
  | .generateId => ScopedId
  | _ => Unit

abbrev Program (α : Type) := Prog Request Reply Raised α

/-- What is drawn, and why a statement is refused. -/
structure Choice where
  refusal : Option Raised
  verdict : Verdict
  now : Moment
  id : ScopedId

namespace Store

variable {ι : Type} [DecidableEq ι] (store : Store ι)

/-- `UPDATE marketplace_listings SET ... WHERE id = ...` -/
def amend (listingId : String) (change : MarketplaceListing → MarketplaceListing) (keeps : ∀ row, (change row).id = row.id) :
    Store ι :=
  { store with listings := store.listings.update (·.id = listingId) change keeps }

/-- What has happened at a listing, if it is there, has happened. -/
def noted (listingId : String) (event : Event ι) : List (Event ι) :=
  if (store.listings.find listingId).isSome then event :: store.history else store.history

def setVersion (client : ι) (listingId version : String) (configTemplate : Option Json) (updatedAt : Moment) : Store ι :=
  { store.amend listingId (fun row => row.versioned version configTemplate updatedAt) fun _ => rfl with
    history := store.noted listingId (.versioned client listingId version) }

def setLifecycle (listingId : String) (lifecycle : Lifecycle) (updatedAt : Moment) : Store ι :=
  store.amend listingId (fun row => row.moved lifecycle updatedAt) fun _ => rfl

def setVisibility (listingId : String) (visibility : Visibility) (updatedAt : Moment) : Store ι :=
  { store.amend listingId (fun row => row.shown visibility updatedAt) fun _ => rfl with
    history := store.noted listingId (.shown listingId visibility) }

/-- An install was inserted. -/
def installed (client : ι) (install : MarketplaceInstall) (installs : InstallTable) : Store ι :=
  { store with
    installs := installs
    history := .installed client install.listingId install.installerId :: store.history
    uncounted := (client, install.listingId) :: store.uncounted }

def incrementDownloads (client : ι) (listingId : String) : Store ι :=
  { store.amend listingId MarketplaceListing.downloaded fun _ => rfl with
    uncounted := store.uncounted.erase (client, listingId) }

end Store

variable {ι : Type} [DecidableEq ι]

/-- Rules and audit writer may raise, and an INSERT may be refused. -/
def serve : Service Request Reply Raised (Store ι) ι Choice := fun client choice store request =>
  match request with
  | .fetch listingId => some (.ok (store.listings.find listingId), store)
  | .evaluate _ _ _ =>
    match choice.refusal with
    | some error => some (.error error, store)
    | none => some (.ok choice.verdict, store)
  | .now => some (.ok choice.now, store)
  | .generateId => some (.ok choice.id, store)
  | .setVersion listingId version configTemplate updatedAt _ =>
    some (.ok (), store.setVersion client listingId version configTemplate updatedAt)
  | .setLifecycle listingId lifecycle updatedAt => some (.ok (), store.setLifecycle listingId lifecycle updatedAt)
  | .setVisibility listingId visibility updatedAt => some (.ok (), store.setVisibility listingId visibility updatedAt)
  | .insertInstall install =>
    match choice.refusal with
    | some error => some (.error error, store)
    | none =>
      match store.installs.insert install with
      | some installs => some (.ok (), store.installed client install installs)
      | none => some (.error (.unique "marketplace_installs"), store)
  | .incrementDownloads listingId => some (.ok (), store.incrementDownloads client listingId)
  | .record _ =>
    match choice.refusal with
    | some error => some (.error error, store)
    | none => some (.ok (), store)
  | .enter call => some (.ok (), { store with history := .began client call store.listings :: store.history })
  | .leave call true => some (.ok (), { store with history := .returned client call :: store.history })
  | .leave call false => some (.ok (), { store with history := .raised client call :: store.history })

/-- Whether an audit writer and a rule engine are wired, and how Python's `int` reads a text. -/
structure Wiring where
  audit : Bool
  ruleEngine : Bool
  int : String → Option Int

def record (wiring : Wiring) (trace : Trace) : Program Unit :=
  if wiring.audit then Prog.perform (Request.record trace) else pure ()

def checkRule (wiring : Wiring) (action principalId objectId : String) : Program Unit := do
  if wiring.ruleEngine then
    let result : Verdict ← Prog.perform (Request.evaluate action principalId objectId)
    if !result.allowed && (!result.denyRules.isEmpty || !result.matchingRules.isEmpty) then
      throw (.scoped .accessDenied (action ++ " denied by rule(s): " ++ listText result.denyRules)
        [("action", .str action), ("principal_id", .str principalId), ("object_id", .str objectId),
          ("deny_rules", .arr (result.denyRules.map .str))])

end Marketplace

namespace MarketplacePublisher
open Foundation Marketplace

def getListingOrRaise (listingId : String) : Program MarketplaceListing := do
  let row : Option MarketplaceListing ← Prog.perform (Marketplace.Request.fetch listingId)
  match row with
  | none => throw (.scoped .listingNotFound ("Listing " ++ listingId ++ " not found") [("listing_id", .str listingId)])
  | some listing => return listing

def requirePublisher (listing : MarketplaceListing) (actorId : String) : Except Raised Unit :=
  if listing.publisherId ≠ actorId then
    .error (.scoped .accessDenied ("Principal '" ++ actorId ++ "' is not the publisher of listing '" ++ listing.id ++ "'")
      [("listing_id", .str listing.id), ("actor_id", .str actorId), ("publisher_id", .str listing.publisherId)])
  else .ok ()

/-- What comes before the first `-` and the first `+`, split at its dots. -/
def versionParts (version : String) : List String :=
  (((version.toList.takeWhile (· ≠ '-')).takeWhile (· ≠ '+')).splitOn '.').map String.ofList

def invalidVersion (version : String) : Raised :=
  .scoped .marketplace ("Version '" ++ version ++ "' is not a valid semver (X.Y.Z)") [("version", .str version)]

def parseSemver (int : String → Option Int) (version : String) : Except Raised (Int × Int × Int) :=
  if version = "" then .error (.scoped .marketplace "Version must be a non-empty string" [("version", .str version)])
  else if 3 < (versionParts version).length then .error (invalidVersion version)
  else
    match (versionParts version).mapM int with
    | none => .error (invalidVersion version)
    | some nums => .ok (nums.getD 0 0, nums.getD 1 0, nums.getD 2 0)

/-- Tuples compare by the first number that differs. -/
def below (first second : Int × Int × Int) : Bool :=
  first.1 < second.1 || first.1 = second.1 &&
    (first.2.1 < second.2.1 || first.2.1 = second.2.1 && first.2.2 < second.2.2)

/-- Only an active listing gets another version, and only a higher one. -/
def requireHigher (int : String → Option Int) (listingId newVersion : String) (listing : MarketplaceListing) :
    Except Raised Unit := do
  if listing.lifecycle ≠ .active then
    throw (.scoped .marketplace ("Cannot version-bump listing in lifecycle " ++ listing.lifecycle.name)
      [("listing_id", .str listingId), ("lifecycle", .str listing.lifecycle.name)])
  let newParts ← parseSemver int newVersion
  let curParts ← parseSemver int listing.version
  if !below curParts newParts then
    throw (.scoped .marketplace
      ("New version '" ++ newVersion ++ "' must be greater than current version '" ++ listing.version ++ "'")
      [("listing_id", .str listingId), ("current_version", .str listing.version), ("new_version", .str newVersion)])

def updateVersion (wiring : Wiring) (listingId newVersion : String) (configTemplate : Option Json) (actorId : String) :
    Program MarketplaceListing := do
  let listing ← getListingOrRaise listingId
  requirePublisher listing actorId
  requireHigher wiring.int listingId newVersion listing
  let ts : Moment ← Prog.perform Marketplace.Request.now
  let _ : Unit ← Prog.perform (Marketplace.Request.setVersion listingId newVersion configTemplate ts listing.version)
  let after := listing.versioned newVersion configTemplate ts
  record wiring ⟨actorId, .marketplaceVersionUpdate, "marketplace_listing", listingId,
    .obj [("old_version", .str listing.version), ("new_version", .str newVersion)], some after.snapshot⟩
  return after

/-- `deprecate` and `remove` set a lifecycle, whatever the listing's is. -/
def setLifecycle (wiring : Wiring) (lifecycle : Lifecycle) (action : ActionType) (listingId actorId : String) :
    Program MarketplaceListing := do
  let listing ← getListingOrRaise listingId
  requirePublisher listing actorId
  let ts : Moment ← Prog.perform Marketplace.Request.now
  let _ : Unit ← Prog.perform (Marketplace.Request.setLifecycle listingId lifecycle ts)
  let after := listing.moved lifecycle ts
  record wiring ⟨actorId, action, "marketplace_listing", listingId, .obj [], some after.snapshot⟩
  return after

def «deprecate» (wiring : Wiring) (listingId actorId : String) : Program MarketplaceListing :=
  setLifecycle wiring .deprecated .marketplaceDeprecate listingId actorId

def remove (wiring : Wiring) (listingId actorId : String) : Program MarketplaceListing :=
  setLifecycle wiring .archived .marketplaceRemove listingId actorId

def updateVisibility (wiring : Wiring) (listingId : String) (visibility : Visibility) (actorId : String) :
    Program MarketplaceListing := do
  let listing ← getListingOrRaise listingId
  requirePublisher listing actorId
  let ts : Moment ← Prog.perform Marketplace.Request.now
  let _ : Unit ← Prog.perform (Marketplace.Request.setVisibility listingId visibility ts)
  let after := listing.shown visibility ts
  record wiring ⟨actorId, .marketplaceVisibilityChange, "marketplace_listing", listingId,
    .obj [("old_visibility", .str listing.visibility.value), ("new_visibility", .str visibility.value)],
    some after.snapshot⟩
  return after

end MarketplacePublisher

namespace MarketplaceDiscovery
open Foundation Marketplace

/-- The listing is active, and not somebody else's private one. -/
def requireInstallable (listingId installerId : String) (listing : MarketplaceListing) : Except Raised Unit :=
  if !listing.isActive then
    .error (.scoped .marketplace ("Listing " ++ listingId ++ " is not active (lifecycle: " ++ listing.lifecycle.name ++ ")")
      [("listing_id", .str listingId)])
  else if listing.visibility = .private ∧ listing.publisherId ≠ installerId then
    .error (.scoped .accessDenied ("Listing '" ++ listingId ++ "' is private and can only be installed by its publisher")
      [("listing_id", .str listingId), ("installer_id", .str installerId), ("publisher_id", .str listing.publisherId)])
  else .ok ()

def install (wiring : Wiring) (listingId installerId : String) (config : Option Json) (resultRef resultType : Option String) :
    Program MarketplaceInstall := do
  checkRule wiring "marketplace_install" installerId listingId
  let row : Option MarketplaceListing ← Prog.perform (Marketplace.Request.fetch listingId)
  match row with
  | none => throw (.scoped .listingNotFound ("Listing " ++ listingId ++ " not found") [("listing_id", .str listingId)])
  | some listing =>
    requireInstallable listingId installerId listing
    let ts : Moment ← Prog.perform Marketplace.Request.now
    let iid : ScopedId ← Prog.perform Marketplace.Request.generateId
    let install : MarketplaceInstall :=
      { id := iid.text, listingId := listingId, installerId := installerId, installedAt := ts, version := listing.version
        config := config.getD (.obj []), resultRef := resultRef, resultType := resultType }
    let _ : Unit ← Prog.perform (Marketplace.Request.insertInstall install)
    let _ : Unit ← Prog.perform (Marketplace.Request.incrementDownloads listingId)
    record wiring ⟨installerId, .marketplaceInstall, "marketplace_install", iid.text,
      .obj [("listing_id", .str listingId), ("version", .str listing.version)], none⟩
    return install

end MarketplaceDiscovery

namespace Marketplace
open Foundation

def invoke (wiring : Wiring) : Call → Program Unit
  | .updateVersion listingId newVersion configTemplate actorId => do
    let _ ← MarketplacePublisher.updateVersion wiring listingId newVersion configTemplate actorId
  | .deprecate listingId actorId => do
    let _ ← MarketplacePublisher.deprecate wiring listingId actorId
  | .remove listingId actorId => do
    let _ ← MarketplacePublisher.remove wiring listingId actorId
  | .updateVisibility listingId visibility actorId => do
    let _ ← MarketplacePublisher.updateVisibility wiring listingId visibility actorId
  | .install listingId installerId config resultRef resultType => do
    let _ ← MarketplaceDiscovery.install wiring listingId installerId config resultRef resultType

/-- A call from its beginning to where its caller has the result or the exception. -/
def call (wiring : Wiring) (made : Call) : Program (Except Raised Unit) := do
  let _ : Unit ← Prog.perform (Request.enter made)
  let result ← (invoke wiring made).attempt
  let _ : Unit ← Prog.perform (Request.leave made result.toBool)
  return result

/-- Clients that make calls, each chosen after the last one returned or raised. -/
inductive Client (int : String → Option Int) : Program Unit → Prop where
  | done : Client int (.pure ())
  | call (audit ruleEngine : Bool) (made : Call) (next : Except Raised Unit → Program Unit)
      (each : ∀ result, Client int (next result)) : Client int ((call ⟨audit, ruleEngine, int⟩ made).bind next)

end PyScoped.Legacy.Marketplace
