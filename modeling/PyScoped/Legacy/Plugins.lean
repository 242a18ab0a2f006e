import PyScoped.Foundation.Interleaving
import PyScoped.Legacy.Connectors

/-! Plugins of version 1, their permissions and their hooks. Every statement commits
by itself, and so does every call of a hook's handler. -/

namespace PyScoped.Legacy.Plugins
open Foundation
open ConnectorManager (Verdict)

inductive PluginState where
  | installed | active | suspended | uninstalled
  deriving DecidableEq, Repr

namespace PluginState

def value : PluginState → String
  | .installed => "installed"
  | .active => "active"
  | .suspended => "suspended"
  | .uninstalled => "uninstalled"

/-- `VALID_PLUGIN_TRANSITIONS` -/
def transitions : PluginState → List PluginState
  | .installed => [.active, .uninstalled]
  | .active => [.suspended, .uninstalled]
  | .suspended => [.active, .uninstalled]
  | .uninstalled => []

end PluginState

structure Plugin where
  id : String
  name : String
  ownerId : String
  installedAt : DateTime
  version : String
  description : String
  scopeId : Option String
  manifest : Json
  state : PluginState
  activatedAt : Option DateTime
  metadata : Json

structure PluginHook where
  id : String
  pluginId : String
  hookPoint : String
  handlerRef : String
  priority : Int
  lifecycle : Lifecycle

structure PluginPermission where
  id : String
  pluginId : String
  permissionType : String
  targetRef : String
  grantedAt : DateTime
  grantedBy : String
  lifecycle : Lifecycle

def timeText (moment : DateTime) : Json := .str (String.ofList moment.isoformat)

def lifecycleName : Lifecycle → String
  | .draft => "DRAFT"
  | .active => "ACTIVE"
  | .deprecated => "DEPRECATED"
  | .archived => "ARCHIVED"

def Plugin.canTransitionTo (plugin : Plugin) (target : PluginState) : Bool := plugin.state.transitions.contains target

def Plugin.snapshot (plugin : Plugin) : Json :=
  .obj [("id", .str plugin.id), ("name", .str plugin.name), ("description", .str plugin.description),
    ("version", .str plugin.version), ("owner_id", .str plugin.ownerId), ("scope_id", Connector.textOrNull plugin.scopeId),
    ("state", .str plugin.state.value), ("manifest", plugin.manifest), ("metadata", plugin.metadata),
    ("installed_at", timeText plugin.installedAt), ("activated_at", (plugin.activatedAt.map timeText).getD .null)]

def PluginHook.snapshot (hook : PluginHook) : Json :=
  .obj [("id", .str hook.id), ("plugin_id", .str hook.pluginId), ("hook_point", .str hook.hookPoint),
    ("handler_ref", .str hook.handlerRef), ("priority", .int hook.priority), ("lifecycle", .str (lifecycleName hook.lifecycle))]

def PluginPermission.snapshot (permission : PluginPermission) : Json :=
  .obj [("id", .str permission.id), ("plugin_id", .str permission.pluginId),
    ("permission_type", .str permission.permissionType), ("target_ref", .str permission.targetRef),
    ("granted_at", timeText permission.grantedAt), ("granted_by", .str permission.grantedBy),
    ("lifecycle", .str (lifecycleName permission.lifecycle))]

structure Tables where
  plugins : List Plugin
  hooks : List PluginHook
  permissions : List PluginPermission

/-- The calls of the owner and of the framework. -/
inductive Call where
  | activate (pluginId actorId : String)
  | suspend (pluginId actorId : String)
  | uninstall (pluginId actorId : String)
  | grantPermission (pluginId permissionType targetRef grantedBy : String)
  | revokePermission (permissionId actorId : String)
  | registerHook (pluginId hookPoint handlerRef actorId : String) (priority : Int)
  | deactivateHook (hookId actorId : String)
  | dispatch (hookPoint : String) (context : Json) (stopOnFailure : Bool)

structure Trace where
  actorId : String
  action : ActionType
  targetType : String
  targetId : String
  beforeState : Json
  afterState : Json

inductive Request where
  | began
  | generate
  | now
  | evaluate (action : String) (principalId : Option String) (objectType objectId : String) (scopeId : Option String)
  | selectPlugin (id : String)
  /-- The state that was found, the new one, and the time that is set with it. -/
  | updateState (id : String) (found target : PluginState) (activatedAt : Option DateTime)
  | archivePermissions (pluginId : String)
  | archiveHooks (pluginId : String) (activeOnly : Bool)
  | insertPermission (permission : PluginPermission)
  | selectPermission (id : String)
  | archivePermission (id : String)
  | findPermission (pluginId permissionType targetRef : String)
  /-- The row of a hook, and the state in which its plugin was found. -/
  | insertHook (hook : PluginHook) (found : PluginState)
  | selectHook (id : String)
  | archiveHook (id : String)
  | hooksForPoint (hookPoint : String)
  | handler (handlerRef : String)
  | callHandler (hook : PluginHook) (context : Json)
  | record (trace : Trace)
  | finished (call : Call) (raised : Option Raised)

def Reply : Request → Type
  | .generate => String
  | .now => DateTime
  | .evaluate _ _ _ _ _ => Verdict
  | .selectPlugin _ => Option Plugin
  | .selectPermission _ => Option PluginPermission
  | .findPermission _ _ _ => Bool
  | .selectHook _ => Option PluginHook
  | .hooksForPoint _ => List PluginHook
  | .handler _ => Bool
  | .callHandler _ _ => Json
  | _ => Unit

abbrev Program (α : Type) := Prog Request Reply Raised α

/-- Whether a client is in a call, and what was uninstalled when that call began. -/
inductive Stage where
  | idle
  | running (gone : List String)

def Stage.gone : Stage → List String
  | .idle => []
  | .running gone => gone

/-- A row of `plugins` that an UPDATE of the state met. -/
structure Change where
  before : PluginState
  after : PluginState

/-- The call of a handler, and what was uninstalled when its dispatch began. -/
structure Handling where
  pluginId : String
  gone : List String

/-- The tables, and remarks: where the calls are, which plugins an uninstallation
has stripped of permissions and of hooks, and of which it has returned. -/
structure Store (ι : Type) where
  tables : Tables
  stage : ι → Stage
  changes : List Change
  revoked : List String
  unhooked : List String
  uninstalled : List String
  handled : List Handling

/-- What a statement leaves open: whether it fails, and what others answer. -/
structure Choice where
  failure : Option Raised
  generated : String
  now : DateTime
  verdict : Verdict
  registered : Bool
  result : Json

variable {ι : Type} [DecidableEq ι]

def PluginHook.archive (hook : PluginHook) : PluginHook := { hook with lifecycle := .archived }

def PluginPermission.archive (permission : PluginPermission) : PluginPermission := { permission with lifecycle := .archived }

/-- `check_permission` -/
def Tables.permits (tables : Tables) (pluginId permissionType targetRef : String) : Bool :=
  tables.permissions.any fun permission => permission.pluginId = pluginId && permission.permissionType = permissionType &&
    permission.targetRef = targetRef && permission.lifecycle = .active

/-- `UPDATE plugins SET state = ..., activated_at = ... WHERE id = ...` -/
def Plugin.moved (target : PluginState) (activatedAt : Option DateTime) (plugin : Plugin) : Plugin :=
  { plugin with state := target, activatedAt := activatedAt.or plugin.activatedAt }

def answer (choice : Choice) (client : ι) (store : Store ι) : (request : Request) → Except Raised (Reply request) × Store ι
  | .began => (.ok (), { store with stage := Function.update store.stage client (.running store.uninstalled) })
  | .generate => (.ok choice.generated, store)
  | .now => (.ok choice.now, store)
  | .evaluate _ _ _ _ _ => (.ok choice.verdict, store)
  | .selectPlugin id => (.ok (store.tables.plugins.find? (·.id == id)), store)
  | .updateState id _ target activatedAt => (.ok (), { store with
      tables := { store.tables with
        plugins := store.tables.plugins.map fun plugin => if plugin.id = id then plugin.moved target activatedAt else plugin }
      changes := store.changes ++ (store.tables.plugins.filter (·.id == id)).map fun plugin => ⟨plugin.state, target⟩ })
  | .archivePermissions pluginId => (.ok (), { store with
      tables := { store.tables with
        permissions := store.tables.permissions.map fun permission =>
          if permission.pluginId = pluginId then permission.archive else permission }
      revoked := pluginId :: store.revoked })
  | .archiveHooks pluginId activeOnly => (.ok (), { store with
      tables := { store.tables with
        hooks := store.tables.hooks.map fun hook =>
          if hook.pluginId = pluginId ∧ (activeOnly = true → hook.lifecycle = .active) then hook.archive else hook }
      unhooked := if activeOnly then store.unhooked else pluginId :: store.unhooked })
  | .insertPermission permission =>
    if store.tables.permissions.any (·.id == permission.id) then (.error (.unique "plugin_permissions"), store)
    else if !store.tables.plugins.any (·.id == permission.pluginId) then
      (.error (.other "FOREIGN KEY constraint failed"), store)
    else (.ok (), { store with tables := { store.tables with permissions := store.tables.permissions ++ [permission] } })
  | .selectPermission id => (.ok (store.tables.permissions.find? (·.id == id)), store)
  | .archivePermission id => (.ok (), { store with
      tables := { store.tables with
        permissions := store.tables.permissions.map fun permission =>
          if permission.id = id then permission.archive else permission } })
  | .findPermission pluginId permissionType targetRef =>
    (.ok (store.tables.permits pluginId permissionType targetRef), store)
  | .insertHook hook _ =>
    if store.tables.hooks.any (·.id == hook.id) then (.error (.unique "plugin_hooks"), store)
    else if !store.tables.plugins.any (·.id == hook.pluginId) then (.error (.other "FOREIGN KEY constraint failed"), store)
    else (.ok (), { store with tables := { store.tables with hooks := store.tables.hooks ++ [hook] } })
  | .selectHook id => (.ok (store.tables.hooks.find? (·.id == id)), store)
  | .archiveHook id => (.ok (), { store with
      tables := { store.tables with
        hooks := store.tables.hooks.map fun hook => if hook.id = id then hook.archive else hook } })
  | .hooksForPoint hookPoint => (.ok ((store.tables.hooks.filter fun hook =>
      hook.hookPoint = hookPoint && hook.lifecycle = .active).insertionSort fun first second =>
        second.priority ≤ first.priority), store)
  | .handler _ => (.ok choice.registered, store)
  | .callHandler hook _ => (.ok choice.result, { store with
      handled := ⟨hook.pluginId, (store.stage client).gone⟩ :: store.handled })
  | .record _ => (.ok (), store)
  | .finished call raised => (.ok (), { store with
      stage := Function.update store.stage client .idle
      uninstalled := match call, raised with
        | .uninstall pluginId _, none => pluginId :: store.uninstalled
        | _, _ => store.uninstalled })

/-- A handler that fails has been called. -/
def failed (client : ι) (store : Store ι) : Request → Store ι
  | .callHandler hook _ => { store with handled := ⟨hook.pluginId, (store.stage client).gone⟩ :: store.handled }
  | _ => store

/-- Everything a call does can fail, or is where it is cut off. -/
def Request.fallible : Request → Bool
  | .began => false
  | .finished _ _ => false
  | _ => true

def serve : Service Request Reply Raised (Store ι) ι Choice :=
  fun client choice store request =>
    match choice.failure, request.fallible with
    | some error, true => some (.error error, failed client store request)
    | _, _ => some (answer choice client store request)

/-! The sandbox. -/

def notFound (kind : ErrorKind) (pluginId : String) : Raised :=
  .scoped kind ("Plugin " ++ pluginId ++ " not found") [("plugin_id", .str pluginId)]

def requireActive (pluginId : String) : Program Unit := do
  let row : Option Plugin ← Prog.perform (Request.selectPlugin pluginId)
  match row with
  | none => throw (notFound .pluginSandbox pluginId)
  | some plugin =>
    if plugin.state = .active then pure ()
    else throw (.scoped .pluginSandbox ("Plugin " ++ pluginId ++ " is not active (state: " ++ plugin.state.value ++ ")")
      [("plugin_id", .str pluginId), ("state", .str plugin.state.value)])

def checkPermission (pluginId permissionType targetRef : String) : Program Bool :=
  Prog.perform (Request.findPermission pluginId permissionType targetRef)

def checkHookAccess (pluginId hookPoint : String) : Program Bool := checkPermission pluginId "hook" hookPoint

/-- Which collaborators the manager and the registry are wired with. -/
structure Wiring where
  audit : Bool
  ruleEngine : Bool
  enforceHookPermissions : Bool

variable (self : Wiring)

def recordIf (trace : Trace) : Program Unit := if self.audit then Prog.perform (Request.record trace) else pure ()

/-! The lifecycle manager. -/

def checkRule (action principalId objectId : String) (scopeId : Option String) : Program Unit := do
  if self.ruleEngine then
    let result : Verdict ← Prog.perform (Request.evaluate action (some principalId) "plugin" objectId scopeId)
    if !result.allowed && (!result.denyRules.isEmpty || !result.matchingRules.isEmpty) then
      throw (.scoped .accessDenied (action ++ " denied by rule(s): " ++ listText result.denyRules)
        [("action", .str action), ("principal_id", .str principalId), ("object_type", .str "plugin"),
          ("object_id", .str objectId), ("scope_id", Connector.textOrNull scopeId),
          ("deny_rules", .arr (result.denyRules.map .str))])

def getPluginOrRaise (pluginId : String) : Program Plugin := do
  let row : Option Plugin ← Prog.perform (Request.selectPlugin pluginId)
  match row with
  | some plugin => return plugin
  | none => throw (notFound .plugin pluginId)

def requireOwner (plugin : Plugin) (actorId : String) : Except Raised Unit :=
  if plugin.ownerId = actorId then .ok ()
  else .error (.scoped .accessDenied ("Principal '" ++ actorId ++ "' is not the owner of plugin '" ++ plugin.id ++ "'")
    [("plugin_id", .str plugin.id), ("actor_id", .str actorId), ("owner_id", .str plugin.ownerId)])

/-- The state is checked on the row that was selected, and written by id. -/
def transition (pluginId : String) (target : PluginState) (actorId : String) (action : ActionType) : Program Plugin := do
  let plugin ← getPluginOrRaise pluginId
  requireOwner plugin actorId
  checkRule self action.value actorId pluginId plugin.scopeId
  if !plugin.canTransitionTo target then
    throw (.scoped .plugin ("Cannot transition plugin from " ++ plugin.state.value ++ " to " ++ target.value)
      [("plugin_id", .str pluginId), ("current_state", .str plugin.state.value), ("target_state", .str target.value)])
  let ts : DateTime ← Prog.perform Request.now
  let activatedAt := if target = .active then some ts else none
  let _ : Unit ← Prog.perform (Request.updateState pluginId plugin.state target activatedAt)
  let plugin := plugin.moved target activatedAt
  recordIf self ⟨actorId, action, "plugin", pluginId, .null, plugin.snapshot⟩
  return plugin

def activate (pluginId actorId : String) : Program Plugin := transition self pluginId .active actorId .pluginActivate

def suspend (pluginId actorId : String) : Program Plugin := do
  let plugin ← transition self pluginId .suspended actorId .pluginSuspend
  let _ : Unit ← Prog.perform (Request.archiveHooks pluginId true)
  return plugin

def uninstall (pluginId actorId : String) : Program Plugin := do
  let plugin ← transition self pluginId .uninstalled actorId .pluginUninstall
  let _ : Unit ← Prog.perform (Request.archivePermissions pluginId)
  let _ : Unit ← Prog.perform (Request.archiveHooks pluginId false)
  return plugin

/-- Only the owner is checked, not the state of the plugin. -/
def grantPermission (pluginId permissionType targetRef grantedBy : String) : Program PluginPermission := do
  let plugin ← getPluginOrRaise pluginId
  requireOwner plugin grantedBy
  let ts : DateTime ← Prog.perform Request.now
  let pid : String ← Prog.perform Request.generate
  let permission : PluginPermission := ⟨pid, pluginId, permissionType, targetRef, ts, grantedBy, .active⟩
  let _ : Unit ← Prog.perform (Request.insertPermission permission)
  recordIf self ⟨grantedBy, .pluginPermissionGrant, "plugin_permission", pid, .null, permission.snapshot⟩
  return permission

def revokePermission (permissionId actorId : String) : Program Unit := do
  let row : Option PluginPermission ← Prog.perform (Request.selectPermission permissionId)
  match row with
  | none => throw (.scoped .plugin ("Plugin permission " ++ permissionId ++ " not found")
      [("permission_id", .str permissionId)])
  | some permission =>
    let plugin ← getPluginOrRaise permission.pluginId
    requireOwner plugin actorId
    let _ : Unit ← Prog.perform (Request.archivePermission permissionId)
    recordIf self ⟨actorId, .pluginPermissionRevoke, "plugin_permission", permissionId, permission.snapshot, .null⟩

/-! The hook registry. -/

def registerHook (pluginId hookPoint handlerRef actorId : String) (priority : Int) : Program PluginHook := do
  let plugin ← getPluginOrRaise pluginId
  requireOwner plugin actorId
  if plugin.state ≠ .installed ∧ plugin.state ≠ .active then
    throw (.scoped .plugin ("Cannot register hooks for plugin in state " ++ plugin.state.value)
      [("plugin_id", .str pluginId), ("state", .str plugin.state.value)])
  let hid : String ← Prog.perform Request.generate
  let hook : PluginHook := ⟨hid, pluginId, hookPoint, handlerRef, priority, .active⟩
  let _ : Unit ← Prog.perform (Request.insertHook hook plugin.state)
  recordIf self ⟨actorId, .hookRegister, "hook", hid, .null, hook.snapshot⟩
  return hook

def deactivateHook (hookId actorId : String) : Program Unit := do
  let row : Option PluginHook ← Prog.perform (Request.selectHook hookId)
  match row with
  | none => throw (.scoped .plugin ("Hook " ++ hookId ++ " not found") [("hook_id", .str hookId)])
  | some hook =>
    let plugin ← getPluginOrRaise hook.pluginId
    requireOwner plugin actorId
    let _ : Unit ← Prog.perform (Request.archiveHook hookId)
    recordIf self ⟨actorId, .hookDeactivate, "hook", hookId, hook.snapshot, .null⟩

structure HookResult where
  hookId : String
  pluginId : String
  hookPoint : String
  success : Bool
  result : Json
  error : Option String

structure DispatchResult where
  hookPoint : String
  results : List HookResult
  allSucceeded : Bool
  failedCount : Nat

namespace DispatchResult

def succeed (progress : DispatchResult) (hook : PluginHook) (result : Json) : DispatchResult :=
  { progress with results := progress.results ++ [⟨hook.id, hook.pluginId, progress.hookPoint, true, result, none⟩] }

def fail (progress : DispatchResult) (hook : PluginHook) (error : String) : DispatchResult :=
  { progress with
    results := progress.results ++ [⟨hook.id, hook.pluginId, progress.hookPoint, false, .null, some error⟩]
    allSucceeded := false
    failedCount := progress.failedCount + 1 }

end DispatchResult

def recordExecution (hook : PluginHook) (state : List (String × Json)) : Program Unit :=
  recordIf self ⟨hook.pluginId, .hookExecute, "hook", hook.id, .null, .obj state⟩

/-- The optional gate on an explicit grant for the hook point. -/
def admits (hook : PluginHook) (hookPoint : String) : Program Bool :=
  if self.enforceHookPermissions then checkHookAccess hook.pluginId hookPoint else pure true

/-- What follows a failure, and whether the loop is left. -/
def failHook (hook : PluginHook) (error : String) (stopOnFailure : Bool) (progress : DispatchResult) :
    Program (DispatchResult × Bool) := do
  recordExecution self hook [("success", .bool false), ("error", .str error)]
  return (progress.fail hook error, stopOnFailure)

/-- One round of the loop. An audit record that cannot be written after the handler
returned counts as a failure of the handler too. -/
def runHook (hook : PluginHook) (context : Json) (stopOnFailure : Bool) (progress : DispatchResult) :
    Program (DispatchResult × Bool) := do
  let active ← tryCatch (do requireActive hook.pluginId; return true) fun
    | .scoped .pluginSandbox _ _ => return false
    | error => throw error
  if !active then return (progress, false)
  let admitted ← admits self hook progress.hookPoint
  if !admitted then return (progress, false)
  let registered : Bool ← Prog.perform (Request.handler hook.handlerRef)
  if !registered then failHook self hook ("Handler " ++ hook.handlerRef ++ " not found") stopOnFailure progress
  else
    let answered ← (Prog.perform (Request.callHandler hook context) : Program Json).attempt
    match answered with
    | .error error => failHook self hook error.text stopOnFailure progress
    | .ok result =>
      let recorded ← (recordExecution self hook [("success", .bool true)]).attempt
      match recorded with
      | .error error => failHook self hook error.text stopOnFailure (progress.succeed hook result)
      | .ok _ => return (progress.succeed hook result, false)

def runHooks (context : Json) (stopOnFailure : Bool) : List PluginHook → DispatchResult → Program DispatchResult
  | [], progress => pure progress
  | hook :: hooks, progress => do
    let (progress, left) ← runHook self hook context stopOnFailure progress
    if left then return progress else runHooks context stopOnFailure hooks progress

def checkDispatchRule (hookPoint : String) : Program Unit := do
  if self.ruleEngine then
    let result : Verdict ← Prog.perform (Request.evaluate "hook_dispatch" none "hook" hookPoint none)
    if !result.allowed && (!result.denyRules.isEmpty || !result.matchingRules.isEmpty) then
      throw (.scoped .accessDenied ("hook_dispatch denied by rule(s): " ++ listText result.denyRules)
        [("action", .str "hook_dispatch"), ("hook_point", .str hookPoint),
          ("deny_rules", .arr (result.denyRules.map .str))])

def dispatch (hookPoint : String) (context : Json) (stopOnFailure : Bool) : Program DispatchResult := do
  checkDispatchRule self hookPoint
  let hooks : List PluginHook ← Prog.perform (Request.hooksForPoint hookPoint)
  runHooks self context stopOnFailure hooks ⟨hookPoint, [], true, 0⟩

inductive Outcome where
  | plugin (plugin : Plugin)
  | permission (permission : PluginPermission)
  | hook (hook : PluginHook)
  | dispatched (result : DispatchResult)
  | nothing

def invoke : Call → Program Outcome
  | .activate pluginId actorId => Outcome.plugin <$> activate self pluginId actorId
  | .suspend pluginId actorId => Outcome.plugin <$> suspend self pluginId actorId
  | .uninstall pluginId actorId => Outcome.plugin <$> uninstall self pluginId actorId
  | .grantPermission pluginId permissionType targetRef grantedBy =>
    Outcome.permission <$> grantPermission self pluginId permissionType targetRef grantedBy
  | .revokePermission permissionId actorId => do
    revokePermission self permissionId actorId
    return .nothing
  | .registerHook pluginId hookPoint handlerRef actorId priority =>
    Outcome.hook <$> registerHook self pluginId hookPoint handlerRef actorId priority
  | .deactivateHook hookId actorId => do
    deactivateHook self hookId actorId
    return .nothing
  | .dispatch hookPoint context stopOnFailure => Outcome.dispatched <$> dispatch self hookPoint context stopOnFailure

/-- A call, and the remark on how it ended. -/
def call (made : Call) : Program (Except Raised Outcome) := do
  let _ : Unit ← Prog.perform Request.began
  let result ← (invoke self made).attempt
  match result with
  | .ok outcome =>
    let _ : Unit ← Prog.perform (Request.finished made none)
    return .ok outcome
  | .error error =>
    let _ : Unit ← Prog.perform (Request.finished made (some error))
    return .error error

/-- Clients that make one call after another. -/
inductive Client : Program Unit → Prop where
  | done : Client (.pure ())
  | call (made : Call) (next : Except Raised Outcome → Program Unit) (each : ∀ result, Client (next result)) :
      Client ((call self made).bind next)

end PyScoped.Legacy.Plugins
