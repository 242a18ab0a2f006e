import PyScoped.Foundation.Json
import PyScoped.Foundation.LiveLoops
import PyScoped.Legacy.Types
import PyScoped.Legacy.Webhooks

/-! The event bus of version 1. Its two loops go over the lists of listeners as they
are, while the listeners that they call may change them and emit. What the listeners do
is left open: between two calls of the bus any of its operations may come. -/

namespace PyScoped.Legacy.EventBus
open Foundation

inductive EventType where
  | objectCreated | objectUpdated | objectDeleted | scopeCreated | scopeModified | scopeDissolved | membershipChanged
  | ruleChanged | environmentSpawned | environmentCompleted | environmentDiscarded | environmentPromoted
  | deploymentCompleted | deploymentRolledBack | secretRotated | stageTransitioned | connectorSynced | custom
  deriving DecidableEq, Repr

def EventType.value : EventType → String
  | .objectCreated => "object_created"
  | .objectUpdated => "object_updated"
  | .objectDeleted => "object_deleted"
  | .scopeCreated => "scope_created"
  | .scopeModified => "scope_modified"
  | .scopeDissolved => "scope_dissolved"
  | .membershipChanged => "membership_changed"
  | .ruleChanged => "rule_changed"
  | .environmentSpawned => "environment_spawned"
  | .environmentCompleted => "environment_completed"
  | .environmentDiscarded => "environment_discarded"
  | .environmentPromoted => "environment_promoted"
  | .deploymentCompleted => "deployment_completed"
  | .deploymentRolledBack => "deployment_rolled_back"
  | .secretRotated => "secret_rotated"
  | .stageTransitioned => "stage_transitioned"
  | .connectorSynced => "connector_synced"
  | .custom => "custom"

structure Event where
  id : String
  eventType : EventType
  actorId : String
  targetType : String
  targetId : String
  timestamp : Moment
  scopeId : Option String
  data : Json
  sourceTraceId : Option String
  lifecycle : Lifecycle

structure EventSubscription where
  id : String
  eventTypes : List String
  targetTypes : List String
  scopeId : Option String
  webhookEndpointId : Option String
  lifecycle : Lifecycle
  deriving DecidableEq

/-- `matches` -/
def EventSubscription.admits (subscription : EventSubscription) (event : Event) : Bool :=
  subscription.lifecycle = .active &&
    (subscription.eventTypes.isEmpty || event.eventType.value ∈ subscription.eventTypes) &&
    (subscription.targetTypes.isEmpty || event.targetType ∈ subscription.targetTypes) &&
    subscription.scopeId.all fun scopeId => event.scopeId = some scopeId

/-- `_match_subscriptions` -/
def matchSubscriptions (subscriptions : List EventSubscription) (event : Event) : List EventSubscription :=
  (subscriptions.filter fun subscription => subscription.lifecycle = .active).filter (·.admits event)

/-- `_queue_delivery`, with what is generated for the row. -/
def queueDelivery (event : Event) (subscription : EventSubscription) (endpoint : String) (stamp : String × Moment) :
    Webhooks.DeliveryRow where
  id := stamp.1
  eventId := event.id
  webhookEndpointId := endpoint
  subscriptionId := subscription.id
  status := .pending
  attemptedAt := stamp.2
  attemptNumber := 0
  responseStatus := none
  responseBody := none
  errorMessage := none

/-- The deliveries that `emit` queues, in order. -/
def queueDeliveries (event : Event) (stamp : Nat → String × Moment) (matched : List EventSubscription) :
    List Webhooks.DeliveryRow :=
  matched.zipIdx.filterMap fun (subscription, place) =>
    match subscription.webhookEndpointId with
    | some endpoint => if endpoint ≠ "" then some (queueDelivery event subscription endpoint (stamp place)) else none
    | none => none

def wildcard : String := "*"

/-- A listener as it was registered under a key. A ticket tells registrations apart. -/
structure Registration (ℓ : Type) where
  key : String
  listener : ℓ
  ticket : Nat
  deriving DecidableEq

/-- An `emit` that is calling listeners: the loop over those of the type, then the one
over those that receive all events. -/
structure Frame (ℓ : Type) where
  event : Event
  specific : Loop (Registration ℓ)
  general : Loop (Registration ℓ)
  late : Bool

/-- A remark. -/
inductive Happening (ℓ : Type) where
  | called (eventId : String) (registration : Registration ℓ)
  | removed (registration : Registration ℓ)
  deriving DecidableEq

/-- The bus and its tables, and the calls of `emit` that have begun, the last one first. -/
structure Bus (ℓ : Type) where
  listeners : String → List (Registration ℓ)
  tickets : Nat
  events : List Event
  deliveries : List Webhooks.DeliveryRow
  stack : List (Frame ℓ)
  finished : List (Frame ℓ)
  history : List (Happening ℓ)

/-- What a listener, or whoever uses the bus, does next: an operation, or it returns. -/
inductive Move (ℓ : Type) where
  | on (key : String) (listener : ℓ)
  | off (key : String) (listener : ℓ)
  | emit (event : Event) (stamp : Nat → String × Moment)
  | back

def onAny {ℓ : Type} (listener : ℓ) : Move ℓ := .on wildcard listener

def offAny {ℓ : Type} (listener : ℓ) : Move ℓ := .off wildcard listener

namespace Bus

variable {ℓ : Type} [DecidableEq ℓ]

/-- `on` -/
def on (bus : Bus ℓ) (key : String) (listener : ℓ) : Bus ℓ :=
  { bus with
    listeners := Function.update bus.listeners key (bus.listeners key ++ [⟨key, listener, bus.tickets⟩])
    tickets := bus.tickets + 1 }

/-- The registration that `listeners.remove(listener)` takes out. -/
def firstOf (bus : Bus ℓ) (key : String) (listener : ℓ) : Option (Registration ℓ) :=
  (bus.listeners key).find? fun registration => registration.listener = listener

/-- `off` -/
def off (bus : Bus ℓ) (key : String) (listener : ℓ) : Bus ℓ :=
  match bus.firstOf key listener with
  | none => bus
  | some registration =>
    { bus with
      listeners := Function.update bus.listeners key ((bus.listeners key).erase registration)
      history := .removed registration :: bus.history }

/-- The last `emit` goes on to its next listener, or returns. -/
def advance (bus : Bus ℓ) : Bus ℓ :=
  match bus.stack with
  | [] => bus
  | frame :: frames =>
    match if frame.late then none else frame.specific.next (bus.listeners frame.event.eventType.value) with
    | some (registration, loop) =>
      { bus with
        stack := { frame with specific := loop } :: frames
        history := .called frame.event.id registration :: bus.history }
    | none =>
      match frame.general.next (bus.listeners wildcard) with
      | some (registration, loop) =>
        { bus with
          stack := { frame with general := loop, late := true } :: frames
          history := .called frame.event.id registration :: bus.history }
      | none => { bus with stack := frames, finished := { frame with late := true } :: bus.finished }

/-- `emit`, as far as its first listener. An id that is taken is refused. -/
def emit (subscriptions : List EventSubscription) (bus : Bus ℓ) (event : Event) (stamp : Nat → String × Moment) :
    Option (Bus ℓ) :=
  if event.id ∈ bus.events.map Event.id then none
  else some (advance { bus with
    events := bus.events ++ [event]
    deliveries := bus.deliveries ++ queueDeliveries event stamp (matchSubscriptions subscriptions event)
    stack := ⟨event, .of (bus.listeners event.eventType.value), .of (bus.listeners wildcard), false⟩ :: bus.stack })

def step (subscriptions : List EventSubscription) (bus : Bus ℓ) : Move ℓ → Option (Bus ℓ)
  | .on key listener => some (bus.on key listener)
  | .off key listener => some (bus.off key listener)
  | .emit event stamp => bus.emit subscriptions event stamp
  | .back => if bus.stack.isEmpty then none else some bus.advance

def run (subscriptions : List EventSubscription) (bus : Bus ℓ) (moves : List (Move ℓ)) : Option (Bus ℓ) :=
  moves.foldlM (step subscriptions) bus

end Bus
end PyScoped.Legacy.EventBus
