import PyScoped.Foundation.Instants
import PyScoped.Foundation.Stateful
import Mathlib.Data.List.Sort

/-! Webhook deliveries of version 1: their attempts, and the retries of those
that failed. A statement that the database refuses has written nothing. -/

namespace PyScoped.Legacy.Webhooks
open Foundation

inductive DeliveryStatus where
  | pending | delivered | failed | retrying
  deriving DecidableEq, Repr

/-- A row of `webhook_deliveries`. The text of `attempted_at` reads back as the
moment that was written, the one at which the delivery was queued. -/
structure DeliveryRow where
  id : String
  eventId : String
  webhookEndpointId : String
  subscriptionId : String
  status : DeliveryStatus
  attemptedAt : Moment
  attemptNumber : Nat
  responseStatus : Option Int
  responseBody : Option String
  errorMessage : Option String

structure DeliveryAttempt where
  id : String
  eventId : String
  webhookEndpointId : String
  subscriptionId : String
  status : DeliveryStatus
  attemptedAt : Moment
  responseStatus : Option Int
  responseBody : Option String
  errorMessage : Option String
  attemptNumber : Nat

/-- What is raised: an `Exception` with its text, one whose `str` raises, or something
that no handler here catches. -/
inductive Failure where
  | exception (message : String)
  | mute
  | interrupt

inductive Answer where
  | response (statusCode : Int) (responseBody : String)
  | raises (failure : Failure)

/-- The UPDATE statements. -/
inductive Statement where
  | retrying | fail | ok | err

/-- What the attempt of a delivery meets: whether event and endpoint are there,
what fails while they are read and decrypted, when the transport is called and
what it does, the statements that the database refuses, and what identifies and
dates the record of the attempt. -/
structure Visit where
  known : Bool
  unreadable : Option Failure
  madeAt : Moment
  answer : Answer
  refused : Statement → Option Failure
  generated : String
  recorded : Moment

/-- A remark: an attempt that was made. -/
structure Made where
  deliveryId : String
  madeAt : Int
  retry : Bool
  succeeded : Bool
  deriving DecidableEq

structure World where
  deliveries : List DeliveryRow
  made : List Made

abbrev Program := Stateful World Failure

/-- `UPDATE webhook_deliveries SET ... WHERE id = ...` -/
def amend (deliveryId : String) (change : DeliveryRow → DeliveryRow) (rows : List DeliveryRow) : List DeliveryRow :=
  rows.map fun row => if row.id = deliveryId then change row else row

def update (deliveryId : String) (refused : Option Failure) (change : DeliveryRow → DeliveryRow) : Program Unit :=
  Stateful.assign refused fun world => { world with deliveries := amend deliveryId change world.deliveries }

def remark (made : Made) : Program Unit := modify fun world => { world with made := made :: world.made }

def isSuccess (statusCode : Int) : Bool := 200 ≤ statusCode ∧ statusCode < 300

def Answer.succeeded : Answer → Bool
  | .response statusCode _ => isSuccess statusCode
  | .raises _ => false

/-- The record of an attempt, of whatever outcome. -/
def attemptOf (row : DeliveryRow) (visit : Visit) (status : DeliveryStatus) (responseStatus : Option Int)
    (responseBody errorMessage : Option String) : DeliveryAttempt where
  id := visit.generated
  eventId := row.eventId
  webhookEndpointId := row.webhookEndpointId
  subscriptionId := row.subscriptionId
  status := status
  attemptedAt := visit.recorded
  responseStatus := responseStatus
  responseBody := responseBody
  errorMessage := errorMessage
  attemptNumber := row.attemptNumber + 1

/-- The body of the `try` in `_attempt_delivery`. -/
def transport (visit : Visit) (retry : Bool) (row : DeliveryRow) : Program DeliveryAttempt := do
  remark ⟨row.id, visit.madeAt.instant, retry, visit.answer.succeeded⟩
  match visit.answer with
  | .raises failure => throw failure
  | .response statusCode responseBody =>
    let status : DeliveryStatus := if isSuccess statusCode then .delivered else .failed
    update row.id (visit.refused .ok) fun stored =>
      { stored with
        status := status, attemptNumber := row.attemptNumber + 1, responseStatus := some statusCode,
        responseBody := some responseBody }
    return attemptOf row visit status (some statusCode) (some responseBody) none

/-- `_attempt_delivery`; no branch writes `attempted_at`. -/
def attemptDelivery (visit : Visit) (retry : Bool) (row : DeliveryRow) : Program DeliveryAttempt := do
  if !visit.known then
    update row.id (visit.refused .fail) fun stored =>
      { stored with
        status := .failed, attemptNumber := row.attemptNumber + 1, responseBody := some "Event or endpoint not found" }
    remark ⟨row.id, visit.madeAt.instant, retry, false⟩
    return attemptOf row visit .failed none none (some "Event or endpoint not found")
  else match visit.unreadable with
    | some failure => throw failure
    | none => tryCatch (transport visit retry row) fun failure => match failure with
      | .exception message => do
        update row.id (visit.refused .err) fun stored =>
          { stored with status := .failed, attemptNumber := row.attemptNumber + 1, errorMessage := some message }
        return attemptOf row visit .failed none none (some message)
      | .mute => throw .mute
      | .interrupt => throw .interrupt

/-- `ORDER BY attempted_at ASC` -/
def oldestFirst (rows : List DeliveryRow) : List DeliveryRow :=
  rows.insertionSort fun first second => first.attemptedAt.instant ≤ second.attemptedAt.instant

variable (visits : String → Visit)

def deliverAll : List DeliveryRow → Program (List DeliveryAttempt)
  | [] => return []
  | row :: rows => do
    let attempt ← attemptDelivery (visits row.id) false row
    let attempts ← deliverAll rows
    return attempt :: attempts

def deliverPending : Program (List DeliveryAttempt) := do
  deliverAll visits (oldestFirst ((← get).deliveries.filter fun row => row.status = .pending))

/-- `backoff_base * (2 ** max(0, attempt_num - 1))`, in microseconds -/
def delay (backoffBase attemptNumber : Nat) : Int := backoffBase * 2 ^ (attemptNumber - 1) * 1000000

/-- `elapsed < delay_seconds`, compared exactly -/
def isEarly (backoffBase : Nat) (now : Moment) (row : DeliveryRow) : Bool :=
  now.instant - row.attemptedAt.instant < delay backoffBase row.attemptNumber

def retryAll (backoffBase : Nat) (now : Moment) : List DeliveryRow → Program (List DeliveryAttempt)
  | [] => return []
  | row :: rows => do
    if isEarly backoffBase now row then retryAll backoffBase now rows
    else
      update row.id ((visits row.id).refused .retrying) fun stored => { stored with status := .retrying }
      let attempt ← attemptDelivery (visits row.id) true { row with status := .retrying }
      let attempts ← retryAll backoffBase now rows
      return attempt :: attempts

def retriable (maxRetries : Int) (row : DeliveryRow) : Bool := row.status = .failed && row.attemptNumber < maxRetries

def retryFailed (maxRetries : Int) (backoffBase : Nat) (now : Moment) : Program (List DeliveryAttempt) := do
  retryAll visits backoffBase now (oldestFirst ((← get).deliveries.filter (retriable maxRetries)))

/-- `EventBus._queue_delivery` -/
def queued (id eventId webhookEndpointId subscriptionId : String) (now : Moment) : DeliveryRow where
  id := id
  eventId := eventId
  webhookEndpointId := webhookEndpointId
  subscriptionId := subscriptionId
  status := .pending
  attemptedAt := now
  attemptNumber := 0
  responseStatus := none
  responseBody := none
  errorMessage := none

inductive Call where
  | queue (id eventId webhookEndpointId subscriptionId : String) (now : Moment)
  | deliverPending (visits : String → Visit)
  | retryFailed (now : Moment) (visits : String → Visit)

def World.new : World := ⟨[], []⟩

/-- One call after the other; one that raises keeps what it has written. -/
def after (maxRetries : Int) (backoffBase : Nat) (world : World) : Call → World
  | .queue id eventId webhookEndpointId subscriptionId now =>
    { world with deliveries := world.deliveries ++ [queued id eventId webhookEndpointId subscriptionId now] }
  | .deliverPending visits => ((deliverPending visits).on world).2
  | .retryFailed now visits => ((retryFailed visits maxRetries backoffBase now).on world).2

end PyScoped.Legacy.Webhooks
