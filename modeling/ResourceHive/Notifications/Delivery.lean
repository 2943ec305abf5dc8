import ResourceHive.Machinery.Machine
import ResourceHive.Points.Ledger

/-!
# Notifications/Delivery — dispatching queued notifications to their providers

`DeliveryRepository`, `DeliveryWorkerService.process` and `DeliveryDispatcherService.dispatchDue`, as
a machine of any number of dispatcher instances over `notification_deliveries`.  Each statement is
committed by itself; `provider.send` may take any time.  `claim` tests the status of the row it
updates, `complete` and `fail` only its id.
-/

namespace ResourceHive.Notifications

/-! ## The table -/

inductive DeliveryChannel
  | email
  | push
  deriving DecidableEq, Repr

inductive DeliveryStatus
  | queued
  | processing
  | retryScheduled
  | sent
  | failed
  | quarantined
  deriving DecidableEq, Repr

/-- A row of `notification_deliveries`; `data` as text. -/
structure NotificationDelivery where
  id : Uuid
  channel : DeliveryChannel
  destination : String
  subject : Option String := none
  body : Option String := none
  data : String := "{}"
  status : DeliveryStatus := .queued
  attemptCount : ℕ := 0
  nextAttemptAt : Option Timestamp := none
  providerMessageId : Option String := none
  lastError : Option String := none
  createdAt : Timestamp
  updatedAt : Timestamp
  deriving DecidableEq, Repr

namespace NotificationDelivery

/-- The primary key, and the range of `attempt_count`. -/
def Constraints (rows : List NotificationDelivery) : Prop :=
  Table.Unique id rows ∧ Table.Check (fun d => d.attemptCount ≤ 2147483647) rows

instance : DecidablePred Constraints := fun _ => inferInstanceAs (Decidable (_ ∧ _))

end NotificationDelivery

abbrev Deliveries := Table NotificationDelivery NotificationDelivery.Constraints

/-- The status of a delivery. -/
def status? (T : Deliveries) (id : Uuid) : Option DeliveryStatus :=
  (T.find? (·.id = id)).map (·.status)

/-! ## The retry policy -/

/-- What `send` or a statement threw: a `DeliveryProviderError`, or anything else. -/
inductive DeliveryError
  | provider (code : String) (transient : Bool) (message : String)
  | other (message : Option String)
  deriving DecidableEq, Repr

namespace DeliveryError

def code : DeliveryError → String
  | provider code _ _ => code
  | other _ => "UNEXPECTED_PROVIDER_ERROR"

def transient : DeliveryError → Bool
  | provider _ transient _ => transient
  | other _ => true

def message : DeliveryError → String
  | provider _ _ message => message
  | other message => message.getD "Unknown provider error"

end DeliveryError

/-- `DELAYS`, in milliseconds. -/
def delays : List ℤ := [30000, 120000, 600000, 3600000, 21600000]

structure RetryDecision where
  retry : Bool
  nextAttemptAt : Option Timestamp
  code : String
  message : String
  deriving DecidableEq, Repr

/-- **`decideRetry`**: a transient error is retried while there is a delay for the attempt. -/
def decideRetry (error : DeliveryError) (attemptCount : ℕ) (now : Timestamp) : RetryDecision :=
  let delay := if attemptCount = 0 then none else delays[attemptCount - 1]?
  let retry := error.transient && delay.isSome
  { retry
    nextAttemptAt := if retry then delay.map (now + ·) else none
    code := error.code
    message := error.message }

/-! ## The repository -/

namespace DeliveryRepository

/-- `where` of `claim` and `findDue`: queued, or due for a retry. -/
def due (now : Timestamp) (d : NotificationDelivery) : Bool :=
  decide (d.status = .queued)
    || (decide (d.status = .retryScheduled) && d.nextAttemptAt.any fun t => decide (t ≤ now))

/-- The row `claim` updates. -/
def claimable (id : Uuid) (now : Timestamp) (d : NotificationDelivery) : Bool :=
  decide (d.id = id) && due now d

/-- `data` of `claim`. -/
def claim (now : Timestamp) (d : NotificationDelivery) : NotificationDelivery :=
  { d with status := .processing, attemptCount := d.attemptCount + 1, updatedAt := now }

/-- `data` of `complete`; the content of an e-mail is scrubbed, and an undefined message id leaves
the column alone. -/
def complete (providerMessageId : Option String) (scrubContent : Bool) (now : Timestamp)
    (d : NotificationDelivery) : NotificationDelivery :=
  { d with
    status := .sent
    providerMessageId := providerMessageId.or d.providerMessageId
    nextAttemptAt := none
    lastError := none
    subject := if scrubContent then none else d.subject
    body := if scrubContent then none else d.body
    data := if scrubContent then "{}" else d.data
    updatedAt := now }

/-- `data` of `fail`; without a retry the time of the next attempt is left alone. -/
def fail (decision : RetryDecision) (now : Timestamp) (d : NotificationDelivery) :
    NotificationDelivery :=
  { d with
    status := if decision.retry then .retryScheduled else .failed
    nextAttemptAt := decision.nextAttemptAt.or d.nextAttemptAt
    lastError :=
      some (String.ofList ((decision.code ++ ": " ++ decision.message).toList.take 1000))
    updatedAt := now }

/-- `where` of `requeueStale`: in processing, and not touched for five minutes. -/
def stale (now : Timestamp) (d : NotificationDelivery) : Bool :=
  decide (d.status = .processing) && decide (d.updatedAt < now - 5 * 60000)

/-- `data` of `requeueStale`. -/
def requeue (now : Timestamp) (d : NotificationDelivery) : NotificationDelivery :=
  { d with status := .queued, updatedAt := now }

/-- An `update` of the row with an id; it throws if there is none. -/
def updateById (T : Deliveries) (id : Uuid) (f : NotificationDelivery → NotificationDelivery) :
    Option Deliveries :=
  if T.rows.any (·.id = id) then T.update (·.id = id) f else none

end DeliveryRepository

/-! ## The dispatchers -/

/-- What is sent, if the row has its content. -/
def content (d : NotificationDelivery) : Option (String × String) :=
  match d.subject, d.body with
  | some subject, some body => if subject = "" ∨ body = "" then none else some (subject, body)
  | _, _ => none

/-- Where a dispatcher instance is: outside `dispatchDue`, in it, or in `process` of one delivery,
with the rest of the list still to come. -/
inductive Point
  | idle
  | requeueing
  | finding
  | looping (ids : List Uuid)
  | claimed (id : Uuid) (rest : List Uuid)
  | found (delivery : NotificationDelivery) (rest : List Uuid)
  | sending (delivery : NotificationDelivery) (rest : List Uuid)
  | completing (delivery : NotificationDelivery) (providerMessageId : Option String)
      (rest : List Uuid)
  | failing (delivery : NotificationDelivery) (error : DeliveryError) (rest : List Uuid)
  | crashed
  deriving DecidableEq, Repr

/-- How a statement ends for its caller: acknowledged; not executed; or executed, but its answer was
lost. -/
inductive Acknowledgement
  | acknowledged
  | refused (message : Option String)
  | lost (message : Option String)
  deriving DecidableEq, Repr

/-- What an instance does next, with clock readings and what the database and the provider answer. -/
inductive Action
  | tick
  /-- The rows the statement has found, of those that match. -/
  | requeueStale (now : Timestamp) (ids : List Uuid)
  /-- The due rows, oldest first. -/
  | findDue (now : Timestamp) (rows : List NotificationDelivery)
  | finish
  | claim (now : Timestamp)
  | findUnique
  | send
  | answer (result : Except DeliveryError (Option String))
  | complete (now : Timestamp) (ack : Acknowledgement)
  | fail (now : Timestamp)
  /-- A statement outside the `try` throws, which ends `dispatchDue`. -/
  | abort
  | crash

/-- What the history keeps. -/
inductive Event
  | claimed (dispatcher : ℕ) (id : Uuid)
  | sendStarted (dispatcher : ℕ) (id : Uuid)
  | completed (id : Uuid)
  deriving DecidableEq, Repr

/-- What an action leads to. -/
structure Effect where
  deliveries : Deliveries
  point : Point
  event : Option Event := none

/-- The default `limit` of `findDue`. -/
def limit : ℕ := 50

/-- Points from which an error ends `dispatchDue`: all in it but those inside the `try`. -/
def Point.aborts : Point → Bool
  | .requeueing | .finding | .looping _ | .claimed _ _ | .failing _ _ _ => true
  | .idle | .found _ _ | .sending _ _ | .completing _ _ _ | .crashed => false

open DeliveryRepository in
/-- **One action of instance `i`.** -/
def act (T : Deliveries) (i : ℕ) : Point → Action → Option Effect
  | .idle, .tick => some ⟨T, .requeueing, none⟩
  | .requeueing, .requeueStale now ids =>
    (T.update (fun d => decide (d.id ∈ ids) && stale now d) (requeue now)).map
      fun T => ⟨T, .finding, none⟩
  | .finding, .findDue now rows =>
    if rows.Perm (T.rows.filter (due now)) ∧ rows.Pairwise (·.createdAt ≤ ·.createdAt) then
      some ⟨T, .looping ((rows.take limit).map (·.id)), none⟩
    else none
  | .looping [], .finish => some ⟨T, .idle, none⟩
  | .looping (id :: rest), .claim now =>
    -- a count that is not one: somebody else has it
    if T.rows.any (claimable id now) then
      (T.update (claimable id now) (claim now)).map
        fun T => ⟨T, .claimed id rest, some (.claimed i id)⟩
    else some ⟨T, .looping rest, none⟩
  | .claimed id rest, .findUnique =>
    some <| match T.find? (·.id = id) with
      | none => ⟨T, .looping rest, none⟩
      | some delivery => ⟨T, .found delivery rest, none⟩
  | .found delivery rest, .send =>
    some <| match content delivery with
      | none => ⟨T, .failing delivery (.other (some "Delivery content is missing")) rest, none⟩
      | some _ => ⟨T, .sending delivery rest, some (.sendStarted i delivery.id)⟩
  | .sending delivery rest, .answer (.ok providerMessageId) =>
    some ⟨T, .completing delivery providerMessageId rest, none⟩
  | .sending delivery rest, .answer (.error error) => some ⟨T, .failing delivery error rest, none⟩
  | .completing delivery providerMessageId rest, .complete now ack =>
    let completed := updateById T delivery.id
      (complete providerMessageId (delivery.channel = .email) now)
    match ack with
    | .acknowledged =>
      completed.map fun T => ⟨T, .looping rest, some (.completed delivery.id)⟩
    | .refused message => some ⟨T, .failing delivery (.other message) rest, none⟩
    | .lost message =>
      completed.map fun T =>
        ⟨T, .failing delivery (.other message) rest, some (.completed delivery.id)⟩
  | .failing delivery error rest, .fail now =>
    (updateById T delivery.id (fail (decideRetry error delivery.attemptCount now) now)).map
      fun T => ⟨T, .looping rest, none⟩
  | p, .abort => if p.aborts then some ⟨T, .idle, none⟩ else none
  | p, .crash => if p = .crashed then none else some ⟨T, .crashed, none⟩
  | _, _ => none

/-! ## The machine -/

/-- The table, the instances, and what has happened, the latest first. -/
structure Service where
  deliveries : Deliveries
  dispatchers : List Point
  history : List Event

inductive Label
  /-- A further instance starts. -/
  | start
  /-- A command enqueues a delivery. -/
  | enqueue (delivery : NotificationDelivery)
  | act (i : ℕ) (a : Action)

def Service.step (s : Service) : Label → Option Service
  | .start => some { s with dispatchers := s.dispatchers ++ [.idle] }
  | .enqueue delivery =>
    if delivery.status = .queued then
      (s.deliveries.insert delivery).map fun deliveries => { s with deliveries }
    else none
  | .act i a =>
    s.dispatchers[i]?.bind fun p =>
      (act s.deliveries i p a).map fun e =>
        { deliveries := e.deliveries
          dispatchers := s.dispatchers.set i e.point
          history := e.event.toList ++ s.history }

/-- The machine of the dispatchers, over any table. -/
def machine : Machine Service Label where
  init s := s.dispatchers = [] ∧ s.history = []
  step := Service.step

end ResourceHive.Notifications
