import ResourceHive.Machinery.Machine
import ResourceHive.Machinery.Table
import ResourceHive.Notifications.Rejections

/-!
# Notifications/Consumer — consuming the messages of Kafka

Any number of consumers over the partitions of the three topics, one message at a time, as a
machine.  A consumer that is assigned a partition starts at its committed offset, or anywhere before
it; whatever fails (a statement, the producer, the broker, the process) leaves it at the message it
was at, to be delivered again, and a partition may be assigned to several consumers at once.

A transaction claims its command by the row it inserts into `processed_events`.  Another one that
inserts the same row meanwhile waits for the first to end; no row is visible before the commit.
-/

namespace ResourceHive.Notifications

/-! ## What there is -/

inductive KafkaTopic
  | bookingEvents
  | commands
  | identityCommands
  deriving DecidableEq, Repr

/-- `NOTIFICATION_TOPICS`. -/
def KafkaTopic.text : KafkaTopic → String
  | bookingEvents => "resourcehive.booking.events.v1"
  | commands => "resourcehive.notification.commands.v1"
  | identityCommands => "resourcehive.identity.notification-commands.v1"

structure TopicPartition where
  topic : KafkaTopic
  partition : ℕ
  deriving DecidableEq, Repr

structure KafkaMessage where
  key : Option String
  payload : Json

/-- The messages of the partitions, by offset. -/
abbrev Log := TopicPartition → ℕ → KafkaMessage

/-- A row of `processed_events`; the event id as the database writes a UUID. -/
structure ProcessedEvent where
  eventId : String
  consumerName : String
  deriving DecidableEq, Repr

/-- `processed_events_event_consumer_unique`. -/
abbrev ProcessedEvents :=
  Table ProcessedEvent (Table.Unique fun e => (e.eventId, e.consumerName))

/-- `${commandId}::uuid`: the letters of a UUID are written small. -/
def uuid (s : String) : String := String.ofList (s.toList.map Char.toLower)

/-- The row that claims a command; `CONSUMER_NAME`. -/
def claimOf (command : NotificationCommandV1) : ProcessedEvent where
  eventId := uuid command.commandId
  consumerName := "notification-command-consumer-v1"

/-- A transaction that was committed: its command, and the rows it created. -/
structure Execution where
  command : NotificationCommandV1
  notification : Option Notification
  deliveries : List QueuedDelivery
  deriving DecidableEq, Repr

/-- Where the handling of a message is. -/
inductive Stage
  /-- The consumer is about to fetch the message. -/
  | idle
  | received
  /-- About to insert the row of the command, and having done so. -/
  | claiming (command : NotificationCommandV1)
  | claimed (command : NotificationCommandV1)
  /-- All statements of the transaction are executed. -/
  | prepared (execution : Execution)
  | rejecting (errorCode errorMessage : String)
  /-- The handler has returned, or the rejection is published. -/
  | settled
  /-- The offset is committed. -/
  | committed
  deriving DecidableEq, Repr

structure Consumer where
  source : TopicPartition
  position : ℕ
  stage : Stage
  deriving DecidableEq, Repr

/-- The tables, the topic of dead letters and the committed offsets; each notification and each
delivery with the id of the command it was created for, and what was committed. -/
structure NotificationSystem where
  processedEvents : ProcessedEvents
  notifications : List (String × Notification)
  deliveries : List (String × QueuedDelivery)
  executions : List Execution
  deadLetters : List NotificationRejected
  offsets : TopicPartition → ℕ
  consumers : List Consumer

/-- What happens, and to which consumer. -/
inductive Happening
  | assign (source : TopicPartition) (position : ℕ)
  | advance (i : ℕ) (answers : Answers)
  | fail (i : ℕ)

/-! ## One step -/

variable (P : Platform) (log : Log)

/-- The command that a message asks to process, if it asks for one at all. -/
def commandOf (source : TopicPartition) (payload : Json) : Attempt (Option NotificationCommandV1) :=
  match source.topic with
  | .bookingEvents => handle P .ok payload
  | .commands | .identityCommands => (process P .ok payload).map some

/-- After an error: the rejection is published, or the error is thrown on and the message delivered
again. -/
def afterError (e : Exception HandlerError) : Stage :=
  match permanentRejection e with
  | some (errorCode, errorMessage) => .rejecting errorCode errorMessage
  | none => .idle

namespace Consumer

/-- The message a consumer is at. -/
def payload (c : Consumer) : Json := (log c.source c.position).payload

/-- The row that the transaction of a consumer has inserted. -/
def held (c : Consumer) : Option ProcessedEvent :=
  match c.stage with
  | .claimed command => some (claimOf command)
  | .prepared execution => some (claimOf execution.command)
  | _ => none

end Consumer

namespace NotificationSystem

variable (s : NotificationSystem)

/-- Where a step leaves nothing behind. -/
def nextStage (c : Consumer) (answers : Answers) : Option Stage :=
  match c.stage with
  | .idle => some .received
  | .received =>
    match commandOf P c.source (c.payload log) with
    | .ok none => some .settled
    | .ok (some command) => some (.claiming command)
    | .error e => some (afterError e)
  | .claiming command =>
    if s.consumers.any fun d => d.held = some (claimOf command) then none
    else if claimOf command ∈ s.processedEvents.rows then some .settled
    else some (.claimed command)
  | .claimed command =>
    match processWithinTransaction P { answers with claimed := true } command with
    | .ok (.created notification deliveries) =>
      some (.prepared ⟨command, notification, deliveries⟩)
    | .ok .duplicate => none
    | .error e => some (afterError e)
  | _ => none

/-- The consumer is left at a message, in a stage. -/
def goTo (i : ℕ) (c : Consumer) : NotificationSystem :=
  { s with consumers := s.consumers.set i c }

/-- What a committed transaction leaves. -/
def commitTransaction (T : ProcessedEvents) (e : Execution) : NotificationSystem :=
  { s with
    processedEvents := T
    notifications := s.notifications ++ e.notification.toList.map (e.command.commandId, ·)
    deliveries := s.deliveries ++ e.deliveries.map (e.command.commandId, ·)
    executions := s.executions ++ [e] }

/-- `publishRejection`. -/
def publish (c : Consumer) (errorCode errorMessage : String) : NotificationSystem :=
  { s with
    deadLetters := s.deadLetters ++ [
      { key := (log c.source c.position).key
        sourceTopic := c.source.topic.text
        sourcePartition := c.source.partition
        sourceOffset := c.position
        messageId := messageId (c.payload log)
        errorCode
        errorMessage }] }

/-- `commit`. -/
def commitOffset (c : Consumer) : NotificationSystem :=
  { s with offsets := Function.update s.offsets c.source (c.position + 1) }

/-- A step of a consumer. -/
def advance (i : ℕ) (c : Consumer) (answers : Answers) : Option NotificationSystem :=
  match c.stage with
  | .prepared e =>
    (s.processedEvents.insert (claimOf e.command)).map fun T =>
      (s.commitTransaction T e).goTo i { c with stage := .settled }
  | .rejecting errorCode errorMessage =>
    some ((s.publish log c errorCode errorMessage).goTo i { c with stage := .settled })
  | .settled => some ((s.commitOffset c).goTo i { c with stage := .committed })
  | .committed => some (s.goTo i { c with position := c.position + 1, stage := .idle })
  | _ => (s.nextStage P log c answers).map fun stage => s.goTo i { c with stage }

/-- **One step.** -/
def step : Happening → Option NotificationSystem
  | .assign source position =>
    if position ≤ s.offsets source then
      some { s with consumers := s.consumers ++ [⟨source, position, .idle⟩] }
    else none
  | .advance i answers => s.consumers[i]?.bind fun c => s.advance P log i c answers
  | .fail i => s.consumers[i]?.map fun c => s.goTo i { c with stage := .idle }

end NotificationSystem

/-- **The consumers of a log**, from tables that are empty and from the offsets at which the group
begins. -/
def consuming (first : TopicPartition → ℕ) : Machine NotificationSystem Happening where
  init s := s.processedEvents.rows = [] ∧ s.notifications = [] ∧ s.deliveries = [] ∧
    s.executions = [] ∧ s.deadLetters = [] ∧ s.offsets = first ∧ s.consumers = []
  step := NotificationSystem.step P log

/-! ## What a step can do -/

namespace NotificationSystem

variable {P log} {s t : NotificationSystem}

/-- **The cases of a step.** -/
inductive Moves (P : Platform) (log : Log) (s : NotificationSystem) :
    Happening → NotificationSystem → Prop
  | assign {source position} (h : position ≤ s.offsets source) :
      Moves P log s (.assign source position)
        { s with consumers := s.consumers ++ [⟨source, position, .idle⟩] }
  | fail {i c} (hc : s.consumers[i]? = some c) :
      Moves P log s (.fail i) (s.goTo i { c with stage := .idle })
  | stage {i c answers stage} (hc : s.consumers[i]? = some c)
      (h : s.nextStage P log c answers = some stage) :
      Moves P log s (.advance i answers) (s.goTo i { c with stage })
  | transaction {i c answers e T} (hc : s.consumers[i]? = some c) (hstage : c.stage = .prepared e)
      (h : s.processedEvents.insert (claimOf e.command) = some T) :
      Moves P log s (.advance i answers)
        ((s.commitTransaction T e).goTo i { c with stage := .settled })
  | publish {i c answers errorCode errorMessage} (hc : s.consumers[i]? = some c)
      (hstage : c.stage = .rejecting errorCode errorMessage) :
      Moves P log s (.advance i answers)
        ((s.publish log c errorCode errorMessage).goTo i { c with stage := .settled })
  | offset {i c answers} (hc : s.consumers[i]? = some c) (hstage : c.stage = .settled) :
      Moves P log s (.advance i answers)
        ((s.commitOffset c).goTo i { c with stage := .committed })
  | next {i c answers} (hc : s.consumers[i]? = some c) (hstage : c.stage = .committed) :
      Moves P log s (.advance i answers)
        (s.goTo i { c with position := c.position + 1, stage := .idle })

theorem step_cases {l : Happening} (h : s.step P log l = some t) : Moves P log s l t := by
  cases l with
  | assign source position =>
    simp only [step, Option.ite_none_right_eq_some, Option.some.injEq] at h
    obtain ⟨hle, rfl⟩ := h
    exact .assign hle
  | fail i =>
    obtain ⟨c, hc, rfl⟩ := Option.map_eq_some_iff.mp h
    exact .fail hc
  | advance i answers =>
    obtain ⟨c, hc, h⟩ := Option.bind_eq_some_iff.mp h
    unfold advance at h
    split at h
    case h_1 e hstage =>
      obtain ⟨T, hT, rfl⟩ := Option.map_eq_some_iff.mp h
      exact .transaction hc hstage hT
    case h_2 hstage =>
      obtain rfl := Option.some.inj h
      exact .publish hc hstage
    case h_3 hstage =>
      obtain rfl := Option.some.inj h
      exact .offset hc hstage
    case h_4 hstage =>
      obtain rfl := Option.some.inj h
      exact .next hc hstage
    case h_5 =>
      obtain ⟨stage, hstage, rfl⟩ := Option.map_eq_some_iff.mp h
      exact .stage hc hstage

end NotificationSystem

end ResourceHive.Notifications
