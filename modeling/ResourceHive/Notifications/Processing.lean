import ResourceHive.Notifications.Commands

/-!
# Notifications/Processing — from a message to what is stored and published

`NotificationTemplateService`, `BookingEventService`, `NotificationCommandService` and
`NotificationEventController`, for one delivery of one message.  What the statements of the
transaction answer comes from outside (`Answers`); none of them fails here.
-/

namespace ResourceHive.Notifications

/-! ## Templates -/

structure RenderedNotification where
  type : String
  title : String
  message : String
  emailSubject : String
  emailText : String
  deriving DecidableEq, Repr

/-- The value of a variable. -/
def TemplateVariables.get? (vars : TemplateVariables) (name : String) : Option TemplateValue :=
  (vars.find? (·.1 = name)).map (·.2)

theorem TemplateVariables.get?_cons (v : String × TemplateValue) (vars : TemplateVariables)
    (name : String) : TemplateVariables.get? (v :: vars) name =
      if v.1 = name then some v.2 else vars.get? name := by
  by_cases h : v.1 = name <;> simp [get?, h]

/-- `NotificationTemplateService.text`: a string that is not blank, trimmed. -/
def variableText (vars : TemplateVariables) (name : String) : Option String :=
  match vars.get? name with
  | some (.string s) => if trim s ≠ "" then some (trim s) else none
  | _ => none

/-- `required`. -/
def required (vars : TemplateVariables) (name : String) : Attempt String :=
  match variableText vars name with
  | some s => .ok s
  | none => .error (.thrown (.error ("Template variable " ++ name ++ " is required")))

def renderIdentityEmail (template : NotificationTemplate) : Attempt RenderedNotification :=
  match template.key with
  | .identityVerifyEmail => do
    let url ← required template.vars "verificationUrl"
    return {
      type := "EMAIL_VERIFICATION"
      title := "Verify your ResourceHive email"
      message := "Verify your email address to continue using ResourceHive."
      emailSubject := "Verify your ResourceHive email"
      emailText := "Verify your email by opening this link: " ++ url }
  | .identityPasswordReset => do
    let url ← required template.vars "resetUrl"
    return {
      type := "PASSWORD_RESET_EMAIL"
      title := "Reset your ResourceHive password"
      message := "Reset your ResourceHive password."
      emailSubject := "Reset your ResourceHive password"
      emailText := "Reset your password by opening this link: " ++ url ++
        "\n\nIf you did not request this change, you can ignore this email." }
  | .identityPasswordChanged =>
    .ok {
      type := "PASSWORD_CHANGED_EMAIL"
      title := "Your ResourceHive password was changed"
      message := "Your ResourceHive password was changed."
      emailSubject := "Your ResourceHive password was changed"
      emailText := "Your ResourceHive password was changed. If you did not make this change, " ++
        "contact your organization administrator." }
  | _ => .error (.thrown (.error "Unsupported Identity email template"))

variable (P : Platform)

/-- `String(value)`. -/
def TemplateValue.text : TemplateValue → String
  | string s => s
  | number n => P.number n
  | boolean b => if b then "true" else "false"

def renderBooking (template : NotificationTemplate) : Attempt RenderedNotification :=
  let name := ((template.vars.get? "resourceName").map (·.text P)).getD "resource"
  match template.key with
  | .bookingConfirmed =>
    let message := "Your booking for " ++ name ++ " is confirmed."
    .ok {
      type := "BOOKING_CONFIRMED"
      title := "Booking confirmed"
      message
      emailSubject := "Your ResourceHive booking is confirmed"
      emailText := message }
  | .bookingCancelled =>
    let refunded := match template.vars.get? "refundPoints" with
      | some (.number refund) => " " ++ P.number refund ++ " points were refunded."
      | _ => ""
    let message := "Your booking for " ++ name ++ " was cancelled." ++ refunded
    .ok {
      type := "BOOKING_CANCELLED"
      title := "Booking cancelled"
      message
      emailSubject := "Your ResourceHive booking was cancelled"
      emailText := message }
  | .bookingCompleted =>
    let message := "Your booking for " ++ name ++ " is complete."
    .ok {
      type := "BOOKING_COMPLETED"
      title := "Booking completed"
      message
      emailSubject := "Booking completed"
      emailText := message }
  | _ => .error (.thrown (.error "Unsupported booking template"))

/-- The branch of the membership templates. -/
def renderMembership (template : NotificationTemplate) : RenderedNotification :=
  let organizationName := (variableText template.vars "organizationName").getD "your organization"
  let approved := template.key = .membershipApproved
  { type := if approved then "MEMBERSHIP_APPROVED" else "MEMBERSHIP_REJECTED"
    title := if approved then "Membership approved" else "Membership request rejected"
    message := "Your membership request for " ++ organizationName ++
      if approved then " was approved."
      else " was rejected. Contact an organization administrator if you believe this was a mistake."
    emailSubject := ""
    emailText := "" }

/-- **`NotificationTemplateService.render`.**  Each key is the one of a test push, that of a message,
or in one of the three families, so there is no default title to be made. -/
def render (template : NotificationTemplate) : Attempt RenderedNotification :=
  match template.key with
  | .developmentTestPush =>
    .ok {
      type := "DEVELOPMENT_TEST_PUSH"
      title := "ResourceHive test notification"
      message := "Local Firebase Cloud Messaging is configured correctly."
      emailSubject := ""
      emailText := "" }
  | .message => do
    -- where one is `undefined`, the statement that stores it is refused
    let title ← required template.vars "title"
    let message ← required template.vars "message"
    return { type := "NOTIFICATION_MESSAGE", title, message, emailSubject := "", emailText := "" }
  | .identityVerifyEmail | .identityPasswordReset | .identityPasswordChanged =>
    renderIdentityEmail template
  | .bookingConfirmed | .bookingCancelled | .bookingCompleted => renderBooking P template
  | .membershipApproved | .membershipRejected => .ok (renderMembership template)

/-! ## Commands -/

structure Recipient where
  id : String
  email : String
  deriving DecidableEq, Repr

/-- What the statements of a transaction answer: whether the event is claimed, the active user,
whether there is a membership, the tokens subscribed, and the id of the notification created. -/
structure Answers where
  claimed : Bool
  user : Option Recipient
  membership : Bool
  subscriptions : List String
  notificationId : String
  deriving DecidableEq, Repr

/-- A row of `notifications`, as created. -/
structure Notification where
  id : String
  userId : String
  rootOrganizationId : Option String
  type : String
  title : String
  message : String
  data : TemplateVariables
  deriving DecidableEq, Repr

/-- A row of `notification_deliveries`, as created. -/
structure QueuedDelivery where
  userId : String
  rootOrganizationId : Option String
  notificationId : Option String
  channel : NotificationChannel
  destination : String
  subject : String
  body : String
  deriving DecidableEq, Repr

/-- What a transaction has done: nothing, the command being a duplicate, or the rows it created. -/
inductive Processed
  | duplicate
  | created (notification : Option Notification) (deliveries : List QueuedDelivery)
  deriving DecidableEq, Repr

/-- The notification of a command, where it is for the app or pushed. -/
def createNotification (command : NotificationCommandV1) (user : Recipient)
    (rendered : RenderedNotification) (id : String) : Option Notification :=
  if command.channels.contains .inApp || command.channels.contains .push then
    some
      { id
        userId := user.id
        rootOrganizationId := command.rootOrganizationId
        type := rendered.type
        title := rendered.title
        message := rendered.message
        data := command.template.vars }
  else none

/-- The deliveries of a command: an e-mail, and a push for every subscription. -/
def createDeliveries (command : NotificationCommandV1) (user : Recipient)
    (rendered : RenderedNotification) (notification : Option Notification)
    (subscriptions : List String) : List QueuedDelivery :=
  (if command.channels.contains .email then
    [{ userId := user.id
       rootOrganizationId := command.rootOrganizationId
       notificationId := none
       channel := .email
       destination := command.recipient.email.getD user.email
       subject := rendered.emailSubject
       body := rendered.emailText }]
  else []) ++
  if command.channels.contains .push then
    subscriptions.map fun token =>
      { userId := user.id
        rootOrganizationId := command.rootOrganizationId
        notificationId := notification.map (·.id)
        channel := .push
        destination := token
        subject := rendered.title
        body := rendered.message }
  else []

/-- **`processWithinTransaction`.** -/
def processWithinTransaction (answers : Answers) (command : NotificationCommandV1) :
    Attempt Processed :=
  if !answers.claimed then .ok .duplicate
  else
    match answers.user with
    | none => .error (.thrown (.unauthorized "An active recipient is required"))
    | some user => do
      refuse (command.rootOrganizationId.any (· ≠ "") && !answers.membership)
        (.unauthorized "Recipient is not a member of this university")
      let rendered ← render P command.template
      let notification := createNotification command user rendered answers.notificationId
      return .created notification
        (createDeliveries command user rendered notification answers.subscriptions)

variable {α : Type}

/-- **`NotificationCommandService.process`**, with the transaction that it runs. -/
def process (transaction : NotificationCommandV1 → Attempt α) (input : Json) : Attempt α := do
  let command ← parseNotificationCommand P input
  refuse (command.recipient.userId.all (· = ""))
    (.unauthorized "Notification commands currently require a ResourceHive user")
  refuse ((command.channels.contains .inApp || command.channels.contains .push)
      && command.rootOrganizationId.all (· = ""))
    (.unauthorized "Tenant notifications require a university context")
  transaction command

/-! ## Booking events -/

/-- `${value}`. -/
def interpolate (value : Option Json) : Attempt String :=
  match value with
  | none => .ok "undefined"
  | some v =>
    match v.text P.number with
    | some s => .ok s
    | none => .error .typeError

/-- `emitBookingEvent`: the rooms the event is sent to. -/
def emitBookingEvent (event : ParsedBookingEvent) : Attempt (List String) := do
  let resourceId ← interpolate P (← property "resourceId" (some event.payload))
  let organizationId ← interpolate P (← property "organizationId" (some event.payload))
  let userId ← property "userId" (some event.payload)
  if truthy userId then
    let user ← interpolate P userId
    return [resourceRoom resourceId, organizationRoom organizationId, userRoom user]
  else
    return [resourceRoom resourceId, organizationRoom organizationId]

/-- The template of `toCommand`. -/
def BookingEventType.template : BookingEventType → NotificationTemplateKey
  | bookingConfirmed => .bookingConfirmed
  | bookingCancelled => .bookingCancelled
  | bookingCompleted | slotCreated => .bookingCompleted

/-- A member of an object literal; there is none where the value is `undefined`. -/
def member (key : String) (value : Option Json) : List (String × Json) :=
  value.toList.map (key, ·)

/-- `recipient` of `toCommand`. -/
def recipientOf (event : ParsedBookingEvent) : Json :=
  .obj (member "userId" (event.payload.member? "userId") ++
    member "email" (event.payload.member? "email"))

/-- `template` of `toCommand`. -/
def templateOf (event : ParsedBookingEvent) : Json :=
  .obj [("key", .str event.eventType.template.text), ("version", .num 1),
    ("variables", .obj event.payload.spread)]

/-- **`BookingEventService.toCommand`.** -/
def toCommand (event : ParsedBookingEvent) : Json :=
  .obj (
    [("kind", .str "notification.command"),
      ("commandId", .str event.eventId),
      ("producer", .str "booking-service"),
      ("recipient", recipientOf event)] ++
    member "rootOrganizationId" (event.payload.member? "rootOrganizationId") ++
    [("channels", .arr [.str "IN_APP", .str "PUSH"]),
      ("template", templateOf event),
      ("correlationId", .str event.correlationId),
      ("occurredAt", .str event.occurredAt)])

/-- **`BookingEventService.handle`.** -/
def handle (transaction : NotificationCommandV1 → Attempt α) (input : Json) :
    Attempt (Option α) := do
  let event ← parseBookingEvent P input
  let _ ← emitBookingEvent P event
  if event.eventType = .slotCreated then return none
  else return some (← process P transaction (toCommand event))

/-! ## Messages -/

structure KafkaContext where
  topic : String
  partition : ℕ
  offset : ℕ
  key : Option String := none
  deriving DecidableEq, Repr

/-- What is published to the dead-letter topic, under the key of the message. -/
structure NotificationRejected where
  key : Option String
  sourceTopic : String
  sourcePartition : ℕ
  sourceOffset : ℕ
  messageId : Option String
  errorCode : String
  errorMessage : String
  deriving DecidableEq, Repr

/-- What becomes of a message: its offset is committed, perhaps after a rejection was published, or
an error is thrown on. -/
inductive MessageOutcome
  | committed (offset : ℕ) (rejection : Option NotificationRejected)
  | rethrown (e : Exception HandlerError)
  deriving DecidableEq, Repr

/-- `isPermanentRejection`, and the code and the message of the rejection. -/
def permanentRejection : Exception HandlerError → Option (String × String)
  | .thrown (.contract e) => some (e.code, e.message)
  | .thrown (.unauthorized message) => some ("RECIPIENT_REJECTED", message)
  | .thrown (.error _) | .typeError => none

/-- `messageId`. -/
def messageId (payload : Json) : Option String :=
  let id := match payload.member? "commandId" with
    | none | some .null => payload.member? "eventId"
    | id => id
  match id with
  | some (.str s) => some s
  | _ => none

/-- **`processMessage`**, after the handler. -/
def processMessage (payload : Json) (context : KafkaContext) (handler : Attempt α) :
    MessageOutcome :=
  match handler with
  | .ok _ => .committed (context.offset + 1) none
  | .error e =>
    match permanentRejection e with
    | none => .rethrown e
    | some (errorCode, errorMessage) =>
      .committed (context.offset + 1) (some
        { key := context.key
          sourceTopic := context.topic
          sourcePartition := context.partition
          sourceOffset := context.offset
          messageId := messageId payload
          errorCode
          errorMessage })

end ResourceHive.Notifications
