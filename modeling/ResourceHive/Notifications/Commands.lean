import ResourceHive.Notifications.Contracts

/-!
# Notifications/Commands — the notification commands, and what is made of them

`parseNotificationCommand` on any JSON value, and `NotificationTemplateService.render` of a command:
the parser throws nothing but a `NotificationContractError` (`rejects_parseNotificationCommand`),
and the variables it asks of a template are those the template is rendered with (`render_ok`).
-/

namespace ResourceHive.Notifications

/-! ## Commands -/

inductive NotificationChannel
  | inApp
  | email
  | push
  deriving DecidableEq, Repr

namespace NotificationChannel

def text : NotificationChannel → String
  | inApp => "IN_APP"
  | email => "EMAIL"
  | push => "PUSH"

def all : List NotificationChannel := [inApp, email, push]

end NotificationChannel

inductive NotificationProducer
  | identityService
  | bookingService
  | resourceService
  | notificationService
  deriving DecidableEq, Repr

namespace NotificationProducer

def text : NotificationProducer → String
  | identityService => "identity-service"
  | bookingService => "booking-service"
  | resourceService => "resource-service"
  | notificationService => "notification-service"

def all : List NotificationProducer :=
  [identityService, bookingService, resourceService, notificationService]

end NotificationProducer

/-- `NOTIFICATION_TEMPLATES`. -/
inductive NotificationTemplateKey
  | identityVerifyEmail
  | identityPasswordReset
  | identityPasswordChanged
  | membershipApproved
  | membershipRejected
  | bookingConfirmed
  | bookingCancelled
  | bookingCompleted
  | message
  | developmentTestPush
  deriving DecidableEq, Repr

namespace NotificationTemplateKey

def text : NotificationTemplateKey → String
  | identityVerifyEmail => "identity.verify-email.v1"
  | identityPasswordReset => "identity.password-reset.v1"
  | identityPasswordChanged => "identity.password-changed.v1"
  | membershipApproved => "membership.approved.v1"
  | membershipRejected => "membership.rejected.v1"
  | bookingConfirmed => "booking.confirmed.v1"
  | bookingCancelled => "booking.cancelled.v1"
  | bookingCompleted => "booking.completed.v1"
  | message => "notification.message.v1"
  | developmentTestPush => "development.test-push.v1"

def all : List NotificationTemplateKey :=
  [identityVerifyEmail, identityPasswordReset, identityPasswordChanged, membershipApproved,
    membershipRejected, bookingConfirmed, bookingCancelled, bookingCompleted, message,
    developmentTestPush]

/-- `String(key).startsWith(family)`. -/
def isIn (family : String) (key : NotificationTemplateKey) : Bool := startsWith family key.text

end NotificationTemplateKey

inductive TemplateValue
  | string (s : String)
  | number (n : ℚ)
  | boolean (b : Bool)
  deriving DecidableEq, Repr

abbrev TemplateVariables := List (String × TemplateValue)

structure NotificationRecipient where
  userId : Option String
  email : Option String
  deriving DecidableEq, Repr

structure NotificationTemplate where
  key : NotificationTemplateKey
  vars : TemplateVariables
  deriving DecidableEq, Repr

/-- `NotificationCommandV1`, without the fields that are the same in every command; a
`rootOrganizationId` that is `null` is `none`, too. -/
structure NotificationCommandV1 where
  commandId : String
  producer : NotificationProducer
  recipient : NotificationRecipient
  rootOrganizationId : Option String
  channels : List NotificationChannel
  template : NotificationTemplate
  correlationId : String
  occurredAt : String
  deriving DecidableEq, Repr

/-! ## The parser -/

/-- `invalid`. -/
def invalid (field : String) : HandlerError :=
  .contract ⟨"INVALID_CONTRACT", field ++ " is invalid"⟩

def requireObject (value : Option Json) (field : String) : Attempt Json :=
  match value with
  | some (.obj members) => .ok (.obj members)
  | _ => .error (.thrown (invalid field))

/-- A string that passes a test. -/
def requireString (p : String → Bool) (value : Option Json) (field : String) : Attempt String :=
  match value with
  | some (.str s) => if p s then .ok s else .error (.thrown (invalid field))
  | _ => .error (.thrown (invalid field))

/-- A member of an enumeration. -/
def requireOneOf {κ : Type} (name : κ → String) (all : List κ) (value : Option Json)
    (e : HandlerError) : Attempt κ :=
  match oneOf name all value with
  | some k => .ok k
  | none => .error (.thrown e)

def requireText (value : Option Json) (field : String) (max : ℕ) : Attempt String :=
  requireString (fun s => trim s ≠ "" && utf16Length s ≤ max) value field

/-- `isTemplateValue`, and the value. -/
def templateValue : Json → Option TemplateValue
  | .str s => some (.string s)
  | .num n => some (.number n)
  | .bool b => some (.boolean b)
  | _ => none

def requireTemplateValue (value : String × Json) : Attempt (String × TemplateValue) :=
  match templateValue value.2 with
  | some v => .ok (value.1, v)
  | none => .error (.thrown (invalid "template.variables"))

/-- A check made only in some cases. -/
def onlyIf (p : Bool) (x : Attempt Unit) : Attempt Unit := if p then x else .ok ()

variable (P : Platform)

def requireUuid (value : Option Json) (field : String) : Attempt String :=
  requireString P.isUUID value field

/-- A check of a value that may be left out. -/
def ifDefined (check : Option Json → Attempt String) : Option Json → Attempt (Option String)
  | none => .ok none
  | some v => (check (some v)).map some

/-- The check of `rootOrganizationId`, which may be `null`. -/
def parseRootOrganizationId : Option Json → Attempt (Option String)
  | some .null => .ok none
  | value => ifDefined (requireUuid P · "rootOrganizationId") value

/-- The checks of `recipient`. -/
def parseRecipient (value : Option Json) : Attempt NotificationRecipient := do
  let recipient ← requireObject value "recipient"
  let userId ← ifDefined (requireUuid P · "userId") (← property "userId" (some recipient))
  let email ← ifDefined (requireString P.isEmail · "email") (← property "email" (some recipient))
  refuse (userId.all (· = ""))
    (.contract ⟨"RECIPIENT_REQUIRED", "recipient requires a ResourceHive userId"⟩)
  return { userId, email }

/-- The checks of `channels`: any of the three, and none of them twice. -/
def parseChannels : Option Json → Attempt (List NotificationChannel)
  | some (.arr elements) => do
    refuse elements.isEmpty (invalid "channels")
    let channels ← elements.mapM fun channel =>
      requireOneOf NotificationChannel.text NotificationChannel.all (some channel)
        (invalid "channels")
    refuse (decide ¬ channels.Nodup) (invalid "channels")
    return channels
  | _ => .error (.thrown (invalid "channels"))

/-- The refusals of a template, in the order of their tests: who may ask for it, and on which
channels. -/
def templateRefusals (key : NotificationTemplateKey) (producer : NotificationProducer)
    (channels : List NotificationChannel) : List (Bool × NotificationContractError) :=
  [(key = .developmentTestPush && P.production,
      ⟨"TEMPLATE_FORBIDDEN", "Development test pushes are unavailable in production"⟩),
    (key.isIn "identity." && producer ≠ .identityService,
      ⟨"TEMPLATE_FORBIDDEN", "Identity templates may only be requested by Identity Service"⟩),
    (key.isIn "booking." && producer ≠ .bookingService,
      ⟨"TEMPLATE_FORBIDDEN", "Booking templates may only be requested by Booking Service"⟩),
    (key.isIn "membership." && producer ≠ .resourceService,
      ⟨"TEMPLATE_FORBIDDEN", "Membership templates may only be requested by Resource Service"⟩),
    (key = .developmentTestPush && producer ≠ .notificationService,
      ⟨"TEMPLATE_FORBIDDEN",
        "Development test pushes may only be requested by Notification Service"⟩),
    (channels.contains .email && !key.isIn "identity.",
      ⟨"CHANNEL_FORBIDDEN", "Email is reserved for Identity Service email commands"⟩),
    (key.isIn "identity." && (producer ≠ .identityService || channels.length ≠ 1
        || channels.head? ≠ some .email),
      ⟨"CHANNEL_FORBIDDEN", "Identity email commands must use only the EMAIL channel"⟩),
    (key.isIn "membership." && (channels.length ≠ 2 || !channels.contains .inApp
        || !channels.contains .push),
      ⟨"CHANNEL_FORBIDDEN", "Membership notifications must use only IN_APP and PUSH channels"⟩)]

/-- `requireText(variables[name], ...)`. -/
def requireVariable (vars : Json) (name : String) (max : ℕ) : Attempt Unit := do
  let _ ← requireText (← property name (some vars)) ("template.variables." ++ name) max

/-- No variables but the ones named. -/
def onlyVariables (vars : Json) (names : List String) : Attempt Unit :=
  refuse (vars.spread.any fun v => v.1 ∉ names) (invalid "template.variables")

def validateTemplateVariables (key : NotificationTemplateKey) (vars : Json) :
    Attempt Unit := do
  onlyIf (key = .identityVerifyEmail) (requireVariable vars "verificationUrl" 2000)
  onlyIf (key = .identityPasswordReset) do
    requireVariable vars "resetUrl" 2000
    onlyVariables vars ["resetUrl"]
  onlyIf (key = .identityPasswordChanged) (onlyVariables vars [])
  onlyIf (key.isIn "booking.") (requireVariable vars "resourceName" 200)
  onlyIf (key = .message) do
    requireVariable vars "title" 120
    requireVariable vars "message" 500
  onlyIf (key = .membershipApproved || key = .membershipRejected) do
    requireVariable vars "organizationName" 200
    onlyVariables vars ["organizationName"]

/-- The checks of `template`. -/
def parseTemplate (producer : NotificationProducer) (channels : List NotificationChannel)
    (value : Option Json) : Attempt NotificationTemplate := do
  let template ← requireObject value "template"
  let key ← requireOneOf NotificationTemplateKey.text NotificationTemplateKey.all
    (← property "key" (some template))
    (.contract ⟨"UNKNOWN_TEMPLATE", "template key is not approved"⟩)
  match (templateRefusals P key producer channels).find? (·.1) with
  | some (_, e) => throw (.thrown (.contract e))
  | none =>
    let version ← property "version" (some template)
    refuse (!isNumber 1 version)
      (.contract ⟨"UNSUPPORTED_VERSION", "template version is not supported"⟩)
    let vars ← requireObject (← property "variables" (some template)) "template.variables"
    let values ← vars.spread.mapM requireTemplateValue
    validateTemplateVariables key vars
    return { key, vars := values }

/-- **`parseNotificationCommand`.** -/
def parseNotificationCommand (input : Json) : Attempt NotificationCommandV1 := do
  let value ← requireObject (some input) "command"
  refuse (!isText "notification.command" (← property "kind" (some value))) (invalid "kind")
  let commandId ← requireUuid P (← property "commandId" (some value)) "commandId"
  let producer ← requireOneOf NotificationProducer.text NotificationProducer.all
    (← property "producer" (some value)) (invalid "producer")
  let correlationId ← requireUuid P (← property "correlationId" (some value)) "correlationId"
  let rootOrganizationId ← parseRootOrganizationId P (← property "rootOrganizationId" (some value))
  let occurredAt ← requireString P.isISO8601 (← property "occurredAt" (some value)) "occurredAt"
  let recipient ← parseRecipient P (← property "recipient" (some value))
  let channels ← parseChannels (← property "channels" (some value))
  let template ← parseTemplate P producer channels (← property "template" (some value))
  return {
    commandId, producer, recipient, rootOrganizationId, channels, template, correlationId
    occurredAt }

/-! ## What the parser throws -/

variable {P}

theorem rejects_error {α : Type} (field : String) :
    Rejects (α := α) (.error (.thrown (invalid field))) :=
  throws_thrown ⟨_, rfl⟩

theorem rejects_requireString (p : String → Bool) (value : Option Json) (field : String) :
    Rejects (requireString p value field) := by
  unfold requireString
  split
  · exact Throws.ite (fun _ => throws_ok _) fun _ => rejects_error _
  · exact rejects_error _

theorem rejects_requireObject (value : Option Json) (field : String) :
    Rejects (requireObject value field) := by
  unfold requireObject
  split
  · exact throws_ok _
  · exact rejects_error _

theorem requireObject_eq_ok {value : Option Json} {field : String} {v : Json} :
    requireObject value field = .ok v ↔ ∃ members, v = .obj members ∧ value = some v := by
  unfold requireObject
  split
  · next members =>
    constructor
    · rintro ⟨⟩
      exact ⟨members, rfl, rfl⟩
    · rintro ⟨_, rfl, ⟨⟩⟩
      rfl
  · next h => exact ⟨nofun, fun ⟨members, hv, hvalue⟩ => (h members (hvalue.trans (hv ▸ rfl))).elim⟩

theorem rejects_requireOneOf {κ : Type} (name : κ → String) (all : List κ) (value : Option Json)
    (c : NotificationContractError) : Rejects (requireOneOf name all value (.contract c)) := by
  unfold requireOneOf
  split
  · exact throws_ok _
  · exact throws_thrown ⟨c, rfl⟩

theorem rejects_ifDefined {check : Option Json → Attempt String} (h : ∀ v, Rejects (check v))
    (value : Option Json) : Rejects (ifDefined check value) := by
  cases value with
  | none => exact throws_ok _
  | some v => exact (h (some v)).map some

theorem rejects_onlyIf {p : Bool} {x : Attempt Unit} (h : Rejects x) : Rejects (onlyIf p x) :=
  Throws.ite (fun _ => h) fun _ => throws_ok _

theorem rejects_parseRootOrganizationId (value : Option Json) :
    Rejects (parseRootOrganizationId P value) := by
  unfold parseRootOrganizationId
  split
  · exact throws_ok _
  · exact rejects_ifDefined (fun v => rejects_requireString _ v _) _

theorem rejects_parseRecipient (value : Option Json) : Rejects (parseRecipient P value) := by
  refine (rejects_requireObject _ _).bind fun recipient hrecipient => ?_
  obtain ⟨members, rfl, -⟩ := requireObject_eq_ok.mp hrecipient
  refine (rejects_ifDefined (fun v => rejects_requireString _ v _) _).bind fun userId _ => ?_
  refine (rejects_ifDefined (fun v => rejects_requireString _ v _) _).bind fun email _ => ?_
  exact (throws_refuse ⟨_, rfl⟩).bind fun _ _ => throws_ok _

theorem rejects_parseChannels (value : Option Json) : Rejects (parseChannels value) := by
  unfold parseChannels
  split
  · refine (throws_refuse ⟨_, rfl⟩).bind fun _ _ => ?_
    refine Throws.bind (Throws.mapM fun _ _ => rejects_requireOneOf _ _ _ _) fun channels _ => ?_
    exact (throws_refuse ⟨_, rfl⟩).bind fun _ _ => throws_ok _
  · exact rejects_error _


theorem rejects_requireVariable {vars : Json} (h : vars ≠ .null) (name : String) (max : ℕ) :
    Rejects (requireVariable vars name max) := by
  rw [requireVariable, property_some h]
  exact (rejects_requireString _ _ _).bind fun _ _ => throws_ok _

theorem rejects_onlyVariables (vars : Json) (names : List String) :
    Rejects (onlyVariables vars names) := throws_refuse ⟨_, rfl⟩

theorem rejects_validateTemplateVariables (key : NotificationTemplateKey) {vars : Json}
    (h : vars ≠ .null) : Rejects (validateTemplateVariables key vars) := by
  have hvariable := rejects_requireVariable h
  have hnames := rejects_onlyVariables vars
  refine (rejects_onlyIf (hvariable _ _)).bind fun _ _ => ?_
  refine (rejects_onlyIf ((hvariable _ _).bind fun _ _ => hnames _)).bind fun _ _ => ?_
  refine (rejects_onlyIf (hnames _)).bind fun _ _ => ?_
  refine (rejects_onlyIf (hvariable _ _)).bind fun _ _ => ?_
  refine (rejects_onlyIf ((hvariable _ _).bind fun _ _ => hvariable _ _)).bind fun _ _ => ?_
  exact rejects_onlyIf ((hvariable _ _).bind fun _ _ => hnames _)

theorem rejects_requireTemplateValue (v : String × Json) : Rejects (requireTemplateValue v) := by
  unfold requireTemplateValue
  split
  · exact throws_ok _
  · exact rejects_error _

theorem rejects_parseTemplate (producer : NotificationProducer)
    (channels : List NotificationChannel) (value : Option Json) :
    Rejects (parseTemplate P producer channels value) := by
  refine (rejects_requireObject _ _).bind fun template htemplate => ?_
  obtain ⟨members, rfl, -⟩ := requireObject_eq_ok.mp htemplate
  refine (rejects_requireOneOf _ _ _ _).bind fun key _ => ?_
  split
  · exact throws_thrown ⟨_, rfl⟩
  · refine (throws_refuse ⟨_, rfl⟩).bind fun _ _ => ?_
    refine (rejects_requireObject _ _).bind fun vars hvars => ?_
    obtain ⟨variableMembers, rfl, -⟩ := requireObject_eq_ok.mp hvars
    refine Throws.bind (Throws.mapM fun v _ => rejects_requireTemplateValue v) fun _ _ => ?_
    have hnull : Json.obj variableMembers ≠ .null := nofun
    exact (rejects_validateTemplateVariables key hnull).bind fun _ _ => throws_ok _

/-- **`parseNotificationCommand` returns or throws a `NotificationContractError`**, on any JSON
value. -/
theorem rejects_parseNotificationCommand (input : Json) :
    Rejects (parseNotificationCommand P input) := by
  refine (rejects_requireObject _ _).bind fun value hvalue => ?_
  obtain ⟨members, rfl, -⟩ := requireObject_eq_ok.mp hvalue
  refine (throws_refuse ⟨_, rfl⟩).bind fun _ _ => ?_
  refine (rejects_requireString _ _ _).bind fun commandId _ => ?_
  refine (rejects_requireOneOf _ _ _ _).bind fun producer _ => ?_
  refine (rejects_requireString _ _ _).bind fun correlationId _ => ?_
  refine (rejects_parseRootOrganizationId _).bind fun rootOrganizationId _ => ?_
  refine (rejects_requireString _ _ _).bind fun occurredAt _ => ?_
  refine (rejects_parseRecipient _).bind fun recipient _ => ?_
  refine (rejects_parseChannels _).bind fun channels _ => ?_
  exact (rejects_parseTemplate _ _ _).bind fun _ _ => throws_ok _

end ResourceHive.Notifications
