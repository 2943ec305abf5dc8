import ResourceHive.Machinery.Dates
import ResourceHive.Notifications.Translation
import ResourceHive.Points.Ledger

/-!
# Notifications/Client — what the services publish

`NotificationClientService` of the services that publish notifications: it writes a command or an
event and parses it before it is published.  What it writes passes all checks but those of the texts
that come from users (`parse_draft`, `exists_publishBookingEvent_iff`).
-/

namespace ResourceHive.Notifications

variable (P : Platform)

/-- The text of a `uuid`. -/
abbrev UuidText := {s : String // P.isUUID s}

/-- What a call takes from elsewhere: a `randomUUID()`, and the time. -/
structure ClientCall where
  randomUUID : UuidText P
  now : Timestamp
  isISO8601_now : P.isISO8601 (toISOString now)

/-! ## Commands -/

/-- What is different between two commands.  A `rootOrganizationId` may be `null`, or not there. -/
structure Draft where
  producer : NotificationProducer
  recipientUserId : UuidText P
  rootOrganizationId : Option Json
  channels : List NotificationChannel
  key : NotificationTemplateKey
  vars : List (String × String)
  correlationId : UuidText P

structure SendNotificationInput where
  recipientUserId : UuidText P
  title : String
  message : String
  correlationId : UuidText P
  channels : List NotificationChannel

structure SendMembershipDecisionInput where
  recipientUserId : UuidText P
  organizationName : String
  approved : Bool
  correlationId : UuidText P

variable {P}

namespace Draft

variable (draft : Draft P)

def varsJson : Json := .obj (draft.vars.map fun v => (v.1, .str v.2))

def template : Json :=
  .obj [("key", .str draft.key.text), ("version", .num 1), ("variables", draft.varsJson)]

/-- **The command, as it is parsed.** -/
def json (call : ClientCall P) : Json :=
  .obj (
    [("kind", .str "notification.command"),
      ("commandId", .str call.randomUUID),
      ("producer", .str draft.producer.text),
      ("recipient", .obj [("userId", .str draft.recipientUserId)])] ++
    member "rootOrganizationId" draft.rootOrganizationId ++
    [("channels", .arr (draft.channels.map fun channel => .str channel.text)),
      ("template", draft.template),
      ("correlationId", .str draft.correlationId),
      ("occurredAt", .str (toISOString call.now))])

/-- The command that is published. -/
def command (call : ClientCall P) (rootOrganizationId : Option String) : NotificationCommandV1 where
  commandId := call.randomUUID
  producer := draft.producer
  recipient := ⟨some draft.recipientUserId, none⟩
  rootOrganizationId
  channels := draft.channels
  template := ⟨draft.key, draft.vars.map fun v => (v.1, .string v.2)⟩
  correlationId := draft.correlationId
  occurredAt := toISOString call.now

end Draft

/-- What `send` of the booking service writes, in a request for a university. -/
def SendNotificationInput.draft (input : SendNotificationInput P)
    (rootOrganizationId : Option (UuidText P)) : Draft P where
  producer := .bookingService
  recipientUserId := input.recipientUserId
  rootOrganizationId := some ((rootOrganizationId.map fun r => Json.str r).getD .null)
  channels := input.channels
  key := .message
  vars := [("title", input.title), ("message", input.message)]
  correlationId := input.correlationId

/-- `send`. -/
def send (call : ClientCall P) (rootOrganizationId : Option (UuidText P))
    (input : SendNotificationInput P) : Attempt NotificationCommandV1 :=
  parseNotificationCommand P ((input.draft rootOrganizationId).json call)

/-- What `sendMembershipDecision` of the resource service writes. -/
def SendMembershipDecisionInput.draft (input : SendMembershipDecisionInput P)
    (rootOrganizationId : Option (UuidText P)) : Draft P where
  producer := .resourceService
  recipientUserId := input.recipientUserId
  rootOrganizationId := rootOrganizationId.map fun r => Json.str r
  channels := [.inApp, .push]
  key := if input.approved then .membershipApproved else .membershipRejected
  vars := [("organizationName", input.organizationName)]
  correlationId := input.correlationId

/-- `sendMembershipDecision`. -/
def sendMembershipDecision (call : ClientCall P) (rootOrganizationId : Option (UuidText P))
    (input : SendMembershipDecisionInput P) : Attempt NotificationCommandV1 :=
  parseNotificationCommand P ((input.draft rootOrganizationId).json call)

/-! ## What the parser makes of a command -/

/-- The text a variable must have. -/
def IsText (max : ℕ) (s : String) : Prop := trim s ≠ "" ∧ utf16Length s ≤ max

instance (max : ℕ) (s : String) : Decidable (IsText max s) := inferInstanceAs (Decidable (_ ∧ _))

theorem requireVariable_iff {members : List (String × Json)} {name s : String} {max : ℕ}
    (h : (Json.obj members).member? name = some (.str s)) :
    requireVariable (.obj members) name max = .ok () ↔ IsText max s := by
  rw [requireVariable_eq_ok, h]
  constructor
  · rintro ⟨t, ht, htext⟩
    cases ht
    exact htext
  · intro htext
    exact ⟨s, rfl, htext⟩

/-- The members of a literal, some of which may not be there. -/
@[simp] theorem member?_member_append (key key' : String) (value : Option Json)
    (members : List (String × Json)) : (Json.obj (member key value ++ members)).member? key' =
      (if key = key' then value else none).or ((Json.obj members).member? key') := by
  cases value with
  | none => simp [member]
  | some v => by_cases h : key = key' <;> simp [member, h]

theorem parseRecipient_userId (id : UuidText P) :
    parseRecipient P (some (.obj [("userId", .str id)])) = .ok ⟨some id, none⟩ := by
  have hdefined : ifDefined (requireUuid P · "userId") (some (.str id)) = .ok (some id.1) := by
    rw [ifDefined, requireUuid_of_isUUID id.2]
    rfl
  have hobject : requireObject (some (.obj [("userId", .str id)])) "recipient" =
      .ok (.obj [("userId", .str id)]) := rfl
  simp only [parseRecipient, hobject, ok_bind, property_obj]
  change (ifDefined (requireUuid P · "userId") (some (.str id)) >>= _) = _
  rw [hdefined, ok_bind]
  change (refuse _ _ >>= _) = _
  rw [(refuse_eq_ok (u := ())).mpr (by simp [P.ne_empty id.2])]
  rfl

/-- The university of a request, written or left out. -/
theorem parseRootOrganizationId_str (root : UuidText P) :
    parseRootOrganizationId P (some (.str root)) = .ok (some root.1) := by
  rw [parseRootOrganizationId, ifDefined, requireUuid_of_isUUID root.2]
  · rfl
  · intro h
    cases h

/-- Elements that are written one way and read the other. -/
theorem mapM_map_eq_ok {ε α β γ : Type} {f : α → β} {g : β → Except ε γ} {h : α → γ} :
    ∀ {l : List α}, (∀ a, g (f a) = .ok (h a)) → (l.map f).mapM g = .ok (l.map h)
  | [], _ => rfl
  | a :: l, hg => by
      rw [List.map_cons, List.mapM_cons, hg a, ok_bind, mapM_map_eq_ok hg]
      rfl

namespace Draft

variable {draft : Draft P}

theorem oneOf_key (key : NotificationTemplateKey) :
    requireOneOf NotificationTemplateKey.text NotificationTemplateKey.all (some (.str key.text))
      (.contract ⟨"UNKNOWN_TEMPLATE", "template key is not approved"⟩) = .ok key := by
  cases key <;> rfl

theorem oneOf_producer (producer : NotificationProducer) :
    requireOneOf NotificationProducer.text NotificationProducer.all (some (.str producer.text))
      (invalid "producer") = .ok producer := by
  cases producer <;> rfl

theorem parseChannels_text {channels : List NotificationChannel} (hne : channels ≠ [])
    (hnodup : channels.Nodup) :
    parseChannels (some (.arr (channels.map fun channel => .str channel.text))) = .ok channels := by
  have hmapM : (channels.map fun channel => Json.str channel.text).mapM
      (fun channel => requireOneOf NotificationChannel.text NotificationChannel.all (some channel)
        (invalid "channels")) = .ok (channels.map id) := by
    refine mapM_map_eq_ok fun channel => ?_
    cases channel <;> rfl
  rw [List.map_id] at hmapM
  rw [parseChannels, hmapM, (refuse_eq_ok (u := ())).mpr (by simpa using hne), ok_bind, ok_bind,
    (refuse_eq_ok (u := ())).mpr (by simpa using hnodup)]
  rfl

/-- **The template of a draft**: where its key may be asked for, its variables decide. -/
theorem parse_template
    (h : (templateRefusals P draft.key draft.producer draft.channels).find? (·.1) = none) :
    parseTemplate P draft.producer draft.channels (some draft.template) =
      (validateTemplateVariables draft.key draft.varsJson).map fun _ =>
        ⟨draft.key, draft.vars.map fun v => (v.1, .string v.2)⟩ := by
  have hvalue : requireObject (some draft.template) "template" = .ok draft.template := rfl
  have hmember (key : String) : property (ε := HandlerError) key (some draft.template) =
      .ok (draft.template.member? key) := rfl
  have hkey : draft.template.member? "key" = some (.str draft.key.text) := rfl
  have hversion : draft.template.member? "version" = some (.num 1) := by simp [template]
  have hvars : draft.template.member? "variables" = some draft.varsJson := by simp [template]
  have hobject : requireObject (some draft.varsJson) "template.variables" = .ok draft.varsJson :=
    rfl
  have hspread : draft.varsJson.spread = draft.vars.map fun v => (v.1, Json.str v.2) := rfl
  have hvalues : (draft.vars.map fun v => (v.1, Json.str v.2)).mapM requireTemplateValue =
      .ok (draft.vars.map fun v => (v.1, TemplateValue.string v.2)) := mapM_map_eq_ok fun _ => rfl
  have hone : refuse (!isNumber 1 (some (.num 1)))
      (HandlerError.contract
        ⟨"UNSUPPORTED_VERSION", "template version is not supported"⟩) = .ok () := by
    rw [refuse_eq_ok]
    simp [isNumber]
  simp only [parseTemplate, hvalue, hmember, ok_bind, hkey, hversion, hvars, oneOf_key, h, hobject,
    hspread, hvalues, hone]
  cases validateTemplateVariables draft.key draft.varsJson <;> rfl

/-- **A command is accepted if its variables are**, and as it was written. -/
theorem parse_json {call : ClientCall P} {root : Option String}
    (hroot : parseRootOrganizationId P draft.rootOrganizationId = .ok root)
    (hne : draft.channels ≠ []) (hnodup : draft.channels.Nodup)
    (h : (templateRefusals P draft.key draft.producer draft.channels).find? (·.1) = none) :
    parseNotificationCommand P (draft.json call) =
      (validateTemplateVariables draft.key draft.varsJson).map fun _ => draft.command call root := by
  have hvalue : requireObject (some (draft.json call)) "command" = .ok (draft.json call) := rfl
  have hmember (key : String) : property (ε := HandlerError) key (some (draft.json call)) =
      .ok ((draft.json call).member? key) := rfl
  have hmembers :
      (draft.json call).member? "kind" = some (.str "notification.command") ∧
      (draft.json call).member? "commandId" = some (.str call.randomUUID) ∧
      (draft.json call).member? "producer" = some (.str draft.producer.text) ∧
      (draft.json call).member? "recipient" =
        some (.obj [("userId", .str draft.recipientUserId)]) ∧
      (draft.json call).member? "rootOrganizationId" = draft.rootOrganizationId ∧
      (draft.json call).member? "channels" =
        some (.arr (draft.channels.map fun channel => .str channel.text)) ∧
      (draft.json call).member? "template" = some draft.template ∧
      (draft.json call).member? "correlationId" = some (.str draft.correlationId) ∧
      (draft.json call).member? "occurredAt" = some (.str (toISOString call.now)) := by
    simp [json]
  obtain ⟨hkind, hid, hproducer, hrecipient, hrootId, hchannels, htemplate, hcorrelation, htime⟩ :=
    hmembers
  have hrefuse : refuse (!isText "notification.command" (some (.str "notification.command")))
      (invalid "kind") = .ok () := rfl
  have hoccurredAt : requireString P.isISO8601 (some (.str (toISOString call.now))) "occurredAt" =
      .ok (toISOString call.now) := requireString_eq_ok.mpr ⟨rfl, call.isISO8601_now⟩
  simp only [parseNotificationCommand, hvalue, hmember, ok_bind, hkind, hid, hproducer, hrecipient,
    hrootId, hchannels, htemplate, hcorrelation, htime, hrefuse, hroot, hoccurredAt, oneOf_producer,
    requireUuid_of_isUUID call.randomUUID.2, requireUuid_of_isUUID draft.correlationId.2,
    parseRecipient_userId, parseChannels_text hne hnodup, parse_template h]
  cases validateTemplateVariables draft.key draft.varsJson <;> rfl

end Draft

/-! ## Which commands are accepted -/

theorem validateTemplateVariables_message {vars : Json} :
    validateTemplateVariables .message vars = .ok () ↔
      requireVariable vars "title" 120 = .ok () ∧ requireVariable vars "message" 500 = .ok () := by
  have hvalidate : validateTemplateVariables .message vars =
      (requireVariable vars "title" 120 >>= fun _ => requireVariable vars "message" 500) >>=
        fun _ => .ok () := rfl
  rw [hvalidate]
  cases requireVariable vars "title" 120 with
  | error e => exact ⟨nofun, fun h => nomatch h.1⟩
  | ok u =>
    rw [ok_bind]
    cases requireVariable vars "message" 500 with
    | error e => exact ⟨nofun, fun h => nomatch h.2⟩
    | ok u => exact ⟨fun _ => ⟨rfl, rfl⟩, fun _ => rfl⟩

/-- **A message is accepted if its texts are.** -/
theorem exists_send_iff {call : ClientCall P} {root : Option (UuidText P)}
    {input : SendNotificationInput P}
    (h : input.channels = [.inApp, .push] ∨ input.channels = [.inApp]) :
    (∃ command, send call root input = .ok command) ↔
      IsText 120 input.title ∧ IsText 500 input.message := by
  let members : List (String × Json) :=
    [("title", .str input.title), ("message", .str input.message)]
  have hroot : parseRootOrganizationId P (input.draft root).rootOrganizationId =
      .ok (root.map (·.1)) := by
    cases root with
    | none => rfl
    | some root => exact parseRootOrganizationId_str root
  have hparse : send call root input = (validateTemplateVariables .message (.obj members)).map
      fun _ => (input.draft root).command call (root.map (·.1)) := by
    refine Draft.parse_json hroot ?_ ?_ ?_
    · obtain h | h := h <;> simp [SendNotificationInput.draft, h]
    · obtain h | h := h <;> simp [SendNotificationInput.draft, h]
    · obtain h | h := h <;> simp only [SendNotificationInput.draft, h] <;> rfl
  have htitle : requireVariable (.obj members) "title" 120 = .ok () ↔ IsText 120 input.title :=
    requireVariable_iff rfl
  have hmessage : requireVariable (.obj members) "message" 500 = .ok () ↔
      IsText 500 input.message := requireVariable_iff rfl
  rw [← htitle, ← hmessage, ← validateTemplateVariables_message, hparse]
  constructor
  · rintro ⟨command, hcommand⟩
    obtain ⟨_, hvalid, -⟩ := map_eq_ok.mp hcommand
    exact hvalid
  · intro hvalid
    rw [hvalid]
    exact ⟨_, rfl⟩

theorem validateTemplateVariables_membership {key : NotificationTemplateKey}
    (hkey : key = .membershipApproved ∨ key = .membershipRejected) (vars : Json) :
    validateTemplateVariables key vars = (do
      requireVariable vars "organizationName" 200
      onlyVariables vars ["organizationName"]) := by
  obtain rfl | rfl := hkey <;> rfl

/-- **A decision is accepted if the name of the organization is a text.** -/
theorem sendMembershipDecision_eq_ok {call : ClientCall P} {root : UuidText P}
    {input : SendMembershipDecisionInput P} (h : IsText 200 input.organizationName) :
    sendMembershipDecision call (some root) input =
      .ok ((input.draft (some root)).command call (some root)) := by
  let members : List (String × Json) := [("organizationName", .str input.organizationName)]
  have hkey : (input.draft (some root)).key = .membershipApproved ∨
      (input.draft (some root)).key = .membershipRejected := by
    cases happroved : input.approved <;> simp [SendMembershipDecisionInput.draft, happroved]
  have hrefusals : (templateRefusals P (input.draft (some root)).key .resourceService
      [.inApp, .push]).find? (·.1) = none := by
    obtain hkey | hkey := hkey <;> rw [hkey] <;> rfl
  have hnodup : [NotificationChannel.inApp, NotificationChannel.push].Nodup := by decide
  have hname : requireVariable (.obj members) "organizationName" 200 = .ok () :=
    (requireVariable_iff rfl).mpr h
  have hvars : (input.draft (some root)).varsJson = .obj members := rfl
  rw [sendMembershipDecision,
    Draft.parse_json (parseRootOrganizationId_str root) (List.cons_ne_nil _ _) hnodup hrefusals,
    validateTemplateVariables_membership hkey, hvars, hname]
  rfl

/-! ## Booking events -/

variable (P) in
structure PublishBookingEventInput where
  eventType : BookingEventType
  resourceId : UuidText P
  resourceName : String
  organizationId : UuidText P
  startsAt : Timestamp
  endsAt : Timestamp
  bookingId : Option (UuidText P) := none
  slotId : Option (UuidText P) := none
  userId : Option (UuidText P) := none
  email : Option String := none

/-- A member that is written if the value is truthy. -/
def memberIf (key : String) (value : Option String) : List (String × Json) :=
  member key ((value.filter (· ≠ "")).map .str)

def memberIfId (key : String) (id : Option (UuidText P)) : List (String × Json) :=
  memberIf key (id.map (·.1))

/-- The payload of a published event. -/
def PublishBookingEventInput.payload (input : PublishBookingEventInput P)
    (rootOrganizationId : Option (UuidText P)) : Json :=
  .obj ([
    ("rootOrganizationId", .str ((rootOrganizationId.map (·.1)).getD "")),
    ("resourceId", .str input.resourceId),
    ("resourceName", .str input.resourceName),
    ("organizationId", .str input.organizationId),
    ("startsAt", .str (toISOString input.startsAt))]
    ++ memberIfId "bookingId" input.bookingId
    ++ memberIfId "slotId" input.slotId
    ++ memberIfId "userId" input.userId
    ++ memberIf "email" input.email
    ++ [("endsAt", .str (toISOString input.endsAt))])

/-- What `publishBookingEvent` has parsed. -/
def PublishBookingEventInput.event (input : PublishBookingEventInput P) (call : ClientCall P)
    (rootOrganizationId : Option (UuidText P)) : Json :=
  let partitionKey := (input.bookingId.or input.slotId).getD call.randomUUID
  .obj [
    ("kind", .str "booking.event"),
    ("eventId", .str call.randomUUID),
    ("eventType", .str input.eventType.text),
    ("eventVersion", .num 1),
    ("producer", .str "booking-service"),
    ("correlationId", .str partitionKey),
    ("occurredAt", .str (toISOString call.now)),
    ("payload", input.payload rootOrganizationId)]

/-- `publishBookingEvent`. -/
def publishBookingEvent (call : ClientCall P) (rootOrganizationId : Option (UuidText P))
    (input : PublishBookingEventInput P) : Attempt ParsedBookingEvent :=
  parseBookingEvent P (input.event call rootOrganizationId)

theorem toISOString_ne_empty (ms : ℤ) : toISOString ms ≠ "" := by
  intro h
  have hempty := congrArg String.toList h
  simp [toISOString] at hempty

@[simp] theorem member?_memberIf_append (key key' : String) (value : Option String)
    (members : List (String × Json)) : (Json.obj (memberIf key value ++ members)).member? key' =
      (if key = key' then (value.filter (· ≠ "")).map .str else none).or
        ((Json.obj members).member? key') := by
  rw [memberIf, member?_member_append]

/-- A `uuid` is written, as it is not empty. -/
@[simp] theorem member?_memberIfId_append (key key' : String) (id : Option (UuidText P))
    (members : List (String × Json)) : (Json.obj (memberIfId key id ++ members)).member? key' =
      (if key = key' then id.map fun i => .str i.1 else none).or
        ((Json.obj members).member? key') := by
  rw [memberIfId, member?_memberIf_append]
  cases id with
  | none => rfl
  | some id => simp [Option.filter, P.ne_empty id.2]

theorem isTextWith_isUUID_iff {root : Option (UuidText P)} :
    isTextWith P.isUUID (some (.str ((root.map (·.1)).getD ""))) ↔ root.isSome := by
  cases root with
  | none => simp [isTextWith, P.isUUID_empty]
  | some root => simpa [isTextWith] using root.2

theorem payloadAccepted_iff {root : Option (UuidText P)} {input : PublishBookingEventInput P}
    (hlifecycle : input.eventType ≠ .slotCreated → input.bookingId.isSome ∧ input.userId.isSome)
    (hslot : input.slotId.isSome) :
    PayloadAccepted P input.eventType (input.payload root) ↔
      root.isSome ∧ trim input.resourceName ≠ "" ∧ P.isISO8601 (toISOString input.startsAt) ∧
        P.isISO8601 (toISOString input.endsAt) := by
  have hroot : (input.payload root).member? "rootOrganizationId" =
      some (.str ((root.map (·.1)).getD "")) := rfl
  have hresource : (input.payload root).member? "resourceId" = some (.str input.resourceId) := rfl
  have hname : (input.payload root).member? "resourceName" = some (.str input.resourceName) := rfl
  have horganization :
      (input.payload root).member? "organizationId" = some (.str input.organizationId) := rfl
  have hstarts :
      (input.payload root).member? "startsAt" = some (.str (toISOString input.startsAt)) := rfl
  have hends : (input.payload root).member? "endsAt" = some (.str (toISOString input.endsAt)) := by
    simp [PublishBookingEventInput.payload]
  have hbooking : (input.payload root).member? "bookingId" =
      input.bookingId.map fun i => .str i.1 := by
    simp [PublishBookingEventInput.payload]
  have hslotId : (input.payload root).member? "slotId" = input.slotId.map fun i => .str i.1 := by
    simp [PublishBookingEventInput.payload]
  have huser : (input.payload root).member? "userId" = input.userId.map fun i => .str i.1 := by
    simp [PublishBookingEventInput.payload]
  constructor
  · intro h
    have hrootId := h.rootOrganizationId
    have hnameText := h.resourceName
    have hstartsText := h.startsAt
    have hendsText := h.endsAt
    rw [hroot, isTextWith_isUUID_iff] at hrootId
    rw [hname] at hnameText
    rw [hstarts] at hstartsText
    rw [hends] at hendsText
    simp only [isTextWith, decide_eq_true_eq] at hnameText hstartsText
    exact ⟨hrootId, hnameText, hstartsText.2, hendsText.resolve_left (Option.some_ne_none _)⟩
  · rintro ⟨hrootId, hnameText, hstartsText, hendsText⟩
    have hpresent {id : Option (UuidText P)} (hid : id.isSome) :
        isTextWith P.isUUID (id.map fun i => .str i.1) := by
      obtain ⟨i, rfl⟩ := Option.isSome_iff_exists.mp hid
      exact i.2
    exact
      { rootOrganizationId := by rwa [hroot, isTextWith_isUUID_iff]
        resourceId := hresource ▸ input.resourceId.2
        organizationId := horganization ▸ input.organizationId.2
        resourceName := hname ▸ decide_eq_true hnameText
        startsAt := hstarts ▸ decide_eq_true ⟨toISOString_ne_empty _, hstartsText⟩
        endsAt := .inr (hends ▸ hendsText)
        lifecycle := fun ht => by
          rw [hbooking, huser]
          exact ⟨hpresent (hlifecycle ht).1, hpresent (hlifecycle ht).2⟩
        slot := fun _ => hslotId ▸ hpresent hslot }

theorem exists_publishBookingEvent_iff {call : ClientCall P} {root : Option (UuidText P)}
    {input : PublishBookingEventInput P}
    (hlifecycle : input.eventType ≠ .slotCreated → input.bookingId.isSome ∧ input.userId.isSome)
    (hslot : input.slotId.isSome) :
    (∃ event, publishBookingEvent call root input = .ok event) ↔
      root.isSome ∧ trim input.resourceName ≠ "" ∧ P.isISO8601 (toISOString input.startsAt) ∧
        P.isISO8601 (toISOString input.endsAt) := by
  let partitionKey := (input.bookingId.or input.slotId).getD call.randomUUID
  let event : ParsedBookingEvent :=
    { eventId := call.randomUUID
      eventType := input.eventType
      correlationId := partitionKey
      occurredAt := toISOString call.now
      payload := input.payload root }
  have hheader : HasHeader P (input.event call root) event :=
    { kind := rfl
      producer := rfl
      eventVersion := by simp [PublishBookingEventInput.event]
      eventId := rfl
      correlationId := rfl
      occurredAt := rfl
      eventType := rfl
      payload := rfl
      isUUID_eventId := call.randomUUID.2
      isUUID_correlationId := partitionKey.2
      isISO8601_occurredAt := call.isISO8601_now
      occurredAt_ne_empty := toISOString_ne_empty _ }
  rw [← payloadAccepted_iff hlifecycle hslot, ← parseBookingPayload_eq_ok, publishBookingEvent,
    parseBookingEvent_of_hasHeader hheader]
  constructor
  · rintro ⟨e, he⟩
    obtain ⟨u, hu, -⟩ := map_eq_ok.mp he
    exact hu
  · intro h
    rw [h]
    exact ⟨event, rfl⟩

end ResourceHive.Notifications
