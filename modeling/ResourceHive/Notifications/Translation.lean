import ResourceHive.Notifications.Rejections

/-!
# Notifications/Translation — from an accepted event to an accepted command

`toCommand` copies the whole payload of an event into the variables of a template, and the contract
of commands is stricter about them than that of events was: a variable is a string, a number or a
boolean, an e-mail address is one, and the name of a resource has at most 200 characters, which
nothing else in the system asks of it.  `translated_iff` says which accepted events are translated
into a command that is accepted.
-/

namespace ResourceHive.Notifications
variable {P : Platform}

/-- A template value as a JSON value. -/
def TemplateValue.json : TemplateValue → Json
  | string s => .str s
  | number n => .num n
  | boolean b => .bool b

theorem json_of_templateValue {v : Json} {w : TemplateValue} (h : templateValue v = some w) :
    w.json = v := by
  cases v with
  | bool | num | str =>
    obtain rfl := Option.some.inj h
    rfl
  | null | arr | obj => cases h

theorem parseChannels_inApp_push :
    parseChannels (some (.arr [.str "IN_APP", .str "PUSH"])) = .ok [.inApp, .push] := rfl

theorem requireUuid_of_isUUID {s : String} (h : P.isUUID s) (field : String) :
    requireUuid P (some (.str s)) field = .ok s := requireString_eq_ok.mpr ⟨rfl, h⟩

theorem parse_toCommand {input : Json} {event : ParsedBookingEvent}
    (h : BookingEventAccepted P input event) {root : String}
    (hroot : event.payload.member? "rootOrganizationId" = some (.str root)) (hr : P.isUUID root):
    parseNotificationCommand P (toCommand event) = (do
      let recipient ← parseRecipient P (some (recipientOf event))
      let template ← parseTemplate P .bookingService [.inApp, .push] (some (templateOf event))
      return {
        commandId := event.eventId, producer := .bookingService, recipient
        rootOrganizationId := some root, channels := [.inApp, .push], template
        correlationId := event.correlationId, occurredAt := event.occurredAt }) := by
  have hproducer : requireOneOf NotificationProducer.text NotificationProducer.all
      (some (.str "booking-service")) (invalid "producer") = .ok .bookingService := rfl
  have hrootId : parseRootOrganizationId P (some (.str root)) = .ok (some root) := by
    rw [parseRootOrganizationId, ifDefined, requireUuid_of_isUUID hr]
    · rfl
    · exact nofun
  have hoccurredAt : requireString P.isISO8601 (some (.str event.occurredAt)) "occurredAt" =
      .ok event.occurredAt := requireString_eq_ok.mpr ⟨rfl, h.isISO8601_occurredAt⟩
  have hvalue : requireObject (some (toCommand event)) "command" = .ok (toCommand event) := rfl
  have hmember (key : String) : property (ε := HandlerError) key (some (toCommand event)) =
      .ok ((toCommand event).member? key) := rfl
  have hmembers : (toCommand event).member? "kind" = some (.str "notification.command") ∧
      (toCommand event).member? "commandId" = some (.str event.eventId) ∧
      (toCommand event).member? "producer" = some (.str "booking-service") ∧
      (toCommand event).member? "recipient" = some (recipientOf event) ∧
      (toCommand event).member? "rootOrganizationId" = some (.str root) ∧
      (toCommand event).member? "channels" = some (.arr [.str "IN_APP", .str "PUSH"]) ∧
      (toCommand event).member? "template" = some (templateOf event) ∧
      (toCommand event).member? "correlationId" = some (.str event.correlationId) ∧
      (toCommand event).member? "occurredAt" = some (.str event.occurredAt) := by
    simp [toCommand, hroot, member]
  obtain ⟨h₁, h₂, h₃, h₄, h₅, h₆, h₇, h₈, h₉⟩ := hmembers
  have hkind : refuse (!isText "notification.command" (some (.str "notification.command")))
      (invalid "kind") = .ok () := rfl
  simp only [parseNotificationCommand, hvalue, hmember, ok_bind, h₁, h₂, h₃, h₄, h₅, h₆, h₇, h₈, h₉,
    hkind, requireUuid_of_isUUID h.isUUID_eventId, requireUuid_of_isUUID h.isUUID_correlationId,
    hproducer, hrootId, hoccurredAt, parseChannels_inApp_push]

/-- What is written of a value that may be left out, if it passes. -/
theorem exists_ifDefined_eq_ok {p : String → Bool} {value : Option Json} (field : String) :
    (∃ s, ifDefined (requireString p · field) value = .ok s) ↔ value = none ∨ isTextWith p value := by
  cases value with
  | none => exact ⟨fun _ => .inl rfl, fun _ => ⟨none, rfl⟩⟩
  | some v =>
    rw [ifDefined, isTextWith_eq_true]
    constructor
    · rintro ⟨s, hs⟩
      obtain ⟨t, ht, -⟩ := map_eq_ok.mp hs
      exact .inr ⟨t, requireString_eq_ok.mp ht⟩
    · rintro (⟨⟨⟩⟩ | ⟨s, hs⟩)
      exact ⟨some s, by rw [requireString_eq_ok.mpr hs]; rfl⟩

theorem map_str_of_ifDefined {p : String → Bool} {value : Option Json} {field : String}
    {s : Option String} (h : ifDefined (requireString p · field) value = .ok s) :
    s.map Json.str = value := by
  cases value with
  | none =>
    obtain rfl := Except.ok.inj h
    rfl
  | some v =>
    obtain ⟨t, ht, rfl⟩ := map_eq_ok.mp h
    exact (requireString_eq_ok.mp ht).1.symm

theorem parseRecipient_recipientOf {event : ParsedBookingEvent} {u : String}
    (hu : event.payload.member? "userId" = some (.str u)) (hid : P.isUUID u) :
    parseRecipient P (some (recipientOf event)) =
      (ifDefined (requireString P.isEmail · "email") (event.payload.member? "email")).map
        fun email => ⟨some u, email⟩ := by
  have huserId : (recipientOf event).member? "userId" = some (.str u) := by
    simp [recipientOf, member, hu]
  have hemail : (recipientOf event).member? "email" = event.payload.member? "email" := by
    cases he : event.payload.member? "email" <;> simp [recipientOf, member, hu, he]
  have hvalue : requireObject (some (recipientOf event)) "recipient" = .ok (recipientOf event) := rfl
  have hmember (key : String) : property (ε := HandlerError) key (some (recipientOf event)) =
      .ok ((recipientOf event).member? key) := rfl
  have hdefined : ifDefined (requireUuid P · "userId") (some (.str u)) = .ok (some u) := by
    rw [ifDefined, requireUuid_of_isUUID hid]
    rfl
  have hpresent : refuse ((some u).all (· = ""))
      (HandlerError.contract
        ⟨"RECIPIENT_REQUIRED", "recipient requires a ResourceHive userId"⟩) = .ok () :=
    refuse_eq_ok.mpr (by simp [P.ne_empty hid])
  simp only [parseRecipient, hvalue, hmember, ok_bind, huserId, hemail, hdefined, hpresent]
  cases ifDefined (requireString P.isEmail · "email") (event.payload.member? "email") <;> rfl

theorem exists_requireTemplateValue_eq_ok {m : String × Json} :
    (∃ v, requireTemplateValue m = .ok v) ↔ (templateValue m.2).isSome := by
  simp only [requireTemplateValue_eq_ok, Option.isSome_iff_exists]
  exact ⟨fun ⟨v, _, h⟩ => ⟨v.2, h⟩, fun ⟨w, h⟩ => ⟨(m.1, w), rfl, h⟩⟩

/-- **The variables of a template are the members it was given**, none left out. -/
theorem json_of_mapM : ∀ {members : List (String × Json)} {vars : TemplateVariables},
    members.mapM requireTemplateValue = .ok vars → vars.map (fun v => (v.1, v.2.json)) = members
  | [], vars, h => by
      obtain rfl := Except.ok.inj h
      rfl
  | m :: members, vars, h => by
      rw [List.mapM_cons] at h
      obtain ⟨w, hw, h⟩ := bind_eq_ok.mp h
      obtain ⟨ws, hws, h⟩ := bind_eq_ok.mp h
      obtain rfl := Except.ok.inj h
      obtain ⟨hname, hvalue⟩ := requireTemplateValue_eq_ok.mp hw
      rw [List.map_cons, json_of_mapM hws, hname, json_of_templateValue hvalue]

theorem validateTemplateVariables_template (eventType : BookingEventType) (vars : Json) :
    validateTemplateVariables eventType.template vars =
      requireVariable vars "resourceName" 200 := by
  have hunit (x : Attempt Unit) : (x >>= fun _ => .ok ()) = x := by cases x <;> rfl
  cases eventType <;> exact hunit _

theorem parseTemplate_templateOf (event : ParsedBookingEvent) :
    parseTemplate P .bookingService [.inApp, .push] (some (templateOf event)) = (do
      let vars ← event.payload.spread.mapM requireTemplateValue
      requireVariable (.obj event.payload.spread) "resourceName" 200
      return ⟨event.eventType.template, vars⟩) := by
  have hvalue : requireObject (some (templateOf event)) "template" = .ok (templateOf event) := rfl
  have hmember (key : String) : property (ε := HandlerError) key (some (templateOf event)) =
      .ok ((templateOf event).member? key) := rfl
  have hkey : (templateOf event).member? "key" = some (.str event.eventType.template.text) := rfl
  have hversion : (templateOf event).member? "version" = some (.num 1) := by simp [templateOf]
  have hvars : (templateOf event).member? "variables" = some (.obj event.payload.spread) := by
    simp [templateOf]
  have hone : requireOneOf NotificationTemplateKey.text NotificationTemplateKey.all
      (some (.str event.eventType.template.text))
      (.contract ⟨"UNKNOWN_TEMPLATE", "template key is not approved"⟩) =
      .ok event.eventType.template := by
    cases event.eventType <;> rfl
  have hrefusals : (templateRefusals P event.eventType.template .bookingService
      [.inApp, .push]).find? (·.1) = none := by
    cases event.eventType <;> rfl
  simp only [parseTemplate, hvalue, hmember, ok_bind, hkey, hversion, hvars, hone, hrefusals,
    validateTemplateVariables_template]
  rfl

/-- **The events that can be translated**: the payload's extra members are those of a template, an
e-mail address is one, and the name of the resource is short. -/
structure Translatable (P : Platform) (event : ParsedBookingEvent) : Prop where
  email : event.payload.member? "email" = none ∨
    isTextWith P.isEmail (event.payload.member? "email")
  vars : ∀ m ∈ event.payload.spread, (templateValue m.2).isSome
  resourceName : isTextWith (utf16Length · ≤ 200) (event.payload.member? "resourceName")

/-- **What a command keeps of an event.** -/
structure Keeps (event : ParsedBookingEvent) (command : NotificationCommandV1) : Prop where
  commandId : command.commandId = event.eventId
  correlationId : command.correlationId = event.correlationId
  occurredAt : command.occurredAt = event.occurredAt
  userId : command.recipient.userId.map Json.str = event.payload.member? "userId"
  email : command.recipient.email.map Json.str = event.payload.member? "email"
  rootOrganizationId :
    command.rootOrganizationId.map Json.str = event.payload.member? "rootOrganizationId"
  vars : command.template.vars.map (fun v => (v.1, v.2.json)) = event.payload.spread

/-- **A lifecycle event that was accepted becomes a command that is accepted, and keeps all of it,
exactly if it can be translated.** -/
theorem translated_iff {input : Json} {event : ParsedBookingEvent}
    (h : parseBookingEvent P input = .ok event)
    (htype : event.eventType ∈ BookingEventType.lifecycle) :
    (∃ command, parseNotificationCommand P (toCommand event) = .ok command ∧ Keeps event command) ↔
      Translatable P event := by
  have haccepted := parseBookingEvent_eq_ok.mp h
  obtain ⟨root, hroot, hr⟩ := isTextWith_eq_true.mp haccepted.accepted.rootOrganizationId
  obtain ⟨u, hu, hid⟩ := isTextWith_eq_true.mp
    (haccepted.accepted.lifecycle (mem_lifecycle.mp htype)).2
  rw [parse_toCommand haccepted hroot hr, parseRecipient_recipientOf hu hid,
    parseTemplate_templateOf]
  constructor
  · rintro ⟨command, hcommand, -⟩
    obtain ⟨recipient, hrecipient, hcommand⟩ := bind_eq_ok.mp hcommand
    obtain ⟨template, htemplate, -⟩ := bind_eq_ok.mp hcommand
    obtain ⟨vars, hvars, htemplate⟩ := bind_eq_ok.mp htemplate
    obtain ⟨_, hname, -⟩ := bind_eq_ok.mp htemplate
    obtain ⟨email, hemail, -⟩ := map_eq_ok.mp hrecipient
    obtain ⟨name, hmember, -, hshort⟩ := requireVariable_eq_ok.mp hname
    rw [Json.member?_spread] at hmember
    exact
      { email := (exists_ifDefined_eq_ok _).mp ⟨email, hemail⟩
        vars := fun m hm => exists_requireTemplateValue_eq_ok.mp
          (exists_mapM_eq_ok.mp ⟨vars, hvars⟩ m hm)
        resourceName := isTextWith_eq_true.mpr ⟨name, hmember, decide_eq_true hshort⟩ }
  · intro ht
    obtain ⟨email, hemail⟩ := (exists_ifDefined_eq_ok "email").mpr ht.email
    obtain ⟨vars, hvars⟩ := exists_mapM_eq_ok.mpr fun m hm =>
      exists_requireTemplateValue_eq_ok.mpr (ht.vars m hm)
    obtain ⟨name, hmember, hshort⟩ := isTextWith_eq_true.mp ht.resourceName
    obtain ⟨_, hmember', hblank⟩ := isTextWith_eq_true.mp haccepted.accepted.resourceName
    obtain rfl := Json.str.inj (Option.some.inj (hmember.symm.trans hmember'))
    have hname : requireVariable (.obj event.payload.spread) "resourceName" 200 = .ok () :=
      requireVariable_eq_ok.mpr ⟨name, by rw [Json.member?_spread, hmember],
        of_decide_eq_true hblank, of_decide_eq_true hshort⟩
    rw [hemail, hvars, ok_bind, hname]
    exact ⟨_, rfl,
      { commandId := rfl
        correlationId := rfl
        occurredAt := rfl
        userId := hu.symm
        email := map_str_of_ifDefined hemail
        rootOrganizationId := hroot.symm
        vars := json_of_mapM hvars }⟩

/-- A confirmed booking of a resource with this name. -/
def confirmedEvent (resourceName : String) : ParsedBookingEvent where
  eventId := "11111111-1111-4111-8111-111111111111"
  eventType := .bookingConfirmed
  correlationId := "33333333-3333-4333-8333-333333333333"
  occurredAt := "2026-08-31T12:00:00.000Z"
  payload := .obj [
    ("rootOrganizationId", .str "44444444-4444-4444-8444-444444444444"),
    ("bookingId", .str "55555555-5555-4555-8555-555555555555"),
    ("resourceId", .str "66666666-6666-4666-8666-666666666666"),
    ("resourceName", .str resourceName),
    ("organizationId", .str "44444444-4444-4444-8444-444444444444"),
    ("userId", .str "22222222-2222-4222-8222-222222222222"),
    ("startsAt", .str "2026-09-01T08:00:00.000Z")]

/-- …as it is published. -/
def confirmedInput (resourceName : String) : Json :=
  let event := confirmedEvent resourceName
  .obj [
    ("kind", .str "booking.event"),
    ("eventId", .str event.eventId),
    ("eventType", .str event.eventType.text),
    ("eventVersion", .num 1),
    ("producer", .str "booking-service"),
    ("correlationId", .str event.correlationId),
    ("occurredAt", .str event.occurredAt),
    ("payload", event.payload)]

theorem accepted_confirmedInput {resourceName : String} (h : trim resourceName ≠ "") :
    BookingEventAccepted Platform.sample (confirmedInput resourceName)
      (confirmedEvent resourceName) :=
  have hbooking : isUUIDText "55555555-5555-4555-8555-555555555555" = true := by decide
  have horganization : isUUIDText "44444444-4444-4444-8444-444444444444" = true := by decide
  have huser : isUUIDText "22222222-2222-4222-8222-222222222222" = true := by decide
  { kind := rfl
    producer := rfl
    eventVersion := rfl
    eventId := rfl
    correlationId := rfl
    occurredAt := rfl
    eventType := rfl
    payload := rfl
    isUUID_eventId := by
      simp only [confirmedEvent]
      decide
    isUUID_correlationId := by
      simp only [confirmedEvent]
      decide
    isISO8601_occurredAt := by
      simp only [confirmedEvent]
      decide
    occurredAt_ne_empty := by simp [confirmedEvent]
    accepted :=
      { rootOrganizationId := horganization
        resourceId := (by decide : isUUIDText "66666666-6666-4666-8666-666666666666" = true)
        organizationId := horganization
        resourceName := decide_eq_true h
        startsAt := (by decide : decide ("2026-09-01T08:00:00.000Z" ≠ "" ∧
          isISOText "2026-09-01T08:00:00.000Z" = true) = true)
        endsAt := .inl rfl
        lifecycle := fun _ => ⟨hbooking, huser⟩
        slot := nofun } }

theorem translated_of_short_name : ∃ command, parseNotificationCommand Platform.sample
    (toCommand (confirmedEvent "Robotics Lab")) = .ok command ∧
      Keeps (confirmedEvent "Robotics Lab") command :=
  have hparse := parseBookingEvent_eq_ok.mpr (accepted_confirmedInput (by decide))
  (translated_iff hparse (by decide)).mpr
    { email := .inl rfl
      vars := by simp [confirmedEvent, Json.spread, templateValue]
      resourceName := rfl }

/-- What becomes of a name that is too long. -/
theorem rejected_confirmedEvent {resourceName : String} (h : trim resourceName ≠ "")
    (hlong : 200 < utf16Length resourceName) :
    parseNotificationCommand Platform.sample (toCommand (confirmedEvent resourceName)) =
      .error (.thrown (invalid "template.variables.resourceName")) := by
  have hname : requireVariable (.obj (confirmedEvent resourceName).payload.spread) "resourceName"
      200 = .error (.thrown (invalid "template.variables.resourceName")) := by
    have hmember : (confirmedEvent resourceName).payload.member? "resourceName" =
        some (.str resourceName) := rfl
    rw [requireVariable, property_obj, Json.member?_spread, hmember, ok_bind, requireText,
      requireString, if_neg (by simp [hlong])]
    rfl
  have horganization : isUUIDText "44444444-4444-4444-8444-444444444444" = true := by decide
  have huser : isUUIDText "22222222-2222-4222-8222-222222222222" = true := by decide
  rw [parse_toCommand (accepted_confirmedInput h) rfl horganization,
    parseRecipient_recipientOf rfl huser, parseTemplate_templateOf, hname]
  rfl

/-- A name of one letter, over and over. -/
def longName (n : ℕ) : String := String.ofList (List.replicate (n + 1) 'R')

theorem utf16Length_longName (n : ℕ) : utf16Length (longName n) = n + 1 := by
  simp [longName, utf16Length]

theorem trim_longName (n : ℕ) : trim (longName n) ≠ "" := by
  have hR : isWhiteSpace 'R' = false := by decide
  have hdrop (l : List Char) : ('R' :: l).dropWhile isWhiteSpace = 'R' :: l := by simp [hR]
  rw [trim, longName, String.toList_ofList, List.replicate_succ, hdrop, ← List.replicate_succ,
    List.reverse_replicate, List.replicate_succ, hdrop]
  simp

/-- **A resource with a name of 201 letters**: the event is accepted, and broadcast, and the command
is rejected. -/
theorem rejected_of_long_name :
    parseBookingEvent Platform.sample (confirmedInput (longName 200)) =
      .ok (confirmedEvent (longName 200)) ∧
      parseNotificationCommand Platform.sample (toCommand (confirmedEvent (longName 200))) =
        .error (.thrown (.contract
          ⟨"INVALID_CONTRACT", "template.variables.resourceName is invalid"⟩)) ∧
      ¬ ∃ command,
        parseNotificationCommand Platform.sample (toCommand (confirmedEvent (longName 200))) =
          .ok command ∧ Keeps (confirmedEvent (longName 200)) command := by
  have hrejected := rejected_confirmedEvent (trim_longName 200)
    (by rw [utf16Length_longName]; decide)
  refine ⟨parseBookingEvent_eq_ok.mpr (accepted_confirmedInput (trim_longName 200)), hrejected, ?_⟩
  rintro ⟨command, hcommand, -⟩
  rw [hrejected] at hcommand
  cases hcommand

end ResourceHive.Notifications
