import ResourceHive.Machinery.Json
import ResourceHive.Notifications.Realtime

/-!
# Notifications/Contracts — the booking events the notification service accepts

`parseBookingEvent` of the notification client, on any JSON value: what it accepts
(`parseBookingEvent_eq_ok`), and on which inputs it fails otherwise than by a
`NotificationContractError` (`rejects_parseBookingEvent_iff`).  A check answers with the value it
has checked, at its type, where the source casts the whole value at the end.

The validators of `class-validator` are any functions of strings; they are false on every value that
is not a string.
-/

namespace ResourceHive.Notifications

/-- What the parsers take from elsewhere: the validators of strings, how a number is written, and
whether `NODE_ENV` is `production`. -/
structure Platform where
  isUUID : String → Bool
  isISO8601 : String → Bool
  isEmail : String → Bool
  number : ℚ → String
  production : Bool
  isUUID_empty : isUUID "" = false

theorem Platform.ne_empty (P : Platform) {s : String} (h : P.isUUID s) : s ≠ "" := by
  rintro rfl
  rw [P.isUUID_empty] at h
  cases h

/-- Hexadecimal digits in groups of 8, 4, 4, 4 and 12. -/
def isUUIDText (s : String) : Bool :=
  let groups := s.toList.splitOn '-'
  decide (groups.map List.length = [8, 4, 4, 4, 12]) && groups.all fun group =>
    group.all fun c => c.isDigit || ('a' ≤ c && c ≤ 'f') || ('A' ≤ c && c ≤ 'F')

/-- A date and a time of day in UTC, with milliseconds. -/
def isISOText (s : String) : Bool :=
  let shape (c : Char) : Char := if c.isDigit then '0' else c
  decide (s.toList.map shape = "0000-00-00T00:00:00.000Z".toList)

/-- Validators that are right about the texts this system writes. -/
def Platform.sample : Platform where
  isUUID := isUUIDText
  isISO8601 := isISOText
  isEmail s := (s.toList.splitOn '@').length = 2
  number n := toString n
  production := false
  isUUID_empty := by decide

structure NotificationContractError where
  code : String
  message : String
  deriving DecidableEq, Repr

/-- What the handlers of messages throw: a `NotificationContractError`, an `UnauthorizedException`,
or any other `Error`. -/
inductive HandlerError
  | contract (e : NotificationContractError)
  | unauthorized (message : String)
  | error (message : String)
  deriving DecidableEq, Repr

abbrev Attempt := Except (Exception HandlerError)

/-- **What a parser may do**: return, or throw a `NotificationContractError`. -/
def Rejects {α : Type} (x : Attempt α) : Prop := Throws (fun e => ∃ c, e = HandlerError.contract c) x

/-! ## Booking events -/

def BookingEventType.text : BookingEventType → String
  | bookingConfirmed => "booking.confirmed"
  | bookingCancelled => "booking.cancelled"
  | bookingCompleted => "booking.completed"
  | slotCreated => "slot.created"

def BookingEventType.all : List BookingEventType :=
  [.bookingConfirmed, .bookingCancelled, .bookingCompleted, .slotCreated]

/-- `BOOKING_LIFECYCLE_EVENT_TYPES`. -/
def BookingEventType.lifecycle : List BookingEventType :=
  [.bookingConfirmed, .bookingCancelled, .bookingCompleted]

/-- What `parseBookingEvent` returns.  Of the payload only some members are checked. -/
structure ParsedBookingEvent where
  eventId : String
  eventType : BookingEventType
  correlationId : String
  occurredAt : String
  payload : Json

/-- `reject`. -/
def reject (message : String) : HandlerError := .contract ⟨"INVALID_BOOKING_EVENT", message⟩

/-- The value of a string that is not empty and passes a validator. -/
def textWith (p : String → Bool) : Option Json → Option String
  | some (.str s) => if s ≠ "" ∧ p s then some s else none
  | _ => none

variable {α : Type} (P : Platform)

/-- The check of the payload's members that every event has. -/
def payloadInvalid (payload : Option Json) : Attempt Bool := do
  if !truthy payload then return true
  let rootOrganizationId ← property "rootOrganizationId" payload
  let resourceId ← property "resourceId" payload
  let organizationId ← property "organizationId" payload
  if !isTextWith P.isUUID rootOrganizationId || !isTextWith P.isUUID resourceId
      || !isTextWith P.isUUID organizationId then
    return true
  let name ← optionalTrim (← property "resourceName" payload)
  let startsAt ← property "startsAt" payload
  return name.all (· = "") || (textWith P.isISO8601 startsAt).isNone

/-- The checks of the payload. -/
def parseBookingPayload (eventType : BookingEventType) (payload : Option Json) : Attempt Unit := do
  refuse (← payloadInvalid P payload) (reject "Invalid booking event payload")
  let endsAt ← property "endsAt" payload
  refuse (endsAt.isSome && !isTextWith P.isISO8601 endsAt) (reject "Invalid booking event payload")
  let bookingId ← property "bookingId" payload
  let userId ← property "userId" payload
  refuse (decide (eventType ∈ BookingEventType.lifecycle)
      && (!isTextWith P.isUUID bookingId || !isTextWith P.isUUID userId))
    (reject "Booking lifecycle events require bookingId and userId")
  let slotId ← property "slotId" payload
  refuse (decide (eventType = .slotCreated) && !isTextWith P.isUUID slotId)
    (reject "Slot creation events require slotId")

/-- The checks of `eventId`, `correlationId` and `occurredAt`. -/
def parseIdentity (event : Option Json) : Attempt (String × String × String) := do
  let eventId ← property "eventId" event
  let correlationId ← property "correlationId" event
  let occurredAt ← property "occurredAt" event
  match textWith P.isUUID eventId, textWith P.isUUID correlationId,
      textWith P.isISO8601 occurredAt with
  | some eventId, some correlationId, some occurredAt => return (eventId, correlationId, occurredAt)
  | _, _, _ => throw (.thrown (reject "Invalid booking event identity"))

/-- The check of `eventType`. -/
def parseEventType (event : Option Json) : Attempt BookingEventType := do
  match oneOf BookingEventType.text BookingEventType.all (← property "eventType" event) with
  | some eventType => return eventType
  | none => throw (.thrown (reject "Unsupported booking event type"))

/-- **`parseBookingEvent`.** -/
def parseBookingEvent (input : Json) : Attempt ParsedBookingEvent := do
  let event := some input
  let kind ← property "kind" event
  let producer ← property "producer" event
  let eventVersion ← property "eventVersion" event
  refuse (!isText "booking.event" kind || !isText "booking-service" producer
    || !isNumber 1 eventVersion) (reject "Invalid booking event envelope")
  let (eventId, correlationId, occurredAt) ← parseIdentity P event
  let eventType ← parseEventType event
  let payload ← property "payload" event
  parseBookingPayload P eventType payload
  return { eventId, eventType, correlationId, occurredAt, payload := payload.getD .null }

/-! ## What a booking event must be -/

/-- Where a payload is: the identifiers that every event has. -/
structure Located (payload : Json) : Prop where
  rootOrganizationId : isTextWith P.isUUID (payload.member? "rootOrganizationId")
  resourceId : isTextWith P.isUUID (payload.member? "resourceId")
  organizationId : isTextWith P.isUUID (payload.member? "organizationId")

/-- The payloads that are accepted for a type of event. -/
structure PayloadAccepted (eventType : BookingEventType) (payload : Json) : Prop
    extends Located P payload where
  resourceName : isTextWith (trim · ≠ "") (payload.member? "resourceName")
  startsAt : isTextWith (fun s => s ≠ "" ∧ P.isISO8601 s) (payload.member? "startsAt")
  endsAt : payload.member? "endsAt" = none ∨ isTextWith P.isISO8601 (payload.member? "endsAt")
  lifecycle : eventType ≠ .slotCreated →
    isTextWith P.isUUID (payload.member? "bookingId") ∧
      isTextWith P.isUUID (payload.member? "userId")
  slot : eventType = .slotCreated → isTextWith P.isUUID (payload.member? "slotId")

/-- How the members of an event other than its payload are read. -/
structure HasHeader (input : Json) (event : ParsedBookingEvent) : Prop where
  kind : input.member? "kind" = some (.str "booking.event")
  producer : input.member? "producer" = some (.str "booking-service")
  eventVersion : input.member? "eventVersion" = some (.num 1)
  eventId : input.member? "eventId" = some (.str event.eventId)
  correlationId : input.member? "correlationId" = some (.str event.correlationId)
  occurredAt : input.member? "occurredAt" = some (.str event.occurredAt)
  eventType : input.member? "eventType" = some (.str event.eventType.text)
  payload : input.member? "payload" = some event.payload
  isUUID_eventId : P.isUUID event.eventId
  isUUID_correlationId : P.isUUID event.correlationId
  isISO8601_occurredAt : P.isISO8601 event.occurredAt
  occurredAt_ne_empty : event.occurredAt ≠ ""

/-- **What is accepted as a booking event**, and how it is read. -/
structure BookingEventAccepted (input : Json) (event : ParsedBookingEvent) : Prop
    extends HasHeader P input event where
  accepted : PayloadAccepted P event.eventType event.payload

/-- A value on which `?.trim()` works. -/
def Trimmable : Option Json → Prop
  | none | some .null | some (.str _) => True
  | some _ => False

/-- **The inputs on which no operation of `parseBookingEvent` fails**: not `null`, and a resource
name that is reached is a string if it is there at all. -/
def WellTyped (input : Json) : Prop :=
  input ≠ .null ∧ ∀ event, HasHeader P input event → Located P event.payload →
    Trimmable (event.payload.member? "resourceName")

/-! ## The specification of `parseBookingEvent` -/

theorem rejects_throw (message : String) : Rejects (α := α) (.error (.thrown (reject message))) :=
  throws_thrown ⟨_, rfl⟩

theorem rejects_refuse (p : Bool) (message : String) : Rejects (refuse p (reject message)) :=
  throws_refuse ⟨_, rfl⟩

theorem textWith_eq_some {p : String → Bool} {v : Option Json} {s : String} :
    textWith p v = some s ↔ v = some (.str s) ∧ s ≠ "" ∧ p s := by
  unfold textWith
  split
  · next t =>
    rw [Option.ite_none_right_eq_some, Option.some.injEq]
    constructor
    · rintro ⟨h, rfl⟩
      exact ⟨rfl, h⟩
    · rintro ⟨⟨⟩, h⟩
      exact ⟨h, rfl⟩
  · next h => exact ⟨nofun, fun ⟨hv, _⟩ => absurd hv (h s)⟩

theorem mem_lifecycle {eventType : BookingEventType} :
    eventType ∈ BookingEventType.lifecycle ↔ eventType ≠ .slotCreated := by
  cases eventType <;> decide

theorem oneOf_text (eventType : BookingEventType) :
    oneOf BookingEventType.text BookingEventType.all (some (.str eventType.text)) =
      some eventType := by
  cases eventType <;> decide

/-- A value with a member is not `null`. -/
theorem ne_null_of_member? {v w : Json} {key : String} (h : v.member? key = some w) : v ≠ .null := by
  rintro rfl
  cases h

theorem Located.ne_null {payload : Json} (h : Located P payload) : payload ≠ .null := by
  obtain ⟨s, hs, -⟩ := isTextWith_eq_true.mp h.rootOrganizationId
  exact ne_null_of_member? hs

theorem Located.truthy {payload : Json} (h : Located P payload) : truthy (some payload) := by
  obtain ⟨s, hs, -⟩ := isTextWith_eq_true.mp h.rootOrganizationId
  cases payload with
  | obj members => rfl
  | null | bool | num | str | arr => cases hs

variable {P}

theorem payloadInvalid_of_not_located {payload : Json} (h : ¬ Located P payload) :
    payloadInvalid P (some payload) = .ok true := by
  rw [payloadInvalid]
  cases htruthy : truthy (some payload) with
  | false => rfl
  | true =>
    have hnull : payload ≠ .null := by
      rintro rfl
      cases htruthy
    have hids : (!isTextWith P.isUUID (payload.member? "rootOrganizationId")
        || !isTextWith P.isUUID (payload.member? "resourceId")
        || !isTextWith P.isUUID (payload.member? "organizationId")) = true := by
      by_contra hids
      simp only [Bool.or_eq_true, Bool.not_eq_true', not_or, Bool.not_eq_false] at hids
      exact h ⟨hids.1.1, hids.1.2, hids.2⟩
    simp only [Bool.not_true, Bool.false_eq_true, if_false, property_some hnull]
    change (if _ then _ else _) = _
    rw [if_pos hids]
    rfl

theorem payloadInvalid_of_located {payload : Json} (h : Located P payload) :
    payloadInvalid P (some payload) = (optionalTrim (payload.member? "resourceName")).bind fun name =>
      .ok (name.all (· = "")
        || (textWith P.isISO8601 (payload.member? "startsAt")).isNone) := by
  rw [payloadInvalid, h.truthy]
  simp only [Bool.not_true, Bool.false_eq_true, if_false, property_some h.ne_null]
  change (if _ then _ else _) = _
  rw [if_neg (by simp [h.rootOrganizationId, h.resourceId, h.organizationId])]
  rfl


theorem optionalTrim_of_trimmable {v : Option Json} (h : Trimmable v) :
    ∃ name, optionalTrim (ε := HandlerError) v = .ok name ∧
      (name.all (· = "") = !isTextWith (trim · ≠ "") v) := by
  match v with
  | none | some .null => exact ⟨none, rfl, rfl⟩
  | some (.str s) => exact ⟨some (trim s), rfl, by simp [isTextWith]⟩

theorem optionalTrim_of_not_trimmable {v : Option Json} (h : ¬ Trimmable v) :
    optionalTrim (ε := HandlerError) v = .error .typeError := by
  match v with
  | none | some .null | some (.str _) => exact absurd trivial h
  | some (.bool _) | some (.num _) | some (.arr _) | some (.obj _) => rfl

theorem trimmable_of_isTextWith {p : String → Bool} {v : Option Json} (h : isTextWith p v) :
    Trimmable v := by
  obtain ⟨s, rfl, -⟩ := isTextWith_eq_true.mp h
  trivial

theorem rejects_parseBookingPayload {eventType : BookingEventType} {payload : Option Json}
    (h : ∀ p, payload = some p → Located P p → Trimmable (p.member? "resourceName")) :
    Rejects (parseBookingPayload P eventType payload) := by
  rw [parseBookingPayload]
  cases payload with
  | none => exact rejects_throw _
  | some p =>
    by_cases hp : Located P p
    · obtain ⟨name, hname, -⟩ := optionalTrim_of_trimmable (h p rfl hp)
      rw [payloadInvalid_of_located hp, hname]
      simp only [property_some hp.ne_null]
      refine (rejects_refuse _ _).bind fun _ _ => ?_
      refine (rejects_refuse _ _).bind fun _ _ => ?_
      refine (rejects_refuse _ _).bind fun _ _ => ?_
      exact rejects_refuse _ _
    · rw [payloadInvalid_of_not_located hp]
      exact rejects_throw _

theorem parseBookingPayload_eq_typeError {eventType : BookingEventType} {payload : Json}
    (hp : Located P payload) (h : ¬ Trimmable (payload.member? "resourceName")) :
    parseBookingPayload P eventType (some payload) = .error .typeError := by
  rw [parseBookingPayload, payloadInvalid_of_located hp, optionalTrim_of_not_trimmable h]
  rfl

theorem isNone_textWith {p : String → Bool} {v : Option Json} :
    (textWith p v).isNone = !isTextWith (fun s => s ≠ "" ∧ p s) v := by
  match v with
  | some (.str s) => by_cases h : s ≠ "" ∧ p s <;> simp [textWith, isTextWith, h]
  | none | some .null | some (.bool _) | some (.num _) | some (.arr _) | some (.obj _) => rfl

theorem parseBookingPayload_eq_ok {eventType : BookingEventType} {payload : Json} :
    parseBookingPayload P eventType (some payload) = .ok () ↔
      PayloadAccepted P eventType payload := by
  by_cases hp : Located P payload
  swap
  · rw [parseBookingPayload, payloadInvalid_of_not_located hp]
    exact ⟨nofun, fun h => absurd h.toLocated hp⟩
  by_cases ht : Trimmable (payload.member? "resourceName")
  swap
  · rw [parseBookingPayload_eq_typeError hp ht]
    exact ⟨nofun, fun h => absurd (trimmable_of_isTextWith h.resourceName) ht⟩
  obtain ⟨name, hname, htrim⟩ := optionalTrim_of_trimmable ht
  rw [parseBookingPayload, payloadInvalid_of_located hp, hname]
  simp only [property_some hp.ne_null]
  change (refuse _ _ >>= fun _ => refuse _ _ >>= fun _ => refuse _ _ >>= fun _ => refuse _ _) = _ ↔ _
  simp only [bind_eq_ok, refuse_eq_ok, exists_const, htrim, Bool.or_eq_false_iff]
  rw [isNone_textWith]
  constructor
  · rintro ⟨⟨hname, hstarts⟩, hends, hlifecycle, hslot⟩
    exact
      { hp with
        resourceName := by simpa using hname
        startsAt := by simpa using hstarts
        endsAt := by
          rw [Bool.and_eq_false_iff, Option.isSome_eq_false_iff, Option.isNone_iff_eq_none] at hends
          simpa using hends
        lifecycle := fun h => by simpa [mem_lifecycle.mpr h] using hlifecycle
        slot := fun h => by simpa [h] using hslot }
  · intro h
    refine ⟨⟨by simpa using h.resourceName, by simpa using h.startsAt⟩, ?_, ?_, ?_⟩
    · rw [Bool.and_eq_false_iff, Option.isSome_eq_false_iff, Option.isNone_iff_eq_none]
      simpa using h.endsAt
    · by_cases ht : eventType ∈ BookingEventType.lifecycle
      · simp [ht, h.lifecycle (mem_lifecycle.mp ht)]
      · simp [ht]
    · by_cases ht : eventType = .slotCreated
      · simp [ht, h.slot ht]
      · simp [ht]


theorem parseIdentity_eq_ok {input : Json} (hnull : input ≠ .null) {a b c : String} :
    parseIdentity P (some input) = .ok (a, b, c) ↔
      (input.member? "eventId" = some (.str a) ∧ a ≠ "" ∧ P.isUUID a) ∧
        (input.member? "correlationId" = some (.str b) ∧ b ≠ "" ∧ P.isUUID b) ∧
        input.member? "occurredAt" = some (.str c) ∧ c ≠ "" ∧ P.isISO8601 c := by
  simp only [parseIdentity, property_some hnull, ok_bind, ← textWith_eq_some]
  split
  · next a' b' c' ha hb hc => 
    rw [ha, hb, hc]
    simp only [Option.some.injEq]
    constructor
    · intro h
      cases h
      trivial
    · rintro ⟨rfl, rfl, rfl⟩
      rfl
  · next h => exact ⟨nofun, fun ⟨ha, hb, hc⟩ => (h a b c ha hb hc).elim⟩

theorem rejects_parseIdentity {input : Json} (hnull : input ≠ .null) :
    Rejects (parseIdentity P (some input)) := by
  simp only [parseIdentity, property_some hnull, ok_bind]
  split
  · exact throws_ok _
  · exact rejects_throw _

theorem parseEventType_eq_ok {input : Json} (hnull : input ≠ .null) {eventType : BookingEventType} :
    parseEventType (some input) = .ok eventType ↔
      input.member? "eventType" = some (.str eventType.text) := by
  simp only [parseEventType, property_some hnull, ok_bind]
  split
  · next t ht =>
    rw [oneOf_eq_some ht, Option.some.injEq, Json.str.injEq]
    constructor
    · intro h
      cases h
      rfl
    · intro h
      have := oneOf_text t
      rw [h, oneOf_text, Option.some.injEq] at this
      exact this ▸ rfl
  · next h => exact ⟨nofun, fun ht => by simp [ht, oneOf_text] at h⟩

theorem rejects_parseEventType {input : Json} (hnull : input ≠ .null) :
    Rejects (parseEventType (some input)) := by
  simp only [parseEventType, property_some hnull, ok_bind]
  split
  · exact throws_ok _
  · exact rejects_throw _

/-- The checks of an event up to its payload. -/
theorem parseBookingEvent_of_hasHeader {input : Json} {event : ParsedBookingEvent}
    (h : HasHeader P input event) :
    parseBookingEvent P input =
      (parseBookingPayload P event.eventType (some event.payload)).map fun _ => event := by
  have hnull := ne_null_of_member? h.kind
  have hidentity := (parseIdentity_eq_ok (P := P) hnull).mpr
    ⟨⟨h.eventId, P.ne_empty h.isUUID_eventId, h.isUUID_eventId⟩,
      ⟨h.correlationId, P.ne_empty h.isUUID_correlationId, h.isUUID_correlationId⟩, h.occurredAt,
      h.occurredAt_ne_empty, h.isISO8601_occurredAt⟩
  have htype := (parseEventType_eq_ok hnull).mpr h.eventType
  simp only [parseBookingEvent, property_some hnull, ok_bind, h.kind, h.producer, h.eventVersion,
    h.payload, hidentity, htype]
  rw [(refuse_eq_ok (u := ())).mpr (by simp [isText, isNumber]), ok_bind]
  cases parseBookingPayload P event.eventType (some event.payload) <;> rfl

/-- The converse, from what the checks answer. -/
theorem hasHeader_of_checks {input : Json} (hnull : input ≠ .null) {u : Unit} {message : String}
    (henvelope : refuse (!isText "booking.event" (input.member? "kind")
      || !isText "booking-service" (input.member? "producer")
      || !isNumber 1 (input.member? "eventVersion")) (reject message) = .ok u)
    {event : ParsedBookingEvent}
    (hidentity : parseIdentity P (some input) =
      .ok (event.eventId, event.correlationId, event.occurredAt))
    (htype : parseEventType (some input) = .ok event.eventType)
    (hpayload : input.member? "payload" = some event.payload) : HasHeader P input event := by
  simp only [refuse_eq_ok, Bool.or_eq_false_iff, Bool.not_eq_false', isText_eq_true,
    isNumber_eq_true] at henvelope
  obtain ⟨⟨ha, ha', ha''⟩, ⟨hb, hb', hb''⟩, hc, hc', hc''⟩ := (parseIdentity_eq_ok hnull).mp hidentity
  exact
    { kind := henvelope.1.1
      producer := henvelope.1.2
      eventVersion := henvelope.2
      eventId := ha
      correlationId := hb
      occurredAt := hc
      eventType := (parseEventType_eq_ok hnull).mp htype
      payload := hpayload
      isUUID_eventId := ha''
      isUUID_correlationId := hb''
      isISO8601_occurredAt := hc''
      occurredAt_ne_empty := hc' }

/-- **What `parseBookingEvent` throws**, where no operation of it fails. -/
theorem rejects_parseBookingEvent {input : Json} (h : WellTyped P input) :
    Rejects (parseBookingEvent P input) := by
  have hnull := h.1
  simp only [parseBookingEvent, property_some hnull, ok_bind]
  refine (rejects_refuse _ _).bind fun _ henvelope => ?_
  refine (rejects_parseIdentity hnull).bind fun ⟨eventId, correlationId, occurredAt⟩ hidentity => ?_
  refine (rejects_parseEventType hnull).bind fun eventType htype => ?_
  refine Throws.bind (rejects_parseBookingPayload fun payload hpayload => ?_) fun _ _ => throws_ok _
  exact h.2 ⟨eventId, eventType, correlationId, occurredAt, payload⟩
    (hasHeader_of_checks hnull henvelope hidentity htype hpayload)

/-- **…and only then.** -/
theorem rejects_parseBookingEvent_iff {input : Json} :
    Rejects (parseBookingEvent P input) ↔ WellTyped P input := by
  refine ⟨fun h => ⟨?_, fun event hevent hlocated => ?_⟩, rejects_parseBookingEvent⟩
  · rintro rfl
    exact not_throws_typeError h
  · by_contra hname
    rw [parseBookingEvent_of_hasHeader hevent, parseBookingPayload_eq_typeError hlocated hname] at h
    exact not_throws_typeError h

/-- **What `parseBookingEvent` accepts.** -/
theorem parseBookingEvent_eq_ok {input : Json} {event : ParsedBookingEvent} :
    parseBookingEvent P input = .ok event ↔ BookingEventAccepted P input event := by
  constructor
  · intro h
    have hnull : input ≠ .null := by
      rintro rfl
      cases h
    simp only [parseBookingEvent, property_some hnull, ok_bind] at h
    obtain ⟨u, henvelope, h⟩ := bind_eq_ok.mp h
    obtain ⟨⟨eventId, correlationId, occurredAt⟩, hidentity, h⟩ := bind_eq_ok.mp h
    obtain ⟨eventType, htype, h⟩ := bind_eq_ok.mp h
    obtain ⟨v, hok, h⟩ := bind_eq_ok.mp h
    cases hpayload : input.member? "payload" with
    | none =>
      rw [hpayload] at hok
      cases hok
    | some payload =>
      rw [hpayload] at hok h
      obtain rfl := Except.ok.inj h
      exact
        { hasHeader_of_checks hnull henvelope hidentity htype hpayload with
          accepted := parseBookingPayload_eq_ok.mp hok }
  · intro h
    rw [parseBookingEvent_of_hasHeader h.toHasHeader, parseBookingPayload_eq_ok.mpr h.accepted]
    rfl

end ResourceHive.Notifications
