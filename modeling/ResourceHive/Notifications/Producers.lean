import ResourceHive.Bookings.Database
import ResourceHive.Notifications.Client

/-!
# Notifications/Producers — the texts the booking service composes

`BookingNotificationService` puts the name of a resource, the names of users, dates and the reason
of a cancellation together into messages, and the client builds commands and events of them, which
the parsers of the contract accept or refuse (`accepted_iff_fits`).  What is refused is not
published, and `safelyNotify` writes a line to the log.
-/

namespace ResourceHive.Notifications.Producers

variable {P : Platform}

variable (P) in
/-- A row of `users`. -/
structure User where
  id : UuidText P
  email : String
  firstName : String
  lastName : String

variable (P) in
/-- A row of `organization_memberships`. -/
structure Membership where
  organizationId : UuidText P
  userId : UuidText P
  role : MembershipRole
  status : MembershipStatus

variable (P) in
/-- The tables that are read. -/
structure Tables where
  users : List (User P) := []
  organizationMemberships : List (Membership P) := []

namespace Tables

variable (db : Tables P)

/-- `userDisplayName`. -/
def userDisplayName (userId : UuidText P) (fallback : String) : String :=
  match db.users.find? (·.id = userId) with
  | none => fallback
  | some user =>
    let names := ([user.firstName, user.lastName].map trim).filter (· ≠ "")
    let fullName := String.intercalate " " names
    if fullName ≠ "" then fullName else user.email

/-- Whom `sendToAdministrators` sends to. -/
def administrators (organizationId : UuidText P) (excludedUserIds : List (UuidText P)) :
    List (UuidText P) :=
  (db.organizationMemberships.filter fun m => m.organizationId = organizationId ∧ m.role = .admin
    ∧ m.status = .approved ∧ m.userId ∉ excludedUserIds).map (·.userId)

/-- Whom `sendToResourceMembers` sends to. -/
def resourceMembers (organizationIds : List (UuidText P)) (excludedUserIds : List (UuidText P)) :
    List (UuidText P) :=
  ((db.organizationMemberships.filter fun m => m.organizationId ∈ organizationIds
    ∧ m.status = .approved ∧ m.userId ∉ excludedUserIds).map (·.userId)).dedup

end Tables

/-- `reasonText`. -/
def reasonText (reason : Option String) : String :=
  match reason.map trim with
  | some trimmed => if trimmed ≠ "" then " Reason: " ++ trimmed ++ "." else ""
  | none => ""

variable (P) in
structure BookingNotificationInput where
  bookingId : UuidText P
  userId : UuidText P
  studentEmail : String
  resourceId : UuidText P
  resourceSlotId : UuidText P
  resourceName : String
  startsAt : Timestamp
  endsAt : Timestamp
  ownerOrganizationId : UuidText P

variable (P) in
structure BookingCancellationNotificationInput extends BookingNotificationInput P where
  actorUserId : UuidText P
  cancelledByUser : Bool
  reason : Option String
  refundPoints : ℕ
  slotStatus : Bookings.SlotStatus

variable (P) in
structure BookingCompletionNotificationInput extends BookingNotificationInput P where
  actorUserId : UuidText P

variable (P) in
structure SlotCreatedNotificationInput where
  slotId : UuidText P
  actorUserId : UuidText P
  resourceId : UuidText P
  resourceName : String
  startsAt : Timestamp
  endsAt : Timestamp
  ownerOrganizationId : UuidText P
  allowedOrganizationIds : List (UuidText P)

variable (P) in
/-- What an operation hands to the client. -/
structure Outgoing where
  sent : List (SendNotificationInput P)
  published : PublishBookingEventInput P

/-- `publishLifecycleEvent`. -/
def publishLifecycleEvent (eventType : BookingEventType) (input : BookingNotificationInput P) :
    PublishBookingEventInput P where
  eventType
  bookingId := some input.bookingId
  userId := some input.userId
  email := some input.studentEmail
  resourceId := input.resourceId
  slotId := some input.resourceSlotId
  resourceName := input.resourceName
  organizationId := input.ownerOrganizationId
  startsAt := input.startsAt
  endsAt := input.endsAt

/-- How a status is written. -/
def slotStatusText : Bookings.SlotStatus → String
  | .published => "PUBLISHED"
  | .withdrawn => "WITHDRAWN"

variable (db : Tables P)

def bookingConfirmed (input : BookingNotificationInput P) : Outgoing P :=
  let studentName := db.userDisplayName input.userId input.studentEmail
  let time := toISOString input.startsAt
  { sent :=
      ⟨input.userId, "Booking confirmed",
        "Your booking for " ++ input.resourceName ++ " on " ++ time ++ " has been confirmed.",
        input.bookingId, [.inApp, .push]⟩ ::
      (db.administrators input.ownerOrganizationId []).map fun userId =>
        ⟨userId, "New booking",
          studentName ++ " booked " ++ input.resourceName ++ " for " ++ time ++ ".",
          input.bookingId, [.inApp, .push]⟩
    published := publishLifecycleEvent .bookingConfirmed input }

def bookingCancelled (input : BookingCancellationNotificationInput P) : Outgoing P :=
  let studentName := db.userDisplayName input.userId input.studentEmail
  let time := toISOString input.startsAt
  let reason := reasonText input.reason
  let studentMessage :=
    if input.cancelledByUser then
      "Your booking for " ++ input.resourceName ++ " on " ++ time ++ " was cancelled." ++ reason
        ++ " " ++ toString input.refundPoints ++ " points were refunded."
    else
      "Your booking for " ++ input.resourceName ++ " on " ++ time
        ++ " was cancelled by an administrator." ++ reason
        ++ " " ++ toString input.refundPoints ++ " points were refunded."
  let title :=
    if input.cancelledByUser then "Booking cancelled" else "Booking cancelled by administrator"
  let published := publishLifecycleEvent .bookingCancelled input.toBookingNotificationInput
  if input.cancelledByUser then
    { sent :=
        ⟨input.userId, title, studentMessage, input.bookingId, [.inApp, .push]⟩ ::
        (db.administrators input.ownerOrganizationId []).map fun userId =>
          ⟨userId, "Booking cancelled by user",
            studentName ++ " cancelled their booking for " ++ input.resourceName ++ " on " ++ time
              ++ "." ++ reason,
            input.bookingId, [.inApp, .push]⟩
      published }
  else
    let adminName := db.userDisplayName input.actorUserId "An administrator"
    { sent :=
        ⟨input.userId, title, studentMessage, input.bookingId, [.inApp, .push]⟩ ::
        (db.administrators input.ownerOrganizationId [input.actorUserId]).map fun userId =>
          ⟨userId, "Booking cancelled",
            "The booking for " ++ studentName ++ " and " ++ input.resourceName
              ++ " was cancelled by " ++ adminName ++ ". The slot is now "
              ++ slotStatusText input.slotStatus ++ ".",
            input.bookingId, [.inApp]⟩
      published }

def bookingCompleted (input : BookingCompletionNotificationInput P) : Outgoing P :=
  let studentName := db.userDisplayName input.userId input.studentEmail
  let adminName := db.userDisplayName input.actorUserId "An administrator"
  let time := toISOString input.startsAt
  { sent :=
      ⟨input.userId, "Booking completed",
        "Your booking for " ++ input.resourceName ++ " on " ++ time
          ++ " has been marked as completed.",
        input.bookingId, [.inApp, .push]⟩ ::
      (db.administrators input.ownerOrganizationId [input.actorUserId]).map fun userId =>
        ⟨userId, "Booking completed",
          "The booking for " ++ studentName ++ " and " ++ input.resourceName
            ++ " was completed by " ++ adminName ++ ".",
          input.bookingId, [.inApp]⟩
    published := publishLifecycleEvent .bookingCompleted input.toBookingNotificationInput }

def slotCreated (input : SlotCreatedNotificationInput P) : Outgoing P :=
  let adminName := db.userDisplayName input.actorUserId "An administrator"
  let organizationIds := input.ownerOrganizationId :: input.allowedOrganizationIds
  { sent := (db.resourceMembers organizationIds [input.actorUserId]).map fun userId =>
      ⟨userId, "New slot available",
        "A slot for " ++ input.resourceName ++ " from " ++ toISOString input.startsAt ++ " to "
          ++ toISOString input.endsAt ++ " was created by " ++ adminName ++ ".",
        input.slotId, [.inApp, .push]⟩
    published := {
      eventType := .slotCreated
      slotId := some input.slotId
      resourceId := input.resourceId
      resourceName := input.resourceName
      organizationId := input.ownerOrganizationId
      startsAt := input.startsAt
      endsAt := input.endsAt } }

variable (P) in
/-- What `BookingNotificationService` is told of. -/
inductive Notice
  | bookingConfirmed (input : BookingNotificationInput P)
  | bookingCancelled (input : BookingCancellationNotificationInput P)
  | bookingCompleted (input : BookingCompletionNotificationInput P)
  | slotCreated (input : SlotCreatedNotificationInput P)

namespace Notice

def outgoing : Notice P → Outgoing P
  | bookingConfirmed input => Producers.bookingConfirmed db input
  | bookingCancelled input => Producers.bookingCancelled db input
  | bookingCompleted input => Producers.bookingCompleted db input
  | slotCreated input => Producers.slotCreated db input

def resourceName : Notice P → String
  | bookingConfirmed input => input.resourceName
  | bookingCancelled input => input.resourceName
  | bookingCompleted input => input.resourceName
  | slotCreated input => input.resourceName

/-- **The contract is met**: all that an operation builds is accepted. -/
def Accepted (calls : SendNotificationInput P → ClientCall P) (call : ClientCall P)
    (rootOrganizationId : Option (UuidText P)) (notice : Notice P) : Prop :=
  (∀ input ∈ (notice.outgoing db).sent,
      ∃ command, send (calls input) rootOrganizationId input = .ok command) ∧
    ∃ event, publishBookingEvent call rootOrganizationId (notice.outgoing db).published = .ok event

end Notice

/-! ## Which texts fit

The condition counts, for each message, the pieces that come from users against what the text
between them leaves of 500. -/

theorem isText_of_mem {max : ℕ} {s : String} {c : Char} (hc : c ∈ s.toList)
    (hblack : isWhiteSpace c = false) : IsText max s ↔ utf16Length s ≤ max :=
  and_iff_right (trim_ne_empty hc hblack)

namespace Notice

variable (P) in
/-- The condition on the event of an operation. -/
def EventFits (root : Option (UuidText P)) (startsAt endsAt : Timestamp) : Prop :=
  root.isSome ∧ P.isISO8601 (toISOString startsAt) ∧ P.isISO8601 (toISOString endsAt)

/-- **When what an operation builds fits**. -/
def Fits (root : Option (UuidText P)) : Notice P → Prop
  | bookingConfirmed input =>
    let name := utf16Length input.resourceName
    let time := utf16Length (toISOString input.startsAt)
    let student := utf16Length (db.userDisplayName input.userId input.studentEmail)
    name + time ≤ 459
      ∧ (db.administrators input.ownerOrganizationId [] ≠ [] → student + name + time ≤ 486)
      ∧ EventFits P root input.startsAt input.endsAt
  | bookingCancelled input =>
    let name := utf16Length input.resourceName
    let time := utf16Length (toISOString input.startsAt)
    let reason := utf16Length (reasonText input.reason)
    let points := utf16Length (toString input.refundPoints)
    let student := utf16Length (db.userDisplayName input.userId input.studentEmail)
    let admin := utf16Length (db.userDisplayName input.actorUserId "An administrator")
    (if input.cancelledByUser then
      name + time + reason + points ≤ 441
        ∧ (db.administrators input.ownerOrganizationId [] ≠ [] →
          student + name + time + reason ≤ 466)
    else
      name + time + reason + points ≤ 421
        ∧ (db.administrators input.ownerOrganizationId [input.actorUserId] ≠ [] →
          student + name + admin ≤ 433))
      ∧ EventFits P root input.startsAt input.endsAt
  | bookingCompleted input =>
    let name := utf16Length input.resourceName
    let time := utf16Length (toISOString input.startsAt)
    let student := utf16Length (db.userDisplayName input.userId input.studentEmail)
    let admin := utf16Length (db.userDisplayName input.actorUserId "An administrator")
    name + time ≤ 449
      ∧ (db.administrators input.ownerOrganizationId [input.actorUserId] ≠ [] →
        student + name + admin ≤ 460)
      ∧ EventFits P root input.startsAt input.endsAt
  | slotCreated input =>
    let name := utf16Length input.resourceName
    let admin := utf16Length (db.userDisplayName input.actorUserId "An administrator")
    (db.resourceMembers (input.ownerOrganizationId :: input.allowedOrganizationIds)
        [input.actorUserId] ≠ [] →
      name + utf16Length (toISOString input.startsAt) + utf16Length (toISOString input.endsAt)
        + admin ≤ 462)
      ∧ EventFits P root input.startsAt input.endsAt

end Notice

/-- The same condition on each of a list of recipients. -/
theorem forall_mem_map_iff {α β : Type} {l : List α} {f : α → β} {p : β → Prop} {q : Prop}
    (h : ∀ a, p (f a) ↔ q) : (∀ b ∈ l.map f, p b) ↔ (l ≠ [] → q) := by
  rw [List.forall_mem_map]
  constructor
  · intro hall hne
    obtain ⟨a, ha⟩ := List.exists_mem_of_ne_nil l hne
    exact (h a).mp (hall a ha)
  · intro hq a ha
    exact (h a).mpr (hq (List.ne_nil_of_mem ha))

section Sent

variable {call : ClientCall P} {root : Option (UuidText P)} {userId correlationId : UuidText P}
  {title message : String} {channels : List NotificationChannel}

/-- A message under a title of the system. -/
theorem exists_send_iff_length {c : Char}
    (hd : channels = [.inApp, .push] ∨ channels = [.inApp]) (ht : IsText 120 title)
    (hc : c ∈ message.toList) (hblack : isWhiteSpace c = false) :
    (∃ command, send call root ⟨userId, title, message, correlationId, channels⟩ = .ok command) ↔
      utf16Length message ≤ 500 := by
  rw [exists_send_iff hd, isText_of_mem hc hblack]
  exact and_iff_right ht

end Sent

theorem exists_published_iff {call : ClientCall P} {root : Option (UuidText P)}
    {eventType : BookingEventType} {input : BookingNotificationInput P}
    (hname : trim input.resourceName ≠ "") :
    (∃ event, publishBookingEvent call root (publishLifecycleEvent eventType input) = .ok event) ↔
      Notice.EventFits P root input.startsAt input.endsAt := by
  rw [exists_publishBookingEvent_iff (fun _ => ⟨rfl, rfl⟩) rfl]
  exact and_congr_right fun _ => and_iff_right hname

variable {db : Tables P} {calls : SendNotificationInput P → ClientCall P} {call : ClientCall P}
  {root : Option (UuidText P)}

theorem accepted_bookingConfirmed {input : BookingNotificationInput P}
    (hname : trim input.resourceName ≠ "") :
    (Notice.bookingConfirmed input).Accepted db calls call root ↔
      (Notice.bookingConfirmed input).Fits db root := by
  rw [Notice.Accepted, Notice.outgoing, bookingConfirmed, List.forall_mem_cons,
    exists_published_iff hname, and_assoc]
  refine and_congr ?_ (and_congr_left' (forall_mem_map_iff fun userId => ?_))
  · rw [exists_send_iff_length (c := 'Y') (.inl rfl) (by decide) (by simp) (by decide)]
    simp only [utf16Length_append]
    change 17 + _ + 4 + _ + 20 ≤ 500 ↔ _
    omega
  · rw [exists_send_iff_length (c := 'b') (.inl rfl) (by decide) (by simp) (by decide)]
    simp only [utf16Length_append]
    change _ + 8 + _ + 5 + _ + 1 ≤ 500 ↔ _
    omega

theorem utf16Length_slotStatusText (status : Bookings.SlotStatus) :
    utf16Length (slotStatusText status) = 9 := by
  cases status <;> decide

theorem accepted_bookingCancelled {input : BookingCancellationNotificationInput P}
    (hname : trim input.resourceName ≠ "") :
    (Notice.bookingCancelled input).Accepted db calls call root ↔
      (Notice.bookingCancelled input).Fits db root := by
  rw [Notice.Accepted, Notice.outgoing, bookingCancelled, Notice.Fits]
  by_cases hactor : input.cancelledByUser
  · simp only [hactor, if_true]
    rw [List.forall_mem_cons, exists_published_iff hname]
    refine and_congr_left' (and_congr ?_ (forall_mem_map_iff fun userId => ?_))
    · rw [exists_send_iff_length (c := 'Y') (.inl rfl) (by decide) (by simp) (by decide)]
      simp only [utf16Length_append]
      change 17 + _ + 4 + _ + 15 + _ + 1 + _ + 22 ≤ 500 ↔ _
      omega
    · rw [exists_send_iff_length (c := 'c') (.inl rfl) (by decide) (by simp) (by decide)]
      simp only [utf16Length_append]
      change _ + 29 + _ + 4 + _ + 1 + _ ≤ 500 ↔ _
      omega
  · simp only [hactor, Bool.false_eq_true, if_false]
    rw [List.forall_mem_cons, exists_published_iff hname]
    refine and_congr_left' (and_congr ?_ (forall_mem_map_iff fun userId => ?_))
    · rw [exists_send_iff_length (c := 'Y') (.inl rfl) (by decide) (by simp) (by decide)]
      simp only [utf16Length_append]
      change 17 + _ + 4 + _ + 35 + _ + 1 + _ + 22 ≤ 500 ↔ _
      omega
    · rw [exists_send_iff_length (c := 'T') (.inr rfl) (by decide) (by simp) (by decide)]
      simp only [utf16Length_append, utf16Length_slotStatusText]
      change 16 + _ + 5 + _ + 18 + _ + 18 + 9 + 1 ≤ 500 ↔ _
      omega

theorem accepted_bookingCompleted {input : BookingCompletionNotificationInput P}
    (hname : trim input.resourceName ≠ "") :
    (Notice.bookingCompleted input).Accepted db calls call root ↔
      (Notice.bookingCompleted input).Fits db root := by
  rw [Notice.Accepted, Notice.outgoing, bookingCompleted, List.forall_mem_cons,
    exists_published_iff hname, and_assoc]
  refine and_congr ?_ (and_congr_left' (forall_mem_map_iff fun userId => ?_))
  · rw [exists_send_iff_length (c := 'Y') (.inl rfl) (by decide) (by simp) (by decide)]
    simp only [utf16Length_append]
    change 17 + _ + 4 + _ + 30 ≤ 500 ↔ _
    omega
  · rw [exists_send_iff_length (c := 'T') (.inr rfl) (by decide) (by simp) (by decide)]
    simp only [utf16Length_append]
    change 16 + _ + 5 + _ + 18 + _ + 1 ≤ 500 ↔ _
    omega

theorem accepted_slotCreated {input : SlotCreatedNotificationInput P}
    (hname : trim input.resourceName ≠ "") :
    (Notice.slotCreated input).Accepted db calls call root ↔
      (Notice.slotCreated input).Fits db root := by
  rw [Notice.Accepted, Notice.outgoing, slotCreated,
    exists_publishBookingEvent_iff (fun h => absurd rfl h) rfl]
  refine and_congr (forall_mem_map_iff fun userId => ?_)
    (and_congr_right fun _ => and_iff_right hname)
  rw [exists_send_iff_length (c := 'A') (.inl rfl) (by decide) (by simp) (by decide)]
  simp only [utf16Length_append]
  change 11 + _ + 6 + _ + 4 + _ + 16 + _ + 1 ≤ 500 ↔ _
  omega

/-- **The contract is met exactly if the texts fit.** -/
theorem accepted_iff_fits (db : Tables P) (calls : SendNotificationInput P → ClientCall P)
    (call : ClientCall P) (root : Option (UuidText P)) (notice : Notice P)
    (hname : trim notice.resourceName ≠ "") :
    notice.Accepted db calls call root ↔ notice.Fits db root := by
  cases notice with
  | bookingConfirmed input => exact accepted_bookingConfirmed hname
  | bookingCancelled input => exact accepted_bookingCancelled hname
  | bookingCompleted input => exact accepted_bookingCompleted hname
  | slotCreated input => exact accepted_slotCreated hname

/-- One `uuid` for all there is. -/
def sampleUuid : UuidText Platform.sample := ⟨"22222222-2222-4222-8222-222222222222", by decide⟩

def sampleCall : ClientCall Platform.sample where
  randomUUID := sampleUuid
  now := 1788249600000
  isISO8601_now := by decide

/-- A student cancels the booking of a room, for a reason. -/
def sampleCancellation (reason : Option String) : Notice Platform.sample :=
  .bookingCancelled {
    bookingId := sampleUuid
    userId := sampleUuid
    studentEmail := "alex@example.edu"
    resourceId := sampleUuid
    resourceSlotId := sampleUuid
    resourceName := "Robotics Lab"
    startsAt := 1788336000000
    endsAt := 1788339600000
    ownerOrganizationId := sampleUuid
    actorUserId := sampleUuid
    cancelledByUser := true
    reason
    refundPoints := 5
    slotStatus := .published }

/-- The tables of a university with one user, who administers it. -/
def sampleTables : Tables Platform.sample where
  users := [⟨sampleUuid, "alex@example.edu", "Alex", "Student"⟩]
  organizationMemberships := [⟨sampleUuid, sampleUuid, .admin, .approved⟩]

theorem accepted_short_reason :
    (sampleCancellation (some "No longer needed")).Accepted sampleTables (fun _ => sampleCall)
      sampleCall (some sampleUuid) := by
  refine (accepted_iff_fits sampleTables _ _ _ _ (by decide)).mpr ?_
  exact ⟨⟨by decide, fun _ => by decide⟩, by decide, by decide, by decide⟩

/-- A name that is not trimmed. -/
theorem trim_longName_eq (n : ℕ) : trim (longName n) = longName n := by
  have hR : isWhiteSpace 'R' = false := by decide
  have hdrop (l : List Char) : ('R' :: l).dropWhile isWhiteSpace = 'R' :: l := by simp [hR]
  rw [trim, longName, String.toList_ofList, List.replicate_succ, hdrop, ← List.replicate_succ,
    List.reverse_replicate, List.replicate_succ, hdrop, ← List.replicate_succ,
    List.reverse_replicate]

theorem utf16Length_reasonText_longName (n : ℕ) :
    utf16Length (reasonText (some (longName n))) = n + 11 := by
  have hne := trim_longName n
  rw [trim_longName_eq] at hne
  simp only [reasonText, Option.map_some, trim_longName_eq, hne, ne_eq, not_false_eq_true, if_true,
    utf16Length_append, utf16Length_longName]
  change 9 + (n + 1) + 1 = _
  omega

theorem Notice.Fits.reason_le {db : Tables P} {root : Option (UuidText P)}
    {input : BookingCancellationNotificationInput P} (h : (bookingCancelled input).Fits db root) :
    utf16Length (reasonText input.reason) ≤ 441 := by
  have hfits := h.1
  split at hfits <;> have hmessage := hfits.1 <;> omega

theorem not_accepted_sampleCancellation {reason : Option String}
    (hlong : 441 < utf16Length (reasonText reason)) :
    ¬ (sampleCancellation reason).Accepted sampleTables (fun _ => sampleCall) sampleCall
      (some sampleUuid) := by
  intro h
  have hname : trim "Robotics Lab" ≠ "" := by decide
  have hreason := ((accepted_bookingCancelled (by exact hname)).mp h).reason_le
  exact absurd hreason (Nat.not_le.mpr hlong)

/-- **A reason of 500 letters**, which a cancellation may have: the messages that contain it are
refused. -/
theorem refused_long_reason :
    (longName 499).length = 500 ∧
      ¬ (sampleCancellation (some (longName 499))).Accepted sampleTables (fun _ => sampleCall)
        sampleCall (some sampleUuid) := by
  refine ⟨by rw [longName, String.length_ofList, List.length_replicate], ?_⟩
  refine not_accepted_sampleCancellation ?_
  rw [utf16Length_reasonText_longName]
  decide

end ResourceHive.Notifications.Producers
