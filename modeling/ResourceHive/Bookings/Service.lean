import ResourceHive.Bookings.Database
import ResourceHive.Machinery.Text
import ResourceHive.Points.Service

/-!
# Bookings/Service — `BookingService`, between its database calls

What the service computes from what it has read: the checks of `createBooking`, the two branches of
`cancelBooking`, the list `reevaluateBookings` works through.  A cancellation is one shape of
transaction with three origins (`Cancellation`): they differ in the guard of the booking's update,
in the status the slot is left in, and in the share of the deduction that is refunded.

The queries of `createBooking` may each be made to raise (`Faults`), so that the same definitions
serve a database that aborts the transaction at any statement.
-/

namespace ResourceHive.Bookings

/-- `bookings/booking.errors.ts`, and the exceptions of the services called within.  As in the point
service, an operation error's cause is not part of the exception. -/
inductive BookingError
  | unauthorized (message : String)
  | points (e : PointLedgerError)
  | notFound
  | slotNotFound
  | resourceInactive
  | resourceAccessDenied
  | administratorRequired
  | slotStarted
  | slotUnavailable
  | pointCostInvalid
  | concurrentConflict
  | transactionConflict
  | cannotBeCancelled
  | cancellationStarted
  | cancellationInput
  | cancellationConflict
  | cannotBeCompleted
  | operation (operation : String) (cause : PrismaError)
  deriving DecidableEq, Repr

namespace BookingError

/-- The HTTP status of the exception's base class. -/
def status : BookingError → ℕ
  | unauthorized _ => 401
  | points e => e.status
  | notFound | slotNotFound => 404
  | resourceAccessDenied | administratorRequired => 403
  | slotStarted | cancellationInput => 400
  | resourceInactive | slotUnavailable | pointCostInvalid | concurrentConflict
  | transactionConflict | cannotBeCancelled | cancellationStarted | cancellationConflict
  | cannotBeCompleted => 409
  | operation _ _ => 500

def message : BookingError → String
  | unauthorized message => message
  | points e => e.message
  | notFound => "Booking not found"
  | slotNotFound => "The requested slot was not found"
  | resourceInactive => "The resource is not active"
  | resourceAccessDenied => "The user cannot access this resource"
  | administratorRequired => "Administrator access to the resource's organization is required"
  | slotStarted => "The slot has already started"
  | slotUnavailable => "The slot already has an active booking"
  | pointCostInvalid => "The resource point cost is invalid"
  | concurrentConflict => "The slot was booked by another request"
  | transactionConflict => "The booking could not be completed because of a concurrent update"
  | cannotBeCancelled => "Only a confirmed booking can be cancelled"
  | cancellationStarted => "A booking cannot be cancelled after its cancellation deadline"
  | cancellationInput => "makeSlotAvailable is required for an administrator cancellation"
  | cancellationConflict => "The booking is no longer confirmed"
  | cannotBeCompleted => "Only a confirmed booking can be marked as completed"
  | operation op _ => "Unable to " ++ op ++ " booking"

end BookingError

/-- `BookingService.handleError`. -/
def handleError (operation : String) : Thrown BookingError → BookingError
  | .http e => e
  | .prisma e => .operation operation e

/-! ## `createBooking` -/

/-- The Prisma calls of one attempt to create a booking, in order, and the commit. -/
inductive Statement
  | findMembership
  | findSlot
  | findResource
  | findAllowedMembership
  | aggregateBalance
  | createBooking
  | createEntry
  | commit
  deriving DecidableEq, Repr

/-- Which calls raise. -/
abbrev Faults := Statement → Option PrismaError

/-- A database that answers everything. -/
abbrev Faults.none : Faults := fun _ => Option.none

/-- The answer of a call, unless it raises. -/
def query {α : Type*} (faults : Faults) (statement : Statement) (answer : α) :
    Except PrismaError α :=
  match faults statement with
  | some e => .error e
  | none => .ok answer

@[simp] theorem query_none {α : Type*} (statement : Statement) (answer : α) :
    query Faults.none statement answer = .ok answer := rfl

/-- The user of a request, as the token names it. -/
structure AuthenticatedUser where
  userId : Uuid
  organizationId : Option Uuid
  deriving DecidableEq, Repr

structure BookingAuthorizationContext where
  userId : Uuid
  organizationId : Uuid
  rootOrganizationId : Uuid
  role : MembershipRole
  deriving DecidableEq, Repr

/-- `BookingAuthorizationService.resolve`. -/
def resolve (faults : Faults) (d : Directory) (user : AuthenticatedUser) :
    Except (Thrown BookingError) BookingAuthorizationContext := do
  match user.organizationId with
  | none => throw (.http (.unauthorized "An active organization is required"))
  | some organizationId =>
    let membership ← (query faults .findMembership (d.memberships.find? fun m =>
      decide (m.userId = user.userId ∧ m.organizationId = organizationId ∧ m.status = .approved)
        && (d.user? m.userId).any (·.status = .active)
        && (d.organization? m.organizationId).any (·.status = .active))).mapError .prisma
    match membership.bind fun m => (d.organization? m.organizationId).map (m, ·) with
    | none => throw (.http (.unauthorized "An active approved membership is required"))
    | some (m, o) => pure ⟨user.userId, m.organizationId, o.rootOrganizationId, m.role⟩

/-- A slot with its resource and its bookings that are not cancelled. -/
structure SlotRecord where
  slot : ResourceSlot
  resource : Resource
  bookings : List Uuid
  deriving DecidableEq, Repr

/-- `SlotRepository.findById`. -/
def findById (db : Database) (slotId rootOrganizationId : Uuid) : Option SlotRecord :=
  (db.slots.find? fun s => decide (s.id = slotId ∧ s.status = .published)
      && (db.directory.resource? s.resourceId).any (·.rootOrganizationId = rootOrganizationId)).bind
    fun slot => (db.directory.resource? slot.resourceId).map fun resource =>
      ⟨slot, resource, ((db.bookingsOf slot.id).filter (·.status ≠ .cancelled)).map (·.id)⟩

/-- `SlotRepository.canAccessResource`. -/
def canAccessResource (faults : Faults) (d : Directory) (resourceId userId rootOrganizationId : Uuid) :
    Except (Thrown BookingError) Bool := do
  let resource ← (query faults .findResource (d.resources.find? fun r =>
    decide (r.id = resourceId ∧ r.rootOrganizationId = rootOrganizationId
      ∧ r.status = .active))).mapError .prisma
  match resource with
  | none => pure false
  | some resource =>
    let membership ← (query faults .findAllowedMembership (d.memberships.find? fun m =>
      decide (m.userId = userId ∧ m.status = .approved
          ∧ m.organizationId ∈ resource.ownerOrganizationId :: resource.allowedOrganizations)
        && (d.organization? m.organizationId).any
          (·.rootOrganizationId = rootOrganizationId))).mapError .prisma
    pure membership.isSome

structure ValidatedBookingContext where
  userId : Uuid
  rootOrganizationId : Uuid
  resourceId : Uuid
  resourceSlotId : Uuid
  resourceName : String
  pointCost : ℤ
  cancellationNoticeMinutes : ℤ
  startsAt : Timestamp
  endsAt : Timestamp
  deriving DecidableEq, Repr

/-- The body of `validateBooking`'s `try`. -/
def validate (faults : Faults) (db : Database) (now : Timestamp) (resourceSlotId : Uuid)
    (user : AuthenticatedUser) : Except (Thrown BookingError) ValidatedBookingContext := do
  let context ← resolve faults db.directory user
  let slot ← (query faults .findSlot
    (findById db resourceSlotId context.rootOrganizationId)).mapError .prisma
  match slot with
  | none => throw (.http .slotNotFound)
  | some ⟨slot, resource, bookings⟩ =>
    if resource.status ≠ .active then throw (.http .resourceInactive)
    else
      let canAccess ← canAccessResource faults db.directory slot.resourceId context.userId
        context.rootOrganizationId
      if ¬ canAccess then throw (.http .resourceAccessDenied)
      else if slot.startsAt ≤ now then throw (.http .slotStarted)
      else if bookings ≠ [] then throw (.http .slotUnavailable)
      else if resource.pointCost < 0 then throw (.http .pointCostInvalid)
      else
        let _ ← (PointLedgerService.assertSufficientBalance
          (query faults .aggregateBalance
            (db.ledger.getBalance context.userId context.rootOrganizationId))
          resource.pointCost).mapError fun e => .http (.points e)
        pure
          { userId := context.userId
            rootOrganizationId := context.rootOrganizationId
            resourceId := slot.resourceId
            resourceSlotId := slot.id
            resourceName := resource.name
            pointCost := resource.pointCost
            cancellationNoticeMinutes := resource.cancellationNoticeMinutes
            startsAt := slot.startsAt
            endsAt := slot.endsAt }

/-- **`validateBooking`.** -/
def validateBooking (faults : Faults) (db : Database) (now : Timestamp) (resourceSlotId : Uuid)
    (user : AuthenticatedUser) : Except BookingError ValidatedBookingContext :=
  (validate faults db now resourceSlotId user).mapError (handleError "validate")

/-- What a step takes from outside the database: the clock, and the defaults of inserted rows. -/
structure Reading where
  now : Timestamp := 0
  id : Uuid := 0
  entryId : Uuid := 0
  createdAt : Timestamp := 0
  deriving DecidableEq, Repr

/-- The transaction `createWithinTransaction` runs: what it validated, the bookings of the slot in
its snapshot, and the two rows it inserts. -/
structure Creation where
  context : ValidatedBookingContext
  read : List Uuid
  booking : Booking
  entry : PointTransaction
  deriving DecidableEq, Repr

/-- The rows of a validated booking. -/
def Creation.of (db : Database) (x : Reading) (context : ValidatedBookingContext) : Creation where
  context := context
  read := (db.bookingsOf context.resourceSlotId).map (·.id)
  booking :=
    { id := x.id
      resourceSlotId := context.resourceSlotId
      userId := context.userId
      rootOrganizationId := context.rootOrganizationId
      createdAt := x.createdAt
      cancellationNoticeMinutes := context.cancellationNoticeMinutes }
  entry :=
    { id := x.entryId
      userId := context.userId
      rootOrganizationId := some context.rootOrganizationId
      amount := -context.pointCost
      transactionType := .booking
      bookingId := some x.id
      description := some ("Booking for " ++ context.resourceName)
      createdAt := x.createdAt }

/-- Its write statements. -/
def Creation.writes (c : Creation) : List Write :=
  .createBooking c.booking c.read :: if 0 < c.context.pointCost then [.append c.entry] else []

/-- **`createWithinTransaction`**: an error of the booking's insert is thrown as it is, one of the
ledger's insert by way of the point service. -/
def createWithinTransaction (faults : Faults) (db : Database) (x : Reading) (resourceSlotId : Uuid)
    (user : AuthenticatedUser) : Except (Thrown BookingError) Creation := do
  let context ← (validateBooking faults db x.now resourceSlotId user).mapError .http
  let _ ← (query faults .createBooking ()).mapError .prisma
  if 0 < context.pointCost then
    let _ ← (PointLedgerService.appendBookingDeduction (query faults .createEntry ())
      (-context.pointCost)).mapError fun e => .http (.points e)
    pure (.of db x context)
  else
    pure (.of db x context)

/-- `MAX_SERIALIZATION_ATTEMPTS`. -/
def maxSerializationAttempts : ℕ := 3

/-- The `catch` of `createBooking`'s loop, and the handler around the loop: another attempt, or the
error the call answers. -/
def afterFailedAttempt (attempt : ℕ) : Thrown BookingError → Option BookingError
  | .prisma .uniqueConstraint => some .concurrentConflict
  | .prisma .transactionConflict =>
    if attempt = maxSerializationAttempts then some .transactionConflict else none
  | e => some (handleError "create" e)

/-! ## Cancellations -/

/-- A booking with its slot and resource, as `organizationBookingInclude` reads them. -/
structure BookingRecord where
  booking : Booking
  slot : ResourceSlot
  resource : Resource
  deriving DecidableEq, Repr

/-- The slot and resource of a booking. -/
def record? (db : Database) (booking : Booking) : Option BookingRecord :=
  (db.slot? booking.resourceSlotId).bind fun slot =>
    (db.directory.resource? slot.resourceId).map fun resource => ⟨booking, slot, resource⟩

/-- `booking.findUnique` with the include. -/
def findUnique (db : Database) (bookingId : Uuid) : Option BookingRecord :=
  (db.booking? bookingId).bind (record? db)

structure CancelBookingDto where
  reason : Option String := none
  makeSlotAvailable : Option Bool := none
  deriving DecidableEq, Repr

/-- Who cancels a booking, and so on which terms. -/
inductive Canceller
  | user
  | administrator (makeSlotAvailable : Bool)
  | reevaluation
  deriving DecidableEq, Repr

/-- `Math.ceil(points / 2)`. -/
def ceilHalf (points : ℤ) : ℤ := (points + 1) / 2

theorem ceilHalf_eq (points : ℤ) : ceilHalf points = ⌈(points : ℚ) / 2⌉ := by
  rw [show (2 : ℚ) = ((2 : ℕ) : ℚ) by norm_num, Rat.ceil_intCast_div_natCast, ceilHalf]
  push_cast
  omega

/-- The share of the deduction that is refunded. -/
def Canceller.refund : Canceller → ℤ → ℤ
  | user, deducted => ceilHalf deducted
  | administrator _, deducted | reevaluation, deducted => deducted

/-- The status the slot is left in. -/
def Canceller.slotStatus : Canceller → SlotStatus
  | user | administrator true => .published
  | administrator false | reevaluation => .withdrawn

/-- The status the booking's update requires: `reevaluateBookings` updates by id alone. -/
def Canceller.guard : Canceller → Option BookingStatus
  | user | administrator _ => some .confirmed
  | reevaluation => none

/-- A cancellation about to be written: the booking as it was read, and what the update sets. -/
structure Cancellation where
  booking : Booking
  canceller : Canceller
  now : Timestamp
  cancelledByUserId : Option Uuid
  reason : Option String
  resourceName : String
  deriving DecidableEq, Repr

namespace Cancellation

/-- The `data` of the booking's update. -/
def data (c : Cancellation) : BookingData where
  status := .cancelled
  cancelledAt := some c.now
  cancelledByUserId := c.cancelledByUserId
  cancellationReason := some c.reason

/-- The description of the refund. -/
def description (c : Cancellation) : String :=
  match c.canceller with
  | .user => "50% refund for cancelled booking for " ++ c.resourceName
  | .administrator _ => "Full refund for administrator-cancelled booking for " ++ c.resourceName
  | .reevaluation => "Refund due to administrative revocation/removal for " ++ c.resourceName

/-- `deductedPoints`: what the booking's deduction took, `0` where there is none. -/
def deductedPoints (c : Cancellation) (L : Ledger) : ℤ :=
  |((L.transactions.find? fun e => e.forBooking .booking c.booking.id
      && decide (e.userId = c.booking.userId)).map (·.amount)).getD 0|

/-- The refund's entry. -/
def entry (c : Cancellation) (refund : ℤ) (x : Reading) : PointTransaction where
  id := x.entryId
  userId := c.booking.userId
  rootOrganizationId := some c.booking.rootOrganizationId
  amount := refund
  transactionType := .bookingRefund
  bookingId := some c.booking.id
  description := some c.description
  createdAt := x.createdAt

/-- **The write statements of a cancellation**: the booking, its slot, and a refund if there is
something to refund. -/
def writes (c : Cancellation) (refund : ℤ) (x : Reading) : List Write :=
  [.updateBooking c.booking.id c.canceller.guard c.data,
    .updateSlot c.booking.resourceSlotId c.canceller.slotStatus
      (if c.canceller.slotStatus = .withdrawn then some c.now else none)]
    ++ if 0 < refund then [.append (c.entry refund x)] else []

end Cancellation

/-- `input.reason?.trim() || null`. -/
def CancelBookingDto.trimmedReason (input : CancelBookingDto) : Option String :=
  (input.reason.map trim).filter (· ≠ "")

/-- `assertOrganizationAdministrator`, as a test. -/
def isOrganizationAdministrator (d : Directory) (userId organizationId : Uuid) : Bool :=
  d.memberships.any fun m => m.userId = userId ∧ m.organizationId = organizationId
    ∧ m.role = .admin ∧ m.status = .approved

/-- `cancelBooking` up to its choice of a branch: the user's cancellation, or the booking that an
administrator is to be checked for. -/
def cancelBooking (db : Database) (bookingId actorUserId : Uuid) (input : CancelBookingDto)
    (now : Timestamp) : Except BookingError (Cancellation ⊕ BookingRecord) :=
  match findUnique db bookingId with
  | none => .error .notFound
  | some record =>
    if record.booking.status ≠ .confirmed then .error .cannotBeCancelled
    else if record.booking.userId = actorUserId ∧ input.makeSlotAvailable = none then
      if record.slot.startsAt - record.booking.cancellationNoticeMinutes * 60000 ≤ now then
        .error .cancellationStarted
      else
        .ok (.inl
          { booking := record.booking
            canceller := .user
            now := now
            cancelledByUserId := some actorUserId
            reason := input.trimmedReason
            resourceName := record.resource.name })
    else .ok (.inr record)

/-- The administrator branch of `cancelBooking`. -/
def cancelBookingAsAdministrator (d : Directory) (record : BookingRecord) (actorUserId : Uuid)
    (input : CancelBookingDto) (now : Timestamp) : Except BookingError Cancellation :=
  if ¬ isOrganizationAdministrator d actorUserId record.resource.ownerOrganizationId then
    .error .administratorRequired
  else match input.makeSlotAvailable with
    | none => .error .cancellationInput
    | some makeSlotAvailable =>
      .ok
        { booking := record.booking
          canceller := .administrator makeSlotAvailable
          now := now
          cancelledByUserId := some actorUserId
          reason := input.trimmedReason
          resourceName := record.resource.name }

/-- `completeBooking` after its read: whether there is an update to make. -/
def completeBooking (d : Directory) (record : BookingRecord) (administratorUserId : Uuid) :
    Except BookingError Bool :=
  if ¬ isOrganizationAdministrator d administratorUserId record.resource.ownerOrganizationId then
    .error .administratorRequired
  else if record.booking.status = .completed then .ok false
  else if record.booking.status ≠ .confirmed then .error .cannotBeCompleted
  else .ok true

/-- Whom the row policy of `users` shows in the context of a university and of no user: whoever has
a membership, of whatever status, in one of the university's organizations. -/
def Directory.shows (d : Directory) (rootOrganizationId userId : Uuid) : Bool :=
  d.memberships.any fun m => decide (m.userId = userId)
    && (d.organization? m.organizationId).any (·.rootOrganizationId = rootOrganizationId)

/-- The confirmed bookings of a resource whose slot has not begun, as the row policies show them. -/
def futureBookings (db : Database) (rootOrganizationId resourceId : Uuid) (now : Timestamp) :
    List BookingRecord :=
  (db.bookings.rows.filterMap (record? db)).filter fun r => decide (r.booking.status = .confirmed
    ∧ r.booking.rootOrganizationId = rootOrganizationId
    ∧ r.slot.rootOrganizationId = rootOrganizationId
    ∧ r.slot.resourceId = resourceId ∧ now < r.slot.startsAt)

/-- Whether the user of a future booking may still use its resource, by the memberships that the row
policies show. -/
def hasAccess (d : Directory) (rootOrganizationId : Uuid) (record : BookingRecord) : Bool :=
  decide (record.resource.status = .active)
    && d.memberships.any fun m => decide (m.userId = record.booking.userId ∧ m.status = .approved
        ∧ m.organizationId ∈ record.resource.ownerOrganizationId
          :: record.resource.allowedOrganizations)
      && (d.organization? m.organizationId).any (·.rootOrganizationId = rootOrganizationId)

/-- The cancellation of a booking whose user has no access. -/
def revocation (now : Timestamp) (record : BookingRecord) : Cancellation where
  booking := record.booking
  canceller := .reevaluation
  now := now
  cancelledByUserId := none
  reason := some (if record.resource.status ≠ .active then "Resource has been removed"
    else "Organization access to this resource was revoked")
  resourceName := record.resource.name

/-- **The bookings `reevaluateBookings` is going to cancel**: confirmed and in the future when the
list is read, of a user without access.  The list includes each booking's `user`, a required
relation, and so reading it raises if the row policies hide one of the users. -/
def reevaluateBookings (db : Database) (rootOrganizationId resourceId : Uuid) (now : Timestamp) :
    Except PrismaError (List Cancellation) :=
  let records := futureBookings db rootOrganizationId resourceId now
  if records.all fun r => db.directory.shows rootOrganizationId r.booking.userId then
    .ok ((records.filter fun r => !hasAccess db.directory rootOrganizationId r).map
      (revocation now))
  else .error .other

/-! ## What each function's answer says -/

/-- A computation in `Except` that answered. -/
theorem bind_eq_ok {ε α β : Type} {x : Except ε α} {f : α → Except ε β} {b : β} :
    (x >>= f) = .ok b ↔ ∃ a, x = .ok a ∧ f a = .ok b := by
  cases x with
  | error e =>
    constructor
    · intro h
      cases h
    · rintro ⟨_, h, _⟩
      cases h
  | ok a =>
    constructor
    · exact fun h => ⟨a, rfl, h⟩
    · rintro ⟨_, h, hf⟩
      cases h
      exact hf

theorem mapError_eq_ok {ε ε' α : Type*} {x : Except ε α} {f : ε → ε'} {a : α} :
    x.mapError f = .ok a ↔ x = .ok a := by
  cases x <;> simp [Except.mapError]

theorem query_eq_ok {α : Type*} {faults : Faults} {statement : Statement} {answer a : α}
    (h : query faults statement answer = .ok a) : answer = a := by
  unfold query at h
  split at h
  · cases h
  · exact Except.ok.inj h

theorem findById_eq_some {db : Database} {slotId rootOrganizationId : Uuid} {r : SlotRecord}
    (h : findById db slotId rootOrganizationId = some r) :
    r.slot ∈ db.slots ∧ r.slot.id = slotId ∧ r.slot.status = .published
      ∧ db.directory.resource? r.slot.resourceId = some r.resource
      ∧ r.bookings = ((db.bookingsOf slotId).filter (·.status ≠ .cancelled)).map (·.id) := by
  obtain ⟨slot, hslot, h⟩ := Option.bind_eq_some_iff.mp h
  obtain ⟨resource, hresource, rfl⟩ := Option.map_eq_some_iff.mp h
  have hpred := Table.pred_of_find? hslot
  simp only [Bool.and_eq_true, decide_eq_true_eq] at hpred
  obtain ⟨⟨rfl, hstatus⟩, -⟩ := hpred
  exact ⟨Table.mem_of_find? hslot, rfl, hstatus, hresource, rfl⟩

/-- **Whom `canAccessResource` lets use a resource.** -/
theorem access_of_canAccessResource {faults : Faults} {d : Directory}
    {resourceId userId rootOrganizationId : Uuid}
    (h : canAccessResource faults d resourceId userId rootOrganizationId = .ok true) :
    ∃ r ∈ d.resources, r.id = resourceId ∧ r.status = .active ∧ ∃ m ∈ d.memberships,
      m.userId = userId ∧ m.status = .approved
        ∧ m.organizationId ∈ r.ownerOrganizationId :: r.allowedOrganizations := by
  rw [canAccessResource, bind_eq_ok] at h
  obtain ⟨resource, hresource, h⟩ := h
  have hfind := query_eq_ok (mapError_eq_ok.mp hresource)
  cases resource with
  | none => cases h
  | some r =>
    obtain ⟨membership, hmembership, h⟩ := bind_eq_ok.mp h
    have hfind' := query_eq_ok (mapError_eq_ok.mp hmembership)
    obtain ⟨m, rfl⟩ := Option.isSome_iff_exists.mp (Except.ok.inj h)
    have hr := List.find?_some hfind
    have hm := List.find?_some hfind'
    simp only [Bool.and_eq_true, decide_eq_true_eq] at hr hm
    exact ⟨r, List.mem_of_find?_eq_some hfind, hr.1, hr.2.2, m,
      List.mem_of_find?_eq_some hfind', hm.1.1, hm.1.2.1, hm.1.2.2⟩

/-- **What `validateBooking` has read** when it lets a booking through: a published slot, all of
whose bookings are cancelled, a resource the user can access, and its cost, which is not negative. -/
structure Validated (db : Database) (resourceSlotId : Uuid) (context : ValidatedBookingContext) :
    Prop where
  slotId : context.resourceSlotId = resourceSlotId
  access : ∃ faults, ∃ slot ∈ db.slots, slot.id = resourceSlotId
    ∧ canAccessResource faults db.directory slot.resourceId context.userId
        context.rootOrganizationId = .ok true
  published : ∃ slot ∈ db.slots, slot.id = resourceSlotId ∧ slot.status = .published
    ∧ ∃ resource, db.directory.resource? slot.resourceId = some resource
      ∧ context.pointCost = resource.pointCost
  free : ∀ b ∈ db.bookings, b.resourceSlotId = resourceSlotId → b.status = .cancelled
  pointCost_nonneg : 0 ≤ context.pointCost

theorem validated_of_validateBooking {faults : Faults} {db : Database} {now : Timestamp}
    {resourceSlotId : Uuid} {user : AuthenticatedUser} {context : ValidatedBookingContext}
    (h : validateBooking faults db now resourceSlotId user = .ok context) :
    Validated db resourceSlotId context := by
  rw [validateBooking, mapError_eq_ok, validate, bind_eq_ok] at h
  obtain ⟨authorization, -, h⟩ := h
  obtain ⟨slot, hslot, h⟩ := bind_eq_ok.mp h
  have hfind := query_eq_ok (mapError_eq_ok.mp hslot)
  cases slot with
  | none => cases h
  | some r =>
    obtain ⟨slot, resource, bookings⟩ := r
    obtain ⟨hmem, hid, hpub, hres, hbookings⟩ := findById_eq_some hfind
    dsimp only at h hmem hid hpub hres hbookings
    split at h
    · cases h
    obtain ⟨canAccess, hcan, h⟩ := bind_eq_ok.mp h
    split at h
    · cases h
    next hallowed =>
    obtain rfl : canAccess = true := not_not.mp hallowed
    split at h
    · cases h
    split at h
    · cases h
    next hempty =>
    split at h
    · cases h
    next hcost =>
    obtain ⟨_, -, h⟩ := bind_eq_ok.mp h
    obtain rfl := Except.ok.inj h
    refine ⟨hid, ⟨faults, slot, hmem, hid, hcan⟩, ⟨slot, hmem, hid, hpub, resource, hres, rfl⟩,
      fun b hb hslot => ?_, not_lt.mp hcost⟩
    by_contra hne
    have : b ∈ (db.bookingsOf resourceSlotId).filter (·.status ≠ .cancelled) :=
      List.mem_filter.mpr ⟨List.mem_filter.mpr ⟨hb, by simpa using hslot⟩, by simpa using hne⟩
    rw [not_not.mp hempty] at hbookings
    rw [List.map_eq_nil_iff.mp hbookings.symm] at this
    cases this

theorem resolve_eq_ok {faults : Faults} {d : Directory} {user : AuthenticatedUser}
    {context : BookingAuthorizationContext} (h : resolve faults d user = .ok context) :
    context.userId = user.userId ∧ ∃ o, user.organizationId.bind d.organization? = some o
      ∧ context.rootOrganizationId = o.rootOrganizationId := by
  unfold resolve at h
  split at h
  · cases h
  · next organizationId horganization =>
    obtain ⟨membership, hmembership, h⟩ := bind_eq_ok.mp h
    have hfind := query_eq_ok (mapError_eq_ok.mp hmembership)
    split at h
    · cases h
    · next m o hmo =>
      obtain ⟨m', rfl, hm'⟩ := Option.bind_eq_some_iff.mp hmo
      obtain ⟨o', ho', heq⟩ := Option.map_eq_some_iff.mp hm'
      obtain ⟨rfl, rfl⟩ := Prod.mk.inj heq
      obtain rfl := Except.ok.inj h
      have hpred := List.find?_some hfind
      simp only [Bool.and_eq_true, decide_eq_true_eq] at hpred
      refine ⟨rfl, o', ?_, rfl⟩
      rw [horganization, Option.bind_some, ← hpred.1.1.2.1, ho']

/-- A transaction that comes to its end writes what `validateBooking` has let through. -/
theorem creation_eq_ok {faults : Faults} {db : Database} {x : Reading} {resourceSlotId : Uuid}
    {user : AuthenticatedUser} {c : Creation}
    (h : createWithinTransaction faults db x resourceSlotId user = .ok c) :
    ∃ context, validateBooking faults db x.now resourceSlotId user = .ok context
      ∧ c = .of db x context := by
  rw [createWithinTransaction, bind_eq_ok] at h
  obtain ⟨context, hctx, h⟩ := h
  obtain ⟨_, -, h⟩ := bind_eq_ok.mp h
  refine ⟨context, mapError_eq_ok.mp hctx, ?_⟩
  split at h
  · obtain ⟨_, -, h⟩ := bind_eq_ok.mp h
    exact (Except.ok.inj h).symm
  · exact (Except.ok.inj h).symm

/-- It has validated what it is going to write… -/
theorem creation_of_ok {faults : Faults} {db : Database} {x : Reading} {resourceSlotId : Uuid}
    {user : AuthenticatedUser} {c : Creation}
    (h : createWithinTransaction faults db x resourceSlotId user = .ok c) :
    ∃ context, Validated db resourceSlotId context ∧ c = .of db x context := by
  obtain ⟨context, hcontext, rfl⟩ := creation_eq_ok h
  exact ⟨context, validated_of_validateBooking hcontext, rfl⟩

/-- …for the user of the request, in the university of the user's organization. -/
theorem user_of_creation {faults : Faults} {db : Database} {x : Reading} {resourceSlotId : Uuid}
    {user : AuthenticatedUser} {c : Creation}
    (h : createWithinTransaction faults db x resourceSlotId user = .ok c) :
    c.booking.userId = user.userId
      ∧ ∃ o, user.organizationId.bind db.directory.organization? = some o
        ∧ c.booking.rootOrganizationId = o.rootOrganizationId := by
  obtain ⟨context, hcontext, rfl⟩ := creation_eq_ok h
  rw [validateBooking, mapError_eq_ok, validate, bind_eq_ok] at hcontext
  obtain ⟨authorization, hresolve, hrest⟩ := hcontext
  have hsame : context.userId = authorization.userId
      ∧ context.rootOrganizationId = authorization.rootOrganizationId := by
    obtain ⟨slot, -, h⟩ := bind_eq_ok.mp hrest
    split at h
    · cases h
    split at h
    · cases h
    obtain ⟨_, -, h⟩ := bind_eq_ok.mp h
    split at h
    · cases h
    split at h
    · cases h
    split at h
    · cases h
    split at h
    · cases h
    obtain ⟨_, -, h⟩ := bind_eq_ok.mp h
    obtain rfl := Except.ok.inj h
    exact ⟨rfl, rfl⟩
  obtain ⟨huser, o, ho, hroot⟩ := resolve_eq_ok hresolve
  exact ⟨hsame.1.trans huser, o, ho, hsame.2.trans hroot⟩

theorem record?_eq_some {db : Database} {b : Booking} {r : BookingRecord}
    (h : record? db b = some r) : r.booking = b := by
  obtain ⟨slot, -, h⟩ := Option.bind_eq_some_iff.mp h
  obtain ⟨resource, -, rfl⟩ := Option.map_eq_some_iff.mp h
  rfl

theorem findUnique_eq_some {db : Database} {bookingId : Uuid} {r : BookingRecord}
    (h : findUnique db bookingId = some r) : r.booking ∈ db.bookings ∧ r.booking.id = bookingId := by
  obtain ⟨b, hb, h⟩ := Option.bind_eq_some_iff.mp h
  rw [record?_eq_some h]
  exact mem_of_booking? hb

/-- The user's branch of `cancelBooking`: a confirmed booking, read now. -/
theorem cancelBooking_eq_inl {db : Database} {bookingId actorUserId : Uuid}
    {input : CancelBookingDto} {now : Timestamp} {c : Cancellation}
    (h : cancelBooking db bookingId actorUserId input now = .ok (.inl c)) :
    c.booking ∈ db.bookings ∧ c.booking.id = bookingId ∧ c.booking.status = .confirmed
      ∧ c.canceller = .user := by
  unfold cancelBooking at h
  split at h
  · cases h
  · next record hrecord =>
    obtain ⟨hmem, hid⟩ := findUnique_eq_some hrecord
    split at h
    · cases h
    next hstatus =>
    split at h
    · split at h
      · cases h
      · obtain rfl := Sum.inl.inj (Except.ok.inj h)
        exact ⟨hmem, hid, not_not.mp hstatus, rfl⟩
    · cases h

/-- …and the other one, still to be authorized. -/
theorem cancelBooking_eq_inr {db : Database} {bookingId actorUserId : Uuid}
    {input : CancelBookingDto} {now : Timestamp} {record : BookingRecord}
    (h : cancelBooking db bookingId actorUserId input now = .ok (.inr record)) :
    record.booking ∈ db.bookings ∧ record.booking.id = bookingId
      ∧ record.booking.status = .confirmed := by
  unfold cancelBooking at h
  split at h
  · cases h
  · next record' hrecord =>
    obtain ⟨hmem, hid⟩ := findUnique_eq_some hrecord
    split at h
    · cases h
    next hstatus =>
    split at h
    · split at h <;> cases h
    · obtain rfl := Sum.inr.inj (Except.ok.inj h)
      exact ⟨hmem, hid, not_not.mp hstatus⟩

theorem cancelBookingAsAdministrator_eq_ok {d : Directory} {record : BookingRecord}
    {actorUserId : Uuid} {input : CancelBookingDto} {now : Timestamp} {c : Cancellation}
    (h : cancelBookingAsAdministrator d record actorUserId input now = .ok c) :
    c.booking = record.booking ∧ ∃ makeSlotAvailable,
      c.canceller = .administrator makeSlotAvailable := by
  unfold cancelBookingAsAdministrator at h
  split at h
  · cases h
  · split at h
    · cases h
    · obtain rfl := Except.ok.inj h
      exact ⟨rfl, _, rfl⟩

theorem completeBooking_eq_true {d : Directory} {record : BookingRecord}
    {administratorUserId : Uuid} (h : completeBooking d record administratorUserId = .ok true) :
    record.booking.status = .confirmed := by
  unfold completeBooking at h
  split at h
  · cases h
  · split at h
    · cases h
    · split at h
      · cases h
      · next hstatus => exact not_not.mp hstatus

theorem completeBooking_eq_false {d : Directory} {record : BookingRecord}
    {administratorUserId : Uuid} (h : completeBooking d record administratorUserId = .ok false) :
    record.booking.status = .completed := by
  unfold completeBooking at h
  split at h
  · cases h
  · split at h
    · next hstatus => exact hstatus
    · split at h <;> cases h

theorem mem_futureBookings {db : Database} {rootOrganizationId resourceId : Uuid} {now : Timestamp}
    {r : BookingRecord} : r ∈ futureBookings db rootOrganizationId resourceId now ↔
      record? db r.booking = some r ∧ r.booking ∈ db.bookings ∧ r.booking.status = .confirmed
        ∧ r.booking.rootOrganizationId = rootOrganizationId
        ∧ r.slot.rootOrganizationId = rootOrganizationId
        ∧ r.slot.resourceId = resourceId ∧ now < r.slot.startsAt := by
  simp only [futureBookings, List.mem_filter, List.mem_filterMap, decide_eq_true_eq]
  constructor
  · rintro ⟨⟨b, hb, hr⟩, hcond⟩
    obtain rfl := record?_eq_some hr
    exact ⟨hr, hb, hcond⟩
  · rintro ⟨hr, hb, hcond⟩
    exact ⟨⟨r.booking, hb, hr⟩, hcond⟩

/-- **What a list of cancellations says**, and that no list came with a hidden user. -/
theorem reevaluateBookings_eq_ok {db : Database} {rootOrganizationId resourceId : Uuid}
    {now : Timestamp} {work : List Cancellation} :
    reevaluateBookings db rootOrganizationId resourceId now = .ok work ↔
      (∀ r ∈ futureBookings db rootOrganizationId resourceId now,
        db.directory.shows rootOrganizationId r.booking.userId = true)
      ∧ ((futureBookings db rootOrganizationId resourceId now).filter
          fun r => !hasAccess db.directory rootOrganizationId r).map (revocation now) = work := by
  unfold reevaluateBookings
  dsimp only
  split
  · next hall =>
    rw [Except.ok.injEq]
    exact (and_iff_right (List.all_eq_true.mp hall)).symm
  · next hall =>
    refine ⟨nofun, fun h => absurd (List.all_eq_true.mpr h.1) hall⟩

theorem mem_reevaluateBookings {db : Database} {rootOrganizationId resourceId : Uuid}
    {now : Timestamp} {work : List Cancellation}
    (h : reevaluateBookings db rootOrganizationId resourceId now = .ok work) {c : Cancellation}
    (hc : c ∈ work) :
    c.booking ∈ db.bookings ∧ c.booking.status = .confirmed ∧ c.canceller = .reevaluation := by
  obtain ⟨-, rfl⟩ := reevaluateBookings_eq_ok.mp h
  obtain ⟨r, hr, rfl⟩ := List.mem_map.mp hc
  obtain ⟨-, hmem, hstatus, -⟩ := mem_futureBookings.mp (List.mem_of_mem_filter hr)
  exact ⟨hmem, hstatus, rfl⟩

end ResourceHive.Bookings
