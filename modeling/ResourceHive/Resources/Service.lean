import ResourceHive.Bookings.System

/-!
# Resources/Service — editing a resource, and the disputes that take it out of use

`ResourcesService.update` and `remove`, and `DisputeService.transition` with its repository, as
programs over the tables of the booking service and `booking_disputes`.  A resource has one
`unavailableDisputeId`, the dispute that took it out of use last; `transition` writes it, and
`ResourcesService` neither reads nor writes it.
-/

namespace ResourceHive.Resources

open Bookings (Resource ResourceStatus Directory)

/-! ## `booking_disputes` -/

inductive DisputeStatus
  | opened
  | underReview
  | resolved
  | rejected
  deriving DecidableEq, Repr

namespace DisputeStatus

/-- `ALLOWED_TRANSITIONS`. -/
def allowedTransitions : DisputeStatus → List DisputeStatus
  | opened => [underReview, resolved, rejected]
  | underReview => [resolved, rejected]
  | resolved | rejected => []

/-- `TERMINAL_STATUSES`. -/
def terminal (s : DisputeStatus) : Bool := s ∈ [resolved, rejected]

end DisputeStatus

/-- A row of `booking_disputes`. -/
structure BookingDispute where
  id : Uuid
  bookingId : Uuid
  submittedByUserId : Uuid
  status : DisputeStatus := .opened
  resolutionNotes : Option String := none
  reviewedByUserId : Option Uuid := none
  resolvedAt : Option Timestamp := none
  deriving DecidableEq, Repr

namespace BookingDispute

/-- `booking_disputes_resolution_check`. -/
def Checks (d : BookingDispute) : Prop :=
  (d.status.terminal ∧ d.resolvedAt.isSome ∧ d.reviewedByUserId.isSome)
    ∨ (¬ d.status.terminal ∧ d.resolvedAt.isNone)

instance : DecidablePred Checks := fun _ => inferInstanceAs (Decidable (_ ∨ _))

/-- The primary key, one dispute for a booking, and the CHECK. -/
def Constraints (rows : List BookingDispute) : Prop :=
  Table.Unique id rows ∧ Table.Unique bookingId rows ∧ Table.Check Checks rows

instance : DecidablePred Constraints := fun _ => inferInstanceAs (Decidable (_ ∧ _ ∧ _))

end BookingDispute

/-! ## The database -/

structure Database where
  tables : Bookings.Database
  disputes : Table BookingDispute BookingDispute.Constraints

namespace Database

def resources (db : Database) : List Resource := db.tables.directory.resources

/-- The database with other rows of `resources`. -/
def withResources (db : Database) (resources : List Resource) : Database :=
  { db with tables := { db.tables with directory := { db.tables.directory with resources } } }

@[simp] theorem resources_withResources (db : Database) (resources : List Resource) :
    (db.withResources resources).resources = resources := rfl

end Database

/-! ## `DisputeRepository.findById` -/

/-- The user of a request, as the token names it. -/
structure AuthenticatedUser where
  userId : Uuid
  rootOrganizationId : Option Uuid
  deriving DecidableEq, Repr

/-- A dispute with the resource of its booking. -/
structure DisputeRecord where
  dispute : BookingDispute
  resource : Resource
  deriving DecidableEq, Repr

/-- A dispute of the user's university, which by its foreign key is its booking's; the row policies
show no others. -/
def dispute? (db : Database) (user : AuthenticatedUser) (id : Uuid) : Option DisputeRecord :=
  (db.disputes.find? (·.id = id)).bind fun dispute =>
    ((Bookings.findUnique db.tables dispute.bookingId).filter fun record =>
        decide (user.rootOrganizationId = some record.booking.rootOrganizationId)).map
      fun record => ⟨dispute, record.resource⟩

/-- **The submitter is shown**: the row policy of `users` shows a request its own user, and whoever
has a membership in its university. -/
def showsSubmitter (d : Directory) (user : AuthenticatedUser) (dispute : BookingDispute) : Bool :=
  decide (dispute.submittedByUserId = user.userId)
    || user.rootOrganizationId.any (d.shows · dispute.submittedByUserId)

/-- **`DisputeRepository.findById`.**  `withBookingContext` includes the submitter, a required
relation, and so reading the dispute raises if the row policies hide them. -/
def findById (db : Database) (user : AuthenticatedUser) (id : Uuid) :
    Except PrismaError (Option DisputeRecord) :=
  match dispute? db user id with
  | none => .ok none
  | some record =>
    if showsSubmitter db.tables.directory user record.dispute then .ok (some record)
    else .error .other

/-! ## Statements -/

/-- `resources_status_check`. -/
def resourceStatus? : String → Option ResourceStatus
  | "ACTIVE" => some .active
  | "INACTIVE" => some .inactive
  | _ => none

/-- The `data` of an update of a resource; `none` where it does not mention the column.  The status
is whatever string the request has. -/
structure ResourceData where
  name : Option String := none
  pointCost : Option ℤ := none
  cancellationNoticeMinutes : Option ℤ := none
  status : Option String := none
  /-- `deleteMany` and `create`. -/
  allowedOrganizations : Option (List Uuid) := none
  deriving DecidableEq, Repr

namespace ResourceData

/-- The row after the update. -/
def apply (data : ResourceData) (r : Resource) : Resource :=
  { r with
    name := data.name.getD r.name
    pointCost := data.pointCost.getD r.pointCost
    cancellationNoticeMinutes := data.cancellationNoticeMinutes.getD r.cancellationNoticeMinutes
    status := (data.status.bind resourceStatus?).getD r.status
    allowedOrganizations := data.allowedOrganizations.getD r.allowedOrganizations }

/-- The CHECKs of `resources`, and the foreign key of `resource_allowed_organizations`. -/
def admits (data : ResourceData) (d : Directory) (r : Resource) : Bool :=
  data.status.all (fun status => (resourceStatus? status).isSome)
    && data.pointCost.all (fun n => decide (0 ≤ n))
    && data.cancellationNoticeMinutes.all (fun n => decide (0 ≤ n))
    && data.allowedOrganizations.all fun ids => ids.all fun id =>
      (d.organization? id).any (·.rootOrganizationId = r.rootOrganizationId)

@[simp] theorem id_apply (data : ResourceData) (r : Resource) : (data.apply r).id = r.id := rfl

@[simp] theorem unavailableDisputeId_apply (data : ResourceData) (r : Resource) :
    (data.apply r).unavailableDisputeId = r.unavailableDisputeId := rfl

end ResourceData

inductive Write
  /-- `updateMany` of a dispute with its status in the condition, and its count checked. -/
  | updateDispute (id : Uuid) (expectedStatus : DisputeStatus) (status : Option DisputeStatus)
      (resolutionNotes : Option (Option String)) (reviewedByUserId : Uuid)
      (resolvedAt : Option Timestamp)
  | markUnavailable (resourceId disputeId : Uuid)
  /-- `updateMany` of a resource with the dispute in the condition, and its count checked. -/
  | restore (resourceId disputeId : Uuid)
  /-- `findUniqueOrThrow` with the includes of `findById`. -/
  | findUniqueOrThrow (user : AuthenticatedUser) (id : Uuid)
  | updateResource (resourceId : Uuid) (data : ResourceData)
  deriving DecidableEq

/-- The row that a dispute takes out of use, `unavailable_dispute_id` being unique. -/
def withdrawn (disputeId : Uuid) (r : Resource) : Resource :=
  { r with status := .inactive, unavailableDisputeId := some disputeId }

/-- …and the row it restores. -/
def restored (r : Resource) : Resource := { r with status := .active, unavailableDisputeId := none }

/-- The resource is linked to the dispute. -/
def linked (resourceId disputeId : Uuid) (r : Resource) : Bool :=
  decide (r.id = resourceId) && decide (r.unavailableDisputeId = some disputeId)

/-- **One statement**; rejected by a constraint, by a count that is not one, or for want of its
record. -/
def Write.exec : Write → Database → Option Database
  | .updateDispute id expectedStatus status resolutionNotes reviewedByUserId resolvedAt, db =>
    let expected (d : BookingDispute) : Bool :=
      decide (d.id = id) && decide (d.status = expectedStatus)
    if db.disputes.rows.any expected then
      (db.disputes.update expected fun d =>
        { d with
          status := status.getD d.status
          resolutionNotes := resolutionNotes.getD d.resolutionNotes
          reviewedByUserId := some reviewedByUserId
          resolvedAt := resolvedAt.or d.resolvedAt }).map fun disputes => { db with disputes }
    else none
  | .markUnavailable resourceId disputeId, db =>
    if db.resources.any (·.id = resourceId) ∧ db.disputes.rows.any (·.id = disputeId)
        ∧ db.resources.all (fun r => r.id = resourceId ∨ r.unavailableDisputeId ≠ some disputeId) then
      some (db.withResources (db.resources.map fun r =>
        if r.id = resourceId then withdrawn disputeId r else r))
    else none
  | .restore resourceId disputeId, db =>
    if db.resources.any (linked resourceId disputeId) then
      some (db.withResources (db.resources.map fun r =>
        if linked resourceId disputeId r then restored r else r))
    else none
  | .findUniqueOrThrow user id, db =>
    match findById db user id with
    | .ok (some _) => some db
    | .ok none | .error _ => none
  | .updateResource resourceId data, db =>
    if db.resources.any (·.id = resourceId)
        ∧ db.resources.all (fun r => r.id ≠ resourceId ∨ data.admits db.tables.directory r) then
      some (db.withResources (db.resources.map fun r =>
        if r.id = resourceId then data.apply r else r))
    else none

/-! ## `DisputeService.transition` -/

inductive DisputeError
  | notFound
  | forbidden
  | invalidTransition
  | resolutionNotesRequired
  deriving DecidableEq, Repr

namespace DisputeError

/-- The HTTP status of the exception's base class. -/
def status : DisputeError → ℕ
  | notFound => 404
  | forbidden => 403
  | invalidTransition => 409
  | resolutionNotesRequired => 400

def message : DisputeError → String
  | notFound => "Dispute not found"
  | forbidden => "You cannot access this dispute"
  | invalidTransition => "The dispute cannot move to that status from its current status"
  | resolutionNotesRequired => "Resolution notes are required to resolve or reject a dispute"

end DisputeError

inductive ResourceAction
  | none
  | markUnavailable
  | restore
  deriving DecidableEq, Repr

/-- The body of a request.  `@IsOptional()` lets a `null` pass: for the notes it is not the same as no
value, and is `some none`. -/
structure UpdateDisputeDto where
  status : Option DisputeStatus := Option.none
  resolutionNotes : Option (Option String) := Option.none
  resourceAction : Option ResourceAction := Option.none
  deriving DecidableEq, Repr

/-- `assertCanManage`, as a test. -/
def canManage (d : Directory) (resolverOrganizationId : Uuid) (user : AuthenticatedUser) : Bool :=
  user.rootOrganizationId.any fun root => d.memberships.any fun m =>
    decide (m.userId = user.userId ∧ m.organizationId = resolverOrganizationId ∧ m.role = .admin
        ∧ m.status = .approved)
      && (d.user? m.userId).any (·.status = .active)
      && (d.organization? m.organizationId).any fun o =>
        decide (o.rootOrganizationId = root ∧ o.status = .active)

/-- The arguments of `applyTransition`, the university it runs in, and the time it writes; the notes
are `none` where the update does not mention the column. -/
structure Transition where
  disputeId : Uuid
  expectedStatus : DisputeStatus
  resourceId : Uuid
  reviewerUserId : Uuid
  rootOrganizationId : Option Uuid
  status : Option DisputeStatus
  resolutionNotes : Option (Option String)
  resourceAction : ResourceAction
  isTerminal : Bool
  now : Timestamp
  deriving DecidableEq, Repr

/-- **`transition`** between its reads and its writes. -/
def transition (record : DisputeRecord) (dto : UpdateDisputeDto) (user : AuthenticatedUser)
    (now : Timestamp) : Except DisputeError Transition :=
  let nextStatus := dto.status.getD record.dispute.status
  let resolutionNotes := dto.resolutionNotes.join.map trim
  if dto.status.any (· ∉ record.dispute.status.allowedTransitions) then .error .invalidTransition
  else if nextStatus.terminal
      ∧ ((resolutionNotes.or record.dispute.resolutionNotes).map trim).getD "" = "" then
    .error .resolutionNotesRequired
  else
    .ok
      { disputeId := record.dispute.id
        expectedStatus := record.dispute.status
        resourceId := record.resource.id
        reviewerUserId := user.userId
        rootOrganizationId := user.rootOrganizationId
        status := dto.status
        -- a `null` is not trimmed, and stays in what is written
        resolutionNotes := dto.resolutionNotes.map (Option.map trim)
        resourceAction := dto.resourceAction.getD .none
        isTerminal := nextStatus.terminal
        now := now }

/-- `applyResourceAction`. -/
def Transition.applyResourceAction (t : Transition) : List Write :=
  match t.resourceAction with
  | .markUnavailable => [.markUnavailable t.resourceId t.disputeId]
  | .restore => [.restore t.resourceId t.disputeId]
  | .none => []

/-- `applyTransition`. -/
def Transition.writes (t : Transition) : List Write :=
  .updateDispute t.disputeId t.expectedStatus t.status t.resolutionNotes t.reviewerUserId
      (if t.isTerminal ∧ t.status.isSome then some t.now else none)
    :: (t.applyResourceAction
      ++ [.findUniqueOrThrow ⟨t.reviewerUserId, t.rootOrganizationId⟩ t.disputeId])

/-! ## `ResourcesService.update` and `remove` -/

structure UpdateResourceDto where
  name : Option String := none
  pointCost : Option ℤ := none
  cancellationNoticeMinutes : Option ℤ := none
  status : Option String := none
  allowedOrganizationIds : Option (List Uuid) := none
  deriving DecidableEq, Repr

/-- The `data` of `update`: the owner stays among the organizations allowed. -/
def UpdateResourceDto.data (dto : UpdateResourceDto) (organizationId : Uuid) : ResourceData where
  name := dto.name
  pointCost := dto.pointCost
  cancellationNoticeMinutes := dto.cancellationNoticeMinutes
  status := dto.status
  allowedOrganizations := dto.allowedOrganizationIds.map fun ids => (organizationId :: ids).eraseDups

/-- The look-up of both: the resource, if it is the organization's. -/
def ownResource? (db : Database) (organizationId resourceId : Uuid) : Option Resource :=
  (db.tables.directory.resource? resourceId).filter (·.ownerOrganizationId = organizationId)

/-! ## The calls -/

/-- How a call fails. -/
inductive Error
  | dispute (e : DisputeError)
  | resourceNotFound
  deriving DecidableEq, Repr

/-- Where a call is. -/
inductive Point
  | transition (disputeId : Uuid) (dto : UpdateDisputeDto) (user : AuthenticatedUser)
  | transitionManage (record : DisputeRecord) (dto : UpdateDisputeDto) (user : AuthenticatedUser)
  | transitioning (t : Transition)
  | update (organizationId resourceId : Uuid) (dto : UpdateResourceDto)
  | remove (organizationId resourceId : Uuid)
  /-- The update of either, and whether a reevaluation is requested after it. -/
  | updating (resource : Resource) (data : ResourceData) (shouldReevaluate : Bool)
  | returned
  /-- The call threw; `none` where a statement of its transaction did. -/
  | failed (error : Option Error)
  deriving DecidableEq

/-- What the history keeps of a commit. -/
inductive Event
  | marked (resourceId disputeId : Uuid)
  | restored (resourceId disputeId : Uuid)
  /-- `bookings/internal/reevaluate` is called. -/
  | requested (resourceId rootOrganizationId : Uuid)
  deriving DecidableEq, Repr

/-- What others do: accounts and memberships, bookings and their slots, and disputes change. -/
inductive Outside
  | directory (users : List Bookings.User) (organizations : List Bookings.Organization)
      (memberships : List Bookings.OrganizationMembership)
  | bookings (slots : Table Bookings.ResourceSlot Bookings.ResourceSlot.Constraints)
      (bookings : Table Bookings.Booking Bookings.Booking.Constraints) (ledger : Ledger)
  | openDispute (dispute : BookingDispute)

/-- **The reads of each call**, which take the time from outside. -/
def Point.next (db : Database) : Point → Timestamp → Option Point
  | .transition disputeId dto user, _ =>
    some <| match findById db user disputeId with
      | .error _ => .failed none
      | .ok none => .failed (some (.dispute .notFound))
      | .ok (some record) => .transitionManage record dto user
  | .transitionManage record dto user, now =>
    some <|
      if ¬ canManage db.tables.directory record.resource.ownerOrganizationId user then
        .failed (some (.dispute .forbidden))
      else match Resources.transition record dto user now with
        | .error e => .failed (some (.dispute e))
        | .ok t => .transitioning t
  | .update organizationId resourceId dto, _ =>
    some <| match ownResource? db organizationId resourceId with
      | none => .failed (some .resourceNotFound)
      | some resource =>
        .updating resource (dto.data organizationId) dto.allowedOrganizationIds.isSome
  | .remove organizationId resourceId, _ =>
    some <| match ownResource? db organizationId resourceId with
      | none => .failed (some .resourceNotFound)
      | some resource => .updating resource { status := some "INACTIVE" } true
  | .transitioning _, _ | .updating _ _ _, _ | .returned, _ | .failed _, _ => none

/-- What a transition leaves in the history. -/
def Transition.emits (t : Transition) : List Event :=
  match t.resourceAction with
  | .markUnavailable => [.marked t.resourceId t.disputeId]
  | .restore => [.restored t.resourceId t.disputeId]
  | .none => []

/-- The calls of the two services. -/
def code : Code Database Point Write Timestamp Outside Event where
  entry
    | .transition _ _ _ | .update _ _ _ | .remove _ _ => true
    | _ => false
  read := Point.next
  writes
    | .transitioning t => t.writes
    | .updating resource data _ => [.updateResource resource.id data]
    | _ => []
  exec := Write.exec
  committed
    | .transitioning _ | .updating _ _ _ => .returned
    | p => p
  rolledBack
    | .returned => .returned
    | .failed error => .failed error
    | _ => .failed none
  emits
    | .transitioning t => t.emits
    | .updating resource _ shouldReevaluate =>
      if shouldReevaluate then [.requested resource.id resource.rootOrganizationId] else []
    | _ => []
  outside
    | .directory users organizations memberships, db =>
      some { db with tables := { db.tables with directory :=
        { db.tables.directory with users, organizations, memberships } } }
    | .bookings slots bookings ledger, db =>
      some { db with tables := { db.tables with slots, bookings, ledger } }
    | .openDispute dispute, db =>
      (db.disputes.insert dispute).map fun disputes => { db with disputes }

/-! ## What a commit does to the resources -/

variable {db db' : Database}

theorem exec_updateDispute {id : Uuid} {expectedStatus : DisputeStatus}
    {status : Option DisputeStatus} {resolutionNotes : Option (Option String)}
    {reviewedByUserId : Uuid} {resolvedAt : Option Timestamp}
    (h : (Write.updateDispute id expectedStatus status
      resolutionNotes reviewedByUserId resolvedAt).exec db = some db') : db'.tables = db.tables := by
  simp only [Write.exec, Option.ite_none_right_eq_some, Option.map_eq_some_iff] at h
  obtain ⟨-, _, -, rfl⟩ := h
  rfl

theorem dispute?_of_findById {user : AuthenticatedUser} {id : Uuid} {record : DisputeRecord}
    (h : findById db user id = .ok (some record)) :
    dispute? db user id = some record
      ∧ showsSubmitter db.tables.directory user record.dispute = true := by
  rw [findById] at h
  split at h
  · cases h
  · next found hfound =>
    split at h
    · next hshown =>
      obtain rfl := Option.some.inj (Except.ok.inj h)
      exact ⟨hfound, hshown⟩
    · cases h

/-- What `findById` looks up, and its keys. -/
theorem dispute?_eq_some {user : AuthenticatedUser} {id : Uuid} {record : DisputeRecord}
    (h : dispute? db user id = some record) :
    db.disputes.find? (·.id = id) = some record.dispute ∧ ∃ booking slot,
      user.rootOrganizationId = some booking.rootOrganizationId
        ∧ db.tables.booking? record.dispute.bookingId = some booking
        ∧ db.tables.slot? booking.resourceSlotId = some slot
        ∧ db.tables.directory.resource? slot.resourceId = some record.resource := by
  obtain ⟨dispute, hdispute, h⟩ := Option.bind_eq_some_iff.mp h
  obtain ⟨r, hr, rfl⟩ := Option.map_eq_some_iff.mp h
  obtain ⟨hr, hroot⟩ := Option.filter_eq_some_iff.mp hr
  obtain ⟨booking, hbooking, hr⟩ := Option.bind_eq_some_iff.mp hr
  obtain ⟨slot, hslot, hr⟩ := Option.bind_eq_some_iff.mp hr
  obtain ⟨resource, hresource, rfl⟩ := Option.map_eq_some_iff.mp hr
  exact ⟨hdispute, booking, slot, of_decide_eq_true hroot, hbooking, hslot, hresource⟩

/-- A dispute that was found is there. -/
theorem mem_of_dispute? {user : AuthenticatedUser} {id : Uuid} {record : DisputeRecord}
    (h : dispute? db user id = some record) :
    record.dispute ∈ db.disputes ∧ record.dispute.id = id := by
  obtain ⟨hfind, -⟩ := dispute?_eq_some h
  exact ⟨Table.mem_of_find? hfind, by simpa using Table.pred_of_find? hfind⟩

theorem exec_findUniqueOrThrow {user : AuthenticatedUser} {id : Uuid} :
    (Write.findUniqueOrThrow user id).exec db = some db' ↔
      db = db' ∧ ∃ record, findById db user id = .ok (some record) := by
  rw [Write.exec]
  split
  · next record hfound => simp [hfound]
  · next hfound => simp [hfound]
  · next hfound => simp [hfound]

/-- The transaction of a transition: the dispute, the resource, and the dispute read again. -/
theorem replay_writes {t : Transition} (h : code.replay t.writes db = some db') :
    ∃ db₁, (Write.updateDispute t.disputeId t.expectedStatus t.status t.resolutionNotes
          t.reviewerUserId (if t.isTerminal ∧ t.status.isSome then some t.now else none)).exec db
        = some db₁
      ∧ code.replay t.applyResourceAction db₁ = some db' := by
  obtain ⟨db₁, hdispute, h⟩ := Option.bind_eq_some_iff.mp h
  change code.replay _ _ = _ at h
  rw [Code.replay, List.foldlM_append] at h
  obtain ⟨db₂, haction, h⟩ := Option.bind_eq_some_iff.mp h
  obtain ⟨db₃, hread, h⟩ := Option.bind_eq_some_iff.mp h
  obtain rfl := Option.some.inj h
  obtain ⟨rfl, -⟩ := exec_findUniqueOrThrow.mp hread
  exact ⟨db₁, hdispute, haction⟩

/-- What the commit of a transition does to the tables. -/
theorem replay_transition {t : Transition} (h : code.replay t.writes db = some db') :
    match t.resourceAction with
    | .markUnavailable => db.resources.any (·.id = t.resourceId)
        ∧ db'.tables = (db.withResources (db.resources.map fun r =>
            if r.id = t.resourceId then withdrawn t.disputeId r else r)).tables
    | .restore => db.resources.any (linked t.resourceId t.disputeId)
        ∧ db'.tables = (db.withResources (db.resources.map fun r =>
            if linked t.resourceId t.disputeId r then restored r else r)).tables
    | .none => db'.tables = db.tables := by
  obtain ⟨db₁, hdispute, h⟩ := replay_writes h
  have htables := exec_updateDispute hdispute
  have hresources : db₁.resources = db.resources := congrArg (·.directory.resources) htables
  rw [Transition.applyResourceAction] at h
  split at h
  · obtain ⟨db₂, hmark, h⟩ := Option.bind_eq_some_iff.mp h
    obtain rfl := Option.some.inj h
    simp only [code, Write.exec, Option.ite_none_right_eq_some, Option.some.injEq] at hmark
    obtain ⟨⟨hany, -⟩, rfl⟩ := hmark
    refine ⟨hresources ▸ hany, ?_⟩
    rw [hresources, Database.withResources, Database.withResources, htables]
  · obtain ⟨db₂, hrestore, h⟩ := Option.bind_eq_some_iff.mp h
    obtain rfl := Option.some.inj h
    simp only [code, Write.exec, Option.ite_none_right_eq_some, Option.some.injEq] at hrestore
    obtain ⟨hany, rfl⟩ := hrestore
    refine ⟨hresources ▸ hany, ?_⟩
    rw [hresources, Database.withResources, Database.withResources, htables]
  · obtain rfl := Option.some.inj h
    exact htables

/-- …and that of an update or a removal. -/
theorem replay_updating {resource : Resource} {data : ResourceData}
    (h : code.replay [.updateResource resource.id data] db = some db') :
    db.resources.any (·.id = resource.id)
      ∧ db.resources.all (fun r => r.id ≠ resource.id ∨ data.admits db.tables.directory r)
      ∧ db' = db.withResources (db.resources.map fun r =>
        if r.id = resource.id then data.apply r else r) := by
  obtain ⟨db₁, hupdate, h⟩ := Option.bind_eq_some_iff.mp h
  obtain rfl := Option.some.inj h
  simp only [code, Write.exec, Option.ite_none_right_eq_some, Option.some.injEq] at hupdate
  obtain ⟨⟨hany, hadmits⟩, rfl⟩ := hupdate
  exact ⟨hany, hadmits, rfl⟩

/-- Others leave the resources alone. -/
theorem outside_resources {x : Outside} (h : code.outside x db = some db') :
    db'.resources = db.resources := by
  cases x with
  | directory | bookings =>
    obtain rfl := Option.some.inj h
    rfl
  | openDispute dispute =>
    obtain ⟨_, -, rfl⟩ := Option.map_eq_some_iff.mp h
    rfl

end ResourceHive.Resources
