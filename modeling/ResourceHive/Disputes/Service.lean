import ResourceHive.Bookings.Lifecycle
import ResourceHive.Resources.Service

/-!
# Disputes/Service — opening disputes, moving them, and the events that record it

`DisputeService.open` and `transition` with `booking_dispute_events`.  Each makes its reads and its
writes in one transaction, whose reads are steps of their own; the update of a dispute has the
status that was read in its condition, and shares the transaction with the resource action and the
event.
-/

namespace ResourceHive.Disputes

open Bookings (Directory Booking)
open Resources (BookingDispute DisputeStatus DisputeError DisputeRecord UpdateDisputeDto
  AuthenticatedUser Transition findById canManage)

/-! ## `booking_dispute_events` -/

/-- A row of `booking_dispute_events`. -/
structure BookingDisputeEvent where
  id : Uuid
  disputeId : Uuid
  actorUserId : Uuid
  fromStatus : Option DisputeStatus
  toStatus : DisputeStatus
  notes : Option String
  deriving DecidableEq, Repr

/-- The database, with the events. -/
structure Database extends Resources.Database where
  events : Table BookingDisputeEvent (Table.Unique BookingDisputeEvent.id)

/-- The events of a dispute, in the order they were inserted. -/
def eventsOf (events : List BookingDisputeEvent) (disputeId : Uuid) : List BookingDisputeEvent :=
  events.filter (·.disputeId = disputeId)

/-- A write statement of the service. -/
inductive Write
  | create (dispute : BookingDispute)
  | addEvent (event : BookingDisputeEvent)
  /-- A statement of `applyTransition`. -/
  | apply (write : Resources.Write)
  deriving DecidableEq

/-- **One statement**, with the foreign keys of a dispute's booking and of an event. -/
def Write.exec : Write → Database → Option Database
  | .create dispute, db =>
    if db.tables.bookings.rows.any (·.id = dispute.bookingId) then
      (db.disputes.insert dispute).map fun disputes => { db with disputes }
    else none
  | .addEvent event, db =>
    if db.disputes.rows.any (·.id = event.disputeId)
        ∧ (db.tables.directory.user? event.actorUserId).isSome then
      (db.events.insert event).map fun events => { db with events }
    else none
  | .apply write, db =>
    (write.exec db.toDatabase).map fun database => { db with toDatabase := database }

/-! ## `open` -/

inductive OpenError
  | noOrganization
  | bookingNotFound
  | bookingNotEligible
  | alreadyExists
  deriving DecidableEq, Repr

namespace OpenError

/-- The HTTP status of the exception's base class. -/
def status : OpenError → ℕ
  | noOrganization => 403
  | bookingNotFound => 404
  | bookingNotEligible | alreadyExists => 409

def message : OpenError → String
  | noOrganization => "You must belong to an organization to open a dispute"
  | bookingNotFound => "The booking was not found"
  | bookingNotEligible => "Only a completed booking of your own can be disputed"
  | alreadyExists => "This booking already has a dispute"

end OpenError

/-- The look-up of a membership in the user's university. -/
def isMember (d : Directory) (userId rootOrganizationId : Uuid) : Bool :=
  d.memberships.any fun m => decide (m.userId = userId ∧ m.status = .approved)
    && (d.user? userId).any (·.status = .active)
    && (d.organization? m.organizationId).any fun o =>
      decide (o.rootOrganizationId = rootOrganizationId ∧ o.status = .active)

/-- The look-up of the user's own booking. -/
def ownBooking? (db : Bookings.Database) (bookingId userId rootOrganizationId : Uuid) :
    Option Booking :=
  db.bookings.find? fun b => decide (b.id = bookingId) && decide (b.userId = userId)
    && decide (b.rootOrganizationId = rootOrganizationId)

/-- What a step takes from outside: the time, and fresh identifiers. -/
structure Reading where
  now : Timestamp := 0
  disputeId : Uuid := 0
  eventId : Uuid := 0
  deriving DecidableEq, Repr

/-- The writes of `open`. -/
def openWrites (bookingId userId : Uuid) (x : Reading) : List Write :=
  let dispute : BookingDispute := { id := x.disputeId, bookingId, submittedByUserId := userId }
  [.create dispute,
    .addEvent
      { id := x.eventId, disputeId := dispute.id, actorUserId := userId, fromStatus := none
        toStatus := dispute.status, notes := some "Dispute opened" }]

/-! ## `transition` -/

/-- The event of a transition: none unless it has a status, and another one than the dispute. -/
def transitionEvent (record : DisputeRecord) (dto : UpdateDisputeDto) (user : AuthenticatedUser)
    (eventId : Uuid) : Option BookingDisputeEvent :=
  (dto.status.filter (· ≠ record.dispute.status)).map fun status =>
    { id := eventId
      disputeId := record.dispute.id
      actorUserId := user.userId
      fromStatus := some record.dispute.status
      toStatus := status
      notes := dto.resolutionNotes.join.map trim }

/-- `applyTransition` and `addEvent`. -/
def transitionWrites (t : Transition) (event : Option BookingDisputeEvent) : List Write :=
  t.writes.map .apply ++ event.toList.map .addEvent

/-! ## The calls -/

inductive Error
  | opening (e : OpenError)
  | transition (e : DisputeError)
  deriving DecidableEq, Repr

/-- Where a call is. -/
inductive Point
  | openMembership (bookingId : Uuid) (user : AuthenticatedUser)
  | openBooking (bookingId userId rootOrganizationId : Uuid)
  | openExisting (bookingId userId : Uuid)
  | opening (bookingId userId : Uuid) (x : Reading)
  | transition (disputeId : Uuid) (dto : UpdateDisputeDto) (user : AuthenticatedUser)
  | transitionManage (record : DisputeRecord) (dto : UpdateDisputeDto) (user : AuthenticatedUser)
  | transitioning (t : Transition) (event : Option BookingDisputeEvent)
  | returned
  /-- The call threw; `none` where a statement of its transaction did. -/
  | failed (error : Option Error)
  deriving DecidableEq

/-- **The reads of each call.** -/
def Point.next (db : Database) : Point → Reading → Option Point
  | .openMembership bookingId user, _ =>
    some <| match user.rootOrganizationId with
      | none => .failed (some (.opening .noOrganization))
      | some root =>
        if isMember db.tables.directory user.userId root then
          .openBooking bookingId user.userId root
        else .failed (some (.opening .noOrganization))
  | .openBooking bookingId userId root, _ =>
    some <| match ownBooking? db.tables bookingId userId root with
      | none => .failed (some (.opening .bookingNotFound))
      | some booking =>
        if booking.status ≠ .completed then .failed (some (.opening .bookingNotEligible))
        else .openExisting bookingId userId
  | .openExisting bookingId userId, x =>
    some <| if db.disputes.rows.any (·.bookingId = bookingId) then
        .failed (some (.opening .alreadyExists))
      else .opening bookingId userId x
  | .transition disputeId dto user, _ =>
    some <| match findById db.toDatabase user disputeId with
      | .error _ => .failed none
      | .ok none => .failed (some (.transition .notFound))
      | .ok (some record) => .transitionManage record dto user
  | .transitionManage record dto user, x =>
    some <|
      if ¬ canManage db.tables.directory record.resource.ownerOrganizationId user then
        .failed (some (.transition .forbidden))
      else match Resources.transition record dto user x.now with
        | .error e => .failed (some (.transition e))
        | .ok t => .transitioning t (transitionEvent record dto user x.eventId)
  | .opening _ _ _, _ | .transitioning _ _, _ | .returned, _ | .failed _, _ => none

/-- Completed bookings stay completed. -/
def KeepsCompleted (db db' : Bookings.Database) : Prop :=
  ∀ b ∈ db.bookings.rows, b.status = .completed →
    ∃ b' ∈ db'.bookings.rows, b'.id = b.id ∧ b'.status = .completed

instance (db db' : Bookings.Database) : Decidable (KeepsCompleted db db') :=
  inferInstanceAs (Decidable (∀ b ∈ db.bookings.rows, _))

/-- The calls of the service; others change the other tables, and leave completed bookings
completed. -/
def code : Code Database Point Write Reading Bookings.Database Empty where
  entry
    | .openMembership _ _ | .transition _ _ _ => true
    | _ => false
  read := Point.next
  writes
    | .opening bookingId userId x => openWrites bookingId userId x
    | .transitioning t event => transitionWrites t event
    | _ => []
  exec := Write.exec
  committed
    | .opening _ _ _ | .transitioning _ _ => .returned
    | p => p
  rolledBack
    | .returned => .returned
    | .failed error => .failed error
    | _ => .failed none
  emits _ := []
  outside tables db := if KeepsCompleted db.tables tables then some { db with tables } else none

/-- The machine, over any bookings, from a database without disputes. -/
def machine : Machine (Sessions Database Point Empty) (Label Point Reading Bookings.Database) :=
  code.machine fun db => db.disputes.rows = [] ∧ db.events.rows = []

/-- **The booking service keeps to that**: whatever it does, completed bookings stay completed. -/
theorem keepsCompleted_of_step {s t : Bookings.State}
    {l : Label Bookings.Point (Bookings.Reading ⊕ Thrown Bookings.BookingError) Bookings.Outside}
    (h : Bookings.machine.step s l = some t) : KeepsCompleted s.db t.db := by
  intro b hb hcompleted
  have hterminal : Bookings.BookingStatus.completed ≠ .confirmed := by decide
  obtain ⟨b', hb', hid, hstatus⟩ := Bookings.hasStatus_step h hterminal ⟨b, hb, rfl, hcompleted⟩
  exact ⟨b', hb', hid, hstatus⟩

/-! ## What a commit does -/

variable {db db' : Database}

theorem replay_apply {ws : List Resources.Write} (h : code.replay (ws.map .apply) db = some db') :
    db'.events = db.events ∧ Resources.code.replay ws db.toDatabase = some db'.toDatabase := by
  induction ws generalizing db with
  | nil =>
    obtain rfl : db = db' := Option.some.inj h
    exact ⟨rfl, rfl⟩
  | cons w ws ih =>
    obtain ⟨db₁, hw, hrest⟩ := Option.bind_eq_some_iff.mp h
    obtain ⟨database, hexec, rfl⟩ := Option.map_eq_some_iff.mp hw
    obtain ⟨hevents, hreplay⟩ := ih hrest
    exact ⟨hevents, Option.bind_eq_some_iff.mpr ⟨database, hexec, hreplay⟩⟩

/-- A transaction in two parts. -/
theorem replay_append {ws ws' : List Write} (h : code.replay (ws ++ ws') db = some db') :
    ∃ db₁, code.replay ws db = some db₁ ∧ code.replay ws' db₁ = some db' := by
  rw [Code.replay, List.foldlM_append] at h
  exact Option.bind_eq_some_iff.mp h

/-- The events a transaction adds. -/
theorem replay_addEvent {event : Option BookingDisputeEvent}
    (h : code.replay (event.toList.map .addEvent) db = some db') :
    db'.toDatabase = db.toDatabase ∧ db'.events.rows = db.events.rows ++ event.toList
      ∧ ∀ e ∈ event, ∃ d ∈ db.disputes, d.id = e.disputeId := by
  cases event with
  | none =>
    obtain rfl : db = db' := Option.some.inj h
    exact ⟨rfl, (List.append_nil _).symm, nofun⟩
  | some event =>
    obtain ⟨db₁, hevent, hrest⟩ := Option.bind_eq_some_iff.mp h
    obtain rfl := Option.some.inj hrest
    simp only [code, Write.exec, Option.ite_none_right_eq_some, Option.map_eq_some_iff,
      List.any_eq_true, decide_eq_true_eq] at hevent
    obtain ⟨⟨hdispute, -⟩, events, hinsert, rfl⟩ := hevent
    refine ⟨rfl, Table.insert_eq_some.mp hinsert, ?_⟩
    rintro e ⟨⟩
    exact hdispute

/-- **What the commit of `open` does.** -/
theorem replay_opening {bookingId userId : Uuid} {x : Reading}
    (h : code.replay (openWrites bookingId userId x) db = some db') :
    db.disputes.insert { id := x.disputeId, bookingId, submittedByUserId := userId }
        = some db'.disputes
      ∧ db'.tables = db.tables
      ∧ db'.events.rows = db.events.rows ++ [⟨x.eventId, x.disputeId, userId, none, .opened,
          some "Dispute opened"⟩] := by
  obtain ⟨db₁, hcreate, hrest⟩ := Option.bind_eq_some_iff.mp h
  obtain ⟨hsame, hevents, -⟩ := @replay_addEvent _ _ (some _) hrest
  simp only [code, Write.exec, Option.ite_none_right_eq_some, Option.map_eq_some_iff] at hcreate
  obtain ⟨-, disputes, hinsert, rfl⟩ := hcreate
  rw [hsame]
  exact ⟨hinsert, rfl, hevents⟩

/-- The dispute that a transition updates, if it still has the status that was read. -/
def expected (t : Transition) (d : BookingDispute) : Bool :=
  decide (d.id = t.disputeId) && decide (d.status = t.expectedStatus)

/-- …and what it becomes. -/
def moved (t : Transition) (d : BookingDispute) : BookingDispute :=
  { d with
    status := t.status.getD d.status
    resolutionNotes := t.resolutionNotes.getD d.resolutionNotes
    reviewedByUserId := some t.reviewerUserId
    resolvedAt := (if t.isTerminal ∧ t.status.isSome then some t.now else none).or d.resolvedAt }

/-- **The resource action is refused**: the resource is not linked to the dispute, or the dispute is
linked to another one already. -/
def Refused (db : Database) (t : Transition) : Prop :=
  match t.resourceAction with
  | .restore => ¬ db.resources.any (Resources.linked t.resourceId t.disputeId)
  | .markUnavailable => ¬ db.resources.any (·.id = t.resourceId)
    ∨ ∃ r ∈ db.resources, r.id ≠ t.resourceId ∧ r.unavailableDisputeId = some t.disputeId
  | .none => False

/-- The resource action leaves the disputes and the bookings alone. -/
theorem replay_applyResourceAction {t : Transition} {store store' : Resources.Database}
    (h : Resources.code.replay t.applyResourceAction store = some store') :
    store'.disputes = store.disputes ∧ store'.tables.bookings = store.tables.bookings := by
  rw [Transition.applyResourceAction] at h
  split at h
  · obtain ⟨store₁, hmark, h⟩ := Option.bind_eq_some_iff.mp h
    obtain rfl := Option.some.inj h
    simp only [Resources.code, Resources.Write.exec, Option.ite_none_right_eq_some,
      Option.some.injEq] at hmark
    obtain ⟨-, rfl⟩ := hmark
    exact ⟨rfl, rfl⟩
  · obtain ⟨store₁, hrestore, h⟩ := Option.bind_eq_some_iff.mp h
    obtain rfl := Option.some.inj h
    simp only [Resources.code, Resources.Write.exec, Option.ite_none_right_eq_some,
      Option.some.injEq] at hrestore
    obtain ⟨-, rfl⟩ := hrestore
    exact ⟨rfl, rfl⟩
  · obtain rfl := Option.some.inj h
    exact ⟨rfl, rfl⟩

/-- **What the commit of `transition` does.** -/
structure Moved (db db' : Database) (t : Transition) (event : Option BookingDisputeEvent) : Prop where
  found : ∃ d ∈ db.disputes, expected t d
  disputes : db.disputes.update (expected t) (moved t) = some db'.disputes
  bookings : db'.tables.bookings = db.tables.bookings
  events : db'.events.rows = db.events.rows ++ event.toList
  recorded : ∀ e ∈ event, ∃ d ∈ db'.disputes, d.id = e.disputeId

theorem replay_transitioning {t : Transition} {event : Option BookingDisputeEvent}
    (h : code.replay (transitionWrites t event) db = some db') : Moved db db' t event := by
  obtain ⟨db₁, happly, hevent⟩ := replay_append h
  obtain ⟨hsame, hevents, hrecorded⟩ := replay_addEvent hevent
  obtain ⟨hkept, hreplay⟩ := replay_apply happly
  obtain ⟨store, hupdate, haction⟩ := Resources.replay_writes hreplay
  obtain ⟨hdisputes, hbookings⟩ := replay_applyResourceAction haction
  simp only [Resources.Write.exec, Option.ite_none_right_eq_some, Option.map_eq_some_iff] at hupdate
  obtain ⟨hfound, disputes, hdispute, rfl⟩ := hupdate
  refine ⟨List.any_eq_true.mp hfound, ?_, ?_, hkept ▸ hevents, hsame.symm ▸ hrecorded⟩
  · rw [hsame, hdisputes]
    exact hdispute
  · rw [hsame, hbookings]

/-- A refused resource action takes the transaction back. -/
theorem not_refused_of_replay {t : Transition} {event : Option BookingDisputeEvent}
    (h : code.replay (transitionWrites t event) db = some db') : ¬ Refused db t := by
  obtain ⟨db₁, happly, -⟩ := replay_append h
  obtain ⟨-, hreplay⟩ := replay_apply happly
  obtain ⟨store, hupdate, haction⟩ := Resources.replay_writes hreplay
  have hresources : store.resources = db.resources :=
    congrArg (·.directory.resources) (Resources.exec_updateDispute hupdate)
  rw [Transition.applyResourceAction] at haction
  unfold Refused
  split at haction
  · next hmark =>
    obtain ⟨store₁, hexec, -⟩ := Option.bind_eq_some_iff.mp haction
    simp only [Resources.code, Resources.Write.exec, Option.ite_none_right_eq_some, hresources,
      List.all_eq_true, decide_eq_true_eq] at hexec
    obtain ⟨⟨hany, -, hall⟩, -⟩ := hexec
    rw [hmark]
    rintro (hnone | ⟨r, hr, hne, hlinked⟩)
    · exact hnone hany
    · exact (hall r hr).elim hne fun hnot => hnot hlinked
  · next hrestore =>
    obtain ⟨store₁, hexec, -⟩ := Option.bind_eq_some_iff.mp haction
    simp only [Resources.code, Resources.Write.exec, Option.ite_none_right_eq_some,
      hresources] at hexec
    rw [hrestore]
    exact fun hnot => hnot hexec.1
  · next hnone =>
    rw [hnone]
    exact id

end ResourceHive.Disputes
