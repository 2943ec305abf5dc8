import ResourceHive.Organizations.Membership

/-!
# Bookings/Database — the tables the booking service works on, and its write statements

`Directory` holds what the service only reads.  `resource_slots`, `bookings` and the ledger are
tables with their constraints; a write statement (`Write`) yields the database after it, or `none`
if a constraint, a foreign key, a trigger or the statement's own row count rejects it.
-/

namespace ResourceHive.Bookings

/-! ## What the service reads -/

/-- A row of `users`. -/
structure User where
  id : Uuid
  status : AccountStatus
  deriving DecidableEq, Repr

/-- A row of `organizations`. -/
structure Organization where
  id : Uuid
  rootOrganizationId : Uuid
  status : AccountStatus
  deriving DecidableEq, Repr

/-- A row of `organization_memberships`. -/
structure OrganizationMembership where
  userId : Uuid
  organizationId : Uuid
  role : MembershipRole
  status : MembershipStatus
  deriving DecidableEq, Repr

inductive ResourceStatus
  | active
  | inactive
  deriving DecidableEq, Repr

/-- A row of `resources`, with the organizations of `resource_allowed_organizations`. -/
structure Resource where
  id : Uuid
  name : String
  ownerOrganizationId : Uuid
  rootOrganizationId : Uuid
  status : ResourceStatus
  pointCost : ℤ
  cancellationNoticeMinutes : ℤ
  allowedOrganizations : List Uuid
  unavailableDisputeId : Option Uuid := none
  deriving DecidableEq, Repr

/-- The tables the booking service only reads. -/
structure Directory where
  users : List User
  organizations : List Organization
  memberships : List OrganizationMembership
  resources : List Resource
  deriving DecidableEq, Repr

namespace Directory

def user? (d : Directory) (id : Uuid) : Option User := d.users.find? (·.id = id)

def organization? (d : Directory) (id : Uuid) : Option Organization :=
  d.organizations.find? (·.id = id)

def resource? (d : Directory) (id : Uuid) : Option Resource := d.resources.find? (·.id = id)

end Directory

/-! ## `resource_slots` -/

inductive SlotStatus
  | published
  | withdrawn
  deriving DecidableEq, Repr

/-- A row of `resource_slots`. -/
structure ResourceSlot where
  id : Uuid
  resourceId : Uuid
  rootOrganizationId : Uuid
  startsAt : Timestamp
  endsAt : Timestamp
  status : SlotStatus := .published
  withdrawnAt : Option Timestamp := none
  deriving DecidableEq, Repr

namespace ResourceSlot

/-- `resource_slots_time_check` and `resource_slots_withdrawal_check`. -/
def Checks (s : ResourceSlot) : Prop :=
  s.startsAt < s.endsAt
    ∧ ((s.status = .withdrawn ∧ s.withdrawnAt.isSome) ∨ (s.status = .published ∧ s.withdrawnAt.isNone))

instance : DecidablePred Checks := fun _ => inferInstanceAs (Decidable (_ ∧ (_ ∨ _)))

/-- The primary key and the CHECKs. -/
def Constraints (rows : List ResourceSlot) : Prop :=
  Table.Unique id rows ∧ Table.Check Checks rows

instance : DecidablePred Constraints := fun _ => inferInstanceAs (Decidable (_ ∧ _))

end ResourceSlot

/-! ## `bookings` -/

inductive BookingStatus
  | confirmed
  | cancelled
  | completed
  deriving DecidableEq, Repr

/-- A row of `bookings`. -/
structure Booking where
  id : Uuid
  resourceSlotId : Uuid
  userId : Uuid
  rootOrganizationId : Uuid
  status : BookingStatus := .confirmed
  createdAt : Timestamp
  cancelledAt : Option Timestamp := none
  completedAt : Option Timestamp := none
  cancelledByUserId : Option Uuid := none
  cancellationReason : Option String := none
  cancellationNoticeMinutes : ℤ := 0
  deriving DecidableEq, Repr

namespace Booking

/-- `bookings_cancellation_check`. -/
def CancellationCheck (b : Booking) : Prop :=
  (b.status = .cancelled ∧ b.cancelledAt.isSome) ∨ (b.status ≠ .cancelled ∧ b.cancelledAt.isNone)

instance : DecidablePred CancellationCheck := fun _ => inferInstanceAs (Decidable (_ ∨ _))

/-- `bookings_completion_check`. -/
def CompletionCheck (b : Booking) : Prop :=
  (b.status = .completed ∧ b.completedAt.isSome) ∨ (b.status ≠ .completed ∧ b.completedAt.isNone)

instance : DecidablePred CompletionCheck := fun _ => inferInstanceAs (Decidable (_ ∨ _))

/-- The CHECKs of a row: the two above, the order of the timestamps, the length of the reason and
the notice period. -/
def Checks (b : Booking) : Prop :=
  b.CancellationCheck ∧ b.CompletionCheck ∧ (∀ t ∈ b.cancelledAt, b.createdAt ≤ t)
    ∧ (∀ t ∈ b.completedAt, b.createdAt ≤ t) ∧ (∀ r ∈ b.cancellationReason, r.length ≤ 500)
    ∧ 0 ≤ b.cancellationNoticeMinutes

instance : DecidablePred Checks := fun _ =>
  inferInstanceAs (Decidable (_ ∧ _ ∧ _ ∧ _ ∧ _ ∧ _))

/-- `status IN ('CONFIRMED', 'COMPLETED')`. -/
def active (b : Booking) : Bool := b.status = .confirmed || b.status = .completed

/-- The primary key, the CHECKs, and `bookings_active_slot_unique`. -/
def Constraints (rows : List Booking) : Prop :=
  Table.Unique id rows ∧ Table.Check Checks rows ∧ Table.UniqueWhere active resourceSlotId rows

instance : DecidablePred Constraints := fun _ => inferInstanceAs (Decidable (_ ∧ _ ∧ _))

/-- The status says which of the two timestamps is set. -/
theorem Checks.cancelledAt_isSome {b : Booking} (h : b.Checks) :
    b.cancelledAt.isSome ↔ b.status = .cancelled := by
  rcases h.1 with ⟨h₁, h₂⟩ | ⟨h₁, h₂⟩ <;> simp_all

theorem Checks.completedAt_isSome {b : Booking} (h : b.Checks) :
    b.completedAt.isSome ↔ b.status = .completed := by
  rcases h.2.1 with ⟨h₁, h₂⟩ | ⟨h₁, h₂⟩ <;> simp_all

end Booking

/-- The columns an update of a booking sets; `none` where the update does not mention the column. -/
structure BookingData where
  status : BookingStatus
  cancelledAt : Option Timestamp := none
  completedAt : Option Timestamp := none
  cancelledByUserId : Option Uuid := none
  cancellationReason : Option (Option String) := none
  deriving DecidableEq, Repr

/-- The row after the update. -/
def BookingData.apply (data : BookingData) (b : Booking) : Booking :=
  { b with
    status := data.status
    cancelledAt := data.cancelledAt.or b.cancelledAt
    completedAt := data.completedAt.or b.completedAt
    cancelledByUserId := data.cancelledByUserId.or b.cancelledByUserId
    cancellationReason := data.cancellationReason.getD b.cancellationReason }

/-! ## The database and its write statements -/

/-- The committed state. -/
structure Database where
  directory : Directory
  slots : Table ResourceSlot ResourceSlot.Constraints
  bookings : Table Booking Booking.Constraints
  ledger : Ledger

namespace Database

def slot? (db : Database) (id : Uuid) : Option ResourceSlot := db.slots.find? (·.id = id)

def booking? (db : Database) (id : Uuid) : Option Booking := db.bookings.find? (·.id = id)

/-- The bookings of a slot, whatever their status. -/
def bookingsOf (db : Database) (slotId : Uuid) : List Booking :=
  db.bookings.rows.filter (·.resourceSlotId = slotId)

/-- What the ledger's foreign keys refer to. -/
def references (db : Database) : References where
  users := db.directory.users.map (·.id)
  organizations := db.directory.organizations.map fun o => (o.id, o.rootOrganizationId)
  bookings := db.bookings.rows.map fun b => (b.id, b.userId, b.rootOrganizationId)

end Database

/-- A write statement of the booking service. -/
inductive Write
  /-- The insert of `createConfirmed`; the bookings of the slot that its transaction has read. -/
  | createBooking (b : Booking) (read : List Uuid)
  /-- `booking.update`, or `booking.updateMany` with a status in its condition and its count
  checked. -/
  | updateBooking (id : Uuid) (status : Option BookingStatus) (data : BookingData)
  /-- `resourceSlot.update`. -/
  | updateSlot (id : Uuid) (status : SlotStatus) (withdrawnAt : Option Timestamp)
  /-- `PointLedgerRepository.append`. -/
  | append (e : PointTransaction)
  deriving DecidableEq

/-- The rows an update of a booking matches. -/
def matchesBooking (id : Uuid) (status : Option BookingStatus) (b : Booking) : Bool :=
  decide (b.id = id) && status.all (b.status = ·)

/-- **One write statement.**  Two serializable transactions that insert a booking for one slot have
each read the slot's bookings, so the second one to commit is aborted unless it has read the first
one's booking. -/
def Write.exec : Write → Database → Option Database
  | .createBooking b read, db =>
    if (∀ b' ∈ db.bookingsOf b.resourceSlotId, b'.id ∈ read)
        ∧ (b.resourceSlotId, b.rootOrganizationId)
            ∈ db.slots.rows.map (fun s => (s.id, s.rootOrganizationId))
        ∧ b.userId ∈ db.directory.users.map (·.id) then
      (db.bookings.insert b).map fun bookings => { db with bookings }
    else none
  | .updateBooking id status data, db =>
    if db.bookings.rows.any (matchesBooking id status)
        ∧ (∀ u ∈ data.cancelledByUserId, u ∈ db.directory.users.map (·.id)) then
      (db.bookings.update (matchesBooking id status) data.apply).map fun bookings =>
        { db with bookings }
    else none
  | .updateSlot id status withdrawnAt, db =>
    if db.slots.rows.any (·.id = id) then
      (db.slots.update (·.id = id) fun s => { s with status, withdrawnAt }).map fun slots =>
        { db with slots }
    else none
  | .append e, db =>
    (db.ledger.insert db.references e).map fun ledger => { db with ledger }

/-! ## What each statement does -/

variable {db db' : Database}

theorem exec_createBooking {b : Booking} {read : List Uuid}
    (h : (Write.createBooking b read).exec db = some db') :
    (∀ b' ∈ db.bookings, b'.resourceSlotId = b.resourceSlotId → b'.id ∈ read)
      ∧ (∃ s ∈ db.slots, s.id = b.resourceSlotId)
      ∧ db.bookings.insert b = some db'.bookings
      ∧ db' = { db with bookings := db'.bookings } := by
  simp only [Write.exec, Option.ite_none_right_eq_some, Option.map_eq_some_iff] at h
  obtain ⟨⟨hread, hslot, -⟩, bookings, hins, rfl⟩ := h
  obtain ⟨s, hs, heq⟩ := List.mem_map.mp hslot
  refine ⟨fun b' hb' heq' => hread b' (List.mem_filter.mpr ⟨hb', by simpa using heq'⟩),
    ⟨s, hs, congrArg Prod.fst heq⟩, hins, rfl⟩

theorem exec_updateBooking {id : Uuid} {status : Option BookingStatus} {data : BookingData}
    (h : (Write.updateBooking id status data).exec db = some db') :
    (∃ b ∈ db.bookings, matchesBooking id status b)
      ∧ db.bookings.update (matchesBooking id status) data.apply = some db'.bookings
      ∧ db' = { db with bookings := db'.bookings } := by
  simp only [Write.exec, Option.ite_none_right_eq_some, Option.map_eq_some_iff] at h
  obtain ⟨⟨hany, -⟩, bookings, hupd, rfl⟩ := h
  exact ⟨List.any_eq_true.mp hany, hupd, rfl⟩

theorem exec_updateSlot {id : Uuid} {status : SlotStatus} {withdrawnAt : Option Timestamp}
    (h : (Write.updateSlot id status withdrawnAt).exec db = some db') :
    db.slots.update (·.id = id) (fun s => { s with status, withdrawnAt }) = some db'.slots
      ∧ db' = { db with slots := db'.slots } := by
  simp only [Write.exec, Option.ite_none_right_eq_some, Option.map_eq_some_iff] at h
  obtain ⟨-, slots, hupd, rfl⟩ := h
  exact ⟨hupd, rfl⟩

theorem exec_append {e : PointTransaction} (h : (Write.append e).exec db = some db') :
    db.ledger.insert db.references e = some db'.ledger
      ∧ db' = { db with ledger := db'.ledger } := by
  obtain ⟨ledger, hins, rfl⟩ := Option.map_eq_some_iff.mp h
  exact ⟨hins, rfl⟩

/-- The user's booking an entry for a booking is about: the composite foreign key. -/
theorem booking_of_admits {e : PointTransaction} {id : Uuid} (h : db.references.Admits e)
    (hid : e.bookingId = some id) : ∃ b ∈ db.bookings, b.id = id ∧ b.userId = e.userId := by
  have hmem := h.2.2.2.1 id hid
  simp only [Database.references, List.map_map, List.mem_map, Function.comp_apply] at hmem
  obtain ⟨b, hb, heq⟩ := hmem
  exact ⟨b, hb, congrArg Prod.fst heq, congrArg Prod.snd heq⟩

/-- Of two bookings with one id, there is one. -/
theorem booking_eq {b b' : Booking} (hb : b ∈ db.bookings) (hb' : b' ∈ db.bookings)
    (h : b.id = b'.id) : b = b' :=
  db.bookings.valid.1.eq hb hb' h

theorem checks_of_mem {b : Booking} (hb : b ∈ db.bookings) : b.Checks := db.bookings.valid.2.1 b hb

theorem mem_of_booking? {id : Uuid} {b : Booking} (h : db.booking? id = some b) :
    b ∈ db.bookings ∧ b.id = id :=
  ⟨Table.mem_of_find? h,
    of_decide_eq_true (Table.pred_of_find? (p := fun b : Booking => decide (b.id = id)) h)⟩

theorem mem_of_slot? {id : Uuid} {s : ResourceSlot} (h : db.slot? id = some s) :
    s ∈ db.slots ∧ s.id = id :=
  ⟨Table.mem_of_find? h,
    of_decide_eq_true (Table.pred_of_find? (p := fun s : ResourceSlot => decide (s.id = id)) h)⟩

end ResourceHive.Bookings
