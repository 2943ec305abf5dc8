import ResourceHive.Bookings.Service
import ResourceHive.Machinery.Transactions

/-!
# Bookings/System — any number of booking calls over one database

The four operations as programs (`Point`, `code`), and the machine of all their interleavings from
a database without bookings.  `createBooking`'s transaction is Serializable, so its reads are one
step on one snapshot; every other read is a step of its own.  Besides the calls, others may change
what the service only reads, publish slots, and credit points.

The second half says what a commit does: `replay_creation`, `replay_cancellation` and
`replay_completion` are the only places where a transaction's statements are taken apart.
-/

namespace ResourceHive.Bookings

/-- Where a call is. -/
inductive Point
  | create (resourceSlotId : Uuid) (user : AuthenticatedUser) (attempt : ℕ)
  | createWriting (resourceSlotId : Uuid) (user : AuthenticatedUser) (attempt : ℕ) (c : Creation)
  /-- The attempt was rolled back, and its error is about to be looked at. -/
  | createFailed (resourceSlotId : Uuid) (user : AuthenticatedUser) (attempt : ℕ)
  | cancel (bookingId actorUserId : Uuid) (input : CancelBookingDto)
  | cancelAdministrator (record : BookingRecord) (actorUserId : Uuid) (input : CancelBookingDto)
      (now : Timestamp)
  /-- Cancellations to be made, each in a transaction that starts by reading the deduction. -/
  | cancelNext (work : List Cancellation)
  | cancelWriting (c : Cancellation) (refund : ℤ) (x : Reading) (rest : List Cancellation)
  | complete (bookingId administratorUserId : Uuid)
  | completeAdministrator (record : BookingRecord) (administratorUserId : Uuid)
  | completeWriting (bookingId : Uuid) (now : Timestamp)
  | reevaluate (resourceId rootOrganizationId : Uuid)
  | returned
  /-- The call threw; `none` where a statement of its transaction did. -/
  | failed (error : Option BookingError)
  deriving DecidableEq

/-- What the history keeps of a commit. -/
inductive Event
  /-- A booking was created; the point cost read for it. -/
  | booked (bookingId : Uuid) (pointCost : ℤ)
  /-- A booking was cancelled; on whose terms. -/
  | cancelled (bookingId : Uuid) (canceller : Canceller)
  deriving DecidableEq

/-- What others do: the tables the service only reads become anything, a slot is published, points
that no booking is about are credited. -/
inductive Outside
  | directory (d : Directory)
  | publish (slot : ResourceSlot)
  | credit (e : PointTransaction)

/-- The update of `completeBooking`. -/
def completionWrites (bookingId : Uuid) (now : Timestamp) : List Write :=
  [.updateBooking bookingId none { status := .completed, completedAt := some now }]

/-- The point after an attempt that threw. -/
def afterFailure (resourceSlotId : Uuid) (user : AuthenticatedUser) (attempt : ℕ)
    (e : Thrown BookingError) : Point :=
  match afterFailedAttempt attempt e with
  | some error => .failed (some error)
  | none => .create resourceSlotId user (attempt + 1)

/-- **The reads of each call.**  An input is a reading, or what a rolled-back attempt threw. -/
def Point.next (db : Database) : Point → Reading ⊕ Thrown BookingError → Option Point
  | .create resourceSlotId user attempt, .inl x =>
    some <| match createWithinTransaction .none db x resourceSlotId user with
      | .error e => afterFailure resourceSlotId user attempt e
      | .ok c => .createWriting resourceSlotId user attempt c
  | .createFailed resourceSlotId user attempt, .inr e =>
    some (afterFailure resourceSlotId user attempt e)
  | .cancel bookingId actorUserId input, .inl x =>
    some <| match cancelBooking db bookingId actorUserId input x.now with
      | .error e => .failed (some e)
      | .ok (.inl c) => .cancelNext [c]
      | .ok (.inr record) => .cancelAdministrator record actorUserId input x.now
  | .cancelAdministrator record actorUserId input now, .inl _ =>
    some <| match cancelBookingAsAdministrator db.directory record actorUserId input now with
      | .error e => .failed (some e)
      | .ok c => .cancelNext [c]
  | .cancelNext [], .inl _ => some .returned
  | .cancelNext (c :: rest), .inl x =>
    some (.cancelWriting c (c.canceller.refund (c.deductedPoints db.ledger)) x rest)
  | .complete bookingId administratorUserId, .inl _ =>
    some <| match findUnique db bookingId with
      | none => .failed (some .notFound)
      | some record => .completeAdministrator record administratorUserId
  | .completeAdministrator record administratorUserId, .inl x =>
    some <| match completeBooking db.directory record administratorUserId with
      | .error e => .failed (some e)
      | .ok false => .returned
      | .ok true => .completeWriting record.booking.id x.now
  | .reevaluate resourceId rootOrganizationId, .inl x =>
    some <| match reevaluateBookings db rootOrganizationId resourceId x.now with
      | .error e => .failed (some (handleError "reevaluate" (.prisma e)))
      | .ok work => .cancelNext work
  | _, _ => none

/-- The calls of the booking service. -/
def code : Code Database Point Write (Reading ⊕ Thrown BookingError) Outside Event where
  entry
    | .create _ _ attempt => attempt = 1
    | .cancel _ _ _ | .complete _ _ | .reevaluate _ _ => true
    | _ => false
  read := Point.next
  writes
    | .createWriting _ _ _ c => c.writes
    | .cancelWriting c refund x _ => c.writes refund x
    | .completeWriting bookingId now => completionWrites bookingId now
    | _ => []
  exec := Write.exec
  committed
    | .cancelWriting _ _ _ rest => .cancelNext rest
    | .createWriting _ _ _ _ | .completeWriting _ _ => .returned
    | p => p
  rolledBack
    | .create resourceSlotId user attempt | .createWriting resourceSlotId user attempt _
    | .createFailed resourceSlotId user attempt => .createFailed resourceSlotId user attempt
    | .returned => .returned
    | .failed error => .failed error
    | _ => .failed none
  emits
    | .createWriting _ _ _ c => [.booked c.booking.id c.context.pointCost]
    | .cancelWriting c _ _ _ => [.cancelled c.booking.id c.canceller]
    | _ => []
  outside
    | .directory d, db => some { db with directory := d }
    | .publish slot, db =>
      if slot.status = .published then
        (db.slots.insert slot).map fun slots => { db with slots }
      else none
    | .credit e, db =>
      if e.bookingId = none then
        (db.ledger.insert db.references e).map fun ledger => { db with ledger }
      else none

/-- A database without bookings: whatever there is, no ledger entry is about one. -/
def Initial (db : Database) : Prop :=
  db.bookings.rows = [] ∧ ∀ e ∈ db.ledger.transactions, e.bookingId = none

/-- The machine of the booking service. -/
def machine :
    Machine (Sessions Database Point Event) (Label Point (Reading ⊕ Thrown BookingError) Outside) :=
  code.machine Initial

/-- A state of the machine. -/
abbrev State := Sessions Database Point Event

/-- A university with two members, one of them an administrator, and a resource with one slot. -/
def sample (pointCost : ℤ) : State where
  db :=
    { directory :=
        { users := [⟨1, .active⟩, ⟨2, .active⟩]
          organizations := [⟨100, 100, .active⟩]
          memberships := [⟨1, 100, .member, .approved⟩, ⟨2, 100, .admin, .approved⟩]
          resources := [⟨10, "Laboratory", 100, 100, .active, pointCost, 0, [], none⟩] }
      slots := ⟨[{ id := 20, resourceId := 10, rootOrganizationId := 100,
                   startsAt := 1000, endsAt := 2000 }], by decide⟩
      bookings := ⟨[], by decide⟩
      ledger := .empty }
  history := []
  calls := []

/-- The administrator's organization revokes the access of member 1. -/
def sampleRevoked : Directory :=
  { (sample 0).db.directory with
    memberships := [⟨1, 100, .member, .suspended⟩, ⟨2, 100, .admin, .approved⟩] }

theorem sample_init (pointCost : ℤ) : machine.init (sample pointCost) :=
  ⟨⟨rfl, fun _ he => by cases he⟩, rfl, rfl⟩

/-! ## What a commit does -/

variable {db db' : Database}

/-- The bookings after an update of one of them, which the primary key makes the only one. -/
theorem mem_updateBooking {id : Uuid} {status : Option BookingStatus} {data : BookingData}
    {b : Booking} (hb : b ∈ db.bookings) (hm : matchesBooking id status b)
    (h : db.bookings.update (matchesBooking id status) data.apply = some db'.bookings)
    {x : Booking} :
    x ∈ db'.bookings ↔ x = data.apply b ∨ (x ∈ db.bookings ∧ x.id ≠ id) := by
  have hid : b.id = id := of_decide_eq_true (Bool.and_eq_true _ _ ▸ hm).1
  rw [Table.mem_update h]
  constructor
  · rintro ⟨r, hr, rfl⟩
    by_cases hrm : matchesBooking id status r
    · have hrid : r.id = id := of_decide_eq_true (Bool.and_eq_true _ _ ▸ hrm).1
      obtain rfl := booking_eq hr hb (hrid.trans hid.symm)
      simp [hm]
    · refine .inr ⟨by simpa [hrm] using hr, ?_⟩
      intro heq
      simp only [hrm, Bool.false_eq_true, if_false] at heq
      obtain rfl := booking_eq hr hb (heq.trans hid.symm)
      exact hrm hm
  · rintro (rfl | ⟨hx, hne⟩)
    · exact ⟨b, hb, by simp [hm]⟩
    · have hxm : matchesBooking id status x = false := by simp [matchesBooking, hne]
      exact ⟨x, hx, by simp [hxm]⟩

/-- The slots after an update of one of them. -/
theorem mem_updateSlot {id : Uuid} {status : SlotStatus} {withdrawnAt : Option Timestamp}
    (h : db.slots.update (·.id = id) (fun s => { s with status, withdrawnAt }) = some db'.slots)
    {x : ResourceSlot} (hx : x ∈ db'.slots) :
    (x.id = id ∧ x.status = status) ∨ (x.id ≠ id ∧ x ∈ db.slots) := by
  obtain ⟨r, hr, rfl⟩ := (Table.mem_update h).mp hx
  by_cases hid : r.id = id
  · simp [hid]
  · simp [hid, hr]

/-- What the commit of a `createBooking` does. -/
structure Created (db db' : Database) (c : Creation) : Prop where
  /-- Every booking the slot has is one the transaction has read. -/
  read : ∀ b ∈ db.bookings, b.resourceSlotId = c.booking.resourceSlotId → b.id ∈ c.read
  slot : ∃ s ∈ db.slots, s.id = c.booking.resourceSlotId
  directory : db'.directory = db.directory
  bookings : db.bookings.insert c.booking = some db'.bookings
  slots : db'.slots = db.slots
  ledger : if 0 < c.context.pointCost then ∃ refs, db.ledger.insert refs c.entry = some db'.ledger
    else db'.ledger = db.ledger

theorem replay_creation {c : Creation} (h : code.replay c.writes db = some db') :
    Created db db' c := by
  rw [Creation.writes, Code.replay_cons, Option.bind_eq_some_iff] at h
  obtain ⟨db₁, hcreate, h⟩ := h
  obtain ⟨hread, hslot, hins, hdb₁⟩ := exec_createBooking hcreate
  split at h
  · next hcost =>
    rw [Code.replay_cons, Option.bind_eq_some_iff] at h
    obtain ⟨db₂, happend, h⟩ := h
    obtain rfl := Option.some.inj h
    obtain ⟨hledger, hdb₂⟩ := exec_append happend
    rw [hdb₂, hdb₁]
    refine ⟨hread, hslot, rfl, hins, rfl, ?_⟩
    rw [if_pos hcost]
    exact ⟨db₁.references, by rw [hdb₁] at hledger ⊢; exact hledger⟩
  · next hcost =>
    obtain rfl := Option.some.inj h
    rw [hdb₁]
    exact ⟨hread, hslot, rfl, hins, rfl, by rw [if_neg hcost]⟩

/-- What the commit of a cancellation does, to a booking that was `b`. -/
structure Cancelled (db db' : Database) (c : Cancellation) (refund : ℤ) (x : Reading)
    (b : Booking) : Prop where
  mem : b ∈ db.bookings
  id : b.id = c.booking.id
  /-- A guarded update finds a confirmed booking… -/
  guarded : c.canceller.guard = some .confirmed → b.status = .confirmed
  /-- …and no CHECK lets a completed one become cancelled. -/
  not_completed : b.status ≠ .completed
  directory : db'.directory = db.directory
  update : db.bookings.update (matchesBooking c.booking.id c.canceller.guard) c.data.apply
    = some db'.bookings
  slotUpdate : db.slots.update (·.id = c.booking.resourceSlotId) (fun s =>
      { s with
        status := c.canceller.slotStatus
        withdrawnAt := if c.canceller.slotStatus = .withdrawn then some c.now else none })
    = some db'.slots
  bookings : ∀ y, y ∈ db'.bookings ↔ y = c.data.apply b ∨ (y ∈ db.bookings ∧ y.id ≠ c.booking.id)
  slots : ∀ y ∈ db'.slots, (y.id = c.booking.resourceSlotId ∧ y.status = c.canceller.slotStatus)
    ∨ (y.id ≠ c.booking.resourceSlotId ∧ y ∈ db.slots)
  slot_ids : db'.slots.rows.map (·.id) = db.slots.rows.map (·.id)
  ledger : if 0 < refund then
      ∃ refs, db.ledger.insert refs (c.entry refund x) = some db'.ledger
    else db'.ledger = db.ledger

/-- The timestamp an update to `CANCELLED` leaves alone keeps a completed booking out. -/
theorem not_completed_of_cancel {b : Booking} {data : BookingData} (hb : b.Checks)
    (hdata : (data.apply b).Checks) (hstatus : data.status = .cancelled)
    (hcompleted : data.completedAt = none) : b.status ≠ .completed := by
  intro hc
  have hsome := hb.completedAt_isSome.mpr hc
  have : (data.apply b).completedAt.isSome := by simpa [BookingData.apply, hcompleted] using hsome
  have := hdata.completedAt_isSome.mp this
  simp [BookingData.apply, hstatus] at this

/-- …and the other one keeps a cancelled booking from being completed. -/
theorem not_cancelled_of_complete {b : Booking} {data : BookingData} (hb : b.Checks)
    (hdata : (data.apply b).Checks) (hstatus : data.status = .completed)
    (hcancelled : data.cancelledAt = none) : b.status ≠ .cancelled := by
  intro hc
  have hsome := hb.cancelledAt_isSome.mpr hc
  have : (data.apply b).cancelledAt.isSome := by simpa [BookingData.apply, hcancelled] using hsome
  have := hdata.cancelledAt_isSome.mp this
  simp [BookingData.apply, hstatus] at this

theorem replay_cancellation {c : Cancellation} {refund : ℤ} {x : Reading}
    (h : code.replay (c.writes refund x) db = some db') :
    ∃ b, Cancelled db db' c refund x b := by
  simp only [Cancellation.writes, List.cons_append, List.nil_append, Code.replay_cons,
    Option.bind_eq_some_iff] at h
  obtain ⟨db₁, hbooking, db₂, hslot, h⟩ := h
  obtain ⟨⟨b, hb, hm⟩, hupd, hdb₁⟩ := exec_updateBooking hbooking
  obtain ⟨hslots, hdb₂⟩ := exec_updateSlot hslot
  have hmem := fun y => mem_updateBooking hb hm hupd (x := y)
  have hid : b.id = c.booking.id := of_decide_eq_true (Bool.and_eq_true _ _ ▸ hm).1
  have hguard : c.canceller.guard = some .confirmed → b.status = .confirmed := by
    intro hg
    simp only [matchesBooking, hg, Option.all_some, Bool.and_eq_true, decide_eq_true_eq] at hm
    exact hm.2
  have hnot : b.status ≠ .completed :=
    not_completed_of_cancel (checks_of_mem hb) (checks_of_mem ((hmem _).mpr (.inl rfl))) rfl rfl
  have hledger : db₂.ledger = db.ledger := by rw [hdb₂, hdb₁]
  have hbookings : db₂.bookings = db₁.bookings := by rw [hdb₂]
  have hslots' : db₁.slots = db.slots := by rw [hdb₁]
  rw [hslots'] at hslots
  have hids := Table.map_update (g := fun s : ResourceSlot => s.id) hslots fun _ => rfl
  refine ⟨b, ?_⟩
  split at h
  · next hpos =>
    rw [Code.replay_cons, Option.bind_eq_some_iff] at h
    obtain ⟨db₃, happend, h⟩ := h
    obtain rfl := Option.some.inj h
    obtain ⟨hins, hdb₃⟩ := exec_append happend
    have h₃ : db₃.bookings = db₁.bookings := by rw [hdb₃, hbookings]
    have h₃' : db₃.slots = db₂.slots := by rw [hdb₃]
    refine ⟨hb, hid, hguard, hnot, by rw [hdb₃, hdb₂, hdb₁], by rw [h₃]; exact hupd,
      by rw [h₃']; exact hslots, fun y => by rw [h₃]; exact hmem y,
      fun y hy => mem_updateSlot hslots (h₃' ▸ hy), by rw [h₃']; exact hids, ?_⟩
    rw [if_pos hpos]
    exact ⟨_, hledger ▸ hins⟩
  · next hpos =>
    obtain rfl := Option.some.inj h
    refine ⟨hb, hid, hguard, hnot, by rw [hdb₂, hdb₁], by rw [hbookings]; exact hupd, hslots,
      fun y => by rw [hbookings]; exact hmem y, fun y hy => mem_updateSlot hslots hy, hids, ?_⟩
    rw [if_neg hpos]
    exact hledger

/-- What the commit of a `completeBooking` does, to a booking that was `b`. -/
structure Completed (db db' : Database) (bookingId : Uuid) (now : Timestamp) (b : Booking) :
    Prop where
  mem : b ∈ db.bookings
  id : b.id = bookingId
  not_cancelled : b.status ≠ .cancelled
  directory : db'.directory = db.directory
  update : db.bookings.update (matchesBooking bookingId none)
      (BookingData.apply { status := .completed, completedAt := some now }) = some db'.bookings
  bookings : ∀ y, y ∈ db'.bookings ↔
    y = BookingData.apply { status := .completed, completedAt := some now } b
      ∨ (y ∈ db.bookings ∧ y.id ≠ bookingId)
  slots : db'.slots = db.slots
  ledger : db'.ledger = db.ledger

theorem replay_completion {bookingId : Uuid} {now : Timestamp}
    (h : code.replay (completionWrites bookingId now) db = some db') :
    ∃ b, Completed db db' bookingId now b := by
  rw [completionWrites, Code.replay_cons, Option.bind_eq_some_iff] at h
  obtain ⟨db₁, hupdate, h⟩ := h
  obtain rfl := Option.some.inj h
  obtain ⟨⟨b, hb, hm⟩, hupd, hdb₁⟩ := exec_updateBooking hupdate
  have hmem := fun y => mem_updateBooking hb hm hupd (x := y)
  refine ⟨b, hb, of_decide_eq_true (Bool.and_eq_true _ _ ▸ hm).1, ?_, by rw [hdb₁], hupd, hmem,
    by rw [hdb₁], by rw [hdb₁]⟩
  exact not_cancelled_of_complete (checks_of_mem hb) (checks_of_mem ((hmem _).mpr (.inl rfl)))
    rfl rfl

/-- **What a commit does**: it creates, cancels or completes one booking. -/
theorem commit_cases {p : Point} (hne : code.writes p ≠ [])
    (h : code.replay (code.writes p) db = some db') :
    (∃ resourceSlotId user attempt c, p = .createWriting resourceSlotId user attempt c
        ∧ Created db db' c)
      ∨ (∃ c refund x rest b, p = .cancelWriting c refund x rest ∧ Cancelled db db' c refund x b)
      ∨ ∃ bookingId now b, p = .completeWriting bookingId now ∧ Completed db db' bookingId now b := by
  cases p with
  | createWriting slotId user attempt c => exact .inl ⟨_, _, _, _, rfl, replay_creation h⟩
  | cancelWriting c refund x rest =>
    obtain ⟨b, hb⟩ := replay_cancellation h
    exact .inr (.inl ⟨_, _, _, _, _, rfl, hb⟩)
  | completeWriting id now =>
    obtain ⟨b, hb⟩ := replay_completion h
    exact .inr (.inr ⟨_, _, _, rfl, hb⟩)
  | create | createFailed | cancel | cancelAdministrator | cancelNext | complete
  | completeAdministrator | reevaluate | returned | failed => exact absurd rfl hne

/-! ## What a read does -/

/-- **The cases of a read.** -/
inductive Point.Next (db : Database) : Point → Point → Prop
  | created {resourceSlotId user attempt x c}
      (h : createWithinTransaction .none db x resourceSlotId user = .ok c) :
      Next db (.create resourceSlotId user attempt) (.createWriting resourceSlotId user attempt c)
  | retried {p resourceSlotId user attempt attempt'}
      (h : p = .create resourceSlotId user attempt ∨ p = .createFailed resourceSlotId user attempt) :
      Next db p (.create resourceSlotId user attempt')
  | failed {p error} (h : ∀ work, p ≠ .cancelNext work) : Next db p (.failed error)
  | finished : Next db (.cancelNext []) .returned
  | completedAlready {record administratorUserId} (h : record.booking.status = .completed) :
      Next db (.completeAdministrator record administratorUserId) .returned
  | cancelledByUser {bookingId actorUserId input now c}
      (h : cancelBooking db bookingId actorUserId input now = .ok (.inl c)) :
      Next db (.cancel bookingId actorUserId input) (.cancelNext [c])
  | cancelRead {bookingId actorUserId input now record}
      (h : cancelBooking db bookingId actorUserId input now = .ok (.inr record)) :
      Next db (.cancel bookingId actorUserId input)
        (.cancelAdministrator record actorUserId input now)
  | cancelledByAdministrator {record actorUserId input now c}
      (h : cancelBookingAsAdministrator db.directory record actorUserId input now = .ok c) :
      Next db (.cancelAdministrator record actorUserId input now) (.cancelNext [c])
  | deductionRead {c rest x} :
      Next db (.cancelNext (c :: rest))
        (.cancelWriting c (c.canceller.refund (c.deductedPoints db.ledger)) x rest)
  | completeRead {bookingId administratorUserId record}
      (h : findUnique db bookingId = some record) :
      Next db (.complete bookingId administratorUserId)
        (.completeAdministrator record administratorUserId)
  | completeAllowed {record administratorUserId now}
      (h : completeBooking db.directory record administratorUserId = .ok true) :
      Next db (.completeAdministrator record administratorUserId)
        (.completeWriting record.booking.id now)
  | listed {resourceId rootOrganizationId now work}
      (h : reevaluateBookings db rootOrganizationId resourceId now = .ok work) :
      Next db (.reevaluate resourceId rootOrganizationId) (.cancelNext work)

theorem next_afterFailure {p : Point} {resourceSlotId : Uuid} {user : AuthenticatedUser}
    {attempt : ℕ} (e : Thrown BookingError)
    (h : p = .create resourceSlotId user attempt ∨ p = .createFailed resourceSlotId user attempt) :
    p.Next db (afterFailure resourceSlotId user attempt e) := by
  unfold afterFailure
  split
  · refine .failed fun work => ?_
    rcases h with rfl | rfl <;> exact nofun
  · exact .retried h

theorem next_cases {p p' : Point} {i : Reading ⊕ Thrown BookingError}
    (h : p.next db i = some p') : p.Next db p' := by
  cases p with
  | create slotId user attempt =>
    cases i with
    | inr e => cases h
    | inl x =>
      obtain rfl := Option.some.inj h
      cases hc : createWithinTransaction .none db x slotId user with
      | error e => exact next_afterFailure e (.inl rfl)
      | ok c => exact .created hc
  | createFailed slotId user attempt =>
    cases i with
    | inl x => cases h
    | inr e =>
      obtain rfl := Option.some.inj h
      exact next_afterFailure e (.inr rfl)
  | cancel id actor input =>
    cases i with
    | inr e => cases h
    | inl x =>
      obtain rfl := Option.some.inj h
      cases hc : cancelBooking db id actor input x.now with
      | error e => exact .failed nofun
      | ok r =>
        cases r with
        | inl c => exact .cancelledByUser hc
        | inr record => exact .cancelRead hc
  | cancelAdministrator record actor input now =>
    cases i with
    | inr e => cases h
    | inl x =>
      obtain rfl := Option.some.inj h
      cases hc : cancelBookingAsAdministrator db.directory record actor input now with
      | error e => exact .failed nofun
      | ok c => exact .cancelledByAdministrator hc
  | cancelNext work =>
    cases i with
    | inr e => cases work <;> cases h
    | inl x =>
      cases work with
      | nil =>
        obtain rfl := Option.some.inj h
        exact .finished
      | cons c rest =>
        obtain rfl := Option.some.inj h
        exact .deductionRead
  | complete id admin =>
    cases i with
    | inr e => cases h
    | inl x =>
      obtain rfl := Option.some.inj h
      cases hc : findUnique db id with
      | none => exact .failed nofun
      | some record => exact .completeRead hc
  | completeAdministrator record admin =>
    cases i with
    | inr e => cases h
    | inl x =>
      obtain rfl := Option.some.inj h
      cases hc : completeBooking db.directory record admin with
      | error e => exact .failed nofun
      | ok update =>
        cases update with
        | false => exact .completedAlready (completeBooking_eq_false hc)
        | true => exact .completeAllowed hc
  | reevaluate resourceId rootOrganizationId =>
    cases i with
    | inr e => cases h
    | inl x =>
      obtain rfl := Option.some.inj h
      cases hc : reevaluateBookings db rootOrganizationId resourceId x.now with
      | error e => exact .failed nofun
      | ok work => exact .listed hc
  | createWriting | cancelWriting | completeWriting | returned | failed => cases i <;> cases h

end ResourceHive.Bookings
