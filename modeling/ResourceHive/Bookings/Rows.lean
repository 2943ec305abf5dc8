import ResourceHive.Bookings.System

/-!
# Bookings/Rows — the booking a call has read is still there

A call works with copies of rows it has read earlier.  Bookings are never deleted, and no update
touches a booking's id, slot, user or university, and so those four columns of a copy stay true of
the row (`Database.Knows`), whatever commits in between.  The copies a call holds are `Point.copies`;
`knows_next` and `knows_replay` are what each outline over the machine uses.
-/

namespace ResourceHive.Bookings

/-- The columns no update touches. -/
def Booking.identity (b : Booking) : Uuid × Uuid × Uuid × Uuid :=
  (b.id, b.resourceSlotId, b.userId, b.rootOrganizationId)

theorem Booking.identity_eq {b b' : Booking} (h : b.identity = b'.identity) :
    b.id = b'.id ∧ b.resourceSlotId = b'.resourceSlotId ∧ b.userId = b'.userId
      ∧ b.rootOrganizationId = b'.rootOrganizationId := by
  simpa [identity] using h

@[simp] theorem BookingData.identity_apply (data : BookingData) (b : Booking) :
    (data.apply b).identity = b.identity := rfl

@[simp] theorem BookingData.status_apply (data : BookingData) (b : Booking) :
    (data.apply b).status = data.status := rfl

@[simp] theorem BookingData.id_apply (data : BookingData) (b : Booking) :
    (data.apply b).id = b.id := rfl

@[simp] theorem BookingData.resourceSlotId_apply (data : BookingData) (b : Booking) :
    (data.apply b).resourceSlotId = b.resourceSlotId := rfl

@[simp] theorem BookingData.userId_apply (data : BookingData) (b : Booking) :
    (data.apply b).userId = b.userId := rfl

/-- A copy's row is there. -/
def Database.Knows (db : Database) (b : Booking) : Prop :=
  ∃ b' ∈ db.bookings, b'.identity = b.identity

/-- The copies of bookings a call holds for its writes. -/
def Point.copies : Point → List Booking
  | .cancelAdministrator record _ _ _ | .completeAdministrator record _ => [record.booking]
  | .cancelNext work => work.map (·.booking)
  | .cancelWriting c _ _ rest => c.booking :: rest.map (·.booking)
  | _ => []

/-- Every row of one database is a row of another, up to what updates touch. -/
def Database.Persists (db db' : Database) : Prop := ∀ b ∈ db.bookings, db'.Knows b

variable {db db' : Database}

theorem Database.knows_of_mem {b : Booking} (h : b ∈ db.bookings) : db.Knows b := ⟨b, h, rfl⟩

theorem Database.Persists.knows (h : db.Persists db') {b : Booking} (hb : db.Knows b) :
    db'.Knows b := by
  obtain ⟨b', hb', heq⟩ := hb
  obtain ⟨b'', hb'', heq'⟩ := h b' hb'
  exact ⟨b'', hb'', heq'.trans heq⟩

/-- The row with a copy's id is the copy's row. -/
theorem Database.Knows.identity_eq {b b' : Booking} (h : db.Knows b) (hb' : b' ∈ db.bookings)
    (hid : b'.id = b.id) : b'.identity = b.identity := by
  obtain ⟨b'', hb'', heq⟩ := h
  have : b' = b'' := booking_eq hb' hb'' (hid.trans (Booking.identity_eq heq).1.symm)
  rw [this, heq]

/-! ## Commits -/

theorem Created.persists {c : Creation} (h : Created db db' c) : db.Persists db' :=
  fun _ hb => Database.knows_of_mem ((Table.mem_insert h.bookings).mpr (.inl hb))

/-- Rows persist through an update of one of them. -/
private theorem persists_of_update {id : Uuid} {data : BookingData} {b : Booking}
    (hb : b ∈ db.bookings) (hid : b.id = id)
    (h : ∀ y, y ∈ db'.bookings ↔ y = data.apply b ∨ (y ∈ db.bookings ∧ y.id ≠ id)) :
    db.Persists db' := by
  intro y hy
  by_cases hyid : y.id = id
  · obtain rfl := booking_eq hy hb (hyid.trans hid.symm)
    exact ⟨data.apply y, (h _).mpr (.inl rfl), rfl⟩
  · exact Database.knows_of_mem ((h y).mpr (.inr ⟨hy, hyid⟩))

theorem Cancelled.persists {c : Cancellation} {refund : ℤ} {x : Reading} {b : Booking}
    (h : Cancelled db db' c refund x b) : db.Persists db' :=
  persists_of_update h.mem h.id h.bookings

theorem Completed.persists {bookingId : Uuid} {now : Timestamp} {b : Booking}
    (h : Completed db db' bookingId now b) : db.Persists db' :=
  persists_of_update h.mem h.id h.bookings

theorem persists_commit {p : Point} (hne : code.writes p ≠ [])
    (h : code.replay (code.writes p) db = some db') : db.Persists db' := by
  rcases commit_cases hne h with ⟨_, _, _, _, -, h⟩ | ⟨_, _, _, _, _, -, h⟩ | ⟨_, _, _, -, h⟩
  · exact h.persists
  · exact h.persists
  · exact h.persists

/-- A change from outside keeps the bookings. -/
theorem outside_bookings {x : Outside} (h : code.outside x db = some db') :
    db'.bookings = db.bookings := by
  cases x with
  | directory d =>
    obtain rfl := Option.some.inj h
    rfl
  | publish slot =>
    simp only [code, Option.ite_none_right_eq_some, Option.map_eq_some_iff] at h
    obtain ⟨-, _, -, rfl⟩ := h
    rfl
  | credit e =>
    simp only [code, Option.ite_none_right_eq_some, Option.map_eq_some_iff] at h
    obtain ⟨-, _, -, rfl⟩ := h
    rfl

theorem persists_outside {x : Outside} (h : code.outside x db = some db') : db.Persists db' := by
  intro b hb
  exact Database.knows_of_mem (outside_bookings h ▸ hb)

/-! ## The copies of a call -/

/-- The rows of all the copies a point holds are there. -/
def Database.KnowsAll (db : Database) (p : Point) : Prop := ∀ b ∈ p.copies, db.Knows b

theorem Database.Persists.knowsAll (h : db.Persists db') {p : Point} (hp : db.KnowsAll p) :
    db'.KnowsAll p := fun b hb => h.knows (hp b hb)

theorem knowsAll_entry {p : Point} (h : code.entry p = true) : db.KnowsAll p := by
  cases p with
  | create | cancel | complete | reevaluate => exact fun _ hb => by cases hb
  | createWriting | createFailed | cancelAdministrator | cancelNext | cancelWriting
  | completeAdministrator | completeWriting | returned | failed => cases h

theorem knowsAll_next {p p' : Point} (h : p.Next db p') (hp : db.KnowsAll p) : db.KnowsAll p' := by
  cases h with
  | created | retried | failed | finished | completedAlready | completeAllowed =>
    exact fun _ hb => by cases hb
  | cancelledByUser h =>
    intro b hb
    obtain rfl := List.mem_singleton.mp hb
    exact Database.knows_of_mem (cancelBooking_eq_inl h).1
  | cancelRead h =>
    intro b hb
    obtain rfl := List.mem_singleton.mp hb
    exact Database.knows_of_mem (cancelBooking_eq_inr h).1
  | cancelledByAdministrator h =>
    intro b hb
    obtain rfl := List.mem_singleton.mp hb
    simp only [(cancelBookingAsAdministrator_eq_ok h).1]
    exact hp _ (List.mem_singleton.mpr rfl)
  | deductionRead => exact hp
  | completeRead h =>
    intro b hb
    obtain rfl := List.mem_singleton.mp hb
    exact Database.knows_of_mem (findUnique_eq_some h).1
  | listed h =>
    intro b hb
    obtain ⟨c, hc, rfl⟩ := List.mem_map.mp hb
    exact Database.knows_of_mem (mem_reevaluateBookings h hc).1

theorem knowsAll_rolledBack {p : Point} (hp : db.KnowsAll p) : db.KnowsAll (code.rolledBack p) := by
  cases p <;> exact fun _ hb => by cases hb

theorem knowsAll_committed {p : Point} (hp : db.KnowsAll p) : db.KnowsAll (code.committed p) := by
  cases p with
  | cancelWriting c refund x rest => exact fun b hb => hp b (List.mem_cons_of_mem _ hb)
  | createWriting | completeWriting => exact fun _ hb => by cases hb
  | create | createFailed | cancel | cancelAdministrator | cancelNext | complete
  | completeAdministrator | reevaluate | returned | failed => exact hp

end ResourceHive.Bookings
