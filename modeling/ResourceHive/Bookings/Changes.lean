import ResourceHive.Bookings.Rows

/-!
# Bookings/Changes — what is left alone by calls whose changes are known

A call confirms, cancels or completes bookings, and republishes or withdraws the slots of those it
cancels.  If the bookings it may do that to are known (`Change`), so is what it leaves alone
(`Within`): every selection of other bookings, with what is shown of their slots.
-/

namespace ResourceHive.Bookings

/-- A booking that a call may make or change: it is confirmed or not yet there, and is left in a
status. -/
structure Change where
  userId : Uuid
  resourceSlotId : Uuid
  rootOrganizationId : Uuid
  status : BookingStatus
  deriving DecidableEq, Repr

/-- A booking that is left in a status. -/
def Change.to (status : BookingStatus) (b : Booking) : Change :=
  ⟨b.userId, b.resourceSlotId, b.rootOrganizationId, status⟩

/-- A booking that a change is of, before it or after it. -/
def Change.Of (c : Change) (b : Booking) : Prop :=
  b.userId = c.userId ∧ b.resourceSlotId = c.resourceSlotId
    ∧ b.rootOrganizationId = c.rootOrganizationId ∧ (b.status = .confirmed ∨ b.status = c.status)

/-- **From one database to another, nothing but these changes.** -/
structure Within (changes : List Change) (db db' : Database) : Prop where
  directory : db'.directory = db.directory
  bookings : ∀ q : Booking → Bool, (∀ b, ∀ c ∈ changes, c.Of b → q b = false) →
    db'.bookings.rows.filter q = db.bookings.rows.filter q
  persists : db.Persists db'
  slots : ∀ id, ((db'.slot? id).map fun s => (s.startsAt, s.endsAt, s.resourceId))
    = (db.slot? id).map fun s => (s.startsAt, s.endsAt, s.resourceId)
  slotStatus : ∀ id, db'.slot? id = db.slot? id
    ∨ ∃ c ∈ changes, c.status = .cancelled ∧ c.resourceSlotId = id

variable {changes : List Change} {db₀ db db' : Database}

theorem Within.refl : Within changes db db :=
  ⟨rfl, fun _ _ => rfl, fun _ hb => Database.knows_of_mem hb, fun _ => rfl, fun _ => .inl rfl⟩

theorem Within.created {c : Creation} (h : Within changes db₀ db) (hc : Created db db' c)
    (hconfirmed : c.booking.status = .confirmed) (hmem : Change.to .confirmed c.booking ∈ changes) :
    Within changes db₀ db' where
  directory := hc.directory.trans h.directory
  bookings q hq := (Table.filter_insert hc.bookings
    (hq _ _ hmem ⟨rfl, rfl, rfl, .inl hconfirmed⟩)).trans (h.bookings q hq)
  persists b hb := hc.persists.knows (h.persists b hb)
  slots id := by rw [Database.slot?, hc.slots]; exact h.slots id
  slotStatus id := by rw [Database.slot?, hc.slots]; exact h.slotStatus id

/-- The rows of an update of a booking are those of its change. -/
theorem filter_updateBooking {q : Booking → Bool} {b : Booking} {status : Option BookingStatus}
    {data : BookingData} (hq : ∀ b, ∀ c ∈ changes, c.Of b → q b = false) (hb : db.Knows b)
    (hmem : Change.to data.status b ∈ changes)
    (hstatus : ∀ r ∈ db.bookings, r.id = b.id → r.status = .confirmed ∨ r.status = data.status)
    (h : db.bookings.update (matchesBooking b.id status) data.apply = some db'.bookings) :
    db'.bookings.rows.filter q = db.bookings.rows.filter q := by
  refine Table.filter_update h fun r hr hm => ?_
  have hid : r.id = b.id := of_decide_eq_true (Bool.and_eq_true _ _ ▸ hm).1
  obtain ⟨-, hslot, huser, hroot⟩ := Booking.identity_eq (hb.identity_eq hr hid)
  exact ⟨hq r _ hmem ⟨huser, hslot, hroot, hstatus r hr hid⟩,
    hq _ _ hmem ⟨huser, hslot, hroot, .inr rfl⟩⟩

/-- The slots after an update of one of them. -/
theorem slot?_updateSlot {slotId : Uuid} {status : SlotStatus} {withdrawnAt : Option Timestamp}
    (h : db.slots.update (·.id = slotId) (fun s => { s with status, withdrawnAt }) = some db'.slots)
    (id : Uuid) : db'.slot? id = (db.slot? id).map fun s =>
      if s.id = slotId then { s with status, withdrawnAt } else s := by
  have hfind := Table.find?_update (k := fun s : ResourceSlot => decide (s.id = id)) h fun _ => rfl
  simp only [decide_eq_true_eq] at hfind
  exact hfind

theorem Within.cancelled {c : Cancellation} {refund : ℤ} {x : Reading} {b : Booking}
    (h : Within changes db₀ db) (hc : Cancelled db db' c refund x b)
    (hmem : c.booking ∈ db₀.bookings) (hchange : Change.to .cancelled c.booking ∈ changes) :
    Within changes db₀ db' where
  directory := hc.directory.trans h.directory
  bookings q hq := by
    refine (filter_updateBooking hq (h.persists _ hmem) hchange ?_ hc.update).trans (h.bookings q hq)
    intro r hr hid
    -- no CHECK lets the booking be completed, so it is confirmed, or was cancelled before
    obtain rfl := booking_eq hr hc.mem (hid.trans hc.id.symm)
    cases hstatus : r.status with
    | confirmed => exact .inl rfl
    | cancelled => exact .inr rfl
    | completed => exact absurd hstatus hc.not_completed
  persists b hb := hc.persists.knows (h.persists b hb)
  slots id := by
    rw [slot?_updateSlot hc.slotUpdate, Option.map_map, ← h.slots id]
    refine congrArg (fun f => (db.slot? id).map f) (funext fun s => ?_)
    by_cases hs : s.id = c.booking.resourceSlotId <;> simp [hs]
  slotStatus id := by
    by_cases hid : id = c.booking.resourceSlotId
    · exact .inr ⟨_, hchange, rfl, hid.symm⟩
    · have hsame : db'.slot? id = db.slot? id := by
        rw [slot?_updateSlot hc.slotUpdate]
        cases hslot : db.slot? id with
        | none => rfl
        | some s => rw [Option.map_some, if_neg ((mem_of_slot? hslot).2 ▸ hid)]
      rw [hsame]
      exact h.slotStatus id

theorem Within.completed {bookingId : Uuid} {now : Timestamp} {b b₀ : Booking}
    (h : Within changes db₀ db) (hc : Completed db db' bookingId now b) (hmem : b₀ ∈ db₀.bookings)
    (hid : b₀.id = bookingId) (hchange : Change.to .completed b₀ ∈ changes) :
    Within changes db₀ db' where
  directory := hc.directory.trans h.directory
  bookings q hq := by
    subst hid
    refine (filter_updateBooking hq (h.persists _ hmem) hchange ?_ hc.update).trans (h.bookings q hq)
    intro r hr hid
    obtain rfl := booking_eq hr hc.mem (hid.trans hc.id.symm)
    cases hstatus : r.status with
    | confirmed => exact .inl rfl
    | completed => exact .inr rfl
    | cancelled => exact absurd hstatus hc.not_cancelled
  persists b hb := hc.persists.knows (h.persists b hb)
  slots id := by rw [Database.slot?, hc.slots]; exact h.slots id
  slotStatus id := by rw [Database.slot?, hc.slots]; exact h.slotStatus id

/-! ## What is shown of a booking -/

/-- What is shown of a record, if it is not the slot's status. -/
theorem Within.record?_map {α : Type} {f : BookingRecord → α} (h : Within changes db db')
    (hf : ∀ b s s' resource, (s.startsAt, s.endsAt, s.resourceId)
      = (s'.startsAt, s'.endsAt, s'.resourceId) → f ⟨b, s, resource⟩ = f ⟨b, s', resource⟩)
    (b : Booking) : (record? db' b).map f = (record? db b).map f := by
  have hslots := h.slots b.resourceSlotId
  unfold record?
  cases hs' : db'.slot? b.resourceSlotId with
  | none =>
    rw [hs'] at hslots
    rw [Option.map_eq_none_iff.mp hslots.symm]
    rfl
  | some s' =>
    rw [hs', Option.map_some] at hslots
    obtain ⟨s, hs, heq⟩ := Option.map_eq_some_iff.mp hslots.symm
    have hresource : s'.resourceId = s.resourceId := congrArg (·.2.2) heq.symm
    rw [hs, Option.bind_some, Option.bind_some, h.directory, hresource, Option.map_map,
      Option.map_map]
    exact congrArg (fun g => Option.map g _) (funext fun resource => hf b s' s resource heq.symm)

/-- A booking of a change is listed under a status that the change is of. -/
theorem Change.Of.listed {c : Change} {b : Booking} (h : c.Of b) {status : Option BookingStatus}
    (hb : status.all (b.status = ·)) :
    status.all fun s => s = .confirmed || s = c.status := by
  cases status with
  | none => rfl
  | some s =>
    simp only [Option.all_some, decide_eq_true_eq, Bool.or_eq_true] at hb ⊢
    exact hb ▸ h.2.2.2

end ResourceHive.Bookings
