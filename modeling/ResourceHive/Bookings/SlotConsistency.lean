import ResourceHive.Bookings.Rows

/-!
# Bookings/SlotConsistency — a slot and its active booking

A slot carries at most one active booking: that is `bookings_active_slot_unique`, and holds of every
database there is.  That a confirmed booking's slot is published is a matter of the calls.  It fails
(`slot_consistency_fails`): `reevaluateBookings` works from a list and updates booking and slot by
id, and so it may withdraw the slot of a booking that was cancelled meanwhile and booked again.  It
holds as long as no such transaction commits (`slot_consistency`).

The interesting case is a `createBooking` in flight, which has read the slot as published.  Whatever
withdraws the slot in between has cancelled a booking that the snapshot does not hold, and the
insert is then refused by the serializable transaction's own read (`Pending`).
-/

namespace ResourceHive.Bookings

/-- **Slots and bookings agree**: one active booking a slot, and a confirmed one on a published
slot. -/
structure Consistent (db : Database) : Prop where
  unique : ∀ b ∈ db.bookings, ∀ b' ∈ db.bookings, b.active → b'.active →
    b.resourceSlotId = b'.resourceSlotId → b = b'
  published : ∀ b ∈ db.bookings, b.status = .confirmed →
    ∃ slot ∈ db.slots, slot.id = b.resourceSlotId ∧ slot.status = .published

/-! ## The branch that goes wrong -/

/-- A `createBooking` in flight for a slot, whose snapshot still holds all of the slot's bookings. -/
def createsOn (db : Database) (slotId : Uuid) : Point → Bool
  | .createWriting _ _ _ c => decide (c.booking.resourceSlotId = slotId
      ∧ ∀ b ∈ db.bookingsOf slotId, b.id ∈ c.read)
  | _ => false

/-- A reevaluation is about to cancel a booking that is cancelled already, and so to withdraw a slot
that carries a confirmed booking, or is about to. -/
def withdrawsStale (s : State) : Point → Bool
  | .cancelWriting c _ _ _ =>
    decide (c.canceller = .reevaluation)
      && s.db.bookings.rows.any (fun b => b.id = c.booking.id ∧ b.status = .cancelled)
      && ((s.db.bookingsOf c.booking.resourceSlotId).any (·.status = .confirmed)
        || s.calls.any fun d => createsOn s.db c.booking.resourceSlotId d.pc)
  | _ => false

/-- The steps that are not the commit of such a reevaluation. -/
def noStaleWithdrawal (s : State) : Label Point (Reading ⊕ Thrown BookingError) Outside → Bool
  | .commit i => !(s.calls[i]?.any fun c => withdrawsStale s c.pc)
  | _ => true

/-! ## The invariant -/

/-- Every booking's slot is there, published if the booking is confirmed. -/
def Placed (db : Database) : Prop :=
  ∀ b ∈ db.bookings, ∃ slot ∈ db.slots, slot.id = b.resourceSlotId
    ∧ (b.status = .confirmed → slot.status = .published)

/-- **What a `createBooking` in flight knows**: the bookings it has read are cancelled, and its slot
is still published, unless the slot has a booking that it has not read. -/
structure Pending (db : Database) (c : Creation) : Prop where
  confirmed : c.booking.status = .confirmed
  read : ∀ id ∈ c.read, ∃ b ∈ db.bookings, b.id = id ∧ b.status = .cancelled
  slot : (∃ slot ∈ db.slots, slot.id = c.booking.resourceSlotId ∧ slot.status = .published)
    ∨ ∃ b ∈ db.bookings, b.resourceSlotId = c.booking.resourceSlotId ∧ b.id ∉ c.read

/-- …at each point. -/
def PendingAt (db : Database) : Point → Prop
  | .createWriting _ _ _ c => Pending db c
  | _ => True

variable {db db' : Database}

/-- The slot with an id is the only one. -/
theorem slot_eq {s s' : ResourceSlot} (hs : s ∈ db.slots) (hs' : s' ∈ db.slots) (h : s.id = s'.id) :
    s = s' :=
  db.slots.valid.1.eq hs hs' h

theorem pending_of_created {x : Reading} {slotId : Uuid} {user : AuthenticatedUser} {c : Creation}
    {faults : Faults} (h : createWithinTransaction faults db x slotId user = .ok c) :
    Pending db c := by
  obtain ⟨context, hval, rfl⟩ := creation_of_ok h
  obtain ⟨slot, hslot, hid, hpub, -⟩ := hval.published
  refine ⟨rfl, fun id hid => ?_, .inl ⟨slot, hslot, hid.trans hval.slotId.symm, hpub⟩⟩
  obtain ⟨b, hb, rfl⟩ := List.mem_map.mp hid
  obtain ⟨hmem, hbslot⟩ := List.mem_filter.mp hb
  exact ⟨b, hmem, rfl, hval.free b hmem ((of_decide_eq_true hbslot).trans hval.slotId)⟩

/-- What an in-flight creation knows survives a change that keeps cancelled bookings cancelled and,
on its slot, either the slot's status or a booking that was not read. -/
theorem Pending.mono {c : Creation} (h : Pending db c) (hpersists : db.Persists db')
    (hcancelled : ∀ b ∈ db.bookings, b.status = .cancelled →
      ∃ b' ∈ db'.bookings, b'.id = b.id ∧ b'.status = .cancelled)
    (hslot : (∃ slot ∈ db.slots, slot.id = c.booking.resourceSlotId ∧ slot.status = .published) →
      (∃ slot ∈ db'.slots, slot.id = c.booking.resourceSlotId ∧ slot.status = .published)
        ∨ ∃ b ∈ db.bookings, b.resourceSlotId = c.booking.resourceSlotId ∧ b.id ∉ c.read) :
    Pending db' c := by
  have hunread : (∃ b ∈ db.bookings, b.resourceSlotId = c.booking.resourceSlotId ∧ b.id ∉ c.read) →
      ∃ b ∈ db'.bookings, b.resourceSlotId = c.booking.resourceSlotId ∧ b.id ∉ c.read := by
    rintro ⟨b, hb, hbslot, hread⟩
    obtain ⟨b', hb', heq⟩ := hpersists b hb
    have := Booking.identity_eq heq
    exact ⟨b', hb', this.2.1.trans hbslot, this.1 ▸ hread⟩
  refine ⟨h.confirmed, fun id hid => ?_, ?_⟩
  · obtain ⟨b, hb, rfl, hs⟩ := h.read id hid
    exact hcancelled b hb hs
  · rcases h.slot with hpub | hb
    · exact (hslot hpub).imp_right hunread
    · exact .inr (hunread hb)

theorem pendingAt_entry {p : Point} (h : code.entry p = true) : PendingAt db p := by
  cases p <;> first | exact trivial | cases h

theorem pendingAt_next {p p' : Point} (h : p.Next db p') : PendingAt db p' := by
  cases h with
  | created hc => exact pending_of_created hc
  | retried | failed | finished | completedAlready | cancelledByUser | cancelRead
  | cancelledByAdministrator | deductionRead | completeRead | completeAllowed | listed => exact trivial

/-! ## Commits -/

/-- **A creation that commits finds its slot published.** -/
theorem placed_created {c : Creation} (h : Placed db) (hc : Pending db c)
    (hcreated : Created db db' c) : Placed db' := by
  intro b hb
  rw [hcreated.slots]
  rcases (Table.mem_insert hcreated.bookings).mp hb with hb | rfl
  · exact h b hb
  · rcases hc.slot with ⟨slot, hslot, hid, hpub⟩ | ⟨b', hb', hslot, hread⟩
    · exact ⟨slot, hslot, hid, fun _ => hpub⟩
    · exact absurd (hcreated.read b' hb' hslot) hread

theorem pending_created {c d : Creation} (hd : Pending db d) (hcreated : Created db db' c) :
    Pending db' d := by
  refine hd.mono hcreated.persists (fun b hb hs => ⟨b, ?_, rfl, hs⟩) fun hpub => .inl ?_
  · exact (Table.mem_insert hcreated.bookings).mpr (.inl hb)
  · rw [hcreated.slots]
    exact hpub

/-- The slot a cancellation has updated. -/
theorem Cancelled.exists_slot {c : Cancellation} {refund : ℤ} {x : Reading} {b : Booking}
    (h : Cancelled db db' c refund x b) {slot : ResourceSlot} (hslot : slot ∈ db.slots) :
    ∃ slot' ∈ db'.slots, slot'.id = slot.id := by
  have : slot.id ∈ db'.slots.rows.map (·.id) := h.slot_ids ▸ List.mem_map_of_mem hslot
  obtain ⟨slot', hslot', heq⟩ := List.mem_map.mp this
  exact ⟨slot', hslot', heq⟩

/-- A slot other than the cancelled booking's is left as it was. -/
theorem Cancelled.slot_of_ne {c : Cancellation} {refund : ℤ} {x : Reading} {b : Booking}
    (h : Cancelled db db' c refund x b) {slot : ResourceSlot} (hslot : slot ∈ db.slots)
    (hne : slot.id ≠ c.booking.resourceSlotId) : slot ∈ db'.slots := by
  obtain ⟨slot', hslot', heq⟩ := h.exists_slot hslot
  rcases h.slots slot' hslot' with ⟨hid, -⟩ | ⟨-, hmem⟩
  · exact absurd (heq.symm.trans hid) hne
  · rwa [slot_eq hmem hslot heq] at hslot'

/-- **A cancellation withdraws the slot of no confirmed booking**: the one it cancels was the slot's
only active booking, or the slot has none. -/
theorem placed_cancelled {c : Cancellation} {refund : ℤ} {x : Reading} {b : Booking}
    (h : Placed db) (hknow : db.Knows c.booking) (hcancelled : Cancelled db db' c refund x b)
    (hfree : b.status = .cancelled → ∀ y ∈ db.bookings,
      y.resourceSlotId = c.booking.resourceSlotId → y.status ≠ .confirmed) : Placed db' := by
  have hbslot := (Booking.identity_eq (hknow.identity_eq hcancelled.mem hcancelled.id)).2.1
  intro y hy
  rcases (hcancelled.bookings y).mp hy with rfl | ⟨hy, hne⟩
  · obtain ⟨slot, hslot, hid, -⟩ := h b hcancelled.mem
    obtain ⟨slot', hslot', hid'⟩ := hcancelled.exists_slot hslot
    exact ⟨slot', hslot', hid'.trans hid, fun hs => by cases hs⟩
  · obtain ⟨slot, hslot, hid, hpub⟩ := h y hy
    by_cases hyslot : y.resourceSlotId = c.booking.resourceSlotId
    · obtain ⟨slot', hslot', hid'⟩ := hcancelled.exists_slot hslot
      refine ⟨slot', hslot', hid'.trans hid, fun hs => ?_⟩
      by_cases hb : b.status = .cancelled
      · exact absurd hs (hfree hb y hy hyslot)
      · have hbs : b.status = .confirmed := by
          have := hcancelled.not_completed
          cases hstatus : b.status <;> simp_all
        have : y = b := db.bookings.valid.2.2.eq hy (by simp [Booking.active, hs]) hcancelled.mem
          (by simp [Booking.active, hbs]) (hyslot.trans hbslot.symm)
        exact absurd (this ▸ hcancelled.id) hne
    · exact ⟨slot, hcancelled.slot_of_ne hslot (hid ▸ hyslot), hid, hpub⟩

/-- A creation in flight outlives a cancellation on its slot: what was cancelled is a booking that it
has not read. -/
theorem pending_cancelled {c : Cancellation} {refund : ℤ} {x : Reading} {b : Booking} {d : Creation}
    (hd : Pending db d) (hknow : db.Knows c.booking) (hcancelled : Cancelled db db' c refund x b)
    (hfree : b.status = .cancelled → d.booking.resourceSlotId = c.booking.resourceSlotId →
      ∃ y ∈ db.bookings, y.resourceSlotId = d.booking.resourceSlotId ∧ y.id ∉ d.read) :
    Pending db' d := by
  have hbslot := (Booking.identity_eq (hknow.identity_eq hcancelled.mem hcancelled.id)).2.1
  refine hd.mono hcancelled.persists (fun y hy hs => ?_) fun hpub => ?_
  · by_cases hyid : y.id = c.booking.id
    · exact ⟨_, (hcancelled.bookings _).mpr (.inl rfl), hcancelled.id.trans hyid.symm, rfl⟩
    · exact ⟨y, (hcancelled.bookings y).mpr (.inr ⟨hy, hyid⟩), rfl, hs⟩
  · obtain ⟨slot, hslot, hid, hs⟩ := hpub
    by_cases hdslot : d.booking.resourceSlotId = c.booking.resourceSlotId
    · right
      by_cases hb : b.status = .cancelled
      · exact hfree hb hdslot
      · refine ⟨b, hcancelled.mem, hbslot.trans hdslot.symm, fun hread => hb ?_⟩
        obtain ⟨b', hb', hbid, hbs⟩ := hd.read _ hread
        rwa [booking_eq hb' hcancelled.mem hbid] at hbs
    · exact .inl ⟨slot, hcancelled.slot_of_ne hslot (hid ▸ hdslot), hid, hs⟩

theorem placed_completed {bookingId : Uuid} {now : Timestamp} {b : Booking} (h : Placed db)
    (hcompleted : Completed db db' bookingId now b) : Placed db' := by
  intro y hy
  rw [hcompleted.slots]
  rcases (hcompleted.bookings y).mp hy with rfl | ⟨hy, -⟩
  · obtain ⟨slot, hslot, hid, -⟩ := h b hcompleted.mem
    exact ⟨slot, hslot, hid, fun hs => by cases hs⟩
  · exact h y hy

theorem pending_completed {bookingId : Uuid} {now : Timestamp} {b : Booking} {d : Creation}
    (hd : Pending db d) (hcompleted : Completed db db' bookingId now b) : Pending db' d := by
  refine hd.mono hcompleted.persists (fun y hy hs => ?_) fun hpub => .inl ?_
  · by_cases hyid : y.id = bookingId
    · obtain rfl := booking_eq hy hcompleted.mem (hyid.trans hcompleted.id.symm)
      exact absurd hs hcompleted.not_cancelled
    · exact ⟨y, (hcompleted.bookings y).mpr (.inr ⟨hy, hyid⟩), rfl, hs⟩
  · rw [hcompleted.slots]
    exact hpub

/-- A change from outside adds slots at most. -/
theorem outside_slots {x : Outside} (h : code.outside x db = some db') {slot : ResourceSlot}
    (hslot : slot ∈ db.slots) : slot ∈ db'.slots := by
  cases x with
  | directory d =>
    obtain rfl := Option.some.inj h
    exact hslot
  | publish new =>
    simp only [code, Option.ite_none_right_eq_some, Option.map_eq_some_iff] at h
    obtain ⟨-, slots, hins, rfl⟩ := h
    exact (Table.mem_insert hins).mpr (.inl hslot)
  | credit e =>
    simp only [code, Option.ite_none_right_eq_some, Option.map_eq_some_iff] at h
    obtain ⟨-, _, -, rfl⟩ := h
    exact hslot

/-! ## The outline -/

/-- What the condition says at the commit of a cancellation. -/
theorem free_of_noStaleWithdrawal {s : State} {i : ℕ} {session : Session Point} {c : Cancellation}
    {refund : ℤ} {x : Reading} {rest : List Cancellation} {b : Booking}
    (hok : noStaleWithdrawal s (.commit i) = true) (hc : s.calls[i]? = some session)
    (hpc : session.pc = .cancelWriting c refund x rest) (hcan : Cancelled s.db db' c refund x b)
    (hb : b.status = .cancelled) :
    (∀ y ∈ s.db.bookings, y.resourceSlotId = c.booking.resourceSlotId → y.status ≠ .confirmed)
      ∧ ∀ d ∈ s.calls, createsOn s.db c.booking.resourceSlotId d.pc = false := by
  have hre : c.canceller = .reevaluation := by
    have hguarded := hcan.guarded
    cases hcanc : c.canceller with
    | reevaluation => rfl
    | user | administrator =>
      rw [hcanc] at hguarded
      rw [hguarded rfl] at hb
      cases hb
  have hrow : s.db.bookings.rows.any (fun b => b.id = c.booking.id ∧ b.status = .cancelled) :=
    List.any_eq_true.mpr ⟨b, hcan.mem, by simp [hcan.id, hb]⟩
  have hstale : withdrawsStale s (.cancelWriting c refund x rest) = false := by
    simpa [noStaleWithdrawal, hc, hpc] using hok
  simp only [withdrawsStale, hre, hrow, decide_true, Bool.true_and, Bool.or_eq_false_iff,
    List.any_eq_false] at hstale
  refine ⟨fun y hy hslot hconf => hstale.1 y ?_ (by simpa using hconf), fun d hd => ?_⟩
  · exact List.mem_filter.mpr ⟨hy, by simpa using hslot⟩
  · simpa using hstale.2 d hd

/-- What another call's commit leaves of a creation in flight. -/
theorem pendingAt_commit {s : State} {i j : ℕ} {c d : Session Point}
    (hok : noStaleWithdrawal s (.commit i) = true) (hc : s.calls[i]? = some c)
    (hknow : s.db.KnowsAll c.pc) (hne : code.writes c.pc ≠ [])
    (hrep : code.replay (code.writes c.pc) s.db = some db') (hd : s.calls[j]? = some d)
    (hpending : PendingAt s.db d.pc) : PendingAt db' d.pc := by
  cases hdpc : d.pc with
  | createWriting slotId user attempt e =>
    rw [hdpc] at hpending
    rcases commit_cases hne hrep with
      ⟨_, _, _, c', -, hcreated⟩ | ⟨c', refund, x, rest, b, hpc, hcan⟩ | ⟨id, now, b, -, hcomp⟩
    · exact pending_created hpending hcreated
    · refine pending_cancelled hpending (hknow _ (by rw [hpc]; simp [Point.copies])) hcan
        fun hb hslot => ?_
      have hnone := (free_of_noStaleWithdrawal hok hc hpc hcan hb).2 d (List.mem_of_getElem? hd)
      rw [hdpc] at hnone
      simp only [createsOn, hslot, true_and, decide_eq_false_iff_not, not_forall] at hnone
      obtain ⟨y, hy, hread⟩ := hnone
      obtain ⟨hmem, hyslot⟩ := List.mem_filter.mp hy
      exact ⟨y, hmem, (of_decide_eq_true hyslot).trans hslot.symm, hread⟩
    · exact pending_completed hpending hcomp
  | create | createFailed | cancel | cancelAdministrator | cancelNext | cancelWriting | complete
  | completeAdministrator | completeWriting | reevaluate | returned | failed => exact trivial

/-- Slot consistency, as an outline of the runs in which no stale withdrawal commits. -/
def slotOutline : code.Outline fun s l => noStaleWithdrawal s l = true where
  Inv db _ := Placed db
  At db _ p := db.KnowsAll p ∧ PendingAt db p
  entry _ hp := ⟨knowsAll_entry hp, pendingAt_entry hp⟩
  read _ hat hread :=
    ⟨knowsAll_next (next_cases hread) hat.1, pendingAt_next (next_cases hread)⟩
  rolledBack {db _ p} _ hat := by
    refine ⟨knowsAll_rolledBack hat.1, ?_⟩
    cases p <;> exact trivial
  commit {s i c db} hok hinv hat hc hne hrep := by
    have hpersists := persists_commit hne hrep
    refine ⟨?_, ⟨knowsAll_committed (hpersists.knowsAll hat.1), ?_⟩, fun j d _ hd hd' =>
      ⟨hpersists.knowsAll hd'.1, pendingAt_commit hok hc hat.1 hne hrep hd hd'.2⟩⟩
    · rcases commit_cases hne hrep with
        ⟨_, _, _, c', hpc, hcreated⟩ | ⟨c', refund, x, rest, b, hpc, hcan⟩ | ⟨id, now, b, -, hcomp⟩
      · have hpending := hat.2
        rw [hpc] at hpending
        exact placed_created hinv hpending hcreated
      · exact placed_cancelled hinv (hat.1 _ (by rw [hpc]; simp [Point.copies])) hcan
          fun hb => (free_of_noStaleWithdrawal hok hc hpc hcan hb).1
      · exact placed_completed hinv hcomp
    · cases c.pc <;> exact trivial
  outside {s x db} _ hinv hx := by
    have hbookings := outside_bookings hx
    refine ⟨fun b hb => ?_, fun ⟨p, _⟩ _ hat => ⟨(persists_outside hx).knowsAll hat.1, ?_⟩⟩
    · obtain ⟨slot, hslot, hid, hpub⟩ := hinv b (hbookings ▸ hb)
      exact ⟨slot, outside_slots hx hslot, hid, hpub⟩
    · cases p with
      | createWriting slotId user attempt e =>
        refine Pending.mono hat.2 (persists_outside hx) (fun b hb hs => ⟨b, hbookings ▸ hb, rfl, hs⟩) ?_
        rintro ⟨slot, hslot, hpub⟩
        exact .inl ⟨slot, outside_slots hx hslot, hpub⟩
      | _ => exact trivial

/-- **Slot consistency**: in every run in which no reevaluation commits the cancellation of a booking
that was cancelled already while its slot carries a confirmed booking or is about to, slots and
bookings agree in every state. -/
theorem slot_consistency {s : State}
    (h : machine.Reachable (fun s l => noStaleWithdrawal s l = true) s) : Consistent s.db := by
  have hplaced : Placed s.db := by
    refine (slotOutline.holds_of_reachable (fun db ⟨hbookings, _⟩ b hb => ?_) h).inv
    have : b ∈ db.bookings.rows := hb
    rw [hbookings] at this
    cases this
  refine ⟨fun b hb b' hb' ha ha' hslot => s.db.bookings.valid.2.2.eq hb ha hb' ha' hslot,
    fun b hb hs => ?_⟩
  obtain ⟨slot, hslot, hid, hpub⟩ := hplaced b hb
  exact ⟨slot, hslot, hid, hpub hs⟩

/-- A reevaluation that cancels a confirmed booking and withdraws its slot. -/
theorem slot_consistency_of_reevaluation :
    ∃ s : State, machine.Reachable (fun s l => noStaleWithdrawal s l = true) s
      ∧ (∃ slot ∈ s.db.slots, slot.status = .withdrawn) ∧ Consistent s.db := by
  obtain ⟨s, hs, hp⟩ := machine.exists_reachable_guarded (s := sample 0) (p := noStaleWithdrawal)
    (q := fun s => s.db.slots.rows.any (·.status = .withdrawn))
    [.call (.create 20 ⟨1, some 100⟩ 1), .read 0 (.inl { now := 1, id := 30 }), .write 0, .commit 0,
      .outside (.directory sampleRevoked), .call (.reevaluate 10 100), .read 1 (.inl { now := 2 }),
      .read 1 (.inl {}), .write 1, .write 1, .commit 1] (sample_init 0) (by decide)
  obtain ⟨slot, hslot, hw⟩ := List.any_eq_true.mp hp
  exact ⟨s, hs, ⟨slot, hslot, of_decide_eq_true hw⟩, slot_consistency hs⟩

/-! ## The stale withdrawal -/

/-- **A stale withdrawal of a slot with a confirmed booking leaves the two in disagreement.** -/
theorem inconsistent_of_stale {c : Cancellation} {refund : ℤ} {x : Reading} {b y : Booking}
    (hcancelled : Cancelled db db' c refund x b) (hre : c.canceller = .reevaluation)
    (hb : b.status = .cancelled) (hy : y ∈ db.bookings)
    (hslot : y.resourceSlotId = c.booking.resourceSlotId) (hconf : y.status = .confirmed) :
    ¬ Consistent db' := by
  intro hcons
  have hne : y.id ≠ c.booking.id := by
    intro hid
    rw [booking_eq hy hcancelled.mem (hid.trans hcancelled.id.symm), hb] at hconf
    cases hconf
  obtain ⟨slot, hmem, hid, hpub⟩ :=
    hcons.published y ((hcancelled.bookings y).mpr (.inr ⟨hy, hne⟩)) hconf
  rcases hcancelled.slots slot hmem with ⟨-, hstatus⟩ | ⟨hne, -⟩
  · rw [hstatus, hre] at hpub
    cases hpub
  · exact hne (hid.trans hslot)

/-- **The run that goes wrong.**  A reevaluation has listed a booking that cost nothing; its user
cancels it, another user books the slot, and then the reevaluation's transaction commits. -/
theorem slot_consistency_fails :
    ∃ s : State, machine.Reachable Machine.free s ∧ ¬ Consistent s.db := by
  obtain ⟨s, hs, hp⟩ := machine.exists_reachable (s := sample 0)
    (p := fun s => s.db.slots.rows.all (·.status = .withdrawn)
      && s.db.bookings.rows.any (·.status = .confirmed))
    [.call (.create 20 ⟨1, some 100⟩ 1), .read 0 (.inl { now := 1, id := 30 }), .write 0, .commit 0,
      .outside (.directory sampleRevoked), .call (.reevaluate 10 100), .read 1 (.inl { now := 2 }),
      .call (.cancel 30 1 {}), .read 2 (.inl { now := 3 }), .read 2 (.inl {}), .write 2, .write 2,
      .commit 2,
      .call (.create 20 ⟨2, some 100⟩ 1), .read 3 (.inl { now := 4, id := 31 }), .write 3, .commit 3,
      .read 1 (.inl {}), .write 1, .write 1, .commit 1] (sample_init 0) (by decide)
  simp only [Bool.and_eq_true, List.all_eq_true, List.any_eq_true, decide_eq_true_eq] at hp
  obtain ⟨hwithdrawn, b, hb, hconf⟩ := hp
  refine ⟨s, hs, fun hcons => ?_⟩
  obtain ⟨slot, hslot, -, hpub⟩ := hcons.published b hb hconf
  rw [hwithdrawn slot hslot] at hpub
  cases hpub

end ResourceHive.Bookings
