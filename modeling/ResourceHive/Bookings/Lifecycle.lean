import ResourceHive.Bookings.Rows

/-!
# Bookings/Lifecycle — a booking's status moves once

`CONFIRMED` is left for `CANCELLED` or for `COMPLETED`, and neither is left again
(`status_stable`).  `completeBooking` and `reevaluateBookings` update by id what they have read
earlier: it is the CHECKs between the status and the two timestamps that refuse the stale update.  A
call that loses the race to the other terminal status is `Point.Overtaken`; it stays so, its
transaction cannot commit, and it can only fail (`overtaken_step`).
-/

namespace ResourceHive.Bookings

/-- A booking with this id has this status. -/
def Database.HasStatus (db : Database) (bookingId : Uuid) (status : BookingStatus) : Prop :=
  ∃ b ∈ db.bookings, b.id = bookingId ∧ b.status = status

variable {db db' : Database} {bookingId : Uuid} {status : BookingStatus}

/-- A booking has one status. -/
theorem Database.HasStatus.eq (h : db.HasStatus bookingId status) {b : Booking}
    (hb : b ∈ db.bookings) (hid : b.id = bookingId) : b.status = status := by
  obtain ⟨b', hb', hid', rfl⟩ := h
  rw [booking_eq hb hb' (hid.trans hid'.symm)]

/-! ## Terminal statuses -/

theorem hasStatus_created {c : Creation} (h : Created db db' c)
    (hs : db.HasStatus bookingId status) : db'.HasStatus bookingId status := by
  obtain ⟨b, hb, hid, hstatus⟩ := hs
  exact ⟨b, (Table.mem_insert h.bookings).mpr (.inl hb), hid, hstatus⟩

theorem hasStatus_cancelled {c : Cancellation} {refund : ℤ} {x : Reading} {b : Booking}
    (h : Cancelled db db' c refund x b) (hterm : status ≠ .confirmed)
    (hs : db.HasStatus bookingId status) : db'.HasStatus bookingId status := by
  obtain ⟨b', hb', rfl, rfl⟩ := hs
  by_cases hid : b'.id = c.booking.id
  · obtain rfl := booking_eq hb' h.mem (hid.trans h.id.symm)
    -- Only a booking that is cancelled already is cancelled again.
    have hcan : b'.status = .cancelled := by
      have := h.not_completed
      cases hstatus : b'.status <;> simp_all
    exact ⟨_, (h.bookings _).mpr (.inl rfl), rfl, hcan.symm⟩
  · exact ⟨b', (h.bookings _).mpr (.inr ⟨hb', hid⟩), rfl, rfl⟩

theorem hasStatus_completed {id : Uuid} {now : Timestamp} {b : Booking}
    (h : Completed db db' id now b) (hterm : status ≠ .confirmed)
    (hs : db.HasStatus bookingId status) : db'.HasStatus bookingId status := by
  obtain ⟨b', hb', rfl, rfl⟩ := hs
  by_cases hid : b'.id = id
  · obtain rfl := booking_eq hb' h.mem (hid.trans h.id.symm)
    have hcomp : b'.status = .completed := by
      have := h.not_cancelled
      cases hstatus : b'.status <;> simp_all
    exact ⟨_, (h.bookings _).mpr (.inl rfl), rfl, hcomp.symm⟩
  · exact ⟨b', (h.bookings _).mpr (.inr ⟨hb', hid⟩), rfl, rfl⟩

/-- **No step leaves a terminal status.** -/
theorem hasStatus_step {s t : State} {l : Label Point (Reading ⊕ Thrown BookingError) Outside}
    (hstep : machine.step s l = some t) (hterm : status ≠ .confirmed)
    (hs : s.db.HasStatus bookingId status) : t.db.HasStatus bookingId status := by
  cases Code.step_cases hstep with
  | call | read | write | rollback => exact hs
  | commit hc hpos hall hrep =>
    have hne := List.ne_nil_of_length_pos (hall ▸ hpos)
    rcases commit_cases hne hrep with ⟨_, _, _, _, -, h⟩ | ⟨_, _, _, _, _, -, h⟩ | ⟨_, _, _, -, h⟩
    · exact hasStatus_created h hs
    · exact hasStatus_cancelled h hterm hs
    · exact hasStatus_completed h hterm hs
  | outside hx =>
    obtain ⟨b, hb, hb'⟩ := hs
    exact ⟨b, outside_bookings hx ▸ hb, hb'⟩

/-- …and so no run does. -/
theorem status_stable {s t : State} (hrun : machine.Run Machine.free s t)
    (hterm : status ≠ .confirmed) (hs : s.db.HasStatus bookingId status) :
    t.db.HasStatus bookingId status :=
  hrun.invariant (I := fun t => t.db.HasStatus bookingId status) hs
    fun ht _ hstep => hasStatus_step hstep hterm ht

/-! ## The losing call -/

/-- **A call that was overtaken**: it is about to complete a booking that is cancelled by now, or to
cancel one that is completed. -/
def Point.Overtaken (db : Database) : Point → Prop
  | .complete bookingId _ | .completeWriting bookingId _ => db.HasStatus bookingId .cancelled
  | .completeAdministrator record _ =>
    record.booking.status ≠ .completed ∧ db.HasStatus record.booking.id .cancelled
  | .cancel bookingId _ _ => db.HasStatus bookingId .completed
  | .cancelAdministrator record _ _ _ => db.HasStatus record.booking.id .completed
  | .cancelNext (c :: _) | .cancelWriting c _ _ _ => db.HasStatus c.booking.id .completed
  | _ => False

/-- A call that can no longer do anything but fail. -/
def Point.Losing (db : Database) (p : Point) : Prop :=
  p.Overtaken db ∨ ∃ error, p = .failed error

/-- The terminal status is for good, and so is being overtaken. -/
theorem Point.Losing.mono {p : Point} (h : p.Losing db)
    (hstatus : ∀ id status, status ≠ .confirmed → db.HasStatus id status →
      db'.HasStatus id status) : p.Losing db' := by
  rcases h with h | h
  · left
    cases p with
    | complete | completeWriting => exact hstatus _ _ (by decide) h
    | completeAdministrator => exact ⟨h.1, hstatus _ _ (by decide) h.2⟩
    | cancel | cancelAdministrator | cancelWriting => exact hstatus _ _ (by decide) h
    | cancelNext work =>
      cases work with
      | nil => exact h
      | cons => exact hstatus _ _ (by decide) h
    | create | createWriting | createFailed | reevaluate | returned | failed => exact h
  · exact .inr h

/-- **The overtaken transaction cannot commit.** -/
theorem Point.Losing.replay {p : Point} (h : p.Losing db) (hne : code.writes p ≠ []) :
    code.replay (code.writes p) db = none := by
  rw [Option.eq_none_iff_forall_ne_some]
  intro db' hrep
  rcases h with h | ⟨error, rfl⟩
  · rcases commit_cases hne hrep with
      ⟨_, _, _, _, rfl, -⟩ | ⟨c, refund, x, rest, b, rfl, hcan⟩ | ⟨id, now, b, rfl, hcomp⟩
    · exact h
    · exact hcan.not_completed (Database.HasStatus.eq h hcan.mem hcan.id)
    · exact hcomp.not_cancelled (Database.HasStatus.eq h hcomp.mem hcomp.id)
  · exact hne rfl

/-- A read of an overtaken call finds it out, or leaves it overtaken. -/
theorem losing_next {p p' : Point} (h : p.Losing db) (hnext : p.Next db p') : p'.Losing db := by
  rcases h with h | ⟨error, rfl⟩
  · cases hnext with
    | created | listed => exact absurd h id
    | deductionRead => exact .inl h
    | failed => exact .inr ⟨_, rfl⟩
    | retried hp => rcases hp with rfl | rfl <;> exact absurd h id
    | finished => exact absurd h id
    | completedAlready hs => exact absurd hs h.1
    | cancelledByUser hc =>
      obtain ⟨hmem, hid, hconf, -⟩ := cancelBooking_eq_inl hc
      have := Database.HasStatus.eq h hmem hid
      rw [hconf] at this
      cases this
    | cancelRead hc =>
      obtain ⟨hmem, hid, hconf⟩ := cancelBooking_eq_inr hc
      have := Database.HasStatus.eq h hmem hid
      rw [hconf] at this
      cases this
    | cancelledByAdministrator hc =>
      have h' : db.HasStatus _ .completed := h
      rw [← (cancelBookingAsAdministrator_eq_ok hc).1] at h'
      exact .inl h'
    | completeRead hc =>
      obtain ⟨hmem, hid⟩ := findUnique_eq_some hc
      have hcan : db.HasStatus _ .cancelled := h
      refine .inl ⟨fun hcomp => ?_, hid ▸ hcan⟩
      rw [Database.HasStatus.eq hcan hmem hid] at hcomp
      cases hcomp
    | completeAllowed => exact .inl h.2
  · cases hnext with
    | failed => exact .inr ⟨_, rfl⟩
    | retried hp => rcases hp with hp | hp <;> cases hp

theorem losing_rolledBack {p : Point} (h : p.Losing db) :
    ∃ error, code.rolledBack p = .failed error := by
  rcases h with h | ⟨error, rfl⟩
  · cases p <;> first | exact ⟨_, rfl⟩ | exact absurd h id
  · exact ⟨error, rfl⟩

/-- The call that takes a step. -/
def caller : Label Point (Reading ⊕ Thrown BookingError) Outside → Option ℕ
  | .read i _ | .write i | .commit i | .rollback i => some i
  | .call _ | .outside _ => none

/-- A losing call's own step changes neither the database nor the history. -/
theorem losing_own_step {s t : State} {l : Label Point (Reading ⊕ Thrown BookingError) Outside}
    {i : ℕ} {c : Session Point} (hc : s.calls[i]? = some c) (h : c.pc.Losing s.db)
    (hl : caller l = some i) (hstep : machine.step s l = some t) :
    t.db = s.db ∧ t.history = s.history := by
  cases Code.step_cases hstep with
  | call | outside => cases hl
  | read | write | rollback => exact ⟨rfl, rfl⟩
  | commit hc' hpos hall hrep =>
    obtain rfl := Option.some.inj hl
    obtain rfl := Option.some.inj (hc.symm.trans hc')
    rw [h.replay (List.ne_nil_of_length_pos (hall ▸ hpos))] at hrep
    cases hrep

/-- A losing call after a step of any call. -/
theorem losing_step {s t : State} {l : Label Point (Reading ⊕ Thrown BookingError) Outside}
    {i : ℕ} (h : ∃ c, s.calls[i]? = some c ∧ c.pc.Losing s.db)
    (hstep : machine.step s l = some t) : ∃ c, t.calls[i]? = some c ∧ c.pc.Losing t.db := by
  obtain ⟨c, hc, hlosing⟩ := h
  have hmono : c.pc.Losing t.db := hlosing.mono fun _ _ hterm hs => hasStatus_step hstep hterm hs
  cases Code.call_cases hc hstep with
  | other hl h => exact ⟨c, h, hmono⟩
  | read hread hdb h => exact ⟨_, h, hdb ▸ losing_next hlosing (next_cases hread)⟩
  | write hlt hdb h => exact ⟨_, h, hmono⟩
  | commit hne hrep h =>
    rw [hlosing.replay hne] at hrep
    cases hrep
  | rollback hdb h => exact ⟨_, h, .inr (losing_rolledBack hlosing)⟩

/-- **A losing call loses in every continuation**, and until it has failed it may fail at any
moment. -/
theorem overtaken_step {s t : State} {i : ℕ} (h : ∃ c, s.calls[i]? = some c ∧ c.pc.Losing s.db)
    (hrun : machine.Run Machine.free s t) : ∃ c, t.calls[i]? = some c ∧ c.pc.Losing t.db :=
  hrun.invariant (I := fun t => ∃ c, t.calls[i]? = some c ∧ c.pc.Losing t.db) h
    fun ht _ hstep => losing_step ht hstep

/-- **Booking status is a one-way state machine**, in any state at all.  The timestamps say the
status; a terminal status stays; and a call overtaken by the other terminal status never does
anything but fail, in no step of its own touching the database. -/
theorem status_one_way (s : State) :
    (∀ b ∈ s.db.bookings, (b.cancelledAt.isSome ↔ b.status = .cancelled)
        ∧ (b.completedAt.isSome ↔ b.status = .completed))
      ∧ (∀ t, machine.Run Machine.free s t → ∀ b ∈ s.db.bookings, b.status ≠ .confirmed →
          t.db.HasStatus b.id b.status)
      ∧ ∀ (i : ℕ) c, s.calls[i]? = some c → c.pc.Overtaken s.db →
          ∀ t, machine.Run Machine.free s t → ∃ c', t.calls[i]? = some c'
            ∧ (c'.pc.Overtaken t.db ∨ ∃ error, c'.pc = .failed error)
            ∧ (∃ u error, machine.step t (.rollback i) = some u
                ∧ u.calls[i]? = some ⟨.failed error, 0⟩)
            ∧ ∀ l u, caller l = some i → machine.step t l = some u →
                u.db = t.db ∧ u.history = t.history := by
  refine ⟨fun b hb => ⟨(checks_of_mem hb).cancelledAt_isSome, (checks_of_mem hb).completedAt_isSome⟩,
    fun t hrun b hb hterm => status_stable hrun hterm ⟨b, hb, rfl, rfl⟩, ?_⟩
  intro i c hc hover t hrun
  obtain ⟨c', hc', hlosing⟩ := overtaken_step ⟨c, hc, .inl hover⟩ hrun
  obtain ⟨error, herror⟩ := losing_rolledBack hlosing
  refine ⟨c', hc', hlosing, ⟨Code.moveTo t i (code.rolledBack c'.pc), error, ?_, ?_⟩,
    fun l u hl hstep => losing_own_step hc' hlosing hl hstep⟩
  · exact congrArg (Option.map _) hc'
  · simp only [Code.moveTo, List.getElem?_set_self', hc', herror]
    rfl

/-- A `completeBooking` that has read a booking as confirmed, which its user then cancels. -/
theorem status_one_way_of_overtaken :
    ∃ s : State, machine.Reachable Machine.free s ∧ s.db.HasStatus 30 .cancelled
      ∧ ∃ c, s.calls[1]? = some c ∧ c.pc = .completeWriting 30 3
        ∧ ∀ l u, caller l = some 1 → machine.step s l = some u → u.db = s.db := by
  obtain ⟨s, hs, hp⟩ := machine.exists_reachable (s := sample 0)
    (p := fun s : State => s.db.bookings.rows.any (fun b => b.id = 30 ∧ b.status = .cancelled)
      && decide (s.calls[1]?.map Session.pc = some (Point.completeWriting 30 3)))
    [.call (.create 20 ⟨1, some 100⟩ 1), .read 0 (.inl { now := 1, id := 30 }), .write 0, .commit 0,
      .call (.complete 30 2), .read 1 (.inl {}), .read 1 (.inl { now := 3 }),
      .call (.cancel 30 1 {}), .read 2 (.inl { now := 3 }), .read 2 (.inl {}), .write 2, .write 2,
      .commit 2] (sample_init 0) (by decide)
  simp only [Bool.and_eq_true, List.any_eq_true, decide_eq_true_eq, Option.map_eq_some_iff] at hp
  obtain ⟨⟨b, hb, hstatus⟩, c, hc, hpc⟩ := hp
  have hstatus : s.db.HasStatus 30 .cancelled := ⟨b, hb, hstatus⟩
  obtain ⟨c', hc', -, -, hstep⟩ := (status_one_way s).2.2 1 c hc (hpc ▸ hstatus) s .refl
  exact ⟨s, hs, hstatus, c, hc, hpc, fun l u hl hu => (hstep l u hl hu).1⟩

end ResourceHive.Bookings
