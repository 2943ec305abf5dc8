import ResourceHive.Bookings.Conservation
import ResourceHive.Bookings.Lifecycle

/-!
# Bookings/Batch — a cancellation that fails ends its batch

`reevaluateBookings` makes its cancellations one after the other, each in a transaction of its own
and none in a `try` of its own.  What was cancelled before a failure stays cancelled and refunded,
and the booking of the failed transaction is as the others put it; but the error leaves the loop, and
the rest of the list is not looked at again.  So the batch is isolated from the failure exactly if
none of the rest is confirmed any more (`batch_isolated_iff`).
-/

namespace ResourceHive.Bookings

/-- What is left of a batch at a point of it. -/
def Point.remaining : Point → Option (List Cancellation)
  | .cancelNext work => some work
  | .cancelWriting c _ _ rest => some (c :: rest)
  | _ => none

/-- **A booking that does not have to be cancelled any more**: it was completed, or it was cancelled
and, if it had cost something, refunded on the terms of whoever cancelled it. -/
def Settled (s : State) (bookingId : Uuid) : Prop :=
  s.db.HasStatus bookingId .completed
    ∨ (s.db.HasStatus bookingId .cancelled ∧ ∃ cost, bookedCosts s.history bookingId = [cost]
        ∧ (0 < cost → ∃ canceller, cancellers s.history bookingId = [canceller]
          ∧ s.db.ledger.amountsFor .bookingRefund bookingId = [canceller.refund cost]))

/-- In the states there are, whoever changed the status has settled the accounts as well. -/
theorem settled_iff {s : State} (h : machine.Reachable Machine.free s) {bookingId : Uuid} :
    Settled s bookingId ↔ ∃ status, status ≠ .confirmed ∧ s.db.HasStatus bookingId status := by
  constructor
  · rintro (hs | ⟨hs, -⟩)
    · exact ⟨.completed, by decide, hs⟩
    · exact ⟨.cancelled, by decide, hs⟩
  · rintro ⟨status, hne, hs⟩
    cases status with
    | confirmed => exact absurd rfl hne
    | completed => exact .inl hs
    | cancelled =>
      refine .inr ⟨hs, ?_⟩
      obtain ⟨b, hb, rfl, hstatus⟩ := hs
      obtain ⟨cost, -, hbooked, -, -, -, hrefunded⟩ := ledger_conservation h hb
      exact ⟨cost, hbooked, hrefunded hstatus⟩

/-- The list has each booking once. -/
theorem nodup_of_listed {db : Database} {root resourceId : Uuid} {now : Timestamp}
    {work : List Cancellation} (h : reevaluateBookings db root resourceId now = .ok work) :
    (work.map (·.booking.id)).Nodup := by
  obtain ⟨-, rfl⟩ := reevaluateBookings_eq_ok.mp h
  have hsub : ∀ l : List Booking,
      List.Sublist ((l.filterMap (record? db)).map (·.booking.id)) (l.map (·.id)) := by
    intro l
    induction l with
    | nil => exact .slnil
    | cons b l ih =>
      cases hr : record? db b with
      | none =>
        rw [List.filterMap_cons_none hr]
        exact ih.cons _
      | some r =>
        rw [List.filterMap_cons_some hr, List.map_cons, List.map_cons, record?_eq_some hr]
        exact ih.cons_cons _
  rw [List.map_map]
  refine List.Nodup.sublist ?_ db.bookings.valid.1
  exact ((List.filter_sublist.trans List.filter_sublist).map _).trans (hsub _)

/-! ## The batch, from the list on -/

/-- **What is known of a batch at a point of its call**: everything that is not left has left
`CONFIRMED`; nothing is known once it has failed. -/
inductive Point.InBatch (db : Database) (work : List Cancellation) : Point → Prop
  | failed {error} : InBatch db work (.failed error)
  | left {p rest} (h : p.remaining = some rest ∨ p = .returned ∧ rest = []) (hsuffix : rest <:+ work)
      (hdone : ∀ x ∈ work, x ∈ rest
        ∨ ∃ status, status ≠ .confirmed ∧ db.HasStatus x.booking.id status) : InBatch db work p

variable {db db' : Database} {work : List Cancellation}

theorem Point.InBatch.mono {p : Point} (h : p.InBatch db work)
    (hstatus : ∀ id status, status ≠ .confirmed → db.HasStatus id status →
      db'.HasStatus id status) : p.InBatch db' work := by
  cases h with
  | failed => exact .failed
  | left h hsuffix hdone =>
    refine .left h hsuffix fun x hx => (hdone x hx).imp_right ?_
    exact fun ⟨status, hne, hs⟩ => ⟨status, hne, hstatus _ _ hne hs⟩

/-- What is known while something is left. -/
theorem Point.InBatch.of_remaining {p : Point} (h : p.InBatch db work) {rest : List Cancellation}
    (hrest : p.remaining = some rest) : rest <:+ work ∧ ∀ x ∈ work, x ∈ rest
      ∨ ∃ status, status ≠ .confirmed ∧ db.HasStatus x.booking.id status := by
  cases h with
  | failed => cases hrest
  | left h hsuffix hdone =>
    rcases h with h | ⟨rfl, -⟩
    · obtain rfl := Option.some.inj (h.symm.trans hrest)
      exact ⟨hsuffix, hdone⟩
    · cases hrest

/-- …and at the end. -/
theorem Point.InBatch.of_returned (h : Point.returned.InBatch db work) {x : Cancellation}
    (hx : x ∈ work) : ∃ status, status ≠ .confirmed ∧ db.HasStatus x.booking.id status := by
  cases h with
  | left h hsuffix hdone =>
    rcases h with h | ⟨-, rfl⟩
    · cases h
    · exact (hdone x hx).resolve_left List.not_mem_nil

theorem inBatch_next {p p' : Point} (h : p.InBatch db work) (hnext : p.Next db p') :
    p'.InBatch db work := by
  cases h with
  | failed =>
    cases hnext with
    | failed => exact .failed
    | retried hp => rcases hp with hp | hp <;> cases hp
  | left h hsuffix hdone =>
    cases hnext with
    | failed => exact .failed
    | finished =>
      rcases h with h | ⟨h, -⟩
      · exact .left (.inr ⟨rfl, (Option.some.inj h).symm⟩) hsuffix hdone
      · cases h
    | deductionRead =>
      rcases h with h | ⟨h, -⟩
      · exact .left (.inl h) hsuffix hdone
      · cases h
    | created | completedAlready | cancelledByUser | cancelRead | cancelledByAdministrator
    | completeRead | completeAllowed | listed => rcases h with h | ⟨h, -⟩ <;> cases h
    | retried hp => rcases hp with rfl | rfl <;> (rcases h with h | ⟨h, -⟩ <;> cases h)

/-- A commit of the batch is the cancellation of the first booking that was left. -/
theorem inBatch_commit {p : Point} (h : p.InBatch db work) (hne : code.writes p ≠ [])
    (hrep : code.replay (code.writes p) db = some db')
    (hstatus : ∀ id status, status ≠ .confirmed → db.HasStatus id status →
      db'.HasStatus id status) : (code.committed p).InBatch db' work := by
  cases h with
  | failed => exact absurd rfl hne
  | left h hsuffix hdone =>
    rcases commit_cases hne hrep with ⟨_, _, _, _, rfl, -⟩ | ⟨c, _, _, rest', b, rfl, hcan⟩ |
      ⟨_, _, _, rfl, -⟩
    · rcases h with h | ⟨h, -⟩ <;> cases h
    · rcases h with h | ⟨h, -⟩
      · obtain rfl := Option.some.inj h
        refine .left (.inl rfl) ((List.suffix_cons c rest').trans hsuffix) fun x hx => ?_
        rcases hdone x hx with hmem | ⟨status, hne, hs⟩
        · rcases List.mem_cons.mp hmem with rfl | hmem
          · exact .inr ⟨.cancelled, by decide, _, (hcan.bookings _).mpr (.inl rfl), hcan.id, rfl⟩
          · exact .inl hmem
        · exact .inr ⟨status, hne, hstatus _ _ hne hs⟩
      · cases h
    · rcases h with h | ⟨h, -⟩ <;> cases h

theorem inBatch_rolledBack {p : Point} (h : p.InBatch db work) :
    (code.rolledBack p).InBatch db work := by
  cases h with
  | failed => exact .failed
  | @left p rest h hsuffix hdone =>
    cases p with
    | cancelNext | cancelWriting => exact .failed
    | returned => exact .left h hsuffix hdone
    | create | createWriting | createFailed | cancel | cancelAdministrator | complete
    | completeAdministrator | completeWriting | reevaluate | failed =>
      rcases h with h | ⟨h, -⟩ <;> cases h

/-- **The step lemma**, for the batch of a call and a step of any call. -/
theorem inBatch_step {s t : State} {l : Label Point (Reading ⊕ Thrown BookingError) Outside}
    {i : ℕ} (h : ∃ c, s.calls[i]? = some c ∧ c.pc.InBatch s.db work)
    (hstep : machine.step s l = some t) : ∃ c, t.calls[i]? = some c ∧ c.pc.InBatch t.db work := by
  obtain ⟨c, hc, h⟩ := h
  have hstatus : ∀ id status, status ≠ .confirmed → s.db.HasStatus id status →
      t.db.HasStatus id status := fun _ _ hne hs => hasStatus_step hstep hne hs
  cases Code.call_cases hc hstep with
  | other hl hd => exact ⟨c, hd, h.mono hstatus⟩
  | read hread hdb hd => exact ⟨_, hd, hdb ▸ inBatch_next h (next_cases hread)⟩
  | write hlt hdb hd => exact ⟨_, hd, h.mono hstatus⟩
  | commit hne hrep hd => exact ⟨_, hd, inBatch_commit h hne hrep hstatus⟩
  | rollback hdb hd => exact ⟨_, hd, hdb ▸ inBatch_rolledBack h⟩

/-- **The run lemma.** -/
theorem inBatch_run {s t : State} {i : ℕ} {n : ℕ} (hc : s.calls[i]? = some ⟨.cancelNext work, n⟩)
    (hrun : machine.Run Machine.free s t) : ∃ c, t.calls[i]? = some c ∧ c.pc.InBatch t.db work :=
  hrun.invariant (I := fun t => ∃ c, t.calls[i]? = some c ∧ c.pc.InBatch t.db work)
    ⟨_, hc, .left (.inl rfl) (List.suffix_refl _) fun _ hx => .inl hx⟩
    fun ht _ hstep => inBatch_step ht hstep

/-- The list that a call of `reevaluateBookings` has just read. -/
theorem listed_of_step {s t : State} {i : ℕ} {resourceId root : Uuid}
    {x : Reading ⊕ Thrown BookingError}
    (hcall : s.calls[i]? = some ⟨.reevaluate resourceId root, 0⟩)
    (hread : machine.step s (.read i x) = some t) (hlist : t.calls[i]? = some ⟨.cancelNext work, 0⟩) :
    ∃ now, reevaluateBookings s.db root resourceId now = .ok work := by
  have hread : code.step s (.read i x) = some t := hread
  cases Code.call_cases hcall hread with
  | other hl h =>
    cases hlist.symm.trans h
  | read hnext hdb h =>
    obtain rfl := congrArg Session.pc (Option.some.inj (hlist.symm.trans h))
    cases next_cases hnext with
    | listed h => exact ⟨_, h⟩

/-- A booking that a call holds a copy of and that is not confirmed has left `CONFIRMED`. -/
theorem exists_status {b : Booking} (hknows : db.Knows b) (h : ¬ db.HasStatus b.id .confirmed) :
    ∃ status, status ≠ .confirmed ∧ db.HasStatus b.id status := by
  obtain ⟨b', hb', heq⟩ := hknows
  have hid := (Booking.identity_eq heq).1
  exact ⟨b'.status, fun hs => h ⟨b', hb', hid, hs⟩, b', hb', hid, rfl⟩

/-- A batch with something left: where a rollback takes its call, and the bookings it has read. -/
theorem remaining_eq_cons {p : Point} {c : Cancellation} {rest : List Cancellation}
    (h : p.remaining = some (c :: rest)) : code.rolledBack p = .failed none
      ∧ p.copies = c.booking :: rest.map (·.booking) := by
  cases p with
  | cancelNext work =>
    obtain rfl := Option.some.inj h
    exact ⟨rfl, rfl⟩
  | cancelWriting =>
    obtain ⟨rfl, rfl⟩ := List.cons.inj (Option.some.inj h)
    exact ⟨rfl, rfl⟩
  | create | createWriting | createFailed | cancel | cancelAdministrator | complete
  | completeAdministrator | completeWriting | reevaluate | returned | failed => cases h

/-- **A batch is isolated from the failure of one of its cancellations if and only if nothing after
it is still confirmed.**  Call `i` reads its list in a reachable state, any steps of any calls follow,
and then the transaction for `c` is rolled back: `c` is as the others put it, and every other booking
of the list is settled when the call ends, exactly if none of the rest was still to be cancelled. -/
theorem batch_isolated_iff {s t u v : State} {i : ℕ} {resourceId root : Uuid}
    {x : Reading ⊕ Thrown BookingError} {call : Session Point} {c : Cancellation}
    {rest : List Cancellation} (hs : machine.Reachable Machine.free s)
    (hcall : s.calls[i]? = some ⟨.reevaluate resourceId root, 0⟩)
    (hread : machine.step s (.read i x) = some t) (hlist : t.calls[i]? = some ⟨.cancelNext work, 0⟩)
    (hrun : machine.Run Machine.free t u) (hu : u.calls[i]? = some call)
    (hturn : call.pc.remaining = some (c :: rest))
    (hfail : machine.step u (.rollback i) = some v) :
    c ∈ work ∧ v.calls[i]? = some ⟨.failed none, 0⟩ ∧ v.db = u.db
      ∧ ((∀ y ∈ work, y ≠ c → Settled v y.booking.id) ↔
          ∀ y ∈ rest, ¬ u.db.HasStatus y.booking.id .confirmed) := by
  have hreach : machine.Reachable Machine.free u := (hs.run (.single trivial hread)).run hrun
  have hreach' : machine.Reachable Machine.free v := hreach.run (.single trivial hfail)
  have hknows := ((conservation_holds hreach).at hu).1
  obtain ⟨now, hwork⟩ := listed_of_step hcall hread hlist
  obtain ⟨call', hcall', hbatch⟩ := inBatch_run hlist hrun
  obtain rfl := Option.some.inj (hu.symm.trans hcall')
  obtain ⟨hrolledBack, hcopies⟩ := remaining_eq_cons hturn
  have hfail : code.step u (.rollback i) = some v := hfail
  obtain ⟨hv, hdb⟩ : v.calls[i]? = some ⟨.failed none, 0⟩ ∧ v.db = u.db := by
    obtain ⟨d, hd, rfl⟩ := Option.map_eq_some_iff.mp hfail
    obtain rfl := Option.some.inj (hu.symm.trans hd)
    rw [hrolledBack]
    exact ⟨List.getElem?_set_self (List.getElem?_eq_some_iff.mp hu).1, rfl⟩
  obtain ⟨hsuffix, hdone⟩ := hbatch.of_remaining hturn
  refine ⟨hsuffix.subset (List.mem_cons_self ..), hv, hdb, fun hall y hy hconf => ?_,
    fun hrest y hy hne => (settled_iff hreach').mpr ?_⟩
  · have hne : y ≠ c := by
      rintro rfl
      have hnodup := (nodup_of_listed hwork).sublist (hsuffix.sublist.map _)
      rw [List.map_cons, List.nodup_cons] at hnodup
      exact hnodup.1 (List.mem_map_of_mem hy)
    obtain ⟨status, hstatus, hs⟩ := (settled_iff hreach').mp
      (hall y (hsuffix.subset (List.mem_cons_of_mem _ hy)) hne)
    obtain ⟨b, hb, hid, rfl⟩ := hdb ▸ hs
    exact hstatus (hconf.eq hb hid)
  · rw [hdb]
    rcases hdone y hy with hmem | hs
    · have hmem := (List.mem_cons.mp hmem).resolve_left hne
      exact exists_status (hknows _ (hcopies ▸ List.mem_cons_of_mem _ (List.mem_map_of_mem hmem)))
        (hrest y hmem)
    · exact hs

/-- What the samples cancel. -/
def sampleRevocation (id resourceSlotId : Uuid) : Cancellation where
  booking :=
    { id := id, resourceSlotId := resourceSlotId, userId := 1, rootOrganizationId := 100,
      createdAt := 0 }
  canceller := .reevaluation
  now := 2
  cancelledByUserId := none
  reason := some "Organization access to this resource was revoked"
  resourceName := "Laboratory"

/-- Member 1 has two bookings and loses the access; call 2 is a reevaluation. -/
def sampleBatch : List (Label Point (Reading ⊕ Thrown BookingError) Outside) :=
  [.outside (.publish
      { id := 21, resourceId := 10, rootOrganizationId := 100, startsAt := 3000, endsAt := 4000 }),
    .call (.create 20 ⟨1, some 100⟩ 1), .read 0 (.inl { now := 1, id := 30 }), .write 0, .commit 0,
    .call (.create 21 ⟨1, some 100⟩ 1), .read 1 (.inl { now := 1, id := 31 }), .write 1, .commit 1,
    .outside (.directory sampleRevoked), .call (.reevaluate 10 100)]

/-- An administrator completes a booking after the list was read. -/
def sampleCompletion (id : Uuid) : List (Label Point (Reading ⊕ Thrown BookingError) Outside) :=
  [.call (.complete id 2), .read 3 (.inl {}), .read 3 (.inl { now := 3 }), .write 3, .commit 3]

/-- Call 2 reads its list of 30 and 31, comes to `p`, where its transaction can only be rolled back,
and leaves 31 in a status. -/
def runsInto (p : Point) (status : BookingStatus) (s t u v : State) : Bool :=
  decide (s.calls[2]? = some ⟨.reevaluate 10 100, 0⟩)
    && decide (t.calls[2]? = some ⟨.cancelNext [sampleRevocation 30 20, sampleRevocation 31 21], 0⟩)
    && decide (u.calls[2]? = some ⟨p, 0⟩) && (machine.step u (.write 2)).isNone
    && (v.db.booking? 31).any (·.status = status)

theorem exists_runsInto (ls : List (Label Point (Reading ⊕ Thrown BookingError) Outside)) (p : Point)
    (status : BookingStatus) (h : (machine.exec (sample 0) sampleBatch).any fun s =>
      (machine.step s (.read 2 (.inl { now := 2 }))).any fun t => (machine.exec t ls).any fun u =>
        (machine.step u (.rollback 2)).any fun v => runsInto p status s t u v) :
    ∃ s t u v, machine.Reachable Machine.free s
      ∧ machine.step s (.read 2 (.inl { now := 2 })) = some t ∧ machine.Run Machine.free t u
      ∧ machine.step u (.rollback 2) = some v ∧ runsInto p status s t u v := by
  obtain ⟨s, hs, h⟩ := machine.exists_reachable sampleBatch (sample_init 0) h
  obtain ⟨t, ht, h⟩ := (Option.any_eq_true _ _).mp h
  obtain ⟨u, hu, h⟩ := machine.exists_run ls h
  obtain ⟨v, hv, h⟩ := (Option.any_eq_true _ _).mp h
  exact ⟨s, t, u, v, hs, ht, hu, hv, h⟩

/-- The administrator completes 31: by then 30 is cancelled. -/
theorem isolated_of_last_completed : ∃ v, machine.Reachable Machine.free v
    ∧ v.calls[2]? = some ⟨.failed none, 0⟩ ∧ Settled v 30 := by
  obtain ⟨s, t, u, v, hs, hread, hrun, hfail, hp⟩ := exists_runsInto
    (sampleCompletion 31 ++
      [.read 2 (.inl {}), .write 2, .write 2, .commit 2, .read 2 (.inl {})])
    (.cancelWriting (sampleRevocation 31 21) 0 {} []) .completed (by decide)
  simp only [runsInto, Bool.and_eq_true, decide_eq_true_eq] at hp
  obtain ⟨⟨⟨⟨hcall, hlist⟩, hu⟩, -⟩, -⟩ := hp
  obtain ⟨-, hv, -, hiff⟩ := batch_isolated_iff hs hcall hread hlist hrun hu rfl hfail
  exact ⟨v, ((hs.run (.single trivial hread)).run hrun).run (.single trivial hfail), hv,
    hiff.mpr (fun y hy => absurd hy List.not_mem_nil) (sampleRevocation 30 20)
      (List.mem_cons_self ..) (by decide)⟩

/-- **The administrator completes 30**: its cancellation is refused, and 31, still to be cancelled, is
neither cancelled nor refunded when the call ends. -/
theorem not_isolated_of_first_completed : ∃ s t u v, machine.Reachable Machine.free s
    ∧ s.calls[2]? = some ⟨.reevaluate 10 100, 0⟩
    ∧ machine.step s (.read 2 (.inl { now := 2 })) = some t
    ∧ t.calls[2]? = some ⟨.cancelNext [sampleRevocation 30 20, sampleRevocation 31 21], 0⟩
    ∧ machine.Run Machine.free t u
    ∧ u.calls[2]? = some
        ⟨.cancelWriting (sampleRevocation 30 20) 0 {} [sampleRevocation 31 21], 0⟩
    ∧ machine.step u (.write 2) = none ∧ machine.step u (.rollback 2) = some v
    ∧ ¬ ∀ y ∈ [sampleRevocation 30 20, sampleRevocation 31 21], y ≠ sampleRevocation 30 20 →
        Settled v y.booking.id := by
  obtain ⟨s, t, u, v, hs, hread, hrun, hfail, hp⟩ := exists_runsInto
    (sampleCompletion 30 ++ [.read 2 (.inl {})])
    (.cancelWriting (sampleRevocation 30 20) 0 {} [sampleRevocation 31 21]) .confirmed (by decide)
  simp only [runsInto, Bool.and_eq_true, decide_eq_true_eq, Option.isNone_iff_eq_none,
    Option.any_eq_true] at hp
  obtain ⟨⟨⟨⟨hcall, hlist⟩, hu⟩, hwrite⟩, b, hb, hconf⟩ := hp
  obtain ⟨hmem, hid⟩ := mem_of_booking? hb
  refine ⟨s, t, u, v, hs, hcall, hread, hlist, hrun, hu, hwrite, hfail, fun hall => ?_⟩
  have hv := ((hs.run (.single trivial hread)).run hrun).run (.single trivial hfail)
  obtain ⟨status, hne, hstatus⟩ := (settled_iff hv).mp
    (hall (sampleRevocation 31 21) (by decide) (by decide))
  exact hne (hstatus.eq hmem hid ▸ hconf)

/-- …and a batch that comes to its end has settled every booking of its list. -/
theorem settled_of_returned {s t : State} {i n : ℕ} (hs : machine.Reachable Machine.free s)
    (hlist : s.calls[i]? = some ⟨.cancelNext work, 0⟩) (hrun : machine.Run Machine.free s t)
    (ht : t.calls[i]? = some ⟨.returned, n⟩) {y : Cancellation} (hy : y ∈ work) :
    Settled t y.booking.id := by
  obtain ⟨c, hc, hbatch⟩ := inBatch_run hlist hrun
  obtain rfl := Option.some.inj (ht.symm.trans hc)
  exact (settled_iff (hs.run hrun)).mpr (hbatch.of_returned hy)

end ResourceHive.Bookings
