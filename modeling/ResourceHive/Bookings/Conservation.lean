import ResourceHive.Bookings.Rows

/-!
# Bookings/Conservation — what each booking has cost, and what came back

For every booking the ledger holds one deduction, of the cost read when it was booked, and, once it
is cancelled, one refund on the terms of the call that cancelled it (`Accounts`).  The guard of
`cancelBooking` alone does not give this: `reevaluateBookings` may cancel a booking twice, and it is
the unique index on refunds that then rolls its transaction back.  The cost is the one that the
booked slot's resource had in the snapshot of the attempt (`BookedAt`).
-/

namespace ResourceHive.Bookings

/-! ## The history of a booking -/

/-- The costs at which a booking was created. -/
def bookedCosts (history : List Event) (bookingId : Uuid) : List ℤ :=
  history.filterMap fun
    | .booked id pointCost => if id = bookingId then some pointCost else none
    | .cancelled _ _ => none

/-- On whose terms a booking was cancelled. -/
def cancellers (history : List Event) (bookingId : Uuid) : List Canceller :=
  history.filterMap fun
    | .booked _ _ => none
    | .cancelled id canceller => if id = bookingId then some canceller else none

variable {history : List Event} {bookingId : Uuid}

theorem bookedCosts_booked (id : Uuid) (pointCost : ℤ) :
    bookedCosts (history ++ [.booked id pointCost]) bookingId =
      bookedCosts history bookingId ++ if id = bookingId then [pointCost] else [] := by
  by_cases h : id = bookingId <;> simp [bookedCosts, h]

theorem bookedCosts_cancelled (id : Uuid) (canceller : Canceller) :
    bookedCosts (history ++ [.cancelled id canceller]) bookingId =
      bookedCosts history bookingId := by
  simp [bookedCosts]

theorem cancellers_booked (id : Uuid) (pointCost : ℤ) :
    cancellers (history ++ [.booked id pointCost]) bookingId = cancellers history bookingId := by
  simp [cancellers]

theorem cancellers_cancelled (id : Uuid) (canceller : Canceller) :
    cancellers (history ++ [.cancelled id canceller]) bookingId =
      cancellers history bookingId ++ if id = bookingId then [canceller] else [] := by
  by_cases h : id = bookingId <;> simp [cancellers, h]

/-! ## The invariant -/

theorem Canceller.refund_pos (canceller : Canceller) {deducted : ℤ} (h : 0 < deducted) :
    0 < canceller.refund deducted := by
  cases canceller with
  | user =>
    simp only [refund, ceilHalf]
    omega
  | administrator | reevaluation => exact h

/-- **The accounts of a booking** that was created at a cost. -/
structure Accounts (L : Ledger) (history : List Event) (b : Booking) (cost : ℤ) : Prop where
  nonneg : 0 ≤ cost
  booked : bookedCosts history b.id = [cost]
  deducted : L.amountsFor .booking b.id = if 0 < cost then [-cost] else []
  live : b.status ≠ .cancelled →
    cancellers history b.id = [] ∧ L.amountsFor .bookingRefund b.id = []
  refunded : b.status = .cancelled → 0 < cost → ∃ canceller,
    cancellers history b.id = [canceller]
      ∧ L.amountsFor .bookingRefund b.id = [canceller.refund cost]

/-- The invariant of the database and its history. -/
structure Conserved (db : Database) (history : List Event) : Prop where
  accounts : ∀ b ∈ db.bookings, ∃ cost, Accounts db.ledger history b cost
  /-- An entry for a booking is an entry of the booking's user. -/
  owned : ∀ e ∈ db.ledger.transactions, ∀ id, e.bookingId = some id →
    ∃ b ∈ db.bookings, b.id = id ∧ b.userId = e.userId
  /-- The history of a booking that is not there is empty. -/
  fresh : ∀ id, (∀ b ∈ db.bookings, b.id ≠ id) →
    bookedCosts history id = [] ∧ cancellers history id = []

/-- What the rows about to be inserted by `createBooking` look like. -/
structure Creation.Priced (c : Creation) : Prop where
  nonneg : 0 ≤ c.context.pointCost
  confirmed : c.booking.status = .confirmed
  amount : c.entry.amount = -c.context.pointCost
  type : c.entry.transactionType = .booking
  bookingId : c.entry.bookingId = some c.booking.id
  userId : c.entry.userId = c.booking.userId

/-- What a call knows of the accounts at a point: the price it is about to enter, the refund it is
about to make. -/
def Priced (history : List Event) : Point → Prop
  | .createWriting _ _ _ c => c.Priced
  | .cancelWriting c refund _ _ =>
    ∃ cost, bookedCosts history c.booking.id = [cost] ∧ refund = c.canceller.refund cost
  | _ => True

variable {db db' : Database}

/-! ## Reads -/

theorem Creation.priced_of_ok {faults : Faults} {x : Reading} {slotId : Uuid}
    {user : AuthenticatedUser} {c : Creation}
    (h : createWithinTransaction faults db x slotId user = .ok c) : c.Priced := by
  obtain ⟨context, hval, rfl⟩ := creation_of_ok h
  exact ⟨hval.pointCost_nonneg, rfl, rfl, rfl, rfl, rfl⟩

/-- The deductions of a booking, found by its user as well. -/
private theorem filter_deduction (h : Conserved db history) {b : Booking} (hb : db.Knows b) :
    (db.ledger.transactions.rows.filter fun e => e.forBooking .booking b.id
        && decide (e.userId = b.userId)) =
      db.ledger.transactions.rows.filter (·.forBooking .booking b.id) := by
  refine List.filter_congr fun e he => ?_
  by_cases hfor : e.forBooking .booking b.id
  · have hid : e.bookingId = some b.id := of_decide_eq_true (Bool.and_eq_true _ _ ▸ hfor).2
    obtain ⟨b', hb', hbid, huser⟩ := h.owned e he _ hid
    have heq := Booking.identity_eq (hb.identity_eq hb' hbid)
    simp [hfor, ← huser, heq.2.2.1]
  · simp [hfor]

/-- **`deductedPoints` reads the cost at which the booking was created.** -/
theorem deductedPoints_eq (h : Conserved db history) {c : Cancellation} (hb : db.Knows c.booking)
    {cost : ℤ} (hcost : bookedCosts history c.booking.id = [cost]) :
    c.deductedPoints db.ledger = cost := by
  obtain ⟨b, hmem, hid⟩ := hb
  obtain ⟨cost', hacc⟩ := h.accounts b hmem
  have hbid : b.id = c.booking.id := (Booking.identity_eq hid).1
  obtain rfl : cost' = cost := List.singleton_inj.mp (hacc.booked.symm.trans (hbid ▸ hcost))
  have hamounts := hacc.deducted
  rw [hbid, Ledger.amountsFor, ← filter_deduction h ⟨b, hmem, hid⟩] at hamounts
  rw [Cancellation.deductedPoints, Table.find?, ← List.head?_filter, ← List.head?_map, hamounts]
  have hnonneg := hacc.nonneg
  by_cases hpos : 0 < cost'
  · simp [hpos, hnonneg]
  · have : cost' = 0 := by omega
    simp [this]

theorem priced_next {p p' : Point} (h : Conserved db history) (hknow : db.KnowsAll p)
    (hp : Priced history p) (hnext : p.Next db p') : Priced history p' := by
  cases hnext with
  | created hc => exact Creation.priced_of_ok hc
  | deductionRead =>
    rename_i c rest x
    obtain ⟨b, hb, hid⟩ := hknow c.booking (by simp [Point.copies])
    obtain ⟨cost, hacc⟩ := h.accounts b hb
    have hcost : bookedCosts history c.booking.id = [cost] :=
      (Booking.identity_eq hid).1 ▸ hacc.booked
    exact ⟨cost, hcost, by rw [deductedPoints_eq h ⟨b, hb, hid⟩ hcost]⟩
  | retried | failed | finished | completedAlready | cancelledByUser | cancelRead
  | cancelledByAdministrator | completeRead | completeAllowed | listed => exact trivial

/-! ## Commits -/

/-- Accounts depend on the ledger, the history and the booking's status only. -/
theorem Accounts.congr {L L' : Ledger} {history' : List Event} {b b' : Booking} {cost : ℤ}
    (h : Accounts L history b cost) (hid : b'.id = b.id)
    (hstatus : b'.status = .cancelled ↔ b.status = .cancelled)
    (hbooked : bookedCosts history' b.id = bookedCosts history b.id)
    (hcancelled : cancellers history' b.id = cancellers history b.id)
    (hamounts : ∀ type, L'.amountsFor type b.id = L.amountsFor type b.id) :
    Accounts L' history' b' cost where
  nonneg := h.nonneg
  booked := by rw [hid, hbooked, h.booked]
  deducted := by rw [hid, hamounts, h.deducted]
  live hs := by
    rw [hid, hcancelled, hamounts]
    exact h.live fun hc => hs (hstatus.mpr hc)
  refunded hs hpos := by
    rw [hid, hcancelled, hamounts]
    exact h.refunded (hstatus.mp hs) hpos

/-- An entry for another booking leaves a booking's amounts alone. -/
theorem amountsFor_insert_ne {L L' : Ledger} {refs : References} {e : PointTransaction} {id : Uuid}
    (h : L.insert refs e = some L') (hne : e.bookingId ≠ some id) (type : TransactionType) :
    L'.amountsFor type id = L.amountsFor type id := by
  have hfor : e.forBooking type id = false := by simp [PointTransaction.forBooking, hne]
  rw [Ledger.amountsFor_insert h, hfor]
  simp

/-- No entry is about a booking that is not there. -/
theorem Conserved.amountsFor_fresh (h : Conserved db history) {id : Uuid}
    (hfresh : ∀ b ∈ db.bookings, b.id ≠ id) (type : TransactionType) :
    db.ledger.amountsFor type id = [] := by
  rw [Ledger.amountsFor, List.map_eq_nil_iff, List.filter_eq_nil_iff]
  intro e he hfor
  obtain ⟨b, hb, hid, -⟩ := h.owned e he id (of_decide_eq_true (Bool.and_eq_true _ _ ▸ hfor).2)
  exact hfresh b hb hid

/-- The ledger after a creation: the amounts for its booking, and for every other. -/
theorem Created.amountsFor {c : Creation} (h : Created db db' c) (hc : c.Priced)
    (type : TransactionType) (id : Uuid) :
    db'.ledger.amountsFor type id = db.ledger.amountsFor type id ++
      if type = .booking ∧ id = c.booking.id ∧ 0 < c.context.pointCost then
        [-c.context.pointCost] else [] := by
  have hledger := h.ledger
  split at hledger
  · next hpos =>
    obtain ⟨refs, hins⟩ := hledger
    rw [Ledger.amountsFor_insert hins, PointTransaction.forBooking, hc.type, hc.bookingId, hc.amount]
    by_cases heq : type = .booking ∧ id = c.booking.id
    · simp [heq, hpos]
    · rcases not_and_or.mp heq with hne | hne
      · simp [hne, Ne.symm hne]
      · simp [hne, Ne.symm hne]
  · next hpos => simp [hledger, hpos]

theorem conserved_created {c : Creation} (h : Conserved db history) (hc : c.Priced)
    (hcreated : Created db db' c) :
    Conserved db' (history ++ [.booked c.booking.id c.context.pointCost]) := by
  have hmem := fun y => Table.mem_insert hcreated.bookings (x := y)
  have hnew : ∀ b ∈ db.bookings, b.id ≠ c.booking.id := fun b hb =>
    Table.Unique.ne_of_append
      (Table.insert_eq_some.mp hcreated.bookings ▸ db'.bookings.valid.1) hb
  refine ⟨fun y hy => ?_, fun e he id hid => ?_, fun id hid => ?_⟩
  · rcases (hmem y).mp hy with hy | rfl
    · obtain ⟨cost, hacc⟩ := h.accounts y hy
      have hne := hnew y hy
      refine ⟨cost, hacc.congr rfl Iff.rfl ?_ (cancellers_booked _ _) fun type => ?_⟩
      · simp [bookedCosts_booked, Ne.symm hne]
      · simp [hcreated.amountsFor hc, hne]
    · obtain ⟨hbooked, hcancelled⟩ := h.fresh _ hnew
      have hamounts := fun type => h.amountsFor_fresh hnew type
      refine ⟨c.context.pointCost, hc.nonneg, ?_, ?_, fun _ => ⟨?_, ?_⟩, fun hs => ?_⟩
      · simp [bookedCosts_booked, hbooked]
      · simp [hcreated.amountsFor hc, hamounts]
      · rw [cancellers_booked, hcancelled]
      · simp [hcreated.amountsFor hc, hamounts]
      · rw [hc.confirmed] at hs
        cases hs
  · have hold : e ∈ db.ledger.transactions → ∃ b ∈ db'.bookings, b.id = id ∧ b.userId = e.userId := by
      intro he
      obtain ⟨b, hb, hb'⟩ := h.owned e he id hid
      exact ⟨b, (hmem b).mpr (.inl hb), hb'⟩
    have hledger := hcreated.ledger
    split at hledger
    · obtain ⟨refs, hins⟩ := hledger
      rcases (Ledger.mem_insert hins).mp he with he | rfl
      · exact hold he
      · refine ⟨c.booking, (hmem _).mpr (.inr rfl), ?_, hc.userId.symm⟩
        exact Option.some.inj (hc.bookingId.symm.trans hid)
    · exact hold (hledger ▸ he)
  · obtain ⟨hbooked, hcancelled⟩ := h.fresh id fun b hb => hid b ((hmem b).mpr (.inl hb))
    have hne : c.booking.id ≠ id := hid _ ((hmem _).mpr (.inr rfl))
    exact ⟨by simp [bookedCosts_booked, hbooked, hne], by rw [cancellers_booked, hcancelled]⟩

/-- The ledger after a cancellation. -/
theorem Cancelled.amountsFor {c : Cancellation} {refund : ℤ} {x : Reading} {b : Booking}
    (h : Cancelled db db' c refund x b) (type : TransactionType) (id : Uuid) :
    db'.ledger.amountsFor type id = db.ledger.amountsFor type id ++
      if type = .bookingRefund ∧ id = c.booking.id ∧ 0 < refund then [refund] else [] := by
  have hledger := h.ledger
  split at hledger
  · next hpos =>
    obtain ⟨refs, hins⟩ := hledger
    rw [Ledger.amountsFor_insert hins, PointTransaction.forBooking]
    by_cases heq : type = .bookingRefund ∧ id = c.booking.id
    · simp [heq, hpos, Cancellation.entry]
    · rcases not_and_or.mp heq with hne | hne
      · simp [hne, Ne.symm hne, Cancellation.entry]
      · simp [hne, Ne.symm hne, Cancellation.entry]
  · next hpos => simp [hledger, hpos]

/-- **The cancelled booking's accounts.**  If it was confirmed, its first refund is entered now; if
it was cancelled already, a second refund would violate the unique index. -/
theorem Cancelled.accounts {c : Cancellation} {refund : ℤ} {x : Reading} {b : Booking} {cost : ℤ}
    (h : Cancelled db db' c refund x b) (hacc : Accounts db.ledger history b cost)
    (hrefund : refund = c.canceller.refund cost) :
    Accounts db'.ledger (history ++ [.cancelled c.booking.id c.canceller]) (c.data.apply b) cost := by
  have hid : c.booking.id = b.id := h.id.symm
  have hamounts := h.amountsFor
  refine ⟨hacc.nonneg, ?_, ?_, fun hs => absurd rfl hs, fun _ hpos => ?_⟩
  · rw [bookedCosts_cancelled]
    exact hacc.booked
  · rw [hamounts]
    simpa using hacc.deducted
  · have hrefund_pos : 0 < refund := hrefund ▸ c.canceller.refund_pos hpos
    by_cases hs : b.status = .cancelled
    · obtain ⟨canceller, -, hamount⟩ := hacc.refunded hs hpos
      have hlen := db'.ledger.amountsFor_length (t := .bookingRefund) (.inr rfl) b.id
      rw [hamounts, hamount] at hlen
      simp [hid, hrefund_pos] at hlen
    · obtain ⟨hcancellers, hamount⟩ := hacc.live hs
      refine ⟨c.canceller, ?_, ?_⟩
      · simp [cancellers_cancelled, hcancellers, hid]
      · simp [hamounts, hamount, hid, hrefund_pos, ← hrefund]

theorem conserved_cancelled {c : Cancellation} {refund : ℤ} {x : Reading} {b : Booking}
    (h : Conserved db history) (hknow : db.Knows c.booking)
    (hrefund : ∃ cost, bookedCosts history c.booking.id = [cost]
      ∧ refund = c.canceller.refund cost)
    (hcancelled : Cancelled db db' c refund x b) :
    Conserved db' (history ++ [.cancelled c.booking.id c.canceller]) := by
  have hpersists := hcancelled.persists
  obtain ⟨cost, hcost, hrefund⟩ := hrefund
  refine ⟨fun y hy => ?_, fun e he id hid => ?_, fun id hid => ?_⟩
  · rcases (hcancelled.bookings y).mp hy with rfl | ⟨hy, hne⟩
    · obtain ⟨cost', hacc⟩ := h.accounts b hcancelled.mem
      obtain rfl : cost' = cost :=
        List.singleton_inj.mp (hacc.booked.symm.trans (hcancelled.id ▸ hcost))
      exact ⟨cost', hcancelled.accounts hacc hrefund⟩
    · obtain ⟨cost', hacc⟩ := h.accounts y hy
      refine ⟨cost', hacc.congr rfl Iff.rfl (bookedCosts_cancelled _ _) ?_ fun type => ?_⟩
      · simp [cancellers_cancelled, Ne.symm hne]
      · simp [hcancelled.amountsFor, hne]
  · have hold : e ∈ db.ledger.transactions → ∃ b ∈ db'.bookings, b.id = id ∧ b.userId = e.userId := by
      intro he
      obtain ⟨b', hb', hid', huser⟩ := h.owned e he id hid
      obtain ⟨b'', hb'', heq⟩ := hpersists b' hb'
      have := Booking.identity_eq heq
      exact ⟨b'', hb'', this.1.trans hid', this.2.2.1.trans huser⟩
    have hledger := hcancelled.ledger
    split at hledger
    · obtain ⟨refs, hins⟩ := hledger
      rcases (Ledger.mem_insert hins).mp he with he | rfl
      · exact hold he
      · obtain ⟨b', hb', heq⟩ := hpersists.knows hknow
        have := Booking.identity_eq heq
        exact ⟨b', hb', this.1.trans (Option.some.inj hid), this.2.2.1⟩
    · exact hold (hledger ▸ he)
  · have hfresh : ∀ b' ∈ db.bookings, b'.id ≠ id := by
      intro b' hb' heq
      obtain ⟨b'', hb'', heq'⟩ := hpersists b' hb'
      exact hid b'' hb'' ((Booking.identity_eq heq').1.trans heq)
    obtain ⟨hbooked, hcancellers⟩ := h.fresh id hfresh
    have hne : c.booking.id ≠ id := hcancelled.id ▸ hfresh b hcancelled.mem
    exact ⟨by rw [bookedCosts_cancelled, hbooked], by simp [cancellers_cancelled, hcancellers, hne]⟩

theorem conserved_completed {bookingId : Uuid} {now : Timestamp} {b : Booking}
    (h : Conserved db history) (hcompleted : Completed db db' bookingId now b) :
    Conserved db' history := by
  have hpersists := hcompleted.persists
  refine ⟨fun y hy => ?_, fun e he id hid => ?_, fun id hid => ?_⟩
  · rw [hcompleted.ledger]
    rcases (hcompleted.bookings y).mp hy with rfl | ⟨hy, -⟩
    · obtain ⟨cost, hacc⟩ := h.accounts b hcompleted.mem
      refine ⟨cost, hacc.congr rfl ?_ rfl rfl fun _ => rfl⟩
      simp [hcompleted.not_cancelled]
    · exact h.accounts y hy
  · obtain ⟨b', hb', hid', huser⟩ := h.owned e (hcompleted.ledger ▸ he) id hid
    obtain ⟨b'', hb'', heq⟩ := hpersists b' hb'
    have := Booking.identity_eq heq
    exact ⟨b'', hb'', this.1.trans hid', this.2.2.1.trans huser⟩
  · refine h.fresh id fun b' hb' heq => ?_
    obtain ⟨b'', hb'', heq'⟩ := hpersists b' hb'
    exact hid b'' hb'' ((Booking.identity_eq heq').1.trans heq)

theorem conserved_outside {x : Outside} (h : Conserved db history)
    (hx : code.outside x db = some db') : Conserved db' history := by
  have hbookings := outside_bookings hx
  have key : (∀ e ∈ db'.ledger.transactions, e ∈ db.ledger.transactions ∨ e.bookingId = none)
      ∧ ∀ type id, db'.ledger.amountsFor type id = db.ledger.amountsFor type id := by
    cases x with
    | directory d =>
      obtain rfl := Option.some.inj hx
      exact ⟨fun _ => .inl, fun _ _ => rfl⟩
    | publish slot =>
      simp only [code, Option.ite_none_right_eq_some, Option.map_eq_some_iff] at hx
      obtain ⟨-, _, -, rfl⟩ := hx
      exact ⟨fun _ => .inl, fun _ _ => rfl⟩
    | credit e =>
      simp only [code, Option.ite_none_right_eq_some, Option.map_eq_some_iff] at hx
      obtain ⟨hnone, L, hins, rfl⟩ := hx
      refine ⟨fun e' he' => ?_, fun type id => amountsFor_insert_ne hins (by simp [hnone]) type⟩
      rcases (Ledger.mem_insert hins).mp he' with he' | rfl
      · exact .inl he'
      · exact .inr hnone
  refine ⟨fun y hy => ?_, fun e he id hid => ?_, fun id hid => ?_⟩
  · obtain ⟨cost, hacc⟩ := h.accounts y (hbookings ▸ hy)
    exact ⟨cost, hacc.congr rfl Iff.rfl rfl rfl fun type => key.2 type _⟩
  · rcases key.1 e he with he | hnone
    · rw [hbookings]
      exact h.owned e he id hid
    · rw [hnone] at hid
      cases hid
  · exact h.fresh id (hbookings ▸ hid)

/-- The history of a booking that is there does not lose its creation. -/
theorem priced_frame {q : Point} {emitted : List Event} (hknow : db.KnowsAll q)
    (hq : Priced history q)
    (hemit : ∀ b ∈ db.bookings, bookedCosts (history ++ emitted) b.id = bookedCosts history b.id) :
    Priced (history ++ emitted) q := by
  cases q with
  | cancelWriting c refund x rest =>
    obtain ⟨cost, hcost, hrefund⟩ := hq
    obtain ⟨b, hb, hid⟩ := hknow c.booking (by simp [Point.copies])
    have := hemit b hb
    rw [(Booking.identity_eq hid).1] at this
    exact ⟨cost, this.trans hcost, hrefund⟩
  | createWriting => exact hq
  | create | createFailed | cancel | cancelAdministrator | cancelNext | complete
  | completeAdministrator | completeWriting | reevaluate | returned | failed => exact trivial

/-! ## The outline -/

theorem conserved_commit {p : Point} (h : Conserved db history) (hknow : db.KnowsAll p)
    (hp : Priced history p) (hne : code.writes p ≠ [])
    (hrep : code.replay (code.writes p) db = some db') :
    Conserved db' (history ++ code.emits p)
      ∧ ∀ b ∈ db.bookings,
          bookedCosts (history ++ code.emits p) b.id = bookedCosts history b.id := by
  rcases commit_cases hne hrep with
    ⟨_, _, _, c, rfl, hc⟩ | ⟨c, refund, x, rest, b, rfl, hc⟩ | ⟨id, now, b, rfl, hc⟩
  · refine ⟨conserved_created h hp hc, fun b hb => ?_⟩
    have hne : b.id ≠ c.booking.id := Table.Unique.ne_of_append
      (Table.insert_eq_some.mp hc.bookings ▸ db'.bookings.valid.1) hb
    simp [code, bookedCosts_booked, Ne.symm hne]
  · exact ⟨conserved_cancelled h (hknow _ (by simp [Point.copies])) hp hc,
      fun b _ => bookedCosts_cancelled _ _⟩
  · have hemits : history ++ code.emits (.completeWriting id now) = history := List.append_nil _
    rw [hemits]
    exact ⟨conserved_completed h hc, fun _ _ => rfl⟩

/-- Conservation, as an outline. -/
def conservation : code.Outline Machine.free where
  Inv := Conserved
  At db history p := db.KnowsAll p ∧ Priced history p
  entry _ hp := by
    refine ⟨knowsAll_entry hp, ?_⟩
    rename_i p _
    cases p <;> first | exact trivial | cases hp
  read hinv hat hread :=
    ⟨knowsAll_next (next_cases hread) hat.1, priced_next hinv hat.1 hat.2 (next_cases hread)⟩
  rolledBack _ hat := by
    refine ⟨knowsAll_rolledBack hat.1, ?_⟩
    rename_i p _
    cases p <;> exact trivial
  commit {s i c db} _ hinv hat hc hne hrep := by
    obtain ⟨hinv', hbooked⟩ := conserved_commit hinv hat.1 hat.2 hne hrep
    have hpersists := persists_commit hne hrep
    refine ⟨hinv', ⟨knowsAll_committed (hpersists.knowsAll hat.1), ?_⟩, fun j d _ _ hd =>
      ⟨hpersists.knowsAll hd.1, priced_frame hd.1 hd.2 hbooked⟩⟩
    cases c.pc <;> exact trivial
  outside _ hinv hx :=
    ⟨conserved_outside hinv hx, fun _ _ hat => ⟨(persists_outside hx).knowsAll hat.1, hat.2⟩⟩

theorem conservation_holds {s : State} (h : machine.Reachable Machine.free s) :
    conservation.Holds s := by
  refine conservation.holds_of_reachable (fun db ⟨hbookings, hledger⟩ => ?_) h
  have hnone : ∀ b, b ∉ db.bookings := fun b hb => by
    have : b ∈ db.bookings.rows := hb
    rw [hbookings] at this
    cases this
  refine ⟨fun b hb => absurd hb (hnone b), fun e he id hid => ?_, fun _ _ => ⟨rfl, rfl⟩⟩
  rw [hledger e he] at hid
  cases hid

/-! ## The cost that was read -/

/-- The point cost of a slot's resource. -/
def Database.pointCost? (db : Database) (slotId : Uuid) : Option ℤ :=
  (db.slot? slotId).bind fun slot => (db.directory.resource? slot.resourceId).map (·.pointCost)

/-- **In `s₀` call `i` took the snapshot of the attempt** that it has to commit in `s`. -/
structure Snapshot (s₀ s : State) (i : ℕ) (resourceSlotId : Uuid) (user : AuthenticatedUser)
    (attempt : ℕ) (c : Creation) : Prop where
  reachable : machine.Reachable Machine.free s₀
  begun : ∃ n, s₀.calls[i]? = some ⟨.create resourceSlotId user attempt, n⟩
  read : ∃ x s₁, machine.step s₀ (.read i x) = some s₁
    ∧ s₁.calls[i]? = some ⟨.createWriting resourceSlotId user attempt c, 0⟩
    ∧ machine.Run Machine.free s₁ s
  pending : ∃ n, s.calls[i]? = some ⟨.createWriting resourceSlotId user attempt c, n⟩

/-- **The booking came about at this point cost**: a call's attempt read it in its snapshot, as that
of the slot's resource, and recorded it in the commit that made the booking. -/
def BookedAt (s : State) (b : Booking) (pointCost : ℤ) : Prop :=
  ∃ s₀ s₁ s₂ i resourceSlotId user attempt c, Snapshot s₀ s₁ i resourceSlotId user attempt c
    ∧ s₀.db.pointCost? b.resourceSlotId = some pointCost
    ∧ machine.step s₁ (.commit i) = some s₂ ∧ c.booking.identity = b.identity
    ∧ s₂.history = s₁.history ++ [.booked b.id pointCost]
    ∧ machine.Run Machine.free s₂ s

theorem pointCost?_of_created {x : Reading} {slotId : Uuid} {user : AuthenticatedUser} {c : Creation}
    (h : createWithinTransaction .none db x slotId user = .ok c) :
    db.pointCost? c.booking.resourceSlotId = some c.context.pointCost := by
  obtain ⟨context, hval, rfl⟩ := creation_of_ok h
  obtain ⟨slot, hslot, hid, -, resource, hresource, hcost⟩ := hval.published
  have hfind : db.slot? slotId = some slot := hid ▸ db.slots.valid.1.find?_eq hslot
  simp only [Database.pointCost?, Creation.of, hval.slotId, hfind, Option.bind_some, hresource,
    Option.map_some, hcost]

theorem Snapshot.step {s₀ s t : State} {i : ℕ} {resourceSlotId : Uuid} {user : AuthenticatedUser}
    {attempt n : ℕ} {c : Creation} {l : Label Point (Reading ⊕ Thrown BookingError) Outside}
    (h : Snapshot s₀ s i resourceSlotId user attempt c) (hstep : machine.step s l = some t)
    (hc : t.calls[i]? = some ⟨.createWriting resourceSlotId user attempt c, n⟩) :
    Snapshot s₀ t i resourceSlotId user attempt c := by
  obtain ⟨x, s₁, hread, hs₁, hrun⟩ := h.read
  exact ⟨h.reachable, h.begun, ⟨x, s₁, hread, hs₁, hrun.tail trivial hstep⟩, n, hc⟩

/-- Every attempt about to be committed has a snapshot with its cost. -/
def Snapshots (s : State) : Prop :=
  ∀ {i resourceSlotId user attempt c n},
    s.calls[i]? = some ⟨.createWriting resourceSlotId user attempt c, n⟩ →
      ∃ s₀, Snapshot s₀ s i resourceSlotId user attempt c
        ∧ s₀.db.pointCost? c.booking.resourceSlotId = some c.context.pointCost

theorem snapshots_step {s t : State} {l : Label Point (Reading ⊕ Thrown BookingError) Outside}
    (hs : machine.Reachable Machine.free s) (h : Snapshots s) (hstep : machine.step s l = some t) :
    Snapshots t := by
  intro i slotId user attempt c n hc
  cases hd : s.calls[i]? with
  | none => cases Code.new_call hd hstep hc
  | some d =>
    obtain ⟨p, m⟩ := d
    have hkept {m : ℕ} (hd : s.calls[i]? = some ⟨.createWriting slotId user attempt c, m⟩) :
        ∃ s₀, Snapshot s₀ t i slotId user attempt c
          ∧ s₀.db.pointCost? c.booking.resourceSlotId = some c.context.pointCost := by
      obtain ⟨s₀, hsnapshot, hcost⟩ := h hd
      exact ⟨s₀, hsnapshot.step hstep hc, hcost⟩
    cases Code.call_cases hd hstep with
    | other _ hsame =>
      obtain rfl := Session.mk.inj (Option.some.inj (hsame.symm.trans hc)) |>.1
      exact hkept hd
    | @read x p' _ hread _ hp =>
      obtain ⟨rfl, rfl⟩ := Session.mk.inj (Option.some.inj (hp.symm.trans hc))
      cases next_cases hread with
      | created h =>
        exact ⟨s, ⟨hs, ⟨m, hd⟩, ⟨x, t, hstep, hc, .refl⟩, 0, hc⟩, pointCost?_of_created h⟩
    | write _ _ hp =>
      obtain rfl := Session.mk.inj (Option.some.inj (hp.symm.trans hc)) |>.1
      exact hkept hd
    | commit _ _ hp =>
      have := Session.mk.inj (Option.some.inj (hp.symm.trans hc)) |>.1
      cases p <;> cases this
    | rollback _ hp =>
      have := Session.mk.inj (Option.some.inj (hp.symm.trans hc)) |>.1
      cases p <;> cases this

/-- A row of the database a commit leaves is a new one, or was there before. -/
theorem booking_cases {p : Point} (hne : code.writes p ≠ [])
    (hrep : code.replay (code.writes p) db = some db') {b : Booking} (hb : b ∈ db'.bookings) :
    db.Knows b ∨ ∃ resourceSlotId user attempt, ∃ c : Creation,
      p = .createWriting resourceSlotId user attempt c ∧ c.booking = b := by
  rcases commit_cases hne hrep with
    ⟨_, _, _, c, rfl, hc⟩ | ⟨c, refund, x, rest, old, rfl, hc⟩ | ⟨id, now, old, rfl, hc⟩
  · rcases (Table.mem_insert hc.bookings).mp hb with hb | rfl
    · exact .inl (Database.knows_of_mem hb)
    · exact .inr ⟨_, _, _, c, rfl, rfl⟩
  · rcases (hc.bookings b).mp hb with rfl | ⟨hb, -⟩
    · exact .inl ⟨old, hc.mem, rfl⟩
    · exact .inl (Database.knows_of_mem hb)
  · rcases (hc.bookings b).mp hb with rfl | ⟨hb, -⟩
    · exact .inl ⟨old, hc.mem, rfl⟩
    · exact .inl (Database.knows_of_mem hb)

theorem BookedAt.step {s t : State} {l : Label Point (Reading ⊕ Thrown BookingError) Outside}
    {b b' : Booking} {pointCost : ℤ} (h : BookedAt s b pointCost) (hstep : machine.step s l = some t)
    (hid : b.identity = b'.identity) : BookedAt t b' pointCost := by
  obtain ⟨s₀, s₁, s₂, i, slotId, user, attempt, c, hsnapshot, hcost, hcommit, hc, hhistory, hrun⟩ := h
  obtain ⟨hbid, hslot, -⟩ := Booking.identity_eq hid
  exact ⟨s₀, s₁, s₂, i, slotId, user, attempt, c, hsnapshot, hslot ▸ hcost, hcommit, hc.trans hid,
    hbid ▸ hhistory, hrun.tail trivial hstep⟩

/-- **Every booking came about at the cost of its slot's resource in a snapshot.** -/
theorem bookedAt {s : State} (h : machine.Reachable Machine.free s) {b : Booking}
    (hb : b ∈ s.db.bookings) : ∃ pointCost, BookedAt s b pointCost := by
  have key := by
    refine Machine.Reachable.invariant (I := fun s => machine.Reachable Machine.free s
      ∧ Snapshots s ∧ ∀ b ∈ s.db.bookings, ∃ pointCost, BookedAt s b pointCost) h
      (fun {s} hinit => ⟨⟨s, hinit, .refl⟩, ?_, ?_⟩) ?_
    · intro i _ _ _ _ _ hc
      rw [hinit.2.2] at hc
      cases hc
    · intro b hb
      have hb : b ∈ s.db.bookings.rows := hb
      rw [hinit.1.1] at hb
      cases hb
    · rintro s l t ⟨hs, hsnapshots, hbooked⟩ - hstep
      have hkept {b b' : Booking} (hb : b ∈ s.db.bookings) (hid : b.identity = b'.identity) :
          ∃ pointCost, BookedAt t b' pointCost := by
        obtain ⟨pointCost, hcost⟩ := hbooked b hb
        exact ⟨pointCost, hcost.step hstep hid⟩
      refine ⟨hs.run (.single trivial hstep), snapshots_step hs hsnapshots hstep, fun b hb => ?_⟩
      cases Code.step_cases hstep with
      | call | read | write | rollback => exact hkept hb rfl
      | outside hx => exact hkept (outside_bookings hx ▸ hb) rfl
      | @commit i c db hc hpos hall hrep =>
        have hne := List.ne_nil_of_length_pos (hall ▸ hpos)
        rcases booking_cases hne hrep hb with ⟨b', hb', hid⟩ | ⟨slotId, user, attempt, d, hd, rfl⟩
        · exact hkept hb' hid
        · obtain ⟨p, n⟩ := c
          obtain rfl : p = _ := hd
          obtain ⟨s₀, hsnapshot, hcost⟩ := hsnapshots hc
          exact ⟨_, s₀, s, _, i, slotId, user, attempt, d, hsnapshot, hcost, hstep, rfl, rfl, .refl⟩
  exact key.2.2 b hb

/-- The cost in the history is the one that was read. -/
theorem BookedAt.eq {s : State} {b : Booking} {pointCost cost : ℤ} (h : BookedAt s b pointCost)
    (hbooked : bookedCosts s.history b.id = [cost]) : pointCost = cost := by
  obtain ⟨s₀, s₁, s₂, i, _, _, _, c, -, -, -, -, hhistory, hrun⟩ := h
  have hevent : Event.booked b.id pointCost ∈ s.history :=
    (Code.history_prefix hrun).subset (hhistory ▸ List.mem_append_right _ (List.mem_singleton_self _))
  have hmem : pointCost ∈ bookedCosts s.history b.id :=
    List.mem_filterMap.mpr ⟨_, hevent, if_pos rfl⟩
  exact List.mem_singleton.mp (hbooked ▸ hmem)

/-- **Booking ledger conservation.**  In every state of every interleaving, a booking was created
once, at a cost that is its slot's resource's in the snapshot of the attempt that made it, and that
its one deduction has taken (there is none if it cost nothing); it has at most one refund, none
unless it is cancelled, and when a booking that cost something is cancelled, one on the terms of the
one call that cancelled it. -/
theorem ledger_conservation {s : State} (h : machine.Reachable Machine.free s) {b : Booking}
    (hb : b ∈ s.db.bookings) :
    ∃ pointCost, BookedAt s b pointCost ∧ bookedCosts s.history b.id = [pointCost]
      ∧ s.db.ledger.amountsFor .booking b.id = (if 0 < pointCost then [-pointCost] else [])
      ∧ (s.db.ledger.amountsFor .bookingRefund b.id).length ≤ 1
      ∧ (b.status ≠ .cancelled → s.db.ledger.amountsFor .bookingRefund b.id = [])
      ∧ (b.status = .cancelled → 0 < pointCost → ∃ canceller,
          cancellers s.history b.id = [canceller]
            ∧ s.db.ledger.amountsFor .bookingRefund b.id = [canceller.refund pointCost]) := by
  obtain ⟨cost, hacc⟩ := (conservation_holds h).inv.accounts b hb
  obtain ⟨pointCost, hbooked⟩ := bookedAt h hb
  rw [hbooked.eq hacc.booked] at hbooked
  exact ⟨cost, hbooked, hacc.booked, hacc.deducted, s.db.ledger.amountsFor_length (.inr rfl) b.id,
    fun hs => (hacc.live hs).2, hacc.refunded⟩

/-- A booking of cost 5 that its user cancels: 3 points come back. -/
theorem ledger_conservation_of_user_cancellation :
    ∃ s : State, machine.Reachable Machine.free s ∧ ∃ b ∈ s.db.bookings, b.status = .cancelled
      ∧ cancellers s.history b.id = [.user]
      ∧ s.db.ledger.amountsFor .bookingRefund b.id = [3]
      ∧ ∃ pointCost, BookedAt s b pointCost ∧ bookedCosts s.history b.id = [pointCost]
        ∧ s.db.ledger.amountsFor .booking b.id = if 0 < pointCost then [-pointCost] else [] := by
  let bonus : PointTransaction :=
    { id := 1, userId := 1, rootOrganizationId := some 100, amount := 50,
      transactionType := .joinBonus, sourceOrganizationId := some 100, createdAt := 0 }
  obtain ⟨s, hs, hp⟩ := machine.exists_reachable (s := sample 5)
    (p := fun s => (s.db.booking? 30).any (·.status = .cancelled)
      && decide (cancellers s.history 30 = [.user])
      && decide (s.db.ledger.amountsFor .bookingRefund 30 = [3]))
    [.outside (.credit bonus),
      .call (.create 20 ⟨1, some 100⟩ 1), .read 0 (.inl { now := 1, id := 30, entryId := 2 }),
      .write 0, .write 0, .commit 0,
      .call (.cancel 30 1 {}), .read 1 (.inl { now := 2 }), .read 1 (.inl { entryId := 3 }),
      .write 1, .write 1, .write 1, .commit 1] (sample_init 5) (by decide)
  simp only [Bool.and_eq_true, Option.any_eq_true, decide_eq_true_eq] at hp
  obtain ⟨⟨⟨b, hb, hstatus⟩, hcancellers⟩, hrefund⟩ := hp
  obtain ⟨hmem, hid⟩ := mem_of_booking? hb
  obtain ⟨cost, hread, hbooked, hdeducted, -⟩ := ledger_conservation hs hmem
  exact ⟨s, hs, b, hmem, hstatus, hid ▸ hcancellers, hid ▸ hrefund, cost, hread, hbooked, hdeducted⟩

end ResourceHive.Bookings
