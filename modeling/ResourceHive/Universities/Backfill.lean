import ResourceHive.Machinery.Grouping
import ResourceHive.Points.Balance

/-!
# Universities/Backfill — the migration that gives every row its university

`20260930130000_university_row_security`, as far as it moves data of bookings, disputes and points: a
slot, a booking and a dispute's event get the university of what they belong to, an entry of the
ledger that of its organization or of its booking's resource, and the balances of the users are
counted again, for each university by itself.

The statements are one transaction, which fails where a constraint rejects a row.  It goes through
exactly if disputes are where their bookings and their resolvers are, and no user has overdrawn their
points in any one university (`migrate_isSome_iff`); then no points are lost, and the ledger is one
that the trigger goes on from (`points_conserved`, `projects_after_migration`).
-/

namespace ResourceHive.Universities.Backfill

/-! ## The tables before it -/

structure Organization where
  id : Uuid
  rootOrganizationId : Uuid
  deriving DecidableEq

structure Resource where
  id : Uuid
  rootOrganizationId : Uuid
  deriving DecidableEq

structure ResourceSlot where
  id : Uuid
  resourceId : Uuid
  deriving DecidableEq

structure Booking where
  id : Uuid
  userId : Uuid
  resourceSlotId : Uuid
  deriving DecidableEq

structure BookingDispute where
  id : Uuid
  bookingId : Uuid
  rootOrganizationId : Uuid
  resolverOrganizationId : Uuid
  deriving DecidableEq

structure BookingDisputeEvent where
  id : Uuid
  disputeId : Uuid
  deriving DecidableEq

/-- **The database before the migration**, with the primary keys and the foreign keys that the
migration relies on; in the column that is added to `point_transactions` there is nothing yet. -/
structure Legacy where
  users : List Uuid
  organizations : List Organization
  resources : List Resource
  slots : List ResourceSlot
  bookings : List Booking
  disputes : List BookingDispute
  events : List BookingDisputeEvent
  transactions : Table PointTransaction PointTransaction.Constraints
  organizations_pk : (organizations.map (·.id)).Nodup
  organizations_root : ∀ o ∈ organizations, o.rootOrganizationId ∈ organizations.map (·.id)
  resources_pk : (resources.map (·.id)).Nodup
  resources_root : ∀ r ∈ resources, r.rootOrganizationId ∈ organizations.map (·.rootOrganizationId)
  slots_pk : (slots.map (·.id)).Nodup
  slots_resource : ∀ s ∈ slots, s.resourceId ∈ resources.map (·.id)
  bookings_pk : (bookings.map (·.id)).Nodup
  bookings_slot : ∀ b ∈ bookings, b.resourceSlotId ∈ slots.map (·.id)
  disputes_pk : (disputes.map (·.id)).Nodup
  disputes_booking : ∀ d ∈ disputes, d.bookingId ∈ bookings.map (·.id)
  disputes_resolver : ∀ d ∈ disputes, d.resolverOrganizationId ∈ organizations.map (·.id)
  events_dispute : ∀ e ∈ events, e.disputeId ∈ disputes.map (·.id)
  transactions_user : ∀ e ∈ transactions.rows, e.userId ∈ users
  transactions_source : ∀ e ∈ transactions.rows, ∀ o ∈ e.sourceOrganizationId,
    o ∈ organizations.map (·.id)
  transactions_booking : ∀ e ∈ transactions.rows, ∀ b ∈ e.bookingId,
    (b, e.userId) ∈ bookings.map fun b => (b.id, b.userId)
  transactions_new : ∀ e ∈ transactions.rows, e.rootOrganizationId = none

namespace Legacy

variable (db : Legacy)

/-! ## The updates -/

def organizationRoot? (id : Uuid) : Option Uuid :=
  (db.organizations.find? (·.id = id)).map (·.rootOrganizationId)

/-- The university of a slot: that of its resource. -/
def slotRoot? (s : ResourceSlot) : Option Uuid :=
  (db.resources.find? (·.id = s.resourceId)).map (·.rootOrganizationId)

def bookingRoot? (b : Booking) : Option Uuid :=
  (db.slots.find? (·.id = b.resourceSlotId)).bind db.slotRoot?

/-- The university of a booking that a column refers to. -/
def rootOfBooking? (id : Uuid) : Option Uuid :=
  (db.bookings.find? (·.id = id)).bind db.bookingRoot?

def eventRoot? (e : BookingDisputeEvent) : Option Uuid :=
  (db.disputes.find? (·.id = e.disputeId)).map (·.rootOrganizationId)

/-- The two updates of `point_transactions`: by the organization, and where that left nothing by the
booking. -/
def transactionRoot? (e : PointTransaction) : Option Uuid :=
  (e.sourceOrganizationId.bind db.organizationRoot?).or
    (e.bookingId.bind db.rootOfBooking?)

def attributed (e : PointTransaction) : PointTransaction :=
  { e with rootOrganizationId := db.transactionRoot? e }

/-- A column is added, updated, and set `NOT NULL`. -/
def scope {α : Type} (root? : α → Option Uuid) (rows : List α) : Option (List (α × Uuid)) :=
  if ∀ a ∈ rows, (root? a).isSome then some (rows.filterMap fun a => (root? a).map (a, ·)) else none

/-- The entries that have a university, with it. -/
def placed (entries : List PointTransaction) : List (PointTransaction × Uuid) :=
  entries.filterMap fun e => e.rootOrganizationId.map (e, ·)

def pairOf (p : PointTransaction × Uuid) : Uuid × Uuid := (p.1.userId, p.2)

def balanceOf (pair : Uuid × Uuid) (group : List (PointTransaction × Uuid)) : UserPointBalance where
  userId := pair.1
  rootOrganizationId := pair.2
  availablePoints := (group.map (·.1.amount)).sum
  updatedAt := (group.map (·.1.createdAt)).max?.getD 0

/-- **The balances, counted again.** -/
def rebuild (entries : List PointTransaction) : List UserPointBalance :=
  Grouping.groupBy pairOf balanceOf (placed entries)

end Legacy

/-- The tables after it. -/
structure Migrated where
  slots : List (ResourceSlot × Uuid)
  bookings : List (Booking × Uuid)
  events : List (BookingDisputeEvent × Uuid)
  ledger : Ledger

namespace Legacy

variable (db : Legacy)

/-- What the foreign keys of the ledger refer to, once the bookings have a university. -/
def references (bookings : List (Booking × Uuid)) : References where
  users := db.users
  organizations := db.organizations.map fun o => (o.id, o.rootOrganizationId)
  bookings := bookings.map fun b => (b.1.id, b.1.userId, b.2)

/-- **The migration**; `none` where a statement fails. -/
def migrate : Option Migrated := do
  let slots ← scope db.slotRoot? db.slots
  guard (∀ s ∈ slots, ∃ r ∈ db.resources, r.id = s.1.resourceId ∧ r.rootOrganizationId = s.2)
  let bookings ← scope db.bookingRoot? db.bookings
  guard (∀ b ∈ bookings, ∃ s ∈ slots, s.1.id = b.1.resourceSlotId ∧ s.2 = b.2)
  let events ← scope db.eventRoot? db.events
  guard (∀ e ∈ events, ∃ d ∈ db.disputes, d.id = e.1.disputeId ∧ d.rootOrganizationId = e.2)
  guard (∀ d ∈ db.disputes, ∃ b ∈ bookings, b.1.id = d.bookingId ∧ b.2 = d.rootOrganizationId)
  guard (∀ d ∈ db.disputes, ∃ o ∈ db.organizations, o.id = d.resolverOrganizationId
    ∧ o.rootOrganizationId = d.rootOrganizationId)
  let transactions ← Table.replace (db.transactions.rows.map db.attributed)
  guard (∀ e ∈ transactions.rows, (db.references bookings).Admits e)
  guard (∀ b ∈ rebuild transactions.rows,
    (db.references bookings).AdmitsBalance b.userId b.rootOrganizationId)
  let balances ← Table.replace (rebuild transactions.rows)
  return { slots, bookings, events, ledger := ⟨transactions, balances⟩ }

/-! ## What the updates find -/

section Updates

variable {db}

/-- A look-up along a foreign key finds a row. -/
private theorem exists_row {α : Type} {pk : α → Uuid} {rows : List α} {id : Uuid}
    (h : id ∈ rows.map pk) : ∃ a ∈ rows, pk a = id ∧ rows.find? (pk · = id) = some a := by
  obtain ⟨a, ha, rfl⟩ := List.mem_map.mp h
  obtain ⟨x, hx⟩ : ∃ x, rows.find? (pk · = pk a) = some x :=
    Option.isSome_iff_exists.mp (List.find?_isSome.mpr ⟨a, ha, decide_eq_true rfl⟩)
  exact ⟨x, List.mem_of_find?_eq_some hx, by simpa using List.find?_some hx, hx⟩

theorem exists_organization {id : Uuid} (h : id ∈ db.organizations.map (·.id)) :
    ∃ o ∈ db.organizations, o.id = id ∧ db.organizationRoot? id = some o.rootOrganizationId := by
  obtain ⟨o, ho, hid, hfind⟩ := exists_row h
  exact ⟨o, ho, hid, by rw [organizationRoot?, hfind]; rfl⟩

theorem exists_resource {s : ResourceSlot} (h : s ∈ db.slots) :
    ∃ r ∈ db.resources, r.id = s.resourceId ∧ db.slotRoot? s = some r.rootOrganizationId := by
  obtain ⟨r, hr, hid, hfind⟩ := exists_row (db.slots_resource s h)
  exact ⟨r, hr, hid, by rw [slotRoot?, hfind]; rfl⟩

theorem exists_slot {b : Booking} (h : b ∈ db.bookings) :
    ∃ s ∈ db.slots, s.id = b.resourceSlotId ∧ db.bookingRoot? b = db.slotRoot? s := by
  obtain ⟨s, hs, hid, hfind⟩ := exists_row (db.bookings_slot b h)
  exact ⟨s, hs, hid, by rw [bookingRoot?, hfind]; rfl⟩

theorem exists_dispute {e : BookingDisputeEvent} (h : e ∈ db.events) :
    ∃ d ∈ db.disputes, d.id = e.disputeId ∧ db.eventRoot? e = some d.rootOrganizationId := by
  obtain ⟨d, hd, hid, hfind⟩ := exists_row (db.events_dispute e h)
  exact ⟨d, hd, hid, by rw [eventRoot?, hfind]; rfl⟩

/-- A booking is at the university of a resource. -/
theorem exists_bookingRoot {b : Booking} (h : b ∈ db.bookings) :
    ∃ r ∈ db.resources, db.bookingRoot? b = some r.rootOrganizationId := by
  obtain ⟨s, hs, -, hroot⟩ := exists_slot h
  obtain ⟨r, hr, -, hrr⟩ := exists_resource hs
  exact ⟨r, hr, hroot.trans hrr⟩

theorem rootOfBooking?_eq {b : Booking} (h : b ∈ db.bookings) :
    db.rootOfBooking? b.id = db.bookingRoot? b := by
  have hpk : Table.Unique Booking.id db.bookings := db.bookings_pk
  have hfind : db.bookings.find? (·.id = b.id) = some b := hpk.find?_eq h
  rw [rootOfBooking?, hfind]
  rfl

/-- **An entry has a university**: that of its organization, if it is a grant, and that of its
booking, if it is a deduction or a refund. -/
theorem transactionRoot?_cases {e : PointTransaction} (h : e ∈ db.transactions.rows) :
    (∃ o ∈ db.organizations, e.sourceOrganizationId = some o.id ∧ e.bookingId = none
        ∧ db.transactionRoot? e = some o.rootOrganizationId)
      ∨ ∃ b ∈ db.bookings, e.sourceOrganizationId = none ∧ e.bookingId = some b.id
        ∧ b.userId = e.userId ∧ db.transactionRoot? e = db.bookingRoot? b := by
  have hsource := (db.transactions.valid.2.1 e h).2.2
  have hbooked : e.sourceOrganizationId.isNone → e.bookingId.isSome →
      ∃ b ∈ db.bookings, e.sourceOrganizationId = none ∧ e.bookingId = some b.id
        ∧ b.userId = e.userId ∧ db.transactionRoot? e = db.bookingRoot? b := by
    intro hnone hsome
    rw [Option.isNone_iff_eq_none] at hnone
    obtain ⟨id, hid⟩ := Option.isSome_iff_exists.mp hsome
    obtain ⟨b, hb, hpair⟩ := List.mem_map.mp (db.transactions_booking e h id hid)
    obtain ⟨rfl, huser⟩ := Prod.mk.inj hpair
    exact ⟨b, hb, hnone, hid, huser, by
      rw [transactionRoot?, hnone, hid, ← rootOfBooking?_eq hb]; rfl⟩
  rcases hsource with ⟨-, -, hsome, hnone⟩ | ⟨-, -, hnone, hsome⟩ | ⟨-, -, hnone, hsome⟩
  · obtain ⟨id, hid⟩ := Option.isSome_iff_exists.mp hsome
    obtain ⟨o, ho, rfl, hroot⟩ := exists_organization (db.transactions_source e h id hid)
    refine .inl ⟨o, ho, hid, Option.isNone_iff_eq_none.mp hnone, ?_⟩
    rw [transactionRoot?, hid, Option.bind_some, hroot]
    rfl
  · exact .inr (hbooked hnone hsome)
  · exact .inr (hbooked hnone hsome)

/-- …which is one of the universities. -/
theorem exists_transactionRoot {e : PointTransaction} (h : e ∈ db.transactions.rows) :
    ∃ r ∈ db.organizations.map (·.rootOrganizationId), db.transactionRoot? e = some r := by
  rcases transactionRoot?_cases h with ⟨o, ho, -, -, hroot⟩ | ⟨b, hb, -, -, -, hroot⟩
  · exact ⟨_, List.mem_map_of_mem ho, hroot⟩
  · obtain ⟨r, hr, hbr⟩ := exists_bookingRoot hb
    exact ⟨_, db.resources_root r hr, hroot.trans hbr⟩

theorem scope_eq_some {α : Type} {root? : α → Option Uuid} {rows : List α} {out : List (α × Uuid)} :
    scope root? rows = some out ↔ (∀ a ∈ rows, (root? a).isSome)
      ∧ (rows.filterMap fun a => (root? a).map (a, ·)) = out := by
  rw [scope, Option.ite_none_right_eq_some, Option.some.injEq]

theorem mem_scope {α : Type} {root? : α → Option Uuid} {rows : List α} {out : List (α × Uuid)}
    (h : scope root? rows = some out) {a : α} {r : Uuid} :
    (a, r) ∈ out ↔ a ∈ rows ∧ root? a = some r := by
  rw [← (scope_eq_some.mp h).2, List.mem_filterMap]
  constructor
  · rintro ⟨a', ha, heq⟩
    obtain ⟨r', hr, heq⟩ := Option.map_eq_some_iff.mp heq
    obtain ⟨rfl, rfl⟩ := Prod.mk.inj heq
    exact ⟨ha, hr⟩
  · rintro ⟨ha, hr⟩
    exact ⟨a, ha, by rw [hr]; rfl⟩

end Updates

/-! ## The constraints of the ledger -/

section Ledgers

variable {db}

/-- What a user's entries at a university amount to. -/
def balanceAt (db : Legacy) (u r : Uuid) : ℤ :=
  ((db.transactions.rows.filter fun e => e.userId = u && db.transactionRoot? e = some r).map
    (·.amount)).sum

/-- No constraint of a row looks at its university. -/
theorem constraints_attributed (db : Legacy) :
    PointTransaction.Constraints (db.transactions.rows.map db.attributed) := by
  obtain ⟨hid, hcheck, hjoin, hbooking, hrefund⟩ := db.transactions.valid
  refine ⟨hid.map fun _ => rfl, fun e he => ?_, hjoin.map ?_, hbooking.map ?_, hrefund.map ?_⟩
  · obtain ⟨e₀, he₀, rfl⟩ := List.mem_map.mp he
    exact hcheck e₀ he₀
  all_goals exact fun _ _ hp => ⟨hp, rfl⟩

theorem mem_placed {entries : List PointTransaction} {e : PointTransaction} {r : Uuid} :
    (e, r) ∈ placed entries ↔ e ∈ entries ∧ e.rootOrganizationId = some r := by
  simp [placed]

/-- What a group of entries adds up to is what the ledger says of the pair. -/
theorem sum_group_placed (entries : List PointTransaction) (u r : Uuid) :
    ((Grouping.group pairOf (placed entries) (u, r)).map (·.1.amount)).sum
      = ((entries.filter (·.of u r)).map (·.amount)).sum := by
  induction entries with
  | nil => rfl
  | cons e entries ih =>
    rw [Grouping.group] at ih ⊢
    cases hroot : e.rootOrganizationId with
    | none => simpa [placed, PointTransaction.of, hroot] using ih
    | some root =>
      by_cases hpair : e.userId = u ∧ root = r
      · simpa [placed, pairOf, PointTransaction.of, hroot, hpair] using ih
      · simpa [placed, pairOf, PointTransaction.of, hroot, hpair] using ih

theorem sum_attributed (u r : Uuid) :
    (((db.transactions.rows.map db.attributed).filter (·.of u r)).map (·.amount)).sum
      = db.balanceAt u r := by
  rw [List.filter_map, List.map_map]
  rfl

/-- The balance of a pair is what its entries amount to. -/
theorem availablePoints_rebuild {entries : List PointTransaction} {u r : Uuid} :
    (((rebuild entries).find? (·.of u r)).map (·.availablePoints)).getD 0
      = ((entries.filter (·.of u r)).map (·.amount)).sum := by
  have hof : ∀ (pair : Uuid × Uuid) (group : List (PointTransaction × Uuid)),
      (balanceOf pair group).of u r = decide (pair = (u, r)) := by
    intro pair group
    rw [Bool.eq_iff_iff, UserPointBalance.of, Bool.and_eq_true, decide_eq_true_eq,
      decide_eq_true_eq, decide_eq_true_eq]
    exact ⟨fun h => Prod.ext h.1 h.2, fun h => ⟨congrArg Prod.fst h, congrArg Prod.snd h⟩⟩
  rw [rebuild, Grouping.find?_groupBy hof, ← sum_group_placed]
  split
  · rfl
  · next hk => rw [Grouping.group_eq_nil hk]; rfl

/-- **The balances are admitted if none is overdrawn**, and none too large. -/
theorem constraints_rebuild {entries : List PointTransaction} :
    UserPointBalance.Constraints (rebuild entries) ↔
      ∀ u r, 0 ≤ ((entries.filter (·.of u r)).map (·.amount)).sum
        ∧ ((entries.filter (·.of u r)).map (·.amount)).sum ≤ 2147483647 := by
  constructor
  · rintro ⟨-, hcheck⟩ u r
    rw [← availablePoints_rebuild]
    cases hfind : (rebuild entries).find? (·.of u r) with
    | none => decide
    | some b =>
      have hb := hcheck b (List.mem_of_find?_eq_some hfind)
      exact ⟨hb.2, hb.1.2⟩
  · intro hsum
    refine ⟨?_, fun b hb => ?_⟩
    · have hkeys : (rebuild entries).map (fun b => (b.userId, b.rootOrganizationId))
          = Grouping.keys pairOf (placed entries) := Grouping.map_groupBy fun _ _ => rfl
      rw [Table.Unique, hkeys]
      exact Grouping.nodup_keys _ _
    · obtain ⟨⟨u, r⟩, -, rfl⟩ := List.mem_map.mp hb
      have hb := hsum u r
      rw [← sum_group_placed] at hb
      exact ⟨⟨by simp only [balanceOf]; omega, hb.2⟩, hb.1⟩

end Ledgers

/-! ## The foreign keys of what it has filled in -/

section Keys

variable {db} {slots : List (ResourceSlot × Uuid)} {bookings : List (Booking × Uuid)}
  {events : List (BookingDisputeEvent × Uuid)}

theorem exists_slots (db : Legacy) : ∃ slots, scope db.slotRoot? db.slots = some slots := by
  refine ⟨_, scope_eq_some.mpr ⟨fun s hs => ?_, rfl⟩⟩
  obtain ⟨r, -, -, hroot⟩ := exists_resource hs
  exact Option.isSome_iff_exists.mpr ⟨_, hroot⟩

theorem exists_bookings (db : Legacy) : ∃ bookings, scope db.bookingRoot? db.bookings = some bookings := by
  refine ⟨_, scope_eq_some.mpr ⟨fun b hb => ?_, rfl⟩⟩
  obtain ⟨r, -, hroot⟩ := exists_bookingRoot hb
  exact Option.isSome_iff_exists.mpr ⟨_, hroot⟩

theorem exists_events (db : Legacy) : ∃ events, scope db.eventRoot? db.events = some events := by
  refine ⟨_, scope_eq_some.mpr ⟨fun e he => ?_, rfl⟩⟩
  obtain ⟨d, -, -, hroot⟩ := exists_dispute he
  exact Option.isSome_iff_exists.mpr ⟨_, hroot⟩

theorem slots_admitted (h : scope db.slotRoot? db.slots = some slots) :
    ∀ s ∈ slots, ∃ r ∈ db.resources, r.id = s.1.resourceId ∧ r.rootOrganizationId = s.2 := by
  rintro ⟨s, root⟩ hmem
  obtain ⟨hs, hroot⟩ := (mem_scope h).mp hmem
  obtain ⟨r, hr, hid, hrr⟩ := exists_resource hs
  exact ⟨r, hr, hid, Option.some.inj (hrr.symm.trans hroot)⟩

theorem bookings_admitted (hslots : scope db.slotRoot? db.slots = some slots)
    (h : scope db.bookingRoot? db.bookings = some bookings) :
    ∀ b ∈ bookings, ∃ s ∈ slots, s.1.id = b.1.resourceSlotId ∧ s.2 = b.2 := by
  rintro ⟨b, root⟩ hmem
  obtain ⟨hb, hroot⟩ := (mem_scope h).mp hmem
  obtain ⟨s, hs, hid, hbs⟩ := exists_slot hb
  have hslot : (s, root) ∈ slots := (mem_scope hslots).mpr ⟨hs, hbs.symm.trans hroot⟩
  exact ⟨_, hslot, hid, rfl⟩

theorem events_admitted (h : scope db.eventRoot? db.events = some events) :
    ∀ e ∈ events, ∃ d ∈ db.disputes, d.id = e.1.disputeId ∧ d.rootOrganizationId = e.2 := by
  rintro ⟨e, root⟩ hmem
  obtain ⟨he, hroot⟩ := (mem_scope h).mp hmem
  obtain ⟨d, hd, hid, hdr⟩ := exists_dispute he
  exact ⟨d, hd, hid, Option.some.inj (hdr.symm.trans hroot)⟩

/-- The key a dispute's booking has, if the dispute is where it is. -/
theorem mem_bookings_iff (h : scope db.bookingRoot? db.bookings = some bookings) {id root : Uuid} :
    (∃ b ∈ bookings, b.1.id = id ∧ b.2 = root) ↔ db.rootOfBooking? id = some root := by
  constructor
  · rintro ⟨⟨b, r⟩, hbr, rfl, rfl⟩
    obtain ⟨hb, hroot⟩ := (mem_scope h).mp hbr
    exact (rootOfBooking?_eq hb).trans hroot
  · intro hroot
    obtain ⟨b, hfind, hb⟩ := Option.bind_eq_some_iff.mp hroot
    have hid : b.id = id := by simpa using List.find?_some hfind
    have hbr : (b, root) ∈ bookings := (mem_scope h).mpr ⟨List.mem_of_find?_eq_some hfind, hb⟩
    exact ⟨_, hbr, hid, rfl⟩

theorem mem_organizations_iff {id root : Uuid} :
    (∃ o ∈ db.organizations, o.id = id ∧ o.rootOrganizationId = root)
      ↔ db.organizationRoot? id = some root := by
  have hpk : Table.Unique Organization.id db.organizations := db.organizations_pk
  constructor
  · rintro ⟨o, ho, rfl, rfl⟩
    have hfind : db.organizations.find? (·.id = o.id) = some o := hpk.find?_eq ho
    rw [organizationRoot?, hfind]
    rfl
  · intro hroot
    obtain ⟨o, hfind, rfl⟩ := Option.map_eq_some_iff.mp hroot
    have hid : o.id = id := by simpa using List.find?_some hfind
    exact ⟨o, List.mem_of_find?_eq_some hfind, hid, rfl⟩

/-- **Every entry refers to what is at its university**: it has got it from there. -/
theorem admits_attributed (h : scope db.bookingRoot? db.bookings = some bookings) :
    ∀ e ∈ db.transactions.rows.map db.attributed, (db.references bookings).Admits e := by
  intro _ hmem
  obtain ⟨e, he, rfl⟩ := List.mem_map.mp hmem
  have hbooked : ∀ id ∈ e.bookingId, ∃ root, db.transactionRoot? e = some root
      ∧ (id, e.userId, root) ∈ (db.references bookings).bookings := by
    intro id hid
    rcases transactionRoot?_cases he with ⟨_, _, -, hnone, -⟩ | ⟨b, hb, -, hsome, huser, hroot⟩
    · cases hnone.symm.trans hid
    · obtain rfl := Option.some.inj (hsome.symm.trans hid)
      obtain ⟨r, -, hbr⟩ := exists_bookingRoot hb
      exact ⟨_, hroot.trans hbr,
        List.mem_map.mpr ⟨_, (mem_scope h).mpr ⟨hb, hbr⟩, by rw [huser]⟩⟩
  refine ⟨db.transactions_user e he, fun o ho => ?_, fun o ho r hr => ?_, fun id hid => ?_,
    fun id hid r hr => ?_⟩
  · obtain ⟨o', ho', rfl⟩ := List.mem_map.mp (db.transactions_source e he o ho)
    exact List.mem_map.mpr ⟨_, List.mem_map_of_mem ho', rfl⟩
  · rcases transactionRoot?_cases he with ⟨o', ho', hsome, -, hroot⟩ | ⟨_, _, hnone, -⟩
    · obtain rfl := Option.some.inj (hsome.symm.trans ho)
      exact List.mem_map.mpr ⟨o', ho', Prod.ext rfl (Option.some.inj (hroot.symm.trans hr))⟩
    · cases hnone.symm.trans ho
  · obtain ⟨root, -, hmem⟩ := hbooked id hid
    exact List.mem_map.mpr ⟨_, hmem, rfl⟩
  · obtain ⟨root, hroot, hmem⟩ := hbooked id hid
    obtain rfl : root = r := Option.some.inj (hroot.symm.trans hr)
    exact hmem

theorem balances_admitted {bookings : List (Booking × Uuid)} :
    ∀ b ∈ rebuild (db.transactions.rows.map db.attributed),
      (db.references bookings).AdmitsBalance b.userId b.rootOrganizationId := by
  intro b hb
  obtain ⟨⟨u, r⟩, hpair, rfl⟩ := List.mem_map.mp hb
  obtain ⟨⟨_, root⟩, hplaced, heq⟩ := Grouping.mem_keys.mp hpair
  obtain ⟨rfl, rfl⟩ := Prod.mk.inj heq
  obtain ⟨hmem, hroot⟩ := mem_placed.mp hplaced
  obtain ⟨e, he, rfl⟩ := List.mem_map.mp hmem
  refine ⟨db.transactions_user e he, ?_⟩
  obtain ⟨r, hr, her⟩ := exists_transactionRoot he
  obtain rfl : r = root := Option.some.inj (her.symm.trans hroot)
  obtain ⟨o, ho, rfl⟩ := List.mem_map.mp hr
  obtain ⟨o', ho', heq⟩ := List.mem_map.mp (db.organizations_root o ho)
  exact List.mem_map.mpr ⟨_, List.mem_map_of_mem ho', heq⟩

end Keys

/-! ## When it goes through -/

section Success

variable {db} {m : Migrated}

/-- **Disputes are where their bookings are**, and so are the organizations that resolve them. -/
def DisputesPlaced (db : Legacy) : Prop :=
  ∀ d ∈ db.disputes, db.rootOfBooking? d.bookingId = some d.rootOrganizationId
    ∧ db.organizationRoot? d.resolverOrganizationId = some d.rootOrganizationId

/-- **No user has overdrawn the points of a university**, and none has more than fit. -/
def Covered (db : Legacy) : Prop := ∀ u r, 0 ≤ db.balanceAt u r ∧ db.balanceAt u r ≤ 2147483647

private theorem guard_bind {p : Prop} [Decidable p] {f : Unit → Option Migrated} :
    (guard p : Option Unit).bind f = some m ↔ p ∧ f () = some m := by
  by_cases h : p <;> simp [guard, h]

/-- The statements that may fail are those that the keys before the migration say nothing about. -/
theorem migrate_eq_some : db.migrate = some m ↔
    db.DisputesPlaced ∧ scope db.slotRoot? db.slots = some m.slots
      ∧ scope db.bookingRoot? db.bookings = some m.bookings
      ∧ scope db.eventRoot? db.events = some m.events
      ∧ m.ledger.transactions.rows = db.transactions.rows.map db.attributed
      ∧ m.ledger.balances.rows = rebuild (db.transactions.rows.map db.attributed) := by
  obtain ⟨slots, hslots⟩ := db.exists_slots
  obtain ⟨bookings, hbookings⟩ := db.exists_bookings
  obtain ⟨events, hevents⟩ := db.exists_events
  obtain ⟨T, hT⟩ : ∃ T : Table PointTransaction PointTransaction.Constraints,
      Table.replace (db.transactions.rows.map db.attributed) = some T :=
    Option.isSome_iff_exists.mp (Table.replace_isSome.mpr db.constraints_attributed)
  have hrows := Table.replace_eq_some.mp hT
  have hplaced : db.DisputesPlaced ↔
      (∀ d ∈ db.disputes, ∃ b ∈ bookings, b.1.id = d.bookingId ∧ b.2 = d.rootOrganizationId)
        ∧ ∀ d ∈ db.disputes, ∃ o ∈ db.organizations, o.id = d.resolverOrganizationId
          ∧ o.rootOrganizationId = d.rootOrganizationId := by
    simp only [DisputesPlaced, mem_bookings_iff hbookings, mem_organizations_iff, forall_and]
  have hadmits : ∀ e ∈ T.rows, (db.references bookings).Admits e := by
    rw [hrows]
    exact admits_attributed hbookings
  have hbalances : ∀ b ∈ rebuild T.rows,
      (db.references bookings).AdmitsBalance b.userId b.rootOrganizationId := by
    rw [hrows]
    exact balances_admitted
  simp only [migrate, hslots, hbookings, hevents, hT, hplaced, Option.bind_eq_bind,
    Option.bind_some, guard_bind, Option.some.injEq, Option.pure_def]
  rw [Option.bind_eq_some_iff]
  simp only [Option.some.injEq]
  constructor
  · rintro ⟨-, -, -, hbooking, hresolver, -, -, B, hB, rfl⟩
    exact ⟨⟨hbooking, hresolver⟩, rfl, rfl, rfl, hrows, hrows ▸ Table.replace_eq_some.mp hB⟩
  · rintro ⟨⟨hbooking, hresolver⟩, rfl, rfl, rfl, htransactions, hB⟩
    refine ⟨slots_admitted hslots, bookings_admitted hslots hbookings, events_admitted hevents,
      hbooking, hresolver, hadmits, hbalances, m.ledger.balances, ?_, ?_⟩
    · rw [hrows]
      exact Table.replace_eq_some.mpr hB
    · have hledger : m.ledger.transactions = T :=
        Option.some.inj ((Table.replace_eq_some.mpr htransactions).symm.trans hT)
      rw [← hledger]

/-- **It goes through exactly if disputes are where their bookings are, and nobody has overdrawn the
points of a university.** -/
theorem migrate_isSome_iff (db : Legacy) : db.migrate.isSome ↔ db.DisputesPlaced ∧ db.Covered := by
  have hcovered : UserPointBalance.Constraints (rebuild (db.transactions.rows.map db.attributed))
      ↔ db.Covered := by
    rw [constraints_rebuild]
    simp only [sum_attributed]
    rfl
  constructor
  · intro h
    obtain ⟨m, hm⟩ := Option.isSome_iff_exists.mp h
    obtain ⟨hplaced, -, -, -, -, hB⟩ := migrate_eq_some.mp hm
    exact ⟨hplaced, hcovered.mp (hB ▸ m.ledger.balances.valid)⟩
  · rintro ⟨hplaced, hc⟩
    obtain ⟨slots, hslots⟩ := db.exists_slots
    obtain ⟨bookings, hbookings⟩ := db.exists_bookings
    obtain ⟨events, hevents⟩ := db.exists_events
    let ledger : Ledger := ⟨⟨_, db.constraints_attributed⟩, ⟨_, hcovered.mpr hc⟩⟩
    exact Option.isSome_iff_exists.mpr ⟨⟨slots, bookings, events, ledger⟩,
      migrate_eq_some.mpr ⟨hplaced, hslots, hbookings, hevents, rfl, rfl⟩⟩

/-- The new balances are what the ledger says. -/
theorem projects_of_migrate (h : db.migrate = some m) : m.ledger.Projects := by
  obtain ⟨-, -, -, -, hT, hB⟩ := migrate_eq_some.mp h
  intro u r
  rw [Ledger.available_eq, Table.find?, hB, availablePoints_rebuild, Ledger.getBalance, hT]

/-- The universities there are. -/
def universities (db : Legacy) : List Uuid := (db.organizations.map (·.rootOrganizationId)).dedup

/-- Each entry has a university. -/
theorem isSome_of_migrate (h : db.migrate = some m) :
    ∀ e ∈ m.ledger.transactions, e.rootOrganizationId.isSome := by
  obtain ⟨-, -, -, -, hT, -⟩ := migrate_eq_some.mp h
  intro e he
  rw [← Table.mem_rows, hT] at he
  obtain ⟨e₀, he₀, rfl⟩ := List.mem_map.mp he
  obtain ⟨r, -, hroot⟩ := exists_transactionRoot he₀
  exact Option.isSome_iff_exists.mpr ⟨r, hroot⟩

/-- What a user has at the universities adds up to what their entries do. -/
theorem sum_available (h : db.migrate = some m) (u : Uuid) :
    (db.universities.map fun r => m.ledger.available u r).sum
      = ((db.transactions.rows.filter fun e => e.userId = u).map (·.amount)).sum := by
  obtain ⟨-, -, -, -, hT, -⟩ := migrate_eq_some.mp h
  have hkeys : (db.universities.map some).Nodup :=
    (List.nodup_dedup _).map (Option.some_injective _)
  have hmem : ∀ e ∈ db.transactions.rows.filter fun e => e.userId = u,
      db.transactionRoot? e ∈ db.universities.map some := by
    intro e he
    obtain ⟨r, hr, hroot⟩ := exists_transactionRoot (List.mem_of_mem_filter he)
    exact List.mem_map.mpr ⟨r, List.mem_dedup.mpr hr, hroot.symm⟩
  rw [← Grouping.sum_group hkeys (·.amount) hmem, List.map_map]
  refine congrArg List.sum (List.map_congr_left fun r _ => ?_)
  rw [projects_of_migrate h u r, Ledger.getBalance, hT, sum_attributed, balanceAt,
    Function.comp_apply, Grouping.group, List.filter_filter]
  simp only [Bool.and_comm]

/-- **No points are lost, then or later**: each entry is at a university, what a user has at the
universities is what their entries amount to, and after any transactions that follow the balances
still are what the ledger says. -/
theorem points_conserved (h : db.migrate = some m) :
    (∀ e ∈ m.ledger.transactions, e.rootOrganizationId.isSome)
      ∧ (∀ u, (db.universities.map fun r => m.ledger.available u r).sum
        = ((db.transactions.rows.filter fun e => e.userId = u).map (·.amount)).sum)
      ∧ ∀ s, (Points.code.machine fun d => d.ledger = m.ledger).Reachable Machine.free s →
        s.db.ledger.Projects ∧ ∀ u r, 0 ≤ s.db.ledger.getBalance u r := by
  refine ⟨isSome_of_migrate h, sum_available h, fun s hs => ?_⟩
  have hproj : s.db.ledger.Projects := (Points.outline.holds_of_reachable
    (fun d hd => (congrArg Ledger.Projects hd).mpr (projects_of_migrate h)) hs).inv
  exact ⟨hproj, hproj.getBalance_nonneg⟩

/-- A user of two universities, who has booked and disputes the booking. -/
def campus : Legacy where
  users := [1]
  organizations := [⟨10, 10⟩, ⟨11, 10⟩, ⟨20, 20⟩]
  resources := [⟨30, 10⟩]
  slots := [⟨40, 30⟩]
  bookings := [⟨50, 1, 40⟩]
  disputes := [⟨60, 50, 10, 11⟩]
  events := [⟨61, 60⟩]
  transactions := ⟨
    [{ id := 70, userId := 1, rootOrganizationId := none, amount := 100,
       transactionType := .joinBonus, sourceOrganizationId := some 11, createdAt := 0 },
     { id := 71, userId := 1, rootOrganizationId := none, amount := 50,
       transactionType := .semesterAllocation, sourceOrganizationId := some 20, createdAt := 1 },
     { id := 72, userId := 1, rootOrganizationId := none, amount := -30,
       transactionType := .booking, bookingId := some 50, createdAt := 2 }], by decide⟩
  organizations_pk := by decide
  organizations_root := by decide
  resources_pk := by decide
  resources_root := by decide
  slots_pk := by decide
  slots_resource := by decide
  bookings_pk := by decide
  bookings_slot := by decide
  disputes_pk := by decide
  disputes_booking := by decide
  disputes_resolver := by decide
  events_dispute := by decide
  transactions_user := by decide
  transactions_source := by decide
  transactions_booking := by decide
  transactions_new := by decide

/-- On that campus the two grants stay apart, and the booking is paid at the university it is at. -/
theorem points_conserved_on_campus : ∃ m, campus.migrate = some m
    ∧ m.ledger.available 1 10 = 70 ∧ m.ledger.available 1 20 = 50
    ∧ (campus.universities.map fun r => m.ledger.available 1 r).sum = 120 := by
  obtain ⟨m, hm⟩ := Option.isSome_iff_exists.mp (show campus.migrate.isSome by decide)
  have havailable : ∀ u r, m.ledger.available u r = campus.balanceAt u r := by
    intro u r
    obtain ⟨-, -, -, -, hT, -⟩ := migrate_eq_some.mp hm
    rw [projects_of_migrate hm u r, Ledger.getBalance, hT, sum_attributed]
  refine ⟨m, hm, ?_, ?_, ((points_conserved hm).2.1 1).trans (by decide)⟩
  · rw [havailable]
    decide
  · rw [havailable]
    decide

end Success

end Legacy

end ResourceHive.Universities.Backfill
