import ResourceHive.Bookings.Rows
import ResourceHive.Points.Balance

/-!
# Bookings/Reevaluation — what a reevaluation by itself cancels

`reevaluateBookings` decides from the rows it has included in one read; `createBooking` asks
`canAccessResource`.  Where the foreign keys hold the two agree (`canAccessResource_eq`), and then a
reevaluation that nothing interleaves with cancels exactly the future bookings of users who could no
longer book, each with its slot and its whole deduction (`Reevaluated`).

It does so unless one of the resource's future bookings belongs to a user whom the row policies hide
from the university, one with no membership left there: then the read itself raises, and no booking
is cancelled at all (`reevaluated_iff`).
-/

namespace ResourceHive.Bookings

/-! ## The databases there are -/

/-- **A booking's slot and resource are there**, in its university. -/
structure Database.RowKeys (db : Database) : Prop where
  resource_ids : (db.directory.resources.map (·.id)).Nodup
  slots : ∀ s ∈ db.slots, (s.resourceId, s.rootOrganizationId)
    ∈ db.directory.resources.map fun r => (r.id, r.rootOrganizationId)
  bookings : ∀ b ∈ db.bookings, (b.resourceSlotId, b.rootOrganizationId)
    ∈ db.slots.rows.map fun s => (s.id, s.rootOrganizationId)

/-- **The keys between the tables**, each reference within one university. -/
structure Database.ForeignKeys (db : Database) : Prop extends db.RowKeys where
  organization_ids : (db.directory.organizations.map (·.id)).Nodup
  organizations : ∀ o ∈ db.directory.organizations,
    o.rootOrganizationId ∈ db.directory.organizations.map (·.id)
  owners : ∀ r ∈ db.directory.resources, (r.ownerOrganizationId, r.rootOrganizationId)
    ∈ db.directory.organizations.map fun o => (o.id, o.rootOrganizationId)
  allowed : ∀ r ∈ db.directory.resources, ∀ o ∈ r.allowedOrganizations, (o, r.rootOrganizationId)
    ∈ db.directory.organizations.map fun o => (o.id, o.rootOrganizationId)
  users : ∀ b ∈ db.bookings, b.userId ∈ db.directory.users.map (·.id)
  entries : ∀ e ∈ db.ledger.transactions, db.references.Admits e

/-- The accounts of the confirmed bookings: nothing has been refunded. -/
def Database.Unrefunded (db : Database) : Prop :=
  ∀ b ∈ db.bookings, b.status = .confirmed → db.ledger.amountsFor .bookingRefund b.id = []

variable {db db' : Database} {root resourceId : Uuid} {now : Timestamp}

/-- A resource's university is one of the organizations. -/
theorem Database.ForeignKeys.root_mem (hkeys : db.ForeignKeys) {resource : Resource}
    (hres : resource ∈ db.directory.resources) : resource.rootOrganizationId ∈
      (db.directory.organizations.map fun o => (o.id, o.rootOrganizationId)).map Prod.fst := by
  obtain ⟨o, ho, heq⟩ := List.mem_map.mp (hkeys.owners resource hres)
  rw [← (Prod.mk.inj heq).2, List.map_map]
  exact hkeys.organizations o ho

/-- The confirmed bookings of a resource whose slot has not begun. -/
def future (db : Database) (resourceId : Uuid) (now : Timestamp) (b : Booking) : Bool :=
  decide (b.status = .confirmed) && db.slots.rows.any fun s =>
    decide (s.id = b.resourceSlotId ∧ s.resourceId = resourceId ∧ now < s.startsAt)

/-- **The bookings that ought to be cancelled**: in the future, of users who could not book. -/
def affected (db : Database) (resourceId root : Uuid) (now : Timestamp) (b : Booking) : Bool :=
  future db resourceId now b
    && match canAccessResource .none db.directory resourceId b.userId root with
      | .ok false => true
      | _ => false

/-- What a reevaluation sets in a booking it cancels. -/
def revocationData (now : Timestamp) (resource : Resource) : BookingData where
  status := .cancelled
  cancelledAt := some now
  cancellationReason := some (some (if resource.status ≠ .active then "Resource has been removed"
    else "Organization access to this resource was revoked"))

/-- …and in its slot. -/
def withdraw (now : Timestamp) (s : ResourceSlot) : ResourceSlot :=
  { s with status := .withdrawn, withdrawnAt := some now }

@[simp] theorem id_withdraw (now : Timestamp) (s : ResourceSlot) : (withdraw now s).id = s.id := rfl

/-- **Complete and exact**: the affected bookings are cancelled, their slots withdrawn and their
deductions refunded, and nothing else is different. -/
structure Reevaluated (db db' : Database) (resource : Resource) (now : Timestamp) : Prop where
  directory : db'.directory = db.directory
  bookings : db'.bookings.rows = db.bookings.rows.map fun b =>
    if affected db resource.id resource.rootOrganizationId now b then
      (revocationData now resource).apply b else b
  slots : db'.slots.rows = db.slots.rows.map fun s =>
    if db.bookings.rows.any fun b => affected db resource.id resource.rootOrganizationId now b
        && decide (b.resourceSlotId = s.id) then withdraw now s else s
  entries : ∃ refunds, db'.ledger.transactions.rows = db.ledger.transactions.rows ++ refunds
    ∧ ∀ e ∈ refunds, e.transactionType = .bookingRefund ∧ ∃ b ∈ db.bookings,
        affected db resource.id resource.rootOrganizationId now b ∧ e.bookingId = some b.id
          ∧ e.userId = b.userId ∧ e.rootOrganizationId = some resource.rootOrganizationId
  refunded : ∀ b ∈ db.bookings, affected db resource.id resource.rootOrganizationId now b →
    db'.ledger.amountsFor .bookingRefund b.id = (db.ledger.amountsFor .booking b.id).map (- ·)

/-- The points that were deducted from a user for the bookings of a list, as a negative number. -/
def deducted (db : Database) (userId : Uuid) (bookings : List Booking) : ℤ :=
  ((bookings.filter (·.userId = userId)).map fun b => (db.ledger.amountsFor .booking b.id).sum).sum

/-- The refunds fit into the balances' column. -/
def RefundsFit (db : Database) (resource : Resource) (now : Timestamp) : Prop :=
  ∀ u, db.ledger.available u resource.rootOrganizationId
    - deducted db u (db.bookings.rows.filter
        (affected db resource.id resource.rootOrganizationId now)) ≤ 2147483647

/-! ## The list -/

/-- **The two ways of deciding access agree** on a resource of the university. -/
theorem canAccessResource_eq {d : Directory} (record : BookingRecord)
    (hids : (d.resources.map (·.id)).Nodup) (hres : record.resource ∈ d.resources)
    (hroot : record.resource.rootOrganizationId = root) :
    canAccessResource .none d record.resource.id record.booking.userId root =
      .ok (hasAccess d root record) := by
  have hfind : d.resources.find? (fun r => decide (r.id = record.resource.id
      ∧ r.rootOrganizationId = root ∧ r.status = .active)) =
        if record.resource.status = .active then some record.resource else none := by
    split
    · next hactive =>
      obtain ⟨r, hr⟩ : ∃ r, d.resources.find? (fun r => decide (r.id = record.resource.id
          ∧ r.rootOrganizationId = root ∧ r.status = .active)) = some r :=
        Option.isSome_iff_exists.mp
          (List.find?_isSome.mpr ⟨_, hres, decide_eq_true ⟨rfl, hroot, hactive⟩⟩)
      have hp := List.find?_some hr
      simp only [decide_eq_true_eq] at hp
      rw [hr, List.inj_on_of_nodup_map hids (List.mem_of_find?_eq_some hr) hres hp.1]
    · next hactive =>
      refine List.find?_eq_none.mpr fun r hr hmatch => hactive ?_
      obtain ⟨hid, -, hr'⟩ := of_decide_eq_true hmatch
      rw [← List.inj_on_of_nodup_map hids hr hres hid, hr']
  have hsome (p : OrganizationMembership → Bool) :
      (d.memberships.find? p).isSome = d.memberships.any p :=
    Bool.eq_iff_iff.mpr (by rw [List.find?_isSome, List.any_eq_true])
  rw [canAccessResource, hfind]
  unfold hasAccess
  split
  · next hactive => simp [hactive, Except.mapError, hsome, bind, Except.bind, pure, Except.pure]
  · next hactive => simp [hactive, Except.mapError, bind, Except.bind, pure, Except.pure]

/-- The cancellation of a booking of a resource. -/
def cancellationOf (now : Timestamp) (resource : Resource) (booking : Booking) : Cancellation where
  booking := booking
  canceller := .reevaluation
  now := now
  cancelledByUserId := none
  reason := some (if resource.status ≠ .active then "Resource has been removed"
    else "Organization access to this resource was revoked")
  resourceName := resource.name

/-- **The slot and the resource of a booking are there**, in its university. -/
theorem record?_of_mem (hkeys : db.RowKeys) {b : Booking} (hb : b ∈ db.bookings) :
    ∃ s ∈ db.slots, ∃ resource ∈ db.directory.resources, record? db b = some ⟨b, s, resource⟩
      ∧ s.id = b.resourceSlotId ∧ s.rootOrganizationId = b.rootOrganizationId
      ∧ resource.id = s.resourceId ∧ resource.rootOrganizationId = b.rootOrganizationId := by
  obtain ⟨s, hs, hsb⟩ := List.mem_map.mp (hkeys.bookings b hb)
  obtain ⟨resource, hr, hrs⟩ := List.mem_map.mp (hkeys.slots s hs)
  obtain ⟨hsid, hsroot⟩ := Prod.mk.inj hsb
  obtain ⟨hrid, hrroot⟩ := Prod.mk.inj hrs
  refine ⟨s, hs, resource, hr, ?_, hsid, hsroot, hrid, hrroot.trans hsroot⟩
  have hslot : db.slot? b.resourceSlotId = some s := hsid ▸ db.slots.valid.1.find?_eq hs
  have hresource : db.directory.resource? s.resourceId = some resource :=
    hrid ▸ Table.Unique.find?_eq hkeys.resource_ids hr
  rw [record?, hslot, Option.bind_some, hresource, Option.map_some]

/-- A future booking is one whose slot, the only one with its id, is of the resource and has not
begun. -/
theorem future_eq {b : Booking} {s : ResourceSlot} (hs : s ∈ db.slots)
    (hid : s.id = b.resourceSlotId) : future db resourceId now b =
      decide (b.status = .confirmed ∧ s.resourceId = resourceId ∧ now < s.startsAt) := by
  rw [future, Bool.decide_and, show (db.slots.rows.any fun s => decide (s.id = b.resourceSlotId
    ∧ s.resourceId = resourceId ∧ now < s.startsAt)) =
      decide (s.resourceId = resourceId ∧ now < s.startsAt) from Bool.eq_iff_iff.mpr ?_]
  rw [List.any_eq_true, decide_eq_true_eq]
  constructor
  · rintro ⟨s', hs', h⟩
    obtain ⟨hid', h⟩ := of_decide_eq_true h
    rwa [db.slots.valid.1.eq hs' hs (hid'.trans hid.symm)] at h
  · exact fun h => ⟨s, hs, decide_eq_true ⟨hid, h⟩⟩

/-- A list read through an include, in terms of the rows it was read from. -/
theorem map_filter_filterMap {α β γ : Type*} {f : α → Option β} {p : β → Bool} {q : α → Bool}
    {g : β → γ} {k : α → γ} {l : List α}
    (h : ∀ a ∈ l, ∃ b, f a = some b ∧ p b = q a ∧ (q a → g b = k a)) :
    ((l.filterMap f).filter p).map g = (l.filter q).map k := by
  induction l with
  | nil => rfl
  | cons a l ih =>
    obtain ⟨b, hb, hp, hg⟩ := h a (List.mem_cons_self ..)
    have ih := ih fun a ha => h a (List.mem_cons_of_mem _ ha)
    rw [List.filterMap_cons_some hb]
    by_cases hq : q a
    · rw [List.filter_cons_of_pos (hp.trans hq), List.filter_cons_of_pos hq, List.map_cons,
        List.map_cons, hg hq, ih]
    · rw [List.filter_cons_of_neg (hp ▸ hq), List.filter_cons_of_neg hq, ih]

section List

variable {resource : Resource} (hkeys : db.RowKeys) (hres : resource ∈ db.directory.resources)
include hkeys hres

/-- **What the read finds for a booking**: it is in the list if it is a future one, and then it is
about to be cancelled if it ought to be. -/
theorem listed_of_mem (now : Timestamp) {b : Booking} (hb : b ∈ db.bookings) :
    ∃ r, record? db b = some r
      ∧ decide (r.booking.status = .confirmed
          ∧ r.booking.rootOrganizationId = resource.rootOrganizationId
          ∧ r.slot.rootOrganizationId = resource.rootOrganizationId
          ∧ r.slot.resourceId = resource.id ∧ now < r.slot.startsAt) = future db resource.id now b
      ∧ (future db resource.id now b → r.resource = resource
        ∧ affected db resource.id resource.rootOrganizationId now b =
          !hasAccess db.directory resource.rootOrganizationId r) := by
  obtain ⟨s, hs, resource', hr, hrec, hsid, hsroot, hrid, hrroot⟩ := record?_of_mem hkeys hb
  have hsame : s.resourceId = resource.id → resource' = resource := fun h =>
    List.inj_on_of_nodup_map hkeys.resource_ids hr hres (hrid.trans h)
  refine ⟨⟨b, s, resource'⟩, hrec, ?_, fun hf => ?_⟩
  · rw [future_eq hs hsid]
    refine decide_eq_decide.mpr ⟨fun ⟨h, _, _, h'⟩ => ⟨h, h'⟩, fun ⟨h, hid, hlt⟩ => ?_⟩
    obtain rfl := hsame hid
    exact ⟨h, hrroot.symm, hsroot.trans hrroot.symm, hid, hlt⟩
  · have hf' := hf
    rw [future_eq hs hsid, decide_eq_true_eq] at hf'
    obtain rfl := hsame hf'.2.1
    refine ⟨rfl, ?_⟩
    rw [affected, hf, Bool.true_and, canAccessResource_eq ⟨b, s, resource'⟩
      hkeys.resource_ids hr rfl]
    cases hasAccess db.directory resource'.rootOrganizationId ⟨b, s, resource'⟩ <;> rfl

/-- **The list is of the affected bookings**, in their order. -/
theorem reevaluateBookings_eq {work : List Cancellation}
    (h : reevaluateBookings db resource.rootOrganizationId resource.id now = .ok work) :
    work = (db.bookings.rows.filter
      (affected db resource.id resource.rootOrganizationId now)).map
        (cancellationOf now resource) := by
  obtain ⟨-, rfl⟩ := reevaluateBookings_eq_ok.mp h
  rw [futureBookings, List.filter_filter]
  refine map_filter_filterMap fun b hb => ?_
  obtain ⟨r, hr, hlisted, haff⟩ := listed_of_mem hkeys hres now hb
  refine ⟨r, hr, ?_, fun h => ?_⟩
  · rw [hlisted]
    by_cases hf : future db resource.id now b
    · rw [(haff hf).2, hf, Bool.and_true]
    · rw [affected, Bool.eq_false_iff.mpr hf, Bool.and_false, Bool.false_and]
  · have hf : future db resource.id now b := (Bool.and_eq_true _ _ ▸ h).1
    rw [revocation, record?_eq_some hr, (haff hf).1]
    rfl

/-- There is a list unless a future booking's user is hidden. -/
theorem reevaluateBookings_isOk : (∃ work,
    reevaluateBookings db resource.rootOrganizationId resource.id now = .ok work) ↔
      ∀ b ∈ db.bookings, future db resource.id now b →
        db.directory.shows resource.rootOrganizationId b.userId := by
  simp only [reevaluateBookings_eq_ok, exists_and_left, exists_eq', and_true]
  constructor
  · intro h b hb hf
    obtain ⟨r, hr, hlisted, -⟩ := listed_of_mem hkeys hres now hb
    obtain rfl := record?_eq_some hr
    exact h r (mem_futureBookings.mpr ⟨hr, hb, of_decide_eq_true (hlisted.trans hf)⟩)
  · intro h r hr
    obtain ⟨hrec, hb, hcond⟩ := mem_futureBookings.mp hr
    obtain ⟨r', hr', hlisted, -⟩ := listed_of_mem hkeys hres now hb
    obtain rfl := Option.some.inj (hrec.symm.trans hr')
    exact h _ hb (hlisted ▸ decide_eq_true hcond)

/-- A hidden user could not book. -/
theorem affected_of_hidden {b : Booking} (hb : b ∈ db.bookings)
    (hf : future db resource.id now b)
    (hhidden : db.directory.shows resource.rootOrganizationId b.userId = false) :
    affected db resource.id resource.rootOrganizationId now b := by
  obtain ⟨r, hr, -, haff⟩ := listed_of_mem hkeys hres now hb
  rw [(haff hf).2, Bool.not_eq_true', hasAccess, Bool.and_eq_false_iff]
  refine .inr (List.any_eq_false.mpr fun m hm hmatch => ?_)
  rw [Bool.and_eq_true, decide_eq_true_eq, record?_eq_some hr] at hmatch
  refine List.any_eq_false.mp hhidden m hm ?_
  rw [Bool.and_eq_true, decide_eq_true_eq]
  exact ⟨hmatch.1.1, hmatch.2⟩

end List

/-! ## One booking of the list -/

/-- The update to `CANCELLED` of a confirmed booking goes through. -/
theorem exists_updateBooking {b : Booking} (hb : b ∈ db.bookings) (data : BookingData)
    (hstatus : data.status = .cancelled) (huser : data.cancelledByUserId = none)
    (hchecks : (data.apply b).Checks) :
    ∃ db', (Write.updateBooking b.id none data).exec db = some db' := by
  have hmatch (y : Booking) (hy : y ∈ db.bookings) (hm : matchesBooking b.id none y) : y = b :=
    booking_eq hy hb (of_decide_eq_true (Bool.and_eq_true _ _ ▸ hm).1)
  obtain ⟨hids, hvalid, hactive⟩ := db.bookings.valid
  obtain ⟨T, hT⟩ : ∃ T, db.bookings.update (matchesBooking b.id none) data.apply = some T := by
    refine Option.isSome_iff_exists.mp (Table.replace_isSome.mpr
      ⟨hids.map fun y => by split <;> rfl, hvalid.update fun y hy hm => hmatch y hy hm ▸ hchecks,
        hactive.map fun y _ hy => ?_⟩)
    by_cases hm : matchesBooking b.id none y
    · simp [hm, Booking.active, hstatus] at hy
    · simpa [hm] using hy
  have hany : db.bookings.rows.any (matchesBooking b.id none) :=
    List.any_eq_true.mpr ⟨b, hb, by simp [matchesBooking]⟩
  exact ⟨_, by simp [Write.exec, hany, huser, hT]; rfl⟩

/-- …and so does the withdrawal of a slot. -/
theorem exists_withdraw {s : ResourceSlot} (hs : s ∈ db.slots) (now : Timestamp) :
    ∃ db', (Write.updateSlot s.id .withdrawn (some now)).exec db = some db' := by
  obtain ⟨T, hT⟩ : ∃ T, db.slots.update (·.id = s.id)
      (withdraw now) = some T := by
    exact Option.isSome_iff_exists.mp (Table.replace_isSome.mpr
      ⟨db.slots.valid.1.map fun y => by split <;> rfl,
        db.slots.valid.2.update fun y hy _ => ⟨(db.slots.valid.2 y hy).1, .inl ⟨rfl, rfl⟩⟩⟩)
  have hany : db.slots.rows.any (·.id = s.id) := List.any_eq_true.mpr ⟨s, hs, by simp⟩
  exact ⟨{ db with slots := T }, by
    rw [Write.exec, if_pos hany]
    exact congrArg (Option.map fun slots => { db with slots := slots }) hT⟩

/-- A booking has one deduction or none. -/
theorem deduction_cases (L : Ledger) (id : Uuid) :
    L.amountsFor .booking id = [] ∨ ∃ a < 0, L.amountsFor .booking id = [a] := by
  have hlen := L.amountsFor_length (.inl rfl) id
  rcases ha : L.amountsFor .booking id with - | ⟨a, - | ⟨a', l⟩⟩
  · exact .inl rfl
  · refine .inr ⟨a, ?_, rfl⟩
    obtain ⟨e, he, rfl⟩ := List.mem_map.mp (ha ▸ List.mem_singleton_self a)
    obtain ⟨he, hfor⟩ := List.mem_filter.mp he
    have hsource := (L.transactions.valid.2.1 e he).2.2
    simp only [PointTransaction.forBooking, Bool.and_eq_true, decide_eq_true_eq] at hfor
    simp only [PointTransaction.SourceCheck, hfor.1, reduceCtorEq, false_and, false_or, or_false,
      true_and] at hsource
    exact hsource.1
  · rw [ha] at hlen
    exact absurd hlen (by simp)

theorem deducted_append (db : Database) (u : Uuid) (bs bs' : List Booking) :
    deducted db u (bs ++ bs') = deducted db u bs + deducted db u bs' := by
  simp [deducted]

theorem deducted_singleton (db : Database) (u : Uuid) (b : Booking) : deducted db u [b] =
    if b.userId = u then (db.ledger.amountsFor .booking b.id).sum else 0 := by
  by_cases hu : b.userId = u <;> simp [deducted, hu]

theorem deducted_nonpos (db : Database) (u : Uuid) (bs : List Booking) : deducted db u bs ≤ 0 := by
  refine (List.sum_le_card_nsmul _ 0 fun n hn => ?_).trans_eq (smul_zero _)
  obtain ⟨b, -, rfl⟩ := List.mem_map.mp hn
  rcases deduction_cases db.ledger b.id with hnil | ⟨a, ha, hone⟩
  · simp [hnil]
  · simpa [hone] using ha.le

/-- What a reevaluation sets passes the CHECKs of a confirmed booking's row. -/
theorem checks_revocationData {b : Booking} (hb : b ∈ db.bookings) (hstatus : b.status = .confirmed)
    (hnow : b.createdAt ≤ now) (resource : Resource) :
    ((revocationData now resource).apply b).Checks := by
  have hchecks := checks_of_mem hb
  have hcompleted : b.completedAt = none := by
    rw [← Option.not_isSome_iff_eq_none, hchecks.completedAt_isSome, hstatus]
    decide
  refine ⟨.inl ⟨rfl, rfl⟩, .inr ⟨by simp [BookingData.apply, revocationData], ?_⟩, ?_, ?_, ?_,
    hchecks.2.2.2.2.2⟩
  · simp [BookingData.apply, revocationData, hcompleted]
  · simpa [BookingData.apply, revocationData] using hnow
  · simp [BookingData.apply, revocationData, hcompleted]
  · intro r hr
    obtain rfl := Option.some.inj hr
    split <;> decide

/-- **The bookings cancelled so far, and nothing else**: what holds between two rounds of the loop,
of the database the list was read from; the refunds have ids of the list `ids`. -/
structure Revoked (db db' : Database) (resource : Resource) (now : Timestamp) (done : List Booking)
    (ids : List Uuid) : Prop where
  directory : db'.directory = db.directory
  bookings : db'.bookings.rows = db.bookings.rows.map fun b =>
    if b ∈ done then (revocationData now resource).apply b else b
  slots : db'.slots.rows = db.slots.rows.map fun s =>
    if s.id ∈ done.map (·.resourceSlotId) then withdraw now s else s
  entries : ∃ refunds, db'.ledger.transactions.rows = db.ledger.transactions.rows ++ refunds
    ∧ ∀ e ∈ refunds, e.id ∈ ids ∧ e.transactionType = .bookingRefund ∧ ∃ b ∈ done,
        e.bookingId = some b.id ∧ e.userId = b.userId
          ∧ e.rootOrganizationId = some b.rootOrganizationId
  refunded : ∀ b ∈ done,
    db'.ledger.amountsFor .bookingRefund b.id = (db.ledger.amountsFor .booking b.id).map (- ·)
  balances : ∀ u, db'.ledger.available u resource.rootOrganizationId
    = db.ledger.available u resource.rootOrganizationId - deducted db u done

theorem Revoked.refl (db : Database) (resource : Resource) (now : Timestamp) :
    Revoked db db resource now [] [] where
  directory := rfl
  bookings := by simp
  slots := by simp
  entries := ⟨[], by simp, by simp⟩
  refunded := by simp
  balances := by simp [deducted]

namespace Revoked

variable {resource : Resource} {done : List Booking} {ids : List Uuid}

/-- The entries about other things are what they were. -/
theorem amountsFor (h : Revoked db db' resource now done ids) {type : TransactionType} {id : Uuid}
    (hother : type ≠ .bookingRefund ∨ id ∉ done.map (·.id)) :
    db'.ledger.amountsFor type id = db.ledger.amountsFor type id := by
  obtain ⟨refunds, hrows, hrefunds⟩ := h.entries
  have hnone : refunds.filter (·.forBooking type id) = [] := by
    refine List.filter_eq_nil_iff.mpr fun e he hfor => ?_
    obtain ⟨-, htype, b, hb, hid, -⟩ := hrefunds e he
    simp only [PointTransaction.forBooking, Bool.and_eq_true, decide_eq_true_eq] at hfor
    rcases hother with hne | hne
    · exact hne (hfor.1.symm.trans htype)
    · exact hne (Option.some.inj (hid.symm.trans hfor.2) ▸ List.mem_map_of_mem hb)
  rw [Ledger.amountsFor, Ledger.amountsFor, hrows, List.filter_append, hnone, List.append_nil]

/-- **The deduction of a booking is what it was.** -/
theorem deductedPoints (h : Revoked db db' resource now done ids) (hkeys : db.ForeignKeys)
    {b : Booking} (hb : b ∈ db.bookings) :
    (cancellationOf now resource b).deductedPoints db'.ledger =
      -(db.ledger.amountsFor .booking b.id).sum := by
  have hfilter : db'.ledger.transactions.rows.filter (fun e => e.forBooking .booking b.id
      && decide (e.userId = b.userId)) =
        db'.ledger.transactions.rows.filter (·.forBooking .booking b.id) := by
    refine List.filter_congr fun e he => ?_
    by_cases hfor : e.forBooking .booking b.id
    · rw [hfor, Bool.true_and]
      simp only [PointTransaction.forBooking, Bool.and_eq_true, decide_eq_true_eq] at hfor
      obtain ⟨refunds, hrows, hrefunds⟩ := h.entries
      rcases List.mem_append.mp (hrows ▸ he) with he | he
      · obtain ⟨b', hb', hid, huser⟩ := booking_of_admits (hkeys.entries e he) hfor.2
        rw [← huser, booking_eq hb' hb hid, decide_eq_true rfl]
      · rw [(hrefunds e he).2.1] at hfor
        cases hfor.1
    · rw [Bool.eq_false_iff.mpr hfor, Bool.false_and]
  have hhead : (cancellationOf now resource b).deductedPoints db'.ledger =
      |(db.ledger.amountsFor .booking b.id).head?.getD 0| := by
    rw [← h.amountsFor (.inl (by decide)), Ledger.amountsFor, ← hfilter, List.head?_map,
      List.head?_filter]
    rfl
  rcases deduction_cases db.ledger b.id with hnil | ⟨a, ha, hone⟩
  · simp [hhead, hnil]
  · simp [hhead, hone, abs_of_neg ha]

/-- A booking still to be cancelled is as it was. -/
theorem mem_of_not_mem (h : Revoked db db' resource now done ids) {b : Booking}
    (hb : b ∈ db.bookings) (hnew : b ∉ done) : b ∈ db'.bookings :=
  Table.mem_rows.mp (h.bookings ▸ List.mem_map.mpr ⟨b, hb, if_neg hnew⟩)

/-- The bookings after one more of them is cancelled. -/
theorem bookings_next (h : Revoked db db' resource now done ids) {db₁ : Database} {b : Booking}
    (hb : b ∈ db.bookings) (hnew : b ∉ done)
    (hrows : db₁.bookings.rows = db'.bookings.rows.map fun y =>
      if matchesBooking b.id none y then (revocationData now resource).apply y else y) :
    db₁.bookings.rows = db.bookings.rows.map fun y =>
      if y ∈ done ++ [b] then (revocationData now resource).apply y else y := by
  rw [hrows, h.bookings, List.map_map]
  refine List.map_congr_left fun y hy => ?_
  by_cases hyb : y = b
  · subst hyb
    simp [hnew, matchesBooking]
  · have hid : y.id ≠ b.id := fun heq => hyb (booking_eq hy hb heq)
    by_cases hmem : y ∈ done <;> simp [hmem, hyb, hid, matchesBooking]

/-- The slots after one more of them is withdrawn. -/
theorem slots_next (h : Revoked db db' resource now done ids) {db₁ : Database} {b : Booking}
    (hrows : db₁.slots.rows = db'.slots.rows.map fun s =>
      if s.id = b.resourceSlotId then withdraw now s else s) :
    db₁.slots.rows = db.slots.rows.map fun s =>
      if s.id ∈ (done ++ [b]).map (·.resourceSlotId) then withdraw now s else s := by
  rw [hrows, h.slots, List.map_map]
  refine List.map_congr_left fun s _ => ?_
  by_cases hs : s.id ∈ done.map (·.resourceSlotId)
  · have hs' : s.id ∈ (done ++ [b]).map (·.resourceSlotId) := by
      rw [List.map_append]
      exact List.mem_append_left _ hs
    rw [Function.comp_apply, if_pos hs, if_pos hs', id_withdraw]
    split <;> rfl
  · have hs' : s.id ∈ (done ++ [b]).map (·.resourceSlotId) ↔ s.id = b.resourceSlotId := by
      rw [List.map_append, List.mem_append, or_iff_right hs, List.map_singleton,
        List.mem_singleton]
    simp only [Function.comp_apply, if_neg hs, hs']

/-- The keys of the bookings are the same throughout. -/
theorem keys_eq {rows : List Booking}
    (h : rows = db.bookings.rows.map fun b =>
      if b ∈ done then (revocationData now resource).apply b else b) :
    (rows.map fun b => (b.id, b.userId, b.rootOrganizationId)) =
      db.bookings.rows.map fun b => (b.id, b.userId, b.rootOrganizationId) := by
  rw [h, List.map_map]
  exact List.map_congr_left fun b _ => by rw [Function.comp_apply]; split <;> rfl

/-- The first two statements of a round: they go through, and leave the refund. -/
theorem replay_rows (h : Revoked db db' resource now done ids) (hkeys : db.ForeignKeys)
    {b : Booking} (hb : b ∈ db.bookings) (hnew : b ∉ done) (hstatus : b.status = .confirmed)
    (hnow : b.createdAt ≤ now) : ∃ db₂ : Database,
      (∀ refund x, code.replay ((cancellationOf now resource b).writes refund x) db' = code.replay
        (if 0 < refund then [.append ((cancellationOf now resource b).entry refund x)] else []) db₂)
      ∧ db₂.directory = db.directory ∧ db₂.ledger = db'.ledger
      ∧ (db₂.bookings.rows = db.bookings.rows.map fun y =>
          if y ∈ done ++ [b] then (revocationData now resource).apply y else y)
      ∧ db₂.slots.rows = db.slots.rows.map fun s =>
          if s.id ∈ (done ++ [b]).map (·.resourceSlotId) then withdraw now s else s := by
  obtain ⟨s, hs, -, -, -, hsid, -⟩ := record?_of_mem hkeys.toRowKeys hb
  have hb' := h.mem_of_not_mem hb hnew
  obtain ⟨db₁, h₁⟩ := exists_updateBooking hb' (revocationData now resource) rfl rfl
    (checks_revocationData hb' hstatus hnow resource)
  obtain ⟨-, hupd₁, hdb₁⟩ := exec_updateBooking h₁
  have hslots₁ : db₁.slots = db'.slots := by rw [hdb₁]
  obtain ⟨s₁, hs₁, hsid₁⟩ : ∃ s₁ ∈ db₁.slots, s₁.id = b.resourceSlotId := by
    have hmem : s.id ∈ db₁.slots.rows.map (·.id) := by
      rw [hslots₁, h.slots, List.map_map]
      exact List.mem_map.mpr ⟨s, hs, by rw [Function.comp_apply]; split <;> rfl⟩
    obtain ⟨s₁, hs₁, heq⟩ := List.mem_map.mp hmem
    exact ⟨s₁, hs₁, heq.trans hsid⟩
  obtain ⟨db₂, h₂⟩ := exists_withdraw hs₁ now
  rw [hsid₁] at h₂
  obtain ⟨hupd₂, hdb₂⟩ := exec_updateSlot h₂
  refine ⟨db₂, fun refund x => ?_, by rw [hdb₂, hdb₁, ← h.directory], by rw [hdb₂, hdb₁], ?_, ?_⟩
  · change ((Write.updateBooking b.id none (revocationData now resource)).exec db').bind (fun d =>
      ((Write.updateSlot b.resourceSlotId .withdrawn (some now)).exec d).bind (code.replay _)) = _
    rw [h₁, Option.bind_some, h₂, Option.bind_some]
    rfl
  · rw [show db₂.bookings = db₁.bookings by rw [hdb₂]]
    exact h.bookings_next hb hnew (Table.update_eq_some.mp hupd₁)
  · refine h.slots_next (b := b) ?_
    rw [Table.update_eq_some.mp hupd₂, hslots₁]
    exact List.map_congr_left fun s _ => by simp only [decide_eq_true_eq]; rfl

/-- The refund of a deduction of `-a` goes through. -/
theorem exists_entry {db₂ : Database} (hkeys : db.ForeignKeys)
    (hres : resource ∈ db.directory.resources) {b : Booking} (hb : b ∈ db.bookings)
    (hdirectory : db₂.directory = db.directory)
    (hkey : (db₂.bookings.rows.map fun b => (b.id, b.userId, b.rootOrganizationId)) =
      db.bookings.rows.map fun b => (b.id, b.userId, b.rootOrganizationId))
    (hroot : b.rootOrganizationId = resource.rootOrganizationId) {a : ℤ} (ha : a < 0)
    {x : Reading} (hfresh : ∀ e ∈ db₂.ledger.transactions, e.id ≠ x.entryId)
    (hnone : db₂.ledger.amountsFor .bookingRefund b.id = [])
    (hroom : db₂.ledger.available b.userId resource.rootOrganizationId + -a ≤ 2147483647) :
    ∃ L, db₂.ledger.insert db₂.references ((cancellationOf now resource b).entry (-a) x)
      = some L := by
  have hnonneg := db₂.ledger.available_nonneg b.userId resource.rootOrganizationId
  have hbooking : (b.id, b.userId, b.rootOrganizationId) ∈ db₂.references.bookings := by
    rw [Database.references, hkey]
    exact List.mem_map_of_mem hb
  have huser : b.userId ∈ db₂.references.users := by
    rw [Database.references, hdirectory]
    exact hkeys.users b hb
  have hinteger : Integer4 (-a) := ⟨by omega, by omega⟩
  have hnothing {p : Uuid → Prop} (id : Uuid) (hid : none = some id) : p id := by cases hid
  refine Ledger.exists_refund rfl ⟨hinteger, neg_ne_zero.mpr ha.ne, .inr (.inr ⟨rfl,
    Int.neg_pos_of_neg ha, rfl, rfl⟩)⟩
    ⟨huser, hnothing, hnothing, fun id hid => ?_, fun id hid r hr => ?_⟩
    hfresh (fun id hid => ?_) (congrArg some hroot) ⟨huser, ?_⟩ hroom
  · obtain rfl := Option.some.inj hid
    exact List.mem_map.mpr ⟨_, hbooking, rfl⟩
  · obtain rfl := Option.some.inj hid
    obtain rfl := Option.some.inj hr
    exact hbooking
  · obtain rfl := Option.some.inj hid
    exact hnone
  · rw [Database.references, hdirectory]
    exact hkeys.root_mem hres

/-- **One round of the loop**: a confirmed booking of the resource is cancelled. -/
theorem next (h : Revoked db db' resource now done ids) (hkeys : db.ForeignKeys)
    (hres : resource ∈ db.directory.resources)
    (hdone : ∀ y ∈ done, y ∈ db.bookings) {b : Booking} (hb : b ∈ db.bookings) (hnew : b ∉ done)
    (hstatus : b.status = .confirmed) (hroot : b.rootOrganizationId = resource.rootOrganizationId)
    (hnow : b.createdAt ≤ now) (hunrefunded : db.ledger.amountsFor .bookingRefund b.id = [])
    {x : Reading} (hx : x.entryId ∉ ids) (hfresh : ∀ e ∈ db.ledger.transactions, e.id ≠ x.entryId)
    (hfit : db.ledger.available b.userId resource.rootOrganizationId
      - deducted db b.userId (done ++ [b]) ≤ 2147483647) :
    ∃ db'', code.replay ((cancellationOf now resource b).writes
        ((cancellationOf now resource b).deductedPoints db'.ledger) x) db' = some db''
      ∧ Revoked db db'' resource now (done ++ [b]) (ids ++ [x.entryId]) := by
  have hid : ∀ y ∈ done, y.id ≠ b.id := fun y hy heq =>
    hnew (booking_eq (hdone y hy) hb heq ▸ hy)
  have hunrefunded' : db'.ledger.amountsFor .bookingRefund b.id = [] := by
    rw [h.amountsFor (.inr fun hmem => ?_), hunrefunded]
    obtain ⟨y, hy, heq⟩ := List.mem_map.mp hmem
    exact hid y hy heq
  obtain ⟨refunds, hrefunds, hentries⟩ := h.entries
  obtain ⟨db₂, hwrites, hdirectory, hledger, hbookings, hslots⟩ :=
    h.replay_rows hkeys hb hnew hstatus hnow
  rw [hwrites, h.deductedPoints hkeys hb]
  rcases deduction_cases db.ledger b.id with hnil | ⟨a, ha, hone⟩
  · rw [hnil, if_neg (by simp)]
    refine ⟨db₂, rfl, hdirectory, hbookings, hslots, ⟨refunds, hledger ▸ hrefunds, ?_⟩, ?_, ?_⟩
    · intro e he
      obtain ⟨hid, htype, y, hy, h⟩ := hentries e he
      exact ⟨List.mem_append_left _ hid, htype, y, List.mem_append_left _ hy, h⟩
    · intro y hy
      rw [hledger]
      rcases List.mem_append.mp hy with hy | hy
      · exact h.refunded y hy
      · rw [List.mem_singleton.mp hy, hunrefunded', hnil, List.map_nil]
    · intro u
      rw [hledger, h.balances, deducted_append, deducted_singleton, hnil]
      simp
  · have hsum : -(db.ledger.amountsFor .booking b.id).sum = -a := by simp [hone]
    rw [hsum, if_pos (by omega)]
    have hroom : db'.ledger.available b.userId resource.rootOrganizationId + -a ≤ 2147483647 := by
      rw [deducted_append, deducted_singleton, if_pos rfl, hone, List.sum_singleton] at hfit
      rw [h.balances]
      omega
    obtain ⟨L, hL⟩ : ∃ L, db₂.ledger.insert db₂.references
        ((cancellationOf now resource b).entry (-a) x) = some L := by
      refine exists_entry hkeys hres hb hdirectory (keys_eq hbookings) hroot ha
        (fun e he heq => ?_) (hledger ▸ hunrefunded') (hledger ▸ hroom)
      rcases List.mem_append.mp (hrefunds ▸ hledger ▸ Table.mem_rows.mpr he) with he | he
      · exact hfresh e he heq
      · exact hx (heq ▸ (hentries e he).1)
    have hrows := Table.insert_eq_some.mp (Ledger.insert_eq_some hL).2.1
    refine ⟨{ db₂ with ledger := L }, ?_, hdirectory, hbookings, hslots, ⟨refunds ++
      [(cancellationOf now resource b).entry (-a) x], ?_, fun e he => ?_⟩, fun y hy => ?_,
      fun u => ?_⟩
    · change ((db₂.ledger.insert db₂.references _).map _).bind some = _
      rw [hL, Option.map_some, Option.bind_some]
    · rw [hrows, hledger, hrefunds, List.append_assoc]
    · rcases List.mem_append.mp he with he | he
      · obtain ⟨hid, htype, y, hy, h⟩ := hentries e he
        exact ⟨List.mem_append_left _ hid, htype, y, List.mem_append_left _ hy, h⟩
      · obtain rfl := List.mem_singleton.mp he
        exact ⟨List.mem_append_right _ (List.mem_singleton_self _), rfl, b,
          List.mem_append_right _ (List.mem_singleton_self _), rfl, rfl, rfl⟩
    · rw [Ledger.amountsFor_insert hL, hledger]
      rcases List.mem_append.mp hy with hy | hy
      · simp [h.refunded y hy, PointTransaction.forBooking, Cancellation.entry, cancellationOf,
          Ne.symm (hid y hy)]
      · obtain rfl := List.mem_singleton.mp hy
        simp [hunrefunded', hone, PointTransaction.forBooking, Cancellation.entry, cancellationOf]
    · rw [Ledger.available_insert hL, hledger, h.balances, deducted_append, deducted_singleton, hone]
      by_cases hu : b.userId = u <;>
        simp [PointTransaction.of, Cancellation.entry, cancellationOf, hu, hroot]
      omega

end Revoked

/-! ## The whole loop -/

section Loop

variable {resource : Resource} (hkeys : db.ForeignKeys) (hres : resource ∈ db.directory.resources)
include hkeys hres

/-- An affected booking is a confirmed one of the resource's university. -/
theorem mem_affected {b : Booking} (h : b ∈ db.bookings.rows.filter
    (affected db resource.id resource.rootOrganizationId now)) :
    b ∈ db.bookings ∧ b.status = .confirmed
      ∧ b.rootOrganizationId = resource.rootOrganizationId := by
  obtain ⟨hb, haff⟩ := List.mem_filter.mp h
  have hf : future db resource.id now b := (Bool.and_eq_true _ _ ▸ haff).1
  obtain ⟨r, hr, hlisted, -⟩ := listed_of_mem hkeys.toRowKeys hres now hb
  have hcond := of_decide_eq_true (hlisted.trans hf)
  obtain rfl := record?_eq_some hr
  exact ⟨hb, hcond.1, hcond.2.1⟩

/-- **The loop cancels what is left of its list**: the induction is on that, and `Revoked` holds
between the rounds. -/
theorem alone_cancelNext (hunrefunded : db.Unrefunded) (hnow : ∀ b ∈ db.bookings, b.createdAt ≤ now)
    (hfit : RefundsFit db resource now) : ∀ (todo : List Booking) {done : List Booking}
    {ids : List Uuid} {db' : Database} {xs : List Reading},
    Revoked db db' resource now done ids →
    done ++ todo = db.bookings.rows.filter
      (affected db resource.id resource.rootOrganizationId now) →
    2 * todo.length < xs.length → (ids ++ xs.map (·.entryId)).Nodup →
    (∀ x ∈ xs, ∀ e ∈ db.ledger.transactions, e.id ≠ x.entryId) →
    ∃ db'' ids', code.alone (xs.map .inl)
        (db', .cancelNext (todo.map (cancellationOf now resource))) = (db'', .returned)
      ∧ Revoked db db'' resource now (done ++ todo) ids'
  | [], done, ids, db', x :: xs, h, _, _, _, _ => by
      refine ⟨db', ids, ?_, by rwa [List.append_nil]⟩
      have hlast : code.read db' (.cancelNext []) (.inl x) = some .returned := rfl
      rw [List.map_cons, Code.alone_cons, List.map_nil, Code.solo_read rfl hlast]
      exact Code.alone_over rfl (fun x => by cases x <;> rfl) _
  | b :: todo, done, ids, db', x :: y :: xs, h, hlist, hlen, hnodup, hfresh => by
      have hmem : ∀ z ∈ done ++ b :: todo, z ∈ db.bookings ∧ z.status = .confirmed
          ∧ z.rootOrganizationId = resource.rootOrganizationId := fun z hz =>
        mem_affected hkeys hres (hlist ▸ hz)
      obtain ⟨hb, hstatus, hroot⟩ := hmem b (by simp)
      have hnew : b ∉ done := by
        have hrows : (done ++ b :: todo).Nodup :=
          hlist ▸ (List.Nodup.of_map _ db.bookings.valid.1).filter _
        exact fun hmem => (List.nodup_append.mp hrows).2.2 b hmem b (List.mem_cons_self ..) rfl
      have hroom := hfit b.userId
      rw [← hlist, List.append_cons, deducted_append] at hroom
      have hrest := deducted_nonpos db b.userId todo
      obtain ⟨db₁, hrep, h₁⟩ := h.next hkeys hres (fun z hz => (hmem z (by simp [hz])).1) hb hnew
        hstatus hroot (hnow b hb) (hunrefunded b hb hstatus) (x := x)
        (fun hx => (List.nodup_append.mp hnodup).2.2 _ hx _ (by simp) rfl)
        (hfresh x (by simp)) (by omega)
      obtain ⟨db'', ids', halone, h'⟩ := alone_cancelNext hunrefunded hnow hfit todo h₁
        (by rw [← hlist, List.append_assoc, List.singleton_append])
        (show 2 * todo.length < xs.length by simp only [List.length_cons] at hlen; omega)
        (List.Nodup.sublist (by simp) hnodup)
        (fun z hz => hfresh z (by simp [hz]))
      refine ⟨db'', ids', ?_, by rwa [List.append_assoc, List.singleton_append] at h'⟩
      rw [List.map_cons, Code.alone_cons, List.map_cons, Code.solo_read rfl rfl,
        Code.alone_cons, Code.solo_commit (by simp [code, Cancellation.writes]) hrep]
      exact halone

/-- What was cancelled is what ought to be. -/
theorem Revoked.reevaluated {ids : List Uuid} (h : Revoked db db' resource now
      (db.bookings.rows.filter (affected db resource.id resource.rootOrganizationId now)) ids) :
    Reevaluated db db' resource now where
  directory := h.directory
  bookings := by
    rw [h.bookings]
    exact List.map_congr_left fun b hb => by simp [List.mem_filter, hb]
  slots := by
    rw [h.slots]
    refine List.map_congr_left fun s _ => ?_
    simp [and_assoc]
  entries := by
    obtain ⟨refunds, hrows, hrefunds⟩ := h.entries
    refine ⟨refunds, hrows, fun e he => ?_⟩
    obtain ⟨-, htype, b, hb, hid, huser, hroot⟩ := hrefunds e he
    obtain ⟨hmem, haff⟩ := List.mem_filter.mp hb
    exact ⟨htype, b, hmem, haff, hid, huser, by rw [hroot, (mem_affected hkeys hres hb).2.2]⟩
  refunded b hb haff := h.refunded b (List.mem_filter.mpr ⟨hb, haff⟩)

/-- **A reevaluation by itself is complete and exact if and only if the row policies show the user
of every future booking of the resource.**  It takes `x.now` as its clock and then one reading for
each of its steps; the ids among them are fresh. -/
theorem reevaluated_iff (hunrefunded : db.Unrefunded) (x : Reading) (xs : List Reading)
    (hnow : ∀ b ∈ db.bookings, b.createdAt ≤ x.now) (hfit : RefundsFit db resource x.now)
    (hlen : 2 * db.bookings.rows.length < xs.length) (hnodup : (xs.map (·.entryId)).Nodup)
    (hfresh : ∀ x ∈ xs, ∀ e ∈ db.ledger.transactions, e.id ≠ x.entryId) :
    let s := code.alone ((x :: xs).map .inl)
      (db, .reevaluate resource.id resource.rootOrganizationId)
    (s.2 = .returned ∨ ∃ error, s.2 = .failed error)
      ∧ (Reevaluated db s.1 resource x.now ↔
          ∀ b ∈ db.bookings, future db resource.id x.now b →
            db.directory.shows resource.rootOrganizationId b.userId) := by
  intro s
  rw [← reevaluateBookings_isOk hkeys.toRowKeys hres]
  cases hwork : reevaluateBookings db resource.rootOrganizationId resource.id x.now with
  | ok work =>
    have hstep : code.solo (.inl x) (db, .reevaluate resource.id resource.rootOrganizationId) =
        (db, .cancelNext work) :=
      Code.solo_read rfl (by simp only [code, Point.next, hwork])
    obtain rfl := reevaluateBookings_eq hkeys.toRowKeys hres hwork
    obtain ⟨db', ids, halone, hrevoked⟩ := alone_cancelNext hkeys hres hunrefunded hnow hfit _
      (.refl db resource x.now) (List.nil_append _)
      (lt_of_le_of_lt (Nat.mul_le_mul_left 2 (List.length_filter_le ..)) hlen) hnodup hfresh
    have hs : s = (db', .returned) := by
      rw [← halone, ← hstep]
      rfl
    rw [hs]
    exact ⟨.inl rfl, iff_of_true (Revoked.reevaluated hkeys hres hrevoked) ⟨_, rfl⟩⟩
  | error e =>
    have hstep : code.solo (.inl x) (db, .reevaluate resource.id resource.rootOrganizationId) =
        (db, .failed (some (handleError "reevaluate" (.prisma e)))) :=
      Code.solo_read rfl (by simp only [code, Point.next, hwork])
    have hs : s = (db, .failed (some (handleError "reevaluate" (.prisma e)))) := by
      rw [← Code.alone_over (C := code) rfl (fun x => by cases x <;> rfl) (xs.map .inl), ← hstep]
      rfl
    rw [hs]
    refine ⟨.inr ⟨_, rfl⟩, iff_of_false (fun h => ?_) (by rintro ⟨_, ⟨⟩⟩)⟩
    have hno : ¬ ∃ work, reevaluateBookings db resource.rootOrganizationId resource.id x.now =
        .ok work := by simp [hwork]
    rw [reevaluateBookings_isOk hkeys.toRowKeys hres] at hno
    simp only [not_forall] at hno
    obtain ⟨b, hb, hf, hhidden⟩ := hno
    have haff := affected_of_hidden hkeys.toRowKeys hres hb hf (Bool.eq_false_iff.mpr hhidden)
    have hmem : (revocationData x.now resource).apply b ∈ db.bookings.rows := by
      rw [h.bookings]
      exact List.mem_map.mpr ⟨b, hb, if_pos haff⟩
    have heq := booking_eq hmem hb rfl
    have hstatus := (mem_affected hkeys hres (List.mem_filter.mpr ⟨hb, haff⟩)).2.1
    rw [← heq] at hstatus
    cases hstatus

end Loop

/-- A laboratory with one future booking, which took 5 of its user's 50 points, and with the
memberships given. -/
def sampleBooked (memberships : List OrganizationMembership) : Database where
  directory :=
    { users := [⟨1, .active⟩]
      organizations := [⟨100, 100, .active⟩]
      memberships := memberships
      resources := [⟨10, "Laboratory", 100, 100, .active, 5, 0, [], none⟩] }
  slots := (sample 5).db.slots
  bookings := ⟨[{ id := 30, resourceSlotId := 20, userId := 1, rootOrganizationId := 100,
                  createdAt := 0 }], by decide⟩
  ledger :=
    { transactions := ⟨[
        { id := 40, userId := 1, rootOrganizationId := some 100, amount := 50,
          transactionType := .joinBonus, sourceOrganizationId := some 100, createdAt := 0 },
        { id := 41, userId := 1, rootOrganizationId := some 100, amount := -5,
          transactionType := .booking, bookingId := some 30, createdAt := 0 }], by decide⟩
      balances := ⟨[⟨1, 100, 45, 0⟩], by decide⟩ }

theorem foreignKeys_sampleBooked (memberships : List OrganizationMembership) :
    (sampleBooked memberships).ForeignKeys := by
  have hslots : ∀ s ∈ (sampleBooked []).slots.rows, (s.resourceId, s.rootOrganizationId)
      ∈ (sampleBooked []).directory.resources.map fun r => (r.id, r.rootOrganizationId) := by decide
  have hbookings : ∀ b ∈ (sampleBooked []).bookings.rows, (b.resourceSlotId, b.rootOrganizationId)
      ∈ (sampleBooked []).slots.rows.map fun s => (s.id, s.rootOrganizationId) := by decide
  have husers : ∀ b ∈ (sampleBooked []).bookings.rows,
      b.userId ∈ (sampleBooked []).directory.users.map (·.id) := by decide
  have hentries : ∀ e ∈ (sampleBooked []).ledger.transactions.rows,
      (sampleBooked []).references.Admits e := by decide
  exact ⟨⟨List.nodup_singleton _, hslots, hbookings⟩, List.nodup_singleton _,
    by simp [sampleBooked], by simp [sampleBooked], by simp [sampleBooked], husers, hentries⟩

theorem unrefunded_sampleBooked (memberships : List OrganizationMembership) :
    (sampleBooked memberships).Unrefunded := fun b hb _ => by
  obtain rfl := List.mem_singleton.mp hb
  rfl

theorem refundsFit_sampleBooked (memberships : List OrganizationMembership) (resource : Resource)
    (now : Timestamp) : RefundsFit (sampleBooked memberships) resource now := by
  intro u
  have hbalance :
      (sampleBooked memberships).ledger.available u resource.rootOrganizationId ≤ 45 := by
    rw [Ledger.available_eq, Table.find?, sampleBooked, List.find?_singleton]
    split <;> decide
  have hdeducted (p : Booking → Bool) : -5 ≤ deducted (sampleBooked memberships) u
      ((sampleBooked memberships).bookings.rows.filter p) := by
    have hsum (b : Booking) (hb : b ∈ (sampleBooked memberships).bookings.rows) :
        ((sampleBooked memberships).ledger.amountsFor .booking b.id).sum = -5 := by
      obtain rfl := List.mem_singleton.mp hb
      rfl
    rcases List.sublist_singleton.mp (List.filter_sublist (p := p)
      (l := (sampleBooked memberships).bookings.rows)) with hnil | hone
    · rw [hnil]
      simp [deducted]
    · rw [hone, deducted_singleton]
      split
      · rw [hsum _ (List.mem_singleton_self _)]
      · decide
  have := hdeducted (affected (sampleBooked memberships) resource.id resource.rootOrganizationId now)
  omega

/-- Readings with the ids 50, 51, …. -/
def sampleReadings (n : ℕ) : List Reading := (List.range n).map fun i => { entryId := 50 + i }

/-- A member who was suspended loses the booking and has the 5 points back. -/
theorem reevaluated_of_suspended : Reevaluated (sampleBooked [⟨1, 100, .member, .suspended⟩])
    (code.alone (({} :: sampleReadings 3).map .inl)
      (sampleBooked [⟨1, 100, .member, .suspended⟩], .reevaluate 10 100)).1
    ⟨10, "Laboratory", 100, 100, .active, 5, 0, [], none⟩ 0 :=
  (reevaluated_iff (foreignKeys_sampleBooked _) (List.mem_singleton_self _)
    (unrefunded_sampleBooked _) {} (sampleReadings 3)
    (fun b hb => by obtain rfl := List.mem_singleton.mp hb; decide)
    (refundsFit_sampleBooked _ _ _) (by decide) (by decide) (by
      show ∀ x ∈ sampleReadings 3, ∀ e ∈ (sampleBooked []).ledger.transactions.rows,
        e.id ≠ x.entryId
      decide)).2.mpr (fun b hb _ => by
        obtain rfl := List.mem_singleton.mp hb
        decide)

/-- **The membership row of the booking's user was deleted**: they could not book, and the
reevaluation throws. -/
theorem not_reevaluated_of_deleted :
    canAccessResource .none (sampleBooked []).directory 10 1 100 = .ok false
      ∧ (sampleBooked []).ForeignKeys ∧ (sampleBooked []).Unrefunded
      ∧ (∀ b ∈ (sampleBooked []).bookings, b.createdAt ≤ 0)
      ∧ RefundsFit (sampleBooked []) ⟨10, "Laboratory", 100, 100, .active, 5, 0, [], none⟩ 0
      ∧ (code.alone (({} :: sampleReadings 3).map .inl) (sampleBooked [], .reevaluate 10 100)).2
          = .failed (some (.operation "reevaluate" .other))
      ∧ (code.alone (({} :: sampleReadings 3).map .inl)
          (sampleBooked [], .reevaluate 10 100)).1.bookings.rows.map (·.status) = [.confirmed]
      ∧ ¬ Reevaluated (sampleBooked [])
          (code.alone (({} :: sampleReadings 3).map .inl) (sampleBooked [], .reevaluate 10 100)).1
          ⟨10, "Laboratory", 100, 100, .active, 5, 0, [], none⟩ 0 := by
  refine ⟨rfl, foreignKeys_sampleBooked [], unrefunded_sampleBooked [], fun b hb => ?_,
    refundsFit_sampleBooked [] _ 0, by decide, by decide, fun h => ?_⟩
  · obtain rfl := List.mem_singleton.mp hb
    decide
  have hstatus := congrArg (List.map (·.status)) h.bookings
  revert hstatus
  decide

end ResourceHive.Bookings
