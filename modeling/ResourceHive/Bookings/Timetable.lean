import Mathlib.Data.List.Pairwise
import Mathlib.Data.Prod.Lex
import Mathlib.Order.Interval.Set.Disjoint
import ResourceHive.Bookings.Slots
import ResourceHive.Machinery.Together

/-!
# Bookings/Timetable — a resource is in use by one booking at a time

`SlotsService.create` checks the interval and the administrator, and leaves the rest to the
exclusion constraint `resource_slots_no_overlap`.  Its calls and those of the booking service
interleave over one database (`timetable`); to the booking service they are the `publish` of someone
else (`Both.left_run`).

No statement moves a slot, and none is ever deleted, so the slots of a resource stay apart, and with
`bookings_active_slot_unique` so do its active bookings (`one_at_a_time`).  The constraint does not
ask for the status: the time of a withdrawn slot is never published again.  It also makes of the
order of a list one of time: each slot ends before the next one starts (`listed_in_order`).
-/

namespace ResourceHive.Bookings

/-! ## `resource_slots_no_overlap` -/

/-- When a slot is, and of which resource. -/
structure Period where
  resourceId : Uuid
  startsAt : Timestamp
  endsAt : Timestamp
  deriving DecidableEq, Repr

def ResourceSlot.period (s : ResourceSlot) : Period := ⟨s.resourceId, s.startsAt, s.endsAt⟩

namespace Period

/-- `resource_id WITH =, tstzrange(starts_at, ends_at, '[)') WITH &&` does not hold. -/
def Apart (a b : Period) : Prop :=
  ¬ (a.resourceId = b.resourceId ∧ a.startsAt < b.endsAt ∧ b.startsAt < a.endsAt)

instance (a b : Period) : Decidable (a.Apart b) := inferInstanceAs (Decidable (¬ _))

theorem Apart.symm {a b : Period} (h : a.Apart b) : b.Apart a :=
  fun ⟨hr, hab, hba⟩ => h ⟨hr.symm, hba, hab⟩

/-- Periods of a resource with an instant in common are not apart. -/
theorem Apart.ne_of_mem {a b : Period} (h : a.Apart b) (hr : a.resourceId = b.resourceId)
    {time : Timestamp} (ha : time ∈ Set.Ico a.startsAt a.endsAt) :
    time ∉ Set.Ico b.startsAt b.endsAt :=
  fun hb => h ⟨hr, ha.1.trans_lt hb.2, hb.1.trans_lt ha.2⟩

/-- Of two that are apart, the one that starts first ends before the other. -/
theorem Apart.endsAt_le {a b : Period} (h : a.Apart b) (hr : a.resourceId = b.resourceId)
    (hle : a.startsAt ≤ b.startsAt) (hb : b.startsAt < b.endsAt) : a.endsAt ≤ b.startsAt := by
  by_contra hlt
  exact h ⟨hr, hle.trans_lt hb, not_le.mp hlt⟩

end Period

/-- **The exclusion constraint.** -/
def NoOverlap (db : Database) : Prop :=
  (db.slots.rows.map ResourceSlot.period).Pairwise Period.Apart

instance : DecidablePred NoOverlap := fun _ => inferInstanceAs (Decidable (List.Pairwise _ _))

/-! ## `SlotsService.create` -/

structure CreateSlotDto where
  resourceId : Uuid
  startsAt : Timestamp
  endsAt : Timestamp
  deriving DecidableEq, Repr

/-- The columns the insert sets; the others have their defaults. -/
structure CreateSlotData where
  id : Uuid
  resourceId : Uuid
  rootOrganizationId : Uuid
  startsAt : Timestamp
  endsAt : Timestamp
  deriving DecidableEq, Repr

def CreateSlotData.row (data : CreateSlotData) : ResourceSlot :=
  { id := data.id, resourceId := data.resourceId, rootOrganizationId := data.rootOrganizationId,
    startsAt := data.startsAt, endsAt := data.endsAt }

/-- The exceptions of `create`; those of `resolve` pass through. -/
inductive CreateSlotError
  | thrown (e : Thrown BookingError)
  | endsAtNotLater
  | administratorRequired
  | resourceNotFound
  | overlaps
  deriving DecidableEq, Repr

namespace CreateSlotError

/-- The HTTP status of the exception's class. -/
def status : CreateSlotError → Option ℕ
  | thrown _ => none
  | endsAtNotLater => some 400
  | administratorRequired => some 403
  | resourceNotFound => some 404
  | overlaps => some 409

def message : CreateSlotError → Option String
  | thrown _ => none
  | endsAtNotLater => some "endsAt must be later than startsAt"
  | administratorRequired => some "Administrator access is required"
  | resourceNotFound => some "Resource was not found in the requested tenant"
  | overlaps => some "The slot overlaps an existing slot"

end CreateSlotError

/-- Where a call of `create` is. -/
inductive SlotPoint
  | create (dto : CreateSlotDto) (user : AuthenticatedUser)
  | canManage (dto : CreateSlotDto) (context : BookingAuthorizationContext)
  /-- In the transaction of `SlotRepository.create`. -/
  | findResource (dto : CreateSlotDto) (rootOrganizationId : Uuid)
  | inserting (data : CreateSlotData) (resource : Resource)
  /-- The insert was rolled back, and its error is about to be looked at. -/
  | insertFailed
  | toView (slot : ResourceSlot) (resource : Resource)
  | returned (view : SlotView)
  /-- `none` where a statement threw, and not for a constraint. -/
  | failed (error : Option CreateSlotError)
  deriving DecidableEq

/-- What a step takes from outside: the time, the id of the row, and what `canManageResource` makes
of the organizations above the resource, or whether it was a constraint that rejected the row
(`P2002` and `P2004`). -/
structure SlotReading where
  now : Timestamp := 0
  id : Uuid := 0
  answer : Bool := true
  deriving DecidableEq, Repr

/-- The resource of `SlotRepository.create`. -/
def Directory.activeResource? (d : Directory) (resourceId rootOrganizationId : Uuid) :
    Option Resource :=
  d.resources.find? fun r => decide (r.id = resourceId)
    && decide (r.rootOrganizationId = rootOrganizationId) && decide (r.status = .active)

/-- **The steps of `create`** up to its insert. -/
def SlotPoint.next (db : Database) (x : SlotReading) : SlotPoint → Option SlotPoint
  | .create dto user =>
    some <| match resolve .none db.directory user with
      | .error e => .failed (some (.thrown e))
      | .ok context =>
        if dto.endsAt ≤ dto.startsAt then .failed (some .endsAtNotLater)
        else .canManage dto context
  | .canManage dto context =>
    some <| if x.answer then .findResource dto context.rootOrganizationId
      else .failed (some .administratorRequired)
  | .findResource dto rootOrganizationId =>
    some <| match db.directory.activeResource? dto.resourceId rootOrganizationId with
      | none => .failed (some .resourceNotFound)
      | some resource =>
        .inserting ⟨x.id, resource.id, rootOrganizationId, dto.startsAt, dto.endsAt⟩ resource
  | .insertFailed => some (.failed (if x.answer then some .overlaps else none))
  | .toView slot resource => some (.returned (Bookings.toView x.now ⟨slot, resource, []⟩))
  | .inserting _ _ | .returned _ | .failed _ => none

/-- **The insert**: its foreign key, its exclusion constraint, and the constraints of the table. -/
def insertSlot (data : CreateSlotData) (db : Database) : Option Database :=
  if (∃ r ∈ db.directory.resources, r.id = data.resourceId
        ∧ r.rootOrganizationId = data.rootOrganizationId)
      ∧ ∀ s ∈ db.slots.rows, s.period.Apart data.row.period then
    (db.slots.insert data.row).map fun slots => { db with slots }
  else none

/-- The calls of the slot service. -/
def slotCode : Code Database SlotPoint CreateSlotData SlotReading Empty Empty where
  entry
    | .create _ _ => true
    | _ => false
  read db p x := p.next db x
  writes
    | .inserting data _ => [data]
    | _ => []
  exec := insertSlot
  committed
    | .inserting data resource => .toView data.row resource
    | p => p
  rolledBack
    | .inserting _ _ | .insertFailed => .insertFailed
    | .returned view => .returned view
    | .failed error => .failed error
    | _ => .failed none
  emits _ := []
  outside x _ := x.elim

/-- The database, the calls of the booking service, and those of the slot service. -/
abbrev Timetable := Code.Both Database Point Event SlotPoint Empty

abbrev TimetableLabel :=
  Label Point (Reading ⊕ Thrown BookingError) Outside ⊕ Label SlotPoint SlotReading Empty

/-- **The slot service and the booking service.** -/
def timetable : Machine Timetable TimetableLabel :=
  code.together slotCode fun db => Initial db ∧ NoOverlap db

/-- Slots are published by the slot service only. -/
def ownSlots (_ : Timetable) : TimetableLabel → Bool
  | .inl (.outside (.publish _)) => false
  | _ => true

/-! ## The slots of a resource stay apart -/

variable {db db' : Database}

/-- No statement of the booking service moves a slot. -/
theorem exec_periods {w : Write} (h : w.exec db = some db') :
    db'.slots.rows.map ResourceSlot.period = db.slots.rows.map ResourceSlot.period := by
  cases w with
  | createBooking b read =>
    rw [(exec_createBooking h).2.2.2]
  | updateBooking id status data =>
    rw [(exec_updateBooking h).2.2]
  | updateSlot id status withdrawnAt =>
    exact Table.map_update (exec_updateSlot h).1 fun _ => rfl
  | append e =>
    rw [(exec_append h).2]

theorem replay_periods {ws : List Write} (h : code.replay ws db = some db') :
    db'.slots.rows.map ResourceSlot.period = db.slots.rows.map ResourceSlot.period := by
  induction ws generalizing db with
  | nil =>
    obtain rfl := Option.some.inj h
    rfl
  | cons w ws ih =>
    obtain ⟨db₁, hw, hrest⟩ := Option.bind_eq_some_iff.mp h
    exact (ih hrest).trans (exec_periods hw)

/-- Nor does anyone else, but by publishing one. -/
theorem outside_periods {x : Outside} (hx : ∀ slot, x ≠ .publish slot)
    (h : code.outside x db = some db') :
    db'.slots.rows.map ResourceSlot.period = db.slots.rows.map ResourceSlot.period := by
  cases x with
  | directory d =>
    obtain rfl := Option.some.inj h
    rfl
  | publish slot => exact absurd rfl (hx slot)
  | credit e =>
    simp only [code, Option.ite_none_right_eq_some, Option.map_eq_some_iff] at h
    obtain ⟨-, ledger, -, rfl⟩ := h
    rfl

theorem insertSlot_eq_some {data : CreateSlotData} (h : insertSlot data db = some db') :
    (∀ s ∈ db.slots, s.period.Apart data.row.period)
      ∧ db.slots.insert data.row = some db'.slots ∧ db' = { db with slots := db'.slots } := by
  simp only [insertSlot, Option.ite_none_right_eq_some, Option.map_eq_some_iff] at h
  obtain ⟨⟨-, hapart⟩, slots, hslots, rfl⟩ := h
  exact ⟨hapart, hslots, rfl⟩

/-- A commit of the slot service inserts one slot. -/
theorem replay_slotCode {p : SlotPoint} (hne : slotCode.writes p ≠ [])
    (h : slotCode.replay (slotCode.writes p) db = some db') :
    ∃ data, insertSlot data db = some db' := by
  cases p with
  | inserting data resource =>
    obtain ⟨db₁, hinsert, hrest⟩ := Option.bind_eq_some_iff.mp h
    obtain rfl := Option.some.inj hrest
    exact ⟨data, hinsert⟩
  | create | canManage | findResource | insertFailed | toView | returned | failed =>
    exact absurd rfl hne

theorem NoOverlap.insert {data : CreateSlotData} (h : NoOverlap db)
    (hinsert : insertSlot data db = some db') : NoOverlap db' := by
  obtain ⟨hapart, hslots, -⟩ := insertSlot_eq_some hinsert
  rw [NoOverlap, Table.insert_eq_some.mp hslots, List.map_append, List.pairwise_append]
  refine ⟨h, List.pairwise_singleton _ _, fun a ha b hb => ?_⟩
  obtain ⟨s, hs, rfl⟩ := List.mem_map.mp ha
  obtain rfl := List.mem_singleton.mp hb
  exact hapart s hs

theorem NoOverlap.slots (h : NoOverlap db) :
    db.slots.rows.Pairwise fun a b => a.period.Apart b.period :=
  List.pairwise_map.mp h

theorem NoOverlap.apart (h : NoOverlap db) {a b : ResourceSlot} (ha : a ∈ db.slots)
    (hb : b ∈ db.slots) (hne : a ≠ b) : a.period.Apart b.period := by
  have : Std.Symm fun a b : ResourceSlot => a.period.Apart b.period := ⟨fun _ _ h => h.symm⟩
  exact h.slots.forall ha hb hne

variable {s : Timetable}

/-- **The constraint holds in every state.** -/
theorem noOverlap (hs : timetable.Reachable (fun s l => ownSlots s l = true) s) :
    NoOverlap s.db := by
  obtain ⟨s₀, hinit, hrun⟩ := hs
  refine Code.Both.run_invariant (V := NoOverlap) hrun hinit.1.2 (fun h hrep => ?_)
    (fun hne h hrep => ?_) (fun hok h hx => ?_) (fun {_ y} => y.elim)
  · rw [NoOverlap, replay_periods hrep]
    exact h
  · obtain ⟨data, hinsert⟩ := replay_slotCode hne hrep
    exact h.insert hinsert
  · rw [NoOverlap, outside_periods (fun slot hslot => ?_) hx]
    · exact h
    · subst hslot
      cases hok

/-- **A timetable only grows**: no slot is moved or removed, and nothing is ever published for a time
that was published before, also if its slot was withdrawn. -/
theorem never_republished (hs : timetable.Reachable (fun s l => ownSlots s l = true) s)
    {t : Timetable}
    (hrun : timetable.Run (fun s l => ownSlots s l = true) s t) :
    ∃ new, t.db.slots.rows.map ResourceSlot.period
        = s.db.slots.rows.map ResourceSlot.period ++ new
      ∧ ∀ old ∈ s.db.slots.rows.map ResourceSlot.period, ∀ p ∈ new, old.Apart p := by
  obtain ⟨new, hnew⟩ : ∃ new, t.db.slots.rows.map ResourceSlot.period
      = s.db.slots.rows.map ResourceSlot.period ++ new := by
    refine Code.Both.run_invariant (V := fun db => ∃ new, db.slots.rows.map ResourceSlot.period
        = s.db.slots.rows.map ResourceSlot.period ++ new) hrun ⟨[], (List.append_nil _).symm⟩
      (fun ⟨new, h⟩ hrep => ⟨new, (replay_periods hrep).trans h⟩)
      (fun hne ⟨new, h⟩ hrep => ?_) (fun hok ⟨new, h⟩ hx => ⟨new, ?_⟩) (fun {_ y} => y.elim)
    · obtain ⟨data, hinsert⟩ := replay_slotCode hne hrep
      obtain ⟨-, hslots, -⟩ := insertSlot_eq_some hinsert
      refine ⟨new ++ [data.row.period], ?_⟩
      rw [Table.insert_eq_some.mp hslots, List.map_append, h, List.append_assoc]
      rfl
    · refine (outside_periods (fun slot hslot => ?_) hx).trans h
      subst hslot
      cases hok
  have hapart := noOverlap (hs.run hrun)
  rw [NoOverlap, hnew, List.pairwise_append] at hapart
  exact ⟨new, hnew, hapart.2.2⟩

/-- The resource of the sample. -/
def sampleResource (pointCost : ℤ) : Resource :=
  ⟨10, "Laboratory", 100, 100, .active, pointCost, 0, [], none⟩

/-- A slot is booked, and withdrawn when its user's access is revoked. -/
def withdrawnSlot : List TimetableLabel :=
  ([.call (.create 20 ⟨1, some 100⟩ 1), .read 0 (.inl { now := 1, id := 30 }), .write 0, .commit 0,
    .outside (.directory sampleRevoked), .call (.reevaluate 10 100), .read 1 (.inl { now := 2 }),
    .read 1 (.inl {}), .write 1, .write 1, .commit 1]
      : List (Label Point (Reading ⊕ Thrown BookingError) Outside)).map .inl

/-- An administrator publishes a slot that overlaps with the sample's, and one that does not. -/
def publishedTwice : List TimetableLabel :=
  ([.call (.create ⟨10, 1500, 2500⟩ ⟨2, some 100⟩), .read 0 {}, .read 0 {}, .read 0 { id := 22 },
    .rollback 0, .read 0 {}, .call (.create ⟨10, 2000, 3000⟩ ⟨2, some 100⟩), .read 1 {}, .read 1 {},
    .read 1 { id := 23 }, .write 1, .commit 1]
      : List (Label SlotPoint SlotReading Empty)).map .inr

def afterPublishing : List SlotPoint :=
  [.failed (some .overlaps),
    .toView ⟨23, 10, 100, 2000, 3000, .published, none⟩ (sampleResource 0)]

/-- A booking is withdrawn with its slot; of two slots that an administrator then publishes, the
first overlaps with it. -/
theorem never_republished_after_withdrawal :
    ∃ s t : Timetable, s.db.slots.rows.map ResourceSlot.status = [.withdrawn]
        ∧ t.calls'.map Session.pc = afterPublishing
        ∧ ∃ new, t.db.slots.rows.map ResourceSlot.period
            = s.db.slots.rows.map ResourceSlot.period ++ new
          ∧ ∀ old ∈ s.db.slots.rows.map ResourceSlot.period, ∀ p ∈ new, old.Apart p := by
  obtain ⟨s, hs, hp⟩ := timetable.exists_reachable_guarded (p := ownSlots)
    (q := fun s => decide (s.db.slots.rows.map ResourceSlot.status = [.withdrawn])
      && ((timetable.guarded ownSlots).exec s publishedTwice).any fun t : Timetable =>
        decide (t.calls'.map Session.pc = afterPublishing))
    (s := ⟨(sample 0).db, [], [], [], []⟩) withdrawnSlot
    ⟨⟨(sample_init 0).1, by decide⟩, rfl, rfl, rfl, rfl⟩ (by decide)
  rw [Bool.and_eq_true] at hp
  obtain ⟨t, hrun, ht⟩ := timetable.exists_run_guarded publishedTwice hp.2
  exact ⟨s, t, of_decide_eq_true hp.1, of_decide_eq_true ht, never_republished hs hrun⟩

/-- **A resource is in use by one booking at a time**: in every state of every interleaving, the
slots of two active bookings of a resource have no instant in common. -/
theorem one_at_a_time (hs : timetable.Reachable (fun s l => ownSlots s l = true) s) :
    ∀ b ∈ s.db.bookings, ∀ b' ∈ s.db.bookings, b.active → b'.active → b ≠ b' →
      ∀ slot ∈ s.db.slots, ∀ slot' ∈ s.db.slots, slot.id = b.resourceSlotId →
        slot'.id = b'.resourceSlotId → slot.resourceId = slot'.resourceId →
          Disjoint (Set.Ico slot.startsAt slot.endsAt) (Set.Ico slot'.startsAt slot'.endsAt) := by
  intro b hb b' hb' hactive hactive' hne slot hslot slot' hslot' hid hid' hresource
  have hslots : slot ≠ slot' := by
    rintro rfl
    exact hne (s.db.bookings.valid.2.2.eq hb hactive hb' hactive' (hid.symm.trans hid'))
  exact Set.disjoint_left.mpr fun time htime =>
    ((noOverlap hs).apart hslot hslot' hslots).ne_of_mem hresource htime

/-- An administrator publishes a second slot, right after the first, and both are booked. -/
def bookedTwice : List TimetableLabel :=
  [.inr (.call (.create ⟨10, 2000, 3000⟩ ⟨2, some 100⟩)), .inr (.read 0 {}),
    .inl (.call (.create 20 ⟨1, some 100⟩ 1)), .inr (.read 0 {}),
    .inl (.read 0 (.inl { now := 1, id := 30 })), .inr (.read 0 { id := 21 }), .inl (.write 0),
    .inr (.write 0), .inr (.commit 0), .inl (.commit 0), .inr (.read 0 { now := 1 }),
    .inl (.call (.create 21 ⟨2, some 100⟩ 1)), .inl (.read 1 (.inl { now := 1, id := 31 })),
    .inl (.write 1), .inl (.commit 1)]

theorem exists_bookedTwice : ∃ s, timetable.Reachable (fun s l => ownSlots s l = true) s
    ∧ decide (s.db.bookings.rows.map (fun b => (b.resourceSlotId, b.status))
        = [(20, .confirmed), (21, .confirmed)]
      ∧ s.db.slots.rows.map (fun s => (s.id, s.period))
        = [(20, ⟨10, 1000, 2000⟩), (21, ⟨10, 2000, 3000⟩)]) = true :=
  timetable.exists_reachable_guarded (p := ownSlots)
    (s := ⟨(sample 0).db, [], [], [], []⟩) bookedTwice
    ⟨⟨(sample_init 0).1, by decide⟩, rfl, rfl, rfl, rfl⟩ (by decide)

theorem one_at_a_time_when_bookedTwice : ∃ s : Timetable,
    s.db.bookings.rows.map (fun b => (b.resourceSlotId, b.status))
        = [(20, .confirmed), (21, .confirmed)]
      ∧ ∀ b ∈ s.db.bookings, ∀ b' ∈ s.db.bookings, b.active → b'.active → b ≠ b' →
        ∀ slot ∈ s.db.slots, ∀ slot' ∈ s.db.slots, slot.id = b.resourceSlotId →
          slot'.id = b'.resourceSlotId → slot.resourceId = slot'.resourceId →
            Disjoint (Set.Ico slot.startsAt slot.endsAt)
              (Set.Ico slot'.startsAt slot'.endsAt) := by
  obtain ⟨s, hs, hp⟩ := exists_bookedTwice
  exact ⟨s, (of_decide_eq_true hp).1, one_at_a_time hs⟩

/-- **To the booking service the slot service is someone who publishes slots**: what it sees of a
run is a run of its own. -/
theorem booking_machine_of_timetable
    (hs : timetable.Reachable (fun s l => ownSlots s l = true) s) :
    machine.Reachable Machine.free s.left := by
  obtain ⟨s₀, ⟨⟨hinitial, -⟩, hhistory, hcalls, -, -⟩, hrun⟩ := hs
  refine ⟨s₀.left, ⟨hinitial, hhistory, hcalls⟩, Code.Both.left_run (D := slotCode)
    (fun hne hrep => ?_) (fun {y} => y.elim) hrun⟩
  obtain ⟨data, hinsert⟩ := replay_slotCode hne hrep
  obtain ⟨-, hslots, heq⟩ := insertSlot_eq_some hinsert
  refine ⟨.publish data.row, ?_⟩
  rw [heq]
  simp only [code, CreateSlotData.row, if_true]
  rw [CreateSlotData.row] at hslots
  rw [hslots]
  rfl

/-! ## The order of a list -/

theorem startsEarlier_iff {a b : ResourceSlot} :
    startsEarlier a b = true ↔ toLex (a.startsAt, a.id) ≤ toLex (b.startsAt, b.id) := by
  rw [startsEarlier, decide_eq_true_eq, Prod.Lex.toLex_le_toLex]

theorem startsEarlier_trans (a b c : ResourceSlot) (hab : startsEarlier a b = true)
    (hbc : startsEarlier b c = true) : startsEarlier a c = true :=
  startsEarlier_iff.mpr ((startsEarlier_iff.mp hab).trans (startsEarlier_iff.mp hbc))

theorem startsEarlier_total (a b : ResourceSlot) :
    (startsEarlier a b || startsEarlier b a) = true := by
  rw [Bool.or_eq_true, startsEarlier_iff, startsEarlier_iff]
  exact le_total _ _

/-- **The slots of a list follow one another in time.** -/
theorem findByResource_ordered (h : NoOverlap db) (resourceId root : Uuid) (query : ListSlotsDto) :
    (findByResource db resourceId root query).Pairwise
      fun r r' => r.slot.endsAt ≤ r'.slot.startsAt := by
  rw [findByResource]
  generalize hslots : db.slots.rows.filter _ = slots
  have hmem : ∀ slot ∈ slots, slot ∈ db.slots ∧ slot.resourceId = resourceId := by
    intro slot hslot
    rw [← hslots, List.mem_filter] at hslot
    simp only [Bool.and_eq_true, decide_eq_true_eq] at hslot
    exact ⟨hslot.1, hslot.2.1.1.1.1⟩
  have happart : (slots.mergeSort startsEarlier).Pairwise fun a b => a.period.Apart b.period := by
    rw [(List.mergeSort_perm slots startsEarlier).pairwise_iff fun h => h.symm, ← hslots]
    exact h.slots.sublist List.filter_sublist
  have hearlier := List.pairwise_mergeSort startsEarlier_trans startsEarlier_total slots
  have hordered : (slots.mergeSort startsEarlier).Pairwise fun a b => a.endsAt ≤ b.startsAt := by
    refine (hearlier.and happart).imp_of_mem fun {a b} ha hb hab => ?_
    obtain ⟨-, hra⟩ := hmem a (List.mem_mergeSort.mp ha)
    obtain ⟨hb, hrb⟩ := hmem b (List.mem_mergeSort.mp hb)
    refine hab.2.endsAt_le (hra.trans hrb.symm) ?_ (db.slots.valid.2 b hb).1
    have hle := hab.1
    simp only [startsEarlier, decide_eq_true_eq] at hle
    exact hle.elim le_of_lt fun h => h.1.le
  have hpage := hordered.sublist ((List.take_sublist query.take _).trans
    (List.drop_sublist query.skip _))
  refine hpage.filterMap _ fun a b hab r hr r' hr' => ?_
  obtain ⟨resource, -, rfl⟩ := Option.map_eq_some_iff.mp hr
  obtain ⟨resource', -, rfl⟩ := Option.map_eq_some_iff.mp hr'
  exact hab

/-- **A list of slots is a timetable**: whatever page of it is asked for, each slot ends before the
next one starts. -/
theorem listed_in_order (hs : timetable.Reachable (fun s l => ownSlots s l = true) s)
    {faults : Faults} {now : Timestamp} {resourceId : Uuid} {dto : ListSlotsDto}
    {user : AuthenticatedUser} {views : List SlotView}
    (h : list faults s.db now resourceId dto user = .ok views) :
    views.Pairwise fun v v' => v.endsAt ≤ v'.startsAt := by
  obtain ⟨context, -, h⟩ := bind_eq_ok.mp h
  split at h
  · cases h
  obtain ⟨canAccess, -, h⟩ := bind_eq_ok.mp h
  split at h
  · obtain ⟨records, hrecords, h⟩ := bind_eq_ok.mp h
    obtain rfl := Except.ok.inj h
    rw [← query_eq_ok (mapError_eq_ok.mp hrecords), List.pairwise_map]
    exact findByResource_ordered (noOverlap hs) _ _ _
  · cases h

theorem listed_in_order_when_bookedTwice : ∃ (s : Timetable) (views : List SlotView),
    s.db.slots.rows.map ResourceSlot.id = [20, 21]
      ∧ list .none s.db 1 10 {} ⟨1, some 100⟩ = .ok views
      ∧ views.Pairwise fun v v' => v.endsAt ≤ v'.startsAt := by
  obtain ⟨s, hs, hp⟩ := timetable.exists_reachable_guarded (p := ownSlots)
    (q := fun s => decide (s.db.slots.rows.map ResourceSlot.id = [20, 21]
      ∧ resolve .none s.db.directory ⟨1, some 100⟩ = .ok ⟨1, 100, 100, .member⟩
      ∧ canAccessResource .none s.db.directory 10 1 100 = .ok true))
    (s := ⟨(sample 0).db, [], [], [], []⟩) bookedTwice
    ⟨⟨(sample_init 0).1, by decide⟩, rfl, rfl, rfl, rfl⟩ (by decide)
  obtain ⟨hids, hresolve, haccess⟩ := of_decide_eq_true hp
  have hlist : list .none s.db 1 10 {} ⟨1, some 100⟩
      = .ok ((findByResource s.db 10 100 {}).map (toView 1)) := by
    rw [list, hresolve]
    simp only [Except.mapError, bind, Except.bind, ListSlotsDto.empty, Option.any_none,
      Bool.false_eq_true, if_false, haccess, if_true, query_none, pure, Except.pure]
  exact ⟨s, _, hids, hlist, listed_in_order hs hlist⟩

end ResourceHive.Bookings
