import ResourceHive.Bookings.System

/-!
# Bookings/Slots — which slots `SlotsService` shows as available

The view of a slot and the validation of a booking are two conjunctions over the same record.  They
differ in one conjunct: the view asks that the slot has not *ended*, the validation that it has not
*started*.  So a slot in progress that nobody has booked is shown as available and cannot be booked,
and no other is (`available_iff_bookable_iff`).
-/

namespace ResourceHive.Bookings

/-! ## `SlotRepository` -/

/-- `slotWithResource`: the record of a slot, with its resource and its bookings that are not
cancelled. -/
def slotWithResource (db : Database) (slot : ResourceSlot) : Option SlotRecord :=
  (db.directory.resource? slot.resourceId).map fun resource =>
    ⟨slot, resource, ((db.bookingsOf slot.id).filter (·.status ≠ .cancelled)).map (·.id)⟩

/-- The query of a list, with the defaults of its fields. -/
structure ListSlotsDto where
  startsAtOrAfter : Option Timestamp := none
  startsBefore : Option Timestamp := none
  skip : ℕ := 0
  take : ℕ := 50
  deriving DecidableEq, Repr

/-- `orderBy: [{ startsAt: "asc" }, { id: "asc" }]` -/
def startsEarlier (a b : ResourceSlot) : Bool :=
  decide (a.startsAt < b.startsAt ∨ a.startsAt = b.startsAt ∧ a.id ≤ b.id)

/-- `SlotRepository.findByResource`. -/
def findByResource (db : Database) (resourceId rootOrganizationId : Uuid) (query : ListSlotsDto) :
    List SlotRecord :=
  let slots := db.slots.rows.filter fun s =>
    decide (s.resourceId = resourceId ∧ s.status = .published)
      && (db.directory.resource? s.resourceId).any (·.rootOrganizationId = rootOrganizationId)
      && query.startsAtOrAfter.all (· ≤ s.startsAt) && query.startsBefore.all (s.startsAt < ·)
  (((slots.mergeSort startsEarlier).drop query.skip).take query.take).filterMap
    (slotWithResource db)

/-! ## `SlotsService` -/

/-- The exceptions of the service; those of `resolve` and of the database pass through. -/
inductive SlotsError
  | thrown (e : Thrown BookingError)
  | slotNotFound
  | resourceNotFound
  | startsBeforeNotLater
  deriving DecidableEq, Repr

def SlotsError.message : SlotsError → Option String
  | thrown _ => none
  | slotNotFound => some "Slot not found"
  | resourceNotFound => some "Resource not found"
  | startsBeforeNotLater => some "startsBefore must be later than startsAtOrAfter"

structure SlotView where
  id : Uuid
  resourceId : Uuid
  startsAt : Timestamp
  endsAt : Timestamp
  status : SlotStatus
  available : Bool
  deriving DecidableEq, Repr

/-- `toView`. -/
def toView (now : Timestamp) (record : SlotRecord) : SlotView where
  id := record.slot.id
  resourceId := record.slot.resourceId
  startsAt := record.slot.startsAt
  endsAt := record.slot.endsAt
  status := record.slot.status
  available := decide (record.slot.status = .published) && decide (record.resource.status = .active)
    && decide (now < record.slot.endsAt) && decide (record.bookings.length = 0)

/-- **`SlotsService.findOne`.** -/
def findOne (faults : Faults) (db : Database) (now : Timestamp) (slotId : Uuid)
    (user : AuthenticatedUser) : Except SlotsError SlotView := do
  let context ← (resolve faults db.directory user).mapError .thrown
  let slot ← (query faults .findSlot (findById db slotId context.rootOrganizationId)).mapError
    fun e => .thrown (.prisma e)
  match slot with
  | none => throw .slotNotFound
  | some record =>
    let canAccess ← (canAccessResource faults db.directory record.slot.resourceId context.userId
      context.rootOrganizationId).mapError .thrown
    if canAccess then pure (toView now record) else throw .slotNotFound

/-- `query.startsBefore <= query.startsAtOrAfter`, where both are given. -/
def ListSlotsDto.empty (query : ListSlotsDto) : Bool :=
  query.startsAtOrAfter.any fun startsAtOrAfter => query.startsBefore.any (· ≤ startsAtOrAfter)

/-- **`SlotsService.list`.** -/
def list (faults : Faults) (db : Database) (now : Timestamp) (resourceId : Uuid)
    (dto : ListSlotsDto) (user : AuthenticatedUser) : Except SlotsError (List SlotView) := do
  let context ← (resolve faults db.directory user).mapError .thrown
  if dto.empty then throw .startsBeforeNotLater
  else
    let canAccess ← (canAccessResource faults db.directory resourceId context.userId
      context.rootOrganizationId).mapError .thrown
    if canAccess then
      let slots ← (query faults .findSlot
        (findByResource db resourceId context.rootOrganizationId dto)).mapError
          fun e => .thrown (.prisma e)
      pure (slots.map (toView now))
    else throw .resourceNotFound

/-- **The service returns the slot to the user**, alone or in a list. -/
def Returns (faults : Faults) (db : Database) (now : Timestamp) (user : AuthenticatedUser)
    (view : SlotView) : Prop :=
  (∃ slotId, findOne faults db now slotId user = .ok view)
    ∨ ∃ resourceId dto views, list faults db now resourceId dto user = .ok views ∧ view ∈ views

/-! ## The record behind a view -/

section Record

variable {faults : Faults} {db : Database} {now : Timestamp} {user : AuthenticatedUser}
  {view : SlotView} {context : BookingAuthorizationContext} {record : SlotRecord}

/-- What a call that answered has read, it reads again. -/
theorem query_none_of_ok {α : Type*} {statement : Statement} {answer a : α}
    (h : query faults statement answer = .ok a) : query Faults.none statement answer = .ok a := by
  rw [query_none, query_eq_ok h]

theorem resolve_none_of_ok (h : resolve faults db.directory user = .ok context) :
    resolve Faults.none db.directory user = .ok context := by
  unfold resolve at h ⊢
  cases horg : user.organizationId with
  | none => simp only [horg] at h; cases h
  | some organizationId =>
    simp only [horg] at h ⊢
    obtain ⟨membership, hmembership, h⟩ := bind_eq_ok.mp h
    refine bind_eq_ok.mpr ⟨membership, ?_, h⟩
    exact mapError_eq_ok.mpr (query_none_of_ok (mapError_eq_ok.mp hmembership))

theorem canAccessResource_none_of_ok {resourceId userId root : Uuid} {canAccess : Bool}
    (h : canAccessResource faults db.directory resourceId userId root = .ok canAccess) :
    canAccessResource Faults.none db.directory resourceId userId root = .ok canAccess := by
  rw [canAccessResource, bind_eq_ok] at h ⊢
  obtain ⟨resource, hresource, h⟩ := h
  refine ⟨resource, mapError_eq_ok.mpr (query_none_of_ok (mapError_eq_ok.mp hresource)), ?_⟩
  cases resource with
  | none => exact h
  | some r =>
    obtain ⟨membership, hmembership, h⟩ := bind_eq_ok.mp h
    refine bind_eq_ok.mpr ⟨membership, ?_, h⟩
    exact mapError_eq_ok.mpr (query_none_of_ok (mapError_eq_ok.mp hmembership))

/-- Looking a published slot of the university up by its id finds its record. -/
theorem findById_eq_of_mem {slot : ResourceSlot} {root : Uuid} (hslot : slot ∈ db.slots)
    (hpublished : slot.status = .published)
    (hroot : (db.directory.resource? slot.resourceId).any (·.rootOrganizationId = root)) :
    findById db slot.id root = slotWithResource db slot := by
  have hfind : db.slots.find? (fun s => decide (s.id = slot.id ∧ s.status = .published)
      && (db.directory.resource? s.resourceId).any (·.rootOrganizationId = root)) = some slot := by
    refine db.slots.valid.1.find?_eq_of hslot ?_ fun s hs => ?_
    · simp [hpublished, hroot]
    · simp only [Bool.and_eq_true, decide_eq_true_eq] at hs
      exact hs.1.1
  rw [findById, hfind]
  rfl

/-- **Behind a view is the record that the validation reads**, of a resource the user can access. -/
structure Behind (db : Database) (now : Timestamp) (user : AuthenticatedUser) (view : SlotView)
    (context : BookingAuthorizationContext) (record : SlotRecord) : Prop where
  resolved : resolve Faults.none db.directory user = .ok context
  shown : view = toView now record
  found : findById db view.id context.rootOrganizationId = some record
  access : canAccessResource Faults.none db.directory record.slot.resourceId context.userId
    context.rootOrganizationId = .ok true

theorem behind_of_findOne {slotId : Uuid} (h : findOne faults db now slotId user = .ok view) :
    ∃ context record, Behind db now user view context record := by
  obtain ⟨context, hcontext, h⟩ := bind_eq_ok.mp h
  obtain ⟨slot, hslot, h⟩ := bind_eq_ok.mp h
  have hfind := query_eq_ok (mapError_eq_ok.mp hslot)
  cases slot with
  | none => cases h
  | some record =>
    obtain ⟨canAccess, hcan, h⟩ := bind_eq_ok.mp h
    split at h
    · rename_i hallowed
      obtain rfl := Except.ok.inj h
      obtain rfl : record.slot.id = slotId := (findById_eq_some hfind).2.1
      exact ⟨context, record, resolve_none_of_ok (mapError_eq_ok.mp hcontext), rfl, hfind,
        canAccessResource_none_of_ok (hallowed ▸ mapError_eq_ok.mp hcan)⟩
    · cases h

theorem behind_of_list {resourceId : Uuid} {dto : ListSlotsDto} {views : List SlotView}
    (h : list faults db now resourceId dto user = .ok views) (hview : view ∈ views) :
    ∃ context record, Behind db now user view context record := by
  obtain ⟨context, hcontext, h⟩ := bind_eq_ok.mp h
  split at h
  · cases h
  obtain ⟨canAccess, hcan, h⟩ := bind_eq_ok.mp h
  split at h
  · rename_i hallowed
    obtain ⟨slots, hslots, h⟩ := bind_eq_ok.mp h
    obtain rfl := Except.ok.inj h
    obtain ⟨record, hrecord, rfl⟩ := List.mem_map.mp hview
    rw [← query_eq_ok (mapError_eq_ok.mp hslots)] at hrecord
    obtain ⟨slot, hslot, hinclude⟩ := List.mem_filterMap.mp hrecord
    -- the page of a sorted list is of the list
    have hmem := List.mem_mergeSort.mp (List.mem_of_mem_drop (List.mem_of_mem_take hslot))
    simp only [List.mem_filter, Bool.and_eq_true, decide_eq_true_eq] at hmem
    obtain ⟨hmem, ⟨⟨⟨hresource, hpublished⟩, hroot⟩, -⟩, -⟩ := hmem
    obtain ⟨resource, -, rfl⟩ := Option.map_eq_some_iff.mp hinclude
    refine ⟨context, _, resolve_none_of_ok (mapError_eq_ok.mp hcontext), rfl, ?_, ?_⟩
    · exact (findById_eq_of_mem hmem hpublished hroot).trans hinclude
    · rw [hresource]
      exact canAccessResource_none_of_ok (hallowed ▸ mapError_eq_ok.mp hcan)
  · cases h

theorem Returns.behind (h : Returns faults db now user view) :
    ∃ context record, Behind db now user view context record := by
  rcases h with ⟨slotId, h⟩ | ⟨resourceId, dto, views, h, hview⟩
  · exact behind_of_findOne h
  · exact behind_of_list h hview

end Record

/-! ## Shown as available, and bookable -/

section Available

variable {faults : Faults} {db : Database} {now : Timestamp} {user : AuthenticatedUser}
  {view : SlotView} {context : BookingAuthorizationContext} {record : SlotRecord}

/-- The slot's resource costs a number of points that is not negative, and the user's balance covers
it. -/
def CostCovered (db : Database) (user : AuthenticatedUser) (slotId : Uuid) : Prop :=
  ∀ context, resolve Faults.none db.directory user = .ok context →
    ∀ slot ∈ db.slots, slot.id = slotId →
      ∀ resource, db.directory.resource? slot.resourceId = some resource →
        0 ≤ resource.pointCost
          ∧ resource.pointCost ≤ db.ledger.getBalance context.userId context.rootOrganizationId

/-- **The condition that a view gets wrong**: the slot is in progress and nobody has booked it. -/
def FreeInProgress (db : Database) (now : Timestamp) (slotId : Uuid) : Prop :=
  ∃ slot ∈ db.slots, slot.id = slotId ∧ slot.startsAt ≤ now ∧ now < slot.endsAt
    ∧ (∀ b ∈ db.bookings, b.resourceSlotId = slotId → b.status = .cancelled)
    ∧ (db.directory.resource? slot.resourceId).any (·.status = .active)

/-- `bookings.length = 0` -/
theorem bookings_eq_nil_iff {slotId root : Uuid} (h : findById db slotId root = some record) :
    record.bookings = [] ↔
      ∀ b ∈ db.bookings, b.resourceSlotId = slotId → b.status = .cancelled := by
  rw [(findById_eq_some h).2.2.2.2, List.map_eq_nil_iff, List.filter_eq_nil_iff]
  simp only [Database.bookingsOf, List.mem_filter, decide_eq_true_eq, not_not, and_imp,
    Table.mem_rows]

theorem Behind.available_iff (h : Behind db now user view context record) :
    view.available = true ↔
      record.resource.status = .active ∧ now < record.slot.endsAt ∧ record.bookings = [] := by
  have hpublished := (findById_eq_some h.found).2.2.1
  rw [h.shown]
  simp [toView, hpublished, and_assoc]

/-- **What a booking asks of the record**, of a user who has access and points enough. -/
theorem Behind.validateBooking_iff (h : Behind db now user view context record)
    (hcost : CostCovered db user view.id) :
    (∃ c, validateBooking Faults.none db now view.id user = .ok c) ↔
      record.resource.status = .active ∧ now < record.slot.startsAt ∧ record.bookings = [] := by
  obtain ⟨hmem, hid, -, hresource, -⟩ := findById_eq_some h.found
  obtain ⟨hnonneg, hcovers⟩ := hcost context h.resolved record.slot hmem hid record.resource hresource
  have hbalance : PointLedgerService.assertSufficientBalance
      (.ok (db.ledger.getBalance context.userId context.rootOrganizationId))
      record.resource.pointCost =
        .ok (db.ledger.getBalance context.userId context.rootOrganizationId) := by
    rw [PointLedgerService.assertSufficientBalance, if_neg (not_lt.mpr hnonneg)]
    exact if_neg (not_lt.mpr hcovers)
  simp only [validateBooking, mapError_eq_ok, validate, h.resolved, query_none, h.found,
    bind_eq_ok, Except.ok.injEq, exists_eq_left']
  rw [h.access, hbalance]
  by_cases hactive : record.resource.status = .active
  · by_cases hstarted : record.slot.startsAt ≤ now
    · simp [hactive, hstarted, bind, Except.bind, throw, throwThe, MonadExceptOf.throw]
    · by_cases hfree : record.bookings = []
      · simp [hactive, hstarted, hfree, not_lt.mpr hnonneg, not_le.mp hstarted, bind, Except.bind,
          Except.mapError, pure, Except.pure]
      · simp [hactive, hstarted, hfree, bind, Except.bind, throw, throwThe, MonadExceptOf.throw]
  · simp [hactive, throw, throwThe, MonadExceptOf.throw]

/-- **Shown as available and bookable differ on a slot in progress that nobody has booked**, and on
no other: for a user to whom the service returns the slot, and who has points enough for it. -/
theorem available_iff_bookable_iff (h : Returns faults db now user view)
    (hcost : CostCovered db user view.id) :
    (view.available = true ↔ ∃ c, validateBooking Faults.none db now view.id user = .ok c)
      ↔ ¬ FreeInProgress db now view.id := by
  obtain ⟨context, record, hbehind⟩ := h.behind
  obtain ⟨hmem, hid, -, hresource, -⟩ := findById_eq_some hbehind.found
  have hchecks : record.slot.startsAt < record.slot.endsAt := (db.slots.valid.2 _ hmem).1
  have hcondition : FreeInProgress db now view.id ↔ record.slot.startsAt ≤ now
      ∧ now < record.slot.endsAt ∧ record.bookings = [] ∧ record.resource.status = .active := by
    rw [bookings_eq_nil_iff hbehind.found]
    constructor
    · rintro ⟨slot, hslot, hslotId, hstarted, hends, hfree, hactive⟩
      obtain rfl := db.slots.valid.1.eq hslot hmem (hslotId.trans hid.symm)
      exact ⟨hstarted, hends, hfree, by simpa [hresource] using hactive⟩
    · rintro ⟨hstarted, hends, hfree, hactive⟩
      exact ⟨record.slot, hmem, hid, hstarted, hends, hfree, by simpa [hresource] using hactive⟩
  rw [hbehind.available_iff, hbehind.validateBooking_iff hcost, hcondition]
  constructor
  · rintro hiff ⟨hstarted, hends, hfree, hactive⟩
    exact absurd (hiff.mp ⟨hactive, hends, hfree⟩).2.1 (not_lt.mpr hstarted)
  · intro hnot
    constructor
    · rintro ⟨hactive, hends, hfree⟩
      refine ⟨hactive, ?_, hfree⟩
      by_contra hstarted
      exact hnot ⟨not_lt.mp hstarted, hends, hfree, hactive⟩
    · rintro ⟨hactive, hstart, hfree⟩
      exact ⟨hactive, hstart.trans hchecks, hfree⟩

end Available

/-! ## A slot, before it begins and while it is in progress -/

/-- A member of the university of `sample`. -/
def sampleMember : AuthenticatedUser := ⟨1, some 100⟩

theorem costCovered_sample : CostCovered (sample 0).db sampleMember 20 := by
  intro context hcontext slot hslot _ resource hresource
  obtain rfl := List.mem_singleton.mp hslot
  obtain rfl := Except.ok.inj hcontext
  obtain rfl := Option.some.inj hresource
  decide

/-- **The slot in progress is shown as available, and cannot be booked.** -/
theorem available_not_bookable : ∃ view,
    findOne Faults.none (sample 0).db 1500 20 sampleMember = .ok view
      ∧ CostCovered (sample 0).db sampleMember view.id ∧ view.available = true
      ∧ validateBooking Faults.none (sample 0).db 1500 view.id sampleMember
          = .error .slotStarted :=
  ⟨⟨20, 10, 1000, 2000, .published, true⟩, rfl, costCovered_sample, rfl, rfl⟩

/-- Before it begins it is shown as available, and can be booked. -/
theorem available_and_bookable : ∃ view,
    findOne Faults.none (sample 0).db 500 20 sampleMember = .ok view
      ∧ (view.available = true ↔
        ∃ c, validateBooking Faults.none (sample 0).db 500 view.id sampleMember = .ok c) := by
  let view : SlotView := ⟨20, 10, 1000, 2000, .published, true⟩
  have hview : findOne Faults.none (sample 0).db 500 20 sampleMember = .ok view := rfl
  refine ⟨view, hview, (available_iff_bookable_iff (.inl ⟨20, hview⟩) costCovered_sample).mpr ?_⟩
  rintro ⟨slot, hslot, -, hstarted, -⟩
  obtain rfl := List.mem_singleton.mp hslot
  exact absurd hstarted (by decide)

end ResourceHive.Bookings
