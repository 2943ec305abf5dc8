import ResourceHive.Bookings.Service
import ResourceHive.Machinery.Grouping
import ResourceHive.Organizations.Hierarchy

/-!
# Bookings/Reports — `AnalyticsService`

The reports are queries that join bookings to their slots and resources and count them in groups: by
resource, by organization, by hour of the week, by university.  An administrator's and a user's are
run below the row-level security of their university (`Tables.seenBy`), the platform's over all rows.

**Every booking is counted, once.**  The reports of an administrator add up to one number, that of the
active bookings of their organizations' resources (`organization_reports_agree`); and what the users
of a university see of it adds up to the platform's figure for it, whose figures for all universities
add up to all active bookings there are (`overview_accounts`).
-/

namespace ResourceHive.Bookings.Reports

open Organizations (Hierarchy)
open Grouping (groupBy group keys)

/-! ## The tables -/

/-- A row of `organization_memberships`. -/
structure Membership where
  userId : Uuid
  organizationId : Uuid
  role : MembershipRole
  status : MembershipStatus
  joinedAt : Timestamp
  deriving DecidableEq, Repr

/-- **What the reports read**, with the keys and the references the joins go along. -/
structure Tables where
  organizations : Hierarchy
  /-- `organizations.name`. -/
  organizationName : Uuid → String
  memberships : List Membership
  resources : List Resource
  slots : Table ResourceSlot ResourceSlot.Constraints
  bookings : Table Booking Booking.Constraints
  organizations_grounded : Ancestry.Grounded (Organizations.parentOf organizations.rows)
  memberships_unique : (memberships.map fun m => (m.userId, m.organizationId)).Nodup
  memberships_organization : ∀ m ∈ memberships, m.organizationId ∈ organizations.rows.map (·.id)
  resources_pk : (resources.map (·.id)).Nodup
  resources_owner : ∀ r ∈ resources, (r.ownerOrganizationId, r.rootOrganizationId)
    ∈ organizations.rows.map fun o => (o.id, o.rootOrganizationId)
  slots_resource : ∀ s ∈ slots.rows, (s.resourceId, s.rootOrganizationId)
    ∈ resources.map fun r => (r.id, r.rootOrganizationId)
  bookings_slot : ∀ b ∈ bookings.rows, (b.resourceSlotId, b.rootOrganizationId)
    ∈ slots.rows.map fun s => (s.id, s.rootOrganizationId)

namespace Tables

variable (T : Tables)

/-- Whether an organization is of a university. -/
def isOf (root organizationId : Uuid) : Bool :=
  (T.organizations.ofRoot root).rows.any (·.id = organizationId)

/-- **What the row-level security shows of them to a university's requests.** -/
def seenBy (root : Uuid) : Tables where
  organizations := T.organizations.ofRoot root
  organizationName := T.organizationName
  memberships := T.memberships.filter fun m => T.isOf root m.organizationId
  resources := T.resources.filter (·.rootOrganizationId = root)
  slots := ⟨T.slots.rows.filter (·.rootOrganizationId = root),
    T.slots.valid.1.sublist (List.filter_sublist.map _),
    fun s hs => T.slots.valid.2 s (List.mem_of_mem_filter hs)⟩
  bookings := ⟨T.bookings.rows.filter (·.rootOrganizationId = root),
    T.bookings.valid.1.sublist (List.filter_sublist.map _),
    fun b hb => T.bookings.valid.2.1 b (List.mem_of_mem_filter hb),
    T.bookings.valid.2.2.sublist ((List.filter_sublist.filter _).map _)⟩
  organizations_grounded := Hierarchy.grounded_ofRoot T.organizations_grounded root
  memberships_unique := T.memberships_unique.sublist (List.filter_sublist.map _)
  memberships_organization := by
    intro m hm
    obtain ⟨o, ho, hid⟩ := List.any_eq_true.mp (List.mem_filter.mp hm).2
    exact List.mem_map.mpr ⟨o, ho, of_decide_eq_true hid⟩
  resources_pk := T.resources_pk.sublist (List.filter_sublist.map _)
  resources_owner := by
    intro r hr
    obtain ⟨hr, hroot⟩ := List.mem_filter.mp hr
    obtain ⟨o, ho, heq⟩ := List.mem_map.mp (T.resources_owner r hr)
    have hoRoot : o.rootOrganizationId = root :=
      (congrArg Prod.snd heq).trans (of_decide_eq_true hroot)
    exact List.mem_map.mpr ⟨o, Hierarchy.mem_ofRoot.mpr ⟨ho, hoRoot⟩, heq⟩
  slots_resource := by
    intro s hs
    obtain ⟨hs, hroot⟩ := List.mem_filter.mp hs
    obtain ⟨r, hr, heq⟩ := List.mem_map.mp (T.slots_resource s hs)
    have hrRoot : r.rootOrganizationId = root :=
      (congrArg Prod.snd heq).trans (of_decide_eq_true hroot)
    exact List.mem_map.mpr ⟨r, List.mem_filter.mpr ⟨hr, decide_eq_true hrRoot⟩, heq⟩
  bookings_slot := by
    intro b hb
    obtain ⟨hb, hroot⟩ := List.mem_filter.mp hb
    obtain ⟨s, hs, heq⟩ := List.mem_map.mp (T.bookings_slot b hb)
    have hsRoot : s.rootOrganizationId = root :=
      (congrArg Prod.snd heq).trans (of_decide_eq_true hroot)
    exact List.mem_map.mpr ⟨s, List.mem_filter.mpr ⟨hs, decide_eq_true hsRoot⟩, heq⟩

end Tables

/-! ## The requests -/

inductive AnalyticsError
  | administratorRequired
  | platformAdministratorRequired
  | platformReportNotConfigured
  deriving DecidableEq, Repr

namespace AnalyticsError

def status : AnalyticsError → ℕ
  | administratorRequired | platformAdministratorRequired => 403
  | platformReportNotConfigured => 503

def message : AnalyticsError → String
  | administratorRequired => "Administrator access is required"
  | platformAdministratorRequired => "Platform administrator access is required"
  | platformReportNotConfigured => "Platform reporting database role is not configured"

end AnalyticsError

structure DateRange where
  fromDate : Timestamp
  toDate : Timestamp
  deriving DecidableEq, Repr

def defaultRangeDays : ℤ := 90

/-- `resolveRange`, of the dates that the request has. -/
def resolveRange (now : Timestamp) (fromDate toDate : Option Timestamp) : DateRange where
  fromDate := fromDate.getD (toDate.getD now - defaultRangeDays * 24 * 60 * 60 * 1000)
  toDate := toDate.getD now

/-- `b.status IN ('CONFIRMED', 'COMPLETED') AND b.created_at BETWEEN … AND …`. -/
def DateRange.counts (range : DateRange) (b : Booking) : Bool :=
  b.active && decide (range.fromDate ≤ b.createdAt ∧ b.createdAt ≤ range.toDate)

/-- `administeredOrganizationIds`. -/
def administeredOrganizationIds (T : Tables) (userId : Uuid) : Except AnalyticsError (List Uuid) :=
  match T.memberships.filter fun m =>
    decide (m.userId = userId ∧ m.role = .admin ∧ m.status = .approved) with
  | [] => .error .administratorRequired
  | memberships => .ok (memberships.map (·.organizationId))

/-! ## The queries -/

structure ResourceDemand where
  resourceId : Uuid
  name : String
  bookingCount : ℕ
  deriving DecidableEq, Repr

structure OrganizationUsage where
  organizationId : Uuid
  organizationName : String
  bookingCount : ℕ
  deriving DecidableEq, Repr

structure PeakSlot where
  dayOfWeek : ℤ
  hour : ℤ
  bookingCount : ℕ
  deriving DecidableEq, Repr

structure PersonalResourceUsage extends ResourceDemand where
  totalHours : ℚ
  deriving DecidableEq

structure PlatformCompanyOverview where
  organizationId : Uuid
  organizationName : String
  newSignups : ℕ
  totalItemsListed : ℕ
  totalBorrows : ℕ
  deriving DecidableEq, Repr

/-- `ORDER BY "bookingCount" DESC`. -/
def orderByCount {α : Type} (bookingCount : α → ℕ) (rows : List α) : List α :=
  rows.insertionSort fun a b => bookingCount b ≤ bookingCount a

namespace Tables

variable (T : Tables) (range : DateRange)

/-- A booking with its slot and its resource. -/
abbrev Booked := (Booking × ResourceSlot) × Resource

/-- `FROM bookings b JOIN resource_slots rs ON rs.id = b.resource_slot_id JOIN resources r ON
r.id = rs.resource_id`. -/
def booked : List Booked :=
  Grouping.join (fun x r => decide (r.id = x.2.resourceId))
    (Grouping.join (fun b s => decide (s.id = b.resourceSlotId)) T.bookings.rows T.slots.rows)
    T.resources

/-- **`inventoryDemand`**: the resources of the organizations, with the bookings there are of each. -/
def inventoryDemand (orgIds : List Uuid) : List ResourceDemand :=
  orderByCount (·.bookingCount)
    (groupBy (fun row => (row.1.1.id, row.1.1.name))
      (fun resource rows => ⟨resource.1, resource.2, rows.countP (·.2.isSome)⟩)
      ((Grouping.leftJoin
          (fun x b => x.2.any (fun s => decide (b.resourceSlotId = s.id)) && range.counts b)
          (Grouping.leftJoin (fun r s => decide (s.resourceId = r.id)) T.resources T.slots.rows)
          T.bookings.rows).filter fun row => decide (row.1.1.ownerOrganizationId ∈ orgIds)))

/-- `… JOIN organization_memberships om ON om.user_id = b.user_id JOIN organizations o ON
o.id = om.organization_id`. -/
def segments : List ((Booked × Membership) × Organizations.Organization) :=
  Grouping.join (fun x o => decide (o.id = x.2.organizationId))
    (Grouping.join (fun x m => decide (m.userId = x.1.1.userId)) T.booked T.memberships)
    T.organizations.rows

/-- **`userSegmentation`**: the organizations, with the bookings by users who have a membership in
them, of whatever status. -/
def userSegmentation (orgIds : List Uuid) : List OrganizationUsage :=
  orderByCount (·.bookingCount)
    (groupBy (fun row => (row.1.2.organizationId, T.organizationName row.2.id))
      (fun organization rows =>
        ⟨organization.1, organization.2, (rows.map (·.1.1.1.1.id)).dedup.length⟩)
      (T.segments.filter fun row =>
        decide (row.1.1.2.ownerOrganizationId ∈ orgIds) && range.counts row.1.1.1.1))

/-- The day of the week, from Sunday, and the hour, in the time zone of the database session:
`EXTRACT(DOW FROM …)` and `EXTRACT(HOUR FROM …)`. -/
def dayAndHour (wallClock : Timestamp → Timestamp) (t : Timestamp) : ℤ × ℤ :=
  ((wallClock t / (24 * 60 * 60 * 1000) + 4) % 7, wallClock t / (60 * 60 * 1000) % 24)

/-- The query of `peakTimesForOrg` and `peakTimesForTenant`, of the resources that `p` selects. -/
def peakTimes (wallClock : Timestamp → Timestamp) (p : Resource → Bool) : List PeakSlot :=
  orderByCount (·.bookingCount)
    (groupBy (fun row => dayAndHour wallClock row.1.2.startsAt)
      (fun slot rows => ⟨slot.1, slot.2, rows.length⟩)
      (T.booked.filter fun row => p row.2 && range.counts row.1.1))

def peakTimesForOrg (wallClock : Timestamp → Timestamp) (orgIds : List Uuid) : List PeakSlot :=
  T.peakTimes range wallClock fun r => decide (r.ownerOrganizationId ∈ orgIds)

def peakTimesForTenant (wallClock : Timestamp → Timestamp) (context : BookingAuthorizationContext) :
    List PeakSlot :=
  T.peakTimes range wallClock fun r => decide (r.rootOrganizationId = context.rootOrganizationId)

/-- **`myUsage`**: what a user has booked, and for how long. -/
def myUsage (userId : Uuid) : List PersonalResourceUsage :=
  orderByCount (·.bookingCount)
    (groupBy (fun row => (row.2.id, row.2.name))
      (fun resource rows =>
        { resourceId := resource.1, name := resource.2, bookingCount := rows.length
          totalHours := (rows.map fun row =>
            ((row.1.2.endsAt - row.1.2.startsAt : ℤ) : ℚ) / 3600000).sum })
      (T.booked.filter fun row => decide (row.1.1.userId = userId) && range.counts row.1.1))

/-! ## The platform's query -/

/-- `SELECT id, name FROM organizations WHERE parent_id IS NULL`. -/
def companies : List (Uuid × String) :=
  (T.organizations.rows.filter (·.parentId = none)).map fun o => (o.id, T.organizationName o.id)

/-- The users who have joined an organization of each university. -/
def signups : List (Uuid × ℕ) :=
  groupBy (fun row => row.2.rootOrganizationId)
    (fun root rows => (root, (rows.map (·.1.userId)).dedup.length))
    ((Grouping.join (fun m o => decide (o.id = m.organizationId)) T.memberships
      T.organizations.rows).filter fun row =>
        decide (range.fromDate ≤ row.1.joinedAt ∧ row.1.joinedAt ≤ range.toDate))

def items : List (Uuid × ℕ) :=
  groupBy (·.rootOrganizationId) (fun root rows => (root, rows.length)) T.resources

def borrows : List (Uuid × ℕ) :=
  groupBy (fun row => row.2.rootOrganizationId) (fun root rows => (root, rows.length))
    (T.booked.filter fun row => range.counts row.1.1)

/-- The query of `platformOverview`; `collation` is the database's order of names. -/
def overview (collation : String → String → Bool) : List PlatformCompanyOverview :=
  ((Grouping.leftJoin (fun x b => decide (b.1 = x.1.1.1))
    (Grouping.leftJoin (fun x i => decide (i.1 = x.1.1))
      (Grouping.leftJoin (fun c s => decide (s.1 = c.1)) T.companies (T.signups range))
      T.items)
    (T.borrows range)).map fun row =>
      { organizationId := row.1.1.1.1
        organizationName := row.1.1.1.2
        newSignups := (row.1.1.2.map (·.2)).getD 0
        totalItemsListed := (row.1.2.map (·.2)).getD 0
        totalBorrows := (row.2.map (·.2)).getD 0 : PlatformCompanyOverview }).insertionSort
    fun a b => collation a.organizationName b.organizationName

/-- **`platformOverview`**, for a user of a platform role, on a server that may lack the role for
reports. -/
def platformOverview (collation : String → String → Bool) (isPlatformAdmin configured : Bool) :
    Except AnalyticsError (List PlatformCompanyOverview) :=
  if !isPlatformAdmin then .error .platformAdministratorRequired
  else if !configured then .error .platformReportNotConfigured
  else .ok (T.overview range collation)

/-! ## A booking with its resource -/

section Booked

variable {T} {range} {b : Booking} {slot : ResourceSlot} {r : Resource}

theorem mem_booked : ((b, slot), r) ∈ T.booked ↔ b ∈ T.bookings.rows ∧ slot ∈ T.slots.rows
    ∧ r ∈ T.resources ∧ slot.id = b.resourceSlotId ∧ r.id = slot.resourceId := by
  rw [booked, Grouping.mem_join, Grouping.mem_join, decide_eq_true_eq, decide_eq_true_eq]
  constructor
  · rintro ⟨⟨hb, hs, hid⟩, hr, hresource⟩
    exact ⟨hb, hs, hr, hid, hresource⟩
  · rintro ⟨hb, hs, hr, hid, hresource⟩
    exact ⟨⟨hb, hs, hid⟩, hr, hresource⟩

/-- **The joins keep every booking, once.** -/
theorem map_booked (T : Tables) : (T.booked.map fun row => row.1.1) = T.bookings.rows := by
  have hslots : ∀ b ∈ T.bookings.rows, b.resourceSlotId ∈ T.slots.rows.map (·.id) := by
    intro b hb
    obtain ⟨s, hs, heq⟩ := List.mem_map.mp (T.bookings_slot b hb)
    exact List.mem_map.mpr ⟨s, hs, congrArg Prod.fst heq⟩
  have hresources : ∀ x ∈ Grouping.join (fun (b : Booking) (s : ResourceSlot) =>
      decide (s.id = b.resourceSlotId)) T.bookings.rows T.slots.rows,
      x.2.resourceId ∈ T.resources.map (·.id) := by
    rintro ⟨b, s⟩ hx
    obtain ⟨r, hr, heq⟩ := List.mem_map.mp (T.slots_resource s (Grouping.mem_join.mp hx).2.1)
    exact List.mem_map.mpr ⟨r, hr, congrArg Prod.fst heq⟩
  have hcomp : (fun row : Booked => row.1.1) = Prod.fst ∘ Prod.fst := rfl
  rw [hcomp, ← List.map_map, booked, Grouping.map_fst_join T.resources_pk hresources,
    Grouping.map_fst_join T.slots.valid.1 hslots]

/-- A booking's resource is of the university the booking is of. -/
theorem root_of_booked (h : ((b, slot), r) ∈ T.booked) :
    r.rootOrganizationId = b.rootOrganizationId := by
  obtain ⟨hb, hs, hr, hid, hresource⟩ := mem_booked.mp h
  have hslots : Table.Unique ResourceSlot.id T.slots.rows := T.slots.valid.1
  have hresources : Table.Unique Resource.id T.resources := T.resources_pk
  obtain ⟨s', hs', heq⟩ := List.mem_map.mp (T.bookings_slot b hb)
  obtain rfl := hslots.eq hs' hs ((congrArg Prod.fst heq).trans hid.symm)
  obtain ⟨r', hr', heq'⟩ := List.mem_map.mp (T.slots_resource s' hs)
  obtain rfl := hresources.eq hr' hr ((congrArg Prod.fst heq').trans hresource.symm)
  exact (congrArg Prod.snd heq').trans (congrArg Prod.snd heq)

/-- Whether a booking is of a resource that `p` selects. -/
def ofResource (T : Tables) (p : Resource → Bool) (b : Booking) : Bool :=
  T.slots.rows.any fun s => decide (s.id = b.resourceSlotId)
    && T.resources.any fun r => decide (r.id = s.resourceId) && p r

theorem ofResource_eq {p : Resource → Bool} (h : ((b, slot), r) ∈ T.booked) :
    T.ofResource p b = p r := by
  obtain ⟨-, hs, hr, hid, hresource⟩ := mem_booked.mp h
  have hslots : Table.Unique ResourceSlot.id T.slots.rows := T.slots.valid.1
  have hresources : Table.Unique Resource.id T.resources := T.resources_pk
  rw [Bool.eq_iff_iff]
  simp only [ofResource, List.any_eq_true, Bool.and_eq_true, decide_eq_true_eq]
  constructor
  · rintro ⟨s', hs', hid', r', hr', hresource', hp⟩
    obtain rfl := hslots.eq hs' hs (hid'.trans hid.symm)
    obtain rfl := hresources.eq hr' hr (hresource'.trans hresource.symm)
    exact hp
  · exact fun hp => ⟨slot, hs, hid, r, hr, hresource, hp⟩

/-- The joined rows that a condition selects are those of as many bookings. -/
theorem map_filter_booked {c : Booked → Bool} {q : Booking → Bool}
    (h : ∀ row ∈ T.booked, c row = q row.1.1) :
    ((T.booked.filter c).map fun row => row.1.1) = T.bookings.rows.filter q := by
  rw [← T.map_booked, List.filter_map]
  exact congrArg (List.map _) (List.filter_congr h)

theorem length_booked {c : Booked → Bool} {q : Booking → Bool}
    (h : ∀ row ∈ T.booked, c row = q row.1.1) :
    (T.booked.filter c).length = (T.bookings.rows.filter q).length := by
  rw [← map_filter_booked h, List.length_map]

end Booked

/-! ## What the reports add up to -/

section Totals

variable {T} {range} {wallClock : Timestamp → Timestamp} {orgIds : List Uuid}

theorem sum_orderByCount {α M : Type} [AddCommMonoid M] {bookingCount : α → ℕ} {rows : List α}
    {f : α → M} : ((orderByCount bookingCount rows).map f).sum = (rows.map f).sum :=
  ((List.perm_insertionSort _ rows).map f).sum_eq

theorem sum_peakTimes (p : Resource → Bool) :
    ((T.peakTimes range wallClock p).map (·.bookingCount)).sum
      = (T.bookings.rows.filter fun b => T.ofResource p b && range.counts b).length := by
  rw [peakTimes, sum_orderByCount, Grouping.sum_length_groupBy]
  · exact length_booked fun row hrow => by rw [ofResource_eq hrow]
  · exact fun _ _ => rfl

/-- The bookings of the organizations' resources that the reports count. -/
def ofOrganizations (T : Tables) (range : DateRange) (orgIds : List Uuid) : List Booking :=
  T.bookings.rows.filter fun b =>
    T.ofResource (fun r => decide (r.ownerOrganizationId ∈ orgIds)) b && range.counts b

/-- One, for a booking that is counted with its slot and its resource. -/
def counted (range : DateRange) (orgIds : List Uuid) (b : Booking) (s : ResourceSlot)
    (r : Resource) : ℕ :=
  if s.id = b.resourceSlotId ∧ r.id = s.resourceId ∧ r.ownerOrganizationId ∈ orgIds ∧ range.counts b
  then 1 else 0

theorem length_ofOrganizations : (T.ofOrganizations range orgIds).length
    = (T.bookings.rows.map fun b => (T.slots.rows.map fun s =>
        (T.resources.map fun r => counted range orgIds b s r).sum).sum).sum := by
  have hrows := length_booked (T := T)
    (c := fun row => decide (row.2.ownerOrganizationId ∈ orgIds) && range.counts row.1.1)
    (q := fun b => T.ofResource (fun r => decide (r.ownerOrganizationId ∈ orgIds)) b && range.counts b)
    fun row hrow => by rw [ofResource_eq hrow]
  rw [ofOrganizations, ← hrows, Grouping.length_filter, booked, Grouping.sum_join,
    Grouping.sum_join]
  refine congrArg List.sum (List.map_congr_left fun b _ => congrArg List.sum
    (List.map_congr_left fun s _ => ?_))
  by_cases hs : s.id = b.resourceSlotId
  · refine (if_pos (decide_eq_true hs)).trans
      (congrArg List.sum (List.map_congr_left fun r _ => ?_))
    by_cases hr : r.id = s.resourceId <;> simp [counted, hs, hr]
  · rw [if_neg (by simpa using hs)]
    simp [counted, hs]

/-- **From the resources or from the bookings**: the left joins count as many bookings. -/
theorem sum_inventoryDemand :
    ((T.inventoryDemand range orgIds).map (·.bookingCount)).sum
      = (T.ofOrganizations range orgIds).length := by
  rw [inventoryDemand, sum_orderByCount]
  refine (Grouping.sum_groupBy (w := fun row => if row.2.isSome then 1 else 0) fun k => ?_).trans ?_
  · rw [← Grouping.length_filter, ← List.countP_eq_length_filter]
  · rw [Grouping.sum_filter, Grouping.sum_leftJoin fun x => by simp, Grouping.sum_join,
      Grouping.sum_leftJoin fun r => by simp, Grouping.sum_join, length_ofOrganizations,
      Grouping.sum_comm T.bookings.rows, Grouping.sum_comm T.resources]
    refine congrArg List.sum (List.map_congr_left fun s _ => ?_)
    rw [Grouping.sum_comm]
    refine congrArg List.sum (List.map_congr_left fun r _ => ?_)
    by_cases hr : s.resourceId = r.id
    · refine (if_pos (decide_eq_true hr)).trans
        (congrArg List.sum (List.map_congr_left fun b _ => ?_))
      by_cases hs : s.id = b.resourceSlotId
      · by_cases hc : range.counts b <;> simp [counted, hs, hr, hc]
      · simp [counted, hs, Ne.symm hs]
    · rw [if_neg (by simpa using hr)]
      simp [counted, Ne.symm hr]

/-- The bookings by a user that the reports count. -/
theorem sum_myUsage (userId : Uuid) : ((T.myUsage range userId).map (·.bookingCount)).sum
    = ((T.bookings.rows.filter range.counts).filter (·.userId = userId)).length := by
  rw [myUsage, sum_orderByCount, Grouping.sum_length_groupBy, List.filter_filter]
  · exact length_booked fun row _ => rfl
  · exact fun _ _ => rfl

/-- Each membership is of one organization. -/
theorem map_segments (T : Tables) : T.segments.map Prod.fst
    = Grouping.join (fun x m => decide (m.userId = x.1.1.userId)) T.booked T.memberships := by
  refine Grouping.map_fst_join T.organizations.valid.1 ?_
  rintro ⟨row, m⟩ hx
  exact T.memberships_organization m (Grouping.mem_join.mp hx).2.1

/-- A booking is counted once under an organization. -/
theorem nodup_segments (T : Tables) :
    (T.segments.map fun row => (row.1.1.1.1.id, row.1.2.organizationId)).Nodup := by
  have hbookings : (T.booked.map fun row => row.1.1.id).Nodup := by
    have hids : (T.booked.map fun row => row.1.1.id) = T.bookings.rows.map (·.id) := by
      rw [← T.map_booked, List.map_map]
      rfl
    rw [hids]
    exact T.bookings.valid.1
  have huser : ∀ u, ((T.memberships.filter fun m => decide (m.userId = u)).map
      (·.organizationId)).Nodup := by
    intro u
    have hpairs := T.memberships_unique.sublist
      ((List.filter_sublist (p := fun m => decide (m.userId = u))).map _)
    refine List.Nodup.of_map (u, ·) ?_
    rw [List.map_map]
    refine (List.map_congr_left fun m hm => ?_) ▸ hpairs
    exact Prod.ext (of_decide_eq_true (List.mem_filter.mp hm).2) rfl
  have hcomp : (fun row : (Booked × Membership) × Organizations.Organization =>
      (row.1.1.1.1.id, row.1.2.organizationId))
      = (fun x : Booked × Membership => (x.1.1.1.id, x.2.organizationId)) ∘ Prod.fst := rfl
  rw [hcomp, ← List.map_map, map_segments]
  exact Grouping.nodup_join hbookings fun row _ => huser row.1.1.userId

theorem length_segments (c : Booked → Bool) : (T.segments.filter fun row => c row.1.1).length
    = ((T.booked.filter c).map fun row =>
        (T.memberships.filter fun m => decide (m.userId = row.1.1.userId)).length).sum := by
  have hfilter : ((T.segments.filter fun row => c row.1.1).map Prod.fst)
      = (Grouping.join (fun (x : Booked) (m : Membership) => decide (m.userId = x.1.1.userId))
          T.booked T.memberships).filter fun x => c x.1 := by
    rw [← map_segments, List.filter_map]
    rfl
  rw [← List.length_map Prod.fst, hfilter, Grouping.filter_join, Grouping.length_join]

/-- **A booking counts under each organization its user has a membership in.** -/
theorem sum_userSegmentation : ((T.userSegmentation range orgIds).map (·.bookingCount)).sum
    = ((T.ofOrganizations range orgIds).map fun b =>
        (T.memberships.filter fun m => decide (m.userId = b.userId)).length).sum := by
  have hbookings := map_filter_booked (T := T)
    (c := fun row => decide (row.2.ownerOrganizationId ∈ orgIds) && range.counts row.1.1)
    (q := fun b =>
      T.ofResource (fun r => decide (r.ownerOrganizationId ∈ orgIds)) b && range.counts b)
    fun row hrow => by rw [ofResource_eq hrow]
  rw [userSegmentation, sum_orderByCount, Grouping.sum_groupBy (w := fun _ => 1)]
  · rw [ofOrganizations, ← hbookings, List.map_map]
    refine Eq.trans ?_ (length_segments fun row =>
      decide (row.2.ownerOrganizationId ∈ orgIds) && range.counts row.1.1)
    simp
  · intro k
    -- Within an organization no booking is met twice, so `DISTINCT` removes nothing.
    have hnodup : ((group (fun row => (row.1.2.organizationId, T.organizationName row.2.id))
        (T.segments.filter fun row =>
          decide (row.1.1.2.ownerOrganizationId ∈ orgIds) && range.counts row.1.1.1.1) k).map
        (·.1.1.1.1.id)).Nodup := by
      refine List.Nodup.of_map (·, k.1) ?_
      rw [List.map_map]
      refine (List.map_congr_left fun row hrow => ?_) ▸ (T.nodup_segments.sublist
        ((List.filter_sublist.trans List.filter_sublist).map _))
      exact Prod.ext rfl (congrArg Prod.fst (Grouping.mem_group.mp hrow).2)
    simp [hnodup.dedup]

/-- **The reports of an administrator agree**: by resource, by hour of the week and by organization
they count the same bookings, each of them once; by organization, once for each that its user has a
membership in. -/
theorem organization_reports_agree (T : Tables) (range : DateRange)
    (wallClock : Timestamp → Timestamp) (orgIds : List Uuid) :
    ((T.inventoryDemand range orgIds).map (·.bookingCount)).sum
        = (T.ofOrganizations range orgIds).length
      ∧ ((T.peakTimesForOrg range wallClock orgIds).map (·.bookingCount)).sum
        = (T.ofOrganizations range orgIds).length
      ∧ ((T.userSegmentation range orgIds).map (·.bookingCount)).sum
        = ((T.ofOrganizations range orgIds).map fun b =>
            (T.memberships.filter fun m => decide (m.userId = b.userId)).length).sum :=
  ⟨sum_inventoryDemand, sum_peakTimes _, sum_userSegmentation⟩

end Totals

/-! ## The universities -/

section Universities

variable {T} {range} {collation : String → String → Bool} {root : Uuid}

/-- The university of a resource is one of the companies. -/
theorem root_mem_companies {r : Resource} (h : r ∈ T.resources) :
    r.rootOrganizationId ∈ T.companies.map Prod.fst := by
  obtain ⟨o, ho, heq⟩ := List.mem_map.mp (T.resources_owner r h)
  obtain ⟨chain, hchain⟩ := T.organizations_grounded o.id
  obtain ⟨hall, hlast⟩ := Hierarchy.root_of_chain hchain ho rfl
  obtain ⟨q, hq, hid, hroot⟩ := hall _ (List.mem_of_getLast? hlast)
  have htop : q.parentId = none := by
    rcases T.organizations.valid.2.1 q hq with ⟨hnone, -⟩ | ⟨-, hne⟩
    · exact hnone
    · exact absurd (hroot.trans hid.symm) hne
  have hmem : q ∈ T.organizations.rows.filter (·.parentId = none) :=
    List.mem_filter.mpr ⟨hq, decide_eq_true htop⟩
  refine List.mem_map.mpr ⟨_, List.mem_map_of_mem hmem, ?_⟩
  exact hid.trans (congrArg Prod.snd heq)

theorem nodup_companies (T : Tables) : (T.companies.map Prod.fst).Nodup := by
  rw [companies, List.map_map]
  exact T.organizations.valid.1.sublist (List.filter_sublist.map _)

/-- The platform's row for a university. -/
def companyOverview (T : Tables) (range : DateRange) (company : Uuid × String) :
    PlatformCompanyOverview where
  organizationId := company.1
  organizationName := company.2
  newSignups := ((group (fun row => row.2.rootOrganizationId)
    ((Grouping.join (fun m o => decide (o.id = m.organizationId)) T.memberships
      T.organizations.rows).filter fun row =>
        decide (range.fromDate ≤ row.1.joinedAt ∧ row.1.joinedAt ≤ range.toDate))
    company.1).map (·.1.userId)).dedup.length
  totalItemsListed := (group (·.rootOrganizationId) T.resources company.1).length
  totalBorrows := (group (fun row => row.2.rootOrganizationId)
    (T.booked.filter fun row => range.counts row.1.1) company.1).length

/-- **Each university has one row**, with nought where it has nothing to count. -/
theorem overview_perm :
    (T.overview range collation).Perm (T.companies.map (T.companyOverview range)) := by
  have hsignups : ((T.signups range).map Prod.fst).Nodup := by
    rw [signups, Grouping.map_groupBy fun _ _ => rfl]
    exact Grouping.nodup_keys _ _
  have hitems : (T.items.map Prod.fst).Nodup := by
    rw [items, Grouping.map_groupBy fun _ _ => rfl]
    exact Grouping.nodup_keys _ _
  have hborrows : ((T.borrows range).map Prod.fst).Nodup := by
    rw [borrows, Grouping.map_groupBy fun _ _ => rfl]
    exact Grouping.nodup_keys _ _
  refine (List.perm_insertionSort _ _).trans (List.Perm.of_eq ?_)
  rw [Grouping.leftJoin_eq_map hborrows, Grouping.leftJoin_eq_map hitems,
    Grouping.leftJoin_eq_map hsignups, List.map_map, List.map_map, List.map_map]
  refine List.map_congr_left fun company _ => ?_
  simp only [companyOverview, Function.comp_apply, PlatformCompanyOverview.mk.injEq, true_and]
  refine ⟨?_, ?_, ?_⟩
  · exact Grouping.getD_find?_groupBy (κ := Uuid)
      (n := fun rows : List (Membership × Organizations.Organization) =>
        (rows.map (·.1.userId)).dedup.length)
  · exact Grouping.getD_find?_groupBy (n := List.length)
  · exact Grouping.getD_find?_groupBy (n := List.length)

theorem mem_overview {row : PlatformCompanyOverview} (h : row ∈ T.overview range collation) :
    ∃ company ∈ T.companies, row = T.companyOverview range company := by
  obtain ⟨company, hcompany, rfl⟩ := List.mem_map.mp (overview_perm.mem_iff.mp h)
  exact ⟨company, hcompany, rfl⟩

/-- The active bookings of a university, in range. -/
def ofUniversity (T : Tables) (range : DateRange) (root : Uuid) : List Booking :=
  (T.seenBy root).bookings.rows.filter range.counts

/-- Seen by everyone or by the university, its bookings are as many. -/
theorem totalBorrows_eq (company : Uuid × String) :
    (T.companyOverview range company).totalBorrows = (T.ofUniversity range company.1).length := by
  have hlength := length_booked (T := T)
    (c := fun row => decide (row.2.rootOrganizationId = company.1) && range.counts row.1.1)
    (q := fun b => decide (b.rootOrganizationId = company.1) && range.counts b)
    fun row hrow => by rw [root_of_booked hrow]
  change (group (fun row => row.2.rootOrganizationId)
    (T.booked.filter fun row => range.counts row.1.1) company.1).length = _
  rw [group, List.filter_filter, hlength, ofUniversity, seenBy, List.filter_filter]
  simp only [Bool.and_comm]

/-- What a user of a university sees of its peak times is all of its bookings. -/
theorem sum_peakTimesForTenant {wallClock : Timestamp → Timestamp}
    {context : BookingAuthorizationContext} (h : context.rootOrganizationId = root) :
    (((T.seenBy root).peakTimesForTenant range wallClock context).map (·.bookingCount)).sum
      = (T.ofUniversity range root).length := by
  rw [peakTimesForTenant, peakTimes, sum_orderByCount, Grouping.sum_length_groupBy, ofUniversity]
  · refine length_booked fun row hrow => ?_
    have hroot : row.2.rootOrganizationId = root :=
      of_decide_eq_true (List.mem_filter.mp (mem_booked.mp hrow).2.2.1).2
    rw [hroot, h, decide_eq_true rfl, Bool.true_and]
  · exact fun _ _ => rfl

/-- The users' own reports share a university's bookings out. -/
theorem sum_users : ((((T.seenBy root).bookings.rows.map (·.userId)).dedup.map fun u =>
    (((T.seenBy root).myUsage range u).map (·.bookingCount)).sum)).sum
      = (T.ofUniversity range root).length := by
  have hmem : ∀ b ∈ T.ofUniversity range root,
      b.userId ∈ ((T.seenBy root).bookings.rows.map (·.userId)).dedup := by
    intro b hb
    exact List.mem_dedup.mpr (List.mem_map_of_mem (List.mem_of_mem_filter hb))
  have hsum := Grouping.sum_group (List.nodup_dedup _) (fun _ => 1) hmem
  simp only [Grouping.sum_ones] at hsum
  rw [← hsum]
  refine congrArg List.sum (List.map_congr_left fun u _ => ?_)
  rw [sum_myUsage]
  rfl

/-- **The platform's overview accounts for every booking and every resource.**  It has one row for
each university; a row's bookings are as many as the university's own users see, by hour of the week
or each of them their own; and the rows add up to all bookings and resources there are. -/
theorem overview_accounts (T : Tables) (range : DateRange) (collation : String → String → Bool) :
    ((T.overview range collation).map (·.organizationId)).Perm (T.companies.map Prod.fst)
      ∧ (∀ row ∈ T.overview range collation,
        (∀ wallClock context, context.rootOrganizationId = row.organizationId →
          (((T.seenBy row.organizationId).peakTimesForTenant range wallClock context).map
            (·.bookingCount)).sum = row.totalBorrows)
        ∧ (((T.seenBy row.organizationId).bookings.rows.map (·.userId)).dedup.map fun u =>
            (((T.seenBy row.organizationId).myUsage range u).map (·.bookingCount)).sum).sum
          = row.totalBorrows)
      ∧ ((T.overview range collation).map (·.totalBorrows)).sum
        = (T.bookings.rows.filter range.counts).length
      ∧ ((T.overview range collation).map (·.totalItemsListed)).sum = T.resources.length := by
  refine ⟨?_, fun row hrow => ?_, ?_, ?_⟩
  · refine (overview_perm.map _).trans (List.Perm.of_eq ?_)
    rw [List.map_map]
    rfl
  · obtain ⟨company, -, rfl⟩ := mem_overview hrow
    rw [totalBorrows_eq]
    exact ⟨fun wallClock context h => sum_peakTimesForTenant h, sum_users⟩
  · have hmem : ∀ x ∈ T.booked.filter fun x => range.counts x.1.1,
        x.2.rootOrganizationId ∈ T.companies.map Prod.fst := by
      intro x hx
      exact root_mem_companies (mem_booked.mp (List.mem_of_mem_filter hx)).2.2.1
    have hsum := Grouping.sum_group T.nodup_companies (fun _ => 1) hmem
    simp only [Grouping.sum_ones, List.map_map] at hsum
    rw [(overview_perm.map _).sum_eq, List.map_map, ← length_booked fun row _ => rfl, ← hsum]
    rfl
  · have hsum := Grouping.sum_group T.nodup_companies (fun _ => 1) fun r hr => root_mem_companies hr
    simp only [Grouping.sum_ones, List.map_map] at hsum
    rw [(overview_perm.map _).sum_eq, List.map_map, ← hsum]
    rfl

/-- Two universities; at the one, a department whose resource has been booked, and a booking that was
cancelled. -/
def campus : Tables where
  organizations := ⟨[⟨1, none, 1, .active⟩, ⟨2, some 1, 1, .active⟩, ⟨3, none, 3, .active⟩], by decide⟩
  organizationName id := if id = 1 then "North" else if id = 2 then "Physics" else "South"
  memberships := [⟨11, 1, .member, .approved, 0⟩, ⟨11, 2, .admin, .approved, 5⟩,
    ⟨12, 1, .member, .pending, 6⟩, ⟨12, 3, .member, .approved, 7⟩]
  resources := [⟨4, "Telescope", 2, 1, .active, 5, 60, [], none⟩,
    ⟨5, "Piano", 3, 3, .active, 0, 60, [], none⟩]
  slots := ⟨[⟨6, 4, 1, 1000, 2000, .published, none⟩, ⟨7, 4, 1, 3000, 4000, .published, none⟩],
    by decide⟩
  bookings := ⟨[{ id := 8, resourceSlotId := 6, userId := 11, rootOrganizationId := 1, createdAt := 10 },
    { id := 9, resourceSlotId := 7, userId := 12, rootOrganizationId := 1, createdAt := 20 },
    { id := 10, resourceSlotId := 7, userId := 11, rootOrganizationId := 1, createdAt := 15,
      status := .cancelled, cancelledAt := some 16 }], by decide⟩
  organizations_grounded := by
    intro a
    by_cases ha : a = 2
    · subst ha
      exact ⟨[2, 1], .up rfl (.top rfl)⟩
    · refine ⟨[a], .top ?_⟩
      by_cases h1 : a = 1
      · subst h1
        rfl
      · by_cases h3 : a = 3
        · subst h3
          rfl
        · simp [Organizations.parentOf, Ne.symm ha, Ne.symm h1, Ne.symm h3]
  memberships_unique := by decide
  memberships_organization := by decide
  resources_pk := by decide
  resources_owner := by decide
  slots_resource := by decide
  bookings_slot := by decide

/-- There, of the two bookings that count one is by a member of both organizations. -/
example : (campus.seenBy 1).userSegmentation ⟨0, 100⟩ [2] = [⟨1, "North", 2⟩, ⟨2, "Physics", 1⟩]
    ∧ campus.overview ⟨0, 100⟩ (fun a b => decide (a ≤ b))
      = [⟨1, "North", 2, 1, 2⟩, ⟨3, "South", 1, 1, 0⟩] := by decide

end Universities

end Tables

end ResourceHive.Bookings.Reports
