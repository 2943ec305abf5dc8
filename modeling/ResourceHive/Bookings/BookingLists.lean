import ResourceHive.Bookings.Changes
import ResourceHive.Machinery.Cache

/-!
# Bookings/BookingLists — the lists of bookings, and the cache in front of them

`BookingsController` answers `GET /bookings/me` and `GET /bookings/org` from a cache that is keyed by
the URL, with its query, and the user; a request that changes bookings deletes the two keys without a
query of whoever made it.  Every other list that it changes — with a query, of another user, of
another administrator — is answered from the cache as it was, until it expires; and so is a list that
its user asks for in one university after another.

What a request may change is known before it is made (`Mutation.changes`).  While no list of such
bookings is cached under another key than the two deleted, and none is asked for in another
university, the answers are the lists the database holds (`lists_current`).
-/

namespace ResourceHive.Bookings.BookingsController

/-! ## The lists -/

/-- `BookingQueryDto`, validated. -/
structure BookingQueryDto where
  skip : Option ℕ := none
  take : Option ℕ := none
  status : Option BookingStatus := none
  deriving DecidableEq, Repr

/-- What a list includes of a booking's slot and resource; and what an administrator's also includes
of the slot and of the user. -/
structure BookingItem where
  booking : Booking
  startsAt : Timestamp
  endsAt : Timestamp
  resourceId : Uuid
  resourceName : String
  pointCost : ℤ
  ownerOrganizationId : Uuid
  slotStatus : Option SlotStatus := none
  userStatus : Option AccountStatus := none
  deriving DecidableEq, Repr

def BookingItem.ofRecord (record : BookingRecord) : BookingItem where
  booking := record.booking
  startsAt := record.slot.startsAt
  endsAt := record.slot.endsAt
  resourceId := record.resource.id
  resourceName := record.resource.name
  pointCost := record.resource.pointCost
  ownerOrganizationId := record.resource.ownerOrganizationId

/-- `organizationBookingInclude`. -/
def BookingItem.ofOrganizationRecord (d : Directory) (record : BookingRecord) : BookingItem :=
  { BookingItem.ofRecord record with
    slotStatus := some record.slot.status
    userStatus := (d.user? record.booking.userId).map (·.status) }

/-- `findMany` with its `skip` and its `take`. -/
def BookingQueryDto.page {α : Type} (query : BookingQueryDto) (records : List α) : List α :=
  let rest := records.drop (query.skip.getD 0)
  match query.take with
  | none => rest
  | some take => rest.take take

/-- The bookings that a request of a university sees, of the status in the query. -/
def visibleRecords (db : Database) (rootOrganizationId : Uuid) (query : BookingQueryDto) :
    List BookingRecord :=
  (db.bookings.rows.filter fun b => decide (b.rootOrganizationId = rootOrganizationId)
    && query.status.all (b.status = ·)).filterMap (record? db)

/-- **`getUserBookings`.** -/
def getUserBookings (db : Database) (rootOrganizationId userId : Uuid) (query : BookingQueryDto) :
    List BookingItem :=
  (query.page ((visibleRecords db rootOrganizationId query).filter
    (·.booking.userId = userId))).map BookingItem.ofRecord

inductive ListError
  | administratorMembershipRequired
  | operation (operation : String)
  /-- The URL is of neither list. -/
  | notFound
  deriving DecidableEq, Repr

namespace ListError

/-- The HTTP status of the exception's class. -/
def status : ListError → ℕ
  | administratorMembershipRequired => 403
  | operation _ => 500
  | notFound => 404

def message : ListError → Option String
  | administratorMembershipRequired => some "Approved administrator membership is required"
  | operation op => some ("Unable to " ++ op ++ " booking")
  | notFound => none

end ListError

/-- The organizations of a university that a user administers. -/
def administeredOrganizations (d : Directory) (rootOrganizationId userId : Uuid) : List Uuid :=
  (d.memberships.filter fun m =>
    decide (m.userId = userId ∧ m.role = .admin ∧ m.status = .approved)
      && (d.organization? m.organizationId).any
        (·.rootOrganizationId = rootOrganizationId)).map (·.organizationId)

/-- Whom the row policy of `users` shows in the context of a user: the user, and whoever it shows in
that of the university. -/
def showsTo (d : Directory) (rootOrganizationId userId other : Uuid) : Bool :=
  decide (other = userId) || d.shows rootOrganizationId other

/-- **`getOrgBookings`.**  The user of a booking is a required relation: a page with one whom the row
policy hides is not read. -/
def getOrgBookings (db : Database) (rootOrganizationId userId : Uuid) (query : BookingQueryDto) :
    Except ListError (List BookingItem) :=
  let organizations := administeredOrganizations db.directory rootOrganizationId userId
  if organizations = [] then .error .administratorMembershipRequired
  else
    let records := query.page ((visibleRecords db rootOrganizationId query).filter
      (·.resource.ownerOrganizationId ∈ organizations))
    if records.all fun r => showsTo db.directory rootOrganizationId userId r.booking.userId then
      .ok (records.map (BookingItem.ofOrganizationRecord db.directory))
    else .error (.operation "retrieve organization")

/-! ## The requests -/

/-- The text of a user's id. -/
abbrev UserText := {s : String // s.length = 36}

/-- The two lists. -/
inductive Listing
  | me
  | org
  deriving DecidableEq, Repr

/-- What the framework does with a URL, what a user's text is the id of, and the TTL. -/
structure Server where
  route : String → Option (Listing × BookingQueryDto)
  uuid : UserText → Uuid
  ttlMs : ℤ

/-- A GET of a list: its URL with the query, and whose it is, in which university. -/
structure ListRequest where
  url : String
  user : UserText
  rootOrganizationId : Uuid
  deriving DecidableEq, Repr

/-- **`UserCacheInterceptor.trackBy`.** -/
def ListRequest.key (r : ListRequest) : String := r.url ++ "-" ++ r.user.1

variable (S : Server)

/-- **The list that the database holds** for a request. -/
def listing (db : Database) (r : ListRequest) : Except ListError (List BookingItem) :=
  match S.route r.url with
  | none => .error .notFound
  | some (.me, query) => .ok (getUserBookings db r.rootOrganizationId (S.uuid r.user) query)
  | some (.org, query) => getOrgBookings db r.rootOrganizationId (S.uuid r.user) query

/-- A call that changes bookings; a request to cancel or complete one is made in a university. -/
inductive Mutation
  | create (user : UserText) (organizationId : Option Uuid) (resourceSlotId : Uuid)
  | cancel (rootOrganizationId : Uuid) (user : UserText) (bookingId : Uuid)
      (input : CancelBookingDto)
  | complete (rootOrganizationId : Uuid) (user : UserText) (bookingId : Uuid)
  | reevaluate (resourceId rootOrganizationId : Uuid)

/-- Where the service starts. -/
def Mutation.start : Mutation → Point
  | .create user organizationId resourceSlotId =>
    .create resourceSlotId ⟨S.uuid user, organizationId⟩ 1
  | .cancel _ user bookingId input => .cancel bookingId (S.uuid user) input
  | .complete _ user bookingId => .complete bookingId (S.uuid user)
  | .reevaluate resourceId rootOrganizationId => .reevaluate resourceId rootOrganizationId

/-- Whether the row policies show a request the booking that it names, and with it the booking's user,
a required relation; to one that does not see both, an error is answered. -/
def Mutation.shows (db : Database) : Mutation → Bool
  | .cancel rootOrganizationId user bookingId _ | .complete rootOrganizationId user bookingId =>
    (db.booking? bookingId).any fun b => decide (b.rootOrganizationId = rootOrganizationId)
      && showsTo db.directory rootOrganizationId (S.uuid user) b.userId
  | .create _ _ _ | .reevaluate _ _ => true

/-- The keys that the controller deletes after a call that has returned. -/
def Mutation.deletes : Mutation → List String
  | .create user _ _ | .cancel _ user _ _ | .complete _ user _ =>
    ["/bookings/me-" ++ user.1, "/bookings/org-" ++ user.1]
  | .reevaluate _ _ => []

/-! ## The machine -/

/-- A cached response, and the request that it was the answer to, which the cache does not keep. -/
structure Cached where
  body : List BookingItem
  request : ListRequest
  deriving DecidableEq, Repr

structure ControllerState where
  db : Database
  cache : Cache String Cached Timestamp
  clock : Timestamp

/-- **The response to a GET.** -/
def respond (s : ControllerState) (r : ListRequest) (now : Timestamp) :
    Except ListError (List BookingItem) :=
  match s.cache.get now r.key with
  | some cached => .ok cached.body
  | none => listing S s.db r

/-- The cache after it: a list that was not found there, unless there is none, is now. -/
def cacheAfter (s : ControllerState) (r : ListRequest) (now : Timestamp) :
    Cache String Cached Timestamp :=
  match s.cache.get now r.key, listing S s.db r with
  | none, .ok body => s.cache.set r.key ⟨body, r⟩ (now + S.ttlMs)
  | _, _ => s.cache

/-- One request after the other: a GET, or a call with what it takes from outside, at a time. -/
inductive Request
  | get (r : ListRequest) (now : Timestamp)
  | mutate (m : Mutation) (xs : List (Reading ⊕ Thrown BookingError)) (now : Timestamp)

/-- **One request**; none where the call has not ended, or the clock would go back. -/
def step (s : ControllerState) : Request → Option ControllerState
  | .get r now =>
    if s.clock ≤ now then some { s with cache := cacheAfter S s r now, clock := now } else none
  | .mutate m xs now =>
    if s.clock ≤ now then
      if m.shows S s.db then
        match code.alone xs (s.db, m.start S) with
        | (db, .returned) => some { db, cache := m.deletes.foldl Cache.del s.cache, clock := now }
        | (db, .failed _) => some { s with db, clock := now }
        | _ => none
      else some { s with clock := now }
    else none

/-- The machine of the controller, from any database and an empty cache. -/
def machine : Machine ControllerState Request where
  init s := s.cache = ∅
  step := step S

/-! ## What a request may change -/

/-- **What a call may change**, as its request and the database say: the booking that it asks for, the
confirmed booking that it names, the confirmed bookings of a resource that their users may not use. -/
def Mutation.changes (db : Database) : Mutation → List Change
  | .create user organizationId resourceSlotId =>
    ((organizationId.bind db.directory.organization?).map fun o =>
      ⟨S.uuid user, resourceSlotId, o.rootOrganizationId, .confirmed⟩).toList
  | .cancel _ _ bookingId _ =>
    (db.bookings.rows.filter fun b => decide (b.id = bookingId ∧ b.status = .confirmed)).map
      (Change.to .cancelled)
  | .complete _ _ bookingId =>
    (db.bookings.rows.filter fun b => decide (b.id = bookingId ∧ b.status = .confirmed)).map
      (Change.to .completed)
  | .reevaluate resourceId rootOrganizationId =>
    ((db.bookings.rows.filterMap (record? db)).filter fun r =>
      decide (r.booking.status = .confirmed ∧ r.booking.rootOrganizationId = rootOrganizationId
        ∧ r.slot.resourceId = resourceId)
        && !hasAccess db.directory rootOrganizationId r).map fun r => Change.to .cancelled r.booking

/-- The organization that owns the resource of a slot is one of these. -/
def ownedBy (db : Database) (organizations : List Uuid) (slotId : Uuid) : Bool :=
  ((db.slot? slotId).bind fun slot => db.directory.resource? slot.resourceId).any
    (·.ownerOrganizationId ∈ organizations)

/-- Who makes the call; a reevaluation is internal. -/
def Mutation.caller : Mutation → Option UserText
  | .create user _ _ | .cancel _ user _ _ | .complete _ user _ => some user
  | .reevaluate _ _ => none

/-- The key is that of one of the caller's two lists without a query. -/
def Mutation.ownKey (m : Mutation) (k : String) : Bool :=
  m.caller.any fun user =>
    decide (k = "/bookings/me-" ++ user.1) || decide (k = "/bookings/org-" ++ user.1)

/-- **Whether a list is one of bookings that a change is of**: by its status, and by its user or its
resource. -/
def ListRequest.covers (db : Database) (r : ListRequest) (c : Change) : Bool :=
  match S.route r.url with
  | none => false
  | some (list, query) =>
    query.status.all (fun status => status = .confirmed || status = c.status)
      && match list with
        | .me => decide (c.userId = S.uuid r.user ∧ c.rootOrganizationId = r.rootOrganizationId)
        | .org => ownedBy db (administeredOrganizations db.directory r.rootOrganizationId
            (S.uuid r.user)) c.resourceSlotId

/-- **What the cache allows**: a list is asked for in the university in which the response that is
cached for it was made; and when a call is made, no list of bookings that it may change is cached,
but for the caller's two lists without a query. -/
def harmless (s : ControllerState) : Request → Prop
  | .get r now => ∀ cached, s.cache.get now r.key = some cached →
      cached.request.rootOrganizationId = r.rootOrganizationId
  | .mutate m _ now => ∀ k cached, s.cache.get now k = some cached → m.ownKey k = false →
      ∀ c ∈ m.changes S s.db, cached.request.covers S s.db c = false

/-! ## A list that is left alone -/

variable {changes : List Change} {db₀ db db' : Database}

theorem page_map {α β : Type} (query : BookingQueryDto) (f : α → β) (l : List α) :
    query.page (l.map f) = (query.page l).map f := by
  unfold BookingQueryDto.page
  cases query.take <;> simp only [List.map_drop, List.map_take]

/-- Selecting records by what their bookings say is selecting the bookings. -/
theorem filter_records {p : BookingRecord → Bool} {q : Booking → Bool}
    (h : ∀ b r, record? db b = some r → p r = q b) (l : List Booking) :
    (l.filterMap (record? db)).filter p = (l.filter q).filterMap (record? db) := by
  rw [List.filter_filterMap, List.filterMap_filter]
  refine congrArg (fun f => List.filterMap f l) (funext fun b => ?_)
  cases hr : record? db b with
  | none => simp
  | some r => rw [← h b r hr, Option.filter_some]

theorem ownedBy_within (h : Within changes db db') (organizations : List Uuid) (slotId : Uuid) :
    ownedBy db' organizations slotId = ownedBy db organizations slotId := by
  have hslots := congrArg (Option.map (·.2.2)) (h.slots slotId)
  rw [Option.map_map, Option.map_map] at hslots
  have hbind (d : Database) : ((d.slot? slotId).bind fun s => db.directory.resource? s.resourceId)
      = ((d.slot? slotId).map fun s => s.resourceId).bind db.directory.resource? := by
    rw [Option.bind_map]
    rfl
  rw [ownedBy, ownedBy, h.directory, hbind, hbind]
  exact congrArg (fun o => Option.any _ (Option.bind o _)) hslots

/-- Whose the resource of a record is. -/
theorem owner_of_record {organizations : List Uuid} {b : Booking} {r : BookingRecord}
    (h : record? db b = some r) : decide (r.resource.ownerOrganizationId ∈ organizations)
      = ownedBy db organizations b.resourceSlotId := by
  obtain ⟨slot, hslot, hr⟩ := Option.bind_eq_some_iff.mp h
  obtain ⟨resource, hresource, rfl⟩ := Option.map_eq_some_iff.mp hr
  rw [ownedBy, hslot, Option.bind_some, hresource, Option.any_some]

theorem getUserBookings_eq (db : Database) (rootOrganizationId userId : Uuid)
    (query : BookingQueryDto) : getUserBookings db rootOrganizationId userId query =
      query.page ((db.bookings.rows.filter fun b => decide (b.userId = userId)
        && (decide (b.rootOrganizationId = rootOrganizationId)
          && query.status.all (b.status = ·))).filterMap
            fun b => (record? db b).map BookingItem.ofRecord) := by
  rw [getUserBookings, visibleRecords, filter_records (q := fun b => decide (b.userId = userId))
    fun b r hr => by rw [record?_eq_some hr], List.filter_filter, ← page_map, List.map_filterMap]

/-- The records of an administrator's list, before its page is taken. -/
theorem organizationRecords_eq (db : Database) (rootOrganizationId : Uuid) (query : BookingQueryDto)
    (organizations : List Uuid) : ((visibleRecords db rootOrganizationId query).filter
      (·.resource.ownerOrganizationId ∈ organizations)) =
      (db.bookings.rows.filter fun b => ownedBy db organizations b.resourceSlotId
        && (decide (b.rootOrganizationId = rootOrganizationId)
          && query.status.all (b.status = ·))).filterMap (record? db) := by
  rw [visibleRecords, filter_records
    (q := fun b => ownedBy db organizations b.resourceSlotId) fun b r hr => owner_of_record hr,
    List.filter_filter]

theorem getUserBookings_within (h : Within changes db db') {rootOrganizationId userId : Uuid}
    {query : BookingQueryDto} (hc : ∀ c ∈ changes,
      (query.status.all (fun s => s = .confirmed || s = c.status)
        && decide (c.userId = userId ∧ c.rootOrganizationId = rootOrganizationId)) = false) :
    getUserBookings db' rootOrganizationId userId query
      = getUserBookings db rootOrganizationId userId query := by
  rw [getUserBookings_eq, getUserBookings_eq, h.bookings _ fun b c hmem hof => ?_]
  · exact congrArg query.page (List.filterMap_congr fun b _ => h.record?_map
      (fun _ _ _ _ heq => by
        simp only [Prod.mk.injEq] at heq
        simp only [BookingItem.ofRecord, heq.1, heq.2.1]) b)
  · by_contra hq
    simp only [Bool.not_eq_false, Bool.and_eq_true, decide_eq_true_eq] at hq
    have hlisted := hof.listed hq.2.2
    have hfalse := hc c hmem
    rw [hlisted, Bool.true_and, decide_eq_false_iff_not] at hfalse
    exact hfalse ⟨hof.1 ▸ hq.1, hof.2.2.1 ▸ hq.2.1⟩

/-- The slots of the bookings that an administrator's list is of are left alone: where one that is
listed is on a slot with one that is cancelled, it is of a status that the change is of. -/
theorem slot?_within (h : Within changes db db') (hconfirmed : ∀ c ∈ changes,
      c.status = .cancelled → ∃ b ∈ db.bookings, b.resourceSlotId = c.resourceSlotId
        ∧ b.status = .confirmed)
    {status : Option BookingStatus} {organizations : List Uuid} (hc : ∀ c ∈ changes,
      (status.all (fun s => s = .confirmed || s = c.status)
        && ownedBy db organizations c.resourceSlotId) = false)
    {b : Booking} (hb : b ∈ db.bookings) (hstatus : status.all (b.status = ·))
    (howned : ownedBy db organizations b.resourceSlotId) :
    db'.slot? b.resourceSlotId = db.slot? b.resourceSlotId := by
  refine (h.slotStatus b.resourceSlotId).resolve_right ?_
  rintro ⟨c, hmem, hcancelled, hslot⟩
  have hfalse := hc c hmem
  rw [hslot, howned, Bool.and_true] at hfalse
  cases status with
  | none => cases hfalse
  | some s =>
    simp only [Option.all_some, decide_eq_true_eq, Bool.or_eq_false_iff,
      decide_eq_false_iff_not] at hfalse hstatus
    obtain ⟨b', hb', hslot', hconf⟩ := hconfirmed c hmem hcancelled
    -- it is completed, and so the one active booking of its slot
    have hcompleted : b.status = .completed := by
      cases hs : b.status with
      | completed => rfl
      | confirmed => exact absurd (hstatus ▸ hs) hfalse.1
      | cancelled => exact absurd ((hstatus ▸ hs).trans hcancelled.symm) hfalse.2
    have hsame : b = b' := Table.UniqueWhere.eq db.bookings.valid.2.2 hb
      (by simp [Booking.active, hcompleted]) hb' (by simp [Booking.active, hconf])
      (hslot.symm.trans hslot'.symm)
    rw [hsame, hconf] at hcompleted
    cases hcompleted

theorem getOrgBookings_within (h : Within changes db db') (hconfirmed : ∀ c ∈ changes,
      c.status = .cancelled → ∃ b ∈ db.bookings, b.resourceSlotId = c.resourceSlotId
        ∧ b.status = .confirmed)
    {rootOrganizationId userId : Uuid} {query : BookingQueryDto} (hc : ∀ c ∈ changes,
      (query.status.all (fun s => s = .confirmed || s = c.status)
        && ownedBy db (administeredOrganizations db.directory rootOrganizationId userId)
          c.resourceSlotId) = false) :
    getOrgBookings db' rootOrganizationId userId query
      = getOrgBookings db rootOrganizationId userId query := by
  unfold BookingsController.getOrgBookings
  simp only [organizationRecords_eq, h.directory, ownedBy_within h]
  rw [h.bookings _ fun b c hmem hof => ?_]
  · rw [List.filterMap_congr fun b hb => ?_]
    obtain ⟨hb, hq⟩ := List.mem_filter.mp hb
    simp only [Bool.and_eq_true] at hq
    rw [record?, record?, h.directory, slot?_within h hconfirmed hc hb hq.2.2 hq.1]
  · by_contra hq
    simp only [Bool.not_eq_false, Bool.and_eq_true] at hq
    have hfalse := hc c hmem
    rw [hof.listed hq.2.2, Bool.true_and, ← hof.2.1, hq.1] at hfalse
    cases hfalse

/-- **A list that covers none of the changes is left alone.** -/
theorem listing_within {S : Server} (h : Within changes db db') (hconfirmed : ∀ c ∈ changes,
      c.status = .cancelled → ∃ b ∈ db.bookings, b.resourceSlotId = c.resourceSlotId
        ∧ b.status = .confirmed)
    {r : ListRequest} (hr : ∀ c ∈ changes, r.covers S db c = false) :
    listing S db' r = listing S db r := by
  unfold listing
  unfold ListRequest.covers at hr
  split
  · rfl
  · next query hroute =>
    rw [hroute] at hr
    rw [getUserBookings_within h hr]
  · next query hroute =>
    rw [hroute] at hr
    exact getOrgBookings_within h hconfirmed hr

/-! ## A call is within its changes -/

variable {S : Server}

theorem confirmed_of_changes {m : Mutation} {c : Change} (h : c ∈ m.changes S db)
    (hc : c.status = .cancelled) : ∃ b ∈ db.bookings, b.resourceSlotId = c.resourceSlotId
      ∧ b.status = .confirmed := by
  cases m with
  | create user organizationId slotId =>
    obtain ⟨o, -, rfl⟩ := Option.map_eq_some_iff.mp (Option.mem_toList.mp h)
    cases hc
  | cancel root user id input =>
    obtain ⟨b, hb, rfl⟩ := List.mem_map.mp h
    obtain ⟨hb, hq⟩ := List.mem_filter.mp hb
    exact ⟨b, hb, rfl, (of_decide_eq_true hq).2⟩
  | complete root user id =>
    obtain ⟨b, hb, rfl⟩ := List.mem_map.mp h
    cases hc
  | reevaluate resourceId root =>
    obtain ⟨r, hr, rfl⟩ := List.mem_map.mp h
    obtain ⟨hr, hq⟩ := List.mem_filter.mp hr
    obtain ⟨b, hb, hrecord⟩ := List.mem_filterMap.mp hr
    obtain rfl := record?_eq_some hrecord
    simp only [Bool.and_eq_true, decide_eq_true_eq] at hq
    exact ⟨r.booking, hb, rfl, hq.1.1⟩

/-- What a call has read, at each point: until its first commit the database is as it found it, and
what it is going to write is among its changes. -/
def Bound (changes : List Change) (db₀ db : Database) : Point → Prop
  | .create slotId user _ | .createFailed slotId user _ => db = db₀
      ∧ ∀ o, user.organizationId.bind db₀.directory.organization? = some o →
        ⟨user.userId, slotId, o.rootOrganizationId, .confirmed⟩ ∈ changes
  | .createWriting slotId user _ c => (db = db₀
      ∧ ∀ o, user.organizationId.bind db₀.directory.organization? = some o →
        ⟨user.userId, slotId, o.rootOrganizationId, .confirmed⟩ ∈ changes)
      ∧ c.booking.status = .confirmed ∧ Change.to .confirmed c.booking ∈ changes
  | .cancel bookingId _ _ => db = db₀ ∧ ∀ b ∈ db₀.bookings, b.id = bookingId →
      b.status = .confirmed → Change.to .cancelled b ∈ changes
  | .cancelAdministrator record _ _ _ => db = db₀ ∧ record.booking ∈ db₀.bookings
      ∧ Change.to .cancelled record.booking ∈ changes
  | .cancelNext work => ∀ c ∈ work, c.booking ∈ db₀.bookings
      ∧ Change.to .cancelled c.booking ∈ changes
  | .cancelWriting c _ _ rest => ∀ d ∈ c :: rest, d.booking ∈ db₀.bookings
      ∧ Change.to .cancelled d.booking ∈ changes
  | .complete bookingId _ => db = db₀ ∧ ∀ b ∈ db₀.bookings, b.id = bookingId →
      b.status = .confirmed → Change.to .completed b ∈ changes
  | .completeAdministrator record _ => db = db₀ ∧ record.booking ∈ db₀.bookings
      ∧ (record.booking.status = .confirmed → Change.to .completed record.booking ∈ changes)
  | .completeWriting bookingId _ => db = db₀
      ∧ ∃ b ∈ db₀.bookings, b.id = bookingId ∧ Change.to .completed b ∈ changes
  | .reevaluate resourceId rootOrganizationId => db = db₀ ∧ ∀ now,
      ∀ r ∈ futureBookings db₀ rootOrganizationId resourceId now,
        hasAccess db₀.directory rootOrganizationId r = false →
          Change.to .cancelled r.booking ∈ changes
  | .returned | .failed _ => True

theorem bound_start (m : Mutation) : Bound (m.changes S db) db db (m.start S) := by
  cases m with
  | create user organizationId slotId =>
    refine ⟨rfl, fun o ho => ?_⟩
    exact Option.mem_toList.mpr (Option.map_eq_some_iff.mpr ⟨o, ho, rfl⟩)
  | cancel root user id input =>
    refine ⟨rfl, fun b hb hid hstatus => ?_⟩
    exact List.mem_map.mpr ⟨b, List.mem_filter.mpr ⟨hb, decide_eq_true ⟨hid, hstatus⟩⟩, rfl⟩
  | complete root user id =>
    refine ⟨rfl, fun b hb hid hstatus => ?_⟩
    exact List.mem_map.mpr ⟨b, List.mem_filter.mpr ⟨hb, decide_eq_true ⟨hid, hstatus⟩⟩, rfl⟩
  | reevaluate resourceId root =>
    refine ⟨rfl, fun now r hr haccess => ?_⟩
    obtain ⟨hrecord, hb, hstatus, hroot, -, hresource, -⟩ := mem_futureBookings.mp hr
    refine List.mem_map.mpr ⟨r, List.mem_filter.mpr
      ⟨List.mem_filterMap.mpr ⟨r.booking, hb, hrecord⟩, ?_⟩, rfl⟩
    simp [hstatus, hroot, hresource, haccess]

theorem bound_next {p p' : Point} (h : p.Next db p') (hb : Bound changes db₀ db p) :
    Bound changes db₀ db p' := by
  cases h with
  | failed | finished | completedAlready => trivial
  | deductionRead => exact hb
  | created hc =>
    obtain ⟨rfl, hchange⟩ := hb
    obtain ⟨context, hcontext, rfl⟩ := creation_of_ok hc
    obtain ⟨huser, o, ho, hroot⟩ := user_of_creation hc
    refine ⟨⟨rfl, hchange⟩, rfl, ?_⟩
    have hmem := hchange o ho
    rwa [← huser, ← hroot, ← hcontext.slotId] at hmem
  | retried hp =>
    rcases hp with rfl | rfl
    · exact hb
    · exact hb
  | cancelledByUser hc =>
    obtain ⟨rfl, hchange⟩ := hb
    obtain ⟨hmem, hid, hstatus, -⟩ := cancelBooking_eq_inl hc
    intro d hd
    obtain rfl := List.mem_singleton.mp hd
    exact ⟨hmem, hchange _ hmem hid hstatus⟩
  | cancelRead hc =>
    obtain ⟨rfl, hchange⟩ := hb
    obtain ⟨hmem, hid, hstatus⟩ := cancelBooking_eq_inr hc
    exact ⟨rfl, hmem, hchange _ hmem hid hstatus⟩
  | cancelledByAdministrator hc =>
    intro d hd
    obtain rfl := List.mem_singleton.mp hd
    rw [(cancelBookingAsAdministrator_eq_ok hc).1]
    exact hb.2
  | completeRead hc =>
    obtain ⟨rfl, hchange⟩ := hb
    obtain ⟨hmem, hid⟩ := findUnique_eq_some hc
    exact ⟨rfl, hmem, hchange _ hmem hid⟩
  | completeAllowed hc =>
    obtain ⟨rfl, hmem, hchange⟩ := hb
    exact ⟨rfl, _, hmem, rfl, hchange (completeBooking_eq_true hc)⟩
  | listed hc =>
    obtain ⟨rfl, hchange⟩ := hb
    obtain ⟨-, rfl⟩ := reevaluateBookings_eq_ok.mp hc
    intro d hd
    obtain ⟨r, hr, rfl⟩ := List.mem_map.mp hd
    obtain ⟨hr, haccess⟩ := List.mem_filter.mp hr
    exact ⟨(mem_futureBookings.mp hr).2.1, hchange _ r hr (by simpa using haccess)⟩

theorem bound_commit {p : Point} (hne : code.writes p ≠ [])
    (hrep : code.replay (code.writes p) db = some db') (hw : Within changes db₀ db)
    (hb : Bound changes db₀ db p) :
    Within changes db₀ db' ∧ Bound changes db₀ db' (code.committed p) := by
  rcases commit_cases hne hrep with ⟨slotId, user, attempt, c, rfl, hc⟩
    | ⟨c, refund, x, rest, b, rfl, hc⟩ | ⟨id, now, b, rfl, hc⟩
  · obtain ⟨-, hconfirmed, hchange⟩ := hb
    exact ⟨hw.created hc hconfirmed hchange, trivial⟩
  · obtain ⟨hmem, hchange⟩ := hb c (List.mem_cons_self ..)
    exact ⟨hw.cancelled hc hmem hchange, fun d hd => hb d (List.mem_cons_of_mem c hd)⟩
  · obtain ⟨-, b₀, hmem, hid, hchange⟩ := hb
    exact ⟨hw.completed hc hmem hid hchange, trivial⟩

/-- **A call changes nothing but what it may change.** -/
theorem within_alone (m : Mutation) (xs : List (Reading ⊕ Thrown BookingError)) :
    Within (m.changes S db) db (code.alone xs (db, m.start S)).1 := by
  have key := Code.alone_invariant (C := code) (Q := fun _ => True)
    (J := fun db' _ p => Within (m.changes S db) db db' ∧ Bound (m.changes S db) db db' p)
    (fun hJ _ h => ⟨hJ.1, bound_next (next_cases h) hJ.2⟩)
    (fun hJ hne hrep => bound_commit hne hrep hJ.1 hJ.2)
    (fun {_ _ p} hJ hne => ⟨hJ.1, ?_⟩) xs (db, m.start S) ⟨.refl, bound_start m⟩ fun _ _ => trivial
  · exact key.1
  · cases p with
    | createWriting => exact hJ.2.1
    | cancelWriting | completeWriting => trivial
    | create | createFailed | cancel | cancelAdministrator | cancelNext | complete
    | completeAdministrator | reevaluate | returned | failed => exact absurd rfl hne

/-- A call that makes one transaction, and has not committed it before it is at its end. -/
def Uncommitted (db₀ db : Database) : Point → Prop
  | .cancelNext [] | .returned => True
  | .cancelNext (_ :: rest) | .cancelWriting _ _ _ rest => db = db₀ ∧ rest = []
  | .reevaluate _ _ => False
  | _ => db = db₀

theorem uncommitted_next {p p' : Point} {i : Reading ⊕ Thrown BookingError}
    (h : p.next db i = some p') (hp : Uncommitted db₀ db p) : Uncommitted db₀ db p' := by
  cases next_cases h with
  | created | cancelRead | completeRead | completeAllowed => exact hp
  | deductionRead => exact hp
  | finished | completedAlready => trivial
  | cancelledByUser | cancelledByAdministrator => exact ⟨hp, rfl⟩
  | listed => exact hp.elim
  | retried hp' => rcases hp' with rfl | rfl <;> exact hp
  | failed hp' =>
    cases p with
    | create | createWriting | createFailed | cancel | cancelAdministrator | complete
    | completeAdministrator | completeWriting | failed => exact hp
    | cancelNext work => exact absurd rfl (hp' work)
    | cancelWriting => exact hp.1
    | reevaluate => exact hp.elim
    | returned => cases i <;> cases h

/-- **A person's call that fails has changed nothing.** -/
theorem unchanged_of_failed {m : Mutation} (hm : m.deletes ≠ [])
    {xs : List (Reading ⊕ Thrown BookingError)} {e : Option BookingError}
    (h : code.alone xs (db, m.start S) = (db', .failed e)) : db' = db := by
  have key := Code.alone_invariant (C := code) (Q := fun _ => True)
    (J := fun db' _ p => Uncommitted db db' p)
    (fun hJ _ h => uncommitted_next h hJ)
    (fun {_ _ p _} hJ hne _ => ?_)
    (fun {_ _ p} hJ hne => ?_) xs (db, m.start S) ?_ fun _ _ => trivial
  · rw [h] at key
    exact key
  · cases p with
    | createWriting | completeWriting => trivial
    | cancelWriting c refund x rest =>
      obtain ⟨-, rfl⟩ := hJ
      trivial
    | create | createFailed | cancel | cancelAdministrator | cancelNext | complete
    | completeAdministrator | reevaluate | returned | failed => exact absurd rfl hne
  · cases p with
    | createWriting | completeWriting => exact hJ
    | cancelWriting => exact hJ.1
    | create | createFailed | cancel | cancelAdministrator | cancelNext | complete
    | completeAdministrator | reevaluate | returned | failed => exact absurd rfl hne
  · cases m with
    | create | cancel | complete => rfl
    | reevaluate => exact absurd rfl hm

/-! ## Coherence, request by request -/

variable {s t : ControllerState} {r r' : ListRequest} {now : Timestamp}

variable (S) in
/-- **Coherent**: what is cached under a key is the list that the database holds for the request it was
made for, and the key is that request's. -/
def Coherent (s : ControllerState) : Prop :=
  s.cache.Coherent (fun k cached => cached.request.key = k ∧
    listing S s.db cached.request = .ok cached.body) s.clock

/-- A key is of one URL and one user, since the texts of users are all of one length. -/
theorem key_inj (h : r.key = r'.key) : r.url = r'.url ∧ r.user = r'.user := by
  have hlists := congrArg String.toList h
  simp only [ListRequest.key, String.toList_append] at hlists
  have hlength : r.user.1.toList.length = r'.user.1.toList.length := by
    rw [String.length_toList, String.length_toList, r.user.2, r'.user.2]
  obtain ⟨hleft, huser⟩ := List.append_inj' hlists hlength
  obtain ⟨hurl, -⟩ := List.append_inj' hleft rfl
  exact ⟨String.toList_inj.mp hurl, Subtype.ext (String.toList_inj.mp huser)⟩

/-- **A response is the list of the database.** -/
theorem Coherent.respond_eq (h : Coherent S s) (hle : s.clock ≤ now)
    (hok : harmless S s (.get r now)) : respond S s r now = listing S s.db r := by
  unfold respond
  cases hget : s.cache.get now r.key with
  | none => rfl
  | some cached =>
    obtain ⟨hkey, hbody⟩ := h.later hle r.key cached hget
    obtain ⟨hurl, huser⟩ := key_inj hkey
    have hsame : cached.request = r := by
      rw [ListRequest.mk.injEq]
      exact ⟨hurl, huser, hok cached hget⟩
    rw [← hsame, hbody]

theorem Coherent.get (h : Coherent S s) (hle : s.clock ≤ now) :
    Coherent S { s with cache := cacheAfter S s r now, clock := now } := by
  have hlater := h.later hle
  unfold Coherent cacheAfter
  split
  · next body _ hbody => exact hlater.set ⟨rfl, hbody⟩
  · exact hlater

/-- **What a call that has ended has done**: it has returned, and its keys are deleted; or it has
failed, a person's call without a change; or its request was not shown its booking. -/
theorem mutate_cases {m : Mutation} {xs : List (Reading ⊕ Thrown BookingError)}
    (h : step S s (.mutate m xs now) = some t) : s.clock ≤ now ∧ t.clock = now ∧
      Within (m.changes S s.db) s.db t.db ∧
      (t.cache = m.deletes.foldl Cache.del s.cache
        ∨ t.cache = s.cache ∧ (m.deletes ≠ [] → t.db = s.db)) := by
  simp only [step, Option.ite_none_right_eq_some] at h
  obtain ⟨hle, h⟩ := h
  have hwithin : Within (m.changes S s.db) s.db (code.alone xs (s.db, m.start S)).1 :=
    within_alone m xs
  split at h
  · split at h
    · next db hrun =>
      obtain rfl := Option.some.inj h
      rw [hrun] at hwithin
      exact ⟨hle, rfl, hwithin, .inl rfl⟩
    · next db e hrun =>
      obtain rfl := Option.some.inj h
      rw [hrun] at hwithin
      exact ⟨hle, rfl, hwithin, .inr ⟨rfl, fun hm => unchanged_of_failed hm hrun⟩⟩
    · cases h
  · obtain rfl := Option.some.inj h
    exact ⟨hle, rfl, .refl, .inr ⟨rfl, fun _ => rfl⟩⟩

/-- What is cached after a call was cached before it. -/
theorem get_of_mutate {m : Mutation} {xs : List (Reading ⊕ Thrown BookingError)}
    (h : step S s (.mutate m xs now) = some t) {k : String} {cached : Cached} {now' : Timestamp}
    (hget : t.cache.get now' k = some cached) : s.cache.get now' k = some cached := by
  obtain ⟨-, -, -, hdels | ⟨hsame, -⟩⟩ := mutate_cases h
  · rw [hdels] at hget
    exact Cache.get_of_dels hget
  · rwa [hsame] at hget

/-- **The controller deletes the caller's two lists.** -/
theorem mem_deletes_of_ownKey {m : Mutation} {k : String} (h : m.ownKey k = true) :
    k ∈ m.deletes := by
  obtain ⟨user, huser, h⟩ := (Option.any_eq_true _ _).mp h
  simp only [Bool.or_eq_true, decide_eq_true_eq] at h
  cases m with
  | create | cancel | complete =>
    obtain rfl := Option.some.inj huser
    rcases h with rfl | rfl
    · exact List.mem_cons_self
    · exact List.mem_cons_of_mem _ List.mem_cons_self
  | reevaluate => cases huser

/-- **A list that is cached after a harmless call is left alone by it.** -/
theorem listing_of_mutate {m : Mutation} {xs : List (Reading ⊕ Thrown BookingError)}
    (h : step S s (.mutate m xs now) = some t) (hok : harmless S s (.mutate m xs now)) {k : String}
    {cached : Cached} (hget : t.cache.get now k = some cached) :
    listing S t.db cached.request = listing S s.db cached.request := by
  have hbefore := get_of_mutate h hget
  obtain ⟨-, -, hwithin, hcache⟩ := mutate_cases h
  by_cases hk : k ∈ m.deletes
  · rcases hcache with hdels | ⟨-, hunchanged⟩
    · rw [hdels, Cache.get_dels_of_mem hk] at hget
      cases hget
    · rw [hunchanged (List.ne_nil_of_mem hk)]
  · have hother : m.ownKey k = false := Bool.eq_false_iff.mpr fun h => hk (mem_deletes_of_ownKey h)
    exact listing_within hwithin (fun c hc => confirmed_of_changes hc) (hok k cached hbefore hother)

theorem Coherent.mutate (h : Coherent S s) {m : Mutation}
    {xs : List (Reading ⊕ Thrown BookingError)} (hstep : step S s (.mutate m xs now) = some t)
    (hok : harmless S s (.mutate m xs now)) : Coherent S t := by
  obtain ⟨hle, hclock, -⟩ := mutate_cases hstep
  intro k cached hget
  rw [hclock] at hget
  obtain ⟨hkey, hbody⟩ := h.later hle k cached (get_of_mutate hstep hget)
  exact ⟨hkey, (listing_of_mutate hstep hok hget).trans hbody⟩

/-- **The step lemma.** -/
theorem Coherent.step (h : Coherent S s) {l : Request} (hok : harmless S s l)
    (hstep : step S s l = some t) : Coherent S t := by
  cases l with
  | get r now =>
    simp only [BookingsController.step, Option.ite_none_right_eq_some, Option.some.injEq] at hstep
    obtain ⟨hle, rfl⟩ := hstep
    exact h.get hle
  | mutate m xs now => exact h.mutate hstep hok

/-- **The run lemma.** -/
theorem coherent_of_reachable (h : (machine S).Reachable (harmless S) s) : Coherent S s :=
  h.invariant
    (fun {s} hinit => by
      have hempty : s.cache = ∅ := hinit
      rw [Coherent, hempty]
      exact .empty)
    fun ht hok hstep => ht.step hok hstep

/-- **Coherence of the booking lists.**  In every run whose requests are all harmless, each list that
is asked for in the university it is cached for is answered with what the database holds. -/
theorem lists_current (hs : (machine S).Reachable (harmless S) s) (hle : s.clock ≤ now)
    (hok : harmless S s (.get r now)) : respond S s r now = listing S s.db r :=
  (coherent_of_reachable hs).respond_eq hle hok

/-! ## A booking in a list, and its cancellation -/

/-- Nothing is found in the cache but, under its own key, the response to one request. -/
def OnlyCached (s : ControllerState) (r : ListRequest) : Prop :=
  ∀ now k cached, s.cache.get now k = some cached → k = r.key ∧ cached.request = r

theorem OnlyCached.get (h : OnlyCached s r)
    (hstep : BookingsController.step S s (.get r now) = some t) : OnlyCached t r := by
  simp only [BookingsController.step, Option.ite_none_right_eq_some, Option.some.injEq] at hstep
  obtain ⟨-, rfl⟩ := hstep
  intro now' k cached hget
  unfold cacheAfter at hget
  split at hget
  · by_cases hk : k = r.key
    · rw [hk, Cache.get_set_self] at hget
      split at hget
      · obtain rfl := Option.some.inj hget
        exact ⟨hk, rfl⟩
      · cases hget
    · rw [Cache.get_set_of_ne hk] at hget
      exact h now' k cached hget
  · exact h now' k cached hget

theorem OnlyCached.mutate (h : OnlyCached s r) {m : Mutation}
    {xs : List (Reading ⊕ Thrown BookingError)}
    (hstep : BookingsController.step S s (.mutate m xs now) = some t) : OnlyCached t r :=
  fun now' k cached hget => h now' k cached (get_of_mutate hstep hget)

theorem OnlyCached.harmless_get (h : OnlyCached s r) : harmless S s (.get r now) :=
  fun cached hget => by rw [(h now r.key cached hget).2]

theorem OnlyCached.harmless_mutate (h : OnlyCached s r) {m : Mutation}
    {xs : List (Reading ⊕ Thrown BookingError)} (hm : m.ownKey r.key = true) :
    harmless S s (.mutate m xs now) := by
  intro k cached hget hother
  rw [(h now k cached hget).1, hm] at hother
  cases hother

/-- The two lists, one of them also with a query. -/
def sampleServer : Server where
  route
    | "/bookings/me" => some (.me, {})
    | "/bookings/me?status=CONFIRMED" => some (.me, { status := some .confirmed })
    | "/bookings/org" => some (.org, {})
    | _ => none
  uuid u := if u.1 = "00000000-0000-4000-8000-000000000001" then 1 else 2
  ttlMs := 600000

/-- The member of `sample`. -/
def member : UserText := ⟨"00000000-0000-4000-8000-000000000001", by decide⟩

/-- The member's bookings. -/
def bookings : ListRequest := ⟨"/bookings/me", member, 100⟩

/-- The member's confirmed bookings. -/
def confirmedBookings : ListRequest := ⟨"/bookings/me?status=CONFIRMED", member, 100⟩

def sampleStart : ControllerState := ⟨(sample 0).db, ∅, 0⟩

/-- The member books the slot of `sample`. -/
def book : Request :=
  .mutate (.create member (some 100) 20) [.inl { id := 30, now := 1, createdAt := 1 }, .inl {}] 1

/-- …and cancels the booking. -/
def cancel : Request :=
  .mutate (.cancel 100 member 30 {}) [.inl { now := 3 }, .inl {}, .inl {}, .inl {}] 3

/-- The booking, as the list shows it. -/
def sampleItem : BookingItem where
  booking := { id := 30, resourceSlotId := 20, userId := 1, rootOrganizationId := 100, createdAt := 1 }
  startsAt := 1000
  endsAt := 2000
  resourceId := 10
  resourceName := "Laboratory"
  pointCost := 0
  ownerOrganizationId := 100

/-- The cancelled booking is what the list without a query has. -/
def listed (s : ControllerState) : Bool :=
  decide (s.clock = 3)
    && decide ((respond sampleServer s bookings 4).toOption.map (·.map (·.booking.status))
      = some [.cancelled])

/-- **The list without a query**, cached before its user cancels the booking in it, and asked for again
after it. -/
theorem lists_current_of_cancel : ∃ s u, (machine sampleServer).Reachable (harmless sampleServer) s
    ∧ u.cache.get 3 bookings.key = some ⟨[sampleItem], bookings⟩
    ∧ step sampleServer u cancel = some s
    ∧ (respond sampleServer s bookings 4).toOption.map (·.map (·.booking.status)) = some [.cancelled]
    ∧ respond sampleServer s bookings 4 = listing sampleServer s.db bookings := by
  have hany : (step sampleServer sampleStart book).any (fun s =>
      (step sampleServer s (.get bookings 2)).any fun u =>
        decide (u.cache.get 3 bookings.key = some ⟨[sampleItem], bookings⟩)
          && (step sampleServer u cancel).any listed) = true := by decide
  obtain ⟨s₁, hbook, hany⟩ := (Option.any_eq_true _ _).mp hany
  obtain ⟨u, hlist, hany⟩ := (Option.any_eq_true _ _).mp hany
  obtain ⟨hcached, hany⟩ := (Bool.and_eq_true _ _ ▸ hany)
  obtain ⟨s, hcancel, hlisted⟩ := (Option.any_eq_true _ _).mp hany
  simp only [listed, Bool.and_eq_true, decide_eq_true_eq] at hlisted
  have hstart : OnlyCached sampleStart bookings := fun _ _ _ h => by cases h
  have hbooked := hstart.mutate hbook
  have hlisting := hbooked.get hlist
  have hrun : (machine sampleServer).Run (harmless sampleServer) sampleStart s :=
    ((Machine.Run.single (l := book) (hstart.harmless_mutate (by decide)) hbook).tail
      (l := .get bookings 2) hbooked.harmless_get hlist).tail (l := cancel)
        (hlisting.harmless_mutate (by decide)) hcancel
  exact ⟨s, u, ⟨sampleStart, rfl, hrun⟩, of_decide_eq_true hcached, hcancel, hlisted.2,
    lists_current ⟨sampleStart, rfl, hrun⟩ (by rw [hlisted.1]; decide)
      (hlisting.mutate hcancel).harmless_get⟩

/-- The cancellation is answered, and the list still shows the booking as confirmed. -/
def stale (t : ControllerState) : Bool :=
  decide (t.db.bookings.rows.map (·.status) = [.cancelled])
    && decide (listing sampleServer t.db confirmedBookings = .ok [])
    && decide (respond sampleServer t confirmedBookings 4 = .ok [sampleItem])

/-- **A list that is asked for again after the booking in it was cancelled**, by the same user. -/
theorem stale_after_cancel : ∃ s t, (machine sampleServer).Reachable Machine.free s
    ∧ step sampleServer s cancel = some t
    ∧ t.db.bookings.rows.map (·.status) = [.cancelled]
    ∧ listing sampleServer t.db confirmedBookings = .ok []
    ∧ respond sampleServer t confirmedBookings 4 = .ok [sampleItem] := by
  obtain ⟨s, hs, hp⟩ := (machine sampleServer).exists_reachable (s := sampleStart)
    (p := fun s => (step sampleServer s cancel).any stale) [book, .get confirmedBookings 2] rfl
    (by decide)
  obtain ⟨t, ht, hstale⟩ := (Option.any_eq_true _ _).mp hp
  simp only [stale, Bool.and_eq_true, decide_eq_true_eq] at hstale
  obtain ⟨⟨hcancelled, hlist⟩, hresponse⟩ := hstale
  exact ⟨s, t, hs, ht, hcancelled, hlist, hresponse⟩

end ResourceHive.Bookings.BookingsController
