import ResourceHive.Bookings.Reevaluation
import ResourceHive.Resources.Service

/-!
# Resources/Withdrawal — the bookings of a resource that is taken out of use

Calls of the booking service and of the two services that edit resources, one after the other.  A
removal, and an edit of the organizations allowed, request a reevaluation; a `MARK_UNAVAILABLE`, and
an edit of the status alone, request none.  In a sequence in which these find no booking to be
affected, the future bookings of a resource are those of entitled users, once the reevaluations
requested for it have run (`legitimate_of_settled`).
-/

namespace ResourceHive.Resources

open Bookings (Resource Directory future affected hasAccess)

/-! ## Legitimate bookings -/

/-- The resource is active, and the user has an approved membership in its owner or in an
organization it allows. -/
def Entitled (d : Directory) (r : Resource) (userId : Uuid) : Prop :=
  r.status = .active ∧ ∃ m ∈ d.memberships, m.userId = userId ∧ m.status = .approved
    ∧ m.organizationId ∈ r.ownerOrganizationId :: r.allowedOrganizations

/-- **Legitimate**: the confirmed bookings of the resource that start in the future are of entitled
users. -/
def Legitimate (db : Bookings.Database) (r : Resource) (now : Timestamp) : Prop :=
  ∀ b ∈ db.bookings, future db r.id now b → Entitled db.directory r b.userId

variable {db db' db'' : Bookings.Database} {r : Resource} {now : Timestamp}

theorem entitled_of_hasAccess {d : Directory} {root : Uuid} {record : Bookings.BookingRecord}
    (h : hasAccess d root record) : Entitled d record.resource record.booking.userId := by
  rw [hasAccess, Bool.and_eq_true, decide_eq_true_eq, List.any_eq_true] at h
  obtain ⟨hactive, m, hm, hmatch⟩ := h
  rw [Bool.and_eq_true, decide_eq_true_eq] at hmatch
  exact ⟨hactive, m, hm, hmatch.1⟩

/-- What is in the future later is in the future now. -/
theorem future_mono {now' : Timestamp} (hle : now ≤ now') {resourceId : Uuid} {b : Bookings.Booking}
    (h : future db resourceId now' b) : future db resourceId now b := by
  simp only [future, Bool.and_eq_true, decide_eq_true_eq, List.any_eq_true] at h ⊢
  obtain ⟨hstatus, s, hs, hid, hres, hlt⟩ := h
  exact ⟨hstatus, s, hs, hid, hres, lt_of_le_of_lt hle hlt⟩

theorem Legitimate.mono {now' : Timestamp} (h : Legitimate db r now) (hle : now ≤ now') :
    Legitimate db r now' := fun b hb hf => h b hb (future_mono hle hf)

theorem status_of_future {resourceId : Uuid} {b : Bookings.Booking}
    (h : future db resourceId now b) : b.status = .confirmed := by
  simp only [future, Bool.and_eq_true, decide_eq_true_eq] at h
  exact h.1

/-! ## What the booking service keeps -/

/-- The columns of a slot that no statement touches. -/
def slotKey (s : Bookings.ResourceSlot) : Uuid × Uuid × Uuid × Timestamp :=
  (s.id, s.resourceId, s.rootOrganizationId, s.startsAt)

/-- **What every statement keeps**: the directory, and those columns. -/
structure Kept (db db' : Bookings.Database) : Prop where
  directory : db'.directory = db.directory
  slots : db'.slots.rows.map slotKey = db.slots.rows.map slotKey

theorem Kept.refl (db : Bookings.Database) : Kept db db := ⟨rfl, rfl⟩

theorem Kept.trans (h : Kept db db') (h' : Kept db' db'') : Kept db db'' :=
  ⟨h'.directory.trans h.directory, h'.slots.trans h.slots⟩

theorem Kept.future (h : Kept db db') (resourceId : Uuid) (now : Timestamp) (b : Bookings.Booking) :
    future db' resourceId now b = future db resourceId now b := by
  have hany (d : Bookings.Database) : (d.slots.rows.any fun s => decide (s.id = b.resourceSlotId
      ∧ s.resourceId = resourceId ∧ now < s.startsAt)) = (d.slots.rows.map slotKey).any fun k =>
        decide (k.1 = b.resourceSlotId ∧ k.2.1 = resourceId ∧ now < k.2.2.2) := by
    rw [List.any_map]
    rfl
  rw [Bookings.future, Bookings.future, hany, hany, h.slots]

theorem Kept.exec {w : Bookings.Write} (h : w.exec db = some db') : Kept db db' := by
  cases w with
  | createBooking b read =>
    obtain ⟨-, -, -, hdb⟩ := Bookings.exec_createBooking h
    rw [hdb]
    exact ⟨rfl, rfl⟩
  | updateBooking id status data =>
    obtain ⟨-, -, hdb⟩ := Bookings.exec_updateBooking h
    rw [hdb]
    exact ⟨rfl, rfl⟩
  | updateSlot id status withdrawnAt =>
    obtain ⟨hupd, hdb⟩ := Bookings.exec_updateSlot h
    refine ⟨by rw [hdb], Table.map_update hupd fun _ => rfl⟩
  | append e =>
    obtain ⟨-, hdb⟩ := Bookings.exec_append h
    rw [hdb]
    exact ⟨rfl, rfl⟩

/-- The keys between the rows survive each statement. -/
theorem rowKeys_exec {w : Bookings.Write} (h : w.exec db = some db') (hkeys : db.RowKeys) :
    db'.RowKeys := by
  have hkept := Kept.exec h
  have hslots : (db'.slots.rows.map fun s => (s.id, s.rootOrganizationId)) =
      db.slots.rows.map fun s => (s.id, s.rootOrganizationId) := by
    have hmap := congrArg (List.map fun k => (k.1, k.2.2.1)) hkept.slots
    rwa [List.map_map, List.map_map] at hmap
  refine ⟨hkept.directory ▸ hkeys.resource_ids, fun s hs => ?_, fun b hb => ?_⟩
  · have hmem : slotKey s ∈ db.slots.rows.map slotKey := hkept.slots ▸ List.mem_map_of_mem hs
    obtain ⟨s₀, hs₀, heq⟩ := List.mem_map.mp hmem
    simp only [slotKey, Prod.mk.injEq] at heq
    rw [hkept.directory, ← heq.2.1, ← heq.2.2.1]
    exact hkeys.slots s₀ hs₀
  · rw [hslots]
    cases w with
    | createBooking n read =>
      obtain ⟨-, -, hins, -⟩ := Bookings.exec_createBooking h
      rcases (Table.mem_insert hins).mp hb with hb | rfl
      · exact hkeys.bookings b hb
      · simp only [Bookings.Write.exec, Option.ite_none_right_eq_some] at h
        exact h.1.2.1
    | updateBooking id status data =>
      obtain ⟨-, hupd, -⟩ := Bookings.exec_updateBooking h
      obtain ⟨b₀, hb₀, rfl⟩ := (Table.mem_update hupd).mp hb
      have hkey := hkeys.bookings b₀ hb₀
      split <;> exact hkey
    | updateSlot id status withdrawnAt =>
      obtain ⟨-, hdb⟩ := Bookings.exec_updateSlot h
      rw [hdb] at hb
      exact hkeys.bookings b hb
    | append e =>
      obtain ⟨-, hdb⟩ := Bookings.exec_append h
      rw [hdb] at hb
      exact hkeys.bookings b hb

theorem kept_replay {ws : List Bookings.Write} (h : Bookings.code.replay ws db = some db')
    (hkeys : db.RowKeys) : Kept db db' ∧ db'.RowKeys := by
  induction ws generalizing db with
  | nil =>
    obtain rfl : db = db' := Option.some.inj h
    exact ⟨.refl db, hkeys⟩
  | cons w ws ih =>
    obtain ⟨db₁, hw, hrest⟩ := Option.bind_eq_some_iff.mp h
    obtain ⟨hkept, hkeys'⟩ := ih hrest (rowKeys_exec hw hkeys)
    exact ⟨(Kept.exec hw).trans hkept, hkeys'⟩

/-! ## A booking call by itself -/

/-- What the transaction of `createBooking` has established of the user of its booking. -/
def Granted (db : Bookings.Database) : Bookings.Point → Prop
  | .createWriting _ _ _ c => ∃ s ∈ db.slots, s.id = c.booking.resourceSlotId
      ∧ ∃ r ∈ db.directory.resources, r.id = s.resourceId
        ∧ Entitled db.directory r c.booking.userId
  | _ => True

theorem granted_next {p p' : Bookings.Point} (h : p.Next db p') : Granted db p' := by
  cases h with
  | created h =>
    obtain ⟨context, hvalid, rfl⟩ := Bookings.creation_of_ok h
    obtain ⟨faults, s, hs, hid, haccess⟩ := hvalid.access
    obtain ⟨r, hr, hrid, hactive, hm⟩ := Bookings.access_of_canAccessResource haccess
    exact ⟨s, hs, hid.trans hvalid.slotId.symm, r, hr, hrid, hactive, hm⟩
  | retried | failed | finished | completedAlready | cancelledByUser | cancelRead
  | cancelledByAdministrator | deductionRead | completeRead | completeAllowed | listed => trivial

/-- A booking that an update has taken out of `CONFIRMED`, or another one. -/
theorem mem_of_future_update {data : Bookings.BookingData} {id : Uuid} {b₀ : Bookings.Booking}
    (h : ∀ y, y ∈ db'.bookings ↔ y = data.apply b₀ ∨ (y ∈ db.bookings ∧ y.id ≠ id))
    (hstatus : data.status ≠ .confirmed) {resourceId : Uuid} {b : Bookings.Booking}
    (hb : b ∈ db'.bookings) (hf : future db' resourceId now b) : b ∈ db.bookings ∧ b.id ≠ id := by
  rcases (h b).mp hb with rfl | hb
  · exact absurd (status_of_future hf) hstatus
  · exact hb

/-- **A commit of the booking service** leaves the future bookings of a resource legitimate. -/
theorem legitimate_commit {p : Bookings.Point} (hkeys : db.RowKeys) (hgranted : Granted db p)
    (hne : Bookings.code.writes p ≠ [])
    (hrep : Bookings.code.replay (Bookings.code.writes p) db = some db')
    (hr : r ∈ db.directory.resources) (h : Legitimate db r now) : Legitimate db' r now := by
  obtain ⟨hkept, -⟩ := kept_replay hrep hkeys
  intro b hb hf
  rw [hkept.directory]
  have hf' : future db r.id now b := by rwa [← hkept.future]
  rcases Bookings.commit_cases hne hrep with
    ⟨_, _, _, c, rfl, hcreated⟩ | ⟨c, _, _, _, _, -, hcancelled⟩ | ⟨_, _, _, -, hcompleted⟩
  · rcases (Table.mem_insert hcreated.bookings).mp hb with hb | rfl
    · exact h b hb hf'
    · obtain ⟨s, hs, hid, r', hr', hrid, hentitled⟩ := hgranted
      rw [Bookings.future_eq hs hid, decide_eq_true_eq] at hf'
      have hsame : r' = r :=
        List.inj_on_of_nodup_map hkeys.resource_ids hr' hr (hrid.trans hf'.2.1)
      exact hsame ▸ hentitled
  · exact h b (mem_of_future_update hcancelled.bookings (by simp [Bookings.Cancellation.data])
      hb hf).1 hf'
  · exact h b (mem_of_future_update hcompleted.bookings (by simp) hb hf).1 hf'

/-- **Any call of the booking service** leaves the future bookings legitimate that were. -/
theorem legitimate_alone {p : Bookings.Point} (hkeys : db.RowKeys)
    (xs : List (Bookings.Reading ⊕ Thrown Bookings.BookingError)) (hp : Bookings.code.entry p = true) :
    let db' := (Bookings.code.alone xs (db, p)).1
    db'.RowKeys ∧ Kept db db' ∧ ∀ r ∈ db.directory.resources, ∀ now, Legitimate db r now →
      Legitimate db' r now := by
  have hgranted : Granted db p := by
    cases p with
    | createWriting => cases hp
    | create | createFailed | cancel | cancelAdministrator | cancelNext | cancelWriting | complete
    | completeAdministrator | completeWriting | reevaluate | returned | failed => trivial
  have key := Code.alone_invariant (C := Bookings.code) (Q := fun _ => True)
    (J := fun db' _ p' => (db'.RowKeys ∧ Kept db db'
      ∧ ∀ r ∈ db.directory.resources, ∀ now, Legitimate db r now → Legitimate db' r now)
      ∧ Granted db' p') (fun hJ _ h => ⟨hJ.1, granted_next (Bookings.next_cases h)⟩)
    (fun {db₁ _ p₁ db₂} hJ hne hrep => ?_) (fun {_ _ p₁} hJ _ => ⟨hJ.1, by cases p₁ <;> trivial⟩)
    xs (db, p) ⟨⟨hkeys, .refl db, fun _ _ _ h => h⟩, hgranted⟩ fun _ _ => trivial
  · exact key.1
  · obtain ⟨⟨hkeys₁, hkept₁, hlegit⟩, hgranted₁⟩ := hJ
    obtain ⟨hkept, hkeys₂⟩ := kept_replay hrep hkeys₁
    refine ⟨⟨hkeys₂, hkept₁.trans hkept, fun r hr now h => ?_⟩, ?_⟩
    · exact legitimate_commit hkeys₁ hgranted₁ hne hrep (hkept₁.directory.symm ▸ hr)
        (hlegit r hr now h)
    · cases p₁ with
      | createWriting | cancelWriting | completeWriting => trivial
      | create | createFailed | cancel | cancelAdministrator | cancelNext | complete
      | completeAdministrator | reevaluate | returned | failed => exact absurd rfl hne

/-! ## A reevaluation that returns -/

/-- **What is left to do**: a future booking of the resource is legitimate, or still in the list. -/
def Left (db : Bookings.Database) (r : Resource) (now : Timestamp)
    (work : List Bookings.Cancellation) : Prop :=
  ∀ b ∈ db.bookings, future db r.id now b → Entitled db.directory r b.userId
    ∨ b.id ∈ work.map (·.booking.id)

/-- The assertion at each point of a reevaluation. -/
def Remaining (db : Bookings.Database) (r : Resource) (now : Timestamp) : Bookings.Point → Prop
  | .reevaluate resourceId root => resourceId = r.id ∧ root = r.rootOrganizationId
  | .cancelNext work => Left db r now work
  | .cancelWriting c _ _ rest => Left db r now (c :: rest)
  | .returned => Legitimate db r now
  | .failed _ => True
  | _ => False

/-- The list that is read has every booking to be cancelled. -/
theorem left_of_listed (hkeys : db.RowKeys) (hr : r ∈ db.directory.resources) {now' : Timestamp}
    (hle : now' ≤ now) {work : List Bookings.Cancellation}
    (h : Bookings.reevaluateBookings db r.rootOrganizationId r.id now' = .ok work) :
    Left db r now work := by
  intro b hb hf
  have hf' := future_mono hle hf
  obtain rfl := Bookings.reevaluateBookings_eq hkeys hr h
  obtain ⟨record, hrecord, -, haffected⟩ := Bookings.listed_of_mem hkeys hr now' hb
  obtain rfl := Bookings.record?_eq_some hrecord
  obtain ⟨hresource, haccess⟩ := haffected hf'
  cases hallowed : hasAccess db.directory r.rootOrganizationId record with
  | true => exact .inl (hresource ▸ entitled_of_hasAccess hallowed)
  | false =>
    rw [hallowed] at haccess
    refine .inr ?_
    rw [List.map_map]
    exact List.mem_map.mpr ⟨_, List.mem_filter.mpr ⟨hb, haccess⟩, rfl⟩

/-- **A reevaluation that returns** leaves the future bookings of its resource legitimate. -/
theorem legitimate_of_returned (hkeys : db.RowKeys) (hr : r ∈ db.directory.resources)
    {xs : List (Bookings.Reading ⊕ Thrown Bookings.BookingError)}
    (hxs : ∀ x ∈ xs, ∀ y, x = .inl y → y.now ≤ now)
    (h : (Bookings.code.alone xs (db, .reevaluate r.id r.rootOrganizationId)).2 = .returned) :
    Legitimate (Bookings.code.alone xs (db, .reevaluate r.id r.rootOrganizationId)).1 r now := by
  have key := Code.alone_invariant (C := Bookings.code)
    (Q := fun x => ∀ y, x = .inl y → y.now ≤ now)
    (J := fun db' _ p' => db'.RowKeys ∧ Kept db db' ∧ Remaining db' r now p')
    (fun {db₁ _ p₁ x p₂} hJ hx hread => ?_) (fun {db₁ _ p₁ db₂} hJ hne hrep => ?_)
    (fun {db₁ _ p₁} hJ _ => ⟨hJ.1, hJ.2.1, ?_⟩)
    xs (db, .reevaluate r.id r.rootOrganizationId) ⟨hkeys, .refl db, rfl, rfl⟩ hxs
  · have hremaining := key.2.2
    rw [h] at hremaining
    exact hremaining
  · obtain ⟨hkeys₁, hkept₁, hremaining⟩ := hJ
    refine ⟨hkeys₁, hkept₁, ?_⟩
    cases p₁ with
    | reevaluate resourceId root =>
      obtain ⟨rfl, rfl⟩ := hremaining
      cases x with
      | inr e => cases hread
      | inl y =>
        obtain rfl := Option.some.inj hread
        cases hwork : Bookings.reevaluateBookings db₁ r.rootOrganizationId r.id y.now with
        | error e => trivial
        | ok work =>
          exact left_of_listed hkeys₁ (hkept₁.directory.symm ▸ hr) (hx y rfl) hwork
    | cancelNext work =>
      cases x with
      | inr e => cases work <;> cases hread
      | inl y =>
        cases work with
        | nil =>
          obtain rfl := Option.some.inj hread
          exact fun b hb hf => (hremaining b hb hf).resolve_right (by simp)
        | cons c rest =>
          obtain rfl := Option.some.inj hread
          exact hremaining
    | cancelWriting | returned | failed => cases x <;> cases hread
    | create | createWriting | createFailed | cancel | cancelAdministrator | complete
    | completeAdministrator | completeWriting => exact hremaining.elim
  · obtain ⟨hkeys₁, hkept₁, hremaining⟩ := hJ
    obtain ⟨hkept, hkeys₂⟩ := kept_replay hrep hkeys₁
    refine ⟨hkeys₂, hkept₁.trans hkept, ?_⟩
    cases p₁ with
    | cancelWriting c refund x rest =>
      obtain ⟨b₀, hcancelled⟩ := Bookings.replay_cancellation hrep
      intro b hb hf
      obtain ⟨hb', hid⟩ := mem_of_future_update hcancelled.bookings
        (by simp [Bookings.Cancellation.data]) hb hf
      rw [hkept.future] at hf
      rw [hkept.directory]
      refine (hremaining b hb' hf).imp_right fun hmem => ?_
      exact (List.mem_cons.mp hmem).resolve_left hid
    | createWriting | completeWriting => exact hremaining.elim
    | create | createFailed | cancel | cancelAdministrator | cancelNext | complete
    | completeAdministrator | reevaluate | returned | failed => exact absurd rfl hne
  · obtain ⟨-, -, hremaining⟩ := hJ
    cases p₁ with
    | returned => exact hremaining
    | reevaluate | cancelNext | cancelWriting | failed => trivial
    | create | createWriting | createFailed | cancel | cancelAdministrator | complete
    | completeAdministrator | completeWriting => exact hremaining.elim

/-! ## A call on a resource by itself -/

/-- The call after its reads. -/
def Point.ready (db : Database) (now : Timestamp) (p : Point) : Point :=
  let read := (p.next db now).getD p
  (read.next db now).getD read

/-- No booking of the resource is confirmed and in the future. -/
def unbooked (db : Bookings.Database) (resourceId : Uuid) (now : Timestamp) : Bool :=
  db.bookings.rows.all fun b => !future db resourceId now b

/-- **The condition**: a call that takes a resource out of use and requests no reevaluation finds no
booking there. -/
def withdrawsUnbooked (db : Database) (now : Timestamp) (p : Point) : Bool :=
  match p.ready db now with
  | .transitioning t =>
    decide (t.resourceAction = .markUnavailable → unbooked db.tables t.resourceId now)
  | .updating resource data shouldReevaluate =>
    decide (shouldReevaluate = false → data.status = some "INACTIVE" →
      unbooked db.tables resource.id now)
  | _ => true

/-- The reevaluations requested in a history. -/
def requests (history : List Event) : List (Uuid × Uuid) :=
  history.filterMap fun
    | .requested resourceId rootOrganizationId => some (resourceId, rootOrganizationId)
    | _ => none

/-- **Settled**: the resources that no reevaluation is outstanding for have legitimate bookings. -/
def Settled (db : Bookings.Database) (now : Timestamp) (pending : List (Uuid × Uuid)) : Prop :=
  ∀ r ∈ db.directory.resources, (r.id, r.rootOrganizationId) ∉ pending → Legitimate db r now

theorem legitimate_of_unbooked (h : unbooked db r.id now) : Legitimate db r now := by
  intro b hb hf
  have := List.all_eq_true.mp h b hb
  rw [hf] at this
  cases this

/-- A resource that was edited so that whoever was entitled to it still is. -/
theorem Legitimate.edited {r' : Resource} {directory : Directory}
    (h : Legitimate db r now) (hid : r'.id = r.id)
    (hentitled : ∀ userId, Entitled db.directory r userId → Entitled directory r' userId) :
    Legitimate { db with directory } r' now := fun b hb hf =>
  hentitled b.userId (h b hb (hid ▸ hf))

/-- **The rows of `resources` after an edit** that keeps their ids and universities, and leaves each
resource legitimate that it was, or has no bookings, or requests a reevaluation. -/
theorem settled_edit {store : Database} {pending : List (Uuid × Uuid)} {f : Resource → Resource}
    (hkeys : store.tables.RowKeys) (hsettled : Settled store.tables now pending)
    (hid : ∀ r, (f r).id = r.id) (hroot : ∀ r, (f r).rootOrganizationId = r.rootOrganizationId)
    (hedit : ∀ r ∈ store.resources, (r.id, r.rootOrganizationId) ∉ pending →
      unbooked store.tables r.id now ∨ ∀ userId, Entitled store.tables.directory r userId →
        Entitled store.tables.directory (f r) userId) :
    (store.withResources (store.resources.map f)).tables.RowKeys
      ∧ Settled (store.withResources (store.resources.map f)).tables now pending := by
  refine ⟨⟨?_, ?_, hkeys.bookings⟩, ?_⟩
  · have hmap : (store.resources.map f).map (·.id) = store.resources.map (·.id) := by
      rw [List.map_map]
      exact List.map_congr_left fun r _ => hid r
    exact hmap.symm ▸ hkeys.resource_ids
  · have hmap : (store.resources.map f).map (fun r => (r.id, r.rootOrganizationId)) =
        store.resources.map fun r => (r.id, r.rootOrganizationId) := by
      rw [List.map_map]
      exact List.map_congr_left fun r _ => by simp [hid, hroot]
    exact hmap.symm ▸ hkeys.slots
  · intro r' hr' hpending
    obtain ⟨r, hr, rfl⟩ := List.mem_map.mp hr'
    rw [hid, hroot] at hpending
    rcases hedit r hr hpending with hnone | hentitled
    · exact legitimate_of_unbooked (r := f r) ((hid r).symm ▸ hnone)
    · exact (hsettled r hr hpending).edited (hid r) fun userId h => hentitled userId h

/-- The same transition at another time. -/
theorem transition_now {record : DisputeRecord} {dto : UpdateDisputeDto} {user : AuthenticatedUser}
    {now : Timestamp} {t : Transition} (h : transition record dto user now = .ok t)
    (now' : Timestamp) : transition record dto user now' = .ok { t with now := now' } := by
  unfold transition at h ⊢
  dsimp only at h ⊢
  split at h
  · cases h
  · next hallowed =>
    split at h
    · cases h
    · next hnotes =>
      obtain rfl := Except.ok.inj h
      rw [if_neg hallowed, if_neg hnotes]

/-- **What is known of a call by itself**: until it commits nothing has happened, and it is on its
way to the point its reads lead to. -/
def Underway (store : Database) (now : Timestamp) (pending : List (Uuid × Uuid)) (p : Point)
    (store' : Database) (history : List Event) : Point → Prop
  | .transition disputeId dto user =>
    store' = store ∧ history = [] ∧ p = .transition disputeId dto user
  | .update organizationId resourceId dto =>
    store' = store ∧ history = [] ∧ p = .update organizationId resourceId dto
  | .remove organizationId resourceId =>
    store' = store ∧ history = [] ∧ p = .remove organizationId resourceId
  | .transitionManage record dto user => store' = store ∧ history = []
    ∧ p.ready store now = ((Point.transitionManage record dto user).next store now).getD .returned
  | .transitioning t => store' = store ∧ history = []
    ∧ p.ready store now = .transitioning { t with now := now }
  | .updating resource data shouldReevaluate => store' = store ∧ history = []
    ∧ p.ready store now = .updating resource data shouldReevaluate
    ∧ resource ∈ store.resources ∧ (shouldReevaluate = false → data.allowedOrganizations = none)
  | .returned | .failed _ =>
    store'.tables.RowKeys ∧ Settled store'.tables now (pending ++ requests history)

variable {store : Database} {pending : List (Uuid × Uuid)} {p : Point}

/-- The reads of a call lead where it is known to be going. -/
theorem underway_read (hkeys : store.tables.RowKeys) (hsettled : Settled store.tables now pending)
    {store' : Database} {history : List Event} {p₁ p₂ : Point} {x : Timestamp}
    (h : Underway store now pending p store' history p₁) (hread : p₁.next store' x = some p₂) :
    Underway store now pending p store' history p₂ := by
  have hdone : store.tables.RowKeys ∧ Settled store.tables now (pending ++ requests []) :=
    ⟨hkeys, by rwa [requests, List.filterMap_nil, List.append_nil]⟩
  cases p₁ with
  | transition disputeId dto user =>
    obtain ⟨rfl, rfl, rfl⟩ := h
    obtain rfl := Option.some.inj hread
    rcases hfound : findById store' user disputeId with e | _ | record
    · exact hdone
    · exact hdone
    · refine ⟨rfl, rfl, ?_⟩
      simp only [Point.ready, Point.next, hfound, Option.getD_some]
  | transitionManage record dto user =>
    obtain ⟨rfl, rfl, hready⟩ := h
    obtain rfl := Option.some.inj hread
    by_cases hmanage : canManage store'.tables.directory record.resource.ownerOrganizationId user
    · rw [if_neg (not_not.mpr hmanage)]
      cases ht : transition record dto user x with
      | error e => exact hdone
      | ok t =>
        refine ⟨rfl, rfl, ?_⟩
        simp only [hready, Point.next, Option.getD_some, hmanage, not_true, if_false,
          transition_now ht now]
    · rw [if_pos hmanage]
      exact hdone
  | update organizationId resourceId dto =>
    obtain ⟨rfl, rfl, rfl⟩ := h
    obtain rfl := Option.some.inj hread
    cases hfound : ownResource? store' organizationId resourceId with
    | none => exact hdone
    | some resource =>
      refine ⟨rfl, rfl, ?_, ?_, ?_⟩
      · simp only [Point.ready, Point.next, hfound, Option.getD_some, Option.getD_none]
      · exact List.mem_of_find?_eq_some (Option.filter_eq_some_iff.mp hfound).1
      · intro hnone
        simpa [UpdateResourceDto.data] using hnone
  | remove organizationId resourceId =>
    obtain ⟨rfl, rfl, rfl⟩ := h
    obtain rfl := Option.some.inj hread
    cases hfound : ownResource? store' organizationId resourceId with
    | none => exact hdone
    | some resource =>
      refine ⟨rfl, rfl, ?_, ?_, nofun⟩
      · simp only [Point.ready, Point.next, hfound, Option.getD_some, Option.getD_none]
      · exact List.mem_of_find?_eq_some (Option.filter_eq_some_iff.mp hfound).1
  | transitioning | updating | returned | failed => cases hread

theorem Settled.mono {db : Bookings.Database} {pending' : List (Uuid × Uuid)}
    (h : Settled db now pending) (hsub : ∀ k ∈ pending, k ∈ pending') : Settled db now pending' :=
  fun r hr hnot => h r hr fun hmem => hnot (hsub _ hmem)

theorem resourceStatus?_eq_inactive {status : String} (h : resourceStatus? status = some .inactive) :
    status = "INACTIVE" := by
  unfold resourceStatus? at h
  split at h <;> simp_all

/-- Whom an edit of anything but the organizations allowed takes an entitlement from: nobody, unless
it makes the resource inactive. -/
theorem entitled_apply {data : ResourceData} {d : Directory}
    (hallowed : data.allowedOrganizations = none) (hstatus : data.status ≠ some "INACTIVE")
    {userId : Uuid} (h : Entitled d r userId) : Entitled d (data.apply r) userId := by
  refine ⟨?_, ?_⟩
  · change (data.status.bind resourceStatus?).getD r.status = .active
    cases hparsed : data.status.bind resourceStatus? with
    | none => exact h.1
    | some status =>
      obtain ⟨text, htext, hparsed⟩ := Option.bind_eq_some_iff.mp hparsed
      cases status with
      | active => rfl
      | inactive => exact absurd (resourceStatus?_eq_inactive hparsed ▸ htext) hstatus
  · obtain ⟨m, hm, huser, happroved, hmem⟩ := h.2
    refine ⟨m, hm, huser, happroved, ?_⟩
    rw [ResourceData.apply, hallowed]
    exact hmem

/-- A transition that commits. -/
theorem settled_transition (hkeys : store.tables.RowKeys) (hsettled : Settled store.tables now pending)
    {t : Transition} {store' : Database} (hrep : code.replay t.writes store = some store')
    (hfree : t.resourceAction = .markUnavailable → unbooked store.tables t.resourceId now) :
    store'.tables.RowKeys ∧ Settled store'.tables now pending := by
  have htables := replay_transition hrep
  split at htables
  · next haction =>
    rw [htables.2]
    refine settled_edit hkeys hsettled (fun r => by split <;> rfl) (fun r => by split <;> rfl)
      fun r hr _ => ?_
    by_cases hid : r.id = t.resourceId
    · exact .inl (hid ▸ hfree haction)
    · exact .inr fun userId h => by rwa [if_neg hid]
  · rw [htables.2]
    refine settled_edit hkeys hsettled (fun r => by split <;> rfl) (fun r => by split <;> rfl)
      fun r hr _ => .inr fun userId h => ?_
    split
    · exact ⟨rfl, h.2⟩
    · exact h
  · rw [htables]
    exact ⟨hkeys, hsettled⟩

/-- An edit or a removal that commits. -/
theorem settled_updating (hkeys : store.tables.RowKeys) (hsettled : Settled store.tables now pending)
    {resource : Resource} (hresource : resource ∈ store.resources) {data : ResourceData}
    {shouldReevaluate : Bool} {store' : Database}
    (hrep : code.replay [.updateResource resource.id data] store = some store')
    (hallowed : shouldReevaluate = false → data.allowedOrganizations = none)
    (hfree : shouldReevaluate = false → data.status = some "INACTIVE" →
      unbooked store.tables resource.id now) :
    store'.tables.RowKeys ∧ Settled store'.tables now (pending ++ requests
      (if shouldReevaluate then [.requested resource.id resource.rootOrganizationId] else [])) := by
  obtain ⟨-, -, rfl⟩ := replay_updating hrep
  refine settled_edit hkeys (hsettled.mono fun k hk => List.mem_append_left _ hk)
    (fun r => by split <;> rfl) (fun r => by split <;> rfl) fun r hr hpending => ?_
  by_cases hid : r.id = resource.id
  · cases shouldReevaluate with
    | true =>
      obtain rfl := List.inj_on_of_nodup_map hkeys.resource_ids hr hresource hid
      exact absurd (List.mem_append_right _ (by simp [requests])) hpending
    | false =>
      by_cases hinactive : data.status = some "INACTIVE"
      · exact .inl (hid ▸ hfree rfl hinactive)
      · refine .inr fun userId h => ?_
        rw [if_pos hid]
        exact entitled_apply (hallowed rfl) hinactive h
  · exact .inr fun userId h => by rwa [if_neg hid]

theorem underway_commit (hkeys : store.tables.RowKeys)
    (hsettled : Settled store.tables now pending) (hfree : withdrawsUnbooked store now p)
    {store' store'' : Database} {history : List Event} {p₁ : Point}
    (h : Underway store now pending p store' history p₁) (hne : code.writes p₁ ≠ [])
    (hrep : code.replay (code.writes p₁) store' = some store'') :
    Underway store now pending p store'' (history ++ code.emits p₁) (code.committed p₁) := by
  cases p₁ with
  | transitioning t =>
    obtain ⟨rfl, rfl, hready⟩ := h
    simp only [withdrawsUnbooked, hready, decide_eq_true_eq] at hfree
    have hrequests : requests ([] ++ t.emits) = [] := by
      rw [List.nil_append, Transition.emits]
      split <;> rfl
    obtain ⟨hkeys', hsettled'⟩ := settled_transition hkeys hsettled hrep hfree
    refine ⟨hkeys', ?_⟩
    change Settled _ now (pending ++ requests ([] ++ t.emits))
    rwa [hrequests, List.append_nil]
  | updating resource data shouldReevaluate =>
    obtain ⟨rfl, rfl, hready, hresource, hallowed⟩ := h
    simp only [withdrawsUnbooked, hready, decide_eq_true_eq] at hfree
    exact settled_updating hkeys hsettled hresource hrep hallowed hfree
  | transition | transitionManage | update | remove | returned | failed => exact absurd rfl hne

theorem underway_rolledBack (hkeys : store.tables.RowKeys)
    (hsettled : Settled store.tables now pending) {store' : Database} {history : List Event}
    {p₁ : Point} (h : Underway store now pending p store' history p₁) :
    Underway store now pending p store' history (code.rolledBack p₁) := by
  have hdone : store.tables.RowKeys ∧ Settled store.tables now (pending ++ requests []) :=
    ⟨hkeys, by rwa [requests, List.filterMap_nil, List.append_nil]⟩
  cases p₁ with
  | returned | failed => exact h
  | transition | transitionManage | transitioning | update | remove | updating =>
    obtain ⟨rfl, rfl, -⟩ := h
    exact hdone

/-- **Any call on a resource that meets the condition**, once it is over. -/
theorem settled_alone (hkeys : store.tables.RowKeys) (hsettled : Settled store.tables now pending)
    (hfree : withdrawsUnbooked store now p) (hp : code.entry p = true) (xs : List Timestamp)
    (hover : (code.alone xs (store, p)).2 = .returned
      ∨ ∃ e, (code.alone xs (store, p)).2 = .failed e) :
    (code.alone xs (store, p)).1.tables.RowKeys ∧ Settled (code.alone xs (store, p)).1.tables now
      (pending ++ requests (code.emitted xs (store, p))) := by
  have hstart : Underway store now pending p store [] p := by
    cases p with
    | transition | update | remove => exact ⟨rfl, rfl, rfl⟩
    | transitionManage | transitioning | updating | returned | failed => cases hp
  have key := Code.alone_invariant (C := code) (Q := fun _ => True)
    (J := fun store' history p₁ => Underway store now pending p store' history p₁)
    (fun h _ hread => underway_read hkeys hsettled h hread)
    (fun h hne hrep => underway_commit hkeys hsettled hfree h hne hrep)
    (fun h _ => underway_rolledBack hkeys hsettled h) xs (store, p) hstart fun _ _ => trivial
  rcases hover with hover | ⟨e, hover⟩ <;> rw [hover] at key <;> exact key

/-! ## Sequences of calls -/

/-- Between two calls: the database, the time, and the reevaluations that were requested and have not
run without failing since. -/
structure World where
  db : Database
  now : Timestamp
  pending : List (Uuid × Uuid)

/-- A call from its beginning to its end: what its steps take from outside, and when it ends. -/
inductive Op
  | booking (p : Bookings.Point) (xs : List (Bookings.Reading ⊕ Thrown Bookings.BookingError))
      (now : Timestamp)
  | resource (p : Point) (xs : List Timestamp) (now : Timestamp)

/-- The call has come to its end. -/
def bookingOver : Bookings.Point → Bool
  | .returned | .failed _ => true
  | _ => false

def Point.over : Point → Bool
  | .returned | .failed _ => true
  | _ => false

/-- What is pending after a booking call: a reevaluation that returns is done. -/
def afterCall (pending : List (Uuid × Uuid)) : Bookings.Point → Bookings.Point → List (Uuid × Uuid)
  | .reevaluate resourceId root, .returned => pending.filter (· ≠ (resourceId, root))
  | _, _ => pending

/-- **One call**, which nothing overlaps. -/
def World.step (w : World) : Op → Option World
  | .booking p xs now =>
    let s := Bookings.code.alone xs (w.db.tables, p)
    if Bookings.code.entry p ∧ w.now ≤ now
        ∧ (xs.all fun x => Sum.elim (fun y => decide (y.now ≤ now)) (fun _ => true) x)
        ∧ bookingOver s.2 then
      some { db := { w.db with tables := s.1 }, now, pending := afterCall w.pending p s.2 }
    else none
  | .resource p xs now =>
    let s := code.alone xs (w.db, p)
    if code.entry p ∧ w.now ≤ now ∧ s.2.over then
      some { db := s.1, now, pending := w.pending ++ requests (code.emitted xs (w.db, p)) }
    else none

/-- The condition, of a call. -/
def Op.withdrawsUnbooked (w : World) : Op → Bool
  | .booking _ _ _ => true
  | .resource p _ now => Resources.withdrawsUnbooked w.db now p

/-- The sequences of calls, from a database whose future bookings are legitimate. -/
def sequence : Machine World Op where
  init w := w.db.tables.RowKeys ∧ Settled w.db.tables w.now [] ∧ w.pending = []
  step := World.step

/-- After a booking call. -/
theorem settled_booking {w w' : World} {p : Bookings.Point}
    {xs : List (Bookings.Reading ⊕ Thrown Bookings.BookingError)} (hkeys : w.db.tables.RowKeys)
    (hsettled : Settled w.db.tables w.now w.pending)
    (hstep : w.step (.booking p xs now) = some w') :
    w'.db.tables.RowKeys ∧ Settled w'.db.tables w'.now w'.pending := by
  simp only [World.step, Option.ite_none_right_eq_some, Option.some.injEq] at hstep
  obtain ⟨⟨hp, hle, hxs, -⟩, rfl⟩ := hstep
  obtain ⟨hkeys', hkept, hlegit⟩ := legitimate_alone hkeys xs hp
  refine ⟨hkeys', fun r hr hpending => ?_⟩
  have hr' : r ∈ w.db.tables.directory.resources := hkept.directory ▸ hr
  by_cases hwas : (r.id, r.rootOrganizationId) ∈ w.pending
  · -- Only the reevaluation of this very resource takes it off the list.
    simp only [afterCall] at hpending
    split at hpending
    · next resourceId root hreturned =>
      simp only [List.mem_filter, hwas, true_and, decide_not, Bool.not_eq_true',
        decide_eq_false_iff_not, not_not, Prod.mk.injEq] at hpending
      obtain ⟨rfl, rfl⟩ := hpending
      refine legitimate_of_returned hkeys hr' (fun x hx y hxy => ?_) hreturned
      have := List.all_eq_true.mp hxs x hx
      rw [hxy] at this
      exact of_decide_eq_true this
    · exact absurd hwas hpending
  · exact hlegit r hr' now ((hsettled r hr' hwas).mono hle)

/-- After a call on a resource. -/
theorem settled_resource {w w' : World} {xs : List Timestamp} (hkeys : w.db.tables.RowKeys)
    (hsettled : Settled w.db.tables w.now w.pending) (hfree : withdrawsUnbooked w.db now p)
    (hstep : w.step (.resource p xs now) = some w') :
    w'.db.tables.RowKeys ∧ Settled w'.db.tables w'.now w'.pending := by
  simp only [World.step, Option.ite_none_right_eq_some, Option.some.injEq] at hstep
  obtain ⟨⟨hp, hle, hover⟩, rfl⟩ := hstep
  refine settled_alone hkeys (fun r hr hnot => (hsettled r hr hnot).mono hle) hfree hp xs ?_
  unfold Point.over at hover
  split at hover
  · next h => exact .inl h
  · next e h => exact .inr ⟨e, h⟩
  · cases hover

/-- **Withdrawing a resource.**  In every sequence of calls in which no edit of the status alone and
no `MARK_UNAVAILABLE` finds a future booking of the resource it takes out of use: once the
reevaluations requested for a resource have run without failing, each confirmed booking of it that
starts in the future is of a user with an approved membership in its owner or in an organization it
allows, and the resource is active. -/
theorem legitimate_of_settled {w : World}
    (hw : sequence.Reachable (fun w op => op.withdrawsUnbooked w = true) w) :
    ∀ r ∈ w.db.resources, (r.id, r.rootOrganizationId) ∉ w.pending → ∀ b ∈ w.db.tables.bookings,
      future w.db.tables r.id w.now b → Entitled w.db.tables.directory r b.userId := by
  have key : w.db.tables.RowKeys ∧ Settled w.db.tables w.now w.pending := by
    refine hw.invariant (I := fun w => w.db.tables.RowKeys ∧ Settled w.db.tables w.now w.pending)
      (fun {w} ⟨hkeys, hsettled, hpending⟩ => ⟨hkeys, hpending ▸ hsettled⟩)
      fun {w op w'} ⟨hkeys, hsettled⟩ hok hstep => ?_
    cases op with
    | booking p xs now => exact settled_booking hkeys hsettled hstep
    | resource p xs now => exact settled_resource hkeys hsettled hok hstep
  exact key.2

/-! ## One resource -/

/-- A laboratory of a university with one member, who administers it, has had a booking of it, with a
dispute over that, and has another one in the future. -/
def laboratory : World where
  db :=
    { tables :=
        { directory :=
            { users := [⟨1, .active⟩]
              organizations := [⟨100, 100, .active⟩]
              memberships := [⟨1, 100, .admin, .approved⟩]
              resources := [⟨10, "Laboratory", 100, 100, .active, 0, 0, [], none⟩] }
          slots := ⟨[{ id := 20, resourceId := 10, rootOrganizationId := 100,
                       startsAt := 10, endsAt := 20 },
                     { id := 21, resourceId := 10, rootOrganizationId := 100,
                       startsAt := 1000, endsAt := 2000 }], by decide⟩
          bookings := ⟨[{ id := 30, resourceSlotId := 20, userId := 1, rootOrganizationId := 100,
                          status := .completed, createdAt := 0, completedAt := some 20 },
                        { id := 31, resourceSlotId := 21, userId := 1, rootOrganizationId := 100,
                          createdAt := 0 }], by decide⟩
          ledger := .empty }
      disputes := ⟨[{ id := 50, bookingId := 30, submittedByUserId := 1 }], by decide⟩ }
  now := 100
  pending := []

theorem laboratory_init : sequence.init laboratory := by
  have hslots : ∀ s ∈ laboratory.db.tables.slots.rows, (s.resourceId, s.rootOrganizationId)
      ∈ laboratory.db.resources.map fun r => (r.id, r.rootOrganizationId) := by decide
  have hbookings : ∀ b ∈ laboratory.db.tables.bookings.rows,
      (b.resourceSlotId, b.rootOrganizationId)
        ∈ laboratory.db.tables.slots.rows.map fun s => (s.id, s.rootOrganizationId) := by decide
  have husers : ∀ b ∈ laboratory.db.tables.bookings.rows, b.userId = 1 := by decide
  refine ⟨⟨List.nodup_singleton _, hslots, hbookings⟩, fun r hr _ b hb _ => ?_, rfl⟩
  obtain rfl := List.mem_singleton.mp hr
  refine ⟨rfl, ⟨1, 100, .admin, .approved⟩, List.mem_singleton_self _, (husers b hb).symm, rfl, ?_⟩
  exact List.mem_cons_self ..

/-- The laboratory is removed, and the reevaluation that was requested cancels the booking. -/
theorem legitimate_of_removed : ∃ w,
    sequence.Reachable (fun w op => op.withdrawsUnbooked w = true) w ∧ w.pending = []
      ∧ w.db.tables.bookings.rows.map (·.status) = [.completed, .cancelled]
      ∧ ∀ r ∈ w.db.resources, ∀ b ∈ w.db.tables.bookings, future w.db.tables r.id w.now b →
        Entitled w.db.tables.directory r b.userId := by
  obtain ⟨w, hw, hp⟩ := sequence.exists_reachable_guarded (s := laboratory)
    (p := fun w op => op.withdrawsUnbooked w)
    (q := fun w => decide (w.pending = [])
      && decide (w.db.tables.bookings.rows.map (·.status) = [.completed, .cancelled]))
    [.resource (.remove 100 10) [100, 100] 100,
      .booking (.reevaluate 10 100)
        [.inl { now := 101 }, .inl { now := 101 }, .inl { now := 101 }, .inl { now := 101 }] 101]
    laboratory_init (by decide)
  simp only [Bool.and_eq_true, decide_eq_true_eq] at hp
  exact ⟨w, hw, hp.1, hp.2, fun r hr => legitimate_of_settled hw r hr (by simp [hp.1])⟩

/-- Nothing is pending, and a resource is inactive with a confirmed booking in the future. -/
def bookedInactive (w : World) : Bool :=
  decide (w.pending = []) && w.db.resources.any fun r => decide (r.status = .inactive)
    && w.db.tables.bookings.rows.any fun b => future w.db.tables r.id w.now b

theorem not_entitled_of_bookedInactive {w : World} (h : bookedInactive w) : w.pending = []
    ∧ ∃ r ∈ w.db.resources, ∃ b ∈ w.db.tables.bookings, future w.db.tables r.id w.now b
      ∧ ¬ Entitled w.db.tables.directory r b.userId := by
  simp only [bookedInactive, Bool.and_eq_true, decide_eq_true_eq, List.any_eq_true] at h
  obtain ⟨hpending, r, hr, hinactive, b, hb, hf⟩ := h
  exact ⟨hpending, r, hr, b, hb, hf, fun hentitled => nomatch hinactive.symm.trans hentitled.1⟩

/-- **An edit to `INACTIVE`, and a `MARK_UNAVAILABLE`, leave the booking confirmed**, and no
reevaluation is requested. -/
theorem booked_of_edit_or_mark : sequence.init laboratory
    ∧ ∀ op ∈ [Op.resource (.update 100 10 { status := some "INACTIVE" }) [100, 100] 100,
        Op.resource (.transition 50 { resourceAction := some .markUnavailable } ⟨1, some 100⟩)
          [100, 100, 100] 100],
      ∃ w, laboratory.step op = some w ∧ w.pending = []
        ∧ ∃ r ∈ w.db.resources, ∃ b ∈ w.db.tables.bookings, future w.db.tables r.id w.now b
          ∧ ¬ Entitled w.db.tables.directory r b.userId := by
  refine ⟨laboratory_init, fun op hop => ?_⟩
  have hbooked : (laboratory.step op).any bookedInactive := by
    rcases List.mem_pair.mp hop with rfl | rfl <;> decide
  obtain ⟨w, hw, h⟩ := (Option.any_eq_true _ _).mp hbooked
  exact ⟨w, hw, not_entitled_of_bookedInactive h⟩

end ResourceHive.Resources
