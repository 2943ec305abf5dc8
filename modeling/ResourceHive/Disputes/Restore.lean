import ResourceHive.Disputes.History
import ResourceHive.Resources.Holds

/-!
# Disputes/Restore — what a `RESTORE` brings back

`MARK_UNAVAILABLE` overwrites the status and the link of a resource, and `RESTORE` writes `ACTIVE`
and no link.  Both calls read the dispute with its submitter, whom the row policy of `users` shows
only as long as they have a membership in the university; a call that does not see them fails.  If
they are shown, the two calls, one after the other, succeed, and what they leave does not depend on
what was there: the pair is undone exactly if the resource was active and linked to no dispute
(`restore_undoes_iff`).
-/

namespace ResourceHive.Disputes

open Bookings (Resource ResourceStatus Directory)
open Resources (BookingDispute DisputeRecord UpdateDisputeDto AuthenticatedUser Transition dispute?
  findById showsSubmitter canManage withdrawn restored linked)

variable {db db' : Database} {id : Uuid} {dto : UpdateDisputeDto} {user : AuthenticatedUser}
  {x : Reading} {record : DisputeRecord} {t : Transition} {event : Option BookingDisputeEvent}

/-! ## A call by itself -/

/-- **`transition`**, with nothing in between: its two reads and its transaction. -/
def transitionAlone (db : Database) (id : Uuid) (dto : UpdateDisputeDto) (user : AuthenticatedUser)
    (x : Reading) : Database × Point :=
  code.alone [x, x, x] (db, .transition id dto user)

/-- **The call is permitted**: the dispute is there, the user may manage it, and the guards of status
and notes let the request through. -/
structure Permitted (db : Database) (id : Uuid) (dto : UpdateDisputeDto) (user : AuthenticatedUser)
    (now : Timestamp) (record : DisputeRecord) (t : Transition) : Prop where
  found : dispute? db.toDatabase user id = some record
  manages : canManage db.tables.directory record.resource.ownerOrganizationId user = true
  guards : Resources.transition record dto user now = .ok t

/-- `findById` of a call that is permitted. -/
theorem Permitted.findById_eq (h : Permitted db id dto user x.now record t) :
    findById db.toDatabase user id =
      if showsSubmitter db.tables.directory user record.dispute then .ok (some record)
      else .error .other := by
  simp only [findById, h.found]

theorem Permitted.alone_eq (h : Permitted db id dto user x.now record t)
    (hshown : showsSubmitter db.tables.directory user record.dispute = true)
    (hrep : code.replay (transitionWrites t (transitionEvent record dto user x.eventId)) db
      = some db') : transitionAlone db id dto user x = (db', .returned) := by
  have hfind : Point.next db (.transition id dto user) x
      = some (.transitionManage record dto user) := by
    simp only [Point.next, h.findById_eq, hshown, if_true]
  have hmanage : Point.next db (.transitionManage record dto user) x
      = some (.transitioning t (transitionEvent record dto user x.eventId)) := by
    simp [Point.next, h.manages, h.guards]
  have hne : code.writes (.transitioning t (transitionEvent record dto user x.eventId)) ≠ [] := by
    simp [code, transitionWrites, Transition.writes]
  rw [transitionAlone, Code.alone_cons, Code.solo_read rfl hfind, Code.alone_cons,
    Code.solo_read rfl hmanage, Code.alone_cons, Code.solo_commit hne hrep]
  rfl

/-- **A call that is not shown the submitter fails**, and changes nothing. -/
theorem Permitted.hidden (h : Permitted db id dto user x.now record t)
    (hhidden : showsSubmitter db.tables.directory user record.dispute = false) :
    transitionAlone db id dto user x = (db, .failed none) := by
  have hfind : Point.next db (.transition id dto user) x = some (.failed none) := by
    simp only [Point.next, h.findById_eq, hhidden, Bool.false_eq_true, if_false]
  rw [transitionAlone, Code.alone_cons, Code.solo_read rfl hfind]
  exact Code.alone_over rfl (fun _ => rfl) _

/-! ## What the guards say -/

theorem id_of_resource? {d : Directory} {resourceId : Uuid} {r : Resource}
    (h : d.resource? resourceId = some r) : r.id = resourceId := by
  simpa using List.find?_some h

/-- The resource of a permitted call, looked up by its own id. -/
theorem Permitted.resource? (h : Permitted db id dto user x.now record t) :
    db.tables.directory.resource? record.resource.id = some record.resource := by
  obtain ⟨-, _, _, -, -, -, hresource⟩ := Resources.dispute?_eq_some h.found
  rwa [id_of_resource? hresource]

/-- **What a permitted call writes.** -/
structure Writes (record : DisputeRecord) (dto : UpdateDisputeDto) (user : AuthenticatedUser)
    (t : Transition) : Prop where
  reviewer : ⟨t.reviewerUserId, t.rootOrganizationId⟩ = user
  disputeId : t.disputeId = record.dispute.id
  expectedStatus : t.expectedStatus = record.dispute.status
  resourceId : t.resourceId = record.resource.id
  resourceAction : t.resourceAction = dto.resourceAction.getD .none
  checks : record.dispute.Checks → (moved t record.dispute).Checks

theorem writes_of_transition {now : Timestamp}
    (h : Resources.transition record dto user now = .ok t) : Writes record dto user t := by
  simp only [Resources.transition] at h
  split_ifs at h with hallowed hnotes
  obtain rfl := Except.ok.inj h
  refine ⟨rfl, rfl, rfl, rfl, rfl, fun hchecks => ?_⟩
  cases hstatus : dto.status with
  | none =>
    -- the status stays, and with it the time it was reached
    rcases hchecks with ⟨hterminal, hresolved, -⟩ | ⟨hterminal, hresolved⟩
    · exact .inl ⟨by simpa [moved] using hterminal, by simpa [moved] using hresolved, rfl⟩
    · exact .inr ⟨by simpa [moved] using hterminal, by simpa [moved] using hresolved⟩
  | some status =>
    simp only [hstatus, Option.any_some, decide_eq_true_eq, not_not] at hallowed
    have hopen : ¬ record.dispute.status.terminal := fun hclosed => by
      rw [allowedTransitions_eq_nil hclosed] at hallowed
      cases hallowed
    have hunresolved : record.dispute.resolvedAt = none := by
      rcases hchecks with ⟨hterminal, -⟩ | ⟨-, hresolved⟩
      · exact absurd hterminal hopen
      · simpa using hresolved
    by_cases hterminal : status.terminal
    · exact .inl ⟨by simpa [moved] using hterminal, by simp [moved, hterminal], rfl⟩
    · exact .inr ⟨by simpa [moved] using hterminal, by simp [moved, hterminal, hunresolved]⟩

/-- The user of a permitted call is there. -/
theorem Permitted.user_isSome (h : Permitted db id dto user x.now record t) :
    (db.tables.directory.user? user.userId).isSome := by
  have hmanages := h.manages
  simp only [canManage, Option.any_eq_true, List.any_eq_true, Bool.and_eq_true,
    decide_eq_true_eq] at hmanages
  obtain ⟨root, -, m, -, ⟨⟨hm, -⟩, u, hu, -⟩, -⟩ := hmanages
  rw [← hm, hu]
  rfl

/-! ## The two transactions -/

/-- The resource action goes through, and what it makes of each resource. -/
structure Acts (db : Database) (t : Transition) (f : Resource → Resource) : Prop where
  id : ∀ r, (f r).id = r.id
  replay : ∀ store : Resources.Database, store.tables = db.tables →
    (∃ d ∈ store.disputes, d.id = t.disputeId) →
      Resources.code.replay t.applyResourceAction store
        = some (store.withResources (store.resources.map f))

/-- `MARK_UNAVAILABLE`, of one resource. -/
def mark (resourceId disputeId : Uuid) (r : Resource) : Resource :=
  if r.id = resourceId then withdrawn disputeId r else r

/-- `RESTORE`, of a resource linked to the dispute. -/
def unmark (resourceId disputeId : Uuid) (r : Resource) : Resource :=
  if linked resourceId disputeId r then restored r else r

@[simp] theorem id_mark (resourceId disputeId : Uuid) (r : Resource) :
    (mark resourceId disputeId r).id = r.id := by
  unfold mark
  split <;> rfl

@[simp] theorem id_unmark (resourceId disputeId : Uuid) (r : Resource) :
    (unmark resourceId disputeId r).id = r.id := by
  unfold unmark
  split <;> rfl

/-- A resource can be marked by a dispute that is not linked to any. -/
theorem acts_mark (haction : t.resourceAction = .markUnavailable)
    (hresource : ∃ r ∈ db.resources, r.id = t.resourceId)
    (hlink : ∀ r ∈ db.resources, r.unavailableDisputeId ≠ some t.disputeId) :
    Acts db t (mark t.resourceId t.disputeId) := by
  refine ⟨id_mark _ _, fun store htables hdispute => ?_⟩
  have hresources : store.resources = db.resources := congrArg (·.directory.resources) htables
  have hguard : store.resources.any (·.id = t.resourceId)
      ∧ store.disputes.rows.any (·.id = t.disputeId)
      ∧ store.resources.all (fun r => r.id = t.resourceId
          ∨ r.unavailableDisputeId ≠ some t.disputeId) := by
    rw [hresources]
    obtain ⟨d, hd, hid⟩ := hdispute
    exact ⟨by simpa using hresource, List.any_eq_true.mpr ⟨d, hd, decide_eq_true hid⟩,
      List.all_eq_true.mpr fun r hr => decide_eq_true (.inr (hlink r hr))⟩
  rw [Transition.applyResourceAction, haction]
  change (Resources.Write.exec (.markUnavailable _ _) store).bind _ = _
  rw [Resources.Write.exec, if_pos hguard]
  rfl

/-- A resource that is linked to the dispute can be restored. -/
theorem acts_unmark (haction : t.resourceAction = .restore)
    (hlinked : ∃ r ∈ db.resources, linked t.resourceId t.disputeId r) :
    Acts db t (unmark t.resourceId t.disputeId) := by
  refine ⟨id_unmark _ _, fun store htables _ => ?_⟩
  have hresources : store.resources = db.resources := congrArg (·.directory.resources) htables
  have hguard : store.resources.any (linked t.resourceId t.disputeId) := by
    rw [hresources]
    exact List.any_eq_true.mpr hlinked
  rw [Transition.applyResourceAction, haction]
  change (Resources.Write.exec (.restore _ _) store).bind _ = _
  rw [Resources.Write.exec, if_pos hguard]
  rfl

/-- The statements of `applyTransition` leave the events alone. -/
theorem replay_map_apply (ws : List Resources.Write) (db : Database) :
    code.replay (ws.map .apply) db =
      (Resources.code.replay ws db.toDatabase).map fun store => { db with toDatabase := store } := by
  induction ws generalizing db with
  | nil => rfl
  | cons w ws ih =>
    rw [List.map_cons, Code.replay_cons, Code.replay_cons]
    change ((w.exec db.toDatabase).map _).bind _ = ((w.exec db.toDatabase).bind _).map _
    cases w.exec db.toDatabase with
    | none => rfl
    | some store => exact ih _

/-- The dispute's row can be updated. -/
theorem exists_updateDispute {d : BookingDispute} (hd : d ∈ db.disputes) (hexpected : expected t d)
    (hchecks : (moved t d).Checks) :
    ∃ disputes, db.disputes.update (expected t) (moved t) = some disputes := by
  obtain ⟨hid, hbooking, hvalid⟩ := db.disputes.valid
  refine Option.isSome_iff_exists.mp (Table.replace_isSome.mpr
    ⟨hid.map fun r => ?_, hbooking.map fun r => ?_, hvalid.update fun r hr hexp => ?_⟩)
  · split <;> rfl
  · split <;> rfl
  · have hr' := (mem_expected ⟨d, hd, hexpected⟩ hr).mp hexp
    have hd' := (mem_expected ⟨d, hd, hexpected⟩ hd).mp hexpected
    obtain rfl := hid.eq hr hd (hr'.trans hd'.symm)
    exact hchecks

/-- A look-up among resources that keep their ids. -/
theorem resource?_of_map {d d' : Directory} {f : Resource → Resource} (hf : ∀ r, (f r).id = r.id)
    (h : d'.resources = d.resources.map f) (resourceId : Uuid) :
    d'.resource? resourceId = (d.resource? resourceId).map f := by
  rw [Directory.resource?, h, List.find?_map]
  refine congrArg (Option.map f) (congrArg (d.resources.find? ·) (funext fun r => ?_))
  simp [hf]

/-- The same dispute, after a transition that kept the tables' keys. -/
theorem dispute?_of_moved {f : Resource → Resource} {store : Resources.Database}
    (hid : ∀ r, (f r).id = r.id) (h : dispute? db.toDatabase user id = some record)
    (hupdate : db.disputes.update (expected t) (moved t) = some store.disputes)
    (htables : store.tables = (db.withResources (db.resources.map f)).tables) :
    dispute? store user id = some
      ⟨if expected t record.dispute then moved t record.dispute else record.dispute,
        f record.resource⟩ := by
  obtain ⟨hdispute, booking, slot, hroot, hbooking, hslot, hresource⟩ := Resources.dispute?_eq_some h
  have hfind : store.disputes.find? (·.id = id)
      = some (if expected t record.dispute then moved t record.dispute else record.dispute) := by
    rw [Table.find?_update hupdate fun _ => rfl, hdispute]
    rfl
  have hsame : (if expected t record.dispute then moved t record.dispute
      else record.dispute).bookingId = record.dispute.bookingId := by
    split <;> rfl
  have hbooking' : store.tables.booking? record.dispute.bookingId = some booking := by
    rw [htables]
    exact hbooking
  have hslot' : store.tables.slot? booking.resourceSlotId = some slot := by
    rw [htables]
    exact hslot
  have hresource' : store.tables.directory.resource? slot.resourceId = some (f record.resource) := by
    rw [htables]
    exact (resource?_of_map hid rfl slot.resourceId).trans (by rw [hresource]; rfl)
  simp [dispute?, hfind, hsame, Bookings.findUnique, Bookings.record?, hbooking', hslot', hresource',
    Option.filter, hroot]

/-- Changing the resources changes nothing of whom the row policy shows. -/
theorem showsSubmitter_withResources {resources : List Resource} {dispute dispute' : BookingDispute}
    (h : dispute'.submittedByUserId = dispute.submittedByUserId) :
    showsSubmitter (db.withResources resources).tables.directory user dispute'
      = showsSubmitter db.tables.directory user dispute := by
  unfold showsSubmitter
  rw [h]
  rfl

/-- **The statements of `applyTransition`**, the last of which reads the dispute again. -/
theorem exists_writes {f : Resource → Resource} {d : BookingDispute} (hd : d ∈ db.disputes)
    (hexpected : expected t d) (hchecks : (moved t d).Checks) (hacts : Acts db t f)
    (hread : ∀ store : Resources.Database,
      db.disputes.update (expected t) (moved t) = some store.disputes →
      store.tables = (db.withResources (db.resources.map f)).tables →
      ∃ record, findById store ⟨t.reviewerUserId, t.rootOrganizationId⟩ t.disputeId
        = .ok (some record)) :
    ∃ store, Resources.code.replay t.writes db.toDatabase = some store
      ∧ db.disputes.update (expected t) (moved t) = some store.disputes
      ∧ store.tables = (db.withResources (db.resources.map f)).tables
      ∧ ∃ d ∈ store.disputes, d.id = t.disputeId := by
  obtain ⟨disputes, hupdate⟩ := exists_updateDispute hd hexpected hchecks
  have hany : db.disputes.rows.any (expected t) := List.any_eq_true.mpr ⟨d, hd, hexpected⟩
  have hid : d.id = t.disputeId := (mem_expected ⟨d, hd, hexpected⟩ hd).mp hexpected
  -- the dispute has its id still
  have hkept : ∃ d' ∈ disputes, d'.id = t.disputeId := by
    obtain ⟨d', hd', hsame⟩ := Table.exists_mem_update (R := fun d d' => d'.id = d.id) hupdate
      (fun _ => rfl) (fun _ => rfl) hd
    exact ⟨d', hd', hsame.trans hid⟩
  let store : Resources.Database := { db.toDatabase with disputes }
  refine ⟨store.withResources (store.resources.map f), ?_, hupdate, rfl, hkept⟩
  have hexec : Resources.code.exec (.updateDispute t.disputeId t.expectedStatus t.status
      t.resolutionNotes t.reviewerUserId
      (if t.isTerminal ∧ t.status.isSome then some t.now else none)) db.toDatabase
        = some store := by
    change (if db.disputes.rows.any (expected t) then
      (db.disputes.update (expected t) (moved t)).map _ else none) = _
    rw [if_pos hany, hupdate]
    rfl
  rw [Transition.writes, Code.replay_cons, hexec, Option.bind_some, Code.replay,
    List.foldlM_append]
  change (Resources.code.replay t.applyResourceAction store).bind _ = _
  rw [hacts.replay store rfl hkept, Option.bind_some]
  change (Resources.Write.exec (.findUniqueOrThrow _ _) _).bind _ = _
  rw [show Resources.Write.exec _ (store.withResources (store.resources.map f)) = _ from
    Resources.exec_findUniqueOrThrow.mpr ⟨rfl, hread _ hupdate rfl⟩]
  rfl

/-- **A transaction whose resource action goes through commits**: the dispute moves, and the resource
changes. -/
theorem exists_replay {f : Resource → Resource} {d : BookingDispute} (hd : d ∈ db.disputes)
    (hexpected : expected t d) (hchecks : (moved t d).Checks) (hacts : Acts db t f)
    (hread : ∀ store : Resources.Database,
      db.disputes.update (expected t) (moved t) = some store.disputes →
      store.tables = (db.withResources (db.resources.map f)).tables →
      ∃ record, findById store ⟨t.reviewerUserId, t.rootOrganizationId⟩ t.disputeId
        = .ok (some record))
    (hevent : ∀ e ∈ event, e.disputeId = t.disputeId
      ∧ (db.tables.directory.user? e.actorUserId).isSome ∧ ∀ e' ∈ db.events, e'.id ≠ e.id) :
    ∃ db', code.replay (transitionWrites t event) db = some db'
      ∧ db.disputes.update (expected t) (moved t) = some db'.disputes
      ∧ db'.tables = (db.withResources (db.resources.map f)).tables
      ∧ db'.events.rows = db.events.rows ++ event.toList := by
  obtain ⟨store, hwrites, hupdate, htables, d', hd', hid'⟩ :=
    exists_writes hd hexpected hchecks hacts hread
  have happlied : code.replay (t.writes.map .apply) db = some { db with toDatabase := store } := by
    rw [replay_map_apply, hwrites]
    rfl
  rw [transitionWrites, Code.replay, List.foldlM_append]
  change ∃ db', ((code.replay (t.writes.map .apply) db).bind _) = some db' ∧ _
  rw [happlied]
  cases event with
  | none => exact ⟨_, rfl, hupdate, htables, (List.append_nil _).symm⟩
  | some e =>
    obtain ⟨hdispute, huser, hfresh⟩ := hevent e rfl
    obtain ⟨events, hevents⟩ : ∃ events, db.events.insert e = some events :=
      Option.isSome_iff_exists.mp (Table.replace_isSome.mpr (db.events.valid.append hfresh))
    have hpresent : store.disputes.rows.any (·.id = e.disputeId) :=
      List.any_eq_true.mpr ⟨d', hd', by simp [hid', hdispute]⟩
    have huser' : (store.tables.directory.user? e.actorUserId).isSome := by
      rw [htables]
      exact huser
    refine ⟨{ db with toDatabase := store, events }, ?_, hupdate, htables,
      Table.insert_eq_some.mp hevents⟩
    change (Write.exec (.addEvent e) _).bind _ = _
    have hexec : Write.exec (.addEvent e) { db with toDatabase := store }
        = some { db with toDatabase := store, events } := by
      change (if _ then (db.events.insert e).map _ else none) = _
      rw [if_pos ⟨hpresent, huser'⟩, hevents]
      rfl
    rw [hexec]
    rfl

/-- **A permitted call whose resource action goes through** returns. -/
theorem Permitted.returns {f : Resource → Resource} (h : Permitted db id dto user x.now record t)
    (hshown : showsSubmitter db.tables.directory user record.dispute = true)
    (hacts : Acts db t f) (hfresh : ∀ e ∈ db.events, e.id ≠ x.eventId) :
    ∃ db', transitionAlone db id dto user x = (db', .returned)
      ∧ db.disputes.update (expected t) (moved t) = some db'.disputes
      ∧ db'.tables = (db.withResources (db.resources.map f)).tables
      ∧ ∀ e ∈ db'.events, e ∈ db.events ∨ e.id = x.eventId := by
  obtain ⟨hdispute, hdid⟩ := Resources.mem_of_dispute? h.found
  have hwrites := writes_of_transition h.guards
  have hexpected : expected t record.dispute := by
    simp [expected, hwrites.disputeId, hwrites.expectedStatus]
  have hevent : ∀ e ∈ transitionEvent record dto user x.eventId, e.disputeId = t.disputeId
      ∧ (db.tables.directory.user? e.actorUserId).isSome ∧ ∀ e' ∈ db.events, e'.id ≠ e.id := by
    intro e he
    obtain ⟨status, -, rfl⟩ := Option.map_eq_some_iff.mp he
    exact ⟨hwrites.disputeId.symm, h.user_isSome, hfresh⟩
  -- the submitter is shown to the closing read as well
  have hread : ∀ store : Resources.Database,
      db.disputes.update (expected t) (moved t) = some store.disputes →
      store.tables = (db.withResources (db.resources.map f)).tables →
      ∃ record, findById store ⟨t.reviewerUserId, t.rootOrganizationId⟩ t.disputeId
        = .ok (some record) := by
    intro store hupdate htables
    have hfound := dispute?_of_moved hacts.id h.found hupdate htables
    have hsubmitter : (if expected t record.dispute then moved t record.dispute
        else record.dispute).submittedByUserId = record.dispute.submittedByUserId := by
      split <;> rfl
    rw [hwrites.reviewer, hwrites.disputeId, hdid, findById, hfound]
    refine ⟨_, if_pos ?_⟩
    rw [htables, showsSubmitter_withResources hsubmitter]
    exact hshown
  obtain ⟨db', hrep, hupdate, htables, hevents⟩ := exists_replay hdispute hexpected
    (hwrites.checks (db.disputes.valid.2.2 _ hdispute)) hacts hread hevent
  refine ⟨db', h.alone_eq hshown hrep, hupdate, htables, fun e he => ?_⟩
  rw [← Table.mem_rows, hevents, List.mem_append, Option.mem_toList] at he
  rcases he with he | he
  · exact .inl he
  · obtain ⟨status, -, rfl⟩ := Option.map_eq_some_iff.mp he
    exact .inr rfl

/-! ## One after the other -/

/-- Two users that find a dispute find the same. -/
theorem dispute?_unique {store : Resources.Database} {user' : AuthenticatedUser}
    {record' : DisputeRecord} (h : dispute? store user id = some record)
    (h' : dispute? store user' id = some record') : record = record' := by
  obtain ⟨dispute, resource⟩ := record
  obtain ⟨dispute', resource'⟩ := record'
  obtain ⟨hdispute, booking, slot, -, hbooking, hslot, hresource⟩ := Resources.dispute?_eq_some h
  obtain ⟨hdispute', booking', slot', -, hbooking', hslot', hresource'⟩ :=
    Resources.dispute?_eq_some h'
  obtain rfl : dispute = dispute' := Option.some.inj (hdispute.symm.trans hdispute')
  obtain rfl := Option.some.inj (hbooking.symm.trans hbooking')
  obtain rfl := Option.some.inj (hslot.symm.trans hslot')
  obtain rfl : resource = resource' := Option.some.inj (hresource.symm.trans hresource')
  rfl

/-- Whoever manages an organization is shown the users of its university: two administrators are
shown the same. -/
theorem showsSubmitter_eq {d : Directory} {organizationId : Uuid} {user user' : AuthenticatedUser}
    {dispute : BookingDispute} (h : canManage d organizationId user = true)
    (h' : canManage d organizationId user' = true) :
    showsSubmitter d user dispute = showsSubmitter d user' dispute := by
  have key {user : AuthenticatedUser} (h : canManage d organizationId user = true) :
      ∃ o, d.organization? organizationId = some o
        ∧ showsSubmitter d user dispute = d.shows o.rootOrganizationId dispute.submittedByUserId := by
    simp only [canManage, Option.any_eq_true, List.any_eq_true, Bool.and_eq_true,
      decide_eq_true_eq] at h
    obtain ⟨root, hroot, m, hm, ⟨⟨huser, horganization, -⟩, -⟩, o, ho, rfl, -⟩ := h
    rw [horganization] at ho
    refine ⟨o, ho, ?_⟩
    rw [showsSubmitter, hroot, Option.any_some, Bool.or_eq_right_iff_imp, decide_eq_true_eq]
    intro hown
    -- the user is a member of the university themselves
    refine List.any_eq_true.mpr ⟨m, hm, ?_⟩
    rw [horganization, ho]
    simp [huser, hown]
  obtain ⟨o, ho, heq⟩ := key h
  obtain ⟨o', ho', heq'⟩ := key h'
  obtain rfl := Option.some.inj (ho.symm.trans ho')
  rw [heq, heq']

/-- The status and the link of a resource. -/
def availability (db : Database) (resourceId : Uuid) : Option (ResourceStatus × Option Uuid) :=
  (db.tables.directory.resource? resourceId).map fun r => (r.status, r.unavailableDisputeId)

section Pair

variable {dto₁ dto₂ : UpdateDisputeDto} {user₁ user₂ : AuthenticatedUser} {x₁ x₂ : Reading}
  {record₂ : DisputeRecord} {t₂ : Transition}

/-- **`MARK_UNAVAILABLE` and then `RESTORE`**, where the submitter is shown: both return, and the
resource is active and without a link. -/
theorem restored_of_pair (h₁ : Permitted db id dto₁ user₁ x₁.now record t)
    (hshown : showsSubmitter db.tables.directory user₁ record.dispute = true)
    (hmark : dto₁.resourceAction = some .markUnavailable)
    (hlink : ∀ r ∈ db.resources, r.unavailableDisputeId ≠ some id)
    (h₂ : Permitted (transitionAlone db id dto₁ user₁ x₁).1 id dto₂ user₂ x₂.now record₂ t₂)
    (hrestore : dto₂.resourceAction = some .restore)
    (hfresh₁ : ∀ e ∈ db.events, e.id ≠ x₁.eventId) (hfresh₂ : ∀ e ∈ db.events, e.id ≠ x₂.eventId)
    (hne : x₁.eventId ≠ x₂.eventId) :
    (transitionAlone db id dto₁ user₁ x₁).2 = .returned
      ∧ (transitionAlone (transitionAlone db id dto₁ user₁ x₁).1 id dto₂ user₂ x₂).2 = .returned
      ∧ availability (transitionAlone (transitionAlone db id dto₁ user₁ x₁).1 id dto₂ user₂ x₂).1
          record.resource.id = some (.active, none) := by
  have hw := writes_of_transition h₁.guards
  have hid : t.disputeId = id := hw.disputeId.trans (Resources.mem_of_dispute? h₁.found).2
  have hresource : record.resource ∈ db.resources := List.mem_of_find?_eq_some h₁.resource?
  have hacts : Acts db t (mark t.resourceId t.disputeId) :=
    acts_mark (by rw [hw.resourceAction, hmark]; rfl) ⟨_, hresource, hw.resourceId.symm⟩
      (hid ▸ hlink)
  obtain ⟨db₁, hdb₁, hupdate, htables, hevents⟩ := h₁.returns hshown hacts hfresh₁
  rw [hdb₁] at h₂ ⊢
  have hw₂ := writes_of_transition h₂.guards
  have hid₂ : t₂.disputeId = id := hw₂.disputeId.trans (Resources.mem_of_dispute? h₂.found).2
  have hrecord := dispute?_unique h₂.found (dispute?_of_moved hacts.id h₁.found hupdate htables)
  have hsame : record₂.resource = mark t.resourceId t.disputeId record.resource := by rw [hrecord]
  -- both are administrators of the resource's owner, and so of one university
  have hmanages : canManage db.tables.directory record.resource.ownerOrganizationId user₂ = true := by
    have howner : record₂.resource.ownerOrganizationId = record.resource.ownerOrganizationId := by
      rw [hsame, mark]
      split <;> rfl
    have hmanages₂ := h₂.manages
    rwa [htables, howner] at hmanages₂
  have hshown₂ : showsSubmitter db₁.tables.directory user₂ record₂.dispute = true := by
    have hsubmitter : record₂.dispute.submittedByUserId = record.dispute.submittedByUserId := by
      rw [hrecord]
      split <;> rfl
    rw [htables, showsSubmitter_withResources hsubmitter, showsSubmitter_eq hmanages h₁.manages,
      hshown]
  have hmarked : mark t.resourceId t.disputeId record.resource = withdrawn id record.resource := by
    rw [mark, if_pos hw.resourceId.symm, hid]
  have hlinked : linked t₂.resourceId t₂.disputeId record₂.resource := by
    rw [hw₂.resourceId, hid₂, hsame, hmarked]
    simp [linked, withdrawn]
  have hacts₂ := acts_unmark (by rw [hw₂.resourceAction, hrestore]; rfl)
    ⟨_, List.mem_of_find?_eq_some h₂.resource?, hlinked⟩
  have hfresh : ∀ e ∈ db₁.events, e.id ≠ x₂.eventId := fun e he =>
    (hevents e he).elim (hfresh₂ e) fun heq => heq ▸ hne
  obtain ⟨db₂, hdb₂, -, htables₂, -⟩ := h₂.returns hshown₂ hacts₂ hfresh
  rw [hdb₂]
  refine ⟨rfl, rfl, ?_⟩
  have hfound : db₂.tables.directory.resource? record₂.resource.id
      = some (unmark t₂.resourceId t₂.disputeId record₂.resource) := by
    rw [htables₂]
    exact (resource?_of_map hacts₂.id rfl _).trans (by rw [h₂.resource?]; rfl)
  have hkey : record.resource.id = record₂.resource.id := by rw [hsame, id_mark]
  rw [availability, hkey, hfound, unmark, if_pos hlinked]
  rfl

/-- **`RESTORE` undoes `MARK_UNAVAILABLE`** exactly where the dispute's submitter is shown to the
administrators, and the resource was active and linked to no dispute: of a dispute without a link,
both calls permitted and nothing in between. -/
theorem restore_undoes_iff (h₁ : Permitted db id dto₁ user₁ x₁.now record t)
    (hmark : dto₁.resourceAction = some .markUnavailable)
    (hlink : ∀ r ∈ db.resources, r.unavailableDisputeId ≠ some id)
    (h₂ : Permitted (transitionAlone db id dto₁ user₁ x₁).1 id dto₂ user₂ x₂.now record₂ t₂)
    (hrestore : dto₂.resourceAction = some .restore)
    (hfresh₁ : ∀ e ∈ db.events, e.id ≠ x₁.eventId) (hfresh₂ : ∀ e ∈ db.events, e.id ≠ x₂.eventId)
    (hne : x₁.eventId ≠ x₂.eventId) :
    ((transitionAlone db id dto₁ user₁ x₁).2 = .returned
      ∧ (transitionAlone (transitionAlone db id dto₁ user₁ x₁).1 id dto₂ user₂ x₂).2 = .returned
      ∧ availability (transitionAlone (transitionAlone db id dto₁ user₁ x₁).1 id dto₂ user₂ x₂).1
          record.resource.id = availability db record.resource.id)
      ↔ showsSubmitter db.tables.directory user₁ record.dispute = true
        ∧ record.resource.status = .active ∧ record.resource.unavailableDisputeId = none := by
  have hbefore : availability db record.resource.id
      = some (record.resource.status, record.resource.unavailableDisputeId) := by
    rw [availability, h₁.resource?]
    rfl
  cases hshown : showsSubmitter db.tables.directory user₁ record.dispute with
  | false =>
    rw [h₁.hidden hshown]
    constructor
    · rintro ⟨hreturned, -⟩
      cases hreturned
    · rintro ⟨hfalse, -⟩
      cases hfalse
  | true =>
    obtain ⟨hreturned₁, hreturned₂, hafter⟩ :=
      restored_of_pair h₁ hshown hmark hlink h₂ hrestore hfresh₁ hfresh₂ hne
    rw [hafter, hbefore, Option.some.injEq, Prod.mk.injEq]
    constructor
    · rintro ⟨-, -, hstatus, hnone⟩
      exact ⟨rfl, hstatus.symm, hnone.symm⟩
    · rintro ⟨-, hstatus, hnone⟩
      exact ⟨hreturned₁, hreturned₂, hstatus.symm, hnone.symm⟩

end Pair

/-! ## One resource and two disputes -/

/-- Whether a call is permitted. -/
def permits (db : Database) (id : Uuid) (dto : UpdateDisputeDto) (user : AuthenticatedUser)
    (now : Timestamp) : Bool :=
  (dispute? db.toDatabase user id).any fun record =>
    canManage db.tables.directory record.resource.ownerOrganizationId user
      && (Resources.transition record dto user now).isOk

theorem exists_permitted {now : Timestamp} (h : permits db id dto user now) :
    ∃ record t, Permitted db id dto user now record t := by
  obtain ⟨record, hrecord, h⟩ := (Option.any_eq_true _ _).mp h
  rw [Bool.and_eq_true] at h
  cases ht : Resources.transition record dto user now with
  | error e => simp [ht, Except.isOk, Except.toBool] at h
  | ok t => exact ⟨record, t, hrecord, h.1, ht⟩

/-- The database of a state of the two services, with no events yet. -/
def withoutEvents (db : Resources.Database) : Database := { db with events := ⟨[], List.nodup_nil⟩ }

/-- The administrator's `MARK_UNAVAILABLE` in dispute 50… -/
def marks (db : Database) : Database × Point :=
  transitionAlone db 50 { resourceAction := some .markUnavailable } ⟨2, some 100⟩ ⟨40, 0, 60⟩

/-- …and `RESTORE`. -/
def restores (db : Database) : Database × Point :=
  transitionAlone db 50 { resourceAction := some .restore } ⟨2, some 100⟩ ⟨40, 0, 61⟩

/-- Both are permitted, and the dispute is not linked. -/
def pairPermitted (db : Database) : Bool :=
  permits db 50 { resourceAction := some .markUnavailable } ⟨2, some 100⟩ 40
    && db.resources.all (fun r => decide (r.unavailableDisputeId ≠ some 50))
    && permits (marks db).1 50 { resourceAction := some .restore } ⟨2, some 100⟩ 40

/-- A laboratory in use is in use again. -/
theorem restore_undoes_of_active : ∃ db : Database, db.toDatabase = Resources.twoDisputes.db
    ∧ (marks db).2 = .returned ∧ (restores (marks db).1).2 = .returned
    ∧ availability (restores (marks db).1).1 10 = availability db 10 := by
  let db := withoutEvents Resources.twoDisputes.db
  have hpair : pairPermitted db := by decide
  simp only [pairPermitted, Bool.and_eq_true, List.all_eq_true, decide_eq_true_eq] at hpair
  obtain ⟨⟨hmark, hlink⟩, hrestore⟩ := hpair
  obtain ⟨record, t, h₁⟩ := exists_permitted hmark
  obtain ⟨record₂, t₂, h₂⟩ := exists_permitted hrestore
  have hrecord : record.resource = ⟨10, "Laboratory", 100, 100, .active, 0, 0, [], none⟩ := by
    obtain rfl := Option.some.inj h₁.found
    rfl
  have hshown : showsSubmitter db.tables.directory ⟨2, some 100⟩ record.dispute = true := by
    obtain rfl := Option.some.inj h₁.found
    decide
  have hnone : ∀ eventId, ∀ e ∈ db.events, e.id ≠ eventId := fun _ e he => by cases he
  have hne : (60 : Uuid) ≠ 61 := by decide
  have hiff : ((marks db).2 = .returned ∧ (restores (marks db).1).2 = .returned
      ∧ availability (restores (marks db).1).1 record.resource.id
        = availability db record.resource.id) ↔ _ :=
    restore_undoes_iff h₁ rfl hlink h₂ rfl (hnone _) (hnone _) hne
  rw [hshown, hrecord] at hiff
  exact ⟨db, rfl, hiff.mpr ⟨rfl, rfl, rfl⟩⟩

/-- **A laboratory that its owner had archived, or that another dispute held, is in use afterwards.**
It is removed by the service, or taken out of use in dispute 51; then dispute 50 marks it and
restores it. -/
theorem active_after_restore :
    (∃ s, Resources.machine.Reachable Machine.free s
      ∧ pairPermitted (withoutEvents s.db)
      ∧ availability (withoutEvents s.db) 10 = some (.inactive, none)
      ∧ availability (restores (marks (withoutEvents s.db)).1).1 10 = some (.active, none))
    ∧ ∃ s, Resources.machine.Reachable Machine.free s
      ∧ pairPermitted (withoutEvents s.db)
      ∧ availability (withoutEvents s.db) 10 = some (.inactive, some 51)
      ∧ availability (restores (marks (withoutEvents s.db)).1).1 10 = some (.active, none) := by
  constructor
  · obtain ⟨s, hs, hp⟩ := Resources.machine.exists_reachable (s := Resources.twoDisputes)
      (p := fun s => pairPermitted (withoutEvents s.db)
        && decide (availability (withoutEvents s.db) 10 = some (.inactive, none))
        && decide (availability (restores (marks (withoutEvents s.db)).1).1 10
          = some (.active, none)))
      [.call (.remove 100 10), .read 0 40, .write 0, .commit 0]
      Resources.twoDisputes_init (by decide)
    simp only [Bool.and_eq_true, decide_eq_true_eq] at hp
    exact ⟨s, hs, hp.1.1, hp.1.2, hp.2⟩
  · obtain ⟨s, hs, hp⟩ := Resources.machine.exists_reachable (s := Resources.twoDisputes)
      (p := fun s => pairPermitted (withoutEvents s.db)
        && decide (availability (withoutEvents s.db) 10 = some (.inactive, some 51))
        && decide (availability (restores (marks (withoutEvents s.db)).1).1 10
          = some (.active, none)))
      (Resources.transitionOf 0 51 .markUnavailable) Resources.twoDisputes_init (by decide)
    simp only [Bool.and_eq_true, decide_eq_true_eq] at hp
    exact ⟨s, hs, hp.1.1, hp.1.2, hp.2⟩

end ResourceHive.Disputes
