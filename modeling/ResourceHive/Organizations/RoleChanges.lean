import ResourceHive.Organizations.Administrators
import ResourceHive.Organizations.AuditTrail
import ResourceHive.Organizations.Guards

/-!
# Organizations/RoleChanges — a membership has the role its audit trail gives it

Each statement that gives or takes the role of an administrator is followed, in the same
transaction, by an audit of the membership it was meant for.  `updateMembershipRole` names its row
by user and organization but its audit by the id it read before: if the membership was removed and
requested again in between, the audit refers to a row that is gone, and the foreign key takes the
new row's promotion back with it (`role_matches_trail`).
-/

namespace ResourceHive.Organizations.AuditTrail

/-! ## What the trail says of a database -/

/-- **Roles and trail agree.** -/
structure Consistent (db : Database) : Prop where
  approved : ∀ m ∈ db.memberships, m.role = .admin → m.status = .approved
  agrees : ∀ m ∈ db.memberships,
    m.role = .admin ↔ lastRoleChange db.audits.rows m.id = some .adminGranted
  referenced : ∀ a ∈ db.audits, ∃ m ∈ db.memberships, m.id = a.membershipId

section Database

variable {db db₁ db' : Database} {e : OrganizationMembershipAudit}
  {p : OrganizationMembership → Bool} {f : OrganizationMembership → OrganizationMembership}

/-- An update leaves the audits alone, and does change a row. -/
theorem updateOne_cases (h : db.updateOne p f = some db') :
    db.memberships.update p f = some db'.memberships ∧ db'.audits = db.audits
      ∧ ∃ m ∈ db.memberships, p m := by
  refine ⟨updateOne_eq_some h, ?_⟩
  simp only [Database.updateOne, Option.ite_none_right_eq_some, Option.map_eq_some_iff,
    List.any_eq_true, Bool.and_eq_true] at h
  obtain ⟨⟨m, hm, hp, -⟩, ms, -, rfl⟩ := h
  exact ⟨rfl, m, hm, hp⟩

/-- The audits keep referring to memberships. -/
theorem Consistent.referenced_audited (h : Consistent db) (hupdate : db.updateOne p f = some db₁)
    (haudit : (Write.audit e).exec db₁ = some db') (hid : ∀ m, (f m).id = m.id) :
    ∀ a ∈ db'.audits, ∃ m ∈ db'.memberships, m.id = a.membershipId := by
  obtain ⟨hms, has, -⟩ := updateOne_cases hupdate
  obtain ⟨hexists, hms', has'⟩ := audit_eq_some haudit
  intro a ha
  rw [← Table.mem_rows, has', has, List.mem_append, List.mem_singleton] at ha
  rw [hms']
  rcases ha with ha | rfl
  · obtain ⟨m, hm, hkey⟩ := h.referenced a ha
    obtain ⟨r, hr, hrid⟩ := Table.exists_mem_update (R := fun m m' => m'.id = m.id) hms
      (fun _ => rfl) hid hm
    exact ⟨r, hr, hrid.trans hkey⟩
  · exact hexists

/-- **A role is changed, and the change is audited**: of the membership that the audit refers to,
and of no other. -/
theorem Consistent.roleChange (h : Consistent db) (hupdate : db.updateOne p f = some db₁)
    (haudit : (Write.audit e).exec db₁ = some db') (hid : ∀ m, (f m).id = m.id)
    (hp : ∀ m ∈ db.memberships, p m ↔ m.id = e.membershipId) (hchange : isRoleChange e.action)
    (hrole : ∀ m, (f m).role = .admin ↔ e.action = .adminGranted)
    (happroved : ∀ m ∈ db.memberships, p m → (f m).role = .admin → (f m).status = .approved) :
    Consistent db' := by
  have hreferenced := h.referenced_audited hupdate haudit hid
  obtain ⟨hms, has, -⟩ := updateOne_cases hupdate
  obtain ⟨-, hms', has'⟩ := audit_eq_some haudit
  refine ⟨fun m hm => ?_, fun m hm => ?_, hreferenced⟩
  · rw [hms'] at hm
    obtain ⟨r, hr, rfl⟩ := (Table.mem_update hms).mp hm
    split
    · next hpr => exact happroved r hr hpr
    · exact h.approved r hr
  · rw [hms'] at hm
    obtain ⟨r, hr, rfl⟩ := (Table.mem_update hms).mp hm
    rw [has', has]
    by_cases hpr : p r
    · rw [if_pos hpr, hid, (hp r hr).mp hpr, lastRoleChange_append_self hchange, hrole,
        Option.some.injEq]
    · have hne : e.membershipId ≠ r.id := fun heq => hpr ((hp r hr).mpr heq.symm)
      rw [if_neg hpr, lastRoleChange_append_of_not fun hmatch => hne hmatch.1]
      exact h.agrees r hr

/-- **A decision is written, and audited**: it changes no role, and no approved membership. -/
theorem Consistent.review (h : Consistent db) (hupdate : db.updateOne p f = some db₁)
    (haudit : (Write.audit e).exec db₁ = some db') (hid : ∀ m, (f m).id = m.id)
    (hchange : isRoleChange e.action = false) (hrole : ∀ m, (f m).role = m.role)
    (hnot : ∀ m, p m → m.status ≠ .approved) : Consistent db' := by
  have hreferenced := h.referenced_audited hupdate haudit hid
  obtain ⟨hms, has, -⟩ := updateOne_cases hupdate
  obtain ⟨-, hms', has'⟩ := audit_eq_some haudit
  refine ⟨fun m hm => ?_, fun m hm => ?_, hreferenced⟩
  · rw [hms'] at hm
    obtain ⟨r, hr, rfl⟩ := (Table.mem_update hms).mp hm
    split
    · next hpr =>
      rw [hrole]
      exact fun hadmin => absurd (h.approved r hr hadmin) (hnot r hpr)
    · exact h.approved r hr
  · rw [hms'] at hm
    obtain ⟨r, hr, rfl⟩ := (Table.mem_update hms).mp hm
    rw [has', has, lastRoleChange_append_of_not (by simp [hchange])]
    split
    · rw [hrole, hid]
      exact h.agrees r hr
    · exact h.agrees r hr

/-- **A membership is removed**, and its audits with it. -/
theorem Consistent.delete {userId organizationId : Uuid} (h : Consistent db)
    (hdelete : (Write.delete userId organizationId).exec db = some db') : Consistent db' := by
  simp only [Write.exec, Option.ite_none_right_eq_some, Option.bind_eq_some_iff,
    Option.map_eq_some_iff] at hdelete
  obtain ⟨-, ms, hms, as, has, rfl⟩ := hdelete
  refine ⟨fun m hm => ?_, fun m hm => ?_, fun a ha => ?_⟩
  · exact h.approved m ((Table.mem_delete hms).mp hm).1
  · obtain ⟨hm, hnot⟩ := (Table.mem_delete hms).mp hm
    have hkept : lastRoleChange as.rows m.id = lastRoleChange db.audits.rows m.id := by
      rw [Table.delete_eq_some.mp has]
      refine lastRoleChange_filter fun a ha hid => ?_
      rw [Bool.not_eq_true', Bool.eq_false_iff, ne_eq, List.any_eq_true]
      rintro ⟨r, hr, hmatch⟩
      simp only [Bool.and_eq_true, decide_eq_true_eq] at hmatch
      -- the row the audit refers to is the one that is kept
      obtain rfl := db.memberships.valid.1.eq hr hm (hmatch.2.trans hid)
      rw [hmatch.1] at hnot
      cases hnot
    exact hkept ▸ h.agrees m hm
  · obtain ⟨ha, hnot⟩ := (Table.mem_delete has).mp ha
    obtain ⟨m, hm, hid⟩ := h.referenced a ha
    refine ⟨m, (Table.mem_delete hms).mpr ⟨hm, ?_⟩, hid⟩
    rw [Bool.eq_false_iff]
    intro hof
    rw [Bool.eq_false_iff, ne_eq, List.any_eq_true] at hnot
    exact hnot ⟨m, hm, by simp [hof, hid]⟩

/-! ## What creates memberships -/

/-- **Members are added**, and nothing else changes of the memberships and the audits. -/
def Adds (ids : List Uuid) (db db' : Database) : Prop :=
  ∃ new : List OrganizationMembership, (∀ m ∈ new, m.role = .member ∧ m.id ∈ ids)
    ∧ db'.memberships.rows = db.memberships.rows ++ new ∧ db'.audits = db.audits

variable {ids : List Uuid}

theorem Adds.refl (ids : List Uuid) (db : Database) : Adds ids db db :=
  ⟨[], nofun, (List.append_nil _).symm, rfl⟩

theorem Adds.trans (h : Adds ids db db₁) (h' : Adds ids db₁ db') : Adds ids db db' := by
  obtain ⟨new, hnew, hrows, has⟩ := h
  obtain ⟨new', hnew', hrows', has'⟩ := h'
  refine ⟨new ++ new', fun m hm => ?_, ?_, has'.trans has⟩
  · exact (List.mem_append.mp hm).elim (hnew m) (hnew' m)
  · rw [hrows', hrows, List.append_assoc]

/-- The row that `createMembership` adds. -/
theorem createMembership_eq_some {m : OrganizationMembership}
    (h : db.createMembership m = some db') :
    db'.memberships.rows = db.memberships.rows ++ [m] ∧ db'.audits = db.audits := by
  simp only [Database.createMembership, Option.ite_none_right_eq_some, Option.map_eq_some_iff] at h
  obtain ⟨-, ms, hms, rfl⟩ := h
  exact ⟨Table.insert_eq_some.mp hms, rfl⟩

theorem adds_createMembership {m : OrganizationMembership} (h : db.createMembership m = some db')
    (hrole : m.role = .member) (hid : m.id ∈ ids) : Adds ids db db' := by
  obtain ⟨hrows, has⟩ := createMembership_eq_some h
  refine ⟨[m], fun r hr => ?_, hrows, has⟩
  obtain rfl := List.mem_singleton.mp hr
  exact ⟨hrole, hid⟩

theorem adds_upsertMembership {newIds : Uuid → Uuid} {userId organizationId : Uuid}
    (h : db.upsertMembership newIds userId organizationId = some db')
    (hid : newIds organizationId ∈ ids) : Adds ids db db' := by
  unfold Database.upsertMembership at h
  split at h
  · obtain rfl := Option.some.inj h
    exact .refl ids db
  · exact adds_createMembership h rfl hid

theorem adds_upsertMemberships {userId : Uuid} {admitted : List Uuid} {x : Supply}
    (h : upsertMemberships db userId admitted x = some db')
    (hids : ∀ o ∈ admitted, x.ids o ∈ ids) : Adds ids db db' := by
  rw [upsertMemberships] at h
  induction admitted generalizing db with
  | nil =>
    obtain rfl : db = db' := Option.some.inj h
    exact .refl ids db
  | cons o admitted ih =>
    rw [List.foldlM_cons] at h
    obtain ⟨db₁, hupsert, hrest⟩ := Option.bind_eq_some_iff.mp h
    obtain ⟨hid, hids⟩ := List.forall_mem_cons.mp hids
    exact (adds_upsertMembership hupsert hid).trans (ih hrest hids)

/-- **Members who are added have no audits yet.** -/
theorem Consistent.adds (h : Consistent db) (hadds : Adds ids db db') : Consistent db' := by
  obtain ⟨new, hnew, hrows, has⟩ := hadds
  have hmem (m : OrganizationMembership) : m ∈ db'.memberships ↔ m ∈ db.memberships ∨ m ∈ new := by
    rw [← Table.mem_rows, hrows, List.mem_append, Table.mem_rows]
  refine ⟨fun m hm => ?_, fun m hm => ?_, fun a ha => ?_⟩
  · rcases (hmem m).mp hm with hm | hm
    · exact h.approved m hm
    · rw [(hnew m hm).1]
      exact nofun
  · rw [has]
    rcases (hmem m).mp hm with hold | hm'
    · exact h.agrees m hold
    · rw [(hnew m hm').1, lastRoleChange_eq_none]
      · simp
      · intro a ha hid
        -- an audit under the new id would be of a row that is there already
        obtain ⟨r, hr, hrid⟩ := h.referenced a ha
        have hunique := db'.memberships.valid.1
        rw [hrows, Table.Unique, List.map_append, List.nodup_append] at hunique
        exact hunique.2.2 r.id (List.mem_map_of_mem hr) m.id (List.mem_map_of_mem hm')
          (hrid.trans hid)
  · rw [has] at ha
    obtain ⟨m, hm, hid⟩ := h.referenced a ha
    exact ⟨m, (hmem m).mpr (.inl hm), hid⟩

/-- What a new organization brings. -/
theorem createAdministered_eq_some {organization : Organization} {g : Grant}
    (h : createAdministered db organization g = some db') :
    db'.memberships.rows = db.memberships.rows ++ [g.membership organization.id]
      ∧ db'.audits.rows = db.audits.rows ++ [g.audit] := by
  simp only [createAdministered, Option.ite_none_left_eq_some] at h
  obtain ⟨db₁, hcreate, haudit⟩ := Option.bind_eq_some_iff.mp h.2
  obtain ⟨hrows, has⟩ := createMembership_eq_some hcreate
  obtain ⟨-, hms, has'⟩ := audit_eq_some haudit
  exact ⟨by rw [hms, hrows], by rw [has', has]⟩

/-- **An administrator comes with the audit of their role.** -/
theorem Consistent.createAdministered {organization : Organization} {g : Grant}
    (h : Consistent db) (hcreate : createAdministered db organization g = some db') :
    Consistent db' := by
  obtain ⟨hrows, has⟩ := createAdministered_eq_some hcreate
  have hmem (m : OrganizationMembership) :
      m ∈ db'.memberships ↔ m ∈ db.memberships ∨ m = g.membership organization.id := by
    rw [← Table.mem_rows, hrows, List.mem_append, List.mem_singleton, Table.mem_rows]
  have hunique := db'.memberships.valid.1
  rw [hrows] at hunique
  refine ⟨fun m hm => ?_, fun m hm => ?_, fun a ha => ?_⟩
  · rcases (hmem m).mp hm with hm | rfl
    · exact h.approved m hm
    · exact fun _ => rfl
  · rw [has]
    rcases (hmem m).mp hm with hold | rfl
    · have hne : g.audit.membershipId ≠ m.id := (hunique.ne_of_append hold).symm
      rw [lastRoleChange_append_of_not fun hmatch => hne hmatch.1]
      exact h.agrees m hold
    · have hlast : lastRoleChange (db.audits.rows ++ [g.audit]) g.audit.membershipId
          = some .adminGranted := lastRoleChange_append_self rfl
      exact iff_of_true rfl hlast
  · rw [← Table.mem_rows, has, List.mem_append, List.mem_singleton] at ha
    rcases ha with ha | rfl
    · obtain ⟨m, hm, hid⟩ := h.referenced a ha
      exact ⟨m, (hmem m).mpr (.inl hm), hid⟩
    · exact ⟨_, (hmem _).mpr (.inr rfl), rfl⟩

/-- **What a creation does**: it adds members, or an administrator with an audit. -/
theorem creation_cases {x : Creation} (h : x.exec db = some db') :
    Adds x.membershipIds db db' ∨ ∃ organization g, x.membershipIds = [g.membershipId]
      ∧ createAdministered db organization g = some db' := by
  cases x with
  | users | organizations =>
    obtain rfl := Option.some.inj h
    exact .inl ⟨[], nofun, (List.append_nil _).symm, rfl⟩
  | createPlatformUniversity organizationId grant => exact .inr ⟨_, grant, rfl, h⟩
  | createChildOrganization parentId organizationId grant =>
    obtain ⟨parent, -, hcreate⟩ := Option.bind_eq_some_iff.mp h
    exact .inr ⟨_, grant, rfl, hcreate⟩
  | requestMembership userId organizationId admitted supply =>
    simp only [Creation.exec, request] at h
    split at h
    · exact .inl (adds_upsertMemberships h fun o ho =>
        List.mem_map_of_mem (List.mem_cons_of_mem _ ho))
    · exact .inl (adds_createMembership h rfl (List.mem_map_of_mem (List.mem_cons_self ..)))
  | verifyEmail userId admitted supply =>
    obtain ⟨db₁, hupsert, rfl⟩ := Option.map_eq_some_iff.mp h
    have hadds : Adds (admitted.map supply.ids) db db₁ :=
      adds_upsertMemberships hupsert fun o ho => List.mem_map_of_mem ho
    obtain ⟨new, hnew, hrows, has⟩ := hadds
    exact .inl ⟨new, hnew, hrows, has⟩

theorem Consistent.creation {x : Creation} (h : Consistent db) (hx : x.exec db = some db') :
    Consistent db' := by
  rcases creation_cases hx with hadds | ⟨organization, g, -, hcreate⟩
  · exact h.adds hadds
  · exact h.createAdministered hcreate

end Database

/-! ## What a call relies on -/

section Calls

variable {text : TextFunctions} {db db' : Database} {call : Call} {m : OrganizationMembership}
  {id : Uuid} {x : Reading} {ws : List Write}

/-- The membership is looked up under the names that the role is changed under. -/
def Names (call : Call) (userId organizationId : Uuid) : Prop :=
  ∀ u o role, call.operation = .updateMembershipRole u o role → userId = u ∧ organizationId = o

/-- **The membership whose role is changed is approved** and in the organization named, for as long
as it exists. -/
def Held (db : Database) (call : Call) (m : OrganizationMembership) : Prop :=
  ∀ u o role, call.operation = .updateMembershipRole u o role →
    ∀ r ∈ db.memberships, r.id = m.id → r.of u o ∧ r.status = .approved

/-- What a call relies on where it is. -/
def At (db : Database) : Point → Prop
  | .findMembership call userId organizationId => Names call userId organizationId
  | .countAdministrators call m | .writing call m _ => Held db call m
  | .authorize _ _ | .findChild _ | .findCandidate _ | .returned | .failed _ => True

theorem Held.keeps (h : Held db call m) (hkeeps : Keeps m.id db db') : Held db' call m := by
  intro u o role hop r' hr' hid
  obtain ⟨r, hr, hrid, hu, ho, happroved⟩ := hkeeps r' hr' hid
  obtain ⟨hof, hstatus⟩ := h u o role hop r hr hrid
  exact ⟨by rwa [OrganizationMembership.of, hu, ho], happroved hstatus⟩

theorem At.keeps {p : Point} (h : At db p) (hkeeps : ∀ m ∈ membershipRead p, Keeps m.id db db') :
    At db' p := by
  cases p with
  | countAdministrators call m | writing call m x => exact Held.keeps h (hkeeps m rfl)
  | authorize | findChild | findCandidate | findMembership | returned | failed => exact h

/-- A creation keeps what is under an id that is not one of its own. -/
theorem keeps_creation {x : Creation} (h : x.exec db = some db') (hid : id ∉ x.membershipIds) :
    Keeps id db db' := by
  rcases creation_cases h with ⟨new, hnew, hrows, -⟩ | ⟨organization, g, hids, hcreate⟩
  · refine .of_subset fun r hr heq => ?_
    rw [← Table.mem_rows, hrows, List.mem_append] at hr
    rcases hr with hr | hr
    · exact hr
    · exact absurd (heq ▸ (hnew r hr).2) hid
  · obtain ⟨hrows, -⟩ := createAdministered_eq_some hcreate
    refine .of_subset fun r hr heq => ?_
    rw [← Table.mem_rows, hrows, List.mem_append, List.mem_singleton] at hr
    rcases hr with hr | rfl
    · exact hr
    · rw [hids, List.mem_singleton] at hid
      exact absurd heq.symm hid

/-! ## What the reads establish -/

theorem at_start (db : Database) (call : Call) : At db call.start := by
  obtain ⟨operation, actorUserId⟩ := call
  cases operation with
  | updateMembershipRole userId organizationId role =>
    simp only [Call.start]
    split
    · rintro u o role' ⟨⟩
      exact ⟨rfl, rfl⟩
    · trivial
  | updateMembershipStatus | removeMembership =>
    intro _ _ _ h
    cases h
  | appointChildAdministrator | revokeChildAdministrator => trivial

theorem at_afterChild (db : Database) (call : Call) (child : Option Organization) :
    At db (call.afterChild child) := by
  unfold Call.afterChild
  split
  · split_ifs <;> trivial
  · next hop =>
    split_ifs
    · trivial
    · intro u o role h
      rw [hop] at h
      cases h
  · trivial

theorem at_afterCandidate {parentId childId : Uuid} {email : String}
    (hop : call.operation = .appointChildAdministrator parentId childId email)
    (candidate : Option User) : At db (call.afterCandidate childId candidate) := by
  unfold Call.afterCandidate
  split
  · split_ifs
    · intro u o role h
      rw [hop] at h
      cases h
    · trivial
  · trivial

/-- **The membership that was looked up** is the only one under its id. -/
theorem held_of_verdict {u o : Uuid} (hnames : Names call u o) {v : Verdict}
    (hv : call.verdict db (db.membership? u o) = .ok v)
    (hm : v = .count m ∨ v = .write m) : Held db call m := by
  rintro u' o' role hop r hr hid
  obtain ⟨rfl, rfl⟩ := hnames u' o' role hop
  simp only [Call.verdict, hop] at hv
  split at hv
  · cases hrow : db.membership? u o with
    | none => simp [hrow, updateMembershipRole] at hv
    | some found =>
      simp only [hrow, updateMembershipRole] at hv
      obtain ⟨hmem, hu, ho⟩ := membership?_eq_some.mp hrow
      have hfound : m = found ∧ found.status = .approved := by
        split_ifs at hv with hstatus <;> obtain rfl := Except.ok.inj hv <;>
          simp_all
      obtain ⟨rfl, hstatus⟩ := hfound
      obtain rfl := db.memberships.valid.1.eq hr hmem hid
      exact ⟨by simp [OrganizationMembership.of, hu, ho], hstatus⟩
  · cases hv

theorem at_read {p p' : Point} (h : At db p) (hread : p.next text db x = some p') : At db p' := by
  cases p with
  | authorize call seen =>
    obtain ⟨seen', -, rfl⟩ := Option.map_eq_some_iff.mp hread
    split
    · trivial
    · trivial
    · exact at_start db call
  | findChild call =>
    obtain rfl := Option.some.inj hread
    exact at_afterChild db call _
  | findCandidate call =>
    simp only [Point.next] at hread
    split at hread
    · next hop =>
      obtain rfl := Option.some.inj hread
      exact at_afterCandidate hop _
    · cases hread
  | findMembership call userId organizationId =>
    obtain rfl := Option.some.inj hread
    split
    · trivial
    · trivial
    · next hv => exact held_of_verdict h hv (.inl rfl)
    · next hv => exact held_of_verdict h hv (.inr rfl)
  | countAdministrators call m =>
    obtain rfl := Option.some.inj hread
    split
    · trivial
    · exact h
  | writing | returned | failed => cases hread

/-! ## What the transactions keep -/

variable (text) in
theorem replay_one {w : Write} (h : (code text).replay [w] db = some db') : w.exec db = some db' := by
  obtain ⟨db₁, hw, hrest⟩ := Option.bind_eq_some_iff.mp h
  obtain rfl := Option.some.inj hrest
  exact hw

theorem replay_two {w w' : Write} (h : (code text).replay [w, w'] db = some db') :
    ∃ db₁, w.exec db = some db₁ ∧ w'.exec db₁ = some db' := by
  obtain ⟨db₁, hw, hrest⟩ := Option.bind_eq_some_iff.mp h
  exact ⟨db₁, hw, replay_one text hrest⟩

/-- The transaction of `updateMembershipRole`: its audit is of the row that it updates, since an
audit of a row that is gone would be rejected. -/
theorem Consistent.updateRole {u o : Uuid} {role : MembershipRole}
    {e : OrganizationMembershipAudit} {db₁ : Database} (h : Consistent db)
    (hheld : ∀ r ∈ db.memberships, r.id = e.membershipId → r.of u o ∧ r.status = .approved)
    (hupdate : (Write.updateRole u o role).exec db = some db₁)
    (haudit : (Write.audit e).exec db₁ = some db')
    (haction : e.action = if role = .admin then .adminGranted else .adminRevoked) :
    Consistent db' := by
  obtain ⟨hms, -, -⟩ := updateOne_cases hupdate
  obtain ⟨⟨r₁, hr₁, hid₁⟩, -⟩ := audit_eq_some haudit
  obtain ⟨r, hr, rfl⟩ := (Table.mem_update hms).mp hr₁
  have hid : r.id = e.membershipId := by
    rw [← hid₁]
    split <;> rfl
  obtain ⟨hof, hstatus⟩ := hheld r hr hid
  -- the row under the names is the row under the id
  have hsame (m : OrganizationMembership) (hm : m ∈ db.memberships) :
      m.of u o ↔ m.id = e.membershipId := by
    constructor
    · intro hm'
      simp only [OrganizationMembership.of, Bool.and_eq_true, decide_eq_true_eq] at hof hm'
      rw [← hid, db.memberships.valid.2.1.eq hm hr (by rw [hm'.1, hm'.2, hof.1, hof.2])]
    · exact fun heq => (hheld m hm heq).1
  refine h.roleChange hupdate haudit (fun _ => rfl) hsame ?_ (fun m => ?_) fun m hm hp _ => ?_
  · rw [haction]
    split <;> rfl
  · rw [haction]
    cases role <;> simp
  · exact (hheld m hm ((hsame m hm).mp hp)).2

/-- An update of a row by its id, with the audit of its role. -/
theorem Consistent.changeById {p : OrganizationMembership → Bool}
    {f : OrganizationMembership → OrganizationMembership} {e : OrganizationMembershipAudit}
    {db₁ : Database} (h : Consistent db) (hupdate : db.updateOne p f = some db₁)
    (haudit : (Write.audit e).exec db₁ = some db') (hid : ∀ m, (f m).id = m.id)
    (hp : ∀ m, p m → m.id = e.membershipId) (hchange : isRoleChange e.action)
    (hrole : ∀ m, (f m).role = .admin ↔ e.action = .adminGranted)
    (happroved : ∀ m, (f m).role = .admin → (f m).status = .approved) : Consistent db' := by
  obtain ⟨-, -, r, hr, hpr⟩ := updateOne_cases hupdate
  refine h.roleChange hupdate haudit hid (fun m hm => ⟨hp m, fun heq => ?_⟩) hchange hrole
    fun m _ _ => happroved m
  rwa [db.memberships.valid.1.eq hm hr (heq.trans (hp r hpr).symm)]

/-- **A transaction keeps roles and trail in agreement.** -/
theorem Consistent.commit (h : Consistent db) (hheld : Held db call m)
    (hrep : (code text).replay (call.writes text m x) db = some db') : Consistent db' := by
  obtain ⟨operation, actorUserId⟩ := call
  cases operation with
  | updateMembershipStatus targetUserId organizationId decision reason =>
    obtain ⟨db₁, hreview, haudit⟩ := replay_two hrep
    simp only [Write.exec, Option.ite_none_right_eq_some] at hreview
    refine h.review hreview.2 haudit (fun _ => rfl) ?_ (fun _ => rfl) fun r hp => ?_
    · cases decision <;> rfl
    · simp only [Bool.and_eq_true, decide_eq_true_eq] at hp
      exact not_approved_of_mem_allowedStatuses hp.2
  | updateMembershipRole targetUserId organizationId role =>
    simp only [Call.writes] at hrep
    cases hrole : parseRole role with
    | none =>
      rw [hrole] at hrep
      obtain rfl : db = db' := Option.some.inj hrep
      exact h
    | some role' =>
      rw [hrole] at hrep
      obtain ⟨db₁, hupdate, haudit⟩ := replay_two hrep
      exact h.updateRole (hheld targetUserId organizationId role rfl) hupdate haudit rfl
  | removeMembership targetUserId organizationId => exact h.delete (replay_one text hrep)
  | appointChildAdministrator parentOrganizationId childOrganizationId email =>
    obtain ⟨db₁, happoint, haudit⟩ := replay_two hrep
    simp only [Write.exec, Option.ite_none_right_eq_some] at happoint
    refine h.changeById happoint.2 haudit (fun _ => rfl) (fun r hp => ?_) rfl
      (fun _ => iff_of_true rfl rfl) fun _ _ => rfl
    simp only [Bool.and_eq_true, decide_eq_true_eq] at hp
    exact hp.1
  | revokeChildAdministrator parentOrganizationId childOrganizationId targetUserId =>
    obtain ⟨db₁, hdemote, haudit⟩ := replay_two hrep
    exact h.changeById hdemote haudit (fun _ => rfl) (fun r hp => of_decide_eq_true hp) rfl
      (fun _ => by simp) fun _ hadmin => by cases hadmin

end Calls

/-! ## Runs -/

variable {text : TextFunctions}

/-- **What holds in every state**: roles and trail agree, and each call can rely on what it does. -/
structure Holds (s : Sessions Database Point Empty) : Prop where
  consistent : Consistent s.db
  calls : ∀ c ∈ s.calls, At s.db c.pc

/-- One call moves, and the others rely on what they did. -/
theorem Holds.moveTo {s : Sessions Database Point Empty} {i : ℕ} {p : Point}
    (h : Consistent s.db) (hcalls : ∀ c ∈ s.calls, At s.db c.pc) (hp : At s.db p) :
    Holds (Code.moveTo s i p) := by
  refine ⟨h, fun c hc => ?_⟩
  rcases Code.mem_set_cases hc with rfl | ⟨j, -, hj⟩
  · exact hp
  · exact hcalls c (List.mem_of_getElem? hj)

/-- **The step lemma.** -/
theorem Holds.step {s t : Sessions Database Point Empty} {l : Label Point Reading Creation}
    (h : Holds s) (hok : FreshIds s l) (hstep : (code text).step s l = some t) : Holds t := by
  cases Code.step_cases hstep with
  | @call p hp =>
    refine ⟨h.consistent, fun c hc => ?_⟩
    rcases List.mem_append.mp hc with hc | hc
    · exact h.calls c hc
    · obtain rfl := List.mem_singleton.mp hc
      cases p with
      | authorize => trivial
      | findChild | findCandidate | findMembership | countAdministrators | writing | returned
      | failed => cases hp
  | read hc h0 hread =>
    exact .moveTo h.consistent h.calls (at_read (h.calls _ (List.mem_of_getElem? hc)) hread)
  | write hc hlt hrep =>
    refine ⟨h.consistent, fun c hc' => ?_⟩
    rcases Code.mem_set_cases hc' with rfl | ⟨j, -, hj⟩
    · exact (h.calls _ (List.mem_of_getElem? hc) :)
    · exact h.calls c (List.mem_of_getElem? hj)
  | @commit i c db hc hpos hall hrep =>
    obtain ⟨pc, executed⟩ := c
    cases pc with
    | writing call m x =>
      have hheld := h.calls _ (List.mem_of_getElem? hc)
      refine .moveTo (h.consistent.commit hheld hrep) (fun c hc => ?_) trivial
      exact (h.calls c hc).keeps fun _ _ => keeps_statements hrep
    | authorize | findChild | findCandidate | findMembership | countAdministrators | returned
    | failed => exact absurd (hpos.trans_eq hall) (Nat.lt_irrefl 0)
  | @rollback i c hc =>
    refine .moveTo h.consistent h.calls ?_
    obtain ⟨pc, executed⟩ := c
    cases pc <;> trivial
  | outside hx =>
    refine ⟨h.consistent.creation hx, fun c hc => (h.calls c hc).keeps fun m hm => ?_⟩
    exact keeps_creation hx fun hmem => hok m.id hmem c hc m hm rfl

theorem holds_of_reachable {s : Sessions Database Point Empty}
    (hs : (machine text).Reachable FreshIds s) : Holds s := by
  refine hs.invariant (fun hinit => ?_) fun h hok hstep => h.step hok hstep
  obtain ⟨⟨hms, has⟩, -, hcalls⟩ := hinit
  refine ⟨⟨fun m hm => ?_, fun m hm => ?_, fun a ha => ?_⟩, fun c hc => ?_⟩
  · simp [← Table.mem_rows, hms] at hm
  · simp [← Table.mem_rows, hms] at hm
  · simp [← Table.mem_rows, has] at ha
  · simp [hcalls] at hc

/-- **A membership's role is what its audit trail says.**  In every state that any interleaving of
the service's calls with what creates memberships leads to, an administrator's membership is
approved, and a membership has the role of an administrator exactly if the last change of its role
in the trail gave it. -/
theorem role_matches_trail {s : Sessions Database Point Empty}
    (hs : (machine text).Reachable FreshIds s) :
    ∀ m ∈ s.db.memberships, (m.role = .admin → m.status = .approved)
      ∧ (m.role = .admin ↔ lastRoleChange s.db.audits.rows m.id = some .adminGranted) := by
  have h := (holds_of_reachable hs).consistent
  exact fun m hm => ⟨h.approved m hm, h.agrees m hm⟩

/-! ## A membership that is requested again -/

instance (s : Sessions Database Point Empty) :
    ∀ l : Label Point Reading Creation, Decidable (FreshIds s l)
  | .outside x =>
    inferInstanceAs (Decidable (∀ id ∈ x.membershipIds, ∀ c ∈ s.calls, ∀ m ∈ membershipRead c.pc, _))
  | .call _ | .read _ _ | .write _ | .commit _ | .rollback _ => inferInstanceAs (Decidable True)

/-- No accounts and no organizations. -/
def nothing : Sessions Database Point Empty where
  db :=
    { users := []
      organizations := []
      memberships := ⟨[], OrganizationMembership.constraints_nil⟩
      audits := ⟨[], OrganizationMembershipAudit.constraints_nil⟩ }
  history := []
  calls := []

/-- User 10 promotes user 11, whose membership is removed and requested again before the promotion
is written: the audit is rejected, and the new membership stays what it is. -/
theorem role_matches_trail_of_request : ∃ s,
    (machine ⟨id, id⟩).Reachable FreshIds s
      ∧ s.db.memberships.rows.map (fun m => (m.id, m.role, m.status))
        = [(20, .admin, .approved), (22, .member, .pending)]
      ∧ ∀ m ∈ s.db.memberships, (m.role = .admin → m.status = .approved)
        ∧ (m.role = .admin ↔ lastRoleChange s.db.audits.rows m.id = some .adminGranted) := by
  obtain ⟨s, hs, hp⟩ := (machine ⟨id, id⟩).exists_reachable_guarded
    (p := fun s l => decide (FreshIds s l)) (s := nothing)
    (q := fun t => decide (t.db.memberships.rows.map (fun m => (m.id, m.role, m.status))
      = [(20, .admin, .approved), (22, .member, .pending)]))
    ([.outside (.users [{ id := 10, email := "a" }, { id := 11, email := "b" }]),
        .outside (.createPlatformUniversity 1 ⟨10, 10, 20, 100, 1⟩),
        .outside (.verifyEmail 11 [1] ⟨2, fun _ => 21⟩)]
      ++ [.call (.authorize ⟨.updateMembershipRole 11 1 "ADMIN", 10⟩ {}), .read 0 { fetch := .user },
        .read 0 { fetch := .organization }, .read 0 { fetch := .membership },
        .read 0 { auditId := 101 }]
      ++ [.call (.authorize ⟨.removeMembership 11 1, 10⟩ {}), .read 1 { fetch := .user },
        .read 1 { fetch := .organization }, .read 1 { fetch := .membership }, .read 1 {}, .write 1,
        .commit 1]
      ++ [.outside (.requestMembership 11 1 [] ⟨3, fun _ => 22⟩), .write 0, .rollback 0])
    ⟨⟨rfl, rfl⟩, rfl, rfl⟩ (by decide)
  simp only [decide_eq_true_eq] at hs hp
  exact ⟨s, hs, hp, role_matches_trail hs⟩

end ResourceHive.Organizations.AuditTrail
