import ResourceHive.Bookings.Database
import ResourceHive.Organizations.Hierarchy
import ResourceHive.Organizations.MembershipService

/-!
# Organizations/Guards — who administers an organization, to the guards and to the slot service

`TenantGuard` looks for an administrator's membership in the organization and then in one ancestor
after the other, `SlotRepository.canManageResource` collects all of them first and climbs from the
owner of the resource.  In a forest both find one exactly if there is one on the chain of the
organization (`administration_agrees`).
-/

namespace ResourceHive.Organizations

open Ancestry
open Bookings (Resource)

/-! ## Row security -/

theorem OrganizationMembership.Constraints.filter {rows : List OrganizationMembership}
    (h : Constraints rows) (p : OrganizationMembership → Bool) : Constraints (rows.filter p) :=
  ⟨h.1.sublist (List.filter_sublist.map _), h.2.1.sublist (List.filter_sublist.map _),
    fun m hm => h.2.2 m (List.mem_of_mem_filter hm)⟩

/-- **What a request of a university sees**: `organizations_tenant` and `memberships_tenant`. -/
def Database.visibleTo (db : Database) (rootOrganizationId : Uuid) : Database :=
  let organizations := db.organizations.filter (·.rootOrganizationId = rootOrganizationId)
  { db with
    organizations
    memberships :=
      ⟨db.memberships.rows.filter fun m => organizations.any (·.id = m.organizationId),
        db.memberships.valid.filter _⟩ }

/-! ## `TenantGuard` and `AdminGuard` -/

inductive GuardError
  | authenticationRequired
  | universityRequired
  | noAccess
  | suspended
  | noMembershipContext
  | administratorRequired
  deriving DecidableEq, Repr

/-- The message of the `ForbiddenException`. -/
def GuardError.message : GuardError → String
  | authenticationRequired => "Authentication is required."
  | universityRequired => "Select a university before accessing organizations."
  | noAccess => "You do not have access to this organization."
  | suspended => "This organization is suspended and cannot be accessed."
  | noMembershipContext =>
    "No membership context found. TenantGuard must be applied first."
  | administratorRequired => "Administrator privileges are required to perform this action."

/-- An approved membership of an administrator. -/
def OrganizationMembership.administers (m : OrganizationMembership) : Bool :=
  decide (m.status = .approved) && decide (m.role = .admin)

/-- **A round of the loop over the ancestors**: an ancestor that is missing or of another university
ends it, and so does a membership of an administrator. -/
def visitAncestor (db : Database) (userId : Uuid) (targetOrg : Organization) (_ : Unit)
    (currentOrgId : Uuid) : Round Uuid (Option OrganizationMembership) Unit :=
  match db.organization? currentOrgId with
  | none => .done none
  | some currentOrg =>
    if currentOrg.rootOrganizationId ≠ targetOrg.rootOrganizationId then .done none
    else match (db.membership? userId currentOrgId).filter (·.administers) with
      | some ancestorMembership => .done (some ancestorMembership)
      | none => .next () currentOrg.parentId

/-- **`checkOrganizationAccess`**: the membership it attaches to the request.  The loop is given
`fuel` rounds, and the result is `none` if that is not enough. -/
def checkOrganizationAccess (fuel : ℕ) (db : Database) (organizationId userId : Uuid) :
    Option (Except GuardError OrganizationMembership) :=
  let bestMembership := (db.membership? userId organizationId).filter (·.status = .approved)
  match db.organization? organizationId with
  | none => some (bestMembership.elim (.error .noAccess) .ok)
  | some targetOrg =>
    if targetOrg.status ≠ .active then some (.error .suspended)
    else match bestMembership.filter (·.role = .admin) with
      | some membership => some (.ok membership)
      | none =>
        (climb (visitAncestor db userId targetOrg) (fun _ => none) fuel () targetOrg.parentId).map
          fun
          | some inherited => .ok inherited
          | none => bestMembership.elim (.error .noAccess) .ok

/-- **`AdminGuard.canActivate`**, of the membership the request has. -/
def adminGuard : Option OrganizationMembership → Except GuardError Unit
  | none => .error .noMembershipContext
  | some membership =>
    if membership.role ≠ .admin then .error .administratorRequired else .ok ()

/-- What a request is known by. -/
structure RequestUser where
  userId : Uuid
  rootOrganizationId : Option Uuid
  deriving DecidableEq, Repr

/-- **`TenantGuard.canActivate`**: the membership the request has after it, if the guard lets it
pass.  A route without an organization passes as it is. -/
def tenantGuard (fuel : ℕ) (db : Database) (user : Option RequestUser)
    (organizationId : Option Uuid) : Option (Except GuardError (Option OrganizationMembership)) :=
  match user, organizationId with
  | none, _ => some (.error .authenticationRequired)
  | some _, none => some (.ok none)
  | some user, some organizationId =>
    match user.rootOrganizationId with
    | none => some (.error .universityRequired)
    | some root =>
      (checkOrganizationAccess fuel (db.visibleTo root) organizationId user.userId).map
        (·.map some)

/-- **Both guards let a request of the user pass** at a route of the organization. -/
def Admitted (fuel : ℕ) (db : Database) (user : RequestUser) (organizationId : Uuid) : Prop :=
  ∃ membership, tenantGuard fuel db (some user) (some organizationId) = some (.ok membership)
    ∧ adminGuard membership = .ok ()

/-! ## `SlotRepository.canManageResource` -/

/-- The organization of a university that a row names as its parent. -/
def parentRow (rows : List Organization) (rootOrganizationId : Uuid) (o : Organization) :
    Option Organization :=
  o.parentId.bind fun parentId =>
    rows.find? fun q => decide (q.id = parentId) && decide (q.rootOrganizationId = rootOrganizationId)

/-- **A round of the loop over the owner and its ancestors.** -/
def visitOwner (rows : List Organization) (rootOrganizationId : Uuid)
    (administratorIds : List Uuid) (_ : Unit) (organization : Organization) :
    Round Organization Bool Unit :=
  if organization.id ∈ administratorIds then .done true
  else match organization.parentId with
    | none => .done false
    | some _ => .next () (parentRow rows rootOrganizationId organization)

/-- `administratorMemberships`. -/
def administratorIds (db : Database) (userId rootOrganizationId : Uuid) : List Uuid :=
  (db.memberships.rows.filter fun m => decide (m.userId = userId) && m.administers
    && (db.organization? m.organizationId).any (·.rootOrganizationId = rootOrganizationId)).map
      (·.organizationId)

/-- **`canManageResource`**, with `fuel` rounds of its loop. -/
def canManageResource (fuel : ℕ) (db : Database)
    (resources : Table Resource (Table.Unique Resource.id))
    (resourceId userId rootOrganizationId : Uuid) : Option Bool :=
  match resources.find? fun r => decide (r.id = resourceId)
      && decide (r.rootOrganizationId = rootOrganizationId) && decide (r.status = .active) with
  | none => some false
  | some resource =>
    climb (visitOwner db.organizations rootOrganizationId
        (administratorIds db userId rootOrganizationId))
      (fun _ => false) fuel () (db.organization? resource.ownerOrganizationId)

/-! ## Memberships of administrators -/

/-- **The user has an approved administrator's membership in the organization.** -/
def Database.Administers (db : Database) (userId organizationId : Uuid) : Prop :=
  ∃ m ∈ db.memberships, m.userId = userId ∧ m.organizationId = organizationId ∧ m.administers

variable {db : Database} {T : Hierarchy} {o : Organization} {userId id root : Uuid} {fuel : ℕ}

theorem membership?_eq_some {m : OrganizationMembership} :
    db.membership? userId id = some m ↔
      m ∈ db.memberships ∧ m.userId = userId ∧ m.organizationId = id := by
  constructor
  · intro h
    have hkey := Table.pred_of_find? h
    simp only [OrganizationMembership.of, Bool.and_eq_true, decide_eq_true_eq] at hkey
    exact ⟨Table.mem_of_find? h, hkey⟩
  · rintro ⟨hm, rfl, rfl⟩
    refine db.memberships.valid.2.1.find?_eq_of hm (by simp [OrganizationMembership.of]) fun x hx => ?_
    simpa [OrganizationMembership.of] using hx

theorem administers_iff : db.Administers userId id ↔
    ((db.membership? userId id).filter (·.administers)).isSome := by
  rw [Option.isSome_iff_exists]
  simp only [Option.filter_eq_some_iff, membership?_eq_some, Database.Administers, and_assoc]

/-- Row security hides no membership in an organization of the university. -/
theorem administers_visibleTo (ho : o ∈ db.organizations) (hroot : o.rootOrganizationId = root) :
    (db.visibleTo root).Administers userId o.id ↔ db.Administers userId o.id := by
  constructor
  · rintro ⟨m, hm, h⟩
    exact ⟨m, List.mem_of_mem_filter hm, h⟩
  · rintro ⟨m, hm, hu, hid, hadmin⟩
    refine ⟨m, List.mem_filter.mpr ⟨hm, List.any_eq_true.mpr ⟨o, ?_, by simp [hid]⟩⟩,
      hu, hid, hadmin⟩
    exact List.mem_filter.mpr ⟨ho, decide_eq_true hroot⟩

/-! ## One university of a forest -/

namespace Hierarchy

/-- The same chain, as rows. -/
theorem exists_rows_of_chain {a : Uuid} {chain : List Uuid} (h : Chain (parentOf T.rows) a chain)
    (ho : o ∈ T) (hid : o.id = a) (hroot : o.rootOrganizationId = root) :
    ∃ os, Chain (parentRow T.rows root) o os ∧ os.map (·.id) = chain := by
  induction h generalizing o with
  | top hnone =>
    rw [← hid, parentOf_eq T.valid.1 ho] at hnone
    exact ⟨[o], .top (by rw [parentRow, hnone]; rfl), by rw [← hid]; rfl⟩
  | @up a b chain hsome _ ih =>
    rw [← hid, parentOf_eq T.valid.1 ho] at hsome
    obtain ⟨q, hq, hqid, hqroot⟩ := T.valid.2.2 o ho b hsome
    obtain ⟨os, hos, hmap⟩ := ih hq hqid (hqroot.trans hroot)
    refine ⟨o :: os, .up ?_ hos, by rw [List.map_cons, hmap, hid]⟩
    have hfind : T.rows.find? (fun x => decide (x.id = b) && decide (x.rootOrganizationId = root))
        = some q := by
      refine T.valid.1.find?_eq_of hq (by simp [hqid, hqroot, hroot]) fun x hx => ?_
      simp only [Bool.and_eq_true, decide_eq_true_eq] at hx
      rw [hx.1, hqid]
    rw [parentRow, hsome]
    exact hfind

end Hierarchy

/-! ## The loops -/

theorem follows_visitAncestor {target : Organization} (hdb : db.organizations = T.rows) :
    Follows (parentOf T.rows) (visitAncestor db userId target) := by
  intro _ a _ node h
  unfold visitAncestor at h
  cases hrow : db.organization? a with
  | none => simp [hrow] at h
  | some currentOrg =>
    simp only [hrow] at h
    split at h
    · cases h
    · split at h
      · cases h
      · rw [parentOf, ← hdb]
        rw [Database.organization?] at hrow
        rw [hrow, Option.bind_some]
        exact ((Round.next.inj h).2).symm

/-- **The loop over the ancestors finds the first administrator's membership on the chain.** -/
theorem along_visitAncestor {target : Organization} (hdb : db.organizations = T.rows) :
    ∀ {chain : List Uuid}, (∀ id ∈ chain, ∃ q ∈ T.rows, q.id = id
        ∧ q.rootOrganizationId = target.rootOrganizationId) →
      along (visitAncestor db userId target) (fun _ => none) () chain =
        chain.findSome? fun id => (db.membership? userId id).filter (·.administers)
  | [], _ => rfl
  | id :: chain, hchain => by
      obtain ⟨q, hq, rfl, hroot⟩ := hchain id (List.mem_cons_self ..)
      have hfind : db.organization? q.id = some q := by
        rw [Database.organization?, hdb, Hierarchy.find?_eq T.valid.1 hq]
      rw [along, visitAncestor, hfind, List.findSome?_cons]
      simp only [hroot, ne_eq, not_true_eq_false, if_false]
      cases (db.membership? userId q.id).filter (·.administers) with
      | some m => rfl
      | none => exact along_visitAncestor hdb fun id hid => hchain id (List.mem_cons_of_mem _ hid)

theorem follows_visitOwner {ids : List Uuid} :
    Follows (parentRow T.rows root) (visitOwner T.rows root ids) := by
  intro _ a _ node h
  unfold visitOwner at h
  split at h
  · cases h
  · split at h
    · cases h
    · exact ((Round.next.inj h).2).symm

/-- **The loop over the owner and its ancestors tests each of them.** -/
theorem along_visitOwner {ids : List Uuid} {os : List Organization}
    (h : Chain (parentRow T.rows root) o os) :
    along (visitOwner T.rows root ids) (fun _ => false) () os =
      os.any fun q => decide (q.id ∈ ids) := by
  induction h with
  | @top o hnone =>
    rw [along, visitOwner]
    by_cases hmem : o.id ∈ ids
    · simp [hmem]
    · cases o.parentId <;> simp [hmem, along]
  | @up o q os hsome _ ih =>
    rw [along, visitOwner, List.any_cons]
    by_cases hmem : o.id ∈ ids
    · simp [hmem]
    · cases hparent : o.parentId with
      | none => simp [parentRow, hparent] at hsome
      | some => simpa [hmem] using ih

/-! ## What each implementation decides -/

/-- **The user administers the organization or one above it.** -/
def Database.Inherits (db : Database) (userId organizationId : Uuid) : Prop :=
  ∃ id, Relation.ReflTransGen (Up (parentOf db.organizations)) organizationId id
    ∧ db.Administers userId id

/-- The organizations that are collected, as far as they are of the university. -/
theorem mem_administratorIds (ho : db.organization? id = some o)
    (hroot : o.rootOrganizationId = root) :
    id ∈ administratorIds db userId root ↔ db.Administers userId id := by
  simp only [administratorIds, List.mem_map, List.mem_filter, Bool.and_eq_true, decide_eq_true_eq]
  constructor
  · rintro ⟨m, ⟨hm, ⟨hu, hadmin⟩, -⟩, hid⟩
    exact ⟨m, hm, hu, hid, hadmin⟩
  · rintro ⟨m, hm, hu, hid, hadmin⟩
    exact ⟨m, ⟨hm, ⟨hu, hadmin⟩, by rw [hid, ho]; simpa using hroot⟩, hid⟩

section Decisions

variable (hdb : db.organizations = T.rows) (hT : Grounded (parentOf T.rows)) (ho : o ∈ T)
  (hfuel : T.rows.length ≤ fuel)

include hdb hT in
variable (userId) in
/-- Inheritance, along the chain of the organization. -/
theorem inherits_iff (o : Organization) : ∃ rest, Chain (parentOf T.rows) o.id (o.id :: rest)
    ∧ (db.Inherits userId o.id ↔ ∃ id ∈ o.id :: rest, db.Administers userId id) := by
  obtain ⟨chain, hchain⟩ := hT o.id
  obtain ⟨rest, rfl⟩ := hchain.exists_cons
  refine ⟨rest, hchain, ?_⟩
  simp only [Database.Inherits, hdb, hchain.mem_iff]

include hdb ho hfuel

/-- **The loop over the ancestors of an organization**, which is over in time. -/
theorem climb_visitAncestor {rest : List Uuid} (h : Chain (parentOf T.rows) o.id (o.id :: rest)) :
    climb (visitAncestor db userId o) (fun _ => none) fuel () o.parentId =
      some (rest.findSome? fun id => (db.membership? userId id).filter (·.administers)) := by
  have hrows := (Hierarchy.root_of_chain h ho rfl).1
  have hlength : (o.id :: rest).length ≤ fuel := (Hierarchy.length_chain_le ho h).trans hfuel
  rw [← Hierarchy.parentOf_eq T.valid.1 ho,
    climb_parent_eq (follows_visitAncestor hdb) h (Nat.le_of_succ_le hlength),
    along_visitAncestor hdb fun id hid => hrows id (List.mem_cons_of_mem _ hid)]

include hT

/-- **`checkOrganizationAccess` attaches an administrator's membership** to the requests of those
who administer the active organization or one above it. -/
theorem checkOrganizationAccess_admin_iff :
    (∃ m, checkOrganizationAccess fuel db o.id userId = some (.ok m) ∧ m.role = .admin) ↔
      o.status = .active ∧ db.Inherits userId o.id := by
  obtain ⟨rest, hchain, hinherits⟩ := inherits_iff userId hdb hT o
  have hrow : db.organization? o.id = some o := by
    rw [Database.organization?, hdb, Hierarchy.find?_eq T.valid.1 ho]
  have hboth : ((db.membership? userId o.id).filter (·.status = .approved)).filter (·.role = .admin)
      = (db.membership? userId o.id).filter (·.administers) := by
    rw [Option.filter_filter]
    simp only [OrganizationMembership.administers, Bool.and_comm]
  simp only [checkOrganizationAccess, hrow, hboth, climb_visitAncestor hdb ho hfuel hchain,
    hinherits, administers_iff, List.exists_mem_cons_iff]
  by_cases hactive : o.status = .active
  · rw [if_neg (not_not_intro hactive)]
    simp only [hactive, true_and]
    cases hdirect : (db.membership? userId o.id).filter (·.administers) with
    | some m =>
      have hm := (Option.filter_eq_some_iff.mp hdirect).2
      simp only [OrganizationMembership.administers, Bool.and_eq_true, decide_eq_true_eq] at hm
      exact iff_of_true ⟨m, rfl, hm.2⟩ (.inl rfl)
    | none =>
      cases hfound : rest.findSome? fun id => (db.membership? userId id).filter (·.administers) with
      | some m =>
        obtain ⟨id, hid, hm⟩ := List.exists_of_findSome?_eq_some hfound
        have hadmin := (Option.filter_eq_some_iff.mp hm).2
        simp only [OrganizationMembership.administers, Bool.and_eq_true, decide_eq_true_eq] at hadmin
        exact iff_of_true ⟨m, rfl, hadmin.2⟩ (.inr ⟨id, hid, by rw [hm]; rfl⟩)
      | none =>
        rw [List.findSome?_eq_none_iff] at hfound
        refine iff_of_false ?_ ?_
        · rintro ⟨m, hm, hrole⟩
          cases hbest : (db.membership? userId o.id).filter (·.status = .approved) with
          | none => simp [hbest] at hm
          | some best =>
            simp only [hbest, Option.map_some, Option.elim_some, Option.some.injEq,
              Except.ok.injEq] at hm
            subst hm
            rw [hbest, hdirect] at hboth
            simp [hrole] at hboth
        · rintro (hnone | ⟨id, hid, hsome⟩)
          · cases hnone
          · rw [hfound id hid] at hsome
            cases hsome
  · simp [hactive]

/-- **`canManageResource` answers yes** for those who administer the owner or one above it. -/
theorem canManageResource_iff (hroot : o.rootOrganizationId = root)
    {resources : Table Resource (Table.Unique Resource.id)} {resource : Resource}
    (hresource : resource ∈ resources) (hactive : resource.status = .active)
    (hresourceRoot : resource.rootOrganizationId = root)
    (howner : resource.ownerOrganizationId = o.id) :
    canManageResource fuel db resources resource.id userId root = some true ↔
      db.Inherits userId o.id := by
  obtain ⟨rest, hchain, hinherits⟩ := inherits_iff userId hdb hT o
  obtain ⟨os, hos, hmap⟩ := Hierarchy.exists_rows_of_chain hchain ho rfl hroot
  have hfind : (resources.find? fun r => decide (r.id = resource.id)
      && decide (r.rootOrganizationId = root) && decide (r.status = .active)) = some resource :=
    resources.valid.find?_eq_of hresource (by simp [hresourceRoot, hactive]) fun r hr => by
      simp only [Bool.and_eq_true, decide_eq_true_eq] at hr
      exact hr.1.1
  have hrow : db.organization? resource.ownerOrganizationId = some o := by
    rw [Database.organization?, hdb, howner, Hierarchy.find?_eq T.valid.1 ho]
  have hlength : os.length ≤ fuel := by
    rw [← List.length_map (·.id), hmap]
    exact (Hierarchy.length_chain_le ho hchain).trans hfuel
  rw [canManageResource, hfind]
  simp only [hrow, hdb]
  rw [climb_eq follows_visitOwner hos hlength, along_visitOwner hos, hinherits]
  have hcollected (id : Uuid) (hid : id ∈ o.id :: rest) :
      id ∈ administratorIds db userId root ↔ db.Administers userId id := by
    obtain ⟨q, hq, rfl, hqroot⟩ := (Hierarchy.root_of_chain hchain ho rfl).1 id hid
    exact mem_administratorIds (by rw [Database.organization?, hdb, Hierarchy.find?_eq T.valid.1 hq])
      (hqroot.trans hroot)
  simp only [Option.some.injEq, List.any_eq_true, decide_eq_true_eq]
  constructor
  · rintro ⟨q, hq, hmem⟩
    have hid : q.id ∈ o.id :: rest := hmap ▸ List.mem_map_of_mem hq
    exact ⟨q.id, hid, (hcollected q.id hid).mp hmem⟩
  · rintro ⟨id, hid, hadmin⟩
    obtain ⟨q, hq, rfl⟩ := List.mem_map.mp (hmap ▸ hid)
    exact ⟨q, hq, (hcollected q.id hid).mpr hadmin⟩

end Decisions

/-! ## The agreement -/

/-- Both guards together, of a request within a university. -/
theorem admitted_iff {user : RequestUser} (huser : user.rootOrganizationId = some root) :
    Admitted fuel db user id ↔ ∃ m,
      checkOrganizationAccess fuel (db.visibleTo root) id user.userId = some (.ok m)
        ∧ m.role = .admin := by
  simp only [Admitted, tenantGuard, huser, Option.map_eq_some_iff]
  constructor
  · rintro ⟨membership, ⟨access, haccess, hmap⟩, hadmin⟩
    cases access with
    | error e => cases hmap
    | ok m =>
      obtain rfl := Except.ok.inj hmap
      refine ⟨m, haccess, ?_⟩
      by_contra hrole
      simp [adminGuard, hrole] at hadmin
  · rintro ⟨m, haccess, hrole⟩
    exact ⟨some m, ⟨.ok m, haccess, rfl⟩, by simp [adminGuard, hrole]⟩

theorem organizations_visibleTo (hdb : db.organizations = T.rows) (root : Uuid) :
    (db.visibleTo root).organizations = (T.ofRoot root).rows :=
  congrArg (List.filter fun q : Organization => q.rootOrganizationId = root) hdb

/-- Row security hides no ancestor. -/
theorem inherits_visibleTo (hdb : db.organizations = T.rows) (hT : Grounded (parentOf T.rows))
    (ho : o ∈ T) (hroot : o.rootOrganizationId = root) :
    (db.visibleTo root).Inherits userId o.id ↔ db.Inherits userId o.id := by
  obtain ⟨rest, hchain, hinherits⟩ := inherits_iff userId hdb hT o
  have hchain' := Hierarchy.chain_ofRoot hchain ho hroot
  rw [hinherits, Database.Inherits, organizations_visibleTo hdb]
  simp only [← hchain'.mem_iff]
  refine exists_congr fun id => and_congr_right fun hid => ?_
  obtain ⟨q, hq, rfl, hqroot⟩ := (Hierarchy.root_of_chain hchain ho rfl).1 id hid
  exact administers_visibleTo (hdb ▸ hq) (hqroot.trans hroot)

/-- **The guards and the slot service agree**: in any forest and with any memberships, the guards
admit a user to an organization of his university if and only if it is active and he administers it
or one above it, and that is also whom the slot service lets manage the active resources of an
active organization. -/
theorem administration_agrees {s : Hierarchy.State} (hs : Hierarchy.machine.Reachable Machine.free s)
    (hdb : db.organizations = s.committed.rows) (hfuel : db.organizations.length ≤ fuel)
    {user : RequestUser} (huser : user.rootOrganizationId = some root)
    (ho : o ∈ db.organizations) (hroot : o.rootOrganizationId = root) :
    (Admitted fuel db user o.id ↔ o.status = .active ∧ db.Inherits user.userId o.id)
      ∧ ∀ (resources : Table Resource (Table.Unique Resource.id)), ∀ resource ∈ resources,
        resource.status = .active → resource.rootOrganizationId = root →
        resource.ownerOrganizationId = o.id → o.status = .active →
          (canManageResource fuel (db.visibleTo root) resources resource.id user.userId root
              = some true ↔ Admitted fuel db user o.id) := by
  have hT := (Hierarchy.acyclic_of_reachable hs).1
  have ho' : o ∈ s.committed.rows := hdb ▸ ho
  have hvisible := organizations_visibleTo hdb root
  have hgrounded := Hierarchy.grounded_ofRoot hT root
  have hmem : o ∈ s.committed.ofRoot root := Hierarchy.mem_ofRoot.mpr ⟨ho', hroot⟩
  have hlength : (s.committed.ofRoot root).rows.length ≤ fuel :=
    (List.length_filter_le _ _).trans (hdb ▸ hfuel)
  have hadmitted : Admitted fuel db user o.id ↔
      o.status = .active ∧ db.Inherits user.userId o.id := by
    rw [admitted_iff huser, checkOrganizationAccess_admin_iff hvisible hgrounded hmem hlength,
      inherits_visibleTo hdb hT ho' hroot]
  refine ⟨hadmitted, fun resources resource hresource hactive hresourceRoot howner hoactive => ?_⟩
  rw [canManageResource_iff hvisible hgrounded hmem hlength hroot hresource hactive hresourceRoot
    howner, inherits_visibleTo hdb hT ho' hroot, hadmitted, hoactive, eq_self, true_and]

/-- User 7 administers the university, and a resource belongs to the organization below it. -/
def delegated : Database where
  users := [{ id := 7, email := "a" }]
  organizations := Hierarchy.university
  memberships := ⟨[{ id := 30, userId := 7, organizationId := 1, role := .admin,
                     status := .approved }], by decide⟩
  audits := ⟨[], OrganizationMembershipAudit.constraints_nil⟩

def laboratories : Table Resource (Table.Unique Resource.id) :=
  ⟨[⟨20, "Laboratory", 2, 1, .active, 5, 0, [], none⟩], by decide⟩

/-- An administrator of the university may enter the organization and manage its resource. -/
theorem administration_agrees_of_university : Admitted 2 delegated ⟨7, some 1⟩ 2
    ∧ canManageResource 2 (delegated.visibleTo 1) laboratories 20 7 1 = some true := by
  obtain ⟨s, hs, hrows⟩ := Hierarchy.reachable_university
  have hdb : delegated.organizations = s.committed.rows := hrows.symm
  have hmem : (⟨2, some 1, 1, .active⟩ : Organization) ∈ delegated.organizations := by decide
  obtain ⟨hadmitted, hmanage⟩ := administration_agrees hs hdb (le_refl 2)
    (show (RequestUser.mk 7 (some 1)).rootOrganizationId = some 1 from rfl) hmem rfl
  have hinherits : delegated.Inherits 7 2 :=
    ⟨1, .single (by decide : parentOf delegated.organizations 2 = some 1), by
      exact ⟨_, List.mem_singleton_self _, rfl, rfl, rfl⟩⟩
  have hboth := hadmitted.mpr ⟨rfl, hinherits⟩
  exact ⟨hboth, (hmanage laboratories _ (List.mem_singleton_self _) rfl rfl rfl rfl).mpr hboth⟩

end ResourceHive.Organizations
