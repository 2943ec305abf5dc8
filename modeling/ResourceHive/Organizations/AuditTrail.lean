import ResourceHive.Organizations.AutoApproval

/-!
# Organizations/AuditTrail — the audits of a membership, and the machine that writes them

The calls of the membership service run among the transactions that create memberships: those of
`createPlatformUniversity`, `createChildOrganization`, `requestMembership` and `verifyEmail`.  The
last two are connected to the functions that also read (`exists_request`, `exists_verify`).
-/

namespace ResourceHive.Organizations.AuditTrail

/-! ## The trail -/

/-- An action that gives or takes the role of an administrator. -/
def isRoleChange : AuditAction → Bool
  | .adminGranted | .adminRevoked => true
  | .approved | .rejected => false

/-- The role changes of a membership, in the order they were inserted. -/
def roleChanges (audits : List OrganizationMembershipAudit) (membershipId : Uuid) :
    List AuditAction :=
  (audits.filter fun a => decide (a.membershipId = membershipId) && isRoleChange a.action).map
    (·.action)

/-- **The last role change of a membership.** -/
def lastRoleChange (audits : List OrganizationMembershipAudit) (membershipId : Uuid) :
    Option AuditAction :=
  (roleChanges audits membershipId).getLast?

/-! ## What creates memberships

What the reads of a transaction saw may be out of date when it writes, so nothing is assumed of what
they let through: the administrator of a new organization is anyone, and what the rules admit is any
list. -/

/-- The administrator of a new organization, who made it, and the identifiers and the time that
the transaction takes from outside. -/
structure Grant where
  adminUserId : Uuid
  actorUserId : Uuid
  membershipId : Uuid
  auditId : Uuid
  now : Timestamp
  deriving DecidableEq, Repr

/-- The membership that comes with a new organization. -/
def Grant.membership (g : Grant) (organizationId : Uuid) : OrganizationMembership where
  id := g.membershipId
  userId := g.adminUserId
  organizationId := organizationId
  role := .admin
  status := .approved
  reviewedBy := some g.actorUserId
  reviewedAt := some g.now

/-- Its audit. -/
def Grant.audit (g : Grant) : OrganizationMembershipAudit where
  id := g.auditId
  membershipId := g.membershipId
  actorUserId := g.actorUserId
  action := .adminGranted
  createdAt := g.now

/-- An organization, its administrator and the audit, in one transaction. -/
def createAdministered (db : Database) (organization : Organization) (g : Grant) :
    Option Database :=
  if (db.organization? organization.id).isSome then none
  else
    (Database.createMembership { db with organizations := db.organizations ++ [organization] }
      (g.membership organization.id)).bind (Write.exec (.audit g.audit))

/-- **The transaction of `createPlatformUniversity`.** -/
def createPlatformUniversity (db : Database) (organizationId : Uuid) (g : Grant) :
    Option Database :=
  createAdministered db
    { id := organizationId, parentId := none, rootOrganizationId := organizationId } g

/-- **The writes of `createChildOrganization`.** -/
def createChildOrganization (db : Database) (parentId organizationId : Uuid) (g : Grant) :
    Option Database :=
  (db.organization? parentId).bind fun parent =>
    createAdministered db
      { id := organizationId, parentId := some parentId,
        rootOrganizationId := parent.rootOrganizationId } g

/-- The memberships that the rules give. -/
def upsertMemberships (db : Database) (userId : Uuid) (admitted : List Uuid) (x : Supply) :
    Option Database :=
  admitted.foldlM (Database.upsertMembership x.ids userId) db

/-- **The writes of `requestMembership`.** -/
def request (db : Database) (userId organizationId : Uuid) (admitted : List Uuid) (x : Supply) :
    Option Database :=
  if organizationId ∈ admitted then upsertMemberships db userId admitted x
  else db.createMembership { id := x.ids organizationId, userId, organizationId }

/-- **The writes of `verifyEmail`.** -/
def verify (db : Database) (userId : Uuid) (admitted : List Uuid) (x : Supply) : Option Database :=
  (upsertMemberships db userId admitted x).map fun db =>
    { db with users := db.users.map fun u =>
        if u.id = userId then { u with emailVerifiedAt := some x.now } else u }

theorem elim_eq_ok {ε α : Type} {o : Option α} {e : ε} {a : α} :
    o.elim (Except.error e) Except.ok = .ok a ↔ o = some a := by
  cases o <;> simp

/-- The memberships a join writes. -/
theorem upsert_of_join {db db' : Registry} {userId : Uuid} {a : Admission} {x : Supply}
    (h : db.join x.ids userId a x.now = some db') :
    upsertMemberships db.toDatabase userId a.organizationIds x = some db'.toDatabase := by
  obtain ⟨database, hupsert, hconsume⟩ := Option.bind_eq_some_iff.mp h
  obtain ⟨allowlist, -, rfl⟩ := Option.map_eq_some_iff.mp hconsume
  exact hupsert

/-- **A request that goes through makes the writes of `request`**, for what it admitted. -/
theorem exists_request {text : TextFunctions} {fuel : ℕ} {db db' : Registry}
    {session : RequestUser} {organizationId : Uuid} {x : Supply}
    (h : Organizations.requestMembership text fuel db session organizationId x = some (.ok db')) :
    ∃ admitted, request db.toDatabase session.userId organizationId admitted x
      = some db'.toDatabase := by
  unfold Organizations.requestMembership at h
  split at h
  · cases h
  unfold requestIn at h
  split at h
  · cases h
  split at h
  · cases h
  split at h
  · cases h
  split at h
  · cases h
  obtain ⟨a, -, h⟩ := Option.map_eq_some_iff.mp h
  refine ⟨a.organizationIds, ?_⟩
  rw [request]
  split_ifs at h ⊢ with hmem
  · exact upsert_of_join (elim_eq_ok.mp h)
  · cases hcreate : db.createMembership
        { id := x.ids organizationId, userId := session.userId, organizationId } with
    | none => simp [hcreate] at h
    | some database =>
      simp only [hcreate, Option.elim_some, Except.ok.injEq] at h
      rw [← h]

/-- **A verification that goes through makes the writes of `verify`**, unless the email is verified
already. -/
theorem exists_verify {text : TextFunctions} {hashToken : String → String} {fuel : ℕ}
    {db db' : Registry} {token : String} {x : Supply}
    (h : Organizations.verifyEmail text hashToken fuel db token x = some (.ok db')) :
    db' = db ∨ ∃ userId admitted,
      verify db.toDatabase userId admitted x = some db'.toDatabase := by
  unfold Organizations.verifyEmail at h
  split at h
  · cases h
  rename_i verificationToken user huser
  split at h
  · exact .inl (Except.ok.inj (Option.some.inj h)).symm
  split at h
  · cases h
  split at h
  · cases h
  split at h
  · cases h
  split at h
  · cases h
  rename_i claimed hclaim
  obtain ⟨a, -, h⟩ := Option.map_eq_some_iff.mp h
  obtain ⟨tokens, -, rfl⟩ := Option.map_eq_some_iff.mp hclaim
  cases hjoin : Registry.join { db with verificationTokens := tokens } x.ids user.id a x.now with
  | none => simp [hjoin] at h
  | some joined =>
    simp only [hjoin, Option.elim_some, Except.ok.injEq] at h
    subst h
    refine .inr ⟨user.id, a.organizationIds, ?_⟩
    exact congrArg (Option.map _) (upsert_of_join hjoin)

/-! ## The machine -/

/-- What others do: accounts and organizations change, and memberships are created. -/
inductive Creation
  | users (users : List User)
  | organizations (organizations : List Organization)
  | createPlatformUniversity (organizationId : Uuid) (grant : Grant)
  | createChildOrganization (parentId organizationId : Uuid) (grant : Grant)
  | requestMembership (userId organizationId : Uuid) (admitted : List Uuid) (supply : Supply)
  | verifyEmail (userId : Uuid) (admitted : List Uuid) (supply : Supply)

namespace Creation

def exec : Creation → Database → Option Database
  | .users rows, db => some { db with users := rows }
  | .organizations rows, db => some { db with organizations := rows }
  | .createPlatformUniversity organizationId grant, db =>
    AuditTrail.createPlatformUniversity db organizationId grant
  | .createChildOrganization parentId organizationId grant, db =>
    AuditTrail.createChildOrganization db parentId organizationId grant
  | .requestMembership userId organizationId admitted supply, db =>
    request db userId organizationId admitted supply
  | .verifyEmail userId admitted supply, db => verify db userId admitted supply

/-- The identifiers for new memberships. -/
def membershipIds : Creation → List Uuid
  | .users _ | .organizations _ => []
  | .createPlatformUniversity _ grant | .createChildOrganization _ _ grant => [grant.membershipId]
  | .requestMembership _ organizationId admitted supply =>
    (organizationId :: admitted).map supply.ids
  | .verifyEmail _ admitted supply => admitted.map supply.ids

end Creation

/-- The calls of the membership service, among what creates memberships. -/
def code (text : TextFunctions) : Code Database Point Write Reading Creation Empty :=
  { Organizations.code text with outside := fun x db => x.exec db }

/-- The machine, from a database without memberships. -/
def machine (text : TextFunctions) :
    Machine (Sessions Database Point Empty) (Label Point Reading Creation) :=
  (code text).machine fun db => db.memberships.rows = [] ∧ db.audits.rows = []

/-- **Identifiers are fresh**: none for a new membership is that of a membership which a call in
progress has read. -/
def FreshIds (s : Sessions Database Point Empty) : Label Point Reading Creation → Prop
  | .outside x => ∀ id ∈ x.membershipIds, ∀ c ∈ s.calls, ∀ m ∈ membershipRead c.pc, m.id ≠ id
  | _ => True

/-! ## The last role change -/

section Trail

variable {audits : List OrganizationMembershipAudit} {a : OrganizationMembershipAudit} {id : Uuid}

theorem roleChanges_append : roleChanges (audits ++ [a]) id =
    roleChanges audits id
      ++ if a.membershipId = id ∧ isRoleChange a.action then [a.action] else [] := by
  rw [roleChanges, List.filter_append, List.map_append]
  by_cases h : a.membershipId = id ∧ isRoleChange a.action
  · rw [if_pos h, List.filter_cons_of_pos (by simpa using h)]
    rfl
  · rw [if_neg h, List.filter_cons_of_neg (by simpa using h)]
    rfl

theorem lastRoleChange_append_self (h : isRoleChange a.action) :
    lastRoleChange (audits ++ [a]) a.membershipId = some a.action := by
  rw [lastRoleChange, roleChanges_append, if_pos ⟨rfl, h⟩, List.getLast?_concat]

theorem lastRoleChange_append_of_not (h : ¬ (a.membershipId = id ∧ isRoleChange a.action)) :
    lastRoleChange (audits ++ [a]) id = lastRoleChange audits id := by
  rw [lastRoleChange, roleChanges_append, if_neg h, List.append_nil, lastRoleChange]

/-- A membership that no audit refers to. -/
theorem lastRoleChange_eq_none (h : ∀ a ∈ audits, a.membershipId ≠ id) :
    lastRoleChange audits id = none := by
  rw [lastRoleChange, roleChanges, List.filter_eq_nil_iff.mpr fun a ha => by simp [h a ha]]
  rfl

/-- Audits of other memberships may go. -/
theorem lastRoleChange_filter {p : OrganizationMembershipAudit → Bool}
    (h : ∀ a ∈ audits, a.membershipId = id → p a) :
    lastRoleChange (audits.filter p) id = lastRoleChange audits id := by
  rw [lastRoleChange, lastRoleChange, roleChanges, roleChanges, List.filter_filter]
  congr 2
  refine List.filter_congr fun a ha => ?_
  by_cases hid : a.membershipId = id
  · simp [hid, h a ha hid]
  · simp [hid]

end Trail

end ResourceHive.Organizations.AuditTrail
