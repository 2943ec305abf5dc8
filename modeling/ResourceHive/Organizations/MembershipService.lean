import ResourceHive.Machinery.Transactions
import ResourceHive.Organizations.Membership

/-!
# Organizations/MembershipService — the calls that review, promote, demote and remove members

`MembershipsService.updateMembershipStatus`, `updateMembershipRole`, `removeMembership`,
`appointChildAdministrator` and `revokeChildAdministrator` as programs over one database.  Each query
outside a transaction is a step of its own: the three of `assertDirectOrganizationAdmin`, made
together, come back in any order, and the count of `assertNotLastAdministrator` is a step before the
transaction it allows.
-/

namespace ResourceHive.Organizations

/-! ## Tables -/

inductive PlatformRole
  | platformAdmin
  | user
  deriving DecidableEq, Repr

/-- A row of `users`. -/
structure User where
  id : Uuid
  email : String
  status : AccountStatus := .active
  platformRole : PlatformRole := .user
  emailVerifiedAt : Option Timestamp := none
  deriving DecidableEq, Repr

inductive AuditAction
  | approved
  | rejected
  | adminGranted
  | adminRevoked
  deriving DecidableEq, Repr

/-- A row of `organization_membership_audits`. -/
structure OrganizationMembershipAudit where
  id : Uuid
  membershipId : Uuid
  actorUserId : Uuid
  action : AuditAction
  note : Option String := none
  createdAt : Timestamp
  deriving DecidableEq, Repr

/-- The CHECK on the length of a note. -/
def NoteCheck (note : Option String) : Prop := ∀ n ∈ note, n.length ≤ 500

instance : DecidablePred NoteCheck := fun _ => inferInstanceAs (Decidable (∀ n ∈ _, _))

namespace OrganizationMembership

/-- The row of a user in an organization. -/
def of (userId organizationId : Uuid) (m : OrganizationMembership) : Bool :=
  decide (m.userId = userId) && decide (m.organizationId = organizationId)

/-- An approved administrator of the organization. -/
def isAdministratorOf (organizationId : Uuid) (m : OrganizationMembership) : Bool :=
  decide (m.organizationId = organizationId) && decide (m.role = .admin)
    && decide (m.status = .approved)

theorem isAdministratorOf_iff {organizationId : Uuid} {m : OrganizationMembership} :
    m.isAdministratorOf organizationId = true ↔
      m.organizationId = organizationId ∧ m.role = .admin ∧ m.status = .approved := by
  simp [isAdministratorOf, and_assoc]

/-- The primary key, the unique index, and the CHECK. -/
def Constraints (rows : List OrganizationMembership) : Prop :=
  Table.Unique id rows ∧ Table.Unique (fun m => (m.userId, m.organizationId)) rows
    ∧ Table.Check (fun m => NoteCheck m.reviewNote) rows

instance : DecidablePred Constraints := fun _ => inferInstanceAs (Decidable (_ ∧ _ ∧ _))

theorem constraints_nil : Constraints [] := by decide

end OrganizationMembership

namespace OrganizationMembershipAudit

/-- The primary key and the CHECK. -/
def Constraints (rows : List OrganizationMembershipAudit) : Prop :=
  Table.Unique id rows ∧ Table.Check (fun a => NoteCheck a.note) rows

instance : DecidablePred Constraints := fun _ => inferInstanceAs (Decidable (_ ∧ _))

theorem constraints_nil : Constraints [] := by decide

end OrganizationMembershipAudit

structure Database where
  users : List User
  organizations : List Organization
  memberships : Table OrganizationMembership OrganizationMembership.Constraints
  audits : Table OrganizationMembershipAudit OrganizationMembershipAudit.Constraints

namespace Database

def user? (db : Database) (id : Uuid) : Option User := db.users.find? (·.id = id)

def organization? (db : Database) (id : Uuid) : Option Organization :=
  db.organizations.find? (·.id = id)

def membership? (db : Database) (userId organizationId : Uuid) : Option OrganizationMembership :=
  db.memberships.find? (·.of userId organizationId)

/-- The number of approved administrators. -/
def adminCount (db : Database) (organizationId : Uuid) : ℕ :=
  (db.memberships.rows.filter (·.isAdministratorOf organizationId)).length

end Database

/-! ## Write statements -/

inductive MembershipDecision
  | approved
  | rejected
  deriving DecidableEq, Repr

namespace MembershipDecision

/-- `allowedStatuses`. -/
def allowedStatuses : MembershipDecision → List MembershipStatus
  | approved => [.pending, .rejected]
  | rejected => [.pending]

def status : MembershipDecision → MembershipStatus
  | approved => .approved
  | rejected => .rejected

def action : MembershipDecision → AuditAction
  | approved => .approved
  | rejected => .rejected

end MembershipDecision

inductive Write
  /-- `update` of the role of a user in an organization. -/
  | updateRole (userId organizationId : Uuid) (role : MembershipRole)
  /-- `update` of the role to `MEMBER`, by the id of the row. -/
  | demote (membershipId : Uuid)
  /-- `updateMany` of a row whose status still allows the decision. -/
  | review (membershipId : Uuid) (decision : MembershipDecision) (reviewedBy : Uuid)
      (reviewedAt : Timestamp) (reviewNote : Option String)
  /-- `updateMany` of a row that is still pending or approved. -/
  | appoint (membershipId reviewedBy : Uuid) (reviewedAt : Timestamp)
  | delete (userId organizationId : Uuid)
  | audit (event : OrganizationMembershipAudit)

/-- An update meant for one row: rejected if there is none, the record missing or the count not one,
and if the row is a platform administrator's (`reject_platform_admin_membership`). -/
def Database.updateOne (db : Database) (p : OrganizationMembership → Bool)
    (f : OrganizationMembership → OrganizationMembership) : Option Database :=
  if db.memberships.rows.any fun m =>
      p m && !(db.user? m.userId).any fun u => decide (u.platformRole = .platformAdmin) then
    (db.memberships.update p f).map fun memberships => { db with memberships }
  else none

/-- **One statement.**  The foreign keys are those of a reviewer, of an audit's membership and of its
actor; deleting a membership deletes its audits. -/
def Write.exec : Write → Database → Option Database
  | .updateRole userId organizationId role, db =>
    db.updateOne (·.of userId organizationId) fun m => { m with role }
  | .demote membershipId, db =>
    db.updateOne (fun m => decide (m.id = membershipId)) fun m => { m with role := .member }
  | .review membershipId decision reviewedBy reviewedAt reviewNote, db =>
    if (db.user? reviewedBy).isSome then
      db.updateOne
        (fun m => decide (m.id = membershipId) && decide (m.status ∈ decision.allowedStatuses))
        fun m => { m with
          status := decision.status, reviewedBy := some reviewedBy, reviewedAt := some reviewedAt
          reviewNote }
    else none
  | .appoint membershipId reviewedBy reviewedAt, db =>
    if (db.user? reviewedBy).isSome then
      db.updateOne
        (fun m => decide (m.id = membershipId) && decide (m.status ∈ [.pending, .approved]))
        fun m => { m with
          status := .approved, role := .admin, reviewedBy := some reviewedBy
          reviewedAt := some reviewedAt, reviewNote := none }
    else none
  | .delete userId organizationId, db =>
    if db.memberships.rows.any (·.of userId organizationId) then
      (db.memberships.delete (·.of userId organizationId)).bind fun memberships =>
        (db.audits.delete fun a => db.memberships.rows.any fun m =>
          m.of userId organizationId && decide (m.id = a.membershipId)).map fun audits =>
            { db with memberships, audits }
    else none
  | .audit event, db =>
    if db.memberships.rows.any (·.id = event.membershipId) ∧ (db.user? event.actorUserId).isSome then
      (db.audits.insert event).map fun audits => { db with audits }
    else none

/-! ## The calls -/

/-- What the service throws. -/
inductive MembershipsError
  | notDirectAdministrator
  | requestNotFound
  | applicantNotActive
  | alreadyReviewed
  | onlyPendingRejected
  | reviewedByAnother
  | invalidRole
  | membershipNotFound
  | onlyApprovedChangeRole
  | childNotFound
  | childNotActive
  | administratorNotVerified
  | administratorNotMember
  | changedWhileAppointed
  | childAdministratorNotFound
  | lastAdministrator
  deriving DecidableEq, Repr

namespace MembershipsError

/-- The HTTP status of the exception's class. -/
def status : MembershipsError → ℕ
  | notDirectAdministrator => 403
  | requestNotFound | membershipNotFound | childNotFound | childAdministratorNotFound => 404
  | _ => 409

def message : MembershipsError → String
  | notDirectAdministrator => "Direct organization administrator privileges are required"
  | requestNotFound => "Membership request not found"
  | applicantNotActive => "The applicant account is not active"
  | alreadyReviewed => "This membership has already been reviewed"
  | onlyPendingRejected => "Only pending membership requests can be rejected"
  | reviewedByAnother => "This membership was reviewed by another administrator"
  | invalidRole => "Role must be ADMIN or MEMBER"
  | membershipNotFound => "Membership not found"
  | onlyApprovedChangeRole => "Only approved memberships can change role"
  | childNotFound => "Immediate child organization not found"
  | childNotActive => "The child organization is not active"
  | administratorNotVerified => "The administrator must be an active, verified user"
  | administratorNotMember =>
    "The user must already have a pending or approved membership in this organization"
  | changedWhileAppointed => "This membership changed while it was being appointed"
  | childAdministratorNotFound => "Child administrator not found"
  | lastAdministrator => "Cannot remove the last administrator"

end MembershipsError

inductive Operation
  | updateMembershipStatus (targetUserId organizationId : Uuid) (decision : MembershipDecision)
      (reason : Option String)
  | updateMembershipRole (targetUserId organizationId : Uuid) (role : String)
  | removeMembership (targetUserId organizationId : Uuid)
  | appointChildAdministrator (parentOrganizationId childOrganizationId : Uuid) (email : String)
  | revokeChildAdministrator (parentOrganizationId childOrganizationId targetUserId : Uuid)
  deriving DecidableEq, Repr

/-- A call, and who makes it. -/
structure Call where
  operation : Operation
  actorUserId : Uuid
  deriving DecidableEq, Repr

/-- `String.prototype.trim` and `toLowerCase`. -/
structure TextFunctions where
  trim : String → String
  toLowerCase : String → String

/-! ### Who may call -/

/-- The organization whose direct administrator the actor has to be. -/
def Operation.authority : Operation → Uuid
  | .updateMembershipStatus _ organizationId _ _ | .updateMembershipRole _ organizationId _
  | .removeMembership _ organizationId => organizationId
  | .appointChildAdministrator parentOrganizationId _ _
  | .revokeChildAdministrator parentOrganizationId _ _ => parentOrganizationId

/-- The queries of `assertDirectOrganizationAdmin`. -/
inductive Fetch
  | user
  | organization
  | membership
  deriving DecidableEq, Repr

/-- Which of them have been answered, and what they found. -/
structure Authorization where
  user : Option (Option User) := none
  organization : Option (Option Organization) := none
  membership : Option (Option OrganizationMembership) := none
  deriving DecidableEq, Repr

namespace Authorization

/-- The answer of a query that is still out. -/
def fetch (db : Database) (actorUserId organizationId : Uuid) (seen : Authorization) :
    Fetch → Option Authorization
  | .user =>
    if seen.user.isNone then some { seen with user := some (db.user? actorUserId) } else none
  | .organization =>
    if seen.organization.isNone then
      some { seen with organization := some (db.organization? organizationId) }
    else none
  | .membership =>
    if seen.membership.isNone then
      some { seen with membership := some (db.membership? actorUserId organizationId) }
    else none

/-- Whether the actor is a direct administrator; `none` while a query is still out. -/
def granted (seen : Authorization) : Option Bool :=
  match seen.user, seen.organization, seen.membership with
  | some user, some organization, some membership => some <|
      (user.any fun u => decide (u.status = .active) && decide (u.platformRole = .user))
        && (organization.any fun o => decide (o.status = .active))
        && membership.any fun m => decide (m.status = .approved) && decide (m.role = .admin)
  | _, _, _ => none

end Authorization

/-! ### What the membership that was read allows -/

/-- What a call does next: it returns, counts the administrators first, or writes. -/
inductive Verdict
  | unchanged
  | count (membership : OrganizationMembership)
  | write (membership : OrganizationMembership)
  deriving DecidableEq, Repr

/-- **`updateMembershipStatus`**, after its look-up. -/
def updateMembershipStatus (db : Database) (decision : MembershipDecision)
    (membership : Option OrganizationMembership) : Except MembershipsError Verdict :=
  match membership with
  | none => .error .requestNotFound
  | some m =>
    if decision = .approved ∧ ¬ (db.user? m.userId).any fun u => decide (u.status = .active) then
      .error .applicantNotActive
    else if m.status ∈ decision.allowedStatuses then .ok (.write m)
    else match decision with
      | .approved => .error .alreadyReviewed
      | .rejected => .error .onlyPendingRejected

/-- **`updateMembershipRole`**, after its look-up. -/
def updateMembershipRole (role : MembershipRole) (membership : Option OrganizationMembership) :
    Except MembershipsError Verdict :=
  match membership with
  | none => .error .membershipNotFound
  | some m =>
    if m.status ≠ .approved then .error .onlyApprovedChangeRole
    else if m.role = role then .ok .unchanged
    else if m.role = .admin ∧ role ≠ .admin then .ok (.count m)
    else .ok (.write m)

/-- **`removeMembership`**, after its look-up. -/
def removeMembership (membership : Option OrganizationMembership) :
    Except MembershipsError Verdict :=
  match membership with
  | none => .error .membershipNotFound
  | some m =>
    if m.role = .admin ∧ m.status = .approved then .ok (.count m) else .ok (.write m)

/-- **`appointChildAdministrator`**, after the look-up of the membership. -/
def appointChildAdministrator (membership : Option OrganizationMembership) :
    Except MembershipsError Verdict :=
  match membership with
  | none => .error .administratorNotMember
  | some m =>
    if m.status ∉ [.pending, .approved] then .error .administratorNotMember
    else if m.role = .admin ∧ m.status = .approved then .ok .unchanged
    else .ok (.write m)

/-- **`revokeChildAdministrator`**, after the look-up of the membership. -/
def revokeChildAdministrator (membership : Option OrganizationMembership) :
    Except MembershipsError Verdict :=
  match membership with
  | none => .error .childAdministratorNotFound
  | some m =>
    if m.status ≠ .approved ∨ m.role ≠ .admin then .error .childAdministratorNotFound
    else .ok (.count m)

/-- `assertNotLastAdministrator`. -/
def assertNotLastAdministrator (db : Database) (organizationId : Uuid) :
    Except MembershipsError Unit :=
  if db.adminCount organizationId ≤ 1 then .error .lastAdministrator else .ok ()

def parseRole : String → Option MembershipRole
  | "ADMIN" => some .admin
  | "MEMBER" => some .member
  | _ => none

/-! ### The programs -/

/-- What a step takes from outside: which query is answered, the time, a fresh identifier. -/
structure Reading where
  fetch : Fetch := .user
  now : Timestamp := 0
  auditId : Uuid := 0
  deriving DecidableEq, Repr

/-- Where a call is. -/
inductive Point
  | authorize (call : Call) (seen : Authorization)
  | findChild (call : Call)
  | findCandidate (call : Call)
  | findMembership (call : Call) (userId organizationId : Uuid)
  | countAdministrators (call : Call) (membership : OrganizationMembership)
  | writing (call : Call) (membership : OrganizationMembership) (x : Reading)
  | returned
  /-- The call threw; `none` where the database did. -/
  | failed (error : Option MembershipsError)
  deriving DecidableEq, Repr

/-- The first query of a call that is allowed. -/
def Call.start (call : Call) : Point :=
  match call.operation with
  | .updateMembershipStatus targetUserId organizationId _ _
  | .removeMembership targetUserId organizationId =>
    .findMembership call targetUserId organizationId
  | .updateMembershipRole targetUserId organizationId role =>
    if (parseRole role).isSome then .findMembership call targetUserId organizationId
    else .failed (some .invalidRole)
  | .appointChildAdministrator _ _ _ | .revokeChildAdministrator _ _ _ => .findChild call

/-- After the look-up of the child organization. -/
def Call.afterChild (call : Call) (child : Option Organization) : Point :=
  match call.operation, child with
  | .appointChildAdministrator parentOrganizationId _ _, some child =>
    if child.parentId ≠ some parentOrganizationId then .failed (some .childNotFound)
    else if child.status ≠ .active then .failed (some .childNotActive)
    else .findCandidate call
  | .revokeChildAdministrator parentOrganizationId childOrganizationId targetUserId, some child =>
    if child.parentId ≠ some parentOrganizationId then .failed (some .childNotFound)
    else .findMembership call targetUserId childOrganizationId
  | _, _ => .failed (some .childNotFound)

/-- After the look-up of the user to appoint. -/
def Call.afterCandidate (call : Call) (childOrganizationId : Uuid) : Option User → Point
  | some candidate =>
    if candidate.status = .active ∧ candidate.emailVerifiedAt.isSome then
      .findMembership call candidate.id childOrganizationId
    else .failed (some .administratorNotVerified)
  | none => .failed (some .administratorNotVerified)

/-- What a call makes of the membership it read. -/
def Call.verdict (db : Database) (call : Call) (membership : Option OrganizationMembership) :
    Except MembershipsError Verdict :=
  match call.operation with
  | .updateMembershipStatus _ _ decision _ => updateMembershipStatus db decision membership
  | .updateMembershipRole _ _ role =>
    match parseRole role with
    | some role => updateMembershipRole role membership
    | none => .error .invalidRole
  | .removeMembership _ _ => removeMembership membership
  | .appointChildAdministrator _ _ _ => appointChildAdministrator membership
  | .revokeChildAdministrator _ _ _ => revokeChildAdministrator membership

/-- The organization whose administrators are counted. -/
def Operation.organizationId : Operation → Uuid
  | .updateMembershipStatus _ organizationId _ _ | .updateMembershipRole _ organizationId _
  | .removeMembership _ organizationId => organizationId
  | .appointChildAdministrator _ childOrganizationId _
  | .revokeChildAdministrator _ childOrganizationId _ => childOrganizationId

/-- The statements of a call's transaction. -/
def Call.writes (text : TextFunctions) (call : Call) (m : OrganizationMembership) (x : Reading) :
    List Write :=
  let audit (action : AuditAction) (note : Option String) : Write :=
    .audit ⟨x.auditId, m.id, call.actorUserId, action, note, x.now⟩
  match call.operation with
  | .updateMembershipStatus _ _ decision reason =>
    let note := match decision with
      | .approved => none
      | .rejected => (reason.map text.trim).filter (· ≠ "")
    [.review m.id decision call.actorUserId x.now note, audit decision.action note]
  | .updateMembershipRole targetUserId organizationId role =>
    match parseRole role with
    | some role =>
      [.updateRole targetUserId organizationId role,
        audit (if role = .admin then .adminGranted else .adminRevoked) none]
    | none => []
  | .removeMembership targetUserId organizationId => [.delete targetUserId organizationId]
  | .appointChildAdministrator _ _ _ =>
    [.appoint m.id call.actorUserId x.now, audit .adminGranted none]
  | .revokeChildAdministrator _ _ _ => [.demote m.id, audit .adminRevoked none]

/-- What the transaction throws itself when its `updateMany` matched no row. -/
def Operation.overtaken : Operation → Option MembershipsError
  | .updateMembershipStatus _ _ _ _ => some .reviewedByAnother
  | .appointChildAdministrator _ _ _ => some .changedWhileAppointed
  | _ => none

/-- **The reads of each call.** -/
def Point.next (text : TextFunctions) (db : Database) (x : Reading) : Point → Option Point
  | .authorize call seen =>
    (seen.fetch db call.actorUserId call.operation.authority x.fetch).map fun seen =>
      match seen.granted with
      | none => .authorize call seen
      | some false => .failed (some .notDirectAdministrator)
      | some true => call.start
  | .findChild call => some (call.afterChild (db.organization? call.operation.organizationId))
  | .findCandidate call =>
    match call.operation with
    | .appointChildAdministrator _ childOrganizationId email =>
      some <| call.afterCandidate childOrganizationId <|
        db.users.find? (·.email = text.toLowerCase (text.trim email))
    | _ => none
  | .findMembership call userId organizationId =>
    some <| match call.verdict db (db.membership? userId organizationId) with
      | .error e => .failed (some e)
      | .ok .unchanged => .returned
      | .ok (.count membership) => .countAdministrators call membership
      | .ok (.write membership) => .writing call membership x
  | .countAdministrators call membership =>
    some <| match assertNotLastAdministrator db call.operation.organizationId with
      | .error e => .failed (some e)
      | .ok () => .writing call membership x
  | .writing _ _ _ | .returned | .failed _ => none

/-- The membership that a call has read. -/
def membershipRead : Point → Option OrganizationMembership
  | .countAdministrators _ membership | .writing _ membership _ => some membership
  | _ => none

/-- What others do: accounts and organizations change, and memberships are created. -/
inductive Outside
  | users (users : List User)
  | organizations (organizations : List Organization)
  | join (membership : OrganizationMembership)

/-- The calls of the membership service. -/
def code (text : TextFunctions) : Code Database Point Write Reading Outside Empty where
  entry
    | .authorize _ seen => decide (seen = {})
    | _ => false
  read db p x := p.next text db x
  writes
    | .writing call membership x => call.writes text membership x
    | _ => []
  exec := Write.exec
  committed
    | .writing _ _ _ => .returned
    | p => p
  rolledBack
    | .writing call _ _ => .failed call.operation.overtaken
    | .returned => .returned
    | .failed error => .failed error
    | _ => .failed none
  emits _ := []
  outside
    | .users users, db => some { db with users }
    | .organizations organizations, db => some { db with organizations }
    | .join membership, db =>
      (db.memberships.insert membership).map fun memberships => { db with memberships }

/-- The machine of the membership service, over any database. -/
def machine (text : TextFunctions) :
    Machine (Sessions Database Point Empty) (Label Point Reading Outside) :=
  (code text).machine fun _ => True

end ResourceHive.Organizations
