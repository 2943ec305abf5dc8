import ResourceHive.Points.Ledger

/-!
# Organizations/Membership — organizations, and who belongs to them in which role

The enumerations are the values the CHECKs of the tables allow.  Columns that no operation modelled
here reads (names, types, join dates, …) are left out.
-/

namespace ResourceHive

/-- `organizations.status`, `users.status`. -/
inductive AccountStatus
  | active
  | suspended
  deriving DecidableEq, Repr

inductive MembershipRole
  | admin
  | member
  deriving DecidableEq, Repr

inductive MembershipStatus
  | pending
  | approved
  | rejected
  | suspended
  deriving DecidableEq, Repr

namespace Organizations

/-- A row of `organizations`; a root is its own `rootOrganizationId`. -/
structure Organization where
  id : Uuid
  parentId : Option Uuid
  rootOrganizationId : Uuid
  status : AccountStatus := .active
  deriving DecidableEq, Repr

/-- A row of `organization_memberships`. -/
structure OrganizationMembership where
  id : Uuid
  userId : Uuid
  organizationId : Uuid
  role : MembershipRole := .member
  status : MembershipStatus := .pending
  reviewedBy : Option Uuid := none
  reviewedAt : Option Timestamp := none
  reviewNote : Option String := none
  deriving DecidableEq, Repr

end Organizations

end ResourceHive
