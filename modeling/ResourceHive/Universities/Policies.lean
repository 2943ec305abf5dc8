import ResourceHive.Machinery.Ownership
import ResourceHive.Organizations.Membership

/-!
# Universities/Policies — the row-level security of the universities

The tables granted to `resourcehive_tenant`, with the policies created for that role and the keys
and references the policies lead through.  A row is the columns these mention; what else it holds is
a parameter `D`.

The policies are the migration's, one `EXISTS` for each of theirs.  `tenancy` says what they are
for: a row is owned by the university it names, or by that of the organization, membership or
resource it belongs to.  That the one amounts to the other is `policies_secure`.
-/

namespace ResourceHive.Universities

open RowSecurity (Rows)

/-! ## The tables -/

/-- The tables with a `root_organization_id` of their own. -/
inductive RootedTable
  | resources
  | resourceAllowedOrganizations
  | resourceSlots
  | bookings
  | bookingDisputes
  | bookingDisputeEvents
  | pointTransactions
  | userPointBalances
  | notifications
  | notificationDeliveries
  | webPushSubscriptions
  deriving DecidableEq, Repr

/-- The tables granted to `resourcehive_tenant`. -/
inductive TableName
  | organizations
  | organizationEmailDomains
  | organizationEmailAllowlist
  | organizationMemberships
  | organizationMembershipAudits
  | rooted (table : RootedTable)
  | resourceRatings
  | users
  deriving DecidableEq, Repr

variable (D : Type)

structure OrganizationRow where
  id : Uuid
  rootOrganizationId : Uuid
  data : D
  deriving DecidableEq

/-- A row of `organization_email_domains` or `organization_email_allowlist`. -/
structure EmailRow where
  id : Uuid
  organizationId : Uuid
  data : D
  deriving DecidableEq

structure MembershipRow where
  id : Uuid
  userId : Uuid
  organizationId : Uuid
  data : D
  deriving DecidableEq

structure AuditRow where
  id : Uuid
  membershipId : Uuid
  data : D
  deriving DecidableEq

/-- A row of one of the tables with a `root_organization_id`, which some of them leave null. -/
structure RootedRow where
  id : Uuid
  rootOrganizationId : Option Uuid
  data : D
  deriving DecidableEq

structure RatingRow where
  id : Uuid
  resourceId : Uuid
  data : D
  deriving DecidableEq

structure UserRow where
  id : Uuid
  data : D
  deriving DecidableEq

/-- The rows of a table. -/
abbrev Row : TableName → Type
  | .organizations => OrganizationRow D
  | .organizationEmailDomains => EmailRow D
  | .organizationEmailAllowlist => EmailRow D
  | .organizationMemberships => MembershipRow D
  | .organizationMembershipAudits => AuditRow D
  | .rooted _ => RootedRow D
  | .resourceRatings => RatingRow D
  | .users => UserRow D

/-! ## The policies of `resourcehive_tenant` -/

/-- **What the policies read of the session**: `current_setting('app.root_organization_id', true)`
and `current_setting('app.user_id', true)`, if set to an id. -/
structure Settings where
  rootOrganizationId : Option Uuid := none
  userId : Option Uuid := none
  deriving DecidableEq, Repr

/-- `root_organization_id::text = current_setting('app.root_organization_id', true)`. -/
def Settings.isRoot (settings : Settings) (rootOrganizationId : Option Uuid) : Bool :=
  rootOrganizationId.isSome && decide (rootOrganizationId = settings.rootOrganizationId)

/-- `users.id::text = current_setting('app.user_id', true)`. -/
def Settings.isUser (settings : Settings) (id : Uuid) : Bool := decide (settings.userId = some id)

/-- The tables a policy looks at have a lower level. -/
def level : TableName → ℕ
  | .organizations | .rooted _ => 0
  | .organizationEmailDomains | .organizationEmailAllowlist | .organizationMemberships
  | .resourceRatings => 1
  | .organizationMembershipAudits | .users => 2

variable {D}

/-- `EXISTS (SELECT 1 FROM organizations o WHERE o.id = organization_id)`. -/
def hasOrganization (organizations : List (OrganizationRow D)) (organizationId : Uuid) : Bool :=
  organizations.any fun o => decide (o.id = organizationId)

/-- `EXISTS (SELECT 1 FROM organization_memberships m JOIN organizations o ON
o.id = m.organization_id WHERE …)`. -/
def hasMembership (memberships : List (MembershipRow D)) (organizations : List (OrganizationRow D))
    (p : MembershipRow D → Bool) : Bool :=
  memberships.any fun m => p m && hasOrganization organizations m.organizationId

/-- The `USING` of each policy. -/
def visible (settings : Settings) : (t : TableName) →
    ((s : TableName) → level s < level t → List (Row D s)) → Row D t → Bool
  | .organizations, _, o => settings.isRoot (some o.rootOrganizationId)
  | .organizationEmailDomains, seen, r =>
    hasOrganization (seen .organizations (by decide)) r.organizationId
  | .organizationEmailAllowlist, seen, r =>
    hasOrganization (seen .organizations (by decide)) r.organizationId
  | .organizationMemberships, seen, m =>
    hasOrganization (seen .organizations (by decide)) m.organizationId
  | .organizationMembershipAudits, seen, a =>
    hasMembership (seen .organizationMemberships (by decide)) (seen .organizations (by decide))
      fun m => decide (m.id = a.membershipId)
  | .rooted _, _, r => settings.isRoot r.rootOrganizationId
  | .resourceRatings, seen, r =>
    (seen (.rooted .resources) (by decide)).any fun resource => decide (resource.id = r.resourceId)
  | .users, seen, u =>
    settings.isUser u.id
      || hasMembership (seen .organizationMemberships (by decide))
          (seen .organizations (by decide)) fun m => decide (m.userId = u.id)

/-- The `WITH CHECK` of each policy: the same, but for `users_tenant`. -/
def withCheck (settings : Settings) : (t : TableName) →
    ((s : TableName) → level s < level t → List (Row D s)) → Row D t → Bool
  | .users, _, u => settings.isUser u.id
  | t, seen, r => visible settings t seen r

variable (D) in
/-- **The policies created for `resourcehive_tenant`.** -/
def policies : RowSecurity Settings (Row D) where
  level := level
  visible := visible
  withCheck := withCheck

/-! ## Keys and references -/

/-- **The constraints the policies lead through**: primary keys, and foreign keys. -/
structure Constraints (db : Rows (Row D)) : Prop where
  organizations : Table.Unique OrganizationRow.id (db .organizations)
  memberships : Table.Unique MembershipRow.id (db .organizationMemberships)
  resources : Table.Unique RootedRow.id (db (.rooted .resources))
  users : Table.Unique UserRow.id (db .users)
  domain_organization : ∀ r ∈ db .organizationEmailDomains,
    ∃ o ∈ db .organizations, o.id = r.organizationId
  allowlist_organization : ∀ r ∈ db .organizationEmailAllowlist,
    ∃ o ∈ db .organizations, o.id = r.organizationId
  membership_organization : ∀ m ∈ db .organizationMemberships,
    ∃ o ∈ db .organizations, o.id = m.organizationId
  membership_user : ∀ m ∈ db .organizationMemberships, ∃ u ∈ db .users, u.id = m.userId
  audit_membership : ∀ a ∈ db .organizationMembershipAudits,
    ∃ m ∈ db .organizationMemberships, m.id = a.membershipId
  rating_resource : ∀ r ∈ db .resourceRatings,
    ∃ resource ∈ db (.rooted .resources), resource.id = r.resourceId

instance : DecidablePred (@Constraints D) := fun db =>
  decidable_of_iff
    ((Table.Unique OrganizationRow.id (db .organizations)
        ∧ Table.Unique MembershipRow.id (db .organizationMemberships)
        ∧ Table.Unique RootedRow.id (db (.rooted .resources))
        ∧ Table.Unique UserRow.id (db .users))
      ∧ (∀ r ∈ db .organizationEmailDomains, ∃ o ∈ db .organizations, o.id = r.organizationId)
      ∧ (∀ r ∈ db .organizationEmailAllowlist, ∃ o ∈ db .organizations, o.id = r.organizationId)
      ∧ (∀ m ∈ db .organizationMemberships, ∃ o ∈ db .organizations, o.id = m.organizationId)
      ∧ (∀ m ∈ db .organizationMemberships, ∃ u ∈ db .users, u.id = m.userId)
      ∧ (∀ a ∈ db .organizationMembershipAudits,
          ∃ m ∈ db .organizationMemberships, m.id = a.membershipId)
      ∧ (∀ r ∈ db .resourceRatings,
          ∃ resource ∈ db (.rooted .resources), resource.id = r.resourceId))
    ⟨fun ⟨⟨h₁, h₂, h₃, h₄⟩, h₅, h₆, h₇, h₈, h₉, h₁₀⟩ =>
        ⟨h₁, h₂, h₃, h₄, h₅, h₆, h₇, h₈, h₉, h₁₀⟩,
      fun h => ⟨⟨h.organizations, h.memberships, h.resources, h.users⟩, h.domain_organization,
        h.allowlist_organization, h.membership_organization, h.membership_user,
        h.audit_membership, h.rating_resource⟩⟩

/-! ## The universities' rows -/

variable (D) in
/-- **Whose a row is**: the university's it names, or whose organization, membership or resource it
belongs to.  An account belongs to none. -/
def tenancy : Tenancy Uuid Uuid (Row D) where
  ownership
    | .organizations => .direct fun o => some o.rootOrganizationId
    | .organizationEmailDomains => .through .organizations fun r => r.organizationId
    | .organizationEmailAllowlist => .through .organizations fun r => r.organizationId
    | .organizationMemberships => .through .organizations fun m => m.organizationId
    | .organizationMembershipAudits => .through .organizationMemberships fun a => a.membershipId
    | .rooted _ => .direct fun r => r.rootOrganizationId
    | .resourceRatings => .through (.rooted .resources) fun r => r.resourceId
    | .users => .shared
  key
    | .organizations => OrganizationRow.id
    | .organizationEmailDomains => EmailRow.id
    | .organizationEmailAllowlist => EmailRow.id
    | .organizationMemberships => MembershipRow.id
    | .organizationMembershipAudits => AuditRow.id
    | .rooted _ => RootedRow.id
    | .resourceRatings => RatingRow.id
    | .users => UserRow.id
  level := level
  lower := by
    intro t s ref h
    cases t <;> cases h <;> decide

variable {db : Rows (Row D)} {settings : Settings}

theorem Constraints.sound (h : Constraints db) : (tenancy D).Sound db where
  target := by
    intro t s ref ht r hr
    cases t <;> cases ht
    · exact h.domain_organization r hr
    · exact h.allowlist_organization r hr
    · exact h.membership_organization r hr
    · exact h.audit_membership r hr
    · exact h.rating_resource r hr
  unique := by
    intro t s ref ht
    cases t <;> cases ht
    · exact h.organizations
    · exact h.organizations
    · exact h.organizations
    · exact h.memberships
    · exact h.resources

theorem isRoot_iff {rootOrganizationId : Option Uuid} : settings.isRoot rootOrganizationId ↔
    settings.rootOrganizationId.isSome ∧ rootOrganizationId = settings.rootOrganizationId := by
  rw [Settings.isRoot, Bool.and_eq_true, decide_eq_true_eq]
  exact and_congr_left fun h => by rw [h]

theorem hasOrganization_iff {organizations : List (OrganizationRow D)} {id : Uuid} :
    hasOrganization organizations id ↔ ∃ o ∈ organizations, o.id = id := by
  simp [hasOrganization]

theorem hasMembership_iff {memberships : List (MembershipRow D)}
    {organizations : List (OrganizationRow D)} {p : MembershipRow D → Bool} :
    hasMembership memberships organizations p ↔
      ∃ m ∈ memberships, p m ∧ hasOrganization organizations m.organizationId := by
  simp [hasMembership]

/-- **A university owns a row.** -/
def Owned (settings : Settings) (db : Rows (Row D)) (t : TableName) (r : Row D t) : Prop :=
  settings.rootOrganizationId.isSome ∧ (tenancy D).owner db t r = settings.rootOrganizationId

/-- A row that refers to another is owned through it, and seen through it. -/
theorem owned_iff (h : (tenancy D).Sound db) {t s : TableName} {ref : Row D t → Uuid}
    (ht : (tenancy D).ownership t = .through s ref)
    (hs : ∀ p, (policies D).sees settings db s p ↔ Owned settings db s p) {r : Row D t} :
    Owned settings db t r ↔
      ∃ p ∈ (policies D).view settings db s, (tenancy D).key s p = ref r := by
  simp only [Owned, RowSecurity.mem_view, hs]
  constructor
  · rintro ⟨hsome, howner⟩
    obtain ⟨d, hd⟩ := Option.isSome_iff_exists.mp hsome
    obtain ⟨p, hp, hkey, hpd⟩ := (h.owner_eq_some_iff ht).mp (howner.trans hd)
    exact ⟨p, ⟨hp, hsome, hpd.trans hd.symm⟩, hkey⟩
  · rintro ⟨p, ⟨hp, hsome, howner⟩, hkey⟩
    exact ⟨hsome, (h.owner_eq ht hp hkey).trans howner⟩

theorem sees_organization {o : OrganizationRow D} :
    (policies D).sees settings db .organizations o ↔ Owned settings db .organizations o := by
  rw [Owned, Tenancy.owner_of_direct (show (tenancy D).ownership .organizations = .direct _ from rfl)]
  exact @isRoot_iff settings (some o.rootOrganizationId)

theorem sees_rooted {table : RootedTable} {r : RootedRow D} :
    (policies D).sees settings db (.rooted table) r ↔ Owned settings db (.rooted table) r := by
  rw [Owned, Tenancy.owner_of_direct
    (show (tenancy D).ownership (.rooted table) = .direct _ from rfl)]
  exact @isRoot_iff settings r.rootOrganizationId

theorem sees_membership (h : (tenancy D).Sound db) {m : MembershipRow D} :
    (policies D).sees settings db .organizationMemberships m ↔
      Owned settings db .organizationMemberships m := by
  rw [owned_iff h (show (tenancy D).ownership .organizationMemberships = .through _ _ from rfl)
    fun o => sees_organization]
  exact hasOrganization_iff

/-- A membership that is seen is one of an organization that is. -/
theorem hasMembership_view {p : MembershipRow D → Bool} :
    hasMembership ((policies D).view settings db .organizationMemberships)
        ((policies D).view settings db .organizations) p ↔
      ∃ m ∈ (policies D).view settings db .organizationMemberships, p m := by
  rw [hasMembership_iff]
  refine exists_congr fun m => and_congr_right fun hm => and_iff_left ?_
  exact (RowSecurity.mem_view.mp hm).2

/-- **What is seen is what is owned.** -/
theorem sees_iff (h : (tenancy D).Sound db) {t : TableName} (ht : t ≠ .users) {r : Row D t} :
    (policies D).sees settings db t r ↔ Owned settings db t r := by
  cases t with
  | organizations => exact sees_organization
  | organizationEmailDomains =>
    rw [owned_iff h (show (tenancy D).ownership .organizationEmailDomains = .through _ _ from rfl)
      fun o => sees_organization]
    exact hasOrganization_iff
  | organizationEmailAllowlist =>
    rw [owned_iff h (show (tenancy D).ownership .organizationEmailAllowlist = .through _ _ from rfl)
      fun o => sees_organization]
    exact hasOrganization_iff
  | organizationMemberships => exact sees_membership h
  | organizationMembershipAudits =>
    rw [owned_iff h
      (show (tenancy D).ownership .organizationMembershipAudits = .through _ _ from rfl)
      fun m => sees_membership h]
    exact hasMembership_view.trans (by simp only [decide_eq_true_eq]; rfl)
  | rooted table => exact sees_rooted
  | resourceRatings =>
    rw [owned_iff h (show (tenancy D).ownership .resourceRatings = .through _ _ from rfl)
      fun o => sees_rooted]
    exact List.any_eq_true.trans (by simp only [decide_eq_true_eq]; rfl)
  | users => exact absurd rfl ht

/-- What may be written is what would be seen. -/
theorem mayWrite_eq {t : TableName} (ht : t ≠ .users) {r : Row D t} :
    (policies D).mayWrite settings db t r = (policies D).sees settings db t r := by
  cases t with
  | users => exact absurd rfl ht
  | _ => rfl

theorem ownership_ne_shared {t : TableName} (h : (tenancy D).ownership t ≠ .shared) :
    t ≠ .users := by
  rintro rfl
  exact h rfl

/-- **The policies secure the universities' rows.** -/
theorem policies_secure : (tenancy D).Secures (policies D) Settings.rootOrganizationId where
  sees_iff h ht _ := sees_iff h (ownership_ne_shared ht)
  owner_of_mayWrite h ht hmay :=
    (sees_iff h (ownership_ne_shared ht)).mp (mayWrite_eq (ownership_ne_shared ht) ▸ hmay)

end ResourceHive.Universities
