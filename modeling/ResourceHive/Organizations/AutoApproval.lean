import ResourceHive.Organizations.Guards

/-!
# Organizations/AutoApproval — the memberships an email gives, on verification and on request

`AuthService.verifyEmail` and `MembershipsService.requestMembership` each climb from the
organizations that a rule matches for an email — an unused entry of an allowlist, or a domain that
joins automatically — to the root, and use a path if all of it is active.  The first joins all
paths, the second those that contain the organization requested; a request is approved at once
exactly if the verification would have joined its organization (`auto_approval_agrees`).  The first
reads every row, the second those that the row policies show its session.
-/

namespace ResourceHive.Organizations

open Ancestry

/-! ## Tables -/

/-- A row of `organization_email_domains`. -/
structure OrganizationEmailDomain where
  id : Uuid
  organizationId : Uuid
  domain : String
  autoJoin : Bool := false
  deriving DecidableEq, Repr

/-- The primary key and the unique domain. -/
def OrganizationEmailDomain.Constraints (rows : List OrganizationEmailDomain) : Prop :=
  Table.Unique id rows ∧ Table.Unique domain rows

instance : DecidablePred OrganizationEmailDomain.Constraints := fun _ =>
  inferInstanceAs (Decidable (_ ∧ _))

/-- A row of `organization_email_allowlist`. -/
structure OrganizationEmailAllowlist where
  id : Uuid
  organizationId : Uuid
  email : String
  usedAt : Option Timestamp := none
  deriving DecidableEq, Repr

/-- The primary key, and one entry for an email in an organization. -/
def OrganizationEmailAllowlist.Constraints (rows : List OrganizationEmailAllowlist) : Prop :=
  Table.Unique id rows ∧ Table.Unique (fun e => (e.organizationId, e.email)) rows

instance : DecidablePred OrganizationEmailAllowlist.Constraints := fun _ =>
  inferInstanceAs (Decidable (_ ∧ _))

/-- A row of `email_verification_tokens`. -/
structure EmailVerificationToken where
  id : Uuid
  userId : Uuid
  tokenHash : String
  expiresAt : Timestamp
  usedAt : Option Timestamp := none
  createdAt : Timestamp
  deriving DecidableEq, Repr

namespace EmailVerificationToken

/-- The two CHECKs. -/
def Checks (t : EmailVerificationToken) : Prop :=
  t.createdAt < t.expiresAt ∧ ∀ u ∈ t.usedAt, t.createdAt ≤ u ∧ u ≤ t.expiresAt

instance : DecidablePred Checks := fun _ => inferInstanceAs (Decidable (_ ∧ _))

/-- The primary key, the unique hash, and the CHECKs. -/
def Constraints (rows : List EmailVerificationToken) : Prop :=
  Table.Unique id rows ∧ Table.Unique tokenHash rows ∧ Table.Check Checks rows

instance : DecidablePred Constraints := fun _ => inferInstanceAs (Decidable (_ ∧ _ ∧ _))

end EmailVerificationToken

/-- The database, with the rules that admit an email. -/
structure Registry extends Database where
  emailDomains : Table OrganizationEmailDomain OrganizationEmailDomain.Constraints
  allowlist : Table OrganizationEmailAllowlist OrganizationEmailAllowlist.Constraints
  verificationTokens : Table EmailVerificationToken EmailVerificationToken.Constraints

/-! ## The climb -/

/-- **A round of the climb from a rule's organization**, which is written the same in both services:
the path so far, and whether its end is the root. -/
def visitRule (organizations : List Organization) (path : List Uuid) (currentId : Uuid) :
    Round Uuid (List Uuid × Bool) (List Uuid) :=
  match organizations.find? (·.id = currentId) with
  | none => .done ([], false)
  | some current =>
    if current.status ≠ .active then .done ([], false)
    else if current.id = current.rootOrganizationId then .done (path ++ [current.id], true)
    else .next (path ++ [current.id]) current.parentId

/-- `path` and `reachedRoot`, after at most `fuel` rounds. -/
def rulePath (fuel : ℕ) (organizations : List Organization) (ruleOrganizationId : Uuid) :
    Option (List Uuid × Bool) :=
  climb (visitRule organizations) (·, false) fuel [] (some ruleOrganizationId)

/-- What the rules admit: the organizations to join, and the entries used for it. -/
structure Admission where
  organizationIds : List Uuid := []
  consumedAllowlistIds : List Uuid := []
  deriving DecidableEq, Repr

/-- What a path adds. -/
def Admission.addPath (allowlist : List OrganizationEmailAllowlist) (ruleOrganizationId : Uuid)
    (path : List Uuid) (a : Admission) : Admission where
  organizationIds := path.foldl Closure.add a.organizationIds
  consumedAllowlistIds := ((allowlist.filter (·.organizationId = ruleOrganizationId)).map (·.id)).foldl
    Closure.add a.consumedAllowlistIds

/-- The part of an address after its last `@`: all of it if there is none. -/
def domainPart (email : String) : String :=
  String.ofList (email.toList.reverse.takeWhile (· ≠ '@')).reverse

namespace Registry

def emailDomain? (db : Registry) (domain : String) : Option OrganizationEmailDomain :=
  db.emailDomains.find? (·.domain = domain)

/-- The organizations of a university. -/
def tree (db : Registry) (rootOrganizationId : Uuid) : List Organization :=
  db.organizations.filter (·.rootOrganizationId = rootOrganizationId)

/-- The unused entries for an email in a university. -/
def allowlisted (db : Registry) (email : String) (rootOrganizationId : Uuid) :
    List OrganizationEmailAllowlist :=
  db.allowlist.rows.filter fun e => decide (e.email = email) && e.usedAt.isNone
    && (db.organization? e.organizationId).any (·.rootOrganizationId = rootOrganizationId)

/-- **What a request of a university sees**, with `email_domains_tenant` and
`email_allowlist_tenant`. -/
def visibleTo (db : Registry) (rootOrganizationId : Uuid) : Registry where
  toDatabase := db.toDatabase.visibleTo rootOrganizationId
  emailDomains :=
    ⟨db.emailDomains.rows.filter fun d => (db.tree rootOrganizationId).any (·.id = d.organizationId),
      db.emailDomains.valid.1.sublist (List.filter_sublist.map _),
      db.emailDomains.valid.2.sublist (List.filter_sublist.map _)⟩
  allowlist :=
    ⟨db.allowlist.rows.filter fun e => (db.tree rootOrganizationId).any (·.id = e.organizationId),
      db.allowlist.valid.1.sublist (List.filter_sublist.map _),
      db.allowlist.valid.2.sublist (List.filter_sublist.map _)⟩
  verificationTokens := db.verificationTokens

end Registry

/-! ## Write statements -/

/-- `create` of a membership: its foreign keys, and `reject_platform_admin_membership`. -/
def Database.createMembership (db : Database) (m : OrganizationMembership) : Option Database :=
  if (db.organization? m.organizationId).isSome
      ∧ (db.user? m.userId).any (·.platformRole = .user) then
    (db.memberships.insert m).map fun memberships => { db with memberships }
  else none

/-- The membership that a rule gives. -/
def joined (ids : Uuid → Uuid) (userId organizationId : Uuid) : OrganizationMembership where
  id := ids organizationId
  userId := userId
  organizationId := organizationId
  role := .member
  status := .approved

/-- `upsert` with an empty `update`. -/
def Database.upsertMembership (ids : Uuid → Uuid) (userId : Uuid) (db : Database)
    (organizationId : Uuid) : Option Database :=
  match db.membership? userId organizationId with
  | some _ => some db
  | none => db.createMembership (joined ids userId organizationId)

/-- `updateMany` of the entries used, made only if there are any. -/
def Registry.consume (db : Registry) (consumedAllowlistIds : List Uuid) (now : Timestamp) :
    Option Registry :=
  (db.allowlist.update (fun e => decide (e.id ∈ consumedAllowlistIds) && e.usedAt.isNone)
    fun e => { e with usedAt := some now }).map fun allowlist => { db with allowlist }

/-- What both transactions write for what the rules admit. -/
def Registry.join (db : Registry) (ids : Uuid → Uuid) (userId : Uuid) (a : Admission)
    (now : Timestamp) : Option Registry :=
  (a.organizationIds.foldlM (Database.upsertMembership ids userId) db.toDatabase).bind
    fun database => { db with toDatabase := database }.consume a.consumedAllowlistIds now

/-- What a transaction takes from outside: the time, and an identifier for each new membership. -/
structure Supply where
  now : Timestamp
  ids : Uuid → Uuid

/-! ## `requestMembership` -/

inductive RequestError
  | notRegularUser
  | emailNotVerified
  | organizationNotFound
  | requestRejected
  | requestExists
  /-- The database raised. -/
  | database
  deriving DecidableEq, Repr

namespace RequestError

/-- The HTTP status of the exception's class. -/
def status : RequestError → ℕ
  | notRegularUser | emailNotVerified => 403
  | organizationNotFound => 404
  | requestRejected | requestExists => 409
  | database => 500

def message : RequestError → String
  | notRegularUser => "Platform administrators cannot request organization membership"
  | emailNotVerified => "Verify your email before requesting membership."
  | organizationNotFound => "Organization not found"
  | requestRejected => "This membership request was rejected. "
    ++ "Contact an organization administrator for reconsideration."
  | requestExists => "Membership request already exists"
  | database => "Internal server error"

end RequestError

/-- One rule of a request: its path counts if it contains the organization requested. -/
def requestRule (fuel : ℕ) (organizations : List Organization)
    (allowlist : List OrganizationEmailAllowlist) (organizationId : Uuid) (a : Admission)
    (ruleOrganizationId : Uuid) : Option Admission :=
  (rulePath fuel organizations ruleOrganizationId).map fun (path, reachedRoot) =>
    if ¬ reachedRoot ∨ organizationId ∉ path then a else a.addPath allowlist ruleOrganizationId path

/-- `membershipsToApprove` and `consumedAllowlistIds` of a request. -/
def membershipsToApprove (text : TextFunctions) (fuel : ℕ) (db : Registry) (email : String)
    (organization : Organization) : Option Admission :=
  let allowlist := db.allowlisted (text.toLowerCase email) organization.rootOrganizationId
  let domainRule := db.emailDomain? (text.toLowerCase (domainPart email))
  let matchedRuleIds := (allowlist.map (·.organizationId)).foldl Closure.add []
  let matchedRuleIds := match domainRule.filter (·.autoJoin) with
    | some rule => Closure.add matchedRuleIds rule.organizationId
    | none => matchedRuleIds
  matchedRuleIds.foldlM
    (requestRule fuel (db.tree organization.rootOrganizationId) allowlist organization.id) {}

/-- **The transaction of `requestMembership`**, which reads `seen`. -/
def requestIn (text : TextFunctions) (fuel : ℕ) (db seen : Registry) (userId organizationId : Uuid)
    (x : Supply) : Option (Except RequestError Registry) :=
  match (seen.user? userId).filter fun u =>
      decide (u.status = .active) && decide (u.platformRole = .user) with
  | none => some (.error .notRegularUser)
  | some user =>
    if user.emailVerifiedAt.isNone then some (.error .emailNotVerified)
    else match (seen.organization? organizationId).filter (·.status = .active) with
      | none => some (.error .organizationNotFound)
      | some organization =>
        match seen.membership? userId organizationId with
        | some existing =>
          some (.error (if existing.status = .rejected then .requestRejected else .requestExists))
        | none =>
          (membershipsToApprove text fuel seen user.email organization).map fun a =>
            if organizationId ∈ a.organizationIds then
              (db.join x.ids userId a x.now).elim (.error .database) .ok
            else
              (db.createMembership { id := x.ids organizationId, userId, organizationId }).elim
                (.error .database) fun database => .ok { db with toDatabase := database }

/-- **`requestMembership`** in a session: the database after it; `none` if a climb does not end in
time.  A session of no university makes no settings, so the policies show it no row, its user's own
included. -/
def requestMembership (text : TextFunctions) (fuel : ℕ) (db : Registry) (session : RequestUser)
    (organizationId : Uuid) (x : Supply) : Option (Except RequestError Registry) :=
  match session.rootOrganizationId with
  | none => some (.error .notRegularUser)
  | some root => requestIn text fuel db (db.visibleTo root) session.userId organizationId x

/-! ## `verifyEmail` -/

inductive VerifyError
  | invalidToken
  | invalidEmail
  /-- The database raised. -/
  | database
  deriving DecidableEq, Repr

namespace VerifyError

/-- The HTTP status of the exception's class. -/
def status : VerifyError → ℕ
  | invalidToken | invalidEmail => 400
  | database => 500

def message : VerifyError → String
  | invalidToken => "Verification link is invalid or has expired"
  | invalidEmail => "Enter a valid email address"
  | database => "Internal server error"

end VerifyError

/-- `getEmailDomain`. -/
def getEmailDomain (text : TextFunctions) (email : String) : Except VerifyError String :=
  let separatorIndex : ℤ := email.length - (domainPart email).length - 1
  if separatorIndex ≤ 0 ∨ separatorIndex = email.length - 1 then .error .invalidEmail
  else .ok (text.toLowerCase (text.trim (domainPart email)))

/-- One rule of a verification. -/
def verifyRule (fuel : ℕ) (organizations : List Organization)
    (allowlistEntries : List OrganizationEmailAllowlist) (a : Admission) (matchedId : Uuid) :
    Option Admission :=
  (rulePath fuel organizations matchedId).map fun (path, reachedRoot) =>
    if ¬ reachedRoot then a else a.addPath allowlistEntries matchedId path.reverse

/-- `organizationsToJoin` and `consumedAllowlistIds` of a verification, for the rule of the email's
domain and the university of its organization. -/
def organizationsToJoin (text : TextFunctions) (fuel : ℕ) (db : Registry) (email : String)
    (rule : OrganizationEmailDomain) (rootOrganizationId : Uuid) : Option Admission :=
  let allowlistEntries :=
    (db.allowlisted (text.toLowerCase (text.trim email)) rootOrganizationId).filter fun e =>
      (db.organization? e.organizationId).any (·.status = .active)
  let matchedOrganizationIds := (allowlistEntries.map (·.organizationId)).foldl Closure.add []
  let matchedOrganizationIds :=
    if rule.autoJoin then Closure.add matchedOrganizationIds rule.organizationId
    else matchedOrganizationIds
  matchedOrganizationIds.foldlM (verifyRule fuel (db.tree rootOrganizationId) allowlistEntries) {}

/-- The claim of the token. -/
def Registry.claimToken (db : Registry) (id : Uuid) (now : Timestamp) : Option Registry :=
  (db.verificationTokens.update
    (fun t => decide (t.id = id) && t.usedAt.isNone && decide (now < t.expiresAt))
    fun t => { t with usedAt := some now }).map fun verificationTokens =>
      { db with verificationTokens }

/-- `update` of the user whose email is verified. -/
def Registry.verified (db : Registry) (userId : Uuid) (now : Timestamp) : Registry :=
  { db with users := db.users.map fun u =>
      if u.id = userId then { u with emailVerifiedAt := some now } else u }

/-- **`verifyEmail`**: the database after it; `none` if a climb does not end in time. -/
def verifyEmail (text : TextFunctions) (hashToken : String → String) (fuel : ℕ) (db : Registry)
    (token : String) (x : Supply) : Option (Except VerifyError Registry) :=
  match (db.verificationTokens.find? (·.tokenHash = hashToken token)).bind fun t =>
      (db.user? t.userId).map (t, ·) with
  | none => some (.error .invalidToken)
  | some (verificationToken, user) =>
    if user.emailVerifiedAt.isSome then some (.ok db)
    else if verificationToken.usedAt.isSome ∨ verificationToken.expiresAt ≤ x.now then
      some (.error .invalidToken)
    else match getEmailDomain text user.email with
      | .error e => some (.error e)
      | .ok emailDomain =>
        match (db.emailDomain? emailDomain).bind fun rule =>
            ((db.organization? rule.organizationId).filter (·.status = .active)).map (rule, ·) with
        | none => some (.error .invalidToken)
        | some (rule, organization) =>
          match db.claimToken verificationToken.id x.now with
          | none => some (.error .database)
          | some db =>
            (organizationsToJoin text fuel db user.email rule organization.rootOrganizationId).map
              fun a => (db.join x.ids user.id a x.now).elim (.error .database) fun db =>
                .ok (db.verified user.id x.now)

/-! ## What a climb finds -/

variable {T : Hierarchy} {o : Organization} {root a : Uuid} {chain : List Uuid} {fuel : ℕ}

/-- The organization is there and active. -/
def activeIn (rows : List Organization) (id : Uuid) : Bool :=
  (rows.find? (·.id = id)).any (·.status = .active)

theorem activeIn_eq (ho : o ∈ T) : activeIn T.rows o.id = decide (o.status = .active) := by
  rw [activeIn, Hierarchy.find?_eq T.valid.1 ho]
  rfl

theorem follows_visitRule (rows : List Organization) :
    Follows (parentOf rows) (visitRule rows) := by
  intro path a path' node h
  unfold visitRule at h
  cases hrow : rows.find? (·.id = a) with
  | none => simp [hrow] at h
  | some current =>
    simp only [hrow] at h
    split_ifs at h
    rw [parentOf, hrow]
    exact ((Round.next.inj h).2).symm

/-- **The climb collects a chain if all of it is active.** -/
theorem along_visitRule (h : Chain (parentOf T.rows) a chain) (ho : o ∈ T) (hid : o.id = a)
    (path : List Uuid) : along (visitRule T.rows) (·, false) path chain =
      if chain.all (activeIn T.rows) then (path ++ chain, true) else ([], false) := by
  induction h generalizing o path with
  | @top a hnone =>
    subst hid
    rw [Hierarchy.parentOf_eq T.valid.1 ho] at hnone
    have hroot : o.id = o.rootOrganizationId := by
      rcases T.valid.2.1 o ho with ⟨-, hroot⟩ | ⟨hsome, -⟩
      · exact hroot.symm
      · exact absurd hnone hsome
    rw [along, visitRule, Hierarchy.find?_eq T.valid.1 ho]
    simp only [List.all_cons, List.all_nil, Bool.and_true, activeIn_eq ho, decide_eq_true_eq]
    by_cases hactive : o.status = .active
    · simp only [hactive, ne_eq, not_true_eq_false, if_false, if_true, if_pos hroot]
    · simp only [hactive, ne_eq, not_false_eq_true, if_true, if_false]
  | @up a b chain hsome hchain ih =>
    subst hid
    rw [Hierarchy.parentOf_eq T.valid.1 ho] at hsome
    obtain ⟨q, hq, hqid, -⟩ := T.valid.2.2 o ho b hsome
    have hroot : o.id ≠ o.rootOrganizationId := by
      rcases T.valid.2.1 o ho with ⟨hnone, -⟩ | ⟨-, hroot⟩
      · cases hnone.symm.trans hsome
      · exact hroot.symm
    rw [along, visitRule, Hierarchy.find?_eq T.valid.1 ho]
    simp only [List.all_cons, activeIn_eq ho, Bool.and_eq_true, decide_eq_true_eq]
    by_cases hactive : o.status = .active
    · simp only [hactive, ne_eq, not_true_eq_false, if_false, if_neg hroot, true_and,
        ih hq hqid (path ++ [o.id]), List.append_assoc, List.singleton_append]
    · simp only [hactive, ne_eq, not_false_eq_true, if_true, false_and, if_false]

/-- **A path from an organization to its root, all of it active.** -/
def ActivePath (organizations : List Organization) (start : Uuid) (path : List Uuid) : Prop :=
  Chain (parentOf organizations) start path
    ∧ ∀ id ∈ path, ∃ o ∈ organizations, o.id = id ∧ o.status = .active

theorem activePath_iff (h : Chain (parentOf T.rows) a chain) (ho : o ∈ T) (hid : o.id = a) :
    chain.all (activeIn T.rows) = true ↔ ActivePath T.rows a chain := by
  rw [List.all_eq_true, ActivePath, and_iff_right h]
  refine forall₂_congr fun id hmem => ?_
  obtain ⟨q, hq, rfl, -⟩ := (Hierarchy.root_of_chain h ho hid).1 id hmem
  rw [activeIn_eq hq, decide_eq_true_eq]
  constructor
  · intro hactive
    exact ⟨q, hq, rfl, hactive⟩
  · rintro ⟨q', hq', hid', hactive⟩
    rwa [T.valid.1.eq hq hq' hid'.symm]

/-- **`path` and `reachedRoot`** for an organization of the university. -/
theorem rulePath_eq (ho : o ∈ T) (hroot : o.rootOrganizationId = root)
    (hfuel : T.rows.length ≤ fuel) (h : Chain (parentOf T.rows) o.id chain) :
    (ActivePath T.rows o.id chain → rulePath fuel (T.ofRoot root).rows o.id = some (chain, true))
      ∧ (¬ ActivePath T.rows o.id chain →
          rulePath fuel (T.ofRoot root).rows o.id = some ([], false)) := by
  have ho' : o ∈ T.ofRoot root := Hierarchy.mem_ofRoot.mpr ⟨ho, hroot⟩
  have h' := Hierarchy.chain_ofRoot h ho hroot
  have hlength := ((Hierarchy.length_chain_le ho' h').trans (List.length_filter_le _ _)).trans hfuel
  have hpath : rulePath fuel (T.ofRoot root).rows o.id = _ :=
    (climb_eq (follows_visitRule _) h' hlength []).trans
      (congrArg some (along_visitRule h' ho' rfl []))
  have hsame : ActivePath (T.ofRoot root).rows o.id chain ↔ ActivePath T.rows o.id chain := by
    rw [ActivePath, ActivePath, and_iff_right h, and_iff_right h']
    refine forall₂_congr fun id hmem => ?_
    obtain ⟨q, hq, rfl, hqroot⟩ := (Hierarchy.root_of_chain h ho rfl).1 id hmem
    constructor
    · rintro ⟨q', hq', h⟩
      exact ⟨q', (Hierarchy.mem_ofRoot.mp hq').1, h⟩
    · rintro ⟨q', hq', hid, hactive⟩
      obtain rfl := T.valid.1.eq hq hq' hid.symm
      exact ⟨q, Hierarchy.mem_ofRoot.mpr ⟨hq, hqroot.trans hroot⟩, rfl, hactive⟩
  rw [hpath, ← hsame, ← activePath_iff h' ho' rfl, List.nil_append]
  exact ⟨fun hall => by rw [if_pos hall], fun hall => by rw [if_neg hall]⟩

/-! ## What the rules admit -/

variable {allowlist : List OrganizationEmailAllowlist} {good : List Uuid → Prop} {r : Uuid}
  {rules : List Uuid} {a₀ a₁ a₂ : Admission}

/-- **What the rules of a list have added**: their active paths, as far as `good` lets them count,
and the entries they belong to. -/
structure Admits (T : Hierarchy) (allowlist : List OrganizationEmailAllowlist)
    (good : List Uuid → Prop) (rules : List Uuid) (a₀ a₁ : Admission) : Prop where
  organizations : ∀ id, id ∈ a₁.organizationIds ↔ id ∈ a₀.organizationIds
    ∨ ∃ r ∈ rules, ∃ path, ActivePath T.rows r path ∧ good path ∧ id ∈ path
  entries : ∀ id, id ∈ a₁.consumedAllowlistIds ↔ id ∈ a₀.consumedAllowlistIds
    ∨ ∃ e ∈ allowlist, e.id = id ∧ e.organizationId ∈ rules
      ∧ ∃ path, ActivePath T.rows e.organizationId path ∧ good path
  nodup : a₀.organizationIds.Nodup → a₁.organizationIds.Nodup

theorem Admits.nil : Admits T allowlist good [] a₀ a₀ where
  organizations _ := by simp
  entries _ := by simp
  nodup := id

theorem Admits.cons (h : Admits T allowlist good [r] a₀ a₁)
    (h' : Admits T allowlist good rules a₁ a₂) : Admits T allowlist good (r :: rules) a₀ a₂ where
  organizations id := by
    rw [h'.organizations, h.organizations, or_assoc]
    simp only [List.exists_mem_cons_iff, List.not_mem_nil, false_and, exists_false, or_false]
  entries id := by
    rw [h'.entries, h.entries, or_assoc]
    refine or_congr_right ?_
    simp only [List.mem_cons, List.not_mem_nil, or_false]
    constructor
    · rintro (⟨e, he, hid, hr, hpath⟩ | ⟨e, he, hid, hr, hpath⟩)
      · exact ⟨e, he, hid, .inl hr, hpath⟩
      · exact ⟨e, he, hid, .inr hr, hpath⟩
    · rintro ⟨e, he, hid, hr | hr, hpath⟩
      · exact .inl ⟨e, he, hid, hr, hpath⟩
      · exact .inr ⟨e, he, hid, hr, hpath⟩
  nodup hnodup := h'.nodup (h.nodup hnodup)

/-- A rule whose path counts. -/
theorem Admits.addPath {path : List Uuid} (hpath : ActivePath T.rows r chain) (hgood : good chain)
    (hsame : ∀ id, id ∈ path ↔ id ∈ chain) :
    Admits T allowlist good [r] a₀ (a₀.addPath allowlist r path) where
  organizations id := by
    rw [Admission.addPath, Closure.mem_foldl_add, hsame]
    refine or_congr_right ?_
    simp only [List.mem_singleton, exists_eq_left]
    constructor
    · intro hid
      exact ⟨chain, hpath, hgood, hid⟩
    · rintro ⟨chain', hpath', -, hid⟩
      rwa [hpath.1.unique hpath'.1]
  entries id := by
    rw [Admission.addPath, Closure.mem_foldl_add]
    refine or_congr_right ?_
    simp only [List.mem_map, List.mem_filter, decide_eq_true_eq, List.mem_singleton]
    constructor
    · rintro ⟨e, ⟨he, rfl⟩, hid⟩
      exact ⟨e, he, hid, rfl, chain, hpath, hgood⟩
    · rintro ⟨e, he, hid, hr, -⟩
      exact ⟨e, ⟨he, hr⟩, hid⟩
  nodup := Closure.nodup_foldl_add

/-- A rule whose path does not. -/
theorem Admits.skip (hchain : Chain (parentOf T.rows) r chain)
    (hnot : ¬ (ActivePath T.rows r chain ∧ good chain)) : Admits T allowlist good [r] a₀ a₀ where
  organizations id := by
    refine (or_iff_left ?_).symm
    rintro ⟨r', hr, path, hpath, hgood, -⟩
    obtain rfl := List.mem_singleton.mp hr
    obtain rfl := hchain.unique hpath.1
    exact hnot ⟨hpath, hgood⟩
  entries id := by
    refine (or_iff_left ?_).symm
    rintro ⟨e, -, -, hr, path, hpath, hgood⟩
    rw [List.mem_singleton.mp hr] at hpath
    obtain rfl := hchain.unique hpath.1
    exact hnot ⟨hpath, hgood⟩
  nodup := id

/-- **A loop over the rules ends**, if each round does, and admits what the rounds do. -/
theorem exists_admits {step : Admission → Uuid → Option Admission}
    (hstep : ∀ r ∈ rules, ∀ a₀, ∃ a₁, step a₀ r = some a₁ ∧ Admits T allowlist good [r] a₀ a₁) :
    ∀ a₀, ∃ a₁, rules.foldlM step a₀ = some a₁ ∧ Admits T allowlist good rules a₀ a₁ := by
  induction rules with
  | nil => exact fun a₀ => ⟨a₀, rfl, .nil⟩
  | cons r rules ih =>
    intro a₀
    obtain ⟨a₁, h₁, hadmits⟩ := hstep r (List.mem_cons_self ..) a₀
    obtain ⟨a₂, h₂, hrest⟩ := ih (fun r hr => hstep r (List.mem_cons_of_mem _ hr)) a₁
    refine ⟨a₂, ?_, hadmits.cons hrest⟩
    rw [List.foldlM_cons, h₁]
    exact h₂

section Rounds

variable (hT : Grounded (parentOf T.rows)) (hfuel : T.rows.length ≤ fuel)
  (ho : o ∈ T) (hroot : o.rootOrganizationId = root)
include hT hfuel ho hroot

/-- A round of a request. -/
theorem admits_requestRule (organizationId : Uuid) (a₀ : Admission) :
    ∃ a₁, requestRule fuel (T.ofRoot root).rows allowlist organizationId a₀ o.id = some a₁
      ∧ Admits T allowlist (organizationId ∈ ·) [o.id] a₀ a₁ := by
  obtain ⟨chain, hchain⟩ := hT o.id
  obtain ⟨hactive, hnot⟩ := rulePath_eq ho hroot hfuel hchain
  by_cases hpath : ActivePath T.rows o.id chain
  · rw [requestRule, hactive hpath]
    by_cases hmem : organizationId ∈ chain
    · exact ⟨_, by simp [hmem], .addPath hpath hmem fun _ => Iff.rfl⟩
    · exact ⟨a₀, by simp [hmem], .skip hchain fun h => hmem h.2⟩
  · rw [requestRule, hnot hpath]
    exact ⟨a₀, by simp, .skip hchain fun h => hpath h.1⟩

/-- A round of a verification. -/
theorem admits_verifyRule (a₀ : Admission) :
    ∃ a₁, verifyRule fuel (T.ofRoot root).rows allowlist a₀ o.id = some a₁
      ∧ Admits T allowlist (fun _ => True) [o.id] a₀ a₁ := by
  obtain ⟨chain, hchain⟩ := hT o.id
  obtain ⟨hactive, hnot⟩ := rulePath_eq ho hroot hfuel hchain
  by_cases hpath : ActivePath T.rows o.id chain
  · rw [verifyRule, hactive hpath]
    exact ⟨_, by simp, .addPath hpath trivial fun _ => List.mem_reverse⟩
  · rw [verifyRule, hnot hpath]
    exact ⟨a₀, by simp, .skip hchain fun h => hpath h.1⟩

end Rounds

end ResourceHive.Organizations
