import ResourceHive.Machinery.Transactions
import ResourceHive.Organizations.Membership

/-!
# Sessions/RefreshTokens — starting, rotating, revoking and switching refresh sessions

`AuthService.login` and its `createSessionForUser`, `refreshSession`, `revokeSession`,
`switchActiveUniversity` and `resetPassword` as programs over one database.  An `updateMany` of
several refresh tokens is a read of the rows that match, its snapshot, followed by the write of
those that still match when it is applied: a row inserted in between is not among them.  Clock
readings are inputs, taken where the code takes them.
-/

namespace ResourceHive.Sessions

open Organizations (Organization OrganizationMembership)

/-! ## Tables -/

/-- A row of `users`. -/
structure User where
  id : Uuid
  email : String := ""
  status : AccountStatus := .active
  emailVerifiedAt : Option Timestamp := none
  passwordHash : Option String := none
  deriving DecidableEq, Repr

/-- A row of `refresh_tokens`. -/
structure RefreshToken where
  id : Uuid
  userId : Uuid
  familyId : Uuid
  activeRootOrganizationId : Option Uuid := none
  tokenHash : String
  expiresAt : Timestamp
  usedAt : Option Timestamp := none
  revokedAt : Option Timestamp := none
  createdAt : Timestamp
  deriving DecidableEq, Repr

namespace RefreshToken

/-- The three CHECKs. -/
def Checks (t : RefreshToken) : Prop :=
  t.createdAt < t.expiresAt ∧ (∀ u ∈ t.usedAt, t.createdAt ≤ u ∧ u ≤ t.expiresAt)
    ∧ ∀ r ∈ t.revokedAt, t.createdAt ≤ r

instance : DecidablePred Checks := fun _ => inferInstanceAs (Decidable (_ ∧ _ ∧ _))

/-- The primary key, the unique hash, and the CHECKs. -/
def Constraints (rows : List RefreshToken) : Prop :=
  Table.Unique id rows ∧ Table.Unique tokenHash rows ∧ Table.Check Checks rows

instance : DecidablePred Constraints := fun _ => inferInstanceAs (Decidable (_ ∧ _ ∧ _))

/-- **Live** at a time: unused, unrevoked, unexpired. -/
def Live (time : Timestamp) (t : RefreshToken) : Prop :=
  t.usedAt = none ∧ t.revokedAt = none ∧ time < t.expiresAt

instance (time : Timestamp) : DecidablePred (Live time) := fun _ =>
  inferInstanceAs (Decidable (_ ∧ _ ∧ _))

end RefreshToken

/-- A row of `password_reset_tokens`. -/
structure PasswordResetToken where
  id : Uuid
  userId : Uuid
  tokenHash : String
  expiresAt : Timestamp
  usedAt : Option Timestamp := none
  createdAt : Timestamp
  deriving DecidableEq, Repr

namespace PasswordResetToken

/-- The two CHECKs. -/
def Checks (t : PasswordResetToken) : Prop :=
  t.createdAt < t.expiresAt ∧ ∀ u ∈ t.usedAt, t.createdAt ≤ u ∧ u ≤ t.expiresAt

instance : DecidablePred Checks := fun _ => inferInstanceAs (Decidable (_ ∧ _))

/-- The primary key, the unique hash, and the CHECKs. -/
def Constraints (rows : List PasswordResetToken) : Prop :=
  Table.Unique id rows ∧ Table.Unique tokenHash rows ∧ Table.Check Checks rows

instance : DecidablePred Constraints := fun _ => inferInstanceAs (Decidable (_ ∧ _ ∧ _))

end PasswordResetToken

structure Database where
  users : List User
  organizations : List Organization
  /-- In the order of `joinedAt` and `id`. -/
  memberships : List OrganizationMembership
  refreshTokens : Table RefreshToken RefreshToken.Constraints
  passwordResetTokens : Table PasswordResetToken PasswordResetToken.Constraints

namespace Database

def user? (db : Database) (id : Uuid) : Option User := db.users.find? (·.id = id)

/-- The organization is active, and its university too; the university it belongs to. -/
def activeRoot? (db : Database) (organizationId : Uuid) : Option Uuid :=
  (db.organizations.find? fun o => decide (o.id = organizationId) && decide (o.status = .active)).bind
    fun o =>
      if db.organizations.any fun r => decide (r.id = o.rootOrganizationId)
          && decide (r.status = .active) then
        some o.rootOrganizationId
      else none

/-- `resolveUniversityContext`: the first approved membership in an active organization of the
requested university, or of any if none is requested. -/
def resolveUniversityContext (db : Database) (userId : Uuid) (requestedRootId : Option Uuid) :
    Option OrganizationMembership :=
  db.memberships.find? fun m =>
    decide (m.userId = userId) && decide (m.status = .approved)
      && (db.activeRoot? m.organizationId).any fun root => requestedRootId.all (· = root)

end Database

/-! ## Write statements -/

/-- Whose tokens a revocation is about. -/
inductive Scope
  | family (familyId : Uuid)
  | user (userId : Uuid)
  deriving DecidableEq, Repr

namespace Scope

def covers : Scope → RefreshToken → Bool
  | family familyId, t => decide (t.familyId = familyId)
  | user userId, t => decide (t.userId = userId)

/-- `where`: the unrevoked tokens of the scope. -/
def selects (scope : Scope) (t : RefreshToken) : Bool := scope.covers t && t.revokedAt.isNone

/-- The rows a statement with this `where` finds when it starts. -/
def snapshot (scope : Scope) (db : Database) : List Uuid :=
  (db.refreshTokens.rows.filter scope.selects).map (·.id)

end Scope

/-- An `updateMany` that revokes: its `where`, its `data`, and the rows it has found. -/
structure Revocation where
  scope : Scope
  revokedAt : Timestamp
  ids : List Uuid
  deriving DecidableEq, Repr

namespace Revocation

/-- A row of the snapshot that still matches. -/
def hits (r : Revocation) (t : RefreshToken) : Bool := decide (t.id ∈ r.ids) && r.scope.selects t

def apply (r : Revocation) (t : RefreshToken) : RefreshToken :=
  { t with revokedAt := some r.revokedAt }

end Revocation

inductive Write
  /-- `updateMany` of one unused, unrevoked, unexpired token. -/
  | claim (id : Uuid) (now : Timestamp)
  | create (token : RefreshToken)
  /-- `create` of the first token of a family. -/
  | start (token : RefreshToken)
  | revoke (r : Revocation)
  /-- `updateMany` of the active university of a family's unrevoked tokens. -/
  | switch (familyId : Uuid) (ids : List Uuid) (rootOrganizationId : Uuid)
  /-- `updateMany` of one unused, unexpired reset token. -/
  | claimReset (id : Uuid) (now : Timestamp)
  | updatePassword (userId : Uuid) (passwordHash : String)
  /-- `updateMany` of a user's other unused, unexpired reset tokens. -/
  | claimResets (userId : Uuid) (ids : List Uuid) (now : Timestamp)

/-- **One statement**; rejected by a constraint, by a count that is not one, or for want of its
record.  A family starts under an id that `randomUUID` has not made before. -/
def Write.exec : Write → Database → Option Database
  | .claim id now, db =>
    let claimable (t : RefreshToken) : Bool :=
      decide (t.id = id) && t.usedAt.isNone && t.revokedAt.isNone && decide (now < t.expiresAt)
    if db.refreshTokens.rows.any claimable then
      (db.refreshTokens.update claimable fun t => { t with usedAt := some now }).map
        fun refreshTokens => { db with refreshTokens }
    else none
  | .create token, db =>
    if (db.user? token.userId).isSome then
      (db.refreshTokens.insert token).map fun refreshTokens => { db with refreshTokens }
    else none
  | .start token, db =>
    if (db.user? token.userId).isSome
        ∧ ∀ t ∈ db.refreshTokens.rows, t.familyId ≠ token.familyId then
      (db.refreshTokens.insert token).map fun refreshTokens => { db with refreshTokens }
    else none
  | .revoke r, db =>
    (db.refreshTokens.update r.hits r.apply).map fun refreshTokens => { db with refreshTokens }
  | .switch familyId ids rootOrganizationId, db =>
    (db.refreshTokens.update
      (fun t => decide (t.id ∈ ids) && (Scope.family familyId).selects t)
      fun t => { t with activeRootOrganizationId := some rootOrganizationId }).map
        fun refreshTokens => { db with refreshTokens }
  | .claimReset id now, db =>
    let claimable (t : PasswordResetToken) : Bool :=
      decide (t.id = id) && t.usedAt.isNone && decide (now < t.expiresAt)
    if db.passwordResetTokens.rows.any claimable then
      (db.passwordResetTokens.update claimable fun t => { t with usedAt := some now }).map
        fun passwordResetTokens => { db with passwordResetTokens }
    else none
  | .updatePassword userId passwordHash, db =>
    if (db.user? userId).isSome then
      some { db with users := db.users.map fun u =>
        if u.id = userId then { u with passwordHash := some passwordHash } else u }
    else none
  | .claimResets userId ids now, db =>
    (db.passwordResetTokens.update
      (fun t => decide (t.id ∈ ids) && decide (t.userId = userId) && t.usedAt.isNone
        && decide (now < t.expiresAt))
      fun t => { t with usedAt := some now }).map
        fun passwordResetTokens => { db with passwordResetTokens }

/-! ## Access tokens -/

/-- What `issueAccessToken` signs. -/
structure AccessToken where
  sub : Uuid
  email : String
  organizationId : Option Uuid
  rootOrganizationId : Option Uuid
  role : Option MembershipRole
  deriving DecidableEq, Repr

/-- **`issueAccessToken`**, of the university context there is. -/
def issueAccessToken (db : Database) (user : User) (rootOrganizationId : Option Uuid) :
    AccessToken :=
  let context := db.resolveUniversityContext user.id rootOrganizationId
  { sub := user.id
    email := user.email
    organizationId := context.map (·.organizationId)
    rootOrganizationId := context.bind fun m => db.activeRoot? m.organizationId
    role := context.map (·.role) }

/-! ## The calls -/

inductive AuthError
  | invalidCredentials
  | emailVerificationRequired
  | invalidSession
  | membershipNoLongerValid
  | membershipRequired
  | sessionRequired
  | sessionInvalid
  | accountUnavailable
  | invalidPasswordReset
  | samePassword
  deriving DecidableEq, Repr

namespace AuthError

/-- The HTTP status of the exception's class. -/
def status : AuthError → ℕ
  | invalidPasswordReset | samePassword => 400
  | _ => 401

def message : AuthError → String
  | invalidCredentials => "Invalid email or password"
  | emailVerificationRequired => "Verify your email address before logging in"
  | invalidSession => "Invalid or expired session"
  | membershipNoLongerValid => "The active university membership is no longer valid"
  | membershipRequired => "An approved university membership is required"
  | sessionRequired => "An active refresh session is required"
  | sessionInvalid => "The active refresh session is invalid"
  | accountUnavailable => "The account is unavailable"
  | invalidPasswordReset => "Password reset link is invalid or has expired."
  | samePassword => "New password must be different from your current password."

end AuthError

/-- What the service takes from cryptographic libraries, and the lifetime it is configured with. -/
structure Crypto where
  hashToken : String → String
  comparePassword : String → String → Bool
  refreshTokenLifetimeMs : ℤ

/-- What a step takes from outside: the time, and what a new row needs. -/
structure Reading where
  now : Timestamp := 0
  id : Uuid := 0
  familyId : Uuid := 0
  /-- A random token, or the hash of a password. -/
  text : String := ""
  createdAt : Timestamp := 0
  deriving DecidableEq, Repr

/-- How a call ends. -/
inductive Answer
  | returned
  /-- A session that begins with this token; the hash that the password given for it was compared
  with, if it was for a password. -/
  | session (token : RefreshToken) (passwordHash : Option String)
  | refreshed (accessToken : AccessToken) (refreshToken : String)
      (refreshTokenExpiresAt : Timestamp)
  | threw (e : AuthError)
  deriving DecidableEq, Repr

/-- Where a call is. -/
inductive Point
  /-- The email as `login` has trimmed and lowercased it. -/
  | login (email password : Option String)
  | loginCompare (user : User) (passwordHash password : String)
  | createSessionForUser (userId : Uuid) (passwordHash : Option String)
  | sessionAccess (userId : Uuid) (rootOrganizationId : Option Uuid) (passwordHash : Option String)
  | issuing (token : RefreshToken) (passwordHash : Option String)
  | refreshSession (token : Option String)
  | refreshContext (stored : RefreshToken) (user : User) (now : Timestamp)
  | refreshAccess (stored : RefreshToken) (user : User) (now : Timestamp)
  /-- The token, the access token issued for it, and what its successor is made of. -/
  | rotating (stored : RefreshToken) (accessToken : AccessToken) (now : Timestamp) (x : Reading)
  | revokeSession (token : Option String)
  /-- `revokeRefreshTokenFamily` is called, and how the caller ends after it. -/
  | revokeRefreshTokenFamily (familyId : Uuid) (revokedAt : Timestamp) (answer : Answer)
  | revoking (r : Revocation) (answer : Answer)
  | switchActiveUniversity (userId rootOrganizationId : Uuid) (rawRefreshToken : Option String)
  | switchFind (userId rootOrganizationId : Uuid) (rawRefreshToken : String)
  | switchUpdate (userId rootOrganizationId familyId : Uuid)
  | switching (userId rootOrganizationId familyId : Uuid) (ids : List Uuid)
  | switchUser (userId : Uuid)
  | resetPassword (token password : String)
  | resetTransaction (stored : PasswordResetToken)
  | resetting (stored : PasswordResetToken) (passwordHash : String) (resetIds : List Uuid)
      (r : Revocation)
  | finished (answer : Answer)
  /-- A transaction was rolled back; what it throws itself when its claim matched no row. -/
  | failed (error : Option AuthError)
  deriving DecidableEq, Repr

/-- A token that is neither missing nor empty. -/
def present (token : Option String) : Option String := token.filter (· ≠ "")

/-- **`login`**, after its look-up. -/
def login (user : Option User) (password : String) : Point :=
  match user with
  | none => .finished (.threw .invalidCredentials)
  | some user =>
    if user.status ≠ .active then .finished (.threw .invalidCredentials)
    else match present user.passwordHash with
      | none => .finished (.threw .invalidCredentials)
      | some passwordHash => .loginCompare user passwordHash password

/-- …and after `bcrypt.compare`. -/
def loginCompare (K : Crypto) (user : User) (passwordHash password : String) : Point :=
  if ¬ K.comparePassword password passwordHash then .finished (.threw .invalidCredentials)
  else if user.emailVerifiedAt.isNone then .finished (.threw .emailVerificationRequired)
  else .createSessionForUser user.id (some passwordHash)

/-- The first token of a session, of `issueRefreshToken`. -/
def RefreshToken.first (K : Crypto) (userId : Uuid) (rootOrganizationId : Option Uuid)
    (x : Reading) : RefreshToken where
  id := x.id
  userId := userId
  familyId := x.familyId
  activeRootOrganizationId := rootOrganizationId
  tokenHash := K.hashToken x.text
  expiresAt := x.now + K.refreshTokenLifetimeMs
  createdAt := x.createdAt

/-- **`refreshSession`**, after its look-up at a time read before it. -/
def refreshSession (db : Database) (stored : Option RefreshToken) (now : Timestamp) : Point :=
  match stored with
  | none => .finished (.threw .invalidSession)
  | some stored =>
    let revoked : Point := .revokeRefreshTokenFamily stored.familyId now (.threw .invalidSession)
    if stored.usedAt.isSome then revoked
    else match db.user? stored.userId with
      | none => revoked
      | some user =>
        if stored.revokedAt.isSome ∨ stored.expiresAt ≤ now ∨ user.status ≠ .active
            ∨ user.emailVerifiedAt.isNone then
          revoked
        else if stored.activeRootOrganizationId.isSome then .refreshContext stored user now
        else .refreshAccess stored user now

/-- **`revokeSession`**, after its look-up. -/
def revokeSession (stored : Option RefreshToken) (now : Timestamp) : Point :=
  match stored with
  | none => .finished .returned
  | some stored => .revokeRefreshTokenFamily stored.familyId now .returned

/-- **`switchActiveUniversity`**, after the look-up of the token. -/
def switchFind (userId rootOrganizationId : Uuid) (token : Option RefreshToken) (now : Timestamp) :
    Point :=
  match token with
  | none => .finished (.threw .sessionInvalid)
  | some token =>
    if token.userId ≠ userId ∨ token.expiresAt ≤ now ∨ token.revokedAt.isSome
        ∨ token.usedAt.isSome then
      .finished (.threw .sessionInvalid)
    else .switchUpdate userId rootOrganizationId token.familyId

/-- **`resetPassword`**, after its look-up at a time read before it. -/
def resetPassword (K : Crypto) (db : Database) (stored : Option PasswordResetToken)
    (password : String) (now : Timestamp) : Point :=
  match stored with
  | none => .finished (.threw .invalidPasswordReset)
  | some stored =>
    let user := db.user? stored.userId
    if stored.usedAt.isSome ∨ stored.expiresAt ≤ now
        ∨ ¬ user.any fun u => decide (u.status = .active) && u.emailVerifiedAt.isSome then
      .finished (.threw .invalidPasswordReset)
    else if (user.bind (·.passwordHash)).any (K.comparePassword password) then
      .finished (.threw .samePassword)
    else .resetTransaction stored

/-- The successor of a token, made in its rotation. -/
def RefreshToken.next (K : Crypto) (stored : RefreshToken) (x : Reading) : RefreshToken where
  id := x.id
  userId := stored.userId
  familyId := stored.familyId
  activeRootOrganizationId := stored.activeRootOrganizationId
  tokenHash := K.hashToken x.text
  expiresAt := stored.expiresAt
  createdAt := x.createdAt

/-- **The reads of each call.** -/
def Point.read (K : Crypto) (db : Database) (x : Reading) : Point → Option Point
  | .login email password =>
    some <| match present email, present password with
      | some email, some password =>
        Sessions.login (db.users.find? (·.email = email)) password
      | _, _ => .finished (.threw .invalidCredentials)
  | .loginCompare user passwordHash password =>
    some (Sessions.loginCompare K user passwordHash password)
  | .createSessionForUser userId passwordHash =>
    some (.sessionAccess userId ((db.resolveUniversityContext userId none).bind fun m =>
      db.activeRoot? m.organizationId) passwordHash)
  | .sessionAccess userId rootOrganizationId passwordHash =>
    some (.issuing (.first K userId rootOrganizationId x) passwordHash)
  | .refreshSession token =>
    some <| match present token with
      | none => .finished (.threw .invalidSession)
      | some token =>
        Sessions.refreshSession db (db.refreshTokens.find? (·.tokenHash = K.hashToken token)) x.now
  | .refreshContext stored user now =>
    some <|
      if (db.resolveUniversityContext user.id stored.activeRootOrganizationId).isSome then
        .refreshAccess stored user now
      else
        .revokeRefreshTokenFamily stored.familyId now (.threw .membershipNoLongerValid)
  | .refreshAccess stored user now =>
    some (.rotating stored (issueAccessToken db user stored.activeRootOrganizationId) now x)
  | .revokeSession token =>
    some <| match present token with
      | none => .finished .returned
      | some token =>
        Sessions.revokeSession (db.refreshTokens.find? (·.tokenHash = K.hashToken token)) x.now
  | .revokeRefreshTokenFamily familyId revokedAt answer =>
    some (.revoking ⟨.family familyId, revokedAt, (Scope.family familyId).snapshot db⟩ answer)
  | .switchActiveUniversity userId rootOrganizationId rawRefreshToken =>
    some <|
      if (db.resolveUniversityContext userId (some rootOrganizationId)).isNone then
        .finished (.threw .membershipRequired)
      else match present rawRefreshToken with
        | none => .finished (.threw .sessionRequired)
        | some token => .switchFind userId rootOrganizationId token
  | .switchFind userId rootOrganizationId token =>
    some <| Sessions.switchFind userId rootOrganizationId
      (db.refreshTokens.find? (·.tokenHash = K.hashToken token)) x.now
  | .switchUpdate userId rootOrganizationId familyId =>
    some (.switching userId rootOrganizationId familyId ((Scope.family familyId).snapshot db))
  | .switchUser userId =>
    some <| .finished (if (db.user? userId).isSome then .returned else .threw .accountUnavailable)
  | .resetPassword token password =>
    some <| Sessions.resetPassword K db
      (db.passwordResetTokens.find? (·.tokenHash = K.hashToken token)) password x.now
  | .resetTransaction stored =>
    some <| .resetting stored x.text
      ((db.passwordResetTokens.rows.filter fun t => decide (t.userId = stored.userId)
        && t.usedAt.isNone && decide (x.now < t.expiresAt)).map (·.id))
      ⟨.user stored.userId, x.now, (Scope.user stored.userId).snapshot db⟩
  | .issuing _ _ | .rotating _ _ _ _ | .revoking _ _ | .switching _ _ _ _ | .resetting _ _ _ _
  | .finished _ | .failed _ => none

/-- What others do: accounts and memberships change, a reset is requested. -/
inductive Outside
  | users (users : List User)
  | directory (organizations : List Organization) (memberships : List OrganizationMembership)
  | requestReset (token : PasswordResetToken)

/-- The calls of the authentication service; `createSessionForUser` is also what a login with an
external identity ends in. -/
def code (K : Crypto) : Code Database Point Write Reading Outside Empty where
  entry
    | .login _ _ | .createSessionForUser _ none | .refreshSession _ | .revokeSession _
    | .switchActiveUniversity _ _ _ | .resetPassword _ _ => true
    | _ => false
  read db p x := p.read K db x
  writes
    | .issuing token _ => [.start token]
    | .rotating stored _ now x => [.claim stored.id now, .create (stored.next K x)]
    | .revoking r _ => [.revoke r]
    | .switching _ rootOrganizationId familyId ids => [.switch familyId ids rootOrganizationId]
    | .resetting stored passwordHash resetIds r =>
      [.claimReset stored.id r.revokedAt, .updatePassword stored.userId passwordHash,
        .claimResets stored.userId resetIds r.revokedAt, .revoke r]
    | _ => []
  exec := Write.exec
  committed
    | .resetting _ _ _ _ => .finished .returned
    | .rotating stored accessToken _ x =>
      .finished (.refreshed accessToken x.text stored.expiresAt)
    | .issuing token passwordHash => .finished (.session token passwordHash)
    | .revoking _ answer => .finished answer
    | .switching userId _ _ _ => .switchUser userId
    | p => p
  rolledBack
    | .rotating _ _ _ _ => .failed (some .invalidSession)
    | .resetting _ _ _ _ => .failed (some .invalidPasswordReset)
    | .finished answer => .finished answer
    | .failed error => .failed error
    | _ => .failed none
  emits _ := []
  outside
    | .users users, db => some { db with users }
    | .directory organizations memberships, db => some { db with organizations, memberships }
    | .requestReset token, db =>
      (db.passwordResetTokens.insert token).map fun passwordResetTokens =>
        { db with passwordResetTokens }

/-- The tokens of a family are one user's. -/
def OwnedFamilies (db : Database) : Prop :=
  ∀ t ∈ db.refreshTokens, ∀ t' ∈ db.refreshTokens, t.familyId = t'.familyId → t.userId = t'.userId

/-- The machine of the authentication service. -/
def machine (K : Crypto) : Machine (Sessions Database Point Empty) (Label Point Reading Outside) :=
  (code K).machine OwnedFamilies

end ResourceHive.Sessions
