import ResourceHive.Organizations.AutoApproval
import ResourceHive.Sessions.Redirects
import ResourceHive.Sessions.ResetTokens

/-!
# Sessions/GoogleSignIn — accounts, their passwords and their Google identities

`AuthService.register`, `completeGoogleCallback`, `disconnectGoogle` and `requestPasswordSetup`
among the calls of `ResetTokens`, over one database.  A callback looks up the identity of the
subject that Google has verified, and later connects it, signs in with it, or signs up: a transaction
creates the user and the identity, and whoever loses the race for either of them looks again.
-/

namespace ResourceHive.Sessions.GoogleSignIn

open Organizations (OrganizationEmailDomain EmailVerificationToken TextFunctions getEmailDomain)

/-! ## Tables -/

/-- A row of `external_identities`, of which the provider is always `GOOGLE`. -/
structure ExternalIdentity where
  id : Uuid
  userId : Uuid
  providerSubject : String
  providerEmail : String
  lastUsedAt : Option Timestamp := none
  deriving DecidableEq, Repr

namespace ExternalIdentity

/-- The primary key, and the two unique indexes. -/
def Constraints (rows : List ExternalIdentity) : Prop :=
  Table.Unique id rows ∧ Table.Unique providerSubject rows ∧ Table.Unique userId rows

instance : DecidablePred Constraints := fun _ => inferInstanceAs (Decidable (_ ∧ _ ∧ _))

/-- The columns that no update touches. -/
def key (r : ExternalIdentity) : Uuid × Uuid × String := (r.id, r.userId, r.providerSubject)

/-- What is set whenever an identity is used. -/
def use (providerEmail : String) (now : Timestamp) (r : ExternalIdentity) : ExternalIdentity :=
  { r with providerEmail, lastUsedAt := some now }

@[simp] theorem key_use (providerEmail : String) (now : Timestamp) (r : ExternalIdentity) :
    (r.use providerEmail now).key = r.key := rfl

theorem key_eq {r r' : ExternalIdentity} (h : r.key = r'.key) :
    r.id = r'.id ∧ r.userId = r'.userId ∧ r.providerSubject = r'.providerSubject := by
  simpa [key] using h

end ExternalIdentity

structure Database extends Sessions.Database where
  emailDomains : Table OrganizationEmailDomain OrganizationEmailDomain.Constraints
  verificationTokens : Table EmailVerificationToken EmailVerificationToken.Constraints
  externalIdentities : Table ExternalIdentity ExternalIdentity.Constraints

namespace Database

/-- The identity with a subject. -/
def identity? (db : Database) (subject : String) : Option ExternalIdentity :=
  db.externalIdentities.find? (·.providerSubject = subject)

/-- The identity of a user. -/
def identityOf? (db : Database) (userId : Uuid) : Option ExternalIdentity :=
  db.externalIdentities.find? (·.userId = userId)

def isActive (db : Database) (userId : Uuid) : Bool := (db.user? userId).any (·.status = .active)

/-- INSERT of an identity, of a user there is. -/
def insertIdentity (db : Database) (identity : ExternalIdentity) : Option Database :=
  if (db.user? identity.userId).isSome then
    (db.externalIdentities.insert identity).map fun externalIdentities =>
      { db with externalIdentities }
  else none

end Database

/-! ## Write statements -/

inductive Statement
  | account (w : ResetTokens.Statement)
  | createUser (user : User)
  | createVerificationToken (token : EmailVerificationToken)
  | createIdentity (identity : ExternalIdentity)
  /-- `upsert`, by the subject: one `INSERT … ON CONFLICT … DO UPDATE`. -/
  | upsertIdentity (identity : ExternalIdentity) (now : Timestamp)
  | updateIdentity (id : Uuid) (providerEmail : String) (now : Timestamp)
  | deleteIdentity (id : Uuid)

/-- **One statement**; rejected by a constraint, or for want of its record. -/
def Statement.exec : Statement → Database → Option Database
  | .account w, db => (w.exec db.toDatabase).map fun d => { db with toDatabase := d }
  | .createUser user, db =>
    if db.users.all fun u => decide (u.id ≠ user.id) && decide (u.email ≠ user.email) then
      some { db with users := db.users ++ [user] }
    else none
  | .createVerificationToken token, db =>
    if (db.user? token.userId).isSome then
      (db.verificationTokens.insert token).map fun verificationTokens =>
        { db with verificationTokens }
    else none
  | .createIdentity identity, db => db.insertIdentity identity
  | .upsertIdentity identity now, db =>
    if (db.identity? identity.providerSubject).isSome then
      (db.externalIdentities.update (·.providerSubject = identity.providerSubject)
        (.use identity.providerEmail now)).map fun externalIdentities =>
          { db with externalIdentities }
    else db.insertIdentity identity
  | .updateIdentity id providerEmail now, db =>
    if db.externalIdentities.rows.any (·.id = id) then
      (db.externalIdentities.update (·.id = id) (.use providerEmail now)).map
        fun externalIdentities => { db with externalIdentities }
    else none
  | .deleteIdentity id, db =>
    if db.externalIdentities.rows.any (·.id = id) then
      (db.externalIdentities.delete (·.id = id)).map fun externalIdentities =>
        { db with externalIdentities }
    else none

/-! ## The calls -/

/-- What the service is configured with, and what it takes from libraries. -/
structure Configuration where
  crypto : Crypto
  resetLifetimeMs : ℤ
  verificationLifetimeMs : ℤ
  text : TextFunctions
  standard : Url.Standard
  app : Url

/-- `GoogleFlowPurpose`. -/
inductive GoogleFlowPurpose
  | login
  | connect
  deriving DecidableEq, Repr

/-- `GoogleOAuthFlow`, as the callback reads it from the flow token. -/
structure GoogleOAuthFlow where
  purpose : GoogleFlowPurpose
  state : String
  next : String := ""
  userId : Option Uuid := none
  deriving DecidableEq, Repr

/-- `GoogleIdentity`, as `exchangeAndVerify` returns it. -/
structure GoogleIdentity where
  subject : String
  email : String
  deriving DecidableEq, Repr

inductive GoogleError
  | invalidEmail
  | emailNotApproved
  | emailExists
  | attemptInvalid
  | connectedToAnother
  | sessionNoLongerValid
  | onlyOneAccount
  | accountUnavailable
  | emailOwned
  | unableToCreate
  | invalidPassword
  | notConnected
  deriving DecidableEq, Repr

namespace GoogleError

/-- The HTTP status of the exception's class. -/
def status : GoogleError → ℕ
  | invalidEmail | emailNotApproved | notConnected => 400
  | attemptInvalid | sessionNoLongerValid | accountUnavailable | invalidPassword => 401
  | emailExists | connectedToAnother | onlyOneAccount | emailOwned | unableToCreate => 409

def message : GoogleError → String
  | invalidEmail => "Enter a valid email address"
  | emailNotApproved => "Use an email address from an approved organization"
  | emailExists => "An account with this email already exists"
  | attemptInvalid => "The Google sign-in attempt is invalid or expired"
  | connectedToAnother =>
    "This Google account is already connected to another ResourceHive account"
  | sessionNoLongerValid => "Your session is no longer valid"
  | onlyOneAccount => "Only one Google account can be connected"
  | accountUnavailable => "This account is unavailable"
  | emailOwned => "An account with this email already exists. Sign in with email and password, "
      ++ "then connect Google from Account Settings."
  | unableToCreate => "Unable to create the Google account"
  | invalidPassword => "Invalid password"
  | notConnected => "Google is not connected"

end GoogleError

/-- What a step takes from outside; a transaction that creates two rows takes two ids. -/
structure Reading extends Sessions.Reading where
  secondId : Uuid := 0
  deriving DecidableEq, Repr

/-- Where a call is. -/
inductive Point
  /-- In one of the other calls. -/
  | account (p : ResetTokens.Point)
  /-- The email as the service has trimmed and lowercased it. -/
  | register (email : String)
  | hashPassword (email : String)
  | registerTransaction (email passwordHash : String)
  | registering (user : User) (token : EmailVerificationToken)
  | registered (userId : Uuid)
  /-- What `verifyAsync` has read from the flow token, and what `exchangeAndVerify` has returned for
  the code, if they have not thrown. -/
  | completeGoogleCallback (flow : Option GoogleOAuthFlow) (state : String)
      (identity : Option GoogleIdentity)
  | connectUser (userId : Uuid) (identity : GoogleIdentity)
  | connectOther (userId : Uuid) (identity : GoogleIdentity)
  | connecting (userId : Uuid) (identity : GoogleIdentity) (x : Reading)
  /-- The redirect to `/dashboard/account?google=connected` has been returned. -/
  | connected (userId : Uuid) (identity : GoogleIdentity)
  /-- A sign-in has found a row; where it leads to, or nothing after a lost sign-up. -/
  | signingIn (identity : GoogleIdentity) (row : ExternalIdentity) (next : Option String)
      (now : Timestamp)
  | emailOwner (identity : GoogleIdentity)
  | signingUp (identity : GoogleIdentity) (x : Reading)
  | racedIdentity (identity : GoogleIdentity)
  /-- In `createSessionForUser`, for the user of a row. -/
  | session (identity : GoogleIdentity) (row : ExternalIdentity) (next : Option String)
      (p : Sessions.Point)
  | signedIn (identity : GoogleIdentity) (row : ExternalIdentity) (token : RefreshToken)
      (redirectPath : String)
  | disconnectGoogle (userId : Uuid) (password : String)
  | findConnected (userId : Uuid)
  | disconnecting (row : ExternalIdentity)
  | disconnected
  | requestPasswordSetup (userId : Uuid)
  | threw (e : GoogleError)
  /-- Something else was thrown. -/
  | failed
  deriving DecidableEq

section Calls

variable (G : Configuration) (db : Database)

/-- **`register`**, up to the hash of the password. -/
def register (email : String) : Point :=
  match getEmailDomain G.text email with
  | .error _ => .threw .invalidEmail
  | .ok emailDomain =>
    let domainConfiguration := db.emailDomains.find? (·.domain = emailDomain)
    let organization := domainConfiguration.bind fun c =>
      db.organizations.find? (·.id = c.organizationId)
    if ¬ organization.any (·.status = .active) then .threw .emailNotApproved
    else .hashPassword email

/-- The rows of a registration. -/
def registration (email passwordHash : String) (x : Reading) : Point :=
  .registering { id := x.id, email, passwordHash := some passwordHash }
    { id := x.secondId, userId := x.id, tokenHash := G.crypto.hashToken x.text,
      expiresAt := x.now + G.verificationLifetimeMs, createdAt := x.createdAt }

/-- **`completeGoogleCallback`**, after its first look-up. -/
def afterLookup (flow : GoogleOAuthFlow) (identity : GoogleIdentity) (now : Timestamp)
    (existing : Option ExternalIdentity) : Point :=
  match flow.purpose with
  | .connect =>
    match flow.userId with
    | none => .threw .attemptInvalid
    | some userId =>
      if existing.any (·.userId ≠ userId) then .threw .connectedToAnother
      else .connectUser userId identity
  | .login =>
    match existing with
    | none => .emailOwner identity
    | some existing =>
      if ¬ db.isActive existing.userId then .threw .accountUnavailable
      else .signingIn identity existing (some flow.next) now

/-- **`completeGoogleCallback`**, up to its first look-up. -/
def completeGoogleCallback (flow : Option GoogleOAuthFlow) (state : String)
    (identity : Option GoogleIdentity) (now : Timestamp) : Point :=
  match flow with
  | none => .threw .attemptInvalid
  | some flow =>
    if flow.state = "" ∨ flow.state ≠ state then .threw .attemptInvalid
    else match identity with
      | none => .failed
      | some identity => afterLookup db flow identity now (db.identity? identity.subject)

/-- Whether the account may be connected. -/
def connectUser (userId : Uuid) (identity : GoogleIdentity) : Point :=
  match db.user? userId with
  | none => .threw .sessionNoLongerValid
  | some user =>
    if user.status ≠ .active ∨ (present user.passwordHash).isNone then
      .threw .sessionNoLongerValid
    else .connectOther userId identity

/-- Whether another Google account is connected to it. -/
def connectOther (userId : Uuid) (identity : GoogleIdentity) (x : Reading) : Point :=
  if (db.identityOf? userId).any (·.providerSubject ≠ identity.subject) then
    .threw .onlyOneAccount
  else .connecting userId identity x

/-- The identity that a connection or a sign-up creates. -/
def newIdentity (id userId : Uuid) (identity : GoogleIdentity) : ExternalIdentity where
  id := id
  userId := userId
  providerSubject := identity.subject
  providerEmail := identity.email

/-- The user that a sign-up creates. -/
def newUser (identity : GoogleIdentity) (x : Reading) : User where
  id := x.id
  email := identity.email
  emailVerifiedAt := some x.now

/-- The look-up after a failed sign-up. -/
def racedIdentity (identity : GoogleIdentity) (now : Timestamp) : Point :=
  match db.identity? identity.subject with
  | none => .threw .unableToCreate
  | some raced =>
    if ¬ db.isActive raced.userId then .threw .unableToCreate
    else .signingIn identity raced none now

/-- Where a session leads to. -/
def redirectPath (userId : Uuid) : Option String → String
  | none => "/dashboard/onboarding/membership"
  | some next =>
    if db.memberships.any fun m => decide (m.userId = userId) && decide (m.status = .approved) then
      safeNext G.standard G.app (some next)
    else "/dashboard/onboarding/membership"

/-- **`verifyPassword`**. -/
def verifyPassword (userId : Uuid) (password : String) : Bool :=
  (db.user? userId).any fun user => decide (user.status = .active)
    && (present user.passwordHash).any (G.crypto.comparePassword password)

/-- **`requestPasswordSetup`**, after its look-up. -/
def requestPasswordSetup (user : Option User) : Point :=
  match user with
  | none => .account .requested
  | some user =>
    if user.status ≠ .active ∨ user.emailVerifiedAt.isNone ∨ (present user.passwordHash).isSome then
      .account .requested
    else .account (.requestPasswordReset (G.text.toLowerCase (G.text.trim user.email)))

end Calls

/-- **The reads of each call.** -/
def Point.read (G : Configuration) (db : Database) (x : Reading) : Point → Option Point
  | .account p =>
    (p.read G.crypto G.resetLifetimeMs db.toDatabase x.toReading).map .account
  | .register email => some (GoogleSignIn.register G db email)
  | .hashPassword email =>
    some <|
      if (db.users.find? (·.email = email)).isSome then .threw .emailExists
      else .registerTransaction email x.text
  | .registerTransaction email passwordHash => some (registration G email passwordHash x)
  | .completeGoogleCallback flow state identity =>
    some (GoogleSignIn.completeGoogleCallback db flow state identity x.now)
  | .connectUser userId identity => some (GoogleSignIn.connectUser db userId identity)
  | .connectOther userId identity => some (GoogleSignIn.connectOther db userId identity x)
  | .emailOwner identity =>
    some <|
      if (db.users.find? (·.email = identity.email)).isSome then .threw .emailOwned
      else .signingUp identity x
  | .racedIdentity identity => some (GoogleSignIn.racedIdentity db identity x.now)
  | .session identity row next (.finished (.session token _)) =>
    some (.signedIn identity row token (redirectPath G db row.userId next))
  | .session identity row next p =>
    (p.read G.crypto db.toDatabase x.toReading).map (.session identity row next)
  | .disconnectGoogle userId password =>
    some <|
      if verifyPassword G db userId password then .findConnected userId
      else .threw .invalidPassword
  | .findConnected userId =>
    some <| match db.identityOf? userId with
      | none => .threw .notConnected
      | some row => .disconnecting row
  | .requestPasswordSetup userId =>
    some (GoogleSignIn.requestPasswordSetup G (db.user? userId))
  | .registering _ _ | .registered _ | .connecting _ _ _ | .connected _ _ | .signingIn _ _ _ _
  | .signingUp _ _ | .signedIn _ _ _ _ | .disconnecting _ | .disconnected | .threw _ | .failed =>
    none

/-- What others do: accounts are suspended or verified, memberships change. -/
inductive Outside
  | account (userId : Uuid) (status : AccountStatus) (emailVerifiedAt : Option Timestamp)
  | directory (organizations : List Organizations.Organization)
      (memberships : List Organizations.OrganizationMembership)

def Outside.exec : Outside → Database → Database
  | .account userId status emailVerifiedAt, db =>
    { db with users := db.users.map fun u =>
        if u.id = userId then { u with status, emailVerifiedAt } else u }
  | .directory organizations memberships, db => { db with organizations, memberships }

/-- The calls of the authentication service; the history is of the identities that were
disconnected. -/
def code (G : Configuration) :
    Code Database Point Statement Reading Outside ExternalIdentity where
  entry
    | .account (.auth (.createSessionForUser _ _)) => false
    | .account p => (ResetTokens.code G.crypto G.resetLifetimeMs).entry p
    | .register _ | .completeGoogleCallback _ _ _ | .disconnectGoogle _ _
    | .requestPasswordSetup _ => true
    | _ => false
  read db p x := p.read G db x
  writes
    | .account p => ((ResetTokens.code G.crypto G.resetLifetimeMs).writes p).map .account
    | .registering user token => [.createUser user, .createVerificationToken token]
    | .connecting userId identity x => [.upsertIdentity (newIdentity x.id userId identity) x.now]
    | .signingIn identity row _ now => [.updateIdentity row.id identity.email now]
    | .signingUp identity x =>
      [.createUser (newUser identity x), .createIdentity (newIdentity x.secondId x.id identity)]
    | .session _ _ _ p => ((Sessions.code G.crypto).writes p).map fun w => .account (.auth w)
    | .disconnecting row => [.deleteIdentity row.id]
    | _ => []
  exec := Statement.exec
  committed
    | .account p => .account ((ResetTokens.code G.crypto G.resetLifetimeMs).committed p)
    | .registering user _ => .registered user.id
    | .connecting userId identity _ => .connected userId identity
    | .signingIn identity row next _ =>
      .session identity row next (.createSessionForUser row.userId none)
    | .signingUp identity x =>
      .session identity (newIdentity x.secondId x.id identity) none (.createSessionForUser x.id none)
    | .session identity row next p =>
      .session identity row next ((Sessions.code G.crypto).committed p)
    | .disconnecting _ => .disconnected
    | p => p
  rolledBack
    | .account p => .account ((ResetTokens.code G.crypto G.resetLifetimeMs).rolledBack p)
    | .signingUp identity _ => .racedIdentity identity
    | .session identity row next p =>
      .session identity row next ((Sessions.code G.crypto).rolledBack p)
    | .registered userId => .registered userId
    | .connected userId identity => .connected userId identity
    | .signedIn identity row token redirectPath => .signedIn identity row token redirectPath
    | .disconnected => .disconnected
    | .threw e => .threw e
    | _ => .failed
  emits
    | .disconnecting row => [row]
    | _ => []
  outside x db := some (x.exec db)

/-- **A user can sign in**: with a password, or with Google. -/
def Database.HasMethod (db : Database) (u : User) : Prop :=
  u.passwordHash.isSome ∨ ∃ r ∈ db.externalIdentities, r.userId = u.id

/-- The primary key of the users, each of whom can sign in. -/
structure Database.Accessible (db : Database) : Prop where
  unique : Table.Unique User.id db.users
  methods : ∀ u ∈ db.users, db.HasMethod u

/-- The machine of the service. -/
def machine (G : Configuration) : Machine (Sessions Database Point ExternalIdentity)
    (Label Point Reading Outside) :=
  (code G).machine Database.Accessible

end ResourceHive.Sessions.GoogleSignIn
