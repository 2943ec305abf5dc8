import ResourceHive.Sessions.GoogleSignIn
import ResourceHive.Sessions.PasswordReset

/-!
# Sessions/SignInMethods — every user can sign in, and a Google subject is one user's

A commit either disconnects an identity, of a user whose password was compared before, or takes
nothing away (`Grows`): users keep their passwords, identities keep their users, and a new user
has one of the two.  So every user can sign in.  A callback that returns a session returns it for the
user of the row it has found or created, and only that user's disconnection ends his ownership of
the subject; if it comes between two sign-ups with one subject, these are of two users.
-/

namespace ResourceHive.Sessions.GoogleSignIn

open Organizations (OrganizationEmailDomain EmailVerificationToken)

variable {G : Configuration} {db db' db'' : Database} {hist : List ExternalIdentity}

/-! ## What takes nothing away -/

/-- The same user, later: with a password if there was one. -/
def LaterUser (u u' : User) : Prop := u'.id = u.id ∧ (u.passwordHash.isSome → u'.passwordHash.isSome)

theorem LaterUser.refl (u : User) : LaterUser u u := ⟨rfl, fun h => h⟩

theorem LaterUser.trans {u u' u'' : User} (h : LaterUser u u') (h' : LaterUser u' u'') :
    LaterUser u u'' := ⟨h'.1.trans h.1, fun hu => h'.2 (h.2 hu)⟩

/-- **Nothing is taken away**, and what is added can be signed in with: new users have a method, and
new identities an id that none of the disconnected has had. -/
structure Grows (hist : List ExternalIdentity) (db db' : Database) : Prop where
  unique : Table.Unique User.id db.users → Table.Unique User.id db'.users
  users : ∀ u ∈ db.users, ∃ u' ∈ db'.users, LaterUser u u'
  accounts : ∀ u' ∈ db'.users, (∃ u ∈ db.users, LaterUser u u') ∨ db'.HasMethod u'
  identities : ∀ r ∈ db.externalIdentities, ∃ r' ∈ db'.externalIdentities, r'.key = r.key
  fresh : ∀ r' ∈ db'.externalIdentities, (∃ r ∈ db.externalIdentities, r.key = r'.key)
    ∨ ∀ d ∈ hist, d.id ≠ r'.id

theorem Grows.refl (hist : List ExternalIdentity) (db : Database) : Grows hist db db where
  unique h := h
  users u hu := ⟨u, hu, .refl u⟩
  accounts u hu := .inl ⟨u, hu, .refl u⟩
  identities r hr := ⟨r, hr, rfl⟩
  fresh r hr := .inl ⟨r, hr, rfl⟩

/-- A method is kept. -/
theorem Grows.hasMethod (h : Grows hist db db') {u u' : User} (hlater : LaterUser u u')
    (hu : db.HasMethod u) : db'.HasMethod u' := by
  rcases hu with hhash | ⟨r, hr, huser⟩
  · exact .inl (hlater.2 hhash)
  · obtain ⟨r', hr', hkey⟩ := h.identities r hr
    exact .inr ⟨r', hr', (ExternalIdentity.key_eq hkey).2.1.trans (huser.trans hlater.1.symm)⟩

theorem Grows.trans (h : Grows hist db db') (h' : Grows hist db' db'') : Grows hist db db'' where
  unique hu := h'.unique (h.unique hu)
  users u hu := by
    obtain ⟨u', hu', hlater⟩ := h.users u hu
    obtain ⟨u'', hu'', hlater'⟩ := h'.users u' hu'
    exact ⟨u'', hu'', hlater.trans hlater'⟩
  accounts u'' hu'' := by
    rcases h'.accounts u'' hu'' with ⟨u', hu', hlater'⟩ | hmethod
    · rcases h.accounts u' hu' with ⟨u, hu, hlater⟩ | hmethod
      · exact .inl ⟨u, hu, hlater.trans hlater'⟩
      · exact .inr (h'.hasMethod hlater' hmethod)
    · exact .inr hmethod
  identities r hr := by
    obtain ⟨r', hr', hkey⟩ := h.identities r hr
    obtain ⟨r'', hr'', hkey'⟩ := h'.identities r' hr'
    exact ⟨r'', hr'', hkey'.trans hkey⟩
  fresh r'' hr'' := by
    rcases h'.fresh r'' hr'' with ⟨r', hr', hkey'⟩ | hnew
    · rcases h.fresh r' hr' with ⟨r, hr, hkey⟩ | hnew
      · exact .inl ⟨r, hr, hkey.trans hkey'⟩
      · rw [← (ExternalIdentity.key_eq hkey').1]
        exact .inr hnew
    · exact .inr hnew

/-- Users are changed, or added with a password. -/
theorem Grows.of_users (hunique : Table.Unique User.id db.users → Table.Unique User.id db'.users)
    (husers : ∀ u ∈ db.users, ∃ u' ∈ db'.users, LaterUser u u')
    (haccounts : ∀ u' ∈ db'.users, (∃ u ∈ db.users, LaterUser u u') ∨ u'.passwordHash.isSome)
    (hids : db'.externalIdentities = db.externalIdentities) : Grows hist db db' where
  unique := hunique
  users := husers
  accounts u' hu' := (haccounts u' hu').imp_right .inl
  identities r hr := ⟨r, hids ▸ hr, rfl⟩
  fresh r hr := .inl ⟨r, hids ▸ hr, rfl⟩

/-- Each user is changed. -/
theorem Grows.of_map {f : User → User} (husers : db'.users = db.users.map f)
    (hf : ∀ u, LaterUser u (f u)) (hids : db'.externalIdentities = db.externalIdentities) :
    Grows hist db db' := by
  refine .of_users (fun h => ?_) (fun u hu => ?_) (fun u' hu' => ?_) hids
  · rw [husers]
    exact h.map fun u => (hf u).1
  · exact ⟨f u, husers ▸ List.mem_map_of_mem hu, hf u⟩
  · rw [husers] at hu'
    obtain ⟨u, hu, rfl⟩ := List.mem_map.mp hu'
    exact .inl ⟨u, hu, hf u⟩

/-- Identities are changed or added. -/
theorem Grows.of_identities (husers : db'.users = db.users)
    (hids : ∀ r ∈ db.externalIdentities, ∃ r' ∈ db'.externalIdentities, r'.key = r.key)
    (hfresh : ∀ r' ∈ db'.externalIdentities, (∃ r ∈ db.externalIdentities, r.key = r'.key)
      ∨ ∀ d ∈ hist, d.id ≠ r'.id) : Grows hist db db' where
  unique h := husers ▸ h
  users u hu := ⟨u, husers ▸ hu, .refl u⟩
  accounts u hu := .inl ⟨u, husers ▸ hu, .refl u⟩
  identities := hids
  fresh := hfresh

/-! ## Which statements do -/

/-- A user is given a password. -/
theorem later_updatePassword (userId : Uuid) (passwordHash : String) (u : User) :
    LaterUser u (if u.id = userId then { u with passwordHash := some passwordHash } else u) := by
  split
  · exact ⟨rfl, fun _ => rfl⟩
  · exact .refl u

/-- What the statements of the other calls do to the users. -/
theorem exists_map_users {w : ResetTokens.Statement} {d d' : Sessions.Database}
    (h : w.exec d = some d') : ∃ f, d'.users = d.users.map f ∧ ∀ u, LaterUser u (f u) := by
  have hsame (hu : d'.users = d.users) : ∃ f, d'.users = d.users.map f ∧ ∀ u, LaterUser u (f u) :=
    ⟨id, by rw [List.map_id, hu], .refl⟩
  cases w with
  | create token =>
    simp only [ResetTokens.Statement.exec, Option.ite_none_right_eq_some,
      Option.map_eq_some_iff] at h
    obtain ⟨-, _, -, rfl⟩ := h
    exact hsame rfl
  | auth w =>
    have h : w.exec d = some d' := h
    cases w with
    | updatePassword userId passwordHash =>
      simp only [Write.exec, Option.ite_none_right_eq_some, Option.some.injEq] at h
      obtain ⟨-, rfl⟩ := h
      exact ⟨_, rfl, later_updatePassword userId passwordHash⟩
    | claim | create | start | revoke | switch | claimReset | claimResets =>
      exact hsame (users_exec (fun _ _ hw => by cases hw) h)

theorem grows_account {w : ResetTokens.Statement}
    (h : (Statement.account w).exec db = some db') : Grows hist db db' := by
  obtain ⟨d, hd, rfl⟩ := Option.map_eq_some_iff.mp h
  obtain ⟨f, hf, hlater⟩ := exists_map_users hd
  exact .of_map hf hlater rfl

/-- The transactions of the other calls. -/
theorem grows_accounts {ws : List ResetTokens.Statement}
    (h : (code G).replay (ws.map .account) db = some db') : Grows hist db db' := by
  induction ws generalizing db with
  | nil =>
    obtain rfl : db = db' := Option.some.inj h
    exact .refl hist db
  | cons w ws ih =>
    obtain ⟨db₁, hw, hrest⟩ := Option.bind_eq_some_iff.mp h
    exact (grows_account hw).trans (ih hrest)

theorem users_createUser {user : User} (h : (Statement.createUser user).exec db = some db') :
    db'.users = db.users ++ [user] ∧ db'.externalIdentities = db.externalIdentities
      ∧ ∀ u ∈ db.users, u.id ≠ user.id := by
  simp only [Statement.exec, Option.ite_none_right_eq_some, Option.some.injEq, List.all_eq_true,
    Bool.and_eq_true, decide_eq_true_eq] at h
  obtain ⟨hnew, rfl⟩ := h
  exact ⟨rfl, rfl, fun u hu => (hnew u hu).1⟩

theorem grows_createUser {user : User} (h : (Statement.createUser user).exec db = some db')
    (hhash : user.passwordHash.isSome) : Grows hist db db' := by
  obtain ⟨husers, hids, hnew⟩ := users_createUser h
  refine .of_users (fun hu => ?_) (fun u hu => ?_) (fun u' hu' => ?_) hids
  · rw [husers]
    exact hu.append hnew
  · exact ⟨u, by simp [husers, hu], .refl u⟩
  · rw [husers, List.mem_append, List.mem_singleton] at hu'
    rcases hu' with hu' | rfl
    · exact .inl ⟨u', hu', .refl u'⟩
    · exact .inr hhash

theorem grows_insert {identity : ExternalIdentity} (h : db.insertIdentity identity = some db')
    (hfresh : ∀ d ∈ hist, d.id ≠ identity.id) : Grows hist db db' := by
  simp only [Database.insertIdentity, Option.ite_none_right_eq_some, Option.map_eq_some_iff] at h
  obtain ⟨-, T, hT, rfl⟩ := h
  refine .of_identities rfl (fun r hr => ⟨r, (Table.mem_insert hT).mpr (.inl hr), rfl⟩)
    fun r' hr' => ?_
  rcases (Table.mem_insert hT).mp hr' with hr' | rfl
  · exact .inl ⟨r', hr', rfl⟩
  · exact .inr hfresh

/-- An identity is used. -/
theorem grows_use {p : ExternalIdentity → Bool} {providerEmail : String} {now : Timestamp}
    {T : Table ExternalIdentity ExternalIdentity.Constraints}
    (h : db.externalIdentities.update p (.use providerEmail now) = some T) :
    Grows hist db { db with externalIdentities := T } := by
  have hkey (r : ExternalIdentity) : (if p r then r.use providerEmail now else r).key = r.key := by
    split <;> rfl
  refine .of_identities rfl (fun r hr => ⟨_, (Table.mem_update h).mpr ⟨r, hr, rfl⟩, hkey r⟩)
    fun r' hr' => ?_
  obtain ⟨r, hr, rfl⟩ := (Table.mem_update h).mp hr'
  exact .inl ⟨r, hr, (hkey r).symm⟩

theorem grows_upsert {identity : ExternalIdentity} {now : Timestamp}
    (h : (Statement.upsertIdentity identity now).exec db = some db')
    (hfresh : ∀ d ∈ hist, d.id ≠ identity.id) : Grows hist db db' := by
  simp only [Statement.exec] at h
  split at h
  · obtain ⟨T, hT, rfl⟩ := Option.map_eq_some_iff.mp h
    exact grows_use hT
  · exact grows_insert h hfresh

/-- A sign-up: a user without a password, and an identity of it. -/
theorem grows_signUp {user : User} {identity : ExternalIdentity}
    (huser : (Statement.createUser user).exec db = some db')
    (h : db'.insertIdentity identity = some db'') (hown : identity.userId = user.id)
    (hfresh : ∀ d ∈ hist, d.id ≠ identity.id) : Grows hist db db'' := by
  obtain ⟨husers, hids, hnew⟩ := users_createUser huser
  have hinsert : Grows hist db' db'' := grows_insert h hfresh
  have hmem : identity ∈ db''.externalIdentities := by
    simp only [Database.insertIdentity, Option.ite_none_right_eq_some, Option.map_eq_some_iff] at h
    obtain ⟨-, T, hT, rfl⟩ := h
    exact (Table.mem_insert hT).mpr (.inr rfl)
  refine ⟨fun hu => hinsert.unique ?_, fun u hu => hinsert.users u (by simp [husers, hu]),
    fun u'' hu'' => ?_, fun r hr => hinsert.identities r (hids ▸ hr), hids ▸ hinsert.fresh⟩
  · rw [husers]
    exact hu.append hnew
  · rcases hinsert.accounts u'' hu'' with ⟨u', hu', hlater⟩ | hmethod
    · rw [husers, List.mem_append, List.mem_singleton] at hu'
      rcases hu' with hu' | rfl
      · exact .inl ⟨u', hu', hlater⟩
      · exact .inr (.inr ⟨identity, hmem, hown.trans hlater.1.symm⟩)
    · exact .inr hmethod

/-! ## Disconnecting -/

/-- A user has a password. -/
def HasPassword (db : Database) (userId : Uuid) : Prop :=
  ∃ u ∈ db.users, u.id = userId ∧ u.passwordHash.isSome

/-- **A copy of a row is known**: the row is there, or it has been disconnected and no row has its
id. -/
def Known (hist : List ExternalIdentity) (db : Database) (row : ExternalIdentity) : Prop :=
  (∃ r ∈ db.externalIdentities, r.key = row.key) ∨
    (∃ d ∈ hist, d.key = row.key) ∧ ∀ r ∈ db.externalIdentities, r.id ≠ row.id

theorem Known.of_mem {r : ExternalIdentity} (hr : r ∈ db.externalIdentities) : Known hist db r :=
  .inl ⟨r, hr, rfl⟩

/-- The row with the id of a known copy is the row copied. -/
theorem Known.key_eq {row r : ExternalIdentity} (h : Known hist db row)
    (hr : r ∈ db.externalIdentities) (hid : r.id = row.id) : r.key = row.key := by
  rcases h with ⟨r', hr', hkey⟩ | ⟨-, hgone⟩
  · rw [db.externalIdentities.valid.1.eq hr hr'
      (hid.trans (ExternalIdentity.key_eq hkey).1.symm), hkey]
  · exact absurd hid (hgone r hr)

theorem Grows.hasPassword (h : Grows hist db db') {userId : Uuid} (hu : HasPassword db userId) :
    HasPassword db' userId := by
  obtain ⟨u, hu, rfl, hhash⟩ := hu
  obtain ⟨u', hu', hlater⟩ := h.users u hu
  exact ⟨u', hu', hlater.1, hlater.2 hhash⟩

theorem Grows.known (h : Grows hist db db') {row : ExternalIdentity} (hrow : Known hist db row) :
    Known hist db' row := by
  rcases hrow with ⟨r, hr, hkey⟩ | ⟨⟨d, hd, hkey⟩, hgone⟩
  · obtain ⟨r', hr', hkey'⟩ := h.identities r hr
    exact .inl ⟨r', hr', hkey'.trans hkey⟩
  · refine .inr ⟨⟨d, hd, hkey⟩, fun r' hr' hid => ?_⟩
    have hdid : d.id = r'.id := (ExternalIdentity.key_eq hkey).1.trans hid.symm
    rcases h.fresh r' hr' with ⟨r, hr, hold⟩ | hnew
    · exact hgone r hr ((ExternalIdentity.key_eq hold).1.trans hid)
    · exact hnew d hd hdid

theorem Grows.accessible (h : Grows hist db db') (hdb : db.Accessible) : db'.Accessible where
  unique := h.unique hdb.unique
  methods u' hu' := by
    rcases h.accounts u' hu' with ⟨u, hu, hlater⟩ | hmethod
    · exact h.hasMethod hlater (hdb.methods u hu)
    · exact hmethod

/-- **The commit of a disconnection** takes the row with its id, and nothing else. -/
structure Loses (row : ExternalIdentity) (db db' : Database) : Prop where
  users : db'.users = db.users
  there : ∃ r ∈ db.externalIdentities, r.id = row.id
  identities : ∀ r, r ∈ db'.externalIdentities ↔ r ∈ db.externalIdentities ∧ r.id ≠ row.id

theorem loses_delete {row : ExternalIdentity}
    (h : (Statement.deleteIdentity row.id).exec db = some db') : Loses row db db' := by
  simp only [Statement.exec, Option.ite_none_right_eq_some, Option.map_eq_some_iff,
    List.any_eq_true, decide_eq_true_eq] at h
  obtain ⟨hthere, T, hT, rfl⟩ := h
  refine ⟨rfl, hthere, fun r => ?_⟩
  rw [Table.mem_delete hT, decide_eq_false_iff_not]

variable {row : ExternalIdentity}

theorem Loses.known (h : Loses row db db') (hrow : Known hist db row) {copy : ExternalIdentity}
    (hcopy : Known hist db copy) : Known (hist ++ [row]) db' copy := by
  rcases hcopy with ⟨r, hr, hkey⟩ | ⟨⟨d, hd, hkey⟩, hgone⟩
  · by_cases hid : r.id = row.id
    · have hsame : copy.id = row.id := (ExternalIdentity.key_eq hkey).1.symm.trans hid
      refine .inr ⟨⟨row, by simp, (hrow.key_eq hr hid).symm.trans hkey⟩, fun r' hr' hid' => ?_⟩
      exact ((h.identities r').mp hr').2 (hid'.trans hsame)
    · exact .inl ⟨r, (h.identities r).mpr ⟨hr, hid⟩, hkey⟩
  · exact .inr ⟨⟨d, by simp [hd], hkey⟩, fun r hr => hgone r ((h.identities r).mp hr).1⟩

theorem Loses.hasPassword (h : Loses row db db') {userId : Uuid} (hu : HasPassword db userId) :
    HasPassword db' userId := by
  rw [HasPassword, h.users]
  exact hu

/-- The user of the row signs in with the password. -/
theorem Loses.accessible (h : Loses row db db') (hrow : Known hist db row)
    (hpassword : HasPassword db row.userId) (hdb : db.Accessible) : db'.Accessible where
  unique := h.users ▸ hdb.unique
  methods u hu := by
    rw [h.users] at hu
    rcases hdb.methods u hu with hhash | ⟨r, hr, huser⟩
    · exact .inl hhash
    · by_cases hid : r.id = row.id
      · obtain ⟨v, hv, hvid, hhash⟩ := hpassword
        have howner : r.userId = row.userId := (ExternalIdentity.key_eq (hrow.key_eq hr hid)).2.1
        rw [hdb.unique.eq hu hv (huser.symm.trans (howner.trans hvid.symm))]
        exact .inl hhash
      · exact .inr ⟨r, (h.identities r).mpr ⟨hr, hid⟩, huser⟩

/-! ## The outline -/

/-- The id that the row to be inserted has been given. -/
def Point.drawn : Point → Option Uuid
  | .connecting _ _ x => some x.id
  | .signingUp _ x => some x.secondId
  | _ => none

/-- **Identifiers are fresh**: none for a new identity is that of a disconnected one. -/
def FreshIds (s : Sessions Database Point ExternalIdentity) : Label Point Reading Outside → Prop
  | .commit i => ∀ c ∈ s.calls[i]?, ∀ id ∈ c.pc.drawn, ∀ d ∈ s.history, d.id ≠ id
  | _ => True

/-- In `createSessionForUser`, for a user. -/
def SessionOf (userId : Uuid) : Sessions.Point → Prop
  | .createSessionForUser u _ | .sessionAccess u _ _ => u = userId
  | .issuing token _ | .finished (.session token _) => token.userId = userId
  | .finished _ | .failed _ => True
  | _ => False

theorem SessionOf.read {K : Crypto} {d : Sessions.Database} {x : Sessions.Reading} {userId : Uuid}
    {p p' : Sessions.Point} (hp : SessionOf userId p) (h : p.read K d x = some p') :
    SessionOf userId p' := by
  cases p with
  | createSessionForUser | sessionAccess =>
    obtain rfl := Option.some.inj h
    exact hp
  | issuing | finished | failed => cases h
  | login | loginCompare | refreshSession | refreshContext | refreshAccess | rotating
  | revokeSession | revokeRefreshTokenFamily | revoking | switchActiveUniversity | switchFind
  | switchUpdate | switching | switchUser | resetPassword | resetTransaction | resetting =>
    exact hp.elim

theorem SessionOf.committed {K : Crypto} {userId : Uuid} {p : Sessions.Point}
    (hp : SessionOf userId p) : SessionOf userId ((Sessions.code K).committed p) := by
  cases p with
  | createSessionForUser | sessionAccess | issuing | finished | failed => exact hp
  | login | loginCompare | refreshSession | refreshContext | refreshAccess | rotating
  | revokeSession | revokeRefreshTokenFamily | revoking | switchActiveUniversity | switchFind
  | switchUpdate | switching | switchUser | resetPassword | resetTransaction | resetting =>
    exact hp.elim

theorem SessionOf.rolledBack {K : Crypto} {userId : Uuid} {p : Sessions.Point}
    (hp : SessionOf userId p) : SessionOf userId ((Sessions.code K).rolledBack p) := by
  cases p with
  | createSessionForUser | sessionAccess | issuing => trivial
  | finished | failed => exact hp
  | login | loginCompare | refreshSession | refreshContext | refreshAccess | rotating
  | revokeSession | revokeRefreshTokenFamily | revoking | switchActiveUniversity | switchFind
  | switchUpdate | switching | switchUser | resetPassword | resetTransaction | resetting =>
    exact hp.elim

/-- **What is known of a call**: a disconnection is of a user with a password, and a session is of
the user of a known row with the subject that Google has verified. -/
def At (db : Database) (hist : List ExternalIdentity) : Point → Prop
  | .registering user _ => user.passwordHash.isSome
  | .findConnected userId => HasPassword db userId
  | .disconnecting row => HasPassword db row.userId ∧ Known hist db row
  | .signingIn identity row _ _ =>
    row.providerSubject = identity.subject ∧ Known hist db row
  | .session identity row _ p =>
    row.providerSubject = identity.subject ∧ Known hist db row ∧ SessionOf row.userId p
  | .signedIn identity row token _ =>
    row.providerSubject = identity.subject ∧ Known hist db row ∧ token.userId = row.userId
  | _ => True

/-- Through a commit that keeps passwords and what is known of rows. -/
theorem At.mono {hist' : List ExternalIdentity} {p : Point} (h : At db hist p)
    (hpassword : ∀ userId, HasPassword db userId → HasPassword db' userId)
    (hknown : ∀ row, Known hist db row → Known hist' db' row) : At db' hist' p := by
  cases p with
  | registering => exact h
  | findConnected => exact hpassword _ h
  | disconnecting => exact ⟨hpassword _ h.1, hknown _ h.2⟩
  | signingIn => exact ⟨h.1, hknown _ h.2⟩
  | session | signedIn => exact ⟨h.1, hknown _ h.2.1, h.2.2⟩
  | account | register | hashPassword | registerTransaction | registered | completeGoogleCallback
  | connectUser | connectOther | connecting | connected | emailOwner | signingUp | racedIdentity
  | disconnectGoogle | disconnected | requestPasswordSetup | threw | failed => trivial

theorem Grows.at (h : Grows hist db db') {p : Point} (hp : At db hist p) : At db' hist p :=
  hp.mono (fun _ => h.hasPassword) fun _ => h.known

theorem mem_of_identity? {subject : String} {r : ExternalIdentity}
    (h : db.identity? subject = some r) :
    r ∈ db.externalIdentities ∧ r.providerSubject = subject := by
  have hp := Table.pred_of_find? h
  exact ⟨Table.mem_of_find? h, of_decide_eq_true hp⟩

/-- A sign-in, with the row found for the subject. -/
theorem at_signingIn {identity : GoogleIdentity} {r : ExternalIdentity}
    (h : db.identity? identity.subject = some r) (next : Option String) (now : Timestamp) :
    At db hist (.signingIn identity r next now) :=
  ⟨(mem_of_identity? h).2, .of_mem (mem_of_identity? h).1⟩

theorem at_afterLookup (flow : GoogleOAuthFlow) (identity : GoogleIdentity) (now : Timestamp) :
    At db hist (afterLookup db flow identity now (db.identity? identity.subject)) := by
  unfold afterLookup
  cases flow.purpose with
  | connect =>
    cases flow.userId with
    | none => trivial
    | some userId => dsimp only; split <;> trivial
  | login =>
    cases hfound : db.identity? identity.subject with
    | none => trivial
    | some r =>
      dsimp only
      split
      · trivial
      · exact at_signingIn hfound _ _

theorem at_completeGoogleCallback (flow : Option GoogleOAuthFlow) (state : String)
    (identity : Option GoogleIdentity) (now : Timestamp) :
    At db hist (completeGoogleCallback db flow state identity now) := by
  unfold completeGoogleCallback
  cases flow with
  | none => trivial
  | some flow =>
    cases identity with
    | none => dsimp only; split <;> trivial
    | some identity =>
      dsimp only
      split
      · trivial
      · exact at_afterLookup flow identity now

theorem at_racedIdentity (identity : GoogleIdentity) (now : Timestamp) :
    At db hist (racedIdentity db identity now) := by
  unfold racedIdentity
  cases hfound : db.identity? identity.subject with
  | none => trivial
  | some r =>
    dsimp only
    split
    · trivial
    · exact at_signingIn hfound _ _

/-- Whose password is verified has one. -/
theorem hasPassword_of_verifyPassword {userId : Uuid} {password : String}
    (h : verifyPassword G db userId password) : HasPassword db userId := by
  obtain ⟨user, huser, hp⟩ := (Option.any_eq_true _ _).mp h
  obtain ⟨-, hhash⟩ := Bool.and_eq_true _ _ ▸ hp
  obtain ⟨hash, hhash, -⟩ := (Option.any_eq_true _ _).mp hhash
  have hsome : user.passwordHash = some hash := (Option.filter_eq_some_iff.mp hhash).1
  exact ⟨user, List.mem_of_find?_eq_some huser, id_of_user? huser, by rw [hsome]; rfl⟩

/-- A session is started, or `createSessionForUser` goes on. -/
theorem read_session {x : Reading} {identity : GoogleIdentity} {row : ExternalIdentity}
    {next : Option String} {p : Sessions.Point} {p' : Point}
    (h : (Point.session identity row next p).read G db x = some p') :
    (∃ token passwordHash path, p = .finished (.session token passwordHash)
        ∧ p' = .signedIn identity row token path) ∨
      ∃ q, p.read G.crypto db.toDatabase x.toReading = some q
        ∧ p' = .session identity row next q := by
  have hmap {p : Sessions.Point}
      (h : (p.read G.crypto db.toDatabase x.toReading).map (.session identity row next) = some p') :
      ∃ q, p.read G.crypto db.toDatabase x.toReading = some q
        ∧ p' = .session identity row next q := by
    obtain ⟨q, hq, rfl⟩ := Option.map_eq_some_iff.mp h
    exact ⟨q, hq, rfl⟩
  cases p with
  | finished answer =>
    cases answer with
    | session token passwordHash =>
      obtain rfl := Option.some.inj h
      exact .inl ⟨token, passwordHash, _, rfl, rfl⟩
    | returned | refreshed | threw => cases h
  | createSessionForUser | sessionAccess | issuing | failed | login | loginCompare
  | refreshSession | refreshContext | refreshAccess | rotating | revokeSession
  | revokeRefreshTokenFamily | revoking | switchActiveUniversity | switchFind | switchUpdate
  | switching | switchUser | resetPassword | resetTransaction | resetting => exact .inr (hmap h)

theorem At.read {x : Reading} {p p' : Point} (hp : At db hist p)
    (h : p.read G db x = some p') : At db hist p' := by
  cases p with
  | account p =>
    obtain ⟨_, -, rfl⟩ := Option.map_eq_some_iff.mp h
    trivial
  | register email =>
    obtain rfl := Option.some.inj h
    unfold register
    split
    · trivial
    · dsimp only
      split <;> trivial
  | hashPassword email =>
    obtain rfl := Option.some.inj h
    split <;> trivial
  | registerTransaction email passwordHash =>
    obtain rfl := Option.some.inj h
    rfl
  | completeGoogleCallback flow state identity =>
    obtain rfl := Option.some.inj h
    exact at_completeGoogleCallback flow state identity x.now
  | connectUser userId identity =>
    obtain rfl := Option.some.inj h
    unfold connectUser
    split
    · trivial
    · split <;> trivial
  | connectOther userId identity =>
    obtain rfl := Option.some.inj h
    unfold connectOther
    split <;> trivial
  | emailOwner identity =>
    obtain rfl := Option.some.inj h
    split <;> trivial
  | racedIdentity identity =>
    obtain rfl := Option.some.inj h
    exact at_racedIdentity identity x.now
  | session identity row next p =>
    obtain ⟨hsubject, hknown, hp⟩ := hp
    rcases read_session h with ⟨token, hash, path, rfl, rfl⟩ | ⟨q, hq, rfl⟩
    · exact ⟨hsubject, hknown, hp⟩
    · exact ⟨hsubject, hknown, hp.read hq⟩
  | disconnectGoogle userId password =>
    obtain rfl := Option.some.inj h
    split
    · next hv => exact hasPassword_of_verifyPassword hv
    · trivial
  | findConnected userId =>
    obtain rfl := Option.some.inj h
    split
    · trivial
    · next row hfound =>
      have huser := Table.pred_of_find? hfound
      rw [← of_decide_eq_true huser] at hp
      exact ⟨hp, .of_mem (Table.mem_of_find? hfound)⟩
  | requestPasswordSetup userId =>
    obtain rfl := Option.some.inj h
    unfold requestPasswordSetup
    split
    · trivial
    · split <;> trivial
  | registering | registered | connecting | connected | signingIn | signingUp | signedIn
  | disconnecting | disconnected | threw | failed => cases h

theorem At.rolledBack {p : Point} (hp : At db hist p) : At db hist ((code G).rolledBack p) := by
  cases p with
  | session identity row next p => exact ⟨hp.1, hp.2.1, hp.2.2.rolledBack⟩
  | signedIn => exact hp
  | account | register | hashPassword | registerTransaction | registering | registered
  | completeGoogleCallback | connectUser | connectOther | connecting | connected | signingIn
  | emailOwner | signingUp | racedIdentity | disconnectGoogle | findConnected | disconnecting
  | disconnected | requestPasswordSetup | threw | failed => trivial

/-- The row that a sign-up has created is there. -/
theorem mem_insertIdentity {identity : ExternalIdentity}
    (h : db.insertIdentity identity = some db') : identity ∈ db'.externalIdentities := by
  simp only [Database.insertIdentity, Option.ite_none_right_eq_some, Option.map_eq_some_iff] at h
  obtain ⟨-, T, hT, rfl⟩ := h
  exact (Table.mem_insert hT).mpr (.inr rfl)

/-- The transaction of a sign-up. -/
theorem replay_signingUp {identity : GoogleIdentity} {x : Reading}
    (h : (code G).replay ((code G).writes (.signingUp identity x)) db = some db')
    (hfresh : ∀ d ∈ hist, d.id ≠ x.secondId) :
    Grows hist db db' ∧ newIdentity x.secondId x.id identity ∈ db'.externalIdentities := by
  obtain ⟨db₁, huser, hrest⟩ := Option.bind_eq_some_iff.mp h
  obtain ⟨db₂, hidentity, hlast⟩ := Option.bind_eq_some_iff.mp hrest
  obtain rfl : db₂ = db' := Option.some.inj hlast
  have hinsert : db₁.insertIdentity (newIdentity x.secondId x.id identity) = some db₂ := hidentity
  exact ⟨grows_signUp huser hinsert rfl hfresh, mem_insertIdentity hinsert⟩

/-- A transaction of one statement. -/
theorem exec_of_replay {w : Statement} (h : (code G).replay [w] db = some db') :
    w.exec db = some db' := by
  obtain ⟨db₁, hw, hlast⟩ := Option.bind_eq_some_iff.mp h
  obtain rfl : db₁ = db' := Option.some.inj hlast
  exact hw

/-- **A commit disconnects a row, or takes nothing away.** -/
theorem commit_cases {p : Point} (hp : At db hist p) (hfresh : ∀ id ∈ p.drawn, ∀ d ∈ hist, d.id ≠ id)
    (h : (code G).replay ((code G).writes p) db = some db') :
    (∃ row, p = .disconnecting row ∧ Loses row db db') ∨
      (code G).emits p = [] ∧ Grows hist db db' ∧ At db' hist ((code G).committed p) := by
  have hnothing (hw : (code G).writes p = []) : Grows hist db db' := by
    rw [hw] at h
    obtain rfl : db = db' := Option.some.inj h
    exact .refl hist db
  cases p with
  | account p => exact .inr ⟨rfl, grows_accounts h, trivial⟩
  | registering user token =>
    obtain ⟨db₁, huser, hrest⟩ := Option.bind_eq_some_iff.mp h
    have htoken := exec_of_replay hrest
    simp only [Statement.exec, Option.ite_none_right_eq_some, Option.map_eq_some_iff] at htoken
    obtain ⟨-, T, -, rfl⟩ := htoken
    have hgrows : Grows hist db db₁ := grows_createUser huser hp
    exact .inr ⟨rfl, ⟨hgrows.unique, hgrows.users, hgrows.accounts, hgrows.identities,
      hgrows.fresh⟩, trivial⟩
  | connecting userId identity x =>
    exact .inr ⟨rfl, grows_upsert (exec_of_replay h) (hfresh x.id rfl), trivial⟩
  | signingIn identity row next now =>
    have hexec := exec_of_replay h
    simp only [Statement.exec, Option.ite_none_right_eq_some, Option.map_eq_some_iff] at hexec
    obtain ⟨-, T, hT, rfl⟩ := hexec
    have hgrows : Grows hist db _ := grows_use hT
    exact .inr ⟨rfl, hgrows, hp.1, hgrows.known hp.2, rfl⟩
  | signingUp identity x =>
    obtain ⟨hgrows, hmem⟩ := replay_signingUp h (hfresh x.secondId rfl)
    exact .inr ⟨rfl, hgrows, rfl, .of_mem hmem, rfl⟩
  | session identity row next p =>
    have hwrites : (code G).writes (.session identity row next p) =
        (((Sessions.code G.crypto).writes p).map ResetTokens.Statement.auth).map .account := by
      rw [List.map_map]
      rfl
    rw [hwrites] at h
    have hgrows : Grows hist db db' := grows_accounts h
    exact .inr ⟨rfl, hgrows, hp.1, hgrows.known hp.2.1, hp.2.2.committed⟩
  | disconnecting row => exact .inl ⟨row, rfl, loses_delete (exec_of_replay h)⟩
  | signedIn => exact .inr ⟨rfl, hnothing rfl, (hnothing rfl).at hp⟩
  | findConnected => exact .inr ⟨rfl, hnothing rfl, (hnothing rfl).at hp⟩
  | register | hashPassword | registerTransaction | registered
  | completeGoogleCallback | connectUser | connectOther | connected | emailOwner | racedIdentity
  | disconnectGoogle | disconnected | requestPasswordSetup | threw | failed =>
    exact .inr ⟨rfl, hnothing rfl, trivial⟩

theorem grows_outside (x : Outside) : Grows hist db (x.exec db) := by
  cases x with
  | account userId status emailVerifiedAt =>
    refine .of_map rfl (fun u => ?_) rfl
    split
    · exact ⟨rfl, fun h => h⟩
    · exact .refl u
  | directory => exact .of_map (f := id) (List.map_id _).symm .refl rfl

theorem at_entry {p : Point} (h : (code G).entry p = true) : At db hist p := by
  cases p with
  | account | register | completeGoogleCallback | disconnectGoogle | requestPasswordSetup => trivial
  | hashPassword | registerTransaction | registering | registered | connectUser | connectOther
  | connecting | connected | signingIn | emailOwner | signingUp | racedIdentity | session
  | signedIn | findConnected | disconnecting | disconnected | threw | failed => cases h

/-- The outline: every user can sign in. -/
def outline (G : Configuration) : (code G).Outline FreshIds where
  Inv db _ := db.Accessible
  At := At
  entry _ h := at_entry h
  read _ hp h := hp.read h
  rolledBack _ hp := hp.rolledBack
  commit := by
    intro s i c db' hok hinv hat hc _ hrep
    rcases commit_cases hat (hok c hc) hrep with ⟨row, hrow, hloses⟩ | ⟨hemits, hgrows, hat'⟩
    · rw [hrow] at hat ⊢
      exact ⟨hloses.accessible hat.2 hat.1 hinv, trivial, fun j d _ _ hd =>
        hd.mono (fun _ => hloses.hasPassword) fun _ => hloses.known hat.2⟩
    · rw [hemits, List.append_nil]
      exact ⟨hgrows.accessible hinv, hat', fun j d _ _ hd => hgrows.at hd⟩
  outside := by
    intro s x db' _ hinv hx
    obtain rfl := Option.some.inj hx
    have hgrows : Grows s.history s.db (x.exec s.db) := grows_outside x
    exact ⟨hgrows.accessible hinv, fun _ _ hp => hgrows.at hp⟩

/-! ## The users of the sessions -/

/-- A Google callback has returned a session of a user, for whom it has found or created a row. -/
def Returned (s : Sessions Database Point ExternalIdentity) (i : ℕ) (identity : GoogleIdentity)
    (row : ExternalIdentity) (userId : Uuid) : Prop :=
  ∃ token path n, s.calls[i]? = some ⟨.signedIn identity row token path, n⟩
    ∧ token.userId = userId

/-- A row is still there. -/
def Connected (s : Sessions Database Point ExternalIdentity) (row : ExternalIdentity) : Prop :=
  ∃ r ∈ s.db.externalIdentities, r.key = row.key

/-- A row has been disconnected. -/
def Disconnected (s : Sessions Database Point ExternalIdentity) (row : ExternalIdentity) : Prop :=
  ∃ d ∈ s.history, d.key = row.key

variable {s : Sessions Database Point ExternalIdentity}

/-- A session is of the owner of the subject, unless he has disconnected it since. -/
theorem owner_of_returned (hs : (machine G).Reachable FreshIds s) {i : ℕ}
    {identity : GoogleIdentity} {userId : Uuid} (h : Returned s i identity row userId) :
    row.userId = userId ∧ row.providerSubject = identity.subject
      ∧ (Connected s row ∨ Disconnected s row) := by
  obtain ⟨token, path, n, hc, rfl⟩ := h
  have hholds : (outline G).Holds s := Code.Outline.holds_of_reachable (fun _ h => h) hs
  obtain ⟨hsubject, hknown, huser⟩ := hholds.at hc
  exact ⟨huser.symm, hsubject, hknown.imp_right fun h => h.1⟩

/-- Two rows with one subject that are both there are one user's. -/
theorem Connected.user_eq {row' : ExternalIdentity} (h : Connected s row) (h' : Connected s row')
    (hsubject : row.providerSubject = row'.providerSubject) : row.userId = row'.userId := by
  obtain ⟨r, hr, hkey⟩ := h
  obtain ⟨r', hr', hkey'⟩ := h'
  obtain ⟨-, huser, hsub⟩ := ExternalIdentity.key_eq hkey
  obtain ⟨-, huser', hsub'⟩ := ExternalIdentity.key_eq hkey'
  have hsame : r = r' := s.db.externalIdentities.valid.2.1.eq hr hr'
    (hsub.trans (hsubject.trans hsub'.symm))
  rw [← huser, ← huser', hsame]

/-- **Sign-in methods, and ownership of Google identities.**  Whatever the calls do, in whatever
order: every user has a password or a Google identity, a subject is one user's and a user has one
identity, and a callback that has returned a session has returned it for the owner of the subject,
unless he has disconnected it since; so callbacks for one subject have returned theirs for one user,
unless one of the identities has been disconnected. -/
theorem sign_in_methods (hs : (machine G).Reachable FreshIds s) :
    (∀ u ∈ s.db.users, s.db.HasMethod u) ∧
    (∀ r ∈ s.db.externalIdentities, ∀ r' ∈ s.db.externalIdentities,
      (r.providerSubject = r'.providerSubject → r.userId = r'.userId)
        ∧ (r.userId = r'.userId → r = r')) ∧
    ∀ i identity row u, Returned s i identity row u →
      row.userId = u ∧ row.providerSubject = identity.subject
        ∧ (Connected s row ∨ Disconnected s row) ∧
      ∀ j identity' row' v, Returned s j identity' row' v → identity.subject = identity'.subject →
        u = v ∨ Disconnected s row ∨ Disconnected s row' := by
  have hholds : (outline G).Holds s := Code.Outline.holds_of_reachable (fun _ h => h) hs
  refine ⟨hholds.inv.methods, fun r hr r' hr' => ⟨fun hsub => ?_, fun huser => ?_⟩, ?_⟩
  · rw [s.db.externalIdentities.valid.2.1.eq hr hr' hsub]
  · exact s.db.externalIdentities.valid.2.2.eq hr hr' huser
  · intro i identity row u hu
    obtain ⟨huser, hsubject, hrow⟩ := owner_of_returned hs hu
    refine ⟨huser, hsubject, hrow, fun j identity' row' v hv hsame => ?_⟩
    obtain ⟨huser', hsubject', hrow'⟩ := owner_of_returned hs hv
    rcases hrow with hthere | hgone
    · rcases hrow' with hthere' | hgone
      · left
        rw [← huser, ← huser']
        exact hthere.user_eq hthere' (hsubject.trans (hsame.trans hsubject'.symm))
      · exact .inr (.inr hgone)
    · exact .inr (.inl hgone)

/-! ## Sign-ups that race -/

theorem refreshTokens_nil : RefreshToken.Constraints [] := by decide

theorem passwordResetTokens_nil : PasswordResetToken.Constraints [] := by decide

theorem emailDomains_nil : OrganizationEmailDomain.Constraints [] := by decide

theorem verificationTokens_nil : EmailVerificationToken.Constraints [] := by decide

theorem externalIdentities_nil : ExternalIdentity.Constraints [] := by decide

/-- Passwords that are their own hashes. -/
def sampleConfiguration : Configuration where
  crypto := ⟨id, fun password passwordHash => decide (password = passwordHash), 100⟩
  resetLifetimeMs := 100
  verificationLifetimeMs := 100
  text := ⟨id, id⟩
  standard := Standard.sample
  app := localhost

/-- Nobody has an account. -/
def noAccounts : Sessions Database Point ExternalIdentity where
  db :=
    { users := []
      organizations := []
      memberships := []
      refreshTokens := ⟨[], refreshTokens_nil⟩
      passwordResetTokens := ⟨[], passwordResetTokens_nil⟩
      emailDomains := ⟨[], emailDomains_nil⟩
      verificationTokens := ⟨[], verificationTokens_nil⟩
      externalIdentities := ⟨[], externalIdentities_nil⟩ }
  history := []
  calls := []

theorem init_noAccounts : (machine sampleConfiguration).init noAccounts :=
  ⟨⟨List.nodup_nil, fun _ h => by cases h⟩, rfl, rfl⟩

instance (s : Sessions Database Point ExternalIdentity) : DecidablePred (FreshIds s)
  | .commit i => inferInstanceAs
      (Decidable (∀ c ∈ s.calls[i]?, ∀ id ∈ c.pc.drawn, ∀ d ∈ s.history, d.id ≠ id))
  | .call _ | .read _ _ | .write _ | .rollback _ | .outside _ => .isTrue trivial

/-- Two sign-ups with one subject, each with an email of its own. -/
def bothSigningUp (email email' : String) : List (Label Point Reading Outside) :=
  let flow : GoogleOAuthFlow := { purpose := .login, state := "st" }
  [.call (.completeGoogleCallback (some flow) "st" (some ⟨"s", email⟩)),
    .call (.completeGoogleCallback (some flow) "st" (some ⟨"s", email'⟩)),
    .read 0 {}, .read 1 {}, .read 0 { id := 10, secondId := 20 },
    .read 1 { id := 11, secondId := 21 }]

/-- `createSessionForUser` up to its end, by call `i`. -/
def startSession (i : ℕ) (token : Uuid) (text : String) : List (Label Point Reading Outside) :=
  [.read i {}, .read i { id := token, familyId := token, text }, .write i, .commit i, .read i {}]

/-- The sessions that the two callbacks have returned are of these users. -/
def returnedTo (s : Sessions Database Point ExternalIdentity) (u v : Uuid) : Bool :=
  match s.calls with
  | ⟨.signedIn identity _ token _, _⟩ :: ⟨.signedIn identity' _ token' _, _⟩ :: _ =>
    decide (identity.subject = "s") && decide (token.userId = u)
      && decide (identity'.subject = "s") && decide (token'.userId = v)
  | _ => false

theorem exists_returned {s : Sessions Database Point ExternalIdentity} {u v : Uuid}
    (h : returnedTo s u v) : ∃ identity row identity' row', Returned s 0 identity row u
      ∧ Returned s 1 identity' row' v ∧ identity.subject = "s" ∧ identity'.subject = "s" := by
  unfold returnedTo at h
  split at h
  · next identity row token path n identity' row' token' path' n' calls hcalls =>
    simp only [Bool.and_eq_true, decide_eq_true_eq] at h
    obtain ⟨⟨⟨hs, hu⟩, hs'⟩, hv⟩ := h
    exact ⟨identity, row, identity', row', ⟨token, path, n, by rw [hcalls]; rfl, hu⟩,
      ⟨token', path', n', by rw [hcalls]; rfl, hv⟩, hs, hs'⟩
  · cases h

/-- **Whoever loses the race signs in to the account of who has won it.** -/
theorem sign_in_methods_of_race : ∃ s, (machine sampleConfiguration).Reachable FreshIds s
    ∧ (∀ u ∈ s.db.users, s.db.HasMethod u)
    ∧ ∃ identity row identity' row', Returned s 0 identity row 10 ∧ Returned s 1 identity' row' 10
      ∧ row.userId = 10 ∧ Connected s row := by
  obtain ⟨s, hs, hp⟩ := (machine sampleConfiguration).exists_reachable_guarded
    (p := fun s l => decide (FreshIds s l)) (s := noAccounts)
    (q := fun s => returnedTo s 10 10 && decide (s.history = []))
    (bothSigningUp "a" "a" ++ [.write 0, .write 0, .commit 0] ++ startSession 0 30 "r"
      ++ [.rollback 1, .read 1 {}, .write 1, .commit 1] ++ startSession 1 31 "q")
    init_noAccounts (by decide)
  simp only [decide_eq_true_eq] at hs
  simp only [Bool.and_eq_true, decide_eq_true_eq] at hp
  obtain ⟨identity, row, identity', row', h, h', -, -⟩ := exists_returned hp.1
  obtain ⟨hmethods, -, hsessions⟩ := sign_in_methods hs
  obtain ⟨huser, -, hrow, -⟩ := hsessions 0 identity row 10 h
  refine ⟨s, hs, hmethods, identity, row, identity', row', h, h', huser, ?_⟩
  rcases hrow with hthere | ⟨d, hd, -⟩
  · exact hthere
  · rw [hp.2] at hd
    cases hd

/-- A sign-up is under way: its callback has found neither an identity with the subject nor a user
with the email. -/
def SigningUp (s : Sessions Database Point ExternalIdentity) (i : ℕ) (subject : String) : Prop :=
  ∃ identity x n, identity.subject = subject ∧ s.calls[i]? = some ⟨.signingUp identity x, n⟩

/-- How a user without a password gets one, and disconnects Google with it. -/
def disconnectGoogle (userId : Uuid) : List (Label Point Reading Outside) :=
  [.call (.requestPasswordSetup userId), .read 2 {}, .read 2 {}, .read 2 { text := "t", now := 3 },
    .read 2 { id := 50, createdAt := 3 }, .write 2, .write 2, .commit 2,
    .call (.account (.auth (.resetPassword "t" "pw"))), .read 3 { now := 4 },
    .read 3 { text := "pw", now := 5 }, .read 3 {}, .read 3 {}, .write 3, .write 3, .write 3,
    .write 3, .commit 3,
    .call (.disconnectGoogle userId "pw"), .read 4 {}, .read 4 {}, .write 4, .commit 4]

/-- Two sign-ups are under way with one new subject, and can go on to return sessions of two users. -/
def partWays (s : Sessions Database Point ExternalIdentity) : Bool :=
  decide (s.calls[0]? = some ⟨.signingUp ⟨"s", "a"⟩ { id := 10, secondId := 20 }, 0⟩)
    && decide (s.calls[1]? = some ⟨.signingUp ⟨"s", "b"⟩ { id := 11, secondId := 21 }, 0⟩)
    && decide (s.db.identity? "s" = none)
    && (((machine sampleConfiguration).guarded fun s l => decide (FreshIds s l)).exec s
      ([.write 0, .write 0, .commit 0] ++ startSession 0 30 "r" ++ disconnectGoogle 10
        ++ [.write 1, .write 1, .commit 1] ++ startSession 1 31 "q")).any fun t =>
          returnedTo t 10 11

/-- **A Google account whose email changes between two sign-ups.**  The user of the first sets a
password and disconnects Google, and the second, which began before, creates a user of its own. -/
theorem concurrent_sign_ups_of_two_users : ∃ s t, (machine sampleConfiguration).Reachable FreshIds s
    ∧ SigningUp s 0 "s" ∧ SigningUp s 1 "s" ∧ s.db.identity? "s" = none
    ∧ (machine sampleConfiguration).Run FreshIds s t
    ∧ ∃ identity row identity' row', Returned t 0 identity row 10
      ∧ Returned t 1 identity' row' 11 ∧ identity.subject = "s" ∧ identity'.subject = "s" := by
  obtain ⟨s, hs, hp⟩ := (machine sampleConfiguration).exists_reachable_guarded
    (p := fun s l => decide (FreshIds s l)) (s := noAccounts) (q := partWays)
    (bothSigningUp "a" "b") init_noAccounts (by decide)
  simp only [decide_eq_true_eq] at hs
  simp only [partWays, Bool.and_eq_true, decide_eq_true_eq] at hp
  obtain ⟨⟨⟨hc, hc'⟩, hnew⟩, hrest⟩ := hp
  obtain ⟨t, hrun, ht⟩ := (machine sampleConfiguration).exists_run_guarded _ hrest
  simp only [decide_eq_true_eq] at hrun
  obtain ⟨identity, row, identity', row', h, h', hsub, hsub'⟩ := exists_returned ht
  exact ⟨s, t, hs, ⟨_, _, _, rfl, hc⟩, ⟨_, _, _, rfl, hc'⟩, hnew, hrun, identity, row, identity', row',
    h, h', hsub, hsub'⟩

end ResourceHive.Sessions.GoogleSignIn
